import JavaSource.Doc

/-!
# Notes attached to nodes

Comments and documentation can be attached to any node that has a handle. They are no part of the
tree: `Notes` files them under the handles, so a note put on a node shows wherever that node is
used, and structure, comparison and digest never see it.
-/

namespace JavaSource

/-- What is attached to a handle. -/
structure Note where
  /-- The lines of a comment. -/
  comment : Option (List String) := none
  /-- The blocks of a documentation comment. -/
  documentation : Option (List DocBlock) := none

namespace Note

/-- The number of attachments. -/
def size (n : Note) : Nat :=
  n.comment.toList.length + n.documentation.toList.length

/-- Whether nothing is attached. -/
def isEmpty (n : Note) : Bool :=
  n.size == 0

end Note

/-- The notes filed under each handle. -/
structure Notes where
  /-- The note of each handle. -/
  entries : Array Note := #[]

namespace Notes

/-- The note of a handle. -/
def find (notes : Notes) : Handle → Note
  | none => {}
  | some i => notes.entries[i]?.getD {}

/-- A handle that was not in use, with nothing attached yet. -/
def fresh (notes : Notes) : Handle × Notes :=
  (some notes.entries.size, ⟨notes.entries.push {}⟩)

/-- The notes after a change to the note of one handle. -/
def update (notes : Notes) (f : Note → Note) : Handle → Notes
  | none => notes
  | some i => ⟨notes.entries.modify i f⟩

/-- The notes with the comment of a handle put or, for `none`, removed. -/
def setComment (notes : Notes) (h : Handle) (lines : Option (List String)) : Notes :=
  notes.update (fun n => { n with comment := lines }) h

/-- The notes with the documentation of a handle put or, for `none`, removed. -/
def setDocumentation (notes : Notes) (h : Handle) (blocks : Option (List DocBlock)) : Notes :=
  notes.update (fun n => { n with documentation := blocks }) h

end Notes

end JavaSource
