import JavaSource.Emission.Doc
import JavaSource.Note

/-!
# Tokens of attached notes

In front of a node that starts a line, a comment takes one line for each of its own lines; in front
of any other node it is a single comment inside the line. Attached documentation is a documentation
comment, whose blocks may have notes of their own.

`Notes.attached` follows notes inside notes to a given depth. As many levels as there are handles
are enough (`Notes.attached_context_eq`), unless documentation leads back to a node that was on the
way. Then no depth is enough, and there are no tokens that say what the notes say
(`Notes.Fills.ends`).
-/

namespace JavaSource

/-- The tokens of an attached comment. -/
def emitComment (lines : List String) : Placement → List Token
  | .ownLine =>
    [.raw "/*", .newline] ++ lines.flatMap (fun line => [.raw (" * " ++ line), .newline]) ++
      [.raw " */", .newline]
  | .inline => [.raw ("/* " ++ " ".intercalate lines ++ " */"), .space]

/-- What stands between an attachment and the node it is attached to. -/
def Placement.separator : Placement → Token
  | .ownLine => .newline
  | .inline => .space

/-- The tokens of a note: the comment first, then the documentation. -/
def Note.emit (x : EmitContext) (n : Note) (place : Placement) : List Token :=
  (match n.comment with
    | none => []
    | some lines => emitComment lines place) ++
  match n.documentation with
  | none => []
  | some blocks => docComment (blocks.map (DocBlock.emit x)) ++ [place.separator]

namespace Notes

/-- The tokens of the note of a handle, with the notes inside it to a given depth. -/
def attached (notes : Notes) : (depth : Nat) → Handle → Placement → List Token
  | 0, _, _ => []
  | depth + 1, h, place =>
    (notes.find h).emit ⟨fun h place => notes.attached depth h place, false⟩ place

/-- The context in which a tree with these notes is written. -/
def context (notes : Notes) (blankLines : Bool) : EmitContext :=
  ⟨notes.attached notes.entries.size, blankLines⟩

end Notes

end JavaSource
