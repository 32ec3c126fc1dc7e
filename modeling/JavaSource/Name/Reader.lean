import JavaSource.Name
import JavaSource.Text.Blank
import JavaSource.Text.Split

/-!
# Reading names

A text is read as a name by splitting it at the dots; blank characters around the parts do not
count. Reading fails for a blank text, and otherwise at the first part that is not an identifier.
-/

namespace JavaSource

/-- The simple names of several tokens, or the first token that is not an identifier. -/
def simpleNames : List String → Except BuildError (List SimpleName)
  | [] => .ok []
  | token :: tokens => do
    let n ← SimpleName.ofToken token
    let ns ← simpleNames tokens
    return n :: ns

namespace Name

/-- The name with given segments, if there are any. -/
def ofSegments? : List SimpleName → Option Name
  | [] => none
  | n :: ns => some ((Name.simple n).append ns)

/-- The parts of a text between its dots, without the blank characters around them. -/
def parts (text : String) : List String :=
  (Text.split '.' text).map Text.trim

/-- Reads a text as a name. -/
def read (text : String) : Except BuildError Name :=
  if Text.trim text = "" then .error (.unparsable text .name)
  else do
    let ns ← simpleNames (parts (Text.trim text))
    match ofSegments? ns with
    | some n => return n
    | none => .error (.unparsable text .name)

/-- Reads the name of a member of an owner, such as a constant of an enum. -/
def readMember (owner member : String) : Except BuildError Name := do
  let q ← read owner
  let n ← SimpleName.ofToken (Text.trim member)
  return .qualified none q n

end Name

end JavaSource
