import JavaSource.Options
import JavaSource.Toml.Reader

/-!
# Reading layout options

Layout options can be given as a TOML document with the keys `indent`, `line-separator` and
`blank-line-between-members`. What is missing has its default, other keys do not count.
-/

namespace JavaSource

namespace Options

/-- The string under a key of a table, or a default; nothing if there is another value. -/
def stringAt (t : Toml.Table) (key default : String) : Option String :=
  match t.find? key with
  | none => some default
  | some (.string s) => some s
  | some _ => none

/-- The truth value under a key of a table, or a default; nothing if there is another value. -/
def flagAt (t : Toml.Table) (key : String) (default : Bool) : Option Bool :=
  match t.find? key with
  | none => some default
  | some (.boolean b) => some b
  | some _ => none

/-- The options that a document gives. -/
def read? (text : String) : Option Options := do
  let t ← Toml.read? text
  let standard : Options := {}
  return {
    indent := ← stringAt t "indent" standard.indent
    lineSeparator := ← stringAt t "line-separator" standard.lineSeparator
    blankLines := ← flagAt t "blank-line-between-members" standard.blankLines }

end Options

end JavaSource
