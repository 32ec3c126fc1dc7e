import JavaSource.Toml.Quoted
import JavaSource.Toml.Scalar
import JavaSource.Toml.Table

/-!
# Reading TOML documents

A document is a list of lines: keys with values, and headers that say to which table the following
keys belong. Reading is recursive descent; every function is given a bound on the number of its
steps, which `Toml.read?` derives from the length of the document. Arrays and tables in braces may
be nested eighty levels deep, and a key with dots has at most eighty parts. Inside brackets and
braces lines may end between any two of a key, an equals sign, a value and a comma.
-/

namespace JavaSource

namespace Toml

/-! ### What separates values -/

/-- The input without the spaces at its start. -/
def skipSpaces (cs : List Char) : List Char :=
  cs.dropWhile isSpace

/-- Takes the rest of a comment, up to the end of the line. -/
def comment? : List Char → Option (List Char)
  | [] => some []
  | '\n' :: r => some ('\n' :: r)
  | '\r' :: '\n' :: r => some ('\r' :: '\n' :: r)
  | c :: r => if isForbidden c then none else comment? r

/-- Takes spaces, a comment and the end of the line. -/
def lineEnd? (cs : List Char) : Option (List Char) := do
  let r ← match skipSpaces cs with
    | '#' :: r => comment? r
    | r => some r
  match r with
  | [] => return []
  | '\n' :: r | '\r' :: '\n' :: r => return r
  | _ => none

/-- Takes spaces, comments and ends of lines. -/
def gap? : (steps : Nat) → List Char → Option (List Char)
  | 0, _ => none
  | n + 1, cs =>
    match skipSpaces cs with
    | '\n' :: r | '\r' :: '\n' :: r => gap? n r
    | '#' :: r =>
      match comment? r with
      | some r => gap? n r
      | none => none
    | r => some r

/-! ### Keys -/

/-- Whether a character can stand in a key without quotes. -/
def isKeyChar (c : Char) : Bool :=
  isDigit c || ('a' ≤ c && c ≤ 'z') || ('A' ≤ c && c ≤ 'Z') || c == '_' || c == '-'

/-- A key without dots. -/
def key? (cs : List Char) : Option (String × List Char) :=
  match cs with
  | '"' :: _ | '\x27' :: _ => string? cs
  | _ =>
    let (k, r) := cs.span isKeyChar
    if k.isEmpty then none else some (String.ofList k, r)

/-- A key with dots and at most a given number of parts, as the keys up to the last dot and the
last key. -/
def parts? : (limit : Nat) → List Char → Option ((List String × String) × List Char)
  | 0, _ => none
  | n + 1, cs => do
    let (k, r) ← key? cs
    match skipSpaces r with
    | '.' :: r =>
      let ((ks, l), r) ← parts? n (skipSpaces r)
      return ((k :: ks, l), r)
    | r => return (([], k), r)

/-- A key with dots, as the keys up to the last dot and the last key. It has at most eighty
parts. -/
def path? (cs : List Char) : Option ((List String × String) × List Char) :=
  parts? 80 cs

/-! ### Values -/

/-- The value of a word without quotes. -/
def ofWord? (w : List Char) : Option Value :=
  if w = "true".toList then some (.boolean true)
  else if w = "false".toList then some (.boolean false)
  else if isInteger w || isFloat w || isMoment w then some .scalar
  else none

mutual

/-- A value. -/
def value? (steps depth : Nat) (cs : List Char) : Option (Value × List Char) :=
  match steps with
  | 0 => none
  | n + 1 =>
    match cs, depth with
    | '"' :: _, _ | '\x27' :: _, _ => (anyString? cs).map fun (s, r) => (.string s, r)
    | '[' :: r, d + 1 => (elements? n d r).map fun (vs, r) => (.array vs, r)
    | '\x7b' :: r, d + 1 =>
      (entries? n d (Table.empty .declared) r).map
        fun (t, r) => (.table (t.withStanding .closed), r)
    | _, _ =>
      let (w, r) := word cs
      (ofWord? w).map fun v => (v, r)

/-- The elements of an array and the closing bracket. -/
def elements? (steps depth : Nat) (cs : List Char) : Option (List Value × List Char) :=
  match steps with
  | 0 => none
  | n + 1 => do
    match ← gap? (cs.length + 1) cs with
    | ']' :: r => return ([], r)
    | r =>
      let (v, r) ← value? n depth r
      match ← gap? (r.length + 1) r with
      | ',' :: r =>
        let (vs, r) ← elements? n depth r
        return (v :: vs, r)
      | ']' :: r => return ([v], r)
      | _ => none

/-- The entries of a table in braces and the closing brace. -/
def entries? (steps depth : Nat) (t : Table) (cs : List Char) : Option (Table × List Char) :=
  match steps with
  | 0 => none
  | n + 1 => do
    match ← gap? (cs.length + 1) cs with
    | '\x7d' :: r => return (t, r)
    | r =>
      let ((ks, k), r) ← path? r
      match ← gap? (r.length + 1) r with
      | '=' :: r =>
        let (v, r) ← value? n depth (← gap? (r.length + 1) r)
        let t ← t.insert? ks k v
        match ← gap? (r.length + 1) r with
        | ',' :: r => entries? n depth t r
        | '\x7d' :: r => return (t, r)
        | _ => none
      | _ => none

end

/-! ### Documents -/

/-- The root table and the path of the table that the last header declared. -/
structure Document where
  /-- The root table. -/
  root : Table := Table.empty .declared
  /-- The path of the current table. -/
  current : List String := []

namespace Document

/-- The document with a value for a key of the current table. -/
def insert? (d : Document) (path : List String) (key : String) (v : Value) : Option Document :=
  (d.root |> Table.extend? .implied (Table.insert? path key v) d.current).map
    fun root => { d with root }

/-- The document after the key with dots of a header and its closing brackets. -/
def declare? (d : Document) (several : Bool) (path : List String) (key : String) :
    Option Document :=
  (if several then d.root.declareNext? path key else d.root.declare? path key).map
    fun root => ⟨root, path ++ [key]⟩

/-- The document after a line. -/
def line? (d : Document) (cs : List Char) : Option (Document × List Char) := do
  match skipSpaces cs with
  | '[' :: '[' :: r =>
    let ((ks, k), r) ← path? (skipSpaces r)
    match r with
    | ']' :: ']' :: r =>
      let d ← d.declare? true ks k
      return (d, ← lineEnd? r)
    | _ => none
  | '[' :: r =>
    let ((ks, k), r) ← path? (skipSpaces r)
    match r with
    | ']' :: r =>
      let d ← d.declare? false ks k
      return (d, ← lineEnd? r)
    | _ => none
  | [] => return (d, [])
  | '#' :: _ | '\n' :: _ | '\r' :: _ => return (d, ← lineEnd? cs)
  | r =>
    let ((ks, k), r) ← path? r
    match r with
    | '=' :: r =>
      let (v, r) ← value? (2 * r.length + 2) 80 (skipSpaces r)
      let d ← d.insert? ks k v
      return (d, ← lineEnd? r)
    | _ => none

/-- The document after all lines. -/
def lines? : (steps : Nat) → Document → List Char → Option Document
  | _, d, [] => some d
  | 0, _, _ => none
  | n + 1, d, cs =>
    match d.line? cs with
    | some (d, r) => lines? n d r
    | none => none

end Document

/-- The root table of a document. A byte order mark at the start does not count. -/
def read? (text : String) : Option Table :=
  let cs := match text.toList with
    | '\ufeff' :: r => r
    | cs => cs
  (Document.lines? cs.length {} cs).map Document.root

end Toml

end JavaSource
