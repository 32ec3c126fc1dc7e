/-!
# Tables of TOML documents

A table maps keys to values. Where a table may be extended later depends on how it came to be
(`Standing`): a table can have one header only, what keys with dots made can be extended by keys
with dots only, and a table in braces is complete.
-/

namespace JavaSource

namespace Toml

/-- How a table came to be. -/
inductive Standing where
  /-- It has a header, or is the document itself. -/
  | declared
  /-- It is part of the path of a header. -/
  | implied
  /-- It is part of a key with dots. -/
  | dotted
  /-- It is written in braces. -/
  | closed
  deriving DecidableEq

mutual

/-- A value. -/
inductive Value where
  /-- A string. -/
  | string (value : String)
  /-- A truth value. -/
  | boolean (value : Bool)
  /-- A number, a date or a time. -/
  | scalar
  /-- An array in brackets. -/
  | array (elements : List Value)
  /-- A table. -/
  | table (table : Table)
  /-- The tables with one header in double brackets. -/
  | tables (front : List Table) (last : Table)

/-- A table. -/
inductive Table where
  /-- The table with given entries. -/
  | mk (standing : Standing) (entries : List (String × Value))

end

namespace Table

/-- The empty table. -/
def empty (s : Standing) : Table := .mk s []

/-- How the table came to be. -/
def standing : Table → Standing
  | .mk s _ => s

/-- The table as one that came to be in another way. -/
def withStanding (s : Standing) : Table → Table
  | .mk _ es => .mk s es

/-- The value of a key. -/
def find? (key : String) : Table → Option Value
  | .mk _ es => es.lookup key

/-- The table with a value put under a key. -/
def set (key : String) (v : Value) : Table → Table
  | .mk s es => .mk s ((key, v) :: es.filter fun e => e.1 != key)

/-- The table with a value under a new key. -/
def add? (key : String) (v : Value) (t : Table) : Option Table :=
  if (t.find? key).isSome then none else some (t.set key v)

/-- The table with a change to the table at the end of a path, which is made where it is missing.
`fresh` is how tables on the path come to be: by keys with dots or by a header. -/
def extend? (fresh : Standing) (change : Table → Option Table) :
    (path : List String) → Table → Option Table
  | [], t => change t
  | k :: ks, t =>
    match t.find? k with
    | none => (extend? fresh change ks (empty fresh)).map fun s => t.set k (.table s)
    | some (.table s) =>
      if s.standing = .closed ∨ (fresh = .dotted ∧ s.standing = .declared) then none
      else (extend? fresh change ks s).map fun s => t.set k (.table s)
    | some (.tables ts s) => (extend? fresh change ks s).map fun s => t.set k (.tables ts s)
    | some _ => none

/-- The table with a value under a key with dots. -/
def insert? (path : List String) (key : String) (v : Value) (t : Table) : Option Table :=
  match path with
  | [] => if t.standing = .dotted then none else t.add? key v
  | _ => t |> extend? .dotted (fun s => if s.standing = .dotted then s.add? key v else none) path

/-- The table with a header for a table. -/
def declare? (path : List String) (key : String) (t : Table) : Option Table :=
  t |> extend? .implied
    (fun s =>
      match s.find? key with
      | none => some (s.set key (.table (empty .declared)))
      | some (.table u) =>
        if u.standing = .implied then some (s.set key (.table (u.withStanding .declared))) else none
      | some _ => none)
    path

/-- The table with a header for one more table of several. -/
def declareNext? (path : List String) (key : String) (t : Table) : Option Table :=
  t |> extend? .implied
    (fun s =>
      match s.find? key with
      | none => some (s.set key (.tables [] (empty .declared)))
      | some (.tables us u) => some (s.set key (.tables (us ++ [u]) (empty .declared)))
      | some _ => none)
    path

end Table

end Toml

end JavaSource
