import JavaSource.CompilationUnit
import JavaSource.Ty.Reader

/-!
# Import sessions

An import session shortens the names of types and remembers what has to be imported for the short
names to be right. The first type that claims a simple name keeps it for the rest of the session.

* `ImportStrategy.split` divides a name into the part that is imported, its head, and the member
  types behind it.
* `Imports.shortenNamed` gives the short form of a named type, `Imports.shorten` that of any type;
  both give nothing where the type stays as it is. `Imports.resolve` keeps the parts that do not
  change, with their handles.
* `Imports.declarations` lists what is imported, in the order of the names.
-/

namespace JavaSource

/-- Which part of the name of a member type is imported. -/
inductive ImportStrategy where
  /-- The top-level type: members are named through it. -/
  | topLevel
  /-- The type itself. -/
  | enclosing
  deriving DecidableEq

namespace ImportStrategy

/-- The label of a strategy. -/
def label : ImportStrategy → String
  | .topLevel => "top-level"
  | .enclosing => "enclosing"

/-- The strategy with a given label. -/
def ofLabel? : String → Option ImportStrategy
  | "top-level" => some .topLevel
  | "enclosing" => some .enclosing
  | _ => none

end ImportStrategy

/-- Splits a name behind its top-level type. What follows a capitalized segment is a member type. -/
def Name.splitMembers : Name → Name × List SimpleName
  | .simple n => (.simple n, [])
  | .qualified h q n =>
    if q.last.isCapitalized then
      let (head, ms) := q.splitMembers
      (head, ms ++ [n])
    else (.qualified h q n, [])

/-- Splits a name into the part that is imported and the member types behind it. -/
def ImportStrategy.split : ImportStrategy → Name → Name × List SimpleName
  | .topLevel, n => n.splitMembers
  | .enclosing, n => (n, [])

/-- The state of an import session. -/
structure Imports where
  /-- The package of the unit, or the default package. -/
  package : Option PackageDeclaration := none
  /-- Which part of a name is imported. -/
  strategy : ImportStrategy := .topLevel
  /-- The imported names, the first one first. The short form of each is its last segment. -/
  imported : List QualifiedName := []
  /-- The simple names that are taken. -/
  used : List String := []

namespace Imports

/-- The imported name with the same segments as a given one. -/
def find? (s : Imports) (q : QualifiedName) : Option QualifiedName :=
  s.imported.find? fun p => p.toName.words == q.toName.words

/-- The session with a simple name taken. -/
def claim (s : Imports) (token : String) : Imports :=
  if token ∈ s.used then s else { s with used := token :: s.used }

/-- The session with a name imported. -/
def register (s : Imports) (q : QualifiedName) : Imports :=
  { s.claim q.name.token with imported := s.imported ++ [q] }

/-- A type named by the last segment of an imported name and by members of it. -/
def shortForm (q : QualifiedName) (members : List SimpleName) : Ty :=
  .named ⟨none, (Name.simple q.name).append members⟩

/-- The short form of a named type, if it has one. -/
def shortenNamed (s : Imports) (t : NamedType) : Option Ty × Imports :=
  match s.strategy.split t.name with
  | (.simple n, _) => (none, s.claim n.token)
  | (.qualified h p n, members) =>
    match s.find? ⟨h, p, n⟩ with
    | some q => (some (shortForm q members), s)
    | none =>
      if n.token ∈ s.used then (none, s)
      else (some (shortForm ⟨h, p, n⟩ members), s.register ⟨h, p, n⟩)

mutual

/-- The short form of a type, if it differs from the type. -/
def shorten (s : Imports) : Ty → Option Ty × Imports
  | .array _ c =>
    let (c', s) := s.shorten c
    (c'.map (.array none), s)
  | .basic .. => (none, s)
  | .named t => s.shortenNamed t
  | .parameterized _ b f r =>
    let (b', s) := s.shorten b
    let (f', s) := s.shorten f
    let (r', s) := s.shortenEach r
    if b'.isSome || f'.isSome || r'.isSome then
      (some (.parameterized none (b'.getD b) (f'.getD f) (r'.getD r)), s)
    else (none, s)
  | .qualified _ q n =>
    let (q', s) := s.shorten q
    (q'.map (.qualified none · n), s)
  | .wildcard _ _ none => (none, s)
  | .wildcard _ d (some b) =>
    let (b', s) := s.shorten b
    (b'.map fun b => .wildcard none d (some b), s)

/-- The short forms of several types, if one of them differs from its type. -/
def shortenEach (s : Imports) : List Ty → Option (List Ty) × Imports
  | [] => (none, s)
  | t :: ts =>
    let (t', s) := s.shorten t
    let (ts', s) := s.shortenEach ts
    if t'.isSome || ts'.isSome then (some (t'.getD t :: ts'.getD ts), s) else (none, s)

end

/-- A type in its short form. -/
def resolve (s : Imports) (t : Ty) : Ty × Imports :=
  let (t', s) := s.shorten t
  (t'.getD t, s)

/-- The type that a text stands for, in its short form. -/
def readType (s : Imports) (text : String) : Except BuildError (Ty × Imports) := do
  let t ← Ty.read text
  return s.resolve t

/-- Whether the members of a package are visible without an import. -/
def isImplicit (s : Imports) (package : Name) : Bool :=
  package.dotted == "java.lang" || s.package.any fun p => p.name.dotted == package.dotted

/-- The names that have to be imported, in their order as texts. -/
def listed (s : Imports) : List QualifiedName :=
  (s.imported.filter fun q => !s.isImplicit q.qualifier).mergeSort
    fun p q => decide (p.toName.dotted ≤ q.toName.dotted)

/-- The declarations of the imports. -/
def declarations (s : Imports) : List ImportDeclaration :=
  s.listed.map fun q => ⟨none, .singleType, q.toName⟩

end Imports

/-- The report of a text that is no type. -/
def BuildError.importMessage (e : BuildError) : String :=
  "cannot resolve imports: " ++ e.message

end JavaSource
