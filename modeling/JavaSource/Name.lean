import JavaSource.BuildError
import JavaSource.Identifier
import JavaSource.Text.Uppercase

/-!
# Names

A name is a simple name or a name qualified by another one. Every node of a tree carries a
`Handle`, under which comments and documentation can be filed; structure never depends on it.

* `Name.segments` lists the simple names of a name, outermost first, and `Name.append` extends a
  name by segments.
* `Name.dotted` is the text of a name.
-/

namespace JavaSource

/-- What identifies a node for attachments. Most nodes have no handle; nodes with one handle share
what is attached to it. -/
abbrev Handle := Option Nat

/-- A single identifier used as a name. -/
structure SimpleName where
  /-- The node's handle. -/
  handle : Handle
  /-- The identifier. -/
  token : String
  /-- The token is an identifier. -/
  valid : isIdentifier token = true
  deriving DecidableEq

namespace SimpleName

/-- The simple name of a token, if the token is an identifier. -/
def ofToken (token : String) (handle : Handle := none) : Except BuildError SimpleName :=
  if h : isIdentifier token = true then .ok ⟨handle, token, h⟩
  else .error (.invalidIdentifier token)

/-- Whether the name starts with an upper-case character, as names of types do. -/
def isCapitalized (n : SimpleName) : Bool :=
  match n.token.toList with
  | [] => false
  | c :: _ => Text.isUppercase c

end SimpleName

/-- A simple or qualified name. -/
inductive Name where
  /-- A single identifier. -/
  | simple (name : SimpleName)
  /-- A name inside a qualifying name. -/
  | qualified (handle : Handle) (qualifier : Name) (name : SimpleName)
  deriving DecidableEq

/-- A name that has a qualifier. -/
structure QualifiedName where
  /-- The node's handle. -/
  handle : Handle
  /-- Everything but the last identifier. -/
  qualifier : Name
  /-- The last identifier. -/
  name : SimpleName
  deriving DecidableEq

/-- A qualified name as a name. -/
def QualifiedName.toName (q : QualifiedName) : Name :=
  .qualified q.handle q.qualifier q.name

namespace Name

/-- The kind of a name. -/
def kind : Name → Kind
  | .simple _ => .simpleName
  | .qualified .. => .qualifiedName

/-- The last identifier of a name. -/
def last : Name → SimpleName
  | .simple n => n
  | .qualified _ _ n => n

/-- Everything but the last identifier of a qualified name. -/
def qualifier? : Name → Option Name
  | .simple _ => none
  | .qualified _ q _ => some q

/-- The identifiers of a name, outermost first. -/
def segments : Name → List SimpleName
  | .simple n => [n]
  | .qualified _ q n => q.segments ++ [n]

/-- The identifiers of a name as texts, outermost first. -/
def words (n : Name) : List String :=
  n.segments.map SimpleName.token

/-- The name as text, with dots between the identifiers. -/
def dotted (n : Name) : String :=
  ".".intercalate n.words

/-- A name extended by segments, each qualified by what comes before it. -/
def append (n : Name) (segments : List SimpleName) : Name :=
  segments.foldl (fun q s => .qualified none q s) n

@[simp] theorem segments_simple (n : SimpleName) : (Name.simple n).segments = [n] := rfl

@[simp] theorem segments_qualified (h : Handle) (q : Name) (n : SimpleName) :
    (Name.qualified h q n).segments = q.segments ++ [n] := rfl

/-- Appending extends the segments at the end. -/
theorem segments_append (n : Name) (segments : List SimpleName) :
    (n.append segments).segments = n.segments ++ segments := by
  induction segments generalizing n with
  | nil => simp [append]
  | cons s rest ih =>
    have step : n.append (s :: rest) = (Name.qualified none n s).append rest := rfl
    rw [step, ih, segments_qualified, List.append_assoc, List.singleton_append]

end Name

end JavaSource
