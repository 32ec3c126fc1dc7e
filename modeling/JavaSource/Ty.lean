import JavaSource.Keyword
import JavaSource.Name

/-!
# Types

The types that can be written in a declaration, a cast or a type argument: arrays, basic types,
named types, types with arguments, member types of those, and wildcards.

* A parameterized type has a first argument and further ones, so it is never without arguments.
* `Ty.dimensions` and `Ty.element` take an array type apart into the number of its dimensions and
  its innermost component.
* `Ty.induction_on` is structural induction with one case for each form of type.
-/

namespace JavaSource

/-- A type that is given by its name alone. -/
structure NamedType where
  /-- The node's handle. -/
  handle : Handle
  /-- The name of the type. -/
  name : Name
  deriving DecidableEq

/-- A type. -/
inductive Ty where
  /-- An array type. -/
  | array (handle : Handle) (component : Ty)
  /-- A basic type or `void`. -/
  | basic (handle : Handle) (kind : BasicTypeKind)
  /-- A type given by its name. -/
  | named (type : NamedType)
  /-- A type with arguments. -/
  | parameterized (handle : Handle) (base first : Ty) (rest : List Ty)
  /-- A member type of a type that is not just a name. -/
  | qualified (handle : Handle) (qualifier : Ty) (name : SimpleName)
  /-- A wildcard. The bound and its direction are independent. -/
  | wildcard (handle : Handle) (direction : WildcardBoundKind) (bound : Option Ty)

namespace Ty

/-- The kind of a type. -/
def kind : Ty → Kind
  | .array .. => .arrayType
  | .basic .. => .basicType
  | .named _ => .namedType
  | .parameterized .. => .parameterizedType
  | .qualified .. => .qualifiedType
  | .wildcard .. => .wildcard

/-- Whether a type is basic. -/
def isBasic : Ty → Bool
  | .basic .. => true
  | _ => false

/-- Whether a type is a wildcard. -/
def isWildcard : Ty → Bool
  | .wildcard .. => true
  | _ => false

/-- The same type under another handle. -/
def withHandle (h : Handle) : Ty → Ty
  | .array _ c => .array h c
  | .basic _ k => .basic h k
  | .named t => .named ⟨h, t.name⟩
  | .parameterized _ b f r => .parameterized h b f r
  | .qualified _ q n => .qualified h q n
  | .wildcard _ d b => .wildcard h d b

/-- The number of dimensions of a type; a type that is not an array has none. -/
def dimensions : Ty → Nat
  | .array _ c => c.dimensions + 1
  | _ => 0

/-- The innermost component of an array type; a type that is not an array is its own element. -/
def element : Ty → Ty
  | .array _ c => c.element
  | t => t

/-- A type with arguments, which must not be missing. -/
def withArguments (handle : Handle) (base : Ty) : List Ty → Except BuildError Ty
  | [] => .error (.emptySequence .parameterizedType "type_arguments")
  | first :: rest => .ok (.parameterized handle base first rest)

/-- Structural induction on types. -/
@[elab_as_elim, induction_eliminator]
theorem induction_on {motive : Ty → Prop}
    (array : ∀ h c, motive c → motive (.array h c))
    (basic : ∀ h k, motive (.basic h k))
    (named : ∀ t, motive (.named t))
    (parameterized : ∀ h b f r, motive b → motive f → (∀ t ∈ r, motive t) →
      motive (.parameterized h b f r))
    (qualified : ∀ h q n, motive q → motive (.qualified h q n))
    (wildcard : ∀ h d b, (∀ t, b = some t → motive t) → motive (.wildcard h d b)) :
    ∀ t, motive t
  | .array h c => array h c (induction_on array basic named parameterized qualified wildcard c)
  | .basic h k => basic h k
  | .named t => named t
  | .parameterized h b f r =>
    parameterized h b f r
      (induction_on array basic named parameterized qualified wildcard b)
      (induction_on array basic named parameterized qualified wildcard f)
      fun t _ => induction_on array basic named parameterized qualified wildcard t
  | .qualified h q n =>
    qualified h q n (induction_on array basic named parameterized qualified wildcard q)
  | .wildcard h d none => wildcard h d none fun _ e => nomatch e
  | .wildcard h d (some b) =>
    wildcard h d (some b) fun t e =>
      Option.some.inj e ▸ induction_on array basic named parameterized qualified wildcard b

end Ty

/-- An array type, as the type of an array creation. -/
structure ArrayType where
  /-- The node's handle. -/
  handle : Handle
  /-- The type of the array's members. -/
  component : Ty

namespace ArrayType

/-- An array type as a type. -/
def toTy (a : ArrayType) : Ty := .array a.handle a.component

/-- The number of dimensions, counting nested array types. -/
def dimensions (a : ArrayType) : Nat := a.component.dimensions + 1

/-- The innermost component. -/
def element (a : ArrayType) : Ty := a.component.element

end ArrayType

end JavaSource
