import JavaSource.Ty

/-!
# Visitors of types

A visitor has a rule for the forms of types that it supports. `TypeVisitor.accept` applies the rule
for the form of a type, and refuses a type whose form has none; a visitor without any rules refuses
every type.

A rule is given the parts of the type, each together with the visit of this part. It decides which
of them it visits and in which order, so what a visit does on its way is up to the rules.
-/

namespace JavaSource

/-- A part of a type, with the visit of it. -/
structure VisitedPart (m : Type → Type) (α : Type) where
  /-- The part. -/
  type : Ty
  /-- What visiting the part does. -/
  visit : m α

/-- The rules of a visitor. A form of types without a rule is not supported. -/
structure TypeVisitor (m : Type → Type) (α : Type) where
  /-- What is done at a type whose form has no rule. -/
  refuse : UnsupportedKind → m α
  /-- The rule for array types. -/
  array : Option (VisitedPart m α → m α) := none
  /-- The rule for basic types. -/
  basic : Option (BasicTypeKind → m α) := none
  /-- The rule for named types. -/
  named : Option (NamedType → m α) := none
  /-- The rule for types with arguments. -/
  parameterized : Option (VisitedPart m α → List (VisitedPart m α) → m α) := none
  /-- The rule for member types. -/
  qualified : Option (VisitedPart m α → SimpleName → m α) := none
  /-- The rule for wildcards. -/
  wildcard : Option (WildcardBoundKind → Option (VisitedPart m α) → m α) := none

namespace TypeVisitor

variable {m : Type → Type} {α : Type}

/-- What a rule does at a type of kind `k`, if there is one. -/
def obey (v : TypeVisitor m α) (k : Kind) (rule : Option (m α)) : m α :=
  rule.getD (v.refuse ⟨k⟩)

mutual

/-- The visit of a type. -/
def accept (v : TypeVisitor m α) : Ty → m α
  | .array _ c => v.obey .arrayType (v.array.map (· ⟨c, v.accept c⟩))
  | .basic _ k => v.obey .basicType (v.basic.map (· k))
  | .named t => v.obey .namedType (v.named.map (· t))
  | .parameterized _ b f r =>
    v.obey .parameterizedType <| v.parameterized.map fun rule =>
      rule ⟨b, v.accept b⟩ (⟨f, v.accept f⟩ :: v.acceptEach r)
  | .qualified _ q n => v.obey .qualifiedType (v.qualified.map (· ⟨q, v.accept q⟩ n))
  | .wildcard _ d none => v.obey .wildcard (v.wildcard.map (· d none))
  | .wildcard _ d (some b) => v.obey .wildcard (v.wildcard.map (· d (some ⟨b, v.accept b⟩)))

/-- Several types, each with the visit of it. -/
def acceptEach (v : TypeVisitor m α) : List Ty → List (VisitedPart m α)
  | [] => []
  | t :: ts => ⟨t, v.accept t⟩ :: v.acceptEach ts

end

end TypeVisitor

end JavaSource
