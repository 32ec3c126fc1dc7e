import JavaSource.Tree

/-!
# Compilation units

A compilation unit has an optional package declaration, imports, declared types, and comments that
stand in front of everything.
-/

namespace JavaSource

/-- The declaration of the package of a unit. -/
structure PackageDeclaration where
  /-- The node's handle. -/
  handle : Handle
  /-- The documentation comment. -/
  javadoc : Option Javadoc
  /-- The annotations of the package. -/
  annotations : List (Tree .annotationUse)
  /-- The name of the package. -/
  name : Name

/-- The declaration of an import. -/
structure ImportDeclaration where
  /-- The node's handle. -/
  handle : Handle
  /-- The form of the import. -/
  kind : ImportKind
  /-- The imported name. -/
  name : Name

/-- A compilation unit. -/
structure CompilationUnit where
  /-- The node's handle. -/
  handle : Handle
  /-- The package of the unit, or the default package. -/
  package : Option PackageDeclaration
  /-- The imports. -/
  imports : List ImportDeclaration
  /-- The declared types. -/
  types : List (Tree .typeDeclaration)
  /-- The comments at the start of the unit. -/
  comments : List Comment

namespace Tree

/-- The name of a declared type. -/
def declaredName : Tree .typeDeclaration → SimpleName
  | .classType (.classDeclaration _ _ _ n _ _ _ _) => n
  | .interfaceDeclaration _ _ _ n _ _ _ => n
  | .enumDeclaration _ _ _ n _ _ _ => n
  | .annotationDeclaration _ _ _ n _ => n

/-- The modifiers and annotations of a declared type. -/
def declaredAttributes : Tree .typeDeclaration → Tree (.listOf .attribute)
  | .classType (.classDeclaration _ _ ms _ _ _ _ _) => ms
  | .interfaceDeclaration _ _ ms _ _ _ _ => ms
  | .enumDeclaration _ _ ms _ _ _ _ => ms
  | .annotationDeclaration _ _ ms _ _ => ms

/-- Which modifier each of several attributes is; an annotation is none. -/
def modifierKinds : {c : Category} → Tree c → List (Option ModifierKind)
  | _, .cons (.modifier m) rest => some m.kind :: rest.modifierKinds
  | _, .cons _ rest => none :: rest.modifierKinds
  | _, _ => []

/-- Whether a declared type is public. -/
def isPublic (t : Tree .typeDeclaration) : Bool :=
  t.declaredAttributes.modifierKinds.contains (some .isPublic)

end Tree

/-- The type a unit is named after: the first public one, or else the first one. -/
def CompilationUnit.primaryType? (u : CompilationUnit) : Option (Tree .typeDeclaration) :=
  (u.types.find? Tree.isPublic).or u.types.head?

end JavaSource
