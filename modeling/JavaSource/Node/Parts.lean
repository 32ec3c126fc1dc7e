import JavaSource.Node

/-!
# Nodes in their places

A place in a tree admits nodes of some kinds only. `Fits α` says which nodes can be seen as a value
of `α`: expressions where an expression is wanted, members where a member is wanted, and so on. A
node of a smaller category fits wherever a larger one is wanted.
-/

namespace JavaSource

/-- The types of which some nodes are values. -/
class Fits (α : Type) where
  /-- The node as a value, if it is of a kind that fits. -/
  ofNode? : Node → Option α

namespace Node

/-- The node as a simple name. -/
def simpleName? : Node → Option SimpleName
  | .name (.simple n) => some n
  | _ => none

/-- The node as a name. -/
def name? : Node → Option Name
  | .name n => some n
  | _ => none

/-- The node as a named type. -/
def namedType? : Node → Option NamedType
  | .type (.named t) => some t
  | _ => none

/-- The node as an array type. -/
def arrayType? : Node → Option ArrayType
  | .type (.array h c) => some ⟨h, c⟩
  | _ => none

/-- The node as a type. -/
def type? : Node → Option Ty
  | .type t => some t
  | _ => none

/-- The node as a block of documentation. -/
def docBlock? : Node → Option DocBlock
  | .docElement (.block h tag es) => some ⟨h, tag, es⟩
  | _ => none

/-- The node as a parameter of a documented method. -/
def docParameter? : Node → Option DocParameter
  | .docParameter p => some p
  | _ => none

/-- The node as an element of documentation. -/
def docElement? : Node → Option DocElement
  | .docElement e => some e
  | .name n => some (.name n)
  | .type t => some (.type t)
  | _ => none

/-- The node as a comment. -/
def comment? : Node → Option Comment
  | .comment c => some c
  | _ => none

/-- The node as a documentation comment. -/
def javadoc? : Node → Option Javadoc
  | .comment (.javadoc j) => some j
  | _ => none

/-- The node as a type parameter. -/
def typeParameter? : Node → Option TypeParameter
  | .typeParameter p => some p
  | _ => none

/-- The node as a package declaration. -/
def package? : Node → Option PackageDeclaration
  | .package p => some p
  | _ => none

/-- The node as an import declaration. -/
def importing? : Node → Option ImportDeclaration
  | .importing i => some i
  | _ => none

/-- The node as a compilation unit. -/
def unit? : Node → Option CompilationUnit
  | .unit u => some u
  | _ => none

/-- The node as a tree of exactly one category. -/
def exactly? (category : Category) : Node → Option (Tree category)
  | @Node.tree c t => if h : c = category then some (h ▸ t) else none
  | _ => none

/-- The node as an expression. -/
def expression? : Node → Option Expression
  | .name n => some (.nameExpression n)
  | @Node.tree .expression t => some t
  | @Node.tree .arrayInitializer t => some (.initializerExpression t)
  | _ => none

/-- The node as a modifier or a use of an annotation. -/
def attribute? : Node → Option (Tree .attribute)
  | @Node.tree .attribute t => some t
  | @Node.tree .annotationUse t => some (.annotated t)
  | _ => none

/-- The node as a statement. -/
def statement? : Node → Option Statement
  | @Node.tree .statement t => some t
  | @Node.tree .block t => some (.blockStatement t)
  | _ => none

/-- The node as the first part of a `for` header. -/
def forInitializer? : Node → Option (Tree .forInitializer)
  | @Node.tree .statement (.variablesStatement t) => some (.headerVariables t)
  | @Node.tree .expressionList t => some (.headerExpressions t)
  | _ => none

/-- The node as a declared type. -/
def typeDeclaration? : Node → Option (Tree .typeDeclaration)
  | @Node.tree .typeDeclaration t => some t
  | @Node.tree .classDeclaration t => some (.classType t)
  | _ => none

/-- The node as a member of a type. -/
def member? : Node → Option (Tree .member)
  | @Node.tree .member t => some t
  | @Node.tree .typeDeclaration t => some (.typeMember t)
  | @Node.tree .classDeclaration t => some (.typeMember (.classType t))
  | _ => none

end Node

instance : Fits SimpleName := ⟨Node.simpleName?⟩
instance : Fits Name := ⟨Node.name?⟩
instance : Fits NamedType := ⟨Node.namedType?⟩
instance : Fits ArrayType := ⟨Node.arrayType?⟩
instance : Fits Ty := ⟨Node.type?⟩
instance : Fits DocBlock := ⟨Node.docBlock?⟩
instance : Fits DocParameter := ⟨Node.docParameter?⟩
instance : Fits DocElement := ⟨Node.docElement?⟩
instance : Fits Comment := ⟨Node.comment?⟩
instance : Fits Javadoc := ⟨Node.javadoc?⟩
instance : Fits TypeParameter := ⟨Node.typeParameter?⟩
instance : Fits PackageDeclaration := ⟨Node.package?⟩
instance : Fits ImportDeclaration := ⟨Node.importing?⟩
instance : Fits CompilationUnit := ⟨Node.unit?⟩
instance : Fits Expression := ⟨Node.expression?⟩
instance : Fits Statement := ⟨Node.statement?⟩
instance : Fits (Tree .attribute) := ⟨Node.attribute?⟩
instance : Fits (Tree .forInitializer) := ⟨Node.forInitializer?⟩
instance : Fits (Tree .typeDeclaration) := ⟨Node.typeDeclaration?⟩
instance : Fits (Tree .member) := ⟨Node.member?⟩
instance : Fits (Tree .arrayInitializer) := ⟨Node.exactly? _⟩
instance : Fits (Tree .classBody) := ⟨Node.exactly? _⟩
instance : Fits (Tree .annotationElement) := ⟨Node.exactly? _⟩
instance : Fits (Tree .annotationUse) := ⟨Node.exactly? _⟩
instance : Fits (Tree .formalParameter) := ⟨Node.exactly? _⟩
instance : Fits (Tree .variableDeclarator) := ⟨Node.exactly? _⟩
instance : Fits Block := ⟨Node.exactly? _⟩
instance : Fits (Tree .catchClause) := ⟨Node.exactly? _⟩
instance : Fits (Tree .expressionList) := ⟨Node.exactly? _⟩
instance : Fits (Tree .classDeclaration) := ⟨Node.exactly? _⟩
instance : Fits (Tree .enumConstant) := ⟨Node.exactly? _⟩

end JavaSource
