import JavaSource.Literal
import JavaSource.Name.Reader
import JavaSource.Node.Parts
import JavaSource.Node.Schema
import JavaSource.Ty.Reader

/-!
# Assembling nodes from their fields

`Node.assemble` builds a node of any kind from the contents of its fields, given in the order of
`Kind.fields`. It fails if a field does not hold what its place admits, or with the cause for which
the node cannot be built.

In many places a text is enough to describe a node: `Node.ofText` reads a text as the node that
is wanted there.
-/

namespace JavaSource

/-- The contents of a field. -/
inductive Field where
  /-- A node. -/
  | node (node : Node)
  /-- Nothing. -/
  | absent
  /-- A list of nodes. -/
  | nodes (nodes : List Node)
  /-- A text, or the name of a member of an enumeration. -/
  | text (string : String)
  /-- A truth value. -/
  | flag (value : Bool)
  /-- A number. -/
  | number (value : Int)

/-- Why a node cannot be assembled. -/
inductive AssemblyError where
  /-- Something is not admitted in its place. -/
  | misplaced
  /-- The node cannot be built from its parts. -/
  | build (cause : BuildError)
  deriving DecidableEq

/-- The types of contents of fields. -/
class Fills (α : Type) where
  /-- The contents of a field as a value, if they are admitted. -/
  ofField? : Field → Option α

section

variable {α : Type} {c : Category}

instance [Fits α] : Fills α where
  ofField?
    | .node n => Fits.ofNode? n
    | _ => none

instance [Fits α] : Fills (Option α) where
  ofField?
    | .absent => some none
    | .node n => (Fits.ofNode? n).map some
    | _ => none

instance [Fits α] : Fills (List α) where
  ofField?
    | .nodes ns => ns.mapM Fits.ofNode?
    | _ => none

instance [Fits (Tree c)] : Fills (Tree (.listOf c)) where
  ofField?
    | .nodes ns => (ns.mapM Fits.ofNode?).map Tree.ofList
    | _ => none

instance [Fits (Tree c)] : Fills (Tree (.optional c)) where
  ofField?
    | .absent => some .absent
    | .node n => (Fits.ofNode? n).map .present
    | _ => none

instance [Enumeration α] : Fills α where
  ofField?
    | .text s => Enumeration.ofName? s
    | _ => none

instance : Fills String where
  ofField?
    | .text s => some s
    | _ => none

instance : Fills Bool where
  ofField?
    | .flag b => some b
    | _ => none

instance : Fills Int where
  ofField?
    | .number n => some n
    | _ => none

/-- The contents of a field as a value. -/
def Field.fill [Fills α] (f : Field) : Except AssemblyError α :=
  match Fills.ofField? f with
  | some a => .ok a
  | none => .error .misplaced

/-- What was built, or the cause why it was not. -/
def built : Except BuildError α → Except AssemblyError α
  | .ok a => .ok a
  | .error e => .error (.build e)

end

namespace Node

/-- The node of a kind with given fields. -/
def assemble (k : Kind) (h : Handle) (fields : List Field) : Except AssemblyError Node :=
  match k, fields with
  | .alternateConstructorInvocation, [a, b] =>
    return .tree (.alternateConstructorInvocation h (← a.fill) (← b.fill))
  | .annotationDeclaration, [a, b, c, d] =>
    return .tree (.annotationDeclaration h (← a.fill) (← b.fill) (← c.fill) (← d.fill))
  | .annotationElement, [a, b] => return .tree (.annotationElement h (← a.fill) (← b.fill))
  | .annotationElementDeclaration, [a, b, c, d, e] =>
    return .tree
      (.annotationElementDeclaration h (← a.fill) (← b.fill) (← c.fill) (← d.fill) (← e.fill))
  | .arrayAccessExpression, [a, b] =>
    return .tree (.arrayAccessExpression h (← a.fill) (← b.fill))
  | .arrayCreationExpression, [a, b, c] =>
    return .tree (← built (Tree.createArray h (← a.fill) (← b.fill) (← c.fill)))
  | .arrayInitializer, [a] => return .tree (.arrayInitializer h (← a.fill))
  | .arrayType, [a] => return .type (.array h (← a.fill))
  | .assertStatement, [a, b] => return .tree (.assertStatement h (← a.fill) (← b.fill))
  | .assignmentExpression, [a, b, c] =>
    return .tree (.assignmentExpression h (← a.fill) (← b.fill) (← c.fill))
  | .basicType, [a] => return .type (.basic h (← a.fill))
  | .block, [a] => return .tree (.block h (← a.fill))
  | .blockComment, [a] => return .comment (.block h (← a.fill))
  | .breakStatement, [a] => return .tree (.breakStatement h (← a.fill))
  | .castExpression, [a, b] => return .tree (.castExpression h (← a.fill) (← b.fill))
  | .catchClause, [a, b] => return .tree (.catchClause h (← a.fill) (← b.fill))
  | .classBody, [a] => return .tree (.classBody h (← a.fill))
  | .classDeclaration, [a, b, c, d, e, f, g] =>
    return .tree (.classDeclaration h (← a.fill) (← b.fill) (← c.fill) (← d.fill) (← e.fill)
      (← f.fill) (← g.fill))
  | .classInstanceCreationExpression, [a, b, c, d, e] =>
    return .tree
      (.classInstanceCreationExpression h (← a.fill) (← b.fill) (← c.fill) (← d.fill) (← e.fill))
  | .classLiteral, [a] => return .tree (.classLiteral h (← a.fill))
  | .compilationUnit, [a, b, c, d] =>
    return .unit ⟨h, ← a.fill, ← b.fill, ← c.fill, ← d.fill⟩
  | .conditionalExpression, [a, b, c] =>
    return .tree (.conditionalExpression h (← a.fill) (← b.fill) (← c.fill))
  | .constructorDeclaration, [a, b, c, d, e, f, g] =>
    return .tree (.constructorDeclaration h (← a.fill) (← b.fill) (← c.fill) (← d.fill)
      (← e.fill) (← f.fill) (← g.fill))
  | .continueStatement, [a] => return .tree (.continueStatement h (← a.fill))
  | .doStatement, [a, b] => return .tree (.doStatement h (← a.fill) (← b.fill))
  | .docBlock, [a, b] => return .docElement (.block h (← a.fill) (← b.fill))
  | .docField, [a, b] => return .docElement (.field h (← a.fill) (← b.fill))
  | .docMethod, [a, b, c] => return .docElement (.method h (← a.fill) (← b.fill) (← c.fill))
  | .docMethodParameter, [a, b, c] =>
    return .docParameter ⟨h, ← a.fill, ← b.fill, ← c.fill⟩
  | .docText, [a] => return .docElement (.text h (← a.fill))
  | .emptyStatement, [] => return .tree (.emptyStatement h)
  | .enhancedForStatement, [a, b, c] =>
    return .tree (.enhancedForStatement h (← a.fill) (← b.fill) (← c.fill))
  | .enumConstantDeclaration, [a, b, c, d, e] =>
    return .tree
      (.enumConstantDeclaration h (← a.fill) (← b.fill) (← c.fill) (← d.fill) (← e.fill))
  | .enumDeclaration, [a, b, c, d, e, f] =>
    return .tree (.enumDeclaration h (← a.fill) (← b.fill) (← c.fill) (← d.fill) (← e.fill)
      (← f.fill))
  | .expressionStatement, [a] => return .tree (.expressionStatement h (← a.fill))
  | .fieldAccessExpression, [a, b] =>
    return .tree (.fieldAccessExpression h (← a.fill) (← b.fill))
  | .fieldDeclaration, [a, b, c, d] =>
    return .tree (← built (Tree.declareFields h (← a.fill) (← b.fill) (← c.fill) (← d.fill)))
  | .forStatement, [a, b, c, d] =>
    return .tree (.forStatement h (← a.fill) (← b.fill) (← c.fill) (← d.fill))
  | .formalParameterDeclaration, [a, b, c, d, e] => do
    let n ← built (Tree.checkDimensions .formalParameterDeclaration (← e.fill))
    return .tree
      (.formalParameterDeclaration h (← a.fill) (← b.fill) (← c.fill) (← d.fill) n)
  | .ifStatement, [a, b, c] => return .tree (.ifStatement h (← a.fill) (← b.fill) (← c.fill))
  | .importDeclaration, [a, b] => return .importing ⟨h, ← a.fill, ← b.fill⟩
  | .infixExpression, [a, b, c] =>
    return .tree (.infixExpression h (← a.fill) (← b.fill) (← c.fill))
  | .initializerDeclaration, [a, b, c] =>
    return .tree (.initializerDeclaration h (← a.fill) (← b.fill) (← c.fill))
  | .instanceofExpression, [a, b] =>
    return .tree (.instanceofExpression h (← a.fill) (← b.fill))
  | .interfaceDeclaration, [a, b, c, d, e, f] =>
    return .tree (.interfaceDeclaration h (← a.fill) (← b.fill) (← c.fill) (← d.fill) (← e.fill)
      (← f.fill))
  | .javadoc, [a] => return .comment (.javadoc ⟨h, ← a.fill⟩)
  | .labeledStatement, [a, b] => return .tree (.labeledStatement h (← a.fill) (← b.fill))
  | .lineComment, [a] => return .comment (.line h (← a.fill))
  | .literal, [a] => return .tree (← built (Tree.ofToken h (← a.fill)))
  | .localClassDeclaration, [a] => return .tree (.localClassDeclaration h (← a.fill))
  | .localVariableDeclaration, [a, b, c] =>
    return .tree
      (.variablesStatement (← built (Tree.declareLocals h (← a.fill) (← b.fill) (← c.fill))))
  | .annotationMarker, [a] => return .tree (.annotationMarker h (← a.fill))
  | .methodDeclaration, [a, b, c, d, e, f, g, i, j] => do
    let n ← built (Tree.checkDimensions .methodDeclaration (← g.fill))
    return .tree (.methodDeclaration h (← a.fill) (← b.fill) (← c.fill) (← d.fill) (← e.fill)
      (← f.fill) n (← i.fill) (← j.fill))
  | .methodInvocationExpression, [a, b, c, d] =>
    return .tree (.methodInvocationExpression h (← a.fill) (← b.fill) (← c.fill) (← d.fill))
  | .modifier, [a] => return .tree (.modifier ⟨h, ← a.fill⟩)
  | .namedType, [a] => return .type (.named ⟨h, ← a.fill⟩)
  | .annotationNormal, [a, b] => return .tree (.annotationNormal h (← a.fill) (← b.fill))
  | .packageDeclaration, [a, b, c] => return .package ⟨h, ← a.fill, ← b.fill, ← c.fill⟩
  | .parameterizedType, [a, b] =>
    return .type (← built (Ty.withArguments h (← a.fill) (← b.fill)))
  | .parenthesizedExpression, [a] => return .tree (.parenthesizedExpression h (← a.fill))
  | .postfixExpression, [a, b] => return .tree (.postfixExpression h (← a.fill) (← b.fill))
  | .qualifiedName, [a, b] => return .name (.qualified h (← a.fill) (← b.fill))
  | .qualifiedType, [a, b] => return .type (.qualified h (← a.fill) (← b.fill))
  | .returnStatement, [a] => return .tree (.returnStatement h (← a.fill))
  | .simpleName, [a] => return .name (.simple (← built (SimpleName.ofToken (← a.fill) h)))
  | .annotationSingleElement, [a, b] =>
    return .tree (.annotationSingleElement h (← a.fill) (← b.fill))
  | .statementExpressionList, [a] =>
    return .tree (← built (Tree.listExpressions h (← a.fill)))
  | .superReference, [a] => return .tree (.superReference h (← a.fill))
  | .superConstructorInvocation, [a, b, c] =>
    return .tree (.superConstructorInvocation h (← a.fill) (← b.fill) (← c.fill))
  | .switchCaseLabel, [a] => return .tree (.switchCaseLabel h (← a.fill))
  | .switchDefaultLabel, [] => return .tree (.switchDefaultLabel h)
  | .switchStatement, [a, b] => return .tree (.switchStatement h (← a.fill) (← b.fill))
  | .synchronizedStatement, [a, b] =>
    return .tree (.synchronizedStatement h (← a.fill) (← b.fill))
  | .thisReference, [a] => return .tree (.thisReference h (← a.fill))
  | .throwStatement, [a] => return .tree (.throwStatement h (← a.fill))
  | .tryStatement, [a, b, c] => return .tree (.tryStatement h (← a.fill) (← b.fill) (← c.fill))
  | .typeParameterDeclaration, [a, b] => return .typeParameter ⟨h, ← a.fill, ← b.fill⟩
  | .unaryExpression, [a, b] => return .tree (.unaryExpression h (← a.fill) (← b.fill))
  | .variableDeclarator, [a, b, c] => do
    let n ← built (Tree.checkDimensions .variableDeclarator (← b.fill))
    return .tree (.variableDeclarator h (← a.fill) n (← c.fill))
  | .whileStatement, [a, b] => return .tree (.whileStatement h (← a.fill) (← b.fill))
  | .wildcard, [a, b] => return .type (.wildcard h (← a.fill) (← b.fill))
  | _, _ => .error .misplaced

/-- The node that a text stands for in a place. -/
def ofText (p : Position) (s : String) : Except AssemblyError Node :=
  match p with
  | .only .simpleName => return .name (.simple (← built (SimpleName.ofToken s)))
  | .only .namedType => return .type (.named ⟨none, ← built (Name.read s)⟩)
  | .name => return .name (← built (Name.read s))
  | .type => return .type (← built (Ty.read s))
  | .expression => return .name (← built (Name.read s))
  | .attribute =>
    match Enumeration.ofName? s with
    | some k => return .tree (.modifier ⟨none, k⟩)
    | none => .error .misplaced
  | .docElement => return .docElement (.text none s)
  | _ => .error .misplaced

end Node

end JavaSource
