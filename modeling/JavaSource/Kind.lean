import JavaSource.Enumeration

/-!
# Kinds of nodes

The eighty-one kinds of nodes of a Java source tree. The order of the kinds is part of the model:
the position of its kind is the seed of a node's digest.
-/

namespace JavaSource

/-- The kind of a node. -/
inductive Kind where
  | alternateConstructorInvocation | annotationDeclaration | annotationElement
  | annotationElementDeclaration | arrayAccessExpression | arrayCreationExpression
  | arrayInitializer | arrayType | assertStatement | assignmentExpression | basicType | block
  | blockComment | breakStatement | castExpression | catchClause | classBody | classDeclaration
  | classInstanceCreationExpression | classLiteral | compilationUnit | conditionalExpression
  | constructorDeclaration | continueStatement | doStatement | docBlock | docField | docMethod
  | docMethodParameter | docText | emptyStatement | enhancedForStatement | enumConstantDeclaration
  | enumDeclaration | expressionStatement | fieldAccessExpression | fieldDeclaration | forStatement
  | formalParameterDeclaration | ifStatement | importDeclaration | infixExpression
  | initializerDeclaration | instanceofExpression | interfaceDeclaration | javadoc
  | labeledStatement | lineComment | literal | localClassDeclaration | localVariableDeclaration
  | annotationMarker | methodDeclaration | methodInvocationExpression | modifier | namedType
  | annotationNormal | packageDeclaration | parameterizedType | parenthesizedExpression
  | postfixExpression | qualifiedName | qualifiedType | returnStatement | simpleName
  | annotationSingleElement | statementExpressionList | superReference | superConstructorInvocation
  | switchCaseLabel | switchDefaultLabel | switchStatement | synchronizedStatement | thisReference
  | throwStatement | tryStatement | typeParameterDeclaration | unaryExpression | variableDeclarator
  | whileStatement | wildcard
  deriving DecidableEq

namespace Kind

/-- The name of a kind. -/
def name : Kind → String
  | .alternateConstructorInvocation => "AlternateConstructorInvocation"
  | .annotationDeclaration => "AnnotationDeclaration"
  | .annotationElement => "AnnotationElement"
  | .annotationElementDeclaration => "AnnotationElementDeclaration"
  | .arrayAccessExpression => "ArrayAccessExpression"
  | .arrayCreationExpression => "ArrayCreationExpression"
  | .arrayInitializer => "ArrayInitializer"
  | .arrayType => "ArrayType"
  | .assertStatement => "AssertStatement"
  | .assignmentExpression => "AssignmentExpression"
  | .basicType => "BasicType"
  | .block => "Block"
  | .blockComment => "BlockComment"
  | .breakStatement => "BreakStatement"
  | .castExpression => "CastExpression"
  | .catchClause => "CatchClause"
  | .classBody => "ClassBody"
  | .classDeclaration => "ClassDeclaration"
  | .classInstanceCreationExpression => "ClassInstanceCreationExpression"
  | .classLiteral => "ClassLiteral"
  | .compilationUnit => "CompilationUnit"
  | .conditionalExpression => "ConditionalExpression"
  | .constructorDeclaration => "ConstructorDeclaration"
  | .continueStatement => "ContinueStatement"
  | .doStatement => "DoStatement"
  | .docBlock => "DocBlock"
  | .docField => "DocField"
  | .docMethod => "DocMethod"
  | .docMethodParameter => "DocMethodParameter"
  | .docText => "DocText"
  | .emptyStatement => "EmptyStatement"
  | .enhancedForStatement => "EnhancedForStatement"
  | .enumConstantDeclaration => "EnumConstantDeclaration"
  | .enumDeclaration => "EnumDeclaration"
  | .expressionStatement => "ExpressionStatement"
  | .fieldAccessExpression => "FieldAccessExpression"
  | .fieldDeclaration => "FieldDeclaration"
  | .forStatement => "ForStatement"
  | .formalParameterDeclaration => "FormalParameterDeclaration"
  | .ifStatement => "IfStatement"
  | .importDeclaration => "ImportDeclaration"
  | .infixExpression => "InfixExpression"
  | .initializerDeclaration => "InitializerDeclaration"
  | .instanceofExpression => "InstanceofExpression"
  | .interfaceDeclaration => "InterfaceDeclaration"
  | .javadoc => "Javadoc"
  | .labeledStatement => "LabeledStatement"
  | .lineComment => "LineComment"
  | .literal => "Literal"
  | .localClassDeclaration => "LocalClassDeclaration"
  | .localVariableDeclaration => "LocalVariableDeclaration"
  | .annotationMarker => "MarkerAnnotation"
  | .methodDeclaration => "MethodDeclaration"
  | .methodInvocationExpression => "MethodInvocationExpression"
  | .modifier => "Modifier"
  | .namedType => "NamedType"
  | .annotationNormal => "NormalAnnotation"
  | .packageDeclaration => "PackageDeclaration"
  | .parameterizedType => "ParameterizedType"
  | .parenthesizedExpression => "ParenthesizedExpression"
  | .postfixExpression => "PostfixExpression"
  | .qualifiedName => "QualifiedName"
  | .qualifiedType => "QualifiedType"
  | .returnStatement => "ReturnStatement"
  | .simpleName => "SimpleName"
  | .annotationSingleElement => "SingleElementAnnotation"
  | .statementExpressionList => "StatementExpressionList"
  | .superReference => "Super"
  | .superConstructorInvocation => "SuperConstructorInvocation"
  | .switchCaseLabel => "SwitchCaseLabel"
  | .switchDefaultLabel => "SwitchDefaultLabel"
  | .switchStatement => "SwitchStatement"
  | .synchronizedStatement => "SynchronizedStatement"
  | .thisReference => "This"
  | .throwStatement => "ThrowStatement"
  | .tryStatement => "TryStatement"
  | .typeParameterDeclaration => "TypeParameterDeclaration"
  | .unaryExpression => "UnaryExpression"
  | .variableDeclarator => "VariableDeclarator"
  | .whileStatement => "WhileStatement"
  | .wildcard => "Wildcard"

/-- The kinds, in order. -/
def all : List Kind :=
  [.alternateConstructorInvocation, .annotationDeclaration, .annotationElement,
   .annotationElementDeclaration, .arrayAccessExpression, .arrayCreationExpression,
   .arrayInitializer, .arrayType, .assertStatement, .assignmentExpression, .basicType, .block,
   .blockComment, .breakStatement, .castExpression, .catchClause, .classBody, .classDeclaration,
   .classInstanceCreationExpression, .classLiteral, .compilationUnit, .conditionalExpression,
   .constructorDeclaration, .continueStatement, .doStatement, .docBlock, .docField, .docMethod,
   .docMethodParameter, .docText, .emptyStatement, .enhancedForStatement, .enumConstantDeclaration,
   .enumDeclaration, .expressionStatement, .fieldAccessExpression, .fieldDeclaration, .forStatement,
   .formalParameterDeclaration, .ifStatement, .importDeclaration, .infixExpression,
   .initializerDeclaration, .instanceofExpression, .interfaceDeclaration, .javadoc,
   .labeledStatement, .lineComment, .literal, .localClassDeclaration, .localVariableDeclaration,
   .annotationMarker, .methodDeclaration, .methodInvocationExpression, .modifier, .namedType,
   .annotationNormal, .packageDeclaration, .parameterizedType, .parenthesizedExpression,
   .postfixExpression, .qualifiedName, .qualifiedType, .returnStatement, .simpleName,
   .annotationSingleElement, .statementExpressionList, .superReference, .superConstructorInvocation,
   .switchCaseLabel, .switchDefaultLabel, .switchStatement, .synchronizedStatement, .thisReference,
   .throwStatement, .tryStatement, .typeParameterDeclaration, .unaryExpression, .variableDeclarator,
   .whileStatement, .wildcard]

instance : Enumeration Kind where
  members := all
  name := name

end Kind

/-- The kind of a node that a walk has no rule for. -/
structure UnsupportedKind where
  /-- The kind. -/
  kind : Kind
  deriving DecidableEq

/-- The report of a walk that ended at such a node. -/
def UnsupportedKind.message (e : UnsupportedKind) : String :=
  "visitor does not implement " ++ e.kind.name

end JavaSource
