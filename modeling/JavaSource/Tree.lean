import JavaSource.Doc
import JavaSource.Operator

/-!
# Code

Expressions, statements and declarations contain each other, so they form one family of trees
indexed by a `Category`. A tree of category `expression` is an expression, one of category
`listOf statement` is a list of statements, one of category `optional block` is a block that may be
missing. A constructor whose name is that of a kind builds a node of this kind; the other
constructors only say that the trees of one category belong to a larger one, and build no node.

Invariants of the model are in the types: a literal has a token, a declaration of variables has a
first declarator, a list of statement expressions has a first expression.
-/

namespace JavaSource

/-- What a tree can stand for. -/
inductive Category where
  /-- An expression. -/
  | expression
  /-- The members of an array in braces. -/
  | arrayInitializer
  /-- The body of an anonymous class or an enum constant. -/
  | classBody
  /-- A named value of an annotation. -/
  | annotationElement
  /-- A use of an annotation. -/
  | annotationUse
  /-- A modifier or a use of an annotation. -/
  | attribute
  /-- A parameter of a method, a constructor, a catch clause or an enhanced `for`. -/
  | formalParameter
  /-- A declared variable with its initializer. -/
  | variableDeclarator
  /-- A block. -/
  | block
  /-- A statement. -/
  | statement
  /-- A catch clause. -/
  | catchClause
  /-- The expressions of a `for` header. -/
  | expressionList
  /-- Declared local variables, before it is said where they stand. -/
  | localVariables
  /-- The first part of a `for` header. -/
  | forInitializer
  /-- The declaration of a class. -/
  | classDeclaration
  /-- The declaration of a class, an interface, an enum or an annotation type. -/
  | typeDeclaration
  /-- A constant of an enum. -/
  | enumConstant
  /-- A member of a type. -/
  | member
  /-- A list of trees of one category. -/
  | listOf (category : Category)
  /-- A tree of a category, or nothing. -/
  | optional (category : Category)
  deriving DecidableEq

/-- A keyword in front of a declaration. -/
structure Modifier where
  /-- The node's handle. -/
  handle : Handle
  /-- Which modifier it is. -/
  kind : ModifierKind
  deriving DecidableEq

/-- A declared type parameter. -/
structure TypeParameter where
  /-- The node's handle. -/
  handle : Handle
  /-- The name of the parameter. -/
  name : SimpleName
  /-- The types that bound it. -/
  bounds : List Ty

/-- A tree of a category. -/
inductive Tree : Category → Type where
  /-- No tree. -/
  | nil {c : Category} : Tree (.listOf c)
  /-- A tree in front of others. -/
  | cons {c : Category} (head : Tree c) (tail : Tree (.listOf c)) : Tree (.listOf c)
  /-- A tree that is missing. -/
  | absent {c : Category} : Tree (.optional c)
  /-- A tree that is there. -/
  | present {c : Category} (tree : Tree c) : Tree (.optional c)
  /-- A name as an expression. -/
  | nameExpression (name : Name) : Tree .expression
  /-- An array initializer as an expression. -/
  | initializerExpression (tree : Tree .arrayInitializer) : Tree .expression
  /-- Written `array[index]`. -/
  | arrayAccessExpression (handle : Handle) (array index : Tree .expression) : Tree .expression
  /-- Written `new type[size]…[]…`, with an initializer if one is given. -/
  | arrayCreationExpression (handle : Handle) (type : ArrayType)
      (sizes : Tree (.listOf .expression)) (values : Tree (.optional .arrayInitializer)) :
      Tree .expression
  /-- Written `left = right`, or a compound assignment. -/
  | assignmentExpression (handle : Handle) (left : Tree .expression) (operator : InfixOperator)
      (right : Tree .expression) : Tree .expression
  /-- Written `(type) operand`. -/
  | castExpression (handle : Handle) (type : Ty) (operand : Tree .expression) : Tree .expression
  /-- Written `qualifier.new <…>type(arguments) body`. -/
  | classInstanceCreationExpression (handle : Handle) (qualifier : Tree (.optional .expression))
      (typeArguments : List Ty) (type : Ty) (arguments : Tree (.listOf .expression))
      (body : Tree (.optional .classBody)) : Tree .expression
  /-- Written `type.class`. -/
  | classLiteral (handle : Handle) (type : Ty) : Tree .expression
  /-- Written `condition ? yes : no`. -/
  | conditionalExpression (handle : Handle) (condition yes no : Tree .expression) :
      Tree .expression
  /-- Written `qualifier.name`. -/
  | fieldAccessExpression (handle : Handle) (qualifier : Tree .expression) (name : SimpleName) :
      Tree .expression
  /-- Written `left operator right`. -/
  | infixExpression (handle : Handle) (left : Tree .expression) (operator : InfixOperator)
      (right : Tree .expression) : Tree .expression
  /-- Written `operand instanceof type`. -/
  | instanceofExpression (handle : Handle) (operand : Tree .expression) (type : Ty) :
      Tree .expression
  /-- A literal. -/
  | literal (handle : Handle) (token : String) (nonempty : token ≠ "") : Tree .expression
  /-- Written `qualifier.<typeArguments>name(arguments)`. -/
  | methodInvocationExpression (handle : Handle) (qualifier : Tree (.optional .expression))
      (typeArguments : List Ty) (name : SimpleName) (arguments : Tree (.listOf .expression)) :
      Tree .expression
  /-- Written `(inner)`. -/
  | parenthesizedExpression (handle : Handle) (inner : Tree .expression) : Tree .expression
  /-- Written `operand++` or `operand--`. -/
  | postfixExpression (handle : Handle) (operand : Tree .expression) (operator : PostfixOperator) :
      Tree .expression
  /-- Written `qualifier.super`. -/
  | superReference (handle : Handle) (qualifier : Option NamedType) : Tree .expression
  /-- Written `qualifier.this`. -/
  | thisReference (handle : Handle) (qualifier : Option NamedType) : Tree .expression
  /-- Written `operator operand`. -/
  | unaryExpression (handle : Handle) (operator : UnaryOperator) (operand : Tree .expression) :
      Tree .expression
  /-- The members of an array in braces. -/
  | arrayInitializer (handle : Handle) (elements : Tree (.listOf .expression)) :
      Tree .arrayInitializer
  /-- Members in braces. -/
  | classBody (handle : Handle) (members : Tree (.listOf .member)) : Tree .classBody
  /-- Written `name = value`. -/
  | annotationElement (handle : Handle) (name : SimpleName) (value : Tree .expression) :
      Tree .annotationElement
  /-- Written `@type`. -/
  | annotationMarker (handle : Handle) (type : NamedType) : Tree .annotationUse
  /-- Written `@type(elements)`. -/
  | annotationNormal (handle : Handle) (type : NamedType)
      (elements : Tree (.listOf .annotationElement)) : Tree .annotationUse
  /-- Written `@type(value)`. -/
  | annotationSingleElement (handle : Handle) (type : NamedType) (value : Tree .expression) :
      Tree .annotationUse
  /-- A modifier as an attribute. -/
  | modifier (modifier : Modifier) : Tree .attribute
  /-- A use of an annotation as an attribute. -/
  | annotated (tree : Tree .annotationUse) : Tree .attribute
  /-- Written `modifiers type name`, with `...` for variable arity and extra dimensions behind the
  name. -/
  | formalParameterDeclaration (handle : Handle) (modifiers : Tree (.listOf .attribute))
      (type : Ty) (variableArity : Bool) (name : SimpleName) (extraDimensions : Nat) :
      Tree .formalParameter
  /-- Written `name = value`, with extra dimensions behind the name. -/
  | variableDeclarator (handle : Handle) (name : SimpleName) (extraDimensions : Nat)
      (value : Tree (.optional .expression)) : Tree .variableDeclarator
  /-- Statements in braces. -/
  | block (handle : Handle) (statements : Tree (.listOf .statement)) : Tree .block
  /-- Written `catch (parameter) body`. -/
  | catchClause (handle : Handle) (parameter : Tree .formalParameter) (body : Tree .block) :
      Tree .catchClause
  /-- Expressions of a `for` header. -/
  | statementExpressionList (handle : Handle) (first : Tree .expression)
      (rest : Tree (.listOf .expression)) : Tree .expressionList
  /-- Written `modifiers type declarators`. -/
  | localVariableDeclaration (handle : Handle) (modifiers : Tree (.listOf .attribute)) (type : Ty)
      (first : Tree .variableDeclarator) (rest : Tree (.listOf .variableDeclarator)) :
      Tree .localVariables
  /-- Local variables declared in a `for` header. -/
  | headerVariables (tree : Tree .localVariables) : Tree .forInitializer
  /-- Expressions evaluated at the start of a `for`. -/
  | headerExpressions (tree : Tree .expressionList) : Tree .forInitializer
  /-- Written `<typeArguments>this(arguments);`. -/
  | alternateConstructorInvocation (handle : Handle) (typeArguments : List Ty)
      (arguments : Tree (.listOf .expression)) : Tree .statement
  /-- Written `assert condition : message;`. -/
  | assertStatement (handle : Handle) (condition : Tree .expression)
      (message : Tree (.optional .expression)) : Tree .statement
  /-- A block as a statement. -/
  | blockStatement (tree : Tree .block) : Tree .statement
  /-- Written `break label;`. -/
  | breakStatement (handle : Handle) (target : Option SimpleName) : Tree .statement
  /-- Written `continue label;`. -/
  | continueStatement (handle : Handle) (target : Option SimpleName) : Tree .statement
  /-- Written `do body while (condition);`. -/
  | doStatement (handle : Handle) (body : Tree .statement) (condition : Tree .expression) :
      Tree .statement
  /-- Written `;`. -/
  | emptyStatement (handle : Handle) : Tree .statement
  /-- Written `for (parameter : values) body`. -/
  | enhancedForStatement (handle : Handle) (parameter : Tree .formalParameter)
      (values : Tree .expression) (body : Tree .statement) : Tree .statement
  /-- Written `expression;`. -/
  | expressionStatement (handle : Handle) (expression : Tree .expression) : Tree .statement
  /-- Written `for (start; condition; update) body`. -/
  | forStatement (handle : Handle) (start : Tree (.optional .forInitializer))
      (condition : Tree (.optional .expression)) (update : Tree (.optional .expressionList))
      (body : Tree .statement) : Tree .statement
  /-- Written `if (condition) yes else no`. -/
  | ifStatement (handle : Handle) (condition : Tree .expression) (yes : Tree .statement)
      (no : Tree (.optional .statement)) : Tree .statement
  /-- Written `label: body`. -/
  | labeledStatement (handle : Handle) (label : SimpleName) (body : Tree .statement) :
      Tree .statement
  /-- A class declared in a block. -/
  | localClassDeclaration (handle : Handle) (declaration : Tree .classDeclaration) :
      Tree .statement
  /-- Local variables declared in a block. -/
  | variablesStatement (tree : Tree .localVariables) : Tree .statement
  /-- Written `return value;`. -/
  | returnStatement (handle : Handle) (value : Tree (.optional .expression)) : Tree .statement
  /-- Written `qualifier.<typeArguments>super(arguments);`. -/
  | superConstructorInvocation (handle : Handle) (qualifier : Tree (.optional .expression))
      (typeArguments : List Ty) (arguments : Tree (.listOf .expression)) : Tree .statement
  /-- Written `case value:`. -/
  | switchCaseLabel (handle : Handle) (value : Tree .expression) : Tree .statement
  /-- Written `default:`. -/
  | switchDefaultLabel (handle : Handle) : Tree .statement
  /-- Written `switch (value) { … }`. -/
  | switchStatement (handle : Handle) (value : Tree .expression)
      (statements : Tree (.listOf .statement)) : Tree .statement
  /-- Written `synchronized (lock) body`. -/
  | synchronizedStatement (handle : Handle) (lock : Tree .expression) (body : Tree .block) :
      Tree .statement
  /-- Written `throw value;`. -/
  | throwStatement (handle : Handle) (value : Tree .expression) : Tree .statement
  /-- Written `try body catches finally last`. -/
  | tryStatement (handle : Handle) (body : Tree .block) (catches : Tree (.listOf .catchClause))
      (last : Tree (.optional .block)) : Tree .statement
  /-- Written `while (condition) body`. -/
  | whileStatement (handle : Handle) (condition : Tree .expression) (body : Tree .statement) :
      Tree .statement
  /-- Written `class name<parameters> extends superClass implements interfaces { members }`. -/
  | classDeclaration (handle : Handle) (javadoc : Option Javadoc)
      (modifiers : Tree (.listOf .attribute)) (name : SimpleName) (parameters : List TypeParameter)
      (superClass : Option Ty) (interfaces : List Ty) (members : Tree (.listOf .member)) :
      Tree .classDeclaration
  /-- A class as a declared type. -/
  | classType (tree : Tree .classDeclaration) : Tree .typeDeclaration
  /-- Written `interface name<parameters> extends interfaces { members }`. -/
  | interfaceDeclaration (handle : Handle) (javadoc : Option Javadoc)
      (modifiers : Tree (.listOf .attribute)) (name : SimpleName) (parameters : List TypeParameter)
      (interfaces : List Ty) (members : Tree (.listOf .member)) : Tree .typeDeclaration
  /-- Written `enum name implements interfaces { constants; members }`. -/
  | enumDeclaration (handle : Handle) (javadoc : Option Javadoc)
      (modifiers : Tree (.listOf .attribute)) (name : SimpleName) (interfaces : List Ty)
      (constants : Tree (.listOf .enumConstant)) (members : Tree (.listOf .member)) :
      Tree .typeDeclaration
  /-- Written `@interface name { members }`. -/
  | annotationDeclaration (handle : Handle) (javadoc : Option Javadoc)
      (modifiers : Tree (.listOf .attribute)) (name : SimpleName)
      (members : Tree (.listOf .member)) : Tree .typeDeclaration
  /-- Written `name(arguments) body`. -/
  | enumConstantDeclaration (handle : Handle) (javadoc : Option Javadoc)
      (modifiers : Tree (.listOf .attribute)) (name : SimpleName)
      (arguments : Tree (.listOf .expression)) (body : Tree (.optional .classBody)) :
      Tree .enumConstant
  /-- A declared type as a member. -/
  | typeMember (tree : Tree .typeDeclaration) : Tree .member
  /-- Written `modifiers type declarators;`. -/
  | fieldDeclaration (handle : Handle) (javadoc : Option Javadoc)
      (modifiers : Tree (.listOf .attribute)) (type : Ty) (first : Tree .variableDeclarator)
      (rest : Tree (.listOf .variableDeclarator)) : Tree .member
  /-- Written `<typeParameters> returnType name(parameters) throws exceptions body`. -/
  | methodDeclaration (handle : Handle) (javadoc : Option Javadoc)
      (modifiers : Tree (.listOf .attribute)) (typeParameters : List TypeParameter)
      (returnType : Ty) (name : SimpleName) (parameters : Tree (.listOf .formalParameter))
      (extraDimensions : Nat) (exceptions : List Ty) (body : Tree (.optional .block)) :
      Tree .member
  /-- Written `<typeParameters> name(parameters) throws exceptions body`. -/
  | constructorDeclaration (handle : Handle) (javadoc : Option Javadoc)
      (modifiers : Tree (.listOf .attribute)) (typeParameters : List TypeParameter)
      (name : SimpleName) (parameters : Tree (.listOf .formalParameter)) (exceptions : List Ty)
      (body : Tree .block) : Tree .member
  /-- A block run when a class or an object is set up. -/
  | initializerDeclaration (handle : Handle) (javadoc : Option Javadoc)
      (modifiers : Tree (.listOf .attribute)) (body : Tree .block) : Tree .member
  /-- Written `type name() default value;`. -/
  | annotationElementDeclaration (handle : Handle) (javadoc : Option Javadoc)
      (modifiers : Tree (.listOf .attribute)) (type : Ty) (name : SimpleName)
      (defaultValue : Tree (.optional .expression)) : Tree .member

/-- An expression. -/
abbrev Expression := Tree .expression

/-- A statement. -/
abbrev Statement := Tree .statement

/-- A block of statements. -/
abbrev Block := Tree .block

namespace Tree

variable {c : Category}

/-- The trees of a list as a tree. -/
def ofList : List (Tree c) → Tree (.listOf c)
  | [] => .nil
  | t :: ts => .cons t (ofList ts)

/-- An optional tree as a tree. -/
def ofOption : Option (Tree c) → Tree (.optional c)
  | none => .absent
  | some t => .present t

/-- Whether nothing is there: the empty list, or a tree that is missing. -/
def isEmpty : Tree c → Bool
  | .nil | .absent => true
  | _ => false

end Tree

end JavaSource
