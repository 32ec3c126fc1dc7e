import JavaSource.Emission.Doc
import JavaSource.Tree

/-!
# Tokens of code

`Tree.emit` gives the tokens of every node of a tree that is a node or a list of nodes: one
`Emitted` for a node, one for each element of a list, none for a missing tree. Expressions are
written for a strength that their place demands, and are parenthesized where they bind more loosely.

* An `else` belongs to the nearest `if`, so a branch that ends in an `if` without `else` is put in
  braces (`Tree.openEnded`).
* An assignment whose operator has no assignment symbol is marked `rejected`.
-/

namespace JavaSource

/-! ### Parts of statements -/

/-- A keyword and what it tests, in parentheses. -/
def header (keyword : String) (ts : List Token) : List Token :=
  [Token.word keyword, .space] ++ parenthesized ts

/-- Nodes on a line each. -/
def lines (es : List Emitted) : List Token :=
  es.flatMap fun e => e.tokens ++ [Token.newline]

/-- The body of a compound statement: a block on the same line, anything else on the next one. -/
def body (es : List Emitted) : List Token :=
  es.flatMap fun e =>
    if e.kind = .block then .space :: e.tokens
    else [Token.newline, .indent] ++ e.tokens ++ [Token.dedent]

/-- Whether the body of a compound statement ends with a brace. -/
def endsInBrace (es : List Emitted) : Bool :=
  es.any fun e => e.kind = .block

/-- What follows `else`: another `if` on the same line, or a body. -/
def alternative (es : List Emitted) : List Token :=
  es.flatMap fun e => if e.kind = .ifStatement then .space :: e.tokens else body [e]

/-- The branches of an `if`. The first one gets braces if an `else` would be read as part of it. -/
def branches (openEnded : Bool) (yes no : List Emitted) : List Token :=
  match no with
  | [] => body yes
  | _ =>
    (if openEnded then .space :: indentedBraces (lines yes) else body yes) ++
      [if openEnded || endsInBrace yes then .space else .newline, .word "else"] ++ alternative no

/-- The statements of a `switch`, labels one level further out than the rest. -/
def switchLines (es : List Emitted) : List Token :=
  es.flatMap fun e =>
    if e.kind = .switchCaseLabel ∨ e.kind = .switchDefaultLabel then e.tokens ++ [Token.newline]
    else .indent :: e.tokens ++ [Token.newline, .dedent]

/-- A label that may be missing. -/
def emitTarget (x : EmitContext) : Option SimpleName → List Token
  | none => []
  | some n => n.emit x

/-- A named type that qualifies what follows. -/
def emitTypeQualifier (x : EmitContext) : Option NamedType → List Token
  | none => []
  | some t => t.emit x ++ [.mark .dot]

/-- An expression that qualifies what follows. -/
def qualifying (es : List Emitted) : List Token :=
  es.flatMap fun e => e.tokens ++ [Token.mark .dot]

/-- A node behind a token; nothing if it is missing. -/
def after (t : Token) (es : List Emitted) : List Token :=
  es.flatMap fun e => t :: e.tokens

/-! ### Parts of declarations -/

/-- Whether a kind is that of a used annotation. -/
def Kind.isAnnotationUse : Kind → Bool
  | .annotationMarker | .annotationNormal | .annotationSingleElement => true
  | _ => false

/-- Modifiers and annotations. With `ownLines`, annotations stand on lines of their own. -/
def attributes (ownLines : Bool) (es : List Emitted) : List Token :=
  es.flatMap fun e =>
    e.tokens ++ [if ownLines && e.kind.isAnnotationUse then Token.newline else .space]

/-- Members on a line each, behind an empty line where one is wanted. -/
def memberLines (blankLines : Bool) : (blankFirst : Bool) → List Emitted → List Token
  | _, [] => []
  | blankFirst, e :: es =>
    (if blankFirst && blankLines then [.newline] else []) ++ e.tokens ++ .newline ::
      memberLines blankLines true es

/-- The members of a type in braces. -/
def members (x : EmitContext) (es : List Emitted) : List Token :=
  .space :: indentedBraces (memberLines x.blankLines false es)

/-- The constants of an enum on a line each, ended by a semicolon if members follow. -/
def constantLines (hasMembers : Bool) : List Emitted → List Token
  | [] => if hasMembers then [.mark .semicolon, .newline] else []
  | [e] => e.tokens ++ (if hasMembers then [.mark .semicolon] else []) ++ [.newline]
  | e :: es => e.tokens ++ [.mark .comma, .newline] ++ constantLines hasMembers es

/-- The constants and members of an enum in braces. The constants count as a first member. -/
def enumBody (x : EmitContext) (constants es : List Emitted) : List Token :=
  .space :: indentedBraces
    (constantLines (!es.isEmpty) constants ++ memberLines x.blankLines true es)

/-- The tokens of a type parameter. -/
def TypeParameter.emit (x : EmitContext) (p : TypeParameter) : List Token :=
  x.attached p.handle .inline ++ p.name.emit x ++
    match p.bounds with
    | [] => []
    | first :: rest =>
      .word "extends" :: first.emit x ++ rest.flatMap fun t => .operator "&" :: t.emit x

/-- The declared type parameters in angle brackets. -/
def typeParameters (x : EmitContext) (ps : List TypeParameter) : List Token :=
  angled (ps.map (TypeParameter.emit x))

/-- Type parameters in front of what they parameterize. -/
def leadingParameters (x : EmitContext) : List TypeParameter → List Token
  | [] => []
  | ps => typeParameters x ps ++ [.space]

/-- A keyword and types with commas between them; nothing if there are none. -/
def typeClause (x : EmitContext) (keyword : String) (ts : List Ty) : List Token :=
  clause keyword (ts.map (Ty.emit x))

/-- The tokens of a modifier. -/
def Modifier.emit (x : EmitContext) (m : Modifier) : List Token :=
  x.attached m.handle .inline ++ [Token.word m.kind.keyword]

namespace Tree

/-- Whether an `else` behind the statement would belong to an `if` inside it. -/
def openEnded : {c : Category} → Tree c → Bool
  | _, .ifStatement _ _ _ no => no.isEmpty || openEnded no
  | _, .present t => openEnded t
  | _, .whileStatement _ _ body => openEnded body
  | _, .forStatement _ _ _ _ body => openEnded body
  | _, .enhancedForStatement _ _ _ body => openEnded body
  | _, .labeledStatement _ _ body => openEnded body
  | _, _ => false

/-- Whether an expression starts with a sign that could be read as a sum or a difference. -/
def startsWithSign : Tree .expression → Bool
  | .unaryExpression _ op _ => op.isSign
  | _ => false

/-- The handle of a declaration of local variables. -/
def variablesHandle : Tree .localVariables → Handle
  | .localVariableDeclaration h .. => h

/-- The tokens of the nodes of a tree, where strength `p` is demanded. -/
def emit (x : EmitContext) : {c : Category} → Tree c → (p : Precedence) → List Emitted
  | _, .nil, _ => []
  | _, .cons t ts, p => t.emit x p ++ ts.emit x p
  | _, .absent, _ => []
  | _, .present t, p => t.emit x p
  -- expressions
  | _, .nameExpression n, _ => [⟨n.kind, n.emit x⟩]
  | _, .initializerExpression t, p => t.emit x p
  | _, .arrayAccessExpression h array index, p =>
    let a := array.emit x .primary
    [⟨.arrayAccessExpression, x.attached h .inline ++ wrapped .primary p
      ((if a.any fun e => e.kind = .arrayCreationExpression then parenthesized (joined a)
        else joined a) ++
        bracketed (joined (index.emit x .lowest)))⟩]
  | _, .arrayCreationExpression h type sizes values, p =>
    let given := sizes.emit x .lowest
    [⟨.arrayCreationExpression, x.attached h .inline ++ wrapped .primary p
      (.word "new" :: type.element.emit x ++ given.flatMap (fun e => bracketed e.tokens) ++
        emptyBrackets (type.dimensions - given.length) ++
        after .space (values.emit x .lowest))⟩]
  | _, .assignmentExpression h left op right, p =>
    [⟨.assignmentExpression, x.attached h .inline ++
      match op.assignmentSymbol with
      | some symbol => wrapped .assignment p
          (joined (left.emit x .primary) ++ .operator symbol :: joined (right.emit x .assignment))
      | none => [.rejected op]⟩]
  | _, .castExpression h type operand, p =>
    let demanded := if !type.isBasic && operand.startsWithSign then .primary else .unary
    [⟨.castExpression, x.attached h .inline ++ wrapped .unary p
      (parenthesized (type.emit x) ++ .space :: joined (operand.emit x demanded))⟩]
  | _, .classInstanceCreationExpression h qualifier typeArgs type arguments anonymous, p =>
    [⟨.classInstanceCreationExpression, x.attached h .inline ++ wrapped .primary p
      (qualifying (qualifier.emit x .primary) ++ .word "new" ::
        (if typeArgs.isEmpty then [] else .space :: typeArguments x typeArgs) ++ type.emit x ++
        parenthesized (separated (arguments.emit x .lowest)) ++
        joined (anonymous.emit x .lowest))⟩]
  | _, .classLiteral h type, _ =>
    [⟨.classLiteral, x.attached h .inline ++ type.emit x ++ [.mark .dot, .word "class"]⟩]
  | _, .conditionalExpression h condition yes no, p =>
    [⟨.conditionalExpression, x.attached h .inline ++ wrapped .conditional p
      (joined (condition.emit x .conditionalOr) ++ .operator "?" :: joined (yes.emit x .lowest) ++
        .operator ":" :: joined (no.emit x .conditional))⟩]
  | _, .fieldAccessExpression h qualifier name, p =>
    [⟨.fieldAccessExpression, x.attached h .inline ++ wrapped .primary p
      (joined (qualifier.emit x .primary) ++ .mark .dot :: name.emit x)⟩]
  | _, .infixExpression h left op right, p =>
    [⟨.infixExpression, x.attached h .inline ++ wrapped op.precedence p
      (joined (left.emit x op.precedence) ++ .operator op.symbol ::
        joined (right.emit x op.precedence.tighter))⟩]
  | _, .instanceofExpression h operand type, p =>
    [⟨.instanceofExpression, x.attached h .inline ++ wrapped .relational p
      (joined (operand.emit x .relational) ++ .operator "instanceof" :: type.emit x)⟩]
  | _, .literal h token _, _ => [⟨.literal, x.attached h .inline ++ [.word token]⟩]
  | _, .methodInvocationExpression h qualifier typeArgs name arguments, p =>
    [⟨.methodInvocationExpression, x.attached h .inline ++ wrapped .primary p
      (qualifying (qualifier.emit x .primary) ++ invocationArguments x typeArgs ++ name.emit x ++
        parenthesized (separated (arguments.emit x .lowest)))⟩]
  | _, .parenthesizedExpression h inner, _ =>
    [⟨.parenthesizedExpression,
      x.attached h .inline ++ parenthesized (joined (inner.emit x .lowest))⟩]
  | _, .postfixExpression h operand op, p =>
    [⟨.postfixExpression, x.attached h .inline ++ wrapped .suffix p
      (joined (operand.emit x .suffix) ++ [.mark op.mark])⟩]
  | _, .superReference h qualifier, _ =>
    [⟨.superReference, x.attached h .inline ++ emitTypeQualifier x qualifier ++ [.word "super"]⟩]
  | _, .thisReference h qualifier, _ =>
    [⟨.thisReference, x.attached h .inline ++ emitTypeQualifier x qualifier ++ [.word "this"]⟩]
  | _, .unaryExpression h op operand, p =>
    [⟨.unaryExpression, x.attached h .inline ++ wrapped .unary p
      (.sign op :: joined (operand.emit x .unary))⟩]
  | _, .arrayInitializer h elements, _ =>
    [⟨.arrayInitializer,
      x.attached h .inline ++ braced (separated (elements.emit x .lowest))⟩]
  | _, .classBody h ms, _ =>
    [⟨.classBody, x.attached h .inline ++ members x (ms.emit x .lowest)⟩]
  -- attributes
  | _, .annotationElement h name value, _ =>
    [⟨.annotationElement, x.attached h .inline ++ name.emit x ++ .operator "=" ::
      joined (value.emit x .lowest)⟩]
  | _, .annotationMarker h type, _ =>
    [⟨.annotationMarker, x.attached h .inline ++ .mark .atSign :: type.emit x⟩]
  | _, .annotationNormal h type elements, _ =>
    [⟨.annotationNormal, x.attached h .inline ++ .mark .atSign :: type.emit x ++
      parenthesized (separated (elements.emit x .lowest))⟩]
  | _, .annotationSingleElement h type value, _ =>
    [⟨.annotationSingleElement, x.attached h .inline ++ .mark .atSign :: type.emit x ++
      parenthesized (joined (value.emit x .lowest))⟩]
  | _, .modifier m, _ => [⟨.modifier, m.emit x⟩]
  | _, .annotated t, p => t.emit x p
  -- variables
  | _, .formalParameterDeclaration h modifiers type variableArity name extra, _ =>
    [⟨.formalParameterDeclaration, x.attached h .inline ++
      attributes false (modifiers.emit x .lowest) ++ type.emit x ++
      (if variableArity then [.mark .ellipsis, .space] else []) ++ name.emit x ++
      emptyBrackets extra⟩]
  | _, .variableDeclarator h name extra value, _ =>
    [⟨.variableDeclarator, x.attached h .inline ++ name.emit x ++ emptyBrackets extra ++
      after (.operator "=") (value.emit x .lowest)⟩]
  | _, .localVariableDeclaration _ modifiers type first rest, _ =>
    [⟨.localVariableDeclaration, attributes false (modifiers.emit x .lowest) ++ type.emit x ++
      separated (first.emit x .lowest ++ rest.emit x .lowest)⟩]
  | _, .headerVariables t, _ =>
    [⟨.localVariableDeclaration,
      x.attached t.variablesHandle .inline ++ joined (t.emit x .lowest)⟩]
  | _, .headerExpressions t, p => t.emit x p
  | _, .statementExpressionList h first rest, _ =>
    [⟨.statementExpressionList, x.attached h .inline ++
      separated (first.emit x .lowest ++ rest.emit x .lowest)⟩]
  -- statements
  | _, .block h statements, _ =>
    [⟨.block, x.attached h .inline ++ indentedBraces (lines (statements.emit x .lowest))⟩]
  | _, .catchClause h parameter inner, _ =>
    [⟨.catchClause, x.attached h .inline ++ header "catch" (joined (parameter.emit x .lowest)) ++
      .space :: joined (inner.emit x .lowest)⟩]
  | _, .alternateConstructorInvocation h typeArgs arguments, _ =>
    [⟨.alternateConstructorInvocation, x.attached h .ownLine ++ invocationArguments x typeArgs ++
      .word "this" :: parenthesized (separated (arguments.emit x .lowest)) ++
      [.mark .semicolon]⟩]
  | _, .assertStatement h condition message, _ =>
    [⟨.assertStatement, x.attached h .ownLine ++ [.word "assert", .space] ++
      joined (condition.emit x .lowest) ++ after (.operator ":") (message.emit x .lowest) ++
      [.mark .semicolon]⟩]
  | _, .blockStatement t, p => t.emit x p
  | _, .breakStatement h target, _ =>
    [⟨.breakStatement, x.attached h .ownLine ++ .word "break" :: emitTarget x target ++
      [.mark .semicolon]⟩]
  | _, .continueStatement h target, _ =>
    [⟨.continueStatement, x.attached h .ownLine ++ .word "continue" :: emitTarget x target ++
      [.mark .semicolon]⟩]
  | _, .doStatement h loop condition, _ =>
    let inner := loop.emit x .lowest
    [⟨.doStatement, x.attached h .ownLine ++ .word "do" :: body inner ++
      (if endsInBrace inner then .space else .newline) ::
      header "while" (joined (condition.emit x .lowest)) ++ [.mark .semicolon]⟩]
  | _, .emptyStatement h, _ => [⟨.emptyStatement, x.attached h .ownLine ++ [.mark .semicolon]⟩]
  | _, .enhancedForStatement h parameter values loop, _ =>
    [⟨.enhancedForStatement, x.attached h .ownLine ++
      header "for" (joined (parameter.emit x .lowest) ++ .operator ":" ::
        joined (values.emit x .lowest)) ++ body (loop.emit x .lowest)⟩]
  | _, .expressionStatement h expression, _ =>
    [⟨.expressionStatement, x.attached h .ownLine ++ joined (expression.emit x .lowest) ++
      [.mark .semicolon]⟩]
  | _, .forStatement h start condition update loop, _ =>
    [⟨.forStatement, x.attached h .ownLine ++
      header "for" (joined (start.emit x .lowest) ++ .mark .semicolon ::
        after .space (condition.emit x .lowest) ++ .mark .semicolon ::
        after .space (update.emit x .lowest)) ++ body (loop.emit x .lowest)⟩]
  | _, .ifStatement h condition yes no, _ =>
    [⟨.ifStatement, x.attached h .ownLine ++ header "if" (joined (condition.emit x .lowest)) ++
      branches yes.openEnded (yes.emit x .lowest) (no.emit x .lowest)⟩]
  | _, .labeledStatement h label statement, _ =>
    [⟨.labeledStatement, x.attached h .ownLine ++ label.emit x ++ [.mark .colon, .space] ++
      joined (statement.emit x .lowest)⟩]
  | _, .localClassDeclaration h declaration, _ =>
    [⟨.localClassDeclaration, x.attached h .ownLine ++ joined (declaration.emit x .lowest)⟩]
  | _, .variablesStatement t, _ =>
    [⟨.localVariableDeclaration, x.attached t.variablesHandle .ownLine ++
      joined (t.emit x .lowest) ++ [.mark .semicolon]⟩]
  | _, .returnStatement h value, _ =>
    [⟨.returnStatement, x.attached h .ownLine ++ .word "return" ::
      after .space (value.emit x .lowest) ++ [.mark .semicolon]⟩]
  | _, .superConstructorInvocation h qualifier typeArgs arguments, _ =>
    [⟨.superConstructorInvocation, x.attached h .ownLine ++
      qualifying (qualifier.emit x .primary) ++ invocationArguments x typeArgs ++
      .word "super" :: parenthesized (separated (arguments.emit x .lowest)) ++
      [.mark .semicolon]⟩]
  | _, .switchCaseLabel h value, _ =>
    [⟨.switchCaseLabel, x.attached h .ownLine ++ [.word "case", .space] ++
      joined (value.emit x .lowest) ++ [.mark .colon]⟩]
  | _, .switchDefaultLabel h, _ =>
    [⟨.switchDefaultLabel, x.attached h .ownLine ++ [.word "default", .mark .colon]⟩]
  | _, .switchStatement h value statements, _ =>
    [⟨.switchStatement, x.attached h .ownLine ++ header "switch" (joined (value.emit x .lowest)) ++
      .space :: indentedBraces (switchLines (statements.emit x .lowest))⟩]
  | _, .synchronizedStatement h lock inner, _ =>
    [⟨.synchronizedStatement, x.attached h .ownLine ++
      header "synchronized" (joined (lock.emit x .lowest)) ++
      .space :: joined (inner.emit x .lowest)⟩]
  | _, .throwStatement h value, _ =>
    [⟨.throwStatement, x.attached h .ownLine ++ [.word "throw", .space] ++
      joined (value.emit x .lowest) ++ [.mark .semicolon]⟩]
  | _, .tryStatement h inner catches last, _ =>
    [⟨.tryStatement, x.attached h .ownLine ++ [.word "try", .space] ++
      joined (inner.emit x .lowest) ++ after .space (catches.emit x .lowest) ++
      (last.emit x .lowest).flatMap fun e => [.space, .word "finally", .space] ++ e.tokens⟩]
  | _, .whileStatement h condition loop, _ =>
    [⟨.whileStatement, x.attached h .ownLine ++
      header "while" (joined (condition.emit x .lowest)) ++ body (loop.emit x .lowest)⟩]
  -- declarations
  | _, .classDeclaration h javadoc modifiers name parameters superClass interfaces ms, _ =>
    [⟨.classDeclaration, x.attached h .ownLine ++ emitJavadoc x javadoc ++
      attributes true (modifiers.emit x .lowest) ++ .word "class" :: name.emit x ++
      typeParameters x parameters ++ typeClause x "extends" superClass.toList ++
      typeClause x "implements" interfaces ++ members x (ms.emit x .lowest)⟩]
  | _, .classType t, p => t.emit x p
  | _, .interfaceDeclaration h javadoc modifiers name parameters interfaces ms, _ =>
    [⟨.interfaceDeclaration, x.attached h .ownLine ++ emitJavadoc x javadoc ++
      attributes true (modifiers.emit x .lowest) ++ .word "interface" :: name.emit x ++
      typeParameters x parameters ++ typeClause x "extends" interfaces ++
      members x (ms.emit x .lowest)⟩]
  | _, .enumDeclaration h javadoc modifiers name interfaces constants ms, _ =>
    [⟨.enumDeclaration, x.attached h .ownLine ++ emitJavadoc x javadoc ++
      attributes true (modifiers.emit x .lowest) ++ .word "enum" :: name.emit x ++
      typeClause x "implements" interfaces ++
      enumBody x (constants.emit x .lowest) (ms.emit x .lowest)⟩]
  | _, .annotationDeclaration h javadoc modifiers name ms, _ =>
    [⟨.annotationDeclaration, x.attached h .ownLine ++ emitJavadoc x javadoc ++
      attributes true (modifiers.emit x .lowest) ++ [.mark .atSign, .word "interface"] ++
      name.emit x ++ members x (ms.emit x .lowest)⟩]
  | _, .enumConstantDeclaration h javadoc modifiers name arguments anonymous, _ =>
    let given := arguments.emit x .lowest
    [⟨.enumConstantDeclaration, x.attached h .ownLine ++ emitJavadoc x javadoc ++
      attributes true (modifiers.emit x .lowest) ++ name.emit x ++
      (if given.isEmpty then [] else parenthesized (separated given)) ++
      joined (anonymous.emit x .lowest)⟩]
  | _, .typeMember t, p => t.emit x p
  | _, .fieldDeclaration h javadoc modifiers type first rest, _ =>
    [⟨.fieldDeclaration, x.attached h .ownLine ++ emitJavadoc x javadoc ++
      attributes true (modifiers.emit x .lowest) ++ type.emit x ++
      separated (first.emit x .lowest ++ rest.emit x .lowest) ++ [.mark .semicolon]⟩]
  | _, .methodDeclaration h javadoc modifiers typeParams returnType name parameters extra exceptions
      inner, _ =>
    let given := inner.emit x .lowest
    [⟨.methodDeclaration, x.attached h .ownLine ++ emitJavadoc x javadoc ++
      attributes true (modifiers.emit x .lowest) ++ leadingParameters x typeParams ++
      returnType.emit x ++ name.emit x ++ parenthesized (separated (parameters.emit x .lowest)) ++
      emptyBrackets extra ++ typeClause x "throws" exceptions ++
      (if given.isEmpty then [.mark .semicolon] else after .space given)⟩]
  | _, .constructorDeclaration h javadoc modifiers typeParams name parameters exceptions inner, _ =>
    [⟨.constructorDeclaration, x.attached h .ownLine ++ emitJavadoc x javadoc ++
      attributes true (modifiers.emit x .lowest) ++ leadingParameters x typeParams ++
      name.emit x ++ parenthesized (separated (parameters.emit x .lowest)) ++
      typeClause x "throws" exceptions ++ .space :: joined (inner.emit x .lowest)⟩]
  | _, .initializerDeclaration h javadoc modifiers inner, _ =>
    [⟨.initializerDeclaration, x.attached h .ownLine ++ emitJavadoc x javadoc ++
      attributes true (modifiers.emit x .lowest) ++ joined (inner.emit x .lowest)⟩]
  | _, .annotationElementDeclaration h javadoc modifiers type name defaultValue, _ =>
    [⟨.annotationElementDeclaration, x.attached h .ownLine ++ emitJavadoc x javadoc ++
      attributes true (modifiers.emit x .lowest) ++ type.emit x ++ name.emit x ++
      parenthesized [] ++
      ((defaultValue.emit x .lowest).flatMap fun e => [.word "default", .space] ++ e.tokens) ++
      [.mark .semicolon]⟩]

end Tree

end JavaSource
