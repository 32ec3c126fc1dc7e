import JavaSource.Kind

/-!
# The fields of each kind

Every kind of node has fields with names, in a fixed order. `Kind.fields` lists them together with
what each of them holds.

A place that admits nodes of several kinds is a choice between arms. Most arms are for one kind, but
the nodes of a smaller place can form an arm of a larger one: the names are one arm of the
expressions.
-/

namespace JavaSource

/-- Which nodes may stand in a place. -/
inductive Position where
  | name | type | expression | statement | typeDeclaration | member | attribute | annotationUse
  | comment | docElement | forInitializer
  /-- Nodes of one kind alone. -/
  | only (kind : Kind)
  deriving DecidableEq

namespace Position

/-- The kinds that have an arm of their own in a place. -/
def kinds : Position → List Kind
  | .name => [.simpleName, .qualifiedName]
  | .type =>
    [.arrayType, .basicType, .namedType, .parameterizedType, .qualifiedType, .wildcard]
  | .expression =>
    [.arrayAccessExpression, .arrayCreationExpression, .arrayInitializer, .assignmentExpression,
      .castExpression, .classInstanceCreationExpression, .classLiteral, .conditionalExpression,
      .fieldAccessExpression, .infixExpression, .instanceofExpression, .literal,
      .methodInvocationExpression, .parenthesizedExpression, .postfixExpression, .superReference,
      .thisReference, .unaryExpression]
  | .statement =>
    [.alternateConstructorInvocation, .assertStatement, .block, .breakStatement,
      .continueStatement, .doStatement, .emptyStatement, .enhancedForStatement,
      .expressionStatement, .forStatement, .ifStatement, .labeledStatement,
      .localClassDeclaration, .localVariableDeclaration, .returnStatement,
      .superConstructorInvocation, .switchCaseLabel, .switchDefaultLabel, .switchStatement,
      .synchronizedStatement, .throwStatement, .tryStatement, .whileStatement]
  | .typeDeclaration =>
    [.classDeclaration, .interfaceDeclaration, .enumDeclaration, .annotationDeclaration]
  | .member =>
    [.fieldDeclaration, .methodDeclaration, .constructorDeclaration, .initializerDeclaration,
      .annotationElementDeclaration]
  | .attribute => [.modifier]
  | .annotationUse => [.annotationMarker, .annotationNormal, .annotationSingleElement]
  | .comment => [.blockComment, .lineComment, .javadoc]
  | .docElement => [.docBlock, .docField, .docMethod, .docText]
  | .forInitializer => [.localVariableDeclaration, .statementExpressionList]
  | .only kind => [kind]

/-- The smaller places that have an arm in a place. -/
def inner : Position → List Position
  | .expression => [.name]
  | .member => [.typeDeclaration]
  | .attribute => [.annotationUse]
  | .docElement => [.name, .type]
  | _ => []

/-- The arms that a node of a kind is in, from the outside in. A place for one kind alone has no
arms. -/
def arms : Position → Kind → List Position
  | .only _, _ => []
  | p, k => (p.inner.filter fun q => q.kinds.contains k) ++ [.only k]

end Position

/-- What a field holds. -/
inductive Slot where
  /-- A node. -/
  | one (position : Position)
  /-- A node that may be missing. -/
  | optional (position : Position)
  /-- A list of nodes. -/
  | many (position : Position)
  /-- A text. -/
  | text
  /-- A truth value. -/
  | flag
  /-- A number. -/
  | number
  /-- A member of an enumeration. -/
  | choice
  deriving DecidableEq

/-- The fields of a kind. -/
def Kind.fields : Kind → List (String × Slot)
  | .alternateConstructorInvocation =>
    [("type_arguments", .many .type), ("arguments", .many .expression)]
  | .annotationDeclaration =>
    [("javadoc", .optional (.only .javadoc)), ("modifiers", .many .attribute),
      ("name", .one (.only .simpleName)), ("body_declarations", .many .member)]
  | .annotationElement => [("name", .one (.only .simpleName)), ("expression", .one .expression)]
  | .annotationElementDeclaration =>
    [("javadoc", .optional (.only .javadoc)), ("modifiers", .many .attribute), ("ty", .one .type),
      ("name", .one (.only .simpleName)), ("default_expression", .optional .expression)]
  | .arrayAccessExpression => [("array", .one .expression), ("index", .one .expression)]
  | .arrayCreationExpression =>
    [("ty", .one (.only .arrayType)), ("dimension_expressions", .many .expression),
      ("array_initializer", .optional (.only .arrayInitializer))]
  | .arrayInitializer => [("elements", .many .expression)]
  | .arrayType => [("component_type", .one .type)]
  | .assertStatement => [("expression", .one .expression), ("message", .optional .expression)]
  | .assignmentExpression =>
    [("left_hand_side", .one .expression), ("operator", .choice),
      ("right_hand_side", .one .expression)]
  | .basicType => [("type_kind", .choice)]
  | .block => [("statements", .many .statement)]
  | .blockComment => [("string", .text)]
  | .breakStatement => [("target_label", .optional (.only .simpleName))]
  | .castExpression => [("ty", .one .type), ("expression", .one .expression)]
  | .catchClause =>
    [("parameter", .one (.only .formalParameterDeclaration)), ("body", .one (.only .block))]
  | .classBody => [("body_declarations", .many .member)]
  | .classDeclaration =>
    [("javadoc", .optional (.only .javadoc)), ("modifiers", .many .attribute),
      ("name", .one (.only .simpleName)),
      ("type_parameters", .many (.only .typeParameterDeclaration)),
      ("super_class", .optional .type), ("super_interface_types", .many .type),
      ("body_declarations", .many .member)]
  | .classInstanceCreationExpression =>
    [("qualifier", .optional .expression), ("type_arguments", .many .type), ("ty", .one .type),
      ("arguments", .many .expression), ("body", .optional (.only .classBody))]
  | .classLiteral => [("ty", .one .type)]
  | .compilationUnit =>
    [("package_declaration", .optional (.only .packageDeclaration)),
      ("import_declarations", .many (.only .importDeclaration)),
      ("type_declarations", .many .typeDeclaration), ("comments", .many .comment)]
  | .conditionalExpression =>
    [("condition", .one .expression), ("then_expression", .one .expression),
      ("else_expression", .one .expression)]
  | .constructorDeclaration =>
    [("javadoc", .optional (.only .javadoc)), ("modifiers", .many .attribute),
      ("type_parameters", .many (.only .typeParameterDeclaration)),
      ("name", .one (.only .simpleName)),
      ("formal_parameters", .many (.only .formalParameterDeclaration)),
      ("exception_types", .many .type), ("body", .one (.only .block))]
  | .continueStatement => [("target_label", .optional (.only .simpleName))]
  | .doStatement => [("body", .one .statement), ("condition", .one .expression)]
  | .docBlock => [("tag", .text), ("elements", .many .docElement)]
  | .docField => [("ty", .optional .type), ("name", .one (.only .simpleName))]
  | .docMethod =>
    [("ty", .optional .type), ("name", .one (.only .simpleName)),
      ("formal_parameters", .many (.only .docMethodParameter))]
  | .docMethodParameter =>
    [("ty", .one .type), ("name", .optional (.only .simpleName)), ("variable_arity", .flag)]
  | .docText => [("string", .text)]
  | .emptyStatement => []
  | .enhancedForStatement =>
    [("parameter", .one (.only .formalParameterDeclaration)), ("expression", .one .expression),
      ("body", .one .statement)]
  | .enumConstantDeclaration =>
    [("javadoc", .optional (.only .javadoc)), ("modifiers", .many .attribute),
      ("name", .one (.only .simpleName)), ("arguments", .many .expression),
      ("body", .optional (.only .classBody))]
  | .enumDeclaration =>
    [("javadoc", .optional (.only .javadoc)), ("modifiers", .many .attribute),
      ("name", .one (.only .simpleName)), ("super_interface_types", .many .type),
      ("constant_declarations", .many (.only .enumConstantDeclaration)),
      ("body_declarations", .many .member)]
  | .expressionStatement => [("expression", .one .expression)]
  | .fieldAccessExpression => [("qualifier", .one .expression), ("name", .one (.only .simpleName))]
  | .fieldDeclaration =>
    [("javadoc", .optional (.only .javadoc)), ("modifiers", .many .attribute), ("ty", .one .type),
      ("variable_declarators", .many (.only .variableDeclarator))]
  | .forStatement =>
    [("initialization", .optional .forInitializer), ("condition", .optional .expression),
      ("update", .optional (.only .statementExpressionList)), ("body", .one .statement)]
  | .formalParameterDeclaration =>
    [("modifiers", .many .attribute), ("ty", .one .type), ("variable_arity", .flag),
      ("name", .one (.only .simpleName)), ("extra_dimensions", .number)]
  | .ifStatement =>
    [("condition", .one .expression), ("then_statement", .one .statement),
      ("else_statement", .optional .statement)]
  | .importDeclaration => [("import_kind", .choice), ("name", .one .name)]
  | .infixExpression =>
    [("left_operand", .one .expression), ("operator", .choice),
      ("right_operand", .one .expression)]
  | .initializerDeclaration =>
    [("javadoc", .optional (.only .javadoc)), ("modifiers", .many .attribute),
      ("body", .one (.only .block))]
  | .instanceofExpression => [("expression", .one .expression), ("ty", .one .type)]
  | .interfaceDeclaration =>
    [("javadoc", .optional (.only .javadoc)), ("modifiers", .many .attribute),
      ("name", .one (.only .simpleName)),
      ("type_parameters", .many (.only .typeParameterDeclaration)),
      ("super_interface_types", .many .type), ("body_declarations", .many .member)]
  | .javadoc => [("blocks", .many (.only .docBlock))]
  | .labeledStatement => [("label", .one (.only .simpleName)), ("body", .one .statement)]
  | .lineComment => [("string", .text)]
  | .literal => [("token", .text)]
  | .localClassDeclaration => [("declaration", .one (.only .classDeclaration))]
  | .localVariableDeclaration =>
    [("modifiers", .many .attribute), ("ty", .one .type),
      ("variable_declarators", .many (.only .variableDeclarator))]
  | .annotationMarker => [("ty", .one (.only .namedType))]
  | .methodDeclaration =>
    [("javadoc", .optional (.only .javadoc)), ("modifiers", .many .attribute),
      ("type_parameters", .many (.only .typeParameterDeclaration)), ("return_type", .one .type),
      ("name", .one (.only .simpleName)),
      ("formal_parameters", .many (.only .formalParameterDeclaration)),
      ("extra_dimensions", .number), ("exception_types", .many .type),
      ("body", .optional (.only .block))]
  | .methodInvocationExpression =>
    [("qualifier", .optional .expression), ("type_arguments", .many .type),
      ("name", .one (.only .simpleName)), ("arguments", .many .expression)]
  | .modifier => [("modifier_kind", .choice)]
  | .namedType => [("name", .one .name)]
  | .annotationNormal =>
    [("ty", .one (.only .namedType)), ("elements", .many (.only .annotationElement))]
  | .packageDeclaration =>
    [("javadoc", .optional (.only .javadoc)), ("annotations", .many .annotationUse),
      ("name", .one .name)]
  | .parameterizedType => [("ty", .one .type), ("type_arguments", .many .type)]
  | .parenthesizedExpression => [("expression", .one .expression)]
  | .postfixExpression => [("operand", .one .expression), ("operator", .choice)]
  | .qualifiedName => [("qualifier", .one .name), ("name", .one (.only .simpleName))]
  | .qualifiedType => [("qualifier", .one .type), ("name", .one (.only .simpleName))]
  | .returnStatement => [("expression", .optional .expression)]
  | .simpleName => [("token", .text)]
  | .annotationSingleElement => [("ty", .one (.only .namedType)), ("expression", .one .expression)]
  | .statementExpressionList => [("expressions", .many .expression)]
  | .superReference => [("qualifier", .optional (.only .namedType))]
  | .superConstructorInvocation =>
    [("qualifier", .optional .expression), ("type_arguments", .many .type),
      ("arguments", .many .expression)]
  | .switchCaseLabel => [("expression", .one .expression)]
  | .switchDefaultLabel => []
  | .switchStatement => [("expression", .one .expression), ("statements", .many .statement)]
  | .synchronizedStatement => [("expression", .one .expression), ("body", .one (.only .block))]
  | .thisReference => [("qualifier", .optional (.only .namedType))]
  | .throwStatement => [("expression", .one .expression)]
  | .tryStatement =>
    [("try_block", .one (.only .block)), ("catch_clauses", .many (.only .catchClause)),
      ("finally_block", .optional (.only .block))]
  | .typeParameterDeclaration => [("name", .one (.only .simpleName)), ("type_bounds", .many .type)]
  | .unaryExpression => [("operator", .choice), ("operand", .one .expression)]
  | .variableDeclarator =>
    [("name", .one (.only .simpleName)), ("extra_dimensions", .number),
      ("initializer", .optional .expression)]
  | .whileStatement => [("condition", .one .expression), ("body", .one .statement)]
  | .wildcard => [("bound_kind", .choice), ("type_bound", .optional .type)]

/-- What the fields of a kind hold. -/
def Kind.slots (k : Kind) : List Slot :=
  k.fields.map Prod.snd

end JavaSource
