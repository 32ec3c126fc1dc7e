import JavaSource.CompilationUnit

/-!
# Outlines

An outline is a tree seen without its static types: a node is its kind, its handle and the outlines
of its fields in the order in which the kind declares them. What treats every kind alike
(comparison, digest, description) is a function of outlines. Saying that a tree belongs to a larger
category leaves the outline as it is.
-/

namespace JavaSource

/-- A tree without static types. -/
inductive Outline where
  /-- A node. -/
  | node (kind : Kind) (handle : Handle) (fields : List Outline)
  /-- A text. -/
  | text (string : String)
  /-- A truth value. -/
  | flag (value : Bool)
  /-- A number. -/
  | count (value : Nat)
  /-- A member of an enumeration, by position and name. -/
  | choice (index : Nat) (name : String)
  /-- A missing field. -/
  | absent
  /-- A list. -/
  | list (elements : List Outline)

namespace Outline

/-- The outline of a member of an enumeration. -/
def ofChoice {α : Type} [DecidableEq α] [Enumeration α] (a : α) : Outline :=
  .choice (Enumeration.index a) (Enumeration.name a)

/-- The outline of what may be missing. -/
def ofOption {α : Type} (f : α → Outline) : Option α → Outline
  | none => .absent
  | some a => f a

/-- The outline of a list. -/
def ofList {α : Type} (f : α → Outline) (as : List α) : Outline :=
  .list (as.map f)

/-- The elements of a list. -/
def elements : Outline → List Outline
  | .list os => os
  | _ => []

/-- The kind of a node. -/
def kind? : Outline → Option Kind
  | .node k _ _ => some k
  | _ => none

/-- The handle of a node. -/
def handle : Outline → Handle
  | .node _ h _ => h
  | _ => none

end Outline

/-! ### Names, types and documentation -/

/-- The outline of a simple name. -/
def SimpleName.outline (n : SimpleName) : Outline :=
  .node .simpleName n.handle [.text n.token]

/-- The outline of a name. -/
def Name.outline : Name → Outline
  | .simple n => n.outline
  | .qualified h q n => .node .qualifiedName h [q.outline, n.outline]

/-- The outline of a named type. -/
def NamedType.outline (t : NamedType) : Outline :=
  .node .namedType t.handle [t.name.outline]

namespace Ty

mutual

/-- The outline of a type. -/
def outline : Ty → Outline
  | .array h c => .node .arrayType h [c.outline]
  | .basic h k => .node .basicType h [.ofChoice k]
  | .named t => t.outline
  | .parameterized h b f r =>
    .node .parameterizedType h [b.outline, .list (f.outline :: outlineEach r)]
  | .qualified h q n => .node .qualifiedType h [q.outline, n.outline]
  | .wildcard h d none => .node .wildcard h [.ofChoice d, .absent]
  | .wildcard h d (some b) => .node .wildcard h [.ofChoice d, b.outline]

/-- The outline of each of several types. -/
def outlineEach : List Ty → List Outline
  | [] => []
  | t :: ts => t.outline :: outlineEach ts

end

@[simp] theorem outlineEach_eq_map (ts : List Ty) : outlineEach ts = ts.map outline := by
  induction ts with
  | nil => rfl
  | cons t ts ih => simp [outlineEach, ih]

end Ty

/-- The outline of a documented method's parameter. -/
def DocParameter.outline (p : DocParameter) : Outline :=
  .node .docMethodParameter p.handle
    [p.type.outline, .ofOption SimpleName.outline p.name, .flag p.variableArity]

namespace DocElement

mutual

/-- The outline of an element of documentation. -/
def outline : DocElement → Outline
  | .block h tag es => .node .docBlock h [.text tag, .list (outlineEach es)]
  | .field h t n => .node .docField h [.ofOption Ty.outline t, n.outline]
  | .method h t n ps =>
    .node .docMethod h [.ofOption Ty.outline t, n.outline, .ofList DocParameter.outline ps]
  | .text h s => .node .docText h [.text s]
  | .name n => n.outline
  | .type t => t.outline

/-- The outline of each of several elements. -/
def outlineEach : List DocElement → List Outline
  | [] => []
  | e :: es => e.outline :: outlineEach es

end

theorem outlineEach_eq_map (es : List DocElement) : outlineEach es = es.map outline := by
  induction es with
  | nil => rfl
  | cons e es ih => rw [outlineEach, ih, List.map_cons]

end DocElement

/-- The outline of a block of documentation. -/
def DocBlock.outline (b : DocBlock) : Outline :=
  b.toElement.outline

/-- The outline of a documentation comment. -/
def Javadoc.outline (j : Javadoc) : Outline :=
  .node .javadoc j.handle [.ofList DocBlock.outline j.blocks]

/-- The outline of a comment. -/
def Comment.outline : Comment → Outline
  | .block h s => .node .blockComment h [.text s]
  | .line h s => .node .lineComment h [.text s]
  | .javadoc j => j.outline

/-! ### Code -/

/-- The outline of a modifier. -/
def Modifier.outline (m : Modifier) : Outline :=
  .node .modifier m.handle [.ofChoice m.kind]

/-- The outline of a type parameter. -/
def TypeParameter.outline (p : TypeParameter) : Outline :=
  .node .typeParameterDeclaration p.handle [p.name.outline, .ofList Ty.outline p.bounds]

namespace Tree

/-- The outline of a tree. -/
def outline : {c : Category} → Tree c → Outline
  | _, .nil => .list []
  | _, .cons t ts => .list (t.outline :: ts.outline.elements)
  | _, .absent => .absent
  | _, .present t => t.outline
  | _, .nameExpression n => n.outline
  | _, .initializerExpression t => t.outline
  | _, .arrayAccessExpression h array index =>
    .node .arrayAccessExpression h [array.outline, index.outline]
  | _, .arrayCreationExpression h type sizes values =>
    .node .arrayCreationExpression h [type.toTy.outline, sizes.outline, values.outline]
  | _, .assignmentExpression h left op right =>
    .node .assignmentExpression h [left.outline, .ofChoice op, right.outline]
  | _, .castExpression h type operand =>
    .node .castExpression h [type.outline, operand.outline]
  | _, .classInstanceCreationExpression h qualifier typeArgs type arguments anonymous =>
    .node .classInstanceCreationExpression h [qualifier.outline, .ofList Ty.outline typeArgs,
      type.outline, arguments.outline, anonymous.outline]
  | _, .classLiteral h type => .node .classLiteral h [type.outline]
  | _, .conditionalExpression h condition yes no =>
    .node .conditionalExpression h [condition.outline, yes.outline, no.outline]
  | _, .fieldAccessExpression h qualifier n =>
    .node .fieldAccessExpression h [qualifier.outline, n.outline]
  | _, .infixExpression h left op right =>
    .node .infixExpression h [left.outline, .ofChoice op, right.outline]
  | _, .instanceofExpression h operand type =>
    .node .instanceofExpression h [operand.outline, type.outline]
  | _, .literal h token _ => .node .literal h [.text token]
  | _, .methodInvocationExpression h qualifier typeArgs n arguments =>
    .node .methodInvocationExpression h
      [qualifier.outline, .ofList Ty.outline typeArgs, n.outline, arguments.outline]
  | _, .parenthesizedExpression h inner => .node .parenthesizedExpression h [inner.outline]
  | _, .postfixExpression h operand op =>
    .node .postfixExpression h [operand.outline, .ofChoice op]
  | _, .superReference h qualifier =>
    .node .superReference h [.ofOption NamedType.outline qualifier]
  | _, .thisReference h qualifier =>
    .node .thisReference h [.ofOption NamedType.outline qualifier]
  | _, .unaryExpression h op operand => .node .unaryExpression h [.ofChoice op, operand.outline]
  | _, .arrayInitializer h elements => .node .arrayInitializer h [elements.outline]
  | _, .classBody h ms => .node .classBody h [ms.outline]
  | _, .annotationElement h n value => .node .annotationElement h [n.outline, value.outline]
  | _, .annotationMarker h type => .node .annotationMarker h [type.outline]
  | _, .annotationNormal h type elements =>
    .node .annotationNormal h [type.outline, elements.outline]
  | _, .annotationSingleElement h type value =>
    .node .annotationSingleElement h [type.outline, value.outline]
  | _, .modifier m => m.outline
  | _, .annotated t => t.outline
  | _, .formalParameterDeclaration h modifiers type variableArity n extra =>
    .node .formalParameterDeclaration h
      [modifiers.outline, type.outline, .flag variableArity, n.outline, .count extra]
  | _, .variableDeclarator h n extra value =>
    .node .variableDeclarator h [n.outline, .count extra, value.outline]
  | _, .localVariableDeclaration h modifiers type first rest =>
    .node .localVariableDeclaration h
      [modifiers.outline, type.outline, .list (first.outline :: rest.outline.elements)]
  | _, .headerVariables t => t.outline
  | _, .headerExpressions t => t.outline
  | _, .statementExpressionList h first rest =>
    .node .statementExpressionList h [.list (first.outline :: rest.outline.elements)]
  | _, .block h statements => .node .block h [statements.outline]
  | _, .catchClause h parameter inner =>
    .node .catchClause h [parameter.outline, inner.outline]
  | _, .alternateConstructorInvocation h typeArgs arguments =>
    .node .alternateConstructorInvocation h [.ofList Ty.outline typeArgs, arguments.outline]
  | _, .assertStatement h condition message =>
    .node .assertStatement h [condition.outline, message.outline]
  | _, .blockStatement t => t.outline
  | _, .breakStatement h target => .node .breakStatement h [.ofOption SimpleName.outline target]
  | _, .continueStatement h target =>
    .node .continueStatement h [.ofOption SimpleName.outline target]
  | _, .doStatement h loop condition => .node .doStatement h [loop.outline, condition.outline]
  | _, .emptyStatement h => .node .emptyStatement h []
  | _, .enhancedForStatement h parameter values loop =>
    .node .enhancedForStatement h [parameter.outline, values.outline, loop.outline]
  | _, .expressionStatement h expression => .node .expressionStatement h [expression.outline]
  | _, .forStatement h start condition update loop =>
    .node .forStatement h [start.outline, condition.outline, update.outline, loop.outline]
  | _, .ifStatement h condition yes no =>
    .node .ifStatement h [condition.outline, yes.outline, no.outline]
  | _, .labeledStatement h label statement =>
    .node .labeledStatement h [label.outline, statement.outline]
  | _, .localClassDeclaration h declaration =>
    .node .localClassDeclaration h [declaration.outline]
  | _, .variablesStatement t => t.outline
  | _, .returnStatement h value => .node .returnStatement h [value.outline]
  | _, .superConstructorInvocation h qualifier typeArgs arguments =>
    .node .superConstructorInvocation h
      [qualifier.outline, .ofList Ty.outline typeArgs, arguments.outline]
  | _, .switchCaseLabel h value => .node .switchCaseLabel h [value.outline]
  | _, .switchDefaultLabel h => .node .switchDefaultLabel h []
  | _, .switchStatement h value statements =>
    .node .switchStatement h [value.outline, statements.outline]
  | _, .synchronizedStatement h lock inner =>
    .node .synchronizedStatement h [lock.outline, inner.outline]
  | _, .throwStatement h value => .node .throwStatement h [value.outline]
  | _, .tryStatement h inner catches last =>
    .node .tryStatement h [inner.outline, catches.outline, last.outline]
  | _, .whileStatement h condition loop =>
    .node .whileStatement h [condition.outline, loop.outline]
  | _, .classDeclaration h javadoc modifiers n parameters superClass interfaces ms =>
    .node .classDeclaration h
      [.ofOption Javadoc.outline javadoc, modifiers.outline, n.outline,
        .ofList TypeParameter.outline parameters, .ofOption Ty.outline superClass,
        .ofList Ty.outline interfaces, ms.outline]
  | _, .classType t => t.outline
  | _, .interfaceDeclaration h javadoc modifiers n parameters interfaces ms =>
    .node .interfaceDeclaration h
      [.ofOption Javadoc.outline javadoc, modifiers.outline, n.outline,
        .ofList TypeParameter.outline parameters, .ofList Ty.outline interfaces, ms.outline]
  | _, .enumDeclaration h javadoc modifiers n interfaces constants ms =>
    .node .enumDeclaration h
      [.ofOption Javadoc.outline javadoc, modifiers.outline, n.outline,
        .ofList Ty.outline interfaces, constants.outline, ms.outline]
  | _, .annotationDeclaration h javadoc modifiers n ms =>
    .node .annotationDeclaration h
      [.ofOption Javadoc.outline javadoc, modifiers.outline, n.outline, ms.outline]
  | _, .enumConstantDeclaration h javadoc modifiers n arguments anonymous =>
    .node .enumConstantDeclaration h
      [.ofOption Javadoc.outline javadoc, modifiers.outline, n.outline, arguments.outline,
        anonymous.outline]
  | _, .typeMember t => t.outline
  | _, .fieldDeclaration h javadoc modifiers type first rest =>
    .node .fieldDeclaration h
      [.ofOption Javadoc.outline javadoc, modifiers.outline, type.outline,
        .list (first.outline :: rest.outline.elements)]
  | _, .methodDeclaration h javadoc modifiers typeParams returnType n parameters extra exceptions
      inner =>
    .node .methodDeclaration h
      [.ofOption Javadoc.outline javadoc, modifiers.outline,
        .ofList TypeParameter.outline typeParams, returnType.outline, n.outline,
        parameters.outline, .count extra, .ofList Ty.outline exceptions, inner.outline]
  | _, .constructorDeclaration h javadoc modifiers typeParams n parameters exceptions inner =>
    .node .constructorDeclaration h
      [.ofOption Javadoc.outline javadoc, modifiers.outline,
        .ofList TypeParameter.outline typeParams, n.outline, parameters.outline,
        .ofList Ty.outline exceptions, inner.outline]
  | _, .initializerDeclaration h javadoc modifiers inner =>
    .node .initializerDeclaration h
      [.ofOption Javadoc.outline javadoc, modifiers.outline, inner.outline]
  | _, .annotationElementDeclaration h javadoc modifiers type n defaultValue =>
    .node .annotationElementDeclaration h
      [.ofOption Javadoc.outline javadoc, modifiers.outline, type.outline, n.outline,
        defaultValue.outline]

end Tree

/-! ### Units -/

/-- The outline of a package declaration. -/
def PackageDeclaration.outline (p : PackageDeclaration) : Outline :=
  .node .packageDeclaration p.handle
    [.ofOption Javadoc.outline p.javadoc, .ofList Tree.outline p.annotations, p.name.outline]

/-- The outline of an import declaration. -/
def ImportDeclaration.outline (i : ImportDeclaration) : Outline :=
  .node .importDeclaration i.handle [.ofChoice i.kind, i.name.outline]

/-- The outline of a compilation unit. -/
def CompilationUnit.outline (u : CompilationUnit) : Outline :=
  .node .compilationUnit u.handle
    [.ofOption PackageDeclaration.outline u.package, .ofList ImportDeclaration.outline u.imports,
      .ofList Tree.outline u.types, .ofList Comment.outline u.comments]

end JavaSource
