import JavaSource.Proofs.Outline.Erasure
import JavaSource.Proofs.Outline.Injective

/-!
# Nodes without handles

Notes are filed under the handles of nodes, so a node without handles is a node with nothing
attached to it or to any of its parts. `Node.erased` takes the handles off. It is the erasure of
outlines, seen on trees with their static types (`Node.outline_erased`), and two nodes of one static
type are equal without their handles exactly if their outlines are
(`Node.erased_eq_iff`).
-/

namespace JavaSource

/-! ### Names, types and documentation -/

/-- The name without its handle. -/
def SimpleName.erased (n : SimpleName) : SimpleName :=
  { n with handle := none }

/-- The name without handles. -/
def Name.erased : Name → Name
  | .simple n => .simple n.erased
  | .qualified _ q n => .qualified none q.erased n.erased

/-- The type without handles. -/
def NamedType.erased (t : NamedType) : NamedType :=
  ⟨none, t.name.erased⟩

namespace Ty

mutual

/-- The type without handles. -/
def erased : Ty → Ty
  | .array _ c => .array none c.erased
  | .basic _ k => .basic none k
  | .named t => .named t.erased
  | .parameterized _ b f r => .parameterized none b.erased f.erased (erasedEach r)
  | .qualified _ q n => .qualified none q.erased n.erased
  | .wildcard _ d none => .wildcard none d none
  | .wildcard _ d (some b) => .wildcard none d (some b.erased)

/-- Each of several types without handles. -/
def erasedEach : List Ty → List Ty
  | [] => []
  | t :: ts => t.erased :: erasedEach ts

end

theorem erasedEach_eq_map (ts : List Ty) : erasedEach ts = ts.map erased := by
  induction ts with
  | nil => rfl
  | cons t ts ih => rw [erasedEach, ih, List.map_cons]

end Ty

/-- The array type without handles. -/
def ArrayType.erased (a : ArrayType) : ArrayType :=
  ⟨none, a.component.erased⟩

/-- The parameter without handles. -/
def DocParameter.erased (p : DocParameter) : DocParameter :=
  ⟨none, p.type.erased, p.name.map SimpleName.erased, p.variableArity⟩

namespace DocElement

mutual

/-- The piece of documentation without handles. -/
def erased : DocElement → DocElement
  | .block _ tag es => .block none tag (erasedEach es)
  | .field _ t n => .field none (t.map Ty.erased) n.erased
  | .method _ t n ps => .method none (t.map Ty.erased) n.erased (ps.map DocParameter.erased)
  | .text _ s => .text none s
  | .name n => .name n.erased
  | .type t => .type t.erased

/-- Each of several pieces of documentation without handles. -/
def erasedEach : List DocElement → List DocElement
  | [] => []
  | e :: es => e.erased :: erasedEach es

end

theorem erasedEach_eq_map (es : List DocElement) : erasedEach es = es.map erased := by
  induction es with
  | nil => rfl
  | cons e es ih => rw [erasedEach, ih, List.map_cons]

end DocElement

/-- The block without handles. -/
def DocBlock.erased (b : DocBlock) : DocBlock :=
  ⟨none, b.tag, b.elements.map DocElement.erased⟩

/-- The documentation comment without handles. -/
def Javadoc.erased (j : Javadoc) : Javadoc :=
  ⟨none, j.blocks.map DocBlock.erased⟩

/-- The comment without handles. -/
def Comment.erased : Comment → Comment
  | .block _ s => .block none s
  | .line _ s => .line none s
  | .javadoc j => .javadoc j.erased

/-! ### Code -/

/-- The modifier without its handle. -/
def Modifier.erased (m : Modifier) : Modifier :=
  { m with handle := none }

/-- The type parameter without handles. -/
def TypeParameter.erased (p : TypeParameter) : TypeParameter :=
  ⟨none, p.name.erased, p.bounds.map Ty.erased⟩

namespace Tree

/-- The tree without handles. -/
def erased : {c : Category} → Tree c → Tree c
  | _, .nil => .nil
  | _, .cons t ts => .cons t.erased ts.erased
  | _, .absent => .absent
  | _, .present t => .present t.erased
  | _, .nameExpression n => .nameExpression n.erased
  | _, .initializerExpression t => .initializerExpression t.erased
  | _, .arrayAccessExpression _ array index =>
    .arrayAccessExpression none array.erased index.erased
  | _, .arrayCreationExpression _ type sizes values =>
    .arrayCreationExpression none type.erased sizes.erased values.erased
  | _, .assignmentExpression _ left op right =>
    .assignmentExpression none left.erased op right.erased
  | _, .castExpression _ type operand => .castExpression none type.erased operand.erased
  | _, .classInstanceCreationExpression _ qualifier typeArgs type arguments anonymous =>
    .classInstanceCreationExpression none qualifier.erased (typeArgs.map Ty.erased) type.erased
      arguments.erased anonymous.erased
  | _, .classLiteral _ type => .classLiteral none type.erased
  | _, .conditionalExpression _ condition yes no =>
    .conditionalExpression none condition.erased yes.erased no.erased
  | _, .fieldAccessExpression _ qualifier n =>
    .fieldAccessExpression none qualifier.erased n.erased
  | _, .infixExpression _ left op right => .infixExpression none left.erased op right.erased
  | _, .instanceofExpression _ operand type =>
    .instanceofExpression none operand.erased type.erased
  | _, .literal _ token nonempty => .literal none token nonempty
  | _, .methodInvocationExpression _ qualifier typeArgs n arguments =>
    .methodInvocationExpression none qualifier.erased (typeArgs.map Ty.erased) n.erased
      arguments.erased
  | _, .parenthesizedExpression _ inner => .parenthesizedExpression none inner.erased
  | _, .postfixExpression _ operand op => .postfixExpression none operand.erased op
  | _, .superReference _ qualifier => .superReference none (qualifier.map NamedType.erased)
  | _, .thisReference _ qualifier => .thisReference none (qualifier.map NamedType.erased)
  | _, .unaryExpression _ op operand => .unaryExpression none op operand.erased
  | _, .arrayInitializer _ elements => .arrayInitializer none elements.erased
  | _, .classBody _ ms => .classBody none ms.erased
  | _, .annotationElement _ n value => .annotationElement none n.erased value.erased
  | _, .annotationMarker _ type => .annotationMarker none type.erased
  | _, .annotationNormal _ type elements => .annotationNormal none type.erased elements.erased
  | _, .annotationSingleElement _ type value =>
    .annotationSingleElement none type.erased value.erased
  | _, .modifier m => .modifier m.erased
  | _, .annotated t => .annotated t.erased
  | _, .formalParameterDeclaration _ modifiers type variableArity n extra =>
    .formalParameterDeclaration none modifiers.erased type.erased variableArity n.erased extra
  | _, .variableDeclarator _ n extra value => .variableDeclarator none n.erased extra value.erased
  | _, .localVariableDeclaration _ modifiers type first rest =>
    .localVariableDeclaration none modifiers.erased type.erased first.erased rest.erased
  | _, .headerVariables t => .headerVariables t.erased
  | _, .headerExpressions t => .headerExpressions t.erased
  | _, .statementExpressionList _ first rest =>
    .statementExpressionList none first.erased rest.erased
  | _, .block _ statements => .block none statements.erased
  | _, .catchClause _ parameter inner => .catchClause none parameter.erased inner.erased
  | _, .alternateConstructorInvocation _ typeArgs arguments =>
    .alternateConstructorInvocation none (typeArgs.map Ty.erased) arguments.erased
  | _, .assertStatement _ condition message =>
    .assertStatement none condition.erased message.erased
  | _, .blockStatement t => .blockStatement t.erased
  | _, .breakStatement _ target => .breakStatement none (target.map SimpleName.erased)
  | _, .continueStatement _ target => .continueStatement none (target.map SimpleName.erased)
  | _, .doStatement _ loop condition => .doStatement none loop.erased condition.erased
  | _, .emptyStatement _ => .emptyStatement none
  | _, .enhancedForStatement _ parameter values loop =>
    .enhancedForStatement none parameter.erased values.erased loop.erased
  | _, .expressionStatement _ expression => .expressionStatement none expression.erased
  | _, .forStatement _ start condition update loop =>
    .forStatement none start.erased condition.erased update.erased loop.erased
  | _, .ifStatement _ condition yes no => .ifStatement none condition.erased yes.erased no.erased
  | _, .labeledStatement _ label statement =>
    .labeledStatement none label.erased statement.erased
  | _, .localClassDeclaration _ declaration => .localClassDeclaration none declaration.erased
  | _, .variablesStatement t => .variablesStatement t.erased
  | _, .returnStatement _ value => .returnStatement none value.erased
  | _, .superConstructorInvocation _ qualifier typeArgs arguments =>
    .superConstructorInvocation none qualifier.erased (typeArgs.map Ty.erased) arguments.erased
  | _, .switchCaseLabel _ value => .switchCaseLabel none value.erased
  | _, .switchDefaultLabel _ => .switchDefaultLabel none
  | _, .switchStatement _ value statements =>
    .switchStatement none value.erased statements.erased
  | _, .synchronizedStatement _ lock inner =>
    .synchronizedStatement none lock.erased inner.erased
  | _, .throwStatement _ value => .throwStatement none value.erased
  | _, .tryStatement _ inner catches last =>
    .tryStatement none inner.erased catches.erased last.erased
  | _, .whileStatement _ condition loop => .whileStatement none condition.erased loop.erased
  | _, .classDeclaration _ javadoc modifiers n parameters superClass interfaces ms =>
    .classDeclaration none (javadoc.map Javadoc.erased) modifiers.erased n.erased
      (parameters.map TypeParameter.erased) (superClass.map Ty.erased)
      (interfaces.map Ty.erased) ms.erased
  | _, .classType t => .classType t.erased
  | _, .interfaceDeclaration _ javadoc modifiers n parameters interfaces ms =>
    .interfaceDeclaration none (javadoc.map Javadoc.erased) modifiers.erased n.erased
      (parameters.map TypeParameter.erased) (interfaces.map Ty.erased) ms.erased
  | _, .enumDeclaration _ javadoc modifiers n interfaces constants ms =>
    .enumDeclaration none (javadoc.map Javadoc.erased) modifiers.erased n.erased
      (interfaces.map Ty.erased) constants.erased ms.erased
  | _, .annotationDeclaration _ javadoc modifiers n ms =>
    .annotationDeclaration none (javadoc.map Javadoc.erased) modifiers.erased n.erased ms.erased
  | _, .enumConstantDeclaration _ javadoc modifiers n arguments anonymous =>
    .enumConstantDeclaration none (javadoc.map Javadoc.erased) modifiers.erased n.erased
      arguments.erased anonymous.erased
  | _, .typeMember t => .typeMember t.erased
  | _, .fieldDeclaration _ javadoc modifiers type first rest =>
    .fieldDeclaration none (javadoc.map Javadoc.erased) modifiers.erased type.erased first.erased
      rest.erased
  | _, .methodDeclaration _ javadoc modifiers typeParams returnType n parameters extra exceptions
      inner =>
    .methodDeclaration none (javadoc.map Javadoc.erased) modifiers.erased
      (typeParams.map TypeParameter.erased) returnType.erased n.erased parameters.erased extra
      (exceptions.map Ty.erased) inner.erased
  | _, .constructorDeclaration _ javadoc modifiers typeParams n parameters exceptions inner =>
    .constructorDeclaration none (javadoc.map Javadoc.erased) modifiers.erased
      (typeParams.map TypeParameter.erased) n.erased parameters.erased
      (exceptions.map Ty.erased) inner.erased
  | _, .initializerDeclaration _ javadoc modifiers inner =>
    .initializerDeclaration none (javadoc.map Javadoc.erased) modifiers.erased inner.erased
  | _, .annotationElementDeclaration _ javadoc modifiers type n defaultValue =>
    .annotationElementDeclaration none (javadoc.map Javadoc.erased) modifiers.erased type.erased
      n.erased defaultValue.erased

end Tree

/-! ### Units and nodes -/

/-- The package declaration without handles. -/
def PackageDeclaration.erased (p : PackageDeclaration) : PackageDeclaration :=
  ⟨none, p.javadoc.map Javadoc.erased, p.annotations.map Tree.erased, p.name.erased⟩

/-- The import declaration without handles. -/
def ImportDeclaration.erased (i : ImportDeclaration) : ImportDeclaration :=
  ⟨none, i.kind, i.name.erased⟩

/-- The compilation unit without handles. -/
def CompilationUnit.erased (u : CompilationUnit) : CompilationUnit :=
  ⟨none, u.package.map PackageDeclaration.erased, u.imports.map ImportDeclaration.erased,
    u.types.map Tree.erased, u.comments.map Comment.erased⟩

/-- The node without handles. -/
def Node.erased : Node → Node
  | .name n => .name n.erased
  | .type t => .type t.erased
  | .docParameter p => .docParameter p.erased
  | .docElement e => .docElement e.erased
  | .comment c => .comment c.erased
  | .typeParameter p => .typeParameter p.erased
  | .package p => .package p.erased
  | .importing i => .importing i.erased
  | .unit u => .unit u.erased
  | .tree t => .tree t.erased

/-! ### Erasure of trees is erasure of outlines -/

namespace Outline

theorem erased_ofChoice {α : Type} [DecidableEq α] [Enumeration α] (a : α) :
    (ofChoice a).erased = ofChoice a := rfl

theorem ofOption_map_erased {α : Type} {f : α → Outline} {g : α → α}
    (h : ∀ a, f (g a) = (f a).erased) (a : Option α) :
    ofOption f (a.map g) = (ofOption f a).erased := by
  cases a with
  | none => rfl
  | some a => exact h a

theorem ofList_map_erased {α : Type} {f : α → Outline} {g : α → α} {as : List α}
    (h : ∀ a ∈ as, f (g a) = (f a).erased) : ofList f (as.map g) = (ofList f as).erased := by
  simpa [ofList, erased] using h

theorem elements_erased (o : Outline) : o.erased.elements = o.elements.map erased := by
  cases o <;> simp [erased, elements]

end Outline

open Outline (erased_ofChoice ofOption_map_erased ofList_map_erased elements_erased)

theorem SimpleName.outline_erased (n : SimpleName) : n.erased.outline = n.outline.erased := rfl

theorem Name.outline_erased (n : Name) : n.erased.outline = n.outline.erased := by
  induction n with
  | simple n => rfl
  | qualified h q n ih => simp [erased, outline, Outline.erased, SimpleName.outline_erased, ih]

theorem NamedType.outline_erased (t : NamedType) : t.erased.outline = t.outline.erased := by
  simp [erased, outline, Outline.erased, Name.outline_erased]

theorem Ty.outline_erased (t : Ty) : t.erased.outline = t.outline.erased := by
  induction t with
  | array h c ih => simp [erased, outline, Outline.erased, ih]
  | basic h k => rfl
  | named t => exact t.outline_erased
  | parameterized h b f r ihb ihf ihr =>
    have arguments : (r.map erased).map outline = (r.map outline).map Outline.erased := by
      simpa using ihr
    simp [erased, erasedEach_eq_map, outline, Outline.erased, ihb, ihf, arguments, -List.map_map]
  | qualified h q n ih => simp [erased, outline, Outline.erased, SimpleName.outline_erased, ih]
  | wildcard h d b ih =>
    cases b with
    | none => rfl
    | some b => simp [erased, outline, Outline.erased, ih b rfl, Outline.ofChoice]

theorem ArrayType.outline_erased (a : ArrayType) :
    a.erased.toTy.outline = a.toTy.outline.erased :=
  (Ty.array a.handle a.component).outline_erased

theorem DocParameter.outline_erased (p : DocParameter) : p.erased.outline = p.outline.erased := by
  simp [erased, outline, Outline.erased, Ty.outline_erased,
    ofOption_map_erased SimpleName.outline_erased]

theorem DocElement.outline_erased (e : DocElement) : e.erased.outline = e.outline.erased := by
  induction e with
  | block h tag es ih =>
    have elements : (es.map erased).map outline = (es.map outline).map Outline.erased := by
      simpa using ih
    simp [erased, erasedEach_eq_map, outline, outlineEach_eq_map, Outline.erased, elements,
      -List.map_map]
  | field h t n =>
    simp [erased, outline, Outline.erased, SimpleName.outline_erased,
      ofOption_map_erased Ty.outline_erased]
  | method h t n ps =>
    simp [erased, outline, Outline.erased, SimpleName.outline_erased,
      ofOption_map_erased Ty.outline_erased,
      ofList_map_erased fun p _ => DocParameter.outline_erased p]
  | text h s => rfl
  | name n => exact n.outline_erased
  | type t => exact t.outline_erased

theorem DocBlock.outline_erased (b : DocBlock) : b.erased.outline = b.outline.erased := by
  rw [outline, outline, ← DocElement.outline_erased]
  simp [erased, toElement, DocElement.erased, DocElement.erasedEach_eq_map]

theorem Javadoc.outline_erased (j : Javadoc) : j.erased.outline = j.outline.erased := by
  simp [erased, outline, Outline.erased, ofList_map_erased fun b _ => DocBlock.outline_erased b]

theorem Comment.outline_erased (c : Comment) : c.erased.outline = c.outline.erased := by
  cases c with
  | javadoc j => exact j.outline_erased
  | _ => rfl

theorem Modifier.outline_erased (m : Modifier) : m.erased.outline = m.outline.erased := rfl

theorem TypeParameter.outline_erased (p : TypeParameter) :
    p.erased.outline = p.outline.erased := by
  simp [erased, outline, Outline.erased, SimpleName.outline_erased,
    ofList_map_erased fun t _ => Ty.outline_erased t]

theorem Tree.outline_erased {c : Category} (t : Tree c) : t.erased.outline = t.outline.erased := by
  induction t with
  | nil => rfl
  | absent => rfl
  | cons t ts iht ihts =>
    refine congrArg Outline.list ?_
    simp [iht, ihts, elements_erased]
  | present t ih => exact ih
  | nameExpression n => exact n.outline_erased
  | modifier m => exact m.outline_erased
  | initializerExpression t ih => exact ih
  | annotated t ih => exact ih
  | headerVariables t ih => exact ih
  | headerExpressions t ih => exact ih
  | blockStatement t ih => exact ih
  | variablesStatement t ih => exact ih
  | classType t ih => exact ih
  | typeMember t ih => exact ih
  | _ =>
    -- A node: its own handle is gone on both sides, and the fields are erased one by one.
    refine congrArg (Outline.node _ none) ?_
    simp only [Outline.erasedEach_eq_map, List.map_cons, List.map_nil, Outline.erased,
      erased_ofChoice, elements_erased, SimpleName.outline_erased, NamedType.outline_erased,
      Ty.outline_erased, ArrayType.outline_erased, ofOption_map_erased SimpleName.outline_erased,
      ofOption_map_erased NamedType.outline_erased, ofOption_map_erased Ty.outline_erased,
      ofOption_map_erased Javadoc.outline_erased,
      ofList_map_erased fun t _ => Ty.outline_erased t,
      ofList_map_erased fun p _ => TypeParameter.outline_erased p, *]

theorem PackageDeclaration.outline_erased (p : PackageDeclaration) :
    p.erased.outline = p.outline.erased := by
  simp [erased, outline, Outline.erased, ofOption_map_erased Javadoc.outline_erased,
    ofList_map_erased fun t _ => Tree.outline_erased t, Name.outline_erased]

theorem ImportDeclaration.outline_erased (i : ImportDeclaration) :
    i.erased.outline = i.outline.erased := by
  simp [erased, outline, Outline.erased, erased_ofChoice, Name.outline_erased]

theorem CompilationUnit.outline_erased (u : CompilationUnit) :
    u.erased.outline = u.outline.erased := by
  simp [erased, outline, Outline.erased, ofOption_map_erased PackageDeclaration.outline_erased,
    ofList_map_erased fun i _ => ImportDeclaration.outline_erased i,
    ofList_map_erased fun t _ => Tree.outline_erased t,
    ofList_map_erased fun c _ => Comment.outline_erased c]

namespace Node

theorem outline_erased (n : Node) : n.erased.outline = n.outline.erased := by
  cases n with
  | name n => exact n.outline_erased
  | type t => exact t.outline_erased
  | docParameter p => exact p.outline_erased
  | docElement e => exact e.outline_erased
  | comment c => exact c.outline_erased
  | typeParameter p => exact p.outline_erased
  | package p => exact p.outline_erased
  | importing i => exact i.outline_erased
  | unit u => exact u.outline_erased
  | tree t => exact t.outline_erased

/-- Two nodes of one static type. A node seen as a member of a larger category is of another type
than the node itself. -/
inductive SameType : Node → Node → Prop where
  | name (m n : Name) : SameType (.name m) (.name n)
  | type (t u : Ty) : SameType (.type t) (.type u)
  | docParameter (p q : DocParameter) : SameType (.docParameter p) (.docParameter q)
  | docElement (e f : DocElement) : SameType (.docElement e) (.docElement f)
  | comment (c d : Comment) : SameType (.comment c) (.comment d)
  | typeParameter (p q : TypeParameter) : SameType (.typeParameter p) (.typeParameter q)
  | package (p q : PackageDeclaration) : SameType (.package p) (.package q)
  | importing (i j : ImportDeclaration) : SameType (.importing i) (.importing j)
  | unit (u v : CompilationUnit) : SameType (.unit u) (.unit v)
  | tree {c : Category} (t u : Tree c) : SameType (.tree t) (.tree u)

theorem SameType.erased {l r : Node} (type : SameType l r) : SameType l.erased r.erased := by
  cases type <;> constructor

/-- The outline of a node determines the node. -/
theorem eq_of_outline_eq {l r : Node} {k : Kind} (type : SameType l r) (kind : l.kind? = some k)
    (h : l.outline = r.outline) : l = r := by
  cases type with
  | name m n => rw [Name.outline_inj.mp h]
  | type t u => rw [Ty.outline_inj.mp h]
  | docParameter p q => rw [DocParameter.outline_inj.mp h]
  | docElement e f => rw [DocElement.outline_inj.mp h]
  | comment c d => rw [Comment.outline_inj.mp h]
  | typeParameter p q => rw [TypeParameter.outline_inj.mp h]
  | package p q => rw [PackageDeclaration.outline_inj.mp h]
  | importing i j => rw [ImportDeclaration.outline_inj.mp h]
  | unit u v => rw [CompilationUnit.outline_inj.mp h]
  | tree t u => rw [Tree.eq_of_outline_eq_node kind h]

theorem kind?_erased (n : Node) : n.erased.kind? = n.kind? := by
  rw [kind?, kind?, outline_erased]
  cases n.outline <;> rfl

/-- **Nodes of one static type are equal without handles exactly if their outlines are.** -/
theorem erased_eq_iff {l r : Node} {k : Kind} (type : SameType l r) (kind : l.kind? = some k) :
    l.erased = r.erased ↔ l.outline.erased = r.outline.erased := by
  have kind' : l.erased.kind? = some k := by rw [kind?_erased, kind]
  rw [← outline_erased, ← outline_erased]
  exact ⟨congrArg outline, eq_of_outline_eq type.erased kind'⟩

end Node

end JavaSource
