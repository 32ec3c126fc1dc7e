import JavaSource.Node
import Mathlib.Data.List.Forall2

/-!
# Trees follow the schema

Static types say what can stand where in a tree, and `Kind.fields` says the same of outlines. The
two agree: the outline of every tree is what is expected in its place (`Tree.conforms_outline`), so
a function of outlines that is guided by `Kind.fields` never meets a node that is out of place.
-/

namespace JavaSource

/-- Whether nodes of a kind may stand in a place. -/
def Position.admits (p : Position) (k : Kind) : Bool :=
  p.kinds.contains k || p.inner.any fun q => q.kinds.contains k

theorem Position.eq_of_admits_only {k k' : Kind} (h : (only k).admits k' = true) : k' = k := by
  simpa [admits, kinds, inner] using h

/-- A place admits what the smaller places in it admit; these have no smaller places in turn. -/
theorem Position.admits_of_mem_inner {p q : Position} {k : Kind} (inside : p ∈ q.inner)
    (h : p.admits k = true) : q.admits k = true := by
  -- The smaller places are listed, so it is enough to look at each of them.
  have innermost : p.inner = [] := by
    cases q <;> simp [inner] at inside
    case docElement => rcases inside with rfl | rfl <;> rfl
    all_goals exact inside ▸ rfl
  have listed : p.kinds.contains k = true := by simpa [admits, innermost] using h
  rw [admits, Bool.or_eq_true, List.any_eq_true]
  exact .inr ⟨p, inside, listed⟩

namespace Outline

/-- The outline is what the slot expects, down to the last field. -/
inductive Conforms : Slot → Outline → Prop where
  | one {p : Position} {k : Kind} {h : Handle} {fs : List Outline} (admitted : p.admits k = true)
      (fields : List.Forall₂ Conforms k.slots fs) : Conforms (.one p) (.node k h fs)
  | absent {p : Position} : Conforms (.optional p) .absent
  | present {p : Position} {k : Kind} {h : Handle} {fs : List Outline}
      (admitted : p.admits k = true) (fields : List.Forall₂ Conforms k.slots fs) :
      Conforms (.optional p) (.node k h fs)
  | many {p : Position} {os : List Outline} (each : ∀ o ∈ os, Conforms (.one p) o) :
      Conforms (.many p) (.list os)
  | text {s : String} : Conforms .text (.text s)
  | flag {b : Bool} : Conforms .flag (.flag b)
  | number {n : Nat} : Conforms .number (.count n)
  | choice {i : Nat} {s : String} : Conforms .choice (.choice i s)

namespace Conforms

variable {p q : Position} {o os : Outline}

/-- What is expected in a smaller place is expected in the larger one. -/
theorem inner (inside : p ∈ q.inner) (h : Conforms (.one p) o) : Conforms (.one q) o := by
  cases h with
  | one admitted fields => exact .one (Position.admits_of_mem_inner inside admitted) fields

/-- A node of one kind conforms to every place that admits the kind. -/
theorem only {k : Kind} (admitted : q.admits k = true) (h : Conforms (.one (.only k)) o) :
    Conforms (.one q) o := by
  cases h with
  | one alone fields =>
    obtain rfl := Position.eq_of_admits_only alone
    exact .one admitted fields

theorem exists_eq_node (h : Conforms (.one p) o) : ∃ k handle fs, o = .node k handle fs := by
  cases h with
  | @one _ k handle fs _ _ => exact ⟨k, handle, fs, rfl⟩

/-- A node that has to be there conforms where it might have been missing. -/
theorem optional (there : Conforms (.one p) o) : Conforms (.optional p) o := by
  cases there with
  | one admitted fields => exact .present admitted fields

/-- A node in front of a list. -/
theorem cons (head : Conforms (.one p) o) (tail : Conforms (.many p) os) :
    Conforms (.many p) (.list (o :: os.elements)) := by
  cases tail with
  | many each => exact .many (List.forall_mem_cons.mpr ⟨head, each⟩)

theorem nil : Conforms (.many p) (.list []) :=
  .many (by simp)

theorem ofChoice {α : Type} [DecidableEq α] [Enumeration α] (a : α) :
    Conforms .choice (.ofChoice a) :=
  .choice

theorem ofOption {α : Type} {f : α → Outline} (h : ∀ a, Conforms (.one p) (f a)) (a : Option α) :
    Conforms (.optional p) (.ofOption f a) := by
  cases a with
  | none => exact .absent
  | some a => exact (h a).optional

theorem ofList {α : Type} {f : α → Outline} (as : List α) (h : ∀ a ∈ as, Conforms (.one p) (f a)) :
    Conforms (.many p) (.ofList f as) :=
  .many (List.forall_mem_map.mpr h)

end Conforms

end Outline

open Outline (Conforms)

/-! ### Names, types and documentation -/

theorem SimpleName.conforms_outline (n : SimpleName) :
    Conforms (.one (.only .simpleName)) n.outline :=
  .one rfl (.cons .text .nil)

theorem Name.conforms_outline (n : Name) : Conforms (.one .name) n.outline := by
  induction n with
  | simple n => exact .one rfl (.cons .text .nil)
  | qualified h q n ih => exact .one rfl (.cons ih (.cons n.conforms_outline .nil))

theorem NamedType.conforms_outline (t : NamedType) : Conforms (.one (.only .namedType)) t.outline :=
  .one rfl (.cons t.name.conforms_outline .nil)

theorem Ty.conforms_outline (t : Ty) : Conforms (.one .type) t.outline := by
  induction t with
  | array h c ih => exact .one rfl (.cons ih .nil)
  | basic h k => exact .one rfl (.cons (.ofChoice k) .nil)
  | named t => exact .one rfl (.cons t.name.conforms_outline .nil)
  | parameterized h b f r ihb ihf ihr =>
    have arguments : Conforms (.many .type) (.list (f.outline :: r.map outline)) :=
      .many (List.forall_mem_cons.mpr ⟨ihf, List.forall_mem_map.mpr ihr⟩)
    rw [outline, outlineEach_eq_map]
    exact .one rfl (.cons ihb (.cons arguments .nil))
  | qualified h q n ih => exact .one rfl (.cons ih (.cons n.conforms_outline .nil))
  | wildcard h d b ih =>
    cases b with
    | none => exact .one rfl (.cons (.ofChoice d) (.cons .absent .nil))
    | some b => exact .one rfl (.cons (.ofChoice d) (.cons (ih b rfl).optional .nil))

theorem ArrayType.conforms_outline (a : ArrayType) :
    Conforms (.one (.only .arrayType)) a.toTy.outline :=
  .one rfl (.cons a.component.conforms_outline .nil)

theorem DocParameter.conforms_outline (p : DocParameter) :
    Conforms (.one (.only .docMethodParameter)) p.outline :=
  .one rfl (.cons p.type.conforms_outline (.cons (.ofOption SimpleName.conforms_outline p.name)
    (.cons .flag .nil)))

theorem DocElement.conforms_outline (e : DocElement) : Conforms (.one .docElement) e.outline := by
  induction e with
  | block h tag es ih =>
    have elements : Conforms (.many .docElement) (.list (outlineEach es)) := by
      rw [outlineEach_eq_map]
      exact .ofList es ih
    exact .one rfl (.cons .text (.cons elements .nil))
  | field h t n =>
    exact .one rfl (.cons (.ofOption Ty.conforms_outline t) (.cons n.conforms_outline .nil))
  | method h t n ps =>
    exact .one rfl (.cons (.ofOption Ty.conforms_outline t) (.cons n.conforms_outline
      (.cons (.ofList ps fun p _ => p.conforms_outline) .nil)))
  | text h s => exact .one rfl (.cons .text .nil)
  | name n => exact n.conforms_outline.inner (by decide)
  | type t => exact t.conforms_outline.inner (by decide)

theorem DocBlock.conforms_outline (b : DocBlock) : Conforms (.one (.only .docBlock)) b.outline := by
  have elements : Conforms (.many .docElement) (.list (DocElement.outlineEach b.elements)) := by
    rw [DocElement.outlineEach_eq_map]
    exact .ofList b.elements fun e _ => e.conforms_outline
  exact .one rfl (.cons .text (.cons elements .nil))

theorem Javadoc.conforms_outline (j : Javadoc) : Conforms (.one (.only .javadoc)) j.outline :=
  .one rfl (.cons (.ofList j.blocks fun b _ => b.conforms_outline) .nil)

theorem Comment.conforms_outline (c : Comment) : Conforms (.one .comment) c.outline := by
  cases c with
  | block h s => exact .one rfl (.cons .text .nil)
  | line h s => exact .one rfl (.cons .text .nil)
  | javadoc j => exact j.conforms_outline.only rfl

/-! ### Code -/

theorem Modifier.conforms_outline (m : Modifier) : Conforms (.one .attribute) m.outline :=
  .one rfl (.cons (.ofChoice m.kind) .nil)

theorem TypeParameter.conforms_outline (p : TypeParameter) :
    Conforms (.one (.only .typeParameterDeclaration)) p.outline :=
  .one rfl (.cons p.name.conforms_outline
    (.cons (.ofList p.bounds fun t _ => t.conforms_outline) .nil))

namespace Category

/-- Where the trees of a category, or the members of a category of lists, stand. -/
def position : Category → Position
  | .expression => .expression
  | .arrayInitializer => .only .arrayInitializer
  | .classBody => .only .classBody
  | .annotationElement => .only .annotationElement
  | .annotationUse => .annotationUse
  | .attribute => .attribute
  | .formalParameter => .only .formalParameterDeclaration
  | .variableDeclarator => .only .variableDeclarator
  | .block => .only .block
  | .statement => .statement
  | .catchClause => .only .catchClause
  | .expressionList => .only .statementExpressionList
  | .localVariables => .only .localVariableDeclaration
  | .forInitializer => .forInitializer
  | .classDeclaration => .only .classDeclaration
  | .typeDeclaration => .typeDeclaration
  | .enumConstant => .only .enumConstantDeclaration
  | .member => .member
  | .listOf c | .optional c => c.position

/-- Whether the trees of a category are nodes. -/
def isSingle : Category → Bool
  | .listOf _ | .optional _ => false
  | _ => true

/-- Whether a category is one of nodes, of lists of nodes, or of nodes that may be missing: all that
trees consist of. -/
def isFlat : Category → Bool
  | .listOf c | .optional c => c.isSingle
  | _ => true

/-- The slot that is filled by the trees of a category. -/
def slot : Category → Slot
  | .listOf c => .many c.position
  | .optional c => .optional c.position
  | c => .one c.position

theorem slot_of_isSingle {c : Category} (h : c.isSingle = true) : c.slot = .one c.position := by
  cases c <;> first | rfl | cases h

theorem isFlat_of_isSingle {c : Category} (h : c.isSingle = true) : c.isFlat = true := by
  cases c <;> first | rfl | cases h

end Category

/-- **The outline of a tree conforms to the slot of its category.** -/
theorem Tree.conforms_outline {c : Category} (t : Tree c) (flat : c.isFlat = true) :
    Conforms c.slot t.outline := by
  induction t with
  | nil => exact .nil
  | cons _ _ iht ihts =>
    have head := iht (Category.isFlat_of_isSingle flat)
    rw [Category.slot_of_isSingle flat] at head
    exact head.cons (ihts flat)
  | absent => exact .absent
  | present _ ih =>
    have there := ih (Category.isFlat_of_isSingle flat)
    rw [Category.slot_of_isSingle flat] at there
    exact there.optional
  | nameExpression n => exact n.conforms_outline.inner (by decide)
  | initializerExpression _ ih => exact (ih rfl).only rfl
  | annotated _ ih => exact (ih rfl).inner (by decide)
  | headerVariables _ ih => exact (ih rfl).only rfl
  | headerExpressions _ ih => exact (ih rfl).only rfl
  | blockStatement _ ih => exact (ih rfl).only rfl
  | variablesStatement _ ih => exact (ih rfl).only rfl
  | classType _ ih => exact (ih rfl).only rfl
  | typeMember _ ih => exact (ih rfl).inner (by decide)
  | modifier m => exact m.conforms_outline
  | _ =>
    -- The other constructors build a node: each field conforms to its slot.
    refine .one rfl ?_
    simp_all [Category.isFlat, Category.isSingle, Category.slot, Category.position, Kind.slots,
      Kind.fields, Conforms.ofOption, Conforms.ofList, Conforms.cons, Conforms.ofChoice,
      Conforms.text, Conforms.flag, Conforms.number, SimpleName.conforms_outline,
      NamedType.conforms_outline, Ty.conforms_outline, ArrayType.conforms_outline,
      Javadoc.conforms_outline, TypeParameter.conforms_outline]

/-- A tree whose outline is a node conforms to some place. -/
theorem Tree.exists_conforms_outline {c : Category} (t : Tree c) {k : Kind}
    (kind : t.outline.kind? = some k) : ∃ p, Conforms (.one p) t.outline := by
  induction c with
  | listOf c => cases t <;> cases kind
  | optional c ih =>
    cases t with
    | absent => cases kind
    | present t => exact ih t kind
  | _ => exact ⟨_, t.conforms_outline rfl⟩

/-! ### Units -/

theorem PackageDeclaration.conforms_outline (p : PackageDeclaration) :
    Conforms (.one (.only .packageDeclaration)) p.outline :=
  .one rfl (.cons (.ofOption Javadoc.conforms_outline p.javadoc)
    (.cons (.ofList p.annotations fun t _ => t.conforms_outline rfl)
      (.cons p.name.conforms_outline .nil)))

theorem ImportDeclaration.conforms_outline (i : ImportDeclaration) :
    Conforms (.one (.only .importDeclaration)) i.outline :=
  .one rfl (.cons (.ofChoice i.kind) (.cons i.name.conforms_outline .nil))

theorem CompilationUnit.conforms_outline (u : CompilationUnit) :
    Conforms (.one (.only .compilationUnit)) u.outline :=
  .one rfl (.cons (.ofOption PackageDeclaration.conforms_outline u.package)
    (.cons (.ofList u.imports fun i _ => i.conforms_outline)
      (.cons (.ofList u.types fun t _ => t.conforms_outline rfl)
        (.cons (.ofList u.comments fun c _ => c.conforms_outline) .nil))))

/-- The outline of every node conforms to some place. -/
theorem Node.exists_conforms_outline {n : Node} {k : Kind} (kind : n.kind? = some k) :
    ∃ p, Conforms (.one p) n.outline := by
  cases n with
  | name n => exact ⟨_, n.conforms_outline⟩
  | type t => exact ⟨_, t.conforms_outline⟩
  | docParameter p => exact ⟨_, p.conforms_outline⟩
  | docElement e => exact ⟨_, e.conforms_outline⟩
  | comment c => exact ⟨_, c.conforms_outline⟩
  | typeParameter p => exact ⟨_, p.conforms_outline⟩
  | package p => exact ⟨_, p.conforms_outline⟩
  | importing i => exact ⟨_, i.conforms_outline⟩
  | unit u => exact ⟨_, u.conforms_outline⟩
  | tree t => exact t.exists_conforms_outline kind

end JavaSource
