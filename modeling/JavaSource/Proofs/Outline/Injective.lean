import JavaSource.Proofs.Outline.Schema

/-!
# Outlines determine trees

The outline of a tree forgets its static types only: two trees of one type with the same outline are
equal (`Tree.outline_inj`). So whatever is said about outlines is said about all fields of the
trees.

Trees in different arms of a category have outlines of different kinds. For the arms that are
categories of their own this follows from the schema, `Outline.Conforms.ne`.
-/

namespace JavaSource

namespace Outline

/-- What conforms to a place is no node of a kind that the place does not admit. -/
theorem Conforms.ne {p : Position} {o o' : Outline} {k : Kind} (fit : Conforms (.one p) o)
    (kind : o'.kind? = some k) (refused : p.admits k = false) : o ≠ o' := by
  rintro rfl
  cases fit with
  | one admitted _ =>
    rw [Option.some.inj kind, refused] at admitted
    cases admitted

theorem ofChoice_inj {α : Type} [DecidableEq α] [Enumeration α] {a b : α} :
    ofChoice a = ofChoice b ↔ a = b := by
  constructor
  · intro h
    exact Enumeration.index_inj.mp (choice.inj h).1
  · exact congrArg ofChoice

/-- Lists are equal if they have equal images and the function tells their members apart. -/
theorem eq_of_map_eq_map {α β : Type} {f : α → β} {as bs : List α}
    (inj : ∀ a ∈ as, ∀ b, f a = f b → a = b) (h : as.map f = bs.map f) : as = bs := by
  induction as generalizing bs with
  | nil => exact (List.map_eq_nil_iff.mp h.symm).symm
  | cons a as ih =>
    cases bs with
    | nil => cases h
    | cons b bs =>
      obtain ⟨head, tail⟩ := List.cons.inj h
      rw [inj a List.mem_cons_self b head,
        ih (fun c hc => inj c (List.mem_cons_of_mem a hc)) tail]

variable {α : Type} {f : α → Outline}

theorem ofList_inj (inj : ∀ {a b}, f a = f b ↔ a = b) {as bs : List α} :
    ofList f as = ofList f bs ↔ as = bs := by
  constructor
  · intro h
    exact eq_of_map_eq_map (fun _ _ _ => inj.mp) (list.inj h)
  · exact congrArg (ofList f)

/-- What may be missing is equal if the outlines are: what is there has the outline of a node. -/
theorem eq_of_ofOption_eq {p : Position} (there : ∀ a, Conforms (.one p) (f a)) {a b : Option α}
    (inj : ∀ c, a = some c → ∀ d, f c = f d → c = d) (h : ofOption f a = ofOption f b) :
    a = b := by
  have never (a : α) : f a ≠ .absent := by
    obtain ⟨k, g, fs, node⟩ := (there a).exists_eq_node
    simp [node]
  cases a with
  | none =>
    cases b with
    | none => rfl
    | some d => exact absurd h.symm (never d)
  | some c =>
    cases b with
    | none => exact absurd h (never c)
    | some d => rw [inj c rfl d h]

theorem ofOption_inj {p : Position} (there : ∀ a, Conforms (.one p) (f a))
    (inj : ∀ {a b}, f a = f b ↔ a = b) {a b : Option α} :
    ofOption f a = ofOption f b ↔ a = b :=
  ⟨eq_of_ofOption_eq there fun _ _ _ => inj.mp, congrArg (ofOption f)⟩

end Outline

open Outline (Conforms ofChoice_inj ofList_inj ofOption_inj eq_of_map_eq_map eq_of_ofOption_eq)

/-! ### Names, types and documentation -/

theorem SimpleName.outline_inj {m n : SimpleName} : m.outline = n.outline ↔ m = n := by
  cases m
  cases n
  simp [outline]

theorem Name.outline_inj {m n : Name} : m.outline = n.outline ↔ m = n := by
  refine ⟨fun h => ?_, congrArg outline⟩
  induction m generalizing n with
  | simple a =>
    cases n with
    | simple b => rw [SimpleName.outline_inj.mp h]
    | qualified => cases congrArg Outline.kind? h
  | qualified g q a ih =>
    cases n with
    | simple => cases congrArg Outline.kind? h
    | qualified g' q' b =>
      simp only [outline, Outline.node.injEq, List.cons.injEq, SimpleName.outline_inj] at h
      obtain ⟨-, rfl, hq, rfl, -⟩ := h
      rw [ih hq]

theorem NamedType.outline_inj {t u : NamedType} : t.outline = u.outline ↔ t = u := by
  cases t
  cases u
  simp [outline, Name.outline_inj]

namespace Ty

theorem kind?_outline (t : Ty) : t.outline.kind? = some t.kind := by
  cases t with
  | wildcard h d b => cases b <;> rfl
  | _ => rfl

theorem outline_wildcard (h : Handle) (d : WildcardBoundKind) (b : Option Ty) :
    (wildcard h d b).outline = .node .wildcard h [.ofChoice d, .ofOption outline b] := by
  cases b <;> rfl

theorem kind_eq_of_outline_eq {t u : Ty} (h : t.outline = u.outline) : t.kind = u.kind := by
  have kinds := congrArg Outline.kind? h
  rwa [kind?_outline, kind?_outline, Option.some.injEq] at kinds

theorem outline_inj {t u : Ty} : t.outline = u.outline ↔ t = u := by
  refine ⟨fun h => ?_, congrArg outline⟩
  induction t generalizing u with
  | array g c ih =>
    cases u <;> cases kind_eq_of_outline_eq h
    simp only [outline, Outline.node.injEq, List.cons.injEq] at h
    obtain ⟨-, rfl, hc, -⟩ := h
    rw [ih hc]
  | basic g k =>
    cases u <;> cases kind_eq_of_outline_eq h
    simp only [outline, Outline.node.injEq, List.cons.injEq, ofChoice_inj] at h
    obtain ⟨-, rfl, rfl, -⟩ := h
    rfl
  | named t =>
    cases u <;> cases kind_eq_of_outline_eq h
    rw [NamedType.outline_inj.mp h]
  | parameterized g b f r ihb ihf ihr =>
    cases u <;> cases kind_eq_of_outline_eq h
    simp only [outline, outlineEach_eq_map, Outline.node.injEq, List.cons.injEq,
      Outline.list.injEq] at h
    obtain ⟨-, rfl, hb, ⟨hf, hr⟩, -⟩ := h
    rw [ihb hb, ihf hf, eq_of_map_eq_map (fun t ht u => ihr t ht) hr]
  | qualified g q n ih =>
    cases u <;> cases kind_eq_of_outline_eq h
    simp only [outline, Outline.node.injEq, List.cons.injEq, SimpleName.outline_inj] at h
    obtain ⟨-, rfl, hq, rfl, -⟩ := h
    rw [ih hq]
  | wildcard g d b ih =>
    cases u <;> cases kind_eq_of_outline_eq h
    simp only [outline_wildcard, Outline.node.injEq, List.cons.injEq, ofChoice_inj] at h
    obtain ⟨-, rfl, rfl, hb, -⟩ := h
    rw [eq_of_ofOption_eq conforms_outline (fun t ht u => ih t ht) hb]

end Ty

theorem ArrayType.toTy_inj {a b : ArrayType} : a.toTy = b.toTy ↔ a = b := by
  cases a
  cases b
  simp [toTy]

theorem DocParameter.outline_inj {p q : DocParameter} : p.outline = q.outline ↔ p = q := by
  cases p
  cases q
  simp [outline, Ty.outline_inj, ofOption_inj SimpleName.conforms_outline SimpleName.outline_inj]

theorem Name.outline_ne_type (n : Name) (t : Ty) : n.outline ≠ t.outline := by
  cases n with
  | simple n => exact (t.conforms_outline.ne rfl rfl).symm
  | qualified h q n => exact (t.conforms_outline.ne rfl rfl).symm

theorem DocElement.outline_inj {e f : DocElement} : e.outline = f.outline ↔ e = f := by
  refine ⟨fun h => ?_, congrArg outline⟩
  induction e generalizing f with
  | block g tag es ih =>
    cases f with
    | block g' tag' es' =>
      simp only [outline, outlineEach_eq_map, Outline.node.injEq, List.cons.injEq,
        Outline.text.injEq, Outline.list.injEq] at h
      obtain ⟨-, rfl, rfl, hes, -⟩ := h
      rw [eq_of_map_eq_map (fun e he f => ih e he) hes]
    | name n => exact absurd h.symm (n.conforms_outline.ne rfl rfl)
    | type t => exact absurd h.symm (t.conforms_outline.ne rfl rfl)
    | _ => cases congrArg Outline.kind? h
  | field g t n =>
    cases f with
    | field g' t' n' =>
      simp only [outline, Outline.node.injEq, List.cons.injEq, SimpleName.outline_inj,
        ofOption_inj Ty.conforms_outline Ty.outline_inj] at h
      obtain ⟨-, rfl, rfl, rfl, -⟩ := h
      rfl
    | name n => exact absurd h.symm (n.conforms_outline.ne rfl rfl)
    | type t => exact absurd h.symm (t.conforms_outline.ne rfl rfl)
    | _ => cases congrArg Outline.kind? h
  | method g t n ps =>
    cases f with
    | method g' t' n' ps' =>
      simp only [outline, Outline.node.injEq, List.cons.injEq, SimpleName.outline_inj,
        ofOption_inj Ty.conforms_outline Ty.outline_inj, ofList_inj DocParameter.outline_inj] at h
      obtain ⟨-, rfl, rfl, rfl, rfl, -⟩ := h
      rfl
    | name n => exact absurd h.symm (n.conforms_outline.ne rfl rfl)
    | type t => exact absurd h.symm (t.conforms_outline.ne rfl rfl)
    | _ => cases congrArg Outline.kind? h
  | text g s =>
    cases f with
    | text g' s' =>
      simp only [outline, Outline.node.injEq, List.cons.injEq, Outline.text.injEq] at h
      obtain ⟨-, rfl, rfl, -⟩ := h
      rfl
    | name n => exact absurd h.symm (n.conforms_outline.ne rfl rfl)
    | type t => exact absurd h.symm (t.conforms_outline.ne rfl rfl)
    | _ => cases congrArg Outline.kind? h
  | name n =>
    cases f with
    | name n' => rw [Name.outline_inj.mp h]
    | type t => exact absurd h (n.outline_ne_type t)
    | _ => exact absurd h (n.conforms_outline.ne rfl rfl)
  | type t =>
    cases f with
    | type t' => rw [Ty.outline_inj.mp h]
    | name n => exact absurd h.symm (n.outline_ne_type t)
    | _ => exact absurd h (t.conforms_outline.ne rfl rfl)

theorem DocBlock.outline_inj {a b : DocBlock} : a.outline = b.outline ↔ a = b := by
  cases a
  cases b
  simp [outline, toElement, DocElement.outline_inj]

theorem Javadoc.outline_inj {i j : Javadoc} : i.outline = j.outline ↔ i = j := by
  cases i
  cases j
  simp [outline, ofList_inj DocBlock.outline_inj]

theorem Comment.outline_inj {a b : Comment} : a.outline = b.outline ↔ a = b := by
  cases a with
  | javadoc i =>
    cases b with
    | javadoc j => simp [outline, Javadoc.outline_inj]
    | _ => simp [outline, Javadoc.outline]
  | _ => cases b <;> simp [outline, Javadoc.outline]

/-! ### Code -/

theorem Modifier.outline_inj {m n : Modifier} : m.outline = n.outline ↔ m = n := by
  cases m
  cases n
  simp [outline, ofChoice_inj]

theorem TypeParameter.outline_inj {p q : TypeParameter} : p.outline = q.outline ↔ p = q := by
  cases p
  cases q
  simp [outline, SimpleName.outline_inj, ofList_inj Ty.outline_inj]

namespace Tree

variable {c : Category}

/-- The outline of a list is made of the outlines of its members. -/
theorem outline_listOf (t : Tree (.listOf c)) : t.outline = .list t.outline.elements := by
  cases t <;> rfl

theorem elements_inj {t u : Tree (.listOf c)} :
    t.outline.elements = u.outline.elements ↔ t.outline = u.outline := by
  constructor
  · intro h
    rw [outline_listOf t, outline_listOf u, h]
  · exact congrArg Outline.elements

/-- A tree that is there has the outline of a node. -/
theorem outline_ne_absent (t : Tree c) (single : c.isSingle = true) : t.outline ≠ .absent := by
  have fit := t.conforms_outline (Category.isFlat_of_isSingle single)
  rw [Category.slot_of_isSingle single] at fit
  obtain ⟨k, h, fs, node⟩ := fit.exists_eq_node
  simp [node]

/-- Expressions with one outline are built by one constructor. -/
theorem ctorIdx_eq_of_expression {t u : Tree .expression} (h : t.outline = u.outline) :
    t.ctorIdx = u.ctorIdx := by
  cases t with
  | nameExpression n =>
    cases u with
    | nameExpression m => rfl
    | initializerExpression u =>
      cases u
      exact absurd h (n.conforms_outline.ne rfl rfl)
    | _ => exact absurd h (n.conforms_outline.ne rfl rfl)
  | initializerExpression t =>
    cases u with
    | nameExpression n =>
      cases t
      exact absurd h.symm (n.conforms_outline.ne rfl rfl)
    | initializerExpression u => rfl
    | _ => exact absurd h ((t.conforms_outline rfl).ne rfl rfl)
  | _ =>
    cases u with
    | nameExpression n => exact absurd h.symm (n.conforms_outline.ne rfl rfl)
    | initializerExpression u => exact absurd h.symm ((u.conforms_outline rfl).ne rfl rfl)
    -- Two nodes: the constructor is the same, or the kinds are different.
    | _ => first | rfl | cases congrArg Outline.kind? h

/-- Statements with one outline are built by one constructor. -/
theorem ctorIdx_eq_of_statement {t u : Tree .statement} (h : t.outline = u.outline) :
    t.ctorIdx = u.ctorIdx := by
  cases t with
  | blockStatement t =>
    cases u with
    | blockStatement u => rfl
    | variablesStatement u =>
      cases u
      exact absurd h ((t.conforms_outline rfl).ne rfl rfl)
    | _ => exact absurd h ((t.conforms_outline rfl).ne rfl rfl)
  | variablesStatement t =>
    cases u with
    | blockStatement u =>
      cases u
      exact absurd h ((t.conforms_outline rfl).ne rfl rfl)
    | variablesStatement u => rfl
    | _ => exact absurd h ((t.conforms_outline rfl).ne rfl rfl)
  | _ =>
    cases u with
    | blockStatement u => exact absurd h.symm ((u.conforms_outline rfl).ne rfl rfl)
    | variablesStatement u => exact absurd h.symm ((u.conforms_outline rfl).ne rfl rfl)
    -- Two nodes, as above.
    | _ => first | rfl | cases congrArg Outline.kind? h

/-- Trees with one outline are built by one constructor. -/
theorem ctorIdx_eq_of_outline_eq (flat : c.isFlat = true) {t u : Tree c}
    (h : t.outline = u.outline) : t.ctorIdx = u.ctorIdx := by
  cases c with
  | expression => exact ctorIdx_eq_of_expression h
  | statement => exact ctorIdx_eq_of_statement h
  | listOf c =>
    cases t <;> cases u
    case nil.nil => rfl
    case cons.cons => rfl
    all_goals cases h
  | optional c =>
    cases t with
    | absent =>
      cases u with
      | absent => rfl
      | present u => exact absurd h.symm (u.outline_ne_absent flat)
    | present t =>
      cases u with
      | absent => exact absurd h (t.outline_ne_absent flat)
      | present u => rfl
  | «attribute» =>
    cases t with
    | modifier m =>
      cases u with
      | modifier n => rfl
      | annotated u => exact absurd h.symm ((u.conforms_outline rfl).ne rfl rfl)
    | annotated t =>
      cases u with
      | modifier n => exact absurd h ((t.conforms_outline rfl).ne rfl rfl)
      | annotated u => rfl
  | forInitializer =>
    cases t with
    | headerVariables t =>
      cases u with
      | headerVariables u => rfl
      | headerExpressions u =>
        cases u
        exact absurd h ((t.conforms_outline rfl).ne rfl rfl)
    | headerExpressions t =>
      cases u with
      | headerVariables u =>
        cases u
        exact absurd h ((t.conforms_outline rfl).ne rfl rfl)
      | headerExpressions u => rfl
  | typeDeclaration =>
    cases t with
    | classType t =>
      cases u with
      | classType u => rfl
      | _ => exact absurd h ((t.conforms_outline rfl).ne rfl rfl)
    | _ =>
      cases u with
      | classType u => exact absurd h.symm ((u.conforms_outline rfl).ne rfl rfl)
      | _ => first | rfl | cases congrArg Outline.kind? h
  | member =>
    cases t with
    | typeMember t =>
      cases u with
      | typeMember u => rfl
      | _ => exact absurd h ((t.conforms_outline rfl).ne rfl rfl)
    | _ =>
      cases u with
      | typeMember u => exact absurd h.symm ((u.conforms_outline rfl).ne rfl rfl)
      | _ => first | rfl | cases congrArg Outline.kind? h
  | annotationUse =>
    cases t <;> cases u <;> first | rfl | cases congrArg Outline.kind? h
  | _ =>
    cases t
    cases u
    rfl

/-- **The outline of a tree determines the tree.** -/
theorem outline_inj (flat : c.isFlat = true) {t u : Tree c} : t.outline = u.outline ↔ t = u := by
  induction t with
  | nil =>
    refine ⟨fun h => ?_, congrArg outline⟩
    cases u <;> cases ctorIdx_eq_of_outline_eq flat h
    rfl
  | cons t ts iht ihts =>
    refine ⟨fun h => ?_, congrArg outline⟩
    cases u <;> cases ctorIdx_eq_of_outline_eq flat h
    obtain ⟨head, tail⟩ := List.cons.inj (Outline.list.inj h)
    rw [(iht (Category.isFlat_of_isSingle flat)).mp head, (ihts flat).mp (elements_inj.mp tail)]
  | absent =>
    refine ⟨fun h => ?_, congrArg outline⟩
    cases u <;> cases ctorIdx_eq_of_outline_eq flat h
    rfl
  | present t ih =>
    refine ⟨fun h => ?_, congrArg outline⟩
    cases u <;> cases ctorIdx_eq_of_outline_eq flat h
    rw [(ih (Category.isFlat_of_isSingle flat)).mp h]
  | nameExpression n =>
    refine ⟨fun h => ?_, congrArg outline⟩
    cases u <;> cases ctorIdx_eq_of_outline_eq flat h
    rw [Name.outline_inj.mp h]
  | modifier m =>
    refine ⟨fun h => ?_, congrArg outline⟩
    cases u <;> cases ctorIdx_eq_of_outline_eq flat h
    rw [Modifier.outline_inj.mp h]
  | initializerExpression t ih | annotated t ih | headerVariables t ih | headerExpressions t ih
  | blockStatement t ih | variablesStatement t ih | classType t ih | typeMember t ih =>
    refine ⟨fun h => ?_, congrArg outline⟩
    cases u <;> cases ctorIdx_eq_of_outline_eq flat h
    rw [(ih rfl).mp h]
  | emptyStatement g | switchDefaultLabel g =>
    refine ⟨fun h => ?_, congrArg outline⟩
    cases u <;> cases ctorIdx_eq_of_outline_eq flat h
    rw [(Outline.node.inj h).2.1]
  | _ =>
    refine ⟨fun h => ?_, congrArg outline⟩
    cases u <;> cases ctorIdx_eq_of_outline_eq flat h
    -- Two nodes of one kind: the handles and the fields are equal, one after the other.
    injection h with _ handles fields
    simp only [Category.isFlat, Category.isSingle, forall_const] at *
    simp only [List.cons.injEq, Outline.list.injEq, Outline.text.injEq, Outline.flag.injEq,
      Outline.count.injEq, and_true, elements_inj, ofChoice_inj, SimpleName.outline_inj,
      NamedType.outline_inj, ArrayType.toTy_inj, Ty.outline_inj, ofList_inj Ty.outline_inj,
      ofList_inj TypeParameter.outline_inj,
      ofOption_inj SimpleName.conforms_outline SimpleName.outline_inj,
      ofOption_inj NamedType.conforms_outline NamedType.outline_inj,
      ofOption_inj Ty.conforms_outline Ty.outline_inj,
      ofOption_inj Javadoc.conforms_outline Javadoc.outline_inj, *] at fields
    simp only [handles, fields]

end Tree

/-! ### Units and nodes -/

/-- The outline of a node determines a tree of any category. -/
theorem Tree.eq_of_outline_eq_node {c : Category} {t u : Tree c} {k : Kind}
    (kind : t.outline.kind? = some k) (h : t.outline = u.outline) : t = u := by
  induction c with
  | listOf c => cases t <;> cases kind
  | optional c ih =>
    cases t with
    | absent => cases kind
    | present t =>
      cases u with
      | absent =>
        rw [h] at kind
        cases kind
      | present u => rw [ih kind h]
  | _ => exact (Tree.outline_inj rfl).mp h

theorem PackageDeclaration.outline_inj {p q : PackageDeclaration} :
    p.outline = q.outline ↔ p = q := by
  cases p
  cases q
  simp [outline, ofOption_inj Javadoc.conforms_outline Javadoc.outline_inj,
    ofList_inj (Tree.outline_inj (c := .annotationUse) rfl), Name.outline_inj]

theorem ImportDeclaration.outline_inj {i j : ImportDeclaration} :
    i.outline = j.outline ↔ i = j := by
  cases i
  cases j
  simp [outline, ofChoice_inj, Name.outline_inj]

theorem CompilationUnit.outline_inj {u v : CompilationUnit} : u.outline = v.outline ↔ u = v := by
  cases u
  cases v
  simp [outline, ofOption_inj PackageDeclaration.conforms_outline PackageDeclaration.outline_inj,
    ofList_inj ImportDeclaration.outline_inj,
    ofList_inj (Tree.outline_inj (c := .typeDeclaration) rfl), ofList_inj Comment.outline_inj]

end JavaSource
