import JavaSource.Node
import JavaSource.Proofs.Outline.Erasure
import Mathlib.Data.List.Basic

/-!
# What emission reads of its context

The tokens of a node depend on the context only through what is attached to the handles of the node
and of everything below it (`Tree.emit_congr` for code, `Node.emit_congr` for all kinds). A node
with nothing attached is therefore written as it is in a context without notes: `Notes.Bare` says
that nothing is attached to any node of a tree, and `Tree.emit_of_bare` and `Node.emit_of_bare` are
the form in which the grammar of the tokens is studied.
-/

namespace JavaSource

/-! ### Agreement of contexts -/

/-- Two contexts attach the same to each of several handles. -/
def EmitContext.AgreesOn (x y : EmitContext) (hs : List Handle) : Prop :=
  ∀ h ∈ hs, ∀ place, x.attached h place = y.attached h place

namespace EmitContext

variable {x y : EmitContext}

/-- The context in which nothing is attached to the handles outside a list. -/
def restrict (x : EmitContext) (hs : List Handle) : EmitContext :=
  ⟨fun h place => if h ∈ hs then x.attached h place else [], x.blankLines⟩

theorem agreesOn_restrict {hs : List Handle} : x.AgreesOn (x.restrict hs) hs := by
  intro h hh place
  exact (if_pos hh).symm

@[simp] theorem agreesOn_nil : x.AgreesOn y [] := by
  simp [AgreesOn]

@[simp] theorem agreesOn_cons {h : Handle} {hs : List Handle} :
    x.AgreesOn y (h :: hs) ↔ (∀ place, x.attached h place = y.attached h place) ∧
      x.AgreesOn y hs := by
  simp [AgreesOn]

@[simp] theorem agreesOn_append {hs hs' : List Handle} :
    x.AgreesOn y (hs ++ hs') ↔ x.AgreesOn y hs ∧ x.AgreesOn y hs' := by
  simp [AgreesOn, or_imp, forall_and]

@[simp] theorem agreesOn_flatMap {α : Type} {f : α → List Handle} {as : List α} :
    x.AgreesOn y (as.flatMap f) ↔ ∀ a ∈ as, x.AgreesOn y (f a) := by
  simp only [AgreesOn, List.mem_flatMap]
  constructor
  · intro agree a ha h hh
    exact agree h ⟨a, ha, hh⟩
  · rintro agree h ⟨a, ha, hh⟩
    exact agree a ha h hh

end EmitContext

section

variable {x y : EmitContext}

/-! ### Names, types and documentation -/

theorem SimpleName.emit_congr {n : SimpleName} (agree : x.AgreesOn y n.outline.handles) :
    n.emit x = n.emit y := by
  simp only [outline, Outline.handles, EmitContext.agreesOn_cons] at agree
  simp only [emit, agree.1]

theorem Name.emit_congr {n : Name} (agree : x.AgreesOn y n.outline.handles) :
    n.emit x = n.emit y := by
  induction n with
  | simple n => exact SimpleName.emit_congr agree
  | qualified h q n ih =>
    simp only [outline, Outline.handles, Outline.handlesEach, EmitContext.agreesOn_cons,
      EmitContext.agreesOn_append] at agree
    obtain ⟨own, qualifier, last, -⟩ := agree
    simp only [emit, own, ih qualifier, SimpleName.emit_congr last]

theorem NamedType.emit_congr {t : NamedType} (agree : x.AgreesOn y t.outline.handles) :
    t.emit x = t.emit y := by
  simp only [outline, Outline.handles, Outline.handlesEach, EmitContext.agreesOn_cons,
    EmitContext.agreesOn_append] at agree
  simp only [emit, agree.1, Name.emit_congr agree.2.1]

theorem Ty.emit_congr {t : Ty} (agree : x.AgreesOn y t.outline.handles) : t.emit x = t.emit y := by
  induction t with
  | array h c ih => simp_all [outline, Outline.handles, emit]
  | basic h k => simp_all [outline, Outline.handles, emit]
  | named t => exact NamedType.emit_congr agree
  | parameterized h b f r ihb ihf ihr =>
    simp only [outline, outlineEach_eq_map, Outline.handles, Outline.handlesEach_eq_flatMap,
      List.flatMap_cons, List.flatMap_nil, List.flatMap_map, EmitContext.agreesOn_cons,
      EmitContext.agreesOn_append, EmitContext.agreesOn_flatMap] at agree
    obtain ⟨own, base, ⟨first, rest⟩, -⟩ := agree
    have each : r.map (emit x) = r.map (emit y) :=
      List.map_congr_left fun t ht => ihr t ht (rest t ht)
    simp only [emit, emitEach_eq_map, own, ihb base, ihf first, each]
  | qualified h q n ih =>
    simp only [outline, Outline.handles, Outline.handlesEach, EmitContext.agreesOn_cons,
      EmitContext.agreesOn_append] at agree
    simp only [emit, agree.1, ih agree.2.1, SimpleName.emit_congr agree.2.2.1]
  | wildcard h d b ih =>
    cases b with
    | none => simp_all [outline, Outline.handles, emit]
    | some b => simp_all [outline, Outline.handles, emit, Outline.ofChoice]

theorem emitOptional_congr {t : Option Ty}
    (agree : x.AgreesOn y (t.toList.flatMap fun t => t.outline.handles)) :
    emitOptional x t = emitOptional y t := by
  cases t with
  | none => rfl
  | some t => exact Ty.emit_congr (by simpa using agree)

theorem DocParameter.emit_congr {p : DocParameter} (agree : x.AgreesOn y p.outline.handles) :
    p.emit x = p.emit y := by
  simp only [outline, Outline.handles, Outline.handlesEach, Outline.handles_ofOption,
    EmitContext.agreesOn_cons, EmitContext.agreesOn_append, EmitContext.agreesOn_flatMap] at agree
  obtain ⟨own, type, name, -⟩ := agree
  simp only [emit, own, Ty.emit_congr type]
  cases hn : p.name with
  | none => rfl
  | some n => simp only [SimpleName.emit_congr (name n (by simp [hn]))]

namespace DocElement

mutual

theorem emitInside_congr : ∀ {e : DocElement}, x.AgreesOn y e.outline.handles →
    e.emitInside x = e.emitInside y
  | .text .., _ => rfl
  | .block h tag es, agree => by
    simp only [outline, Outline.handles, Outline.handlesEach, EmitContext.agreesOn_cons,
      EmitContext.agreesOn_append] at agree
    simp only [emitInside, agree.1, emitAll_congr agree.2.2.1]
  | .field h t n, agree => by
    simp only [outline, Outline.handles, Outline.handlesEach, Outline.handles_ofOption,
      EmitContext.agreesOn_cons, EmitContext.agreesOn_append] at agree
    simp only [emitInside, agree.1, emitOptional_congr agree.2.1,
      SimpleName.emit_congr agree.2.2.1]
  | .method h t n ps, agree => by
    simp only [outline, Outline.handles, Outline.handlesEach, Outline.handles_ofOption,
      Outline.handles_ofList, EmitContext.agreesOn_cons, EmitContext.agreesOn_append] at agree
    obtain ⟨own, type, name, parameters, -⟩ := agree
    have each : ps.map (DocParameter.emit x) = ps.map (DocParameter.emit y) :=
      List.map_congr_left fun p hp =>
        DocParameter.emit_congr (EmitContext.agreesOn_flatMap.mp parameters p hp)
    simp only [emitInside, own, emitOptional_congr type, SimpleName.emit_congr name, each]
  | .name n, agree => by simp only [emitInside, Name.emit_congr agree]
  | .type t, agree => by simp only [emitInside, Ty.emit_congr agree]

theorem emitAll_congr : ∀ {es : List DocElement},
    x.AgreesOn y (Outline.handlesEach (outlineEach es)) → emitAll x es = emitAll y es
  | [], _ => rfl
  | e :: es, agree => by
    simp only [outlineEach, Outline.handlesEach, EmitContext.agreesOn_append] at agree
    simp only [emitAll, emitInside_congr agree.1, emitAll_congr agree.2]

end

end DocElement

theorem DocBlock.emit_congr {b : DocBlock} (agree : x.AgreesOn y b.outline.handles) :
    b.emit x = b.emit y := by
  simp only [outline, toElement, DocElement.outline, Outline.handles, Outline.handlesEach,
    EmitContext.agreesOn_cons, EmitContext.agreesOn_append] at agree
  simp only [emit, agree.1, DocElement.emitAll_congr agree.2.2.1]

theorem Javadoc.emit_congr {j : Javadoc} (agree : x.AgreesOn y j.outline.handles) :
    j.emit x = j.emit y := by
  simp only [outline, Outline.handles, Outline.handlesEach, Outline.handles_ofList,
    EmitContext.agreesOn_cons, EmitContext.agreesOn_append, EmitContext.agreesOn_flatMap] at agree
  have each : j.blocks.map (DocBlock.emit x) = j.blocks.map (DocBlock.emit y) :=
    List.map_congr_left fun b hb => DocBlock.emit_congr (agree.2.1 b hb)
  simp only [emit, agree.1, each]

theorem emitJavadoc_congr {j : Option Javadoc}
    (agree : x.AgreesOn y (j.toList.flatMap fun j => j.outline.handles)) :
    emitJavadoc x j = emitJavadoc y j := by
  cases j with
  | none => rfl
  | some j => simp only [emitJavadoc, Javadoc.emit_congr (by simpa using agree)]

/-! ### Code -/

theorem Modifier.emit_congr {m : Modifier} (agree : x.AgreesOn y m.outline.handles) :
    m.emit x = m.emit y := by
  simp only [outline, Outline.handles, EmitContext.agreesOn_cons] at agree
  simp only [emit, agree.1]

theorem TypeParameter.emit_congr {p : TypeParameter} (agree : x.AgreesOn y p.outline.handles) :
    p.emit x = p.emit y := by
  simp only [outline, Outline.handles, Outline.handlesEach, Outline.handles_ofList,
    EmitContext.agreesOn_cons, EmitContext.agreesOn_append, EmitContext.agreesOn_flatMap] at agree
  obtain ⟨own, name, bounds, -⟩ := agree
  simp only [emit, own, SimpleName.emit_congr name]
  cases hb : p.bounds with
  | nil => rfl
  | cons first rest =>
    rw [hb] at bounds
    have each : (rest.flatMap fun t => Token.operator "&" :: t.emit x) =
        rest.flatMap fun t => .operator "&" :: t.emit y :=
      List.flatMap_congr fun t ht => by
        rw [Ty.emit_congr (bounds t (List.mem_cons_of_mem first ht))]
    simp only [Ty.emit_congr (bounds first List.mem_cons_self), each]

theorem map_typeEmit_congr {ts : List Ty}
    (agree : x.AgreesOn y (ts.flatMap fun t => t.outline.handles)) :
    ts.map (Ty.emit x) = ts.map (Ty.emit y) :=
  List.map_congr_left fun t ht => Ty.emit_congr (EmitContext.agreesOn_flatMap.mp agree t ht)

theorem typeParameters_congr {ps : List TypeParameter}
    (agree : x.AgreesOn y (ps.flatMap fun p => p.outline.handles)) :
    typeParameters x ps = typeParameters y ps := by
  rw [typeParameters, typeParameters, List.map_congr_left fun p hp =>
    TypeParameter.emit_congr (EmitContext.agreesOn_flatMap.mp agree p hp)]

theorem leadingParameters_congr {ps : List TypeParameter}
    (agree : x.AgreesOn y (ps.flatMap fun p => p.outline.handles)) :
    leadingParameters x ps = leadingParameters y ps := by
  cases ps with
  | nil => rfl
  | cons p ps => simp only [leadingParameters, typeParameters_congr agree]

theorem typeClause_congr {keyword : String} {ts : List Ty}
    (agree : x.AgreesOn y (ts.flatMap fun t => t.outline.handles)) :
    typeClause x keyword ts = typeClause y keyword ts := by
  rw [typeClause, typeClause, map_typeEmit_congr agree]

theorem typeArguments_congr {ts : List Ty}
    (agree : x.AgreesOn y (ts.flatMap fun t => t.outline.handles)) :
    typeArguments x ts = typeArguments y ts := by
  rw [typeArguments, typeArguments, map_typeEmit_congr agree]

theorem invocationArguments_congr {ts : List Ty}
    (agree : x.AgreesOn y (ts.flatMap fun t => t.outline.handles)) :
    invocationArguments x ts = invocationArguments y ts := by
  cases ts with
  | nil => rfl
  | cons t ts => simp only [invocationArguments, typeArguments_congr agree]

theorem emitTarget_congr {n : Option SimpleName}
    (agree : x.AgreesOn y (n.toList.flatMap fun n => n.outline.handles)) :
    emitTarget x n = emitTarget y n := by
  cases n with
  | none => rfl
  | some n => exact SimpleName.emit_congr (by simpa using agree)

theorem emitTypeQualifier_congr {t : Option NamedType}
    (agree : x.AgreesOn y (t.toList.flatMap fun t => t.outline.handles)) :
    emitTypeQualifier x t = emitTypeQualifier y t := by
  cases t with
  | none => rfl
  | some t => rw [emitTypeQualifier, emitTypeQualifier, NamedType.emit_congr (by simpa using agree)]

/-- The innermost component of an array type is part of the type. -/
theorem ArrayType.element_emit_congr {a : ArrayType} (agree : x.AgreesOn y a.toTy.outline.handles) :
    a.element.emit x = a.element.emit y := by
  have innermost : ∀ {t : Ty}, x.AgreesOn y t.outline.handles →
      x.AgreesOn y t.element.outline.handles := by
    intro t agree
    induction t with
    | array h c ih =>
      simp only [Ty.outline, Outline.handles, Outline.handlesEach, List.append_nil,
        EmitContext.agreesOn_cons] at agree
      exact ih agree.2
    | _ => exact agree
  exact Ty.emit_congr (innermost (t := a.toTy) agree)

namespace Tree

variable {c : Category}

/-- The handles of a list are those of its members. -/
theorem handlesEach_elements (ts : Tree (.listOf c)) :
    Outline.handlesEach ts.outline.elements = ts.outline.handles := by
  cases ts <;> rfl

section

-- The equations of `emit` and `outline` are derived here, once for everything that follows.
attribute [local simp] emit outline

end

theorem attached_variablesHandle_congr {t : Tree .localVariables}
    (agree : x.AgreesOn y t.outline.handles) (place : Placement) :
    x.attached t.variablesHandle place = y.attached t.variablesHandle place := by
  cases t
  exact agree _ (by simp [outline, variablesHandle, Outline.handles]) place

/-- **Emission reads the context at the handles of the tree only.** -/
theorem emit_congr (blank : x.blankLines = y.blankLines) {t : Tree c} (p : Precedence)
    (agree : x.AgreesOn y t.outline.handles) : t.emit x p = t.emit y p := by
  -- Each kind of node: the handles split into its own and those of its parts, and each part agrees.
  induction t generalizing p
  all_goals
    simp only [outline, Outline.handles, Outline.handlesEach, handlesEach_elements,
      Outline.handles_ofOption, Outline.handles_ofList, Outline.handles_ofChoice,
      EmitContext.agreesOn_cons, EmitContext.agreesOn_append, EmitContext.agreesOn_nil, and_true,
      true_and] at agree
  all_goals
    simp only [emit, members, enumBody, *, SimpleName.emit_congr (x := x) (y := y),
      Name.emit_congr (x := x) (y := y), NamedType.emit_congr (x := x) (y := y),
      Ty.emit_congr (x := x) (y := y), emitJavadoc_congr (x := x) (y := y),
      Modifier.emit_congr (x := x) (y := y), typeParameters_congr (x := x) (y := y),
      leadingParameters_congr (x := x) (y := y), typeClause_congr (x := x) (y := y),
      typeArguments_congr (x := x) (y := y), invocationArguments_congr (x := x) (y := y),
      emitTarget_congr (x := x) (y := y), emitTypeQualifier_congr (x := x) (y := y),
      ArrayType.element_emit_congr (x := x) (y := y),
      attached_variablesHandle_congr (x := x) (y := y)]

theorem flatMap_emit_congr (blank : x.blankLines = y.blankLines) {ts : List (Tree c)}
    (p : Precedence) (agree : x.AgreesOn y (ts.flatMap fun t => t.outline.handles)) :
    (ts.flatMap fun t => t.emit x p) = ts.flatMap fun t => t.emit y p :=
  List.flatMap_congr fun t ht => emit_congr blank p (EmitContext.agreesOn_flatMap.mp agree t ht)

end Tree

/-! ### Units and nodes -/

theorem DocElement.emit_congr {e : DocElement} (agree : x.AgreesOn y e.outline.handles) :
    e.emit x = e.emit y := by
  cases e with
  | block h tag es => exact DocBlock.emit_congr (b := ⟨h, tag, es⟩) agree
  | text h s => simp_all [outline, Outline.handles, emit]
  | name n => exact Name.emit_congr agree
  | type t => exact Ty.emit_congr agree
  | field h t n =>
    -- inside a block the same is written behind a space
    have inside := emitInside_congr agree
    exact (List.cons.inj inside).2
  | method h t n ps =>
    have inside := emitInside_congr agree
    exact (List.cons.inj inside).2

theorem Comment.emit_congr {m : Comment} (agree : x.AgreesOn y m.outline.handles) :
    m.emit x = m.emit y := by
  cases m with
  | block h s => simp_all [outline, Outline.handles, emit]
  | line h s => simp_all [outline, Outline.handles, emit]
  | javadoc j => exact Javadoc.emit_congr agree

theorem PackageDeclaration.emit_congr (blank : x.blankLines = y.blankLines)
    {p : PackageDeclaration} (agree : x.AgreesOn y p.outline.handles) : p.emit x = p.emit y := by
  simp only [outline, Outline.handles, Outline.handlesEach, Outline.handles_ofOption,
    Outline.handles_ofList, EmitContext.agreesOn_cons, EmitContext.agreesOn_append] at agree
  obtain ⟨own, javadoc, annotations, name, -⟩ := agree
  simp only [emit, own, emitJavadoc_congr javadoc, Tree.flatMap_emit_congr blank _ annotations,
    Name.emit_congr name]

theorem ImportDeclaration.emit_congr {i : ImportDeclaration}
    (agree : x.AgreesOn y i.outline.handles) : i.emit x = i.emit y := by
  simp only [outline, Outline.handles, Outline.handlesEach, EmitContext.agreesOn_cons,
    EmitContext.agreesOn_append] at agree
  obtain ⟨own, -, name, -⟩ := agree
  simp only [emit, own, Name.emit_congr name]

theorem CompilationUnit.emit_congr (blank : x.blankLines = y.blankLines) {u : CompilationUnit}
    (agree : x.AgreesOn y u.outline.handles) : u.emit x = u.emit y := by
  simp only [outline, Outline.handles, Outline.handlesEach, Outline.handles_ofOption,
    Outline.handles_ofList, EmitContext.agreesOn_cons, EmitContext.agreesOn_append,
    EmitContext.agreesOn_flatMap] at agree
  obtain ⟨own, package, imports, types, comments, -⟩ := agree
  have package' : u.package.toList.map (PackageDeclaration.emit x) =
      u.package.toList.map (PackageDeclaration.emit y) :=
    List.map_congr_left fun p hp => PackageDeclaration.emit_congr blank (package p hp)
  have imports' : u.imports.map (ImportDeclaration.emit x) =
      u.imports.map (ImportDeclaration.emit y) :=
    List.map_congr_left fun i hi => ImportDeclaration.emit_congr (imports i hi)
  have comments' : u.comments.map (Comment.emit x) = u.comments.map (Comment.emit y) :=
    List.map_congr_left fun m hm => Comment.emit_congr (comments m hm)
  have types' := Tree.flatMap_emit_congr blank .lowest (EmitContext.agreesOn_flatMap.mpr types)
  simp only [emit, own, package', imports', comments', types']

/-- **Emission reads the context at the handles of the node only.** -/
theorem Node.emit_congr (blank : x.blankLines = y.blankLines) {n : Node}
    (agree : x.AgreesOn y n.outline.handles) : n.emit x = n.emit y := by
  cases n with
  | name n => exact Name.emit_congr agree
  | type t => exact Ty.emit_congr agree
  | docParameter p => exact DocParameter.emit_congr agree
  | docElement e => exact DocElement.emit_congr agree
  | comment m => exact Comment.emit_congr agree
  | typeParameter p => exact TypeParameter.emit_congr agree
  | package p => exact PackageDeclaration.emit_congr blank agree
  | importing i => exact ImportDeclaration.emit_congr agree
  | unit u => exact CompilationUnit.emit_congr blank agree
  | tree t => exact congrArg joined (Tree.emit_congr blank .lowest agree)

end

/-! ### Trees with nothing attached -/

/-- The context in which nothing is attached to any node. -/
def EmitContext.bare (blankLines : Bool) : EmitContext :=
  ⟨fun _ _ => [], blankLines⟩

/-- Nothing is attached to any node of a tree. -/
def Notes.Bare (notes : Notes) (o : Outline) : Prop :=
  ∀ h ∈ o.handles, (notes.find h).isEmpty = true

/-- Only handles in use have notes. -/
theorem Notes.find_eq_empty_or_lt (notes : Notes) (h : Handle) :
    notes.find h = {} ∨ ∃ i < notes.entries.size, h = some i := by
  cases h with
  | none => exact .inl rfl
  | some i =>
    by_cases inUse : i < notes.entries.size
    · exact .inr ⟨i, inUse, rfl⟩
    · exact .inl (by rw [find, Array.getElem?_eq_none (Nat.not_lt.mp inUse), Option.getD_none])

/-- An empty note has no tokens. -/
theorem Note.emit_of_isEmpty {n : Note} (empty : n.isEmpty = true) (x : EmitContext)
    (place : Placement) : n.emit x place = [] := by
  obtain ⟨comment, documentation⟩ := n
  cases comment <;> cases documentation <;> simp_all [isEmpty, size, emit]

theorem Notes.attached_of_isEmpty {notes : Notes} {h : Handle}
    (empty : (notes.find h).isEmpty = true) (depth : Nat) (place : Placement) :
    notes.attached depth h place = [] := by
  cases depth with
  | zero => rfl
  | succ depth => exact Note.emit_of_isEmpty empty _ place

theorem Notes.agreesOn_of_bare {notes : Notes} {o : Outline} (bare : notes.Bare o)
    (blankLines : Bool) : (notes.context blankLines).AgreesOn (.bare blankLines) o.handles :=
  fun h hh place => Notes.attached_of_isEmpty (bare h hh) _ place

/-- A tree with nothing attached is written as if there were no notes at all. -/
theorem Tree.emit_of_bare {c : Category} {notes : Notes} {t : Tree c} (bare : notes.Bare t.outline)
    (blankLines : Bool) (p : Precedence) :
    t.emit (notes.context blankLines) p = t.emit (.bare blankLines) p :=
  Tree.emit_congr (x := notes.context blankLines) (y := .bare blankLines) rfl p
    (Notes.agreesOn_of_bare bare blankLines)

/-- A node with nothing attached is written as if there were no notes at all. -/
theorem Node.emit_of_bare {notes : Notes} {n : Node} (bare : notes.Bare n.outline)
    (blankLines : Bool) : n.emit (notes.context blankLines) = n.emit (.bare blankLines) :=
  Node.emit_congr (x := notes.context blankLines) (y := .bare blankLines) rfl
    (Notes.agreesOn_of_bare bare blankLines)

end JavaSource
