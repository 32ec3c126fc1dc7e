import JavaSource.Proofs.Emission.Nesting

/-!
# Which trees have no text

A tree has no text if and only if it contains an assignment whose operator has no assignment symbol,
and the first one in pre-order is reported (`Node.render_fails_iff`).

* `Outline.firstInvalid?` is the operator of the first assignment in `Outline.preorder` that cannot
  be written.
* `firstRejected` is the first operator that emitted tokens reject. Emission writes the parts of a
  node in the order of its fields, so the two are the same (`Node.firstRejected_emit`).
* Emitted tokens are nested, so the layout never leaves the margin and comes back to it: nothing but
  a rejected operator can stop it (`Layout.run_of_nestEach`).
-/

namespace JavaSource

/-! ### The first invalid assignment of a tree -/

namespace Outline

/-- The operator that a field stands for. -/
def operator? : Outline → Option InfixOperator
  | .choice index name =>
    Enumeration.members.find? fun op => Enumeration.index op == index && Enumeration.name op == name
  | _ => none

/-- The operator of an assignment, if it has no assignment symbol. -/
def invalidOperator? : Outline → Option InfixOperator
  | .node .assignmentExpression _ [_, op, _] =>
    op.operator?.filter fun op => op.assignmentSymbol.isNone
  | _ => none

/-- The operator of the first assignment that has no assignment symbol. -/
def firstInvalid? (o : Outline) : Option InfixOperator :=
  o.preorder.findSome? invalidOperator?

/-- The operator of the first assignment in several trees that has no assignment symbol. -/
def firstInvalidEach? (os : List Outline) : Option InfixOperator :=
  (preorderEach os).findSome? invalidOperator?

@[simp] theorem operator?_ofChoice (op : InfixOperator) : (ofChoice op).operator? = some op := by
  cases op <;> rfl

theorem eq_ofChoice_of_operator? {o : Outline} {op : InfixOperator} (h : o.operator? = some op) :
    o = ofChoice op := by
  cases o with
  | choice index name =>
    have found := List.find?_some h
    rw [Bool.and_eq_true, beq_iff_eq, beq_iff_eq] at found
    rw [ofChoice, found.1, found.2]
  | _ => cases h

/-- The invalid nodes are the assignments whose operator has no assignment symbol. -/
theorem invalidOperator?_eq_some_iff {m : Outline} {op : InfixOperator} :
    m.invalidOperator? = some op ↔
      (∃ h left right, m = .node .assignmentExpression h [left, .ofChoice op, right]) ∧
        op.assignmentSymbol = none := by
  constructor
  · intro found
    unfold invalidOperator? at found
    split at found
    · next h left o right =>
      obtain ⟨given, unspelled⟩ := Option.filter_eq_some_iff.mp found
      exact ⟨⟨h, left, right, by rw [eq_ofChoice_of_operator? given]⟩, by simpa using unspelled⟩
    · cases found
  · rintro ⟨⟨h, left, right, rfl⟩, unspelled⟩
    simp [invalidOperator?, Option.filter_some, unspelled]

@[simp] theorem firstInvalidEach?_nil : firstInvalidEach? [] = none := rfl

@[simp] theorem firstInvalidEach?_cons (o : Outline) (os : List Outline) :
    firstInvalidEach? (o :: os) = o.firstInvalid?.or (firstInvalidEach? os) := by
  simp [firstInvalidEach?, preorderEach, firstInvalid?]

@[simp] theorem firstInvalid?_list (os : List Outline) :
    (list os).firstInvalid? = firstInvalidEach? os := rfl

@[simp] theorem firstInvalid?_text (s : String) : (text s).firstInvalid? = none := rfl

@[simp] theorem firstInvalid?_flag (b : Bool) : (flag b).firstInvalid? = none := rfl

@[simp] theorem firstInvalid?_count (n : Nat) : (count n).firstInvalid? = none := rfl

@[simp] theorem firstInvalid?_absent : absent.firstInvalid? = none := rfl

@[simp] theorem firstInvalid?_ofChoice {α : Type} [DecidableEq α] [Enumeration α] (a : α) :
    (ofChoice a).firstInvalid? = none := rfl

@[simp] theorem firstInvalid?_ofOption {α : Type} {f : α → Outline}
    (h : ∀ a, (f a).firstInvalid? = none) (a : Option α) : (ofOption f a).firstInvalid? = none := by
  cases a with
  | none => rfl
  | some a => exact h a

@[simp] theorem firstInvalid?_ofList {α : Type} {f : α → Outline}
    (h : ∀ a, (f a).firstInvalid? = none) (as : List α) : (ofList f as).firstInvalid? = none := by
  rw [ofList, firstInvalid?_list]
  induction as with
  | nil => rfl
  | cons a as ih => rw [List.map_cons, firstInvalidEach?_cons, h a, ih, Option.or_none]

/-- A node comes before its fields. -/
theorem firstInvalid?_node_eq (k : Kind) (h : Handle) (fs : List Outline) :
    (node k h fs).firstInvalid? = (node k h fs).invalidOperator?.or (firstInvalidEach? fs) := by
  rw [firstInvalid?, preorder, List.findSome?_cons]
  cases (node k h fs).invalidOperator? <;> rfl

/-- Nodes of the other kinds are not assignments. -/
theorem invalidOperator?_node {k : Kind} (hk : k ≠ .assignmentExpression) (h : Handle)
    (fs : List Outline) : (node k h fs).invalidOperator? = none := by
  unfold invalidOperator?
  split <;> simp_all

@[simp] theorem firstInvalid?_node {k : Kind} (hk : k ≠ .assignmentExpression) (h : Handle)
    (fs : List Outline) : (node k h fs).firstInvalid? = firstInvalidEach? fs := by
  rw [firstInvalid?_node_eq, invalidOperator?_node hk, Option.none_or]

theorem firstInvalid?_assignment (h : Handle) (left : Outline) (op : InfixOperator)
    (right : Outline) :
    (node .assignmentExpression h [left, .ofChoice op, right]).firstInvalid? =
      match op.assignmentSymbol with
      | some _ => left.firstInvalid?.or right.firstInvalid?
      | none => some op := by
  rw [firstInvalid?_node_eq, invalidOperator?, operator?_ofChoice, Option.filter_some]
  cases op.assignmentSymbol <;> simp

end Outline

/-! ### Trees without assignments -/

@[simp] theorem SimpleName.firstInvalid?_outline (n : SimpleName) :
    n.outline.firstInvalid? = none := by
  simp [outline]

@[simp] theorem Name.firstInvalid?_outline (n : Name) : n.outline.firstInvalid? = none := by
  induction n with
  | simple n => exact n.firstInvalid?_outline
  | qualified h q n ih => simp [outline, ih]

@[simp] theorem NamedType.firstInvalid?_outline (t : NamedType) :
    t.outline.firstInvalid? = none := by
  simp [outline]

@[simp] theorem Ty.firstInvalid?_outline (t : Ty) : t.outline.firstInvalid? = none := by
  induction t with
  | array h c ih => simp [outline, ih]
  | basic h k => simp [outline]
  | named t => exact t.firstInvalid?_outline
  | parameterized h b f r ihb ihf ihr =>
    have rest : Outline.firstInvalidEach? (r.map outline) = none := by
      induction r with
      | nil => rfl
      | cons t r ih =>
        have tail := ih fun u hu => ihr u (List.mem_cons_of_mem t hu)
        simp [ihr t List.mem_cons_self, tail]
    simp [outline, ihb, ihf, rest]
  | qualified h q n ih => simp [outline, ih]
  | wildcard h d b ih =>
    cases b with
    | none => simp [outline]
    | some b => simp [outline, ih b rfl]

@[simp] theorem DocParameter.firstInvalid?_outline (p : DocParameter) :
    p.outline.firstInvalid? = none := by
  simp [outline]

namespace DocElement

mutual

theorem firstInvalid?_outline : ∀ e : DocElement, e.outline.firstInvalid? = none
  | .block h tag es => by simp [outline, firstInvalidEach?_outlineEach es]
  | .field h t n => by simp [outline]
  | .method h t n ps => by simp [outline]
  | .text h s => by simp [outline]
  | .name n => n.firstInvalid?_outline
  | .type t => t.firstInvalid?_outline

theorem firstInvalidEach?_outlineEach : ∀ es : List DocElement,
    Outline.firstInvalidEach? (outlineEach es) = none
  | [] => rfl
  | e :: es => by
    simp [outlineEach, firstInvalid?_outline e, firstInvalidEach?_outlineEach es]

end

end DocElement

@[simp] theorem DocBlock.firstInvalid?_outline (b : DocBlock) : b.outline.firstInvalid? = none :=
  b.toElement.firstInvalid?_outline

@[simp] theorem Javadoc.firstInvalid?_outline (j : Javadoc) : j.outline.firstInvalid? = none := by
  simp [outline]

@[simp] theorem Comment.firstInvalid?_outline (c : Comment) : c.outline.firstInvalid? = none := by
  cases c with
  | block h s => simp [outline]
  | line h s => simp [outline]
  | javadoc j => exact j.firstInvalid?_outline

@[simp] theorem Modifier.firstInvalid?_outline (m : Modifier) : m.outline.firstInvalid? = none := by
  simp [outline]

@[simp] theorem TypeParameter.firstInvalid?_outline (p : TypeParameter) :
    p.outline.firstInvalid? = none := by
  simp [outline]

@[simp] theorem ImportDeclaration.firstInvalid?_outline (i : ImportDeclaration) :
    i.outline.firstInvalid? = none := by
  simp [outline]

/-! ### The first rejected operator of an emitted tree -/

section

variable {x : EmitContext}

theorem Tree.firstInvalidEach?_elements {c : Category} (ts : Tree (.listOf c)) :
    Outline.firstInvalidEach? ts.outline.elements = ts.outline.firstInvalid? := by
  cases ts <;> rfl

/-- **Emission rejects the first invalid assignment of a tree.** -/
theorem Tree.firstRejected_emit (hx : x.IsQuiet) {c : Category} (t : Tree c) (p : Precedence) :
    firstRejected (joined (t.emit x p)) = t.outline.firstInvalid? := by
  induction t generalizing p with
  | assignmentExpression h left op right ihl ihr =>
    rw [outline, Outline.firstInvalid?_assignment]
    cases spelled : op.assignmentSymbol <;> simp [emit, spelled, hx.attached, ihl, ihr]
  | _ =>
    -- the parts are written in the order of the fields
    simp [emit, outline, firstInvalidEach?_elements, Option.or_assoc, hx.attached, *]

/-- Trees that are written one after the other. -/
theorem firstRejected_flatMap_emit (hx : x.IsQuiet) {c : Category} (ts : List (Tree c)) :
    firstRejected (joined (ts.flatMap fun t => t.emit x .lowest)) =
      Outline.firstInvalidEach? (ts.map Tree.outline) := by
  induction ts with
  | nil => rfl
  | cons t ts ih => simp [t.firstRejected_emit hx, ih]

theorem PackageDeclaration.firstRejected_emit (hx : x.IsQuiet) (p : PackageDeclaration) :
    firstRejected (p.emit x) = p.outline.firstInvalid? := by
  simp [emit, outline, hx, hx.attached, firstRejected_flatMap_emit hx, Outline.ofList]

/-- The lines of a section reject what its parts reject. -/
theorem firstRejected_sectionLines {α : Type} {f : α → List Token} {somethingBefore : Bool}
    {as : List α} :
    firstRejected (sectionLines somethingBefore (as.map f)) = firstRejected (as.flatMap f) := by
  have each : ∀ as : List α,
      firstRejected ((as.map f).flatMap fun ts => ts ++ [Token.newline]) =
        firstRejected (as.flatMap f) := by
    intro as
    induction as with
    | nil => rfl
    | cons a as ih =>
      rw [List.map_cons, List.flatMap_cons, List.flatMap_cons, firstRejected_append, ih]
      simp
  cases as with
  | nil => rfl
  | cons a as =>
    rw [← each, List.map_cons, sectionLines, firstRejected_append]
    · simp
    · simp

theorem CompilationUnit.firstRejected_emit (hx : x.IsQuiet) (u : CompilationUnit) :
    firstRejected (u.emit x) = u.outline.firstInvalid? := by
  have comments : firstRejected (u.comments.flatMap (Comment.emit x)) = none :=
    firstRejected_flatMap_none fun c _ => (c.quiet_emit hx).accepted
  have package : firstRejected (u.package.toList.flatMap (PackageDeclaration.emit x)) =
      (Outline.ofOption PackageDeclaration.outline u.package).firstInvalid? := by
    cases u.package with
    | none => rfl
    | some p => simp [p.firstRejected_emit hx, Outline.ofOption]
  have imports : firstRejected (u.imports.flatMap (ImportDeclaration.emit x)) = none :=
    firstRejected_flatMap_none fun i _ => (i.quiet_emit hx).accepted
  have types : firstRejected (joined (u.types.flatMap fun t => t.emit x .lowest)) =
      (Outline.ofList Tree.outline u.types).firstInvalid? :=
    firstRejected_flatMap_emit hx u.types
  simp [emit, outline, hx.attached, firstRejected_sectionLines, comments, package, imports, types]

/-- **Emission rejects the first invalid assignment of a node.** -/
theorem Node.firstRejected_emit (hx : x.IsQuiet) (n : Node) :
    firstRejected (n.emit x) = n.outline.firstInvalid? := by
  cases n with
  | name n => simp [emit, outline, hx]
  | type t => simp [emit, outline, hx]
  | docParameter p => simp [emit, outline, p.quiet_emit hx]
  | docElement e => simp [emit, outline, e.quiet_emit hx, e.firstInvalid?_outline]
  | comment c => simp [emit, outline, c.quiet_emit hx]
  | typeParameter p => simp [emit, outline, p.quiet_emit hx]
  | package p => exact p.firstRejected_emit hx
  | importing i => simp [emit, outline, i.quiet_emit hx]
  | unit u => exact u.firstRejected_emit hx
  | tree t => exact t.firstRejected_emit hx .lowest

end

/-! ### Indentation -/

section

variable {stack stack' : List Bracket} {t : Token} {ts : List Token}

/-- Steps in and out change the number of open levels by one, and nothing else changes it. -/
theorem count_level_of_nest (nested : nest stack t = some stack') :
    [t].count .indent + stack.count .level = [t].count .dedent + stack'.count .level := by
  cases t with
  | indent =>
    obtain rfl : .level :: stack = stack' := Option.some.inj nested
    simp [Nat.add_comm]
  | dedent =>
    cases stack with
    | nil => simp at nested
    | cons b stack =>
      obtain ⟨rfl, rfl⟩ : .level = b ∧ stack = stack' := by simpa using nested
      simp [Nat.add_comm]
  | mark m =>
    -- marks open and close brackets of the other kinds
    have same : stack.count .level = stack'.count .level := by
      cases stack <;> cases m <;> simp at nested <;> grind
    simp [same]
  | _ =>
    obtain rfl : stack = stack' := Option.some.inj nested
    rfl

/-- Steps in and steps out account for the difference between the open levels. -/
theorem count_level_of_nestEach (nested : nestEach stack ts = some stack') :
    ts.count .indent + stack.count .level = ts.count .dedent + stack'.count .level := by
  induction ts generalizing stack with
  | nil =>
    obtain rfl : stack = stack' := Option.some.inj nested
    rfl
  | cons t ts ih =>
    obtain ⟨middle, first, rest⟩ := Option.bind_eq_some_iff.mp nested
    have one := count_level_of_nest first
    have tail := ih rest
    rw [← List.singleton_append, List.count_append, List.count_append]
    omega

end

/-- The steps in and out of a list of tokens are balanced and never go below the margin. -/
def Balanced (ts : List Token) : Prop :=
  ts.count .indent = ts.count .dedent ∧
    ∀ before, before <+: ts → before.count .dedent ≤ before.count .indent

/-- The indentation of nested tokens is balanced. -/
theorem Nested.balanced {ts : List Token} (nested : Nested ts) : Balanced ts := by
  constructor
  · simpa using count_level_of_nestEach (nested [])
  · rintro before ⟨after, rfl⟩
    have whole := nested []
    rw [nestEach_append] at whole
    obtain ⟨middle, first, -⟩ := Option.bind_eq_some_iff.mp whole
    have counted := count_level_of_nestEach first
    rw [List.count_nil] at counted
    omega

/-! ### Layout -/

namespace Layout

section

variable {o : Options} {s : State} {stack stack' : List Bracket} {t : Token} {ts : List Token}

@[simp] theorem State.depth_addSpace (s : State) : s.addSpace.depth = s.depth := by
  unfold addSpace
  split <;> rfl

@[simp] theorem State.depth_writeApart (indent : String) (s : State) (apart : Bool) (text : String)
    (previous : Previous) : (s.writeApart indent apart text previous).depth = s.depth := by
  cases apart <;> simp [writeApart, write]

@[simp] theorem State.depth_endLine (separator : String) (s : State) :
    (s.endLine separator).depth = s.depth := rfl

/-- A token that closes what was opened and rejects nothing is laid out, and the depth of the layout
is the number of open levels again. -/
theorem step_of_nest (nested : nest stack t = some stack') (depth : s.depth = stack.count .level)
    (accepted : t.rejected? = none) :
    ∃ s', step o s t = .ok s' ∧ s'.depth = stack'.count .level := by
  have counted := count_level_of_nest nested
  cases t with
  | indent => exact ⟨_, rfl, by simp at counted ⊢; omega⟩
  | dedent =>
    have deeper : s.depth = stack'.count .level + 1 := by simp at counted; omega
    exact ⟨{ s with depth := stack'.count .level }, by simp [step, deeper], rfl⟩
  | rejected op => cases accepted
  | _ => exact ⟨_, rfl, by simp_all⟩

/-- **Nothing but a rejected operator stops the layout of nested tokens.** -/
theorem run_of_nestEach (nested : nestEach stack ts = some stack')
    (depth : s.depth = stack.count .level) :
    match firstRejected ts with
    | some op => run o s ts = .error (.invalidAssignment op)
    | none => ∃ s', run o s ts = .ok s' ∧ s'.depth = stack'.count .level := by
  induction ts generalizing s stack with
  | nil =>
    obtain rfl : stack = stack' := Option.some.inj nested
    exact ⟨s, rfl, depth⟩
  | cons t ts ih =>
    obtain ⟨middle, first, rest⟩ := Option.bind_eq_some_iff.mp nested
    cases rejects : t.rejected? with
    | some op =>
      obtain rfl : t = .rejected op := by
        cases t <;> simp_all
      simp [run, step]
    | none =>
      obtain ⟨s', stepped, depth'⟩ := step_of_nest (o := o) first depth rejects
      rw [firstRejected_cons, rejects, Option.none_or, run, stepped]
      exact ih rest depth'

end

end Layout

/-- The layout of nested tokens fails with the first rejected operator, if there is one. -/
theorem layout_eq_error_iff {o : Options} {ts : List Token} (nested : Nested ts) (err : EmitError) :
    layout o ts = .error err ↔ ∃ op, firstRejected ts = some op ∧ err = .invalidAssignment op := by
  have ran := Layout.run_of_nestEach (o := o) (s := {}) (nested []) rfl
  cases rejects : firstRejected ts with
  | some op =>
    rw [rejects] at ran
    simp [layout, ran, eq_comm]
  | none =>
    rw [rejects] at ran
    obtain ⟨s, done, depth⟩ := ran
    rw [List.count_nil] at depth
    simp [layout, done, Layout.finish, depth]

/-- Whether a node has a text depends neither on the notes nor on the options. -/
theorem Node.render_fails_iff (notes : Notes) (o : Options) (n : Node) (err : EmitError) :
    n.render notes o = .error err ↔
      ∃ op, n.outline.firstInvalid? = some op ∧ err = .invalidAssignment op := by
  have quiet := notes.isQuiet_context o.blankLines
  rw [render, layout_eq_error_iff (n.nested_emit quiet), n.firstRejected_emit quiet]

theorem Node.firstInvalid?_of_render {notes : Notes} {o : Options} {n : Node} {text : String}
    (rendered : n.render notes o = .ok text) : n.outline.firstInvalid? = none := by
  cases invalid : n.outline.firstInvalid? with
  | none => rfl
  | some op =>
    rw [(n.render_fails_iff notes o _).mpr ⟨op, invalid, rfl⟩] at rendered
    cases rendered

/-- A node has no text exactly if it contains an invalid assignment. -/
theorem Node.exists_render_eq_error_iff (notes : Notes) (o : Options) (n : Node) :
    (∃ err, n.render notes o = .error err) ↔
      ∃ op : InfixOperator, op.assignmentSymbol = none ∧ ∃ h left right,
        .node .assignmentExpression h [left, .ofChoice op, right] ∈ n.outline.preorder := by
  have fails := n.render_fails_iff notes o
  constructor
  · rintro ⟨err, failed⟩
    obtain ⟨op, found, -⟩ := (fails err).mp failed
    obtain ⟨m, hm, invalid⟩ := List.exists_of_findSome?_eq_some found
    obtain ⟨⟨h, left, right, rfl⟩, unspelled⟩ := Outline.invalidOperator?_eq_some_iff.mp invalid
    exact ⟨op, unspelled, h, left, right, hm⟩
  · rintro ⟨op, unspelled, h, left, right, hm⟩
    have invalid := Outline.invalidOperator?_eq_some_iff.mpr ⟨⟨h, left, right, rfl⟩, unspelled⟩
    have found : n.outline.firstInvalid?.isSome :=
      List.findSome?_isSome_iff.mpr ⟨_, hm, by rw [invalid]; rfl⟩
    obtain ⟨first, found⟩ := Option.isSome_iff_exists.mp found
    exact ⟨.invalidAssignment first, (fails _).mpr ⟨first, found, rfl⟩⟩

end JavaSource
