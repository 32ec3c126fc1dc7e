import JavaSource.Proofs.Emission.Rejection
import Mathlib.Data.List.Perm.Basic

/-!
# Spans of emitted tokens

The tokens of a node are the same in every context, up to what is attached to its nodes and to the
empty lines between members. A `Span` has a place for each of the two: `Span.tokens` fills them in.

* `Outline.shown` lists the nodes of a tree but for those whose attachments are left out: the array
  types in an array creation, and the text in a block of documentation.
* `Occurrence` is a node where it stands in a tree, and `Span.Exact` says that the spans of each
  node are all that is written of it there.
* `Places f os` says that the tokens `f` are those of some spans, whose nodes are `os`. There is one
  rule for each group of tokens; `PlacesEach` is the same for the tokens of several nodes.
-/

namespace JavaSource

/-! ### The nodes that show their attachments -/

/-- Whether what is attached to a node is left out because of the node it is in. -/
def Kind.hides : (around inside : Kind) → Bool
  | .arrayCreationExpression, .arrayType => true
  | .docBlock, .docText => true
  | _, _ => false

/-- The order in which the fields of a node are written: the comments of a unit come first, all
other fields are declared as they are written. -/
def Kind.arranged {α : Type} : Kind → List α → List α
  | .compilationUnit, [package, imports, types, comments] => [comments, package, imports, types]
  | _, fields => fields

theorem Kind.arranged_perm {α : Type} (k : Kind) (fields : List α) :
    (k.arranged fields).Perm fields := by
  unfold arranged
  split
  · next package imports types comments =>
    exact (List.perm_append_comm : ([comments] ++ [package, imports, types]).Perm _)
  · exact .refl _

namespace Outline

mutual

/-- The nodes of a tree that show what is attached to them, in the order in which they are written.
The tree is a field of a node of kind `around`, if of any. -/
def shown (around : Option Kind) : Outline → List Outline
  | .node k h fs =>
    if around.any (·.hides k) then (shownEach around fs).flatten
    else if (node k h fs).invalidOperator?.isSome then [.node k h fs]
    else .node k h fs :: (k.arranged (shownEach (some k) fs)).flatten
  | .list os => (shownEach around os).flatten
  | .text _ | .flag _ | .count _ | .choice .. | .absent => []

/-- The nodes of each of several trees that show what is attached to them. -/
def shownEach (around : Option Kind) : List Outline → List (List Outline)
  | [] => []
  | o :: os => o.shown around :: shownEach around os

end

@[simp] theorem shownEach_eq_map (around : Option Kind) (os : List Outline) :
    shownEach around os = os.map (shown around) := by
  induction os with
  | nil => rfl
  | cons o os ih => rw [shownEach, ih, List.map_cons]

@[simp] theorem shown_list (around : Option Kind) (os : List Outline) :
    (list os).shown around = os.flatMap (shown around) := by
  rw [shown, shownEach_eq_map, List.flatMap_def]

@[simp] theorem shown_text (around : Option Kind) (s : String) : (text s).shown around = [] := rfl

@[simp] theorem shown_flag (around : Option Kind) (b : Bool) : (flag b).shown around = [] := rfl

@[simp] theorem shown_count (around : Option Kind) (n : Nat) : (count n).shown around = [] := rfl

@[simp] theorem shown_absent (around : Option Kind) : absent.shown around = [] := rfl

@[simp] theorem shown_ofChoice {α : Type} [DecidableEq α] [Enumeration α] (around : Option Kind)
    (a : α) : (ofChoice a).shown around = [] := rfl

@[simp] theorem shown_ofOption {α : Type} (f : α → Outline) (around : Option Kind) (a : Option α) :
    (ofOption f a).shown around = a.toList.flatMap fun a => (f a).shown around := by
  cases a <;> simp [ofOption]

@[simp] theorem shown_ofList {α : Type} (f : α → Outline) (around : Option Kind) (as : List α) :
    (ofList f as).shown around = as.flatMap fun a => (f a).shown around := by
  rw [ofList, shown_list, List.flatMap_map]

/-- A node that is not hidden, with its fields as they are declared. -/
theorem shown_node_of_not_hides {k : Kind} {around : Option Kind}
    (visible : around.any (·.hides k) = false) (hu : k ≠ .compilationUnit)
    (ha : k ≠ .assignmentExpression) (h : Handle) (fs : List Outline) :
    (node k h fs).shown around = .node k h fs :: fs.flatMap (shown (some k)) := by
  have arranged : k.arranged (fs.map (shown (some k))) = fs.map (shown (some k)) := by
    unfold Kind.arranged
    split <;> simp_all
  rw [shown, visible, invalidOperator?_node ha]
  simp [arranged, List.flatMap_def]

/-- Only array types and text are ever hidden. -/
@[simp] theorem shown_node {k : Kind} (ht : k ≠ .arrayType) (hd : k ≠ .docText)
    (hu : k ≠ .compilationUnit) (ha : k ≠ .assignmentExpression) (around : Option Kind) (h : Handle)
    (fs : List Outline) :
    (node k h fs).shown around = .node k h fs :: fs.flatMap (shown (some k)) := by
  have visible : ∀ outer : Kind, outer.hides k = false := by
    intro outer
    unfold Kind.hides
    split <;> simp_all
  exact shown_node_of_not_hides (by cases around <;> simp [visible]) hu ha h fs

theorem mem_preorder_of_mem_shown {o m : Outline} {around : Option Kind}
    (hm : m ∈ o.shown around) : m ∈ o.preorder := by
  induction o using induction_on generalizing around with
  | node k own fs ih =>
    have inside : ∀ {inner}, m ∈ fs.flatMap (shown inner) → m ∈ preorderEach fs := by
      intro inner hm
      obtain ⟨f, hf, hm⟩ := List.mem_flatMap.mp hm
      exact mem_preorderEach hf (ih f hf hm)
    simp only [shown, shownEach_eq_map, ← List.flatMap_def] at hm
    rw [preorder, List.mem_cons]
    split_ifs at hm with hides invalid
    · exact .inr (inside hm)
    · exact .inl (List.mem_singleton.mp hm)
    · rcases List.mem_cons.mp hm with rfl | hm
      · exact .inl rfl
      · exact .inr (inside ((k.arranged_perm _).flatten.mem_iff.mp hm))
  | list os ih =>
    rw [shown_list, List.mem_flatMap] at hm
    obtain ⟨o, ho, hm⟩ := hm
    rw [preorder]
    exact mem_preorderEach ho (ih o ho hm)
  | _ => cases hm

end Outline

/-! ### Nodes where they stand -/

/-- A node where it stands in a tree. -/
inductive Occurrence where
  /-- A node that is written as it is alone. -/
  | alone (node : Node)
  /-- Code, with the strength that its place demands. -/
  | code {category : Category} (tree : Tree category) (demanded : Precedence)
  /-- A block of documentation inside a block. -/
  | innerBlock (handle : Handle) (tag : String) (elements : List DocElement)

namespace Occurrence

/-- The outline of the node. -/
def outline : Occurrence → Outline
  | .alone n => n.outline
  | .code t _ => t.outline
  | .innerBlock h tag es => (DocElement.block h tag es).outline

/-- The handle of the node. -/
def handle (w : Occurrence) : Handle :=
  w.outline.handle

/-- The tokens of the node. The space in front of an inner block is no part of it. -/
def emit (x : EmitContext) : Occurrence → List Token
  | .alone n => n.emit x
  | .code t p => joined (t.emit x p)
  | .innerBlock h tag es => ((DocElement.block h tag es).emitInside x).tail

end Occurrence

/-! ### Spans -/

/-- A piece of the tokens of a node. -/
inductive Span where
  /-- A token. -/
  | token (token : Token)
  /-- An empty line, if the members of a type have one between them. -/
  | blankLine
  /-- A node: what is attached to it, and then its own spans. -/
  | node (owner : Occurrence) (place : Placement) (parts : List Span)

namespace Span

mutual

/-- The tokens of a span. -/
def tokens (x : EmitContext) : Span → List Token
  | .token t => [t]
  | .blankLine => if x.blankLines then [.newline] else []
  | .node w place parts => x.attached w.handle place ++ tokensEach x parts

/-- The tokens of several spans. -/
def tokensEach (x : EmitContext) : List Span → List Token
  | [] => []
  | s :: ss => s.tokens x ++ tokensEach x ss

end

mutual

/-- The nodes of a span. -/
def nodes : Span → List Outline
  | .token _ | .blankLine => []
  | .node w _ parts => w.outline :: nodesEach parts

/-- The nodes of several spans. -/
def nodesEach : List Span → List Outline
  | [] => []
  | s :: ss => s.nodes ++ nodesEach ss

end

mutual

/-- The spans of each node have all tokens of the node, in every context. -/
def Exact : Span → Prop
  | .token _ | .blankLine => True
  | .node w place parts =>
    (∀ x, w.emit x = x.attached w.handle place ++ tokensEach x parts) ∧ ExactEach parts

/-- Several spans, each of them exact. -/
def ExactEach : List Span → Prop
  | [] => True
  | s :: ss => s.Exact ∧ ExactEach ss

end

@[simp] theorem tokensEach_append (x : EmitContext) (ss ss' : List Span) :
    tokensEach x (ss ++ ss') = tokensEach x ss ++ tokensEach x ss' := by
  induction ss with
  | nil => rfl
  | cons s ss ih => rw [List.cons_append, tokensEach, tokensEach, ih, List.append_assoc]

@[simp] theorem nodesEach_append (ss ss' : List Span) :
    nodesEach (ss ++ ss') = nodesEach ss ++ nodesEach ss' := by
  induction ss with
  | nil => rfl
  | cons s ss ih => rw [List.cons_append, nodesEach, nodesEach, ih, List.append_assoc]

@[simp] theorem exactEach_append {ss ss' : List Span} :
    ExactEach (ss ++ ss') ↔ ExactEach ss ∧ ExactEach ss' := by
  induction ss with
  | nil => simp [ExactEach]
  | cons s ss ih => rw [List.cons_append, ExactEach, ExactEach, ih, and_assoc]

@[simp] theorem tokensEach_map_token (x : EmitContext) (ts : List Token) :
    tokensEach x (ts.map token) = ts := by
  induction ts with
  | nil => rfl
  | cons t ts ih => rw [List.map_cons, tokensEach, tokens, ih, List.singleton_append]

@[simp] theorem nodesEach_map_token (ts : List Token) : nodesEach (ts.map token) = [] := by
  induction ts with
  | nil => rfl
  | cons t ts ih => rw [List.map_cons, nodesEach, nodes, ih, List.nil_append]

@[simp] theorem exactEach_map_token (ts : List Token) : ExactEach (ts.map token) := by
  induction ts with
  | nil => trivial
  | cons t ts ih => exact ⟨trivial, ih⟩

section

variable {x y : EmitContext}

mutual

theorem tokens_congr (blank : x.blankLines = y.blankLines) : ∀ s : Span,
    x.AgreesOn y (s.nodes.map Outline.handle) → s.tokens x = s.tokens y
  | .token t, _ => rfl
  | .blankLine, _ => by rw [tokens, tokens, blank]
  | .node w place parts, agree => by
    rw [nodes, List.map_cons, EmitContext.agreesOn_cons] at agree
    obtain ⟨own, others⟩ := agree
    have own : x.attached w.handle place = y.attached w.handle place := own place
    rw [tokens, tokens, own, tokensEach_congr blank parts others]

/-- What is attached to a handle is written only with the nodes that have it. -/
theorem tokensEach_congr (blank : x.blankLines = y.blankLines) : ∀ ss : List Span,
    x.AgreesOn y ((nodesEach ss).map Outline.handle) → tokensEach x ss = tokensEach y ss
  | [], _ => rfl
  | s :: ss, agree => by
    rw [nodesEach, List.map_append, EmitContext.agreesOn_append] at agree
    rw [tokensEach, tokensEach, tokens_congr blank s agree.1, tokensEach_congr blank ss agree.2]

end

mutual

theorem exists_attached_infix (x : EmitContext) {m : Outline} : ∀ s : Span, m ∈ s.nodes →
    ∃ place, x.attached m.handle place <:+: s.tokens x
  | .token t, mem | .blankLine, mem => by cases mem
  | .node w place parts, mem => by
    rcases List.mem_cons.mp mem with rfl | inside
    · exact ⟨place, (List.prefix_append _ _).isInfix⟩
    · obtain ⟨place', written⟩ := exists_attached_infixEach x parts inside
      exact ⟨place', written.trans (List.suffix_append _ _).isInfix⟩

/-- What is attached to each of the nodes is written. -/
theorem exists_attached_infixEach (x : EmitContext) {m : Outline} : ∀ ss : List Span,
    m ∈ nodesEach ss → ∃ place, x.attached m.handle place <:+: tokensEach x ss
  | [], mem => by cases mem
  | s :: ss, mem => by
    rcases List.mem_append.mp mem with first | others
    · obtain ⟨place, written⟩ := exists_attached_infix x s first
      exact ⟨place, written.trans (List.prefix_append _ _).isInfix⟩
    · obtain ⟨place, written⟩ := exists_attached_infixEach x ss others
      exact ⟨place, written.trans (List.suffix_append _ _).isInfix⟩

end

end

end Span

/-! ### Tokens with places for attachments -/

/-- The tokens are those of some exact spans, and the nodes of these spans are `os`. -/
def Places (f : EmitContext → List Token) (os : List Outline) : Prop :=
  ∃ ss : List Span, Span.ExactEach ss ∧ (∀ x, f x = Span.tokensEach x ss) ∧ Span.nodesEach ss = os

/-- The tokens of one of several nodes, whose number and kinds are the same in every context. -/
structure Part where
  /-- The kind of the node. -/
  kind : Kind
  /-- The spans of the node. -/
  spans : List Span
  /-- No node of the part has tokens that are not in its spans. -/
  exact : Span.ExactEach spans

/-- The tokens of a part, with its kind. -/
def Part.emitted (x : EmitContext) (p : Part) : Emitted :=
  ⟨p.kind, Span.tokensEach x p.spans⟩

/-- The nodes of a part. -/
def Part.nodes (p : Part) : List Outline :=
  Span.nodesEach p.spans

/-- The tokens are those of some parts, and the nodes of these parts are `os`. -/
def PlacesEach (es : EmitContext → List Emitted) (os : List Outline) : Prop :=
  ∃ ps : List Part, (∀ x, es x = ps.map (Part.emitted x)) ∧ ps.flatMap Part.nodes = os

section

variable {f g : EmitContext → List Token} {es es' : EmitContext → List Emitted}
  {os os' : List Outline}

theorem places_tokens (ts : List Token) : Places (fun _ => ts) [] :=
  ⟨ts.map .token, by simp, fun x => by simp, by simp⟩

theorem places_blankLine : Places (fun x => if x.blankLines then [.newline] else []) [] :=
  ⟨[.blankLine], ⟨trivial, trivial⟩, fun x => by simp [Span.tokensEach, Span.tokens], rfl⟩

theorem Places.congr (hf : Places f os) (same : os = os') : Places f os' :=
  same ▸ hf

/-- The tokens depend on the context only through what is attached to their nodes. -/
theorem Places.agree (hf : Places f os) {x y : EmitContext} (blank : x.blankLines = y.blankLines)
    (agree : x.AgreesOn y (os.map Outline.handle)) : f x = f y := by
  obtain ⟨ss, -, filled, rfl⟩ := hf
  rw [filled, filled, Span.tokensEach_congr blank ss agree]

/-- What is attached to each of the nodes is among the tokens. -/
theorem Places.exists_attached_infix (hf : Places f os) (x : EmitContext) {m : Outline}
    (hm : m ∈ os) : ∃ place, x.attached m.handle place <:+: f x := by
  obtain ⟨ss, -, filled, rfl⟩ := hf
  rw [filled]
  exact Span.exists_attached_infixEach x ss hm

theorem Places.append (hf : Places f os) (hg : Places g os') :
    Places (fun x => f x ++ g x) (os ++ os') := by
  obtain ⟨ss, whole, filled, rfl⟩ := hf
  obtain ⟨ss', whole', filled', rfl⟩ := hg
  exact ⟨ss ++ ss', Span.exactEach_append.mpr ⟨whole, whole'⟩, fun x => by simp [filled, filled'],
    Span.nodesEach_append ss ss'⟩

theorem Places.cons (hf : Places f os) (t : Token) : Places (fun x => t :: f x) os :=
  (places_tokens [t]).append hf

theorem Places.concat (hf : Places f os) (ts : List Token) : Places (fun x => f x ++ ts) os := by
  simpa using hf.append (places_tokens ts)

/-- **What is attached to a node is in front of its other tokens.** -/
theorem Places.node (hf : Places f os) (w : Occurrence) (place : Placement)
    (own : ∀ x, w.emit x = x.attached w.handle place ++ f x) :
    Places (fun x => w.emit x) (w.outline :: os) := by
  obtain ⟨ss, whole, filled, rfl⟩ := hf
  have spans : ∀ x, w.emit x = x.attached w.handle place ++ Span.tokensEach x ss := by
    intro x
    rw [own, filled]
  exact ⟨[.node w place ss], ⟨⟨spans, whole⟩, trivial⟩,
    fun x => by simp [Span.tokensEach, Span.tokens, spans], by simp [Span.nodesEach, Span.nodes]⟩

theorem Places.alone (hf : Places f os) (n : Node) {k : Kind} {h : Handle} {fs : List Outline}
    (place : Placement) (ho : n.outline = .node k h fs)
    (own : ∀ x, n.emit x = x.attached h place ++ f x) :
    Places (fun x => n.emit x) (.node k h fs :: os) := by
  have handle : (Occurrence.alone n).handle = h := by
    rw [Occurrence.handle, Occurrence.outline, ho, Outline.handle]
  have nodes := hf.node (.alone n) place fun x => by rw [handle, Occurrence.emit, own]
  rwa [Occurrence.outline, ho] at nodes

theorem Places.ite {c : Prop} [Decidable c] (hf : Places f os) (hg : Places g os) :
    Places (fun x => if c then f x else g x) os := by
  by_cases hc : c
  · simpa [hc] using hf
  · simpa [hc] using hg

/-- One list of tokens for each of several things. -/
theorem places_flatMap {α : Type} {f : EmitContext → α → List Token} {g : α → List Outline}
    {as : List α} (h : ∀ a ∈ as, Places (f · a) (g a)) :
    Places (fun x => as.flatMap (f x)) (as.flatMap g) := by
  induction as with
  | nil => exact places_tokens []
  | cons a as ih =>
    have first := h a List.mem_cons_self
    have others := ih fun b hb => h b (List.mem_cons_of_mem a hb)
    simpa using first.append others

theorem places_commaSeparated {α : Type} {f : EmitContext → α → List Token} {g : α → List Outline}
    {as : List α} (h : ∀ a ∈ as, Places (f · a) (g a)) :
    Places (fun x => commaSeparated (as.map (f x))) (as.flatMap g) := by
  cases as with
  | nil => exact places_tokens []
  | cons a as =>
    have first := h a List.mem_cons_self
    have others : Places (fun x => as.flatMap fun b => .comma :: f x b) (as.flatMap g) :=
      places_flatMap fun b hb => (h b (List.mem_cons_of_mem a hb)).cons .comma
    simpa [commaSeparated, Text.intercalate_cons, List.flatMap_map] using first.append others

theorem Places.parenthesized (hf : Places f os) : Places (fun x => parenthesized (f x)) os :=
  (hf.concat _).cons _

theorem Places.bracketed (hf : Places f os) : Places (fun x => bracketed (f x)) os :=
  (hf.concat _).cons _

theorem Places.braced (hf : Places f os) : Places (fun x => braced (f x)) os :=
  (hf.concat _).cons _

theorem Places.indentedBraces (hf : Places f os) : Places (fun x => indentedBraces (f x)) os :=
  (places_tokens _).append hf |>.concat _

theorem Places.wrapped (hf : Places f os) (own demanded : Precedence) :
    Places (fun x => wrapped own demanded (f x)) os :=
  .ite hf.parenthesized hf

theorem Places.header (hf : Places f os) (keyword : String) :
    Places (fun x => header keyword (f x)) os :=
  (places_tokens _).append hf.parenthesized

theorem places_angled {α : Type} {f : EmitContext → α → List Token} {g : α → List Outline}
    {as : List α} (h : ∀ a ∈ as, Places (f · a) (g a)) :
    Places (fun x => angled (as.map (f x))) (as.flatMap g) := by
  cases as with
  | nil => exact places_tokens []
  | cons a as => exact ((places_commaSeparated h).concat _).cons _

theorem places_clause {α : Type} {f : EmitContext → α → List Token} {g : α → List Outline}
    {as : List α} (keyword : String) (h : ∀ a ∈ as, Places (f · a) (g a)) :
    Places (fun x => clause keyword (as.map (f x))) (as.flatMap g) := by
  cases as with
  | nil => exact places_tokens []
  | cons a as => exact (places_commaSeparated h).cons _

/-! ### The tokens of several nodes -/

theorem placesEach_nil : PlacesEach (fun _ => []) [] :=
  ⟨[], fun _ => rfl, rfl⟩

theorem placesEach_singleton (k : Kind) (hf : Places f os) :
    PlacesEach (fun x => [⟨k, f x⟩]) os := by
  obtain ⟨ss, whole, filled, rfl⟩ := hf
  exact ⟨[⟨k, ss, whole⟩], fun x => by simp [Part.emitted, filled], by simp [Part.nodes]⟩

theorem PlacesEach.append (h : PlacesEach es os) (h' : PlacesEach es' os') :
    PlacesEach (fun x => es x ++ es' x) (os ++ os') := by
  obtain ⟨ps, filled, rfl⟩ := h
  obtain ⟨ps', filled', rfl⟩ := h'
  exact ⟨ps ++ ps', fun x => by simp [filled, filled'], List.flatMap_append⟩

theorem placesEach_flatMap {α : Type} {f : EmitContext → α → List Emitted} {g : α → List Outline}
    {as : List α} (h : ∀ a ∈ as, PlacesEach (f · a) (g a)) :
    PlacesEach (fun x => as.flatMap (f x)) (as.flatMap g) := by
  induction as with
  | nil => exact placesEach_nil
  | cons a as ih =>
    have first := h a List.mem_cons_self
    have others := ih fun b hb => h b (List.mem_cons_of_mem a hb)
    simpa using first.append others

theorem Part.places (p : Part) : Places (fun x => (p.emitted x).tokens) p.nodes :=
  ⟨p.spans, p.exact, fun _ => rfl, rfl⟩

/-- The kinds of nodes do not depend on the context. -/
theorem Part.any_emitted (k : Kind) (x : EmitContext) (ps : List Part) :
    ((ps.map (Part.emitted x)).any fun e => e.kind = k) = ps.any fun p => p.kind = k := by
  rw [List.any_map]
  rfl

/-- The tokens of nodes one after the other, with tokens around each that depend on its kind. -/
theorem PlacesEach.flatMap (h : PlacesEach es os) {f : Emitted → List Token}
    (before after : Kind → List Token)
    (around : ∀ e, f e = before e.kind ++ (e.tokens ++ after e.kind)) :
    Places (fun x => (es x).flatMap f) os := by
  obtain ⟨ps, filled, rfl⟩ := h
  have each : Places (fun x => ps.flatMap fun p => f (p.emitted x)) (ps.flatMap Part.nodes) :=
    places_flatMap fun p _ => by
      simpa [around, Part.emitted] using
        (places_tokens (before p.kind)).append (p.places.concat (after p.kind))
  simpa [filled, List.flatMap_map] using each

theorem PlacesEach.joined (h : PlacesEach es os) : Places (fun x => joined (es x)) os :=
  h.flatMap (fun _ => []) (fun _ => []) (by simp)

theorem PlacesEach.separated (h : PlacesEach es os) : Places (fun x => separated (es x)) os := by
  obtain ⟨ps, filled, rfl⟩ := h
  have each := places_commaSeparated fun p (_ : p ∈ ps) => p.places
  simpa [JavaSource.separated, filled, Function.comp_def] using each

theorem PlacesEach.lines (h : PlacesEach es os) : Places (fun x => lines (es x)) os :=
  h.flatMap (fun _ => []) (fun _ => [.newline]) (by simp)

theorem PlacesEach.body (h : PlacesEach es os) : Places (fun x => body (es x)) os :=
  h.flatMap (fun k => if k = .block then [.space] else [.newline, .indent])
    (fun k => if k = .block then [] else [.dedent]) fun e => by split_ifs <;> simp

theorem PlacesEach.alternative (h : PlacesEach es os) : Places (fun x => alternative (es x)) os :=
  h.flatMap
    (fun k => if k = .ifStatement ∨ k = .block then [.space] else [.newline, .indent])
    (fun k => if k = .ifStatement ∨ k = .block then [] else [.dedent]) fun e => by
      by_cases hi : e.kind = .ifStatement <;> by_cases hb : e.kind = .block <;>
        simp [hi, hb, JavaSource.body]

theorem PlacesEach.switchLines (h : PlacesEach es os) : Places (fun x => switchLines (es x)) os :=
  h.flatMap
    (fun k => if k = .switchCaseLabel ∨ k = .switchDefaultLabel then [] else [.indent])
    (fun k => if k = .switchCaseLabel ∨ k = .switchDefaultLabel then [.newline]
      else [.newline, .dedent]) fun e => by split_ifs <;> simp

theorem PlacesEach.qualifying (h : PlacesEach es os) : Places (fun x => qualifying (es x)) os :=
  h.flatMap (fun _ => []) (fun _ => [.mark .dot]) (by simp)

theorem PlacesEach.after (h : PlacesEach es os) (t : Token) : Places (fun x => after t (es x)) os :=
  h.flatMap (fun _ => [t]) (fun _ => []) (by simp)

theorem PlacesEach.attributes (h : PlacesEach es os) (ownLines : Bool) :
    Places (fun x => attributes ownLines (es x)) os :=
  h.flatMap (fun _ => []) (fun k => [if ownLines && k.isAnnotationUse then .newline else .space])
    (by simp)

/-- The empty lines may depend on the context. -/
theorem PlacesEach.memberLines {blankLines : EmitContext → Bool}
    (blank : Places (fun x => if blankLines x then [.newline] else []) []) {blankFirst : Bool}
    (h : PlacesEach es os) : Places (fun x => memberLines (blankLines x) blankFirst (es x)) os := by
  obtain ⟨ps, filled, rfl⟩ := h
  simp only [filled]
  clear filled
  induction ps generalizing blankFirst with
  | nil => exact places_tokens []
  | cons p ps ih =>
    have first : Places (fun x => if blankFirst && blankLines x then [.newline] else []) [] := by
      cases blankFirst with
      | false => exact places_tokens []
      | true => exact blank
    exact (first.append p.places).append (ih.cons .newline)

theorem PlacesEach.members (h : PlacesEach es os) : Places (fun x => members x (es x)) os :=
  (h.memberLines places_blankLine).indentedBraces.cons .space

theorem PlacesEach.constantLines {hasMembers : Bool} (h : PlacesEach es os) :
    Places (fun x => constantLines hasMembers (es x)) os := by
  obtain ⟨ps, filled, rfl⟩ := h
  simp only [filled]
  clear filled
  induction ps with
  | nil => exact places_tokens _
  | cons p ps ih =>
    cases ps with
    | nil => simpa [JavaSource.constantLines] using p.places.concat _
    | cons q ps => exact (p.places.concat _).append ih

/-- Whether there are members does not depend on the context. -/
theorem PlacesEach.enumBody (h : PlacesEach es os) (h' : PlacesEach es' os') :
    Places (fun x => enumBody x (es x) (es' x)) (os ++ os') := by
  have members : Places (fun x => JavaSource.memberLines x.blankLines true (es' x)) os' :=
    h'.memberLines places_blankLine
  obtain ⟨ps, filled, rfl⟩ := h'
  have constants : Places (fun x => JavaSource.constantLines (!(es' x).isEmpty) (es x)) os := by
    simp only [filled, List.isEmpty_map]
    exact h.constantLines
  exact (constants.append members).indentedBraces.cons .space

/-- Whether a body ends with a brace does not depend on the context. -/
theorem PlacesEach.cons_endsInBrace (h : PlacesEach es os) (hf : Places f os') (t t' : Token) :
    Places (fun x => (if endsInBrace (es x) then t else t') :: f x) os' := by
  obtain ⟨ps, filled, rfl⟩ := h
  simp only [endsInBrace, filled, Part.any_emitted]
  exact hf.cons _

theorem PlacesEach.branches {openEnded : Bool} (h : PlacesEach es os) (h' : PlacesEach es' os') :
    Places (fun x => branches openEnded (es x) (es' x)) (os ++ os') := by
  have alternative := h'.alternative
  obtain ⟨ps, filled, rfl⟩ := h'
  simp only [filled] at alternative ⊢
  cases ps with
  | nil => simpa [JavaSource.branches] using h.body
  | cons p ps =>
    have first : Places (fun x => if openEnded then Token.space :: JavaSource.indentedBraces
        (JavaSource.lines (es x)) else JavaSource.body (es x)) os :=
      .ite (h.lines.indentedBraces.cons .space) h.body
    obtain ⟨qs, filled', rfl⟩ := h
    simp only [JavaSource.branches, List.map_cons, endsInBrace, filled', Part.any_emitted,
      List.append_assoc] at first alternative ⊢
    exact first.append ((places_tokens _).append alternative)

/-- Whether there are nodes at all does not depend on the context. -/
theorem PlacesEach.ite_isEmpty {ts : List Token} (h : PlacesEach es os) (hf : Places f os) :
    Places (fun x => if (es x).isEmpty then ts else f x) os := by
  obtain ⟨ps, filled, rfl⟩ := h
  simp only [filled, List.isEmpty_map]
  cases ps with
  | nil => exact places_tokens ts
  | cons p ps => simpa using hf

theorem PlacesEach.ite_any (h : PlacesEach es os) (k : Kind) (hf : Places f os')
    (hg : Places g os') :
    Places (fun x => if (es x).any (fun e => e.kind = k) then f x else g x) os' := by
  obtain ⟨ps, filled, rfl⟩ := h
  simp only [filled, Part.any_emitted]
  exact .ite hf hg

/-- The number of nodes does not depend on the context. -/
theorem PlacesEach.emptyBrackets (h : PlacesEach es os) (n : Nat) :
    Places (fun x => emptyBrackets (n - (es x).length)) [] := by
  obtain ⟨ps, filled, rfl⟩ := h
  simp only [filled, List.length_map]
  exact places_tokens _

end

end JavaSource
