import JavaSource.Proofs.Emission.Places
import Mathlib.Data.Finset.Card
import Mathlib.Data.Finset.Range
import Mathlib.Logic.Relation

/-!
# Notes inside notes

Attached documentation consists of nodes, which may have notes of their own. What is attached to a
handle is written with what is attached to the handles it `Leads` to, and with what these lead to.
If this `LeadsBack` to a handle that was on the way, there is no end to it.

* `Notes.Fills x hs` is the equation that emission follows: in the context `x`, what is attached to
  a handle is its note, written in `x` again.
* Documentation that leads back would be longer than itself, so the equation has a solution only for
  handles at which it `Ends` (`Notes.Fills.ends`).
* Where it ends, as many levels as there are handles are enough, so `Notes.context` is a solution
  (`Notes.fills_context`), and there is no other one (`Notes.Fills.agreesOn`).

A node `Renders` to a text or an error if the equation has a solution at the nodes that emission
comes to (`Outline.reached`). `Node.render_eq_error_iff` says when it renders to an error.
-/

namespace JavaSource

open Relation (ReflTransGen TransGen)

/-! ### What documentation leads to -/

theorem DocBlock.emit_congr_shown {b : DocBlock} {x y : EmitContext}
    (agree : x.AgreesOn y ((b.outline.shown none).map Outline.handle)) : b.emit x = b.emit y := by
  -- documentation has no members to keep apart, so empty lines do not count
  have unspaced : b.emit x = b.emit ⟨x.attached, y.blankLines⟩ :=
    DocBlock.emit_congr fun _ _ _ => rfl
  rw [unspaced]
  exact b.places_emit.agree rfl agree

/-- A documentation comment is longer than each of its blocks. -/
theorem length_lt_docComment {block : List Token} {blocks : List (List Token)}
    (mem : block ∈ blocks) : block.length < (docComment blocks).length := by
  obtain ⟨before, after, rfl⟩ := List.append_of_mem mem
  simp only [docComment, List.flatMap_append, List.flatMap_cons, List.length_append,
    List.length_cons, List.length_nil]
  omega

namespace Notes

variable {notes : Notes} {h h' : Handle} {hs : List Handle} {x y : EmitContext}

/-- The documentation of `h` has a node with the handle `h'` that shows what is attached to it. -/
def Leads (notes : Notes) (h h' : Handle) : Prop :=
  ∃ blocks ∈ (notes.find h).documentation, ∃ b ∈ blocks,
    h' ∈ (b.outline.shown none).map Outline.handle

/-- From `h`, documentation leads to a handle and from there back to it. -/
def LeadsBack (notes : Notes) (h : Handle) : Prop :=
  ∃ h', ReflTransGen notes.Leads h h' ∧ TransGen notes.Leads h' h'

theorem LeadsBack.of_reflTransGen (back : notes.LeadsBack h')
    (reached : ReflTransGen notes.Leads h h') : notes.LeadsBack h := by
  obtain ⟨middle, there, around⟩ := back
  exact ⟨middle, reached.trans there, around⟩

/-- Documentation does not lead back if a number falls on the way. -/
theorem not_leadsBack_of_rank (rank : Handle → Nat)
    (falls : ∀ i < notes.entries.size, ∀ blocks ∈ (notes.find (some i)).documentation,
      ∀ b ∈ blocks, ∀ m ∈ b.outline.shown none, rank m.handle < rank (some i)) :
    ¬ notes.LeadsBack h := by
  have step : ∀ {h h'}, notes.Leads h h' → rank h' < rank h := by
    rintro h _ ⟨blocks, attached, b, mem, shown⟩
    obtain ⟨m, hm, rfl⟩ := List.mem_map.mp shown
    rcases notes.find_eq_empty_or_lt h with empty | ⟨i, inUse, rfl⟩
    · rw [empty] at attached
      cases attached
    · exact falls i inUse blocks attached b mem m hm
  rintro ⟨h', -, around⟩
  have shorter : ∀ {h''}, TransGen notes.Leads h' h'' → rank h'' < rank h' := by
    intro h'' path
    induction path with
    | single leads => exact step leads
    | tail _ leads ih => exact (step leads).trans ih
  exact absurd (shorter around) (Nat.lt_irrefl _)

theorem not_leadsBack_of_undocumented (undocumented : (notes.find h).documentation = none) :
    ¬ notes.LeadsBack h := by
  have nowhere : ∀ h', ¬ notes.Leads h h' := by
    rintro h' ⟨blocks, documented, -⟩
    rw [undocumented] at documented
    cases documented
  rintro ⟨h', reached, around⟩
  rcases reached.cases_head with rfl | ⟨next, leads, -⟩
  · obtain ⟨next, leads, -⟩ := TransGen.head'_iff.mp around
    exact nowhere next leads
  · exact nowhere next leads

theorem not_leadsBack_of_isEmpty (empty : (notes.find h).isEmpty = true) : ¬ notes.LeadsBack h := by
  refine not_leadsBack_of_undocumented ?_
  cases documented : (notes.find h).documentation with
  | none => rfl
  | some blocks => simp [Note.isEmpty, Note.size, documented] at empty

/-- A note depends on the context only through the handles that it leads to. -/
theorem emit_find_congr
    (agree : ∀ h', notes.Leads h h' → ∀ place, x.attached h' place = y.attached h' place)
    (place : Placement) : (notes.find h).emit x place = (notes.find h).emit y place := by
  rw [Note.emit, Note.emit]
  cases documented : (notes.find h).documentation with
  | none => rfl
  | some blocks =>
    have each : blocks.map (DocBlock.emit x) = blocks.map (DocBlock.emit y) :=
      List.map_congr_left fun b mem => DocBlock.emit_congr_shown fun h' shown =>
        agree h' ⟨blocks, documented, b, mem, shown⟩
    simp only [each]

/-- **A note is longer than what is attached to a node of its documentation.** -/
theorem Leads.exists_length_lt (leads : notes.Leads h h') (x : EmitContext) (place : Placement) :
    ∃ place', (x.attached h' place').length < ((notes.find h).emit x place).length := by
  obtain ⟨blocks, documented, b, mem, shown⟩ := leads
  obtain ⟨m, hm, rfl⟩ := List.mem_map.mp shown
  obtain ⟨place', written⟩ := b.places_emit.exists_attached_infix x hm
  have block := length_lt_docComment (List.mem_map_of_mem (f := DocBlock.emit x) mem)
  have inner := written.length_le
  refine ⟨place', ?_⟩
  rw [Note.emit, Option.mem_def.mp documented, List.length_append, List.length_append]
  omega

/-! ### Levels of notes -/

open Classical in
/-- The handles in use that documentation leads to from `h`, and `h` itself. -/
noncomputable def following (notes : Notes) (h : Handle) : Finset Nat :=
  {i ∈ Finset.range notes.entries.size | ReflTransGen notes.Leads h (some i)}

theorem mem_following {i : Nat} :
    i ∈ notes.following h ↔ i < notes.entries.size ∧ ReflTransGen notes.Leads h (some i) := by
  simp [following]

theorem card_following_le (notes : Notes) (h : Handle) :
    (notes.following h).card ≤ notes.entries.size := by
  have inUse : notes.following h ⊆ Finset.range notes.entries.size := fun i hi =>
    Finset.mem_range.mpr (mem_following.mp hi).1
  simpa using Finset.card_le_card inUse

/-- **Each step leaves a handle behind, unless it leads back.** -/
theorem card_following_lt (ends : ¬ notes.LeadsBack h) (leads : notes.Leads h h') :
    (notes.following h').card < (notes.following h).card := by
  obtain ⟨i, inUse, rfl⟩ : ∃ i < notes.entries.size, h = some i := by
    refine (notes.find_eq_empty_or_lt h).resolve_left fun empty => ?_
    obtain ⟨blocks, documented, -⟩ := leads
    rw [empty] at documented
    cases documented
  refine Finset.card_lt_card ((Finset.ssubset_iff_of_subset fun j hj => ?_).mpr
    ⟨i, mem_following.mpr ⟨inUse, .refl⟩, fun back => ?_⟩)
  · obtain ⟨inUse', reached⟩ := mem_following.mp hj
    exact mem_following.mpr ⟨inUse', .head leads reached⟩
  · exact ends ⟨some i, .refl, .head' leads (mem_following.mp back).2⟩

/-- **Enough levels are as good as one more.** -/
theorem attached_eq_emit {depth : Nat} (ends : ¬ notes.LeadsBack h)
    (enough : (notes.following h).card ≤ depth) (blankLines : Bool) (place : Placement) :
    notes.attached depth h place =
      (notes.find h).emit ⟨notes.attached depth, blankLines⟩ place := by
  induction depth generalizing h place blankLines with
  | zero =>
    rcases notes.find_eq_empty_or_lt h with empty | ⟨i, inUse, rfl⟩
    · rw [empty]
      rfl
    · have nothing := Finset.card_eq_zero.mp (Nat.le_zero.mp enough)
      have own : i ∈ notes.following (some i) := mem_following.mpr ⟨inUse, .refl⟩
      rw [nothing] at own
      cases own
  | succ depth ih =>
    rw [attached]
    refine emit_find_congr (fun h' leads place => ?_) place
    have ends' : ¬ notes.LeadsBack h' := fun back => ends (back.of_reflTransGen (.single leads))
    have fewer := card_following_lt ends leads
    exact ih ends' (by omega) false place

/-- **The context attaches to a handle what its note says**, unless documentation leads back. -/
theorem attached_context_eq (ends : ¬ notes.LeadsBack h) (blankLines : Bool) (place : Placement) :
    (notes.context blankLines).attached h place =
      (notes.find h).emit (notes.context blankLines) place :=
  attached_eq_emit ends (notes.card_following_le h) blankLines place

/-! ### Attachments that are what the notes say -/

/-- What is attached to each of several handles, and to those that they lead to, is what the notes
say. -/
def Fills (notes : Notes) (x : EmitContext) (hs : List Handle) : Prop :=
  ∀ h ∈ hs, ∀ h', ReflTransGen notes.Leads h h' →
    ∀ place, x.attached h' place = (notes.find h').emit x place

/-- The documentation of none of several handles leads back. -/
def Ends (notes : Notes) (hs : List Handle) : Prop :=
  ∀ h ∈ hs, ¬ notes.LeadsBack h

theorem fills_context (ends : notes.Ends hs) (blankLines : Bool) :
    notes.Fills (notes.context blankLines) hs :=
  fun h mem _ reached =>
    attached_context_eq (fun back => ends h mem (back.of_reflTransGen reached)) blankLines

/-- **Documentation that leads back cannot be written**: it would be longer than itself. -/
theorem Fills.ends (fills : notes.Fills x hs) : notes.Ends hs := by
  rintro h mem ⟨h', reached, around⟩
  have shorter : ∀ {h''}, TransGen notes.Leads h' h'' → ∀ place,
      ∃ place', (x.attached h'' place').length < (x.attached h' place).length := by
    intro h'' path place
    induction path with
    | single leads =>
      rw [fills h mem h' reached]
      exact leads.exists_length_lt x place
    | @tail middle h'' path leads ih =>
      obtain ⟨place', less⟩ := ih
      rw [fills h mem middle (reached.trans path.to_reflTransGen)] at less
      obtain ⟨place'', less'⟩ := leads.exists_length_lt x place'
      exact ⟨place'', less'.trans less⟩
  -- so what is attached to `h'` gets shorter and shorter
  have endless : ∀ length place, (x.attached h' place).length ≠ length := by
    intro length
    induction length using Nat.strong_induction_on with
    | h length ih =>
      rintro place rfl
      obtain ⟨place', less⟩ := shorter around place
      exact ih _ less place' rfl
  exact endless _ .inline rfl

/-- **What is attached is determined by the notes.** -/
theorem Fills.agreesOn (fills : notes.Fills x hs) (blankLines : Bool) :
    x.AgreesOn (notes.context blankLines) hs := by
  have same : ∀ h, notes.Fills x [h] →
      ∀ place, x.attached h place = (notes.context blankLines).attached h place := by
    intro h
    induction number : (notes.following h).card using Nat.strong_induction_on generalizing h with
    | h number ih =>
      subst number
      intro fills place
      have ends : ¬ notes.LeadsBack h := fills.ends h List.mem_cons_self
      rw [fills h List.mem_cons_self h .refl, attached_context_eq ends]
      refine emit_find_congr (fun h' leads => ?_) place
      refine ih _ (card_following_lt ends leads) h' rfl ?_
      rintro _ mem
      obtain rfl := List.mem_singleton.mp mem
      exact fun h'' reached => fills h List.mem_cons_self h'' (.head leads reached)
  intro h mem
  refine same h fun _ mem' => ?_
  obtain rfl := List.mem_singleton.mp mem'
  exact fills _ mem

/-- At several handles, only the context of the notes is what they say. -/
theorem Fills.restrict_eq (fills : notes.Fills x hs) :
    x.restrict hs = (notes.context x.blankLines).restrict hs := by
  have same : (x.restrict hs).attached =
      ((notes.context x.blankLines).restrict hs).attached := by
    funext h place
    simp only [EmitContext.restrict]
    split
    · next mem => exact fills.agreesOn x.blankLines h mem place
    · rfl
  exact congrArg (EmitContext.mk · x.blankLines) same

end Notes

/-! ### Nodes without a text -/

namespace Outline

/-- Several nodes up to the first invalid assignment. -/
def untilInvalid : List Outline → List Outline
  | [] => []
  | o :: os => if o.invalidOperator?.isSome then [o] else o :: untilInvalid os

/-- The handles of the nodes of a tree whose attachments emission comes to before it ends or fails
at an invalid assignment. -/
def reached (o : Outline) : List Handle :=
  (untilInvalid (o.shown none)).map handle

theorem untilInvalid_subset (os : List Outline) : untilInvalid os ⊆ os := by
  induction os with
  | nil => exact List.nil_subset []
  | cons o os ih =>
    rw [untilInvalid]
    split
    · simp
    · exact List.cons_subset_cons o ih

theorem reached_subset_handles (o : Outline) : o.reached ⊆ o.handles := by
  rw [reached, ← map_handle_preorder]
  refine List.map_subset handle fun m hm => ?_
  exact mem_preorder_of_mem_shown (untilInvalid_subset _ hm)

theorem untilInvalid_eq_self {os : List Outline} (valid : ∀ o ∈ os, o.invalidOperator? = none) :
    untilInvalid os = os := by
  induction os with
  | nil => rfl
  | cons o os ih =>
    rw [untilInvalid, valid o List.mem_cons_self, Option.isSome_none, if_neg Bool.false_ne_true,
      ih fun o' mem => valid o' (List.mem_cons_of_mem o mem)]

/-- If no assignment is invalid, emission comes to everything that is shown. -/
theorem reached_eq {o : Outline} (valid : o.firstInvalid? = none) :
    o.reached = (o.shown none).map handle := by
  have each := List.findSome?_eq_none_iff.mp valid
  rw [reached, untilInvalid_eq_self fun m hm => each m (mem_preorder_of_mem_shown hm)]

end Outline

theorem EmitContext.IsQuiet.restrict {x : EmitContext} (quiet : x.IsQuiet) (hs : List Handle) :
    (x.restrict hs).IsQuiet := by
  intro h place
  simp only [EmitContext.restrict]
  split
  · exact quiet h place
  · exact quiet_nil

namespace Node

variable {n : Node}

/-- What emission does not come to does not count. -/
theorem layout_emit_restrict {x : EmitContext} (quiet : x.IsQuiet) (o : Options) :
    layout o (n.emit (x.restrict n.outline.reached)) = layout o (n.emit x) := by
  cases invalid : n.outline.firstInvalid? with
  | none =>
    have same : n.emit x = n.emit (x.restrict n.outline.reached) := by
      rw [Outline.reached_eq invalid]
      refine emit_congr_shown ?_ EmitContext.agreesOn_restrict
      rfl
    rw [same]
  | some op =>
    have fails : ∀ {y : EmitContext}, y.IsQuiet →
        layout o (n.emit y) = .error (.invalidAssignment op) := fun quiet =>
      (layout_eq_error_iff (n.nested_emit quiet) _).mpr
        ⟨op, by rw [n.firstRejected_emit quiet, invalid], rfl⟩
    rw [fails (quiet.restrict _), fails quiet]

/-- Emission of a node comes to an end with a text or an error: there are attachments that are what
the notes say at every node that it comes to, and the tokens with these attachments are laid out. -/
def Renders (notes : Notes) (o : Options) (n : Node) (result : Except EmitError String) : Prop :=
  ∃ x : EmitContext, x.blankLines = o.blankLines ∧ notes.Fills x n.outline.reached ∧
    layout o (n.emit (x.restrict n.outline.reached)) = result

/-- **Emission comes to an end exactly if documentation does not lead back**, and then with what is
rendered. -/
theorem renders_iff {notes : Notes} {o : Options} {result : Except EmitError String} :
    n.Renders notes o result ↔ notes.Ends n.outline.reached ∧ n.render notes o = result := by
  have quiet := notes.isQuiet_context o.blankLines
  constructor
  · rintro ⟨x, blank, fills, rfl⟩
    rw [fills.restrict_eq, blank, layout_emit_restrict quiet]
    exact ⟨fills.ends, rfl⟩
  · rintro ⟨ends, rfl⟩
    exact ⟨notes.context o.blankLines, rfl, Notes.fills_context ends o.blankLines,
      layout_emit_restrict quiet o⟩

/-- **A node has no text exactly if it contains an invalid assignment**, provided that its
documentation does not lead back before one is reached: then, and only then, emission comes to an
end.

The error reports the first invalid assignment in pre-order, and the indentation of the emitted
tokens is balanced in any case. -/
theorem render_eq_error_iff (notes : Notes) (o : Options) (n : Node) :
    ((∃ result, n.Renders notes o result) ↔ notes.Ends n.outline.reached) ∧
    (notes.Ends n.outline.reached →
      (∀ result, n.Renders notes o result ↔ n.render notes o = result) ∧
      (∀ err, n.Renders notes o (.error err) ↔
        ∃ op, n.outline.preorder.findSome? Outline.invalidOperator? = some op ∧
          err = .invalidAssignment op) ∧
      ((∃ err, n.Renders notes o (.error err)) ↔
        ∃ op : InfixOperator, op.assignmentSymbol = none ∧ ∃ h left right,
          .node .assignmentExpression h [left, .ofChoice op, right] ∈ n.outline.preorder)) ∧
    Balanced (n.emit (notes.context o.blankLines)) := by
  have nested := n.nested_emit (notes.isQuiet_context o.blankLines)
  refine ⟨?_, fun ends => ?_, nested.balanced⟩
  · constructor
    · rintro ⟨result, renders⟩
      exact (renders_iff.mp renders).1
    · intro ends
      exact ⟨n.render notes o, renders_iff.mpr ⟨ends, rfl⟩⟩
  · have same : ∀ result, n.Renders notes o result ↔ n.render notes o = result := fun result =>
      renders_iff.trans (and_iff_right ends)
    exact ⟨same, fun err => (same _).trans (n.render_fails_iff notes o err),
      (exists_congr fun err => same _).trans (n.exists_render_eq_error_iff notes o)⟩

/-- An invalid assignment behind documentation that has documentation of its own. -/
theorem render_eq_error_iff_documented :
    let inner : DocBlock := ⟨none, "", [.text none "c"]⟩
    let outer : DocBlock := ⟨some 1, "", [.text none "b"]⟩
    let notes : Notes := ⟨#[{ documentation := some [outer] }, { documentation := some [inner] }]⟩
    let name : SimpleName := ⟨none, "a", rfl⟩
    let n : Node := .tree (.expressionStatement (some 0) (.assignmentExpression none
      (.nameExpression (.simple name)) .equals (.nameExpression (.simple name))))
    notes.Leads (some 0) (some 1) ∧ notes.Ends n.outline.reached ∧
      n.render notes {} = .error (.invalidAssignment .equals) ∧
      n.Renders notes {} (.error (.invalidAssignment .equals)) := by
  intro inner outer notes name n
  have leads : notes.Leads (some 0) (some 1) := ⟨[outer], rfl, outer, by simp, by decide⟩
  have ends : notes.Ends n.outline.reached := fun h _ =>
    Notes.not_leadsBack_of_rank (fun h => if h = some 0 then 2 else if h = some 1 then 1 else 0)
      (by decide)
  obtain ⟨same, fails, -⟩ := (render_eq_error_iff notes {} n).2.1 ends
  have failed := (fails (.invalidAssignment .equals)).mpr ⟨.equals, by decide, rfl⟩
  exact ⟨leads, ends, (same _).mp failed, failed⟩

/-- The documentation of a statement consists of a block that is documented by itself. So emission
does not come to the invalid assignment behind it. -/
theorem documentation_without_end :
    let b : DocBlock := ⟨some 0, "", [.text none "hello"]⟩
    let notes : Notes := ⟨#[{ documentation := some [b] }, { documentation := some [b] }]⟩
    let name : SimpleName := ⟨none, "a", rfl⟩
    let n : Node := .tree (.expressionStatement (some 1) (.assignmentExpression none
      (.nameExpression (.simple name)) .equals (.nameExpression (.simple name))))
    n.outline.preorder.findSome? Outline.invalidOperator? = some .equals ∧
      ¬ ∃ result, n.Renders notes {} result := by
  intro b notes name n
  refine ⟨by decide, ?_⟩
  rintro ⟨result, renders⟩
  have block : notes.Leads (some 1) (some 0) := ⟨[b], rfl, b, by simp, by decide⟩
  have itself : notes.Leads (some 0) (some 0) := ⟨[b], rfl, b, by simp, by decide⟩
  exact (renders_iff.mp renders).1 (some 1) (by decide) ⟨some 0, .single block, .single itself⟩

end Node

end JavaSource
