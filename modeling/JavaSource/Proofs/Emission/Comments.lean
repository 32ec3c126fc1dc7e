import JavaSource.Proofs.Emission.NestedNotes

/-!
# Attached comments

The comment attached to a node that occurs once in a tree is written once, in front of the node
(`Node.comment_written_once`). The nodes that `Outline.hidden` lists are the exception: their
comments are not written at all. These are the array types in an array creation, of which only the
innermost component is written, and the text in a block of documentation.

`Isolates` is the form in which this is proved of spans: what is attached to one handle is written
in one place, and the tokens on both sides of this place do not depend on it.
-/

namespace JavaSource

/-! ### Nodes that do not show their attachments -/

namespace Outline

mutual

/-- The handles of the nodes of a tree whose attachments are left out because of where they stand.
The tree is a field of a node of kind `around`, if of any. -/
def hidden (around : Option Kind) : Outline → List Handle
  | .node k h fs =>
    if around.any (·.hides k) then h :: hiddenEach around fs else hiddenEach (some k) fs
  | .list os => hiddenEach around os
  | .text _ | .flag _ | .count _ | .choice .. | .absent => []

/-- The handles of the nodes of several trees whose attachments are left out. -/
def hiddenEach (around : Option Kind) : List Outline → List Handle
  | [] => []
  | o :: os => o.hidden around ++ hiddenEach around os

end

@[simp] theorem hiddenEach_eq_flatMap (around : Option Kind) (os : List Outline) :
    hiddenEach around os = os.flatMap (hidden around) := by
  induction os with
  | nil => rfl
  | cons o os ih => rw [hiddenEach, ih, List.flatMap_cons]

theorem firstInvalidEach?_eq_none_iff {os : List Outline} :
    firstInvalidEach? os = none ↔ ∀ o ∈ os, o.firstInvalid? = none := by
  induction os with
  | nil => simp
  | cons o os ih => simp [ih]

theorem flatMap_handles_perm {around : Option Kind} {os : List Outline}
    (each : ∀ o ∈ os, o.handles.Perm ((o.shown around).map handle ++ o.hidden around)) :
    (os.flatMap handles).Perm
      ((os.flatMap (shown around)).map handle ++ os.flatMap (hidden around)) := by
  rw [List.map_flatMap]
  exact (List.Perm.flatMap_left os each).trans (List.flatMap_append_perm os _ _).symm

/-- **Of a tree without invalid assignments, each node is shown or hidden.** -/
theorem handles_perm {o : Outline} (valid : o.firstInvalid? = none) (around : Option Kind) :
    o.handles.Perm ((o.shown around).map handle ++ o.hidden around) := by
  induction o using induction_on generalizing around with
  | node k own fs ih =>
    rw [firstInvalid?_node_eq, Option.or_eq_none_iff, firstInvalidEach?_eq_none_iff] at valid
    obtain ⟨operator, fields⟩ := valid
    have inside : ∀ inner, (fs.flatMap handles).Perm
        ((fs.flatMap (shown inner)).map handle ++ fs.flatMap (hidden inner)) := fun inner =>
      flatMap_handles_perm fun f hf => ih f hf (fields f hf) inner
    simp only [shown, hidden, handles, operator, shownEach_eq_map, hiddenEach_eq_flatMap,
      handlesEach_eq_flatMap]
    split
    · rw [← List.flatMap_def]
      exact ((inside around).cons own).trans List.perm_middle.symm
    · have written := (k.arranged_perm (fs.map (shown (some k)))).flatten.map handle
      rw [← List.flatMap_def] at written
      exact ((inside (some k)).trans (written.symm.append_right _)).cons own
  | list os ih =>
    rw [firstInvalid?_list, firstInvalidEach?_eq_none_iff] at valid
    rw [handles, shown_list, hidden, handlesEach_eq_flatMap, hiddenEach_eq_flatMap]
    exact flatMap_handles_perm fun o ho => ih o ho (valid o ho) around
  | _ => rfl

end Outline

/-! ### Attachments in one place -/

/-- Two contexts that agree on everything but what is attached to `h`. -/
structure EmitContext.DiffersAt (x y : EmitContext) (h : Handle) : Prop where
  /-- Members are kept apart in both or in none. -/
  blankLines : x.blankLines = y.blankLines
  /-- The other handles have the same attachments. -/
  attached : ∀ h' ≠ h, ∀ place, x.attached h' place = y.attached h' place

theorem EmitContext.DiffersAt.agreesOn {x y : EmitContext} {h : Handle} (differs : x.DiffersAt y h)
    {hs : List Handle} (free : h ∉ hs) : x.AgreesOn y hs :=
  fun h' mem => differs.attached h' fun same => free (same ▸ mem)

/-- What is attached to `h` is written in one place: in front of a node of `os` with this handle.
The tokens of the node behind it, and those before and after the node, do not depend on it. -/
def Isolates (x : EmitContext) (h : Handle) (f : EmitContext → List Token) (os : List Outline) :
    Prop :=
  ∃ (w : Occurrence) (place : Placement) (before own after : List Token),
    w.outline ∈ os ∧ w.handle = h ∧ ∀ y, x.DiffersAt y h →
      f y = before ++ (w.emit y ++ after) ∧ w.emit y = y.attached h place ++ own

section

variable {x : EmitContext} {h : Handle} {f g : EmitContext → List Token} {os os' : List Outline}

/-- More tokens on both sides. -/
theorem Isolates.extend (isolated : Isolates x h f os) (before after : List Token)
    (extended : ∀ y, x.DiffersAt y h → g y = before ++ (f y ++ after)) (sub : os ⊆ os') :
    Isolates x h g os' := by
  obtain ⟨w, place, front, own, back, mem, handle, split⟩ := isolated
  refine ⟨w, place, before ++ front, own, back ++ after, sub mem, handle, fun y differs => ?_⟩
  obtain ⟨tokens, owned⟩ := split y differs
  refine ⟨?_, owned⟩
  rw [extended y differs, tokens]
  simp only [List.append_assoc]

namespace Span

mutual

theorem isolates_tokens : ∀ s : Span, s.Exact → (s.nodes.map Outline.handle).count h = 1 →
    Isolates x h (fun y => s.tokens y) s.nodes
  | .token _, _, once | .blankLine, _, once => by cases once
  | .node w place parts, exactly, once => by
    obtain ⟨whole, inner⟩ := exactly
    rw [nodes, List.map_cons, List.count_cons] at once
    by_cases owner : w.handle = h
    · have free : h ∉ (nodesEach parts).map Outline.handle := by
        rw [← List.count_eq_zero]
        simpa [show w.outline.handle = h from owner] using once
      refine ⟨w, place, [], tokensEach x parts, [], List.mem_cons_self, owner, fun y differs => ?_⟩
      simp [tokens, whole, owner, tokensEach_congr differs.blankLines parts (differs.agreesOn free)]
    · have inside := isolates_tokensEach parts inner
        (by simpa [show w.outline.handle ≠ h from owner] using once)
      refine inside.extend (x.attached w.handle place) [] (fun y differs => ?_)
        (List.subset_cons_self _ _)
      rw [tokens, differs.attached w.handle owner, List.append_nil]

/-- **What is attached to a handle that occurs once is written in one place.** -/
theorem isolates_tokensEach : ∀ ss : List Span, ExactEach ss →
    ((nodesEach ss).map Outline.handle).count h = 1 →
    Isolates x h (fun y => tokensEach y ss) (nodesEach ss)
  | [], _, once => by cases once
  | s :: ss, exactly, once => by
    obtain ⟨first, others⟩ := exactly
    rw [nodesEach, List.map_append, List.count_append] at once
    by_cases hs : h ∈ s.nodes.map Outline.handle
    · have inside : (s.nodes.map Outline.handle).count h = 1 := by
        have := List.count_pos_iff.mpr hs
        omega
      have free : h ∉ (nodesEach ss).map Outline.handle := by
        rw [← List.count_eq_zero]
        omega
      refine (isolates_tokens s first inside).extend [] (tokensEach x ss) (fun y differs => ?_)
        (List.subset_append_left _ _)
      rw [tokensEach, tokensEach_congr differs.blankLines ss (differs.agreesOn free),
        List.nil_append]
    · have inside : ((nodesEach ss).map Outline.handle).count h = 1 := by
        rw [List.count_eq_zero.mpr hs] at once
        omega
      refine (isolates_tokensEach ss others inside).extend (s.tokens x) [] (fun y differs => ?_)
        (List.subset_append_right _ _)
      rw [tokensEach, tokens_congr differs.blankLines s (differs.agreesOn hs), List.append_nil]

end

end Span

end

/-! ### Comments on nodes -/

namespace Notes

variable {notes : Notes}

/-- Taking a comment off a handle leaves all other notes as they are. -/
theorem find_setComment_none (notes : Notes) (i : Nat) (h : Handle) :
    (notes.setComment (some i) none).find h =
      if h = some i then { notes.find h with comment := none } else notes.find h := by
  cases h with
  | none => simp [find]
  | some j =>
    simp only [setComment, update, find, Array.getElem?_modify, Option.some.injEq, eq_comm (a := j)]
    split
    · cases notes.entries[j]? <;> rfl
    · rfl

/-- With no documentation, the comment is all that is attached. -/
theorem attached_context {h : Handle} (undocumented : (notes.find h).documentation = none)
    (b : Bool) (place : Placement) :
    (notes.context b).attached h place = (notes.find h).comment.elim [] (emitComment · place) := by
  rw [attached_context_eq (not_leadsBack_of_undocumented undocumented), Note.emit, undocumented,
    List.append_nil]
  cases (notes.find h).comment <;> rfl

section

variable (undocumented : ∀ h, (notes.find h).documentation = none) {i : Nat} (b : Bool)

include undocumented

theorem attached_of_comment {lines : List String}
    (commented : (notes.find (some i)).comment = some lines) (place : Placement) :
    (notes.context b).attached (some i) place = emitComment lines place := by
  rw [attached_context (undocumented _), commented, Option.elim_some]

theorem attached_setComment_none (h : Handle) (place : Placement) :
    ((notes.setComment (some i) none).context b).attached h place =
      if h = some i then [] else (notes.context b).attached h place := by
  have kept : ((notes.setComment (some i) none).find h).documentation = none := by
    rw [find_setComment_none]
    split <;> exact undocumented h
  rw [attached_context kept, attached_context (undocumented h), find_setComment_none]
  split <;> rfl

end

end Notes

/-- **An attached comment is written once, in front of its node.** The comments of the nodes that
are hidden by the node they stand in are not written at all. -/
theorem Node.comment_written_once {n : Node} (placed : n.isPlaced = true) {notes : Notes}
    (undocumented : ∀ h, (notes.find h).documentation = none) {o : Options} {text : String}
    (rendered : n.render notes o = .ok text) {i : Nat} {lines : List String}
    (commented : (notes.find (some i)).comment = some lines)
    (once : n.outline.handles.count (some i) = 1) {x y : EmitContext}
    (hx : x = notes.context o.blankLines)
    (hy : y = (notes.setComment (some i) none).context o.blankLines) :
    (some i ∉ n.outline.hidden none →
      ∃ (w : Occurrence) (place : Placement) (before after : List Token),
        w.outline ∈ n.outline.preorder ∧ w.handle = some i ∧
        n.emit x = before ++ (w.emit x ++ after) ∧ w.emit x = emitComment lines place ++ w.emit y ∧
        n.emit y = before ++ (w.emit y ++ after)) ∧
    (some i ∈ n.outline.hidden none → n.emit x = n.emit y) := by
  -- The one node with the handle is either shown or hidden.
  have counted := (Outline.handles_perm (firstInvalid?_of_render rendered) none).count_eq (some i)
  rw [once, List.count_append] at counted
  -- Without its comment the handle has no attachment, and nothing else is different.
  have removed := Notes.attached_setComment_none undocumented (i := i) o.blankLines
  have differs : x.DiffersAt y (some i) := by
    subst hx hy
    exact ⟨rfl, fun h' other place => by rw [removed, if_neg other]⟩
  obtain ⟨ss, exactly, filled, nodes⟩ := n.places_emit placed
  simp only [filled]
  rw [← nodes] at counted
  constructor
  · intro shown
    have single : ((Span.nodesEach ss).map Outline.handle).count (some i) = 1 := by
      rw [List.count_eq_zero.mpr shown] at counted
      omega
    obtain ⟨w, place, before, own, after, mem, handle, split⟩ :=
      Span.isolates_tokensEach (x := x) ss exactly single
    obtain ⟨whole, owned⟩ := split x ⟨rfl, fun _ _ _ => rfl⟩
    obtain ⟨rest, bare⟩ := split y differs
    refine ⟨w, place, before, after, Outline.mem_preorder_of_mem_shown (nodes ▸ mem), handle, whole,
      ?_, rest⟩
    subst hx hy
    rw [owned, bare, removed, if_pos rfl, List.nil_append,
      Notes.attached_of_comment undocumented o.blankLines commented]
  · intro hidden
    refine Span.tokensEach_congr differs.blankLines ss (differs.agreesOn ?_)
    have found := List.count_pos_iff.mpr hidden
    rw [← List.count_eq_zero]
    omega

/-- Of the comments of two types in an array creation, one inside the other, only that of the inner
one is written. -/
theorem Node.comment_written_once_array :
    let n : Node := .tree (.arrayCreationExpression (some 0) ⟨some 1, .basic (some 2) .int⟩
      (.cons (.literal none "1" (by decide)) .nil) .absent)
    let notes : Notes := ⟨#[{}, { comment := some ["b"] }, { comment := some ["c", "d"] }]⟩
    let x := notes.context true
    let y := (notes.setComment (some 2) none).context true
    n.isPlaced = true ∧ (∀ h, (notes.find h).documentation = none) ∧
    n.render notes {} = .ok "new/* c d */ int[1]" ∧ n.outline.handles.Nodup ∧
    n.outline.hidden none = [some 1] ∧
    (∃ (w : Occurrence) (place : Placement) (before after : List Token),
      w.outline ∈ n.outline.preorder ∧ w.handle = some 2 ∧
      n.emit x = before ++ (w.emit x ++ after) ∧
      w.emit x = emitComment ["c", "d"] place ++ w.emit y ∧
      n.emit y = before ++ (w.emit y ++ after)) ∧
    n.emit x = n.emit ((notes.setComment (some 1) none).context true) := by
  intro n notes x y
  have undocumented : ∀ h, (notes.find h).documentation = none
    | none => rfl
    | some 0 => rfl
    | some 1 => rfl
    | some 2 => rfl
    | some (_ + 3) => rfl
  have rendered : n.render notes {} = .ok "new/* c d */ int[1]" := by decide
  refine ⟨rfl, undocumented, rendered, by decide, by decide, ?_, ?_⟩
  · exact (Node.comment_written_once rfl undocumented rendered rfl (by decide) rfl rfl).1
      (by decide)
  · exact (Node.comment_written_once rfl undocumented rendered rfl (by decide) rfl rfl).2
      (by decide)

/-- The comments of an array type in an array creation and of a text in a block are lost. -/
theorem Node.comment_lost :
    let notes : Notes := ⟨#[{ comment := some ["c"] }]⟩
    let creation : Node := .tree (.arrayCreationExpression none ⟨some 0, .basic none .int⟩
      (.cons (.literal none "1" (by decide)) .nil) .absent)
    let javadoc : Node := .comment (.javadoc ⟨none, [⟨none, "", [.text (some 0) "hello"]⟩]⟩)
    creation.outline.handles.count (some 0) = 1 ∧ creation.render notes {} = .ok "new int[1]" ∧
    javadoc.outline.handles.count (some 0) = 1 ∧
    javadoc.render notes {} = .ok "/**\n * hello\n */" := by
  intro notes creation javadoc
  refine ⟨by decide, by decide, by decide, by decide⟩

end JavaSource
