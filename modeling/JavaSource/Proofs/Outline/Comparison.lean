import JavaSource.Proofs.Outline.Erasure
import JavaSource.Proofs.Outline.Schema

/-!
# Comparison guided by the schema

`Outline.tryEqual` walks over two trees and takes shortcuts; `Outline.same` says what the answer
should be. They agree on outlines that conform to the schema, whatever nodes the two trees share:
the comparison never fails (`Outline.tryEqual_eq_ok_same`), and if it is started on two nodes
without a look at their kinds, it fails exactly if the kinds differ (`Outline.matchWith_eq`).
-/

namespace JavaSource

namespace Position

/-- Nodes that a place admits in the same arms are of one kind. -/
theorem kind_eq_of_arms_eq {p : Position} {k k' : Kind} (admitted : p.admits k = true)
    (admitted' : p.admits k' = true) (h : p.arms k = p.arms k') : k = k' := by
  cases p with
  | only kind => rw [eq_of_admits_only admitted, eq_of_admits_only admitted']
  | _ =>
    -- Elsewhere the innermost arm is that of the kind itself.
    have innermost := congrArg List.getLast? h
    simpa [arms] using innermost

end Position

namespace Outline

/-! ### Shared nodes -/

/-- The test finds a node of `l` and a node of `r` identical only if they are one node, which the
two trees share. -/
def FindsShared (identical : Outline → Outline → Bool) (l r : Outline) : Prop :=
  ∀ a ∈ l.preorder, ∀ b ∈ r.preorder, identical a b = true → a = b

/-- A test that never finds two nodes identical. -/
theorem findsShared_never (l r : Outline) : FindsShared (fun _ _ => false) l r := by
  intro a _ b _ found
  cases found

/-- Handles find shared nodes if a handle of both trees belongs to one node only. -/
theorem findsShared_sharesHandle {l r : Outline}
    (h : ∀ a ∈ l.preorder, ∀ b ∈ r.preorder, ∀ i, a.handle = some i → b.handle = some i → a = b) :
    FindsShared sharesHandle l r := by
  intro a ha b hb found
  simp only [sharesHandle, Bool.and_eq_true, Option.isSome_iff_exists, beq_iff_eq] at found
  obtain ⟨⟨i, hi⟩, same⟩ := found
  exact h a ha b hb i hi (same ▸ hi)

variable {identical : Outline → Outline → Bool} {l r : Outline}

/-- What the test finds in single members of two lists it finds in the lists. -/
theorem FindsShared.of_mem_preorderEach {os os' : List Outline}
    (shared : ∀ a ∈ preorderEach os, ∀ b ∈ preorderEach os', identical a b = true → a = b) :
    ∀ o ∈ os, ∀ o' ∈ os', FindsShared identical o o' :=
  fun _ ho _ ho' a ha b hb => shared a (mem_preorderEach ho ha) b (mem_preorderEach ho' hb)

/-- What the test finds in single fields of two nodes it finds in the nodes. -/
theorem FindsShared.fields {k k' : Kind} {h h' : Handle} {fs fs' : List Outline}
    (shared : FindsShared identical (.node k h fs) (.node k' h' fs')) :
    ∀ f ∈ fs, ∀ f' ∈ fs', FindsShared identical f f' :=
  of_mem_preorderEach fun a ha b hb =>
    shared a (List.mem_cons_of_mem _ ha) b (List.mem_cons_of_mem _ hb)

/-- Nodes that the test finds identical are the same. -/
theorem FindsShared.same_of_identical {k k' : Kind} {h h' : Handle} {fs fs' : List Outline}
    (shared : FindsShared identical (.node k h fs) (.node k' h' fs'))
    (found : identical (.node k h fs) (.node k' h' fs') = true) :
    (node k h fs).same (node k' h' fs') = true :=
  (same_iff_erased_eq _ _).mpr
    (congrArg erased (shared _ List.mem_cons_self _ List.mem_cons_self found))

/-! ### Comparison of fields -/

theorem same_node_of_kind_ne {k k' : Kind} (h h' : Handle) (fs fs' : List Outline) (ne : k ≠ k') :
    (node k h fs).same (node k' h' fs') = false := by
  rw [same, beq_eq_false_iff_ne.mpr ne, Bool.false_and]

/-- The comparison of a field is right for every slot that the field conforms to. -/
def Compares (identical : Outline → Outline → Bool) (l : Outline) : Prop :=
  ∀ s r, Conforms s l → Conforms s r → FindsShared identical l r →
    matchField identical s l r = .ok (l.same r)

/-- Fields are compared one after the other, and each comparison is right. -/
theorem matchEach_eq_ok_sameEach {ss : List Slot} {os os' : List Outline}
    (compares : ∀ o ∈ os, Compares identical o) (fits : List.Forall₂ Conforms ss os)
    (fits' : List.Forall₂ Conforms ss os')
    (shared : ∀ o ∈ os, ∀ o' ∈ os', FindsShared identical o o') :
    matchEach identical ss os os' = .ok (sameEach os os') := by
  induction fits generalizing os' with
  | nil => cases fits'; rfl
  | @cons s o ss os fit _ ih =>
    cases fits' with
    | @cons _ o' _ os' fit' fits' =>
      have head : matchField identical s o o' = .ok (o.same o') :=
        compares o List.mem_cons_self s o' fit fit'
          (shared o List.mem_cons_self o' List.mem_cons_self)
      have tail : matchEach identical ss os os' = .ok (sameEach os os') :=
        ih (fun p hp => compares p (List.mem_cons_of_mem o hp)) fits' fun p hp p' hp' =>
          shared p (List.mem_cons_of_mem o hp) p' (List.mem_cons_of_mem o' hp')
      rw [matchEach, head, sameEach]
      cases o.same o' with
      | false => rfl
      | true => exact tail

/-- The fields of two nodes of one kind are compared rightly. -/
theorem matchEach_slots_eq {k : Kind} {h h' : Handle} {fs fs' : List Outline}
    (compares : ∀ f ∈ fs, Compares identical f) (fields : List.Forall₂ Conforms k.slots fs)
    (fields' : List.Forall₂ Conforms k.slots fs')
    (shared : FindsShared identical (.node k h fs) (.node k h' fs')) :
    matchEach identical k.slots fs fs' = .ok ((node k h fs).same (node k h' fs')) := by
  rw [matchEach_eq_ok_sameEach compares fields fields' shared.fields, same, beq_self_eq_true,
    Bool.true_and]

/-- Two nodes in one place are compared rightly if their fields are. -/
theorem matchField_node_eq {p : Position} {k k' : Kind} {h h' : Handle} {fs fs' : List Outline}
    (compares : ∀ f ∈ fs, Compares identical f) (fit : Conforms (.one p) (.node k h fs))
    (fit' : Conforms (.one p) (.node k' h' fs'))
    (shared : FindsShared identical (.node k h fs) (.node k' h' fs')) :
    matchField identical (.one p) (.node k h fs) (.node k' h' fs') =
      .ok ((node k h fs).same (node k' h' fs')) := by
  obtain ⟨admitted, fields⟩ := fit
  obtain ⟨admitted', fields'⟩ := fit'
  rw [matchField]
  by_cases arms : p.arms k = p.arms k'
  · -- In one arm there is one kind, so the comparison of the fields is reached.
    obtain rfl := Position.kind_eq_of_arms_eq admitted admitted' arms
    rw [if_neg (not_not.mpr arms), counterpart, if_pos rfl]
    split
    · next found => rw [shared.same_of_identical found]
    · exact matchEach_slots_eq compares fields fields' shared
  · have ne : k ≠ k' := fun e => arms (e ▸ rfl)
    rw [if_pos arms, same_node_of_kind_ne h h' fs fs' ne]

/-- Two lists in one place are compared rightly if their elements are. -/
theorem matchField_list_eq {p : Position} {os os' : List Outline}
    (compares : ∀ o ∈ os, Compares identical o) (each : ∀ o ∈ os, Conforms (.one p) o)
    (each' : ∀ o ∈ os', Conforms (.one p) o)
    (shared : FindsShared identical (.list os) (.list os')) :
    matchField identical (.many p) (.list os) (.list os') = .ok ((list os).same (list os')) := by
  rw [matchField]
  by_cases lengths : os.length = os'.length
  · -- Lists of one length are compared like the fields of a node, with one slot for each element.
    rw [if_neg (not_not.mpr lengths)]
    have slots : os.map (fun _ => Slot.one p) = os'.map fun _ => .one p := by
      rw [List.map_const', List.map_const', lengths]
    refine matchEach_eq_ok_sameEach compares ?_ ?_ (FindsShared.of_mem_preorderEach shared)
    · exact List.forall₂_map_left_iff.mpr (List.forall₂_same.mpr each)
    · exact slots ▸ List.forall₂_map_left_iff.mpr (List.forall₂_same.mpr each')
  · have differ : (list os).same (list os') ≠ true := by
      intro same
      have erased := (same_iff_erased_eq _ _).mp same
      simp only [Outline.erased, erasedEach_eq_map, list.injEq] at erased
      exact lengths (by simpa using congrArg List.length erased)
    rw [if_pos lengths, Bool.eq_false_iff.mpr differ]

/-- **The comparison of a field is right**, whatever the slot. -/
theorem compares (l : Outline) : Compares identical l := by
  intro s r fit fit' shared
  induction l using induction_on generalizing s r with
  | node k h fs ih =>
    have fields : ∀ f ∈ fs, Compares identical f := fun f hf s r => ih f hf s r
    cases fit with
    | one admitted given =>
      cases fit' with
      | one admitted' given' =>
        exact matchField_node_eq fields (.one admitted given) (.one admitted' given') shared
    | @present p _ _ _ admitted given =>
      cases fit' with
      | absent => rfl
      | @present _ k' h' fs' admitted' given' =>
        -- what may be missing is compared like what has to be there
        have present : matchField identical (.optional p) (.node k h fs) (.node k' h' fs') =
            matchField identical (.one p) (.node k h fs) (.node k' h' fs') := rfl
        rw [present]
        exact matchField_node_eq fields (.one admitted given) (.one admitted' given') shared
  | list os ih =>
    cases fit with
    | many each =>
      cases fit' with
      | many each' =>
        exact matchField_list_eq (fun o ho s r => ih o ho s r) each each' shared
  | absent => cases fit; cases fit' <;> rfl
  | text s => cases fit; cases fit'; rfl
  | flag b => cases fit; cases fit'; rfl
  | count n => cases fit; cases fit'; rfl
  | choice i s => cases fit; cases fit'; rfl

/-! ### Comparison of nodes -/

variable {p q : Position}

/-- A comparison that does not look at the kinds first fails exactly if they differ, and is right
otherwise. -/
theorem matchWith_eq {k k' : Kind} (fit : Conforms (.one p) l) (fit' : Conforms (.one q) r)
    (kind : l.kind? = some k) (kind' : r.kind? = some k') (shared : FindsShared identical l r) :
    l.matchWith identical r = if k = k' then .ok (l.same r) else .error ⟨k, k'⟩ := by
  obtain ⟨-, fields⟩ := fit
  obtain ⟨-, fields'⟩ := fit'
  obtain rfl := Option.some.inj kind
  obtain rfl := Option.some.inj kind'
  rw [matchWith, counterpart]
  split
  · next e =>
    subst e
    rw [matchEach_slots_eq (fun f _ => compares f) fields fields' shared]
  · rfl

/-- **The comparison of two nodes never fails, and its answer is right.** -/
theorem tryEqual_eq_ok_same (fit : Conforms (.one p) l) (fit' : Conforms (.one q) r)
    (shared : FindsShared identical l r) : l.tryEqual identical r = .ok (l.same r) := by
  obtain ⟨k, h, fs, rfl⟩ := fit.exists_eq_node
  obtain ⟨k', h', fs', rfl⟩ := fit'.exists_eq_node
  rw [tryEqual]
  split
  · next found => rw [shared.same_of_identical found]
  · split
    · next ne => rw [same_node_of_kind_ne h h' fs fs' fun e => ne (congrArg some e)]
    · next eq =>
      rw [matchWith_eq fit fit' rfl rfl shared, if_pos (Option.some.inj (not_not.mp eq))]

theorem equal_eq_same (fit : Conforms (.one p) l) (fit' : Conforms (.one q) r)
    (shared : FindsShared identical l r) : l.equal identical r = l.same r := by
  rw [equal, tryEqual_eq_ok_same fit fit' shared]

end Outline

end JavaSource
