import JavaSource.Proofs.Imports.Faithful
import Mathlib.Data.List.Induction
import Mathlib.Order.Bounds.Defs

/-!
# Heads and members

An import strategy divides a name into its head and the member types behind it. Nothing is lost:
the members appended to the head give the name back. With the strategy `topLevel` the head is as
short as it can be, if everything behind it has to be a member of a type: it ends with the first
segment from which on all segments in front of the last one are capitalized. The name that a member
type has through its top-level type is divided in the same place
(`ImportStrategy.split_shortest_head`).
-/

namespace JavaSource

namespace Name

/-- From the `k`-th segment on, counted from one, all segments in front of the last one are
capitalized. -/
def CapitalizedFrom (n : Name) (k : Nat) : Prop :=
  ∀ i, k ≤ i → i < n.segments.length → ∀ s ∈ n.segments[i - 1]?, s.isCapitalized = true

theorem segments_ne_nil (n : Name) : n.segments ≠ [] := by
  cases n <;> simp

theorem dropLast_segments_append (n : Name) : n.segments.dropLast ++ [n.last] = n.segments := by
  cases n <;> simp [last]

/-! ### Names that are divided -/

theorem segments_splitMembers (n : Name) :
    n.splitMembers.1.segments ++ n.splitMembers.2 = n.segments := by
  induction n with
  | simple n => simp [splitMembers]
  | qualified h q n ih =>
    by_cases capitalized : q.last.isCapitalized
    · simp [splitMembers, capitalized, ← ih]
    · simp [splitMembers, capitalized]

/-- The members start behind the first segment that is not capitalized. -/
theorem isCapitalized_of_splitMembers_eq {n q : Name} {h : Handle} {s : SimpleName}
    (head : n.splitMembers.1 = .qualified h q s) : q.last.isCapitalized = false := by
  induction n with
  | simple n => cases head
  | qualified h' q' s' ih =>
    by_cases capitalized : q'.last.isCapitalized
    · exact ih (by simpa [splitMembers, capitalized] using head)
    · simp only [splitMembers, capitalized, Bool.false_eq_true, if_false] at head
      obtain ⟨rfl, rfl, rfl⟩ := Name.qualified.inj head
      simpa using capitalized

/-- Members of a capitalized simple name are divided from it again. -/
theorem splitMembers_simple_append {s : SimpleName} {ms : List SimpleName}
    (capitals : ∀ m ∈ (s :: ms).dropLast, m.isCapitalized = true) :
    ((simple s).append ms).splitMembers = (.simple s, ms) := by
  induction ms using List.reverseRecOn with
  | nil => rfl
  | append_singleton ms m ih =>
    rw [← List.cons_append, List.dropLast_concat] at capitals
    have extended : (simple s).append (ms ++ [m]) = .qualified none ((simple s).append ms) m := by
      simp [append]
    have before : ((simple s).append ms).last ∈ s :: ms := by
      have among := ((simple s).append ms).last_mem_segments
      rwa [segments_append, segments_simple, List.singleton_append] at among
    rw [extended, splitMembers, if_pos (capitals _ before),
      ih fun m hm => capitals m (List.dropLast_subset _ hm)]

/-! ### The place of the cut -/

/-- The segments from the end of the head on are its last segment and the members. -/
theorem drop_segments (n : Name) :
    n.segments.drop (n.splitMembers.1.segments.length - 1) =
      n.splitMembers.1.last :: n.splitMembers.2 := by
  have front := n.splitMembers.1.dropLast_segments_append
  rw [← n.segments_splitMembers, ← List.length_dropLast]
  nth_rewrite 2 [← front]
  rw [List.append_assoc, List.drop_left, List.singleton_append]

theorem capitalizedFrom_head (n : Name) :
    n.CapitalizedFrom n.splitMembers.1.segments.length := by
  intro i first last s found
  have nonempty := List.length_pos_of_ne_nil n.splitMembers.1.segments_ne_nil
  obtain ⟨j, rfl⟩ := Nat.exists_eq_add_of_le first
  have place : n.splitMembers.1.segments.length + j - 1 =
      n.splitMembers.1.segments.length - 1 + j := by omega
  rw [place, ← List.getElem?_drop, drop_segments] at found
  -- the segment is not the last one, so it is in front of the last member
  have length := congrArg List.length n.segments_splitMembers
  rw [List.length_append] at length
  have inner : j < (n.splitMembers.1.last :: n.splitMembers.2).dropLast.length := by
    simp only [List.length_dropLast, List.length_cons]
    omega
  refine n.isCapitalized_of_mem_splitMembers s (List.mem_of_getElem? (i := j) ?_)
  rw [List.getElem?_dropLast, if_pos (by simpa using inner)]
  exact found

/-- In front of a qualified head the segments are not all capitalized. -/
theorem head_le_of_capitalizedFrom {n : Name} {k : Nat} (first : 1 ≤ k)
    (capitals : n.CapitalizedFrom k) : n.splitMembers.1.segments.length ≤ k := by
  by_contra shorter
  have length := congrArg List.length n.segments_splitMembers
  rw [List.length_append] at length
  cases head : n.splitMembers.1 with
  | simple s =>
    rw [head, segments_simple, List.length_singleton] at shorter
    omega
  | qualified h q s =>
    rw [head, segments_qualified, List.length_append, List.length_singleton] at shorter length
    have positive := List.length_pos_of_ne_nil q.segments_ne_nil
    have ending : n.segments[q.segments.length - 1]? = some q.last := by
      rw [← n.segments_splitMembers, head, segments_qualified, List.append_assoc,
        List.getElem?_append_left (by omega), ← List.getLast?_eq_getElem?,
        ← q.dropLast_segments_append, List.getLast?_concat]
    have capital := capitals q.segments.length (by omega) (by omega) q.last ending
    rw [isCapitalized_of_splitMembers_eq head] at capital
    cases capital

end Name

/-- **A name is divided without loss, behind the shortest head.** The members appended to the head
give the name. The strategy `enclosing` has no members. With `topLevel` the head consists of the
first `k` segments, where `k` is the least number from which on all segments in front of the last
one are capitalized: all of them, if the one in front of the last is not. The name of the members
through the last segment of the head is divided behind this segment. -/
theorem ImportStrategy.split_shortest_head (strategy : ImportStrategy) (n : Name) :
    let head := (strategy.split n).1
    let members := (strategy.split n).2
    (head.append members).Same n ∧ (head.append members).segments = n.segments ∧
    (strategy = .enclosing → members = []) ∧
    (strategy = .topLevel →
      ∃ k, IsLeast {k | 1 ≤ k ∧ k ≤ n.segments.length ∧ n.CapitalizedFrom k} k ∧
        head.segments = n.segments.take k ∧
        (∀ s, n.segments.dropLast.getLast? = some s → s.isCapitalized = false →
          k = n.segments.length) ∧
        strategy.split ((Name.simple head.last).append members) =
          (.simple head.last, members)) := by
  intro head members
  have whole : (head.append members).segments = n.segments := by
    rw [Name.segments_append]
    cases strategy with
    | topLevel => exact n.segments_splitMembers
    | enclosing => exact List.append_nil _
  have same : (head.append members).Same n := by
    rw [Name.same_iff_words_eq, Name.words, Name.words, whole]
  refine ⟨same, whole, ?_, ?_⟩
  · rintro rfl
    rfl
  · rintro rfl
    have least : IsLeast {k | 1 ≤ k ∧ k ≤ n.segments.length ∧ n.CapitalizedFrom k}
        head.segments.length := by
      refine ⟨⟨List.length_pos_of_ne_nil head.segments_ne_nil, ?_, n.capitalizedFrom_head⟩, ?_⟩
      · rw [← whole, Name.segments_append, List.length_append]
        exact Nat.le_add_right _ _
      · rintro k ⟨first, -, capitals⟩
        exact Name.head_le_of_capitalizedFrom first capitals
    refine ⟨head.segments.length, least, ?_, ?_, ?_⟩
    · rw [← whole, Name.segments_append, List.take_left]
    · intro s before small
      obtain ⟨-, upper, capitals⟩ := least.1
      by_contra shorter
      have last := capitals (n.segments.length - 1) (by omega) (by omega) s
      rw [List.getLast?_eq_getElem?, List.length_dropLast, List.getElem?_dropLast] at before
      split at before
      · rw [last before] at small
        cases small
      · cases before
    · exact Name.splitMembers_simple_append n.isCapitalized_of_mem_splitMembers

/-- A member of a member type: the head ends with the first of the capitalized segments. -/
example : (ImportStrategy.topLevel.split (.qualified none (.qualified none (.qualified none
    (.simple ⟨none, "a", rfl⟩) ⟨none, "Map", rfl⟩) ⟨none, "Entry", rfl⟩) ⟨none, "Key", rfl⟩)).1 =
      .qualified none (.simple ⟨none, "a", rfl⟩) ⟨none, "Map", rfl⟩ := by
  decide

end JavaSource
