import JavaSource.Text.Blank
import JavaSource.Text.Split
import Mathlib.Data.List.Induction
import Mathlib.Data.List.TakeWhile

/-!
# The parts of a text

A text is taken apart by splitting it at a separator and trimming the parts. Both are described by
how they act on texts that are put together: splitting by its first and its last separator,
trimming by blank characters at the ends. Blank characters at the ends of the whole text are
trimmed away with those of its first and last part, so it does not matter whether the text was
trimmed before it was split (`Text.map_trimmed_splitAt_trimmed`).
-/

namespace JavaSource.Text

/-! ### Splitting -/

section

variable {sep : Char}

/-- Without a separator there is one part. -/
theorem splitAt_of_notMem {cs : List Char} (h : sep ∉ cs) : splitAt sep cs = [cs] := by
  induction cs with
  | nil => rfl
  | cons c cs ih =>
    obtain ⟨ne, rest⟩ := not_or.mp (List.mem_cons.not.mp h)
    rw [splitAt, if_neg (Ne.symm ne), ih rest]

/-- A separator divides the parts into those before and those behind it. -/
theorem splitAt_append_cons (cs ds : List Char) :
    splitAt sep (cs ++ sep :: ds) = splitAt sep cs ++ splitAt sep ds := by
  induction cs with
  | nil => simp [splitAt]
  | cons c cs ih =>
    rw [List.cons_append, splitAt, splitAt, ih]
    by_cases h : c = sep
    · rw [if_pos h, if_pos h, List.cons_append]
    · obtain ⟨part, parts, split⟩ := List.exists_cons_of_ne_nil (splitAt_ne_nil sep cs)
      rw [if_neg h, if_neg h, split, List.cons_append]
      rfl

/-- The last separator. -/
theorem exists_last_of_mem {cs : List Char} (h : sep ∈ cs) :
    ∃ front back, cs = front ++ sep :: back ∧ sep ∉ back := by
  obtain ⟨as, bs, reversed, first⟩ := List.eq_append_cons_of_mem (List.mem_reverse.mpr h)
  refine ⟨bs.reverse, as.reverse, ?_, by simpa using first⟩
  rw [← List.reverse_reverse cs, reversed, List.reverse_append, List.reverse_cons,
    List.append_assoc, List.singleton_append]

/-- The last of several parts is what stands behind the last separator. -/
theorem splitAt_eq_append_singleton_iff {cs last : List Char} {parts : List (List Char)}
    (several : parts ≠ []) :
    splitAt sep cs = parts ++ [last] ↔
      ∃ front, cs = front ++ sep :: last ∧ splitAt sep front = parts ∧ sep ∉ last := by
  constructor
  · intro split
    by_cases mem : sep ∈ cs
    · obtain ⟨front, back, rfl, free⟩ := exists_last_of_mem mem
      rw [splitAt_append_cons, splitAt_of_notMem free] at split
      obtain ⟨same, rfl⟩ := List.append_singleton_inj.mp split
      exact ⟨front, rfl, same, free⟩
    · rw [splitAt_of_notMem mem, ← List.nil_append [cs]] at split
      exact absurd (List.append_singleton_inj.mp split).1.symm several
  · rintro ⟨front, rfl, rfl, free⟩
    rw [splitAt_append_cons, splitAt_of_notMem free]

/-- What is put in front of a text goes to its first part. -/
theorem exists_splitAt_append_left {ds : List Char} (free : sep ∉ ds) (cs : List Char) :
    ∃ first rest, splitAt sep cs = first :: rest ∧
      splitAt sep (ds ++ cs) = (ds ++ first) :: rest := by
  by_cases mem : sep ∈ cs
  · obtain ⟨front, back, rfl, start⟩ := List.eq_append_cons_of_mem mem
    have longer : sep ∉ ds ++ front := by simp [free, start]
    refine ⟨front, splitAt sep back, ?_, ?_⟩
    · rw [splitAt_append_cons, splitAt_of_notMem start, List.singleton_append]
    · rw [← List.append_assoc, splitAt_append_cons, splitAt_of_notMem longer,
        List.singleton_append]
  · have longer : sep ∉ ds ++ cs := by simp [free, mem]
    exact ⟨cs, [], splitAt_of_notMem mem, splitAt_of_notMem longer⟩

/-- What is put behind a text goes to its last part. -/
theorem exists_splitAt_append_right {ds : List Char} (free : sep ∉ ds) (cs : List Char) :
    ∃ rest last, splitAt sep cs = rest ++ [last] ∧
      splitAt sep (cs ++ ds) = rest ++ [last ++ ds] := by
  by_cases mem : sep ∈ cs
  · obtain ⟨front, back, rfl, ending⟩ := exists_last_of_mem mem
    have longer : sep ∉ back ++ ds := by simp [free, ending]
    refine ⟨splitAt sep front, back, ?_, ?_⟩
    · rw [splitAt_append_cons, splitAt_of_notMem ending]
    · rw [List.append_assoc, List.cons_append, splitAt_append_cons, splitAt_of_notMem longer]
  · have longer : sep ∉ cs ++ ds := by simp [free, mem]
    exact ⟨[], cs, splitAt_of_notMem mem, splitAt_of_notMem longer⟩

/-- A separator between two texts divides the parts. -/
theorem split_append_singleton_append (s t : String) (free : sep ∉ t.toList) :
    split sep (s ++ String.ofList [sep] ++ t) = split sep s ++ [t] := by
  rw [split, String.toList_append, String.toList_append, String.toList_ofList, List.append_assoc,
    List.singleton_append, splitAt_append_cons, splitAt_of_notMem free, List.map_append,
    List.map_singleton, String.ofList_toList, split]

/-- Between the separators there is none. -/
theorem notMem_of_mem_splitAt {cs part : List Char} (h : part ∈ splitAt sep cs) : sep ∉ part := by
  induction cs generalizing part with
  | nil =>
    obtain rfl := List.mem_singleton.mp h
    exact List.not_mem_nil
  | cons c cs ih =>
    obtain ⟨first, rest, parts⟩ := List.exists_cons_of_ne_nil (splitAt_ne_nil sep cs)
    by_cases hc : c = sep
    · rw [splitAt, if_pos hc, List.mem_cons] at h
      rcases h with rfl | h
      · exact List.not_mem_nil
      · exact ih h
    · rw [parts] at ih
      simp only [splitAt, if_neg hc, parts, List.mem_cons] at h
      rcases h with rfl | h
      · exact List.not_mem_cons_of_ne_of_not_mem (Ne.symm hc) (ih List.mem_cons_self)
      · exact ih (List.mem_cons_of_mem first h)

theorem notMem_of_mem_split {s part : String} (h : part ∈ split sep s) : sep ∉ part.toList := by
  obtain ⟨chars, mem, rfl⟩ := List.mem_map.mp h
  rw [String.toList_ofList]
  exact notMem_of_mem_splitAt mem

/-- Parts without separators are found again behind each other. -/
theorem split_intercalate {parts : List String} (several : parts ≠ [])
    (free : ∀ part ∈ parts, sep ∉ part.toList) :
    split sep ((String.ofList [sep]).intercalate parts) = parts := by
  induction parts using List.reverseRecOn with
  | nil => exact absurd rfl several
  | append_singleton parts part ih =>
    obtain ⟨others, last⟩ := List.forall_mem_append.mp free
    have last : sep ∉ part.toList := last part List.mem_cons_self
    by_cases first : parts = []
    · rw [first, List.nil_append, String.intercalate_singleton, split, splitAt_of_notMem last,
        List.map_singleton, String.ofList_toList]
    · rw [String.intercalate_append_of_ne_nil first (by simp), String.intercalate_singleton,
        split_append_singleton_append _ _ last, ih first others]

/-- The parts with the separator between them are the text that was split. -/
theorem intercalate_split (sep : Char) (s : String) :
    (String.ofList [sep]).intercalate (split sep s) = s := by
  rw [← String.toList_inj, String.toList_intercalate, split, List.map_map, String.toList_ofList]
  have same : String.toList ∘ String.ofList = id := funext fun _ => String.toList_ofList
  rw [same, List.map_id, intercalate_splitAt]

end

/-! ### Trimming -/

section

variable {cs front back : List Char}

/-- A character that is not blank is not among blank ones. -/
theorem notMem_of_isBlank {c : Char} (solid : isBlank c = false)
    (blank : ∀ d ∈ cs, isBlank d = true) : c ∉ cs := by
  intro mem
  rw [blank c mem] at solid
  cases solid

theorem dropBlank_append_of_isBlank (blank : ∀ c ∈ front, isBlank c = true) :
    dropBlank (front ++ cs) = dropBlank cs := by
  rw [dropBlank, List.dropWhile_append_of_pos blank, dropBlank]

theorem dropBlankEnd_append_of_isBlank (blank : ∀ c ∈ back, isBlank c = true) :
    dropBlankEnd (cs ++ back) = dropBlankEnd cs := by
  rw [dropBlankEnd, List.reverse_append, List.dropWhile_append_of_pos, dropBlankEnd]
  simpa using blank

theorem dropBlankEnd_of_getLast (last : ∀ c ∈ cs.getLast?, isBlank c = false) :
    dropBlankEnd cs = cs := by
  cases cs using List.reverseRecOn with
  | nil => rfl
  | append_singleton cs c =>
    have ends := last c (by simp)
    simp [dropBlankEnd, ends]

/-- The characters without the blank ones at either end. -/
def trimmed (cs : List Char) : List Char :=
  dropBlankEnd (dropBlank cs)

theorem toList_trim (s : String) : (trim s).toList = trimmed s.toList :=
  String.toList_ofList

theorem trimmed_of_forall (solid : ∀ c ∈ cs, isBlank c = false) : trimmed cs = cs := by
  have start : dropBlank cs = cs := by
    rw [dropBlank, List.dropWhile_eq_self_iff]
    intro nonempty
    simp [solid _ (List.getElem_mem nonempty)]
  rw [trimmed, start, dropBlankEnd_of_getLast fun c last => solid c (List.mem_of_getLast? last)]

/-- Only blank characters are trimmed away. -/
theorem exists_eq_append_trimmed (cs : List Char) :
    ∃ front back, (∀ c ∈ front, isBlank c = true) ∧ (∀ c ∈ back, isBlank c = true) ∧
      cs = front ++ trimmed cs ++ back := by
  refine ⟨cs.takeWhile isBlank, ((dropBlank cs).reverse.takeWhile isBlank).reverse,
    fun c mem => List.mem_takeWhile_imp mem, fun c mem => ?_, ?_⟩
  · exact List.mem_takeWhile_imp (List.mem_reverse.mp mem)
  · have middle : trimmed cs ++ ((dropBlank cs).reverse.takeWhile isBlank).reverse =
        dropBlank cs := by
      rw [trimmed, dropBlankEnd, ← List.reverse_append, List.takeWhile_append_dropWhile,
        List.reverse_reverse]
    rw [List.append_assoc, middle, dropBlank, List.takeWhile_append_dropWhile]

/-- Blank characters at the ends do not count. -/
theorem trimmed_append_append (blank : ∀ c ∈ front, isBlank c = true)
    (blank' : ∀ c ∈ back, isBlank c = true) : trimmed (front ++ cs ++ back) = trimmed cs := by
  rw [trimmed, trimmed, List.append_assoc, dropBlank_append_of_isBlank blank]
  by_cases all : ∀ c ∈ cs, isBlank c = true
  · have nothing : ∀ ds : List Char, (∀ c ∈ ds, isBlank c = true) → dropBlank ds = [] :=
      fun ds h => List.dropWhile_eq_nil_iff.mpr h
    rw [nothing cs all, nothing (cs ++ back) fun c mem => (List.mem_append.mp mem).elim (all c)
      (blank' c)]
  · have stops : dropBlank (cs ++ back) = dropBlank cs ++ back := by
      rw [dropBlank, List.dropWhile_append, if_neg, dropBlank]
      simpa [List.dropWhile_eq_nil_iff] using all
    rw [stops, dropBlankEnd_append_of_isBlank blank']

end

/-- **A text may be trimmed before it is split.** -/
theorem map_trimmed_splitAt_trimmed {sep : Char} (solid : isBlank sep = false) (cs : List Char) :
    (splitAt sep (trimmed cs)).map trimmed = (splitAt sep cs).map trimmed := by
  obtain ⟨front, back, blank, blank', whole⟩ := exists_eq_append_trimmed cs
  have none : ∀ c ∈ ([] : List Char), isBlank c = true := by simp
  obtain ⟨first, rest, split, split'⟩ :=
    exists_splitAt_append_left (notMem_of_isBlank solid blank) (trimmed cs)
  obtain ⟨others, last, splitting, splitting'⟩ :=
    exists_splitAt_append_right (notMem_of_isBlank solid blank') (front ++ trimmed cs)
  have start : trimmed (front ++ first) = trimmed first := by
    simpa using @trimmed_append_append first front [] blank none
  have ending : trimmed (last ++ back) = trimmed last := by
    simpa using @trimmed_append_append last [] back none blank'
  calc (splitAt sep (trimmed cs)).map trimmed
      = (splitAt sep (front ++ trimmed cs)).map trimmed := by
        rw [split, split', List.map_cons, List.map_cons, start]
    _ = (splitAt sep (front ++ trimmed cs ++ back)).map trimmed := by
        rw [splitting, splitting', List.map_append, List.map_append, List.map_singleton,
          List.map_singleton, ending]
    _ = (splitAt sep cs).map trimmed := by rw [← whole]

end JavaSource.Text
