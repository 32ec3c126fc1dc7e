/-!
# Splitting texts

`splitAt sep` cuts a list of characters at every occurrence of `sep`, so it gives one part more than
there are occurrences; joining the parts with `sep` between them gives the list back.
-/

namespace JavaSource.Text

/-- Parts with a separator between them: the first one, and the others behind a separator each. -/
theorem intercalate_cons {α : Type} (sep : α) (part : List α) (parts : List (List α)) :
    [sep].intercalate (part :: parts) = part ++ parts.flatMap (sep :: ·) := by
  induction parts generalizing part with
  | nil => simp [List.intercalate]
  | cons next parts ih =>
    have step : [sep].intercalate (part :: next :: parts) =
        part ++ sep :: [sep].intercalate (next :: parts) := by
      simp [List.intercalate]
    rw [step, ih next, List.flatMap_cons, List.cons_append]

/-- The parts of a list of characters between the occurrences of `sep`. -/
def splitAt (sep : Char) : List Char → List (List Char)
  | [] => [[]]
  | c :: cs =>
    if c = sep then [] :: splitAt sep cs
    else
      match splitAt sep cs with
      | [] => [[c]]
      | part :: parts => (c :: part) :: parts

/-- There is always a first part. -/
theorem splitAt_ne_nil (sep : Char) (cs : List Char) : splitAt sep cs ≠ [] := by
  cases cs with
  | nil => simp [splitAt]
  | cons c cs =>
    simp only [splitAt]
    split
    · simp
    · split <;> simp

/-- The parts with the separator between them are the characters that were split. -/
theorem intercalate_splitAt (sep : Char) (cs : List Char) :
    [sep].intercalate (splitAt sep cs) = cs := by
  induction cs with
  | nil => simp [splitAt, List.intercalate]
  | cons c cs ih =>
    obtain ⟨part, parts, h⟩ := List.exists_cons_of_ne_nil (splitAt_ne_nil sep cs)
    rw [h] at ih
    by_cases hc : c = sep
    · subst hc
      simp only [splitAt, if_true, h]
      cases parts <;> simp_all [List.intercalate, List.intersperse]
    · simp only [splitAt, hc, if_false, h]
      cases parts <;> simp_all [List.intercalate, List.intersperse]

/-- The parts of a text between the occurrences of `sep`. -/
def split (sep : Char) (s : String) : List String :=
  (splitAt sep s.toList).map String.ofList

end JavaSource.Text
