import JavaSource.Name.Reader
import JavaSource.Proofs.Name.Words
import JavaSource.Proofs.Text.Parts
import JavaSource.Proofs.Ty.Pieces
import Mathlib.Data.List.Basic

/-!
# Names and their texts

The text of a name is its words with dots between them, and no word has a dot or a blank character
in it. So the words are found again between the dots (`Name.parts_dotted`), and the text determines
the name. Conversely, a text is read as a name exactly if all its parts are identifiers, and the
parts are then the words of the name (`Name.exists_read_iff`, `Name.words_of_read`).
-/

namespace JavaSource

/-! ### Texts of names -/

/-- No character of an identifier is blank. -/
theorem SimpleName.isBlank_of_mem_token (n : SimpleName) {c : Char} (h : c ∈ n.token.toList) :
    Text.isBlank c = false :=
  (Piece.of_isIdentifierPart ((forall_isIdentifierPart n.valid).2 c h)).1

theorem SimpleName.trimmed_token (n : SimpleName) :
    Text.trimmed n.token.toList = n.token.toList :=
  Text.trimmed_of_forall fun _ => n.isBlank_of_mem_token

namespace Name

theorem dotted_simple (n : SimpleName) : (simple n).dotted = n.token :=
  String.intercalate_singleton

theorem dotted_qualified (h : Handle) (q : Name) (n : SimpleName) :
    (qualified h q n).dotted = q.dotted ++ "." ++ n.token := by
  rw [dotted, words_qualified, String.intercalate_append_of_ne_nil q.words_ne_nil (by simp),
    String.intercalate_singleton, dotted]

theorem toList_dotted_qualified (h : Handle) (q : Name) (n : SimpleName) :
    (qualified h q n).dotted.toList = q.dotted.toList ++ '.' :: n.token.toList := by
  rw [dotted_qualified]
  simp

/-- The words of a name stand between the dots of its text. -/
theorem splitAt_dotted (n : Name) :
    Text.splitAt '.' n.dotted.toList = n.words.map String.toList := by
  induction n with
  | simple n =>
    rw [dotted_simple, Text.splitAt_of_notMem (n.notMem_token (by decide)), words_simple,
      List.map_singleton]
  | qualified h q n ih =>
    rw [toList_dotted_qualified, Text.splitAt_append_cons, ih,
      Text.splitAt_of_notMem (n.notMem_token (by decide)), words_qualified, List.map_append,
      List.map_singleton]

theorem map_toList_parts (text : String) :
    (parts text).map String.toList = (Text.splitAt '.' text.toList).map Text.trimmed := by
  rw [parts, Text.split, List.map_map, List.map_map]
  refine List.map_congr_left fun cs _ => ?_
  rw [Function.comp_apply, Function.comp_apply, Text.toList_trim, String.toList_ofList]

/-- The parts of a text are compared by their characters. -/
theorem parts_eq_iff {text : String} {ws : List String} :
    parts text = ws ↔
      (Text.splitAt '.' text.toList).map Text.trimmed = ws.map String.toList := by
  rw [← map_toList_parts]
  exact ⟨congrArg _, fun same => List.map_injective_iff.mpr (fun _ _ => String.toList_inj.mp) same⟩

/-- **The parts of the text of a name are its words.** -/
theorem parts_dotted (n : Name) : parts n.dotted = n.words := by
  rw [parts_eq_iff, splitAt_dotted, List.map_map, words, List.map_map, List.map_map]
  exact List.map_congr_left fun s _ => s.trimmed_token

/-- **The text of a name determines its words.** -/
theorem dotted_inj {m n : Name} : m.dotted = n.dotted ↔ m.words = n.words := by
  constructor
  · intro same
    rw [← parts_dotted, same, parts_dotted]
  · intro same
    rw [dotted, dotted, same]

/-- Blank characters around the whole text do not count. -/
theorem parts_trim (text : String) : parts (Text.trim text) = parts text := by
  rw [parts_eq_iff, Text.toList_trim, Text.map_trimmed_splitAt_trimmed (by decide),
    map_toList_parts]

end Name

/-! ### Reading -/

theorem map_token_of_simpleNames {tokens : List String} {ns : List SimpleName}
    (h : simpleNames tokens = .ok ns) : ns.map SimpleName.token = tokens := by
  induction tokens generalizing ns with
  | nil =>
    cases h
    rfl
  | cons token tokens ih =>
    rw [simpleNames, SimpleName.ofToken] at h
    split at h
    · cases rest : simpleNames tokens with
      | error e =>
        rw [rest] at h
        cases h
      | ok ms =>
        rw [rest] at h
        cases h
        rw [List.map_cons, ih rest]
    · cases h

theorem exists_simpleNames {tokens : List String} (h : ∀ t ∈ tokens, isIdentifier t = true) :
    ∃ ns, simpleNames tokens = .ok ns := by
  induction tokens with
  | nil => exact ⟨[], rfl⟩
  | cons token tokens ih =>
    obtain ⟨ns, rest⟩ := ih fun t mem => h t (List.mem_cons_of_mem token mem)
    refine ⟨⟨none, token, h token List.mem_cons_self⟩ :: ns, ?_⟩
    rw [simpleNames, SimpleName.ofToken, dif_pos (h token List.mem_cons_self), rest]
    rfl

namespace Name

variable {text : String} {m n : Name}

theorem words_of_ofSegments? {ns : List SimpleName} (h : ofSegments? ns = some n) :
    n.words = ns.map SimpleName.token := by
  cases ns with
  | nil => cases h
  | cons s ns =>
    cases h
    rw [words_append, words_simple, List.singleton_append, List.map_cons]

/-- A blank text has one part, which is empty and so no identifier. -/
theorem simpleNames_parts_of_blank (blank : Text.trim text = "") :
    simpleNames (parts text) = .error (.invalidIdentifier "") := by
  have single : parts text = [""] := by
    rw [← parts_trim, blank]
    rfl
  rw [single]
  rfl

theorem read_eq_ok_iff_simpleNames :
    read text = .ok n ↔ ∃ ns, simpleNames (parts text) = .ok ns ∧ ofSegments? ns = some n := by
  rw [read, parts_trim]
  split
  · next blank => simp [simpleNames_parts_of_blank blank]
  · cases names : simpleNames (parts text) with
    | error e => simp [bind, Except.bind]
    | ok ns =>
      cases found : ofSegments? ns with
      | none => simp [found, bind, Except.bind]
      | some m => simp [found, bind, Except.bind, pure, Except.pure]

/-- A name that was read has the parts of the text as its words. -/
theorem words_of_read (h : read text = .ok n) : n.words = parts text := by
  obtain ⟨ns, names, segments⟩ := read_eq_ok_iff_simpleNames.mp h
  rw [words_of_ofSegments? segments, map_token_of_simpleNames names]

theorem isIdentifier_of_mem_words {w : String} (h : w ∈ n.words) : isIdentifier w = true := by
  obtain ⟨s, -, rfl⟩ := List.mem_map.mp h
  exact s.valid

/-- **A text is read as a name exactly if all its parts are identifiers.** -/
theorem exists_read_iff :
    (∃ n, read text = .ok n) ↔ ∀ p ∈ parts text, isIdentifier p = true := by
  constructor
  · rintro ⟨n, h⟩ p mem
    rw [← words_of_read h] at mem
    exact isIdentifier_of_mem_words mem
  · intro identifiers
    obtain ⟨ns, names⟩ := exists_simpleNames identifiers
    have several : ns ≠ [] := by
      rintro rfl
      have none := map_token_of_simpleNames names
      simp [parts, Text.split, Text.splitAt_ne_nil] at none
    obtain ⟨s, ns, rfl⟩ := List.exists_cons_of_ne_nil several
    exact ⟨_, read_eq_ok_iff_simpleNames.mpr ⟨_, names, rfl⟩⟩

/-- A text is read as a given name exactly if its parts are the words of the name. -/
theorem exists_read_same_iff : (∃ m, read text = .ok m ∧ m.Same n) ↔ parts text = n.words := by
  constructor
  · rintro ⟨m, h, same⟩
    rw [← words_of_read h, same_iff_words_eq.mp same]
  · intro words
    have identifiers : ∀ p ∈ parts text, isIdentifier p = true := by
      intro p mem
      rw [words] at mem
      exact isIdentifier_of_mem_words mem
    obtain ⟨m, h⟩ := exists_read_iff.mpr identifiers
    exact ⟨m, h, same_iff_words_eq.mpr (by rw [words_of_read h, words])⟩

end Name

end JavaSource
