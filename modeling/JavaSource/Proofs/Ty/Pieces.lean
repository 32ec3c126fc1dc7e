import JavaSource.Ty.Reader
import Mathlib.Data.List.Induction

/-!
# The pieces of a text

`Piece.Cuts cs ps` says, without a scanner, how the characters `cs` fall into the pieces `ps`: blank
characters, the seven marks, and longest runs of identifier characters. The three classes of
characters have no character in common, so a text is cut in one way at most, and the scanner finds
it (`Piece.ofChars?_eq_some_iff`).

Texts can be put together, `Piece.Cuts.append`, unless a word would run on from one into the other.
-/

namespace JavaSource

namespace Piece

/-! ### Cutting -/

/-- The marks and their characters. -/
def marks : List (Char × Piece) :=
  [('<', .openAngle), ('>', .closeAngle), (',', .comma), ('.', .dot), ('[', .openBracket),
   (']', .closeBracket), ('?', .question)]

/-- The characters `cs` fall into the pieces `ps`. -/
inductive Cuts : List Char → List Piece → Prop where
  | nil : Cuts [] []
  | blank {c : Char} {cs : List Char} {ps : List Piece} (isBlank : Text.isBlank c = true)
      (rest : Cuts cs ps) : Cuts (c :: cs) ps
  | mark {c : Char} {m : Piece} {cs : List Char} {ps : List Piece} (isMark : (c, m) ∈ marks)
      (rest : Cuts cs ps) : Cuts (c :: cs) (m :: ps)
  | word {w cs : List Char} {ps : List Piece} (nonempty : w ≠ [])
      (run : ∀ c ∈ w, isIdentifierPart c = true)
      (longest : ∀ c ∈ cs.head?, isIdentifierPart c = false) (rest : Cuts cs ps) :
      Cuts (w ++ cs) (.word w :: ps)

/-! ### The three classes of characters -/

theorem ofMark?_eq_some_iff {c : Char} {m : Piece} : ofMark? c = some m ↔ (c, m) ∈ marks := by
  constructor
  · intro h
    unfold ofMark? at h
    split at h <;> simp_all [marks]
  · intro h
    simp only [marks, List.mem_cons, Prod.mk.injEq, List.not_mem_nil, or_false] at h
    rcases h with ⟨rfl, rfl⟩ | ⟨rfl, rfl⟩ | ⟨rfl, rfl⟩ | ⟨rfl, rfl⟩ | ⟨rfl, rfl⟩ | ⟨rfl, rfl⟩ |
      ⟨rfl, rfl⟩ <;> rfl

/-- The blank characters one by one. -/
private def blanks : List Char :=
  [0x9, 0xA, 0xB, 0xC, 0xD, 0x20, 0x85, 0xA0, 0x1680, 0x2000, 0x2001, 0x2002, 0x2003, 0x2004,
    0x2005, 0x2006, 0x2007, 0x2008, 0x2009, 0x200A, 0x2028, 0x2029, 0x202F, 0x205F,
    0x3000].map Char.ofNat

private theorem mem_blanks {c : Char} (h : Text.isBlank c = true) : c ∈ blanks := by
  refine List.mem_map.mpr ⟨c.toNat, ?_, Char.ofNat_toNat c⟩
  simp only [Text.isBlank, Text.blankRanges, Text.inRanges, Bool.if_false_left, Bool.and_eq_true,
    Bool.or_eq_true, Bool.not_eq_true', decide_eq_true_eq, decide_eq_false_iff_not, Nat.not_lt,
    Bool.or_false] at h
  simp only [List.mem_cons, List.not_mem_nil, or_false]
  omega

theorem isIdentifierPart_of_isBlank {c : Char} (h : Text.isBlank c = true) :
    isIdentifierPart c = false := by
  have all : blanks.all (fun c => !isIdentifierPart c) = true := by decide +kernel
  simpa using List.all_eq_true.mp all c (mem_blanks h)

theorem not_isBlank_of_mark {c : Char} {m : Piece} (h : (c, m) ∈ marks) :
    Text.isBlank c = false := by
  have all : ∀ x ∈ marks, Text.isBlank x.1 = false := by decide
  exact all _ h

theorem isIdentifierPart_of_mark {c : Char} {m : Piece} (h : (c, m) ∈ marks) :
    isIdentifierPart c = false := by
  have all : ∀ x ∈ marks, isIdentifierPart x.1 = false := by decide
  exact all _ h

/-- An identifier character is neither blank nor a mark. -/
theorem of_isIdentifierPart {c : Char} (h : isIdentifierPart c = true) :
    Text.isBlank c = false ∧ ofMark? c = none := by
  refine ⟨?_, ?_⟩
  · rw [← Bool.not_eq_true]
    intro blank
    exact absurd h (Bool.eq_false_iff.mp (isIdentifierPart_of_isBlank blank))
  · rw [Option.eq_none_iff_forall_ne_some]
    intro m mark
    exact absurd h (Bool.eq_false_iff.mp (isIdentifierPart_of_mark (ofMark?_eq_some_iff.mp mark)))

/-! ### The scanner -/

section

variable {c : Char} {cs w : List Char} {ps : List Piece}

theorem ofChars?_blank (isBlank : Text.isBlank c = true) : ofChars? (c :: cs) = ofChars? cs := by
  rw [ofChars?]
  cases ofChars? cs with
  | none => rfl
  | some ps => simp [isBlank]

theorem ofChars?_mark {m : Piece} (isMark : (c, m) ∈ marks) (rest : ofChars? cs = some ps) :
    ofChars? (c :: cs) = some (m :: ps) := by
  simp [ofChars?, rest, not_isBlank_of_mark isMark, ofMark?_eq_some_iff.mpr isMark]

theorem ofChars?_identifierPart (part : isIdentifierPart c = true)
    (rest : ofChars? cs = some ps) :
    ofChars? (c :: cs) = some (extend c (cs.head?.any isIdentifierPart) ps) := by
  obtain ⟨notBlank, notMark⟩ := of_isIdentifierPart part
  simp [ofChars?, rest, notBlank, notMark, part]

theorem extend_apart (c : Char) (ps : List Piece) : extend c false ps = .word [c] :: ps := by
  cases ps with
  | nil => rfl
  | cons p ps => cases p <;> rfl

/-- A longest run of identifier characters is scanned as one word. -/
theorem ofChars?_word (nonempty : w ≠ []) (run : ∀ c ∈ w, isIdentifierPart c = true)
    (longest : ∀ c ∈ cs.head?, isIdentifierPart c = false) (rest : ofChars? cs = some ps) :
    ofChars? (w ++ cs) = some (.word w :: ps) := by
  -- From the last character of the run to the first: it starts a word, and the others join it.
  induction w with
  | nil => exact absurd rfl nonempty
  | cons c w ih =>
    have part : isIdentifierPart c = true := run c List.mem_cons_self
    cases w with
    | nil =>
      have apart : cs.head?.any isIdentifierPart = false := by
        simpa [Option.any_eq_false] using longest
      rw [List.singleton_append, ofChars?_identifierPart part rest, apart, extend_apart]
    | cons d w =>
      have tail := ih (by simp) fun e he => run e (List.mem_cons_of_mem c he)
      have adjacent : isIdentifierPart d = true := run d (by simp)
      rw [List.cons_append, ofChars?_identifierPart part tail]
      simp [extend, adjacent]

end

/-- The first piece of a text that starts with an identifier character is a word. -/
theorem Cuts.exists_word {c : Char} {cs : List Char} {ps : List Piece} (cuts : Cuts (c :: cs) ps)
    (part : isIdentifierPart c = true) :
    ∃ w rest qs, c :: cs = w ++ rest ∧ ps = .word w :: qs ∧ w ≠ [] ∧
      (∀ d ∈ w, isIdentifierPart d = true) ∧ (∀ d ∈ rest.head?, isIdentifierPart d = false) ∧
      Cuts rest qs := by
  obtain ⟨notBlank, notMark⟩ := of_isIdentifierPart part
  generalize full : c :: cs = text at cuts
  cases cuts with
  | nil => cases full
  | blank isBlank rest =>
    obtain ⟨rfl, rfl⟩ := List.cons.inj full
    rw [isBlank] at notBlank
    cases notBlank
  | mark isMark rest =>
    obtain ⟨rfl, rfl⟩ := List.cons.inj full
    rw [ofMark?_eq_some_iff.mpr isMark] at notMark
    cases notMark
  | word nonempty run longest rest => exact ⟨_, _, _, rfl, rfl, nonempty, run, longest, rest⟩

/-- An identifier character in front of a text joins the first word, or is a word of its own. -/
theorem Cuts.extend {c : Char} {cs : List Char} {ps : List Piece}
    (part : isIdentifierPart c = true) (cuts : Cuts cs ps) :
    Cuts (c :: cs) (extend c (cs.head?.any isIdentifierPart) ps) := by
  cases adjacent : cs.head?.any isIdentifierPart with
  | false =>
    rw [extend_apart]
    have longest : ∀ d ∈ cs.head?, isIdentifierPart d = false := by
      simpa [Option.any_eq_false] using adjacent
    exact .word (w := [c]) (by simp) (by simpa using part) longest cuts
  | true =>
    obtain ⟨d, head, next⟩ := (Option.any_eq_true _ _).mp adjacent
    obtain ⟨ds, rfl⟩ := List.head?_eq_some_iff.mp head
    obtain ⟨w, rest, qs, text, rfl, -, run, longest, behind⟩ := cuts.exists_word next
    rw [text]
    refine .word (w := c :: w) (by simp) (fun e he => ?_) longest behind
    rcases List.mem_cons.mp he with rfl | he
    · exact part
    · exact run e he

/-- What the scanner finds are the pieces of the text. -/
theorem cuts_of_ofChars? {cs : List Char} {ps : List Piece} (h : ofChars? cs = some ps) :
    Cuts cs ps := by
  induction cs generalizing ps with
  | nil =>
    obtain rfl : [] = ps := by simpa [ofChars?] using h
    exact .nil
  | cons c cs ih =>
    rw [ofChars?] at h
    cases scanned : ofChars? cs with
    | none => simp [scanned] at h
    | some qs =>
      have rest := ih scanned
      simp only [scanned] at h
      split at h
      · next isBlank =>
        obtain rfl := Option.some.inj h
        exact .blank isBlank rest
      split at h
      · next m isMark =>
        obtain rfl := Option.some.inj h
        exact .mark (ofMark?_eq_some_iff.mp isMark) rest
      split at h
      · next part =>
        obtain rfl := Option.some.inj h
        exact rest.extend part
      · cases h

/-- **The scanner finds exactly the pieces of a text.** -/
theorem ofChars?_eq_some_iff {cs : List Char} {ps : List Piece} :
    ofChars? cs = some ps ↔ Cuts cs ps := by
  refine ⟨cuts_of_ofChars?, fun cuts => ?_⟩
  induction cuts with
  | nil => rfl
  | blank isBlank rest ih => rw [ofChars?_blank isBlank, ih]
  | mark isMark rest ih => exact ofChars?_mark isMark ih
  | word nonempty run longest rest ih => exact ofChars?_word nonempty run longest ih

/-! ### Texts behind each other -/

private theorem getLast?_cons_of_mem {c e : Char} {cs : List Char} (h : e ∈ cs.getLast?) :
    e ∈ (c :: cs).getLast? := by
  rw [List.getLast?_cons, Option.mem_def.mp h]
  rfl

/-- Two texts behind each other have the pieces of both, unless a word runs on. -/
theorem Cuts.append {cs ds : List Char} {ps qs : List Piece} (left : Cuts cs ps)
    (right : Cuts ds qs)
    (apart : ∀ c ∈ cs.getLast?, ∀ d ∈ ds.head?, isIdentifierPart c = true →
      isIdentifierPart d = false) : Cuts (cs ++ ds) (ps ++ qs) := by
  induction left with
  | nil => exact right
  | @blank c cs ps isBlank rest ih =>
    exact .blank isBlank (ih fun e he => apart e (getLast?_cons_of_mem he))
  | @mark c m cs ps isMark rest ih =>
    exact .mark isMark (ih fun e he => apart e (getLast?_cons_of_mem he))
  | @word w cs ps nonempty run longest rest ih =>
    rw [List.append_assoc]
    cases cs with
    | nil =>
      -- The word is the end of the left text, so it stops because the right one does not go on.
      have last : w.getLast nonempty ∈ (w ++ []).getLast? := by
        simp [List.getLast?_eq_some_getLast nonempty]
      have stops := fun d hd => apart _ last d hd (run _ (List.getLast_mem nonempty))
      exact .word nonempty run stops (ih (by simp))
    | cons d cs =>
      refine .word nonempty run longest (ih fun e he => apart e ?_)
      rw [List.getLast?_append, Option.mem_def.mp he]
      rfl

theorem ofChars?_concat_blank {b : Char} (isBlank : Text.isBlank b = true) (cs : List Char) :
    ofChars? (cs ++ [b]) = ofChars? cs := by
  induction cs with
  | nil => exact ofChars?_blank isBlank
  | cons c cs ih =>
    -- A blank character at the end does not change which characters are next to each other.
    have adjacent : (cs ++ [b]).head?.any isIdentifierPart = cs.head?.any isIdentifierPart := by
      cases cs with
      | nil => simp [isIdentifierPart_of_isBlank isBlank]
      | cons d cs => rfl
    simp only [List.cons_append, ofChars?, ih, adjacent]

/-- Blank characters at the end do not count. -/
theorem ofChars?_dropBlankEnd (cs : List Char) : ofChars? (Text.dropBlankEnd cs) = ofChars? cs := by
  induction cs using List.reverseRecOn with
  | nil => rfl
  | append_singleton cs b ih =>
    by_cases isBlank : Text.isBlank b = true
    · rw [ofChars?_concat_blank isBlank, ← ih]
      simp [Text.dropBlankEnd, isBlank]
    · simp [Text.dropBlankEnd, isBlank]

end Piece

end JavaSource
