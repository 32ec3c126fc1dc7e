import JavaSource.Proofs.Name.Reading
import JavaSource.Proofs.Node.Erasure
import JavaSource.Proofs.Ty.Reading

/-!
# Plain names as types

There are two ways to read a dotted name: as a name, by splitting the text at the dots and trimming
the parts, and as a type, by cutting the text into pieces and reading the pieces one by one. The two
agree: a text is cut into words with dots between them exactly if the words are its trimmed parts
(`Name.cuts_pieces_iff`). Only the keyword of a basic type at the start is no name for the reader of
types (`Ty.read_named_iff_read_name`).
-/

namespace JavaSource

namespace Piece

/-! ### Words and dots -/

/-- A text without pieces is blank. -/
theorem Cuts.isBlank_of_nil {cs : List Char} (cuts : Cuts cs []) :
    ∀ c ∈ cs, Text.isBlank c = true := by
  generalize none : ([] : List Piece) = ps at cuts
  induction cuts with
  | nil => simp
  | blank isBlank _ ih =>
    intro c mem
    rcases List.mem_cons.mp mem with rfl | mem
    · exact isBlank
    · exact ih none c mem
  | mark => cases none
  | word => cases none

theorem cuts_blank_append {front cs : List Char} {ps : List Piece}
    (blank : ∀ c ∈ front, Text.isBlank c = true) (cuts : Cuts cs ps) : Cuts (front ++ cs) ps := by
  induction front with
  | nil => exact cuts
  | cons c front ih =>
    exact .blank (blank c List.mem_cons_self) (ih fun d mem => blank d (List.mem_cons_of_mem c mem))

/-- A text with one word has blank characters around it and nothing else. -/
theorem Cuts.exists_of_word {cs w : List Char} (cuts : Cuts cs [.word w]) :
    ∃ front back, cs = front ++ w ++ back ∧ (∀ c ∈ front, Text.isBlank c = true) ∧
      ∀ c ∈ back, Text.isBlank c = true := by
  generalize single : [Piece.word w] = ps at cuts
  induction cuts with
  | nil => cases single
  | @blank c cs ps isBlank rest ih =>
    obtain ⟨front, back, rfl, blank, blank'⟩ := ih single
    refine ⟨c :: front, back, rfl, fun d mem => ?_, blank'⟩
    rcases List.mem_cons.mp mem with rfl | mem
    · exact isBlank
    · exact blank d mem
  | mark isMark =>
    cases single
    simp [marks] at isMark
  | @word v cs ps nonempty run longest rest ih =>
    cases single
    exact ⟨[], cs, rfl, by simp, rest.isBlank_of_nil⟩

/-- A dot divides the pieces into those before and those behind it. -/
theorem cuts_append_dot_iff {cs : List Char} {ps qs : List Piece} :
    Cuts cs (ps ++ .dot :: qs) ↔
      ∃ front back, cs = front ++ '.' :: back ∧ Cuts front ps ∧ Cuts back qs := by
  have dot : ('.', Piece.dot) ∈ marks := by decide
  constructor
  · intro cuts
    generalize whole : ps ++ .dot :: qs = rs at cuts
    induction cuts generalizing ps with
    | nil => simp at whole
    | @blank c cs rs isBlank _ ih =>
      obtain ⟨front, back, rfl, before, behind⟩ := ih whole
      exact ⟨c :: front, back, rfl, .blank isBlank before, behind⟩
    | @mark c m cs rs isMark rest ih =>
      rcases List.append_eq_cons_iff.mp whole with ⟨rfl, first⟩ | ⟨ps, rfl, more⟩
      · obtain ⟨rfl, rfl⟩ := List.cons.inj first
        have char : c = '.' := by simpa [marks] using isMark
        exact ⟨[], cs, by rw [char, List.nil_append], .nil, rest⟩
      · obtain ⟨front, back, rfl, before, behind⟩ := ih more.symm
        exact ⟨c :: front, back, rfl, .mark isMark before, behind⟩
    | @word w cs rs nonempty run longest _ ih =>
      rcases List.append_eq_cons_iff.mp whole with ⟨-, first⟩ | ⟨ps, rfl, more⟩
      · cases first
      · obtain ⟨front, back, rfl, before, behind⟩ := ih more.symm
        refine ⟨w ++ front, back, by rw [List.append_assoc], ?_, behind⟩
        refine .word nonempty run (fun c head => longest c ?_) before
        rw [List.head?_append, Option.mem_def.mp head, Option.some_or]
        rfl
  · rintro ⟨front, back, rfl, before, behind⟩
    refine before.append (.mark dot behind) fun c _ d head _ => ?_
    obtain rfl : '.' = d := by simpa using head
    exact isIdentifierPart_of_mark dot

end Piece

/-! ### The pieces of a name -/

open Piece (Cuts)

/-- A text is cut into one word exactly if the word is left when it is trimmed. -/
theorem SimpleName.cuts_token_iff (n : SimpleName) {cs : List Char} :
    Cuts cs [.word n.token.toList] ↔ Text.trimmed cs = n.token.toList := by
  constructor
  · intro cuts
    obtain ⟨front, back, rfl, blank, blank'⟩ := cuts.exists_of_word
    rw [Text.trimmed_append_append blank blank', n.trimmed_token]
  · intro trimmed
    obtain ⟨front, back, blank, blank', whole⟩ := Text.exists_eq_append_trimmed cs
    obtain ⟨nonempty, run⟩ := forall_isIdentifierPart n.valid
    rw [whole, trimmed, List.append_assoc]
    have rest : Cuts back [] := by simpa using Piece.cuts_blank_append blank' .nil
    refine Piece.cuts_blank_append blank (.word nonempty run (fun c head => ?_) rest)
    exact Piece.isIdentifierPart_of_isBlank (blank' c (List.mem_of_head? head))

/-- Around one word there is no dot. -/
theorem SimpleName.dot_notMem_of_cuts (n : SimpleName) {cs : List Char}
    (cuts : Cuts cs [.word n.token.toList]) : '.' ∉ cs := by
  obtain ⟨front, back, rfl, blank, blank'⟩ := cuts.exists_of_word
  have solid : Text.isBlank '.' = false := by decide
  have word : '.' ∉ n.token.toList := n.notMem_token (by decide)
  simp only [List.mem_append, not_or]
  exact ⟨⟨Text.notMem_of_isBlank solid blank, word⟩, Text.notMem_of_isBlank solid blank'⟩

namespace Name

/-- The pieces of a name: its words, with dots between them. -/
def pieces : Name → List Piece
  | .simple n => [.word n.token.toList]
  | .qualified _ q n => q.pieces ++ [.dot, .word n.token.toList]

theorem words_erased (n : Name) : n.erased.words = n.words := by
  induction n with
  | simple n => rfl
  | qualified h q n ih =>
    rw [erased, words_qualified, words_qualified, ih]
    rfl

/-- **A text is cut into the pieces of a name exactly if its parts are the words of the name.** -/
theorem cuts_pieces_iff (n : Name) {cs : List Char} :
    Cuts cs n.pieces ↔ (Text.splitAt '.' cs).map Text.trimmed = n.words.map String.toList := by
  induction n generalizing cs with
  | simple n =>
    rw [pieces, words_simple, List.map_singleton]
    constructor
    · intro cuts
      rw [Text.splitAt_of_notMem (n.dot_notMem_of_cuts cuts), List.map_singleton,
        n.cuts_token_iff.mp cuts]
    · intro split
      obtain ⟨part, single, trimmed⟩ := List.map_eq_singleton_iff.mp split
      have whole := Text.intercalate_splitAt '.' cs
      rw [single] at whole
      rw [n.cuts_token_iff, ← trimmed, ← whole]
      simp
  | qualified h q n ih =>
    have several : q.words.map String.toList ≠ [] := by simpa using q.words_ne_nil
    rw [pieces, Piece.cuts_append_dot_iff, words_qualified, List.map_append, List.map_singleton]
    constructor
    · rintro ⟨front, back, rfl, before, behind⟩
      rw [Text.splitAt_append_cons, Text.splitAt_of_notMem (n.dot_notMem_of_cuts behind),
        List.map_append, List.map_singleton, ih.mp before, n.cuts_token_iff.mp behind]
    · intro split
      obtain ⟨parts, last, parted, before, behind⟩ := List.map_eq_append_iff.mp split
      obtain ⟨back, rfl, trimmed⟩ := List.map_eq_singleton_iff.mp behind
      have nonempty : parts ≠ [] := by
        rintro rfl
        exact several before.symm
      obtain ⟨front, rfl, rfl, -⟩ := (Text.splitAt_eq_append_singleton_iff nonempty).mp parted
      exact ⟨front, back, rfl, ih.mpr before, n.cuts_token_iff.mpr trimmed⟩

end Name

/-! ### Names among the types -/

namespace TypeGrammar

/-- A dotted name is given by its pieces, and its first word is no keyword of a basic type. -/
theorem Dotted.eq_pieces {ps : List Piece} {n : Name} (h : Dotted ps n) :
    ps = n.pieces ∧ ∀ k : BasicTypeKind, n.words.head? ≠ some k.keyword := by
  induction h with
  | @simple w identifier notBasic =>
    refine ⟨by rw [Name.pieces, String.toList_ofList], fun k head => notBasic k ?_⟩
    simpa using head
  | @qualified ps n w qualifier identifier ih =>
    refine ⟨by rw [Name.pieces, ih.1, String.toList_ofList], fun k => ?_⟩
    rw [Name.words_qualified, List.head?_append_of_ne_nil _ n.words_ne_nil]
    exact ih.2 k

/-- The pieces of a name that does not start with the keyword of a basic type are a dotted name. -/
theorem dotted_erased (n : Name) (notBasic : ∀ k : BasicTypeKind, n.words.head? ≠ some k.keyword) :
    Dotted n.pieces n.erased := by
  have token : ∀ n : SimpleName, String.ofList n.token.toList = n.token :=
    fun n => String.ofList_toList
  have identifier : ∀ n : SimpleName, isIdentifier (String.ofList n.token.toList) = true :=
    fun n => by rw [token, n.valid]
  induction n with
  | simple n =>
    have name := Dotted.simple (identifier n) fun k spelled => notBasic k (by
      rw [Name.words_simple, ← spelled, token]
      rfl)
    simp only [token] at name
    exact name
  | qualified h q n ih =>
    have front : ∀ k : BasicTypeKind, q.words.head? ≠ some k.keyword := fun k head => notBasic k (by
      rw [Name.words_qualified, List.head?_append_of_ne_nil _ q.words_ne_nil, head])
    have name := (ih front).qualified (identifier n)
    simp only [token] at name
    exact name

/-- Only dotted names derive as named types. -/
theorem Derives.dotted_of_named {ps : List Piece} {t : NamedType}
    (h : Derives .type ps (.named t)) : Dotted ps t.name := by
  have brackets := h.of_not_isWildcard rfl
  generalize named : Ty.named t = u at brackets
  cases brackets with
  | array => cases named
  | element whole =>
    cases whole with
    | basic => cases named
    | named name =>
      cases named
      exact name
    | generic whole => cases whole <;> cases named

end TypeGrammar

namespace Ty

/-- A text is read as a named type exactly if its parts are the words of the name, and the first of
them is no keyword of a basic type. -/
theorem exists_read_named_iff {text : String} {n : Name} :
    (∃ h m, read text = .ok (.named ⟨h, m⟩) ∧ m.Same n) ↔
      Name.parts text = n.words ∧ ∀ k : BasicTypeKind, n.words.head? ≠ some k.keyword := by
  constructor
  · rintro ⟨h, m, taken, same⟩
    obtain ⟨ps, cuts, derives⟩ := derives_of_read taken
    obtain ⟨rfl, notBasic⟩ := derives.dotted_of_named.eq_pieces
    rw [← Name.same_iff_words_eq.mp same]
    exact ⟨Name.parts_eq_iff.mpr (m.cuts_pieces_iff.mp cuts), notBasic⟩
  · rintro ⟨parts, notBasic⟩
    have cuts := n.cuts_pieces_iff.mpr (Name.parts_eq_iff.mp parts)
    have derives := TypeGrammar.Derives.named (TypeGrammar.dotted_erased n notBasic)
    refine ⟨none, n.erased, read_of_derives cuts (.brackets (.element derives)), ?_⟩
    exact Name.same_iff_words_eq.mpr n.words_erased

/-- **The two readers agree on plain names**: a text is read as the type with a given name exactly
if it is read as this name, and the name does not start with the keyword of a basic type. -/
theorem read_named_iff_read_name (text : String) (n : Name) :
    (∃ h m, read text = .ok (.named ⟨h, m⟩) ∧ m.Same n) ↔
      ∃ m, Name.read text = .ok m ∧ m.Same n ∧
        ∀ k : BasicTypeKind, m.words.head? ≠ some k.keyword := by
  rw [exists_read_named_iff, ← Name.exists_read_same_iff]
  constructor
  · rintro ⟨⟨m, taken, same⟩, notBasic⟩
    rw [← Name.same_iff_words_eq.mp same] at notBasic
    exact ⟨m, taken, same, notBasic⟩
  · rintro ⟨m, taken, same, notBasic⟩
    rw [Name.same_iff_words_eq.mp same] at notBasic
    exact ⟨⟨m, taken, same⟩, notBasic⟩

end Ty

end JavaSource
