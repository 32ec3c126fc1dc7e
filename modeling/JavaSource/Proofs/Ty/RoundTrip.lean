import JavaSource.Node
import JavaSource.Proofs.Emission.Agreement
import JavaSource.Proofs.Ty.Reading
import JavaSource.Text.Split
import Mathlib.Data.List.Forall2

/-!
# Types read back from their text

Three parts of the library have to agree for a type to come back from its text: the tokens of a
type, the layout, which decides where a space is written, and the reader.

* `Token.Spells` relates a token to the piece that its text is read as. The tokens of a derived type
  spell the pieces it was derived from (`TypeGrammar.Derives.spells_emit`).
* The layout of tokens that spell pieces is a text that is cut into these pieces
  (`Layout.cuts_of_spells`): it separates words that would run together, and nothing else matters to
  the reader.
-/

namespace JavaSource

/-! ### Tokens that are read as pieces -/

/-- The text of the token is read as the piece. -/
inductive Token.Spells : Token → Piece → Prop where
  | word {w : List Char} (nonempty : w ≠ []) (run : ∀ c ∈ w, isIdentifierPart c = true) :
      Spells (.word (String.ofList w)) (.word w)
  | question : Spells (.word "?") .question
  | openAngle : Spells (.mark .openAngle) .openAngle
  | closeAngle : Spells (.mark .closeAngle) .closeAngle
  | openBracket : Spells (.mark .openBracket) .openBracket
  | closeBracket : Spells (.mark .closeBracket) .closeBracket
  | dot : Spells (.mark .dot) .dot
  | comma : Spells .comma .comma

/-- Several tokens spell several pieces, one each. -/
abbrev SpellsEach (ts : List Token) (ps : List Piece) : Prop :=
  List.Forall₂ Token.Spells ts ps

/-! ### Layout -/

namespace Layout

/-- The state of a layout that has written nothing but pieces: they are all on the first line, and
a word is at its end only if the last token was a word. -/
structure Wrote (s : State) (ps : List Piece) : Prop where
  out_eq : s.out = ""
  depth_eq : s.depth = 0
  cuts : Piece.Cuts s.line.toList ps
  apart : s.previous ≠ .word → ∀ c ∈ s.line.toList.getLast?, isIdentifierPart c = false

theorem wrote_nil : Wrote {} [] where
  out_eq := rfl
  depth_eq := rfl
  cuts := .nil
  apart := by simp

section

variable {s : State} {ps qs : List Piece}

/-- Nothing is indented at the margin. -/
theorem State.line_write (margin : s.depth = 0) (indent text : String) :
    (s.write indent text).line = s.line ++ text := by
  unfold State.write
  split
  · next empty => simp [margin, empty, String.join]
  · rfl

/-- A space at the end is no piece, and no word runs on behind it. -/
theorem Wrote.addSpace (wrote : Wrote s ps) :
    Wrote s.addSpace ps ∧ ∀ c ∈ s.addSpace.line.toList.getLast?, isIdentifierPart c = false := by
  have blank : Text.isBlank ' ' = true := by decide
  have noPart : isIdentifierPart ' ' = false := Piece.isIdentifierPart_of_isBlank blank
  unfold State.addSpace
  split
  · next spaced =>
    have ends : ∀ c ∈ s.line.toList.getLast?, isIdentifierPart c = false := by
      rcases spaced with empty | last
      · simp [empty]
      · simp [last, noPart]
    exact ⟨wrote, ends⟩
  · have ends : ∀ c ∈ (s.line ++ " ").toList.getLast?, isIdentifierPart c = false := by
      simp [noPart]
    have cuts : Piece.Cuts (s.line ++ " ").toList ps := by
      have scanned := Piece.ofChars?_concat_blank blank s.line.toList
      rw [Piece.ofChars?_eq_some_iff.mpr wrote.cuts] at scanned
      exact Piece.ofChars?_eq_some_iff.mp (by simpa using scanned)
    exact ⟨⟨wrote.out_eq, wrote.depth_eq, cuts, fun _ => ends⟩, ends⟩

/-- More pieces can be written if no word runs on: a space is put in front, the last token was no
word, or the text does not start with a word. -/
theorem Wrote.writeApart (wrote : Wrote s ps) {apart : Bool} {text : String} {previous : Previous}
    (indent : String) (cuts : Piece.Cuts text.toList qs)
    (start : apart = true ∨ s.previous ≠ .word ∨
      ∀ c ∈ text.toList.head?, isIdentifierPart c = false)
    (ending : previous ≠ .word →
      ∃ c, text.toList.getLast? = some c ∧ isIdentifierPart c = false) :
    Wrote (s.writeApart indent apart text previous) (ps ++ qs) := by
  have base : Wrote (if apart then s.addSpace else s) ps ∧
      ((∀ c ∈ (if apart then s.addSpace else s).line.toList.getLast?, isIdentifierPart c = false) ∨
        ∀ c ∈ text.toList.head?, isIdentifierPart c = false) := by
    cases apart with
    | true => exact ⟨wrote.addSpace.1, .inl wrote.addSpace.2⟩
    | false =>
      refine ⟨wrote, ?_⟩
      rcases start with h | h | h
      · cases h
      · exact .inl (wrote.apart h)
      · exact .inr h
  -- From here on only the state with or without the space counts, not which of the two it is.
  rw [State.writeApart]
  generalize (if apart then s.addSpace else s) = b at base
  obtain ⟨⟨out_eq, depth_eq, before, -⟩, separated⟩ := base
  have line : (b.write indent text).line = b.line ++ text := State.line_write depth_eq indent text
  refine ⟨out_eq, depth_eq, ?_, fun noWord => ?_⟩
  · rw [line, String.toList_append]
    refine before.append cuts fun c hc d hd part => ?_
    rcases separated with ended | starts
    · rw [ended c hc] at part
      cases part
    · exact starts d hd
  · obtain ⟨c, last, noPart⟩ := ending noWord
    rw [line, String.toList_append, List.getLast?_append, last]
    simpa using noPart

theorem Wrote.step_word (wrote : Wrote s ps) (o : Options) {text : String} {p : Piece}
    (cuts : Piece.Cuts text.toList [p]) :
    ∃ s', step o s (.word text) = .ok s' ∧ Wrote s' (ps ++ [p]) := by
  refine ⟨_, rfl, wrote.writeApart o.indent cuts ?_ fun noWord => absurd rfl noWord⟩
  by_cases behindWord : s.previous = .word
  · exact .inl (by rw [behindWord]; rfl)
  · exact .inr (.inl behindWord)

theorem Wrote.step_mark (wrote : Wrote s ps) (o : Options) {m : Mark} {c : Char} {p : Piece}
    (spelling : m.spelling.toList = [c]) (isMark : (c, p) ∈ Piece.marks) :
    ∃ s', step o s (.mark m) = .ok s' ∧ Wrote s' (ps ++ [p]) := by
  have noPart : isIdentifierPart c = false := Piece.isIdentifierPart_of_mark isMark
  have cuts : Piece.Cuts m.spelling.toList [p] := by
    rw [spelling]
    exact .mark isMark .nil
  refine ⟨_, rfl, wrote.writeApart o.indent cuts (.inr (.inr ?_)) fun _ => ⟨c, ?_, noPart⟩⟩
  · simp [spelling, noPart]
  · simp [spelling]

theorem Wrote.step_comma (wrote : Wrote s ps) (o : Options) :
    ∃ s', step o s .comma = .ok s' ∧ Wrote s' (ps ++ [Piece.comma]) := by
  have isMark : (',', Piece.comma) ∈ Piece.marks := by decide
  have blank : Text.isBlank ' ' = true := by decide
  have cuts : Piece.Cuts ", ".toList [.comma] := .mark isMark (.blank blank .nil)
  refine ⟨_, rfl, wrote.writeApart o.indent cuts (.inr (.inr ?_)) fun _ => ⟨' ', ?_, ?_⟩⟩
  · simp [Piece.isIdentifierPart_of_mark isMark]
  · rfl
  · exact Piece.isIdentifierPart_of_isBlank blank

/-- **One token writes one piece.** -/
theorem Wrote.step (wrote : Wrote s ps) (o : Options) {t : Token} {p : Piece}
    (spells : t.Spells p) : ∃ s', step o s t = .ok s' ∧ Wrote s' (ps ++ [p]) := by
  cases spells with
  | @word w nonempty run =>
    have cuts : Piece.Cuts (w ++ []) [.word w] := .word nonempty run (by simp) .nil
    exact wrote.step_word o (by simpa using cuts)
  | question => exact wrote.step_word o (.mark (by decide) .nil)
  | openAngle => exact wrote.step_mark o rfl (by decide)
  | closeAngle => exact wrote.step_mark o rfl (by decide)
  | openBracket => exact wrote.step_mark o rfl (by decide)
  | closeBracket => exact wrote.step_mark o rfl (by decide)
  | dot => exact wrote.step_mark o rfl (by decide)
  | comma => exact wrote.step_comma o

theorem Wrote.run (wrote : Wrote s ps) (o : Options) {ts : List Token} {qs : List Piece}
    (spells : SpellsEach ts qs) : ∃ s', run o s ts = .ok s' ∧ Wrote s' (ps ++ qs) := by
  induction spells generalizing s ps with
  | nil => exact ⟨s, rfl, by simpa using wrote⟩
  | @cons t p ts qs first rest ih =>
    obtain ⟨s', stepped, wrote'⟩ := wrote.step o first
    obtain ⟨s'', ran, wrote''⟩ := ih wrote'
    exact ⟨s'', by rw [Layout.run, stepped]; exact ran, by simpa using wrote''⟩

end

/-- **The layout of tokens that spell pieces is a text with these pieces.** -/
theorem cuts_of_spells (o : Options) {ts : List Token} {ps : List Piece}
    (spells : SpellsEach ts ps) : ∃ text, layout o ts = .ok text ∧ Piece.Cuts text.toList ps := by
  obtain ⟨s, ran, wrote⟩ := wrote_nil.run o spells
  -- All pieces are on the first line, and blanks at its end are trimmed away.
  refine ⟨Text.trimEnd s.line, ?_, ?_⟩
  · simp [layout, ran, finish, wrote.depth_eq, wrote.out_eq]
  · rw [Text.trimEnd, String.toList_ofList, ← Piece.ofChars?_eq_some_iff,
      Piece.ofChars?_dropBlankEnd]
    exact Piece.ofChars?_eq_some_iff.mpr wrote.cuts

end Layout

/-! ### The tokens of a type -/

/-- An identifier spells a word. -/
theorem Token.spells_word {w : List Char} (identifier : isIdentifier (String.ofList w) = true) :
    Token.Spells (.word (String.ofList w)) (.word w) := by
  rw [isIdentifier, String.toList_ofList] at identifier
  obtain ⟨nonempty, run⟩ := forall_isIdentifierPart identifier
  exact .word nonempty run

theorem BasicTypeKind.isIdentifier_keyword (k : BasicTypeKind) : isIdentifier k.keyword = true := by
  cases k <;> decide

theorem WildcardBoundKind.isIdentifier_of_keyword {d : WildcardBoundKind} {s : String}
    (keyword : d.keyword = some s) : isIdentifier s = true := by
  cases d <;> cases keyword <;> decide

namespace TypeGrammar

variable {x : EmitContext}

theorem Dotted.spells_emit (bare : x.attached none .inline = []) {ps : List Piece} {n : Name}
    (h : Dotted ps n) : SpellsEach (n.emit x) ps := by
  induction h with
  | simple identifier _ =>
    simpa [Name.emit, SimpleName.emit, bare] using Token.spells_word identifier
  | qualified _ identifier ih =>
    rw [Name.emit, SimpleName.emit, bare, List.nil_append]
    exact List.rel_append ih (.cons .dot (.cons (Token.spells_word identifier) .nil))

/-- Lists of tokens with commas between them spell pieces with commas between them. -/
theorem spells_angled {first : List Piece × Ty} {rest : List (List Piece × Ty)}
    (each : ∀ a ∈ first :: rest, SpellsEach (a.2.emit x) a.1) :
    SpellsEach (angled (first.2.emit x :: Ty.emitEach x (rest.map Prod.snd)))
      (anglePieces first.1 (rest.map Prod.fst)) := by
  have others : SpellsEach (((rest.map Prod.snd).map (Ty.emit x)).flatMap (.comma :: ·))
      ((rest.map Prod.fst).flatMap (.comma :: ·)) := by
    refine List.rel_flatMap ?_ fun _ _ spells => .cons .comma spells
    rw [List.map_map, List.forall₂_map_left_iff, List.forall₂_map_right_iff,
      List.forall₂_same]
    exact fun a ha => each a (List.mem_cons_of_mem _ ha)
  have inside := List.rel_append (each first List.mem_cons_self) others
  rw [Ty.emitEach_eq_map, angled.eq_2 _ (List.cons_ne_nil _ _), commaSeparated,
    Text.intercalate_cons, anglePieces]
  exact List.rel_append (.cons .openAngle inside) (.cons .closeAngle .nil)

/-- **The tokens of a derived type spell the pieces that it was derived from.** -/
theorem Derives.spells_emit (bare : x.attached none .inline = []) {s : Symbol} {ps : List Piece}
    {t : Ty} (h : Derives s ps t) : SpellsEach (t.emit x) ps := by
  induction h with
  | wildcard _ ih => exact ih
  | brackets _ ih => exact ih
  | unbound =>
    rw [Ty.emit, bare, List.nil_append]
    exact .cons .question .nil
  | bounded keyword _ ih =>
    rw [Ty.emit, bare, List.nil_append, keyword]
    have identifier := WildcardBoundKind.isIdentifier_of_keyword keyword
    exact .cons .question (.cons (Token.spells_word identifier) ih)
  | element _ ih => exact ih
  | array _ ih =>
    rw [Ty.emit, bare, List.nil_append]
    exact List.rel_append ih (.cons .openBracket (.cons .closeBracket .nil))
  | basic k =>
    have identifier : isIdentifier (String.ofList k.keyword.toList) = true := by
      rw [String.ofList_toList, k.isIdentifier_keyword]
    have spells := Token.spells_word identifier
    rw [String.ofList_toList] at spells
    rw [Ty.emit, bare, List.nil_append]
    exact .cons spells .nil
  | named name =>
    rw [Ty.emit, NamedType.emit, bare, List.nil_append]
    exact name.spells_emit bare
  | generic _ ih => exact ih
  | applied base _ each =>
    rw [Ty.emit, bare, List.nil_append, Ty.emit, NamedType.emit, bare, List.nil_append]
    exact List.rel_append (base.spells_emit bare) (spells_angled each)
  | again _ _ ih each =>
    rw [Ty.emit, bare, List.nil_append]
    exact List.rel_append ih (spells_angled each)
  | member _ identifier ih =>
    rw [Ty.emit, SimpleName.emit, bare, List.nil_append]
    exact List.rel_append ih (.cons .dot (.cons (Token.spells_word identifier) .nil))

end TypeGrammar

/-! ### Reading undoes rendering -/

/-- Nothing is attached to nodes without a handle. -/
theorem Notes.attached_none (notes : Notes) (depth : Nat) (place : Placement) :
    notes.attached depth none place = [] :=
  Notes.attached_of_isEmpty rfl depth place

namespace Ty

open TypeGrammar (Derives Dotted)

/-- A type that was read has a text, and reading this text gives the type again. -/
theorem exists_render_of_read (notes : Notes) (o : Options) {text : String} {t : Ty}
    (h : read text = .ok t) :
    ∃ out, (Node.type t).render notes o = .ok out ∧ read out = .ok t := by
  obtain ⟨ps, -, derives⟩ := derives_of_read h
  have spells : SpellsEach (t.emit (notes.context o.blankLines)) ps :=
    derives.spells_emit (notes.attached_none _ .inline)
  obtain ⟨out, rendered, cuts⟩ := Layout.cuts_of_spells o spells
  exact ⟨out, rendered, read_of_derives cuts derives⟩

/-- **Reading undoes rendering**: a type that was read has a text, reading this text gives the type
again, and no other type that was read has the same text. -/
theorem read_render (notes : Notes) (o : Options) {text : String} {t : Ty}
    (h : read text = .ok t) :
    ∃ out, (Node.type t).render notes o = .ok out ∧ read out = .ok t ∧
      ∀ text' t', read text' = .ok t' → (Node.type t').render notes o = .ok out → t' = t := by
  obtain ⟨out, rendered, again⟩ := exists_render_of_read notes o h
  refine ⟨out, rendered, again, fun text' t' h' rendered' => ?_⟩
  obtain ⟨out', renders, again'⟩ := exists_render_of_read notes o h'
  obtain rfl : out' = out := Except.ok.inj (renders.symm.trans rendered')
  exact Except.ok.inj (again'.symm.trans again)

/-- A member of a generic type whose argument is bounded by an array, with blanks around the
pieces. -/
theorem read_render_nested :
    ∃ t out, read " A < ?super B[ ] > . C " = .ok t ∧ (Node.type t).render {} {} = .ok out ∧
      read out = .ok t := by
  have outer : Dotted [.word ['A']] _ :=
    .simple (by decide) (by intro k; cases k <;> decide)
  have component : Dotted [.word ['B']] _ :=
    .simple (by decide) (by intro k; cases k <;> decide)
  have bound := Derives.brackets (.array (.element (.named component)))
  have argument := Derives.wildcard
    (.bounded (d := .lowerBounded) (w := ['s', 'u', 'p', 'e', 'r']) (by decide) bound)
  have applied := @Derives.applied _ _ (_, _) [] outer (List.forall_mem_singleton.mpr argument)
  have member := Derives.member (w := ['C']) applied (by decide)
  have h : read " A < ?super B[ ] > . C " = .ok _ :=
    read_of_derives (Piece.ofChars?_eq_some_iff.mp rfl) (.brackets (.element (.generic member)))
  obtain ⟨out, rendered, again, -⟩ := read_render {} {} h
  exact ⟨_, out, h, rendered, again⟩

end Ty

end JavaSource
