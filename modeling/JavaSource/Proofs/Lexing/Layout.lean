import JavaSource.Layout
import JavaSource.Proofs.Expression.Unambiguity
import JavaSource.Proofs.Lexing.Lexeme
import JavaSource.Proofs.Text.Parts

/-!
# The lexemes of a layout

The layout writes some tokens directly behind each other. `Edge.run` reads tokens and keeps what the
last one allows to follow, and it fails where two tokens would be read as one or be cut differently:
a point behind a number, a number behind a point, two colons, a sign in front of an increment. All
other neighbours are safe, since the layout sets them apart or no lexeme goes on from one into the
other. The text of tokens on which `Edge.run` succeeds is cut into exactly the lexemes that the
tokens spell (`Layout.lexes_of_run`).

* `Covers cs ls fits` is the invariant of the written text: it is cut into `ls` whatever follows, if
  only the next character fits.
* `Layout.Laid` states it of a layout in progress, for the current line and for the line with its
  blank end cut off.
-/

namespace JavaSource

/-! ### Texts that go on -/

/-- In front of a text that starts with a fitting character, the characters `cs` are cut into the
lexemes `ls`. -/
def Covers (cs : List Char) (ls : List String) (fits : Char → Prop) : Prop :=
  ∀ ds ms, Lexes ds ms → (∀ c ∈ ds.head?, fits c) → Lexes (cs ++ ds) (ls ++ ms)

/-- The character may follow directly, if `last` is the lexeme at the very end of a text. -/
def Behind (last : Option (List Char)) (c : Char) : Prop :=
  ∀ l ∈ last, Apart l c

@[simp] theorem behind_none (c : Char) : Behind none c := by
  intro l hl
  cases hl

@[simp] theorem behind_some {l : List Char} {c : Char} : Behind (some l) c ↔ Apart l c := by
  simp [Behind]

namespace Covers

variable {cs bs l : List Char} {ls : List String} {fits fits' : Char → Prop}

theorem mono (h : Covers cs ls fits) (le : ∀ c, fits' c → fits c) : Covers cs ls fits' := by
  intro ds ms lexes starts
  exact h ds ms lexes fun c hc => le c (starts c hc)

theorem lexes (h : Covers cs ls fits) : Lexes cs ls := by
  have whole := h [] [] .nil (by simp)
  rwa [List.append_nil, List.append_nil] at whole

theorem append_blank {c : Char} (h : Covers cs ls fits) (blank : Text.isBlank c = true)
    (first : fits c) : Covers (cs ++ [c]) ls (Behind none) := by
  intro ds ms lexes _
  rw [List.append_assoc]
  refine h _ ms (.blank blank lexes) fun d hd => ?_
  obtain rfl : c = d := by simpa using hd
  exact first

/-- Behind text that goes on in any way, blank characters change nothing. -/
theorem append_blanks (h : Covers cs ls (Behind none))
    (blank : ∀ c ∈ bs, Text.isBlank c = true) : Covers (cs ++ bs) ls (Behind none) := by
  induction bs generalizing cs with
  | nil => rwa [List.append_nil]
  | cons b bs ih =>
    have first := h.append_blank (blank b List.mem_cons_self) (behind_none b)
    have rest := ih first fun c hc => blank c (List.mem_cons_of_mem b hc)
    rwa [List.append_assoc] at rest

theorem append_lexeme (h : Covers cs ls fits) (lexeme : isLexeme l = true)
    (first : ∀ c ∈ l.head?, fits c) :
    Covers (cs ++ l) (ls ++ [String.ofList l]) (Behind (some l)) := by
  intro ds ms lexes apart
  rw [List.append_assoc, List.append_assoc]
  have longest : ∀ c ∈ ds.head?, Apart l c := fun c hc => behind_some.mp (apart c hc)
  refine h _ _ (.lexeme lexeme (fun _ => length_le_of_apart longest) lexes) fun c hc => ?_
  cases l with
  | nil => cases lexeme
  | cons a l => exact first c hc

end Covers

/-! ### What may follow a token -/

/-- What the last token allows to follow directly. -/
inductive Edge where
  /-- Everything that the layout does not set apart. -/
  | clear
  /-- Everything but a point. -/
  | number
  /-- Everything but a point and a number. -/
  | point
  /-- Everything but a colon. -/
  | colon
  /-- Everything but an increment or a decrement. -/
  | sign
  deriving DecidableEq

/-- What may follow a mark. -/
def Mark.edge : Mark → Edge
  | .dot => .point
  | .colon => .colon
  | _ => .clear

/-- What may follow a word, if the word is a lexeme. -/
def wordEdge? (text : String) : Option Edge :=
  if spellsNumber text.toList then some .number
  else if spellsIdentifier text.toList || spellsQuoted text.toList || text == "?" then some .clear
  else none

namespace Edge

/-- Whether a mark may follow. Angle brackets stand around type arguments only, where `>>` is no
operator, and `#` is no lexeme. -/
def admits (e : Edge) : Mark → Bool
  | .openAngle | .closeAngle | .hash => false
  | .dot | .ellipsis => e ≠ .number && e ≠ .point
  | .colon => e ≠ .colon
  | .increment | .decrement => e ≠ .sign
  | _ => true

/-- What may follow the next token, if the token itself may follow. -/
def next (e : Edge) : Token → Option Edge
  | .word text => (wordEdge? text).filter fun e' => !(e = .point && e' = .number)
  | .mark m => if e.admits m then some m.edge else none
  | .sign _ => some .sign
  | .operator symbol => if isLexeme symbol.toList then some .clear else none
  | .comma | .space | .newline | .rejected _ => some .clear
  | .indent | .dedent => some e
  | .raw _ | .join => none

/-- What may follow several tokens. -/
def run : Edge → List Token → Option Edge
  | e, [] => some e
  | e, t :: ts => (e.next t).bind (run · ts)

end Edge

/-! ### Neighbours -/

/-- The last lexeme, if no blank character is behind it, as the layout and the edge know it. -/
inductive Ends : Layout.Previous → Edge → Option (List Char) → Prop where
  | blank (previous : Layout.Previous) (e : Edge) : Ends previous e none
  | word {text : String} {e : Edge} (known : wordEdge? text = some e) :
      Ends .word e (some text.toList)
  | mark {m : Mark} {e : Edge} (admitted : e.admits m = true) :
      Ends (if m.isClosing then .closing else .opening) m.edge (some m.spelling.toList)
  | sign (op : UnaryOperator) : Ends (.sign op) .sign (some op.symbol.toList)

section

variable {previous : Layout.Previous} {e e' : Edge} {last : Option (List Char)} {m : Mark}
  {op : UnaryOperator} {text : String} {c : Char} {l : List Char}

/-- Symbols belong to no other class. -/
theorem not_spells_of_mem_symbols (symbol : l ∈ symbols) :
    spellsIdentifier l = false ∧ spellsNumber l = false ∧ spellsQuoted l = false := by
  have alone : symbols.all (fun s => !(spellsIdentifier s || spellsNumber s || spellsQuoted s)) =
      true := by
    decide +kernel
  simpa [and_assoc] using List.all_eq_true.mp alone l symbol

theorem apart_of_mem_symbols (symbol : l ∈ symbols) (other : c ∉ symbolExtensions l) :
    Apart l c := by
  obtain ⟨noIdentifier, noNumber, -⟩ := not_spells_of_mem_symbols symbol
  refine apart_of_not_extends ?_ ?_ ?_ fun _ => other
  · simp [isLexeme, symbol]
  · simp [noIdentifier]
  · simp [noNumber]

theorem Mark.mem_symbols (admitted : e.admits m = true) : m.spelling.toList ∈ symbols := by
  cases m <;> first | decide | cases admitted

theorem UnaryOperator.mem_symbols (op : UnaryOperator) : op.symbol.toList ∈ symbols := by
  cases op <;> decide

theorem forall_of_all {P : Char → Prop} [DecidablePred P] {cs : List Char}
    (h : cs.all (fun c => decide (P c)) = true) : ∀ c ∈ cs, P c :=
  fun c hc => of_decide_eq_true (List.all_eq_true.mp h c hc)

theorem forall_head_of_all {P : Char → Prop} [DecidablePred P] {cs : List Char}
    (h : cs.head?.all (fun c => decide (P c)) = true) : ∀ c ∈ cs.head?, P c :=
  fun c hc => of_decide_eq_true (Option.all_eq_true _ _ |>.mp h c hc)

/-- What prolongs a mark: it is told by the edge, except for the start of an assignment. -/
theorem Mark.extension_cases (admitted : e.admits m = true) :
    ∀ c ∈ symbolExtensions m.spelling.toList,
      m.edge = .point ∧ (c = '.' ∨ c ∈ decimalDigits) ∨ m.edge = .colon ∧ c = ':' ∨ c = '=' := by
  refine forall_of_all ?_
  cases m <;> first | decide | cases admitted

/-- What prolongs a sign. -/
theorem UnaryOperator.extension_cases (op : UnaryOperator) :
    ∀ c ∈ symbolExtensions op.symbol.toList,
      c = Layout.signChar op ∧ (c = '+' ∨ c = '-') ∨ c = '=' ∨ c = '>' := by
  refine forall_of_all ?_
  cases op <;> decide

/-- How a mark starts that may follow. -/
theorem Mark.head_cases (admitted : e.admits m = true) :
    ∀ c ∈ m.spelling.toList.head?,
      isIdentifierPart c = false ∧ c ≠ '=' ∧ c ≠ '>' ∧ (c = '.' → e ≠ .number ∧ e ≠ .point) ∧
        (c = ':' → e ≠ .colon) ∧ (c = '+' ∨ c = '-' → e ≠ .sign) := by
  refine forall_head_of_all ?_
  cases e <;> cases m <;> first | decide | exact absurd admitted (by decide)

/-- A word is a lexeme that is no symbol, or the question mark. -/
theorem wordEdge?_cases (known : wordEdge? text = some e) :
    spellsNumber text.toList = true ∧ e = .number ∨
      (spellsIdentifier text.toList = true ∨ spellsQuoted text.toList = true ∨ text = "?") ∧
        spellsNumber text.toList = false ∧ e = .clear := by
  unfold wordEdge? at known
  split at known
  · next number => exact .inl ⟨number, (Option.some.inj known).symm⟩
  · next noNumber =>
    split at known
    · next plain =>
      simp only [Bool.or_eq_true, beq_iff_eq, or_assoc] at plain
      exact .inr ⟨plain, by simpa using noNumber, (Option.some.inj known).symm⟩
    · cases known

theorem isLexeme_of_wordEdge? (known : wordEdge? text = some e) :
    isLexeme text.toList = true := by
  rcases wordEdge?_cases known with ⟨number, -⟩ | ⟨identifier | quoted | rfl, -⟩
  · simp [isLexeme, number]
  · simp [isLexeme, identifier]
  · simp [isLexeme, quoted]
  · decide

/-- How a word starts: not as an operator goes on, and with a point or a digit only if it is a
number. -/
theorem wordEdge?_head_cases (known : wordEdge? text = some e) (first : c ∈ text.toList.head?) :
    c ∉ ['+', '-', '=', '>', ':'] ∧ (c ∈ '.' :: decimalDigits → e = .number) := by
  have numbers : ('.' :: decimalDigits).all
      (fun c => !(['+', '-', '=', '>', ':'].contains c)) = true := by
    decide
  have others : (['+', '-', '=', '>', ':'] ++ '.' :: decimalDigits).all
      (fun c => !isIdentifierStart c && !quotes.contains c && c != '?') = true := by
    decide +kernel
  obtain ⟨cs, chars⟩ := List.head?_eq_some_iff.mp first
  by_cases other : c ∈ ['+', '-', '=', '>', ':'] ++ '.' :: decimalDigits
  · have excluded := List.all_eq_true.mp others c other
    simp only [Bool.and_eq_true, Bool.not_eq_true', List.contains_eq_mem, bne_iff_ne,
      decide_eq_false_iff_not] at excluded
    rcases wordEdge?_cases known with ⟨number, rfl⟩ | ⟨identifier | quoted | rfl, -, rfl⟩
    · rw [chars] at number
      have mem : c ∈ '.' :: decimalDigits := by
        rcases spellsNumber_cases number with digit | ⟨rfl, -⟩
        · exact List.mem_cons_of_mem _ digit
        · exact List.mem_cons_self
      exact ⟨by simpa using List.all_eq_true.mp numbers c mem, fun _ => rfl⟩
    · simp [chars, spellsIdentifier, excluded.1.1] at identifier
    · simp [chars, spellsQuoted, excluded.1.2] at quoted
    · exact absurd (by simpa using first.symm) excluded.2
  · rw [List.mem_append, not_or] at other
    exact ⟨other.1, fun mem => absurd mem other.2⟩

/-- How a sign starts. -/
theorem UnaryOperator.head_eq (op : UnaryOperator) :
    ∀ c ∈ op.symbol.toList.head?, c = Layout.signChar op := by
  refine forall_head_of_all ?_
  cases op <;> decide

/-- A mark that may follow does not run into what is in front of it. -/
theorem Ends.behind_mark (h : Ends previous e last) (admitted : e.admits m = true) :
    ∀ c ∈ m.spelling.toList.head?, Behind last c := by
  intro c first l hl
  obtain ⟨noPart, noAssignment, noArrow, point, colon, step⟩ := Mark.head_cases admitted c first
  cases h with
  | blank => cases hl
  | @word text e known =>
    obtain rfl : text.toList = l := by simpa using hl
    refine apart_of_not_extends (isLexeme_of_wordEdge? known) (fun _ => noPart) ?_ ?_
    · intro number char
      rcases List.mem_cons.mp char with isPoint | char
      · rcases wordEdge?_cases known with ⟨-, rfl⟩ | ⟨-, noNumber, -⟩
        · exact (point isPoint).1 rfl
        · rw [noNumber] at number
          cases number
      · rw [isIdentifierPart_of_mem_numberChars char] at noPart
        cases noPart
    · intro symbol longer
      obtain ⟨noIdentifier, noNumber, noQuoted⟩ := not_spells_of_mem_symbols symbol
      rcases wordEdge?_cases known with ⟨number, -⟩ | ⟨identifier | quoted | rfl, -⟩
      · simp [noNumber] at number
      · simp [noIdentifier] at identifier
      · simp [noQuoted] at quoted
      · have none : symbolExtensions "?".toList = [] := by decide
        rw [none] at longer
        cases longer
  | @mark m' e' before =>
    obtain rfl : m'.spelling.toList = l := by simpa using hl
    refine apart_of_mem_symbols (Mark.mem_symbols before) fun longer => ?_
    rcases Mark.extension_cases before c longer with ⟨edge, rfl | digit⟩ | ⟨edge, rfl⟩ | rfl
    · exact (point rfl).2 edge
    · have number : c ∈ numberChars := by simp [numberChars, hexadecimalDigits, digit]
      rw [isIdentifierPart_of_mem_numberChars number] at noPart
      cases noPart
    · exact colon rfl edge
    · exact noAssignment rfl
  | sign op =>
    obtain rfl : op.symbol.toList = l := by simpa using hl
    refine apart_of_mem_symbols op.mem_symbols fun longer => ?_
    rcases op.extension_cases c longer with ⟨-, stepped⟩ | rfl | rfl
    · exact step stepped rfl
    · exact noAssignment rfl
    · exact noArrow rfl

/-- A word that may follow is set apart by the layout, or does not run into what is in front of
it. -/
theorem Ends.behind_word (h : Ends previous e last) (known : wordEdge? text = some e')
    (allowed : e = .point → e' ≠ .number) :
    Layout.wordApart text previous = true ∨ ∀ c ∈ text.toList.head?, Behind last c := by
  cases h with
  | blank => exact .inr fun c _ l hl => by cases hl
  | word => exact .inl rfl
  | @mark m _ before =>
    cases closing : m.isClosing with
    | true => exact .inl rfl
    | false =>
      refine .inr fun c first l hl => ?_
      obtain rfl : m.spelling.toList = l := by simpa using hl
      obtain ⟨other, number⟩ := wordEdge?_head_cases known first
      refine apart_of_mem_symbols (Mark.mem_symbols before) fun longer => ?_
      rcases Mark.extension_cases before c longer with ⟨edge, mem⟩ | ⟨-, rfl⟩ | rfl
      · exact allowed edge (number (List.mem_cons.mpr mem))
      · exact other (by decide)
      · exact other (by decide)
  | sign op =>
    refine .inr fun c first l hl => ?_
    obtain rfl : op.symbol.toList = l := by simpa using hl
    refine apart_of_mem_symbols op.mem_symbols fun longer => ?_
    refine (wordEdge?_head_cases known first).1 ?_
    rcases op.extension_cases c longer with ⟨-, rfl | rfl⟩ | rfl | rfl <;> decide

/-- A sign is set apart by the layout, or does not run into what is in front of it. -/
theorem Ends.behind_sign (h : Ends previous e last) (op : UnaryOperator) :
    Layout.signApart op previous = true ∨ ∀ c ∈ op.symbol.toList.head?, Behind last c := by
  have chars : Layout.signChar op ∉ '.' :: ':' :: '=' :: '>' :: decimalDigits := by
    cases op <;> decide
  cases h with
  | blank => exact .inr fun c _ l hl => by cases hl
  | word => exact .inl rfl
  | @mark m _ before =>
    cases closing : m.isClosing with
    | true => exact .inl rfl
    | false =>
      refine .inr fun c first l hl => ?_
      obtain rfl : m.spelling.toList = l := by simpa using hl
      obtain rfl := op.head_eq c first
      refine apart_of_mem_symbols (Mark.mem_symbols before) fun longer => chars ?_
      rcases Mark.extension_cases before _ longer with ⟨-, mem | mem⟩ | ⟨-, mem⟩ | mem <;>
        simp [mem]
  | sign op' =>
    by_cases same : Layout.signChar op' = Layout.signChar op
    · exact .inl (by simp [Layout.signApart, same])
    · refine .inr fun c first l hl => ?_
      obtain rfl : op'.symbol.toList = l := by simpa using hl
      obtain rfl := op.head_eq c first
      refine apart_of_mem_symbols op'.mem_symbols fun longer => ?_
      rcases op'.extension_cases _ longer with ⟨repeated, -⟩ | mem | mem
      · exact same repeated.symm
      · exact chars (by simp [mem])
      · exact chars (by simp [mem])

end

/-! ### A layout in progress -/

/-- Levels of indentation and lines are set off by blank characters. -/
structure Options.IsBlank (o : Options) : Prop where
  indent : Text.AllBlank o.indent
  separator : Text.AllBlank o.lineSeparator
  nonempty : o.lineSeparator ≠ ""

namespace Layout

/-- The state of a layout whose text is cut into the lexemes `ls`; `last` is the last of them, if it
is at the very end of the line. -/
structure Laid (s : State) (ls : List String) (last : Option (List Char)) : Prop where
  lexeme : ∀ l ∈ last, isLexeme l = true
  ending : ∀ l ∈ last, ∃ cs, s.line.toList = cs ++ l
  /-- The text goes on in the line. -/
  covers : Covers (s.out.toList ++ s.line.toList) ls (Behind last)
  /-- The text goes on in the next line. -/
  trimmed : Covers (s.out.toList ++ Text.dropBlankEnd s.line.toList) ls fun c => Text.isBlank c

section

variable {s : State} {ls : List String} {last : Option (List Char)} {o : Options}

/-- The level of indentation and what the layout remembers of the last token do not count. -/
theorem Laid.congr {s' : State} (h : Laid s ls last) (out : s'.out = s.out)
    (line : s'.line = s.line) : Laid s' ls last := by
  obtain ⟨lexeme, ending, covers, trimmed⟩ := h
  rw [← line] at ending covers trimmed
  rw [← out] at covers trimmed
  exact ⟨lexeme, ending, covers, trimmed⟩

theorem laid_nil : Laid {} [] none where
  lexeme := by simp
  ending := by simp
  covers := fun ds ms lexes _ => lexes
  trimmed := fun ds ms lexes _ => lexes

/-- At the end of an empty line, or of one that ends with a blank character, there is no lexeme. -/
theorem Laid.last_eq_none (h : Laid s ls last)
    (blank : ∀ c ∈ s.line.toList.getLast?, Text.isBlank c = true) : last = none := by
  cases last with
  | none => rfl
  | some l =>
    obtain ⟨cs, line⟩ := h.ending l rfl
    have lexeme := h.lexeme l rfl
    cases l using List.reverseRecOn with
    | nil => cases lexeme
    | append_singleton l c =>
      have ends : Text.isBlank c = true := blank c (by simp [line])
      rw [isBlank_getLast lexeme (by simp)] at ends
      cases ends

/-- A blank character can follow the line. -/
theorem Laid.behind_isBlank (h : Laid s ls last) {c : Char} (blank : Text.isBlank c = true) :
    Behind last c :=
  fun l hl => apart_of_isBlank (h.lexeme l hl) blank

/-- The state with a space behind the line. -/
theorem Laid.append_space (h : Laid s ls last) : Laid { s with line := s.line ++ " " } ls none := by
  have blank : Text.isBlank ' ' = true := by decide
  refine ⟨by simp, by simp, ?_, ?_⟩
  · have covers := h.covers.append_blank blank (h.behind_isBlank blank)
    rw [List.append_assoc] at covers
    rwa [String.toList_append]
  · have same : Text.dropBlankEnd (s.line ++ " ").toList = Text.dropBlankEnd s.line.toList := by
      rw [String.toList_append]
      exact Text.dropBlankEnd_append_of_isBlank (by simpa using blank)
    rw [same]
    exact h.trimmed

theorem Laid.addSpace (h : Laid s ls last) : Laid s.addSpace ls none := by
  unfold State.addSpace
  split
  · next spaced =>
    have noLexeme : last = none := by
      refine h.last_eq_none fun c hc => ?_
      rcases spaced with empty | space
      · simp [empty] at hc
      · rw [space] at hc
        obtain rfl : ' ' = c := by simpa using hc
        decide
    exact noLexeme ▸ h
  · exact h.append_space

/-- A line is indented before something is written to it. -/
theorem Laid.indented (h : Laid s ls last) (blank : o.IsBlank) :
    Laid { s with line := if s.line = "" then String.join (List.replicate s.depth o.indent)
      else s.line } ls last := by
  split
  · next empty =>
    obtain rfl : last = none := h.last_eq_none (by simp [empty])
    have blanks : ∀ c ∈ (String.join (List.replicate s.depth o.indent)).toList,
        Text.isBlank c = true := by
      intro c hc
      rw [String.toList_join, List.mem_flatMap] at hc
      obtain ⟨text, mem, hc⟩ := hc
      rw [List.eq_of_mem_replicate mem] at hc
      exact blank.indent c hc
    have covers := h.covers
    have trimmed := h.trimmed
    simp only [empty, String.toList_empty, List.append_nil] at covers trimmed
    refine ⟨by simp, by simp, covers.append_blanks blanks, ?_⟩
    have noText := @Text.dropBlankEnd_append_of_isBlank [] _ blanks
    rw [List.nil_append] at noText
    rwa [noText]
  · exact h

theorem Laid.append_lexeme (h : Laid s ls last) {text : String}
    (lexeme : isLexeme text.toList = true) (first : ∀ c ∈ text.toList.head?, Behind last c) :
    Laid { s with line := s.line ++ text } (ls ++ [text]) (some text.toList) := by
  have covers := h.covers.append_lexeme lexeme first
  rw [List.append_assoc, String.ofList_toList, ← String.toList_append] at covers
  refine ⟨?_, ?_, covers, ?_⟩
  · simpa using lexeme
  · simp
  · -- the line does not end with a blank character, so nothing is cut off
    have whole : Text.dropBlankEnd (s.line ++ text).toList = (s.line ++ text).toList := by
      refine Text.dropBlankEnd_of_getLast fun c hc => ?_
      have nonempty : text.toList ≠ [] := by
        intro empty
        rw [empty] at lexeme
        cases lexeme
      rw [String.toList_append, List.getLast?_append_of_ne_nil _ nonempty] at hc
      exact isBlank_getLast lexeme hc
    rw [whole]
    exact covers.mono fun c blank => behind_some.mpr (apart_of_isBlank lexeme blank)

/-- A lexeme is written behind what it does not run into, or behind a space. -/
theorem Laid.writeApart (h : Laid s ls last) (blank : o.IsBlank) {apart : Bool}
    {text : String} (previous : Previous) (lexeme : isLexeme text.toList = true)
    (start : apart = true ∨ ∀ c ∈ text.toList.head?, Behind last c) :
    Laid (s.writeApart o.indent apart text previous) (ls ++ [text]) (some text.toList) := by
  obtain ⟨last, base, first⟩ : ∃ last, Laid (if apart then s.addSpace else s) ls last ∧
      ∀ c ∈ text.toList.head?, Behind last c := by
    cases apart with
    | true => exact ⟨none, h.addSpace, fun c _ => behind_none c⟩
    | false => exact ⟨last, h, start.resolve_left Bool.false_ne_true⟩
  exact ((base.indented blank).append_lexeme lexeme first).congr rfl rfl

/-- A lexeme with a space behind it. -/
theorem Laid.writeApart_space (h : Laid s ls last) (blank : o.IsBlank) {apart : Bool}
    {text : String} (previous : Previous) (lexeme : isLexeme text.toList = true)
    (start : apart = true ∨ ∀ c ∈ text.toList.head?, Behind last c) :
    Laid (s.writeApart o.indent apart (text ++ " ") previous) (ls ++ [text]) none := by
  refine (h.writeApart blank previous lexeme start).append_space.congr rfl ?_
  simp only [State.writeApart, State.write, String.append_assoc]

/-- At the start of the next line everything can follow. -/
theorem Laid.endLine (h : Laid s ls last) (blank : o.IsBlank) :
    Laid (s.endLine o.lineSeparator) ls none := by
  have covers : Covers (s.endLine o.lineSeparator).out.toList ls (Behind none) := by
    simp only [State.endLine, String.toList_append, Text.trimEnd, String.toList_ofList]
    cases separator : o.lineSeparator.toList with
    | nil => exact absurd (String.toList_eq_nil_iff.mp separator) blank.nonempty
    | cons c bs =>
      have blanks : ∀ b ∈ c :: bs, Text.isBlank b = true := separator ▸ blank.separator
      have first := blanks c List.mem_cons_self
      have rest := (h.trimmed.append_blank first first).append_blanks fun b hb =>
        blanks b (List.mem_cons_of_mem c hb)
      rwa [List.append_assoc] at rest
  refine ⟨by simp, by simp, ?_, ?_⟩
  · simpa [State.endLine] using covers
  · have rest := covers.mono fun c (_ : Text.isBlank c = true) => behind_none c
    simpa [State.endLine, Text.dropBlankEnd] using rest

/-! ### Running a layout -/

/-- The state after some tokens has written the lexemes `ls`, and `e` says what may follow. -/
def Fits (s : State) (ls : List String) (e : Edge) : Prop :=
  ∃ last, Laid s ls last ∧ Ends s.previous e last

variable {e e' : Edge} {s' : State}

/-- **One token writes one lexeme or none.** -/
theorem Fits.step (h : Fits s ls e) (blank : o.IsBlank) {t : Token} (next : e.next t = some e')
    (ran : step o s t = .ok s') : Fits s' (ls ++ t.spelling?.toList) e' := by
  obtain ⟨last, laid, ends⟩ := h
  have silent : t.spelling? = none → ls ++ t.spelling?.toList = ls := by
    intro none
    rw [none, Option.toList_none, List.append_nil]
  cases t with
  | word text =>
    obtain ⟨known, allowed⟩ := Option.filter_eq_some_iff.mp next
    obtain rfl := Except.ok.inj ran
    have start := ends.behind_word known fun point => by simpa [point] using allowed
    exact ⟨_, laid.writeApart blank .word (isLexeme_of_wordEdge? known) start, .word known⟩
  | mark m =>
    obtain ⟨admitted, rfl⟩ : e.admits m = true ∧ m.edge = e' := by simpa [Edge.next] using next
    obtain rfl := Except.ok.inj ran
    have lexeme : isLexeme m.spelling.toList = true := by
      simp [isLexeme, Mark.mem_symbols admitted]
    exact ⟨_, laid.writeApart blank _ lexeme (.inr (ends.behind_mark admitted)), .mark admitted⟩
  | sign op =>
    obtain rfl := Option.some.inj next
    obtain rfl := Except.ok.inj ran
    have lexeme : isLexeme op.symbol.toList = true := by simp [isLexeme, op.mem_symbols]
    exact ⟨_, laid.writeApart blank _ lexeme (ends.behind_sign op), .sign op⟩
  | operator symbol =>
    obtain ⟨lexeme, rfl⟩ : isLexeme symbol.toList = true ∧ Edge.clear = e' := by
      simpa [Edge.next] using next
    obtain rfl := Except.ok.inj ran
    exact ⟨none, laid.writeApart_space blank _ lexeme (.inl rfl), .blank _ _⟩
  | comma =>
    obtain rfl := Except.ok.inj ran
    have lexeme : isLexeme ",".toList = true := by decide
    have start := ends.behind_mark (m := .comma) rfl
    exact ⟨none, laid.writeApart_space blank _ lexeme (.inr start), .blank _ _⟩
  | space =>
    obtain rfl := Except.ok.inj ran
    rw [silent rfl]
    exact ⟨none, laid.addSpace.congr rfl rfl, .blank _ _⟩
  | newline =>
    obtain rfl := Except.ok.inj ran
    rw [silent rfl]
    exact ⟨none, laid.endLine blank, .blank _ _⟩
  | indent =>
    obtain rfl := Option.some.inj next
    obtain rfl := Except.ok.inj ran
    rw [silent rfl]
    exact ⟨last, laid.congr rfl rfl, ends⟩
  | dedent =>
    obtain rfl := Option.some.inj next
    rw [silent rfl]
    simp only [Layout.step] at ran
    split at ran
    · cases ran
    · obtain rfl := Except.ok.inj ran
      exact ⟨last, laid.congr rfl rfl, ends⟩
  | raw text => cases next
  | join => cases next
  | rejected op => cases ran

/-- **Tokens write the lexemes that they spell.** -/
theorem Fits.run (h : Fits s ls e) (blank : o.IsBlank) {ts : List Token} (next : e.run ts = some e')
    (ran : run o s ts = .ok s') : Fits s' (ls ++ spellings ts) e' := by
  induction ts generalizing s ls e with
  | nil =>
    obtain rfl := Option.some.inj next
    obtain rfl := Except.ok.inj ran
    rwa [spellings_nil, List.append_nil]
  | cons t ts ih =>
    obtain ⟨e₁, first, rest⟩ := Option.bind_eq_some_iff.mp next
    rw [Layout.run] at ran
    split at ran
    · next s₁ stepped =>
      have written := ih (h.step blank first stepped) rest ran
      rwa [List.append_assoc, ← spellings_cons] at written
    · cases ran

end

/-- **A layout neither joins nor splits lexemes**: the text of tokens that may follow each other is
cut into what the tokens spell. -/
theorem lexes_of_run {o : Options} (blank : o.IsBlank) {ts : List Token} {e : Edge}
    (follows : Edge.clear.run ts = some e) {text : String} (laidOut : layout o ts = .ok text) :
    Lexes text.toList (spellings ts) := by
  unfold layout at laidOut
  split at laidOut
  · next s ran =>
    have start : Fits {} [] .clear := ⟨none, laid_nil, .blank _ _⟩
    obtain ⟨last, laid, -⟩ := start.run blank follows ran
    unfold finish at laidOut
    split at laidOut
    · obtain rfl := Except.ok.inj laidOut
      simpa [Text.trimEnd] using laid.trimmed.lexes
    · cases laidOut
  · cases laidOut

end Layout

end JavaSource
