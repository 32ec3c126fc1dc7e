import JavaSource.Proofs.Ty.Pieces

/-!
# Lexemes

The lexemes of the language are identifiers (keywords are among them), numbers, quoted texts and
symbols. A text is cut into lexemes from left to right, and each lexeme is the longest one that the
text goes on with: `Lexes cs ls` says that the characters `cs` are cut into the lexemes `ls`.

* Numbers are read by a finite automaton, `NumberState.step`. It follows the syntax of integers and
  floating-point numbers in every radix, with digit separators and suffixes.
* A quoted text ends at the first quote that has no backslash in front, on the same line.
* Comments are not part of the language here: what opens one is a symbol of its own.

The characters that can prolong a lexeme are known for each of the four classes
(`extension_cases`), and a lexeme in front of any other character is a longest one (`Apart`).
-/

namespace JavaSource

/-! ### Numbers -/

/-- Runs of digits in a number. -/
inductive DigitRun where
  /-- Behind a first `0`, all digits octal. -/
  | octal
  /-- Behind a first `0`, with a digit that is not octal: only a floating-point number. -/
  | leading
  /-- Decimal digits. -/
  | decimal
  /-- Digits behind the point. -/
  | fraction
  /-- Digits of an exponent. -/
  | exponent
  /-- Hexadecimal digits. -/
  | hex
  /-- Hexadecimal digits behind the point. -/
  | hexFraction
  /-- Binary digits. -/
  | binary
  deriving DecidableEq

/-- How far a number has been read. -/
inductive NumberState where
  /-- Nothing. -/
  | start
  /-- A first `0`. -/
  | zero
  /-- Digits, with a separator at the end or without one. -/
  | digits (run : DigitRun) (separated : Bool)
  /-- A point with no digits in front. -/
  | firstPoint
  /-- A point behind decimal digits. -/
  | point
  /-- The mark of a hexadecimal number. -/
  | hexMark
  /-- A point behind the mark of a hexadecimal number. -/
  | hexFirstPoint
  /-- A point behind hexadecimal digits. -/
  | hexPoint
  /-- The mark of a binary number. -/
  | binaryMark
  /-- The mark of an exponent. -/
  | exponentMark
  /-- The sign of an exponent. -/
  | exponentSign
  /-- The suffix that gives the type. -/
  | suffix
  deriving DecidableEq

/-- The decimal digits. -/
def decimalDigits : List Char :=
  ['0', '1', '2', '3', '4', '5', '6', '7', '8', '9']

/-- The hexadecimal digits. -/
def hexadecimalDigits : List Char :=
  decimalDigits ++ ['a', 'b', 'c', 'd', 'e', 'f', 'A', 'B', 'C', 'D', 'E', 'F']

/-- The run that goes on with a digit. -/
def DigitRun.digit? (c : Char) : DigitRun → Option DigitRun
  | .octal =>
    if ['8', '9'].contains c then some .leading
    else if decimalDigits.contains c then some .octal else none
  | .hex => if hexadecimalDigits.contains c then some .hex else none
  | .hexFraction => if hexadecimalDigits.contains c then some .hexFraction else none
  | .binary => if ['0', '1'].contains c then some .binary else none
  | run => if decimalDigits.contains c then some run else none

/-- What a complete run of digits goes on with. -/
def DigitRun.next? (c : Char) : DigitRun → Option NumberState
  | .octal | .decimal =>
    if c = '.' then some .point
    else if ['e', 'E'].contains c then some .exponentMark
    else if ['l', 'L', 'f', 'F', 'd', 'D'].contains c then some .suffix else none
  | .leading =>
    if c = '.' then some .point
    else if ['e', 'E'].contains c then some .exponentMark
    else if ['f', 'F', 'd', 'D'].contains c then some .suffix else none
  | .fraction =>
    if ['e', 'E'].contains c then some .exponentMark
    else if ['f', 'F', 'd', 'D'].contains c then some .suffix else none
  | .exponent => if ['f', 'F', 'd', 'D'].contains c then some .suffix else none
  | .hex =>
    if c = '.' then some .hexPoint
    else if ['p', 'P'].contains c then some .exponentMark
    else if ['l', 'L'].contains c then some .suffix else none
  | .hexFraction => if ['p', 'P'].contains c then some .exponentMark else none
  | .binary => if ['l', 'L'].contains c then some .suffix else none

namespace NumberState

/-- A first digit of a run. -/
def first? (c : Char) (run : DigitRun) : Option NumberState :=
  (run.digit? c).map fun run => .digits run false

/-- Digits go on with a digit, a separator, or, if no separator is at their end, something else. -/
def goOn? (c : Char) (run : DigitRun) (separated : Bool) : Option NumberState :=
  (first? c run).or
    (if c = '_' then some (.digits run true) else if separated then none else run.next? c)

/-- The state after one more character. -/
def step (c : Char) : NumberState → Option NumberState
  | .start =>
    if c = '0' then some .zero else if c = '.' then some .firstPoint else first? c .decimal
  | .zero =>
    if ['x', 'X'].contains c then some .hexMark
    else if ['b', 'B'].contains c then some .binaryMark else goOn? c .octal false
  | .digits run separated => goOn? c run separated
  | .firstPoint => first? c .fraction
  | .point => (first? c .fraction).or (DigitRun.next? c .fraction)
  | .hexMark => if c = '.' then some .hexFirstPoint else first? c .hex
  | .hexFirstPoint => first? c .hexFraction
  | .hexPoint => (first? c .hexFraction).or (DigitRun.next? c .hexFraction)
  | .binaryMark => first? c .binary
  | .exponentMark => if ['+', '-'].contains c then some .exponentSign else first? c .exponent
  | .exponentSign => first? c .exponent
  | .suffix => none

/-- The state after several characters. -/
def run : NumberState → List Char → Option NumberState
  | s, [] => some s
  | s, c :: cs => (s.step c).bind (run · cs)

/-- Whether a number can end here. -/
def isComplete : NumberState → Bool
  | .zero | .point | .suffix => true
  | .digits .leading _ | .digits .hexFraction _ => false
  | .digits _ separated => !separated
  | _ => false

end NumberState

/-- Whether the characters are an unsigned number. -/
def spellsNumber (cs : List Char) : Bool :=
  (NumberState.start.run cs).any NumberState.isComplete

/-! ### Quoted texts and symbols -/

/-- Whether the characters end a text that was opened with a quote. -/
def closesQuote (quote : Char) : List Char → Bool
  | [] => false
  | '\\' :: cs =>
    match cs with
    | [] => false
    | c :: cs => !(['\n', '\r'].contains c) && closesQuote quote cs
  | c :: cs =>
    if c = quote then cs.isEmpty else !(['\n', '\r'].contains c) && closesQuote quote cs

/-- The quotes of texts and of characters. -/
def quotes : List Char :=
  ['"', '\x27']

/-- Whether the characters are a quoted text or a quoted character. -/
def spellsQuoted : List Char → Bool
  | [] => false
  | quote :: cs => quotes.contains quote && closesQuote quote cs

/-- The separators and operators, and what opens a comment. -/
def symbols : List (List Char) :=
  ["(", ")", "\x7b", "\x7d", "[", "]", ";", ",", ".", "...", "@", "::", "=", ">", "<", "!", "~",
   "?", ":", "->", "==", ">=", "<=", "!=", "&&", "||", "++", "--", "+", "-", "*", "/", "&", "|",
   "^", "%", "<<", ">>", ">>>", "+=", "-=", "*=", "/=", "&=", "|=", "^=", "%=", "<<=", ">>=",
   ">>>=", "//", "/*"].map String.toList

/-! ### Cutting a text -/

/-- Whether the characters are a lexeme. -/
def isLexeme (cs : List Char) : Bool :=
  spellsIdentifier cs || spellsNumber cs || spellsQuoted cs || symbols.contains cs

/-- The characters are cut into lexemes, each the longest one that is there. Blank characters
separate. -/
inductive Lexes : List Char → List String → Prop where
  | nil : Lexes [] []
  | blank {c : Char} {cs : List Char} {ls : List String} (isBlank : Text.isBlank c = true)
      (rest : Lexes cs ls) : Lexes (c :: cs) ls
  | lexeme {l cs : List Char} {ls : List String} (first : isLexeme l = true)
      (longest : ∀ l', isLexeme l' = true → l' <+: l ++ cs → l'.length ≤ l.length)
      (rest : Lexes cs ls) : Lexes (l ++ cs) (String.ofList l :: ls)

/-! ### Characters of numbers -/

section

variable {c : Char} {cs l more : List Char} {ls : List String}

/-- The characters of numbers, apart from points and the signs of exponents. -/
def numberChars : List Char :=
  hexadecimalDigits ++ ['x', 'X', 'l', 'L', 'p', 'P', '_']

namespace NumberState

theorem run_append (s : NumberState) (cs ds : List Char) :
    s.run (cs ++ ds) = (s.run cs).bind (run · ds) := by
  induction cs generalizing s with
  | nil => rfl
  | cons c cs ih => simp only [List.cons_append, run, ih, Option.bind_assoc]

/-- A number goes on with a point or a character of a number, or, where it cannot end, with a
sign. -/
theorem step_eq_none {s : NumberState} (other : c ∉ '.' :: numberChars)
    (unsigned : s.isComplete = true ∨ c ∉ ['+', '-']) : s.step c = none := by
  simp only [numberChars, hexadecimalDigits, decimalDigits, List.cons_append, List.nil_append,
    List.mem_cons, List.not_mem_nil, or_false, not_or] at other
  cases s with
  | digits run separated =>
    cases run <;> simp_all [step, goOn?, first?, DigitRun.digit?, DigitRun.next?, decimalDigits,
      hexadecimalDigits]
  | exponentMark =>
    simp_all [step, first?, DigitRun.digit?, isComplete, decimalDigits]
  | _ =>
    simp_all [step, goOn?, first?, DigitRun.digit?, DigitRun.next?, decimalDigits,
      hexadecimalDigits]

/-- A number holds no other characters than these. -/
theorem mem_of_run {s s' : NumberState} (read : s.run cs = some s') (h : c ∈ cs) :
    c ∈ '.' :: numberChars ∨ c ∈ ['+', '-'] := by
  by_contra other
  rw [not_or] at other
  obtain ⟨before, behind, rfl⟩ := List.append_of_mem h
  rw [run_append] at read
  obtain ⟨s₁, -, rest⟩ := Option.bind_eq_some_iff.mp read
  rw [run, step_eq_none other.1 (.inr other.2)] at rest
  cases rest

end NumberState

/-- A number starts with a digit, or with a point in front of a digit. -/
theorem spellsNumber_cases (h : spellsNumber (c :: cs) = true) :
    c ∈ decimalDigits ∨ c = '.' ∧ ∃ d ∈ decimalDigits, ∃ ds, cs = d :: ds := by
  by_cases digit : c ∈ decimalDigits
  · exact .inl digit
  by_cases point : c = '.'
  · subst point
    cases cs with
    | nil => cases h
    | cons d ds =>
      by_cases digit' : d ∈ decimalDigits
      · exact .inr ⟨rfl, d, digit', ds, rfl⟩
      · have stuck : NumberState.firstPoint.step d = none := by
          simp [NumberState.step, NumberState.first?, DigitRun.digit?, digit']
        have starts : NumberState.start.step '.' = some .firstPoint := by decide
        simp [spellsNumber, NumberState.run, starts, stuck] at h
  · have stuck : NumberState.start.step c = none := by
      have nonzero : c ≠ '0' := fun zero => digit (by rw [zero]; decide)
      simp [NumberState.step, NumberState.first?, DigitRun.digit?, digit, point, nonzero]
    simp [spellsNumber, NumberState.run, stuck] at h

/-- A quoted text does not go on behind the quote that closes it. -/
theorem closesQuote_append {quote : Char} (h : closesQuote quote cs = true) :
    closesQuote quote (cs ++ c :: more) = false := by
  fun_induction closesQuote quote cs with
  | case1 => cases h
  | case2 => cases h
  | case3 d cs ih =>
    simp only [Bool.and_eq_true] at h
    simp [closesQuote, ih h.2]
  | case4 cs => simp_all [closesQuote]
  | case5 d cs => simp_all [closesQuote]

/-- The quote that closes a text is its last character. -/
theorem getLast?_of_closesQuote {quote : Char} (h : closesQuote quote cs = true) :
    cs.getLast? = some quote := by
  fun_induction closesQuote quote cs with
  | case1 => cases h
  | case2 => cases h
  | case3 d cs ih =>
    simp only [Bool.and_eq_true] at h
    simp [List.getLast?_cons, ih h.2]
  | case4 cs => simp_all
  | case5 d cs _ other ih =>
    simp only [Bool.and_eq_true] at h
    simp [List.getLast?_cons, ih h.2]

/-! ### What prolongs a lexeme -/

/-- How a lexeme starts. -/
inductive Lead where
  | letter | digit | quote | other
  deriving DecidableEq

/-- How a lexeme with this first character starts. -/
def lead (c : Char) : Lead :=
  if isIdentifierStart c then .letter else if c ∈ decimalDigits then .digit
  else if c ∈ quotes then .quote else .other

/-- The first character of a lexeme tells the classes apart, but for a point, which is a symbol and
also starts numbers. -/
theorem isLexeme_cases (h : isLexeme (c :: cs) = true) :
    match lead c with
    | .letter => spellsIdentifier (c :: cs) = true
    | .digit => spellsNumber (c :: cs) = true
    | .quote => closesQuote c cs = true
    | .other => c :: cs ∈ symbols ∨
        spellsNumber (c :: cs) = true ∧ c = '.' ∧ ∃ d ∈ decimalDigits, ∃ ds, cs = d :: ds := by
  have digits : decimalDigits.all (fun c => lead c = .digit) = true := by decide +kernel
  have marks : symbols.all (fun s => s.head?.all fun c => lead c = .other) = true := by
    decide +kernel
  have quoted : quotes.all (fun c => lead c = .quote) = true := by decide +kernel
  have point : lead '.' = .other := by decide
  simp only [List.all_eq_true, decide_eq_true_eq] at digits marks quoted
  simp only [isLexeme, Bool.or_eq_true, List.contains_iff_mem] at h
  rcases h with ((identifier | number) | text) | symbol
  · have start : isIdentifierStart c = true := by simp_all [spellsIdentifier]
    simpa [lead, start] using identifier
  · rcases spellsNumber_cases number with digit | ⟨rfl, behind⟩
    · simpa [digits c digit] using number
    · simpa [point] using .inr ⟨number, behind⟩
  · simp only [spellsQuoted, Bool.and_eq_true, List.contains_iff_mem] at text
    simpa [quoted c text.1] using text.2
  · have led : lead c = .other := by simpa using marks _ symbol
    simpa [led] using .inl symbol

/-- The characters that can prolong a symbol. -/
def symbolExtensions (l : List Char) : List Char :=
  symbols.filterMap (fun s => if l.isPrefixOf s then s[l.length]? else none) ++
    if l = ['.'] then decimalDigits else []

theorem mem_symbolExtensions (h : l ++ c :: more ∈ symbols) : c ∈ symbolExtensions l := by
  refine List.mem_append_left _ (List.mem_filterMap.mpr ⟨_, h, ?_⟩)
  simp

/-- A number does not start as a symbol does. -/
theorem point_digit_notMem_symbols {d : Char} (digit : d ∈ decimalDigits) :
    '.' :: d :: more ∉ symbols := by
  have points : symbols.all (fun s => !(['.'].isPrefixOf s && s[1]?.any decimalDigits.contains)) =
      true := by
    decide
  intro h
  have := List.all_eq_true.mp points _ h
  simp [digit] at this

/-- **What prolongs a lexeme.** Of the four classes of lexemes, three can be prolonged, each by
characters of its own. -/
theorem extension_cases (h : isLexeme l = true) (h' : isLexeme (l ++ c :: more) = true) :
    spellsIdentifier l = true ∧ isIdentifierPart c = true ∨
      spellsNumber l = true ∧ c ∈ '.' :: numberChars ∨
      l ∈ symbols ∧ c ∈ symbolExtensions l := by
  cases l with
  | nil => cases h
  | cons a l =>
    have numbers : spellsNumber (a :: l) = true → spellsNumber (a :: l ++ c :: more) = true →
        c ∈ '.' :: numberChars := by
      intro number longer
      by_contra other
      rw [spellsNumber, Option.any_eq_true] at number
      obtain ⟨s, read, complete⟩ := number
      rw [spellsNumber, NumberState.run_append, read, Option.bind_some, NumberState.run,
        NumberState.step_eq_none other (.inl complete)] at longer
      cases longer
    have own := isLexeme_cases h
    have longer := @isLexeme_cases a (l ++ c :: more) h'
    cases led : lead a with
    | letter =>
      simp only [led, spellsIdentifier, Bool.and_eq_true, List.all_eq_true] at own longer
      exact .inl ⟨by simpa [spellsIdentifier] using own, longer.2 c (by simp)⟩
    | digit =>
      simp only [led] at own longer
      exact .inr (.inl ⟨own, numbers own longer⟩)
    | quote =>
      simp only [led] at own longer
      rw [closesQuote_append own] at longer
      cases longer
    | other =>
      simp only [led] at own longer
      rcases own with own | ⟨own, rfl, d, digit, ds, rfl⟩
      · rcases longer with longer | ⟨-, rfl, d, digit, ds, behind⟩
        · exact .inr (.inr ⟨own, mem_symbolExtensions longer⟩)
        · cases l with
          | nil =>
            obtain rfl : c = d := (List.cons.inj behind).1
            exact .inr (.inr ⟨own, List.mem_append_right _ (by simpa using digit)⟩)
          | cons e l =>
            obtain rfl : e = d := (List.cons.inj behind).1
            exact absurd own (point_digit_notMem_symbols digit)
      · rcases longer with longer | ⟨longer, -⟩
        · exact absurd longer (point_digit_notMem_symbols digit)
        · exact .inr (.inl ⟨own, numbers own longer⟩)

/-- No lexeme that starts with `l` goes on with the character `c`. -/
def Apart (l : List Char) (c : Char) : Prop :=
  ∀ more, isLexeme (l ++ c :: more) = false

theorem apart_of_not_extends (h : isLexeme l = true)
    (identifier : spellsIdentifier l = true → isIdentifierPart c = false)
    (number : spellsNumber l = true → c ∉ '.' :: numberChars)
    (symbol : l ∈ symbols → c ∉ symbolExtensions l) : Apart l c := by
  intro more
  rw [← Bool.not_eq_true]
  intro longer
  rcases extension_cases h longer with ⟨own, part⟩ | ⟨own, char⟩ | ⟨own, longer⟩
  · rw [identifier own] at part
    cases part
  · exact number own char
  · exact symbol own longer

theorem isIdentifierPart_of_mem_numberChars (h : c ∈ numberChars) : isIdentifierPart c = true := by
  have all : numberChars.all isIdentifierPart = true := by decide +kernel
  exact List.all_eq_true.mp all c h

/-- A blank character ends every lexeme. -/
theorem apart_of_isBlank (h : isLexeme l = true) (blank : Text.isBlank c = true) : Apart l c := by
  have noPart : isIdentifierPart c = false := Piece.isIdentifierPart_of_isBlank blank
  have extensions : symbols.all (fun s => (symbolExtensions s).all fun c => !Text.isBlank c) =
      true := by
    decide +kernel
  refine apart_of_not_extends h (fun _ => noPart) (fun _ char => ?_) fun symbol mem => ?_
  · rcases List.mem_cons.mp char with rfl | char
    · revert blank
      decide
    · rw [isIdentifierPart_of_mem_numberChars char] at noPart
      cases noPart
  · have := List.all_eq_true.mp (List.all_eq_true.mp extensions l symbol) c mem
    simp [blank] at this

/-- No lexeme starts with a blank character. -/
theorem isBlank_of_isLexeme (h : isLexeme (c :: cs) = true) : Text.isBlank c = false := by
  have fixed : ('.' :: decimalDigits ++ quotes).all (fun c => !Text.isBlank c) = true := by
    decide +kernel
  have marks : symbols.all (fun s => s.head?.all fun c => !Text.isBlank c) = true := by
    decide +kernel
  simp only [List.all_eq_true, Bool.not_eq_true'] at fixed marks
  simp only [isLexeme, Bool.or_eq_true, List.contains_iff_mem] at h
  rcases h with ((identifier | number) | text) | symbol
  · rw [← Bool.not_eq_true]
    intro blank
    have part := (forall_isIdentifierPart identifier).2 c List.mem_cons_self
    rw [Piece.isIdentifierPart_of_isBlank blank] at part
    cases part
  · rcases spellsNumber_cases number with digit | ⟨rfl, -⟩
    · exact fixed c (by simp [digit])
    · exact fixed '.' (by simp)
  · simp only [spellsQuoted, Bool.and_eq_true, List.contains_iff_mem] at text
    exact fixed c (by simp [text.1])
  · simpa using marks _ symbol

/-- No lexeme ends with a blank character. -/
theorem isBlank_getLast (h : isLexeme l = true) (last : c ∈ l.getLast?) :
    Text.isBlank c = false := by
  have fixed : ('.' :: numberChars ++ ['+', '-'] ++ quotes).all (fun c => !Text.isBlank c) =
      true := by
    decide +kernel
  have marks : symbols.all (fun s => s.getLast?.all fun c => !Text.isBlank c) = true := by
    decide +kernel
  simp only [List.all_eq_true, Option.all_eq_true, Bool.not_eq_true'] at fixed marks
  simp only [isLexeme, Bool.or_eq_true, List.contains_iff_mem] at h
  rcases h with ((identifier | number) | text) | symbol
  · rw [← Bool.not_eq_true]
    intro blank
    have part := (forall_isIdentifierPart identifier).2 c (List.mem_of_mem_getLast? last)
    rw [Piece.isIdentifierPart_of_isBlank blank] at part
    cases part
  · rw [spellsNumber, Option.any_eq_true] at number
    obtain ⟨s, read, -⟩ := number
    have chars := NumberState.mem_of_run read (List.mem_of_mem_getLast? last)
    exact fixed c (List.mem_append_left _ (List.mem_append.mpr chars))
  · cases l with
    | nil => cases text
    | cons quote l =>
      simp only [spellsQuoted, Bool.and_eq_true, List.contains_iff_mem] at text
      rw [List.getLast?_cons, getLast?_of_closesQuote text.2] at last
      obtain rfl : quote = c := by simpa using last
      exact fixed quote (by simp [text.1])
  · exact marks l symbol c last

/-! ### Longest lexemes -/

/-- A lexeme is a longest one if it does not go on with the next character. -/
theorem length_le_of_apart (apart : ∀ c ∈ cs.head?, Apart l c) {l' : List Char}
    (lexeme : isLexeme l' = true) (starts : l' <+: l ++ cs) : l'.length ≤ l.length := by
  by_contra longer
  obtain ⟨m, rfl⟩ := List.prefix_of_prefix_length_le (List.prefix_append l cs) starts (by omega)
  cases m with
  | nil => simp at longer
  | cons c m =>
    obtain ⟨rest, behind⟩ := (List.prefix_append_right_inj l).mp starts
    have next : c ∈ cs.head? := by rw [← behind]; rfl
    rw [apart c next m] at lexeme
    cases lexeme

/-- **A text is cut into lexemes in one way at most.** -/
theorem Lexes.unique {ls' : List String} (h : Lexes cs ls) (h' : Lexes cs ls') : ls = ls' := by
  induction h generalizing ls' with
  | nil =>
    generalize empty : [] = cs at h'
    cases h' with
    | nil => rfl
    | blank => cases empty
    | @lexeme l cs ls first =>
      obtain ⟨rfl, -⟩ := List.append_eq_nil_iff.mp empty.symm
      cases first
  | @blank c cs ls isBlank _ ih =>
    generalize text : c :: cs = ds at h'
    cases h' with
    | nil => cases text
    | blank _ rest =>
      obtain ⟨-, rfl⟩ := List.cons.inj text
      exact ih rest
    | @lexeme l ds ls' first =>
      cases l with
      | nil => cases first
      | cons d l =>
        obtain rfl : c = d := (List.cons.inj text).1
        rw [isBlank_of_isLexeme first] at isBlank
        cases isBlank
  | @lexeme l cs ls first longest _ ih =>
    generalize text : l ++ cs = ds at h'
    cases h' with
    | nil =>
      obtain ⟨rfl, -⟩ := List.append_eq_nil_iff.mp text
      cases first
    | blank isBlank =>
      cases l with
      | nil => cases first
      | cons d l =>
        obtain rfl := (List.cons.inj text).1
        rw [isBlank_of_isLexeme first] at isBlank
        cases isBlank
    | @lexeme l' cs' ls' first' longest' rest =>
      have le := longest' l first (text ▸ List.prefix_append l cs)
      have ge := longest l' first' (text ▸ List.prefix_append l' cs')
      obtain ⟨rfl, rfl⟩ := List.append_inj text (by omega)
      rw [ih rest]

end

end JavaSource
