import JavaSource.Literal
import Mathlib.Data.List.Basic

/-!
# Reading quoted literals back

Quoted text is read in two phases.

* `translate` replaces unicode escapes. A backslash begins one if it is followed by `u` and the
  number of backslashes directly in front of it is even; four hexadecimal digits have to follow.
* `unescape` replaces escape sequences: a backslash with a letter, a quote, a backslash or an octal
  number behind it. A line never ends inside quotes.

The token of a string or of a character is read back as the string or the character, in quotes
(`LiteralValue.token_denotes`). There are three ways to write a character between quotes
(`Writes`); in each of them the phases give the character back, and the number of backslashes in
front of what follows stays even.
-/

namespace JavaSource

namespace Quotation

/-! ### Unicode escapes -/

/-- The value of a hexadecimal digit. -/
def hexValue? (c : Char) : Option Nat :=
  if '0' ≤ c ∧ c ≤ '9' then some (c.toNat - 48)
  else if 'a' ≤ c ∧ c ≤ 'f' then some (c.toNat - 87)
  else if 'A' ≤ c ∧ c ≤ 'F' then some (c.toNat - 55)
  else none

/-- The number that four hexadecimal digits stand for. -/
def hexValues? (a b c d : Char) : Option Nat := do
  return (((← hexValue? a) * 16 + (← hexValue? b)) * 16 + (← hexValue? c)) * 16 + (← hexValue? d)

/-- The character with a code; half of a surrogate pair is none. -/
def charOfCode? (code : Nat) : Option Char :=
  if code.isValidChar then some (Char.ofNat code) else none

/-- What a unicode escape stands for, and the text behind it. The letter `u` may be repeated. -/
def readUnicode? : List Char → Option (Char × List Char)
  | 'u' :: cs => readUnicode? cs
  | a :: b :: c :: d :: cs =>
    ((hexValues? a b c d).bind charOfCode?).map fun value => (value, cs)
  | _ => none

theorem length_of_readUnicode? {cs rest : List Char} {c : Char}
    (h : readUnicode? cs = some (c, rest)) : rest.length < cs.length := by
  fun_induction readUnicode? cs with
  | case1 cs ih => exact Nat.lt_succ_of_lt (ih h)
  | case2 a b c d cs =>
    obtain ⟨value, -, same⟩ := Option.map_eq_some_iff.mp h
    obtain ⟨-, rfl⟩ := Prod.mk.inj same
    simp only [List.length_cons]
    omega
  | case3 => cases h

/-- The number of backslashes at the end of a text, after one more character. -/
def backslashesAfter (count : Nat) (c : Char) : Nat :=
  if c = '\\' then count + 1 else 0

/-- The text with its unicode escapes replaced, behind a number of backslashes. -/
def translate (count : Nat) : List Char → Option (List Char)
  | [] => some []
  | '\\' :: 'u' :: cs =>
    if count % 2 = 0 then
      match _found : readUnicode? cs with
      | some (c, rest) => (translate 0 rest).map (c :: ·)
      | none => none
    else (translate (count + 1) ('u' :: cs)).map ('\\' :: ·)
  | c :: cs => (translate (backslashesAfter count c) cs).map (c :: ·)
termination_by cs => cs.length
decreasing_by
  · have := length_of_readUnicode? _found
    simp only [List.length_cons]
    omega
  · simp
  · simp

/-! ### Escape sequences -/

/-- What a letter, a quote or a backslash stands for behind a backslash. -/
def sequence? : Char → Option Char
  | 'b' => some '\x08'
  | 't' => some '\t'
  | 'n' => some '\n'
  | 'f' => some '\x0c'
  | 'r' => some '\r'
  | '"' => some '"'
  | '\'' => some '\''
  | '\\' => some '\\'
  | _ => none

/-- The value of an octal digit. -/
def octalValue? (c : Char) : Option Nat :=
  if '0' ≤ c ∧ c ≤ '7' then some (c.toNat - 48) else none

/-- A number with up to `more` further octal digits, and the text behind them. -/
def readOctal (value : Nat) : (more : Nat) → List Char → Nat × List Char
  | more + 1, c :: cs =>
    match octalValue? c with
    | some digit => readOctal (value * 8 + digit) more cs
    | none => (value, c :: cs)
  | _, cs => (value, cs)

/-- What the text behind a backslash stands for, and the text behind that. An octal number has three
digits at most, and two if the first one is above three. -/
def readSequence? : List Char → Option (Char × List Char)
  | [] => none
  | c :: cs =>
    match octalValue? c with
    | some digit =>
      let (value, rest) := readOctal digit (if digit ≤ 3 then 2 else 1) cs
      some (Char.ofNat value, rest)
    | none => (sequence? c).map fun value => (value, cs)

theorem length_readOctal (value more : Nat) (cs : List Char) :
    (readOctal value more cs).2.length ≤ cs.length := by
  fun_induction readOctal value more cs with
  | case1 value more c cs digit _ ih => exact Nat.le_succ_of_le ih
  | case2 => exact Nat.le_refl _
  | case3 => exact Nat.le_refl _

theorem length_of_readSequence? {cs rest : List Char} {c : Char}
    (h : readSequence? cs = some (c, rest)) : rest.length < cs.length := by
  cases cs with
  | nil => cases h
  | cons d cs =>
    simp only [readSequence?] at h
    split at h
    · next digit _ =>
      have shorter := length_readOctal digit (if digit ≤ 3 then 2 else 1) cs
      obtain ⟨-, rfl⟩ := Prod.mk.inj (Option.some.inj h)
      exact Nat.lt_succ_of_le shorter
    · obtain ⟨value, -, same⟩ := Option.map_eq_some_iff.mp h
      obtain ⟨-, rfl⟩ := Prod.mk.inj same
      exact Nat.lt_succ_self _

/-- The text with its escape sequences replaced. A text with the end of a line in it has none. -/
def unescape : List Char → Option (List Char)
  | [] => some []
  | '\\' :: cs =>
    match _found : readSequence? cs with
    | some (c, rest) => (unescape rest).map (c :: ·)
    | none => none
  | c :: cs => if c = '\n' ∨ c = '\r' then none else (unescape cs).map (c :: ·)
termination_by cs => cs.length
decreasing_by
  · have := length_of_readSequence? _found
    simp only [List.length_cons]
    omega
  · simp

/-- What a quoted text stands for. -/
def decode (cs : List Char) : Option (List Char) :=
  (translate 0 cs).bind unescape

/-! ### Where quotes are escaped -/

/-- The number of backslashes at the end of a text. -/
def backslashes (cs : List Char) : Nat :=
  cs.foldl backslashesAfter 0

/-- A token denotes characters in quotes: it is read as them, it is on one line, and of the quotes
in it those at its ends, and no others, have an even number of backslashes in front of them. -/
structure Denotes (quote : Char) (cs token : List Char) : Prop where
  decoded : decode token = some (quote :: cs ++ [quote])
  oneLine : '\n' ∉ token ∧ '\r' ∉ token
  enclosed : ∃ inner, token = quote :: inner ++ [quote]
  unescaped : ∀ before after, token = before ++ quote :: after →
    (backslashes before % 2 = 0 ↔ before = [] ∨ after = [])

/-! ### The first phase -/

section

variable {count : Nat} {c quote : Char} {cs rest : List Char}

theorem translate_of_ne (hc : c ≠ '\\') :
    translate count (c :: cs) = (translate 0 cs).map (c :: ·) := by
  rw [translate, backslashesAfter, if_neg hc]
  rintro rest rfl
  exact absurd rfl hc

/-- A backslash that begins no unicode escape. -/
theorem translate_backslash (h : count % 2 = 1 ∨ cs.head? ≠ some 'u') :
    translate count ('\\' :: cs) = (translate (count + 1) cs).map ('\\' :: ·) := by
  rcases cs with _ | ⟨c, cs⟩
  · simp [translate, backslashesAfter]
  · by_cases hc : c = 'u'
    · subst hc
      have odd : ¬ count % 2 = 0 := by
        rcases h with h | h
        · omega
        · exact absurd rfl h
      rw [translate, if_neg odd]
    · rw [translate, backslashesAfter, if_pos rfl]
      rintro rest - same
      exact hc (List.cons.inj same).1

theorem translate_unicode (even : count % 2 = 0) (found : readUnicode? cs = some (c, rest)) :
    translate count ('\\' :: 'u' :: cs) = (translate 0 rest).map (c :: ·) := by
  rw [translate, if_pos even]
  split
  · next found' =>
    obtain ⟨rfl, rfl⟩ := Prod.mk.inj (Option.some.inj (found.symm.trans found'))
    rfl
  · next missing => rw [found] at missing; cases missing

end

/-- A digit is read as the number it was made of. -/
theorem hexValue?_hexDigit {n : Nat} (hn : n < 16) : hexValue? (hexDigit n) = some n := by
  decide +revert

/-- The digits are digits and the letters from `a` to `f`. -/
theorem hexDigit_ne {n : Nat} (hn : n < 16) {c : Char} (hc : c ∉ "0123456789abcdef".toList) :
    hexDigit n ≠ c := by
  have mem : hexDigit n ∈ "0123456789abcdef".toList := by
    decide +revert
  rintro rfl
  exact hc mem

theorem notMem_hexDigits {c : Char} (hc : c ∉ "0123456789abcdef".toList) (n : Nat) :
    c ∉ hexDigits n := by
  intro mem
  simp only [hexDigits, List.mem_cons, List.not_mem_nil, or_false] at mem
  rcases mem with same | same | same | same
  all_goals exact hexDigit_ne (Nat.mod_lt _ (by decide)) hc same.symm

theorem hexValues?_hexDigits {n : Nat} (hn : n < 65536) :
    hexValues? (hexDigit (n / 4096 % 16)) (hexDigit (n / 256 % 16)) (hexDigit (n / 16 % 16))
      (hexDigit (n % 16)) = some n := by
  simp only [hexValues?, hexValue?_hexDigit (Nat.mod_lt _ (by decide : 0 < 16))]
  simp
  omega

/-- Four digits are read as the character whose code they spell. -/
theorem readUnicode?_hexDigits (c : Char) (hc : c.toNat < 65536) (cs : List Char) :
    readUnicode? (hexDigits c.toNat ++ cs) = some (c, cs) := by
  have first : hexDigit (c.toNat / 4096 % 16) ≠ 'u' :=
    hexDigit_ne (Nat.mod_lt _ (by decide)) (by decide)
  have char : charOfCode? c.toNat = some c := by
    have valid : c.toNat.isValidChar := c.valid
    rw [charOfCode?, if_pos valid, Char.ofNat_toNat]
  rw [hexDigits, List.cons_append, List.cons_append, List.cons_append, List.cons_append,
    List.nil_append, readUnicode?, hexValues?_hexDigits hc, Option.bind_some, char, Option.map_some]
  exact first

/-! ### The ways to write a character -/

/-- A character that may stand between quotes as it is. -/
structure IsPlain (quote c : Char) : Prop where
  ne_quote : c ≠ quote
  ne_backslash : c ≠ '\\'
  ne_lineFeed : c ≠ '\n'
  ne_return : c ≠ '\r'

/-- The ways in which a character is written between quotes. -/
inductive Writes (quote c : Char) : List Char → Prop where
  /-- Behind a backslash, by what stands for it there. -/
  | sequence (d : Char) (stands : sequence? d = some c) : Writes quote c ['\\', d]
  /-- By its code. -/
  | unicode (basic : c.toNat < 65536) (plain : IsPlain quote c) :
      Writes quote c ('\\' :: 'u' :: hexDigits c.toNat)
  /-- As it is. -/
  | plain (plain : IsPlain quote c) : Writes quote c [c]

section

variable {count : Nat} {c d quote : Char} {cs written before after : List Char}

/-- What stands for a character behind a backslash. -/
theorem mem_of_sequence? (h : sequence? d = some c) :
    d ∈ ['b', 't', 'n', 'f', 'r', '"', '\'', '\\'] := by
  fun_cases sequence? d <;> simp_all [sequence?]

theorem writes_escapeChar (hq : quote = '"' ∨ quote = '\'') :
    Writes quote c (escapeChar quote c) := by
  have quoted : sequence? quote = some quote := by
    rcases hq with rfl | rfl <;> rfl
  unfold escapeChar
  split_ifs with h1 h2 h3 h4 h5 h6 h7 h8
  · exact .sequence '\\' (by rw [h1]; rfl)
  · exact .sequence 'n' (by rw [h2]; rfl)
  · exact .sequence 'r' (by rw [h3]; rfl)
  · exact .sequence 't' (by rw [h4]; rfl)
  · exact .sequence 'b' (by rw [h5]; rfl)
  · exact .sequence 'f' (by rw [h6]; rfl)
  · exact .sequence quote (by rw [h7]; exact quoted)
  · refine .unicode ?_ ⟨h7, h1, h2, h3⟩
    simp only [isControl, Bool.or_eq_true, Bool.and_eq_true, decide_eq_true_eq] at h8
    omega
  · exact .plain ⟨h7, h1, h2, h3⟩

/-! ### The phases on one character -/

theorem unescape_sequence (stands : sequence? d = some c) :
    unescape ('\\' :: d :: cs) = (unescape cs).map (c :: ·) := by
  have notOctal : octalValue? d = none := by
    have mem := mem_of_sequence? stands
    revert mem
    simp only [List.mem_cons, List.not_mem_nil, or_false]
    rintro (rfl | rfl | rfl | rfl | rfl | rfl | rfl | rfl) <;> rfl
  have found : readSequence? (d :: cs) = some (c, cs) := by
    simp [readSequence?, notOctal, stands]
  rw [unescape]
  split
  · next found' =>
    obtain ⟨rfl, rfl⟩ := Prod.mk.inj (Option.some.inj (found.symm.trans found'))
    rfl
  · next missing => rw [found] at missing; cases missing

theorem unescape_plain (plain : IsPlain quote c) :
    unescape (c :: cs) = (unescape cs).map (c :: ·) := by
  rw [unescape, if_neg (not_or.mpr ⟨plain.ne_lineFeed, plain.ne_return⟩)]
  exact plain.ne_backslash

/-- There is no backslash at the end of a unicode escape. -/
theorem foldl_backslashesAfter_unicode (count n : Nat) :
    ('\\' :: 'u' :: hexDigits n).foldl backslashesAfter count = 0 := by
  have last : hexDigit (n % 16) ≠ '\\' := hexDigit_ne (Nat.mod_lt _ (by decide)) (by decide)
  simp only [hexDigits, List.foldl_cons, List.foldl_nil, backslashesAfter, if_neg last]

/-- An even number of backslashes stays even behind a written character. -/
theorem Writes.even (h : Writes quote c written) (even : count % 2 = 0) :
    written.foldl backslashesAfter count % 2 = 0 := by
  cases h with
  | sequence d stands =>
    simp only [List.foldl_cons, List.foldl_nil, backslashesAfter, if_true]
    split <;> omega
  | unicode basic plain => rw [foldl_backslashesAfter_unicode]
  | plain plain => simp [backslashesAfter, plain.ne_backslash]

/-- The phases give a written character back and go on behind it. -/
theorem Writes.decode (h : Writes quote c written) (even : count % 2 = 0) :
    ∃ between, (∀ cs, translate count (written ++ cs) =
        (translate (written.foldl backslashesAfter count) cs).map (between ++ ·)) ∧
      ∀ cs, unescape (between ++ cs) = (unescape cs).map (c :: ·) := by
  cases h with
  | sequence d stands =>
    refine ⟨['\\', d], fun cs => ?_, fun cs => unescape_sequence stands⟩
    have other : d ≠ 'u' := by
      rintro rfl
      cases stands
    have first : translate count ('\\' :: d :: cs) =
        (translate (count + 1) (d :: cs)).map ('\\' :: ·) :=
      translate_backslash (.inr (by simpa using other))
    -- a second backslash has an odd number of them in front, so it begins no unicode escape
    have second : translate (count + 1) (d :: cs) =
        (translate (backslashesAfter (count + 1) d) cs).map (d :: ·) := by
      by_cases hd : d = '\\'
      · subst hd
        exact translate_backslash (.inl (by omega))
      · rw [translate_of_ne hd, backslashesAfter, if_neg hd]
    rw [List.cons_append, List.cons_append, List.nil_append, first, second, Option.map_map]
    rfl
  | unicode basic plain =>
    refine ⟨[c], fun cs => ?_, fun cs => unescape_plain plain⟩
    rw [foldl_backslashesAfter_unicode, List.cons_append, List.cons_append,
      translate_unicode even (readUnicode?_hexDigits c basic cs)]
    rfl
  | plain plain =>
    refine ⟨[c], fun cs => ?_, fun cs => unescape_plain plain⟩
    rw [List.singleton_append, translate_of_ne plain.ne_backslash, List.foldl_cons, List.foldl_nil,
      backslashesAfter, if_neg plain.ne_backslash]
    rfl

/-- A quote inside a written character has an odd number of backslashes in front of it. -/
theorem Writes.odd_before (h : Writes quote c written) (hq : quote = '"' ∨ quote = '\'')
    (even : count % 2 = 0) (split : written = before ++ quote :: after) :
    before.foldl backslashesAfter count % 2 = 1 := by
  have mem : quote ∈ written := by simp [split]
  have ne : quote ≠ '\\' := by rcases hq with rfl | rfl <;> decide
  cases h with
  | sequence d stands =>
    match before, split with
    | [], split => exact absurd (List.cons.inj split).1.symm ne
    | [b], split =>
      obtain ⟨rfl, -⟩ := List.cons.inj split
      simp only [List.foldl_cons, List.foldl_nil, backslashesAfter, if_true]
      omega
    | _ :: _ :: _, split =>
      have lengths := congrArg List.length split
      simp at lengths
  | unicode basic plain =>
    have notHex : quote ∉ hexDigits c.toNat :=
      notMem_hexDigits (by rcases hq with rfl | rfl <;> decide) _
    have ne_u : quote ≠ 'u' := by rcases hq with rfl | rfl <;> decide
    simp [ne, ne_u, notHex] at mem
  | plain plain => exact absurd (List.mem_singleton.mp mem).symm plain.ne_quote

/-- A written character does not end a line. -/
theorem Writes.oneLine (h : Writes quote c written) : '\n' ∉ written ∧ '\r' ∉ written := by
  cases h with
  | sequence d stands =>
    have mem := mem_of_sequence? stands
    constructor
    all_goals
      rintro end_mem
      obtain rfl := List.mem_singleton.mp ((List.mem_cons.mp end_mem).resolve_left (by decide))
      exact absurd mem (by decide)
  | unicode basic plain =>
    have notFeed : '\n' ∉ hexDigits c.toNat := notMem_hexDigits (by decide) _
    have notReturn : '\r' ∉ hexDigits c.toNat := notMem_hexDigits (by decide) _
    simp [notFeed, notReturn]
  | plain plain => simp [plain.ne_lineFeed.symm, plain.ne_return.symm]

end

/-! ### The phases on a text -/

section

variable {quote : Char} (hq : quote = '"' ∨ quote = '\'')
include hq

/-- **The phases give quoted characters back.** -/
theorem exists_translate_eq (cs : List Char) {count : Nat} (even : count % 2 = 0) :
    ∃ between, translate count (cs.flatMap (escapeChar quote) ++ [quote]) = some between ∧
      unescape between = some (cs ++ [quote]) := by
  induction cs generalizing count with
  | nil =>
    refine ⟨[quote], ?_⟩
    rcases hq with rfl | rfl <;> simp [translate, unescape]
  | cons c cs ih =>
    have writes := writes_escapeChar (c := c) hq
    obtain ⟨first, translated, unescaped⟩ := writes.decode even
    obtain ⟨rest, translated', unescaped'⟩ := ih (writes.even even)
    refine ⟨first ++ rest, ?_, ?_⟩
    · rw [List.flatMap_cons, List.append_assoc, translated, translated', Option.map_some]
    · rw [unescaped, unescaped', Option.map_some, List.cons_append]

/-- Of the quotes behind an even number of backslashes, only the closing one is unescaped. -/
theorem even_before_iff (cs : List Char) {count : Nat} (even : count % 2 = 0)
    {before after : List Char}
    (split : cs.flatMap (escapeChar quote) ++ [quote] = before ++ quote :: after) :
    before.foldl backslashesAfter count % 2 = 0 ↔ after = [] := by
  induction cs generalizing count before with
  | nil =>
    match before, split with
    | [], split => simpa [even] using (List.cons.inj split).2.symm
    | _ :: _, split => simp at split
  | cons c cs ih =>
    have writes := writes_escapeChar (c := c) hq
    rw [List.flatMap_cons, List.append_assoc, List.append_eq_append_iff] at split
    rcases split with ⟨more, rfl, split⟩ | ⟨more, whole, split⟩
    · -- the quote is behind the first character
      rw [List.foldl_append]
      exact ih (writes.even even) split
    · match more, whole, split with
      | [], whole, split =>
        obtain rfl : escapeChar quote c = before := by simpa using whole
        rw [← List.nil_append (quote :: after)] at split
        exact ih (writes.even even) split.symm
      | q :: more, whole, split =>
        -- the quote is part of the first character, and the closing one is behind it
        obtain ⟨rfl, rfl⟩ := List.cons.inj split
        have odd := writes.odd_before hq even whole
        simp [odd]

/-- **Characters in quotes are denoted by the token they are written as.** -/
theorem denotes_quoted (cs : List Char) : Denotes quote cs (quoted quote cs) := by
  have ne : quote ≠ '\\' := by rcases hq with rfl | rfl <;> decide
  have notEnd : ¬ (quote = '\n' ∨ quote = '\r') := by rcases hq with rfl | rfl <;> decide
  constructor
  · obtain ⟨between, translated, unescaped⟩ := exists_translate_eq hq cs (Nat.zero_mod 2)
    rw [decode, quoted, List.cons_append, translate_of_ne ne, translated, Option.map_some,
      Option.bind_some, unescape, if_neg notEnd, unescaped]
    · rfl
    · exact ne
  · have inner : ∀ c ∈ cs, '\n' ∉ escapeChar quote c ∧ '\r' ∉ escapeChar quote c :=
      fun c _ => (writes_escapeChar hq).oneLine
    obtain ⟨notFeed, notReturn⟩ := not_or.mp notEnd
    simp only [quoted, List.mem_cons, List.mem_append, List.mem_flatMap, List.not_mem_nil, or_false,
      not_or, not_exists, not_and]
    exact ⟨⟨⟨Ne.symm notFeed, fun c hc => (inner c hc).1⟩, Ne.symm notFeed⟩,
      ⟨⟨Ne.symm notReturn, fun c hc => (inner c hc).2⟩, Ne.symm notReturn⟩⟩
  · exact ⟨cs.flatMap (escapeChar quote), rfl⟩
  · intro before after split
    rcases before with _ | ⟨first, before⟩
    · simp [backslashes]
    · obtain ⟨rfl, behind⟩ := List.cons.inj split
      have start : backslashesAfter 0 quote = 0 := by rw [backslashesAfter, if_neg ne]
      rw [backslashes, List.foldl_cons, start, even_before_iff hq cs (Nat.zero_mod 2) behind]
      simp

end

end Quotation

/-- **The token of a string or a character is read back as what it was made from.** Characters
beyond the basic plane have no token. -/
theorem LiteralValue.token_denotes :
    (∀ s : String, ∃ token, (LiteralValue.string s).token = .ok token ∧
      Quotation.Denotes '"' s.toList token.toList) ∧
    (∀ c : Char, c.toNat ≤ 0xffff → ∃ token, (LiteralValue.char c).token = .ok token ∧
      Quotation.Denotes '\'' [c] token.toList) ∧
    (∀ c : Char, 0xffff < c.toNat →
      (LiteralValue.char c).token = .error (.unparsable (String.ofList [c]) .charLiteral)) := by
  refine ⟨fun s => ?_, fun c hc => ?_, fun c hc => ?_⟩
  · refine ⟨_, rfl, ?_⟩
    rw [String.toList_ofList]
    exact Quotation.denotes_quoted (.inl rfl) s.toList
  · refine ⟨_, if_pos hc, ?_⟩
    rw [String.toList_ofList]
    exact Quotation.denotes_quoted (.inr rfl) [c]
  · exact if_neg (Nat.not_le.mpr hc)

/-- A backslash in front of `u`, a control character behind a backslash, and a quote. -/
theorem LiteralValue.token_denotes_mixed :
    (∃ token, (LiteralValue.string "\\u0041\\\x01\"'").token = .ok token ∧
      Quotation.Denotes '"' "\\u0041\\\x01\"'".toList token.toList) ∧
    ('\''.toNat ≤ 0xffff ∧ ∃ token, (LiteralValue.char '\'').token = .ok token ∧
      Quotation.Denotes '\'' ['\''] token.toList) ∧
    (0xffff < '😀'.toNat ∧
      (LiteralValue.char '😀').token = .error (.unparsable (String.ofList ['😀']) .charLiteral)) :=
  ⟨token_denotes.1 _, ⟨by decide, token_denotes.2.1 _ (by decide)⟩,
    ⟨by decide, token_denotes.2.2 _ (by decide)⟩⟩

end JavaSource
