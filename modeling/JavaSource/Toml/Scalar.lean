import JavaSource.Text.Split

/-!
# Numbers, truth values and dates of TOML documents

These are written without quotes. Nothing is done with a number or a date, so it is only checked
that it is well formed and in range:

* integers in decimal, hexadecimal, octal or binary digits, from `-2 ^ 127` up to `2 ^ 128`;
* floating-point numbers, finite when rounded to 64 bits, or one of the words for those that are
  not;
* dates and times of the calendar, with or without seconds and an offset.
-/

namespace JavaSource

namespace Toml

/-! ### Numbers -/

/-- Whether a character is a decimal digit. -/
def isDigit (c : Char) : Bool :=
  '0' ≤ c && c ≤ '9'

/-- The value of a digit, which may be hexadecimal. -/
def digitValue (c : Char) : Nat :=
  if c ≤ '9' then c.toNat - 48 else if c ≤ 'F' then c.toNat - 55 else c.toNat - 87

/-- Whether a character is a digit of a base up to sixteen. -/
def isDigitOf (base : Nat) (c : Char) : Bool :=
  (isDigit c || ('a' ≤ c && c ≤ 'f') || ('A' ≤ c && c ≤ 'F')) && digitValue c < base

/-- Digits with single underscores between them, without the underscores. -/
def digits? (base : Nat) (cs : List Char) : Option (List Char) :=
  let groups := Text.splitAt '_' cs
  if groups.all fun g => !g.isEmpty && g.all (isDigitOf base) then some groups.flatten else none

/-- The number with given digits. -/
def ofDigits (base : Nat) (ds : List Char) : Nat :=
  ds.foldl (fun n c => base * n + digitValue c) 0

/-- Decimal digits that do not start with a zero, unless it is the only one. -/
def wholeDigits? (cs : List Char) : Option (List Char) :=
  match digits? 10 cs with
  | some ('0' :: _ :: _) => none
  | ds => ds

/-- The sign of a number and the rest. -/
def sign : List Char → Bool × List Char
  | '-' :: r => (true, r)
  | '+' :: r => (false, r)
  | r => (false, r)

/-- Whether characters are an integer in range. -/
def isInteger : List Char → Bool
  | '0' :: 'x' :: r => (digits? 16 r).any fun ds => ofDigits 16 ds < Nat.pow 2 128
  | '0' :: 'o' :: r => (digits? 8 r).any fun ds => ofDigits 8 ds < Nat.pow 2 128
  | '0' :: 'b' :: r => (digits? 2 r).any fun ds => ofDigits 2 ds < Nat.pow 2 128
  | cs =>
    let (negative, r) := sign cs
    (wholeDigits? r).any fun ds =>
      if negative then ofDigits 10 ds ≤ Nat.pow 2 127 else ofDigits 10 ds < Nat.pow 2 128

/-- Whether `ds * 10 ^ e` is finite when rounded to 64 bits: it is below the number half-way between
the largest finite one and the next power of two. -/
def isFinite (ds : List Char) (e : Int) : Bool :=
  let n := ofDigits 10 ds
  let size := (toString n).length + e
  if n = 0 ∨ size < 309 then true
  else if 309 < size then false
  else n * Nat.pow 10 e.toNat < (Nat.pow 2 1024 - Nat.pow 2 970) * Nat.pow 10 (-e).toNat

/-- Whether characters are a floating-point number in range. -/
def isFloat (cs : List Char) : Bool :=
  let (_, r) := sign cs
  if r = "inf".toList ∨ r = "nan".toList then true
  else
    let (mantissa, power) := r.span fun c => c != 'e' && c != 'E'
    let (whole, point) := mantissa.span (· != '.')
    if point.isEmpty && power.isEmpty then false
    else
      match wholeDigits? whole, (if point.isEmpty then some [] else digits? 10 (point.drop 1)),
        (if power.isEmpty then some ['0'] else digits? 10 (sign (power.drop 1)).2) with
      | some w, some f, some p =>
        let exponent : Int := if (sign (power.drop 1)).1 then -(ofDigits 10 p) else ofDigits 10 p
        isFinite (w ++ f) (exponent - f.length)
      | _, _, _ => false

/-! ### Dates and times -/

/-- The number with given decimal digits, if they are digits. -/
def number? (cs : List Char) : Option Nat :=
  if cs.all isDigit then some (ofDigits 10 cs) else none

/-- The number of days of a month. -/
def daysOf (year month : Nat) : Nat :=
  if month = 2 then
    if year % 4 = 0 ∧ (year % 100 ≠ 0 ∨ year % 400 = 0) then 29 else 28
  else if month = 4 ∨ month = 6 ∨ month = 9 ∨ month = 11 then 30
  else 31

/-- Takes a date of the calendar from the start. -/
def date? : List Char → Option (List Char)
  | y₁ :: y₂ :: y₃ :: y₄ :: '-' :: m₁ :: m₂ :: '-' :: d₁ :: d₂ :: r => do
    let year ← number? [y₁, y₂, y₃, y₄]
    let month ← number? [m₁, m₂]
    let day ← number? [d₁, d₂]
    if 1 ≤ month ∧ month ≤ 12 ∧ 1 ≤ day ∧ day ≤ daysOf year month then return r else none
  | _ => none

/-- Takes hours and minutes from the start. -/
def minutes? : List Char → Option (List Char)
  | h₁ :: h₂ :: ':' :: m₁ :: m₂ :: r => do
    let hour ← number? [h₁, h₂]
    let minute ← number? [m₁, m₂]
    if hour < 24 ∧ minute < 60 then return r else none
  | _ => none

/-- Takes a fraction of a second from the start, if there is one. -/
def fraction? : List Char → Option (List Char)
  | '.' :: d :: r => if isDigit d then some (r.dropWhile isDigit) else none
  | '.' :: _ => none
  | r => some r

/-- Takes a time of the day from the start. A minute may have a leap second. -/
def time? (cs : List Char) : Option (List Char) := do
  match ← minutes? cs with
  | ':' :: s₁ :: s₂ :: r =>
    let second ← number? [s₁, s₂]
    if second ≤ 60 then fraction? r else none
  | ':' :: _ => none
  | r => return r

/-- Whether characters are an offset from universal time, or nothing. -/
def isOffset : List Char → Bool
  | [] | ['Z'] | ['z'] => true
  | '+' :: r | '-' :: r => minutes? r == some []
  | _ => false

/-- Whether characters are a date, a time of the day, or both. -/
def isMoment (cs : List Char) : Bool :=
  match date? cs with
  | some [] => true
  | some (c :: r) => (c == 'T' || c == 't' || c == ' ') && (time? r).any isOffset
  | none => time? cs == some []

/-! ### Words -/

/-- Whether a character can stand in a word without quotes. -/
def isWordChar (c : Char) : Bool :=
  isDigit c || ('a' ≤ c && c ≤ 'z') || ('A' ≤ c && c ≤ 'Z') || c == '_' || c == '-' || c == '+' ||
    c == '.' || c == ':'

/-- The word at the start and the rest. A time may follow its date behind a space. -/
def word (cs : List Char) : List Char × List Char :=
  let (w, r) := cs.span isWordChar
  match r with
  | ' ' :: d :: _ =>
    if date? w == some [] && isDigit d then
      let (t, r) := (r.drop 1).span isWordChar
      (w ++ ' ' :: t, r)
    else (w, r)
  | _ => (w, r)

end Toml

end JavaSource
