/-!
# Strings of TOML documents

Strings stand in double quotes, with escapes, or in single quotes, without. Three quotes of a kind
make a string of several lines: a line break right behind them does not count, and in the kind with
escapes a backslash at the end of a line takes all blank characters behind it away.

The functions here read what follows the opening quotes, and give the characters of the string and
the rest of the input.
-/

namespace JavaSource

namespace Toml

/-- Whether a character may not stand in a line: all control characters but the tabulator. -/
def isForbidden (c : Char) : Bool :=
  (c.toNat < 32 && c != '\t') || c.toNat == 127

/-- Whether a character is a space or a tabulator. -/
def isSpace (c : Char) : Bool :=
  c == ' ' || c == '\t'

/-- The value of a hexadecimal digit. -/
def hexValue? (c : Char) : Option Nat :=
  if '0' ≤ c ∧ c ≤ '9' then some (c.toNat - 48)
  else if 'a' ≤ c ∧ c ≤ 'f' then some (c.toNat - 87)
  else if 'A' ≤ c ∧ c ≤ 'F' then some (c.toNat - 55)
  else none

/-- The character with a code in hexadecimal digits. -/
def charOfHex? (digits : List Char) : Option Char := do
  let n ← digits.foldlM (fun n c => (hexValue? c).map (16 * n + ·)) 0
  if n < 0xd800 ∨ (0xdfff < n ∧ n < 0x110000) then return Char.ofNat n else none

/-- The character that is written behind a backslash, and the rest. -/
def escape? : List Char → Option (Char × List Char)
  | 'b' :: r => some ('\x08', r)
  | 't' :: r => some ('\t', r)
  | 'n' :: r => some ('\n', r)
  | 'f' :: r => some ('\x0c', r)
  | 'r' :: r => some ('\r', r)
  | 'e' :: r => some ('\x1b', r)
  | '"' :: r => some ('"', r)
  | '\\' :: r => some ('\\', r)
  | 'x' :: a :: b :: r => (charOfHex? [a, b]).map (·, r)
  | 'u' :: a :: b :: c :: d :: r => (charOfHex? [a, b, c, d]).map (·, r)
  | 'U' :: a :: b :: c :: d :: e :: f :: g :: h :: r =>
    (charOfHex? [a, b, c, d, e, f, g, h]).map (·, r)
  | _ => none

/-- A string with escapes in one line. -/
def basic : (steps : Nat) → List Char → Option (List Char × List Char)
  | 0, _ | _, [] => none
  | _ + 1, '"' :: r => some ([], r)
  | n + 1, '\\' :: r => do
    let (c, r) ← escape? r
    let (s, r) ← basic n r
    return (c :: s, r)
  | n + 1, c :: r =>
    if isForbidden c then none
    else (basic n r).map fun (s, r) => (c :: s, r)

/-- A string without escapes in one line. -/
def plain : List Char → Option (List Char × List Char)
  | [] => none
  | c :: r =>
    if c = '\x27' then some ([], r)
    else if isForbidden c then none
    else (plain r).map fun (s, r) => (c :: s, r)

/-- What is being read of a string of several lines. -/
inductive Mode where
  /-- The text itself. -/
  | text
  /-- What follows a backslash up to the end of the line. -/
  | lineEnd
  /-- Blank characters that do not count. -/
  | margin
  deriving DecidableEq

/-- A string with escapes in several lines. -/
def basicLines : (steps : Nat) → Mode → List Char → Option (List Char × List Char)
  | 0, _, _ | _, _, [] => none
  | n + 1, .lineEnd, '\n' :: r | n + 1, .lineEnd, '\r' :: '\n' :: r => basicLines n .margin r
  | n + 1, .lineEnd, c :: r => if isSpace c then basicLines n .lineEnd r else none
  | n + 1, .margin, '\n' :: r | n + 1, .margin, '\r' :: '\n' :: r => basicLines n .margin r
  | n + 1, .margin, c :: r =>
    if isSpace c then basicLines n .margin r else basicLines n .text (c :: r)
  | _ + 1, .text, '"' :: '"' :: '"' :: '"' :: '"' :: r => some (['"', '"'], r)
  | _ + 1, .text, '"' :: '"' :: '"' :: '"' :: r => some (['"'], r)
  | _ + 1, .text, '"' :: '"' :: '"' :: r => some ([], r)
  | n + 1, .text, '\r' :: '\n' :: r =>
    (basicLines n .text r).map fun (s, r) => ('\r' :: '\n' :: s, r)
  | n + 1, .text, '\\' :: r =>
    match escape? r with
    | some (c, r) => (basicLines n .text r).map fun (s, r) => (c :: s, r)
    | none => basicLines n .lineEnd r
  | n + 1, .text, c :: r =>
    if isForbidden c && c != '\n' then none
    else (basicLines n .text r).map fun (s, r) => (c :: s, r)

/-- A string without escapes in several lines. -/
def plainLines : List Char → Option (List Char × List Char)
  | [] => none
  | '\x27' :: '\x27' :: '\x27' :: '\x27' :: '\x27' :: r => some (['\x27', '\x27'], r)
  | '\x27' :: '\x27' :: '\x27' :: '\x27' :: r => some (['\x27'], r)
  | '\x27' :: '\x27' :: '\x27' :: r => some ([], r)
  | '\r' :: '\n' :: r => (plainLines r).map fun (s, r) => ('\r' :: '\n' :: s, r)
  | c :: r =>
    if isForbidden c && c != '\n' then none
    else (plainLines r).map fun (s, r) => (c :: s, r)

/-- The input without a line break at its start. -/
def dropLineBreak : List Char → List Char
  | '\n' :: r | '\r' :: '\n' :: r => r
  | r => r

/-- A string of one line, with its opening quote. -/
def string? : List Char → Option (String × List Char)
  | '"' :: r => (basic (r.length + 1) r).map fun (s, r) => (String.ofList s, r)
  | '\x27' :: r => (plain r).map fun (s, r) => (String.ofList s, r)
  | _ => none

/-- A string of one or several lines, with its opening quotes. -/
def anyString? : List Char → Option (String × List Char)
  | '"' :: '"' :: '"' :: r =>
    (basicLines (2 * r.length + 1) .text (dropLineBreak r)).map fun (s, r) => (String.ofList s, r)
  | '\x27' :: '\x27' :: '\x27' :: r =>
    (plainLines (dropLineBreak r)).map fun (s, r) => (String.ofList s, r)
  | r => string? r

end Toml

end JavaSource
