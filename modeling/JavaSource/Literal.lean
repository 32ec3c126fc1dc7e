import JavaSource.Decimal.Shortest
import JavaSource.Tree.Checked

/-!
# Literals

The token of a literal for a value of the language: numbers in decimal, characters and strings
quoted. Floating-point numbers are written with the fewest digits that read back as the same number,
with an exponent where the number is very large or very small; infinities and undefined numbers have
no literal, and neither have characters beyond the basic plane.
-/

namespace JavaSource

/-! ### Numbers -/

namespace Decimal

/-- The number of digits in front of the point, which is not positive if the first digit stands
behind the point. -/
def pointPosition (d : Decimal) : Int :=
  (toString d.digits).length + d.exponent

/-- The number in positional form, with a digit behind the point. -/
def positional (d : Decimal) : String :=
  let ds := (toString d.digits).toList
  let p := d.pointPosition
  if p ≤ 0 then String.ofList (['0', '.'] ++ List.replicate (-p).toNat '0' ++ ds)
  else if ds.length ≤ p then
    String.ofList (ds ++ List.replicate (p.toNat - ds.length) '0' ++ ['.', '0'])
  else String.ofList (ds.take p.toNat ++ ['.'] ++ ds.drop p.toNat)

/-- The number as a first digit, further digits, and a power of ten. -/
def scientific (d : Decimal) : String :=
  match (toString d.digits).toList with
  | [] => ""
  | first :: rest =>
    String.ofList (first :: if rest.isEmpty then [] else '.' :: rest) ++ "e" ++
      toString (d.pointPosition - 1)

/-- The number with an exponent from `10 ^ 16` on and below `10 ^ (-4)`. -/
def write (d : Decimal) : String :=
  if -4 < d.pointPosition ∧ d.pointPosition ≤ 16 then d.positional else d.scientific

end Decimal

namespace BinaryValue

/-- The text of a number, or the word for what is none. -/
def write : BinaryValue → Except String String
  | .undefined => .error "NaN"
  | .infinite negative => .error (if negative then "-inf" else "inf")
  | .zero negative => .ok (if negative then "-0.0" else "0.0")
  | .nonzero negative x => .ok ((if negative then "-" else "") ++ x.shortest.write)

end BinaryValue

/-! ### Characters -/

/-- The lower-case hexadecimal digit of a number below sixteen. -/
def hexDigit (n : Nat) : Char :=
  if n < 10 then Char.ofNat (48 + n) else Char.ofNat (87 + n)

/-- Four hexadecimal digits. -/
def hexDigits (n : Nat) : List Char :=
  [hexDigit (n / 4096 % 16), hexDigit (n / 256 % 16), hexDigit (n / 16 % 16), hexDigit (n % 16)]

/-- Whether a character is a control character. -/
def isControl (c : Char) : Bool :=
  c.toNat < 32 || (127 ≤ c.toNat && c.toNat < 160)

/-- A character as it is written between quotes. -/
def escapeChar (quote c : Char) : List Char :=
  if c = '\\' then ['\\', '\\']
  else if c = '\n' then ['\\', 'n']
  else if c = '\r' then ['\\', 'r']
  else if c = '\t' then ['\\', 't']
  else if c = '\x08' then ['\\', 'b']
  else if c = '\x0c' then ['\\', 'f']
  else if c = quote then ['\\', quote]
  else if isControl c then '\\' :: 'u' :: hexDigits c.toNat
  else [c]

/-- Characters in quotes. -/
def quoted (quote : Char) (cs : List Char) : List Char :=
  quote :: cs.flatMap (escapeChar quote) ++ [quote]

/-! ### Values -/

/-- A value that has a literal, or would have one. -/
inductive LiteralValue where
  /-- An integer of 32 bits. -/
  | int (value : Int32)
  /-- An integer of 64 bits. -/
  | long (value : Int64)
  /-- A floating-point number of 32 bits, as a word. -/
  | float (word : UInt32)
  /-- A floating-point number of 64 bits, as a word. -/
  | double (word : UInt64)
  /-- A truth value. -/
  | boolean (value : Bool)
  /-- A character. -/
  | char (value : Char)
  /-- A string. -/
  | string (value : String)
  /-- The null reference. -/
  | null
  deriving DecidableEq

namespace LiteralValue

/-- The token of the literal for a value. -/
def token : LiteralValue → Except BuildError String
  | .int n => .ok (toString n.toInt)
  | .long n => .ok (toString n.toInt ++ "L")
  | .float word =>
    match (BinaryFormat.single.decode word.toNat).write with
    | .ok s => .ok (s ++ "f")
    | .error s => .error (.unparsable s .floatLiteral)
  | .double word =>
    match (BinaryFormat.double.decode word.toNat).write with
    | .ok s => .ok s
    | .error s => .error (.unparsable s .doubleLiteral)
  | .boolean b => .ok (if b then "true" else "false")
  | .char c =>
    if c.toNat ≤ 0xffff then .ok (String.ofList (quoted '\'' [c]))
    else .error (.unparsable (String.ofList [c]) .charLiteral)
  | .string s => .ok (String.ofList (quoted '"' s.toList))
  | .null => .ok "null"

/-- The literal for a value. -/
def literal (v : LiteralValue) (handle : Handle := none) : Except BuildError Expression := do
  Tree.ofToken handle (← v.token)

end LiteralValue

end JavaSource
