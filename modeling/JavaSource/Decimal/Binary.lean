/-!
# Binary floating-point words

A word of a binary format holds a sign, an exponent and a fraction. `BinaryFormat.decode` takes a
word apart: a finite word stands for a whole number times a power of two, up to the sign.
-/

namespace JavaSource

/-- The widths of the fields of a binary floating-point word. -/
structure BinaryFormat where
  /-- The number of bits of the fraction. -/
  fractionBits : Nat
  /-- The number of bits of the exponent. -/
  exponentBits : Nat
  deriving DecidableEq

namespace BinaryFormat

/-- Words of 32 bits. -/
def single : BinaryFormat := ⟨23, 8⟩

/-- Words of 64 bits. -/
def double : BinaryFormat := ⟨52, 11⟩

/-- The exponent of two for the smallest numbers. -/
def leastExponent (f : BinaryFormat) : Int :=
  2 - Int.ofNat (Nat.pow 2 (f.exponentBits - 1)) - f.fractionBits

end BinaryFormat

/-- A positive number `significand * 2 ^ exponent`, as a member of a binary format. -/
structure Dyadic where
  /-- The whole number. -/
  significand : Nat
  /-- The exponent of two. -/
  exponent : Int
  /-- Whether the next smaller number of the format is only half as far away as the next larger
  one. -/
  narrowBelow : Bool
  deriving DecidableEq

/-- What a word stands for. -/
inductive BinaryValue where
  /-- No number. -/
  | undefined
  /-- An infinity. -/
  | infinite (negative : Bool)
  /-- A zero. -/
  | zero (negative : Bool)
  /-- Any other number. -/
  | nonzero (negative : Bool) (magnitude : Dyadic)
  deriving DecidableEq

/-- The meaning of a word, of which higher bits are not looked at. -/
def BinaryFormat.decode (f : BinaryFormat) (word : Nat) : BinaryValue :=
  let unit := Nat.pow 2 f.fractionBits
  let exponents := Nat.pow 2 f.exponentBits
  let fraction := word % unit
  let exponent := word / unit % exponents
  let negative := word / unit / exponents % 2 == 1
  if exponent = exponents - 1 then
    if fraction = 0 then .infinite negative else .undefined
  else if exponent = 0 then
    if fraction = 0 then .zero negative
    else .nonzero negative ⟨fraction, f.leastExponent, false⟩
  else
    .nonzero negative ⟨unit + fraction, f.leastExponent + exponent - 1,
      fraction == 0 && exponent != 1⟩

end JavaSource
