import JavaSource.Decimal.Binary

/-!
# The shortest decimal of a binary number

A decimal stands for a member of a binary format if it is nearer to it than to its neighbours; a
decimal half-way between two members stands for the one with an even significand. Of the decimals
with the fewest digits that stand for a number, `Dyadic.shortest` is the nearest one, and the larger
one of two that are equally near.

The search goes through the powers of ten from above. Of the multiples of a power of ten, only the
two next to the number have to be looked at.
-/

namespace JavaSource

/-- A number `digits * 10 ^ exponent`. -/
structure Decimal where
  /-- The whole number. -/
  digits : Nat
  /-- The exponent of ten. -/
  exponent : Int
  deriving DecidableEq

namespace Decimal

/-- The decimal `n * 10 ^ e` with final zeros of `n` moved into the exponent. -/
def dropZeros : (steps : Nat) → Nat → Int → Decimal
  | 0, n, e => ⟨n, e⟩
  | k + 1, n, e => if n ≠ 0 ∧ n % 10 = 0 then dropZeros k (n / 10) (e + 1) else ⟨n, e⟩

/-- The decimal of the same value that does not end with a zero. It has fewer final zeros than its
digits have bits. -/
def trimZeros (d : Decimal) : Decimal :=
  dropZeros (d.digits.log2 + 1) d.digits d.exponent

end Decimal

namespace Dyadic

/-- The numerator and denominator of `n * 2 ^ a * 10 ^ b`. -/
def fraction (n : Nat) (a b : Int) : Nat × Nat :=
  (n * Nat.pow 2 a.toNat * Nat.pow 10 b.toNat, Nat.pow 2 (-a).toNat * Nat.pow 10 (-b).toNat)

/-- Whether a multiple of a power of ten stands for the number. Both are compared in quarters of the
last place of the number. -/
def admits (x : Dyadic) (multiple : Nat) (power : Int) : Bool :=
  let below := 4 * x.significand - (if x.narrowBelow then 1 else 2)
  let above := 4 * x.significand + 2
  let (n, d) := fraction multiple (2 - x.exponent) power
  if x.significand % 2 = 0 then below * d ≤ n && n ≤ above * d
  else below * d < n && n < above * d

/-- The multiple of a power of ten that is nearest to the number among those that stand for it. -/
def nearest? (x : Dyadic) (power : Int) : Option Nat :=
  let (n, d) := fraction x.significand x.exponent (-power)
  let down := n / d
  match x.admits down power, x.admits (down + 1) power with
  | true, true => some (if d ≤ 2 * (n % d) then down + 1 else down)
  | true, false => some down
  | false, true => some (down + 1)
  | false, false => none

/-- A power of ten that is at least the number. -/
def topPower (x : Dyadic) : Int :=
  (x.exponent + x.significand.log2 + 1) * 30103 / 100000 + 1

/-- The first power of ten, going down, with a multiple that stands for the number. -/
def search (x : Dyadic) : (steps : Nat) → Int → Decimal
  | 0, power => ⟨0, power⟩
  | k + 1, power =>
    match x.nearest? power with
    | some n => ⟨n, power⟩
    | none => search x k (power - 1)

/-- The shortest decimal that stands for the number. Twenty powers are enough for all formats of up
to 64 bits. -/
def shortest (x : Dyadic) : Decimal :=
  (x.search 20 x.topPower).trimZeros

end Dyadic

end JavaSource
