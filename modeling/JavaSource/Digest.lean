import JavaSource.Outline

/-!
# Digests

The digest of a tree is a 64-bit number computed modulo `2 ^ 64`. A node starts from the position of
its kind and folds in its fields, `h ↦ h * 31 + d`, in the order in which the kind declares them; a
list folds its elements from `1`, and a missing field counts as `0`. Texts, numbers and choices are
hashed by a multiplicative hash of their own. Handles take no part.
-/

namespace JavaSource

namespace Scalar

/-! ### Hashing of scalars -/

/-- The factor by which each added word is spread over the state. -/
def factor : UInt64 := 0xf1357aea2e62a9c5

/-- The state after a word is added. -/
def add (state word : UInt64) : UInt64 :=
  (state + word) * factor

/-- The hash of a state: the state rotated left by 26 bits. -/
def finish (state : UInt64) : UInt64 :=
  (state <<< 26) ||| (state >>> 38)

/-- The low and the high half of a 128-bit product, folded together. -/
def mix (x y : UInt64) : UInt64 :=
  let product := x.toNat * y.toNat
  UInt64.ofNat product ^^^ UInt64.ofNat (product >>> 64)

/-- The number written by bytes, the lowest byte first. -/
def littleEndian : List UInt8 → UInt64
  | [] => 0
  | b :: bs => b.toUInt64 ||| (littleEndian bs <<< 8)

/-- The bytes from `start` on, `count` of them, as a number. -/
def readAt (bytes : ByteArray) (start count : Nat) : UInt64 :=
  littleEndian (bytes.extract start (start + count)).data.toList

/-- The two words of the state after the sixteen-byte blocks before the last sixteen bytes. -/
def absorb (bytes : ByteArray) : (blocks : Nat) → (start : Nat) → UInt64 × UInt64 → UInt64 × UInt64
  | 0, _, s => s
  | blocks + 1, start, (s0, s1) =>
    absorb bytes blocks (start + 16)
      (s1, mix (s0 ^^^ readAt bytes start 8) (0xa4093822299f31d0 ^^^ readAt bytes (start + 8) 8))

/-- The hash of a sequence of bytes. -/
def hashBytes (bytes : ByteArray) : UInt64 :=
  let n := bytes.size
  let s0 : UInt64 := 0x243f6a8885a308d3
  let s1 : UInt64 := 0x13198a2e03707344
  let (s0, s1) :=
    if n = 0 then (s0, s1)
    else if n < 4 then
      (s0 ^^^ readAt bytes 0 1, s1 ^^^ (readAt bytes (n - 1) 1 <<< 8 ||| readAt bytes (n / 2) 1))
    else if n < 8 then (s0 ^^^ readAt bytes 0 4, s1 ^^^ readAt bytes (n - 4) 4)
    else if n ≤ 16 then (s0 ^^^ readAt bytes 0 8, s1 ^^^ readAt bytes (n - 8) 8)
    else
      let (s0, s1) := absorb bytes ((n - 1) / 16) 0 (s0, s1)
      (s0 ^^^ readAt bytes (n - 16) 8, s1 ^^^ readAt bytes (n - 8) 8)
  mix s0 s1 ^^^ UInt64.ofNat n

/-- The hash of a number. -/
def hashNat (n : Nat) : UInt64 :=
  finish (add 0 (UInt64.ofNat n))

/-- The hash of a text, ended by the byte that no text contains. -/
def hashText (s : String) : UInt64 :=
  finish (add (add 0 (hashBytes s.toUTF8)) 0xff)

end Scalar

namespace Outline

/-- A digest with the digest of a part folded in. -/
def combine (h d : UInt64) : UInt64 :=
  h * 31 + d

mutual

/-- The digest of a tree. -/
def digest : Outline → UInt64
  | .node kind _ fields => digestFrom (UInt64.ofNat (Enumeration.index kind) + 1) fields
  | .text s => Scalar.hashText s
  | .flag b => Scalar.hashNat b.toNat
  | .count n => Scalar.hashNat n
  | .choice index _ => Scalar.hashNat index
  | .absent => 0
  | .list elements => digestFrom 1 elements

/-- A digest with the digests of several parts folded in. -/
def digestFrom (h : UInt64) : List Outline → UInt64
  | [] => h
  | o :: os => digestFrom (combine h o.digest) os

end

end Outline

end JavaSource
