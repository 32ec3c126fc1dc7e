import JavaSource.Text.Ranges

/-!
# Blank characters

A character is blank if it has the Unicode property `White_Space`. Trimming removes blank
characters from the ends of a text; it is stated on lists of characters and lifted to `String`.
-/

namespace JavaSource.Text

/-- The ranges of blank characters, in increasing order. -/
def blankRanges : List (Nat × Nat) :=
  [(0x9, 0xD), (0x20, 0x20), (0x85, 0x85), (0xA0, 0xA0), (0x1680, 0x1680), (0x2000, 0x200A),
   (0x2028, 0x2029), (0x202F, 0x202F), (0x205F, 0x205F), (0x3000, 0x3000)]

/-- Whether a character is blank. -/
def isBlank (c : Char) : Bool :=
  inRanges blankRanges c.toNat

/-- Whether every character of a text is blank. -/
def AllBlank (s : String) : Prop :=
  ∀ c ∈ s.toList, isBlank c = true

instance {s : String} : Decidable (AllBlank s) :=
  decidable_of_iff (s.toList.all isBlank = true) List.all_eq_true

/-- The characters without the blank ones at the front. -/
def dropBlank (cs : List Char) : List Char :=
  cs.dropWhile isBlank

/-- The characters without the blank ones at the end. -/
def dropBlankEnd (cs : List Char) : List Char :=
  (cs.reverse.dropWhile isBlank).reverse

/-- A text without the blank characters at its end. -/
def trimEnd (s : String) : String :=
  String.ofList (dropBlankEnd s.toList)

/-- A text without the blank characters at either end. -/
def trim (s : String) : String :=
  String.ofList (dropBlankEnd (dropBlank s.toList))

end JavaSource.Text
