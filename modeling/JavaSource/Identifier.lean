import JavaSource.Text.Alphabetic
import JavaSource.Text.Numeric

/-!
# Identifiers

An identifier is a letter, `_` or `$`, followed by letters, numbers, `_` and `$`. Keywords are not
singled out: whether a word may be used as a name is for the reader of the source to decide.
-/

namespace JavaSource

/-- Whether an identifier may start with the character. -/
def isIdentifierStart (c : Char) : Bool :=
  Text.isAlphabetic c || c == '_' || c == '$'

/-- Whether the character may stand behind the start of an identifier. -/
def isIdentifierPart (c : Char) : Bool :=
  Text.isAlphabetic c || Text.isNumeric c || c == '_' || c == '$'

/-- Whether a list of characters spells an identifier. -/
def spellsIdentifier : List Char → Bool
  | [] => false
  | c :: cs => isIdentifierStart c && cs.all isIdentifierPart

/-- Whether a text is an identifier. -/
def isIdentifier (s : String) : Bool :=
  spellsIdentifier s.toList

theorem isIdentifierPart_of_isIdentifierStart {c : Char} (h : isIdentifierStart c = true) :
    isIdentifierPart c = true := by
  simp only [isIdentifierStart, isIdentifierPart, Bool.or_eq_true] at h ⊢
  rcases h with (h | h) | h <;> simp [h]

/-- An identifier has a first character, and all its characters can stand in an identifier. -/
theorem forall_isIdentifierPart {cs : List Char} (h : spellsIdentifier cs = true) :
    cs ≠ [] ∧ ∀ c ∈ cs, isIdentifierPart c = true := by
  cases cs with
  | nil => cases h
  | cons c cs =>
    simp only [spellsIdentifier, Bool.and_eq_true, List.all_eq_true] at h
    refine ⟨List.cons_ne_nil c cs, fun d hd => ?_⟩
    rcases List.mem_cons.mp hd with rfl | hd
    · exact isIdentifierPart_of_isIdentifierStart h.1
    · exact h.2 d hd

end JavaSource
