/-!
# Enumerations with spelled names

The scalar choices of the model (kinds of nodes, operators, modifiers, …) are finite types whose
members have a fixed order and a name. `Enumeration` records both; the position of a member in the
order is what digests use, the name is what descriptions of trees use.
-/

namespace JavaSource

/-- A finite type with its members in order and their names. -/
class Enumeration (α : Type) where
  /-- The members, in order. -/
  members : List α
  /-- The name of a member. -/
  name : α → String
  /-- No member is left out. -/
  mem_members : ∀ a, a ∈ members := by intro a; cases a <;> decide

namespace Enumeration

variable {α : Type} [Enumeration α]

/-- The position of a member in the order. -/
def index [DecidableEq α] (a : α) : Nat :=
  (members (α := α)).idxOf a

/-- The position in the order determines the member. -/
theorem index_inj [DecidableEq α] {a b : α} : index a = index b ↔ a = b := by
  constructor
  · intro h
    have ha := List.getElem_idxOf (List.idxOf_lt_length_of_mem (mem_members a))
    have hb := List.getElem_idxOf (List.idxOf_lt_length_of_mem (mem_members b))
    rw [← ha, ← hb]
    simp only [index] at h
    simp only [h]
  · exact congrArg index

/-- The member with a given name. -/
def ofName? (s : String) : Option α :=
  (members (α := α)).find? fun a => name a == s

end Enumeration

end JavaSource
