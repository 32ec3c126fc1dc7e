import JavaSource.Proofs.Outline.Erasure

/-!
# Conditions on every node of a tree

`Outline.AllNodes P o` says that each node of `o` has the property `P`. It splits into a condition
on the topmost node and one on each of its fields; a field without nodes has none to fulfil.
-/

namespace JavaSource

namespace Outline

variable {P : Outline → Prop}

/-- Every node of a tree has a property. -/
def AllNodes (P : Outline → Prop) (o : Outline) : Prop :=
  ∀ n ∈ o.preorder, P n

/-- Every node of several trees has a property. -/
def EachNodes (P : Outline → Prop) (os : List Outline) : Prop :=
  ∀ n ∈ preorderEach os, P n

instance [DecidablePred P] {o : Outline} : Decidable (o.AllNodes P) :=
  inferInstanceAs (Decidable (∀ n ∈ o.preorder, P n))

@[simp] theorem eachNodes_nil : EachNodes P [] := by
  simp [EachNodes, preorderEach]

@[simp] theorem eachNodes_cons {o : Outline} {os : List Outline} :
    EachNodes P (o :: os) ↔ o.AllNodes P ∧ EachNodes P os := by
  simp [EachNodes, AllNodes, preorderEach, or_imp, forall_and]

@[simp] theorem eachNodes_map {α : Type} {f : α → Outline} {as : List α} :
    EachNodes P (as.map f) ↔ ∀ a ∈ as, (f a).AllNodes P := by
  induction as with
  | nil => simp
  | cons a as ih => simp [ih]

@[simp] theorem allNodes_node {k : Kind} {h : Handle} {fs : List Outline} :
    (node k h fs).AllNodes P ↔ P (node k h fs) ∧ EachNodes P fs := by
  simp [AllNodes, EachNodes, preorder]

@[simp] theorem allNodes_list {os : List Outline} : (list os).AllNodes P ↔ EachNodes P os := by
  simp [AllNodes, EachNodes, preorder]

@[simp] theorem allNodes_text (s : String) : (text s).AllNodes P := by
  simp [AllNodes, preorder]

@[simp] theorem allNodes_flag (b : Bool) : (flag b).AllNodes P := by
  simp [AllNodes, preorder]

@[simp] theorem allNodes_count (n : Nat) : (count n).AllNodes P := by
  simp [AllNodes, preorder]

@[simp] theorem allNodes_absent : absent.AllNodes P := by
  simp [AllNodes, preorder]

@[simp] theorem allNodes_ofChoice {α : Type} [DecidableEq α] [Enumeration α] (a : α) :
    (ofChoice a).AllNodes P := by
  simp [AllNodes, ofChoice, preorder]

@[simp] theorem allNodes_ofOption {α : Type} {f : α → Outline} {a : Option α} :
    (ofOption f a).AllNodes P ↔ ∀ a' ∈ a.toList, (f a').AllNodes P := by
  cases a <;> simp [ofOption]

@[simp] theorem allNodes_ofList {α : Type} {f : α → Outline} {as : List α} :
    (ofList f as).AllNodes P ↔ ∀ a ∈ as, (f a).AllNodes P := by
  rw [ofList, allNodes_list, eachNodes_map]

end Outline

/-- The nodes of a list are those of its members. -/
theorem Tree.eachNodes_elements {P : Outline → Prop} {c : Category} (ts : Tree (.listOf c)) :
    Outline.EachNodes P ts.outline.elements ↔ ts.outline.AllNodes P := by
  cases ts with
  | nil => exact Outline.allNodes_list.symm
  | cons t ts => exact Outline.allNodes_list.symm

end JavaSource
