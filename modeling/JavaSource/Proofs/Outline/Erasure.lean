import JavaSource.Matching

/-!
# Outlines without handles and without parentheses

Comparison of outlines ignores handles, so it is equality once the handles are gone:
`Outline.same_iff_erased_eq` says that `Outline.same` decides the equality of `Outline.erased`.

`Outline.withoutParentheses` takes every parenthesized expression out of a tree and keeps what stood
in the parentheses.

`Outline.preorder` lists the nodes of a tree, each in front of its fields, and `Outline.handles` the
handles of all nodes.
-/

namespace JavaSource

namespace Outline

/-- Structural induction on outlines. -/
@[elab_as_elim]
theorem induction_on {motive : Outline → Prop}
    (node : ∀ k h fs, (∀ f ∈ fs, motive f) → motive (.node k h fs))
    (text : ∀ s, motive (.text s)) (flag : ∀ b, motive (.flag b)) (count : ∀ n, motive (.count n))
    (choice : ∀ i s, motive (.choice i s)) (absent : motive .absent)
    (list : ∀ os, (∀ o ∈ os, motive o) → motive (.list os)) : ∀ o, motive o
  | .node k h fs =>
    node k h fs fun f _ => induction_on node text flag count choice absent list f
  | .text s => text s
  | .flag b => flag b
  | .count n => count n
  | .choice i s => choice i s
  | .absent => absent
  | .list os => list os fun o _ => induction_on node text flag count choice absent list o

/-! ### Erasing handles -/

mutual

/-- The tree with no handle on any node. -/
def erased : Outline → Outline
  | .node k _ fs => .node k none (erasedEach fs)
  | .text s => .text s
  | .flag b => .flag b
  | .count n => .count n
  | .choice i s => .choice i s
  | .absent => .absent
  | .list os => .list (erasedEach os)

/-- Each of several trees with no handle on any node. -/
def erasedEach : List Outline → List Outline
  | [] => []
  | o :: os => o.erased :: erasedEach os

end

@[simp] theorem erasedEach_eq_map (os : List Outline) : erasedEach os = os.map erased := by
  induction os with
  | nil => rfl
  | cons o os ih => rw [erasedEach, ih, List.map_cons]

/-- Lists of trees are compared member by member, so they agree as soon as the members do. -/
private theorem sameEach_iff_map_erased_eq {os os' : List Outline}
    (h : ∀ o ∈ os, ∀ r : Outline, o.same r = true ↔ o.erased = r.erased) :
    sameEach os os' = true ↔ os.map erased = os'.map erased := by
  induction os generalizing os' with
  | nil => cases os' <;> simp [sameEach]
  | cons o os ih =>
    cases os' with
    | nil => simp [sameEach]
    | cons o' os' =>
      have head := h o List.mem_cons_self o'
      have tail := @ih os' fun p hp => h p (List.mem_cons_of_mem o hp)
      rw [sameEach, Bool.and_eq_true, head, tail, List.map_cons, List.map_cons, List.cons_eq_cons]

/-- **Comparison decides equality up to handles.** -/
theorem same_iff_erased_eq (l r : Outline) : l.same r = true ↔ l.erased = r.erased := by
  induction l using induction_on generalizing r with
  | node k h fs ih => cases r <;> simp [same, erased, sameEach_iff_map_erased_eq ih]
  | text s => cases r <;> simp [same, erased]
  | flag b => cases r <;> simp [same, erased]
  | count n => cases r <;> simp [same, erased]
  | choice i s => cases r <;> simp [same, erased]
  | absent => cases r <;> simp [same, erased]
  | list os ih => cases r <;> simp [same, erased, sameEach_iff_map_erased_eq ih]

/-! ### Removing parentheses -/

mutual

/-- The tree with every parenthesized expression replaced by what stands in the parentheses. -/
def withoutParentheses : Outline → Outline
  | .node .parenthesizedExpression _ [inner] => inner.withoutParentheses
  | .node k h fs => .node k h (withoutParenthesesEach fs)
  | .text s => .text s
  | .flag b => .flag b
  | .count n => .count n
  | .choice i s => .choice i s
  | .absent => .absent
  | .list os => .list (withoutParenthesesEach os)

/-- Each of several trees with the parenthesized expressions replaced. -/
def withoutParenthesesEach : List Outline → List Outline
  | [] => []
  | o :: os => o.withoutParentheses :: withoutParenthesesEach os

end

@[simp] theorem withoutParenthesesEach_eq_map (os : List Outline) :
    withoutParenthesesEach os = os.map withoutParentheses := by
  induction os with
  | nil => rfl
  | cons o os ih => rw [withoutParenthesesEach, ih, List.map_cons]

/-- Nodes of the other kinds stay. -/
theorem withoutParentheses_node {k : Kind} (hk : k ≠ .parenthesizedExpression) (h : Handle)
    (fs : List Outline) :
    (node k h fs).withoutParentheses = .node k h (fs.map withoutParentheses) := by
  unfold withoutParentheses
  split
  · simp_all
  all_goals simp_all

/-! ### The nodes of a tree -/

mutual

/-- The nodes of a tree in pre-order, the fields of a node in the order of their declaration. -/
def preorder : Outline → List Outline
  | .node k h fs => .node k h fs :: preorderEach fs
  | .list os => preorderEach os
  | .text _ | .flag _ | .count _ | .choice .. | .absent => []

/-- The nodes of several trees in pre-order. -/
def preorderEach : List Outline → List Outline
  | [] => []
  | o :: os => o.preorder ++ preorderEach os

end

theorem mem_preorderEach {os : List Outline} {o a : Outline} (ho : o ∈ os)
    (ha : a ∈ o.preorder) : a ∈ preorderEach os := by
  induction os with
  | nil => cases ho
  | cons o' os ih =>
    rw [preorderEach, List.mem_append]
    rcases List.mem_cons.mp ho with rfl | ho
    · exact .inl ha
    · exact .inr (ih ho)

mutual

/-- The handles of all nodes of a tree. -/
def handles : Outline → List Handle
  | .node _ h fs => h :: handlesEach fs
  | .list os => handlesEach os
  | .text _ | .flag _ | .count _ | .choice .. | .absent => []

/-- The handles of all nodes of several trees. -/
def handlesEach : List Outline → List Handle
  | [] => []
  | o :: os => o.handles ++ handlesEach os

end

@[simp] theorem handlesEach_eq_flatMap (os : List Outline) :
    handlesEach os = os.flatMap handles := by
  induction os with
  | nil => rfl
  | cons o os ih => rw [handlesEach, ih, List.flatMap_cons]

mutual

theorem map_handle_preorder : ∀ o : Outline, o.preorder.map handle = o.handles
  | .node _ _ fs => congrArg (_ :: ·) (map_handle_preorderEach fs)
  | .list os => map_handle_preorderEach os
  | .text _ | .flag _ | .count _ | .choice .. | .absent => rfl

theorem map_handle_preorderEach :
    ∀ os : List Outline, (preorderEach os).map handle = handlesEach os
  | [] => rfl
  | o :: os => by
    rw [preorderEach, handlesEach, List.map_append, map_handle_preorder o,
      map_handle_preorderEach os]

end

@[simp] theorem handles_ofChoice {α : Type} [DecidableEq α] [Enumeration α] (a : α) :
    (ofChoice a).handles = [] := rfl

@[simp] theorem handles_ofOption {α : Type} (f : α → Outline) (a : Option α) :
    (ofOption f a).handles = a.toList.flatMap fun a => (f a).handles := by
  cases a <;> simp [ofOption, handles]

@[simp] theorem handles_ofList {α : Type} (f : α → Outline) (as : List α) :
    (ofList f as).handles = as.flatMap fun a => (f a).handles := by
  simp [ofList, handles, List.flatMap_map]

end Outline

end JavaSource
