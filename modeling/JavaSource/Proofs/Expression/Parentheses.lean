import JavaSource.Proofs.Expression.Grouping

/-!
# Every written pair of parentheses is needed

What is written for an expression of words and operators without assignment is the shortest text
that is read as the expression (`Tree.length_emit_le`). So no pair of parentheses can be left out:
without it the tokens are read as something else, or as nothing
(`Tree.not_reads_without_parentheses`).

The bound follows a reading of the expression, whatever parentheses it has. Where the reading has
parentheses the written text has at most these (`Tree.length_emit_le_lowest`), and where it has none
the demanded strength is reached and the written text has none either.
-/

namespace JavaSource

open OperatorGrammar (Vocabulary Reads)

namespace Tree

variable {v v' : Vocabulary} {b : Bool} {e : Expression}

/-! ### Trees with a given outline -/

/-- Whether a tree of operators has no assignment. -/
def assignFree {c : Category} (t : Tree c) : Bool :=
  t.allInfix fun _ op => !op.nestsRight

theorem allInfix_mono {test test' : Tree .expression → InfixOperator → Bool}
    (weaker : ∀ left op, test left op = true → test' left op = true) {c : Category} {t : Tree c}
    (all : t.allInfix test = true) : t.allInfix test' = true := by
  induction t with
  | infixExpression h left op right ihLeft ihRight =>
    simp only [allInfix, Bool.and_eq_true] at all ⊢
    obtain ⟨⟨passes, hl⟩, hr⟩ := all
    exact ⟨⟨weaker left op passes, ihLeft hl⟩, ihRight hr⟩
  | unaryExpression h op operand ih => exact ih all
  | conditionalExpression h condition yes no ihCondition ihYes ihNo =>
    simp only [allInfix, Bool.and_eq_true] at all ⊢
    obtain ⟨⟨hc, hy⟩, hn⟩ := all
    exact ⟨⟨ihCondition hc, ihYes hy⟩, ihNo hn⟩
  | _ => rfl

/-- Without assignments none is on the left of another one. -/
theorem assignsRight_of_assignFree {c : Category} {t : Tree c} (free : t.assignFree = true) :
    t.assignsRight = true := by
  refine allInfix_mono (fun left op passes => ?_) free
  rw [Bool.not_eq_true'] at passes
  rw [passes]
  rfl

/-- The trees of words and operators. -/
theorem isOperation_cases (operation : e.isOperation v = true) :
    (∃ name, e = nameExpression (.simple name)) ∨
    (∃ h token nonempty, e = literal h token nonempty) ∨
    (∃ h left op right, e = infixExpression h left op right ∧ left.isOperation v = true ∧
      right.isOperation v = true) ∨
    (∃ h op operand, e = unaryExpression h op operand ∧ operand.isOperation v = true) ∨
    (∃ h condition yes no, e = conditionalExpression h condition yes no ∧
      condition.isOperation v = true ∧ yes.isOperation v = true ∧ no.isOperation v = true) := by
  cases e with
  | nameExpression name =>
    cases name with
    | simple name => exact .inl ⟨name, rfl⟩
    | qualified => exact absurd operation Bool.false_ne_true
  | literal h token nonempty => exact .inr (.inl ⟨h, token, nonempty, rfl⟩)
  | infixExpression h left op right =>
    exact .inr (.inr (.inl ⟨h, left, op, right, rfl, Bool.and_eq_true_iff.mp operation⟩))
  | unaryExpression h op operand => exact .inr (.inr (.inr (.inl ⟨h, op, operand, rfl, operation⟩)))
  | conditionalExpression h condition yes no =>
    simp only [isOperation, Bool.and_eq_true, and_assoc] at operation
    exact .inr (.inr (.inr (.inr ⟨h, condition, yes, no, rfl, operation⟩)))
  | _ => exact absurd operation Bool.false_ne_true

section

variable {o lo ro co yo no : Outline}

/-- Only an infix expression has the outline of one. -/
theorem exists_of_erased_eq_infixed {op : InfixOperator} (operation : e.isOperation v = true)
    (outlined : e.outline.erased = Grammar.infixed lo op ro) :
    ∃ h left right, e = infixExpression h left op right ∧
      (left.isOperation v = true ∧ left.outline.erased = lo) ∧
      right.isOperation v = true ∧ right.outline.erased = ro := by
  obtain ⟨_, rfl⟩ | ⟨_, _, _, rfl⟩ | ⟨h, left, _, right, rfl, hl, hr⟩ | ⟨_, _, _, rfl, _⟩ |
    ⟨_, _, _, _, rfl, _⟩ := isOperation_cases operation
  · exact nomatch outlined
  · exact nomatch outlined
  · obtain ⟨same, rfl, same'⟩ := Grammar.infixed_inj.mp outlined
    exact ⟨h, left, right, rfl, ⟨hl, same⟩, hr, same'⟩
  · exact nomatch outlined
  · exact nomatch outlined

/-- Only a unary expression has the outline of one. -/
theorem exists_of_erased_eq_signed {op : UnaryOperator} (operation : e.isOperation v = true)
    (outlined : e.outline.erased = Grammar.signed op o) :
    ∃ h operand, e = unaryExpression h op operand ∧
      operand.isOperation v = true ∧ operand.outline.erased = o := by
  obtain ⟨_, rfl⟩ | ⟨_, _, _, rfl⟩ | ⟨_, _, _, _, rfl, _⟩ | ⟨h, _, operand, rfl, ho⟩ |
    ⟨_, _, _, _, rfl, _⟩ := isOperation_cases operation
  · exact nomatch outlined
  · exact nomatch outlined
  · exact nomatch outlined
  · obtain ⟨rfl, same⟩ := Grammar.signed_inj.mp outlined
    exact ⟨h, operand, rfl, ho, same⟩
  · exact nomatch outlined

/-- Only a conditional has the outline of one. -/
theorem exists_of_erased_eq_conditional (operation : e.isOperation v = true)
    (outlined : e.outline.erased = Grammar.conditional co yo no) :
    ∃ h c y n, e = conditionalExpression h c y n ∧
      (c.isOperation v = true ∧ c.outline.erased = co) ∧
      (y.isOperation v = true ∧ y.outline.erased = yo) ∧
      n.isOperation v = true ∧ n.outline.erased = no := by
  obtain ⟨_, rfl⟩ | ⟨_, _, _, rfl⟩ | ⟨_, _, _, _, rfl, _⟩ | ⟨_, _, _, rfl, _⟩ |
    ⟨h, c, y, n, rfl, hc, hy, hn⟩ := isOperation_cases operation
  · exact nomatch outlined
  · exact nomatch outlined
  · exact nomatch outlined
  · exact nomatch outlined
  · obtain ⟨same, same', same''⟩ := Grammar.conditional_inj.mp outlined
    exact ⟨h, c, y, n, rfl, ⟨hc, same⟩, ⟨hy, same'⟩, hn, same''⟩

/-- Only a word has the outline of one. -/
theorem length_emit_of_leaf {w : String} (p : Precedence) (operation : e.isOperation v = true)
    (known : v'.Leaf w e.outline.erased) : (joined (e.emit (.bare b) p)).length = 1 := by
  obtain ⟨name, rfl⟩ | ⟨h, token, nonempty, rfl⟩ | ⟨_, _, _, _, rfl, _⟩ | ⟨_, _, _, rfl, _⟩ |
    ⟨_, _, _, _, rfl, _⟩ := isOperation_cases operation
  · rw [joined_emit_simple]
    rfl
  · rw [joined_emit_literal]
    rfl
  · exact nomatch known
  · exact nomatch known
  · exact nomatch known

end

/-! ### The shortest text -/

theorem length_wrapped_le (own p : Precedence) (ts : List Token) :
    (wrapped own p ts).length ≤ ts.length + 2 := by
  unfold wrapped
  split
  · simp [parenthesized]
  · omega

/-- A stronger demand costs one pair of parentheses at most. -/
theorem length_emit_le_lowest (p : Precedence) (operation : e.isOperation v = true) :
    (joined (e.emit (.bare b) p)).length ≤ (joined (e.emit (.bare b) .lowest)).length + 2 := by
  have lowest : ∀ own ts, wrapped own .lowest ts = ts :=
    fun own ts => wrapped_of_le (Nat.zero_le _) ts
  obtain ⟨name, rfl⟩ | ⟨h, token, nonempty, rfl⟩ | ⟨h, left, op, right, rfl, _⟩ |
    ⟨h, op, operand, rfl, _⟩ | ⟨h, condition, yes, no, rfl, _⟩ := isOperation_cases operation
  · rw [joined_emit_simple, joined_emit_simple]
    omega
  · rw [joined_emit_literal, joined_emit_literal]
    omega
  · rw [joined_emit_binary, joined_emit_binary, lowest]
    exact length_wrapped_le _ _ _
  · rw [joined_emit_unary, joined_emit_unary, lowest]
    exact length_wrapped_le _ _ _
  · rw [joined_emit_conditional, joined_emit_conditional, lowest]
    exact length_wrapped_le _ _ _

/-- **What is written is the shortest text that is read as the expression**, among those that can
stand where it is written. -/
theorem length_emit_le {n : Nat} {ts : List Token} {o : Outline} (h : Reads v' n ts o)
    {p : Precedence} (le : p.rank ≤ n) (operation : e.isOperation v = true)
    (free : e.assignFree = true) (outlined : e.outline.erased = o) :
    (joined (e.emit (.bare b) p)).length ≤ ts.length := by
  -- the induction is on the reading; the strength that `e` is written for is at most its own
  induction h generalizing e p with
  | leaf known =>
    rw [length_emit_of_leaf p operation (outlined ▸ known)]
    exact Nat.le_refl _
  | @parenthesized n ts o _ ih =>
    have shortest := ih (p := .lowest) (Nat.le_refl _) operation free outlined
    have cost := length_emit_le_lowest (b := b) p operation
    rw [parenthesized, List.length_append, List.length_cons, List.length_singleton]
    omega
  | @signed n t op ts o spelled strong _ ih =>
    obtain ⟨h, operand, rfl, ho, same⟩ := exists_of_erased_eq_signed operation outlined
    have shortest := ih (Nat.le_refl Precedence.unary.rank) ho free same
    rw [joined_emit_unary, wrapped_of_le (Nat.le_trans le strong), List.length_cons,
      List.length_cons]
    omega
  | @infixed n t op l r lo ro spelled strong _ _ ihLeft ihRight =>
    obtain ⟨h, left, right, rfl, ⟨hl, same⟩, hr, same'⟩ :=
      exists_of_erased_eq_infixed operation outlined
    simp only [assignFree, allInfix, Bool.and_eq_true, Bool.not_eq_true'] at free
    obtain ⟨⟨nests, freeLeft⟩, freeRight⟩ := free
    have demandedLeft := InfixOperator.leftRank_of_nestsLeft nests
    have demandedRight := InfixOperator.rightRank_of_nestsLeft nests
    rw [← op.tighter_precedence.2] at demandedRight
    have shortestLeft := ihLeft (Nat.le_of_eq demandedLeft.symm) hl freeLeft same
    have shortestRight := ihRight (Nat.le_of_eq demandedRight.symm) hr freeRight same'
    rw [joined_emit_binary, wrapped_of_le (Nat.le_trans le strong), List.length_append,
      List.length_append, List.length_cons, List.length_cons]
    omega
  | @conditional n t u c y z co yo zo question colon strong _ _ _ ihCondition ihYes ihNo =>
    obtain ⟨h, condition, yes, no, rfl, ⟨hc, same⟩, ⟨hy, same'⟩, hn, same''⟩ :=
      exists_of_erased_eq_conditional operation outlined
    simp only [assignFree, allInfix, Bool.and_eq_true] at free
    obtain ⟨⟨freeCondition, freeYes⟩, freeNo⟩ := free
    have shortestCondition :=
      ihCondition (Nat.le_refl Precedence.conditionalOr.rank) hc freeCondition same
    have shortestYes := ihYes (Nat.le_refl Precedence.lowest.rank) hy freeYes same'
    have shortestNo := ihNo (Nat.le_refl Precedence.conditional.rank) hn freeNo same''
    rw [joined_emit_conditional, wrapped_of_le (Nat.le_trans le strong)]
    simp only [List.length_append, List.length_cons]
    omega

/-- **No written parentheses are redundant.** The tokens of an expression of words and operators
without assignment are read as the expression; if a pair of parentheses is taken out they are not,
whichever words are known. -/
theorem not_reads_without_parentheses {notes : Notes} {blank : Bool}
    {before inside behind : List Token} (operation : e.isOperation .unrestricted = true)
    (free : e.assignFree = true) (bare : notes.Bare e.outline)
    (written : (Node.tree e).emit (notes.context blank) =
      before ++ .mark .openParen :: (inside ++ .mark .closeParen :: behind)) :
    Reads .unrestricted 0 ((Node.tree e).emit (notes.context blank)) e.outline.erased ∧
      ∀ v, ¬ Reads v 0 (before ++ inside ++ behind) e.outline.erased := by
  rw [Node.emit, emit_of_bare bare] at written ⊢
  constructor
  · rw [← (grouped_eq_erased_iff operation).mpr (assignsRight_of_assignFree free)]
    exact (readsGrouped operation).alone .lowest
  · intro v read
    have shortest :=
      length_emit_le (b := blank) read (p := .lowest) (Nat.le_refl _) operation free rfl
    rw [written] at shortest
    simp only [List.length_append, List.length_cons] at shortest
    omega

/-- `(a ? b : c) ? -(d - x) : y` without its second parentheses. -/
theorem not_reads_without_parentheses_difference :
    ¬ Reads .unrestricted 0
      (parenthesized [.word "a", .operator "?", .word "b", .operator ":", .word "c"] ++
        [.operator "?", .sign .minus, .word "d", .operator "-", .word "x", .operator ":",
          .word "y"])
      (conditionalExpression none
        (conditionalExpression none (nameExpression (.simple ⟨none, "a", rfl⟩))
          (nameExpression (.simple ⟨none, "b", rfl⟩)) (nameExpression (.simple ⟨none, "c", rfl⟩)))
        (unaryExpression none .minus (infixExpression none
          (nameExpression (.simple ⟨none, "d", rfl⟩)) .minus
          (nameExpression (.simple ⟨none, "x", rfl⟩))))
        (nameExpression (.simple ⟨none, "y", rfl⟩))).outline.erased :=
  (@not_reads_without_parentheses _ {} true
    (parenthesized [.word "a", .operator "?", .word "b", .operator ":", .word "c"] ++
      [.operator "?", .sign .minus])
    [.word "d", .operator "-", .word "x"] [.operator ":", .word "y"]
    (by decide) (by decide) (by intro h _; cases h <;> rfl) rfl).2 .unrestricted

end Tree

end JavaSource
