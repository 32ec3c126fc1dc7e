import JavaSource.Proofs.Expression.OperatorGrammar
import JavaSource.Proofs.Expression.Unambiguity

/-!
# How written operators group

The tokens of an expression of words and operators are read in one way only, and what is read is
`Tree.grouped`: the expression itself, except that an assignment which is the left operand of an
assignment goes to the right. `(a = b) = c` is written `a = b = c`, which is `a = (b = c)`. So an
expression is read back exactly if no assignment is the left operand of another one
(`Tree.reads_emit_iff_assignsRight`); all other operators group as they are nested.

* `Tree.ReadsGrouped` is what emission guarantees: how the expression is read on its own, at every
  strength, and how it is read in front of `=`, where a left operand is not parenthesized.
* `Tree.grouped_some` says that in front of `=` the leftmost operand of a chain of assignments is no
  assignment.
-/

namespace JavaSource

open OperatorGrammar (Vocabulary Reads)

/-! ### Operations -/

namespace Tree

/-- Whether a tree consists of words and operators only, the words being known. -/
def isOperation (v : Vocabulary) : {c : Category} → Tree c → Bool
  | _, .nameExpression (.simple n) => v.isName n.token
  | _, .literal _ token _ => v.isLiteral token
  | _, .infixExpression _ left _ right => left.isOperation v && right.isOperation v
  | _, .unaryExpression _ _ operand => operand.isOperation v
  | _, .conditionalExpression _ condition yes no =>
    condition.isOperation v && yes.isOperation v && no.isOperation v
  | _, _ => false

/-- Whether a tree consists of names and infix operators only, the names being known. -/
def isInfixChain (v : Vocabulary) : {c : Category} → Tree c → Bool
  | _, .nameExpression (.simple n) => v.isName n.token
  | _, .infixExpression _ left _ right => left.isInfixChain v && right.isInfixChain v
  | _, _ => false

/-- Whether an expression is an assignment by an infix operator. -/
def isAssignment : {c : Category} → Tree c → Bool
  | _, .infixExpression _ _ op _ => op.nestsRight
  | _, _ => false

/-- Whether every infix operator of a tree of operators passes a test, together with its left
operand. -/
def allInfix (test : Tree .expression → InfixOperator → Bool) : {c : Category} → Tree c → Bool
  | _, .infixExpression _ left op right =>
    test left op && left.allInfix test && right.allInfix test
  | _, .unaryExpression _ _ operand => operand.allInfix test
  | _, .conditionalExpression _ condition yes no =>
    condition.allInfix test && yes.allInfix test && no.allInfix test
  | _, _ => true

/-- Whether no assignment is the left operand of an assignment. -/
def assignsRight {c : Category} (t : Tree c) : Bool :=
  t.allInfix fun left op => !(op.nestsRight && left.isAssignment)

/-- An expression in front of `=`, if something is assigned. -/
def assigned (o : Outline) : Option Outline → Outline
  | none => o
  | some value => Grammar.infixed o .assign value

/-- What the tokens of a tree of operators are read as, in front of `=` and a value if one is
given. -/
def grouped : {c : Category} → Tree c → (value : Option Outline) → Outline
  | _, .infixExpression _ left op right, value =>
    if op.nestsRight then left.grouped (some (assigned (right.grouped none) value))
    else assigned (Grammar.infixed (left.grouped none) op (right.grouped none)) value
  | _, .unaryExpression _ op operand, value =>
    assigned (Grammar.signed op (operand.grouped none)) value
  | _, .conditionalExpression _ condition yes no, value =>
    assigned (Grammar.conditional (condition.grouped none) (yes.grouped none) (no.grouped none))
      value
  | _, t, value => assigned t.outline.erased value

section

-- The equations of these functions are derived here, once for everything that follows.
attribute [local simp] isOperation allInfix grouped

end

/-- What is no assignment keeps its place in front of `=`. -/
theorem grouped_of_not_isAssignment {c : Category} {t : Tree c} (other : t.isAssignment = false)
    (o : Outline) : t.grouped (some o) = Grammar.infixed (t.grouped none) .assign o := by
  cases t with
  | infixExpression h left op right =>
    have nests : op.nestsRight = false := other
    simp only [grouped, nests, Bool.false_eq_true, if_false, assigned]
  | _ => rfl

/-! ### Emission -/

section

variable (b : Bool) (p : Precedence)

theorem joined_emit_simple (name : SimpleName) :
    joined ((nameExpression (.simple name)).emit (.bare b) p) = [.word name.token] := by
  simp [emit, joined, Name.emit, SimpleName.emit]

theorem joined_emit_literal (h : Handle) (token : String) (nonempty : token ≠ "") :
    joined ((literal h token nonempty).emit (.bare b) p) = [.word token] := by
  simp [emit, joined]

theorem joined_emit_binary (h : Handle) (left : Expression) (op : InfixOperator)
    (right : Expression) :
    joined ((infixExpression h left op right).emit (.bare b) p) =
      wrapped op.precedence p (joined (left.emit (.bare b) op.precedence) ++
        .operator op.symbol :: joined (right.emit (.bare b) op.precedence.tighter)) := by
  simp [emit, joined]

theorem joined_emit_unary (h : Handle) (op : UnaryOperator) (operand : Expression) :
    joined ((unaryExpression h op operand).emit (.bare b) p) =
      wrapped .unary p (.sign op :: joined (operand.emit (.bare b) .unary)) := by
  simp [emit, joined]

theorem joined_emit_conditional (h : Handle) (condition yes no : Expression) :
    joined ((conditionalExpression h condition yes no).emit (.bare b) p) =
      wrapped .conditional p (joined (condition.emit (.bare b) .conditionalOr) ++ .operator "?" ::
        (joined (yes.emit (.bare b) .lowest) ++ .operator ":" ::
          joined (no.emit (.bare b) .conditional))) := by
  simp [emit, joined]

end

variable {v : Vocabulary} {b : Bool}

/-- Parentheses are set where the demanded strength is not reached. -/
theorem reads_wrapped {own p : Precedence} {ts : List Token} {o : Outline}
    (h : Reads v own.rank ts o) : Reads v p.rank (wrapped own p ts) o := by
  unfold wrapped
  split
  · exact .parenthesized (h.mono (Nat.zero_le _))
  · exact h.mono (by omega)

/-- What is strong enough stays without parentheses. -/
theorem wrapped_of_le {own p : Precedence} (le : p.rank ≤ own.rank) (ts : List Token) :
    wrapped own p ts = ts :=
  if_neg (by omega)

/-- An assignment and a conditional demand the same of what binds tighter. -/
theorem wrapped_assignment {own : Precedence}
    (tight : Precedence.conditional.rank ≤ own.rank) (ts : List Token) :
    wrapped own .assignment ts = wrapped own .conditional ts := by
  have loose : Precedence.assignment.rank ≤ Precedence.conditional.rank := by decide
  rw [wrapped_of_le tight, wrapped_of_le (Nat.le_trans loose tight)]

/-- How a tree of operators is read: on its own wherever it was written, and in front of `=` if it
was written for an assignment. -/
structure ReadsGrouped (v : Vocabulary) (b : Bool) {c : Category} (t : Tree c) : Prop where
  /-- The tree on its own. -/
  alone : ∀ p, Reads v p.rank (joined (t.emit (.bare b) p)) (t.grouped none)
  /-- The tree in front of `=` and a value. -/
  assigned : ∀ {ts : List Token} {o : Outline}, Reads v Precedence.assignment.rank ts o →
    Reads v Precedence.assignment.rank
      (joined (t.emit (.bare b) .assignment) ++ .operator "=" :: ts) (t.grouped (some o))

/-- What can stand on the left of an assignment, in front of `=` and a value. -/
theorem reads_assign {l ts : List Token} {lo o : Outline}
    (left : Reads v Precedence.conditional.rank l lo)
    (value : Reads v Precedence.assignment.rank ts o) :
    Reads v Precedence.assignment.rank (l ++ .operator "=" :: ts)
      (Grammar.infixed lo .assign o) :=
  .infixed rfl (Nat.le_refl _) left value

/-- What is no assignment is written for an assignment as it is for a conditional. -/
theorem ReadsGrouped.of_alone {c : Category} {t : Tree c} (other : t.isAssignment = false)
    (same : joined (t.emit (.bare b) .assignment) = joined (t.emit (.bare b) .conditional))
    (alone : ∀ p, Reads v p.rank (joined (t.emit (.bare b) p)) (t.grouped none)) :
    t.ReadsGrouped v b where
  alone := alone
  assigned value := by
    rw [grouped_of_not_isAssignment other, same]
    exact reads_assign (alone .conditional) value

/-- An assignment is read with the assignments of its left operand on the right. -/
theorem ReadsGrouped.assignment {h : Handle} {left right : Expression}
    (readsLeft : left.ReadsGrouped v b) (readsRight : right.ReadsGrouped v b) :
    (infixExpression h left .assign right).ReadsGrouped v b where
  alone p := by
    have value := readsRight.alone .conditional
    have whole := readsLeft.assigned (value.mono (by decide))
    rw [joined_emit_binary]
    exact reads_wrapped whole
  assigned {ts o} value := by
    have rest := readsLeft.assigned (reads_assign (readsRight.alone .conditional) value)
    rw [joined_emit_binary, wrapped_of_le (by decide), List.append_assoc, List.cons_append]
    exact rest

/-- An operator whose chains nest on the left is read as it is nested. -/
theorem ReadsGrouped.nested {h : Handle} {left right : Expression} {op : InfixOperator}
    (nests : op.nestsRight = false) (readsLeft : left.ReadsGrouped v b)
    (readsRight : right.ReadsGrouped v b) :
    (infixExpression h left op right).ReadsGrouped v b := by
  obtain ⟨other, -⟩ | ⟨-, tight, -⟩ := op.rank_cases
  · rw [nests] at other
    contradiction
  have readLeft := readsLeft.alone op.precedence
  have readRight := readsRight.alone op.precedence.tighter
  rw [← InfixOperator.leftRank_of_nestsLeft nests] at readLeft
  rw [op.tighter_precedence.2, ← InfixOperator.rightRank_of_nestsLeft nests] at readRight
  refine .of_alone nests ?_ fun p => ?_
  · rw [joined_emit_binary, joined_emit_binary, wrapped_assignment (Nat.le_of_lt tight)]
  · rw [joined_emit_binary, grouped, nests]
    exact reads_wrapped (.infixed rfl (Nat.le_refl _) readLeft readRight)

/-- **The tokens of a tree of operators are read as the grouped tree.** -/
theorem readsGrouped {c : Category} {t : Tree c} (operation : t.isOperation v = true) :
    t.ReadsGrouped v b := by
  induction t with
  | nameExpression name =>
    cases name with
    | simple name =>
      refine .of_alone rfl (by rw [joined_emit_simple, joined_emit_simple]) fun p => ?_
      rw [joined_emit_simple]
      exact .leaf (.name operation)
    | qualified => exact absurd operation Bool.false_ne_true
  | literal h token nonempty =>
    refine .of_alone rfl (by rw [joined_emit_literal, joined_emit_literal]) fun p => ?_
    rw [joined_emit_literal]
    exact .leaf (.literal operation)
  | infixExpression h left op right ihLeft ihRight =>
    obtain ⟨hl, hr⟩ := Bool.and_eq_true_iff.mp operation
    cases nests : op.nestsRight with
    | true =>
      obtain rfl : op = .assign := of_decide_eq_true nests
      exact (ihLeft hl).assignment (ihRight hr)
    | false => exact .nested nests (ihLeft hl) (ihRight hr)
  | unaryExpression h op operand ih =>
    refine .of_alone rfl ?_ fun p => ?_
    · rw [joined_emit_unary, joined_emit_unary, wrapped_assignment (by decide)]
    · rw [joined_emit_unary]
      exact reads_wrapped (.signed rfl (Nat.le_refl _) ((ih operation).alone .unary))
  | conditionalExpression h condition yes no ihCondition ihYes ihNo =>
    simp only [isOperation, Bool.and_eq_true] at operation
    obtain ⟨⟨hc, hy⟩, hn⟩ := operation
    refine .of_alone rfl ?_ fun p => ?_
    · rw [joined_emit_conditional, joined_emit_conditional, wrapped_assignment (by decide)]
    · rw [joined_emit_conditional]
      exact reads_wrapped (.conditional rfl rfl (Nat.le_refl _)
        ((ihCondition hc).alone .conditionalOr) ((ihYes hy).alone .lowest)
        ((ihNo hn).alone .conditional))
  | _ => exact absurd operation Bool.false_ne_true

/-! ### Which trees are read back -/

/-- In front of `=`, the leftmost operand of a chain of assignments is assigned the rest, and is no
assignment itself. -/
theorem grouped_some {c : Category} {t : Tree c} (operation : t.isOperation v = true)
    (o : Outline) : ∃ l r, t.grouped (some o) = Grammar.infixed l .assign r ∧
      ∀ l' r', l ≠ Grammar.infixed l' .assign r' := by
  induction t generalizing o with
  | infixExpression h left op right ihLeft _ =>
    obtain ⟨hl, -⟩ := Bool.and_eq_true_iff.mp operation
    cases nests : op.nestsRight with
    | true =>
      rw [grouped, if_pos nests]
      exact ihLeft hl _
    | false =>
      have other : (infixExpression h left op right).isAssignment = false := nests
      refine ⟨_, _, grouped_of_not_isAssignment other o, fun l' r' same => ?_⟩
      rw [grouped, nests] at same
      obtain ⟨-, rfl, -⟩ := Grammar.infixed_inj.mp same
      contradiction
  | nameExpression name =>
    cases name with
    | simple => exact ⟨_, _, rfl, fun _ _ same => nomatch same⟩
    | qualified => exact absurd operation Bool.false_ne_true
  | literal => exact ⟨_, _, rfl, fun _ _ same => nomatch same⟩
  | unaryExpression => exact ⟨_, _, rfl, fun _ _ same => nomatch same⟩
  | conditionalExpression => exact ⟨_, _, rfl, fun _ _ same => nomatch same⟩
  | _ => exact absurd operation Bool.false_ne_true

/-- The outline of an assignment. -/
theorem exists_erased_of_isAssignment {e : Expression} (assignment : e.isAssignment = true) :
    ∃ l r, e.outline.erased = Grammar.infixed l .assign r := by
  cases e with
  | infixExpression h left op right =>
    obtain rfl : op = .assign := of_decide_eq_true assignment
    exact ⟨_, _, rfl⟩
  | _ => exact absurd assignment Bool.false_ne_true

/-- **Grouping changes nothing exactly if no assignment is the left operand of an assignment.** -/
theorem grouped_eq_erased_iff {c : Category} {t : Tree c} (operation : t.isOperation v = true) :
    t.grouped none = t.outline.erased ↔ t.assignsRight = true := by
  induction t with
  | nameExpression name =>
    cases name with
    | simple => exact iff_of_true rfl rfl
    | qualified => exact absurd operation Bool.false_ne_true
  | literal => exact iff_of_true rfl rfl
  | infixExpression h left op right ihLeft ihRight =>
    obtain ⟨hl, hr⟩ := Bool.and_eq_true_iff.mp operation
    have outlined : (infixExpression h left op right).outline.erased =
      Grammar.infixed left.outline.erased op right.outline.erased := rfl
    rw [outlined, grouped, assignsRight, allInfix, ← assignsRight, ← assignsRight]
    cases nests : op.nestsRight with
    | false =>
      simp [assigned, Grammar.infixed_inj, ihLeft hl, ihRight hr]
    | true =>
      obtain rfl : op = .assign := of_decide_eq_true nests
      cases assignment : left.isAssignment with
      | false =>
        simp [assigned, grouped_of_not_isAssignment assignment, Grammar.infixed_inj, ihLeft hl,
          ihRight hr]
      | true =>
        -- on the left of what is read there is no assignment, and on the left of the tree there is
        obtain ⟨l, r, read, other⟩ := grouped_some hl (right.grouped none)
        obtain ⟨l', r', erased⟩ := exists_erased_of_isAssignment assignment
        refine iff_of_false (fun same => ?_) (by simp)
        rw [if_pos rfl, assigned, read, Grammar.infixed_inj] at same
        exact other l' r' (same.1.trans erased)
  | unaryExpression h op operand ih =>
    have outlined : (unaryExpression h op operand).outline.erased =
      Grammar.signed op operand.outline.erased := rfl
    rw [outlined, grouped, assigned, Grammar.signed_inj, ih operation]
    exact and_iff_right rfl
  | conditionalExpression h condition yes no ihCondition ihYes ihNo =>
    simp only [isOperation, Bool.and_eq_true] at operation
    obtain ⟨⟨hc, hy⟩, hn⟩ := operation
    have outlined : (conditionalExpression h condition yes no).outline.erased =
      Grammar.conditional condition.outline.erased yes.outline.erased no.outline.erased := rfl
    rw [outlined, grouped, assigned, Grammar.conditional_inj, ihCondition hc, ihYes hy, ihNo hn]
    simp only [assignsRight, allInfix, Bool.and_eq_true, and_assoc]
  | _ => exact absurd operation Bool.false_ne_true

/-- The tokens of a written expression are read as the grouped expression, and as nothing else. -/
theorem reads_iff_eq_grouped {notes : Notes} {blank : Bool} {e : Expression} {o : Outline}
    (operation : e.isOperation .standard = true) (bare : notes.Bare e.outline) :
    Reads .standard 0 ((Node.tree e).emit (notes.context blank)) o ↔ o = e.grouped none := by
  rw [Node.emit, emit_of_bare bare]
  have read : Reads .standard 0 (joined (e.emit (.bare blank) .lowest)) (e.grouped none) :=
    (readsGrouped operation).alone .lowest
  constructor
  · exact fun h => h.unique Vocabulary.unambiguous_standard read
  · rintro rfl
    exact read

/-- **What an expression of words and operators is read back as.** The tokens have one reading, in
which the assignments on the left of an assignment have gone to its right; it is the expression
itself exactly if there are none. So every other operator groups as it is nested, and chains of
assignments group from the right. -/
theorem reads_emit_iff_assignsRight {notes : Notes} {blank : Bool} {e : Expression}
    (operation : e.isOperation .standard = true) (bare : notes.Bare e.outline) :
    (∀ o, Reads .standard 0 ((Node.tree e).emit (notes.context blank)) o ↔ o = e.grouped none) ∧
      (Reads .standard 0 ((Node.tree e).emit (notes.context blank)) e.outline.erased ↔
        e.assignsRight = true) := by
  refine ⟨fun o => reads_iff_eq_grouped operation bare, ?_⟩
  rw [reads_iff_eq_grouped operation bare, ← grouped_eq_erased_iff operation, eq_comm]

/-- `a = b - (c - d)`, which keeps its parentheses. -/
theorem reads_emit_iff_assignsRight_difference :
    Reads .standard 0
      ((Node.tree (infixExpression none (nameExpression (.simple ⟨none, "a", rfl⟩)) .assign
        (infixExpression none (nameExpression (.simple ⟨none, "b", rfl⟩)) .minus
          (infixExpression none (nameExpression (.simple ⟨none, "c", rfl⟩)) .minus
            (nameExpression (.simple ⟨none, "d", rfl⟩)))))).emit (Notes.context {} true))
      (infixExpression none (nameExpression (.simple ⟨none, "a", rfl⟩)) .assign
        (infixExpression none (nameExpression (.simple ⟨none, "b", rfl⟩)) .minus
          (infixExpression none (nameExpression (.simple ⟨none, "c", rfl⟩)) .minus
            (nameExpression (.simple ⟨none, "d", rfl⟩))))).outline.erased :=
  (@reads_emit_iff_assignsRight {} true _ (by decide) (by intro h _; cases h <;> rfl)).2.mpr rfl

/-- `(a = b) = c` loses its parentheses: what is written is read as `a = (b = c)` only. -/
theorem not_reads_assignment_on_left :
    ¬ ∀ e : Expression, e.isInfixChain .standard = true → Notes.Bare {} e.outline →
      Reads .standard 0 ((Node.tree e).emit (Notes.context {} true)) e.outline.erased := by
  intro all
  have read := all (infixExpression none (infixExpression none
    (nameExpression (.simple ⟨none, "a", rfl⟩)) .assign (nameExpression (.simple ⟨none, "b", rfl⟩)))
    .assign (nameExpression (.simple ⟨none, "c", rfl⟩))) (by decide) (by intro h _; cases h <;> rfl)
  rw [reads_iff_eq_grouped (by decide) (by intro h _; cases h <;> rfl), eq_comm,
    grouped_eq_erased_iff (v := .standard) (by decide)] at read
  exact absurd read (by decide)

end Tree

end JavaSource
