import JavaSource.Proofs.Expression.Reader
import JavaSource.Proofs.Outline.Injective

/-!
# The grammar of operators

`OperatorGrammar.Reads` is the grammar of the expressions that consist of words, operators and
parentheses, on the tokens themselves: all twenty infix operators with their strengths, `=` nesting
on the right and every other one on the left, the operators in front of an operand, and the
conditional, which nests in its last branch. Parentheses leave no trace in what is read.

* A `Vocabulary` says which words are names and which are literals. The grammar does not look at the
  words in any other way.
* An operator token is read by its symbol: whether it was written in front of an operand or between
  two is not known from the token.

The grammar is unambiguous over a vocabulary in which no word is both a name and a literal
(`Reads.unique`). `Scan` reads tokens from the left to the right, one rule for each kind of next
token, so it is deterministic, and `Reads.retraces` says that it retraces every reading.
-/

namespace JavaSource

/-- The symbol of an operator, on whichever side of its operands it was written. -/
def Token.symbol? : Token → Option String
  | .sign op => some op.symbol
  | .operator symbol => some symbol
  | _ => none

namespace InfixOperator

/-- Whether a chain of the operator nests on the right. -/
def nestsRight (op : InfixOperator) : Bool :=
  op = .assign

/-- The strength that the operator demands on its left. -/
def leftRank (op : InfixOperator) : Nat :=
  if op.nestsRight then op.precedence.rank + 1 else op.precedence.rank

/-- The strength that the operator demands on its right. -/
def rightRank (op : InfixOperator) : Nat :=
  if op.nestsRight then op.precedence.rank else op.precedence.rank + 1

/-- A symbol belongs to one operator. -/
theorem symbol_inj {a b : InfixOperator} (h : a.symbol = b.symbol) : a = b := by
  have found : ∀ op : InfixOperator,
      (Enumeration.members.find? fun o : InfixOperator => o.symbol = op.symbol) = some op := by
    intro op
    cases op <;> rfl
  have same := found a
  rw [h, found b] at same
  exact (Option.some.inj same).symm

/-- The question mark is no infix operator. -/
theorem symbol_ne_question (op : InfixOperator) : op.symbol ≠ "?" := by
  cases op <;> decide

/-- An operator is an assignment, or it binds between the conditional and what stands behind a
sign. -/
theorem rank_cases (op : InfixOperator) :
    op.nestsRight = true ∧ op.precedence.rank = Precedence.assignment.rank ∨
      op.nestsRight = false ∧ Precedence.conditional.rank < op.precedence.rank ∧
        op.precedence.rank < Precedence.unary.rank := by
  cases op <;> decide

theorem leftRank_of_nestsLeft {op : InfixOperator} (nests : op.nestsRight = false) :
    op.leftRank = op.precedence.rank := by
  rw [leftRank, nests]
  exact rfl

theorem rightRank_of_nestsLeft {op : InfixOperator} (nests : op.nestsRight = false) :
    op.rightRank = op.precedence.rank + 1 := by
  rw [rightRank, nests]
  exact rfl

end InfixOperator

/-- A symbol belongs to one operator. -/
theorem UnaryOperator.symbol_inj {a b : UnaryOperator} (h : a.symbol = b.symbol) : a = b := by
  have found : ∀ op : UnaryOperator,
      (Enumeration.members.find? fun o : UnaryOperator => o.symbol = op.symbol) = some op := by
    intro op
    cases op <;> rfl
  have same := found a
  rw [h, found b] at same
  exact (Option.some.inj same).symm

namespace Grammar

theorem infixed_inj {l r l' r' : Outline} {op op' : InfixOperator} :
    infixed l op r = infixed l' op' r' ↔ l = l' ∧ op = op' ∧ r = r' := by
  simp [infixed, Outline.ofChoice_inj]

theorem signed_inj {o o' : Outline} {op op' : UnaryOperator} :
    signed op o = signed op' o' ↔ op = op' ∧ o = o' := by
  simp [signed, Outline.ofChoice_inj]

theorem conditional_inj {c y n c' y' n' : Outline} :
    conditional c y n = conditional c' y' n' ↔ c = c' ∧ y = y' ∧ n = n' := by
  simp [conditional]

end Grammar

namespace OperatorGrammar

/-! ### Readings -/

/-- Which words are names, and which are literals. -/
structure Vocabulary where
  /-- The words that can be names. -/
  isName : String → Bool
  /-- The words that can be literals. -/
  isLiteral : String → Bool

namespace Vocabulary

/-- The names and literals of the language. -/
def standard : Vocabulary :=
  ⟨isNameWord, isLiteralWord⟩

/-- Every word may be a name, and every word may be a literal. -/
def unrestricted : Vocabulary :=
  ⟨fun _ => true, fun _ => true⟩

/-- No word is both a name and a literal. -/
def Unambiguous (v : Vocabulary) : Prop :=
  ∀ w, v.isName w = true → v.isLiteral w = false

theorem unambiguous_standard : standard.Unambiguous :=
  fun _ => Grammar.isLiteralWord_of_isNameWord

/-- What a word stands for. -/
inductive Leaf (v : Vocabulary) (w : String) : Outline → Prop where
  | name (known : v.isName w = true) : Leaf v w (Grammar.name w)
  | literal (known : v.isLiteral w = true) : Leaf v w (Grammar.literal w)

theorem Leaf.unique {v : Vocabulary} {w : String} {o o' : Outline} (unambiguous : v.Unambiguous)
    (h : v.Leaf w o) (h' : v.Leaf w o') : o = o' := by
  cases h with
  | name known =>
    cases h' with
    | name => rfl
    | literal known' =>
      rw [unambiguous w known] at known'
      contradiction
  | literal known =>
    cases h' with
    | literal => rfl
    | name known' =>
      rw [unambiguous w known'] at known
      contradiction

end Vocabulary

variable {v : Vocabulary}

/-- The tokens `ts` are read as the expression `o` where the strength `n` is demanded. -/
inductive Reads (v : Vocabulary) : Nat → List Token → Outline → Prop where
  | leaf {n : Nat} {w : String} {o : Outline} (known : v.Leaf w o) : Reads v n [.word w] o
  | parenthesized {n : Nat} {ts : List Token} {o : Outline} (inner : Reads v 0 ts o) :
      Reads v n (parenthesized ts) o
  | signed {n : Nat} {t : Token} {op : UnaryOperator} {ts : List Token} {o : Outline}
      (spelled : t.symbol? = some op.symbol) (strong : n ≤ Precedence.unary.rank)
      (operand : Reads v Precedence.unary.rank ts o) : Reads v n (t :: ts) (Grammar.signed op o)
  | infixed {n : Nat} {t : Token} {op : InfixOperator} {l r : List Token} {lo ro : Outline}
      (spelled : t.symbol? = some op.symbol) (strong : n ≤ op.precedence.rank)
      (left : Reads v op.leftRank l lo) (right : Reads v op.rightRank r ro) :
      Reads v n (l ++ t :: r) (Grammar.infixed lo op ro)
  | conditional {n : Nat} {t u : Token} {c y z : List Token} {co yo zo : Outline}
      (question : t.symbol? = some "?") (colon : u.symbol? = some ":")
      (strong : n ≤ Precedence.conditional.rank)
      (condition : Reads v Precedence.conditionalOr.rank c co) (yes : Reads v 0 y yo)
      (no : Reads v Precedence.conditional.rank z zo) :
      Reads v n (c ++ t :: (y ++ u :: z)) (Grammar.conditional co yo zo)

/-- What can be read at a place can be read at one that demands less. -/
theorem Reads.mono {m n : Nat} {ts : List Token} {o : Outline} (h : Reads v m ts o) (le : n ≤ m) :
    Reads v n ts o := by
  cases h with
  | leaf known => exact .leaf known
  | parenthesized inner => exact .parenthesized inner
  | signed spelled strong operand => exact .signed spelled (Nat.le_trans le strong) operand
  | infixed spelled strong left right => exact .infixed spelled (Nat.le_trans le strong) left right
  | conditional question colon strong condition yes no =>
    exact .conditional question colon (Nat.le_trans le strong) condition yes no

/-! ### Reading from the left -/

/-- The next token leaves the expression before it alone where the strength `n` is demanded. -/
def Stops (n : Nat) (ts : List Token) : Prop :=
  ∀ t ∈ ts.head?,
    (∀ op : InfixOperator, t.symbol? = some op.symbol → op.precedence.rank < n) ∧
      (t.symbol? = some "?" → Precedence.conditional.rank < n)

/-- One reading from the left, at a place that demands the strength `n`: `Scan v none n ts (o, us)`
reads the expression `o` and leaves the tokens `us`, and `Scan v (some l) n ts (o, us)` does so
behind the expression `l`, which has been read already. -/
inductive Scan (v : Vocabulary) : Option Outline → Nat → List Token → Outline × List Token → Prop
    where
  | leaf {n : Nat} {w : String} {o : Outline} {ts : List Token} {r : Outline × List Token}
      (known : v.Leaf w o) (more : Scan v (some o) n ts r) : Scan v none n (.word w :: ts) r
  | group {n : Nat} {o : Outline} {ts us : List Token} {r : Outline × List Token}
      (inner : Scan v none 0 ts (o, .mark .closeParen :: us)) (more : Scan v (some o) n us r) :
      Scan v none n (.mark .openParen :: ts) r
  | sign {n : Nat} {t : Token} {op : UnaryOperator} {o : Outline} {ts us : List Token}
      {r : Outline × List Token} (spelled : t.symbol? = some op.symbol)
      (operand : Scan v none Precedence.unary.rank ts (o, us))
      (more : Scan v (some (Grammar.signed op o)) n us r) : Scan v none n (t :: ts) r
  | stop {n : Nat} {o : Outline} {ts : List Token} (stops : Stops n ts) :
      Scan v (some o) n ts (o, ts)
  | binary {n : Nat} {t : Token} {op : InfixOperator} {l o : Outline} {ts us : List Token}
      {r : Outline × List Token} (spelled : t.symbol? = some op.symbol)
      (strong : n ≤ op.precedence.rank) (operand : Scan v none op.rightRank ts (o, us))
      (more : Scan v (some (Grammar.infixed l op o)) n us r) : Scan v (some l) n (t :: ts) r
  | choice {n : Nat} {t u : Token} {l y z : Outline} {ts us ws : List Token}
      {r : Outline × List Token} (question : t.symbol? = some "?")
      (strong : n ≤ Precedence.conditional.rank) (yes : Scan v none 0 ts (y, u :: us))
      (colon : u.symbol? = some ":") (no : Scan v none Precedence.conditional.rank us (z, ws))
      (more : Scan v (some (Grammar.conditional l y z)) n ws r) : Scan v (some l) n (t :: ts) r

section

variable {n m k : Nat} {t : Token} {op : InfixOperator} {ts us rest : List Token} {o : Outline}
  {r : Outline × List Token}

theorem Stops.not_binary (stops : Stops n (t :: ts)) (spelled : t.symbol? = some op.symbol) :
    ¬ n ≤ op.precedence.rank := by
  have loose := (stops t rfl).1 op spelled
  omega

theorem Stops.not_choice (stops : Stops n (t :: ts)) (question : t.symbol? = some "?") :
    ¬ n ≤ Precedence.conditional.rank := by
  have loose := (stops t rfl).2 question
  omega

/-- A token is no infix operator and question mark at once. -/
theorem not_question (spelled : t.symbol? = some op.symbol) : t.symbol? ≠ some "?" := by
  rw [spelled]
  intro question
  exact op.symbol_ne_question (Option.some.inj question)

/-- **Reading from the left is deterministic**: the next token tells the rule. -/
theorem Scan.unique {start : Option Outline} {r' : Outline × List Token}
    (unambiguous : v.Unambiguous) (h : Scan v start n ts r) (h' : Scan v start n ts r') :
    r = r' := by
  induction h generalizing r' with
  | leaf known _ ih =>
    cases h' with
    | leaf known' more' =>
      obtain rfl := known.unique unambiguous known'
      exact ih more'
    | sign spelled => cases spelled
  | group _ _ ihInner ih =>
    cases h' with
    | group inner' more' =>
      obtain ⟨rfl, tail⟩ := Prod.mk.inj (ihInner inner')
      obtain ⟨-, rfl⟩ := List.cons.inj tail
      exact ih more'
    | sign spelled => cases spelled
  | sign spelled _ _ ihOperand ih =>
    cases h' with
    | leaf => cases spelled
    | group => cases spelled
    | sign spelled' operand' more' =>
      rw [spelled] at spelled'
      obtain rfl := UnaryOperator.symbol_inj (Option.some.inj spelled')
      obtain ⟨rfl, rfl⟩ := Prod.mk.inj (ihOperand operand')
      exact ih more'
  | stop stops =>
    cases h' with
    | stop => rfl
    | binary spelled strong => exact absurd strong (stops.not_binary spelled)
    | choice question strong => exact absurd strong (stops.not_choice question)
  | binary spelled strong _ _ ihOperand ih =>
    cases h' with
    | stop stops => exact absurd strong (stops.not_binary spelled)
    | binary spelled' _ operand' more' =>
      rw [spelled] at spelled'
      obtain rfl := InfixOperator.symbol_inj (Option.some.inj spelled')
      obtain ⟨rfl, rfl⟩ := Prod.mk.inj (ihOperand operand')
      exact ih more'
    | choice question => exact absurd question (not_question spelled)
  | choice question strong _ _ _ _ ihYes ihNo ih =>
    cases h' with
    | stop stops => exact absurd strong (stops.not_choice question)
    | binary spelled => exact absurd question (not_question spelled)
    | choice _ _ yes' _ no' more' =>
      obtain ⟨rfl, tail⟩ := Prod.mk.inj (ihYes yes')
      obtain ⟨-, rfl⟩ := List.cons.inj tail
      obtain ⟨rfl, rfl⟩ := Prod.mk.inj (ihNo no')
      exact ih more'

/-! ### Reading retraces every reading -/

/-- The next token does not go on with an expression that stands where the strength `m` is demanded:
it binds more loosely, or as loosely as an operator whose chains nest on the left. -/
def Closes (m : Nat) (ts : List Token) : Prop :=
  ∀ t ∈ ts.head?,
    (∀ op : InfixOperator, t.symbol? = some op.symbol → op.precedence.rank < m ∨
      op.precedence.rank = m ∧ Precedence.conditional.rank < m) ∧
      (t.symbol? = some "?" → Precedence.conditional.rank < m)

theorem Closes.mono (h : Closes m ts) (le : m ≤ k) : Closes k ts := by
  intro t ht
  obtain ⟨binary, choice⟩ := h t ht
  refine ⟨fun op spelled => ?_, fun question => Nat.lt_of_lt_of_le (choice question) le⟩
  have := binary op spelled
  omega

theorem Stops.closes (h : Stops m ts) : Closes m ts :=
  fun t ht => ⟨fun op spelled => .inl ((h t ht).1 op spelled), (h t ht).2⟩

/-- Reading stops in front of a token that is neither an infix operator nor a question mark. -/
theorem stops_of_other (noOperator : ∀ op : InfixOperator, t.symbol? ≠ some op.symbol)
    (noQuestion : t.symbol? ≠ some "?") : Stops n (t :: ts) := by
  intro u hu
  obtain rfl := Option.some.inj hu
  exact ⟨fun op spelled => absurd spelled (noOperator op), fun question =>
    absurd question noQuestion⟩

theorem stops_closeParen : Stops n (.mark .closeParen :: ts) :=
  stops_of_other (fun _ => by simp [Token.symbol?]) (by simp [Token.symbol?])

theorem stops_colon (colon : t.symbol? = some ":") : Stops n (t :: ts) := by
  refine stops_of_other (fun op => ?_) ?_
  · rw [colon]
    cases op <;> decide
  · rw [colon]
    decide

/-- An infix operator closes the place on its left. -/
theorem closes_binary (spelled : t.symbol? = some op.symbol) : Closes op.leftRank (t :: ts) := by
  intro u hu
  obtain rfl := Option.some.inj hu
  refine ⟨fun op' spelled' => ?_, fun question => absurd question (not_question spelled)⟩
  rw [spelled] at spelled'
  obtain rfl := InfixOperator.symbol_inj (Option.some.inj spelled')
  rcases op.rank_cases with ⟨right, -⟩ | ⟨left, tight, -⟩
  · refine .inl ?_
    rw [InfixOperator.leftRank, right]
    exact Nat.lt_succ_self _
  · refine .inr ?_
    rw [InfixOperator.leftRank_of_nestsLeft left]
    exact ⟨rfl, tight⟩

/-- A question mark closes the condition before it. -/
theorem closes_question (question : t.symbol? = some "?") :
    Closes Precedence.conditionalOr.rank (t :: ts) := by
  intro u hu
  obtain rfl := Option.some.inj hu
  exact ⟨fun op spelled => absurd question (not_question spelled), fun _ => by decide⟩

/-- Everything stops behind an operand of a sign. -/
theorem stops_unary : Stops Precedence.unary.rank ts := by
  refine fun t _ => ⟨fun op _ => ?_, fun _ => by decide⟩
  rcases op.rank_cases with ⟨-, loose⟩ | ⟨-, -, loose⟩
  · rw [loose]
    decide
  · exact loose

/-- What closes a place with an infix operator stops behind the right operand. -/
theorem Closes.stops_right (h : Closes m ts) (le : m ≤ op.precedence.rank) :
    Stops op.rightRank ts := by
  intro t ht
  obtain ⟨binary, choice⟩ := h t ht
  -- an operator of the same strength may follow only where chains nest on the left
  rcases op.rank_cases with ⟨right, loose⟩ | ⟨left, tight, -⟩
  · rw [InfixOperator.rightRank, right, if_pos rfl]
    have assignment : Precedence.assignment.rank < Precedence.conditional.rank := by decide
    refine ⟨fun op' spelled => ?_, fun question => ?_⟩
    · have := binary op' spelled
      omega
    · have := choice question
      omega
  · rw [InfixOperator.rightRank_of_nestsLeft left]
    refine ⟨fun op' spelled => ?_, fun question => ?_⟩
    · have := binary op' spelled
      omega
    · have := choice question
      omega

/-- What closes a place with a conditional stops behind its last branch. -/
theorem Closes.stops_choice (h : Closes m ts) (le : m ≤ Precedence.conditional.rank) :
    Stops Precedence.conditional.rank ts := by
  intro t ht
  obtain ⟨binary, choice⟩ := h t ht
  refine ⟨fun op spelled => ?_, fun question => Nat.lt_of_lt_of_le (choice question) le⟩
  have := binary op spelled
  omega

/-- **Reading from the left retraces every reading**, in front of a rest that closes its place, and
goes on behind it. -/
theorem Reads.retraces (h : Reads v m ts o) :
    ∀ {n : Nat} {rest : List Token} {r : Outline × List Token}, n ≤ m → Closes m rest →
      Scan v (some o) n rest r → Scan v none n (ts ++ rest) r := by
  induction h with
  | leaf known => exact fun _ _ more => .leaf known more
  | parenthesized _ ih =>
    intro n rest r _ _ more
    have stops : Stops 0 (.mark .closeParen :: rest) := stops_closeParen
    have inner := ih (Nat.le_refl _) stops.closes (.stop stops)
    rw [JavaSource.parenthesized, List.append_assoc]
    exact .group inner more
  | signed spelled strong _ ih =>
    intro n rest r _ close more
    have operand := ih (Nat.le_refl _) (close.mono strong) (.stop stops_unary)
    exact .sign spelled operand more
  | @infixed m t op l r lo ro spelled strong _ _ ihLeft ihRight =>
    intro n rest res le close more
    have ranks : op.precedence.rank ≤ op.leftRank ∧ op.precedence.rank ≤ op.rightRank := by
      rw [InfixOperator.leftRank, InfixOperator.rightRank]
      split <;> omega
    have operand := ihRight (Nat.le_refl _) (close.mono (Nat.le_trans strong ranks.2))
      (.stop (close.stops_right strong))
    rw [List.append_assoc, List.cons_append]
    have loose : n ≤ op.precedence.rank := Nat.le_trans le strong
    exact ihLeft (Nat.le_trans loose ranks.1) (closes_binary spelled)
      (.binary spelled loose operand more)
  | @conditional m t u c y z co yo zo question colon strong _ _ _ ihCondition ihYes ihNo =>
    intro n rest r le close more
    have stops : Stops 0 (u :: (z ++ rest)) := stops_colon colon
    have yes := ihYes (Nat.le_refl _) stops.closes (.stop stops)
    have no := ihNo (Nat.le_refl _) (close.mono strong) (.stop (close.stops_choice strong))
    simp only [List.append_assoc, List.cons_append]
    have loose : n ≤ Precedence.conditional.rank := Nat.le_trans le strong
    exact ihCondition (Nat.le_trans loose (by decide)) (closes_question question)
      (.choice question loose yes colon no more)

/-- **The grammar is unambiguous.** -/
theorem Reads.unique {o' : Outline} (unambiguous : v.Unambiguous) (h : Reads v n ts o)
    (h' : Reads v n ts o') : o = o' := by
  have scanned : ∀ {o : Outline}, Reads v n ts o → Scan v none 0 ts (o, []) := by
    intro o h
    have ends : Closes n [] := fun t ht => nomatch ht
    have whole := h.retraces (Nat.zero_le n) ends (.stop fun t ht => nomatch ht)
    rwa [List.append_nil] at whole
  exact congrArg Prod.fst ((scanned h).unique unambiguous (scanned h'))

end

end OperatorGrammar

end JavaSource
