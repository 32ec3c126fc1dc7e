import JavaSource.Proofs.Node.Erasure
import JavaSource.Proofs.Statement.Grammar

/-!
# Every `else` belongs to its own `if`

`Tree.isControlFlow` delimits the statements of the grammar: loops, labels, conditionals, jumps and
blocks over simple names. The tokens of such a statement are read back as the statement, except that
the first branch of an `if` with `else` comes back in braces where it is open-ended
(`Tree.reads_emit_iff`).

* `Tree.words` are the spellings from which the grammar reads a tree of any category.
* `Tree.takesElse` tells where an `else` must not follow. The induction carries exactly this
  condition on what comes behind a tree (`Tree.reads_of_isControlFlow`).
-/

namespace JavaSource

open StatementGrammar (IsName Header Simple Reads reference dimensions parameter parameterWords)

namespace Tree

/-! ### Control flow -/

/-- Whether an expression is a simple name that is not reserved, or missing. -/
def isReference : {c : Category} → Tree c → Bool
  | _, .absent => true
  | _, .present e => e.isReference
  | _, .nameExpression (.simple n) => n.isUnreserved
  | _, _ => false

/-- Whether a parameter has a simple named type and no modifiers. -/
def isPlainParameter : Tree .formalParameter → Bool
  | .formalParameterDeclaration _ modifiers (.named ⟨_, .simple type⟩) _ name _ =>
    modifiers.isEmpty && type.isUnreserved && name.isUnreserved
  | _ => false

/-- Whether all statements of a tree belong to the grammar. -/
def isControlFlow : {c : Category} → Tree c → Bool
  | .listOf .statement, .nil => true
  | .listOf .statement, .cons s ss => s.isControlFlow && ss.isControlFlow
  | .optional .statement, .absent => true
  | .optional .statement, .present s => s.isControlFlow
  | _, .block _ ss => ss.isControlFlow
  | _, .blockStatement b => b.isControlFlow
  | _, .emptyStatement _ => true
  | _, .expressionStatement _ e => e.isReference
  | _, .returnStatement _ value => value.isReference
  | _, .breakStatement _ target => target.all SimpleName.isUnreserved
  | _, .continueStatement _ target => target.all SimpleName.isUnreserved
  | _, .ifStatement _ condition yes no =>
    condition.isReference && yes.isControlFlow && no.isControlFlow
  | _, .whileStatement _ condition loop => condition.isReference && loop.isControlFlow
  | _, .forStatement _ start condition update loop =>
    start.isEmpty && condition.isEmpty && update.isEmpty && loop.isControlFlow
  | _, .enhancedForStatement _ parameter values loop =>
    parameter.isPlainParameter && values.isReference && loop.isControlFlow
  | _, .labeledStatement _ label s => label.isUnreserved && s.isControlFlow
  | _, .doStatement _ loop condition => loop.isControlFlow && condition.isReference
  | _, _ => false

/-- The tree with braces around each first branch of an `if` that would take the `else`. -/
def withBraces : {c : Category} → Tree c → Tree c
  | _, .cons t ts => .cons t.withBraces ts.withBraces
  | _, .present t => .present t.withBraces
  | _, .block h ss => .block h ss.withBraces
  | _, .blockStatement b => .blockStatement b.withBraces
  | _, .ifStatement h condition yes no =>
    .ifStatement h condition
      (if yes.openEnded && !no.isEmpty then
          .blockStatement (.block none (.cons yes.withBraces .nil))
        else yes.withBraces)
      no.withBraces
  | _, .whileStatement h condition loop => .whileStatement h condition loop.withBraces
  | _, .forStatement h start condition update loop =>
    .forStatement h start condition update loop.withBraces
  | _, .enhancedForStatement h parameter values loop =>
    .enhancedForStatement h parameter values loop.withBraces
  | _, .labeledStatement h label s => .labeledStatement h label s.withBraces
  | _, .doStatement h loop condition => .doStatement h loop.withBraces condition
  | _, t => t

/-! ### Spellings of statements -/

section

variable {b : Bool} {es : List Emitted}

/-- The spellings from which a tree is read: those of its tokens, for a list with the brace that
closes it and for a second branch with its `else`. -/
def words (b : Bool) : {c : Category} → Tree c → List String
  | _, .nil => ["\x7d"]
  | _, .cons t ts => spellings (joined (t.emit (.bare b) .lowest)) ++ ts.words b
  | _, .absent => []
  | _, .present t => "else" :: spellings (joined (t.emit (.bare b) .lowest))
  | _, t => spellings (joined (t.emit (.bare b) .lowest))

@[simp] theorem words_statement (s : Statement) :
    s.words b = spellings (joined (s.emit (.bare b) .lowest)) := by
  cases s <;> rfl

@[simp] theorem words_block (t : Block) :
    t.words b = spellings (joined (t.emit (.bare b) .lowest)) := by
  cases t
  rfl

theorem spellings_body : spellings (body es) = spellings (joined es) := by
  induction es with
  | nil => rfl
  | cons e es ih =>
    simp only [body, joined, List.flatMap_cons, spellings_append] at ih ⊢
    rw [ih]
    split <;> simp [Token.spelling?]

theorem spellings_lines : spellings (lines es) = spellings (joined es) := by
  induction es with
  | nil => rfl
  | cons e es ih =>
    simp only [lines, joined, List.flatMap_cons, spellings_append] at ih ⊢
    rw [ih]
    simp [Token.spelling?]

theorem spellings_alternative : spellings (alternative es) = spellings (joined es) := by
  induction es with
  | nil => rfl
  | cons e es ih =>
    simp only [alternative, joined, List.flatMap_cons, spellings_append] at ih ⊢
    rw [ih]
    split
    · simp [Token.spelling?]
    · simp [spellings_body, joined]

@[simp] theorem spellings_header (keyword : String) (ts : List Token) :
    spellings (header keyword ts) = keyword :: "(" :: spellings ts ++ [")"] := by
  simp [header, Token.spelling?]

/-- Neither a space nor the end of a line is spelled. -/
@[simp ↓] theorem spellings_cons_gap {apart : Prop} [Decidable apart] {ts : List Token} :
    spellings ((if apart then .space else .newline) :: ts) = spellings ts := by
  split <;> rfl

theorem spellings_joined_append_brace : ∀ ss : Tree (.listOf .statement),
    spellings (joined (ss.emit (.bare b) .lowest)) ++ ["\x7d"] = ss.words b
  | .nil => rfl
  | .cons s ss => by
    simp [emit, words, joined, ← spellings_joined_append_brace ss]

/-- Statements in braces, as the grammar reads them. -/
theorem spellings_indentedBraces_lines (ss : Tree (.listOf .statement)) :
    spellings (indentedBraces (lines (ss.emit (.bare b) .lowest))) = "\x7b" :: ss.words b := by
  simp [indentedBraces, Token.spelling?, Mark.spelling, spellings_lines,
    ← spellings_joined_append_brace ss]

/-- A statement is one node. -/
theorem exists_emit_eq (s : Statement) (x : EmitContext) (p : Precedence) :
    ∃ e, s.emit x p = [e] := by
  cases s with
  | blockStatement t =>
    cases t
    exact ⟨_, rfl⟩
  | _ => exact ⟨_, rfl⟩

/-- The branches of an `if`: the first one in braces if the second would be taken for a part of
it. -/
theorem spellings_branches (yes : Statement) (no : Tree (.optional .statement)) :
    spellings (branches yes.openEnded (yes.emit (.bare b) .lowest) (no.emit (.bare b) .lowest)) =
      (if yes.openEnded && !no.isEmpty then "\x7b" :: yes.words b ++ ["\x7d"] else yes.words b) ++
        no.words b := by
  cases no with
  | absent => simp [branches, emit, isEmpty, words, spellings_body]
  | present s =>
    obtain ⟨e, emitted⟩ := s.exists_emit_eq (.bare b) .lowest
    simp only [branches, emit, isEmpty, words, emitted, Bool.not_false, Bool.and_true,
      words_statement, spellings_append]
    rw [spellings_alternative, spellings_cons_gap]
    cases yes.openEnded <;>
      simp [spellings_body, spellings_lines, indentedBraces, Token.spelling?, Mark.spelling]

end

/-! ### Reading statements back -/

/-- Whether an `else` behind the tree would be read as a part of it. -/
def takesElse : {c : Category} → Tree c → Bool
  | _, .absent => true
  | _, t => t.openEnded

theorem openEnded_ifStatement (h : Handle) (condition : Expression) (yes : Statement)
    (no : Tree (.optional .statement)) :
    (ifStatement h condition yes no).openEnded = no.takesElse := by
  cases no with
  | absent => rfl
  | present s => rfl

/-- What is in braces takes no `else`. -/
@[simp] theorem takesElse_statements (ss : Tree (.listOf .statement)) : ss.takesElse = false := by
  cases ss <;> rfl

@[simp] theorem takesElse_block (t : Block) : t.takesElse = false := by
  cases t
  rfl

@[simp] theorem takesElse_statement (s : Statement) : s.takesElse = s.openEnded := by
  cases s <;> rfl

theorem exists_reference {e : Expression} (flow : e.isReference = true) :
    ∃ n : SimpleName, n.isUnreserved = true ∧ e = reference n := by
  cases e with
  | nameExpression name =>
    cases name with
    | simple n => exact ⟨n, flow, rfl⟩
    | qualified => exact absurd flow Bool.false_ne_true
  | _ => exact absurd flow Bool.false_ne_true

theorem spellings_emptyBrackets_eq_dimensions (k : Nat) :
    spellings (emptyBrackets k) = dimensions k := by
  induction k with
  | zero => rfl
  | succ k ih => simp [emptyBrackets, dimensions, ih, Token.spelling?, Mark.spelling]

theorem isName_erased {n : SimpleName} (free : n.isUnreserved = true) : IsName n.erased :=
  ⟨rfl, free⟩

theorem exists_parameter {p : Tree .formalParameter} (flow : p.isPlainParameter = true) :
    ∃ type name arity extra, IsName type ∧ IsName name ∧
      p.erased = parameter type arity name extra ∧
      ∀ b, spellings (joined (p.emit (.bare b) .lowest)) =
        parameterWords type arity name extra := by
  unfold isPlainParameter at flow
  split at flow
  · next modifiers _ type arity name extra =>
    simp only [Bool.and_eq_true] at flow
    obtain ⟨⟨none, free⟩, free'⟩ := flow
    cases modifiers with
    | cons => contradiction
    | nil =>
      refine ⟨type.erased, name.erased, arity, extra, isName_erased free, isName_erased free',
        rfl, fun b => ?_⟩
      cases arity <;>
        simp [emit, joined, attributes, Ty.emit, NamedType.emit, Name.emit, parameterWords,
          spellings_emptyBrackets_eq_dimensions, SimpleName.erased, Token.spelling?, Mark.spelling]
  · contradiction

/-- A name that may be missing, as the value of a `return`. -/
theorem exists_returned {value : Tree (.optional .expression)} (flow : value.isReference = true) :
    ∃ name : Option SimpleName, (∀ n ∈ name, IsName n) ∧
      value.erased = .ofOption (name.map reference) ∧
      ∀ b, spellings (after .space (value.emit (.bare b) .lowest)) =
        StatementGrammar.optionalWord name := by
  cases value with
  | absent => exact ⟨none, by simp, rfl, fun b => rfl⟩
  | present e =>
    obtain ⟨n, free, rfl⟩ := exists_reference flow
    refine ⟨some n.erased, ?_, rfl, fun b => ?_⟩
    · rintro _ ⟨⟩
      exact isName_erased free
    · simp [emit, after, Name.emit, SimpleName.erased, StatementGrammar.optionalWord,
        Token.spelling?]

/-- A label that may be missing, behind a jump. -/
theorem exists_target {target : Option SimpleName}
    (flow : target.all SimpleName.isUnreserved = true) :
    (∀ n ∈ target.map SimpleName.erased, IsName n) ∧
      ∀ b, spellings (emitTarget (.bare b) target) =
        StatementGrammar.optionalWord (target.map SimpleName.erased) := by
  cases target with
  | none => exact ⟨by simp, fun b => rfl⟩
  | some n =>
    refine ⟨?_, fun b => by simp [emitTarget, SimpleName.erased, StatementGrammar.optionalWord]⟩
    rintro _ ⟨⟩
    exact isName_erased flow

section

variable {b : Bool} {rest : List String}

/-- A tree may be read from spellings that are written in another way. -/
theorem reads_of_words_eq {c : Category} {t : Tree c} {ts us : List String} (h : Reads ts t rest)
    (same : us = ts) : Reads us t rest :=
  same ▸ h

/-- The first branch of an `if` is read up to the second, since it is in braces where it would take
the `else`. -/
theorem reads_first_branch {yes : Statement} {no : Tree (.optional .statement)}
    (ih : ∀ rest : List String, (yes.takesElse = true → rest.head? ≠ some "else") →
      Reads (yes.words b ++ rest) yes.withBraces.erased rest)
    (ends : no.takesElse = true → rest.head? ≠ some "else") :
    Reads
      ((if yes.openEnded && !no.isEmpty then "\x7b" :: yes.words b ++ ["\x7d"] else yes.words b) ++
        (no.words b ++ rest))
      (if yes.openEnded && !no.isEmpty then
        .blockStatement (.block none (.cons yes.withBraces .nil)) else yes.withBraces).erased
      (no.words b ++ rest) := by
  split
  · have inner := ih ("\x7d" :: (no.words b ++ rest)) (by simp)
    exact reads_of_words_eq (.blockStatement (.block (.cons inner .nil))) (by simp)
  · next unbraced =>
    refine ih _ fun takes => ?_
    rw [takesElse_statement] at takes
    cases no with
    | absent => exact ends rfl
    | present s => exact absurd (by simp [takes, isEmpty]) unbraced

/-- **The spellings of control flow are read back.** What follows must not start with an `else` that
the tree would take. -/
theorem reads_of_isControlFlow {c : Category} {t : Tree c} (flow : t.isControlFlow = true)
    (rest : List String) (ends : t.takesElse = true → rest.head? ≠ some "else") :
    Reads (t.words b ++ rest) t.withBraces.erased rest := by
  -- What a case has to be read as is found by unfolding, so only the spellings are rewritten.
  induction t generalizing rest with
  | @nil c =>
    obtain rfl : c = .statement := by cases c <;> first | rfl | contradiction
    exact .nil
  | @cons c s ss ihs ihss =>
    obtain rfl : c = .statement := by cases c <;> first | rfl | contradiction
    obtain ⟨hs, hss⟩ := Bool.and_eq_true_iff.mp flow
    have others := ihss hss rest (by simp)
    have first := ihs hs (ss.words b ++ rest) fun _ => others.head?_ne_else
    exact reads_of_words_eq (.cons first others) (by simp [words])
  | @absent c =>
    obtain rfl : c = .statement := by cases c <;> first | rfl | contradiction
    exact .noElse (ends rfl)
  | @present c s ih =>
    obtain rfl : c = .statement := by cases c <;> first | rfl | contradiction
    have branch := ih flow rest (by rwa [takesElse_statement])
    rw [words_statement] at branch
    exact .withElse branch
  | block h ss ih =>
    have statements := ih flow rest (by simp)
    exact reads_of_words_eq (.block statements)
      (by simp [emit, joined, spellings_indentedBraces_lines])
  | blockStatement t ih =>
    have inner := ih flow rest (by simp)
    rw [words_block] at inner
    exact .blockStatement inner
  | emptyStatement h =>
    exact reads_of_words_eq (.simple .empty)
      (by simp [emit, joined, Token.spelling?, Mark.spelling])
  | expressionStatement h e =>
    obtain ⟨n, free, rfl⟩ := exists_reference flow
    exact reads_of_words_eq (.simple (.expression (isName_erased free)))
      (by simp [emit, joined, SimpleName.erased, Name.emit, Token.spelling?, Mark.spelling])
  | returnStatement h value =>
    obtain ⟨name, names, given, spelled⟩ := exists_returned flow
    have read : Reads _ _ rest := .simple (.returning names)
    rw [← given] at read
    exact reads_of_words_eq read (by simp [emit, joined, spelled, Token.spelling?, Mark.spelling])
  | breakStatement h target =>
    obtain ⟨names, spelled⟩ := exists_target flow
    exact reads_of_words_eq (.simple (.breaking names))
      (by simp [emit, joined, spelled, Token.spelling?, Mark.spelling])
  | continueStatement h target =>
    obtain ⟨names, spelled⟩ := exists_target flow
    exact reads_of_words_eq (.simple (.continuing names))
      (by simp [emit, joined, spelled, Token.spelling?, Mark.spelling])
  | ifStatement h condition yes no _ ihyes ihno =>
    obtain ⟨front, hno⟩ := Bool.and_eq_true_iff.mp flow
    obtain ⟨tested, hyes⟩ := Bool.and_eq_true_iff.mp front
    obtain ⟨n, free, rfl⟩ := exists_reference tested
    rw [takesElse_statement, openEnded_ifStatement] at ends
    have first := reads_first_branch (ihyes hyes) ends
    have second := ihno hno rest ends
    exact reads_of_words_eq (.conditional (isName_erased free) first second)
      (by simp [emit, joined, SimpleName.erased, Name.emit, spellings_branches])
  | whileStatement h condition loop _ ih =>
    obtain ⟨tested, hloop⟩ := Bool.and_eq_true_iff.mp flow
    obtain ⟨n, free, rfl⟩ := exists_reference tested
    have inner := ih hloop rest (by rwa [takesElse_statement])
    have read := Reads.headed (.whileLoop (isName_erased free)) inner
    exact reads_of_words_eq read
      (by simp [emit, joined, SimpleName.erased, Name.emit, spellings_body])
  | forStatement h start condition update loop _ _ _ ih =>
    obtain ⟨empty, hloop⟩ := Bool.and_eq_true_iff.mp flow
    obtain ⟨front, noUpdate⟩ := Bool.and_eq_true_iff.mp empty
    obtain ⟨noStart, noCondition⟩ := Bool.and_eq_true_iff.mp front
    have read := Reads.headed .forLoop (ih hloop rest (by rwa [takesElse_statement]))
    cases start with
    | present => contradiction
    | absent =>
      cases condition with
      | present => contradiction
      | absent =>
        cases update with
        | present => contradiction
        | absent =>
          exact reads_of_words_eq read
            (by simp [emit, joined, after, spellings_body, Token.spelling?, Mark.spelling])
  | enhancedForStatement h parameter values loop _ _ ih =>
    obtain ⟨front, hloop⟩ := Bool.and_eq_true_iff.mp flow
    obtain ⟨plain, given⟩ := Bool.and_eq_true_iff.mp front
    obtain ⟨type, name, arity, extra, typed, named, erases, spelled⟩ := exists_parameter plain
    obtain ⟨n, free, rfl⟩ := exists_reference given
    have inner := ih hloop rest (by rwa [takesElse_statement])
    have header := @Header.forEach type name _ arity extra typed named (isName_erased free)
    rw [← erases] at header
    simp only [joined] at spelled
    have read := Reads.headed header inner
    exact reads_of_words_eq read
      (by simp [emit, joined, SimpleName.erased, Name.emit, spelled, spellings_body,
        Token.spelling?])
  | labeledStatement h label s ih =>
    obtain ⟨free, hs⟩ := Bool.and_eq_true_iff.mp flow
    have inner := ih hs rest (by rwa [takesElse_statement])
    have read := Reads.headed (.label (isName_erased free)) inner
    exact reads_of_words_eq read
      (by simp [emit, joined, SimpleName.erased, Token.spelling?, Mark.spelling])
  | doStatement h loop condition ih _ =>
    obtain ⟨hloop, tested⟩ := Bool.and_eq_true_iff.mp flow
    obtain ⟨n, free, rfl⟩ := exists_reference tested
    have inner := ih hloop
      ("while" :: "(" :: n.erased.token :: ")" :: ";" :: rest) (by simp)
    exact reads_of_words_eq (.doLoop inner (isName_erased free))
      (by simp [emit, joined, SimpleName.erased, Name.emit, spellings_body, Token.spelling?,
        Mark.spelling])
  | _ => exact absurd flow Bool.false_ne_true

end

/-- **Every `else` belongs to its own `if`.** The tokens of control flow with nothing attached are
read as one tree: the one that was written, with braces where a first branch would take the `else`
of its `if`. -/
theorem reads_emit_iff {notes : Notes} {blank : Bool} {s : Statement}
    (flow : s.isControlFlow = true) (bare : notes.Bare s.outline) (u : Statement)
    (rest : List String) :
    Reads (spellings ((Node.tree s).emit (notes.context blank))) u rest ↔
      u = s.withBraces.erased ∧ rest = [] := by
  have written : Reads (spellings ((Node.tree s).emit (notes.context blank))) s.withBraces.erased
      [] := by
    have reads := reads_of_isControlFlow (b := blank) flow [] (by simp)
    rwa [List.append_nil, words_statement, ← emit_of_bare bare] at reads
  constructor
  · intro reads
    exact reads.unique written
  · rintro ⟨rfl, rfl⟩
    exact written

/-- An `else` that a `while` with an `if` inside would take without braces. -/
theorem reads_emit_iff_captured :
    let x : Expression := .nameExpression (.simple ⟨none, "x", rfl⟩)
    let inner : Statement :=
      .whileStatement none x (.ifStatement none x (.emptyStatement none) .absent)
    let s : Statement := .ifStatement none x inner (.present (.emptyStatement none))
    Reads (spellings ((Node.tree s).emit (({} : Notes).context true)))
      (.ifStatement none x (.blockStatement (.block none (.cons inner .nil)))
        (.present (.emptyStatement none))) [] :=
  (@reads_emit_iff {} true _ (by decide) (by intro h _; cases h <;> rfl) _ _).mpr ⟨rfl, rfl⟩

end Tree

end JavaSource
