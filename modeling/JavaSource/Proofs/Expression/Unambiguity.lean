import JavaSource.Proofs.Emission.Agreement
import JavaSource.Proofs.Expression.Reader
import Mathlib.Data.List.Forall2

/-!
# Written expressions can be read back

`Tree.isPlain` delimits the expressions of the grammar: names, literals, operators of every kind,
casts, accesses, calls and array creations, without type arguments and initializers.
The tokens of a plain expression, written for any strength that its place demands, are derived by
the grammar at that strength (`Tree.readsBack_of_isPlain`). Since the grammar is unambiguous, the
spelling determines the expression up to handles and parentheses.

* `Emitted.Reads` is what emission guarantees for one place. What is written for a primary
  expression can also be indexed, unless it creates an array.
* `Emitted.Reads.wrapped` is the one lemma about parentheses: they are set exactly where the
  demanded strength is not reached.
-/

namespace JavaSource

/-! ### Plain expressions -/

/-- Whether a simple name is not a reserved word. -/
def SimpleName.isUnreserved (n : SimpleName) : Bool :=
  !reservedWords.contains n.token

/-- Whether a type is basic or given by a simple name that is not reserved. -/
def Ty.isPlain : Ty → Bool
  | .basic .. => true
  | .named ⟨_, .simple n⟩ => n.isUnreserved
  | _ => false

namespace Tree

/-- Whether all expressions of a tree belong to the grammar. -/
def isPlain : {c : Category} → Tree c → Bool
  | _, .nil => true
  | _, .cons t ts => t.isPlain && ts.isPlain
  | _, .absent => true
  | _, .present t => t.isPlain
  | _, .nameExpression (.simple n) => n.isUnreserved
  | _, .literal _ token _ => isLiteralWord token
  | _, .thisReference _ qualifier => qualifier.isNone
  | _, .infixExpression _ left op right => op ≠ .assign && left.isPlain && right.isPlain
  | _, .unaryExpression _ _ operand => operand.isPlain
  | _, .postfixExpression _ operand _ => operand.isPlain
  | _, .conditionalExpression _ condition yes no =>
    condition.isPlain && yes.isPlain && no.isPlain
  | _, .assignmentExpression _ left op right =>
    op.assignmentSymbol.isSome && left.isPlain && right.isPlain
  | _, .instanceofExpression _ operand type => operand.isPlain && type.isPlain
  | _, .castExpression _ type operand => type.isPlain && operand.isPlain
  | _, .fieldAccessExpression _ qualifier name => qualifier.isPlain && name.isUnreserved
  | _, .arrayAccessExpression _ array index => array.isPlain && index.isPlain
  | _, .methodInvocationExpression _ qualifier typeArgs name arguments =>
    qualifier.isPlain && typeArgs.isEmpty && name.isUnreserved && arguments.isPlain
  | _, .arrayCreationExpression _ type sizes values =>
    -- more sizes than dimensions are refused when an array creation is built
    type.element.isBasic && sizes.isPlain && values.isEmpty &&
      sizes.outline.elements.length ≤ type.dimensions
  | _, .parenthesizedExpression _ inner => inner.isPlain
  | _, _ => false

end Tree

/-! ### Spelling groups of tokens -/

section

variable {ts us : List Token}

@[simp] theorem spellings_append : spellings (ts ++ us) = spellings ts ++ spellings us :=
  List.filterMap_append

@[simp] theorem spellings_cons (t : Token) :
    spellings (t :: ts) = t.spelling?.toList ++ spellings ts := by
  cases h : t.spelling? <;> simp [spellings, h]

@[simp] theorem spellings_nil : spellings [] = [] := rfl

@[simp] theorem spellings_parenthesized :
    spellings (parenthesized ts) = "(" :: spellings ts ++ [")"] := by
  simp [parenthesized, Token.spelling?, Mark.spelling]

@[simp] theorem spellings_bracketed :
    spellings (bracketed ts) = "[" :: spellings ts ++ ["]"] := by
  simp [bracketed, Token.spelling?, Mark.spelling]

theorem spellings_emptyBrackets (n : Nat) :
    spellings (emptyBrackets n) = Grammar.brackets (List.replicate n []) := by
  induction n with
  | zero => rfl
  | succ n ih =>
    simp [emptyBrackets, ih, List.replicate_succ, Grammar.brackets, Token.spelling?, Mark.spelling]

theorem spellings_flatMap_bracketed (es : List Emitted) :
    spellings (es.flatMap fun e => bracketed e.tokens) =
      Grammar.brackets (es.map fun e => spellings e.tokens) := by
  induction es with
  | nil => rfl
  | cons e es ih => simpa [Grammar.brackets] using ih

theorem spellings_separated (es : List Emitted) :
    spellings (separated es) = [","].intercalate (es.map fun e => spellings e.tokens) := by
  induction es with
  | nil => rfl
  | cons e es ih =>
    cases es with
    | nil => simp [separated, commaSeparated]
    | cons e' es =>
      simp only [separated, commaSeparated, List.map_cons, List.intercalate_cons_cons] at ih ⊢
      simp only [spellings_append, ih, Token.spelling?, spellings_cons, spellings_nil,
        Option.toList_some, List.append_nil]

end

/-! ### Outlines that the grammar derives -/

/-- A tree as the grammar sees it, without parentheses and handles. -/
def Outline.plain (o : Outline) : Outline :=
  o.withoutParentheses.erased

namespace Outline

@[simp] theorem plain_node {k : Kind} (hk : k ≠ .parenthesizedExpression) (h : Handle)
    (fs : List Outline) : (node k h fs).plain = .node k none (fs.map plain) := by
  simp [plain, withoutParentheses_node hk, erased, Function.comp_def]

@[simp] theorem plain_parenthesized (h : Handle) (o : Outline) :
    (node .parenthesizedExpression h [o]).plain = o.plain := by
  simp [plain, withoutParentheses]

@[simp] theorem plain_text (s : String) : (text s).plain = .text s := rfl

@[simp] theorem plain_absent : absent.plain = .absent := rfl

@[simp] theorem plain_ofChoice {α : Type} [DecidableEq α] [Enumeration α] (a : α) :
    (ofChoice a).plain = ofChoice a := rfl

@[simp] theorem plain_list (os : List Outline) : (list os).plain = .list (os.map plain) := by
  simp [plain, withoutParentheses, erased, Function.comp_def]

end Outline

theorem SimpleName.plain_outline (n : SimpleName) : n.outline.plain = Grammar.name n.token :=
  Outline.plain_node (by decide) _ _

theorem Ty.cases_of_isPlain {t : Ty} (plain : t.isPlain = true) :
    (∃ h k, t = .basic h k) ∨ ∃ h n, t = .named ⟨h, .simple n⟩ ∧ n.isUnreserved = true := by
  unfold isPlain at plain
  split at plain
  · exact .inl ⟨_, _, rfl⟩
  · exact .inr ⟨_, _, rfl, plain⟩
  · contradiction

theorem Ty.eq_basic_of_isBasic {t : Ty} (basic : t.isBasic = true) : ∃ h k, t = .basic h k := by
  cases t with
  | basic h k => exact ⟨h, k, rfl⟩
  | _ => contradiction

theorem ArrayType.plain_outline (a : ArrayType) {h : Handle} {k : BasicTypeKind}
    (basic : a.element = .basic h k) :
    a.toTy.outline.plain = Grammar.arrayType k a.dimensions := by
  have nested : ∀ {t : Ty}, t.element = .basic h k →
      t.outline.plain = Grammar.arrayType k t.dimensions := by
    intro t
    induction t with
    | array h c ih =>
      intro basic
      simp only [Ty.outline, Outline.plain_node, ne_eq, reduceCtorEq, not_false_eq_true,
        List.map_cons, List.map_nil, ih basic]
      rfl
    | basic =>
      rintro ⟨⟩
      exact Outline.plain_node (by decide) _ _
    | _ => rintro ⟨⟩
  exact nested (t := a.toTy) basic

namespace Tree

/-- The outlines of the nodes that a tree consists of, one for a node and one for each element of a
list. -/
def parts : {c : Category} → Tree c → List Outline
  | _, .nil => []
  | _, .cons t ts => t.parts ++ ts.parts
  | _, .absent => []
  | _, .present t => t.parts
  | _, t => [t.outline]

@[simp] theorem parts_expression (e : Expression) : e.parts = [e.outline] := by
  cases e <;> rfl

theorem outline_eq_list_parts : ∀ ts : Tree (.listOf .expression), ts.outline = .list ts.parts
  | .nil => rfl
  | .cons t ts => by simp [outline, parts, outline_eq_list_parts ts, Outline.elements]

end Tree

/-! ### What is read at one place -/

/-- Whether what is written for the strength `p` can also stand where the rank `n` is demanded. -/
def Kind.Admits (k : Kind) (p : Precedence) (n : Nat) : Prop :=
  n ≤ p.rank ∨ p = .primary ∧ k ≠ .arrayCreationExpression

/-- What is written for the strength `p` is derived as the expression `o`. -/
def Emitted.Reads (p : Precedence) (e : Emitted) (o : Outline) : Prop :=
  ∀ n, e.kind.Admits p n → Grammar.Derives n (spellings e.tokens) o.plain

namespace Emitted

variable {p own : Precedence} {k : Kind} {ts : List Token} {o : Outline}

/-- What is derived at every strength can be written anywhere. -/
theorem Reads.of_all (h : ∀ n, Grammar.Derives n (spellings ts) o.plain) : Reads p ⟨k, ts⟩ o :=
  fun n _ => h n

/-- What is derived up to a strength below a primary expression can be written for this strength. -/
theorem Reads.of_le (low : own ≠ .primary)
    (h : ∀ n ≤ own.rank, Grammar.Derives n (spellings ts) o.plain) : Reads own ⟨k, ts⟩ o := by
  rintro n (le | ⟨rfl, -⟩)
  · exact h n le
  · exact absurd rfl low

/-- **Parentheses are set where they are needed**: an expression written for its own strength can be
wrapped for any other. -/
theorem Reads.wrapped (h : Reads own ⟨k, ts⟩ o) : Reads p ⟨k, wrapped own p ts⟩ o := by
  intro n admits
  unfold JavaSource.wrapped
  split
  · rw [spellings_parenthesized]
    exact .parenthesized (h 0 (.inl (Nat.zero_le _)))
  · refine h n ?_
    rcases admits with le | ⟨rfl, other⟩
    · exact .inl (by omega)
    · have tight : own = .primary := by cases own <;> simp_all [Precedence.rank]
      exact .inr ⟨tight, other⟩

end Emitted

/-! ### Operands of a cast -/

namespace Grammar

/-- Only a sign is spelled as a sign. -/
theorem notMem_signs {w : String} {c : Opening} (start : opening? w = some c)
    (other : ∀ op, c ≠ .sign op) : w ∉ signs := by
  have table : ∀ t ∈ signs, ∃ op, opening? t = some (.sign op) := by
    intro t ht
    simp only [signs, List.mem_cons, List.not_mem_nil, or_false] at ht
    rcases ht with rfl | rfl | rfl | rfl
    exacts [⟨.plus, rfl⟩, ⟨.minus, rfl⟩, ⟨.increment, rfl⟩, ⟨.decrement, rfl⟩]
  intro hw
  obtain ⟨op, hop⟩ := table w hw
  exact other op (Option.some.inj (start.symm.trans hop))

/-- What binds tighter than a sign does not start with one. -/
theorem Derives.exists_unsigned {n : Nat} {ts : List String} {o : Outline} (h : Derives n ts o)
    (tight : Precedence.unary.rank < n) : ∃ t us, ts = t :: us ∧ t ∉ signs := by
  induction h with
  | name word => exact ⟨_, _, rfl, notMem_signs (opening?_of_isNameWord word) (by simp)⟩
  | literal word => exact ⟨_, _, rfl, notMem_signs (opening?_of_isLiteralWord word) (by simp)⟩
  | call word => exact ⟨_, _, rfl, notMem_signs (opening?_of_isNameWord word) (by simp)⟩
  | this | parenthesized | creation => exact ⟨_, _, rfl, by decide⟩
  | infixed proper strong =>
    have := InfixOperator.precedence_rank _ proper
    omega
  | signed strong | castBasic strong | castNamed _ strong => omega
  | conditional strong | assignment _ strong | testedBasic strong | testedNamed _ strong =>
    simp only [Precedence.rank] at strong tight
    omega
  | stepped _ _ ih | field _ _ ih | indexed _ _ ih | callOn _ _ _ ih =>
    obtain ⟨t, us, rfl, ht⟩ := ih (by decide)
    exact ⟨t, _, rfl, ht⟩

end Grammar

/-! ### Emission of plain trees -/

section

open Grammar (Derives)

variable {b : Bool} {p : Precedence} {n : Nat}

@[simp] theorem EmitContext.bare_attached (h : Handle) (place : Placement) :
    (bare b).attached h place = [] := rfl

theorem SimpleName.isNameWord_token {s : SimpleName} (free : s.isUnreserved = true) :
    isNameWord s.token = true := by
  simpa [isNameWord, s.valid, isUnreserved] using free

@[simp] theorem SimpleName.spellings_emit (s : SimpleName) :
    spellings (s.emit (.bare b)) = [s.token] := by
  simp [emit, Token.spelling?]

theorem InfixOperator.tighter_precedence (op : InfixOperator) :
    op.precedence ≠ .primary ∧ op.precedence.tighter.rank = op.precedence.rank + 1 := by
  cases op <;> decide

namespace Tree

/-- Each node of a tree is read back as its outline. -/
def ReadsBack (b : Bool) {c : Category} (t : Tree c) : Prop :=
  ∀ p, List.Forall₂ (Emitted.Reads p) (t.emit (.bare b) p) t.parts

theorem ReadsBack.exists_emitted {e : Expression} (h : e.ReadsBack b) (p : Precedence) :
    ∃ w, e.emit (.bare b) p = [w] ∧ Emitted.Reads p w e.outline := by
  have each := h p
  rw [parts_expression] at each
  obtain ⟨w, ws, reads, rest, emitted⟩ := List.forall₂_cons_right_iff.mp each
  rw [List.forall₂_nil_right_iff.mp rest] at emitted
  exact ⟨w, emitted, reads⟩

theorem ReadsBack.derives {e : Expression} (h : e.ReadsBack b) (le : n ≤ p.rank) :
    Derives n (spellings (joined (e.emit (.bare b) p))) e.outline.plain := by
  obtain ⟨w, emitted, reads⟩ := h.exists_emitted p
  simpa [emitted, joined] using reads n (.inl le)

theorem ReadsBack.exists_derived {ts : Tree (.listOf .expression)} (h : ts.ReadsBack b) :
    ∃ as : List (List String × Outline), (∀ a ∈ as, Derives 0 a.1 a.2) ∧
      as.map Prod.fst = (ts.emit (.bare b) .lowest).map (fun e => spellings e.tokens) ∧
      ts.outline.plain = .list (as.map Prod.snd) := by
  rw [outline_eq_list_parts, Outline.plain_list]
  have each := h .lowest
  generalize ts.emit (.bare b) .lowest = es at each
  generalize ts.parts = os at each
  induction each with
  | nil => exact ⟨[], by simp, rfl, rfl⟩
  | @cons e o es os reads _ ih =>
    obtain ⟨as, derived, spelled, outlined⟩ := ih
    refine ⟨(spellings e.tokens, o.plain) :: as, ?_, ?_, ?_⟩
    · rintro a (_ | ⟨_, ha⟩)
      · exact reads 0 (.inl (Nat.zero_le _))
      · exact derived a ha
    · rw [List.map_cons, List.map_cons, spelled]
    · rw [List.map_cons, List.map_cons, (Outline.list.inj outlined)]

/-- Only signs and casts are written differently for a sign's operand and for what binds tighter. -/
theorem emit_unary_cases (x : EmitContext) (e : Expression) :
    (∃ h op operand, e = .unaryExpression h op operand) ∨
      (∃ h type operand, e = .castExpression h type operand) ∨
      e.emit x .unary = e.emit x .suffix := by
  cases e with
  | unaryExpression h op operand => exact .inl ⟨h, op, operand, rfl⟩
  | castExpression h type operand => exact .inr (.inl ⟨h, type, operand, rfl⟩)
  | initializerExpression t =>
    cases t
    exact .inr (.inr (by simp only [emit]))
  | infixExpression h left op right =>
    have loose : op.precedence.rank < Precedence.unary.rank := by cases op <;> decide
    have looser : op.precedence.rank < Precedence.suffix.rank := Nat.lt_trans loose (by decide)
    exact .inr (.inr (by simp only [emit, wrapped, loose, looser]))
  | _ => exact .inr (.inr (by simp [emit, wrapped, Precedence.rank]))

/-- The operand of a cast to a named type does not start with a sign. -/
theorem ReadsBack.unsigned {e : Expression} (h : e.ReadsBack b) (plus : e.startsWithSign = false) :
    ∀ t ∈ (spellings (joined (e.emit (.bare b) .unary))).head?, t ∉ Grammar.signs := by
  rcases emit_unary_cases (.bare b) e with ⟨_, op, _, rfl⟩ | ⟨_, _, _, rfl⟩ | tight
  · cases op <;>
      simp_all [startsWithSign, UnaryOperator.isSign, emit, joined, wrapped, Token.spelling?,
        UnaryOperator.symbol, Grammar.signs]
  · simp [emit, joined, wrapped, Token.spelling?, Grammar.signs]
  · have derived := h.derives (p := .suffix) (Nat.le_refl _)
    obtain ⟨t, us, spelled, ht⟩ := derived.exists_unsigned (by decide)
    rw [tight, spelled]
    rintro _ ⟨⟩
    exact ht

/-- The operand of a cast to a named type is written so that it does not start with a sign. -/
theorem ReadsBack.exists_unsigned {e : Expression} (h : e.ReadsBack b) :
    ∃ ts, spellings (joined (e.emit (.bare b) (if e.startsWithSign then .primary else .unary))) =
      ts ∧ Derives Precedence.unary.rank ts e.outline.plain ∧
      ∀ t ∈ ts.head?, t ∉ Grammar.signs := by
  refine ⟨_, rfl, h.derives ?_, ?_⟩
  · split <;> decide
  · cases sign : e.startsWithSign with
    | false => exact h.unsigned sign
    | true =>
      have derived := h.derives (p := .primary) (Nat.le_refl _)
      obtain ⟨t, us, spelled, ht⟩ := derived.exists_unsigned (by decide)
      simp only [if_true, spelled]
      rintro _ ⟨⟩
      exact ht

/-- What is indexed is a primary expression that does not create an array. -/
theorem ReadsBack.derives_indexed {e : Expression} (h : e.ReadsBack b) :
    Derives Grammar.indexedRank
      (spellings (if (e.emit (.bare b) .primary).any fun w => w.kind = .arrayCreationExpression
        then parenthesized (joined (e.emit (.bare b) .primary))
        else joined (e.emit (.bare b) .primary))) e.outline.plain := by
  obtain ⟨w, emitted, reads⟩ := h.exists_emitted .primary
  by_cases creates : w.kind = .arrayCreationExpression
  · simpa [emitted, creates, joined] using Derives.parenthesized (reads 0 (.inl (Nat.zero_le _)))
  · simpa [emitted, creates, joined] using reads _ (.inr ⟨rfl, creates⟩)

/-- **The tokens of a plain tree are derived by the grammar**, at any strength that is demanded. -/
theorem readsBack_of_isPlain {c : Category} {t : Tree c} (plain : t.isPlain = true) :
    t.ReadsBack b := by
  induction t with
  | nil => exact fun p => .nil
  | cons t ts iht ihts =>
    simp only [isPlain, Bool.and_eq_true] at plain
    intro p
    simp only [emit, parts]
    exact List.rel_append (iht plain.1 p) (ihts plain.2 p)
  | absent => exact fun p => .nil
  | present t ih => exact ih plain
  | nameExpression name =>
    cases name with
    | simple name =>
      refine fun p => .cons (.of_all fun n => ?_) .nil
      simpa [outline, Name.emit, Name.outline, SimpleName.plain_outline] using
        Derives.name (SimpleName.isNameWord_token plain)
    | qualified => exact absurd plain Bool.false_ne_true
  | literal h token =>
    refine fun p => .cons (.of_all fun n => ?_) .nil
    simpa [outline, Grammar.literal, Token.spelling?] using Derives.literal plain
  | thisReference h qualifier =>
    obtain rfl := Option.isNone_iff_eq_none.mp plain
    refine fun p => .cons (.of_all fun n => ?_) .nil
    simpa [outline, Grammar.this, Token.spelling?, emitTypeQualifier, Outline.ofOption] using
      Derives.this
  | parenthesizedExpression h inner ih =>
    refine fun p => .cons (.of_all fun n => ?_) .nil
    simpa [outline] using Derives.parenthesized ((ih plain).derives (Nat.le_refl _))
  | infixExpression h left op right ihl ihr =>
    simp only [isPlain, Bool.and_eq_true, decide_eq_true_eq] at plain
    obtain ⟨⟨proper, hl⟩, hr⟩ := plain
    obtain ⟨low, next⟩ := op.tighter_precedence
    refine fun p => .cons (.wrapped (.of_le low fun n le => ?_)) .nil
    simpa [outline, Grammar.infixed, Token.spelling?] using Derives.infixed proper le
      ((ihl hl).derives (Nat.le_refl _)) ((ihr hr).derives (Nat.le_of_eq next.symm))
  | unaryExpression h op operand ih =>
    refine fun p => .cons (.wrapped (.of_le (by decide) fun n le => ?_)) .nil
    simpa [outline, Grammar.signed, Token.spelling?] using
      @Derives.signed _ op _ _ le ((ih plain).derives (Nat.le_refl _))
  | postfixExpression h operand op ih =>
    have spelled : op.mark.spelling = op.symbol := by cases op <;> rfl
    refine fun p => .cons (.wrapped (.of_le (by decide) fun n le => ?_)) .nil
    simpa [outline, Grammar.stepped, Token.spelling?, spelled] using
      @Derives.stepped _ op _ _ le ((ih plain).derives (Nat.le_refl _))
  | conditionalExpression h condition yes no ihc ihy ihn =>
    simp only [isPlain, Bool.and_eq_true] at plain
    obtain ⟨⟨hc, hy⟩, hn⟩ := plain
    refine fun p => .cons (.wrapped (.of_le (by decide) fun n le => ?_)) .nil
    simpa [outline, Grammar.conditional, Token.spelling?] using Derives.conditional le
      ((ihc hc).derives (Nat.le_refl _)) ((ihy hy).derives (Nat.le_refl _))
      ((ihn hn).derives (Nat.le_refl _))
  | assignmentExpression h left op right ihl ihr =>
    simp only [isPlain, Bool.and_eq_true] at plain
    obtain ⟨⟨assignable, hl⟩, hr⟩ := plain
    obtain ⟨symbol, spelled⟩ := Option.isSome_iff_exists.mp assignable
    intro p
    simp only [emit, spelled, EmitContext.bare_attached, List.nil_append]
    refine .cons (.wrapped (.of_le (by decide) fun n le => ?_)) .nil
    simpa [outline, Grammar.assignment, Token.spelling?] using Derives.assignment spelled le
      ((ihl hl).derives (Nat.le_refl _)) ((ihr hr).derives (Nat.le_refl _))
  | fieldAccessExpression h qualifier name ih =>
    simp only [isPlain, Bool.and_eq_true] at plain
    refine fun p => .cons (.wrapped (.of_all fun n => ?_)) .nil
    simpa [outline, Grammar.field, Token.spelling?, Mark.spelling, SimpleName.plain_outline] using
      Derives.field (SimpleName.isNameWord_token plain.2) ((ih plain.1).derives (Nat.le_refl _))
  | instanceofExpression h operand type ih =>
    simp only [isPlain, Bool.and_eq_true] at plain
    have derived := (ih plain.1).derives (p := .relational) (Nat.le_refl _)
    refine fun p => .cons (.wrapped (.of_le (by decide) fun n le => ?_)) .nil
    rcases Ty.cases_of_isPlain plain.2 with ⟨_, k, rfl⟩ | ⟨_, name, rfl, free⟩
    · simpa [outline, Ty.outline, Ty.emit, Grammar.tested, Grammar.basicType, Token.spelling?] using
        Derives.testedBasic (k := k) le derived
    · simpa [outline, Ty.outline, Ty.emit, NamedType.outline, NamedType.emit, Name.outline,
        Name.emit, SimpleName.plain_outline, Grammar.tested, Grammar.namedType, Token.spelling?]
        using Derives.testedNamed (SimpleName.isNameWord_token free) le derived
  | castExpression h type operand ih =>
    simp only [isPlain, Bool.and_eq_true] at plain
    have operand := ih plain.2
    refine fun p => .cons (.wrapped (.of_le (by decide) fun n le => ?_)) .nil
    rcases Ty.cases_of_isPlain plain.1 with ⟨_, k, rfl⟩ | ⟨_, name, rfl, free⟩
    · simpa [outline, Ty.outline, Ty.emit, Ty.isBasic, Grammar.cast, Grammar.basicType,
        Token.spelling?] using
        Derives.castBasic (k := k) le (operand.derives (p := .unary) (Nat.le_refl _))
    · -- in front of a sign, a name in parentheses would be an operand
      have word := SimpleName.isNameWord_token free
      obtain ⟨ts, spelled, derived, unsigned⟩ := operand.exists_unsigned
      simpa [outline, Ty.outline, Ty.emit, NamedType.outline, NamedType.emit, Name.outline,
        Name.emit, SimpleName.plain_outline, Ty.isBasic, Grammar.cast, Grammar.namedType,
        Token.spelling?, spelled] using Derives.castNamed word le derived unsigned
  | arrayAccessExpression h array index iha ihi =>
    simp only [isPlain, Bool.and_eq_true] at plain
    have inner := (ihi plain.2).derives (p := .lowest) (Nat.le_refl _)
    refine fun p => .cons (.wrapped (.of_all fun n => ?_)) .nil
    simpa [outline, Grammar.indexed] using
      Derives.indexed (iha plain.1).derives_indexed inner
  | methodInvocationExpression h qualifier typeArgs name arguments ihq iha =>
    simp only [isPlain, Bool.and_eq_true, List.isEmpty_iff] at plain
    obtain ⟨⟨⟨hq, rfl⟩, free⟩, ha⟩ := plain
    obtain ⟨as, each, spelled, outlined⟩ := (iha ha).exists_derived
    refine fun p => .cons (.wrapped (.of_all fun n => ?_)) .nil
    cases qualifier with
    | absent =>
      simpa [outline, emit, qualifying, invocationArguments, spellings_separated, ← spelled,
        outlined, SimpleName.plain_outline, Grammar.call, Outline.ofList] using
        Derives.call (SimpleName.isNameWord_token free) each
    | present q =>
      obtain ⟨w, emitted, reads⟩ := ReadsBack.exists_emitted (e := q) (ihq hq) .primary
      simpa [outline, emit, emitted, qualifying, invocationArguments, spellings_separated,
        ← spelled, outlined, SimpleName.plain_outline, Grammar.call, Outline.ofList,
        Token.spelling?, Mark.spelling] using
        Derives.callOn (SimpleName.isNameWord_token free) (reads _ (.inl (Nat.le_refl _))) each
  | arrayCreationExpression h type sizes values ihs ihv =>
    simp only [isPlain, Bool.and_eq_true, decide_eq_true_eq] at plain
    obtain ⟨⟨⟨basic, hs⟩, empty⟩, fits⟩ := plain
    obtain ⟨_, k, element⟩ := Ty.eq_basic_of_isBasic basic
    obtain ⟨as, each, spelled, outlined⟩ := (ihs hs).exists_derived
    have emitted : as.length = (sizes.emit (.bare b) .lowest).length := by
      simpa using congrArg List.length spelled
    have given : as.length = sizes.outline.elements.length := by
      rw [outline_eq_list_parts, Outline.plain_list] at outlined
      rw [outline_eq_list_parts]
      simpa [Outline.elements] using (congrArg List.length (Outline.list.inj outlined)).symm
    -- empty brackets stand for the dimensions without a size
    have dimensions : type.dimensions = as.length + (type.dimensions - as.length) := by omega
    cases values with
    | present => exact absurd empty Bool.false_ne_true
    | absent =>
      intro p
      refine .cons (.wrapped fun n admits => ?_) .nil
      have loose : n ≤ Precedence.primary.rank := by
        rcases admits with le | ⟨-, other⟩
        · exact le
        · exact absurd rfl other
      have derived := @Derives.creation _ k _ (type.dimensions - as.length) loose each
      rw [Grammar.creation, List.length_map, ← dimensions] at derived
      simpa [outline, emit, after, element, Ty.emit, Token.spelling?, spellings_flatMap_bracketed,
        spellings_emptyBrackets, ← spelled, ← emitted, outlined, type.plain_outline element] using
        derived
  | _ => exact absurd plain Bool.false_ne_true

/-- **Written expressions are unambiguous.** Two plain expressions with nothing attached that are
spelled alike are the same once their parentheses are taken out. -/
theorem same_of_spellings_eq {notes₁ notes₂ : Notes} {blank₁ blank₂ : Bool} {e₁ e₂ : Expression}
    (plain₁ : e₁.isPlain = true) (plain₂ : e₂.isPlain = true)
    (bare₁ : notes₁.Bare e₁.outline) (bare₂ : notes₂.Bare e₂.outline)
    (spelled : spellings ((Node.tree e₁).emit (notes₁.context blank₁)) =
      spellings ((Node.tree e₂).emit (notes₂.context blank₂))) :
    e₁.outline.withoutParentheses.same e₂.outline.withoutParentheses = true := by
  simp only [Node.emit, emit_of_bare bare₁, emit_of_bare bare₂] at spelled
  have left : Derives 0 _ e₁.outline.plain :=
    (readsBack_of_isPlain (b := blank₁) plain₁).derives (p := .lowest) (Nat.le_refl _)
  have right : Derives 0 _ e₂.outline.plain :=
    (readsBack_of_isPlain (b := blank₂) plain₂).derives (p := .lowest) (Nat.le_refl _)
  rw [spelled] at left
  exact (Outline.same_iff_erased_eq _ _).mpr (left.unique right)

/-- `(1 - x) * 3`, with a node for the parentheses and without one. -/
theorem same_of_spellings_eq_product :
    (infixExpression none
      (parenthesizedExpression none
        (infixExpression none (literal none "1" (by decide)) .minus
          (nameExpression (.simple ⟨none, "x", rfl⟩))))
      .times (literal none "3" (by decide))).outline.withoutParentheses.same
    (infixExpression (some 7)
      (infixExpression none (literal none "1" (by decide)) .minus
        (nameExpression (.simple ⟨none, "x", rfl⟩)))
      .times (literal none "3" (by decide))).outline.withoutParentheses = true :=
  @same_of_spellings_eq {} {} true false _ _
    (by decide) (by decide) (by intro h _; cases h <;> rfl) (by intro h _; cases h <;> rfl)
    (by decide)

end Tree

end

end JavaSource
