import JavaSource.Proofs.Lexing.Emission
import JavaSource.Proofs.Lexing.Settled

/-!
# What stands behind a cast

`(Foo) -x` is a difference of `(Foo)` and `x`, so the operand of a cast to a type that is not basic
is put in parentheses if it is a plus or minus in front of an operand. An operand can also start
with a literal, and the token of a literal may start with a sign itself. The text behind such a cast
starts with a sign exactly in this case (`Node.signed_behind_cast_iff`): the emitter looks at the
outermost node of the operand only, while `Tree.leadingLiteral?` finds the literal at the front of
an operand, behind any qualifiers.

* `Opens` says how the tokens of an operand start, and `Tree.opens_emit` that of each operand.
* `Layout.signed_iff_of_opens` lays these tokens out behind a space.
-/

namespace JavaSource

/-! ### How tokens start -/

/-- The characters of a sum or a difference. -/
def signChars : List Char :=
  ['+', '-']

/-- Whether a text starts with a character that is neither blank nor a sign. -/
def startsOtherwise (text : String) : Bool :=
  text.toList.head?.any fun c => !Text.isBlank c && !signChars.contains c

/-- How the tokens of an operand start: with a literal, if one is given, and otherwise with anything
but a sign. A literal stands alone or in front of a mark. -/
inductive Opens : Option String → List Token → Prop where
  | literal {token : String} {ts : List Token} (nonempty : token ≠ "")
      (ends : ∀ t ∈ ts.head?, ∃ m, t = .mark m) : Opens (some token) (.word token :: ts)
  | other {t : Token} {text : String} {ts : List Token} (spelled : t.text? = some text)
      (starts : startsOtherwise text = true) : Opens none (t :: ts)
  | rejected {op : InfixOperator} {ts : List Token} : Opens none (.rejected op :: ts)

theorem Opens.append_mark {l : Option String} {ts : List Token} (h : Opens l ts) (m : Mark)
    (us : List Token) : Opens l (ts ++ .mark m :: us) := by
  cases h with
  | @literal token ts nonempty ends =>
    refine .literal nonempty fun t ht => ?_
    cases ts with
    | nil => exact ⟨m, (Option.some.inj ht).symm⟩
    | cons t' ts => exact ends t ht
  | other spelled starts => exact .other spelled starts
  | rejected => exact .rejected

theorem Opens.append {ts : List Token} (h : Opens none ts) (us : List Token) :
    Opens none (ts ++ us) := by
  cases h with
  | other spelled starts => exact .other spelled starts
  | rejected => exact .rejected

namespace Layout

variable {o : Options} {s s' : State} {t : Token} {ts : List Token} {text w : String}

theorem eq_of_isPrefix {cs us : List Char} {c d : Char} (h : cs ++ [c] <+: us)
    (h' : cs ++ [d] <+: us) : c = d := by
  have same := List.prefix_of_prefix_length_le h h' (by simp)
  simpa using same

theorem exists_of_startsOtherwise (starts : startsOtherwise w = true) :
    ∃ c cs, w.toList = c :: cs ∧ Text.isBlank c = false ∧ c ∉ signChars := by
  unfold startsOtherwise at starts
  cases chars : w.toList with
  | nil =>
    rw [chars] at starts
    cases starts
  | cons c cs =>
    rw [chars] at starts
    exact ⟨c, cs, rfl, by simpa using starts⟩

theorem isBlank_of_mem_signChars {c : Char} (h : c ∈ signChars) : Text.isBlank c = false := by
  have all : signChars.all (fun c => !Text.isBlank c) = true := by decide
  simpa using List.all_eq_true.mp all c h

/-- The first character of a literal is what stands behind the space, unless it is blank and
nothing follows it on the line. -/
theorem eq_of_isPrefix_literal {c d : Char} {cs : List Char} (space : s.previous = .space)
    (nonempty : s.line ≠ "") (chars : w.toList = c :: cs)
    (ends : ∀ t ∈ ts.head?, ∃ m, t = .mark m) (ran : run o s (.word w :: ts) = .ok s')
    (finished : finish s' = .ok text) (h : s.out.toList ++ s.line.toList ++ [d] <+: text.toList) :
    d = c := by
  obtain ⟨s₁, stepped, ran⟩ := exists_step_of_run ran
  obtain ⟨out, line⟩ := step_behind_space space nonempty rfl stepped
  have written : s₁.line.toList = s.line.toList ++ c :: cs := by
    rw [line, String.toList_append, chars]
  cases ts with
  | nil =>
    obtain rfl := Except.ok.inj ran
    refine eq_of_isPrefix (h.trans ?_)
      (List.prefix_append (s.out.toList ++ s.line.toList ++ [c]) cs)
    rw [toList_of_finish finished, State.settled, out, written, List.append_assoc,
      List.append_assoc, List.singleton_append, List.prefix_append_right_inj]
    exact Text.dropBlankEnd_isPrefix _
  | cons t ts =>
    obtain ⟨m, rfl⟩ := ends t rfl
    obtain ⟨s₂, stepped', ran⟩ := exists_step_of_run ran
    have nonempty' : s₁.line ≠ "" := by
      intro empty
      simp [empty] at written
    obtain ⟨out', line'⟩ := step_mark nonempty' stepped'
    obtain ⟨e, es, spelled, solid⟩ : ∃ e es, m.spelling.toList = e :: es ∧
        Text.isBlank e = false := by
      cases m <;> exact ⟨_, _, rfl, by decide⟩
    have written' : s₂.line.toList = s₁.line.toList ++ e :: es := by
      rw [line', String.toList_append, spelled]
    have whole := isPrefix_of_finish ran finished written' solid
    rw [out', out, written] at whole
    refine eq_of_isPrefix h (List.IsPrefix.trans ?_ whole)
    simp only [List.append_assoc, List.prefix_append_right_inj]
    exact ⟨cs ++ [e], by simp⟩

/-- **Behind a space, an operand starts with a sign exactly if it starts with a literal that
does.** -/
theorem signed_iff_of_opens {l : Option String} (opens : Opens l ts) (space : s.previous = .space)
    (nonempty : s.line ≠ "") (ran : run o s ts = .ok s') (finished : finish s' = .ok text) :
    (∃ c ∈ signChars, s.out.toList ++ s.line.toList ++ [c] <+: text.toList) ↔
      ∃ token ∈ l, ∃ c ∈ signChars, c ∈ token.toList.head? := by
  cases opens with
  | @literal token ts nonemptyToken ends =>
    obtain ⟨c, cs, chars⟩ := List.exists_cons_of_ne_nil
      (mt String.toList_eq_nil_iff.mp nonemptyToken)
    constructor
    · rintro ⟨d, sign, h⟩
      obtain rfl := eq_of_isPrefix_literal space nonempty chars ends ran finished h
      exact ⟨token, rfl, d, sign, by rw [chars]; rfl⟩
    · rintro ⟨_, ⟨⟩, d, sign, hd⟩
      rw [chars] at hd
      obtain rfl := Option.some.inj hd
      exact ⟨c, sign, isPrefix_behind_space space nonempty rfl chars
        (isBlank_of_mem_signChars sign) ran finished⟩
  | other spelled starts =>
    obtain ⟨c, cs, chars, solid, noSign⟩ := exists_of_startsOtherwise starts
    refine iff_of_false ?_ (by rintro ⟨_, ⟨⟩, _⟩)
    rintro ⟨d, sign, h⟩
    obtain rfl := eq_of_isPrefix h
      (isPrefix_behind_space space nonempty spelled chars solid ran finished)
    exact noSign sign
  | rejected => cases ran

end Layout

/-! ### How operands start -/

theorem startsOtherwise_of_isIdentifier {w : String} (h : isIdentifier w = true) :
    startsOtherwise w = true := by
  obtain ⟨nonempty, parts⟩ := forall_isIdentifierPart h
  obtain ⟨c, cs, chars⟩ := List.exists_cons_of_ne_nil nonempty
  have part := parts c (by rw [chars]; exact List.mem_cons_self)
  have noSign : c ∉ signChars := by
    intro sign
    have all : signChars.all (fun c => !isIdentifierPart c) = true := by decide +kernel
    have other : isIdentifierPart c = false := by simpa using List.all_eq_true.mp all c sign
    rw [other] at part
    contradiction
  have solid : Text.isBlank c = false := by
    by_contra blank
    rw [Piece.isIdentifierPart_of_isBlank (Bool.eq_true_of_not_eq_false blank)] at part
    contradiction
  rw [startsOtherwise, chars]
  simpa [solid] using noSign

section

variable {b : Bool}

theorem Name.opens_emit (n : Name) : Opens none (n.emit (.bare b)) := by
  induction n with
  | simple n => exact .other rfl (startsOtherwise_of_isIdentifier n.valid)
  | qualified h q n ih => exact ih.append _

theorem Ty.opens_emit (t : Ty) : Opens none (t.emit (.bare b)) := by
  induction t with
  | array h c ih => exact ih.append _
  | basic h k =>
    refine .other rfl ?_
    cases k <;> decide
  | named t => exact t.name.opens_emit
  | parameterized h base first rest ih => exact ih.append _
  | qualified h q n ih => exact ih.append _
  | wildcard h direction bound =>
    cases bound with
    | none => exact .other rfl (by decide)
    | some bound => exact .other rfl (by decide)

theorem opens_typeQualifier (qualifier : Option NamedType) {keyword : String}
    (starts : startsOtherwise keyword = true) :
    Opens none (emitTypeQualifier (.bare b) qualifier ++ [Token.word keyword]) := by
  cases qualifier with
  | none => exact .other rfl starts
  | some t => exact (t.name.opens_emit.append _).append _

theorem opens_parenthesized (ts : List Token) : Opens none (parenthesized ts) :=
  .other rfl (by decide)

/-- What is looser than a sign's operand is parenthesized where more is demanded. -/
theorem opens_wrapped_loose {own p : Precedence} (loose : own.rank ≤ Precedence.unary.rank)
    (tight : Precedence.unary.rank < p.rank) (ts : List Token) : Opens none (wrapped own p ts) := by
  rw [wrapped, if_pos (Nat.lt_of_le_of_lt loose tight)]
  exact opens_parenthesized ts

theorem Precedence.le_suffix_of_ne_primary {p : Precedence} :
    p ≠ .primary → p.rank ≤ Precedence.suffix.rank := by
  cases p <;> decide

theorem wrapped_primary (p : Precedence) (ts : List Token) : wrapped .primary p ts = ts := by
  refine if_neg ?_
  cases p <;> decide

/-- Whether the trees of a category are expressions, perhaps missing. -/
def Category.isOperand : Category → Bool
  | .expression => true
  | .optional c => c.isOperand
  | _ => false

namespace Tree

/-- The literal that an operand starts with where the strength `p` is demanded and infix operators
are parenthesized. -/
def leadingLiteral? : {c : Category} → Tree c → (p : Precedence) → Option String
  | _, .present t, p => t.leadingLiteral? p
  | _, .literal _ token _, _ => some token
  | _, .arrayAccessExpression _ array _, _ => array.leadingLiteral? .primary
  | _, .classInstanceCreationExpression _ qualifier _ _ _ _, _ => qualifier.leadingLiteral? .primary
  | _, .fieldAccessExpression _ qualifier _, _ => qualifier.leadingLiteral? .primary
  | _, .methodInvocationExpression _ qualifier _ _ _, _ => qualifier.leadingLiteral? .primary
  | _, .postfixExpression _ operand _, p =>
    if p = .primary then none else operand.leadingLiteral? .suffix
  | _, _, _ => none

/-- What precedes a qualified expression opens like its qualifier. -/
theorem opens_qualifying {q : Tree (.optional .expression)} {rest : List Token}
    (opens : ∀ e ∈ q.emit (.bare b) .primary, Opens (q.leadingLiteral? .primary) e.tokens)
    (unqualified : Opens none rest) :
    Opens (q.leadingLiteral? .primary) (qualifying (q.emit (.bare b) .primary) ++ rest) := by
  cases q with
  | absent =>
    rw [emit]
    exact unqualified
  | present e =>
    obtain ⟨w, emitted⟩ := exists_emit_expression (.bare b) e .primary
    have front := opens w (by rw [emit, emitted]; exact List.mem_singleton_self w)
    rw [emit, emitted, qualifying, List.flatMap_singleton, List.append_assoc,
      List.singleton_append]
    exact front.append_mark .dot rest

theorem opens_invocationArguments (typeArgs : List Ty) (name : SimpleName) (rest : List Token) :
    Opens none (invocationArguments (.bare b) typeArgs ++ name.emit (.bare b) ++ rest) := by
  cases typeArgs with
  | nil => exact .other rfl (startsOtherwise_of_isIdentifier name.valid)
  | cons t ts => exact .other rfl (by decide)

theorem opens_joined {e : Expression} {p : Precedence} {l : Option String}
    (h : ∀ w ∈ e.emit (.bare b) p, Opens l w.tokens) : Opens l (joined (e.emit (.bare b) p)) := by
  obtain ⟨w, emitted⟩ := exists_emit_expression (.bare b) e p
  rw [emitted] at h ⊢
  rw [joined_cons, joined_nil, List.append_nil]
  exact h w (List.mem_singleton_self w)

/-- An array that is created is no literal. -/
theorem leadingLiteral?_of_creation {x : EmitContext} {e : Expression} {p : Precedence}
    (creates : ((e.emit x p).any fun w => w.kind = .arrayCreationExpression) = true) :
    e.leadingLiteral? p = none := by
  cases e with
  | literal | arrayAccessExpression | classInstanceCreationExpression | fieldAccessExpression
  | methodInvocationExpression | postfixExpression => simp [emit] at creates
  | _ => rfl

/-- **How an operand starts**, where more is demanded than behind a sign. -/
theorem opens_emit {c : Category} {t : Tree c} {p : Precedence} (operand : c.isOperand = true)
    (tight : Precedence.unary.rank < p.rank) :
    ∀ e ∈ t.emit (.bare b) p, Opens (t.leadingLiteral? p) e.tokens := by
  have primary : Precedence.unary.rank < Precedence.primary.rank := by decide
  induction t generalizing p with
  | absent =>
    rw [emit]
    exact fun e he => absurd he List.not_mem_nil
  | present t ih =>
    rw [emit]
    exact ih operand tight
  | nameExpression name =>
    rw [emit, List.forall_mem_singleton]
    exact name.opens_emit
  | initializerExpression t =>
    cases t
    rw [emit, emit, List.forall_mem_singleton]
    exact .other rfl (by decide)
  | arrayAccessExpression h array index ih =>
    rw [emit, List.forall_mem_singleton, wrapped_primary]
    refine Opens.append_mark ?_ .openBracket _
    split
    next creates =>
      rw [leadingLiteral?, leadingLiteral?_of_creation creates]
      exact opens_parenthesized _
    next => exact opens_joined (ih rfl primary)
  | arrayCreationExpression h type sizes values =>
    rw [emit, List.forall_mem_singleton, wrapped_primary]
    exact .other rfl (by decide)
  | assignmentExpression h left op right =>
    rw [emit, List.forall_mem_singleton]
    cases op.assignmentSymbol with
    | some symbol => exact opens_wrapped_loose (by decide) tight _
    | none => exact .rejected
  | castExpression h type operand =>
    rw [emit, List.forall_mem_singleton]
    exact opens_wrapped_loose (by decide) tight _
  | classInstanceCreationExpression h qualifier typeArgs type arguments anonymous ih =>
    rw [emit, List.forall_mem_singleton, wrapped_primary]
    simp only [List.append_assoc, List.cons_append]
    exact opens_qualifying (ih rfl primary) (.other rfl (by decide))
  | classLiteral h type =>
    rw [emit, List.forall_mem_singleton]
    exact type.opens_emit.append _
  | conditionalExpression h condition yes no =>
    rw [emit, List.forall_mem_singleton]
    exact opens_wrapped_loose (by decide) tight _
  | fieldAccessExpression h qualifier name ih =>
    rw [emit, List.forall_mem_singleton, wrapped_primary]
    exact (opens_joined (ih rfl primary)).append_mark .dot _
  | infixExpression h left op right =>
    rw [emit, List.forall_mem_singleton]
    have loose : op.precedence.rank ≤ Precedence.unary.rank := by cases op <;> decide
    exact opens_wrapped_loose loose tight _
  | instanceofExpression h operand type =>
    rw [emit, List.forall_mem_singleton]
    exact opens_wrapped_loose (by decide) tight _
  | literal h token nonempty =>
    rw [emit, List.forall_mem_singleton]
    exact .literal nonempty fun t ht => nomatch ht
  | methodInvocationExpression h qualifier typeArgs name arguments ih =>
    rw [emit, List.forall_mem_singleton, wrapped_primary, List.append_assoc, List.append_assoc]
    refine opens_qualifying (ih rfl primary) ?_
    rw [← List.append_assoc]
    exact opens_invocationArguments typeArgs name _
  | parenthesizedExpression h inner =>
    rw [emit, List.forall_mem_singleton]
    exact opens_parenthesized _
  | postfixExpression h operand op ih =>
    rw [emit, List.forall_mem_singleton, leadingLiteral?]
    split
    next isPrimary =>
      rw [isPrimary]
      exact opens_parenthesized _
    next other =>
      have loose := Precedence.le_suffix_of_ne_primary other
      rw [wrapped, if_neg (Nat.not_lt.mpr loose)]
      exact (opens_joined (ih rfl (by decide))).append_mark op.mark []
  | superReference h qualifier =>
    rw [emit, List.forall_mem_singleton]
    exact opens_typeQualifier qualifier (by decide)
  | thisReference h qualifier =>
    rw [emit, List.forall_mem_singleton]
    exact opens_typeQualifier qualifier (by decide)
  | unaryExpression h op operand =>
    rw [emit, List.forall_mem_singleton]
    exact opens_wrapped_loose (by decide) tight _
  | _ => exact absurd operand Bool.false_ne_true

theorem leadingLiteral?_of_startsWithSign {e : Expression} (sign : e.startsWithSign = true)
    (p : Precedence) : e.leadingLiteral? p = none := by
  cases e with
  | unaryExpression => rfl
  | _ => exact absurd sign Bool.false_ne_true

theorem leadingLiteral?_unary (e : Expression) :
    e.leadingLiteral? .unary = e.leadingLiteral? .suffix := by
  cases e with
  | postfixExpression => simp [leadingLiteral?]
  | _ => rfl

/-- Behind a sign, only another sign starts an operand in a new way. -/
theorem opens_emit_unary {e : Expression} (sign : e.startsWithSign = false) :
    ∀ w ∈ e.emit (.bare b) .unary, Opens (e.leadingLiteral? .unary) w.tokens := by
  rcases emit_unary_cases (.bare b) e with ⟨h, op, operand, rfl⟩ | ⟨h, type, operand, rfl⟩ | same
  · rw [emit, List.forall_mem_singleton]
    refine .other rfl ?_
    rw [startsWithSign] at sign
    cases op with
    | complement | not => decide
    | _ => cases sign
  · rw [emit, List.forall_mem_singleton]
    exact .other rfl (by decide)
  · rw [same, leadingLiteral?_unary]
    exact opens_emit rfl (by decide)

/-- **How the operand of a cast to a type that is not basic starts.** -/
theorem opens_operand (e : Expression) :
    Opens (e.leadingLiteral? .unary)
      (joined (e.emit (.bare b) (if e.startsWithSign then .primary else .unary))) := by
  refine opens_joined ?_
  cases sign : e.startsWithSign with
  | true =>
    rw [leadingLiteral?_of_startsWithSign sign .unary,
      ← leadingLiteral?_of_startsWithSign sign .primary]
    exact opens_emit rfl (by decide)
  | false => exact opens_emit_unary sign

end Tree

end

/-! ### Casts -/

/-- **When a cast reads as a sum or a difference.** The text of a cast to a type that is not basic
goes on behind the closing parenthesis and the space with a plus or a minus exactly if the operand
starts with a literal whose token does. -/
theorem Node.signed_behind_cast_iff {notes : Notes} {o : Options} {h : Handle} {type : Ty}
    {operand : Expression} {text : String} (reference : type.isBasic = false)
    (bare : notes.Bare operand.outline)
    (rendered : (Node.tree (.castExpression h type operand)).render notes o = .ok text) :
    ∃ s, Layout.run o {} ((notes.context o.blankLines).attached h .inline ++
        parenthesized (type.emit (notes.context o.blankLines))) = .ok s ∧
      s.out.toList ++ s.line.toList <+: text.toList ∧
      ((∃ c ∈ signChars, s.out.toList ++ s.line.toList ++ [' ', c] <+: text.toList) ↔
        ∃ token ∈ operand.leadingLiteral? .unary, ∃ c ∈ signChars, c ∈ token.toList.head?) := by
  have tokens : (Node.tree (.castExpression h type operand)).emit (notes.context o.blankLines) =
      ((notes.context o.blankLines).attached h .inline ++
        parenthesized (type.emit (notes.context o.blankLines))) ++
        .space :: joined (operand.emit (.bare o.blankLines)
          (if operand.startsWithSign then .primary else .unary)) := by
    rw [Node.emit, Tree.emit, joined_cons, joined_nil, reference, Tree.emit_of_bare bare]
    simp [wrapped, Precedence.rank]
  rw [render, tokens, layout] at rendered
  split at rendered
  next s' ran =>
    obtain ⟨s, front, ran⟩ := Layout.exists_run_of_append ran
    obtain ⟨s₁, stepped, ran⟩ := Layout.exists_step_of_run ran
    obtain ⟨l, line⟩ := Layout.exists_line_of_parenthesized front
    obtain ⟨out, spaced, space⟩ := Layout.step_space line stepped
    have spacedChars : s₁.line.toList = s.line.toList ++ [' '] := by
      rw [spaced, String.toList_append]
      rfl
    refine ⟨s, front, ?_, ?_⟩
    · have whole : s₁.line.toList = l ++ ')' :: [' '] := by
        rw [spacedChars, line, List.append_assoc]
        rfl
      have closed := Layout.isPrefix_of_finish ran rendered whole (by decide)
      rwa [out, List.append_assoc, ← line] at closed
    · have nonempty : s₁.line ≠ "" := by
        rw [Ne, ← String.toList_eq_nil_iff, spacedChars]
        exact List.append_ne_nil_of_right_ne_nil _ (List.cons_ne_nil _ _)
      have signed := Layout.signed_iff_of_opens (operand.opens_operand) space nonempty ran rendered
      simpa only [out, spacedChars, List.append_assoc, List.singleton_append] using signed
  next => cases rendered

/-- `(Integer) (-x)`, where the operand is a sign and gets parentheses. -/
theorem Node.signed_behind_cast_iff_minus :
    (Node.tree (.castExpression none (.named ⟨none, .simple ⟨none, "Integer", rfl⟩⟩)
      (.unaryExpression none .minus (.nameExpression (.simple ⟨none, "x", rfl⟩))))).render {} {} =
        .ok "(Integer) (-x)" ∧
      ¬ ∃ c ∈ signChars, "(Integer)".toList ++ [' ', c] <+: "(Integer) (-x)".toList := by
  refine ⟨rfl, ?_⟩
  obtain ⟨s, front, -, signed⟩ := @Node.signed_behind_cast_iff {} {} none
    (.named ⟨none, .simple ⟨none, "Integer", rfl⟩⟩)
    (.unaryExpression none .minus (.nameExpression (.simple ⟨none, "x", rfl⟩)))
    "(Integer) (-x)" rfl (by intro h _; cases h <;> rfl) rfl
  obtain rfl := Except.ok.inj front
  exact mt signed.mp (by rintro ⟨_, ⟨⟩, _⟩)

/-- `(Integer) -1` is written for a cast of the literal `-1`, and reads as a difference. -/
theorem Node.signed_behind_cast_of_literal :
    ¬ ∀ (type : Ty) (operand : Expression) (text : String) (s : Layout.State),
      type.isBasic = false → Notes.Bare {} operand.outline →
      (Node.tree (.castExpression none type operand)).render {} {} = .ok text →
      Layout.run {} {} (parenthesized (type.emit (Notes.context {} true))) = .ok s →
      ∀ c ∈ signChars, ¬ s.out.toList ++ s.line.toList ++ [' ', c] <+: text.toList := by
  intro unsigned
  exact unsigned (.named ⟨none, .simple ⟨none, "Integer", rfl⟩⟩) (.literal none "-1" (by decide))
    "(Integer) -1" _ rfl (by intro h _; cases h <;> rfl) rfl rfl '-' (by decide) ⟨['1'], rfl⟩

end JavaSource
