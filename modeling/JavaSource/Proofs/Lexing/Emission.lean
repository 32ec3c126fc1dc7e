import JavaSource.Proofs.Lexing.Flow
import JavaSource.Proofs.Outline.Nodes

/-!
# The tokens of code follow each other

The tokens of a tree can be written behind each other, provided that nothing is attached to the
tree, that it has no comments, no type arguments and no type parameters, that its literals are
lexemes and that no number is in front of a point (`Outline.AllLexical`).

* An expression may stand behind a sign, and where a primary expression is demanded everything may
  follow it, unless it is a number (`Tree.isClosed`).
* `Tree.Links` states that each node of a tree can be written between the edges that its category
  allows. There is one lemma for each kind of node that contains a point, a colon, a sign or `...`;
  the other kinds are put together from groups that flow (`Tree.links`).
-/

namespace JavaSource

open Edge (any operand loose value closed)

/-! ### Trees whose lexemes are told -/

/-- Whether nodes of a kind are cut like code: no comments and no documentation, and nothing in
angle brackets. -/
def Kind.isLexical : Kind → Bool
  | .blockComment | .lineComment | .javadoc | .docBlock | .docField | .docMethod
  | .docMethodParameter | .docText | .parameterizedType | .typeParameterDeclaration => false
  | _ => true

/-- Whether a literal is one lexeme without a sign. -/
def isLiteralLexeme (token : String) : Bool :=
  spellsNumber token.toList || spellsQuoted token.toList ||
    ["true", "false", "null"].contains token

namespace Outline

/-- Whether a tree is a number. -/
def isNumber : Outline → Bool
  | .node .literal _ [.text token] => spellsNumber token.toList
  | _ => false

/-- Whether a node is cut like code, as far as the node itself tells: a literal is one lexeme, no
number is in front of a point, and there are no type arguments. -/
def isLexical : Outline → Bool
  | .node .literal _ [.text token] => isLiteralLexeme token
  | .node .fieldAccessExpression _ (qualifier :: _) => !qualifier.isNumber
  | .node .methodInvocationExpression _ (qualifier :: typeArguments :: _)
  | .node .classInstanceCreationExpression _ (qualifier :: typeArguments :: _)
  | .node .superConstructorInvocation _ (qualifier :: typeArguments :: _) =>
    !qualifier.isNumber && typeArguments.elements.isEmpty
  | .node .alternateConstructorInvocation _ (typeArguments :: _) => typeArguments.elements.isEmpty
  | .node k _ _ => k.isLexical
  | _ => true

/-- Every node of a tree is cut like code. -/
def AllLexical (o : Outline) : Prop :=
  ∀ n ∈ o.preorder, n.isLexical = true

instance {o : Outline} : Decidable o.AllLexical :=
  inferInstanceAs (Decidable (∀ n ∈ o.preorder, n.isLexical = true))

/-- Every node of several trees is cut like code. -/
def EachLexical (os : List Outline) : Prop :=
  ∀ n ∈ preorderEach os, n.isLexical = true

@[simp] theorem eachLexical_nil : EachLexical [] :=
  eachNodes_nil

@[simp] theorem eachLexical_cons {o : Outline} {os : List Outline} :
    EachLexical (o :: os) ↔ o.AllLexical ∧ EachLexical os :=
  eachNodes_cons

@[simp] theorem allLexical_node {k : Kind} {h : Handle} {fs : List Outline} :
    (node k h fs).AllLexical ↔ (node k h fs).isLexical = true ∧ EachLexical fs :=
  allNodes_node

@[simp] theorem allLexical_list {os : List Outline} : (list os).AllLexical ↔ EachLexical os :=
  allNodes_list

@[simp] theorem allLexical_text (s : String) : (text s).AllLexical :=
  allNodes_text s

@[simp] theorem allLexical_flag (b : Bool) : (flag b).AllLexical :=
  allNodes_flag b

@[simp] theorem allLexical_count (n : Nat) : (count n).AllLexical :=
  allNodes_count n

@[simp] theorem allLexical_absent : absent.AllLexical :=
  allNodes_absent

@[simp] theorem allLexical_ofChoice {α : Type} [DecidableEq α] [Enumeration α] (a : α) :
    (ofChoice a).AllLexical :=
  allNodes_ofChoice a

@[simp] theorem allLexical_ofOption {α : Type} {f : α → Outline} {a : Option α} :
    (ofOption f a).AllLexical ↔ ∀ a' ∈ a.toList, (f a').AllLexical :=
  allNodes_ofOption

@[simp] theorem allLexical_ofList {α : Type} {f : α → Outline} {as : List α} :
    (ofList f as).AllLexical ↔ ∀ a ∈ as, (f a).AllLexical :=
  allNodes_ofList

end Outline

/-! ### Names and types -/

section

variable {b : Bool}

theorem closes_word {text : String} (word : wordEdge? text = some .clear) :
    Closes [.word text] := by
  intro e _
  exact ⟨.clear, List.mem_cons_self, by simp [Edge.run, Edge.next, word]⟩

theorem spellsNumber_of_spellsIdentifier {cs : List Char} (h : spellsIdentifier cs = true) :
    spellsNumber cs = false := by
  have starts : ('.' :: decimalDigits).all (fun c => !isIdentifierStart c) = true := by
    decide +kernel
  cases cs with
  | nil => cases h
  | cons c cs =>
    by_contra number
    have first : c ∈ '.' :: decimalDigits := by
      rcases spellsNumber_cases (Bool.eq_true_of_not_eq_false number) with digit | ⟨rfl, -⟩
      · exact List.mem_cons_of_mem _ digit
      · exact List.mem_cons_self
    have other : isIdentifierStart c = false := by
      simpa using List.all_eq_true.mp starts c first
    simp [spellsIdentifier, other] at h

theorem wordEdge?_of_isIdentifier {text : String} (h : isIdentifier text = true) :
    wordEdge? text = some .clear := by
  simp only [isIdentifier] at h
  simp [wordEdge?, spellsNumber_of_spellsIdentifier h, h]

theorem SimpleName.closes_emit (n : SimpleName) : Closes (n.emit (.bare b)) :=
  closes_word (wordEdge?_of_isIdentifier n.valid)

theorem Name.closes_emit (n : Name) : Closes (n.emit (.bare b)) := by
  induction n with
  | simple n => exact n.closes_emit
  | qualified h q n ih => exact ih.point n.closes_emit

theorem NamedType.closes_emit (t : NamedType) : Closes (t.emit (.bare b)) :=
  t.name.closes_emit

theorem BasicTypeKind.closes_keyword (k : BasicTypeKind) : Closes [.word k.keyword] := by
  cases k <;> decide

theorem WildcardBoundKind.closes_keyword (d : WildcardBoundKind) :
    Closes (.word "?" :: (d.keyword.map Token.word).toList) := by
  cases d <;> decide

/-- The tokens of a type. -/
theorem Ty.closes_emit {t : Ty} (lexical : t.outline.AllLexical) : Closes (t.emit (.bare b)) := by
  induction t with
  | array h c ih =>
    simp only [outline, Outline.allLexical_node, Outline.eachLexical_cons] at lexical
    exact (ih lexical.2.1).append (leads_emptyBrackets (List.Subset.refl closed) 1)
  | basic h k => exact k.closes_keyword
  | named t => exact t.closes_emit
  | parameterized h b f r =>
    rw [outline, Outline.allLexical_node] at lexical
    cases lexical.1
  | qualified h q n ih =>
    simp only [outline, Outline.allLexical_node, Outline.eachLexical_cons] at lexical
    exact (ih lexical.2.1).point n.closes_emit
  | wildcard h d bound ih =>
    cases bound with
    | none => exact d.closes_keyword
    | some t =>
      simp only [outline, Outline.allLexical_node, Outline.eachLexical_cons] at lexical
      exact d.closes_keyword.append ((ih t rfl lexical.2.2.1).anywhere)

/-- The innermost component of an array type is part of the type. -/
theorem Ty.allLexical_element {t : Ty} (lexical : t.outline.AllLexical) :
    t.element.outline.AllLexical := by
  induction t with
  | array h c ih =>
    simp only [outline, Outline.allLexical_node, Outline.eachLexical_cons] at lexical
    exact ih lexical.2.1
  | _ => exact lexical

theorem flows_typeClause {keyword : String} {ts : List Ty}
    (h : (Token.word keyword).isLoose = true) (lexical : ∀ t ∈ ts, t.outline.AllLexical) :
    Flows (typeClause (.bare b) keyword ts) := by
  refine flows_clause h fun us hus => ?_
  obtain ⟨t, ht, rfl⟩ := List.mem_map.mp hus
  exact (Ty.closes_emit (lexical t ht)).flows

theorem flows_emitTarget (n : Option SimpleName) : Flows (emitTarget (.bare b) n) := by
  cases n with
  | none => exact flows_nil
  | some n => exact n.closes_emit.flows

/-- Documentation comments are left out. -/
theorem flows_emitJavadoc {x : EmitContext} {j : Option Javadoc}
    (lexical : ∀ j' ∈ j.toList, j'.outline.AllLexical) : Flows (emitJavadoc x j) := by
  cases j with
  | none => exact flows_nil
  | some j =>
    have own := lexical j (by simp)
    rw [Javadoc.outline, Outline.allLexical_node] at own
    cases own.1

/-- Type parameters are left out. -/
theorem TypeParameter.not_allLexical (p : TypeParameter) : ¬ p.outline.AllLexical := by
  intro lexical
  rw [outline, Outline.allLexical_node] at lexical
  cases lexical.1

theorem eq_nil_of_typeParameters {ps : List TypeParameter}
    (lexical : ∀ p ∈ ps, p.outline.AllLexical) : ps = [] :=
  List.eq_nil_iff_forall_not_mem.mpr fun p hp => p.not_allLexical (lexical p hp)

theorem flows_typeParameters {x : EmitContext} {ps : List TypeParameter}
    (lexical : ∀ p ∈ ps, p.outline.AllLexical) : Flows (typeParameters x ps) := by
  obtain rfl := eq_nil_of_typeParameters lexical
  exact flows_nil

theorem flows_leadingParameters {x : EmitContext} {ps : List TypeParameter}
    (lexical : ∀ p ∈ ps, p.outline.AllLexical) : Flows (leadingParameters x ps) := by
  obtain rfl := eq_nil_of_typeParameters lexical
  exact flows_nil

theorem Modifier.flows_emit (m : Modifier) : Flows (m.emit (.bare b)) := by
  have keyword : ∀ k : ModifierKind, Flows [.word k.keyword] := by
    intro k
    cases k <;> decide
  exact keyword m.kind

end

/-! ### Code -/

/-- Whether trees of a category are written where an expression can stand. -/
def Category.isValue : Category → Bool
  | .expression | .arrayInitializer | .classBody => true
  | .listOf c | .optional c => c.isValue
  | _ => false

/-- The edges in front of the trees of a category. -/
def Category.before (c : Category) : List Edge :=
  if c.isValue then operand else loose

namespace Tree

variable {c : Category} {b : Bool} {p : Precedence}

/-- Whether everything can follow a tree that is written where strength `p` is demanded. A loose
expression ends with its last operand, unless it is parenthesized. -/
def isClosed (p : Precedence) : {c : Category} → Tree c → Bool
  | _, .literal _ token _ => !spellsNumber token.toList
  | _, .assignmentExpression .. => p = .primary
  | _, .castExpression .. => p = .primary
  | _, .conditionalExpression .. => p = .primary
  | _, .infixExpression .. => p = .primary
  | _, .unaryExpression .. => p = .primary
  | _, .present t => t.isClosed p
  | _, .cons t ts => t.isClosed p && ts.isClosed p
  | _, _ => true

/-- A number is the only primary expression that a point cannot follow. -/
theorem isClosed_primary (e : Expression) : e.isClosed .primary = !e.outline.isNumber := by
  cases e with
  | nameExpression n => cases n <;> rfl
  | initializerExpression t => cases t; rfl
  | _ => rfl

/-- The edges behind a tree that is written where strength `p` is demanded. -/
def behind (t : Tree c) (p : Precedence) : List Edge :=
  if c.isValue then if t.isClosed p then closed else value else loose

/-- Each node of a tree can be written between the edges of the tree. -/
def Links (b : Bool) (t : Tree c) : Prop :=
  ∀ p, ∀ e ∈ t.emit (.bare b) p, Leads c.before e.tokens (t.behind p)

section

variable {t : Tree c} {ts : List Token}

theorem closed_subset_behind : closed ⊆ t.behind p := by
  unfold behind
  split_ifs <;> decide

theorem behind_subset_loose : t.behind p ⊆ loose := by
  unfold behind
  split_ifs <;> decide

theorem Links.flowsEach (h : t.Links b) (p : Precedence) : FlowsEach (t.emit (.bare b) p) := by
  intro e he
  refine (h p e he).mono ?_ behind_subset_loose
  unfold Category.before
  split_ifs <;> decide

/-- An expression is one node. -/
theorem exists_emit_expression (x : EmitContext) (e : Expression) (p : Precedence) :
    ∃ w, e.emit x p = [w] := by
  cases e with
  | initializerExpression t => cases t; exact ⟨_, by rw [emit, emit]⟩
  | _ => exact ⟨_, by rw [emit]⟩

theorem Links.leads {e : Expression} (h : e.Links b) (p : Precedence) :
    Leads operand (joined (e.emit (.bare b) p)) (e.behind p) := by
  obtain ⟨w, emitted⟩ := exists_emit_expression (.bare b) e p
  rw [emitted, joined_cons, joined_nil, List.append_nil]
  exact h p w (by simp [emitted])

theorem Links.leads_value {e : Expression} (h : e.Links b) (p : Precedence) :
    Leads operand (joined (e.emit (.bare b) p)) value := by
  refine (h.leads p).mono (List.Subset.refl operand) ?_
  have ends : e.behind p = if e.isClosed p then closed else value := rfl
  rw [ends]
  split_ifs <;> decide

/-- In front of a point. -/
theorem Links.leads_closed {e : Expression} (h : e.Links b)
    (noNumber : e.outline.isNumber = false) :
    Leads operand (joined (e.emit (.bare b) .primary)) closed := by
  simpa [behind, isClosed_primary, noNumber, Category.isValue] using h.leads .primary

theorem Links.leads_qualifying {q : Tree (.optional .expression)} (h : q.Links b)
    (noNumber : q.outline.isNumber = false) :
    Leads operand (qualifying (q.emit (.bare b) .primary)) any := by
  cases q with
  | absent => exact .nil (by decide)
  | present e =>
    obtain ⟨w, emitted⟩ := exists_emit_expression (.bare b) e .primary
    have front := Links.leads_closed (e := e) h noNumber
    have point : Leads closed [.mark .dot] any := by decide
    rw [emit, emitted] at *
    simpa [qualifying] using front.append point

theorem leads_wrapped_closed {own : Precedence} (h : Leads operand ts closed) :
    Leads operand (wrapped own p ts) (t.behind p) := by
  rw [wrapped]
  split
  · have enclosed := closes_parenthesized (h.mono (by decide) (by decide))
    exact enclosed.leads closed_subset_behind
  · exact h.mono (List.Subset.refl operand) closed_subset_behind

/-- An expression looser than a primary one is parenthesized in front of a point. -/
theorem leads_wrapped {own : Precedence} {e : Expression}
    (ends : e.isClosed p = decide (p = .primary)) (loosely : own.rank < Precedence.primary.rank)
    (h : Leads operand ts value) :
    Leads operand (wrapped own p ts) (e.behind p) := by
  have enclosed : Closes (parenthesized ts) :=
    closes_parenthesized (h.mono (by decide) (by decide))
  rw [wrapped]
  split
  · exact enclosed.leads closed_subset_behind
  · next tight =>
    have lower : p ≠ .primary := by
      rintro rfl
      exact tight loosely
    refine h.mono (List.Subset.refl operand) ?_
    simp [behind, ends, lower, Category.isValue]

/-! ### Expressions -/

theorem Links.of_value (sort : c.isValue = true)
    (h : ∀ p, ∀ e ∈ t.emit (.bare b) p, Leads operand e.tokens (t.behind p)) : t.Links b := by
  intro p e he
  simpa [Category.before, sort] using h p e he

/-- Trees that end in braces. -/
theorem Links.leads_of_behind (h : t.Links b) (sort : c.isValue = true)
    (ends : t.behind p = closed) : ∀ e ∈ t.emit (.bare b) p, Leads closed e.tokens closed := by
  intro e he
  have linked := h p e he
  rw [Category.before, if_pos sort, ends] at linked
  exact linked.mono (by decide) (List.Subset.refl closed)

theorem behind_initializer (t : Tree (.optional .arrayInitializer)) : t.behind p = closed := by
  cases t with
  | absent => rfl
  | present t => cases t; rfl

theorem behind_classBody (t : Tree (.optional .classBody)) : t.behind p = closed := by
  cases t with
  | absent => rfl
  | present t => cases t; rfl

/-- What is written for a literal. -/
theorem wordEdge?_of_isLiteralLexeme {token : String} (h : isLiteralLexeme token = true) :
    wordEdge? token = some (if spellsNumber token.toList then .number else .clear) := by
  by_cases number : spellsNumber token.toList = true
  · simp [wordEdge?, number]
  · simp only [isLiteralLexeme, number, Bool.false_or, Bool.or_eq_true, List.contains_eq_mem,
      decide_eq_true_eq] at h
    rcases h with quoted | word
    · simp [wordEdge?, number, quoted]
    · have words : ∀ w ∈ ["true", "false", "null"],
          wordEdge? w = some (if spellsNumber w.toList then .number else .clear) := by
        decide
      exact words token word

section

variable {h : Handle} {type : Ty} {left right operand array index condition yes no : Expression}
  {qualifier : Tree (.optional .expression)} {arguments : Tree (.listOf .expression)}

theorem links_name (n : Name) : (nameExpression n).Links b := by
  refine .of_value rfl fun p => ?_
  simp only [emit, List.forall_mem_singleton]
  exact n.closes_emit.leads closed_subset_behind

theorem links_literal {token : String} {nonempty : token ≠ ""}
    (lexeme : isLiteralLexeme token = true) : (literal h token nonempty).Links b := by
  refine .of_value rfl fun p => ?_
  simp only [emit, EmitContext.bare_attached, List.nil_append, List.forall_mem_singleton]
  have word := wordEdge?_of_isLiteralLexeme lexeme
  intro e he
  have anywhere : e ≠ .point := by
    rintro rfl
    revert he
    decide
  refine ⟨if spellsNumber token.toList then .number else .clear, ?_, ?_⟩
  · cases number : spellsNumber token.toList <;>
      simp [behind, isClosed, number, Category.isValue, closed, value]
  · simp [Edge.run, Edge.next, word, anywhere]

theorem links_arrayAccess (ha : array.Links b) (hi : index.Links b) :
    (arrayAccessExpression h array index).Links b := by
  refine .of_value rfl fun p => ?_
  simp only [emit, EmitContext.bare_attached, List.nil_append, List.forall_mem_singleton]
  have inner := closes_bracketed (flows_joined (hi.flowsEach .lowest))
  refine leads_wrapped_closed (.append ?_ (inner.anywhere (P := value)))
  split
  · exact (closes_parenthesized (flows_joined (ha.flowsEach .primary))).leads (by decide)
  · exact ha.leads_value .primary

theorem links_arrayCreation {type : ArrayType} {sizes : Tree (.listOf .expression)}
    {values : Tree (.optional .arrayInitializer)} (lexical : type.toTy.outline.AllLexical)
    (hs : sizes.Links b) (hv : values.Links b) :
    (arrayCreationExpression h type sizes values).Links b := by
  refine .of_value rfl fun p => ?_
  simp only [emit, EmitContext.bare_attached, List.nil_append, List.forall_mem_singleton]
  have keyword : Closes [.word "new"] := by decide
  have element : Closes (type.element.emit (.bare b)) :=
    Ty.closes_emit (Ty.allLexical_element (t := type.toTy) lexical)
  have given : Leads closed
      ((sizes.emit (.bare b) .lowest).flatMap fun e => bracketed e.tokens) closed :=
    .flatMap fun e he =>
      (closes_bracketed (hs.flowsEach .lowest e he)).anywhere
  have initial : Leads closed (after .space (values.emit (.bare b) .lowest)) closed :=
    .flatMap fun e he =>
      .cons (Q := closed) (by decide) (hv.leads_of_behind rfl (behind_initializer values) e he)
  refine leads_wrapped_closed (.append (.append (.append ?_ given)
    (leads_emptyBrackets (List.Subset.refl closed) _)) initial)
  exact (keyword.anywhere).cons (element.anywhere)

theorem links_assignment {op : InfixOperator} (hl : left.Links b) (hr : right.Links b) :
    (assignmentExpression h left op right).Links b := by
  refine .of_value rfl fun p => ?_
  simp only [emit, EmitContext.bare_attached, List.nil_append, List.forall_mem_singleton]
  split
  · next symbol spelled =>
    have between : Leads value [.operator symbol] Edge.operand := by
      cases op <;> cases spelled <;> decide
    exact leads_wrapped rfl (by decide)
      ((hl.leads_value .primary).append (between.cons (hr.leads_value .assignment)))
  · have anywhere : Closes [.rejected op] := by cases op <;> decide
    exact anywhere.leads closed_subset_behind

theorem links_cast (lexical : type.outline.AllLexical) (ho : operand.Links b) :
    (castExpression h type operand).Links b := by
  refine .of_value rfl fun p => ?_
  simp only [emit, EmitContext.bare_attached, List.nil_append, List.forall_mem_singleton]
  have front := closes_parenthesized (Ty.closes_emit (b := b) lexical).flows
  have between : Leads closed [.space] Edge.operand := by decide
  exact leads_wrapped rfl (by decide)
    ((front.anywhere).append (between.cons (ho.leads_value _)))

theorem links_classInstanceCreation {anonymous : Tree (.optional .classBody)}
    (hq : qualifier.Links b) (noNumber : qualifier.outline.isNumber = false)
    (lexical : type.outline.AllLexical) (ha : arguments.Links b) (hc : anonymous.Links b) :
    (classInstanceCreationExpression h qualifier [] type arguments anonymous).Links b := by
  refine .of_value rfl fun p => ?_
  simp only [emit, EmitContext.bare_attached, List.nil_append, List.forall_mem_singleton,
    List.isEmpty_nil, if_true]
  have keyword : Closes [.word "new"] := by decide
  have given := closes_parenthesized (flows_separated (ha.flowsEach .lowest))
  have members : Leads closed (joined (anonymous.emit (.bare b) .lowest)) closed :=
    .flatMap (hc.leads_of_behind rfl (behind_classBody anonymous))
  have front := (hq.leads_qualifying noNumber).append keyword
  have created := front.append ((Ty.closes_emit (b := b) lexical).anywhere)
  exact leads_wrapped_closed
    ((created.append (given.anywhere)).append members)

theorem links_classLiteral (lexical : type.outline.AllLexical) :
    (classLiteral h type).Links b := by
  refine .of_value rfl fun p => ?_
  simp only [emit, EmitContext.bare_attached, List.nil_append, List.forall_mem_singleton]
  have keyword : Closes [.word "class"] := by decide
  exact ((Ty.closes_emit lexical).point keyword).leads closed_subset_behind

theorem links_conditional (hc : condition.Links b) (hy : yes.Links b) (hn : no.Links b) :
    (conditionalExpression h condition yes no).Links b := by
  refine .of_value rfl fun p => ?_
  simp only [emit, EmitContext.bare_attached, List.nil_append, List.forall_mem_singleton]
  have question : Leads value [.operator "?"] Edge.operand := by decide
  have colon : Leads value [.operator ":"] Edge.operand := by decide
  exact leads_wrapped rfl (by decide) (((hc.leads_value .conditionalOr).append
    (question.cons (hy.leads_value .lowest))).append (colon.cons (hn.leads_value .conditional)))

theorem links_fieldAccess {name : SimpleName} (hq : left.Links b)
    (noNumber : left.outline.isNumber = false) : (fieldAccessExpression h left name).Links b := by
  refine .of_value rfl fun p => ?_
  simp only [emit, EmitContext.bare_attached, List.nil_append, List.forall_mem_singleton]
  have point : Leads closed [.mark .dot] any := by decide
  exact leads_wrapped_closed ((hq.leads_closed noNumber).append (point.cons name.closes_emit))

theorem links_infix {op : InfixOperator} (hl : left.Links b) (hr : right.Links b) :
    (infixExpression h left op right).Links b := by
  refine .of_value rfl fun p => ?_
  simp only [emit, EmitContext.bare_attached, List.nil_append, List.forall_mem_singleton]
  have loosely : op.precedence.rank < Precedence.primary.rank := by cases op <;> decide
  have between : Leads value [.operator op.symbol] Edge.operand := by cases op <;> decide
  exact leads_wrapped rfl loosely
    ((hl.leads_value _).append (between.cons (hr.leads_value _)))

theorem links_instanceof (ho : operand.Links b) (lexical : type.outline.AllLexical) :
    (instanceofExpression h operand type).Links b := by
  refine .of_value rfl fun p => ?_
  simp only [emit, EmitContext.bare_attached, List.nil_append, List.forall_mem_singleton]
  have between : Leads value [.operator "instanceof"] any := by decide
  exact leads_wrapped_closed
    ((ho.leads_value .relational).append (between.cons (Ty.closes_emit lexical)))

theorem links_methodInvocation {name : SimpleName} (hq : qualifier.Links b)
    (noNumber : qualifier.outline.isNumber = false) (ha : arguments.Links b) :
    (methodInvocationExpression h qualifier [] name arguments).Links b := by
  refine .of_value rfl fun p => ?_
  simp only [emit, EmitContext.bare_attached, List.nil_append, List.forall_mem_singleton,
    invocationArguments, List.append_nil]
  have given := closes_parenthesized (flows_separated (ha.flowsEach .lowest))
  exact leads_wrapped_closed (((hq.leads_qualifying noNumber).append name.closes_emit).append
    (given.anywhere))

theorem links_parenthesized (ho : operand.Links b) :
    (parenthesizedExpression h operand).Links b := by
  refine .of_value rfl fun p => ?_
  simp only [emit, EmitContext.bare_attached, List.nil_append, List.forall_mem_singleton]
  exact (closes_parenthesized (flows_joined (ho.flowsEach .lowest))).leads closed_subset_behind

theorem links_postfix {op : PostfixOperator} (ho : operand.Links b) :
    (postfixExpression h operand op).Links b := by
  refine .of_value rfl fun p => ?_
  simp only [emit, EmitContext.bare_attached, List.nil_append, List.forall_mem_singleton]
  have behind : Leads value [.mark op.mark] closed := by cases op <;> decide
  exact leads_wrapped_closed ((ho.leads_value .suffix).append behind)

/-- A keyword behind a type that may qualify it. -/
theorem closes_qualified {keyword : String} (word : Closes [.word keyword]) :
    ∀ q : Option NamedType, Closes (emitTypeQualifier (.bare b) q ++ [Token.word keyword])
  | none => word
  | some t => by simpa [emitTypeQualifier] using t.closes_emit.point word

theorem links_superReference (q : Option NamedType) : (superReference h q).Links b := by
  refine .of_value rfl fun p => ?_
  simp only [emit, EmitContext.bare_attached, List.nil_append, List.forall_mem_singleton]
  exact (closes_qualified (by decide) q).leads closed_subset_behind

theorem links_thisReference (q : Option NamedType) : (thisReference h q).Links b := by
  refine .of_value rfl fun p => ?_
  simp only [emit, EmitContext.bare_attached, List.nil_append, List.forall_mem_singleton]
  exact (closes_qualified (by decide) q).leads closed_subset_behind

theorem links_unary {op : UnaryOperator} (ho : operand.Links b) :
    (unaryExpression h op operand).Links b := by
  refine .of_value rfl fun p => ?_
  simp only [emit, EmitContext.bare_attached, List.nil_append, List.forall_mem_singleton]
  have sign : Leads Edge.operand [.sign op] Edge.operand := by cases op <;> decide
  exact leads_wrapped rfl (by decide) (sign.cons (ho.leads_value .unary))

theorem links_arrayInitializer (he : arguments.Links b) :
    (arrayInitializer h arguments).Links b := by
  refine .of_value rfl fun p => ?_
  simp only [emit, EmitContext.bare_attached, List.nil_append, List.forall_mem_singleton]
  exact (closes_braced (flows_separated (he.flowsEach .lowest))).leads closed_subset_behind

theorem links_classBody {ms : Tree (.listOf .member)} (hm : ms.Links b) :
    (classBody h ms).Links b := by
  refine .of_value rfl fun p => ?_
  simp only [emit, EmitContext.bare_attached, List.nil_append, List.forall_mem_singleton]
  exact (closes_members (hm.flowsEach .lowest)).leads closed_subset_behind

end

/-! ### Statements and declarations -/

theorem Links.of_flowsEach (sort : c.isValue = false)
    (h : ∀ p, FlowsEach (t.emit (.bare b) p)) : t.Links b := by
  intro p e he
  have flows : Leads loose e.tokens loose := h p e he
  simpa [Category.before, behind, sort] using flows

section

variable {h : Handle} {type : Ty} {value : Expression} {arguments : Tree (.listOf .expression)}

theorem links_formalParameter {modifiers : Tree (.listOf .attribute)} {variableArity : Bool}
    {name : SimpleName} {extra : Nat} (hm : modifiers.Links b)
    (lexical : type.outline.AllLexical) :
    (formalParameterDeclaration h modifiers type variableArity name extra).Links b := by
  refine .of_flowsEach rfl fun p => ?_
  simp only [emit, EmitContext.bare_attached, List.nil_append, flowsEach_singleton]
  have attributes : Flows (attributes false (modifiers.emit (.bare b) .lowest)) :=
    flows_attributes (hm.flowsEach .lowest)
  have ellipsis : Leads closed (if variableArity then [.mark .ellipsis, .space] else [])
      closed := by
    cases variableArity <;> decide
  have front := Leads.append attributes (Ty.closes_emit (b := b) lexical).anywhere
  have named := (front.append ellipsis).append (name.closes_emit (b := b)).anywhere
  exact (named.append (leads_emptyBrackets (List.Subset.refl closed) extra)).mono
    (List.Subset.refl loose) (by decide)

theorem links_alternateConstructorInvocation (ha : arguments.Links b) :
    (alternateConstructorInvocation h [] arguments).Links b := by
  refine .of_flowsEach rfl fun p => ?_
  simp only [emit, EmitContext.bare_attached, List.nil_append, flowsEach_singleton,
    invocationArguments]
  have given := closes_parenthesized (flows_separated (ha.flowsEach .lowest))
  exact .append (.cons (by decide) given.flows) (by decide)

theorem links_superConstructorInvocation {qualifier : Tree (.optional .expression)}
    (hq : qualifier.Links b) (noNumber : qualifier.outline.isNumber = false)
    (ha : arguments.Links b) : (superConstructorInvocation h qualifier [] arguments).Links b := by
  refine .of_flowsEach rfl fun p => ?_
  simp only [emit, EmitContext.bare_attached, List.nil_append, flowsEach_singleton,
    invocationArguments, List.append_nil]
  have keyword : Closes [.word "super"] := by decide
  have given := closes_parenthesized (flows_separated (ha.flowsEach .lowest))
  have semicolon : Leads closed [.mark .semicolon] loose := by decide
  have front := (hq.leads_qualifying noNumber).append (keyword.append given.anywhere)
  exact (front.append semicolon).mono (by decide) (List.Subset.refl loose)

theorem links_labeled {label : SimpleName} {statement : Statement} (hs : statement.Links b) :
    (labeledStatement h label statement).Links b := by
  refine .of_flowsEach rfl fun p => ?_
  simp only [emit, EmitContext.bare_attached, List.nil_append, flowsEach_singleton]
  have colon : Leads closed [.mark .colon, .space] closed := by decide
  have front := (label.closes_emit (b := b)).append colon
  exact .append front.flows (flows_joined (hs.flowsEach .lowest))

theorem links_switchCase (hv : value.Links b) : (switchCaseLabel h value).Links b := by
  refine .of_flowsEach rfl fun p => ?_
  simp only [emit, EmitContext.bare_attached, List.nil_append, flowsEach_singleton]
  have keyword : Leads loose [.word "case", .space] operand := by decide
  have colon : Leads Edge.value [.mark .colon] loose := by decide
  exact (keyword.append (hv.leads_value .lowest)).append colon

end

theorem eachLexical_elements (ts : Tree (.listOf c)) :
    Outline.EachLexical ts.outline.elements ↔ ts.outline.AllLexical :=
  eachNodes_elements ts

theorem flows_simpleName (n : SimpleName) : Flows (n.emit (.bare b)) :=
  n.closes_emit.flows

theorem flows_namedType (t : NamedType) : Flows (t.emit (.bare b)) :=
  t.closes_emit.flows

theorem flows_type {t : Ty} (lexical : t.outline.AllLexical) : Flows (t.emit (.bare b)) :=
  (Ty.closes_emit lexical).flows

/-- A node of a tree is also written like a node of a larger tree. -/
theorem Links.leads_of_mem {d : Category} {u : Tree d} (h : u.Links b)
    (sort : c.isValue = d.isValue) (ends : t.isClosed p = true → u.isClosed p = true) {e : Emitted}
    (he : e ∈ u.emit (.bare b) p) : Leads c.before e.tokens (t.behind p) := by
  have before : c.before = d.before := by rw [Category.before, Category.before, sort]
  have behind : u.behind p ⊆ t.behind p := by
    unfold behind
    rw [sort]
    cases ht : t.isClosed p with
    | true => rw [ends ht]; exact List.Subset.refl _
    | false =>
      simp only [Bool.false_eq_true, if_false]
      split_ifs <;> decide
  rw [before]
  exact (h p e he).mono (List.Subset.refl _) behind

theorem links_cons {t : Tree c} {ts : Tree (.listOf c)} (h : t.Links b) (h' : ts.Links b) :
    (cons t ts).Links b := by
  intro p e he
  rw [emit] at he
  have both : (cons t ts).isClosed p = true → t.isClosed p = true ∧ ts.isClosed p = true := by
    rw [isClosed, Bool.and_eq_true]
    exact id
  rcases List.mem_append.mp he with he | he
  · exact h.leads_of_mem (t := cons t ts) rfl (fun ends => (both ends).1) he
  · exact h'.leads_of_mem (t := cons t ts) rfl (fun ends => (both ends).2) he

theorem links_nil : (nil : Tree (.listOf c)).Links b := by
  intro p e he
  rw [emit] at he
  cases he

theorem links_absent : (absent : Tree (.optional c)).Links b := by
  intro p e he
  rw [emit] at he
  cases he

theorem links_present {t : Tree c} (h : t.Links b) : (present t).Links b := by
  intro p e he
  rw [emit] at he
  exact h.leads_of_mem rfl id he

theorem links_initializer {t : Tree .arrayInitializer} (h : t.Links b) :
    (initializerExpression t).Links b := by
  intro p e he
  rw [emit] at he
  exact h.leads_of_mem (t := initializerExpression t) rfl (fun _ => by cases t; rfl) he

/-- Type arguments are left out, and no number is in front of a point. -/
theorem of_isLexical_qualified {q : Outline} {typeArgs : List Ty}
    (h : (!q.isNumber && (Outline.ofList Ty.outline typeArgs).elements.isEmpty) = true) :
    q.isNumber = false ∧ typeArgs = [] := by
  simpa [Outline.ofList, Outline.elements] using h

-- The rules below are chosen by the name of a group of tokens and by what is said of it, so neither
-- is unfolded.
seal Flows FlowsEach Links Outline.AllLexical emit joined separated parenthesized indentedBraces
  emptyBrackets header lines body branches switchLines after attributes members enumBody typeClause
  emitTarget emitJavadoc typeParameters leadingParameters SimpleName.emit NamedType.emit Ty.emit
  Modifier.emit in
/-- **The nodes of code can be written between their neighbours.** -/
theorem links {t : Tree c} (lexical : t.outline.AllLexical) : t.Links b := by
  -- The condition on a node splits into one on the node itself and one on each of its fields.
  induction t
  all_goals
    simp only [outline, Outline.allLexical_node, Outline.allLexical_list, Outline.eachLexical_cons,
      Outline.eachLexical_nil, Outline.allLexical_ofOption, Outline.allLexical_ofList,
      Outline.allLexical_ofChoice, Outline.allLexical_text, Outline.allLexical_flag,
      Outline.allLexical_count, eachLexical_elements, and_true, true_and] at lexical
  case nil => exact links_nil
  case cons t ts iht ihts => exact links_cons (iht lexical.1) (ihts lexical.2)
  case absent => exact links_absent
  case present ih => exact links_present (ih lexical)
  case nameExpression n => exact links_name n
  case initializerExpression ih => exact links_initializer (ih lexical)
  case arrayAccessExpression iha ihi => exact links_arrayAccess (iha lexical.2.1) (ihi lexical.2.2)
  case arrayCreationExpression ihs ihv =>
    exact links_arrayCreation lexical.2.1 (ihs lexical.2.2.1) (ihv lexical.2.2.2)
  case assignmentExpression ihl ihr => exact links_assignment (ihl lexical.2.1) (ihr lexical.2.2)
  case castExpression ih => exact links_cast lexical.2.1 (ih lexical.2.2)
  case classInstanceCreationExpression ihq iha ihb =>
    obtain ⟨own, qualifier, -, type, arguments, anonymous⟩ := lexical
    obtain ⟨noNumber, rfl⟩ := of_isLexical_qualified own
    exact links_classInstanceCreation (ihq qualifier) noNumber type (iha arguments) (ihb anonymous)
  case classLiteral => exact links_classLiteral lexical.2
  case conditionalExpression ihc ihy ihn =>
    exact links_conditional (ihc lexical.2.1) (ihy lexical.2.2.1) (ihn lexical.2.2.2)
  case fieldAccessExpression ih =>
    exact links_fieldAccess (ih lexical.2.1) (Bool.not_eq_true' _ ▸ lexical.1)
  case infixExpression ihl ihr => exact links_infix (ihl lexical.2.1) (ihr lexical.2.2)
  case instanceofExpression ih => exact links_instanceof (ih lexical.2.1) lexical.2.2
  case literal => exact links_literal lexical
  case methodInvocationExpression ihq iha =>
    obtain ⟨own, qualifier, -, -, arguments⟩ := lexical
    obtain ⟨noNumber, rfl⟩ := of_isLexical_qualified own
    exact links_methodInvocation (ihq qualifier) noNumber (iha arguments)
  case parenthesizedExpression ih => exact links_parenthesized (ih lexical.2)
  case postfixExpression ih => exact links_postfix (ih lexical.2)
  case superReference q => exact links_superReference q
  case thisReference q => exact links_thisReference q
  case unaryExpression ih => exact links_unary (ih lexical.2)
  case arrayInitializer ih => exact links_arrayInitializer (ih lexical.2)
  case classBody ih => exact links_classBody (ih lexical.2)
  case formalParameterDeclaration ih => exact links_formalParameter (ih lexical.2.1) lexical.2.2.1
  case alternateConstructorInvocation ih =>
    obtain ⟨own, -, arguments⟩ := lexical
    obtain rfl := List.map_eq_nil_iff.mp (List.isEmpty_iff.mp own)
    exact links_alternateConstructorInvocation (ih arguments)
  case superConstructorInvocation ihq iha =>
    obtain ⟨own, qualifier, -, arguments⟩ := lexical
    obtain ⟨noNumber, rfl⟩ := of_isLexical_qualified own
    exact links_superConstructorInvocation (ihq qualifier) noNumber (iha arguments)
  case labeledStatement ih => exact links_labeled (ih lexical.2.2)
  case switchCaseLabel ih => exact links_switchCase (ih lexical.2)
  case switchDefaultLabel =>
    refine .of_flowsEach rfl fun p => ?_
    simp only [emit, EmitContext.bare_attached, List.nil_append, flowsEach_singleton]
    decide
  -- The other kinds have no point, colon, sign or `...` of their own: their groups flow one by one.
  all_goals
    repeat casesm _ ∧ _
    refine .of_flowsEach rfl fun p => ?_
    simp only [emit, EmitContext.bare_attached, List.nil_append, flowsEach_singleton]
    apply_rules only [*, Links.flowsEach, FlowsEach.append, flows_joined, flows_separated,
      flows_parenthesized, flows_indentedBraces, flows_emptyBrackets, flows_header, flows_lines,
      flows_body, flows_branches, flows_switchLines, flows_after, flows_attributes, flows_members,
      flows_enumBody, flows_typeClause, flows_emitTarget, flows_emitJavadoc, flows_typeParameters,
      flows_leadingParameters, flows_simpleName, flows_namedType, flows_type, Modifier.flows_emit,
      flows_flatMap_append, flows_ite, flows_cons_ite, Flows.append, Flows.cons, flows_nil]
    all_goals decide

end

end Tree

end JavaSource
