import JavaSource.Proofs.Lines.Groups
import JavaSource.Proofs.Name.Reading
import JavaSource.Proofs.Outline.Nodes

/-!
# The lines of emitted trees

Where the tokens of a tree end lines, they end them behind text: names, types, statements and
declarations end behind text whatever line they start on (`Inks`), and expressions can stand on
every line (`Steady`). This needs two things. What is attached to a node has to behave the same way
(`EmitContext.IsTidy`). And no literal, comment or tag may be broken over lines
(`Outline.isUnbroken`); only running text of documentation may, since each of its lines starts with
a star.

`Tree.lined` is the statement about code, `CompilationUnit.exists_run_emit` the one about units.
-/

namespace JavaSource

/-- What is attached to a node can stand on every line. Inside a line it stays behind text, and on
lines of its own it ends at the start of a line. -/
structure EmitContext.IsTidy (x : EmitContext) : Prop where
  inline : ∀ h, Steady (x.attached h .inline)
  ownLine : ∀ h, EndsLines (x.attached h .ownLine)

/-- Whether the text of a node is on one line: the token of a literal, the string of a comment or
the tag of a block. -/
def Outline.isUnbroken : Outline → Bool
  | .node .literal _ [.text s] | .node .blockComment _ [.text s] | .node .lineComment _ [.text s]
  | .node .docBlock _ [.text s, _] => !s.toList.contains '\n'
  | _ => true

section

variable {x : EmitContext}

/-! ### Names and types -/

theorem Text.isBlank_lineFeed : Text.isBlank '\n' = true := by
  decide

/-- A name can be seen. -/
theorem SimpleName.isInk_token (n : SimpleName) : (Token.word n.token).isInk = true := by
  obtain ⟨nonempty, -⟩ := forall_isIdentifierPart n.valid
  have unbroken : '\n' ∉ n.token.toList := by
    intro mem
    have solid := n.isBlank_of_mem_token mem
    cases solid.symm.trans Text.isBlank_lineFeed
  obtain ⟨c, cs, chars⟩ := List.exists_cons_of_ne_nil nonempty
  have solid := n.isBlank_of_mem_token (chars ▸ List.mem_cons_self)
  rw [Token.isInk, Token.isInline_word.mpr unbroken, Token.written, chars, List.all_cons, solid]
  rfl

theorem SimpleName.inks_emit (hx : x.IsTidy) (n : SimpleName) : Inks (n.emit x) :=
  (hx.inline n.handle).passes.append_inks (inks_singleton n.isInk_token)

theorem Name.inks_emit (hx : x.IsTidy) (n : Name) : Inks (n.emit x) := by
  induction n with
  | simple n => exact n.inks_emit hx
  | qualified h q n ih =>
    have front := (hx.inline h).passes.append_inks ih
    exact front.append_keeps (.cons (by decide) (n.inks_emit hx).steady.keeps)

theorem NamedType.inks_emit (hx : x.IsTidy) (t : NamedType) : Inks (t.emit x) :=
  (hx.inline t.handle).passes.append_inks (t.name.inks_emit hx)

theorem BasicTypeKind.isInk_keyword (k : BasicTypeKind) : (Token.word k.keyword).isInk = true := by
  cases k <;> decide

theorem WildcardBoundKind.inks_keyword (d : WildcardBoundKind) :
    Inks (.word "?" :: (d.keyword.map Token.word).toList) := by
  have keyword : Keeps (d.keyword.map Token.word).toList := by cases d <;> decide
  exact inks_cons (by decide) keyword

theorem Ty.inks_emit (hx : x.IsTidy) (t : Ty) : Inks (t.emit x) := by
  induction t with
  | array h c ih =>
    exact ((hx.inline h).passes.append_inks ih).append_keeps (steady_emptyBrackets 1).keeps
  | basic h k => exact (hx.inline h).passes.append_inks (inks_singleton k.isInk_keyword)
  | named t => exact t.inks_emit hx
  | parameterized h b f r ihb ihf ihr =>
    have arguments : ∀ ts ∈ f.emit x :: emitEach x r, Steady ts := by
      rw [emitEach_eq_map]
      intro ts hts
      rcases List.mem_cons.mp hts with rfl | hts
      · exact ihf.steady
      · obtain ⟨t, ht, rfl⟩ := List.mem_map.mp hts
        exact (ihr t ht).steady
    have front := (hx.inline h).passes.append_inks ihb
    exact front.append_keeps (steady_angled arguments).keeps
  | qualified h q n ih =>
    have front := (hx.inline h).passes.append_inks ih
    exact front.append_keeps (.cons (by decide) (n.inks_emit hx).steady.keeps)
  | wildcard h d b ih =>
    have front := (hx.inline h).passes.append_inks d.inks_keyword
    cases b with
    | none => exact front
    | some b => exact front.append_keeps (ih b rfl).steady.keeps

theorem steady_emitOptional (hx : x.IsTidy) (t : Option Ty) : Steady (emitOptional x t) := by
  cases t with
  | none => exact steady_nil
  | some t => exact (t.inks_emit hx).steady

theorem forall_steady_types (hx : x.IsTidy) (ts : List Ty) :
    ∀ us ∈ ts.map (Ty.emit x), Steady us := by
  intro us hus
  obtain ⟨t, -, rfl⟩ := List.mem_map.mp hus
  exact (t.inks_emit hx).steady

theorem steady_typeArguments (hx : x.IsTidy) (ts : List Ty) : Steady (typeArguments x ts) :=
  steady_angled (forall_steady_types hx ts)

theorem steady_invocationArguments (hx : x.IsTidy) (ts : List Ty) :
    Steady (invocationArguments x ts) := by
  cases ts with
  | nil => exact steady_nil
  | cons t ts => exact (steady_typeArguments hx (t :: ts)).append (steady_singleton (by decide))

theorem steady_typeClause (hx : x.IsTidy) {keyword : String}
    (h : (Token.word keyword).isInline = true) (ts : List Ty) :
    Steady (typeClause x keyword ts) :=
  steady_clause h (forall_steady_types hx ts)

theorem TypeParameter.steady_emit (hx : x.IsTidy) (p : TypeParameter) : Steady (p.emit x) := by
  refine .append (.append (hx.inline p.handle) (p.name.inks_emit hx).steady) ?_
  cases p.bounds with
  | nil => exact steady_nil
  | cons first rest =>
    refine .append (.cons (by decide) (first.inks_emit hx).steady) (steady_flatMap fun t _ => ?_)
    exact .cons (by decide) (t.inks_emit hx).steady

theorem steady_typeParameters (hx : x.IsTidy) (ps : List TypeParameter) :
    Steady (typeParameters x ps) := by
  refine steady_angled fun ts hts => ?_
  obtain ⟨p, -, rfl⟩ := List.mem_map.mp hts
  exact p.steady_emit hx

theorem steady_leadingParameters (hx : x.IsTidy) (ps : List TypeParameter) :
    Steady (leadingParameters x ps) := by
  cases ps with
  | nil => exact steady_nil
  | cons p ps => exact (steady_typeParameters hx (p :: ps)).append (steady_singleton (by decide))

theorem steady_emitTarget (hx : x.IsTidy) (n : Option SimpleName) : Steady (emitTarget x n) := by
  cases n with
  | none => exact steady_nil
  | some n => exact (n.inks_emit hx).steady

theorem steady_emitTypeQualifier (hx : x.IsTidy) (t : Option NamedType) :
    Steady (emitTypeQualifier x t) := by
  cases t with
  | none => exact steady_nil
  | some t => exact (t.inks_emit hx).steady.append (steady_singleton (by decide))

theorem Modifier.inks_emit (hx : x.IsTidy) (m : Modifier) : Inks (m.emit x) := by
  have keyword : ∀ k : ModifierKind, (Token.word k.keyword).isInk = true := by
    intro k
    cases k <;> decide
  exact (hx.inline m.handle).passes.append_inks (inks_singleton (keyword m.kind))

/-! ### Documentation and comments -/

theorem DocParameter.steady_emit (hx : x.IsTidy) (p : DocParameter) : Steady (p.emit x) := by
  have front := (hx.inline p.handle).append (p.type.inks_emit hx).steady
  refine .append (front.append (steady_ite (steady_singleton (by decide)) steady_nil)) ?_
  cases p.name with
  | none => exact steady_nil
  | some n => exact .cons (by decide) (n.inks_emit hx).steady

/-- Each line of running text starts with a star. -/
theorem keeps_docText (s : String) : Keeps (docText s) := by
  unfold docText
  split
  · exact keeps_nil
  · next first rest parts =>
    have unbroken : ∀ l ∈ first :: rest, (Token.raw l).isInline = true := by
      intro l hl
      rw [Token.isInline_raw]
      exact Text.notMem_of_mem_split (parts ▸ hl)
    refine .cons (unbroken first List.mem_cons_self) (keeps_flatMap fun l hl => ?_)
    have star : LineKind.run .inked [.newline, .raw " * "] = some .inked := by decide
    exact Keeps.append star
      (steady_singleton (unbroken l (List.mem_cons_of_mem first hl))).keeps

namespace DocElement

theorem keeps_emitAll {es : List DocElement} (h : ∀ e ∈ es, Keeps (e.emitInside x)) :
    Keeps (emitAll x es) := by
  induction es with
  | nil => exact keeps_nil
  | cons e es ih =>
    exact (h e List.mem_cons_self).append (ih fun e' he' => h e' (List.mem_cons_of_mem e he'))

/-- A reference to a member. -/
theorem keeps_reference (hx : x.IsTidy) (h : Handle) (t : Option Ty) (n : SimpleName) :
    Keeps (.space :: x.attached h .inline ++ emitOptional x t ++ .mark .hash :: n.emit x) :=
  .append (.append (.cons (by decide) (hx.inline h).keeps) (steady_emitOptional hx t).keeps)
    (.cons (by decide) (n.inks_emit hx).steady.keeps)

theorem keeps_emitInside (hx : x.IsTidy) {e : DocElement}
    (unbroken : e.outline.AllNodes fun n => n.isUnbroken) : Keeps (e.emitInside x) := by
  induction e with
  | block h tag es ih =>
    simp only [outline, outlineEach_eq_map, Outline.allNodes_node, Outline.eachNodes_cons,
      Outline.allNodes_list, Outline.eachNodes_map] at unbroken
    obtain ⟨own, -, elements, -⟩ := unbroken
    have inside := keeps_emitAll fun e he => ih e he (elements e he)
    have tag : (Token.raw tag).isInline = true := by
      rw [Token.isInline_raw]
      simpa [Outline.isUnbroken] using own
    have front : Keeps (.space :: x.attached h .inline) := .cons (by decide) (hx.inline h).keeps
    exact ((front.append (.cons (by decide) (steady_singleton tag).keeps)).append inside).append
      (by decide)
  | field h t n => exact keeps_reference hx h t n
  | method h t n ps =>
    have parameters : ∀ ts ∈ ps.map (DocParameter.emit x), Steady ts := by
      intro ts hts
      obtain ⟨p, -, rfl⟩ := List.mem_map.mp hts
      exact p.steady_emit hx
    exact (keeps_reference hx h t n).append
      (inks_parenthesized (steady_commaSeparated parameters)).steady.keeps
  | text h s => exact keeps_docText s
  | name n => exact (Inks.cons (by decide) (n.inks_emit hx)).steady.keeps
  | type t => exact (Inks.cons (by decide) (t.inks_emit hx)).steady.keeps

end DocElement

theorem DocBlock.keeps_emit (hx : x.IsTidy) {b : DocBlock}
    (unbroken : b.outline.AllNodes fun n => n.isUnbroken) : Keeps (b.emit x) := by
  simp only [outline, toElement, DocElement.outline, DocElement.outlineEach_eq_map,
    Outline.allNodes_node, Outline.eachNodes_cons, Outline.allNodes_list,
    Outline.eachNodes_map] at unbroken
  obtain ⟨own, -, elements, -⟩ := unbroken
  have tag : Steady (if b.tag = "" then [] else [.raw b.tag]) := by
    refine steady_ite steady_nil (steady_singleton ?_)
    rw [Token.isInline_raw]
    simpa [Outline.isUnbroken] using own
  have inside := DocElement.keeps_emitAll fun e he =>
    DocElement.keeps_emitInside hx (elements e he)
  exact ((hx.inline b.handle).append tag).keeps.append inside

/-- Each block starts behind a star. -/
theorem inks_docComment {blocks : List (List Token)} (h : ∀ ts ∈ blocks, Keeps ts) :
    Inks (docComment blocks) := by
  have opening : Passes [.raw "/**", .newline] :=
    (inks_singleton (by decide)).passes_append_newline
  have inside : Passes (blocks.flatMap fun b => Token.raw " * " :: b ++ [Token.newline]) :=
    passes_flatMap fun b hb => (inks_cons (by decide) (h b hb)).passes_append_newline
  exact (opening.append inside).append_inks (inks_singleton (by decide))

theorem inks_docComment_map (hx : x.IsTidy) {blocks : List DocBlock}
    (unbroken : ∀ b ∈ blocks, b.outline.AllNodes fun n => n.isUnbroken) :
    Inks (docComment (blocks.map (DocBlock.emit x))) := by
  refine inks_docComment fun ts hts => ?_
  obtain ⟨b, hb, rfl⟩ := List.mem_map.mp hts
  exact b.keeps_emit hx (unbroken b hb)

theorem Javadoc.inks_emit (hx : x.IsTidy) {j : Javadoc}
    (unbroken : j.outline.AllNodes fun n => n.isUnbroken) : Inks (j.emit x) := by
  simp only [outline, Outline.allNodes_node, Outline.eachNodes_cons,
    Outline.allNodes_ofList] at unbroken
  exact (hx.inline j.handle).passes.append_inks (inks_docComment_map hx unbroken.2.1)

theorem passes_emitJavadoc (hx : x.IsTidy) {j : Option Javadoc}
    (unbroken : ∀ j' ∈ j.toList, j'.outline.AllNodes fun n => n.isUnbroken) :
    Passes (emitJavadoc x j) := by
  cases j with
  | none => exact passes_nil
  | some j => exact (j.inks_emit hx (unbroken j (by simp))).passes_append_newline

/-! ### Code -/

theorem InfixOperator.isInline_symbol (op : InfixOperator) :
    (Token.operator op.symbol).isInline = true := by
  cases op <;> decide

/-- Whether trees of a category need not write anything that can be seen. -/
def Category.isLoose : Category → Bool
  | .expression | .expressionList | .forInitializer => true
  | .listOf c | .optional c => c.isLoose
  | _ => false

namespace Tree

variable {c : Category}

/-- Each node of a tree can stand on every line, and ends behind text unless it is an expression. -/
def Lined (x : EmitContext) (t : Tree c) : Prop :=
  ∀ p, SteadyEach (t.emit x p) ∧ (c.isLoose = false → InksEach (t.emit x p))

variable {t : Tree c}

theorem Lined.steadyEach (h : t.Lined x) (p : Precedence) : SteadyEach (t.emit x p) :=
  (h p).1

theorem Lined.inksEach (h : t.Lined x) (sort : c.isLoose = false) (p : Precedence) :
    InksEach (t.emit x p) :=
  (h p).2 sort

theorem Lined.of_steadyEach (sort : c.isLoose = true) (h : ∀ p, SteadyEach (t.emit x p)) :
    t.Lined x := by
  intro p
  refine ⟨h p, fun firm => ?_⟩
  rw [sort] at firm
  cases firm

theorem Lined.of_inksEach (h : ∀ p, InksEach (t.emit x p)) : t.Lined x :=
  fun p => ⟨(h p).steadyEach, fun _ => h p⟩

/-- What is written for a tree that only says that another one belongs to a larger category. -/
theorem Lined.of_emit_eq {d : Category} {u : Tree d} (h : u.Lined x)
    (sort : c.isLoose = false → d.isLoose = false) (same : ∀ p, t.emit x p = u.emit x p) :
    t.Lined x := by
  intro p
  rw [same]
  exact ⟨(h p).1, fun firm => (h p).2 (sort firm)⟩

theorem lined_nil : (nil : Tree (.listOf c)).Lined x := by
  intro p
  simp [emit, SteadyEach, InksEach]

theorem lined_absent : (absent : Tree (.optional c)).Lined x := by
  intro p
  simp [emit, SteadyEach, InksEach]

theorem lined_cons {ts : Tree (.listOf c)} (h : t.Lined x) (h' : ts.Lined x) :
    (cons t ts).Lined x := by
  intro p
  rw [emit]
  exact ⟨(h p).1.append (h' p).1, fun firm => ((h p).2 firm).append ((h' p).2 firm)⟩

theorem lined_literal (hx : x.IsTidy) {h : Handle} {token : String} {nonempty : token ≠ ""}
    (unbroken : '\n' ∉ token.toList) : (literal h token nonempty).Lined x := by
  refine .of_steadyEach rfl fun p => ?_
  rw [emit, steadyEach_singleton]
  exact (hx.inline h).append (steady_singleton (Token.isInline_word.mpr unbroken))

theorem lined_assignment (hx : x.IsTidy) {h : Handle} {left right : Expression}
    {op : InfixOperator} (hl : left.Lined x) (hr : right.Lined x) :
    (assignmentExpression h left op right).Lined x := by
  refine .of_steadyEach rfl fun p => ?_
  rw [emit, steadyEach_singleton]
  refine (hx.inline h).append ?_
  split
  · next symbol spelled =>
    have inline : (Token.operator symbol).isInline = true := by
      cases op <;> cases spelled <;> decide
    exact steady_wrapped (.append (steady_joined (hl.steadyEach _))
      (.cons inline (steady_joined (hr.steadyEach _))))
  · exact steady_singleton (by cases op <;> decide)

theorem lined_localVariables (hx : x.IsTidy) {h : Handle} {modifiers : Tree (.listOf .attribute)}
    {type : Ty} {first : Tree .variableDeclarator} {rest : Tree (.listOf .variableDeclarator)}
    (hm : modifiers.Lined x) (hf : first.Lined x) (hr : rest.Lined x) :
    (localVariableDeclaration h modifiers type first rest).Lined x := by
  refine .of_inksEach fun p => ?_
  rw [emit, inksEach_singleton]
  have front := (steady_attributes (hm.inksEach rfl .lowest)).passes.append_inks (type.inks_emit hx)
  have declarators := (hf.steadyEach .lowest).append (hr.steadyEach .lowest)
  exact front.append_keeps (steady_separated declarators).keeps

section

variable {h : Handle} {loop : Statement} {condition : Expression}

theorem lined_do (hx : x.IsTidy) (hl : loop.Lined x) (hc : condition.Lined x) :
    (doStatement h loop condition).Lined x := by
  refine .of_inksEach fun p => ?_
  simp only [emit, inksEach_singleton, List.append_assoc, List.cons_append]
  have tested := inks_header "while" (by decide) (steady_joined (hc.steadyEach .lowest))
  have semicolon : Keeps [.mark .semicolon] := by decide
  have ended := tested.append_keeps semicolon
  refine (hx.ownLine h).passes.append_inks (inks_cons (by decide) ?_)
  refine (keeps_body (hl.inksEach rfl .lowest)).append ?_
  -- the loop ends behind text, so it may be followed by a space or by the end of the line
  split
  · exact (Inks.cons (by decide) ended).steady.keeps
  · exact ended .afterText

/-- A keyword with what it tests, and a body. -/
theorem inks_loop (hx : x.IsTidy) {keyword : String} {ts : List Token}
    (word : (Token.word keyword).isInline = true) (tested : Steady ts) (hl : loop.Lined x) :
    Inks (x.attached h .ownLine ++ (header keyword ts ++ body (loop.emit x .lowest))) :=
  (hx.ownLine h).passes.append_inks
    ((inks_header keyword word tested).append_keeps (keeps_body (hl.inksEach rfl .lowest)))

theorem lined_while (hx : x.IsTidy) (hc : condition.Lined x) (hl : loop.Lined x) :
    (whileStatement h condition loop).Lined x := by
  refine .of_inksEach fun p => ?_
  simp only [emit, inksEach_singleton, List.append_assoc]
  exact inks_loop hx (by decide) (steady_joined (hc.steadyEach .lowest)) hl

theorem lined_enhancedFor (hx : x.IsTidy) {parameter : Tree .formalParameter} {values : Expression}
    (hp : parameter.Lined x) (hv : values.Lined x) (hl : loop.Lined x) :
    (enhancedForStatement h parameter values loop).Lined x := by
  refine .of_inksEach fun p => ?_
  simp only [emit, inksEach_singleton, List.append_assoc]
  have inside := (steady_joined (hp.steadyEach .lowest)).append
    (.cons (t := .operator ":") (by decide) (steady_joined (hv.steadyEach .lowest)))
  exact inks_loop hx (by decide) inside hl

theorem lined_for (hx : x.IsTidy) {start : Tree (.optional .forInitializer)}
    {test : Tree (.optional .expression)} {update : Tree (.optional .expressionList)}
    (hs : start.Lined x) (ht : test.Lined x) (hu : update.Lined x) (hl : loop.Lined x) :
    (forStatement h start test update loop).Lined x := by
  refine .of_inksEach fun p => ?_
  simp only [emit, inksEach_singleton, List.append_assoc]
  have second := steady_after (t := .space) (by decide) (ht.steadyEach .lowest)
  have third := steady_after (t := .space) (by decide) (hu.steadyEach .lowest)
  have inside := (steady_joined (hs.steadyEach .lowest)).append
    (.cons (t := .mark .semicolon) (by decide)
      (second.append (.cons (t := .mark .semicolon) (by decide) third)))
  exact inks_loop hx (by decide) inside hl

theorem lined_if (hx : x.IsTidy) {yes : Statement} {no : Tree (.optional .statement)}
    (hc : condition.Lined x) (hy : yes.Lined x) (hn : no.Lined x) :
    (ifStatement h condition yes no).Lined x := by
  refine .of_inksEach fun p => ?_
  simp only [emit, inksEach_singleton, List.append_assoc]
  have tested := inks_header "if" (by decide) (steady_joined (hc.steadyEach .lowest))
  exact (hx.ownLine h).passes.append_inks (tested.append_keeps
    (keeps_branches (hy.inksEach rfl .lowest) (hn.inksEach rfl .lowest)))

end

/-- A block is one node. -/
theorem emit_block_ne_nil (t : Block) (p : Precedence) : t.emit x p ≠ [] := by
  cases t
  simp [emit]

theorem emit_classDeclaration_ne_nil (t : Tree .classDeclaration) (p : Precedence) :
    t.emit x p ≠ [] := by
  cases t
  simp [emit]

/-- What stands in front of a declaration: comments, documentation and annotations on lines of their
own, and modifiers. -/
theorem inks_declaration (hx : x.IsTidy) {h : Handle} {javadoc : Option Javadoc}
    {modifiers : Tree (.listOf .attribute)} {ts : List Token}
    (unbroken : ∀ j ∈ javadoc.toList, j.outline.AllNodes fun n => n.isUnbroken)
    (hm : modifiers.Lined x) (h' : Inks ts) :
    Inks (x.attached h .ownLine ++ (emitJavadoc x javadoc ++
      (attributes true (modifiers.emit x .lowest) ++ ts))) := by
  have attributes := (passes_attributes (hm.inksEach rfl .lowest)).append_inks h'
  exact (hx.ownLine h).passes.append_inks ((passes_emitJavadoc hx unbroken).append_inks attributes)

theorem isInk_try : (Token.word "try").isInk = true := by
  decide

-- The rules below are chosen by the name of a group of tokens and by what is said of it, so neither
-- is unfolded.
seal Inks InksEach SteadyEach Lined Outline.AllNodes Token.isInline emit joined separated
  parenthesized bracketed braced indentedBraces emptyBrackets wrapped header lines body branches
  switchLines after qualifying attributes members enumBody typeClause emitTarget emitTypeQualifier
  emitJavadoc typeParameters leadingParameters typeArguments invocationArguments SimpleName.emit
  Name.emit NamedType.emit Ty.emit Modifier.emit in
/-- **Code ends lines behind text.** -/
theorem lined (hx : x.IsTidy) {t : Tree c} (unbroken : t.outline.AllNodes fun n => n.isUnbroken) :
    t.Lined x := by
  -- The condition on a node splits into one on the node itself and one on each of its fields.
  induction t
  all_goals
    simp only [outline, Outline.allNodes_node, Outline.allNodes_list, Outline.eachNodes_cons,
      Outline.eachNodes_nil, Outline.allNodes_ofOption, Outline.allNodes_ofList,
      Outline.allNodes_ofChoice, Outline.allNodes_text, Outline.allNodes_flag,
      Outline.allNodes_count, eachNodes_elements, and_true, true_and] at unbroken
  case nil => exact lined_nil
  case cons iht ihts => exact lined_cons (iht unbroken.1) (ihts unbroken.2)
  case absent => exact lined_absent
  case present ih | headerExpressions ih => exact (ih unbroken).of_emit_eq id fun p => by rw [emit]
  case initializerExpression ih | annotated ih | blockStatement ih | classType ih | typeMember ih =>
    exact (ih unbroken).of_emit_eq (fun _ => rfl) fun p => by rw [emit]
  case literal => exact lined_literal hx (by simpa [Outline.isUnbroken] using unbroken)
  case assignmentExpression ihl ihr =>
    exact lined_assignment hx (ihl unbroken.2.1) (ihr unbroken.2.2)
  case localVariableDeclaration ihm ihf ihr =>
    exact lined_localVariables hx (ihm unbroken.2.1) (ihf unbroken.2.2.2.1)
      (ihr unbroken.2.2.2.2)
  case doStatement ihl ihc => exact lined_do hx (ihl unbroken.2.1) (ihc unbroken.2.2)
  case whileStatement ihc ihl => exact lined_while hx (ihc unbroken.2.1) (ihl unbroken.2.2)
  case enhancedForStatement ihp ihv ihl =>
    exact lined_enhancedFor hx (ihp unbroken.2.1) (ihv unbroken.2.2.1) (ihl unbroken.2.2.2)
  case forStatement ihs iht ihu ihl =>
    exact lined_for hx (ihs unbroken.2.1) (iht unbroken.2.2.1) (ihu unbroken.2.2.2.1)
      (ihl unbroken.2.2.2.2)
  case ifStatement ihc ihy ihn =>
    exact lined_if hx (ihc unbroken.2.1) (ihy unbroken.2.2.1) (ihn unbroken.2.2.2)
  case nameExpression n =>
    refine .of_steadyEach rfl fun p => ?_
    rw [emit, steadyEach_singleton]
    exact (n.inks_emit hx).steady
  case modifier m =>
    refine .of_inksEach fun p => ?_
    rw [emit, inksEach_singleton]
    exact m.inks_emit hx
  case localClassDeclaration h t ih =>
    refine .of_inksEach fun p => ?_
    rw [emit, inksEach_singleton]
    exact (hx.ownLine h).passes.append_inks
      (inks_joined ((ih unbroken.2).inksEach rfl .lowest) (t.emit_classDeclaration_ne_nil .lowest))
  case initializerDeclaration t ihm ihb =>
    refine .of_inksEach fun p => ?_
    simp only [emit, inksEach_singleton, List.append_assoc]
    obtain ⟨-, javadoc, modifiers, inner⟩ := unbroken
    exact inks_declaration hx javadoc (ihm modifiers)
      (inks_joined ((ihb inner).inksEach rfl .lowest) (t.emit_block_ne_nil .lowest))
  all_goals repeat casesm _ ∧ _
  -- The other kinds are put together from groups that have rules of their own.
  case arrayAccessExpression | arrayCreationExpression | castExpression
      | classInstanceCreationExpression | classLiteral | conditionalExpression
      | fieldAccessExpression | infixExpression | instanceofExpression
      | methodInvocationExpression | parenthesizedExpression | postfixExpression | superReference
      | thisReference | unaryExpression | headerVariables | statementExpressionList =>
    refine .of_steadyEach rfl fun p => ?_
    simp only [emit, steadyEach_singleton]
    apply_rules only [*, hx.inline, Lined.steadyEach, SteadyEach.append, steady_joined,
      steady_separated, steady_emptyBrackets, steady_wrapped, steady_after, steady_qualifying,
      steady_typeArguments, steady_invocationArguments, steady_emitTypeQualifier,
      steady_flatMap_bracketed, steady_ite, Steady.append, Steady.cons, steady_nil, Inks.steady,
      inks_parenthesized, inks_bracketed, SimpleName.inks_emit, Ty.inks_emit,
      Token.isInline_mark, Token.isInline_sign, InfixOperator.isInline_symbol]
    all_goals decide +kernel
  case arrayInitializer | classBody | annotationElement | annotationMarker | annotationNormal
      | annotationSingleElement | formalParameterDeclaration | variableDeclarator | block
      | catchClause =>
    refine .of_inksEach fun p => ?_
    simp only [emit, inksEach_singleton]
    refine Steady.inks ?_ ?_
    · apply_rules only [*, hx.inline, Lined.steadyEach, Lined.inksEach, steady_joined,
        steady_separated, steady_emptyBrackets, steady_after, steady_attributes, steady_ite,
        Steady.append, Steady.cons, steady_nil, Inks.steady, inks_parenthesized, inks_braced,
        inks_members, inks_header, inks_indentedBraces_lines, SimpleName.inks_emit,
        NamedType.inks_emit, Ty.inks_emit]
      all_goals decide +kernel
    · simp [braced, parenthesized, members, indentedBraces, header, SimpleName.emit,
        SimpleName.isInk_token]
  case alternateConstructorInvocation | assertStatement | breakStatement | continueStatement
      | emptyStatement | expressionStatement | labeledStatement | variablesStatement
      | returnStatement | superConstructorInvocation | switchCaseLabel | switchDefaultLabel
      | switchStatement | synchronizedStatement | throwStatement | tryStatement =>
    refine .of_inksEach fun p => ?_
    simp only [emit, inksEach_singleton, List.append_assoc]
    refine (hx.ownLine _).passes.append_inks (Steady.inks ?_ ?_)
    · apply_rules only [*, Lined.steadyEach, Lined.inksEach, steady_joined, steady_separated,
        steady_after, steady_qualifying, steady_invocationArguments, steady_emitTarget,
        steady_flatMap_append, Steady.append, Steady.cons, steady_nil, Inks.steady,
        inks_parenthesized, inks_header, inks_indentedBraces_switchLines, SimpleName.inks_emit]
      all_goals decide +kernel
    · simp [parenthesized, indentedBraces, header, isInk_try]
  case classDeclaration | interfaceDeclaration | enumDeclaration | annotationDeclaration
      | enumConstantDeclaration | fieldDeclaration | methodDeclaration | constructorDeclaration
      | annotationElementDeclaration =>
    refine .of_inksEach fun p => ?_
    simp only [emit, inksEach_singleton, List.append_assoc]
    refine inks_declaration hx ?_ ?_ (Steady.inks ?_ ?_)
    · assumption
    · apply_assumption
      assumption
    · apply_rules only [*, Lined.steadyEach, Lined.inksEach, SteadyEach.append, steady_joined,
        steady_separated, steady_after, steady_emptyBrackets, steady_typeParameters,
        steady_leadingParameters, steady_typeClause, steady_ite, steady_flatMap_append,
        Steady.append, Steady.cons, steady_nil, Inks.steady, inks_parenthesized, inks_members,
        inks_enumBody, SimpleName.inks_emit, Ty.inks_emit]
      all_goals decide +kernel
    · simp [parenthesized, members, enumBody, indentedBraces, SimpleName.emit,
        SimpleName.isInk_token]

end Tree

/-! ### Units -/

theorem Comment.inks_emit (hx : x.IsTidy) {m : Comment}
    (unbroken : m.outline.AllNodes fun n => n.isUnbroken) : Inks (m.emit x) := by
  cases m with
  | block h s =>
    have own : '\n' ∉ s.toList := by simpa [outline, Outline.isUnbroken] using unbroken
    have front : (Token.raw ("/*" ++ s)).isInk = true := Token.isInk_raw_append (by decide) own
    exact (hx.inline h).passes.append_inks
      (inks_singleton (Token.isInk_raw_append front (by decide)))
  | line h s =>
    have own : '\n' ∉ s.toList := by simpa [outline, Outline.isUnbroken] using unbroken
    exact (hx.inline h).passes.append_inks
      (inks_singleton (Token.isInk_raw_append (by decide) own))
  | javadoc j => exact j.inks_emit hx unbroken

theorem PackageDeclaration.inks_emit (hx : x.IsTidy) {p : PackageDeclaration}
    (unbroken : p.outline.AllNodes fun n => n.isUnbroken) : Inks (p.emit x) := by
  simp only [outline, Outline.allNodes_node, Outline.eachNodes_cons, Outline.allNodes_ofOption,
    Outline.allNodes_ofList] at unbroken
  obtain ⟨-, javadoc, annotations, -⟩ := unbroken
  have each : InksEach (p.annotations.flatMap fun t => t.emit x .lowest) := by
    intro e he
    obtain ⟨t, ht, he⟩ := List.mem_flatMap.mp he
    exact (Tree.lined hx (annotations t ht)).inksEach rfl .lowest e he
  have named : Keeps (p.name.emit x ++ [Token.mark .semicolon]) :=
    (p.name.inks_emit hx).steady.keeps.append (by decide)
  simp only [emit, List.append_assoc]
  refine (hx.ownLine p.handle).passes.append_inks ?_
  refine (passes_emitJavadoc hx javadoc).append_inks ((passes_lines each).append_inks ?_)
  exact inks_cons (by decide) named

theorem ImportDeclaration.inks_emit (hx : x.IsTidy) (i : ImportDeclaration) : Inks (i.emit x) := by
  have static : Keeps (if i.kind.isStatic then [.word "static"] else []) := by
    split <;> decide
  have onDemand : Keeps (if i.kind.isOnDemand then [.mark .dot, .mark .star] else []) := by
    split <;> decide
  simp only [emit, List.append_assoc]
  refine (hx.ownLine i.handle).passes.append_inks (inks_cons (by decide) ?_)
  exact static.append ((i.name.inks_emit hx).steady.keeps.append (onDemand.append (by decide)))

/-- **A unit ends behind a line with text**, or is empty. -/
theorem CompilationUnit.exists_run_emit (hx : x.IsTidy) {u : CompilationUnit}
    (unbroken : u.outline.AllNodes fun n => n.isUnbroken) :
    ∃ k, LineKind.run .first (u.emit x) = some k ∧ (k = .first ∨ k = .afterText) := by
  simp only [outline, Outline.allNodes_node, Outline.eachNodes_cons, Outline.allNodes_ofOption,
    Outline.allNodes_ofList] at unbroken
  obtain ⟨-, package, -, types, comments, -⟩ := unbroken
  have comments' : ∀ ts ∈ u.comments.map (Comment.emit x), Inks ts := by
    intro ts hts
    obtain ⟨m, hm, rfl⟩ := List.mem_map.mp hts
    exact m.inks_emit hx (comments m hm)
  have package' : ∀ ts ∈ u.package.toList.map (PackageDeclaration.emit x), Inks ts := by
    intro ts hts
    obtain ⟨p, hp, rfl⟩ := List.mem_map.mp hts
    exact p.inks_emit hx (package p hp)
  have imports' : ∀ ts ∈ u.imports.map (ImportDeclaration.emit x), Inks ts := by
    intro ts hts
    obtain ⟨i, -, rfl⟩ := List.mem_map.mp hts
    exact i.inks_emit hx
  have types' : InksEach (u.types.flatMap fun t => t.emit x .lowest) := by
    intro e he
    obtain ⟨t, ht, he⟩ := List.mem_flatMap.mp he
    exact (Tree.lined hx (types t ht)).inksEach rfl .lowest e he
  obtain ⟨k, attached, start⟩ : ∃ k, LineKind.run .first (x.attached u.handle .ownLine) = some k ∧
      (k = .first ∨ k = .afterText) :=
    (hx.ownLine u.handle .first).elim (fun ran => ⟨_, ran, .inl rfl⟩) fun ran => ⟨_, ran, .inr rfl⟩
  simp only [emit, LineKind.run_append, attached, Option.bind_some]
  rw [run_sectionLines comments', Option.bind_some, run_sectionLines package', Option.bind_some,
    run_sectionLines imports', Option.bind_some, run_memberLines types']
  · refine ⟨_, rfl, ?_⟩
    split_ifs <;> simp [start]
  -- where a section comes behind an empty line, there is text in front of it
  · cases u.imports <;> cases u.package <;> cases u.comments <;> simp
  · cases u.package <;> cases u.comments <;> simp
  · cases u.comments <;> simp
  · simp

end

end JavaSource
