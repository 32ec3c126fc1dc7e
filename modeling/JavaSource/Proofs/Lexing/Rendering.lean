import JavaSource.Proofs.Lexing.Emission

/-!
# The lexemes of a rendered node

The text of a node is cut into exactly the lexemes that its tokens spell, in order
(`Node.lexes_render_iff`): the layout sets apart what would be read as one lexeme, and never breaks
a lexeme. Nothing may be attached to the node, and its tree is cut like code
(`Outline.AllLexical`).
-/

namespace JavaSource

open Edge (any loose closed)

section

variable {b : Bool}

/-! ### Units -/

theorem flowsEach_flatMap_emit {c : Category} {ts : List (Tree c)}
    (lexical : ∀ t ∈ ts, t.outline.AllLexical) :
    FlowsEach (ts.flatMap fun t => t.emit (.bare b) .lowest) := by
  intro e he
  obtain ⟨t, ht, he⟩ := List.mem_flatMap.mp he
  exact (Tree.links (lexical t ht)).flowsEach .lowest e he

theorem PackageDeclaration.flows_emit {p : PackageDeclaration} (lexical : p.outline.AllLexical) :
    Flows (p.emit (.bare b)) := by
  simp only [outline, Outline.allLexical_node, Outline.eachLexical_cons,
    Outline.allLexical_ofOption, Outline.allLexical_ofList] at lexical
  obtain ⟨-, javadoc, annotations, -⟩ := lexical
  have front : Flows (emitJavadoc (.bare b) p.javadoc ++
      lines (p.annotations.flatMap fun t => t.emit (.bare b) .lowest)) :=
    .append (flows_emitJavadoc javadoc) (flows_lines (flowsEach_flatMap_emit annotations))
  exact .append (.append front (.cons (by decide) p.name.closes_emit.flows)) (by decide)

theorem ImportDeclaration.flows_emit (i : ImportDeclaration) : Flows (i.emit (.bare b)) := by
  have keywords : Flows (.word "import" :: if i.kind.isStatic then [.word "static"] else []) :=
    .cons (by decide) (flows_ite (by decide) flows_nil)
  -- a point follows the name directly
  have onDemand : Leads closed (if i.kind.isOnDemand then [.mark .dot, .mark .star] else [])
      closed := by
    cases i.kind.isOnDemand <;> decide
  have semicolon : Leads closed [.mark .semicolon] loose := by decide
  have named := Leads.append keywords (i.name.closes_emit (b := b)).anywhere
  exact (named.append onDemand).append semicolon

/-- Comments are left out. -/
theorem Comment.not_allLexical (m : Comment) : ¬ m.outline.AllLexical := by
  intro lexical
  cases m <;>
    simp only [outline, Javadoc.outline, Outline.allLexical_node] at lexical <;>
    cases lexical.1

theorem flows_sectionLines {somethingBefore : Bool} {parts : List (List Token)}
    (h : ∀ ts ∈ parts, Flows ts) : Flows (sectionLines somethingBefore parts) := by
  cases parts with
  | nil => exact flows_nil
  | cons part parts =>
    refine .append (flows_ite (by decide) flows_nil) (flows_flatMap fun ts hts => ?_)
    exact (h ts hts).append (by decide)

theorem CompilationUnit.flows_emit {u : CompilationUnit} (lexical : u.outline.AllLexical) :
    Flows (u.emit (.bare b)) := by
  simp only [outline, Outline.allLexical_node, Outline.eachLexical_cons,
    Outline.allLexical_ofOption, Outline.allLexical_ofList] at lexical
  obtain ⟨-, package, imports, types, comments, -⟩ := lexical
  have noComments : u.comments = [] :=
    List.eq_nil_iff_forall_not_mem.mpr fun m hm => m.not_allLexical (comments m hm)
  have package' : ∀ ts ∈ u.package.toList.map (PackageDeclaration.emit (.bare b)), Flows ts := by
    intro ts hts
    obtain ⟨p, hp, rfl⟩ := List.mem_map.mp hts
    exact PackageDeclaration.flows_emit (package p hp)
  have imports' : ∀ ts ∈ u.imports.map (ImportDeclaration.emit (.bare b)), Flows ts := by
    intro ts hts
    obtain ⟨i, -, rfl⟩ := List.mem_map.mp hts
    exact i.flows_emit
  simp only [emit, noComments, List.map_nil, sectionLines, EmitContext.bare_attached,
    List.nil_append]
  exact .append (.append (flows_sectionLines package') (flows_sectionLines imports'))
    (flows_memberLines (flowsEach_flatMap_emit types) _)

/-! ### Nodes -/

/-- **The tokens of a node can be written behind each other.** -/
theorem Node.flows_emit {n : Node} (lexical : n.outline.AllLexical) :
    Flows (n.emit (.bare b)) := by
  cases n with
  | name n => exact n.closes_emit.flows
  | type t => exact (Ty.closes_emit lexical).flows
  | docElement e =>
    cases e with
    | name n => exact n.closes_emit.flows
    | type t => exact (Ty.closes_emit lexical).flows
    | _ =>
      simp only [outline, DocElement.outline, Outline.allLexical_node] at lexical
      cases lexical.1
  | docParameter p =>
    simp only [outline, DocParameter.outline, Outline.allLexical_node] at lexical
    cases lexical.1
  | comment m => exact absurd lexical m.not_allLexical
  | typeParameter p => exact absurd lexical p.not_allLexical
  | package p => exact PackageDeclaration.flows_emit lexical
  | importing i => exact i.flows_emit
  | unit u => exact CompilationUnit.flows_emit lexical
  | tree t => exact flows_joined ((Tree.links lexical).flowsEach .lowest)

end

/-- **Rendering neither joins nor splits lexemes.** The text of a node with nothing attached, which
is cut like code, is cut in one way only: into what the tokens of the node spell. -/
theorem Node.lexes_render_iff {notes : Notes} {o : Options} {n : Node} {text : String}
    (bare : notes.Bare n.outline) (lexical : n.outline.AllLexical) (blank : o.IsBlank)
    (rendered : n.render notes o = .ok text) (ls : List String) :
    Lexes text.toList ls ↔ ls = spellings (n.emit (notes.context o.blankLines)) := by
  have flows : Flows (n.emit (notes.context o.blankLines)) := by
    rw [Node.emit_of_bare bare]
    exact Node.flows_emit lexical
  obtain ⟨e, -, follows⟩ := flows .clear (by decide)
  have written := Layout.lexes_of_run blank follows rendered
  constructor
  · intro lexes
    exact lexes.unique written
  · rintro rfl
    exact written

/-- Two signs in front of a number, and a quoted text in front of a point. -/
theorem Node.lexes_render_iff_signs :
    Lexes "return - -1 + \"a b\".length();".toList
      ["return", "-", "-", "1", "+", "\"a b\"", ".", "length", "(", ")", ";"] :=
  (@Node.lexes_render_iff {} {}
    (.tree (.returnStatement none (.present (.infixExpression none
      (.unaryExpression none .minus
        (.unaryExpression none .minus (.literal none "1" (by decide))))
      .plus
      (.methodInvocationExpression none (.present (.literal none "\"a b\"" (by decide))) []
        ⟨none, "length", rfl⟩ .nil))))) _
    (by intro h _; cases h <;> rfl) (by decide) ⟨by decide, by decide, by decide⟩ rfl _).mpr rfl

end JavaSource
