import JavaSource.Proofs.Emission.Span

/-!
# Where attachments are written

Every node of a tree is written with its attachments in front of it, except where `Outline.shown`
leaves it out, and whatever else its tokens are, they do not depend on the attachments
(`Tree.placesEach_emit` for code, `Node.places_emit` for nodes of all kinds).
-/

namespace JavaSource

/-! ### Names and types -/

theorem SimpleName.places_emit (n : SimpleName) :
    Places (fun x => n.emit x) (n.outline.shown none) := by
  have own := (places_tokens [.word n.token]).alone (.name (.simple n)) .inline rfl fun _ => rfl
  exact own.congr (by simp [outline])

@[simp] theorem SimpleName.shown_outline (n : SimpleName) (k : Kind) :
    n.outline.shown (some k) = n.outline.shown none := by
  simp [outline]

@[simp] theorem Name.shown_outline (n : Name) (k : Kind) :
    n.outline.shown (some k) = n.outline.shown none := by
  cases n <;> simp [outline]

theorem Name.places_emit (n : Name) : Places (fun x => n.emit x) (n.outline.shown none) := by
  induction n with
  | simple n => exact n.places_emit
  | qualified h q n ih =>
    have parts := ih.append (n.places_emit.cons (.mark .dot))
    have own := parts.alone (.name (.qualified h q n)) .inline rfl fun x => by
      simp [Node.emit, emit]
    exact own.congr (by simp [outline])

@[simp] theorem NamedType.shown_outline (t : NamedType) (k : Kind) :
    t.outline.shown (some k) = t.outline.shown none := by
  simp [outline]

theorem NamedType.places_emit (t : NamedType) :
    Places (fun x => t.emit x) (t.outline.shown none) := by
  have own := t.name.places_emit.alone (.type (.named t)) .inline rfl fun _ => rfl
  exact own.congr (by simp [outline])

@[simp] theorem Outline.shown_arrayType {around : Option Kind}
    (h : around ≠ some .arrayCreationExpression) (own : Handle) (fs : List Outline) :
    (node .arrayType own fs).shown around =
      .node .arrayType own fs :: fs.flatMap (shown (some .arrayType)) := by
  refine shown_node_of_not_hides ?_ (by simp) (by simp) own fs
  cases around with
  | none => rfl
  | some k => cases k <;> first | rfl | exact absurd rfl h

@[simp] theorem Ty.shown_outline {k : Kind} (hk : k ≠ .arrayCreationExpression) (t : Ty) :
    t.outline.shown (some k) = t.outline.shown none := by
  cases t with
  | wildcard h d b => cases b <;> simp [outline]
  | named t => simp [outline]
  | _ => simp [outline, hk]

theorem Ty.places_emit (t : Ty) : Places (fun x => t.emit x) (t.outline.shown none) := by
  induction t with
  | array h c ih =>
    have own := (ih.concat (emptyBrackets 1)).alone (.type (.array h c)) .inline rfl fun x => by
      simp [Node.emit, emit]
    exact own.congr (by simp [outline])
  | basic h k =>
    have own := (places_tokens [.word k.keyword]).alone (.type (.basic h k)) .inline rfl
      fun _ => rfl
    exact own.congr (by simp [outline])
  | named t => exact t.places_emit
  | parameterized h b f r ihb ihf ihr =>
    have arguments : Places (fun x => angled ((f :: r).map (emit x)))
        ((f :: r).flatMap fun t => t.outline.shown none) :=
      places_angled (List.forall_mem_cons.mpr ⟨ihf, ihr⟩)
    have own := (ihb.append arguments).alone (.type (.parameterized h b f r)) .inline rfl
      fun x => by simp [Node.emit, emit]
    exact own.congr (by simp [outline, List.flatMap_map])
  | qualified h q n ih =>
    have parts := ih.append (n.places_emit.cons (.mark .dot))
    have own := parts.alone (.type (.qualified h q n)) .inline rfl fun x => by
      simp [Node.emit, emit]
    exact own.congr (by simp [outline])
  | wildcard h d b ih =>
    have direction := places_tokens (.word "?" :: (d.keyword.map Token.word).toList)
    cases b with
    | none =>
      have own := direction.alone (.type (.wildcard h d none)) .inline rfl fun x => by
        simp [Node.emit, emit]
      exact own.congr (by simp [outline])
    | some b =>
      have parts := direction.append (ih b rfl)
      have own := parts.alone (.type (.wildcard h d (some b))) .inline rfl fun x => by
        simp [Node.emit, emit]
      exact own.congr (by simp [outline])

/-! ### Documentation -/

theorem places_emitOptional (t : Option Ty) :
    Places (fun x => emitOptional x t) (t.toList.flatMap fun t => t.outline.shown none) := by
  cases t with
  | none => exact places_tokens []
  | some t => simpa [emitOptional] using t.places_emit

@[simp] theorem DocParameter.shown_outline (p : DocParameter) (k : Kind) :
    p.outline.shown (some k) = p.outline.shown none := by
  simp [outline]

theorem DocParameter.places_emit (p : DocParameter) :
    Places (fun x => p.emit x) (p.outline.shown none) := by
  obtain ⟨h, t, n, variableArity⟩ := p
  have front := t.places_emit.concat (if variableArity then [.mark .ellipsis] else [])
  cases n with
  | none =>
    have own := front.alone (.docParameter ⟨h, t, none, variableArity⟩) .inline rfl fun x => by
      simp [Node.emit, emit]
    exact own.congr (by simp [outline])
  | some n =>
    have parts := front.append (n.places_emit.cons .space)
    have own := parts.alone (.docParameter ⟨h, t, some n, variableArity⟩) .inline rfl fun x => by
      simp [Node.emit, emit]
    exact own.congr (by simp [outline])

/-- A reference to a field, behind what is attached to it. -/
theorem places_docField (t : Option Ty) (n : SimpleName) :
    Places (fun x => emitOptional x t ++ .mark .hash :: n.emit x)
      ((t.toList.flatMap fun t => t.outline.shown none) ++ n.outline.shown none) :=
  (places_emitOptional t).append (n.places_emit.cons (.mark .hash))

namespace DocElement

theorem places_field (h : Handle) (t : Option Ty) (n : SimpleName) :
    Places (fun x => (field h t n).emit x) ((field h t n).outline.shown none) := by
  have own := (places_docField t n).alone (.docElement (.field h t n)) .inline rfl fun x => by
    simp [Node.emit, emit]
  exact own.congr (by simp [outline])

theorem places_method (h : Handle) (t : Option Ty) (n : SimpleName) (ps : List DocParameter) :
    Places (fun x => (method h t n ps).emit x) ((method h t n ps).outline.shown none) := by
  have parameters : Places (fun x => parenthesized (commaSeparated (ps.map (DocParameter.emit x))))
      (ps.flatMap fun p => p.outline.shown none) :=
    (places_commaSeparated fun p _ => p.places_emit).parenthesized
  have own := ((places_docField t n).append parameters).alone (.docElement (.method h t n ps))
    .inline rfl fun x => by simp [Node.emit, emit]
  exact own.congr (by simp [outline])

@[simp] theorem shown_text_inside (h : Handle) (s : String) :
    (text h s).outline.shown (some .docBlock) = [] := by
  simp [outline, Outline.shown, Kind.hides]

theorem shown_block (h : Handle) (tag : String) (es : List DocElement) (around : Option Kind) :
    (block h tag es).outline.shown around =
      (block h tag es).outline :: es.flatMap fun e => e.outline.shown (some .docBlock) := by
  simp [outline, outlineEach_eq_map, List.flatMap_map]

theorem places_emitAll {es : List DocElement}
    (h : ∀ e ∈ es, Places (fun x => e.emitInside x) (e.outline.shown (some .docBlock))) :
    Places (fun x => emitAll x es) (es.flatMap fun e => e.outline.shown (some .docBlock)) := by
  have each : ∀ x, emitAll x es = es.flatMap (emitInside x) := by
    intro x
    clear h
    induction es with
    | nil => rfl
    | cons e es ih => rw [emitAll, ih, List.flatMap_cons]
  simp only [each]
  exact places_flatMap h

/-- **Inside a block nothing attached to a text is written.** -/
theorem places_emitInside (e : DocElement) :
    Places (fun x => e.emitInside x) (e.outline.shown (some .docBlock)) := by
  induction e with
  | block h tag es ih =>
    have parts := (places_tokens [.raw "\x7b", .raw tag]).append
      ((places_emitAll ih).concat [.raw "\x7d"])
    have own := parts.node (.innerBlock h tag es) .inline fun x => by
      simp [Occurrence.emit, Occurrence.handle, Occurrence.outline, emitInside, outline,
        Outline.handle]
    rw [shown_block]
    simpa [Occurrence.emit, Occurrence.outline, emitInside] using own.cons .space
  | field h t n =>
    simpa [outline, emit, emitInside] using (places_field h t n).cons .space
  | method h t n ps =>
    simpa [outline, emit, emitInside] using (places_method h t n ps).cons .space
  | text h s =>
    rw [shown_text_inside]
    exact places_tokens (docText s)
  | name n => simpa [outline, emitInside] using n.places_emit.cons .space
  | type t => simpa [outline, emitInside] using t.places_emit.cons .space

end DocElement

@[simp] theorem DocBlock.shown_outline (b : DocBlock) (k : Kind) :
    b.outline.shown (some k) = b.outline.shown none := by
  simp [outline, toElement, DocElement.shown_block]

theorem DocBlock.places_emit (b : DocBlock) :
    Places (fun x => b.emit x) (b.outline.shown none) := by
  have parts := (places_tokens (if b.tag = "" then [] else [.raw b.tag])).append
    (DocElement.places_emitAll fun e (_ : e ∈ b.elements) => e.places_emitInside)
  have own := parts.alone (.docElement b.toElement) .inline rfl fun x => by
    simp [Node.emit, toElement, DocElement.emit, emit]
  exact own.congr (DocElement.shown_block b.handle b.tag b.elements none).symm

theorem DocElement.places_emit (e : DocElement) :
    Places (fun x => e.emit x) (e.outline.shown none) := by
  cases e with
  | block h tag es => exact DocBlock.places_emit ⟨h, tag, es⟩
  | field h t n => exact places_field h t n
  | method h t n ps => exact places_method h t n ps
  | text h s =>
    have own := (places_tokens (docText s)).alone (.docElement (.text h s)) .inline rfl fun _ => rfl
    exact own.congr (by simp [outline, Outline.shown_node_of_not_hides])
  | name n => exact n.places_emit
  | type t => exact t.places_emit

@[simp] theorem Javadoc.shown_outline (j : Javadoc) (k : Kind) :
    j.outline.shown (some k) = j.outline.shown none := by
  simp [outline]

theorem Javadoc.places_emit (j : Javadoc) : Places (fun x => j.emit x) (j.outline.shown none) := by
  have blocks : Places (fun x => j.blocks.flatMap fun b =>
      .raw " * " :: (b.emit x ++ [Token.newline]))
      (j.blocks.flatMap fun b => b.outline.shown none) :=
    places_flatMap fun b _ => (b.places_emit.concat [.newline]).cons (.raw " * ")
  have parts := (places_tokens [.raw "/**", .newline]).append (blocks.concat [.raw " */"])
  have own := parts.alone (.comment (.javadoc j)) .inline rfl fun x => by
    simp [Node.emit, Comment.emit, emit, docComment, List.flatMap_map]
  exact own.congr (by simp [outline])

theorem Comment.places_emit (m : Comment) : Places (fun x => m.emit x) (m.outline.shown none) := by
  cases m with
  | block h s =>
    have own := (places_tokens [.raw ("/*" ++ s ++ "*/")]).alone (.comment (.block h s)) .inline rfl
      fun _ => rfl
    exact own.congr (by simp [outline])
  | line h s =>
    have own := (places_tokens [.raw ("//" ++ s)]).alone (.comment (.line h s)) .inline rfl
      fun _ => rfl
    exact own.congr (by simp [outline])
  | javadoc j => exact j.places_emit

@[simp] theorem Comment.shown_outline (m : Comment) (k : Kind) :
    m.outline.shown (some k) = m.outline.shown none := by
  cases m <;> simp [outline]

theorem places_emitJavadoc (j : Option Javadoc) :
    Places (fun x => emitJavadoc x j) (j.toList.flatMap fun j => j.outline.shown none) := by
  cases j with
  | none => exact places_tokens []
  | some j => simpa [emitJavadoc] using j.places_emit.concat [.newline]

/-! ### Parts of code -/

@[simp] theorem Modifier.shown_outline (m : Modifier) (k : Kind) :
    m.outline.shown (some k) = m.outline.shown none := by
  simp [outline]

theorem Modifier.places_emit (m : Modifier) :
    Places (fun x => m.emit x) (m.outline.shown none) := by
  have alone : ∀ x, (Node.tree (.modifier m)).emit x = m.emit x := by
    simp [Node.emit, Tree.emit, joined]
  have own := (places_tokens [.word m.kind.keyword]).alone (.tree (.modifier m)) .inline rfl alone
  simp only [alone] at own
  exact own.congr (by simp [outline])

@[simp] theorem TypeParameter.shown_outline (p : TypeParameter) (k : Kind) :
    p.outline.shown (some k) = p.outline.shown none := by
  simp [outline]

theorem TypeParameter.places_emit (p : TypeParameter) :
    Places (fun x => p.emit x) (p.outline.shown none) := by
  obtain ⟨h, n, bounds⟩ := p
  cases bounds with
  | nil =>
    have own := n.places_emit.alone (.typeParameter ⟨h, n, []⟩) .inline rfl fun x => by
      simp [Node.emit, emit]
    exact own.congr (by simp [outline])
  | cons first rest =>
    have others : Places (fun x => rest.flatMap fun t => .operator "&" :: t.emit x)
        (rest.flatMap fun t => t.outline.shown none) :=
      places_flatMap fun t _ => t.places_emit.cons (.operator "&")
    have bounds := (first.places_emit.append others).cons (.word "extends")
    have own := (n.places_emit.append bounds).alone (.typeParameter ⟨h, n, first :: rest⟩) .inline
      rfl fun x => by simp [Node.emit, emit]
    exact own.congr (by simp [outline])

theorem places_typeParameters (ps : List TypeParameter) :
    Places (fun x => typeParameters x ps) (ps.flatMap fun p => p.outline.shown none) :=
  places_angled fun p _ => p.places_emit

theorem places_leadingParameters (ps : List TypeParameter) :
    Places (fun x => leadingParameters x ps) (ps.flatMap fun p => p.outline.shown none) := by
  cases ps with
  | nil => exact places_tokens []
  | cons p ps => exact (places_typeParameters (p :: ps)).concat [.space]

theorem places_typeClause (keyword : String) (ts : List Ty) :
    Places (fun x => typeClause x keyword ts) (ts.flatMap fun t => t.outline.shown none) :=
  places_clause keyword fun t _ => t.places_emit

theorem places_typeArguments (ts : List Ty) :
    Places (fun x => typeArguments x ts) (ts.flatMap fun t => t.outline.shown none) :=
  places_angled fun t _ => t.places_emit

theorem places_invocationArguments (ts : List Ty) :
    Places (fun x => invocationArguments x ts) (ts.flatMap fun t => t.outline.shown none) := by
  cases ts with
  | nil => exact places_tokens []
  | cons t ts => exact (places_typeArguments (t :: ts)).concat [.join]

theorem places_emitTarget (n : Option SimpleName) :
    Places (fun x => emitTarget x n) (n.toList.flatMap fun n => n.outline.shown none) := by
  cases n with
  | none => exact places_tokens []
  | some n => simpa [emitTarget] using n.places_emit

theorem places_emitTypeQualifier (t : Option NamedType) :
    Places (fun x => emitTypeQualifier x t) (t.toList.flatMap fun t => t.outline.shown none) := by
  cases t with
  | none => exact places_tokens []
  | some t => simpa [emitTypeQualifier] using t.places_emit.concat [.mark .dot]

/-- **In an array creation only the innermost component of the type is written with its
attachments.** -/
theorem ArrayType.shown_outline (a : ArrayType) :
    a.toTy.outline.shown (some .arrayCreationExpression) = a.element.outline.shown none := by
  have innermost : ∀ t : Ty, t.outline.shown (some .arrayCreationExpression) =
      t.element.outline.shown none := by
    intro t
    induction t with
    | array h c ih => simpa [Ty.outline, Ty.element, Outline.shown, Kind.hides] using ih
    | wildcard h d b => cases b <;> simp [Ty.outline, Ty.element]
    | named t => simp [Ty.outline, Ty.element]
    | _ => simp [Ty.outline, Ty.element]
  exact innermost a.toTy

/-! ### Code -/

/-- The nodes that trees of a category are written with. What is attached to declared local
variables is written where it is said where the declaration stands. -/
def Category.placed (o : Outline) : Category → List Outline
  | .localVariables => (o.shown none).tail
  | _ => o.shown none

theorem Category.placed_of_ne {c : Category} (h : c ≠ .localVariables) (o : Outline) :
    c.placed o = o.shown none := by
  unfold placed
  split <;> simp_all

theorem Category.placed_subset (c : Category) (o : Outline) : c.placed o ⊆ o.shown none := by
  unfold placed
  split
  · exact (List.tail_sublist _).subset
  · exact List.Subset.refl _

/-- Whether it is always said where local variables of a category stand. -/
def Category.isPlaced : Category → Bool
  | .listOf c | .optional c => c ≠ .localVariables && c.isPlaced
  | _ => true

namespace Tree

variable {c : Category}

/-- Code is never hidden. -/
@[simp] theorem shown_outline (t : Tree c) (k : Kind) :
    t.outline.shown (some k) = t.outline.shown none := by
  have hidden : ∀ {k : Kind}, k.hides .assignmentExpression = false := by
    intro k
    cases k <;> rfl
  have list : ∀ {c : Category} (ts : Tree (.listOf c)),
      ts.outline.shown (some k) = ts.outline.elements.flatMap (Outline.shown (some k)) ∧
      ts.outline.shown none = ts.outline.elements.flatMap (Outline.shown none) := by
    intro c ts
    cases ts <;> simp [outline, Outline.elements]
  induction t with
  | cons t ts ih ih' =>
    rw [(list ts).1, (list ts).2] at ih'
    simp [outline, ih, ih']
  | assignmentExpression => simp [outline, Outline.shown, hidden]
  | _ => simp_all [outline]

theorem flatMap_shown_elements (ts : Tree (.listOf c)) (around : Option Kind) :
    ts.outline.elements.flatMap (Outline.shown around) = ts.outline.shown around := by
  cases ts <;> simp [outline, Outline.elements]

/-- The tokens of a tree are the same in all contexts up to the attachments of its nodes, whatever
strength is demanded. -/
def Placed (t : Tree c) : Prop :=
  ∀ p, PlacesEach (fun x => t.emit x p) (c.placed t.outline)

/-- A node of code, wherever it stands. -/
theorem placesEach_node {t : Tree c} {p : Precedence} (k : Kind) (place : Placement)
    {own : EmitContext → List Token} {os : List Outline}
    (nodes : t.outline.shown none = t.outline :: os)
    (emitted : ∀ x, t.emit x p = [⟨k, x.attached t.outline.handle place ++ own x⟩])
    (parts : Places own os) : PlacesEach (fun x => t.emit x p) (t.outline.shown none) := by
  have whole : ∀ x, (Occurrence.code t p).emit x = x.attached t.outline.handle place ++ own x := by
    intro x
    simp [Occurrence.emit, emitted, joined]
  have written := parts.node (.code t p) place whole
  simp only [whole] at written
  simp only [emitted, nodes]
  exact placesEach_singleton k written

/-! #### Kinds with rules of their own -/

section

variable {h : Handle} {array index left right : Expression} {sizes : Tree (.listOf .expression)}

theorem placed_cons {t : Tree c} {ts : Tree (.listOf c)} (hc : c ≠ .localVariables)
    (ht : t.Placed) (hts : ts.Placed) : (cons t ts).Placed := by
  intro p
  have first := ht p
  rw [Category.placed_of_ne hc] at first
  simpa [emit, outline, Category.placed, flatMap_shown_elements] using first.append (hts p)

theorem placed_present {t : Tree c} (hc : c ≠ .localVariables) (ht : t.Placed) :
    (present t).Placed := by
  intro p
  have given := ht p
  rw [Category.placed_of_ne hc] at given
  exact given

theorem placed_arrayAccess (ha : array.Placed) (hi : index.Placed) :
    (arrayAccessExpression h array index).Placed := by
  intro p
  have whole := (ha .primary).joined
  have parts := ((ha .primary).ite_any .arrayCreationExpression whole.parenthesized whole).append
    (hi .lowest).joined.bracketed
  exact placesEach_node .arrayAccessExpression .inline (by simp [outline, Category.placed])
    (fun _ => rfl) (parts.wrapped .primary p)

theorem placed_arrayCreation {type : ArrayType} {values : Tree (.optional .arrayInitializer)}
    (hs : sizes.Placed) (hv : values.Placed) :
    (arrayCreationExpression h type sizes values).Placed := by
  intro p
  have given : Places (fun x => (sizes.emit x .lowest).flatMap fun e => bracketed e.tokens)
      (sizes.outline.shown none) :=
    (hs .lowest).flatMap (fun _ => [.mark .openBracket]) (fun _ => [.mark .closeBracket])
      fun e => by simp [bracketed]
  have missing := (hs .lowest).emptyBrackets type.dimensions
  have parts := (type.element.places_emit.append (given.append (missing.append
    ((hv .lowest).after .space)))).cons (.word "new")
  refine placesEach_node .arrayCreationExpression .inline ?_
    (fun x => by simp [emit, outline, Outline.handle]) (parts.wrapped .primary p)
  simp [outline, Category.placed, ArrayType.shown_outline]

theorem placed_assignment {op : InfixOperator} (hl : left.Placed) (hr : right.Placed) :
    (assignmentExpression h left op right).Placed := by
  intro p
  cases spelled : op.assignmentSymbol with
  | none =>
    refine placesEach_node .assignmentExpression .inline ?_
      (fun x => by simp [emit, spelled, outline, Outline.handle]) (places_tokens [.rejected op])
    simp [outline, Outline.shown, Outline.invalidOperator?, spelled, Option.filter_some]
  | some symbol =>
    have parts := (hl .primary).joined.append ((hr .assignment).joined.cons (.operator symbol))
    refine placesEach_node .assignmentExpression .inline ?_
      (fun x => by simp [emit, spelled, outline, Outline.handle]) (parts.wrapped .assignment p)
    simp [outline, Category.placed, Outline.shown, Outline.invalidOperator?, spelled,
      Option.filter_some, Kind.arranged]

theorem placed_classInstanceCreation {qualifier : Tree (.optional .expression)}
    {typeArgs : List Ty} {type : Ty} {anonymous : Tree (.optional .classBody)}
    (hq : qualifier.Placed) (hs : sizes.Placed) (hb : anonymous.Placed) :
    (classInstanceCreationExpression h qualifier typeArgs type sizes anonymous).Placed := by
  intro p
  have given : Places
      (fun x => if typeArgs.isEmpty then [] else Token.space :: typeArguments x typeArgs)
      (typeArgs.flatMap fun t => t.outline.shown none) := by
    cases typeArgs with
    | nil => exact places_tokens []
    | cons t ts => exact (places_typeArguments (t :: ts)).cons .space
  have called := type.places_emit.append ((hs .lowest).separated.parenthesized.append
    (hb .lowest).joined)
  have parts := (hq .primary).qualifying.append ((given.append called).cons (.word "new"))
  exact placesEach_node .classInstanceCreationExpression .inline
    (by simp [outline, Category.placed]) (fun x => by simp [emit, outline, Outline.handle])
    (parts.wrapped .primary p)

/-- Declared local variables, whose attachments are written by what says where they stand. -/
theorem placed_localVariables {modifiers : Tree (.listOf .attribute)} {type : Ty}
    {first : Tree .variableDeclarator} {rest : Tree (.listOf .variableDeclarator)}
    (hm : modifiers.Placed) (hf : first.Placed) (hr : rest.Placed) :
    (localVariableDeclaration h modifiers type first rest).Placed := by
  intro p
  have declared := ((hf .lowest).append (hr .lowest)).separated
  have parts := ((hm .lowest).attributes false).append (type.places_emit.append declared)
  simpa [emit, outline, Category.placed, flatMap_shown_elements] using
    placesEach_singleton .localVariableDeclaration parts

theorem shown_localVariables (t : Tree .localVariables) :
    t.outline.shown none = t.outline :: Category.placed t.outline .localVariables := by
  cases t
  simp [outline, Category.placed]

theorem handle_localVariables (t : Tree .localVariables) :
    t.outline.handle = t.variablesHandle := by
  cases t
  rfl

theorem placed_headerVariables {t : Tree .localVariables} (ht : t.Placed) :
    (headerVariables t).Placed := by
  intro p
  refine placesEach_node .localVariableDeclaration .inline (shown_localVariables t) (fun x => ?_)
    (ht .lowest).joined
  rw [outline, handle_localVariables]
  rfl

theorem placed_variablesStatement {t : Tree .localVariables} (ht : t.Placed) :
    (variablesStatement t).Placed := by
  intro p
  refine placesEach_node .localVariableDeclaration .ownLine (shown_localVariables t) (fun x => ?_)
    ((ht .lowest).joined.concat [.mark .semicolon])
  rw [outline, handle_localVariables]
  simp [emit]

theorem placed_tryStatement {inner : Tree .block} {catches : Tree (.listOf .catchClause)}
    {last : Tree (.optional .block)} (hi : inner.Placed) (hc : catches.Placed) (hl : last.Placed) :
    (tryStatement h inner catches last).Placed := by
  intro p
  have closing : Places (fun x => (last.emit x .lowest).flatMap fun e =>
      [Token.space, .word "finally", .space] ++ e.tokens) (last.outline.shown none) :=
    (hl .lowest).flatMap (fun _ => [.space, .word "finally", .space]) (fun _ => []) (by simp)
  have parts := (places_tokens [.word "try", .space]).append
    ((hi .lowest).joined.append (((hc .lowest).after .space).append closing))
  exact placesEach_node .tryStatement .ownLine (by simp [outline, Category.placed])
    (fun x => by simp [emit, outline, Outline.handle]) parts

theorem placed_annotationElementDeclaration {javadoc : Option Javadoc}
    {modifiers : Tree (.listOf .attribute)} {type : Ty} {name : SimpleName}
    {value : Tree (.optional .expression)} (hm : modifiers.Placed) (hv : value.Placed) :
    (annotationElementDeclaration h javadoc modifiers type name value).Placed := by
  intro p
  have given : Places (fun x => (value.emit x .lowest).flatMap fun e =>
      [Token.word "default", .space] ++ e.tokens) (value.outline.shown none) :=
    (hv .lowest).flatMap (fun _ => [.word "default", .space]) (fun _ => []) (by simp)
  have ending := ((places_tokens (parenthesized [])).append given).concat [.mark .semicolon]
  have parts := (places_emitJavadoc javadoc).append (((hm .lowest).attributes true).append
    (type.places_emit.append (name.places_emit.append ending)))
  exact placesEach_node .annotationElementDeclaration .ownLine
    (by simp [outline, Category.placed]) (fun x => by simp [emit, outline, Outline.handle]) parts

end

-- The rules below are chosen by the name of a group of tokens and by what is said of it, so neither
-- is unfolded.
seal Places PlacesEach emit joined separated parenthesized bracketed braced indentedBraces
  emptyBrackets wrapped header lines body branches switchLines qualifying after attributes members
  enumBody typeClause emitTarget emitTypeQualifier emitJavadoc typeParameters leadingParameters
  invocationArguments SimpleName.emit NamedType.emit Ty.emit in
/-- **The tokens of code have a place for the attachments of each node.** -/
theorem placed (hc : c.isPlaced = true) (t : Tree c) : t.Placed := by
  induction t
  all_goals
    simp only [Category.isPlaced, forall_const, ne_eq, reduceCtorEq, not_false_eq_true, decide_true,
      Bool.and_true, Bool.and_eq_true, decide_eq_true_eq] at *
  case cons iht ihts => exact placed_cons hc.1 (iht hc.2) (ihts hc)
  case present ih => exact placed_present hc.1 (ih hc.2)
  case arrayAccessExpression iha ihi => exact placed_arrayAccess iha ihi
  case arrayCreationExpression ihs ihv => exact placed_arrayCreation ihs ihv
  case assignmentExpression ihl ihr => exact placed_assignment ihl ihr
  case classInstanceCreationExpression ihq iha ihb =>
    exact placed_classInstanceCreation ihq iha ihb
  case localVariableDeclaration ihm ihf ihr => exact placed_localVariables ihm ihf ihr
  case headerVariables ih => exact placed_headerVariables ih
  case variablesStatement ih => exact placed_variablesStatement ih
  case tryStatement ihi ihc ihl => exact placed_tryStatement ihi ihc ihl
  case annotationElementDeclaration ihm ihv => exact placed_annotationElementDeclaration ihm ihv
  all_goals
    intro p
    simp only [Placed, Category.placed] at *
  case nil | absent =>
    simp only [emit]
    exact placesEach_nil
  case nameExpression n =>
    simp only [emit]
    exact placesEach_singleton n.kind n.places_emit
  case modifier m =>
    simp only [emit]
    exact placesEach_singleton .modifier m.places_emit
  case initializerExpression ih | annotated ih | headerExpressions ih | blockStatement ih
      | classType ih | typeMember ih =>
    simp only [emit]
    exact ih p
  -- The nodes of the other kinds are put together from groups that have places themselves.
  all_goals
    apply placesEach_node
    · exact Outline.shown_node (by simp) (by simp) (by simp) (by simp) none _ _
    · intro x
      simp only [emit, outline, Outline.handle, List.append_assoc, List.cons_append,
        List.nil_append]
      rfl
    apply Places.congr
    focus
      apply_rules only [*, Places.append, Places.cons, places_tokens, Places.parenthesized,
        Places.bracketed, Places.braced, Places.indentedBraces, Places.wrapped, Places.header,
        PlacesEach.append, PlacesEach.joined, PlacesEach.separated, PlacesEach.lines,
        PlacesEach.body, PlacesEach.after, PlacesEach.switchLines, PlacesEach.qualifying,
        PlacesEach.attributes, PlacesEach.members, PlacesEach.branches, PlacesEach.enumBody,
        PlacesEach.cons_endsInBrace, PlacesEach.ite_isEmpty, SimpleName.places_emit,
        NamedType.places_emit, Ty.places_emit, places_emitJavadoc, places_typeParameters,
        places_leadingParameters, places_typeClause, places_invocationArguments,
        places_emitTarget, places_emitTypeQualifier]
    simp [flatMap_shown_elements]

theorem placesEach_emit (hc : c.isPlaced = true) (hl : c ≠ .localVariables) (t : Tree c)
    (p : Precedence) : PlacesEach (fun x => t.emit x p) (t.outline.shown none) := by
  have nodes := t.placed hc p
  rwa [Category.placed_of_ne hl] at nodes

/-- In every category, only attachments and empty lines depend on the context. -/
theorem exists_placesEach_emit (t : Tree c) (p : Precedence) :
    ∃ os ⊆ t.outline.shown none, PlacesEach (fun x => t.emit x p) os := by
  induction t with
  | nil | absent => exact ⟨[], List.nil_subset _, placesEach_nil⟩
  | cons t ts iht ihts =>
    obtain ⟨os, sub, first⟩ := iht
    obtain ⟨os', sub', others⟩ := ihts
    refine ⟨os ++ os', ?_, first.append others⟩
    rw [outline, Outline.shown_list, List.flatMap_cons, flatMap_shown_elements]
    exact List.append_subset.mpr ⟨List.subset_append_of_subset_left _ sub,
      List.subset_append_of_subset_right _ sub'⟩
  | present t ih => exact ih
  | _ => exact ⟨_, Category.placed_subset _ _, placed rfl _ p⟩

end Tree

/-! ### Units and nodes -/

theorem PackageDeclaration.places_emit (d : PackageDeclaration) :
    Places (fun x => d.emit x) (d.outline.shown none) := by
  have annotations := (placesEach_flatMap fun t (_ : t ∈ d.annotations) =>
    t.placesEach_emit rfl (by simp) .lowest).lines
  have named := (d.name.places_emit.concat [.mark .semicolon]).cons (.word "package")
  have parts := (places_emitJavadoc d.javadoc).append (annotations.append named)
  have own := parts.alone (.package d) .ownLine rfl fun x => by simp [Node.emit, emit]
  exact own.congr (by simp [outline])

@[simp] theorem PackageDeclaration.shown_outline (d : PackageDeclaration) (k : Kind) :
    d.outline.shown (some k) = d.outline.shown none := by
  simp [outline]

theorem ImportDeclaration.places_emit (i : ImportDeclaration) :
    Places (fun x => i.emit x) (i.outline.shown none) := by
  have ending := places_tokens
    ((if i.kind.isOnDemand then [Token.mark .dot, .mark .star] else []) ++
      [Token.mark .semicolon])
  have parts := (places_tokens (.word "import" :: if i.kind.isStatic then [.word "static"]
    else [])).append (i.name.places_emit.append ending)
  have own := parts.alone (.importing i) .ownLine rfl fun x => by simp [Node.emit, emit]
  exact own.congr (by simp [outline])

@[simp] theorem ImportDeclaration.shown_outline (i : ImportDeclaration) (k : Kind) :
    i.outline.shown (some k) = i.outline.shown none := by
  simp [outline]

theorem places_sectionLines {α : Type} {f : EmitContext → α → List Token} {g : α → List Outline}
    {as : List α} (somethingBefore : Bool) (h : ∀ a ∈ as, Places (f · a) (g a)) :
    Places (fun x => sectionLines somethingBefore (as.map (f x))) (as.flatMap g) := by
  cases as with
  | nil => exact places_tokens []
  | cons a as =>
    have each : Places (fun x => (a :: as).flatMap fun b => f x b ++ [Token.newline])
        ((a :: as).flatMap g) :=
      places_flatMap fun b hb => (h b hb).concat [.newline]
    have parts := (places_tokens (if somethingBefore then [.newline] else [])).append each
    simpa [sectionLines, List.flatMap_map] using parts

theorem CompilationUnit.places_emit (u : CompilationUnit) :
    Places (fun x => u.emit x) (u.outline.shown none) := by
  have comments := places_sectionLines false fun m (_ : m ∈ u.comments) => m.places_emit
  have package : ∀ b, Places
      (fun x => sectionLines b (u.package.toList.map (PackageDeclaration.emit x)))
      (u.package.toList.flatMap fun d => d.outline.shown none) :=
    fun b => places_sectionLines b fun d _ => d.places_emit
  have imports : ∀ b, Places (fun x => sectionLines b (u.imports.map (ImportDeclaration.emit x)))
      (u.imports.flatMap fun i => i.outline.shown none) :=
    fun b => places_sectionLines b fun i _ => i.places_emit
  have always : Places (fun _ => if true then [.newline] else []) [] := places_tokens _
  have types : ∀ b, Places
      (fun x => memberLines true b (u.types.flatMap fun t => t.emit x .lowest))
      (u.types.flatMap fun t => t.outline.shown none) :=
    fun b => (placesEach_flatMap fun t _ =>
      t.placesEach_emit rfl (by simp) .lowest).memberLines always
  let afterComments := !u.comments.isEmpty
  let afterPackage := afterComments || u.package.isSome
  have parts := comments.append ((package afterComments).append ((imports afterPackage).append
    (types (afterPackage || !u.imports.isEmpty))))
  have own := parts.alone (.unit u) .ownLine rfl fun x => by
    simp [Node.emit, emit, afterComments, afterPackage]
  exact own.congr (by simp [outline, Outline.shown, Outline.invalidOperator?, Kind.arranged])

/-- Whether it is said where the local variables of a node stand. -/
def Node.isPlaced : Node → Bool
  | @Node.tree c _ => c ≠ .localVariables && c.isPlaced
  | _ => true

/-- **The tokens of a node have a place for the attachments of each of its nodes.** -/
theorem Node.places_emit {n : Node} (hn : n.isPlaced = true) :
    Places (fun x => n.emit x) (n.outline.shown none) := by
  cases n with
  | name n => exact n.places_emit
  | type t => exact t.places_emit
  | docParameter p => exact p.places_emit
  | docElement e => exact e.places_emit
  | comment m => exact m.places_emit
  | typeParameter p => exact p.places_emit
  | package d => exact d.places_emit
  | importing i => exact i.places_emit
  | unit u => exact u.places_emit
  | tree t =>
    simp only [isPlaced, Bool.and_eq_true, decide_eq_true_eq] at hn
    exact (t.placesEach_emit hn.2 hn.1 .lowest).joined

/-- Only attachments and empty lines depend on the context. -/
theorem Node.exists_places_emit (n : Node) :
    ∃ os ⊆ n.outline.shown none, Places (fun x => n.emit x) os := by
  cases n with
  | tree t =>
    obtain ⟨os, sub, nodes⟩ := t.exists_placesEach_emit .lowest
    exact ⟨os, sub, nodes.joined⟩
  | _ => exact ⟨_, List.Subset.refl _, places_emit rfl⟩

/-- **Emission reads the context only at the nodes that show their attachments.** -/
theorem Node.emit_congr_shown {x y : EmitContext} (blank : x.blankLines = y.blankLines) {n : Node}
    (agree : x.AgreesOn y ((n.outline.shown none).map Outline.handle)) : n.emit x = n.emit y := by
  obtain ⟨os, sub, nodes⟩ := n.exists_places_emit
  exact nodes.agree blank fun h mem => agree h (List.map_subset Outline.handle sub mem)

end JavaSource
