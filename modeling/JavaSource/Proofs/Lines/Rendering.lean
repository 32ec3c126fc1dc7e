import JavaSource.Node
import JavaSource.Proofs.Lines.Emission

/-!
# The lines of a unit

The text of a compilation unit has clean lines, whatever is attached to its nodes
(`CompilationUnit.cleanLines_render`): it ends with one line feed, no line ends with a blank
character, and empty lines stand alone between lines with text. No literal, comment or tag may
contain a line feed of its own (`Notes.Unbroken`).

Documentation that is attached to a node can have notes itself, so the condition is on every tree
that is written with the unit (`Notes.Reaches`), and what is attached to a handle is tidy by
induction on how deep notes are followed (`Notes.Unbroken.tidy_attached`).
-/

namespace JavaSource

/-! ### Contexts that are read at some handles only -/

namespace EmitContext

variable {x : EmitContext} {hs : List Handle}

theorem isTidy_restrict
    (tidy : ∀ h ∈ hs, Steady (x.attached h .inline) ∧ EndsLines (x.attached h .ownLine)) :
    (x.restrict hs).IsTidy where
  inline h := by
    by_cases hh : h ∈ hs
    · simpa [restrict, hh] using (tidy h hh).1
    · simpa [restrict, hh] using steady_nil
  ownLine h := by
    by_cases hh : h ∈ hs
    · simpa [restrict, hh] using (tidy h hh).2
    · simpa [restrict, hh] using endsLines_nil

end EmitContext

/-! ### Notes -/

section

variable {lines : List String} (unbroken : ∀ l ∈ lines, '\n' ∉ l.toList)

include unbroken

theorem notMem_intercalate_space : '\n' ∉ (" ".intercalate lines).toList := by
  rw [String.toList_intercalate]
  cases lines with
  | nil => exact List.not_mem_nil
  | cons l lines =>
    have space : " ".toList = [' '] := rfl
    rw [List.map_cons, space, Text.intercalate_cons, List.flatMap_map]
    simpa using unbroken

theorem steady_emitComment : Steady (emitComment lines .inline) := by
  have joined : (Token.raw ("/* " ++ " ".intercalate lines)).isInk = true :=
    Token.isInk_raw_append (by decide) (notMem_intercalate_space unbroken)
  have closed : (Token.raw ("/* " ++ " ".intercalate lines ++ " */")).isInk = true :=
    Token.isInk_raw_append joined (by decide)
  exact (inks_cons closed (by decide)).steady

theorem endsLines_emitComment : EndsLines (emitComment lines .ownLine) := by
  have opening : EndsLines [.raw "/*", .newline] :=
    (inks_singleton (by decide)).endsLines_append_newline
  have closing : EndsLines [.raw " */", .newline] :=
    (inks_singleton (by decide)).endsLines_append_newline
  refine (opening.append (of_flatMap endsLines_nil .append fun l hl => ?_)).append closing
  exact (inks_singleton (Token.isInk_raw_append (by decide)
    (unbroken l hl))).endsLines_append_newline

end

/-- What a note writes, if its comment is unbroken and its blocks stay behind text. -/
theorem Note.tidy_emit {n : Note} {x : EmitContext}
    (comment : ∀ lines ∈ n.comment, ∀ l ∈ lines, '\n' ∉ l.toList)
    (documentation : ∀ blocks ∈ n.documentation, ∀ b ∈ blocks, Keeps (b.emit x)) :
    Steady (n.emit x .inline) ∧ EndsLines (n.emit x .ownLine) := by
  have inks : ∀ blocks ∈ n.documentation, Inks (docComment (blocks.map (DocBlock.emit x))) := by
    intro blocks attached
    refine inks_docComment fun ts hts => ?_
    obtain ⟨b, hb, rfl⟩ := List.mem_map.mp hts
    exact documentation blocks attached b hb
  have space : Keeps [.space] := by decide
  constructor
  · refine .append ?_ ?_
    · cases hc : n.comment with
      | none => exact steady_nil
      | some lines => exact steady_emitComment (comment lines hc)
    · cases hd : n.documentation with
      | none => exact steady_nil
      | some blocks => exact ((inks blocks hd).append_keeps space).steady
  · refine .append ?_ ?_
    · cases hc : n.comment with
      | none => exact endsLines_nil
      | some lines => exact endsLines_emitComment (comment lines hc)
    · cases hd : n.documentation with
      | none => exact endsLines_nil
      | some blocks => exact (inks blocks hd).endsLines_append_newline

namespace Notes

variable {notes : Notes} {o : Outline}

/-- The trees that are written with a tree: the tree itself, and the blocks of documentation that is
attached to a node of one of them. -/
inductive Reaches (notes : Notes) (o : Outline) : Outline → Prop
  /-- The tree itself. -/
  | self : Reaches notes o o
  /-- A block that is attached to a node. -/
  | block {m : Outline} {h : Handle} {blocks : List DocBlock} {b : DocBlock}
      (reached : Reaches notes o m) (node : h ∈ m.handles)
      (attached : blocks ∈ (notes.find h).documentation) (mem : b ∈ blocks) :
      Reaches notes o b.outline

/-- No literal, comment or tag of a tree or of its notes is broken over lines. -/
structure Unbroken (notes : Notes) (o : Outline) : Prop where
  /-- The texts of the nodes. -/
  texts : ∀ m, notes.Reaches o m → m.AllNodes fun n => n.isUnbroken
  /-- The lines of the comments that are attached to nodes. -/
  comments : ∀ m, notes.Reaches o m → ∀ h ∈ m.handles, ∀ lines ∈ (notes.find h).comment,
    ∀ l ∈ lines, '\n' ∉ l.toList

/-- **What is attached to a node is tidy**, however deep notes are followed. -/
theorem Unbroken.tidy_attached (unbroken : notes.Unbroken o) (depth : Nat) :
    ∀ m, notes.Reaches o m → ∀ h ∈ m.handles,
      Steady (notes.attached depth h .inline) ∧ EndsLines (notes.attached depth h .ownLine) := by
  induction depth with
  | zero => exact fun m _ h _ => ⟨steady_nil, endsLines_nil⟩
  | succ depth ih =>
    intro m reached h node
    refine Note.tidy_emit (unbroken.comments m reached h node) fun blocks attached b mem => ?_
    have block : notes.Reaches o b.outline := reached.block node attached mem
    rw [DocBlock.emit_congr EmitContext.agreesOn_restrict]
    exact b.keeps_emit (EmitContext.isTidy_restrict (ih b.outline block))
      (unbroken.texts b.outline block)

/-- The note of a handle is one that was filed, or empty. -/
theorem find_mem_or_eq (notes : Notes) (h : Handle) :
    notes.find h ∈ notes.entries ∨ notes.find h = {} := by
  cases h with
  | none => exact .inr rfl
  | some i =>
    cases found : notes.entries[i]? with
    | none => exact .inr (by rw [find, found]; rfl)
    | some n =>
      rw [find, found]
      exact .inl (Array.mem_of_getElem? found)

/-- It suffices that all notes are unbroken. -/
theorem unbroken_of_entries (texts : o.AllNodes fun n => n.isUnbroken)
    (comments : ∀ n ∈ notes.entries, ∀ lines ∈ n.comment, ∀ l ∈ lines, '\n' ∉ l.toList)
    (documentation : ∀ n ∈ notes.entries, ∀ blocks ∈ n.documentation, ∀ b ∈ blocks,
      b.outline.AllNodes fun n => n.isUnbroken) : notes.Unbroken o where
  texts m reached := by
    cases reached with
    | self => exact texts
    | @block _ h blocks b _ _ attached mem =>
      rcases notes.find_mem_or_eq h with filed | empty
      · exact documentation _ filed blocks attached b mem
      · rw [empty] at attached
        cases attached
  comments m _ h _ lines attached := by
    rcases notes.find_mem_or_eq h with filed | empty
    · exact comments _ filed lines attached
    · rw [empty] at attached
      cases attached

end Notes

/-- **The text of a unit has clean lines.** Where a line feed ends the lines and spaces and tabs
indent them, and no literal, comment or tag of the unit or its notes contains a line feed, the text
is empty or ends with exactly one line feed, no line ends with a blank character, the first line is
not blank, and no two lines in a row are. -/
theorem CompilationUnit.cleanLines_render {o : Options} (plain : o.IsPlain) {notes : Notes}
    {u : CompilationUnit} (unbroken : notes.Unbroken u.outline) {text : String}
    (h : (Node.unit u).render notes o = .ok text) : Text.CleanLines text := by
  have tidy : ((notes.context o.blankLines).restrict u.outline.handles).IsTidy :=
    EmitContext.isTidy_restrict (unbroken.tidy_attached _ u.outline .self)
  have same := CompilationUnit.emit_congr (x := notes.context o.blankLines)
    (y := (notes.context o.blankLines).restrict u.outline.handles) rfl
    EmitContext.agreesOn_restrict
  obtain ⟨k, ran, ends⟩ := u.exists_run_emit tidy (unbroken.texts u.outline .self)
  rw [← same] at ran
  exact cleanLines_of_layout plain ran ends h

/-- A unit with a comment, and a class with two members to which a comment and documentation of two
lines are attached. -/
theorem CompilationUnit.cleanLines_render_documented :
    let member : SimpleName → Tree .member := fun n =>
      .fieldDeclaration none none .nil (.basic none .int) (.variableDeclarator none n 0 .absent)
        .nil
    let declared : Tree .typeDeclaration := .classType (.classDeclaration (some 0) none .nil
      ⟨none, "A", rfl⟩ [] none [] (.cons (member ⟨none, "b", rfl⟩)
        (.cons (member ⟨none, "c", rfl⟩) .nil)))
    let u : CompilationUnit := ⟨none, none, [], [declared], [.line none " d"]⟩
    let notes : Notes :=
      ⟨#[{ comment := some ["e"], documentation := some [⟨none, "@since", [.text none " 1\n2"]⟩] }]⟩
    let text := "// d\n\n/*\n * e\n */\n/**\n * @since 1\n * 2\n */\n" ++
      "class A \x7b\n\tint b;\n\n\tint c;\n\x7d\n"
    Options.IsPlain ⟨"\t", "\n", true⟩ ∧ notes.Unbroken u.outline ∧
      (Node.unit u).render notes ⟨"\t", "\n", true⟩ = .ok text ∧ Text.CleanLines text := by
  intro member declared u notes text
  have plain : Options.IsPlain ⟨"\t", "\n", true⟩ := ⟨rfl, by simp⟩
  have unbroken : notes.Unbroken u.outline :=
    Notes.unbroken_of_entries (by decide) (by decide) (by decide)
  have rendered : (Node.unit u).render notes ⟨"\t", "\n", true⟩ = .ok text := by decide
  exact ⟨plain, unbroken, rendered, CompilationUnit.cleanLines_render plain unbroken rendered⟩

end JavaSource
