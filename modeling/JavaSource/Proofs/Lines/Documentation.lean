import JavaSource.Proofs.Emission.NestedNotes
import JavaSource.Proofs.Emission.Visible
import JavaSource.Proofs.Lines.Emission
import JavaSource.Proofs.Name.RoundTrip

/-!
# The lines of documentation

A documentation comment has its first line for the opening mark, its last line for the closing mark,
and in between, for each block, one line and another one for each line feed in its running text. All
of them start with ` *`, and behind the stars they hold the visible characters of the block in their
order (`Javadoc.lines_render`). What is attached to the comment itself stands in front of it.

The tokens of a block continue a line behind its star, and begin each further line with one
(`Continues`). The layout follows them line by line (`Layout.State.Starred.exists_run`).
-/

namespace JavaSource

namespace Text

/-! ### Trimming and splitting -/

theorem trimEnd_append (s t : String) :
    trimEnd (s ++ t) = if AllBlank t then trimEnd s else s ++ trimEnd t := by
  have blank : AllBlank t ↔ dropBlankEnd t.toList = [] := by
    rw [← trimEnd_eq_empty_iff, ← String.toList_inj, trimEnd, String.toList_ofList]
    rfl
  rw [← String.toList_inj, trimEnd, String.toList_ofList, String.toList_append,
    dropBlankEnd_append]
  split
  · next none => rw [if_pos (blank.mpr none), trimEnd, String.toList_ofList]
  · next some =>
    rw [if_neg (blank.not.mpr some), String.toList_append, trimEnd, String.toList_ofList]

/-- Behind a star. -/
theorem trimEnd_star (s : String) : trimEnd (" *" ++ s) = " *" ++ trimEnd s := by
  rw [trimEnd_append]
  split
  · next blank =>
    rw [trimEnd_eq_empty_iff.mpr blank]
    decide
  · rfl

/-- There is one part more than there are separators. -/
theorem length_splitAt (sep : Char) (cs : List Char) :
    (splitAt sep cs).length = cs.count sep + 1 := by
  induction cs with
  | nil => rfl
  | cons c cs ih =>
    obtain ⟨first, rest, parts⟩ := List.exists_cons_of_ne_nil (splitAt_ne_nil sep cs)
    by_cases hc : c = sep
    · subst hc
      rw [splitAt, if_pos rfl, List.length_cons, ih, List.count_cons_self]
    · rw [parts] at ih
      rw [List.count_cons_of_ne hc, ← ih]
      simp [splitAt, hc, parts]

/-- Splitting at a blank character keeps the visible ones. -/
theorem flatMap_visible_split {sep : Char} (blank : isBlank sep = true) (s : String) :
    (split sep s).flatMap visible = visible s := by
  have chars : ∀ cs : List Char, (splitAt sep cs).flatMap (List.filter fun c => !isBlank c) =
      cs.filter fun c => !isBlank c := by
    intro cs
    induction cs with
    | nil => rfl
    | cons c cs ih =>
      obtain ⟨first, rest, parts⟩ := List.exists_cons_of_ne_nil (splitAt_ne_nil sep cs)
      rw [List.filter_cons, ← ih]
      by_cases hc : c = sep
      · simp [splitAt, hc, blank]
      · simp only [splitAt, hc, parts, if_false, List.flatMap_cons, List.filter_cons]
        split <;> rfl
  rw [split, List.flatMap_map, visible, ← chars]
  simp [visible]

end Text

/-! ### Tokens on one line -/

namespace Token

/-- Whether a token stays on its line and on its level of indentation. -/
def isFlat : Token → Bool
  | .newline | .indent | .dedent | .rejected _ => false
  | t => !t.written.toList.contains '\n'

theorem visible_written (t : Token) : Text.visible t.written = t.visible := by
  cases t with
  | operator symbol =>
    rw [written, Text.visible_append, Text.visible_space, List.append_nil, visible]
  | comma => decide
  | _ => rfl

theorem notMem_written {t : Token} (flat : t.isFlat = true) : '\n' ∉ t.written.toList := by
  cases t with
  | newline | indent | dedent | rejected => cases flat
  | _ => simpa [isFlat] using flat

theorem isFlat_mark (m : Mark) : (mark m).isFlat = true := by
  cases m <;> decide

theorem isFlat_raw {text : String} : (raw text).isFlat = true ↔ '\n' ∉ text.toList := by
  simp [isFlat, written]

end Token

/-- Tokens that stay on their line and on their level of indentation. -/
def Flat (ts : List Token) : Prop :=
  ∀ t ∈ ts, t.isFlat = true

instance {ts : List Token} : Decidable (Flat ts) :=
  inferInstanceAs (Decidable (∀ t ∈ ts, t.isFlat = true))

section

variable {t : Token} {ts us : List Token}

@[simp] theorem flat_nil : Flat [] := by
  simp [Flat]

@[simp] theorem flat_cons : Flat (t :: ts) ↔ t.isFlat = true ∧ Flat ts := by
  simp [Flat]

@[simp] theorem flat_append : Flat (ts ++ us) ↔ Flat ts ∧ Flat us := by
  simp [Flat, or_imp, forall_and]

theorem flat_commaSeparated {parts : List (List Token)} (h : ∀ ts ∈ parts, Flat ts) :
    Flat (commaSeparated parts) := by
  induction parts with
  | nil => exact flat_nil
  | cons part parts ih =>
    have first := h part List.mem_cons_self
    have tail := ih fun ts hts => h ts (List.mem_cons_of_mem part hts)
    cases parts with
    | nil => simpa [commaSeparated] using first
    | cons part' parts =>
      rw [commaSeparated_cons_cons, flat_append, flat_cons]
      exact ⟨first, by decide, tail⟩

theorem SimpleName.flat_emit (n : SimpleName) : Flat (n.emit (.bare false)) := by
  have unbroken := Token.isInline_word.mp (Token.isInline_of_isInk n.isInk_token)
  simpa [emit, EmitContext.bare, Token.isFlat, Token.written] using unbroken

/-- A point between two parts. -/
theorem Flat.point (h : Flat ts) (h' : Flat us) : Flat (ts ++ .mark .dot :: us) := by
  rw [flat_append, flat_cons]
  exact ⟨h, Token.isFlat_mark .dot, h'⟩

theorem Name.flat_emit (n : Name) : Flat (n.emit (.bare false)) := by
  induction n with
  | simple n => exact n.flat_emit
  | qualified h q n ih => exact ih.point n.flat_emit

theorem NamedType.flat_emit (t : NamedType) : Flat (t.emit (.bare false)) :=
  t.name.flat_emit

theorem BasicTypeKind.flat_keyword (k : BasicTypeKind) : Flat [.word k.keyword] := by
  cases k <;> decide

theorem WildcardBoundKind.flat_keyword (d : WildcardBoundKind) :
    Flat (.word "?" :: (d.keyword.map Token.word).toList) := by
  cases d <;> decide

theorem Ty.flat_emit (t : Ty) : Flat (t.emit (.bare false)) := by
  induction t with
  | array h c ih => exact flat_append.mpr ⟨ih, by decide⟩
  | basic h k => exact k.flat_keyword
  | named t => exact t.flat_emit
  | parameterized h b f r ihb ihf ihr =>
    have arguments : Flat (commaSeparated (f.emit (.bare false) :: emitEach (.bare false) r)) := by
      refine flat_commaSeparated fun ts hts => ?_
      rw [emitEach_eq_map] at hts
      rcases List.mem_cons.mp hts with rfl | hts
      · exact ihf
      · obtain ⟨t, ht, rfl⟩ := List.mem_map.mp hts
        exact ihr t ht
    have enclosed := flat_cons.mpr ⟨Token.isFlat_mark .openAngle, arguments⟩
    exact flat_append.mpr ⟨ihb, flat_append.mpr ⟨enclosed, by decide⟩⟩
  | qualified h q n ih => exact ih.point n.flat_emit
  | wildcard h d b ih =>
    cases b with
    | none => exact d.flat_keyword
    | some b => exact flat_append.mpr ⟨d.flat_keyword, ih b rfl⟩

theorem flat_emitOptional (t : Option Ty) : Flat (emitOptional (.bare false) t) := by
  cases t with
  | none => exact flat_nil
  | some t => exact t.flat_emit

theorem DocParameter.flat_emit (p : DocParameter) : Flat (p.emit (.bare false)) := by
  have arity : Flat (if p.variableArity then [.mark .ellipsis] else []) := by
    split <;> decide
  refine flat_append.mpr ⟨flat_append.mpr ⟨p.type.flat_emit, arity⟩, ?_⟩
  cases p.name with
  | none => exact flat_nil
  | some n => exact flat_cons.mpr ⟨rfl, n.flat_emit⟩

end

/-! ### Tokens behind a star -/

/-- Tokens that continue a line behind its star and begin `n` further lines with one. Behind the
stars they write the visible characters `cs`. -/
inductive Continues : List Token → (n : Nat) → (cs : List Char) → Prop
  /-- No tokens. -/
  | nil : Continues [] 0 []
  /-- A token on the current line. -/
  | token {t : Token} {ts : List Token} {n : Nat} {cs : List Char} (flat : t.isFlat = true)
      (rest : Continues ts n cs) : Continues (t :: ts) n (t.visible ++ cs)
  /-- The start of the next line. -/
  | line {ts : List Token} {n : Nat} {cs : List Char} (rest : Continues ts n cs) :
      Continues (.newline :: .raw " * " :: ts) (n + 1) cs

namespace Continues

variable {ts us : List Token} {m n : Nat} {cs ds : List Char}

theorem append (h : Continues ts m cs) (h' : Continues us n ds) :
    Continues (ts ++ us) (m + n) (cs ++ ds) := by
  induction h with
  | nil => simpa using h'
  | token flat _ ih =>
    rw [List.append_assoc]
    exact .token flat ih
  | line _ ih =>
    rw [Nat.add_right_comm]
    exact .line ih

theorem of_flat (flat : Flat ts) : Continues ts 0 (ts.flatMap Token.visible) := by
  induction ts with
  | nil => exact .nil
  | cons t ts ih =>
    obtain ⟨first, rest⟩ := flat_cons.mp flat
    exact .token first (ih rest)

end Continues

/-- Running text begins a line behind each of its line feeds. -/
theorem continues_docText (s : String) :
    Continues (docText s) (s.toList.count '\n') (Text.visible s) := by
  have unbroken : ∀ l ∈ Text.split '\n' s, (Token.raw l).isFlat = true :=
    fun l hl => Token.isFlat_raw.mpr (Text.notMem_of_mem_split hl)
  have visible := Text.flatMap_visible_split Text.isBlank_lineFeed s
  have length : (Text.split '\n' s).length = s.toList.count '\n' + 1 := by
    rw [Text.split, List.length_map, Text.length_splitAt]
  have lines : ∀ rest : List String, (∀ l ∈ rest, (Token.raw l).isFlat = true) →
      Continues (rest.flatMap fun l => [.newline, .raw " * ", .raw l]) rest.length
        (rest.flatMap Text.visible) := by
    intro rest
    induction rest with
    | nil => exact fun _ => .nil
    | cons l rest ih =>
      intro flat
      have tail := ih fun l' hl' => flat l' (List.mem_cons_of_mem l hl')
      exact .line (.token (flat l List.mem_cons_self) tail)
  unfold docText
  cases parts : Text.split '\n' s with
  | nil => exact absurd (parts ▸ length) (by simp)
  | cons first rest =>
    rw [parts] at unbroken visible length
    rw [← visible, ← Nat.succ.inj length]
    exact .token (unbroken first List.mem_cons_self)
      (lines rest fun l hl => unbroken l (List.mem_cons_of_mem first hl))

/-! ### Blocks -/

namespace DocElement

mutual

/-- The number of line feeds in the running text of an element and the blocks nested in it. -/
def lineFeeds : DocElement → Nat
  | .text _ s => s.toList.count '\n'
  | .block _ _ es => lineFeedsEach es
  | .field .. | .method .. | .name _ | .type _ => 0

/-- The number of line feeds in the running text of several elements. -/
def lineFeedsEach : List DocElement → Nat
  | [] => 0
  | e :: es => e.lineFeeds + lineFeedsEach es

end

mutual

/-- The visible characters of an element: those of running text and, in braces, of a nested block
with its tag, and what is written for a name, a type or a reference. -/
def visible : DocElement → List Char
  | .text _ s => Text.visible s
  | .block _ tag es => '\x7b' :: Text.visible tag ++ visibleEach es ++ ['\x7d']
  | e => (e.emitInside (.bare false)).flatMap Token.visible

/-- The visible characters of several elements. -/
def visibleEach : List DocElement → List Char
  | [] => []
  | e :: es => e.visible ++ visibleEach es

end

theorem continues_emitAll {es : List DocElement}
    (h : ∀ e ∈ es, Continues (e.emitInside (.bare false)) e.lineFeeds e.visible) :
    Continues (emitAll (.bare false) es) (lineFeedsEach es) (visibleEach es) := by
  induction es with
  | nil => exact .nil
  | cons e es ih =>
    exact (h e List.mem_cons_self).append (ih fun e' he' => h e' (List.mem_cons_of_mem e he'))

/-- A reference to a member. -/
theorem flat_reference (t : Option Ty) (n : SimpleName) :
    Flat (.space :: emitOptional (.bare false) t ++ .mark .hash :: n.emit (.bare false)) := by
  rw [flat_append, flat_cons, flat_cons]
  exact ⟨⟨rfl, flat_emitOptional t⟩, Token.isFlat_mark .hash, n.flat_emit⟩

theorem continues_emitInside {e : DocElement}
    (unbroken : e.outline.AllNodes fun n => n.isUnbroken) :
    Continues (e.emitInside (.bare false)) e.lineFeeds e.visible := by
  induction e with
  | block h tag es ih =>
    simp only [outline, outlineEach_eq_map, Outline.allNodes_node, Outline.eachNodes_cons,
      Outline.allNodes_list, Outline.eachNodes_map] at unbroken
    obtain ⟨own, -, elements, -⟩ := unbroken
    have inside := continues_emitAll fun e he => ih e he (elements e he)
    have tagged : '\n' ∉ tag.toList := by simpa [Outline.isUnbroken] using own
    have opening : Flat [.space, .raw "\x7b", .raw tag] := by
      simpa [Token.isFlat_raw.mpr tagged] using by decide
    have closing : Flat [.raw "\x7d"] := by decide
    have whole := ((Continues.of_flat opening).append inside).append (.of_flat closing)
    have braces : Text.visible "\x7b" = ['\x7b'] ∧ Text.visible "\x7d" = ['\x7d'] := by decide
    simpa [emitInside, lineFeeds, visible, EmitContext.bare, Token.visible, braces] using whole
  | field h t n => exact .of_flat (flat_reference t n)
  | method h t n ps =>
    have parameters : Flat (commaSeparated (ps.map (DocParameter.emit (.bare false)))) := by
      refine flat_commaSeparated fun ts hts => ?_
      obtain ⟨p, -, rfl⟩ := List.mem_map.mp hts
      exact p.flat_emit
    have enclosed := flat_cons.mpr ⟨Token.isFlat_mark .openParen, parameters⟩
    exact .of_flat (flat_append.mpr ⟨flat_reference t n, flat_append.mpr ⟨enclosed, by decide⟩⟩)
  | text h s => exact continues_docText s
  | name n => exact .of_flat (flat_cons.mpr ⟨rfl, n.flat_emit⟩)
  | type t => exact .of_flat (flat_cons.mpr ⟨rfl, t.flat_emit⟩)

end DocElement

namespace DocBlock

/-- The number of line feeds in the running text of a block and the blocks nested in it. -/
def lineFeeds (b : DocBlock) : Nat :=
  DocElement.lineFeedsEach b.elements

/-- The visible characters of a block: those of its tag and of its elements. -/
def visible (b : DocBlock) : List Char :=
  Text.visible b.tag ++ DocElement.visibleEach b.elements

theorem continues_emit {b : DocBlock} (unbroken : b.outline.AllNodes fun n => n.isUnbroken) :
    Continues (b.emit (.bare false)) b.lineFeeds b.visible := by
  simp only [outline, toElement, DocElement.outline, DocElement.outlineEach_eq_map,
    Outline.allNodes_node, Outline.eachNodes_cons, Outline.allNodes_list,
    Outline.eachNodes_map] at unbroken
  obtain ⟨own, -, elements, -⟩ := unbroken
  have tagged : '\n' ∉ b.tag.toList := by simpa [Outline.isUnbroken] using own
  have tag : Continues (if b.tag = "" then [] else [.raw b.tag]) 0 (Text.visible b.tag) := by
    split
    · next empty =>
      rw [empty]
      exact .nil
    · have flat : Flat [.raw b.tag] := by simpa using Token.isFlat_raw.mpr tagged
      simpa [Token.visible] using Continues.of_flat flat
  have inside := DocElement.continues_emitAll fun e he =>
    DocElement.continues_emitInside (elements e he)
  simpa [emit, EmitContext.bare, lineFeeds, visible] using tag.append inside

end DocBlock

/-- The lines of a block, given by what is behind their stars: one, and another one for each line
feed, and together they hold the visible characters of the block. -/
structure DocBlock.LaidOut (b : DocBlock) (tails : List String) : Prop where
  length : tails.length = b.lineFeeds + 1
  visible : tails.flatMap Text.visible = b.visible

/-! ### Layout -/

namespace Layout

variable {o : Options} {s : State}

theorem exists_step_of_isFlat {t : Token} (flat : t.isFlat = true) :
    ∃ s', step o s t = .ok s' ∧ s'.depth = s.depth := by
  cases t with
  | word | mark | sign | operator | comma | raw =>
    exact ⟨_, rfl, State.depth_writeApart _ _ _ _ _⟩
  | space => exact ⟨_, rfl, State.depth_addSpace s⟩
  | join => exact ⟨_, rfl, rfl⟩
  | newline | indent | dedent | rejected => cases flat

theorem run_of_step {s' : State} {t : Token} (h : step o s t = .ok s') (ts : List Token) :
    run o s (t :: ts) = run o s' ts := by
  rw [run, h]

theorem run_newline (plain : o.IsPlain) (ts : List Token) :
    run o s (.newline :: ts) = run o (s.endLine "\n") ts := by
  rw [← plain.lineSeparator]
  rfl

/-- Text without indentation. -/
theorem step_raw {text : String} (depth : s.depth = 0) :
    step o s (.raw text) = .ok { s with line := s.line ++ text, previous := .raw } := by
  have written : s.write o.indent text = { s with line := s.line ++ text } := by
    unfold State.write
    split
    · next empty => simp [empty, depth]
    · rfl
  rw [step, State.writeApart, if_neg Bool.false_ne_true, written]

/-- Behind `out`, lines with the given tails are finished behind a star each, and a last one is
begun. -/
structure State.Starred (s : State) (out : String) (tails : List String) (last : String) :
    Prop where
  depth : s.depth = 0
  finished : s.out = out ++ Text.unlines (tails.map (" *" ++ ·))
  line : s.line = " *" ++ last
  unbroken : ∀ l ∈ tails ++ [last], '\n' ∉ l.toList

variable {out last : String} {tails : List String}

/-- A token on the current line. -/
theorem State.Starred.token (h : s.Starred out tails last) (plain : o.IsPlain) {t : Token}
    (flat : t.isFlat = true) :
    ∃ s' last', step o s t = .ok s' ∧ s'.Starred out tails last' ∧
      Text.visible last' = Text.visible last ++ t.visible := by
  have inline : t ≠ .newline := by
    rintro rfl
    cases flat
  obtain ⟨s', stepped, depth⟩ := exists_step_of_isFlat (o := o) (s := s) flat
  obtain ⟨gap, chars, out', line⟩ := exists_line_of_step inline stepped
  have blank : ∀ c ∈ gap.toList, Text.isBlank c = true ∧ c ≠ '\n' := by
    intro c hc
    rcases chars c hc with rfl | indented
    · decide
    · rcases plain.indent c indented with rfl | rfl <;> decide
  refine ⟨s', last ++ gap ++ t.written, stepped, ?_, ?_⟩
  · refine ⟨depth.trans h.depth, out'.trans h.finished, ?_, ?_⟩
    · rw [line, h.line, String.append_assoc, String.append_assoc, String.append_assoc]
    · intro l hl
      rcases List.mem_append.mp hl with hl | hl
      · exact h.unbroken l (List.mem_append_left _ hl)
      · obtain rfl := List.mem_singleton.mp hl
        rw [String.toList_append, String.toList_append]
        simp only [List.mem_append, not_or]
        exact ⟨⟨h.unbroken last (by simp), fun mem => (blank _ mem).2 rfl⟩,
          Token.notMem_written flat⟩
  · rw [Text.visible_append, Text.visible_append, t.visible_written,
      Text.visible_eq_nil fun c hc => (blank c hc).1, List.append_nil]

/-- The end of a line. -/
theorem State.Starred.out_endLine (h : s.Starred out tails last) :
    (s.endLine "\n").out =
      out ++ Text.unlines ((tails ++ [Text.trimEnd last]).map (" *" ++ ·)) := by
  rw [List.map_append, List.map_singleton, Text.unlines_concat, State.endLine, h.finished, h.line,
    Text.trimEnd_star, ← String.append_assoc, ← String.append_assoc]
  simp only [String.append_assoc]

theorem State.Starred.unbroken_endLine (h : s.Starred out tails last) :
    ∀ l ∈ tails ++ [Text.trimEnd last], '\n' ∉ l.toList := by
  intro l hl
  rcases List.mem_append.mp hl with hl | hl
  · exact h.unbroken l (List.mem_append_left _ hl)
  · obtain rfl := List.mem_singleton.mp hl
    exact Text.notMem_trimEnd (h.unbroken last (by simp))

/-- The start of a line. -/
theorem exists_starred_of_raw (depth : s.depth = 0) (empty : s.line = "")
    (finished : s.out = out ++ Text.unlines (tails.map (" *" ++ ·)))
    (unbroken : ∀ l ∈ tails, '\n' ∉ l.toList) :
    ∃ s', step o s (.raw " * ") = .ok s' ∧ s'.Starred out tails " " := by
  refine ⟨_, step_raw depth, depth, finished, by simp [empty], fun l hl => ?_⟩
  rcases List.mem_append.mp hl with hl | hl
  · exact unbroken l hl
  · obtain rfl := List.mem_singleton.mp hl
    decide

/-- **Tokens behind a star are laid out line by line.** -/
theorem State.Starred.exists_run (h : s.Starred out tails last) (plain : o.IsPlain)
    {ts : List Token} {n : Nat} {cs : List Char} (continues : Continues ts n cs) :
    ∃ s' more last', run o s ts = .ok s' ∧ s'.Starred out (tails ++ more) last' ∧
      more.length = n ∧ (more ++ [last']).flatMap Text.visible = Text.visible last ++ cs := by
  induction continues generalizing s tails last with
  | nil => exact ⟨s, [], last, rfl, by simpa using h, rfl, by simp⟩
  | token flat _ ih =>
    obtain ⟨s₁, last₁, stepped, starred, visible⟩ := h.token plain flat
    obtain ⟨s', more, last', ran, starred', length, visible'⟩ := ih starred
    refine ⟨s', more, last', ?_, starred', length, ?_⟩
    · rw [run_of_step stepped]
      exact ran
    · rw [visible', visible, List.append_assoc]
  | @line ts n cs _ ih =>
    obtain ⟨s₁, next, starred⟩ :=
      exists_starred_of_raw (o := o) (s := s.endLine "\n") h.depth rfl h.out_endLine
        h.unbroken_endLine
    obtain ⟨s', more, last', ran, starred', length, visible⟩ := ih starred
    refine ⟨s', Text.trimEnd last :: more, last', ?_, ?_, ?_, ?_⟩
    · rw [run_newline plain, run_of_step next]
      exact ran
    · simpa using starred'
    · rw [List.length_cons, length]
    · rw [List.cons_append, List.flatMap_cons, visible]
      simp

/-- The line of a block, and a further one for each of its line feeds. -/
theorem exists_run_block (plain : o.IsPlain) {b : DocBlock}
    (unbroken : b.outline.AllNodes fun n => n.isUnbroken) (depth : s.depth = 0)
    (empty : s.line = "") :
    ∃ s' tails, run o s (.raw " * " :: b.emit (.bare false) ++ [Token.newline]) = .ok s' ∧
      s'.depth = 0 ∧ s'.line = "" ∧ s'.out = s.out ++ Text.unlines (tails.map (" *" ++ ·)) ∧
      (∀ l ∈ tails, '\n' ∉ l.toList) ∧ b.LaidOut tails := by
  have start : s.out = s.out ++ Text.unlines (([] : List String).map (" *" ++ ·)) := by simp
  obtain ⟨s₁, first, starred⟩ := exists_starred_of_raw (o := o) depth empty start (by simp)
  obtain ⟨s₂, more, last, ran, starred', length, visible⟩ :=
    starred.exists_run plain (b.continues_emit unbroken)
  refine ⟨s₂.endLine "\n", more ++ [Text.trimEnd last], ?_, starred'.depth, rfl,
    starred'.out_endLine, starred'.unbroken_endLine, ?_⟩
  · rw [List.cons_append, run_of_step first, run_append_of_ok ran, run_newline plain, run]
  · refine ⟨by simp [length], ?_⟩
    simpa using visible

/-- The lines of several blocks. -/
theorem exists_run_blocks (plain : o.IsPlain) {blocks : List DocBlock}
    (unbroken : ∀ b ∈ blocks, b.outline.AllNodes fun n => n.isUnbroken) (depth : s.depth = 0)
    (empty : s.line = "") :
    ∃ (s' : State) (parts : List (List String)),
      run o s (blocks.flatMap fun b =>
        .raw " * " :: b.emit (.bare false) ++ [Token.newline]) = .ok s' ∧
      s'.depth = 0 ∧ s'.line = "" ∧
      s'.out = s.out ++ Text.unlines (parts.flatten.map (" *" ++ ·)) ∧
      (∀ l ∈ parts.flatten, '\n' ∉ l.toList) ∧ List.Forall₂ DocBlock.LaidOut blocks parts := by
  induction blocks generalizing s with
  | nil => exact ⟨s, [], rfl, depth, empty, by simp, by simp, .nil⟩
  | cons b blocks ih =>
    obtain ⟨s₁, tails, ran, depth₁, empty₁, out₁, unbroken₁, laidOut⟩ :=
      exists_run_block plain (unbroken b List.mem_cons_self) depth empty
    obtain ⟨s', parts, ran', depth', empty', out', unbroken', laidOut'⟩ :=
      ih (fun b' hb' => unbroken b' (List.mem_cons_of_mem b hb')) depth₁ empty₁
    refine ⟨s', tails :: parts, ?_, depth', empty', ?_, ?_, .cons laidOut laidOut'⟩
    · rw [List.flatMap_cons, run_append_of_ok ran, ran']
    · rw [out', out₁, List.flatten_cons, List.map_append, Text.unlines_append,
        String.append_assoc]
    · intro l hl
      rw [List.flatten_cons] at hl
      rcases List.mem_append.mp hl with hl | hl
      · exact unbroken₁ l hl
      · exact unbroken' l hl

/-- A documentation comment behind whatever is on the line. -/
theorem exists_run_docComment (plain : o.IsPlain) {blocks : List DocBlock}
    (unbroken : ∀ b ∈ blocks, b.outline.AllNodes fun n => n.isUnbroken) (depth : s.depth = 0) :
    ∃ (s' : State) (parts : List (List String)),
      run o s (docComment (blocks.map (DocBlock.emit (.bare false)))) = .ok s' ∧ s'.depth = 0 ∧
      s'.out = s.out ++ s.line ++ Text.unlines ("/**" :: parts.flatten.map (" *" ++ ·)) ∧
      s'.line = " */" ∧ (∀ l ∈ parts.flatten, '\n' ∉ l.toList) ∧
      List.Forall₂ DocBlock.LaidOut blocks parts := by
  let s₁ : State := { s with line := s.line ++ "/**", previous := .raw }
  have opened : run o s [.raw "/**", .newline] = .ok (s₁.endLine "\n") := by
    rw [run_of_step (step_raw depth), run_newline plain, run]
  have opening : (s₁.endLine "\n").out = s.out ++ s.line ++ "/**" ++ "\n" := by
    have visible : ¬ Text.AllBlank "/**" := by decide
    have trimmed : Text.trimEnd "/**" = "/**" := by decide
    rw [State.endLine, Text.trimEnd_append, if_neg visible, trimmed, ← String.append_assoc]
  obtain ⟨s₂, parts, ran, depth₂, empty, out₂, unbroken', laidOut⟩ :=
    exists_run_blocks (s := s₁.endLine "\n") plain unbroken depth rfl
  refine ⟨{ s₂ with line := " */", previous := .raw }, parts, ?_, depth₂, ?_, rfl, unbroken',
    laidOut⟩
  · rw [docComment, List.flatMap_map, List.append_assoc, run_append_of_ok opened,
      run_append_of_ok ran, run_of_step (step_raw depth₂), run, empty, String.empty_append]
  · rw [out₂, opening, Text.unlines_cons]
    simp only [String.append_assoc]

end Layout

instance {notes : Notes} {o : Outline} : Decidable (notes.Bare o) :=
  inferInstanceAs (Decidable (∀ h ∈ o.handles, (notes.find h).isEmpty = true))

/-- Where nothing is attached inside the blocks of a documentation comment, only what is attached to
the comment itself can lead back. -/
theorem Javadoc.ends_reached {notes : Notes} {h : Handle} {blocks : List DocBlock}
    (ends : ¬ notes.LeadsBack h) (bare : ∀ b ∈ blocks, notes.Bare b.outline) :
    notes.Ends (Node.comment (.javadoc ⟨h, blocks⟩)).outline.reached := by
  intro h' mem
  have own := Outline.reached_subset_handles _ mem
  simp only [Node.outline, Comment.outline, Javadoc.outline, Outline.handles,
    Outline.handlesEach_eq_flatMap, List.flatMap_cons, List.flatMap_nil, List.append_nil,
    Outline.handles_ofList, List.mem_cons, List.mem_flatMap] at own
  rcases own with rfl | ⟨b, hb, inner⟩
  · exact ends
  · exact Notes.not_leadsBack_of_isEmpty (bare b hb h' inner)

/-- **Documentation is laid out line by line without loss.** Where nothing is attached inside the
blocks and no tag contains a line feed, a documentation comment has, behind what is attached to the
comment itself, a first line for its opening mark and a last line for its closing mark. In between
there are, for each block, one line and a further one for each line feed in its text and the blocks
nested in it; they start with ` *` and hold the visible characters of the block. What is attached to
the comment must not lead back to itself. -/
theorem Javadoc.lines_render {o : Options} (plain : o.IsPlain) (notes : Notes) {h : Handle}
    (ends : ¬ notes.LeadsBack h) :
    ∃ front : String, ((notes.find h).isEmpty = true → front = "") ∧
      ∀ blocks : List DocBlock, (∀ b ∈ blocks, notes.Bare b.outline) →
        (∀ b ∈ blocks, b.outline.AllNodes fun n => n.isUnbroken) →
        ∃ (rest : String) (parts : List (List String)),
          (Node.comment (.javadoc ⟨h, blocks⟩)).render notes o = .ok (front ++ rest) ∧
          (Node.comment (.javadoc ⟨h, blocks⟩)).Renders notes o (.ok (front ++ rest)) ∧
          Text.split '\n' rest = "/**" :: parts.flatten.map (" *" ++ ·) ++ [" */"] ∧
          List.Forall₂ DocBlock.LaidOut blocks parts := by
  let x := notes.context o.blankLines
  have quiet : Quiet (x.attached h .inline) :=
    (notes.isQuiet_context o.blankLines).attached h .inline
  obtain ⟨s, ran, depth⟩ : ∃ s, Layout.run o {} (x.attached h .inline) = .ok s ∧ s.depth = 0 := by
    have ran := Layout.run_of_nestEach (o := o) (s := {}) (quiet.nested []) rfl
    rwa [quiet.accepted] at ran
  refine ⟨s.out ++ s.line, fun empty => ?_, fun blocks bare unbroken => ?_⟩
  · have none : x.attached h .inline = [] := Notes.attached_of_isEmpty empty _ .inline
    rw [none] at ran
    obtain rfl := Except.ok.inj ran
    rfl
  · obtain ⟨s', parts, ran', depth', out, line, unbroken', laidOut⟩ :=
      Layout.exists_run_docComment (s := s) plain unbroken depth
    have tokens : (Node.comment (.javadoc ⟨h, blocks⟩)).emit x =
        x.attached h .inline ++ docComment (blocks.map (DocBlock.emit (.bare false))) := by
      have same : blocks.map (DocBlock.emit x) = blocks.map (DocBlock.emit (.bare false)) :=
        List.map_congr_left fun b hb => DocBlock.emit_congr fun h hh place =>
          Notes.attached_of_isEmpty (bare b hb h hh) _ place
      rw [← same]
      rfl
    have rendered : (Node.comment (.javadoc ⟨h, blocks⟩)).render notes o =
        .ok (s.out ++ s.line ++
          (Text.unlines ("/**" :: parts.flatten.map (" *" ++ ·)) ++ " */")) := by
      have trimmed : Text.trimEnd " */" = " */" := by decide
      rw [Node.render, tokens, layout, Layout.run_append_of_ok ran, ran']
      simp only [Layout.finish, if_pos depth', out, line, trimmed, String.append_assoc]
    refine ⟨_, parts, rendered, Node.renders_iff.mpr ⟨ends_reached ends bare, rendered⟩, ?_,
      laidOut⟩
    refine Text.split_unlines_append (fun l hl => ?_) (by decide)
    rcases List.mem_cons.mp hl with rfl | hl
    · decide
    · obtain ⟨tail, mem, rfl⟩ := List.mem_map.mp hl
      rw [String.toList_append, List.mem_append]
      exact not_or.mpr ⟨by decide, unbroken' tail mem⟩

/-- Text with a nested block and three line feeds, and a block that is only a tag. -/
theorem Javadoc.lines_render_nested :
    let blocks : List DocBlock :=
      [⟨none, "", [.text none "a\nb", .block none "@code" [.text none " c\n\n"]]⟩,
        ⟨none, "@since", []⟩]
    (∀ b ∈ blocks, Notes.Bare {} b.outline) ∧
      (∀ b ∈ blocks, b.outline.AllNodes fun n => n.isUnbroken) ∧
      ∃ (text : String) (parts : List (List String)),
        (Node.comment (.javadoc ⟨none, blocks⟩)).render {} {} = .ok text ∧
        Text.split '\n' text = "/**" :: parts.flatten.map (" *" ++ ·) ++ [" */"] ∧
        List.Forall₂ DocBlock.LaidOut blocks parts := by
  intro blocks
  have plain : Options.IsPlain {} := ⟨rfl, by simp⟩
  have bare : ∀ b ∈ blocks, Notes.Bare {} b.outline := by decide
  have unbroken : ∀ b ∈ blocks, b.outline.AllNodes fun n => n.isUnbroken := by decide
  obtain ⟨front, own, lines⟩ := Javadoc.lines_render plain {}
    (Notes.not_leadsBack_of_undocumented (h := none) rfl)
  obtain rfl := own rfl
  obtain ⟨rest, parts, rendered, -, split, laidOut⟩ := lines blocks bare unbroken
  rw [String.empty_append] at rendered
  exact ⟨bare, unbroken, rest, parts, rendered, split, laidOut⟩

/-- A comment that is attached to documentation stands in front of its opening mark. -/
theorem Javadoc.first_line_commented :
    let notes : Notes := ⟨#[{ comment := some ["c"] }]⟩
    let b : DocBlock := ⟨none, "", [.text none "hello"]⟩
    let text := "/* c */ /**\n * hello\n */"
    notes.Bare b.outline ∧ b.outline.AllNodes (fun n => n.isUnbroken) ∧
      (Node.comment (.javadoc ⟨some 0, [b]⟩)).render notes {} = .ok text ∧
      (Text.split '\n' text).head? ≠ some "/**" := by
  intro notes b text
  refine ⟨by decide, by decide, by decide, by decide⟩

end JavaSource
