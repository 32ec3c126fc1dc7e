import JavaSource.Proofs.Emission.Places
import Mathlib.Data.List.Basic

/-!
# What the options decide

Laying out tokens adds blank characters to what the tokens spell, and nothing else
(`visible_of_layout`). Which tokens a node has depends on the options only through empty lines,
which spell nothing, so the options decide about blank characters alone (`Node.visible_render_eq`).
-/

namespace JavaSource

/-! ### Visible characters -/

namespace Text

/-- The characters of a text that are not blank. -/
def visible (s : String) : List Char :=
  s.toList.filter fun c => !isBlank c

@[simp] theorem visible_empty : visible "" = [] := rfl

@[simp] theorem visible_append (s t : String) : visible (s ++ t) = visible s ++ visible t := by
  rw [visible, String.toList_append, List.filter_append, visible, visible]

theorem visible_eq_nil {s : String} (blank : AllBlank s) : visible s = [] := by
  rw [visible, List.filter_eq_nil_iff]
  intro c hc
  simp [blank c hc]

@[simp] theorem visible_space : visible " " = [] :=
  visible_eq_nil (by decide)

/-- Only blank characters are dropped at the end. -/
@[simp] theorem visible_trimEnd (s : String) : visible (trimEnd s) = visible s := by
  have dropped : ∀ cs : List Char, (cs.dropWhile isBlank).filter (fun c => !isBlank c) =
      cs.filter fun c => !isBlank c := by
    intro cs
    induction cs with
    | nil => rfl
    | cons c cs ih => by_cases blank : isBlank c <;> simp [blank, ih]
  rw [visible, trimEnd, String.toList_ofList, dropBlankEnd, List.filter_reverse, dropped,
    ← List.filter_reverse, List.reverse_reverse, visible]

end Text

/-- The visible characters that a token stands for. -/
def Token.visible : Token → List Char
  | .word s | .raw s | .operator s => Text.visible s
  | .mark m => Text.visible m.spelling
  | .sign op => Text.visible op.symbol
  | .comma => [',']
  | .space | .newline | .indent | .dedent | .join | .rejected _ => []

namespace Layout

/-! ### Layout -/

/-- The visible characters written so far. -/
def State.visible (s : State) : List Char :=
  Text.visible s.out ++ Text.visible s.line

section

variable {o : Options} {s : State}

@[simp] theorem State.visible_addSpace : s.addSpace.visible = s.visible := by
  unfold addSpace
  split
  · rfl
  · simp [visible]

theorem State.visible_write (blank : Text.AllBlank o.indent) (text : String) :
    (s.write o.indent text).visible = s.visible ++ Text.visible text := by
  have indentation : ∀ n, Text.visible (String.join (List.replicate n o.indent)) = [] := by
    intro n
    refine Text.visible_eq_nil fun c hc => ?_
    rw [String.toList_join, List.mem_flatMap] at hc
    obtain ⟨level, mem, hc⟩ := hc
    rw [List.eq_of_mem_replicate mem] at hc
    exact blank c hc
  unfold write
  split
  · next empty => simp [visible, empty, indentation]
  · simp [visible]

theorem State.visible_writeApart (blank : Text.AllBlank o.indent) (apart : Bool) (text : String)
    (previous : Previous) :
    (s.writeApart o.indent apart text previous).visible = s.visible ++ Text.visible text := by
  have written := visible_write (s := if apart then s.addSpace else s) blank text
  cases apart with
  | false => exact written
  | true => exact written.trans (by rw [if_pos rfl, visible_addSpace])

theorem State.visible_endLine (blank : Text.AllBlank o.lineSeparator) :
    (s.endLine o.lineSeparator).visible = s.visible := by
  simp [endLine, visible, Text.visible_eq_nil blank]

/-- A token is written as it is spelled, up to blank characters. -/
theorem visible_step {s' : State} (indent : Text.AllBlank o.indent)
    (separator : Text.AllBlank o.lineSeparator) {t : Token} (h : step o s t = .ok s') :
    s'.visible = s.visible ++ t.visible := by
  cases t with
  | word text | mark m | sign op | raw text =>
    obtain rfl := Except.ok.inj h
    exact State.visible_writeApart indent _ _ _
  | operator symbol =>
    obtain rfl := Except.ok.inj h
    rw [State.visible_writeApart indent, Text.visible_append, Text.visible_space, List.append_nil]
    rfl
  | comma =>
    obtain rfl := Except.ok.inj h
    exact State.visible_writeApart indent _ _ _
  | space =>
    obtain rfl := Except.ok.inj h
    exact State.visible_addSpace.trans (List.append_nil _).symm
  | newline =>
    obtain rfl := Except.ok.inj h
    rw [State.visible_endLine separator, Token.visible, List.append_nil]
  | indent | join =>
    obtain rfl := Except.ok.inj h
    exact (List.append_nil _).symm
  | dedent =>
    simp only [step] at h
    split at h
    · cases h
    · obtain rfl := Except.ok.inj h
      exact (List.append_nil _).symm
  | rejected op => cases h

theorem visible_run {s' : State} (indent : Text.AllBlank o.indent)
    (separator : Text.AllBlank o.lineSeparator) {ts : List Token} (h : run o s ts = .ok s') :
    s'.visible = s.visible ++ ts.flatMap Token.visible := by
  induction ts generalizing s with
  | nil =>
    obtain rfl := Except.ok.inj h
    exact (List.append_nil _).symm
  | cons t ts ih =>
    rw [run] at h
    split at h
    · rename_i next stepped
      rw [ih h, visible_step indent separator stepped, List.flatMap_cons, List.append_assoc]
    · cases h

end

end Layout

/-- **A layout has the visible characters of its tokens.** -/
theorem visible_of_layout {o : Options} (indent : Text.AllBlank o.indent)
    (separator : Text.AllBlank o.lineSeparator) {ts : List Token} {text : String}
    (h : layout o ts = .ok text) : Text.visible text = ts.flatMap Token.visible := by
  rw [layout] at h
  split at h
  · rename_i s ran
    rw [Layout.finish] at h
    split at h
    · obtain rfl := Except.ok.inj h
      have written := Layout.visible_run indent separator ran
      rw [Text.visible_append, Text.visible_trimEnd]
      exact written
    · cases h
  · cases h

/-! ### Nodes -/

namespace Span

variable {x y : EmitContext}

mutual

theorem visible_tokens (same : x.attached = y.attached) : ∀ s : Span,
    (s.tokens x).flatMap Token.visible = (s.tokens y).flatMap Token.visible
  | .token t => rfl
  | .blankLine => by
    have blank : ∀ b : Bool, (if b then [Token.newline] else []).flatMap Token.visible = [] := by
      decide
    rw [tokens, tokens, blank, blank]
  | .node w place parts => by
    rw [tokens, tokens, List.flatMap_append, List.flatMap_append, same,
      visible_tokensEach same parts]

theorem visible_tokensEach (same : x.attached = y.attached) : ∀ ss : List Span,
    (tokensEach x ss).flatMap Token.visible = (tokensEach y ss).flatMap Token.visible
  | [] => rfl
  | s :: ss => by
    rw [tokensEach, tokensEach, List.flatMap_append, List.flatMap_append, visible_tokens same s,
      visible_tokensEach same ss]

end

end Span

/-- What is attached decides about the visible characters, and empty lines do not. -/
theorem Node.visible_emit {x y : EmitContext} (same : x.attached = y.attached) (n : Node) :
    (n.emit x).flatMap Token.visible = (n.emit y).flatMap Token.visible := by
  obtain ⟨os, -, ss, -, filled, -⟩ := n.exists_places_emit
  simp only [filled]
  exact Span.visible_tokensEach same ss

/-- **The options decide about blank characters only.** With indentation and line ends of blank
characters, a node has a text for all options or for none, and then the visible characters of the
texts are the same. -/
theorem Node.visible_render_eq (notes : Notes) (n : Node) {o o' : Options}
    (indent : Text.AllBlank o.indent) (separator : Text.AllBlank o.lineSeparator)
    (indent' : Text.AllBlank o'.indent) (separator' : Text.AllBlank o'.lineSeparator) :
    (n.render notes o).map Text.visible = (n.render notes o').map Text.visible := by
  have fails := n.render_fails_iff notes
  cases rendered : n.render notes o with
  | error e =>
    have rendered' := (fails o' e).mpr ((fails o e).mp rendered)
    rw [rendered']
  | ok text =>
    cases rendered' : n.render notes o' with
    | error e =>
      have failed := (fails o e).mpr ((fails o' e).mp rendered')
      rw [rendered] at failed
      cases failed
    | ok text' =>
      have spelled := visible_of_layout indent separator rendered
      have spelled' := visible_of_layout indent' separator' rendered'
      have same : (notes.context o.blankLines).attached = (notes.context o'.blankLines).attached :=
        rfl
      rw [Except.map, Except.map, spelled, spelled', n.visible_emit same]

/-- A class with two members, with tabs and without line ends. -/
theorem Node.visible_render_eq_tabs :
    let member : SimpleName → Tree .member := fun n =>
      .fieldDeclaration none none .nil (.basic none .int) (.variableDeclarator none n 0 .absent)
        .nil
    let n : Node := .tree (.classDeclaration none none .nil ⟨none, "A", rfl⟩ [] none []
      (.cons (member ⟨none, "b", rfl⟩) (.cons (member ⟨none, "c", rfl⟩) .nil)))
    Text.AllBlank "    " ∧ Text.AllBlank "\n" ∧ Text.AllBlank "\t" ∧ Text.AllBlank "" ∧
    n.render {} {} = .ok "class A \x7b\n    int b;\n\n    int c;\n\x7d" ∧
    (n.render {} ⟨"\t", "", false⟩).map Text.visible = .ok "classA\x7bintb;intc;\x7d".toList := by
  intro member n
  refine ⟨by decide, by decide, by decide, by decide, by decide, ?_⟩
  rw [← Node.visible_render_eq {} n (o := {}) (by decide) (by decide) (by decide) (by decide)]
  decide

end JavaSource
