import JavaSource.Proofs.Emission.Places

/-!
# Comments leave the code as it is

Code is every token but raw text, spaces and line ends (`Token.isCode`). A comment has no code, so
whatever comments are attached to the nodes of a tree, the code is the same, and so is the reason
why there is no text, if there is none (`Node.codeTokens_emit_withComments`).

Comments can be attached inside documentation, which is itself attached to nodes and has code of its
own: the names and types it mentions. Two assignments of comments share the documentation, and its
code is compared level by level (`Notes.codeTokens_attached`).
-/

namespace JavaSource

/-- Whether a token is part of the code: all tokens are, but for raw text and what stands between
tokens. -/
def Token.isCode : Token → Bool
  | .raw _ | .space | .newline => false
  | .word _ | .mark _ | .sign _ | .operator _ | .comma | .join | .indent | .dedent
  | .rejected _ => true

/-- The code of a list of tokens. -/
def codeTokens (ts : List Token) : List Token :=
  ts.filter Token.isCode

/-- The same notes with other comments: `comments` are the lines of the comment of each handle. -/
def Notes.withComments (notes : Notes) (comments : Nat → Option (List String)) : Notes :=
  ⟨notes.entries.mapIdx fun i n => { n with comment := comments i }⟩

/-! ### Contexts that attach the same code -/

@[simp] theorem codeTokens_nil : codeTokens [] = [] := rfl

@[simp] theorem codeTokens_append (ts us : List Token) :
    codeTokens (ts ++ us) = codeTokens ts ++ codeTokens us :=
  List.filter_append ts us

theorem codeTokens_flatMap {α : Type} (f : α → List Token) (as : List α) :
    codeTokens (as.flatMap f) = as.flatMap fun a => codeTokens (f a) :=
  List.filter_flatMap

/-- Two contexts attach the same code to every node. -/
def EmitContext.AttachesSameCode (x y : EmitContext) : Prop :=
  ∀ h place, codeTokens (x.attached h place) = codeTokens (y.attached h place)

section

variable {x y : EmitContext}

namespace Span

mutual

theorem codeTokens_tokens (same : x.AttachesSameCode y) : ∀ s : Span,
    codeTokens (s.tokens x) = codeTokens (s.tokens y)
  | .token t => rfl
  | .blankLine => by
    have blank : ∀ b : Bool, codeTokens (if b then [.newline] else []) = [] := by decide
    rw [tokens, tokens, blank, blank]
  | .node w place parts => by
    rw [tokens, tokens, codeTokens_append, codeTokens_append, same,
      codeTokens_tokensEach same parts]

theorem codeTokens_tokensEach (same : x.AttachesSameCode y) : ∀ ss : List Span,
    codeTokens (tokensEach x ss) = codeTokens (tokensEach y ss)
  | [] => rfl
  | s :: ss => by
    rw [tokensEach, tokensEach, codeTokens_append, codeTokens_append, codeTokens_tokens same s,
      codeTokens_tokensEach same ss]

end

end Span

/-- **The code of a node depends on the code of its attachments only.** -/
theorem Node.codeTokens_emit (same : x.AttachesSameCode y) (n : Node) :
    codeTokens (n.emit x) = codeTokens (n.emit y) := by
  obtain ⟨os, -, ss, -, filled, -⟩ := n.exists_places_emit
  simp only [filled]
  exact Span.codeTokens_tokensEach same ss

theorem DocBlock.codeTokens_emit (same : x.AttachesSameCode y) (b : DocBlock) :
    codeTokens (b.emit x) = codeTokens (b.emit y) :=
  Node.codeTokens_emit same (.docElement b.toElement)

/-! ### Notes -/

theorem codeTokens_emitComment (lines : List String) (place : Placement) :
    codeTokens (emitComment lines place) = [] := by
  cases place with
  | inline => rfl
  | ownLine =>
    have each : codeTokens (lines.flatMap fun line => [.raw (" * " ++ line), .newline]) = [] := by
      rw [codeTokens_flatMap, List.flatMap_eq_nil_iff]
      exact fun _ _ => rfl
    rw [emitComment, codeTokens_append, codeTokens_append, each]
    rfl

/-- The code of a documentation comment is that of its blocks. -/
theorem codeTokens_docComment (blocks : List (List Token)) :
    codeTokens (docComment blocks) = blocks.flatMap codeTokens := by
  have line (b : List Token) :
      codeTokens (Token.raw " * " :: b ++ [Token.newline]) = codeTokens b := by
    rw [codeTokens_append, show codeTokens [.newline] = [] from rfl, List.append_nil]
    rfl
  rw [docComment, codeTokens_append, codeTokens_append, codeTokens_flatMap]
  simp only [line]
  exact List.append_nil _

/-- The code of a note is that of its documentation. -/
theorem Note.codeTokens_emit (x : EmitContext) (n : Note) (place : Placement) :
    codeTokens (n.emit x place) =
      n.documentation.toList.flatMap fun blocks =>
        blocks.flatMap fun b => codeTokens (b.emit x) := by
  have separator : codeTokens [place.separator] = [] := by cases place <;> rfl
  obtain ⟨comment, documentation⟩ := n
  rw [emit, codeTokens_append]
  cases comment <;> cases documentation <;>
    simp [codeTokens_emitComment, codeTokens_docComment, separator, List.flatMap_map]

end

namespace Notes

variable (notes : Notes) (comments comments' : Nat → Option (List String))

theorem documentation_withComments (h : Handle) :
    ((notes.withComments comments).find h).documentation = (notes.find h).documentation := by
  cases h with
  | none => rfl
  | some i =>
    rw [find, find, withComments, Array.getElem?_mapIdx]
    cases notes.entries[i]? <;> rfl

/-- Two assignments of comments attach the same code, to any depth. -/
theorem codeTokens_attached (depth : Nat) (h : Handle) (place : Placement) :
    codeTokens ((notes.withComments comments).attached depth h place) =
      codeTokens ((notes.withComments comments').attached depth h place) := by
  induction depth generalizing h place with
  | zero => rfl
  | succ depth ih =>
    have same : EmitContext.AttachesSameCode ⟨(notes.withComments comments).attached depth, false⟩
        ⟨(notes.withComments comments').attached depth, false⟩ := ih
    rw [attached, attached, Note.codeTokens_emit, Note.codeTokens_emit, documentation_withComments,
      documentation_withComments]
    exact List.flatMap_congr fun _ _ => List.flatMap_congr fun b _ => b.codeTokens_emit same

theorem attachesSameCode_withComments (blankLines : Bool) :
    ((notes.withComments comments).context blankLines).AttachesSameCode
      ((notes.withComments comments').context blankLines) := by
  intro h place
  -- The notes are followed as deep as there are handles, and both have the same handles.
  have size (c) : (notes.withComments c).entries.size = notes.entries.size := Array.size_mapIdx
  simp only [context, size]
  exact notes.codeTokens_attached comments comments' _ h place

end Notes

/-- **Comments do not change the code.** With any two assignments of comments to the nodes of a tree
and of its documentation, the tree has a text with both or fails with both for the same reason, and
the code is the same. -/
theorem Node.codeTokens_emit_withComments (n : Node) (notes : Notes)
    (comments comments' : Nat → Option (List String)) (o : Options) :
    (∀ err, n.render (notes.withComments comments) o = .error err ↔
      n.render (notes.withComments comments') o = .error err) ∧
    codeTokens (n.emit ((notes.withComments comments).context o.blankLines)) =
      codeTokens (n.emit ((notes.withComments comments').context o.blankLines)) := by
  constructor
  · intro err
    rw [render_fails_iff, render_fails_iff]
  · exact n.codeTokens_emit (notes.attachesSameCode_withComments comments comments' o.blankLines)

end JavaSource
