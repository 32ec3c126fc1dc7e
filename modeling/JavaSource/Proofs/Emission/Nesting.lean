import JavaSource.Proofs.Emission.Agreement

/-!
# Brackets, indentation and rejected operators of emitted tokens

Parentheses, brackets, braces, angle brackets and levels of indentation open and close something.
`nestEach` reads tokens with the stack of what is open, and fails where something is closed that was
not opened last. A list of tokens is `Nested` if it leaves every stack as it found it. The tokens of
a node of any kind are nested, whatever its notes are (`Node.nested_emit`).

`firstRejected` is the first operator that a list of tokens rejects. Names, types, documentation and
notes reject nothing and are nested: they are `Quiet`.

Nodes are put together in a few ways (on lines, in braces, behind a keyword, …). For each of them
one lemma evaluates the stack and one finds the first rejected operator; the proofs about trees
unfold the emission of a node and evaluate its parts with them.
-/

namespace JavaSource

/-! ### The stack of open brackets -/

/-- What a token can open and another one close. -/
inductive Bracket where
  | round | square | brace | angle | level
  deriving DecidableEq

/-- What a token opens. -/
@[simp] def Token.opens? : Token → Option Bracket
  | .mark .openParen => some .round
  | .mark .openBracket => some .square
  | .mark .openBrace => some .brace
  | .mark .openAngle => some .angle
  | .indent => some .level
  | _ => none

/-- What a token closes. -/
@[simp] def Token.closes? : Token → Option Bracket
  | .mark .closeParen => some .round
  | .mark .closeBracket => some .square
  | .mark .closeBrace => some .brace
  | .mark .closeAngle => some .angle
  | .dedent => some .level
  | _ => none

/-- The stack of what is open after a token, the last one first. -/
@[simp] def nest (stack : List Bracket) (t : Token) : Option (List Bracket) :=
  match t.opens?, t.closes? with
  | some b, _ => some (b :: stack)
  | none, none => some stack
  | none, some b =>
    match stack with
    | [] => none
    | b' :: stack => if b = b' then some stack else none

/-- The stack of what is open after several tokens. -/
@[simp] def nestEach (stack : List Bracket) : List Token → Option (List Bracket)
  | [] => some stack
  | t :: ts => (nest stack t).bind (nestEach · ts)

/-- What a list of tokens opens, it closes again, and it closes nothing else. -/
abbrev Nested (ts : List Token) : Prop :=
  ∀ stack, nestEach stack ts = some stack

/-- The tokens of each of several nodes are nested. -/
def NestedEach (es : List Emitted) : Prop :=
  ∀ e ∈ es, Nested e.tokens

section

variable {stack : List Bracket} {t : Token} {ts us : List Token} {es es' : List Emitted}

@[simp ↓] theorem nestEach_cons_ite {c : Prop} [Decidable c] {u : Token} :
    nestEach stack ((if c then t else u) :: ts) =
      if c then nestEach stack (t :: ts) else nestEach stack (u :: ts) := by
  split <;> rfl

@[simp] theorem nestEach_ite {c : Prop} [Decidable c] :
    nestEach stack (if c then ts else us) = if c then nestEach stack ts else nestEach stack us :=
  apply_ite (nestEach stack) c ts us

@[simp] theorem nestEach_append :
    nestEach stack (ts ++ us) = (nestEach stack ts).bind (nestEach · us) := by
  induction ts generalizing stack with
  | nil => rfl
  | cons t ts ih => simp only [List.cons_append, nestEach, ih, Option.bind_assoc]

@[simp] theorem nestedEach_nil : NestedEach [] := by
  simp [NestedEach]

@[simp] theorem nestedEach_cons {e : Emitted} :
    NestedEach (e :: es) ↔ Nested e.tokens ∧ NestedEach es := by
  simp [NestedEach]

@[simp] theorem nestedEach_append : NestedEach (es ++ es') ↔ NestedEach es ∧ NestedEach es' := by
  simp [NestedEach, or_imp, forall_and]

theorem nested_flatMap {α : Type} {f : α → List Token} {as : List α}
    (h : ∀ a ∈ as, Nested (f a)) : Nested (as.flatMap f) := by
  induction as with
  | nil => exact fun stack => rfl
  | cons a as ih =>
    intro stack
    rw [List.flatMap_cons, nestEach_append, h a List.mem_cons_self, Option.bind_some]
    exact ih (fun b hb => h b (List.mem_cons_of_mem a hb)) stack

/-! ### Groups of tokens -/

theorem commaSeparated_cons_cons (part part' : List Token) (parts : List (List Token)) :
    commaSeparated (part :: part' :: parts) =
      part ++ .comma :: commaSeparated (part' :: parts) := by
  simp [commaSeparated, List.intercalate_cons_cons]

theorem nested_commaSeparated {parts : List (List Token)} (h : ∀ ts ∈ parts, Nested ts) :
    Nested (commaSeparated parts) := by
  induction parts with
  | nil => exact fun stack => rfl
  | cons part parts ih =>
    have first := h part List.mem_cons_self
    have tail := ih fun ts hts => h ts (List.mem_cons_of_mem part hts)
    cases parts with
    | nil => simpa [commaSeparated] using first
    | cons part' parts =>
      intro stack
      simp [commaSeparated_cons_cons, first, tail]

@[simp] theorem nestEach_joined (h : NestedEach es) : nestEach stack (joined es) = some stack :=
  nested_flatMap h stack

@[simp] theorem nestEach_separated (h : NestedEach es) :
    nestEach stack (separated es) = some stack :=
  nested_commaSeparated (by simpa [NestedEach] using h) stack

@[simp] theorem nestEach_parenthesized :
    nestEach stack (parenthesized ts) =
      (nestEach (.round :: stack) ts).bind (nestEach · [.mark .closeParen]) := by
  simp [parenthesized]

@[simp] theorem nestEach_bracketed :
    nestEach stack (bracketed ts) =
      (nestEach (.square :: stack) ts).bind (nestEach · [.mark .closeBracket]) := by
  simp [bracketed]

@[simp] theorem nestEach_braced :
    nestEach stack (braced ts) =
      (nestEach (.brace :: stack) ts).bind (nestEach · [.mark .closeBrace]) := by
  simp [braced]

@[simp] theorem nestEach_indentedBraces :
    nestEach stack (indentedBraces ts) =
      (nestEach (.level :: .brace :: stack) ts).bind (nestEach · [.dedent, .mark .closeBrace]) := by
  simp [indentedBraces]

@[simp] theorem nestEach_wrapped {own demanded : Precedence} :
    nestEach stack (wrapped own demanded ts) =
      if own.rank < demanded.rank then nestEach stack (parenthesized ts)
      else nestEach stack ts := by
  unfold wrapped
  split <;> rfl

/-! ### Parts of statements and declarations -/

@[simp] theorem nestEach_header {keyword : String} :
    nestEach stack (header keyword ts) = nestEach stack (parenthesized ts) := by
  simp [header]

@[simp] theorem nestEach_lines (h : NestedEach es) : nestEach stack (lines es) = some stack :=
  nested_flatMap (fun e he stack => by simp [h e he]) stack

@[simp] theorem nestEach_body (h : NestedEach es) : nestEach stack (body es) = some stack :=
  nested_flatMap (fun e he stack => by split <;> simp [h e he]) stack

@[simp] theorem nestEach_alternative (h : NestedEach es) :
    nestEach stack (alternative es) = some stack :=
  nested_flatMap (fun e he stack => by
    have single : NestedEach [e] := by simpa using h e he
    split <;> simp [h e he, single]) stack

@[simp] theorem nestEach_branches {openEnded : Bool} {yes no : List Emitted}
    (hy : NestedEach yes) (hn : NestedEach no) :
    nestEach stack (branches openEnded yes no) = some stack := by
  cases no with
  | nil => exact nestEach_body hy
  | cons e no => cases openEnded <;> simp [branches, hy, hn]

@[simp] theorem nestEach_switchLines (h : NestedEach es) :
    nestEach stack (switchLines es) = some stack :=
  nested_flatMap (fun e he stack => by split <;> simp [h e he]) stack

@[simp] theorem nestEach_qualifying (h : NestedEach es) :
    nestEach stack (qualifying es) = some stack :=
  nested_flatMap (fun e he stack => by simp [h e he]) stack

@[simp] theorem nestEach_after_space (h : NestedEach es) :
    nestEach stack (after .space es) = some stack :=
  nested_flatMap (fun e he stack => by simp [h e he]) stack

@[simp] theorem nestEach_after_operator {symbol : String} (h : NestedEach es) :
    nestEach stack (after (.operator symbol) es) = some stack :=
  nested_flatMap (fun e he stack => by simp [h e he]) stack

@[simp] theorem nestEach_attributes {ownLines : Bool} (h : NestedEach es) :
    nestEach stack (attributes ownLines es) = some stack :=
  nested_flatMap (fun e he stack => by split <;> simp [h e he]) stack

@[simp] theorem nestEach_memberLines {blankLines blankFirst : Bool} (h : NestedEach es) :
    nestEach stack (memberLines blankLines blankFirst es) = some stack := by
  induction es generalizing blankFirst with
  | nil => rfl
  | cons e es ih =>
    rw [nestedEach_cons] at h
    cases blankFirst <;> cases blankLines <;> simp [memberLines, h.1, ih h.2]

@[simp] theorem nestEach_members {x : EmitContext} (h : NestedEach es) :
    nestEach stack (members x es) = some stack := by
  simp [members, h]

@[simp] theorem nestEach_constantLines {hasMembers : Bool} (h : NestedEach es) :
    nestEach stack (constantLines hasMembers es) = some stack := by
  induction es with
  | nil => cases hasMembers <;> simp [constantLines]
  | cons e es ih =>
    rw [nestedEach_cons] at h
    cases es with
    | nil => cases hasMembers <;> simp [constantLines, h.1]
    | cons e' es => simp [constantLines, h.1, ih h.2]

@[simp] theorem nestEach_enumBody {x : EmitContext} (h : NestedEach es) (h' : NestedEach es') :
    nestEach stack (enumBody x es es') = some stack := by
  simp [enumBody, h, h']

end

/-! ### The first rejected operator -/

/-- The operator that a token rejects. -/
@[simp] def Token.rejected? : Token → Option InfixOperator
  | .rejected op => some op
  | _ => none

/-- The first operator that several tokens reject. -/
def firstRejected (ts : List Token) : Option InfixOperator :=
  ts.findSome? Token.rejected?

section

variable {t : Token} {ts us : List Token} {es es' : List Emitted}

@[simp] theorem firstRejected_nil : firstRejected [] = none := rfl

@[simp] theorem firstRejected_cons :
    firstRejected (t :: ts) = t.rejected?.or (firstRejected ts) := by
  rw [firstRejected, List.findSome?_cons]
  cases t.rejected? <;> rfl

@[simp] theorem firstRejected_append :
    firstRejected (ts ++ us) = (firstRejected ts).or (firstRejected us) :=
  List.findSome?_append

@[simp] theorem firstRejected_ite {c : Prop} [Decidable c] :
    firstRejected (if c then ts else us) = if c then firstRejected ts else firstRejected us :=
  apply_ite firstRejected c ts us

@[simp ↓] theorem firstRejected_cons_ite {c : Prop} [Decidable c] {u : Token} :
    firstRejected ((if c then t else u) :: ts) =
      if c then firstRejected (t :: ts) else firstRejected (u :: ts) := by
  split <;> rfl

@[simp] theorem joined_nil : joined [] = [] := rfl

@[simp] theorem joined_cons {e : Emitted} : joined (e :: es) = e.tokens ++ joined es := rfl

@[simp] theorem joined_append : joined (es ++ es') = joined es ++ joined es' := by
  simp [joined]

/-- What is put around each of several nodes rejects nothing. -/
@[simp] theorem firstRejected_flatMap {f : Emitted → List Token}
    (h : ∀ e, firstRejected (f e) = firstRejected e.tokens) :
    firstRejected (es.flatMap f) = firstRejected (joined es) := by
  induction es with
  | nil => rfl
  | cons e es ih => simp [h, ih]

theorem firstRejected_flatMap_none {α : Type} {f : α → List Token} {as : List α}
    (h : ∀ a ∈ as, firstRejected (f a) = none) : firstRejected (as.flatMap f) = none := by
  induction as with
  | nil => rfl
  | cons a as ih =>
    simp [h a List.mem_cons_self, ih fun b hb => h b (List.mem_cons_of_mem a hb)]

theorem firstRejected_commaSeparated_none {parts : List (List Token)}
    (h : ∀ ts ∈ parts, firstRejected ts = none) : firstRejected (commaSeparated parts) = none := by
  induction parts with
  | nil => rfl
  | cons part parts ih =>
    have first := h part List.mem_cons_self
    have tail := ih fun ts hts => h ts (List.mem_cons_of_mem part hts)
    cases parts with
    | nil => simpa [commaSeparated] using first
    | cons part' parts => simp [commaSeparated_cons_cons, first, tail]

@[simp] theorem firstRejected_separated :
    firstRejected (separated es) = firstRejected (joined es) := by
  induction es with
  | nil => rfl
  | cons e es ih =>
    cases es with
    | nil => simp [separated, commaSeparated]
    | cons e' es =>
      simp only [separated, List.map_cons, commaSeparated_cons_cons] at ih ⊢
      simp [ih]

@[simp] theorem firstRejected_parenthesized :
    firstRejected (parenthesized ts) = firstRejected ts := by
  simp [parenthesized]

@[simp] theorem firstRejected_bracketed : firstRejected (bracketed ts) = firstRejected ts := by
  simp [bracketed]

@[simp] theorem firstRejected_braced : firstRejected (braced ts) = firstRejected ts := by
  simp [braced]

@[simp] theorem firstRejected_indentedBraces :
    firstRejected (indentedBraces ts) = firstRejected ts := by
  simp [indentedBraces]

@[simp] theorem firstRejected_wrapped {own demanded : Precedence} :
    firstRejected (wrapped own demanded ts) = firstRejected ts := by
  simp [wrapped]

/-- What is written in place of missing nodes rejects nothing. -/
@[simp high] theorem firstRejected_ite_eq_nil [Decidable (es = [])]
    (missing : firstRejected ts = none) (given : firstRejected us = firstRejected (joined es)) :
    firstRejected (if es = [] then ts else us) = firstRejected (joined es) := by
  split
  · next empty => rw [missing, empty, joined_nil, firstRejected_nil]
  · exact given

@[simp] theorem firstRejected_header {keyword : String} :
    firstRejected (header keyword ts) = firstRejected ts := by
  simp [header]

@[simp] theorem firstRejected_lines : firstRejected (lines es) = firstRejected (joined es) :=
  firstRejected_flatMap fun e => by simp

@[simp] theorem firstRejected_body : firstRejected (body es) = firstRejected (joined es) :=
  firstRejected_flatMap fun e => by split <;> simp

@[simp] theorem firstRejected_alternative :
    firstRejected (alternative es) = firstRejected (joined es) :=
  firstRejected_flatMap fun e => by split <;> simp

@[simp] theorem firstRejected_branches {openEnded : Bool} {yes no : List Emitted} :
    firstRejected (branches openEnded yes no) =
      (firstRejected (joined yes)).or (firstRejected (joined no)) := by
  cases no with
  | nil => simp [branches]
  | cons e no => cases openEnded <;> cases ends : endsInBrace yes <;> simp [branches, ends]

@[simp] theorem firstRejected_switchLines :
    firstRejected (switchLines es) = firstRejected (joined es) :=
  firstRejected_flatMap fun e => by split <;> simp

@[simp] theorem firstRejected_qualifying :
    firstRejected (qualifying es) = firstRejected (joined es) :=
  firstRejected_flatMap fun e => by simp

@[simp] theorem firstRejected_after_space :
    firstRejected (after .space es) = firstRejected (joined es) :=
  firstRejected_flatMap fun e => by simp

@[simp] theorem firstRejected_after_operator {symbol : String} :
    firstRejected (after (.operator symbol) es) = firstRejected (joined es) :=
  firstRejected_flatMap fun e => by simp

@[simp] theorem firstRejected_attributes {ownLines : Bool} :
    firstRejected (attributes ownLines es) = firstRejected (joined es) :=
  firstRejected_flatMap fun e => by split <;> simp

@[simp] theorem firstRejected_memberLines {blankLines blankFirst : Bool} :
    firstRejected (memberLines blankLines blankFirst es) = firstRejected (joined es) := by
  induction es generalizing blankFirst with
  | nil => rfl
  | cons e es ih => simp [memberLines, ih]

@[simp] theorem firstRejected_members {x : EmitContext} :
    firstRejected (members x es) = firstRejected (joined es) := by
  simp [members]

@[simp] theorem firstRejected_constantLines {hasMembers : Bool} :
    firstRejected (constantLines hasMembers es) = firstRejected (joined es) := by
  induction es with
  | nil => simp [constantLines]
  | cons e es ih =>
    cases es with
    | nil => simp [constantLines]
    | cons e' es => simpa [constantLines] using congrArg (firstRejected e.tokens).or ih

@[simp] theorem firstRejected_enumBody {x : EmitContext} :
    firstRejected (enumBody x es es') =
      (firstRejected (joined es)).or (firstRejected (joined es')) := by
  simp [enumBody]

end

/-! ### Quiet tokens -/

/-- Tokens that are nested and reject nothing. -/
structure Quiet (ts : List Token) : Prop where
  nested : Nested ts
  accepted : firstRejected ts = none

section

variable {ts us : List Token}

@[simp] theorem nestEach_of_quiet {stack : List Bracket} (h : Quiet ts) :
    nestEach stack ts = some stack :=
  h.nested stack

@[simp] theorem firstRejected_of_quiet (h : Quiet ts) : firstRejected ts = none :=
  h.accepted

theorem quiet_iff :
    Quiet ts ↔ (∀ stack, nestEach stack ts = some stack) ∧ firstRejected ts = none :=
  ⟨fun h => ⟨h.nested, h.accepted⟩, fun h => ⟨h.1, h.2⟩⟩

@[simp] theorem quiet_nil : Quiet [] := by
  exact quiet_iff.mpr (by simp)

theorem quiet_flatMap {α : Type} {f : α → List Token} {as : List α} (h : ∀ a ∈ as, Quiet (f a)) :
    Quiet (as.flatMap f) where
  nested := nested_flatMap fun a ha => (h a ha).nested
  accepted := firstRejected_flatMap_none fun a ha => (h a ha).accepted

theorem quiet_commaSeparated {parts : List (List Token)} (h : ∀ ts ∈ parts, Quiet ts) :
    Quiet (commaSeparated parts) where
  nested := nested_commaSeparated fun ts hts => (h ts hts).nested
  accepted := firstRejected_commaSeparated_none fun ts hts => (h ts hts).accepted

theorem quiet_angled {parts : List (List Token)} (h : ∀ ts ∈ parts, Quiet ts) :
    Quiet (angled parts) := by
  cases parts with
  | nil => exact quiet_nil
  | cons part parts => exact quiet_iff.mpr (by simp [angled, quiet_commaSeparated h])

theorem quiet_clause {keyword : String} {parts : List (List Token)} (h : ∀ ts ∈ parts, Quiet ts) :
    Quiet (clause keyword parts) := by
  cases parts with
  | nil => exact quiet_nil
  | cons part parts => exact quiet_iff.mpr (by simp [clause, quiet_commaSeparated h])

@[simp] theorem quiet_emptyBrackets (n : Nat) : Quiet (emptyBrackets n) := by
  induction n with
  | zero => exact quiet_nil
  | succ n ih => exact quiet_iff.mpr (by simp [emptyBrackets, ih])

end

/-- What is attached to any node is quiet. -/
def EmitContext.IsQuiet (x : EmitContext) : Prop :=
  ∀ h place, Quiet (x.attached h place)

section

variable {x : EmitContext}

theorem EmitContext.IsQuiet.attached (hx : x.IsQuiet) (h : Handle) (place : Placement) :
    Quiet (x.attached h place) :=
  hx h place

/-! ### Names, types and documentation -/

@[simp] theorem SimpleName.quiet_emit (hx : x.IsQuiet) (n : SimpleName) : Quiet (n.emit x) := by
  exact quiet_iff.mpr (by simp [emit, hx.attached])

@[simp] theorem Name.quiet_emit (hx : x.IsQuiet) (n : Name) : Quiet (n.emit x) := by
  induction n with
  | simple n => exact n.quiet_emit hx
  | qualified h q n ih => exact quiet_iff.mpr (by simp [emit, hx.attached, hx, ih])

@[simp] theorem NamedType.quiet_emit (hx : x.IsQuiet) (t : NamedType) : Quiet (t.emit x) := by
  exact quiet_iff.mpr (by simp [emit, hx.attached, hx])

@[simp] theorem Ty.quiet_emit (hx : x.IsQuiet) (t : Ty) : Quiet (t.emit x) := by
  induction t with
  | array h c ih => exact quiet_iff.mpr (by simp [emit, hx.attached, ih])
  | basic h k => exact quiet_iff.mpr (by simp [emit, hx.attached])
  | named t => exact t.quiet_emit hx
  | parameterized h b f r ihb ihf ihr =>
    have arguments : Quiet (angled (f.emit x :: r.map (Ty.emit x))) :=
      quiet_angled (by simpa using ⟨ihf, ihr⟩)
    exact quiet_iff.mpr (by simp [emit, hx.attached, ihb, arguments])
  | qualified h q n ih => exact quiet_iff.mpr (by simp [emit, hx.attached, hx, ih])
  | wildcard h d b ih =>
    have keyword : Quiet (d.keyword.map Token.word).toList := by
      cases d.keyword <;> exact quiet_iff.mpr (by simp)
    cases b with
    | none => exact quiet_iff.mpr (by simp [emit, hx.attached, keyword])
    | some b => exact quiet_iff.mpr (by simp [emit, hx.attached, keyword, ih b rfl])

@[simp] theorem quiet_emitOptional (hx : x.IsQuiet) (t : Option Ty) : Quiet (emitOptional x t) := by
  cases t with
  | none => exact quiet_nil
  | some t => exact t.quiet_emit hx

theorem DocParameter.quiet_emit (hx : x.IsQuiet) (p : DocParameter) : Quiet (p.emit x) := by
  cases hn : p.name <;> exact quiet_iff.mpr (by simp [emit, hx.attached, hx, hn])

@[simp] theorem quiet_docText (s : String) : Quiet (docText s) := by
  unfold docText
  split
  · exact quiet_nil
  · next first rest _ =>
    have continued : Quiet (rest.flatMap fun line => [.newline, .raw " * ", .raw line]) :=
      quiet_flatMap fun line _ => quiet_iff.mpr (by simp)
    exact quiet_iff.mpr (by simp [continued])

/-- A documentation comment adds lines around its blocks. -/
theorem quiet_docComment {blocks : List (List Token)} (h : ∀ b ∈ blocks, Quiet b) :
    Quiet (docComment blocks) := by
  have each : Quiet (blocks.flatMap fun b => Token.raw " * " :: b ++ [Token.newline]) :=
    quiet_flatMap fun b hb => quiet_iff.mpr (by simp [h b hb])
  simp only [List.cons_append] at each
  exact quiet_iff.mpr (by simp [docComment, each])

namespace DocElement

mutual

theorem quiet_emitInside (hx : x.IsQuiet) : ∀ e : DocElement, Quiet (e.emitInside x)
  | .text h s => quiet_docText s
  | .block h tag es => quiet_iff.mpr (by simp [emitInside, hx.attached, quiet_emitAll hx es])
  | .field h t n => quiet_iff.mpr (by simp [emitInside, hx.attached, hx])
  | .method h t n ps => by
    have parameters : Quiet (commaSeparated (ps.map (DocParameter.emit x))) :=
      quiet_commaSeparated (by simpa using fun p _ => DocParameter.quiet_emit hx p)
    exact quiet_iff.mpr (by simp [emitInside, hx.attached, hx, parameters])
  | .name n => quiet_iff.mpr (by simp [emitInside, hx])
  | .type t => quiet_iff.mpr (by simp [emitInside, hx])

theorem quiet_emitAll (hx : x.IsQuiet) : ∀ es : List DocElement, Quiet (emitAll x es)
  | [] => quiet_nil
  | e :: es => quiet_iff.mpr (by simp [emitAll, quiet_emitInside hx e, quiet_emitAll hx es])

end

end DocElement

theorem DocBlock.quiet_emit (hx : x.IsQuiet) (b : DocBlock) : Quiet (b.emit x) := by
  exact quiet_iff.mpr (by simp [emit, hx.attached, DocElement.quiet_emitAll hx b.elements])

theorem DocElement.quiet_emit (hx : x.IsQuiet) (e : DocElement) : Quiet (e.emit x) := by
  cases e with
  | text h s => exact quiet_iff.mpr (by simp [emit, hx.attached])
  | block h tag es => exact DocBlock.quiet_emit hx _
  | field h t n => exact quiet_iff.mpr (by simp [emit, hx.attached, hx])
  | method h t n ps =>
    have parameters : Quiet (commaSeparated (ps.map (DocParameter.emit x))) :=
      quiet_commaSeparated (by simpa using fun p _ => DocParameter.quiet_emit hx p)
    exact quiet_iff.mpr (by simp [emit, hx.attached, hx, parameters])
  | name n => exact n.quiet_emit hx
  | type t => exact t.quiet_emit hx

theorem Javadoc.quiet_emit (hx : x.IsQuiet) (j : Javadoc) : Quiet (j.emit x) := by
  have comment : Quiet (docComment (j.blocks.map (DocBlock.emit x))) :=
    quiet_docComment (by simpa using fun b _ => DocBlock.quiet_emit hx b)
  exact quiet_iff.mpr (by simp [emit, hx.attached, comment])

@[simp] theorem quiet_emitJavadoc (hx : x.IsQuiet) (j : Option Javadoc) :
    Quiet (emitJavadoc x j) := by
  cases j with
  | none => exact quiet_nil
  | some j => exact quiet_iff.mpr (by simp [emitJavadoc, j.quiet_emit hx])

theorem Comment.quiet_emit (hx : x.IsQuiet) (c : Comment) : Quiet (c.emit x) := by
  cases c with
  | block h s => exact quiet_iff.mpr (by simp [emit, hx.attached])
  | line h s => exact quiet_iff.mpr (by simp [emit, hx.attached])
  | javadoc j => exact j.quiet_emit hx

/-! ### Notes -/

theorem Note.quiet_emit (hx : x.IsQuiet) (n : Note) (place : Placement) :
    Quiet (n.emit x place) := by
  have comment : ∀ lines, Quiet (emitComment lines place) := by
    intro lines
    have each : Quiet (lines.flatMap fun line => [.raw (" * " ++ line), .newline]) :=
      quiet_flatMap fun line _ => quiet_iff.mpr (by simp)
    cases place <;> exact quiet_iff.mpr (by simp [emitComment, each])
  have documentation : ∀ blocks : List DocBlock,
      Quiet (docComment (blocks.map (DocBlock.emit x))) :=
    fun blocks => quiet_docComment (by simpa using fun b _ => DocBlock.quiet_emit hx b)
  cases hc : n.comment <;> cases hd : n.documentation <;> cases place <;>
    exact quiet_iff.mpr (by simp [emit, hc, hd, comment, documentation, Placement.separator])

end

/-- **Notes are quiet**, to any depth. -/
theorem Notes.isQuiet_context (notes : Notes) (blankLines : Bool) :
    (notes.context blankLines).IsQuiet := by
  have attached : ∀ depth h place, Quiet (notes.attached depth h place) := by
    intro depth
    induction depth with
    | zero => exact fun h place => quiet_nil
    | succ depth ih => exact fun h place => Note.quiet_emit (fun h place => ih h place) _ place
  exact attached notes.entries.size

section

variable {x : EmitContext}

/-! ### Parts of code without expressions -/

@[simp] theorem Modifier.quiet_emit (hx : x.IsQuiet) (m : Modifier) : Quiet (m.emit x) :=
  quiet_iff.mpr (by simp [emit, hx.attached])

theorem TypeParameter.quiet_emit (hx : x.IsQuiet) (p : TypeParameter) : Quiet (p.emit x) := by
  cases hb : p.bounds with
  | nil => exact quiet_iff.mpr (by simp [emit, hx.attached, hx, hb])
  | cons first rest =>
    have others : Quiet (rest.flatMap fun t => .operator "&" :: t.emit x) :=
      quiet_flatMap fun t _ => quiet_iff.mpr (by simp [hx])
    exact quiet_iff.mpr (by simp [emit, hx.attached, hx, hb, others])

@[simp] theorem quiet_typeParameters (hx : x.IsQuiet) (ps : List TypeParameter) :
    Quiet (typeParameters x ps) :=
  quiet_angled (by simpa using fun p _ => TypeParameter.quiet_emit hx p)

@[simp] theorem quiet_leadingParameters (hx : x.IsQuiet) (ps : List TypeParameter) :
    Quiet (leadingParameters x ps) := by
  cases ps with
  | nil => exact quiet_nil
  | cons p ps => exact quiet_iff.mpr (by simp [leadingParameters, hx])

@[simp] theorem quiet_typeClause (hx : x.IsQuiet) (keyword : String) (ts : List Ty) :
    Quiet (typeClause x keyword ts) :=
  quiet_clause (by simpa using fun t _ => t.quiet_emit hx)

@[simp] theorem quiet_typeArguments (hx : x.IsQuiet) (ts : List Ty) : Quiet (typeArguments x ts) :=
  quiet_angled (by simpa using fun t _ => t.quiet_emit hx)

@[simp] theorem quiet_invocationArguments (hx : x.IsQuiet) (ts : List Ty) :
    Quiet (invocationArguments x ts) := by
  cases ts with
  | nil => exact quiet_nil
  | cons t ts => exact quiet_iff.mpr (by simp [invocationArguments, hx])

@[simp] theorem quiet_emitTarget (hx : x.IsQuiet) (n : Option SimpleName) :
    Quiet (emitTarget x n) := by
  cases n with
  | none => exact quiet_nil
  | some n => exact n.quiet_emit hx

@[simp] theorem quiet_emitTypeQualifier (hx : x.IsQuiet) (t : Option NamedType) :
    Quiet (emitTypeQualifier x t) := by
  cases t with
  | none => exact quiet_nil
  | some t => exact quiet_iff.mpr (by simp [emitTypeQualifier, hx])

theorem ImportDeclaration.quiet_emit (hx : x.IsQuiet) (i : ImportDeclaration) : Quiet (i.emit x) :=
  quiet_iff.mpr (by simp [emit, hx.attached, hx])

/-- **The tokens of code are nested.** -/
theorem Tree.nestedEach_emit (hx : x.IsQuiet) {c : Category} (t : Tree c) (p : Precedence) :
    NestedEach (t.emit x p) := by
  induction t generalizing p with
  | assignmentExpression h left op right ihl ihr =>
    cases spelled : op.assignmentSymbol <;> simp [emit, Nested, spelled, hx.attached, ihl, ihr]
  | postfixExpression h operand op ih =>
    cases op <;> simp [emit, Nested, PostfixOperator.mark, hx.attached, ih]
  | arrayCreationExpression h type sizes values ihs ihv =>
    have given : Nested ((sizes.emit x .lowest).flatMap fun e => bracketed e.tokens) :=
      nested_flatMap fun e he stack => by simp [ihs .lowest e he]
    simp [emit, Nested, hx, hx.attached, given, ihv]
  | tryStatement h inner catches last ihi ihc ihl =>
    have closing : Nested ((last.emit x .lowest).flatMap fun e =>
        [Token.space, .word "finally", .space] ++ e.tokens) :=
      nested_flatMap fun e he stack => by simp [ihl .lowest e he]
    simp only [List.cons_append, List.nil_append] at closing
    simp [emit, Nested, hx.attached, ihi, ihc, closing]
  | annotationElementDeclaration h javadoc modifiers type name value ihm ihv =>
    have given : Nested ((value.emit x .lowest).flatMap fun e =>
        [Token.word "default", .space] ++ e.tokens) :=
      nested_flatMap fun e he stack => by simp [ihv .lowest e he]
    simp only [List.cons_append, List.nil_append] at given
    simp [emit, Nested, hx, hx.attached, ihm, given]
  | _ =>
    -- the stack is evaluated part by part
    simp [emit, Nested, hx.attached, *]

/-! ### Units and nodes -/

theorem PackageDeclaration.nested_emit (hx : x.IsQuiet) (p : PackageDeclaration) :
    Nested (p.emit x) := by
  have annotations : NestedEach (p.annotations.flatMap fun t => t.emit x .lowest) := by
    intro e he
    obtain ⟨t, -, ht⟩ := List.mem_flatMap.mp he
    exact t.nestedEach_emit hx .lowest e ht
  simp [emit, Nested, hx, hx.attached, annotations]

@[simp] theorem nestEach_sectionLines {somethingBefore : Bool} {parts : List (List Token)}
    (h : ∀ ts ∈ parts, Nested ts) :
    nestEach stack (sectionLines somethingBefore parts) = some stack := by
  cases parts with
  | nil => rfl
  | cons part parts =>
    have each : Nested ((part :: parts).flatMap fun ts => ts ++ [Token.newline]) :=
      nested_flatMap fun ts hts stack => by simp [h ts hts]
    have before : Nested (if somethingBefore then [.newline] else []) := by simp [Nested]
    exact (nestEach_append.trans (by rw [before, Option.bind_some, each]))

theorem CompilationUnit.nested_emit (hx : x.IsQuiet) (u : CompilationUnit) : Nested (u.emit x) := by
  have comments : ∀ ts ∈ u.comments.map (Comment.emit x), Nested ts := by
    simpa using fun c _ => (Comment.quiet_emit hx c).nested
  have package : ∀ ts ∈ u.package.toList.map (PackageDeclaration.emit x), Nested ts := by
    simpa using fun p _ => PackageDeclaration.nested_emit hx p
  have imports : ∀ ts ∈ u.imports.map (ImportDeclaration.emit x), Nested ts := by
    simpa using fun i _ => (ImportDeclaration.quiet_emit hx i).nested
  have types : NestedEach (u.types.flatMap fun t => t.emit x .lowest) := by
    intro e he
    obtain ⟨t, -, ht⟩ := List.mem_flatMap.mp he
    exact t.nestedEach_emit hx .lowest e ht
  intro stack
  simp [emit, hx.attached, types, nestEach_sectionLines comments, nestEach_sectionLines package,
    nestEach_sectionLines imports]

end

/-- **The tokens of a node are nested**, whatever is attached to it. -/
theorem Node.nested_emit {x : EmitContext} (hx : x.IsQuiet) (n : Node) : Nested (n.emit x) := by
  cases n with
  | name n => exact (n.quiet_emit hx).nested
  | type t => exact (t.quiet_emit hx).nested
  | docParameter p => exact (p.quiet_emit hx).nested
  | docElement e => exact (e.quiet_emit hx).nested
  | comment c => exact (c.quiet_emit hx).nested
  | typeParameter p => exact (p.quiet_emit hx).nested
  | package p => exact p.nested_emit hx
  | importing i => exact (i.quiet_emit hx).nested
  | unit u => exact u.nested_emit hx
  | tree t => exact fun stack => nestEach_joined (t.nestedEach_emit hx .lowest)

end JavaSource
