import JavaSource.Emission.Unit
import JavaSource.Proofs.Emission.Nesting
import JavaSource.Proofs.Lines.Layout

/-!
# Groups of tokens and the lines they are on

What a group of tokens does to the line in front of it is one of a few things.

* `Inks`: it ends on a line with text. Statements and declarations do, whatever line they start on.
* `Steady`: it can start on every line, and behind text it ends behind text. Expressions are steady;
  they need not write anything that can be seen, since a literal may be blank. Steady tokens with a
  visible one among them are inking (`Steady.inks`).
* `Passes`: it can start on every line, as annotations in front of a declaration do. `EndsLines`: it
  also ends at the start of a line, as comments in front of a declaration do.
* `Keeps`: behind text it ends behind text, as running text in a comment does.

The groups that end lines inside (`lines`, `memberLines`, `body`, …) demand of their members that
they ink, since only then the end of the line is behind text.
-/

namespace JavaSource

theorem LineKind.run_append (k : LineKind) (ts us : List Token) :
    k.run (ts ++ us) = (k.run ts).bind (run · us) := by
  induction ts generalizing k with
  | nil => rfl
  | cons t ts ih => simp only [List.cons_append, run, ih, Option.bind_assoc]

/-! ### Single tokens -/

namespace Token

/-- Whether a token stays on its line. -/
def isInline (t : Token) : Bool :=
  t ≠ .newline && !t.written.toList.contains '\n'

/-- Whether a token stays on its line and can be seen. -/
def isInk (t : Token) : Bool :=
  t.isInline && !t.written.toList.all Text.isBlank

theorem isInline_of_isInk {t : Token} (h : t.isInk = true) : t.isInline = true :=
  (Bool.and_eq_true _ _ ▸ h : _ ∧ _).1

theorem isInline_raw {text : String} : (raw text).isInline = true ↔ '\n' ∉ text.toList := by
  simp [isInline, written]

theorem isInline_word {text : String} : (word text).isInline = true ↔ '\n' ∉ text.toList := by
  simp [isInline, written]

theorem isInk_raw {text : String} :
    (raw text).isInk = true ↔ '\n' ∉ text.toList ∧ ¬ Text.AllBlank text := by
  rw [isInk, Bool.and_eq_true, isInline_raw, Bool.not_eq_true', ← Bool.not_eq_true,
    List.all_eq_true]
  rfl

theorem isInk_raw_append {text more : String} (h : (raw text).isInk = true)
    (unbroken : '\n' ∉ more.toList) : (raw (text ++ more)).isInk = true := by
  rw [isInk_raw] at h ⊢
  rw [String.toList_append, List.mem_append, Text.allBlank_append]
  exact ⟨not_or.mpr ⟨h.1, unbroken⟩, fun blank => h.2 blank.1⟩

@[simp] theorem isInk_mark (m : Mark) : (mark m).isInk = true := by
  cases m <;> decide

theorem isInline_mark (m : Mark) : (mark m).isInline = true :=
  isInline_of_isInk (isInk_mark m)

theorem isInline_sign (op : UnaryOperator) : (sign op).isInline = true := by
  cases op <;> decide

end Token

theorem LineKind.next_of_isInline {t : Token} (h : t.isInline = true) (k : LineKind) :
    k.next t = some (if Text.AllBlank t.written then k else .inked) := by
  rw [Token.isInline, Bool.and_eq_true, decide_eq_true_eq] at h
  have unbroken : '\n' ∉ t.written.toList := by simpa using h.2
  rw [LineKind.next_of_ne h.1, LineKind.write, if_neg unbroken]

theorem LineKind.next_of_isInk {t : Token} (h : t.isInk = true) (k : LineKind) :
    k.next t = some .inked := by
  have visible : ¬ Text.AllBlank t.written := by
    rw [Text.AllBlank, ← List.all_eq_true]
    rw [Token.isInk, Bool.and_eq_true, Bool.not_eq_true'] at h
    simp [h.2]
  rw [LineKind.next_of_isInline (Token.isInline_of_isInk h), if_neg visible]

/-! ### Lists of tokens -/

/-- Tokens that can be written on every line. -/
def Passes (ts : List Token) : Prop :=
  ∀ k : LineKind, ∃ k', k.run ts = some k'

/-- Tokens that end on the line they start on or at the start of a line, behind one with text. -/
def EndsLines (ts : List Token) : Prop :=
  ∀ k : LineKind, k.run ts = some k ∨ k.run ts = some .afterText

/-- Tokens that end behind text if they start behind text. -/
def Keeps (ts : List Token) : Prop :=
  LineKind.run .inked ts = some .inked

instance {ts : List Token} : Decidable (Keeps ts) :=
  inferInstanceAs (Decidable (LineKind.run .inked ts = some .inked))

/-- Tokens that can be written on every line and end behind text if they start behind text. -/
structure Steady (ts : List Token) : Prop where
  passes : Passes ts
  keeps : Keeps ts

/-- Tokens that end behind text, whatever line they start on. -/
def Inks (ts : List Token) : Prop :=
  ∀ k : LineKind, k.run ts = some .inked

/-- The tokens of each of several nodes are steady. -/
def SteadyEach (es : List Emitted) : Prop :=
  ∀ e ∈ es, Steady e.tokens

/-- The tokens of each of several nodes end behind text. -/
def InksEach (es : List Emitted) : Prop :=
  ∀ e ∈ es, Inks e.tokens

section

variable {t : Token} {ts us : List Token} {es es' : List Emitted} {k : LineKind}

theorem Inks.steady (h : Inks ts) : Steady ts :=
  ⟨fun k => ⟨.inked, h k⟩, h .inked⟩

theorem InksEach.steadyEach (h : InksEach es) : SteadyEach es :=
  fun e he => (h e he).steady

theorem passes_nil : Passes [] :=
  fun k => ⟨k, rfl⟩

theorem endsLines_nil : EndsLines [] :=
  fun _ => .inl rfl

theorem keeps_nil : Keeps [] :=
  rfl

theorem steady_nil : Steady [] :=
  ⟨passes_nil, keeps_nil⟩

theorem Passes.append (h : Passes ts) (h' : Passes us) : Passes (ts ++ us) := by
  intro k
  obtain ⟨k₁, first⟩ := h k
  obtain ⟨k₂, second⟩ := h' k₁
  exact ⟨k₂, by rw [LineKind.run_append, first, Option.bind_some, second]⟩

theorem EndsLines.passes (h : EndsLines ts) : Passes ts :=
  fun k => (h k).elim (fun ran => ⟨k, ran⟩) fun ran => ⟨.afterText, ran⟩

theorem EndsLines.append (h : EndsLines ts) (h' : EndsLines us) : EndsLines (ts ++ us) := by
  intro k
  rw [LineKind.run_append]
  rcases h k with first | first
  · rw [first]
    exact h' k
  · rw [first]
    exact .inr ((h' .afterText).elim id id)

theorem Keeps.append (h : Keeps ts) (h' : Keeps us) : Keeps (ts ++ us) := by
  rw [Keeps, LineKind.run_append, h, Option.bind_some, h']

theorem Steady.append (h : Steady ts) (h' : Steady us) : Steady (ts ++ us) :=
  ⟨h.passes.append h'.passes, h.keeps.append h'.keeps⟩

theorem Inks.append_keeps (h : Inks ts) (h' : Keeps us) : Inks (ts ++ us) := by
  intro k
  rw [LineKind.run_append, h, Option.bind_some, h']

theorem Passes.append_inks (h : Passes ts) (h' : Inks us) : Inks (ts ++ us) := by
  intro k
  obtain ⟨k', first⟩ := h k
  rw [LineKind.run_append, first, Option.bind_some, h']

/-- The end of a line behind text. -/
theorem Inks.run_append_newline (h : Inks ts) (k : LineKind) (us : List Token) :
    k.run (ts ++ .newline :: us) = LineKind.run .afterText us := by
  rw [LineKind.run_append, h, Option.bind_some]
  rfl

theorem Inks.endsLines_append_newline (h : Inks ts) : EndsLines (ts ++ [Token.newline]) :=
  fun k => .inr (h.run_append_newline k [])

theorem Inks.passes_append_newline (h : Inks ts) : Passes (ts ++ [Token.newline]) :=
  h.endsLines_append_newline.passes

theorem inks_singleton (h : t.isInk = true) : Inks [t] := by
  intro k
  rw [LineKind.run, LineKind.next_of_isInk h, Option.bind_some, LineKind.run]

theorem steady_singleton (h : t.isInline = true) : Steady [t] := by
  refine ⟨fun k => ⟨if Text.AllBlank t.written then k else .inked, ?_⟩, ?_⟩
  · rw [LineKind.run, LineKind.next_of_isInline h, Option.bind_some, LineKind.run]
  · rw [Keeps, LineKind.run, LineKind.next_of_isInline h, ite_self, Option.bind_some, LineKind.run]

theorem Steady.cons (h : t.isInline = true) (h' : Steady ts) : Steady (t :: ts) :=
  (steady_singleton h).append h'

theorem Inks.cons (h : t.isInline = true) (h' : Inks ts) : Inks (t :: ts) :=
  (steady_singleton h).passes.append_inks h'

theorem inks_cons (h : t.isInk = true) (h' : Keeps ts) : Inks (t :: ts) :=
  (inks_singleton h).append_keeps h'

theorem Keeps.cons (h : t.isInline = true) (h' : Keeps ts) : Keeps (t :: ts) :=
  (steady_singleton h).keeps.append h'

/-- Behind a visible token the line has text, and steady tokens leave it that way. -/
theorem Steady.inks (h : Steady ts) (visible : ts.any Token.isInk = true) : Inks ts := by
  obtain ⟨t, mem, ink⟩ := List.any_eq_true.mp visible
  obtain ⟨front, back, rfl⟩ := List.append_of_mem mem
  have behind {k k' : LineKind} (ran : k.run (front ++ t :: back) = some k') :
      LineKind.run .inked back = some k' := by
    rw [LineKind.run_append] at ran
    obtain ⟨k₁, -, ran⟩ := Option.bind_eq_some_iff.mp ran
    rwa [LineKind.run, LineKind.next_of_isInk ink, Option.bind_some] at ran
  intro k
  obtain ⟨k', ran⟩ := h.passes k
  rw [ran, ← behind ran, behind h.keeps]

/-- A property that holds of no tokens and of what is put together holds of several parts. -/
theorem of_flatMap {C : List Token → Prop} (nil : C [])
    (append : ∀ {ts us}, C ts → C us → C (ts ++ us)) {α : Type} {f : α → List Token} {as : List α}
    (h : ∀ a ∈ as, C (f a)) : C (as.flatMap f) := by
  induction as with
  | nil => exact nil
  | cons a as ih =>
    rw [List.flatMap_cons]
    exact append (h a List.mem_cons_self) (ih fun b hb => h b (List.mem_cons_of_mem a hb))

theorem passes_flatMap {α : Type} {f : α → List Token} {as : List α}
    (h : ∀ a ∈ as, Passes (f a)) : Passes (as.flatMap f) :=
  of_flatMap passes_nil .append h

theorem keeps_flatMap {α : Type} {f : α → List Token} {as : List α}
    (h : ∀ a ∈ as, Keeps (f a)) : Keeps (as.flatMap f) :=
  of_flatMap keeps_nil .append h

theorem steady_flatMap {α : Type} {f : α → List Token} {as : List α}
    (h : ∀ a ∈ as, Steady (f a)) : Steady (as.flatMap f) :=
  of_flatMap steady_nil .append h

theorem steady_ite {c : Prop} [Decidable c] (h : Steady ts) (h' : Steady us) :
    Steady (if c then ts else us) := by
  split
  · exact h
  · exact h'

theorem inksEach_singleton {kind : Kind} : InksEach [⟨kind, ts⟩] ↔ Inks ts := by
  simp [InksEach]

theorem steadyEach_singleton {kind : Kind} : SteadyEach [⟨kind, ts⟩] ↔ Steady ts := by
  simp [SteadyEach]

theorem InksEach.append (h : InksEach es) (h' : InksEach es') : InksEach (es ++ es') := by
  intro e he
  rcases List.mem_append.mp he with he | he
  · exact h e he
  · exact h' e he

theorem SteadyEach.append (h : SteadyEach es) (h' : SteadyEach es') : SteadyEach (es ++ es') := by
  intro e he
  rcases List.mem_append.mp he with he | he
  · exact h e he
  · exact h' e he

/-! ### Groups on one line -/

theorem steady_joined (h : SteadyEach es) : Steady (joined es) :=
  steady_flatMap h

theorem inks_joined (h : InksEach es) (nonempty : es ≠ []) : Inks (joined es) := by
  obtain ⟨e, es, rfl⟩ := List.exists_cons_of_ne_nil nonempty
  have rest : Steady (joined es) :=
    steady_joined fun e' he' => (h e' (List.mem_cons_of_mem e he')).steady
  exact (h e List.mem_cons_self).append_keeps rest.keeps

theorem steady_commaSeparated {parts : List (List Token)} (h : ∀ ts ∈ parts, Steady ts) :
    Steady (commaSeparated parts) := by
  induction parts with
  | nil => exact steady_nil
  | cons part parts ih =>
    have first := h part List.mem_cons_self
    have tail := ih fun ts hts => h ts (List.mem_cons_of_mem part hts)
    cases parts with
    | nil => simpa [commaSeparated] using first
    | cons part' parts =>
      rw [commaSeparated_cons_cons]
      exact first.append (.cons (by decide) tail)

theorem steady_separated (h : SteadyEach es) : Steady (separated es) :=
  steady_commaSeparated (by simpa [SteadyEach] using h)

/-- Tokens between two marks. -/
theorem inks_enclosed (left right : Mark) (h : Steady ts) :
    Inks (.mark left :: ts ++ [Token.mark right]) :=
  (inks_cons (Token.isInk_mark left) h.keeps).append_keeps
    (inks_singleton (Token.isInk_mark right)).steady.keeps

theorem inks_parenthesized (h : Steady ts) : Inks (parenthesized ts) :=
  inks_enclosed .openParen .closeParen h

theorem inks_bracketed (h : Steady ts) : Inks (bracketed ts) :=
  inks_enclosed .openBracket .closeBracket h

theorem inks_braced (h : Steady ts) : Inks (braced ts) :=
  inks_enclosed .openBrace .closeBrace h

theorem steady_angled {parts : List (List Token)} (h : ∀ ts ∈ parts, Steady ts) :
    Steady (angled parts) := by
  cases parts with
  | nil => exact steady_nil
  | cons part parts =>
    exact (inks_enclosed .openAngle .closeAngle (steady_commaSeparated h)).steady

theorem steady_emptyBrackets : ∀ n, Steady (emptyBrackets n)
  | 0 => steady_nil
  | n + 1 => .cons (by decide) (.cons (by decide) (steady_emptyBrackets n))

theorem steady_wrapped {own demanded : Precedence} (h : Steady ts) :
    Steady (wrapped own demanded ts) :=
  steady_ite (inks_parenthesized h).steady h

theorem steady_clause {keyword : String} {parts : List (List Token)}
    (h : (Token.word keyword).isInline = true) (h' : ∀ ts ∈ parts, Steady ts) :
    Steady (clause keyword parts) := by
  cases parts with
  | nil => exact steady_nil
  | cons part parts => exact .cons h (steady_commaSeparated h')

theorem inks_header (keyword : String) (h : (Token.word keyword).isInline = true)
    (h' : Steady ts) : Inks (header keyword ts) :=
  .cons h (.cons (by decide) (inks_parenthesized h'))

theorem steady_after (h : t.isInline = true) (h' : SteadyEach es) : Steady (after t es) :=
  steady_flatMap fun e he => .cons h (h' e he)

theorem steady_qualifying (h : SteadyEach es) : Steady (qualifying es) :=
  steady_flatMap fun e he => (h e he).append (steady_singleton (by decide))

theorem steady_flatMap_append (h : Steady ts) (h' : SteadyEach es) :
    Steady (es.flatMap fun e => ts ++ e.tokens) :=
  steady_flatMap fun e he => h.append (h' e he)

theorem steady_flatMap_bracketed (h : SteadyEach es) :
    Steady (es.flatMap fun e => bracketed e.tokens) :=
  steady_flatMap fun e he => (inks_bracketed (h e he)).steady

theorem steady_attributes (h : InksEach es) : Steady (attributes false es) :=
  steady_flatMap fun e he =>
    (h e he).steady.append (steady_singleton (t := .space) (by decide))

/-! ### Groups on several lines -/

/-- Braces around what can be written behind the opening one. -/
theorem inks_indentedBraces (h : ∃ k, LineKind.run .afterText ts = some k) :
    Inks (indentedBraces ts) := by
  obtain ⟨k', inside⟩ := h
  intro k
  have opening : k.run [.mark .openBrace, .newline, .indent] = some .afterText := by
    cases k <;> decide
  have closing : k'.run [.dedent, .mark .closeBrace] = some .inked := by cases k' <;> decide
  rw [indentedBraces, LineKind.run_append, LineKind.run_append, opening, Option.bind_some, inside,
    Option.bind_some, closing]

theorem passes_lines (h : InksEach es) : Passes (lines es) :=
  passes_flatMap fun e he => (h e he).passes_append_newline

theorem inks_indentedBraces_lines (h : InksEach es) : Inks (indentedBraces (lines es)) :=
  inks_indentedBraces (passes_lines h .afterText)

theorem passes_switchLines (h : InksEach es) : Passes (switchLines es) := by
  refine passes_flatMap fun e he => ?_
  split
  · exact (h e he).passes_append_newline
  · intro k
    exact ⟨.afterText, (Inks.cons (by decide) (h e he)).run_append_newline k [.dedent]⟩

theorem inks_indentedBraces_switchLines (h : InksEach es) :
    Inks (indentedBraces (switchLines es)) :=
  inks_indentedBraces (passes_switchLines h .afterText)

theorem passes_attributes (h : InksEach es) : Passes (attributes true es) := by
  refine passes_flatMap fun e he => ?_
  split
  · exact (h e he).passes_append_newline
  · exact ((h e he).steady.append (steady_singleton (by decide))).passes

theorem keeps_body (h : InksEach es) : Keeps (body es) := by
  refine keeps_flatMap fun e he => ?_
  have next : LineKind.run .inked [.newline, .indent] = some .afterText := by decide
  split
  · exact (Inks.cons (by decide) (h e he)).steady.keeps
  · rw [Keeps, List.append_assoc, LineKind.run_append, next, Option.bind_some]
    exact (h e he).append_keeps (steady_singleton (by decide)).keeps _

theorem keeps_alternative (h : InksEach es) : Keeps (alternative es) := by
  refine keeps_flatMap fun e he => ?_
  split
  · exact (Inks.cons (by decide) (h e he)).steady.keeps
  · exact keeps_body (by simpa [InksEach] using h e he)

theorem keeps_branches {openEnded : Bool} {yes no : List Emitted} (h : InksEach yes)
    (h' : InksEach no) : Keeps (branches openEnded yes no) := by
  cases no with
  | nil => exact keeps_body h
  | cons e no =>
    have first : Keeps (if openEnded then .space :: indentedBraces (lines yes) else body yes) := by
      split
      · exact (Inks.cons (by decide) (inks_indentedBraces_lines h)).steady.keeps
      · exact keeps_body h
    have between : Keeps [if openEnded || endsInBrace yes then .space else .newline,
        .word "else"] := by
      unfold Keeps
      split <;> decide
    exact (first.append between).append (keeps_alternative h')

/-- Members leave an empty line only behind text. -/
theorem run_memberLines {blankLines blankFirst : Bool} (h : InksEach es)
    (start : blankFirst = true → k = .afterText) :
    k.run (memberLines blankLines blankFirst es) =
      some (if es.isEmpty then k else .afterText) := by
  induction es generalizing k blankFirst with
  | nil => rfl
  | cons e es ih =>
    obtain ⟨k', before⟩ :
        ∃ k', k.run (if blankFirst && blankLines then [.newline] else []) = some k' := by
      split
      · next both =>
        obtain rfl := start (Bool.and_eq_true _ _ ▸ both : _ ∧ _).1
        exact ⟨.afterBlank, rfl⟩
      · exact ⟨k, rfl⟩
    have rest : LineKind.run .afterText (memberLines blankLines true es) = some .afterText := by
      simpa using ih (fun e' he' => h e' (List.mem_cons_of_mem e he')) (fun _ => rfl)
    rw [memberLines, List.append_assoc, LineKind.run_append, before, Option.bind_some,
      (h e List.mem_cons_self).run_append_newline, rest]
    rfl

theorem inks_members {x : EmitContext} (h : InksEach es) : Inks (members x es) :=
  .cons (by decide) (inks_indentedBraces ⟨_, run_memberLines h (by simp)⟩)

theorem run_constantLines {hasMembers : Bool} (h : InksEach es) :
    LineKind.run .afterText (constantLines hasMembers es) = some .afterText := by
  induction es with
  | nil => cases hasMembers <;> decide
  | cons e es ih =>
    have first := h e List.mem_cons_self
    have tail := ih fun e' he' => h e' (List.mem_cons_of_mem e he')
    cases es with
    | nil =>
      have semicolon : Keeps (if hasMembers then [.mark .semicolon] else []) := by
        cases hasMembers <;> decide
      exact (first.append_keeps semicolon).run_append_newline _ []
    | cons e' es =>
      have comma : Keeps [.mark .comma] := by decide
      rw [constantLines, List.append_assoc, List.cons_append, List.singleton_append,
        ← List.singleton_append, ← List.append_assoc,
        (first.append_keeps comma).run_append_newline, tail]
      exact fun nil => absurd nil (List.cons_ne_nil e' es)

theorem inks_enumBody {x : EmitContext} (h : InksEach es) (h' : InksEach es') :
    Inks (enumBody x es es') := by
  refine .cons (by decide) (inks_indentedBraces ⟨.afterText, ?_⟩)
  rw [LineKind.run_append, run_constantLines h, Option.bind_some, run_memberLines h' fun _ => rfl,
    ite_self]

/-- Parts on a line each. -/
theorem run_flatMap_newline {parts : List (List Token)} (h : ∀ ts ∈ parts, Inks ts)
    (k : LineKind) :
    k.run (parts.flatMap fun ts => ts ++ [Token.newline]) =
      some (if parts.isEmpty then k else .afterText) := by
  induction parts generalizing k with
  | nil => rfl
  | cons part parts ih =>
    rw [List.flatMap_cons, List.append_assoc, List.singleton_append,
      (h part List.mem_cons_self).run_append_newline,
      ih fun ts hts => h ts (List.mem_cons_of_mem part hts), ite_self]
    rfl

/-- A section leaves an empty line only behind text. -/
theorem run_sectionLines {somethingBefore : Bool} {parts : List (List Token)}
    (h : ∀ ts ∈ parts, Inks ts) (start : somethingBefore = true → k = .afterText) :
    k.run (sectionLines somethingBefore parts) =
      some (if parts.isEmpty then k else .afterText) := by
  cases parts with
  | nil => rfl
  | cons part parts =>
    rw [sectionLines, LineKind.run_append]
    · cases somethingBefore with
      | false => exact run_flatMap_newline h k
      | true =>
        obtain rfl := start rfl
        exact run_flatMap_newline h .afterBlank
    · exact List.cons_ne_nil part parts

end

end JavaSource
