import JavaSource.Proofs.Emission.Nesting
import JavaSource.Proofs.Lexing.Layout

/-!
# Tokens between their neighbours

`Leads P ts Q` says what the tokens `ts` do with what may follow: behind each edge of `P` they
succeed, and they end with an edge of `Q`. The parts of a text are put together by `Leads.append`.
Two cases have rules of their own.

* Most groups of tokens lead from `Edge.loose` back to `Edge.loose` (`Flows`). The exceptions are
  points, colons, signs and `...`, each of which needs its own neighbours.
* Names, types and everything in brackets can stand anywhere, and anything can follow them
  (`Closes`).
-/

namespace JavaSource

/-! ### Tokens between edges -/

/-- Behind each edge of `P` the tokens succeed, and they end with an edge of `Q`. -/
def Leads (P : List Edge) (ts : List Token) (Q : List Edge) : Prop :=
  ∀ e ∈ P, ∃ e' ∈ Q, e.run ts = some e'

instance {P Q : List Edge} {ts : List Token} : Decidable (Leads P ts Q) :=
  inferInstanceAs (Decidable (∀ e ∈ P, ∃ e' ∈ Q, e.run ts = some e'))

namespace Edge

/-- All edges. -/
def any : List Edge := [.clear, .number, .point, .colon, .sign]

/-- The edges in front of an expression. -/
def operand : List Edge := [.clear, .number, .colon, .sign]

/-- The edges between statements and between declarations. -/
def loose : List Edge := [.clear, .number, .colon]

/-- The edges behind an expression. -/
def value : List Edge := [.clear, .number]

/-- The edge behind names, types and closed brackets. -/
def closed : List Edge := [.clear]

theorem run_append (e : Edge) (ts us : List Token) :
    e.run (ts ++ us) = (e.run ts).bind (run · us) := by
  induction ts generalizing e with
  | nil => rfl
  | cons t ts ih => simp only [List.cons_append, run, ih, Option.bind_assoc]

end Edge

namespace Leads

variable {P Q R P' Q' : List Edge} {ts us : List Token} {t : Token}

theorem append (h : Leads P ts Q) (h' : Leads Q us R) : Leads P (ts ++ us) R := by
  intro e he
  obtain ⟨e₁, he₁, first⟩ := h e he
  obtain ⟨e₂, he₂, second⟩ := h' e₁ he₁
  exact ⟨e₂, he₂, by rw [Edge.run_append, first, Option.bind_some, second]⟩

theorem cons (h : Leads P [t] Q) (h' : Leads Q ts R) : Leads P (t :: ts) R :=
  append h h'

theorem mono (h : Leads P ts Q) (before : P' ⊆ P) (behind : Q ⊆ Q') : Leads P' ts Q' := by
  intro e he
  obtain ⟨e', he', ran⟩ := h e (before he)
  exact ⟨e', behind he', ran⟩

theorem nil (le : P ⊆ Q) : Leads P [] Q :=
  fun e he => ⟨e, le he, rfl⟩

/-- Parts that lead back to where they started, one behind the other. -/
theorem flatMap {α : Type} {f : α → List Token} {as : List α} (h : ∀ a ∈ as, Leads P (f a) P) :
    Leads P (as.flatMap f) P := by
  induction as with
  | nil => exact nil (List.Subset.refl P)
  | cons a as ih =>
    rw [List.flatMap_cons]
    exact (h a List.mem_cons_self).append (ih fun b hb => h b (List.mem_cons_of_mem a hb))

end Leads

open Edge (any operand loose value closed)

/-- Tokens that can stand between statements and between declarations. -/
def Flows (ts : List Token) : Prop :=
  Leads loose ts loose

/-- Tokens that can stand everywhere, and everything can follow them. -/
def Closes (ts : List Token) : Prop :=
  Leads any ts closed

instance {ts : List Token} : Decidable (Flows ts) :=
  inferInstanceAs (Decidable (Leads loose ts loose))

instance {ts : List Token} : Decidable (Closes ts) :=
  inferInstanceAs (Decidable (Leads any ts closed))

/-- Whether a token alone can stand between statements and between declarations. -/
def Token.isLoose (t : Token) : Bool :=
  decide (Flows [t])

/-- The tokens of each of several nodes can stand between statements and between declarations. -/
def FlowsEach (es : List Emitted) : Prop :=
  ∀ e ∈ es, Flows e.tokens

section

variable {ts us : List Token} {es es' : List Emitted}

theorem Closes.leads {P Q : List Edge} (h : Closes ts) (behind : closed ⊆ Q) : Leads P ts Q :=
  h.mono (fun e _ => by cases e <;> decide) behind

theorem Closes.anywhere {P : List Edge} (h : Closes ts) : Leads P ts closed :=
  h.leads (List.Subset.refl closed)

theorem Closes.append (h : Closes ts) (h' : Leads closed us closed) : Closes (ts ++ us) :=
  Leads.append h h'

/-- A point between two parts. -/
theorem Closes.point (h : Closes ts) (h' : Closes us) : Closes (ts ++ .mark .dot :: us) := by
  have point : Leads closed [.mark .dot] any := by decide
  exact Closes.append h (point.cons h')

theorem Closes.flows (h : Closes ts) : Flows ts :=
  h.leads (by decide)

theorem flows_nil : Flows [] :=
  Leads.nil (List.Subset.refl loose)

theorem Flows.append (h : Flows ts) (h' : Flows us) : Flows (ts ++ us) :=
  Leads.append h h'

theorem Flows.cons {t : Token} (h : t.isLoose = true) (h' : Flows ts) : Flows (t :: ts) :=
  Flows.append (of_decide_eq_true h) h'

theorem flows_flatMap {α : Type} {f : α → List Token} {as : List α} (h : ∀ a ∈ as, Flows (f a)) :
    Flows (as.flatMap f) :=
  Leads.flatMap h

theorem flows_ite {c : Prop} [Decidable c] (h : Flows ts) (h' : Flows us) :
    Flows (if c then ts else us) := by
  split
  · exact h
  · exact h'

theorem flows_cons_ite {c : Prop} [Decidable c] {t u : Token} (h : t.isLoose = true)
    (h' : u.isLoose = true) (tail : Flows ts) : Flows ((if c then t else u) :: ts) := by
  split
  · exact .cons h tail
  · exact .cons h' tail

theorem flowsEach_singleton {k : Kind} : FlowsEach [⟨k, ts⟩] ↔ Flows ts := by
  simp [FlowsEach]

theorem FlowsEach.append (h : FlowsEach es) (h' : FlowsEach es') : FlowsEach (es ++ es') := by
  intro e he
  rcases List.mem_append.mp he with he | he
  · exact h e he
  · exact h' e he

/-! ### Groups of tokens -/

theorem flows_joined (h : FlowsEach es) : Flows (joined es) :=
  flows_flatMap h

theorem flows_commaSeparated {parts : List (List Token)} (h : ∀ ts ∈ parts, Flows ts) :
    Flows (commaSeparated parts) := by
  induction parts with
  | nil => exact flows_nil
  | cons part parts ih =>
    have first := h part List.mem_cons_self
    have tail := ih fun ts hts => h ts (List.mem_cons_of_mem part hts)
    cases parts with
    | nil => simpa [commaSeparated] using first
    | cons part' parts =>
      rw [commaSeparated_cons_cons]
      exact first.append (.cons (by decide) tail)

theorem flows_separated (h : FlowsEach es) : Flows (separated es) :=
  flows_commaSeparated (by simpa [FlowsEach] using h)

/-- Tokens between an opening and a closing mark. -/
theorem closes_enclosed {left right : Token} (opening : Leads any [left] closed)
    (closing : Leads loose [right] closed) (h : Flows ts) : Closes (left :: ts ++ [right]) :=
  (opening.cons (h.mono (by decide) (List.Subset.refl loose))).append closing

theorem closes_parenthesized (h : Flows ts) : Closes (parenthesized ts) :=
  closes_enclosed (by decide) (by decide) h

theorem flows_parenthesized (h : Flows ts) : Flows (parenthesized ts) :=
  (closes_parenthesized h).flows

theorem closes_bracketed (h : Flows ts) : Closes (bracketed ts) :=
  closes_enclosed (by decide) (by decide) h

theorem closes_braced (h : Flows ts) : Closes (braced ts) :=
  closes_enclosed (by decide) (by decide) h

theorem closes_indentedBraces (h : Flows ts) : Closes (indentedBraces ts) := by
  have opening : Leads any [.mark .openBrace, .newline, .indent] loose := by decide
  have closing : Leads loose [.dedent, .mark .closeBrace] closed := by decide
  exact (opening.append h).append closing

theorem flows_indentedBraces (h : Flows ts) : Flows (indentedBraces ts) :=
  (closes_indentedBraces h).flows

theorem leads_emptyBrackets {P : List Edge} (clear : closed ⊆ P) :
    ∀ n, Leads P (emptyBrackets n) P
  | 0 => .nil (List.Subset.refl P)
  | n + 1 => by
    have pair : Closes [.mark .openBracket, .mark .closeBracket] := by decide
    exact (pair.leads clear).append (leads_emptyBrackets clear n)

theorem flows_emptyBrackets (n : Nat) : Flows (emptyBrackets n) :=
  leads_emptyBrackets (by decide) n

theorem flows_clause {keyword : String} {parts : List (List Token)}
    (h : (Token.word keyword).isLoose = true) (h' : ∀ ts ∈ parts, Flows ts) :
    Flows (clause keyword parts) := by
  cases parts with
  | nil => exact flows_nil
  | cons part parts => exact .cons h (flows_commaSeparated h')

/-! ### Parts of statements and declarations -/

theorem flows_header {keyword : String} (h : (Token.word keyword).isLoose = true)
    (h' : Flows ts) : Flows (header keyword ts) :=
  .cons h (.cons (by decide) (closes_parenthesized h').flows)

theorem flows_lines (h : FlowsEach es) : Flows (lines es) :=
  flows_flatMap fun e he => (h e he).append (by decide)

theorem flows_body (h : FlowsEach es) : Flows (body es) := by
  refine flows_flatMap fun e he => flows_ite (.cons (by decide) (h e he)) ?_
  exact .append (.append (by decide) (h e he)) (by decide)

theorem flows_alternative (h : FlowsEach es) : Flows (alternative es) := by
  refine flows_flatMap fun e he => flows_ite (.cons (by decide) (h e he)) (flows_body ?_)
  simpa [FlowsEach] using h e he

theorem flows_branches {openEnded : Bool} {yes no : List Emitted} (h : FlowsEach yes)
    (h' : FlowsEach no) : Flows (branches openEnded yes no) := by
  cases no with
  | nil => exact flows_body h
  | cons e no =>
    refine .append (.append (flows_ite ?_ (flows_body h)) ?_) (flows_alternative h')
    · exact .cons (by decide) (closes_indentedBraces (flows_lines h)).flows
    · exact flows_cons_ite (by decide) (by decide) (by decide)

theorem flows_switchLines (h : FlowsEach es) : Flows (switchLines es) := by
  refine flows_flatMap fun e he => flows_ite ((h e he).append (by decide)) ?_
  exact .append (.cons (by decide) (h e he)) (by decide)

theorem flows_after {t : Token} (h : t.isLoose = true) (h' : FlowsEach es) : Flows (after t es) :=
  flows_flatMap fun e he => .cons h (h' e he)

theorem flows_flatMap_append (h : Flows ts) (h' : FlowsEach es) :
    Flows (es.flatMap fun e => ts ++ e.tokens) :=
  flows_flatMap fun e he => h.append (h' e he)

theorem flows_attributes {ownLines : Bool} (h : FlowsEach es) : Flows (attributes ownLines es) :=
  flows_flatMap fun e he => (h e he).append (flows_cons_ite (by decide) (by decide) flows_nil)

theorem flows_memberLines {blankLines : Bool} (h : FlowsEach es) :
    ∀ blankFirst, Flows (memberLines blankLines blankFirst es) := by
  induction es with
  | nil => exact fun _ => flows_nil
  | cons e es ih =>
    intro blankFirst
    have tail := ih (fun e' he' => h e' (List.mem_cons_of_mem e he')) true
    have blank : Flows (if blankFirst && blankLines then [.newline] else []) :=
      flows_ite (by decide) flows_nil
    exact .append (blank.append (h e List.mem_cons_self)) (.cons (by decide) tail)

theorem closes_members {x : EmitContext} (h : FlowsEach es) : Closes (members x es) :=
  .cons (Q := closed) (by decide)
    ((closes_indentedBraces (flows_memberLines h false)).anywhere)

theorem flows_members {x : EmitContext} (h : FlowsEach es) : Flows (members x es) :=
  (closes_members h).flows

theorem flows_constantLines {hasMembers : Bool} (h : FlowsEach es) :
    Flows (constantLines hasMembers es) := by
  induction es with
  | nil => exact flows_ite (by decide) flows_nil
  | cons e es ih =>
    have first := h e List.mem_cons_self
    have tail := ih fun e' he' => h e' (List.mem_cons_of_mem e he')
    cases es with
    | nil => exact .append (first.append (flows_ite (by decide) flows_nil)) (by decide)
    | cons e' es => exact .append (first.append (by decide)) tail

theorem flows_enumBody {x : EmitContext} (h : FlowsEach es) (h' : FlowsEach es') :
    Flows (enumBody x es es') :=
  .cons (by decide)
    (closes_indentedBraces ((flows_constantLines h).append (flows_memberLines h' true))).flows

end

end JavaSource
