import JavaSource.Proofs.Emission.Agreement
import JavaSource.Proofs.Name.Reading

/-!
# Names read back from their texts

A name with nothing attached is written on one line, its words joined by dots and nothing else,
whatever the options are (`Name.render_of_bare`). With what is known of the texts of names, names
and their texts can be exchanged freely (`Name.dotted_round_trip`).
-/

namespace JavaSource

namespace Layout

/-- Tokens are written one after the other. -/
theorem run_append_of_ok {o : Options} {s s' : State} {ts : List Token}
    (first : run o s ts = .ok s') (us : List Token) : run o s (ts ++ us) = run o s' us := by
  induction ts generalizing s with
  | nil =>
    cases first
    rfl
  | cons t ts ih =>
    rw [run] at first
    rw [List.cons_append, run]
    cases stepped : step o s t with
    | error e => simp [stepped] at first
    | ok s₁ =>
      simp only [stepped] at first
      exact ih first

/-- At the margin, a text that needs no space in front is written as it is. -/
theorem writeApart_line (indent line text : String) (before previous : Previous) :
    State.writeApart indent { line, previous := before } false text previous =
      { line := line ++ text, previous } := by
  by_cases empty : line = ""
  · simp [State.writeApart, State.write, empty, String.join]
  · simp [State.writeApart, State.write, empty]

end Layout

namespace Name

open Layout

/-- The words of a name are written one behind the other. -/
theorem run_emit (o : Options) (b : Bool) (n : Name) :
    run o {} (n.emit (.bare b)) = .ok { line := n.dotted, previous := .word } := by
  induction n with
  | simple n =>
    have text : (simple n).dotted = "" ++ n.token := by rw [dotted_simple, String.empty_append]
    rw [text, ← writeApart_line o.indent "" n.token .lineStart]
    rfl
  | qualified h q n ih =>
    have tokens : (qualified h q n).emit (.bare b) =
        q.emit (.bare b) ++ [.mark .dot, .word n.token] := rfl
    rw [tokens, run_append_of_ok ih, dotted_qualified,
      ← writeApart_line o.indent _ n.token .opening, ← writeApart_line o.indent q.dotted "." .word]
    rfl

theorem trimEnd_dotted (n : Name) : Text.trimEnd n.dotted = n.dotted := by
  have last : n.dotted.toList.getLast? = n.last.token.toList.getLast? := by
    cases n with
    | simple s => rw [dotted_simple, Name.last]
    | qualified h q s =>
      rw [toList_dotted_qualified, List.getLast?_append_cons,
        List.getLast?_cons_of_ne_nil (forall_isIdentifierPart s.valid).1, Name.last]
  have solid : ∀ c ∈ n.dotted.toList.getLast?, Text.isBlank c = false := by
    intro c ending
    rw [last] at ending
    exact n.last.isBlank_of_mem_token (List.mem_of_getLast? ending)
  rw [Text.trimEnd, Text.dropBlankEnd_of_getLast solid, String.ofList_toList]

/-- **A name with nothing attached is written as its dotted text.** -/
theorem render_of_bare {notes : Notes} {n : Name} (bare : notes.Bare n.outline) (o : Options) :
    (Node.name n).render notes o = .ok n.dotted := by
  have tokens : (Node.name n).emit (notes.context o.blankLines) = n.emit (.bare o.blankLines) :=
    Node.emit_of_bare bare o.blankLines
  rw [Node.render, tokens, layout, run_emit]
  simp [finish, trimEnd_dotted]

/-- **Names and their texts determine each other.** A name with nothing attached is written as its
dotted text; reading this text gives the name again, and no other name has it. A text is read as a
name exactly if its parts between the dots are identifiers, blank characters around them aside, and
these are then the words of the name. Appending extends the segments. -/
theorem dotted_round_trip :
    (∀ (notes : Notes) (o : Options) (n : Name), notes.Bare n.outline →
      (Node.name n).render notes o = .ok n.dotted) ∧
    (∀ n : Name, ∃ m, read n.dotted = .ok m ∧ m.Same n) ∧
    (∀ m n : Name, m.dotted = n.dotted ↔ m.Same n) ∧
    (∀ text, ((∃ n, read text = .ok n) ↔
        ∀ p ∈ (Text.split '.' text).map Text.trim, isIdentifier p = true) ∧
      ∀ n, read text = .ok n →
        n.segments.map SimpleName.token = (Text.split '.' text).map Text.trim) ∧
    ∀ (n : Name) (segments : List SimpleName),
      (n.append segments).segments = n.segments ++ segments := by
  refine ⟨fun notes o n bare => render_of_bare bare o,
    fun n => exists_read_same_iff.mpr n.parts_dotted,
    fun m n => dotted_inj.trans same_iff_words_eq.symm,
    fun text => ⟨exists_read_iff, fun n => words_of_read⟩, segments_append⟩

/-- A name with handles, and a text with blank characters in it. -/
theorem dotted_round_trip_util :
    let n : Name :=
      .qualified (some 0) (.simple ⟨some 1, "java", by decide⟩) ⟨none, "util", by decide⟩
    (Node.name n).render {} {} = .ok n.dotted ∧
      ∃ m, read " java . util" = .ok m ∧ m.segments.map SimpleName.token = ["java", "util"] := by
  intro n
  obtain ⟨written, -, -, texts, -⟩ := dotted_round_trip
  have bare : Notes.Bare {} n.outline := fun h _ => by cases h <;> rfl
  obtain ⟨accepts, segments⟩ := texts " java . util"
  obtain ⟨m, h⟩ := accepts.mpr (by decide)
  exact ⟨written {} {} n bare, m, h, segments m h⟩

end Name

end JavaSource
