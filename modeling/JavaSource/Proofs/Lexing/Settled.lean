import JavaSource.Proofs.Lexing.Layout

/-!
# Text that stays

A layout writes to the end of a text, and only the blank end of the current line can still be
dropped. `Layout.State.settled` is what stays whatever is written behind it: every step extends it
(`Layout.settled_of_step`), so it is a prefix of the text at the end (`Layout.settled_of_finish`).
In particular, everything up to a character that is not blank stays (`Layout.isPrefix_of_finish`).
-/

namespace JavaSource

/-! ### Blank ends -/

namespace Text

theorem dropBlankEnd_isPrefix (cs : List Char) : dropBlankEnd cs <+: cs := by
  have ends := List.dropWhile_suffix (l := cs.reverse) isBlank
  rwa [← List.reverse_prefix, List.reverse_reverse] at ends

theorem dropBlankEnd_append (cs ds : List Char) :
    dropBlankEnd (cs ++ ds) =
      if dropBlankEnd ds = [] then dropBlankEnd cs else cs ++ dropBlankEnd ds := by
  simp only [dropBlankEnd, List.reverse_append, List.dropWhile_append, List.isEmpty_iff,
    List.reverse_eq_nil_iff]
  split
  · rfl
  · rw [List.reverse_append, List.reverse_reverse]

theorem dropBlankEnd_isPrefix_append (cs ds : List Char) :
    dropBlankEnd cs <+: dropBlankEnd (cs ++ ds) := by
  rw [dropBlankEnd_append]
  split
  · exact List.prefix_refl _
  · exact (dropBlankEnd_isPrefix cs).trans (List.prefix_append _ _)

/-- Everything up to a character that is not blank stays. -/
theorem append_isPrefix_dropBlankEnd {c : Char} (solid : isBlank c = false) (cs ds : List Char) :
    cs ++ [c] <+: dropBlankEnd (cs ++ c :: ds) := by
  have whole : dropBlankEnd (cs ++ [c]) = cs ++ [c] :=
    dropBlankEnd_of_getLast fun d hd => by
      obtain rfl : c = d := by simpa using hd
      exact solid
  have stays := dropBlankEnd_isPrefix_append (cs ++ [c]) ds
  rwa [whole, List.append_assoc, List.singleton_append] at stays

end Text

/-! ### Settled text -/

namespace Layout

variable {o : Options} {s s' : State} {t : Token} {ts us : List Token} {text w : String}

/-- A run takes its steps one after the other. -/
theorem exists_step_of_run (h : run o s (t :: ts) = .ok s') :
    ∃ s₁, step o s t = .ok s₁ ∧ run o s₁ ts = .ok s' := by
  rw [run] at h
  split at h
  next s₁ stepped => exact ⟨s₁, stepped, h⟩
  next => cases h

theorem exists_run_of_append (h : run o s (ts ++ us) = .ok s') :
    ∃ s₁, run o s ts = .ok s₁ ∧ run o s₁ us = .ok s' := by
  induction ts generalizing s with
  | nil => exact ⟨s, rfl, h⟩
  | cons t ts ih =>
    obtain ⟨s₁, stepped, ran⟩ := exists_step_of_run h
    obtain ⟨s₂, ran₁, ran₂⟩ := ih ran
    refine ⟨s₂, ?_, ran₂⟩
    rw [run, stepped]
    exact ran₁

/-- What stays of a layout in progress: all lines, without the blank end of the current one. -/
def State.settled (s : State) : List Char :=
  s.out.toList ++ Text.dropBlankEnd s.line.toList

theorem State.settled_write (indent : String) (s : State) (text : String) :
    s.settled <+: (s.write indent text).settled := by
  unfold settled write
  dsimp only
  rw [List.prefix_append_right_inj]
  split
  next empty => simp [empty, Text.dropBlankEnd]
  next =>
    rw [String.toList_append]
    exact Text.dropBlankEnd_isPrefix_append _ _

theorem State.settled_addSpace (s : State) : s.settled <+: s.addSpace.settled := by
  unfold addSpace
  split
  · exact List.prefix_refl _
  · unfold settled
    rw [List.prefix_append_right_inj, String.toList_append]
    exact Text.dropBlankEnd_isPrefix_append _ _

theorem State.settled_writeApart (indent : String) (s : State) (apart : Bool) (text : String)
    (previous : Previous) : s.settled <+: (s.writeApart indent apart text previous).settled := by
  cases apart with
  | false => exact s.settled_write indent text
  | true => exact s.settled_addSpace.trans (s.addSpace.settled_write indent text)

/-- **A step writes behind what stays.** -/
theorem settled_of_step (h : step o s t = .ok s') : s.settled <+: s'.settled := by
  cases t with
  | word | mark | sign | operator | comma | raw =>
    obtain rfl := Except.ok.inj h
    exact s.settled_writeApart ..
  | space =>
    obtain rfl := Except.ok.inj h
    exact s.settled_addSpace
  | newline =>
    obtain rfl := Except.ok.inj h
    simp only [State.settled, State.endLine, String.toList_append, Text.trimEnd,
      String.toList_ofList, List.append_assoc]
    rw [List.prefix_append_right_inj]
    exact List.prefix_append _ _
  | indent | join =>
    obtain rfl := Except.ok.inj h
    exact List.prefix_refl _
  | dedent =>
    simp only [step] at h
    split at h
    · cases h
    · obtain rfl := Except.ok.inj h
      exact List.prefix_refl _
  | rejected => cases h

/-- A run writes behind what stays. -/
theorem settled_of_run (h : run o s ts = .ok s') : s.settled <+: s'.settled := by
  induction ts generalizing s with
  | nil =>
    obtain rfl := Except.ok.inj h
    exact List.prefix_refl _
  | cons t ts ih =>
    obtain ⟨s₁, stepped, ran⟩ := exists_step_of_run h
    exact (settled_of_step stepped).trans (ih ran)

/-- At the end the text is what stays. -/
theorem toList_of_finish (h : finish s = .ok text) : text.toList = s.settled := by
  unfold finish at h
  split at h
  · obtain rfl := Except.ok.inj h
    rw [State.settled, String.toList_append, Text.trimEnd, String.toList_ofList]
  · cases h

theorem settled_of_finish (ran : run o s ts = .ok s') (finished : finish s' = .ok text) :
    s.settled <+: text.toList := by
  rw [toList_of_finish finished]
  exact settled_of_run ran

end Layout

/-! ### Behind a line -/

/-- The text of a token that is written directly behind a space. -/
def Token.text? : Token → Option String
  | .word text => some text
  | .mark m => some m.spelling
  | .sign op => some op.symbol
  | _ => none

namespace Layout

variable {o : Options} {s s' : State} {t : Token} {ts us : List Token} {text w : String}

theorem writeApart_false (nonempty : s.line ≠ "") (previous : Previous) :
    (s.writeApart o.indent false w previous).out = s.out ∧
      (s.writeApart o.indent false w previous).line = s.line ++ w := by
  simp [State.writeApart, State.write, nonempty]

/-- A mark is written directly behind a line. -/
theorem step_mark {m : Mark} (nonempty : s.line ≠ "") (h : step o s (.mark m) = .ok s') :
    s'.out = s.out ∧ s'.line = s.line ++ m.spelling := by
  obtain rfl := Except.ok.inj h
  exact writeApart_false nonempty _

/-- Behind a space, words and signs are written directly, too. -/
theorem step_behind_space (space : s.previous = .space) (nonempty : s.line ≠ "")
    (spelled : t.text? = some w) (h : step o s t = .ok s') :
    s'.out = s.out ∧ s'.line = s.line ++ w := by
  cases t with
  | word text =>
    obtain rfl := Option.some.inj spelled
    obtain rfl := Except.ok.inj h
    rw [space]
    exact writeApart_false nonempty _
  | mark m =>
    obtain rfl := Option.some.inj spelled
    exact step_mark nonempty h
  | sign op =>
    obtain rfl := Option.some.inj spelled
    obtain rfl := Except.ok.inj h
    rw [space]
    exact writeApart_false nonempty _
  | _ => cases spelled

/-- Everything up to a character that is not blank is part of the text. -/
theorem isPrefix_of_finish {l cs : List Char} {c : Char} (ran : run o s ts = .ok s')
    (finished : finish s' = .ok text) (line : s.line.toList = l ++ c :: cs)
    (solid : Text.isBlank c = false) : s.out.toList ++ l ++ [c] <+: text.toList := by
  refine List.IsPrefix.trans ?_ (settled_of_finish ran finished)
  rw [State.settled, line, List.append_assoc, List.prefix_append_right_inj]
  exact Text.append_isPrefix_dropBlankEnd solid l cs

/-- What stands behind a space, if it is not blank. -/
theorem isPrefix_behind_space {c : Char} {cs : List Char} (space : s.previous = .space)
    (nonempty : s.line ≠ "") (spelled : t.text? = some w) (chars : w.toList = c :: cs)
    (solid : Text.isBlank c = false) (ran : run o s (t :: ts) = .ok s')
    (finished : finish s' = .ok text) : s.out.toList ++ s.line.toList ++ [c] <+: text.toList := by
  obtain ⟨s₁, stepped, ran⟩ := exists_step_of_run ran
  obtain ⟨out, line⟩ := step_behind_space space nonempty spelled stepped
  rw [← out]
  exact isPrefix_of_finish ran finished (by rw [line, String.toList_append, chars]) solid

/-- Behind parentheses the line ends with the closing one. -/
theorem exists_line_of_parenthesized (h : run o s (ts ++ parenthesized us) = .ok s') :
    ∃ l : List Char, s'.line.toList = l ++ [')'] := by
  rw [parenthesized, ← List.append_assoc] at h
  obtain ⟨s₁, -, ran⟩ := exists_run_of_append h
  obtain ⟨s₂, stepped, ran⟩ := exists_step_of_run ran
  obtain rfl := Except.ok.inj ran
  obtain rfl := Except.ok.inj stepped
  exact ⟨_, String.toList_append⟩

/-- Behind a closing parenthesis a space is written. -/
theorem step_space {l : List Char} (line : s.line.toList = l ++ [')'])
    (h : step o s .space = .ok s') :
    s'.out = s.out ∧ s'.line = s.line ++ " " ∧ s'.previous = .space := by
  obtain rfl := Except.ok.inj h
  have apart : ¬ (s.line = "" ∨ s.line.toList.getLast? = some ' ') := by
    rw [← String.toList_eq_nil_iff, line]
    simp
  rw [State.addSpace, if_neg apart]
  exact ⟨rfl, rfl, rfl⟩

end Layout

end JavaSource
