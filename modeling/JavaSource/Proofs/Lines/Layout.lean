import JavaSource.Layout
import JavaSource.Proofs.Lexing.Settled
import JavaSource.Proofs.Text.Parts
import Mathlib.Data.List.Chain

/-!
# Lines of a layout

A text has clean lines if it is empty or ends with one line feed, no line ends with a blank
character, the first line is not blank, and no two lines in a row are (`Text.CleanLines`).

The end of a line means two things: behind text it ends the line, and on a line without text it adds
an empty one. `LineKind` is what has to be known of the lines written so far to tell them apart, and
`LineKind.run` follows it through a list of tokens; it fails where a line would be left empty at the
top or behind an empty line, and at a text that is not on one line. What it says is true of every
layout of the tokens (`Layout.State.Stands.run`), so the text is clean if the tokens end behind a
line with text (`cleanLines_of_layout`).
-/

namespace JavaSource

namespace Text

/-! ### Lines with their ends -/

/-- Lines with a line feed behind each. -/
def unlines (ls : List String) : String :=
  String.join (ls.map (· ++ "\n"))

@[simp] theorem unlines_nil : unlines [] = "" := rfl

theorem toList_unlines (ls : List String) :
    (unlines ls).toList = ls.flatMap fun l => l.toList ++ ['\n'] := by
  rw [unlines, String.toList_join, List.flatMap_map]
  simp

theorem unlines_cons (l : String) (ls : List String) :
    unlines (l :: ls) = l ++ "\n" ++ unlines ls := by
  rw [← String.toList_inj, String.toList_append, String.toList_append]
  simp [toList_unlines]

theorem unlines_append (ls ms : List String) : unlines (ls ++ ms) = unlines ls ++ unlines ms := by
  rw [← String.toList_inj, String.toList_append]
  simp [toList_unlines]

theorem unlines_concat (ls : List String) (l : String) :
    unlines (ls ++ [l]) = unlines ls ++ l ++ "\n" := by
  rw [← String.toList_inj, String.toList_append, String.toList_append]
  simp [toList_unlines]

/-- Lines are read back by splitting, and what stands behind them is the last part. -/
theorem split_unlines_append {ls : List String} {l : String}
    (unbroken : ∀ m ∈ ls, '\n' ∉ m.toList) (last : '\n' ∉ l.toList) :
    split '\n' (unlines ls ++ l) = ls ++ [l] := by
  rw [split, String.toList_append, toList_unlines]
  induction ls with
  | nil => simp [splitAt_of_notMem last]
  | cons m ls ih =>
    have rest := ih fun m' hm => unbroken m' (List.mem_cons_of_mem m hm)
    have own := splitAt_of_notMem (unbroken m List.mem_cons_self)
    rw [List.flatMap_cons, List.append_assoc, List.append_assoc, List.singleton_append,
      splitAt_append_cons, own, List.map_append, rest]
    simp

/-! ### Blank texts -/

@[simp] theorem allBlank_append {s t : String} :
    AllBlank (s ++ t) ↔ AllBlank s ∧ AllBlank t := by
  simp [AllBlank, String.toList_append, or_imp, forall_and]

theorem trimEnd_eq_empty_iff {s : String} : trimEnd s = "" ↔ AllBlank s := by
  rw [← String.toList_inj, trimEnd, String.toList_ofList]
  simp [dropBlankEnd, AllBlank]

/-- A trimmed text does not end with a blank character. -/
theorem isBlank_of_getLast?_trimEnd {s : String} {c : Char}
    (last : (trimEnd s).toList.getLast? = some c) : isBlank c = false := by
  rw [trimEnd, String.toList_ofList, dropBlankEnd, List.getLast?_reverse] at last
  have ends := List.head?_dropWhile_not isBlank s.toList.reverse
  rw [last] at ends
  simpa using ends

theorem trimEnd_trimEnd (s : String) : trimEnd (trimEnd s) = trimEnd s := by
  rw [← String.toList_inj, trimEnd, String.toList_ofList]
  exact dropBlankEnd_of_getLast fun c hc => isBlank_of_getLast?_trimEnd hc

theorem allBlank_trimEnd {s : String} : AllBlank (trimEnd s) ↔ AllBlank s := by
  rw [← trimEnd_eq_empty_iff, trimEnd_trimEnd, trimEnd_eq_empty_iff]

theorem notMem_trimEnd {s : String} {c : Char} (h : c ∉ s.toList) : c ∉ (trimEnd s).toList := by
  rw [trimEnd, String.toList_ofList]
  exact fun mem => h ((dropBlankEnd_isPrefix s.toList).subset mem)

/-- The text is empty or ends with one line feed, no line ends with a blank character, the first
line is not blank, and no two lines in a row are. -/
structure CleanLines (s : String) : Prop where
  /-- There is one line feed at the end, unless the text is empty. -/
  ending : s = "" ∨ ∃ (cs : List Char) (c : Char), s.toList = cs ++ [c, '\n'] ∧ c ≠ '\n'
  /-- No line ends with a blank character. -/
  trimmed : ∀ l ∈ split '\n' s, ∀ c ∈ l.toList.getLast?, isBlank c = false
  /-- The first line is not blank. -/
  first : s ≠ "" → ∀ l ∈ (split '\n' s).head?, ¬ AllBlank l
  /-- Of two lines in a row one is not blank. -/
  apart : (split '\n' s).IsChain fun l m => ¬ (AllBlank l ∧ AllBlank m)

end Text

/-! ### What a token writes -/

/-- What a token adds to its line, behind spaces and indentation. -/
def Token.written : Token → String
  | .word text | .raw text => text
  | .mark m => m.spelling
  | .sign op => op.symbol
  | .operator symbol => symbol ++ " "
  | .comma => ", "
  | .space | .newline | .indent | .dedent | .join | .rejected _ => ""

namespace Layout

variable {o : Options} {s s' : State}

theorem State.exists_line_addSpace (s : State) :
    ∃ gap : String, (∀ c ∈ gap.toList, c = ' ') ∧ s.addSpace.out = s.out ∧
      s.addSpace.line = s.line ++ gap := by
  unfold addSpace
  split
  · exact ⟨"", by simp, rfl, by simp⟩
  · exact ⟨" ", by simp, rfl, rfl⟩

/-- On an empty line the indentation comes first. -/
theorem State.exists_line_write (indent : String) (s : State) (text : String) :
    ∃ gap : String, (∀ c ∈ gap.toList, c ∈ indent.toList) ∧
      (s.write indent text).line = s.line ++ gap ++ text := by
  unfold write
  split
  · next empty =>
    refine ⟨String.join (List.replicate s.depth indent), fun c hc => ?_, by simp [empty]⟩
    rw [String.toList_join, List.mem_flatMap] at hc
    obtain ⟨level, mem, hc⟩ := hc
    rwa [List.eq_of_mem_replicate mem] at hc
  · exact ⟨"", by simp, by simp⟩

/-- A text is written behind the line, with spaces or indentation in between. -/
theorem State.exists_line_writeApart (indent : String) (s : State) (apart : Bool) (text : String)
    (previous : Previous) :
    ∃ gap : String, (∀ c ∈ gap.toList, c = ' ' ∨ c ∈ indent.toList) ∧
      (s.writeApart indent apart text previous).out = s.out ∧
      (s.writeApart indent apart text previous).line = s.line ++ gap ++ text := by
  cases apart with
  | false =>
    obtain ⟨gap, chars, line⟩ := s.exists_line_write indent text
    exact ⟨gap, fun c hc => .inr (chars c hc), rfl, line⟩
  | true =>
    obtain ⟨space, spaces, out, front⟩ := s.exists_line_addSpace
    obtain ⟨gap, chars, line⟩ := s.addSpace.exists_line_write indent text
    refine ⟨space ++ gap, fun c hc => ?_, out, ?_⟩
    · rw [String.toList_append, List.mem_append] at hc
      exact hc.imp (spaces c) (chars c)
    · rw [← String.append_assoc, ← front]
      exact line

/-- **A token stays on its line**, unless it ends the line. -/
theorem exists_line_of_step {t : Token} (inline : t ≠ .newline) (h : step o s t = .ok s') :
    ∃ gap : String, (∀ c ∈ gap.toList, c = ' ' ∨ c ∈ o.indent.toList) ∧ s'.out = s.out ∧
      s'.line = s.line ++ gap ++ t.written := by
  cases t with
  | word | mark | sign | operator | comma | raw =>
    obtain rfl := Except.ok.inj h
    exact s.exists_line_writeApart o.indent _ _ _
  | space =>
    obtain rfl := Except.ok.inj h
    obtain ⟨gap, chars, out, line⟩ := s.exists_line_addSpace
    exact ⟨gap, fun c hc => .inl (chars c hc), out, by simp [Token.written, line]⟩
  | newline => exact absurd rfl inline
  | indent | join =>
    obtain rfl := Except.ok.inj h
    exact ⟨"", by simp, rfl, by simp [Token.written]⟩
  | dedent =>
    simp only [step] at h
    split at h
    · cases h
    · obtain rfl := Except.ok.inj h
      exact ⟨"", by simp, rfl, by simp [Token.written]⟩
  | rejected => cases h

end Layout

/-! ### Kinds of lines -/

/-- The line that a layout stands on, and what is in front of it. -/
inductive LineKind where
  /-- The first line, without text. -/
  | first
  /-- A line without text, behind a line with text. -/
  | afterText
  /-- A line without text, behind an empty line. -/
  | afterBlank
  /-- A line with text. -/
  | inked
  deriving DecidableEq

namespace LineKind

/-- The line with a text written to it. A text that is not on one line is refused. -/
def write (k : LineKind) (text : String) : Option LineKind :=
  if '\n' ∈ text.toList then none else some (if Text.AllBlank text then k else .inked)

/-- The line behind the end of a line. An empty line is refused at the top and behind an empty
line. -/
def endLine : LineKind → Option LineKind
  | .inked => some .afterText
  | .afterText => some .afterBlank
  | .first | .afterBlank => none

/-- The line after a token. -/
def next (k : LineKind) : Token → Option LineKind
  | .newline => k.endLine
  | t => k.write t.written

/-- The line after several tokens. -/
def run : LineKind → List Token → Option LineKind
  | k, [] => some k
  | k, t :: ts => (k.next t).bind (run · ts)

theorem next_of_ne {t : Token} (inline : t ≠ .newline) (k : LineKind) :
    k.next t = k.write t.written := by
  cases t <;> first | rfl | exact absurd rfl inline

/-- What is known of the finished lines and the current one. -/
def Follows (ls : List String) (line : String) : LineKind → Prop
  | .first => ls = [] ∧ Text.AllBlank line
  | .afterText => (∃ l ∈ ls.getLast?, ¬ Text.AllBlank l) ∧ Text.AllBlank line
  | .afterBlank => Text.AllBlank line
  | .inked => ¬ Text.AllBlank line

end LineKind

/-- Finished lines as they should be: on one line each, without blank ends, the first one not blank,
and never two blank ones in a row. -/
structure TidyLines (ls : List String) : Prop where
  unbroken : ∀ l ∈ ls, '\n' ∉ l.toList
  trimmed : ∀ l ∈ ls, Text.trimEnd l = l
  first : ∀ l ∈ ls.head?, ¬ Text.AllBlank l
  apart : ls.IsChain fun l m => ¬ (Text.AllBlank l ∧ Text.AllBlank m)

/-- One more line, which is not blank if it is the first one or behind a blank one. -/
theorem TidyLines.concat {ls : List String} (tidy : TidyLines ls) {l : String}
    (unbroken : '\n' ∉ l.toList) (trimmed : Text.trimEnd l = l)
    (allowed : Text.AllBlank l → ∃ m ∈ ls.getLast?, ¬ Text.AllBlank m) : TidyLines (ls ++ [l]) where
  unbroken := by simpa [or_imp, forall_and] using ⟨tidy.unbroken, unbroken⟩
  trimmed := by simpa [or_imp, forall_and] using ⟨tidy.trimmed, trimmed⟩
  first := by
    cases ls with
    | nil =>
      intro m own blank
      obtain rfl : l = m := by simpa using own
      obtain ⟨m, none, -⟩ := allowed blank
      cases none
    | cons m ls => exact tidy.first
  apart := by
    rw [List.isChain_append]
    refine ⟨tidy.apart, .singleton l, ?_⟩
    rintro m last l' own ⟨before, behind⟩
    obtain rfl : l = l' := by simpa using own
    obtain ⟨m', last', visible⟩ := allowed behind
    exact visible (Option.mem_unique last last' ▸ before)

/-- Finished lines are clean, unless the last one is blank. -/
theorem TidyLines.cleanLines {ls : List String} (tidy : TidyLines ls)
    (last : ∀ l ∈ ls.getLast?, ¬ Text.AllBlank l) : Text.CleanLines (Text.unlines ls) := by
  have parts : Text.split '\n' (Text.unlines ls) = ls ++ [""] := by
    simpa using Text.split_unlines_append tidy.unbroken (l := "") (by simp)
  refine ⟨?_, ?_, ?_, ?_⟩
  · cases ls using List.reverseRecOn with
    | nil => exact .inl rfl
    | append_singleton ls l =>
      have visible := last l (by simp)
      obtain ⟨cs, c, ends⟩ : ∃ cs c, l.toList = cs ++ [c] := by
        refine (List.eq_nil_or_concat' l.toList).resolve_left fun empty => visible ?_
        simp [Text.AllBlank, empty]
      refine .inr ⟨(Text.unlines ls).toList ++ cs, c, ?_, ?_⟩
      · rw [Text.unlines_concat, String.toList_append, String.toList_append, ends]
        simp
      · rintro rfl
        exact tidy.unbroken l (by simp) (by simp [ends])
  · intro l mem c ends
    rw [parts, List.mem_append, List.mem_singleton] at mem
    rcases mem with mem | rfl
    · rw [← tidy.trimmed l mem] at ends
      exact Text.isBlank_of_getLast?_trimEnd ends
    · cases ends
  · intro nonempty
    rw [parts]
    cases ls with
    | nil => exact absurd rfl nonempty
    | cons l ls => exact tidy.first
  · rw [parts, List.isChain_append]
    exact ⟨tidy.apart, .singleton "", fun m mem _ _ both => last m mem both.1⟩

/-- A line feed ends each line, and the indentation consists of spaces and tabs. -/
structure Options.IsPlain (o : Options) : Prop where
  lineSeparator : o.lineSeparator = "\n"
  indent : ∀ c ∈ o.indent.toList, c = ' ' ∨ c = '\t'

namespace Layout

variable {o : Options} {s s' : State} {k k' : LineKind} {t : Token} {ts : List Token}

/-- A layout in progress is on a line of kind `k`, behind lines as they should be. -/
def State.Stands (s : State) (k : LineKind) : Prop :=
  ∃ ls, TidyLines ls ∧ s.out = Text.unlines ls ∧ '\n' ∉ s.line.toList ∧ k.Follows ls s.line

/-- A text on the current line. -/
theorem State.Stands.write (h : s.Stands k) {gap text : String}
    (blank : ∀ c ∈ gap.toList, Text.isBlank c = true ∧ c ≠ '\n') (next : k.write text = some k')
    (out : s'.out = s.out) (line : s'.line = s.line ++ gap ++ text) : s'.Stands k' := by
  obtain ⟨ls, tidy, finished, unbroken, follows⟩ := h
  unfold LineKind.write at next
  split at next
  · cases next
  · next unbroken' =>
    obtain rfl := Option.some.inj next
    refine ⟨ls, tidy, out.trans finished, ?_, ?_⟩
    · rw [line, String.toList_append, String.toList_append]
      simp only [List.mem_append, not_or]
      exact ⟨⟨unbroken, fun mem => (blank _ mem).2 rfl⟩, unbroken'⟩
    · have gaps : Text.AllBlank gap := fun c hc => (blank c hc).1
      have whole : Text.AllBlank s'.line ↔ Text.AllBlank s.line ∧ Text.AllBlank text := by
        rw [line, Text.allBlank_append, Text.allBlank_append]
        tauto
      split
      · next texts => cases k <;> simp_all [LineKind.Follows]
      · next visible => exact fun all => visible (whole.mp all).2

/-- The end of a line. -/
theorem State.Stands.endLine (h : s.Stands k) (next : k.endLine = some k') :
    (s.endLine "\n").Stands k' := by
  obtain ⟨ls, tidy, finished, unbroken, follows⟩ := h
  have allowed : Text.AllBlank (Text.trimEnd s.line) → ∃ m ∈ ls.getLast?, ¬ Text.AllBlank m := by
    rw [Text.allBlank_trimEnd]
    intro blank
    cases k with
    | first | afterBlank => cases next
    | afterText => exact follows.1
    | inked => exact absurd blank follows
  refine ⟨ls ++ [Text.trimEnd s.line], tidy.concat (Text.notMem_trimEnd unbroken)
    (Text.trimEnd_trimEnd s.line) allowed, ?_, by simp [State.endLine], ?_⟩
  · rw [Text.unlines_concat, ← finished]
    rfl
  · have fresh : Text.AllBlank (s.endLine "\n").line := by simp [State.endLine, Text.AllBlank]
    cases k with
    | first | afterBlank => cases next
    | afterText =>
      obtain rfl := Option.some.inj next
      exact fresh
    | inked =>
      obtain rfl := Option.some.inj next
      exact ⟨⟨_, List.getLast?_concat, Text.allBlank_trimEnd.not.mpr follows⟩, fresh⟩

/-- **What a token does to the kind of its line.** -/
theorem State.Stands.step (h : s.Stands k) (plain : o.IsPlain)
    (next : k.next t = some k') (stepped : step o s t = .ok s') : s'.Stands k' := by
  by_cases newline : t = .newline
  · subst newline
    obtain rfl := Except.ok.inj stepped
    rw [plain.lineSeparator]
    exact h.endLine next
  · rw [LineKind.next_of_ne newline] at next
    obtain ⟨gap, chars, out, line⟩ := exists_line_of_step newline stepped
    refine h.write (fun c hc => ?_) next out line
    rcases chars c hc with rfl | indented
    · decide
    · rcases plain.indent c indented with rfl | rfl <;> decide

/-- **A layout is on the kind of line that its tokens lead to.** -/
theorem State.Stands.run (h : s.Stands k) (plain : o.IsPlain)
    (next : k.run ts = some k') (ran : run o s ts = .ok s') : s'.Stands k' := by
  induction ts generalizing s k with
  | nil =>
    obtain rfl := Option.some.inj next
    obtain rfl := Except.ok.inj ran
    exact h
  | cons t ts ih =>
    obtain ⟨k₁, first, rest⟩ := Option.bind_eq_some_iff.mp next
    obtain ⟨s₁, stepped, ran⟩ := exists_step_of_run ran
    exact ih (h.step plain first stepped) rest ran

theorem State.stands_first : State.Stands {} .first :=
  ⟨[], ⟨by simp, by simp, by simp, .nil⟩, rfl, by simp, rfl, by simp [Text.AllBlank]⟩

end Layout

/-- **A layout is clean if its tokens lead to nothing or behind a line with text.** -/
theorem cleanLines_of_layout {o : Options} (plain : o.IsPlain) {ts : List Token} {k : LineKind}
    (next : LineKind.run .first ts = some k) (ends : k = .first ∨ k = .afterText) {text : String}
    (h : layout o ts = .ok text) : Text.CleanLines text := by
  rw [layout] at h
  split at h
  · next s ran =>
    obtain ⟨ls, tidy, finished, -, follows⟩ := Layout.State.stands_first.run plain next ran
    have blank : Text.AllBlank s.line := by
      rcases ends with rfl | rfl
      · exact follows.2
      · exact follows.2
    have last : ∀ l ∈ ls.getLast?, ¬ Text.AllBlank l := by
      rcases ends with rfl | rfl
      · simp [follows.1]
      · obtain ⟨l, last, visible⟩ := follows.1
        exact fun m mem => Option.mem_unique last mem ▸ visible
    rw [Layout.finish, Text.trimEnd_eq_empty_iff.mpr blank, String.append_empty, finished] at h
    split at h
    · obtain rfl := Except.ok.inj h
      exact tidy.cleanLines last
    · cases h
  · cases h

end JavaSource
