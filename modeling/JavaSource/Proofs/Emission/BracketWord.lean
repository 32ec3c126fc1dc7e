import JavaSource.Proofs.Emission.Nesting

/-!
# Bracket words

The brackets of a list of tokens, with the steps of its indentation as one more kind of bracket, are
a word over opening and closing sides (`bracketWord`). `WellNested` is the language of the words in
which every side has its counterpart: the empty word, and a pair around a word, with another word
behind it.

A word is well nested exactly if the stack of open brackets, started empty, can take all its sides
and is empty at the end (`wellNested_iff_foldlM`). This is how it is decided, and it turns what is
known of the stack into the main statement: the bracket word of a node of any kind is well nested,
whatever is attached to the node and the nodes in it (`Node.wellNested_emit`).
-/

namespace JavaSource

/-- A side of a bracket. -/
inductive BracketSide where
  | opening (bracket : Bracket)
  | closing (bracket : Bracket)
  deriving DecidableEq

/-- The side of a bracket that a token stands for. -/
def Token.side? : Token → Option BracketSide
  | .mark .openParen => some (.opening .round)
  | .mark .closeParen => some (.closing .round)
  | .mark .openBracket => some (.opening .square)
  | .mark .closeBracket => some (.closing .square)
  | .mark .openBrace => some (.opening .brace)
  | .mark .closeBrace => some (.closing .brace)
  | .mark .openAngle => some (.opening .angle)
  | .mark .closeAngle => some (.closing .angle)
  | .indent => some (.opening .level)
  | .dedent => some (.closing .level)
  | _ => none

/-- The brackets of several tokens. -/
def bracketWord (ts : List Token) : List BracketSide :=
  ts.filterMap Token.side?

/-- The words in which every side of a bracket has its counterpart. -/
inductive WellNested : List BracketSide → Prop
  /-- The empty word. -/
  | nil : WellNested []
  /-- A pair around a word, in front of another word. -/
  | pair (b : Bracket) {inside behind : List BracketSide} :
    WellNested inside → WellNested behind →
      WellNested (.opening b :: (inside ++ .closing b :: behind))

/-! ### The stack of open brackets -/

/-- The stack behind a side of a bracket, unless the side closes what was not opened last. -/
def BracketSide.push (stack : List Bracket) : BracketSide → Option (List Bracket)
  | .opening b => some (b :: stack)
  | .closing b =>
    match stack with
    | [] => none
    | c :: stack => if b = c then some stack else none

theorem nest_eq_push (stack : List Bracket) (t : Token) :
    nest stack t = t.side?.elim (some stack) (BracketSide.push stack) := by
  cases t with
  | mark m => cases m <;> rfl
  | _ => rfl

/-- The tokens that are no brackets do not matter. -/
theorem nestEach_eq_foldlM (stack : List Bracket) (ts : List Token) :
    nestEach stack ts = (bracketWord ts).foldlM BracketSide.push stack := by
  induction ts generalizing stack with
  | nil => rfl
  | cons t ts ih =>
    rw [nestEach, nest_eq_push, bracketWord, List.filterMap_cons]
    cases t.side? with
    | none => exact ih stack
    | some side => exact Option.bind_congr fun next _ => ih next

/-- A well-nested word leaves every stack as it was. -/
theorem WellNested.foldlM_push {w : List BracketSide} (nested : WellNested w)
    (stack : List Bracket) : w.foldlM BracketSide.push stack = some stack := by
  induction nested generalizing stack with
  | nil => rfl
  | pair b _ _ inside behind =>
    rw [List.foldlM_cons, BracketSide.push, Option.bind_eq_bind, Option.bind_some,
      List.foldlM_append, inside, Option.bind_eq_bind, Option.bind_some, List.foldlM_cons]
    simpa [BracketSide.push] using behind stack

/-- A word that closes the brackets of a stack one after the other, with well-nested words between
them. -/
def Unwinds : List Bracket → List BracketSide → Prop
  | [], w => WellNested w
  | b :: stack, w => ∃ first rest, WellNested first ∧ Unwinds stack rest ∧
      w = first ++ .closing b :: rest

/-- A pair in front of a word that closes the brackets of a stack. -/
theorem Unwinds.pair {stack : List Bracket} {inside behind : List BracketSide} (b : Bracket)
    (nested : WellNested inside) (unwinds : Unwinds stack behind) :
    Unwinds stack (.opening b :: (inside ++ .closing b :: behind)) := by
  cases stack with
  | nil => exact WellNested.pair b nested unwinds
  | cons c stack =>
    obtain ⟨first, rest, nested', unwinds', rfl⟩ := unwinds
    exact ⟨_, rest, .pair b nested nested', unwinds', by simp⟩

/-- **What empties the stack unwinds it.** -/
theorem unwinds_of_foldlM {w : List BracketSide} {stack : List Bracket}
    (emptied : w.foldlM BracketSide.push stack = some []) : Unwinds stack w := by
  induction w generalizing stack with
  | nil =>
    obtain rfl : stack = [] := Option.some.inj emptied
    exact .nil
  | cons side w ih =>
    rw [List.foldlM_cons] at emptied
    obtain ⟨next, pushed, emptied⟩ := Option.bind_eq_some_iff.mp emptied
    have unwinds := ih emptied
    cases side with
    | opening b =>
      obtain rfl : b :: stack = next := Option.some.inj pushed
      obtain ⟨inside, behind, nested, unwinds, rfl⟩ := unwinds
      exact unwinds.pair b nested
    | closing b =>
      -- what is closed was opened last
      cases stack with
      | nil => cases pushed
      | cons c stack =>
        rw [BracketSide.push, Option.ite_none_right_eq_some] at pushed
        obtain ⟨rfl, pushed⟩ := pushed
        obtain rfl := Option.some.inj pushed
        exact ⟨[], w, .nil, unwinds, rfl⟩

/-- **The stack decides about nesting.** -/
theorem wellNested_iff_foldlM {w : List BracketSide} :
    WellNested w ↔ w.foldlM BracketSide.push [] = some [] :=
  ⟨fun nested => nested.foldlM_push [], unwinds_of_foldlM⟩

instance (w : List BracketSide) : Decidable (WellNested w) :=
  decidable_of_iff _ wellNested_iff_foldlM.symm

/-- Brackets that cross are not nested, although each has its counterpart. -/
example : ¬WellNested [.opening .round, .opening .level, .closing .round, .closing .level] := by
  decide

/-- **Brackets and indentation of a node are well nested**, whatever is attached to the nodes and
whether members are kept apart or not. -/
theorem Node.wellNested_emit (notes : Notes) (blankLines : Bool) (n : Node) :
    WellNested (bracketWord (n.emit (notes.context blankLines))) := by
  have nested := n.nested_emit (notes.isQuiet_context blankLines) []
  rw [nestEach_eq_foldlM] at nested
  exact wellNested_iff_foldlM.mpr nested

end JavaSource
