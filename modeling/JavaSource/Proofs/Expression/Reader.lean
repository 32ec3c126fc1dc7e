import JavaSource.Proofs.Expression.Grammar
import JavaSource.Text.Split
import Mathlib.Order.Filter.AtTopBot.Basic

/-!
# Reading expressions

The grammar of expressions gives every list of spellings at most one expression
(`Grammar.Derives.unique`). The proof is a reader by precedence: `Grammar.read` reads an expression
that starts a list of spellings, and `Grammar.extend` goes on behind an expression that has been
read, as long as what follows binds at least as tightly as the place demands. The number of steps is
bounded; `Grammar.Yields` says what the reader comes to if the bound is large enough. The reader
looks one spelling ahead, and two kinds of places need care:

* what follows a closing parenthesis decides whether a name in parentheses was a cast;
* brackets behind `new` belong to the creation of the array, also if they could be an index.

`Grammar.Derives.retraces` says that reading retraces every derivation: in front of any rest that
`Closes` the place, the reader gets to the derived expression and goes on behind it.
-/

namespace JavaSource

namespace Grammar

/-! ### What a spelling can do -/

/-- What the first spelling of an expression says about it. -/
inductive Opening where
  | parenthesis | creation | this | sign (operator : UnaryOperator) | literal | name

/-- What a spelling says at the start of an expression; `none` if no expression starts with it. -/
def opening? (w : String) : Option Opening :=
  if w = "(" then some .parenthesis
  else if w = "new" then some .creation
  else if w = "this" then some .this
  else if isLiteralWord w then some .literal
  else if isNameWord w then some .name
  else
    ((Enumeration.members (α := UnaryOperator)).find? fun op => op.symbol = w).map .sign

/-- What a spelling says behind an expression. -/
inductive Connective where
  | member | index | step (operator : PostfixOperator) | binary (operator : InfixOperator) | test
  | choice | assign (operator : InfixOperator)

/-- The spellings that continue an expression. -/
def connectives : List (String × Connective) :=
  [(".", Connective.member), ("[", .index), ("instanceof", .test), ("?", .choice)] ++
    (Enumeration.members (α := PostfixOperator)).map (fun op => (op.symbol, Connective.step op)) ++
    ((Enumeration.members (α := InfixOperator)).filter (· ≠ .assign)).map
      (fun op => (op.symbol, Connective.binary op)) ++
    (Enumeration.members (α := InfixOperator)).filterMap fun op =>
      op.assignmentSymbol.map fun symbol => (symbol, Connective.assign op)

/-- What a spelling says behind an expression; `none` if it does not continue it. -/
def connective? (w : String) : Option Connective :=
  connectives.lookup w

/-- How tightly a connective binds what stands before it. -/
def Connective.rank : Connective → Nat
  | .member => Precedence.primary.rank
  | .index => indexedRank
  | .step _ => Precedence.suffix.rank
  | .binary op => op.precedence.rank
  | .test => Precedence.relational.rank
  | .choice => Precedence.conditional.rank
  | .assign _ => Precedence.assignment.rank

/-- Whether a spelling starts an operand and cannot continue an expression. -/
def startsOperand (w : String) : Bool :=
  (opening? w).isSome && (connective? w).isNone

/-! ### The reader -/

/-- What follows a given spelling. -/
def expect? (w : String) : List String → Option (List String)
  | v :: ts => if v = w then some ts else none
  | [] => none

/-- The basic type of a cast whose opening parenthesis has been read. -/
def castKind? : List String → Option (BasicTypeKind × List String)
  | k :: c :: ts => if c = ")" then (BasicTypeKind.ofKeyword? k).map (·, ts) else none
  | _ => none

/-- The name that is the type of a cast: a name in parentheses in front of an operand. -/
def castWord? : Outline → List String → Option String
  | .node .simpleName none [.text w], t :: _ => if startsOperand t then some w else none
  | _, _ => none

/-- A type that is a single word. -/
def typeWord (w : String) : Outline :=
  match BasicTypeKind.ofKeyword? w with
  | some k => basicType k
  | none => namedType w

/-- The number of empty brackets at the start, and what follows them. -/
def emptyBrackets : List String → Nat × List String
  | a :: b :: ts =>
    if a = "[" ∧ b = "]" then ((emptyBrackets ts).1 + 1, (emptyBrackets ts).2)
    else (0, a :: b :: ts)
  | ts => (0, ts)

mutual

/-- Reads an expression where the strength `n` is demanded, in at most `b` steps. -/
@[simp] def read (b n : Nat) (ts : List String) : Option (Outline × List String) :=
  match b, ts with
  | 0, _ | _, [] => none
  | b + 1, w :: ts =>
    match opening? w with
    | none => none
    | some .parenthesis =>
      match castKind? ts with
      | some (k, ts) => do
        let (o, ts) ← read b Precedence.unary.rank ts
        extend b n (cast (basicType k) o) ts
      | none => do
        let (o, ts) ← read b 0 ts
        let ts ← expect? ")" ts
        match castWord? o ts with
        | some w => do
          let (o, ts) ← read b Precedence.unary.rank ts
          extend b n (cast (namedType w) o) ts
        | none => extend b n o ts
    | some .creation =>
      match ts with
      | [] => none
      | k :: ts => do
        let k ← BasicTypeKind.ofKeyword? k
        let (sizes, ts) ← readSizes b ts
        extend b n (creation k sizes (emptyBrackets ts).1) (emptyBrackets ts).2
    | some .this => extend b n this ts
    | some (.sign op) => do
      let (o, ts) ← read b Precedence.unary.rank ts
      extend b n (signed op o) ts
    | some .literal => extend b n (literal w) ts
    | some .name =>
      match expect? "(" ts with
      | some ts => do
        let (os, ts) ← readArguments b ts
        extend b n (call .absent w os) ts
      | none => extend b n (name w) ts

/-- Goes on behind an expression where the strength `n` is demanded. -/
@[simp] def extend (b n : Nat) (o : Outline) (ts : List String) : Option (Outline × List String) :=
  match b, ts with
  | 0, _ => none
  | _ + 1, [] => some (o, [])
  | b + 1, w :: ts =>
    match connective? w with
    | none => some (o, w :: ts)
    | some c =>
      if c.rank < n then some (o, w :: ts)
      else
        match c with
        | .member =>
          match ts with
          | [] => none
          | w :: ts =>
            match expect? "(" ts with
            | some ts => do
              let (os, ts) ← readArguments b ts
              extend b n (call o w os) ts
            | none => extend b n (field o w) ts
        | .index => do
          let (i, ts) ← read b 0 ts
          let ts ← expect? "]" ts
          extend b n (indexed o i) ts
        | .step op => extend b n (stepped o op) ts
        | .binary op => do
          let (r, ts) ← read b (op.precedence.rank + 1) ts
          extend b n (infixed o op r) ts
        | .test =>
          match ts with
          | [] => none
          | w :: ts => extend b n (tested o (typeWord w)) ts
        | .choice => do
          let (y, ts) ← read b 0 ts
          let ts ← expect? ":" ts
          let (z, ts) ← read b Precedence.conditional.rank ts
          extend b n (conditional o y z) ts
        | .assign op => do
          let (r, ts) ← read b Precedence.assignment.rank ts
          extend b n (assignment o op r) ts

/-- Reads arguments up to the closing parenthesis. -/
@[simp] def readArguments (b : Nat) (ts : List String) : Option (List Outline × List String) :=
  match b with
  | 0 => none
  | b + 1 =>
    match expect? ")" ts with
    | some ts => some ([], ts)
    | none => do
      let (o, ts) ← read b 0 ts
      let (os, ts) ← readMoreArguments b ts
      return (o :: os, ts)

/-- Reads the arguments behind the first one. -/
@[simp] def readMoreArguments (b : Nat) (ts : List String) : Option (List Outline × List String) :=
  match b with
  | 0 => none
  | b + 1 =>
    match expect? ")" ts with
    | some ts => some ([], ts)
    | none => do
      let ts ← expect? "," ts
      let (o, ts) ← read b 0 ts
      let (os, ts) ← readMoreArguments b ts
      return (o :: os, ts)

/-- Reads the sizes of an array up to the first empty brackets. -/
@[simp] def readSizes (b : Nat) (ts : List String) : Option (List Outline × List String) :=
  match b with
  | 0 => none
  | b + 1 =>
    match expect? "[" ts with
    | none => some ([], ts)
    | some rest =>
      match expect? "]" rest with
      | some _ => some ([], ts)
      | none => do
        let (o, rest) ← read b 0 rest
        let rest ← expect? "]" rest
        let (os, rest) ← readSizes b rest
        return (o :: os, rest)

end

/-- A bounded computation comes to a result, and comes to it with any larger bound, too. -/
def Yields {α : Type} (f : Nat → Option α) (a : α) : Prop :=
  ∀ᶠ b in Filter.atTop, f b = some a

/-- There is one result at most, since the larger bound serves for both. -/
theorem Yields.unique {α : Type} {f : Nat → Option α} {a a' : α} (h : Yields f a)
    (h' : Yields f a') : a = a' := by
  obtain ⟨b, hb, hb'⟩ := (h.and h').exists
  exact Option.some.inj (hb.symm.trans hb')

/-- The first step can be left out of account. -/
theorem Yields.of_succ {α : Type} {f : Nat → Option α} {a : α}
    (h : Yields (fun b => f (b + 1)) a) : Yields f a := by
  obtain ⟨k, hk⟩ := Filter.eventually_atTop.mp h
  refine Filter.eventually_atTop.mpr ⟨k + 1, fun b hb => ?_⟩
  obtain ⟨b, rfl⟩ := Nat.exists_eq_add_of_le' (Nat.le_of_add_left_le hb)
  exact hk b (by omega)

/-- An expression is read from `ts`, and so on behind it; the result is `r`. -/
abbrev Reads (n : Nat) (ts : List String) (r : Outline × List String) : Prop :=
  Yields (read · n ts) r

/-- What is read behind the expression `o` comes to `r`. -/
abbrev Extends (n : Nat) (o : Outline) (ts : List String) (r : Outline × List String) : Prop :=
  Yields (extend · n o ts) r

/-! ### Names, literals and marks are told apart -/

/-- A digit does not start an identifier. -/
theorem isIdentifierStart_of_isDigit {c : Char} (h : c.isDigit = true) :
    isIdentifierStart c = false := by
  have digits : ∀ k ∈ List.range' 48 10, isIdentifierStart (Char.ofNat k) = false := by decide
  have bounds : 48 ≤ c.toNat ∧ c.toNat ≤ 57 := by
    simpa [Char.isDigit, UInt32.le_iff_toNat_le] using h
  have digit : c.toNat ∈ List.range' 48 10 := List.mem_range'_1.mpr (by omega)
  rw [← Char.ofNat_toNat c]
  exact digits c.toNat digit

/-- An identifier does not start as a literal does. -/
theorem startsLiteral_of_spellsIdentifier {cs : List Char} (h : spellsIdentifier cs = true) :
    startsLiteral cs = false := by
  cases cs with
  | nil => rfl
  | cons c cs =>
    have start : isIdentifierStart c = true := by
      simp only [spellsIdentifier, Bool.and_eq_true] at h
      exact h.1
    unfold startsLiteral
    split
    · next heq =>
      obtain ⟨rfl, -⟩ := List.cons.inj heq
      exact absurd start (by decide)
    · next heq =>
      obtain ⟨rfl, -⟩ := List.cons.inj heq
      by_contra hc
      simp only [Bool.not_eq_false, Bool.or_eq_true, beq_iff_eq] at hc
      rcases hc with (digit | rfl) | rfl
      · rw [isIdentifierStart_of_isDigit digit] at start
        contradiction
      · exact absurd start (by decide)
      · exact absurd start (by decide)
    · rfl

section

variable {n m k : Nat} {w : String} {ts rest : List String} {o : Outline}

theorem isLiteralWord_of_isNameWord (word : isNameWord w = true) : isLiteralWord w = false := by
  simp only [isNameWord, Bool.and_eq_true, Bool.not_eq_true'] at word
  have spelled := startsLiteral_of_spellsIdentifier word.1
  by_contra hw
  simp only [isLiteralWord, spelled, Bool.or_false, Bool.not_eq_false, List.contains_iff_mem,
    List.mem_cons, List.not_mem_nil, or_false] at hw
  rcases hw with rfl | rfl | rfl <;> exact absurd word.2 (by decide)

theorem opening?_of_isNameWord (word : isNameWord w = true) : opening? w = some .name := by
  have parenthesis : w ≠ "(" := by rintro rfl; exact absurd word (by decide)
  have creation : w ≠ "new" := by rintro rfl; exact absurd word (by decide)
  have this : w ≠ "this" := by rintro rfl; exact absurd word (by decide)
  simp [opening?, parenthesis, creation, this, word, isLiteralWord_of_isNameWord word]

theorem opening?_of_isLiteralWord (word : isLiteralWord w = true) :
    opening? w = some .literal := by
  have parenthesis : w ≠ "(" := by rintro rfl; exact absurd word (by decide)
  have creation : w ≠ "new" := by rintro rfl; exact absurd word (by decide)
  have this : w ≠ "this" := by rintro rfl; exact absurd word (by decide)
  simp [opening?, parenthesis, creation, this, word]

theorem opening?_symbol (op : UnaryOperator) : opening? op.symbol = some (.sign op) := by
  cases op <;> rfl

theorem connective?_symbol {op : InfixOperator} (proper : op ≠ .assign) :
    connective? op.symbol = some (.binary op) := by
  cases op with
  | assign => contradiction
  | _ => rfl

theorem connective?_assignmentSymbol {op : InfixOperator}
    (spelled : op.assignmentSymbol = some w) : connective? w = some (.assign op) := by
  cases op <;> cases spelled <;> rfl

theorem connective?_step (op : PostfixOperator) : connective? op.symbol = some (.step op) := by
  cases op <;> rfl

/-- A spelling that continues an expression starts none, except for the signs. -/
theorem connective?_eq_none {c : Opening} (start : opening? w = some c) (unsigned : w ∉ signs) :
    connective? w = none := by
  have table : ∀ p ∈ connectives, (opening? p.1).isNone ∨ p.1 ∈ signs := by decide
  by_contra continues
  obtain ⟨d, hd⟩ := Option.ne_none_iff_exists'.mp continues
  obtain ⟨before, after, split, -⟩ := List.lookup_eq_some_iff.mp hd
  rcases table (w, d) (by simp [split]) with h | h
  · simp [start] at h
  · exact unsigned h

/-- The keywords of the basic types are reserved. -/
theorem ofKeyword?_of_isNameWord (word : isNameWord w = true) :
    BasicTypeKind.ofKeyword? w = none := by
  by_contra keyword
  obtain ⟨k, hk⟩ := Option.ne_none_iff_exists'.mp keyword
  obtain rfl := BasicTypeKind.ofKeyword?_eq_some_iff.mp hk
  cases k <;> exact absurd word (by decide)

/-! ### Where an expression ends -/

/-- The rest does not go on with an expression that stands where the strength `m` is demanded: it
starts no operand, and what continues an expression binds more loosely, or as loosely as an operator
whose chains nest on the left. -/
structure Closes (m : Nat) (rest : List String) : Prop where
  /-- No operand follows. -/
  operand : ∀ t ∈ rest.head?, startsOperand t = false
  /-- What follows is for the place around the expression. -/
  rank : ∀ t ∈ rest.head?, ∀ c, connective? t = some c →
    c.rank < m ∨ c.rank = m ∧ Precedence.conditional.rank < m

namespace Closes

theorem mono (h : Closes m rest) (hk : m ≤ k) : Closes k rest where
  operand := h.operand
  rank t ht c hc := by
    rcases h.rank t ht c hc with lower | ⟨same, chain⟩ <;> omega

/-- A connective closes the place of its left operand. -/
theorem of_connective {c : Connective} (hw : connective? w = some c)
    (hc : c.rank < m ∨ c.rank = m ∧ Precedence.conditional.rank < m) : Closes m (w :: ts) where
  operand t ht := by
    obtain rfl := Option.some.inj ht
    simp [startsOperand, hw]
  rank t ht d hd := by
    obtain rfl := Option.some.inj ht
    rw [hw] at hd
    exact Option.some.inj hd ▸ hc

/-- A mark that neither starts nor continues an expression closes every place. -/
theorem of_mark (hw : opening? w = none) (hc : connective? w = none) : Closes m (w :: ts) where
  operand t ht := by
    obtain rfl := Option.some.inj ht
    simp [startsOperand, hw]
  rank t ht c hd := by
    obtain rfl := Option.some.inj ht
    simp [hc] at hd

theorem nil : Closes m [] where
  operand _ ht := nomatch ht
  rank _ ht := nomatch ht

/-- No expression is followed by a spelling that starts an operand. -/
theorem expect?_eq_none (h : Closes m rest) (hw : startsOperand w = true) :
    expect? w rest = none := by
  cases rest with
  | nil => rfl
  | cons t rest =>
    have ht : t ≠ w := by
      rintro rfl
      simp [h.operand t rfl] at hw
    simp [expect?, ht]

end Closes

/-! ### The steps of the reader -/

@[simp] theorem expect?_self : expect? w (w :: ts) = some ts := by
  simp [expect?]

variable {r : Outline × List String}

theorem reads_name (word : isNameWord w = true) (plain : expect? "(" ts = none)
    (more : Extends n (name w) ts r) : Reads n (w :: ts) r := by
  refine .of_succ ?_
  filter_upwards [more] with b hb
  simpa only [read, opening?_of_isNameWord word, plain] using hb

theorem reads_call (word : isNameWord w = true) {us : List String} {os : List Outline}
    (arguments : Yields (readArguments · ts) (os, us))
    (more : Extends n (call .absent w os) us r) : Reads n (w :: "(" :: ts) r := by
  refine .of_succ ?_
  filter_upwards [arguments, more] with b ha hb
  simpa only [read, opening?_of_isNameWord word, expect?_self, ha, Option.bind_eq_bind,
    Option.bind_some] using hb

theorem reads_literal (word : isLiteralWord w = true) (more : Extends n (literal w) ts r) :
    Reads n (w :: ts) r := by
  refine .of_succ ?_
  filter_upwards [more] with b hb
  simpa only [read, opening?_of_isLiteralWord word] using hb

theorem reads_this (more : Extends n this ts r) : Reads n ("this" :: ts) r := by
  have start : opening? "this" = some .this := rfl
  refine .of_succ ?_
  filter_upwards [more] with b hb
  simpa only [read, start] using hb

theorem reads_sign (op : UnaryOperator) {us : List String}
    (operand : Reads Precedence.unary.rank ts (o, us)) (more : Extends n (signed op o) us r) :
    Reads n (op.symbol :: ts) r := by
  refine .of_succ ?_
  filter_upwards [operand, more] with b ho hb
  simpa only [read, opening?_symbol op, ho, Option.bind_eq_bind, Option.bind_some] using hb

theorem reads_castBasic (k : BasicTypeKind) {us : List String}
    (operand : Reads Precedence.unary.rank ts (o, us))
    (more : Extends n (cast (basicType k) o) us r) :
    Reads n ("(" :: k.keyword :: ")" :: ts) r := by
  have start : opening? "(" = some .parenthesis := rfl
  refine .of_succ ?_
  filter_upwards [operand, more] with b ho hb
  simpa only [read, start, castKind?, BasicTypeKind.ofKeyword?_keyword, if_true, Option.map_some,
    ho, Option.bind_eq_bind, Option.bind_some] using hb

/-- In parentheses that are no cast to a basic type stands an expression first. -/
theorem reads_parenthesized (noBasic : castKind? ts = none) {us : List String}
    (inner : Reads 0 ts (o, ")" :: us)) (noCast : castWord? o us = none)
    (more : Extends n o us r) : Reads n ("(" :: ts) r := by
  have start : opening? "(" = some .parenthesis := rfl
  refine .of_succ ?_
  filter_upwards [inner, more] with b hi hb
  simpa only [read, start, noBasic, hi, Option.bind_eq_bind, Option.bind_some, expect?_self,
    noCast] using hb

/-- A name in parentheses is the type of a cast if what follows says so. -/
theorem reads_castNamed (noBasic : castKind? ts = none) {us vs : List String} {type : Outline}
    (inner : Reads 0 ts (type, ")" :: us)) (isCast : castWord? type us = some w)
    (operand : Reads Precedence.unary.rank us (o, vs))
    (more : Extends n (cast (namedType w) o) vs r) : Reads n ("(" :: ts) r := by
  have start : opening? "(" = some .parenthesis := rfl
  refine .of_succ ?_
  filter_upwards [inner, operand, more] with b hi ho hb
  simpa only [read, start, noBasic, hi, Option.bind_eq_bind, Option.bind_some, expect?_self,
    isCast, ho] using hb

theorem reads_creation (k : BasicTypeKind) {us : List String} {sizes : List Outline}
    (given : Yields (readSizes · ts) (sizes, us))
    (more : Extends n (creation k sizes (emptyBrackets us).1) (emptyBrackets us).2 r) :
    Reads n ("new" :: k.keyword :: ts) r := by
  have start : opening? "new" = some .creation := rfl
  refine .of_succ ?_
  filter_upwards [given, more] with b hs hb
  simpa only [read, start, BasicTypeKind.ofKeyword?_keyword, Option.bind_eq_bind, Option.bind_some,
    hs] using hb

/-- Reading stops in front of what binds too loosely. -/
theorem extends_stop (h : ∀ t ∈ ts.head?, ∀ c, connective? t = some c → c.rank < n) :
    Extends n o ts (o, ts) := by
  refine .of_succ (.of_forall fun b => ?_)
  cases ts with
  | nil => rfl
  | cons t ts =>
    cases hc : connective? t with
    | none => simp only [extend, hc]
    | some c => simp only [extend, hc, if_pos (h t rfl c hc)]

theorem Closes.extends_of_lt (h : Closes m ts) (hn : m < n) : Extends n o ts (o, ts) :=
  extends_stop fun t ht c hc => by
    rcases h.rank t ht c hc with lower | ⟨same, -⟩ <;> omega

theorem extends_member {w : String} (strong : n ≤ Precedence.primary.rank)
    (plain : expect? "(" ts = none) (more : Extends n (field o w) ts r) :
    Extends n o ("." :: w :: ts) r := by
  have continues : connective? "." = some .member := rfl
  refine .of_succ ?_
  filter_upwards [more] with b hb
  simpa only [extend, continues, Connective.rank, Nat.not_lt.mpr strong, if_false, plain] using hb

theorem extends_call (strong : n ≤ Precedence.primary.rank) {us : List String}
    {os : List Outline} (arguments : Yields (readArguments · ts) (os, us))
    (more : Extends n (call o w os) us r) : Extends n o ("." :: w :: "(" :: ts) r := by
  have continues : connective? "." = some .member := rfl
  refine .of_succ ?_
  filter_upwards [arguments, more] with b ha hb
  simpa only [extend, continues, Connective.rank, Nat.not_lt.mpr strong, if_false, expect?_self,
    ha, Option.bind_eq_bind, Option.bind_some] using hb

theorem extends_index (strong : n ≤ indexedRank) {us : List String} {i : Outline}
    (index : Reads 0 ts (i, "]" :: us)) (more : Extends n (indexed o i) us r) :
    Extends n o ("[" :: ts) r := by
  have continues : connective? "[" = some .index := rfl
  refine .of_succ ?_
  filter_upwards [index, more] with b hi hb
  simpa only [extend, continues, Connective.rank, Nat.not_lt.mpr strong, if_false, hi,
    Option.bind_eq_bind, Option.bind_some, expect?_self] using hb

theorem extends_step (op : PostfixOperator) (strong : n ≤ Precedence.suffix.rank)
    (more : Extends n (stepped o op) ts r) : Extends n o (op.symbol :: ts) r := by
  refine .of_succ ?_
  filter_upwards [more] with b hb
  simpa only [extend, connective?_step op, Connective.rank, Nat.not_lt.mpr strong,
    if_false] using hb

theorem extends_binary {op : InfixOperator} (proper : op ≠ .assign)
    (strong : n ≤ op.precedence.rank) {us : List String} {right : Outline}
    (operand : Reads (op.precedence.rank + 1) ts (right, us))
    (more : Extends n (infixed o op right) us r) : Extends n o (op.symbol :: ts) r := by
  refine .of_succ ?_
  filter_upwards [operand, more] with b ho hb
  simpa only [extend, connective?_symbol proper, Connective.rank, Nat.not_lt.mpr strong, if_false,
    ho, Option.bind_eq_bind, Option.bind_some] using hb

theorem extends_test (strong : n ≤ Precedence.relational.rank)
    (more : Extends n (tested o (typeWord w)) ts r) :
    Extends n o ("instanceof" :: w :: ts) r := by
  have continues : connective? "instanceof" = some .test := rfl
  refine .of_succ ?_
  filter_upwards [more] with b hb
  simpa only [extend, continues, Connective.rank, Nat.not_lt.mpr strong, if_false] using hb

theorem extends_choice (strong : n ≤ Precedence.conditional.rank) {us vs : List String}
    {yes no : Outline} (middle : Reads 0 ts (yes, ":" :: us))
    (last : Reads Precedence.conditional.rank us (no, vs))
    (more : Extends n (conditional o yes no) vs r) : Extends n o ("?" :: ts) r := by
  have continues : connective? "?" = some .choice := rfl
  refine .of_succ ?_
  filter_upwards [middle, last, more] with b hm hl hb
  simpa only [extend, continues, Connective.rank, Nat.not_lt.mpr strong, if_false, hm,
    Option.bind_eq_bind, Option.bind_some, expect?_self, hl] using hb

theorem extends_assign {op : InfixOperator} (spelled : op.assignmentSymbol = some w)
    (strong : n ≤ Precedence.assignment.rank) {us : List String} {right : Outline}
    (operand : Reads Precedence.assignment.rank ts (right, us))
    (more : Extends n (assignment o op right) us r) : Extends n o (w :: ts) r := by
  refine .of_succ ?_
  filter_upwards [operand, more] with b ho hb
  simpa only [extend, connective?_assignmentSymbol spelled, Connective.rank,
    Nat.not_lt.mpr strong, if_false, ho, Option.bind_eq_bind, Option.bind_some] using hb

/-! ### Reading retraces derivations -/

/-- Every derived list starts as an expression does. -/
theorem Derives.exists_opening (h : Derives n ts o) :
    ∃ t rest c, ts = t :: rest ∧ opening? t = some c := by
  induction h with
  | name word => exact ⟨_, _, _, rfl, opening?_of_isNameWord word⟩
  | literal word => exact ⟨_, _, _, rfl, opening?_of_isLiteralWord word⟩
  | this => exact ⟨_, _, .this, rfl, rfl⟩
  | parenthesized => exact ⟨_, _, .parenthesis, rfl, rfl⟩
  | signed => exact ⟨_, _, _, rfl, opening?_symbol _⟩
  | castBasic => exact ⟨_, _, .parenthesis, rfl, rfl⟩
  | castNamed => exact ⟨_, _, .parenthesis, rfl, rfl⟩
  | call word => exact ⟨_, _, _, rfl, opening?_of_isNameWord word⟩
  | creation => exact ⟨_, _, .creation, rfl, rfl⟩
  | infixed _ _ _ _ ih _ | stepped _ _ ih | conditional _ _ _ _ ih _ _ | assignment _ _ _ _ ih _
  | testedBasic _ _ ih | testedNamed _ _ _ ih | field _ _ ih | indexed _ _ ih _
  | callOn _ _ _ ih _ =>
    obtain ⟨t, rest, c, rfl, ht⟩ := ih
    exact ⟨t, _, c, rfl, ht⟩

/-- A derived list does not start with a spelling that starts no expression. -/
theorem Derives.expect?_eq_none (h : Derives n ts o) (hw : opening? w = none) (us : List String) :
    expect? w (ts ++ us) = none := by
  obtain ⟨t, rest, c, rfl, ht⟩ := h.exists_opening
  have other : t ≠ w := by
    rintro rfl
    simp [hw] at ht
  simp [expect?, other]

/-- An expression starts with no keyword of a basic type, so it is not read as a cast to one. -/
theorem castKind?_of_opening {t : String} {c : Opening} (ht : opening? t = some c) :
    castKind? (t :: ts) = none := by
  have keyword : BasicTypeKind.ofKeyword? t = none := by
    by_contra keyword
    obtain ⟨k, hk⟩ := Option.ne_none_iff_exists'.mp keyword
    have spelled : k.keyword = t := by simpa using List.find?_some hk
    subst spelled
    cases k <;> cases ht
  cases ts with
  | nil => rfl
  | cons u ts => simp [castKind?, keyword]

/-- What stands in parentheses is a cast only in front of an operand. -/
theorem Closes.castWord?_eq_none (h : Closes m rest) : castWord? o rest = none := by
  unfold castWord?
  split
  · next t _ => simp [h.operand t rfl]
  · rfl

/-- The expression of `a` is read up to any spelling that neither starts nor continues one. -/
def ReadsAlone (a : List String × Outline) : Prop :=
  ∀ w rest, opening? w = none → connective? w = none →
    Reads 0 (a.1 ++ w :: rest) (a.2, w :: rest)

/-- An argument is read up to the comma or the parenthesis behind it. -/
theorem ReadsAlone.reads_argument {a : List String × Outline} (h : ReadsAlone a)
    (as : List (List String × Outline)) (rest : List String) :
    Reads 0 (a.1 ++ (as.flatMap (fun a => "," :: a.1) ++ ")" :: rest))
      (a.2, as.flatMap (fun a => "," :: a.1) ++ ")" :: rest) := by
  cases as with
  | nil => exact h ")" rest rfl rfl
  | cons b bs => exact h "," _ rfl rfl

theorem yields_readMoreArguments (rest : List String) {as : List (List String × Outline)}
    (each : ∀ a ∈ as, ReadsAlone a) :
    Yields (readMoreArguments · (as.flatMap (fun a => "," :: a.1) ++ ")" :: rest))
      (as.map Prod.snd, rest) := by
  induction as with
  | nil => exact .of_succ (.of_forall fun b => by simp [readMoreArguments])
  | cons a as ih =>
    have more := ih fun b hb => each b (List.mem_cons_of_mem a hb)
    have head := (each a List.mem_cons_self).reads_argument as rest
    have comma : expect? ")" ("," :: (a.1 ++ (as.flatMap (fun a => "," :: a.1) ++ ")" :: rest))) =
        none := rfl
    refine .of_succ ?_
    filter_upwards [head, more] with b hh hm
    simp only [readMoreArguments, List.flatMap_cons, List.cons_append, List.append_assoc, comma,
      expect?_self, Option.bind_eq_bind, Option.bind_some, hh, hm, List.map_cons]
    rfl

theorem yields_readArguments (rest : List String) {as : List (List String × Outline)}
    (each : ∀ a ∈ as, ReadsAlone a) (derived : ∀ a ∈ as, Derives 0 a.1 a.2) :
    Yields (readArguments · ([","].intercalate (as.map Prod.fst) ++ ")" :: rest))
      (as.map Prod.snd, rest) := by
  cases as with
  | nil => exact .of_succ (.of_forall fun b => by simp [readArguments, List.intercalate])
  | cons a as =>
    have more := yields_readMoreArguments rest fun b hb => each b (List.mem_cons_of_mem a hb)
    have head := (each a List.mem_cons_self).reads_argument as rest
    have some_ : ∀ us, expect? ")" (a.1 ++ us) = none :=
      (derived a List.mem_cons_self).expect?_eq_none rfl
    rw [List.map_cons, Text.intercalate_cons, List.flatMap_map, List.append_assoc]
    refine .of_succ ?_
    filter_upwards [head, more] with b hh hm
    simp only [readArguments, some_, hh, hm, Option.bind_eq_bind, Option.bind_some, List.map_cons]
    rfl

theorem yields_readSizes {as : List (List String × Outline)}
    (each : ∀ a ∈ as, ReadsAlone a) (derived : ∀ a ∈ as, Derives 0 a.1 a.2)
    (stop : Yields (readSizes · rest) ([], rest)) :
    Yields (readSizes · (brackets (as.map Prod.fst) ++ rest)) (as.map Prod.snd, rest) := by
  induction as with
  | nil => exact stop
  | cons a as ih =>
    have more := ih (fun b hb => each b (List.mem_cons_of_mem a hb))
      fun b hb => derived b (List.mem_cons_of_mem a hb)
    have head := each a List.mem_cons_self "]" (brackets (as.map Prod.fst) ++ rest) rfl rfl
    have some_ : ∀ us, expect? "]" (a.1 ++ us) = none :=
      (derived a List.mem_cons_self).expect?_eq_none rfl
    have split : brackets ((a :: as).map Prod.fst) ++ rest =
        "[" :: (a.1 ++ "]" :: (brackets (as.map Prod.fst) ++ rest)) := by
      simp [brackets]
    rw [split]
    refine .of_succ ?_
    filter_upwards [head, more] with b hh hm
    simp only [readSizes, expect?_self, some_, hh, hm, Option.bind_eq_bind, Option.bind_some,
      List.map_cons]
    rfl

/-- Empty brackets are counted up to a rest that starts with no bracket. -/
theorem emptyBrackets_append (stop : expect? "[" rest = none) (k : Nat) :
    emptyBrackets (brackets (List.replicate k []) ++ rest) = (k, rest) := by
  induction k with
  | zero =>
    change emptyBrackets rest = (0, rest)
    unfold emptyBrackets
    split
    · next a b us =>
      have other : a ≠ "[" := by rintro rfl; simp at stop
      simp [other]
    · rfl
  | succ k ih =>
    have split : brackets (List.replicate (k + 1) []) ++ rest =
        "[" :: "]" :: (brackets (List.replicate k []) ++ rest) := by
      simp [brackets, List.replicate_succ]
    rw [split, emptyBrackets, if_pos ⟨rfl, rfl⟩, ih]

/-- Sizes are read up to empty brackets or to what is no bracket. -/
theorem yields_readSizes_emptyBrackets (stop : expect? "[" rest = none) (k : Nat) :
    Yields (readSizes · (brackets (List.replicate k []) ++ rest))
      ([], brackets (List.replicate k []) ++ rest) := by
  refine .of_succ (.of_forall fun b => ?_)
  cases k with
  | zero => simp [readSizes, brackets, stop]
  | succ k =>
    have split : brackets (List.replicate (k + 1) []) ++ rest =
        "[" :: "]" :: (brackets (List.replicate k []) ++ rest) := by
      simp [brackets, List.replicate_succ]
    simp only [split, readSizes, expect?_self]

/-- No connective binds as an operator in front of its operand does. -/
theorem Connective.rank_ne_unary (c : Connective) : c.rank ≠ Precedence.unary.rank := by
  cases c with
  | binary op => cases op <;> decide
  | step _ | assign _ => simp [rank, Precedence.rank]
  | member | index | test | choice => decide

/-- Reading stops behind an operand of a sign or of a cast. -/
theorem Closes.extends_unary (h : Closes m rest) (hm : m ≤ Precedence.unary.rank) :
    Extends Precedence.unary.rank o rest (o, rest) :=
  extends_stop fun t ht c hc => by
    have other := c.rank_ne_unary
    rcases h.rank t ht c hc with lower | ⟨same, -⟩ <;> omega

/-- The places on the right of a conditional or an assignment are closed by what is looser. -/
theorem Closes.extends_right (h : Closes m rest) (hm : m ≤ k)
    (hk : k ≤ Precedence.conditional.rank) : Extends k o rest (o, rest) :=
  extends_stop fun t ht c hc => by
    rcases h.rank t ht c hc with lower | ⟨-, chain⟩ <;> omega

theorem InfixOperator.precedence_rank (op : InfixOperator) (proper : op ≠ .assign) :
    Precedence.conditional.rank < op.precedence.rank ∧
      op.precedence.rank < Precedence.unary.rank := by
  cases op with
  | assign => contradiction
  | _ => decide

/-- A dot closes a primary expression. -/
theorem Closes.of_member (us : List String) : Closes Precedence.primary.rank ("." :: us) :=
  .of_connective (c := .member) rfl (.inr ⟨rfl, by decide⟩)

/-- A test closes what it tests. -/
theorem Closes.of_test (us : List String) :
    Closes Precedence.relational.rank ("instanceof" :: us) :=
  .of_connective (c := .test) rfl (.inr ⟨rfl, by decide⟩)

/-- Reading `ts` for the strength `m` or less comes to `o` and goes on behind it, in front of every
rest that closes the place. -/
def Retraces (m : Nat) (ts : List String) (o : Outline) : Prop :=
  ∀ ⦃n : Nat⦄ ⦃rest : List String⦄ ⦃r : Outline × List String⦄, n ≤ m →
    n ≤ Precedence.unary.rank → Closes m rest → Extends n o rest r → Reads n (ts ++ rest) r

theorem Retraces.readsAlone (h : Retraces 0 ts o) : ReadsAlone (ts, o) := by
  intro w rest hw hc
  refine h le_rfl (Nat.zero_le _) (.of_mark hw hc) (extends_stop fun t ht c hd => ?_)
  obtain rfl := Option.some.inj ht
  simp [hc] at hd

/-- **Reading retraces derivations.** -/
theorem Derives.retraces (h : Derives m ts o) : Retraces m ts o := by
  -- An operand on the left is closed by the connective behind it, and an operand on the right by
  -- what closes the whole.
  induction h with
  | name word => exact fun n rest r _ _ close => reads_name word (close.expect?_eq_none rfl)
  | literal word => exact fun n rest r _ _ _ => reads_literal word
  | this => exact fun n rest r _ _ _ => reads_this
  | @parenthesized m ts o inner ih =>
    intro n rest r _ _ close more
    -- read as a group first; what follows says that it is not a cast
    have group : Reads 0 (ts ++ ")" :: rest) (o, ")" :: rest) := ih.readsAlone ")" rest rfl rfl
    have noBasic : castKind? (ts ++ ")" :: rest) = none := by
      obtain ⟨t, us, c, rfl, ht⟩ := inner.exists_opening
      exact castKind?_of_opening ht
    rw [List.append_assoc, List.singleton_append, List.cons_append]
    exact reads_parenthesized noBasic group close.castWord?_eq_none more
  | @infixed m op l r lo ro proper strong left right ihl ihr =>
    intro n rest res hn hu close more
    have range := InfixOperator.precedence_rank op proper
    have closeLeft : Closes op.precedence.rank (op.symbol :: (r ++ rest)) :=
      .of_connective (connective?_symbol proper) (.inr ⟨rfl, range.1⟩)
    have operand : Reads (op.precedence.rank + 1) (r ++ rest) (ro, rest) :=
      ihr le_rfl (by omega) (close.mono (by omega)) (close.extends_of_lt (by omega))
    rw [List.append_assoc, List.cons_append]
    exact ihl (by omega) hu closeLeft (extends_binary proper (by omega) operand more)
  | @signed m op ts o strong operand ih =>
    intro n rest r _ _ close more
    exact reads_sign op (ih le_rfl le_rfl (close.mono strong) (close.extends_unary strong)) more
  | @stepped m op ts o strong operand ih =>
    intro n rest r _ hu close more
    have closeLeft : Closes Precedence.suffix.rank (op.symbol :: rest) :=
      .of_connective (connective?_step op) (.inr ⟨rfl, by decide⟩)
    have loose : n ≤ Precedence.suffix.rank := hu.trans (by decide)
    rw [List.append_assoc, List.singleton_append]
    exact ih loose hu closeLeft (extends_step op loose more)
  | @conditional m c y z co yo zo strong condition yes no ihc ihy ihz =>
    intro n rest r hn hu close more
    have closeCondition : ∀ us, Closes Precedence.conditionalOr.rank ("?" :: us) :=
      fun us => .of_connective (c := .choice) rfl (.inl (by decide))
    have middle : Reads 0 (y ++ ":" :: (z ++ rest)) (yo, ":" :: (z ++ rest)) :=
      ihy.readsAlone ":" _ rfl rfl
    have last : Reads Precedence.conditional.rank (z ++ rest) (zo, rest) :=
      ihz le_rfl (by decide) (close.mono strong) (close.extends_right strong le_rfl)
    have loose : n ≤ Precedence.conditional.rank := hn.trans strong
    simp only [List.append_assoc, List.cons_append]
    exact ihc (loose.trans (by decide)) hu (closeCondition _)
      (extends_choice loose middle last more)
  | @assignment m op symbol l r lo ro spelled strong left right ihl ihr =>
    intro n rest res hn hu close more
    have closeLeft : Closes Precedence.primary.rank (symbol :: (r ++ rest)) :=
      .of_connective (connective?_assignmentSymbol spelled)
        (.inl (by simp [Connective.rank, Precedence.rank]))
    have operand : Reads Precedence.assignment.rank (r ++ rest) (ro, rest) :=
      ihr le_rfl (by decide) (close.mono strong) (close.extends_right strong (by decide))
    have loose : n ≤ Precedence.assignment.rank := hn.trans strong
    rw [List.append_assoc, List.cons_append]
    exact ihl (loose.trans (by decide)) hu closeLeft (extends_assign spelled loose operand more)
  | @testedBasic m k ts o strong operand ih =>
    intro n rest r hn hu close more
    have type : typeWord k.keyword = basicType k := by
      rw [typeWord, BasicTypeKind.ofKeyword?_keyword]
    rw [← type] at more
    rw [List.append_assoc, List.cons_append, List.singleton_append]
    exact ih (hn.trans strong) hu (.of_test _) (extends_test (hn.trans strong) more)
  | @testedNamed m w ts o word strong operand ih =>
    intro n rest r hn hu close more
    have type : typeWord w = namedType w := by rw [typeWord, ofKeyword?_of_isNameWord word]
    rw [← type] at more
    rw [List.append_assoc, List.cons_append, List.singleton_append]
    exact ih (hn.trans strong) hu (.of_test _) (extends_test (hn.trans strong) more)
  | @castBasic m k ts o strong operand ih =>
    intro n rest r _ _ close more
    exact reads_castBasic k (ih le_rfl le_rfl (close.mono strong) (close.extends_unary strong)) more
  | @castNamed m w ts o word strong operand unsigned ih =>
    intro n rest r _ _ close more
    -- the type is read as a name in parentheses, and the operand behind it makes this a cast
    have noBasic : castKind? (w :: ")" :: (ts ++ rest)) = none :=
      castKind?_of_opening (opening?_of_isNameWord word)
    have type : Reads 0 (w :: ")" :: (ts ++ rest)) (Grammar.name w, ")" :: (ts ++ rest)) :=
      reads_name word rfl (extends_stop fun t ht c hc => by cases ht; cases hc)
    have isCast : castWord? (Grammar.name w) (ts ++ rest) = some w := by
      obtain ⟨t, us, c, rfl, ht⟩ := operand.exists_opening
      have start : startsOperand t = true := by
        simp [startsOperand, ht, connective?_eq_none ht (unsigned t rfl)]
      simp [castWord?, Grammar.name, start]
    exact reads_castNamed noBasic type isCast
      (ih le_rfl le_rfl (close.mono strong) (close.extends_unary strong)) more
  | @field m w ts o word qualifier ih =>
    intro n rest r _ hu close more
    have loose : n ≤ Precedence.primary.rank := hu.trans (by decide)
    rw [List.append_assoc, List.cons_append, List.singleton_append]
    exact ih loose hu (.of_member _) (extends_member loose (close.expect?_eq_none rfl) more)
  | @indexed m a i ao io array index iha ihi =>
    intro n rest r _ hu close more
    have closeLeft : ∀ us, Closes indexedRank ("[" :: us) :=
      fun us => .of_connective (c := .index) rfl (.inr ⟨rfl, by decide⟩)
    have inner : Reads 0 (i ++ "]" :: rest) (io, "]" :: rest) :=
      ihi.readsAlone "]" rest rfl rfl
    have loose : n ≤ indexedRank := hu.trans (by decide)
    simp only [List.append_assoc, List.cons_append, List.nil_append]
    exact iha loose hu (closeLeft _) (extends_index loose inner more)
  | @call m w as word each ih =>
    intro n rest r _ _ close more
    have arguments := yields_readArguments rest (fun a ha => (ih a ha).readsAlone) each
    simp only [List.cons_append, List.append_assoc, List.nil_append]
    exact reads_call word arguments more
  | @callOn m w q qo as word qualifier each ihq ih =>
    intro n rest r _ hu close more
    have arguments := yields_readArguments rest (fun a ha => (ih a ha).readsAlone) each
    have loose : n ≤ Precedence.primary.rank := hu.trans (by decide)
    simp only [List.cons_append, List.append_assoc, List.nil_append]
    exact ihq loose hu (.of_member _) (extends_call loose arguments more)
  | @creation m k as empty strong each ih =>
    intro n rest r _ _ close more
    -- a bracket behind the creation would be read as one more size
    have noIndex : expect? "[" rest = none := by
      cases rest with
      | nil => rfl
      | cons t rest =>
        have other : t ≠ "[" := by
          rintro rfl
          rcases close.rank "[" rfl .index rfl with lower | ⟨same, -⟩
          · exact absurd (lower.trans_le strong) (by decide)
          · exact absurd (same.trans_le strong) (by decide)
        simp [expect?, other]
    have sizes := yields_readSizes (fun a ha => (ih a ha).readsAlone) each
      (yields_readSizes_emptyBrackets noIndex empty)
    rw [List.append_assoc, List.cons_append, List.cons_append]
    refine reads_creation k sizes ?_
    rwa [emptyBrackets_append noIndex]

/-- **The grammar is unambiguous**: a list of spellings is at most one expression. -/
theorem Derives.unique {o o' : Outline} (h : Derives n ts o) (h' : Derives n ts o') : o = o' := by
  have reads : ∀ {o : Outline}, Derives n ts o → Reads 0 ts (o, []) := by
    intro o h
    have stop : Extends 0 o [] (o, []) := extends_stop fun t ht => by cases ht
    have retraced := h.retraces (Nat.zero_le n) (Nat.zero_le _) .nil stop
    rwa [List.append_nil] at retraced
  exact congrArg Prod.fst ((reads h).unique (reads h'))

end

end Grammar

end JavaSource
