import JavaSource.Proofs.Ty.Grammar

/-!
# Reading exactly the grammar of types

The reader of types is greedy and looks one piece ahead. `Reading.Gives` says what a reading comes
to, with one lemma for each way to put readings together, so the two halves speak of derivations
only:

* what the reader takes derives from the grammar (`Ty.sound_readType`), one statement for each
  function of the descent;
* the reader retraces every derivation (`Ty.retraces_of_derives`). Dots, type arguments and brackets
  go on with a type, so a whole type is taken in front of pieces that do not.

Together they say that a text is read as a type exactly if its pieces derive from the grammar.
-/

namespace JavaSource

/-! ### What a reading gives -/

namespace Reading

variable {α β : Type} {ps : List Piece}

/-- A reading succeeds with a value and leaves given pieces. -/
def Gives (x : Reading α ps) (a : α) (rest : List Piece) : Prop :=
  ∃ h, x = .ok (a, ⟨rest, h⟩)

@[simp] theorem gives_error {e : BuildError} {a : α} {rest : List Piece} :
    ¬ Gives (.error e : Reading α ps) a rest := by
  rintro ⟨h, eq⟩
  cases eq

@[simp] theorem gives_stop {a b : α} {rest : List Piece} :
    (stop a ps).Gives b rest ↔ b = a ∧ rest = ps := by
  constructor
  · rintro ⟨h, eq⟩
    cases eq
    exact ⟨rfl, rfl⟩
  · rintro ⟨rfl, rfl⟩
    exact ⟨Nat.le_refl _, rfl⟩

@[simp] theorem gives_behind {p : Piece} {x : Reading α ps} {a : α} {rest : List Piece} :
    (behind p x).Gives a rest ↔ x.Gives a rest := by
  constructor
  · rintro ⟨h, eq⟩
    cases x with
    | error e => cases eq
    | ok r =>
      cases eq
      exact ⟨r.2.length_le, rfl⟩
  · rintro ⟨h, rfl⟩
    exact ⟨Nat.le_succ_of_le h, rfl⟩

@[simp] theorem gives_andThen {x : Reading α ps}
    {f : α → (rest : List Piece) → rest.length ≤ ps.length → Reading β rest} {b : β}
    {last : List Piece} :
    (x.andThen f).Gives b last ↔ ∃ a rest h, x.Gives a rest ∧ (f a rest h).Gives b last := by
  constructor
  · rintro ⟨h, eq⟩
    cases x with
    | error e => cases eq
    | ok r =>
      obtain ⟨a, rest⟩ := r
      cases next : f a rest.pieces rest.length_le with
      | error e => simp [andThen, next] at eq
      | ok r =>
        obtain ⟨b', last'⟩ := r
        simp only [andThen, next] at eq
        cases eq
        exact ⟨a, rest.pieces, rest.length_le, ⟨rest.length_le, rfl⟩, last'.length_le, next⟩
  · rintro ⟨a, rest, h, ⟨h', rfl⟩, h'', eq⟩
    refine ⟨Nat.le_trans h'' h, ?_⟩
    simp only [andThen, eq]

@[simp] theorem gives_naming {w : List Char} {f : SimpleName → Reading α ps} {a : α}
    {rest : List Piece} :
    (naming w f).Gives a rest ↔
      ∃ h : isIdentifier (String.ofList w) = true,
        (f ⟨none, String.ofList w, h⟩).Gives a rest := by
  unfold naming SimpleName.ofToken
  split
  · next s eq =>
    split at eq
    · next h =>
      cases eq
      simp [h]
    · cases eq
  · next e eq =>
    split at eq
    · cases eq
    · next h => simp [h]

end Reading

/-! ### Soundness -/

namespace Ty

open TypeGrammar

variable {fault : BuildError}

theorem sound_readSegments {n m : Name} {ps rest : List Piece}
    (h : (readSegments fault n ps).Gives m rest) :
    ∃ used, ps = used ++ rest ∧ rest.head? ≠ some .dot ∧
      ∀ front, Dotted front n → Dotted (front ++ used) m := by
  induction n, ps using readSegments.induct with
  | case1 n w ps ih =>
    simp only [readSegments, Reading.gives_naming, Reading.gives_behind] at h
    obtain ⟨identifier, h⟩ := h
    obtain ⟨used, rfl, stops, longer⟩ := ih _ h
    refine ⟨.dot :: .word w :: used, rfl, stops, fun front name => ?_⟩
    simpa using longer _ (name.qualified identifier)
  | case2 n ps noWord => simp [readSegments] at h
  | case3 n ps noWord noDot =>
    simp only [readSegments, Reading.gives_stop] at h
    obtain ⟨rfl, rfl⟩ := h
    refine ⟨[], rfl, fun head => ?_, fun front name => by simpa using name⟩
    obtain ⟨tail, rfl⟩ := List.head?_eq_some_iff.mp head
    exact noDot tail rfl

theorem sound_readBrackets {t u : Ty} {front ps rest : List Piece} (before : Derives .type front t)
    (h : (readBrackets fault t ps).Gives u rest) :
    ∃ used, ps = used ++ rest ∧ Derives .type (front ++ used) u := by
  induction t, ps using readBrackets.induct generalizing front with
  | case1 t ps wild => simp [readBrackets, wild] at h
  | case2 t ps proper ih =>
    have proper : t.isWildcard = false := by simpa using proper
    have component := before.of_not_isWildcard proper
    rw [readBrackets, proper, if_neg Bool.false_ne_true, Reading.gives_behind,
      Reading.gives_behind] at h
    obtain ⟨used, rfl, longer⟩ := ih (.brackets component.array) h
    exact ⟨.openBracket :: .closeBracket :: used, rfl, by simpa using longer⟩
  | case3 t ps noClose => simp [readBrackets] at h
  | case4 t ps noPair noOpen =>
    simp only [readBrackets, Reading.gives_stop] at h
    obtain ⟨rfl, rfl⟩ := h
    exact ⟨[], rfl, by simpa using before⟩

/-! Each function of the descent in turn: what it takes derives from its symbol. -/

/-- What is taken as a type derives as one. -/
def TypeSound (fault : BuildError) (ps : List Piece) : Prop :=
  ∀ t rest, (readType fault ps).Gives t rest → ∃ used, ps = used ++ rest ∧ Derives .type used t

/-- What is taken as a type without brackets derives as a type. -/
def ElementSound (fault : BuildError) (ps : List Piece) : Prop :=
  ∀ t rest, (readElement fault ps).Gives t rest → ∃ used, ps = used ++ rest ∧ Derives .type used t

/-- What is taken behind a `?` makes a wildcard of it. -/
def BoundSound (fault : BuildError) (ps : List Piece) : Prop :=
  ∀ t rest, (readBound fault ps).Gives t rest →
    ∃ used, ps = used ++ rest ∧ Derives .wildcard (.question :: used) t

/-- The parts behind a type go on with a generic type, and make one of a dotted name. -/
def PartsSound (fault : BuildError) (t : Ty) (ps : List Piece) : Prop :=
  ∀ u rest, (readParts fault t ps).Gives u rest → ∃ used, ps = used ++ rest ∧
    (∀ front, Derives .generic front t → Derives .generic (front ++ used) u) ∧
    ∀ front n, t = .named ⟨none, n⟩ → ps.head? ≠ some .dot → Dotted front n →
      Derives .element (front ++ used) u

/-- Further type arguments are types behind commas, up to a closing bracket. -/
def ArgumentsSound (fault : BuildError) (ps : List Piece) : Prop :=
  ∀ ts rest, (readArguments fault ps).Gives ts rest → ∃ parts : List (List Piece × Ty),
    ps = parts.flatMap (fun a => .comma :: a.1) ++ .closeAngle :: rest ∧
      ts = parts.map Prod.snd ∧ ∀ a ∈ parts, Derives .type a.1 a.2

theorem typeSound {ps : List Piece} (element : ElementSound fault ps) : TypeSound fault ps := by
  intro u last h
  rw [readType, Reading.gives_andThen] at h
  obtain ⟨t, rest, -, ht, hu⟩ := h
  obtain ⟨used, rfl, before⟩ := element t rest ht
  obtain ⟨more, rfl, whole⟩ := sound_readBrackets before hu
  exact ⟨used ++ more, by simp, whole⟩

theorem elementSound_question {ps : List Piece} (bound : BoundSound fault ps) :
    ElementSound fault (.question :: ps) := by
  intro t rest h
  rw [readElement, Reading.gives_behind] at h
  obtain ⟨used, rfl, whole⟩ := bound t rest h
  exact ⟨.question :: used, rfl, .wildcard whole⟩

theorem elementSound_word {w : List Char} {ps : List Piece}
    (parts : ∀ n rest, rest.length ≤ ps.length → PartsSound fault (.named ⟨none, n⟩) rest) :
    ElementSound fault (.word w :: ps) := by
  intro t last h
  rw [readElement, Reading.gives_behind] at h
  split at h
  · next k keyword =>
    obtain ⟨rfl, rfl⟩ := Reading.gives_stop.mp h
    have spelled : w = k.keyword.toList := by
      rw [← BasicTypeKind.ofKeyword?_eq_some_iff.mp keyword, String.toList_ofList]
    exact ⟨[.word w], rfl, by rw [spelled]; exact .brackets (.element (.basic k))⟩
  · next noKeyword =>
    rw [Reading.gives_naming] at h
    obtain ⟨identifier, h⟩ := h
    rw [Reading.gives_andThen] at h
    obtain ⟨n, rest, shorter, hn, ht⟩ := h
    have notBasic : ∀ k : BasicTypeKind, String.ofList w ≠ k.keyword := by
      intro k spelled
      rw [BasicTypeKind.ofKeyword?_eq_some_iff.mpr spelled] at noKeyword
      cases noKeyword
    obtain ⟨used, rfl, noDot, dotted⟩ := sound_readSegments hn
    obtain ⟨more, rfl, -, element⟩ := parts n _ shorter t last ht
    refine ⟨.word w :: used ++ more, by simp, .brackets (.element ?_)⟩
    exact element (.word w :: used) n rfl noDot (dotted [.word w] (.simple identifier notBasic))

theorem partsSound_arguments {t : Ty} {ps : List Piece} (type : TypeSound fault ps)
    (arguments : ∀ rest, rest.length ≤ ps.length → ArgumentsSound fault rest)
    (parts : ∀ first (rest : List Piece), rest.length ≤ ps.length → ∀ others (left : List Piece),
      left.length ≤ rest.length → PartsSound fault (.parameterized none t first others) left) :
    PartsSound fault t (.openAngle :: ps) := by
  intro u last h
  rw [readParts, Reading.gives_behind, Reading.gives_andThen] at h
  obtain ⟨first, rest, shorter, hf, h⟩ := h
  rw [Reading.gives_andThen] at h
  obtain ⟨others, left, shorter', ho, hu⟩ := h
  obtain ⟨used, rfl, firstDerives⟩ := type first rest hf
  obtain ⟨more, rfl, rfl, each⟩ := arguments _ shorter others left ho
  obtain ⟨behind, rfl, longer, -⟩ := parts first _ shorter _ _ shorter' u last hu
  have each : ∀ a ∈ (used, first) :: more, Derives .type a.1 a.2 := by
    intro a ha
    rcases List.mem_cons.mp ha with rfl | ha
    · exact firstDerives
    · exact each a ha
  refine ⟨anglePieces used (more.map Prod.fst) ++ behind, ?_, fun front base => ?_,
    fun front n eq _ base => ?_⟩
  · simp [anglePieces, List.flatMap_map]
  · simpa using longer _ (base.again each)
  · subst eq
    simpa using (longer _ (.applied base each)).generic

theorem partsSound_member {t : Ty} {w : List Char} {ps : List Piece}
    (parts : ∀ s, PartsSound fault (.qualified none t s) ps) :
    PartsSound fault t (.dot :: .word w :: ps) := by
  intro u last h
  rw [readParts, Reading.gives_naming] at h
  obtain ⟨identifier, h⟩ := h
  rw [Reading.gives_behind, Reading.gives_behind] at h
  obtain ⟨used, rfl, longer, -⟩ := parts _ u last h
  refine ⟨.dot :: .word w :: used, rfl, fun front base => ?_, fun front n _ noDot _ => ?_⟩
  · simpa using longer _ (base.member identifier)
  · exact absurd rfl noDot

theorem argumentsSound_comma {ps : List Piece} (type : TypeSound fault ps)
    (arguments : ∀ rest, rest.length ≤ ps.length → ArgumentsSound fault rest) :
    ArgumentsSound fault (.comma :: ps) := by
  intro ts last h
  rw [readArguments, Reading.gives_behind, Reading.gives_andThen] at h
  obtain ⟨t, rest, shorter, ht, h⟩ := h
  rw [Reading.gives_andThen] at h
  obtain ⟨others, left, -, ho, h⟩ := h
  obtain ⟨rfl, rfl⟩ := Reading.gives_stop.mp h
  obtain ⟨used, rfl, derives⟩ := type t rest ht
  obtain ⟨more, rfl, rfl, each⟩ := arguments _ shorter others _ ho
  refine ⟨(used, t) :: more, by simp, rfl, fun a ha => ?_⟩
  rcases List.mem_cons.mp ha with rfl | ha
  · exact derives
  · exact each a ha

theorem boundSound_word {w : List Char} {ps : List Piece} {d : WildcardBoundKind}
    (announced : WildcardBoundKind.ofKeyword? (String.ofList w) = some d)
    (type : TypeSound fault ps) : BoundSound fault (.word w :: ps) := by
  intro t last h
  simp only [readBound, announced, Reading.gives_behind, Reading.gives_andThen] at h
  obtain ⟨b, rest, -, hb, h⟩ := h
  obtain ⟨rfl, rfl⟩ := Reading.gives_stop.mp h
  obtain ⟨used, rfl, bound⟩ := type b _ hb
  have keyword := WildcardBoundKind.ofKeyword?_eq_some_iff.mp announced
  exact ⟨.word w :: used, rfl, .bounded keyword bound⟩

/-- **What the reader takes derives from the grammar.** -/
theorem sound_readType (fault : BuildError) (ps : List Piece) : TypeSound fault ps := by
  refine (readType.mutual_induct (TypeSound fault) (ElementSound fault) (PartsSound fault)
    (ArgumentsSound fault) (BoundSound fault) (fun _ => typeSound) (fun _ => elementSound_question)
    (fun _ _ => elementSound_word) ?noElement (fun _ _ => partsSound_arguments)
    (fun _ _ _ => partsSound_member) ?noMember ?noPart (fun _ => argumentsSound_comma) ?close
    ?noArgument (fun _ _ _ => boundSound_word) ?otherWord ?noWord).1 ps
  case noElement =>
    intro ps noQuestion noWord t rest h
    rw [readElement.eq_3 fault ps noQuestion noWord] at h
    exact absurd h Reading.gives_error
  case noMember =>
    intro t ps noWord u rest h
    rw [readParts.eq_3 fault t ps noWord] at h
    exact absurd h Reading.gives_error
  case noPart =>
    intro t ps noAngle noWord noDot u rest h
    rw [readParts.eq_4 fault t ps noAngle noWord noDot] at h
    obtain ⟨rfl, rfl⟩ := Reading.gives_stop.mp h
    exact ⟨[], rfl, fun front base => by simpa using base,
      fun front n eq _ base => by subst eq; simpa using .named base⟩
  case close =>
    intro ps ts rest h
    rw [readArguments, Reading.gives_behind] at h
    obtain ⟨rfl, rfl⟩ := Reading.gives_stop.mp h
    exact ⟨[], rfl, rfl, by simp⟩
  case noArgument =>
    intro ps noComma noClose ts rest h
    rw [readArguments.eq_3 fault ps noComma noClose] at h
    exact absurd h Reading.gives_error
  case otherWord =>
    intro w ps noBound t rest h
    simp only [readBound, noBound] at h
    obtain ⟨rfl, rfl⟩ := Reading.gives_stop.mp h
    exact ⟨[], rfl, .unbound⟩
  case noWord =>
    intro ps noWord t rest h
    rw [readBound.eq_2 fault ps noWord] at h
    obtain ⟨rfl, rfl⟩ := Reading.gives_stop.mp h
    exact ⟨[], rfl, .unbound⟩

/-! ### Completeness -/

/-- No part of an element can follow: neither a dot nor type arguments. -/
def EndsElement (rest : List Piece) : Prop :=
  rest.head? ≠ some .dot ∧ rest.head? ≠ some .openAngle

/-- A type ends here: at the end, at a comma or at a closing bracket. -/
def EndsType (rest : List Piece) : Prop :=
  ∀ p ∈ rest.head?, p = .comma ∨ p = .closeAngle

theorem EndsType.endsElement {rest : List Piece} (h : EndsType rest) : EndsElement rest := by
  constructor <;> intro head <;> simpa using h _ head

/-- The reader retraces derivations from a symbol: a whole type, wildcard or element is taken in
front of pieces that cannot go on with it; behind an element with brackets or a generic type the
reader goes on with what follows. -/
def Retraces (fault : BuildError) : Symbol → List Piece → Ty → Prop
  | .type, ps, t => ∀ rest, EndsType rest → (readType fault (ps ++ rest)).Gives t rest
  | .wildcard, ps, t => ∀ rest, EndsType rest → (readElement fault (ps ++ rest)).Gives t rest
  | .brackets, ps, t =>
    t.isWildcard = false ∧ ∀ rest u last, EndsElement rest →
      (readBrackets fault t rest).Gives u last → (readType fault (ps ++ rest)).Gives u last
  | .element, ps, t =>
    t.isWildcard = false ∧ ∀ rest, EndsElement rest → (readElement fault (ps ++ rest)).Gives t rest
  | .generic, ps, t =>
    t.isWildcard = false ∧ ∀ rest u last, (readParts fault t rest).Gives u last →
      (readElement fault (ps ++ rest)).Gives u last

section

variable {rest : List Piece} {t u : Ty}

theorem gives_readBrackets (h : rest.head? ≠ some .openBracket) :
    (readBrackets fault t rest).Gives t rest := by
  rw [readBrackets]
  · exact Reading.gives_stop.mpr ⟨rfl, rfl⟩
  · rintro ps rfl
    exact h rfl
  · rintro ps rfl
    exact h rfl

theorem gives_readParts (h : EndsElement rest) : (readParts fault t rest).Gives t rest := by
  rw [readParts]
  · exact Reading.gives_stop.mpr ⟨rfl, rfl⟩
  · rintro ps rfl
    exact h.2 rfl
  · rintro w ps rfl
    exact h.1 rfl
  · rintro ps rfl
    exact h.1 rfl

theorem gives_readSegments {n : Name} (h : rest.head? ≠ some .dot) :
    (readSegments fault n rest).Gives n rest := by
  rw [readSegments]
  · exact Reading.gives_stop.mpr ⟨rfl, rfl⟩
  · rintro w ps rfl
    exact h rfl
  · rintro ps rfl
    exact h rfl

/-- A dotted name is taken from its first identifier on, segment by segment. -/
theorem exists_readSegments_of_dotted (fault : BuildError) {ps : List Piece} {n : Name}
    (name : Dotted ps n) :
    ∃ w more, ∃ identifier : isIdentifier (String.ofList w) = true, ps = .word w :: more ∧
      BasicTypeKind.ofKeyword? (String.ofList w) = none ∧
      ∀ rest m last, (readSegments fault n rest).Gives m last →
        (readSegments fault (.simple ⟨none, String.ofList w, identifier⟩) (more ++ rest)).Gives m
          last := by
  induction name with
  | @simple w identifier notBasic =>
    refine ⟨w, [], identifier, rfl, ?_, fun rest m last h => h⟩
    rw [Option.eq_none_iff_forall_ne_some]
    intro k found
    exact notBasic k (BasicTypeKind.ofKeyword?_eq_some_iff.mp found)
  | @qualified ps n v qualifier identifier ih =>
    obtain ⟨w, more, first, rfl, notBasic, start⟩ := ih
    refine ⟨w, more ++ [Piece.dot, .word v], first, rfl, notBasic, fun rest m last h => ?_⟩
    rw [List.append_assoc]
    refine start _ m last ?_
    simp only [List.cons_append, List.nil_append, readSegments, Reading.gives_naming,
      Reading.gives_behind]
    exact ⟨identifier, h⟩

/-- Behind a dotted name the reader goes on with its parts. -/
theorem gives_readElement_of_dotted {ps last : List Piece} {n : Name} (name : Dotted ps n)
    (noDot : rest.head? ≠ some .dot)
    (parts : (readParts fault (.named ⟨none, n⟩) rest).Gives u last) :
    (readElement fault (ps ++ rest)).Gives u last := by
  obtain ⟨w, more, identifier, rfl, notBasic, segments⟩ :=
    exists_readSegments_of_dotted fault name
  rw [List.cons_append, readElement, notBasic, Reading.gives_behind, Reading.gives_naming]
  refine ⟨identifier, Reading.gives_andThen.mpr ⟨n, rest, ?_, ?_, parts⟩⟩
  · simp
  · exact segments rest n rest (gives_readSegments noDot)

theorem endsType_arguments (others : List (List Piece × Ty)) (rest : List Piece) :
    EndsType (others.flatMap (fun a => .comma :: a.1) ++ .closeAngle :: rest) := by
  cases others <;> simp [EndsType]

/-- Further type arguments are taken up to the closing bracket. -/
theorem gives_readArguments {others : List (List Piece × Ty)}
    (each : ∀ a ∈ others, Retraces fault .type a.1 a.2) :
    (readArguments fault
      (others.flatMap (fun a => .comma :: a.1) ++ .closeAngle :: rest)).Gives
      (others.map Prod.snd) rest := by
  induction others with
  | nil =>
    rw [List.flatMap_nil, List.nil_append, readArguments, Reading.gives_behind]
    exact Reading.gives_stop.mpr ⟨rfl, rfl⟩
  | cons a others ih =>
    have first := each a List.mem_cons_self _ (endsType_arguments others rest)
    have further := ih fun b hb => each b (List.mem_cons_of_mem a hb)
    rw [List.flatMap_cons, List.append_assoc, List.cons_append, readArguments, Reading.gives_behind]
    refine Reading.gives_andThen.mpr ⟨a.2, _, by simp, first, ?_⟩
    refine Reading.gives_andThen.mpr ⟨others.map Prod.snd, rest, by simp; omega, further, ?_⟩
    exact Reading.gives_stop.mpr ⟨rfl, rfl⟩

/-- Type arguments are taken as a whole. -/
theorem gives_readParts_angled {first : List Piece × Ty} {others : List (List Piece × Ty)}
    {last : List Piece} (each : ∀ a ∈ first :: others, Retraces fault .type a.1 a.2)
    (parts : (readParts fault (.parameterized none t first.2 (others.map Prod.snd)) rest).Gives u
      last) :
    (readParts fault t (anglePieces first.1 (others.map Prod.fst) ++ rest)).Gives u last := by
  have start := each first List.mem_cons_self _ (endsType_arguments others rest)
  have further := @gives_readArguments fault rest others fun a ha =>
    each a (List.mem_cons_of_mem first ha)
  have text : anglePieces first.1 (others.map Prod.fst) ++ rest = .openAngle :: (first.1 ++
      (others.flatMap (fun a => .comma :: a.1) ++ .closeAngle :: rest)) := by
    simp [anglePieces, List.flatMap_map]
  rw [text, readParts, Reading.gives_behind]
  refine Reading.gives_andThen.mpr ⟨first.2, _, by simp, start, ?_⟩
  exact Reading.gives_andThen.mpr ⟨others.map Prod.snd, rest, by simp; omega, further, parts⟩

end

/-! Each way to derive in turn. -/

theorem retraces_unbound : Retraces fault .wildcard [.question] (.wildcard none .unbound none) := by
  intro rest ends
  rw [List.singleton_append, readElement, Reading.gives_behind, readBound]
  · exact Reading.gives_stop.mpr ⟨rfl, rfl⟩
  · rintro w ps rfl
    simpa using ends _ rfl

theorem retraces_bounded {d : WildcardBoundKind} {w : List Char} {ps : List Piece} {t : Ty}
    (keyword : d.keyword = some (String.ofList w)) (bound : Retraces fault .type ps t) :
    Retraces fault .wildcard (.question :: .word w :: ps) (.wildcard none d (some t)) := by
  intro rest ends
  have announced := WildcardBoundKind.ofKeyword?_eq_some_iff.mpr keyword
  simp only [List.cons_append, readElement, readBound, announced, Reading.gives_behind]
  refine Reading.gives_andThen.mpr ⟨t, rest, by simp, bound rest ends, ?_⟩
  exact Reading.gives_stop.mpr ⟨rfl, rfl⟩

theorem retraces_type_of_wildcard {ps : List Piece} {t : Ty} (h : Retraces fault .wildcard ps t) :
    Retraces fault .type ps t := by
  intro rest ends
  rw [readType]
  refine Reading.gives_andThen.mpr ⟨t, rest, by simp, h rest ends, gives_readBrackets ?_⟩
  intro head
  simpa using ends _ head

theorem retraces_type_of_brackets {ps : List Piece} {t : Ty} (h : Retraces fault .brackets ps t) :
    Retraces fault .type ps t := by
  intro rest ends
  refine h.2 rest t rest ends.endsElement (gives_readBrackets ?_)
  intro head
  simpa using ends _ head

theorem retraces_brackets {ps : List Piece} {t : Ty} (h : Retraces fault .element ps t) :
    Retraces fault .brackets ps t := by
  refine ⟨h.1, fun rest u last ends behind => ?_⟩
  rw [readType]
  exact Reading.gives_andThen.mpr ⟨t, rest, by simp, h.2 rest ends, behind⟩

theorem retraces_array {ps : List Piece} {t : Ty} (h : Retraces fault .brackets ps t) :
    Retraces fault .brackets (ps ++ [Piece.openBracket, .closeBracket]) (.array none t) := by
  refine ⟨rfl, fun rest u last ends behind => ?_⟩
  rw [List.append_assoc]
  refine h.2 _ u last (by simp [EndsElement]) ?_
  simpa [readBrackets, h.1] using behind

theorem retraces_basic (k : BasicTypeKind) :
    Retraces fault .element [.word k.keyword.toList] (.basic none k) := by
  refine ⟨rfl, fun rest ends => ?_⟩
  have found : BasicTypeKind.ofKeyword? (String.ofList k.keyword.toList) = some k := by
    rw [String.ofList_toList, BasicTypeKind.ofKeyword?_keyword]
  rw [List.singleton_append, readElement, found, Reading.gives_behind]
  exact Reading.gives_stop.mpr ⟨rfl, rfl⟩

theorem retraces_generic {ps : List Piece} {t : Ty} (h : Retraces fault .generic ps t) :
    Retraces fault .element ps t :=
  ⟨h.1, fun rest ends => h.2 rest t rest (gives_readParts ends)⟩

/-- **The reader retraces every derivation.** -/
theorem retraces_of_derives (fault : BuildError) {s : Symbol} {ps : List Piece} {t : Ty}
    (h : Derives s ps t) : Retraces fault s ps t := by
  induction h with
  | wildcard _ ih => exact retraces_type_of_wildcard ih
  | brackets _ ih => exact retraces_type_of_brackets ih
  | unbound => exact retraces_unbound
  | bounded keyword _ ih => exact retraces_bounded keyword ih
  | element _ ih => exact retraces_brackets ih
  | array _ ih => exact retraces_array ih
  | basic k => exact retraces_basic k
  | named name =>
    exact ⟨rfl, fun rest ends => gives_readElement_of_dotted name ends.1 (gives_readParts ends)⟩
  | generic _ ih => exact retraces_generic ih
  | applied base _ each =>
    refine ⟨rfl, fun rest u last parts => ?_⟩
    rw [List.append_assoc]
    exact gives_readElement_of_dotted base (by simp [anglePieces])
      (gives_readParts_angled each parts)
  | again _ _ ih each =>
    refine ⟨rfl, fun rest u last parts => ?_⟩
    rw [List.append_assoc]
    exact ih.2 _ u last (gives_readParts_angled each parts)
  | member _ identifier ih =>
    refine ⟨rfl, fun rest u last parts => ?_⟩
    rw [List.append_assoc]
    refine ih.2 _ u last ?_
    simp only [List.cons_append, List.nil_append, readParts, Reading.gives_naming,
      Reading.gives_behind]
    exact ⟨identifier, parts⟩

/-! ### Texts -/

theorem ofPieces_eq_ok_iff {ps : List Piece} {t : Ty} :
    ofPieces fault ps = .ok t ↔ (readType fault ps).Gives t [] := by
  rw [ofPieces]
  constructor
  · intro h
    cases taken : readType fault ps with
    | error e =>
      rw [taken] at h
      cases h
    | ok r =>
      obtain ⟨u, pieces, shorter⟩ := r
      rw [taken] at h
      cases pieces with
      | nil =>
        cases h
        exact ⟨shorter, rfl⟩
      | cons p pieces => cases h
  · rintro ⟨shorter, taken⟩
    rw [taken]
    rfl

theorem derives_of_read {text : String} {t : Ty} (h : read text = .ok t) :
    ∃ ps, Piece.Cuts text.toList ps ∧ Derives .type ps t := by
  rw [read] at h
  split at h
  · cases h
  · next ps scanned =>
    obtain ⟨used, rfl, whole⟩ := sound_readType _ ps t [] (ofPieces_eq_ok_iff.mp h)
    exact ⟨_, Piece.ofChars?_eq_some_iff.mp scanned, by simpa using whole⟩

theorem read_of_derives {text : String} {ps : List Piece} {t : Ty}
    (cuts : Piece.Cuts text.toList ps) (derives : Derives .type ps t) : read text = .ok t := by
  have scanned : Piece.ofChars? text.toList = some ps := Piece.ofChars?_eq_some_iff.mpr cuts
  have taken := retraces_of_derives (.unparsable text .type) derives [] (by simp [EndsType])
  rw [List.append_nil] at taken
  simp only [read, scanned]
  exact ofPieces_eq_ok_iff.mpr taken

/-- **A text is read as a type exactly if its pieces derive from the grammar**, with that type as
syntax tree. The descent recurses on the number of pieces, so reading ends on every text. -/
theorem read_eq_ok_iff (text : String) (t : Ty) :
    read text = .ok t ↔ ∃ ps, Piece.Cuts text.toList ps ∧ Derives .type ps t :=
  ⟨derives_of_read, fun ⟨_, cuts, derives⟩ => read_of_derives cuts derives⟩

end Ty

end JavaSource
