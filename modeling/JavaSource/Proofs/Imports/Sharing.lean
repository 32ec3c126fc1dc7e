import JavaSource.Proofs.Imports.FirstClaim

/-!
# What resolving leaves alone

Resolving a type replaces named types and nothing else. Whether a named type is replaced can be read
off the session behind the whole type: it is, exactly if its head is imported there
(`Imports.shortName?`). So the result is the type with these named types replaced in their places,
where a node around a replaced one is made anew and all others are the nodes they were
(`Imports.resolve_fst`).

* `Ty.part?` is the type at a position inside a type, and `Ty.frame` is what a type is made of
  besides the types in it.
* `Ty.replace` replaces named types. It goes through positions (`Ty.part?_replace`), so what holds
  of a whole type holds at each position in it (`Imports.resolve_shares_unchanged`).
* `Imports.Continues` is what a later session keeps of an earlier one. It is why a decision about a
  named type is still right at the end.
-/

namespace JavaSource

namespace Ty

/-! ### Positions -/

/-- What a type is made of besides its handle, the types in it and its name. -/
inductive Frame where
  | array
  | basic (kind : BasicTypeKind)
  | named
  | parameterized (arguments : Nat)
  | qualified (member : SimpleName)
  | wildcard (direction : WildcardBoundKind) (bounded : Bool)
  deriving DecidableEq

/-- The frame of a type. -/
def frame : Ty → Frame
  | .array .. => .array
  | .basic _ k => .basic k
  | .named _ => .named
  | .parameterized _ _ _ r => .parameterized (r.length + 1)
  | .qualified _ _ n => .qualified n
  | .wildcard _ d b => .wildcard d b.isSome

/-- The types directly inside a type. -/
def parts : Ty → List Ty
  | .array _ c => [c]
  | .basic .. | .named _ => []
  | .parameterized _ b f r => b :: f :: r
  | .qualified _ q _ => [q]
  | .wildcard _ _ b => b.toList

/-- The type at a position, which is given by the numbers of the parts on the way to it. -/
def part? : List Nat → Ty → Option Ty
  | [], t => some t
  | i :: path, t => t.parts[i]?.bind (part? path)

@[simp] theorem occurrencesEach_eq_flatMap (ts : List Ty) :
    occurrencesEach ts = ts.flatMap occurrences := by
  induction ts with
  | nil => rfl
  | cons t ts ih => rw [occurrencesEach, ih, List.flatMap_cons]

/-! ### Replacing named types -/

section

variable (f : NamedType → Option NamedType)

/-- No named type in a type is replaced. -/
def keeps (t : Ty) : Bool :=
  t.occurrences.all fun w => (f w).isNone

mutual

/-- A type with named types replaced. What has nothing replaced in it keeps its handle. -/
def replace : Ty → Ty
  | .array h c => .array (if c.keeps f then h else none) c.replace
  | .basic h k => .basic h k
  | .named w => .named ((f w).getD w)
  | .parameterized h b a r =>
    .parameterized (if b.keeps f && a.keeps f && r.all (keeps f) then h else none) b.replace
      a.replace (replaceEach r)
  | .qualified h q n => .qualified (if q.keeps f then h else none) q.replace n
  | .wildcard h d none => .wildcard h d none
  | .wildcard h d (some b) => .wildcard (if b.keeps f then h else none) d (some b.replace)

/-- Several types with named types replaced. -/
def replaceEach : List Ty → List Ty
  | [] => []
  | t :: ts => t.replace :: replaceEach ts

end

section

-- The equations of `replace` are derived here, once for everything that follows.
attribute [local simp] replace

end

@[simp] theorem replaceEach_eq_map (ts : List Ty) : replaceEach f ts = ts.map (replace f) := by
  induction ts with
  | nil => rfl
  | cons t ts ih => rw [replaceEach, ih, List.map_cons]

@[simp] theorem keeps_array (h : Handle) (c : Ty) : (array h c).keeps f = c.keeps f := rfl

@[simp] theorem keeps_qualified (h : Handle) (q : Ty) (n : SimpleName) :
    (qualified h q n).keeps f = q.keeps f := rfl

@[simp] theorem keeps_wildcard (h : Handle) (d : WildcardBoundKind) (b : Ty) :
    (wildcard h d (some b)).keeps f = b.keeps f := rfl

@[simp] theorem keeps_parameterized (h : Handle) (b a : Ty) (r : List Ty) :
    (parameterized h b a r).keeps f = (b.keeps f && a.keeps f && r.all (keeps f)) := by
  simp only [keeps, occurrences, occurrencesEach_eq_flatMap, List.all_append, List.all_flatMap]
  rfl

theorem frame_replace (t : Ty) : (t.replace f).frame = t.frame := by
  cases t with
  | parameterized h b a r => simp [replace, frame]
  | wildcard h d b => cases b <;> rfl
  | _ => rfl

theorem parts_replace (t : Ty) : (t.replace f).parts = t.parts.map (replace f) := by
  cases t with
  | parameterized h b a r => simp [replace, parts]
  | wildcard h d b => cases b <;> rfl
  | _ => rfl

/-- **Replacing goes through positions.** -/
theorem part?_replace (path : List Nat) (t : Ty) :
    (t.replace f).part? path = (t.part? path).map (replace f) := by
  induction path generalizing t with
  | nil => rfl
  | cons i path ih =>
    rw [part?, part?, parts_replace, List.getElem?_map]
    cases t.parts[i]? with
    | none => rfl
    | some u => exact ih u

/-- Each named type is replaced in its place. -/
theorem occurrences_replace (t : Ty) :
    (t.replace f).occurrences = t.occurrences.map fun w => (f w).getD w := by
  induction t with
  | array h c ih => exact ih
  | basic h k => rfl
  | named w => rfl
  | parameterized h b a r ihb iha ihr =>
    have rest : (r.map (replace f)).flatMap occurrences =
        (r.flatMap occurrences).map fun w => (f w).getD w := by
      rw [List.flatMap_map, List.map_flatMap]
      exact List.flatMap_congr ihr
    simp [replace, occurrences, ihb, iha, rest]
  | qualified h q n ih => exact ih
  | wildcard h d b ih =>
    cases b with
    | none => rfl
    | some b => exact ih b rfl

variable {f}

theorem keeps_iff {t : Ty} : t.keeps f = true ↔ ∀ w ∈ t.occurrences, f w = none := by
  simp [keeps]

/-- What has nothing replaced in it is left as it is, handle and all. -/
theorem replace_of_keeps {t : Ty} (kept : t.keeps f = true) : t.replace f = t := by
  induction t with
  | array h c ih =>
    rw [keeps_array] at kept
    rw [replace, ih kept, if_pos kept]
  | basic h k => rfl
  | named w =>
    have same : f w = none := keeps_iff.mp kept w (by simp [occurrences])
    rw [replace, same, Option.getD_none]
  | parameterized h b a r ihb iha ihr =>
    rw [keeps_parameterized] at kept
    rw [replace, if_pos kept, replaceEach_eq_map]
    simp only [Bool.and_eq_true, List.all_eq_true] at kept
    obtain ⟨⟨base, first⟩, rest⟩ := kept
    rw [ihb base, iha first, List.map_congr_left fun t ht => ihr t ht (rest t ht), List.map_id']
  | qualified h q n ih =>
    rw [keeps_qualified] at kept
    rw [replace, ih kept, if_pos kept]
  | wildcard h d b ih =>
    cases b with
    | none => rfl
    | some b =>
      rw [keeps_wildcard] at kept
      rw [replace, ih b rfl kept, if_pos kept]

variable (f) in
/-- A type with named types replaced, if there is something to replace. -/
def replaced? (t : Ty) : Option Ty :=
  if t.keeps f then none else some (t.replace f)

variable (f) in
/-- Several types with named types replaced, if there is something to replace. -/
def replacedEach? (ts : List Ty) : Option (List Ty) :=
  if ts.all (keeps f) then none else some (ts.map (replace f))

@[simp] theorem isSome_replaced? (t : Ty) : (t.replaced? f).isSome = !t.keeps f := by
  unfold replaced?
  cases t.keeps f <;> rfl

@[simp] theorem getD_replaced? (t : Ty) : (t.replaced? f).getD t = t.replace f := by
  unfold replaced?
  split
  · next kept => exact (replace_of_keeps kept).symm
  · rfl

@[simp] theorem isSome_replacedEach? (ts : List Ty) :
    (replacedEach? f ts).isSome = !ts.all (keeps f) := by
  unfold replacedEach?
  cases ts.all (keeps f) <;> rfl

@[simp] theorem getD_replacedEach? (ts : List Ty) :
    (replacedEach? f ts).getD ts = ts.map (replace f) := by
  unfold replacedEach?
  split
  · next kept =>
    have each : ∀ t ∈ ts, t.replace f = t := fun t ht =>
      replace_of_keeps (List.all_eq_true.mp kept t ht)
    rw [Option.getD_none, List.map_congr_left each, List.map_id']
  · rfl

theorem replaced?_array (h : Handle) (c : Ty) :
    (array h c).replaced? f = (c.replaced? f).map (array none) := by
  by_cases kept : c.keeps f <;> simp [replaced?, replace, kept]

theorem replaced?_named (w : NamedType) : (named w).replaced? f = (f w).map named := by
  cases given : f w <;> simp [replaced?, keeps, occurrences, replace, given]

theorem replaced?_parameterized (h : Handle) (b a : Ty) (r : List Ty) :
    (parameterized h b a r).replaced? f =
      if (b.replaced? f).isSome || (a.replaced? f).isSome || (replacedEach? f r).isSome then
        some (parameterized none (b.replace f) (a.replace f) (r.map (replace f)))
      else none := by
  rw [isSome_replaced?, isSome_replaced?, isSome_replacedEach?, replaced?, keeps_parameterized,
    replace, replaceEach_eq_map, ← Bool.not_and, ← Bool.not_and]
  split <;> simp_all

theorem replaced?_qualified (h : Handle) (q : Ty) (n : SimpleName) :
    (qualified h q n).replaced? f = (q.replaced? f).map (qualified none · n) := by
  by_cases kept : q.keeps f <;> simp [replaced?, replace, kept]

theorem replaced?_wildcard (h : Handle) (d : WildcardBoundKind) (b : Ty) :
    (wildcard h d (some b)).replaced? f =
      (b.replaced? f).map fun b => wildcard none d (some b) := by
  by_cases kept : b.keeps f <;> simp [replaced?, replace, kept]

theorem replacedEach?_cons (t : Ty) (ts : List Ty) :
    replacedEach? f (t :: ts) =
      if (t.replaced? f).isSome || (replacedEach? f ts).isSome then
        some (t.replace f :: ts.map (replace f))
      else none := by
  rw [isSome_replaced?, isSome_replacedEach?, replacedEach?, List.all_cons, List.map_cons,
    ← Bool.not_and]
  cases t.keeps f && ts.all (keeps f) <;> rfl

/-- A type stays the same exactly if nothing in it is replaced by something else. -/
theorem replace_eq_self_iff (proper : ∀ w, f w ≠ some w) {t : Ty} :
    t.replace f = t ↔ ∀ w ∈ t.occurrences, f w = none := by
  constructor
  · intro same w hw
    have each := t.occurrences_replace f
    rw [same] at each
    have fixed : (f w).getD w = w :=
      List.map_inj_left.mp (each.symm.trans (List.map_id' _).symm) w hw
    cases given : f w with
    | none => rfl
    | some w' =>
      rw [given, Option.getD_some] at fixed
      exact absurd (fixed ▸ given) (proper w)
  · exact fun kept => replace_of_keeps (keeps_iff.mpr kept)

/-- A type in which something is replaced is a new one. -/
theorem handle_replace (fresh : ∀ w w', f w = some w' → w'.handle = none) {t : Ty}
    (replaced : t.keeps f = false) : (t.replace f).outline.handle = none := by
  cases t with
  | basic h k => cases replaced
  | named w =>
    have given : (f w).isSome := by simpa [keeps, occurrences] using replaced
    obtain ⟨w', given⟩ := Option.isSome_iff_exists.mp given
    rw [replace, given]
    exact fresh w w' given
  | array h c =>
    rw [keeps_array] at replaced
    rw [replace, replaced]
    rfl
  | parameterized h b a r =>
    rw [keeps_parameterized] at replaced
    rw [replace, replaced]
    rfl
  | qualified h q n =>
    rw [keeps_qualified] at replaced
    rw [replace, replaced]
    rfl
  | wildcard h d b =>
    cases b with
    | none => cases replaced
    | some b =>
      rw [keeps_wildcard] at replaced
      rw [replace, replaced]
      rfl

end

end Ty

/-! ### What a later session keeps -/

namespace Imports

variable {s s' later : Imports}

/-- The session `later` has come out of `s`: names have been claimed since, and names have been
imported whose last segments were free in `s`. -/
structure Continues (s later : Imports) : Prop where
  strategy_eq : later.strategy = s.strategy
  used : ∀ token ∈ s.used, token ∈ later.used
  imported : ∃ new, later.imported = s.imported ++ new ∧ ∀ q ∈ new, q.name.token ∉ s.used

theorem Continues.refl (s : Imports) : s.Continues s :=
  ⟨rfl, fun _ used => used, [], by simp⟩

theorem Continues.trans (first : s.Continues s') (second : s'.Continues later) :
    s.Continues later := by
  obtain ⟨new, imported, free⟩ := first.imported
  obtain ⟨new', imported', free'⟩ := second.imported
  refine ⟨second.strategy_eq.trans first.strategy_eq,
    fun token used => second.used token (first.used token used), new ++ new', ?_, ?_⟩
  · rw [imported', imported, List.append_assoc]
  · intro q hq used
    rcases List.mem_append.mp hq with hq | hq
    · exact free q hq used
    · exact free' q hq (first.used _ used)

/-- What is found for a name ends as the name does. -/
theorem token_of_find? {p q : QualifiedName} (found : s.find? q = some p) :
    p.name.token = q.name.token := by
  have same : p.toName.words = q.toName.words := by simpa using List.find?_some found
  exact Name.last_token_eq_of_words_eq same

/-- A name that was not imported is found once it is. -/
theorem find?_register {q : QualifiedName} (missing : s.find? q = none) :
    (s.register q).find? q = some q := by
  rw [find?] at missing
  rw [find?, register, List.find?_append, missing, Option.none_or]
  simp

/-- What was imported under a name stays imported under it. -/
theorem Continues.find?_of_some (continues : s.Continues later) {p q : QualifiedName}
    (found : s.find? q = some p) : later.find? q = some p := by
  obtain ⟨new, imported, -⟩ := continues.imported
  rw [find?, imported, List.find?_append]
  rw [find?] at found
  rw [found, Option.some_or]

/-- What lost its last segment to another name is never imported. -/
theorem Continues.find?_of_none (continues : s.Continues later) {q : QualifiedName}
    (missing : s.find? q = none) (used : q.name.token ∈ s.used) : later.find? q = none := by
  obtain ⟨new, imported, free⟩ := continues.imported
  rw [find?, imported, List.find?_append]
  rw [find?] at missing
  rw [missing, Option.none_or, List.find?_eq_none]
  intro p hp same
  have words : p.toName.words = q.toName.words := beq_iff_eq.mp same
  have token : p.name.token = q.name.token := Name.last_token_eq_of_words_eq words
  exact free p hp (token ▸ used)

theorem continues_claim (s : Imports) (token : String) : s.Continues (s.claim token) :=
  ⟨strategy_claim token, fun _ used => mem_used_claim.mpr (.inr used), [], by simp⟩

theorem continues_visit (s : Imports) (w : NamedType) : s.Continues (s.visit w).2 := by
  rcases s.visit_cases w with ⟨n, members, -, eq⟩ | ⟨q, members, -, ⟨p, -, eq⟩ | ⟨-, -, eq⟩ | free⟩
  · rw [eq]
    exact s.continues_claim n.token
  · rw [eq]
    exact .refl s
  · rw [eq]
    exact .refl s
  · obtain ⟨-, free, eq⟩ := free
    rw [eq]
    have claimed := s.continues_claim q.name.token
    exact ⟨claimed.strategy_eq, claimed.used, [q], rfl, by simpa using free⟩

theorem continues_visitEach (s : Imports) (ws : List NamedType) :
    s.Continues (s.visitEach ws).2 := by
  induction ws generalizing s with
  | nil => exact .refl s
  | cons w ws ih => exact (s.continues_visit w).trans (ih _)

theorem continues_shorten (s : Imports) (t : Ty) : s.Continues (s.shorten t).2 := by
  have walk := s.continues_visitEach t.occurrences
  rwa [visitEach_occurrences] at walk

theorem continues_shortenEach (s : Imports) (ts : List Ty) :
    s.Continues (s.shortenEach ts).2 := by
  induction ts generalizing s with
  | nil => exact .refl s
  | cons t ts ih =>
    have cons := congrArg Prod.snd (s.resolveEach_cons t ts)
    simp only [resolveEach, resolve] at cons
    rw [cons]
    exact (s.continues_shorten t).trans (ih _)

/-! ### Short forms -/

/-- The short form of a named type whose head is imported: the simple name of the import, followed
by the members of the named type. -/
def shortName? (s : Imports) (w : NamedType) : Option NamedType :=
  match s.strategy.split w.name with
  | (.simple _, _) => none
  | (.qualified h q n, members) =>
    (s.find? ⟨h, q, n⟩).map fun p => ⟨none, (Name.simple p.name).append members⟩

theorem shortName?_eq_some_iff {w short : NamedType} :
    s.shortName? w = some short ↔
      ∃ (q p : QualifiedName) (members : List SimpleName),
        s.strategy.split w.name = (q.toName, members) ∧ s.find? q = some p ∧
          short = ⟨none, (Name.simple p.name).append members⟩ := by
  unfold shortName?
  constructor
  · intro given
    split at given
    · cases given
    · next h q n members split =>
      obtain ⟨p, found, rfl⟩ := Option.map_eq_some_iff.mp given
      exact ⟨⟨h, q, n⟩, p, members, split, found, rfl⟩
  · rintro ⟨q, p, members, split, found, rfl⟩
    rw [split]
    exact congrArg (Option.map _) found

/-- A short form is not the name it is for. -/
theorem shortName?_ne_self (s : Imports) (w : NamedType) : s.shortName? w ≠ some w := by
  intro same
  obtain ⟨q, p, members, split, found, short⟩ := shortName?_eq_some_iff.mp same
  refine not_same_append split (Name.same_iff_words_eq.mpr ?_)
  rw [short, Name.words_append, Name.words_append, Name.words_simple, Name.words_simple,
    token_of_find? found]

/-- **A decision about a named type is final**: it is shortened exactly if its head is imported in a
later session, and to the name under which it is imported there. -/
theorem shortenNamed_fst {w : NamedType} (continues : (s.shortenNamed w).2.Continues later) :
    (s.shortenNamed w).1 = (later.shortName? w).map .named := by
  have strategy : later.strategy = s.strategy :=
    ((s.continues_shorten (.named w)).trans continues).strategy_eq
  unfold shortName?
  rw [strategy]
  rcases split : s.strategy.split w.name with ⟨n | ⟨h, q, n⟩, members⟩
  · simp only [shortenNamed, split, Option.map_none]
  · cases found : s.find? ⟨h, q, n⟩ with
    | some p =>
      simp only [shortenNamed, split, found] at continues ⊢
      rw [continues.find?_of_some found]
      rfl
    | none =>
      by_cases used : n.token ∈ s.used
      · simp only [shortenNamed, split, found, used, if_true] at continues ⊢
        rw [continues.find?_of_none found used]
        rfl
      · simp only [shortenNamed, split, found, used, if_false] at continues ⊢
        rw [continues.find?_of_some (find?_register found)]
        rfl

/-! ### Whole types -/

theorem shorten_parameterized (s : Imports) (h : Handle) (b a : Ty) (r : List Ty) :
    s.shorten (.parameterized h b a r) =
      let base := s.shorten b
      let first := base.2.shorten a
      let rest := first.2.shortenEach r
      (if base.1.isSome || first.1.isSome || rest.1.isSome then
        some (.parameterized none (base.1.getD b) (first.1.getD a) (rest.1.getD r)) else none,
        rest.2) := by
  simp only [shorten]
  split <;> rfl

theorem shortenEach_cons (s : Imports) (t : Ty) (ts : List Ty) :
    s.shortenEach (t :: ts) =
      let first := s.shorten t
      let rest := first.2.shortenEach ts
      (if first.1.isSome || rest.1.isSome then some (first.1.getD t :: rest.1.getD ts) else none,
        rest.2) := by
  simp only [shortenEach]
  split <;> rfl

/-- The types of a list are shortened one after the other. -/
theorem shortenEach_fst {ts : List Ty}
    (each : ∀ t ∈ ts, ∀ s : Imports, (s.shorten t).2.Continues later →
      (s.shorten t).1 = t.replaced? later.shortName?)
    (s : Imports) (continues : (s.shortenEach ts).2.Continues later) :
    (s.shortenEach ts).1 = Ty.replacedEach? later.shortName? ts := by
  induction ts generalizing s with
  | nil => rfl
  | cons t ts ih =>
    rw [shortenEach_cons] at continues ⊢
    have behind := (continues_shortenEach _ ts).trans continues
    have first := each t List.mem_cons_self s behind
    have others := ih (fun u hu => each u (List.mem_cons_of_mem t hu)) _ continues
    simp only [first, others, Ty.replacedEach?_cons, Ty.getD_replaced?, Ty.getD_replacedEach?]

/-- **What a type is shortened to** can be read off a later session. -/
theorem shorten_fst (t : Ty) (s : Imports) (continues : (s.shorten t).2.Continues later) :
    (s.shorten t).1 = t.replaced? later.shortName? := by
  induction t generalizing s with
  | array h c ih =>
    rw [Ty.replaced?_array, ← ih s continues]
    rfl
  | basic h k => rfl
  | named w =>
    rw [Ty.replaced?_named]
    exact shortenNamed_fst continues
  | parameterized h b a r ihb iha ihr =>
    rw [shorten_parameterized] at continues ⊢
    have behind := (continues_shortenEach _ r).trans continues
    have base := ihb s ((continues_shorten _ a).trans behind)
    have first := iha _ behind
    have rest := shortenEach_fst ihr _ continues
    simp only [base, first, rest, Ty.replaced?_parameterized, Ty.getD_replaced?,
      Ty.getD_replacedEach?]
  | qualified h q n ih =>
    rw [Ty.replaced?_qualified, ← ih s continues]
    rfl
  | wildcard h d b ih =>
    cases b with
    | none => rfl
    | some b =>
      rw [Ty.replaced?_wildcard, ← ih b rfl s continues]
      rfl

/-- **A type is resolved by replacing the named types whose heads are imported.** -/
theorem resolve_fst (s : Imports) (t : Ty) :
    (s.resolve t).1 = t.replace (s.resolve t).2.shortName? := by
  have short := shorten_fst t s (Continues.refl _)
  calc (s.resolve t).1 = (s.shorten t).1.getD t := rfl
    _ = t.replace (s.resolve t).2.shortName? := by rw [short, Ty.getD_replaced?]; rfl

/-- What becomes of a type `u` that is resolved to `v`, as seen from the session behind it. -/
structure Shortened (s : Imports) (u v : Ty) : Prop where
  /-- The form is the same, with the same fields. -/
  frame_eq : v.frame = u.frame
  /-- It is the very same type exactly if no named type in it has a short form. -/
  eq_iff : v = u ↔ ∀ w ∈ u.occurrences, s.shortName? w = none
  /-- Any other type is a new one, to which nothing is attached. -/
  handle_eq : v ≠ u → v.outline.handle = none
  /-- A named type that is not the same has the simple name that was imported for its head, and
  behind it its own members. -/
  named : ∀ w, u = .named w → v ≠ u → ∃ (q p : QualifiedName) (members : List SimpleName),
    s.strategy.split w.name = (q.toName, members) ∧ s.find? q = some p ∧
      v = .named ⟨none, (Name.simple p.name).append members⟩

theorem shortened_replace (s : Imports) (u : Ty) : s.Shortened u (u.replace s.shortName?) := by
  have same := Ty.replace_eq_self_iff (t := u) s.shortName?_ne_self
  refine ⟨u.frame_replace _, same, fun changed => ?_, ?_⟩
  · refine Ty.handle_replace (fun w short given => ?_) ?_
    · obtain ⟨q, p, members, -, -, rfl⟩ := shortName?_eq_some_iff.mp given
      rfl
    · rwa [Ne, same, ← Ty.keeps_iff, Bool.not_eq_true] at changed
  · rintro w rfl changed
    cases given : s.shortName? w with
    | none =>
      rw [Ty.replace, given] at changed
      exact absurd rfl changed
    | some short =>
      obtain ⟨q, p, members, split, found, rfl⟩ := shortName?_eq_some_iff.mp given
      exact ⟨q, p, members, split, found, by rw [Ty.replace, given, Option.getD_some]⟩

/-- **Resolving leaves alone what it does not shorten.** Whatever the tables of the session are, the
type that a type is resolved to has the same positions, and at each of them stands what becomes of
the type there: the type itself if no named type in it is shortened, and otherwise a new one of the
same form. -/
theorem resolve_shares_unchanged (s : Imports) (t : Ty) (path : List Nat) :
    Option.Rel (s.resolve t).2.Shortened (t.part? path) ((s.resolve t).1.part? path) := by
  rw [resolve_fst, Ty.part?_replace]
  cases t.part? path with
  | none => exact .none
  | some u => exact .some (shortened_replace _ u)

end Imports

end JavaSource
