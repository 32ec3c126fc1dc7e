import JavaSource.Imports

/-!
# Import sessions as walks over named types

A session is a list of requests, each for a type or for the text of a type (`Imports.session`). A
type reaches the session only through its named types, in the order in which they are visited
(`Ty.occurrences`), so a session is one walk over the named types of all requests:

* `Imports.visit` is one step of the walk, and `Imports.visit_cases` says all that it can do;
* `Imports.visitEach_occurrences` takes a type apart: resolving it is walking over its named types;
* `Imports.answer_eq` reduces the two kinds of requests to one.
-/

namespace JavaSource

/-! ### The named types of a type -/

namespace Ty

mutual

/-- The named types in a type, in the order in which they are visited. -/
def occurrences : Ty → List NamedType
  | .array _ c => c.occurrences
  | .basic .. => []
  | .named t => [t]
  | .parameterized _ b f r => b.occurrences ++ f.occurrences ++ occurrencesEach r
  | .qualified _ q _ => q.occurrences
  | .wildcard _ _ none => []
  | .wildcard _ _ (some b) => b.occurrences

/-- The named types in each of several types. -/
def occurrencesEach : List Ty → List NamedType
  | [] => []
  | t :: ts => t.occurrences ++ occurrencesEach ts

end

end Ty

/-! ### Resolving part by part -/

namespace Imports

/-- Several types in their short forms. -/
def resolveEach (s : Imports) (ts : List Ty) : List Ty × Imports :=
  ((s.shortenEach ts).1.getD ts, (s.shortenEach ts).2)

/-- A named type in its short form. -/
def visit (s : Imports) (t : NamedType) : NamedType × Imports :=
  match s.shortenNamed t with
  | (some (.named t'), s') => (t', s')
  | (_, s') => (t, s')

/-- Several named types in their short forms, one after the other. -/
def visitEach (s : Imports) : List NamedType → List NamedType × Imports
  | [] => ([], s)
  | t :: ts =>
    let (t', s) := s.visit t
    let (ts', s) := s.visitEach ts
    (t' :: ts', s)

section

variable (s : Imports)

@[simp] theorem visitEach_nil : s.visitEach [] = ([], s) := rfl

@[simp] theorem visitEach_cons (t : NamedType) (ts : List NamedType) :
    s.visitEach (t :: ts) =
      ((s.visit t).1 :: ((s.visit t).2.visitEach ts).1, ((s.visit t).2.visitEach ts).2) := rfl

theorem visitEach_append (ts us : List NamedType) :
    s.visitEach (ts ++ us) =
      ((s.visitEach ts).1 ++ ((s.visitEach ts).2.visitEach us).1,
        ((s.visitEach ts).2.visitEach us).2) := by
  induction ts generalizing s with
  | nil => simp
  | cons t ts ih => simp [ih]

/-- **What a visit does.** A simple head is claimed. A qualified head that is imported, or whose
last segment is free and which is then imported, is shortened. Any other name stays as it is. -/
theorem visit_cases (t : NamedType) :
    (∃ n members, s.strategy.split t.name = (.simple n, members) ∧
      s.visit t = (t, s.claim n.token)) ∨
    ∃ q members, s.strategy.split t.name = (QualifiedName.toName q, members) ∧
      ((∃ p, s.find? q = some p ∧
          s.visit t = (⟨none, (Name.simple p.name).append members⟩, s)) ∨
        (s.find? q = none ∧ q.name.token ∈ s.used ∧ s.visit t = (t, s)) ∨
        (s.find? q = none ∧ q.name.token ∉ s.used ∧
          s.visit t = (⟨none, (Name.simple q.name).append members⟩, s.register q))) := by
  rcases split : s.strategy.split t.name with ⟨n | ⟨h, p, n⟩, members⟩
  · refine .inl ⟨n, members, rfl, ?_⟩
    simp only [visit, shortenNamed, split]
  · refine .inr ⟨⟨h, p, n⟩, members, rfl, ?_⟩
    cases found : s.find? ⟨h, p, n⟩ with
    | some q =>
      refine .inl ⟨q, rfl, ?_⟩
      simp only [visit, shortenNamed, split, found, shortForm]
    | none =>
      by_cases used : n.token ∈ s.used
      · refine .inr (.inl ⟨rfl, used, ?_⟩)
        simp only [visit, shortenNamed, split, found, used, if_true]
      · refine .inr (.inr ⟨rfl, used, ?_⟩)
        simp only [visit, shortenNamed, split, found, used, if_false, shortForm]

/-- What a named type is replaced by is a named type. -/
theorem exists_named_of_shortenNamed {s s' : Imports} {t : NamedType} {short : Ty}
    (replaced : s.shortenNamed t = (some short, s')) : ∃ t', short = .named t' := by
  unfold shortenNamed at replaced
  grind [shortForm]

section

-- The equations of `shorten` are derived here, once for everything that follows.
attribute [local simp] shorten

end

theorem resolve_named (t : NamedType) :
    s.resolve (.named t) = (.named (s.visit t).1, (s.visit t).2) := by
  rcases replaced : s.shortenNamed t with ⟨_ | short, s'⟩
  · simp [resolve, shorten, visit, replaced]
  · obtain ⟨t', rfl⟩ := exists_named_of_shortenNamed replaced
    simp [resolve, shorten, visit, replaced]

theorem resolve_array (h : Handle) (c : Ty) :
    ∃ h', s.resolve (.array h c) = (.array h' (s.resolve c).1, (s.resolve c).2) := by
  cases short : (s.shorten c).1 with
  | none => exact ⟨h, by simp [resolve, shorten, short]⟩
  | some c' => exact ⟨none, by simp [resolve, shorten, short]⟩

theorem resolve_qualified (h : Handle) (q : Ty) (n : SimpleName) :
    ∃ h', s.resolve (.qualified h q n) = (.qualified h' (s.resolve q).1 n, (s.resolve q).2) := by
  cases short : (s.shorten q).1 with
  | none => exact ⟨h, by simp [resolve, shorten, short]⟩
  | some q' => exact ⟨none, by simp [resolve, shorten, short]⟩

theorem resolve_wildcard (h : Handle) (d : WildcardBoundKind) (b : Ty) :
    ∃ h', s.resolve (.wildcard h d (some b)) =
      (.wildcard h' d (some (s.resolve b).1), (s.resolve b).2) := by
  cases short : (s.shorten b).1 with
  | none => exact ⟨h, by simp [resolve, shorten, short]⟩
  | some b' => exact ⟨none, by simp [resolve, shorten, short]⟩

theorem resolveEach_cons (t : Ty) (ts : List Ty) :
    s.resolveEach (t :: ts) =
      ((s.resolve t).1 :: ((s.resolve t).2.resolveEach ts).1,
        ((s.resolve t).2.resolveEach ts).2) := by
  cases first : (s.shorten t).1 <;> cases rest : ((s.shorten t).2.shortenEach ts).1 <;>
    simp [resolve, resolveEach, shortenEach, first, rest]

theorem resolve_parameterized (h : Handle) (b f : Ty) (r : List Ty) :
    ∃ h', s.resolve (.parameterized h b f r) =
      let base := s.resolve b
      let first := base.2.resolve f
      let rest := first.2.resolveEach r
      (.parameterized h' base.1 first.1 rest.1, rest.2) := by
  cases base : (s.shorten b).1 <;> cases first : ((s.shorten b).2.shorten f).1 <;>
    cases rest : (((s.shorten b).2.shorten f).2.shortenEach r).1
  all_goals simp [resolve, resolveEach, shorten, base, first, rest]

/-- **A type is visited through its named types.** -/
theorem visitEach_occurrences (t : Ty) :
    s.visitEach t.occurrences = ((s.resolve t).1.occurrences, (s.resolve t).2) := by
  induction t generalizing s with
  | array h c ih =>
    obtain ⟨h', resolved⟩ := s.resolve_array h c
    rw [resolved, Ty.occurrences, Ty.occurrences, ih]
  | basic h k => rfl
  | named t => simp [resolve_named, Ty.occurrences]
  | parameterized h b f r ihb ihf ihr =>
    have each : ∀ s : Imports, s.visitEach (Ty.occurrencesEach r) =
        (Ty.occurrencesEach (s.resolveEach r).1, (s.resolveEach r).2) := by
      induction r with
      | nil => exact fun s => rfl
      | cons t ts ih =>
        intro s
        have tail := ih fun u hu => ihr u (List.mem_cons_of_mem t hu)
        rw [resolveEach_cons, Ty.occurrencesEach, Ty.occurrencesEach, visitEach_append,
          ihr t List.mem_cons_self, tail]
    obtain ⟨h', resolved⟩ := s.resolve_parameterized h b f r
    rw [resolved, Ty.occurrences, Ty.occurrences, visitEach_append, visitEach_append, ihb, ihf,
      each]
  | qualified h q n ih =>
    obtain ⟨h', resolved⟩ := s.resolve_qualified h q n
    rw [resolved, Ty.occurrences, Ty.occurrences, ih]
  | wildcard h d b ih =>
    cases b with
    | none => rfl
    | some b =>
      obtain ⟨h', resolved⟩ := s.resolve_wildcard h d b
      rw [resolved, Ty.occurrences, Ty.occurrences, ih b rfl]

end

end Imports

/-! ### Requests -/

/-- What an import session is asked for. -/
inductive ImportRequest where
  /-- The short form of a type. -/
  | resolve (type : Ty)
  /-- The short form of the type that a text stands for. -/
  | read (text : String)

/-- The type that is asked for, unless its text is not a type. -/
def ImportRequest.type : ImportRequest → Except BuildError Ty
  | .resolve t => .ok t
  | .read text => Ty.read text

/-- The named types of a type that may be an error. -/
def occurrencesOf : Except BuildError Ty → List NamedType
  | .ok t => t.occurrences
  | .error _ => []

namespace Imports

/-- The answer to a request. A text that is not a type leaves the session as it is. -/
def answer (s : Imports) : ImportRequest → Except BuildError Ty × Imports
  | .resolve t => (.ok (s.resolve t).1, (s.resolve t).2)
  | .read text =>
    match s.readType text with
    | .ok (t, s') => (.ok t, s')
    | .error e => (.error e, s)

/-- The answers to the requests of a session. -/
def session (s : Imports) : List ImportRequest → List (Except BuildError Ty) × Imports
  | [] => ([], s)
  | r :: rs =>
    let (a, s) := s.answer r
    let (as, s) := s.session rs
    (a :: as, s)

section

variable (s : Imports)

@[simp] theorem session_nil : s.session [] = ([], s) := rfl

@[simp] theorem session_cons (r : ImportRequest) (rs : List ImportRequest) :
    s.session (r :: rs) =
      ((s.answer r).1 :: ((s.answer r).2.session rs).1, ((s.answer r).2.session rs).2) := rfl

/-- Both requests resolve the type that is asked for, and fail only if there is none. -/
theorem answer_eq (r : ImportRequest) :
    s.answer r =
      match r.type with
      | .ok t => (.ok (s.resolve t).1, (s.resolve t).2)
      | .error e => (.error e, s) := by
  cases r with
  | resolve t => rfl
  | read text =>
    simp only [answer, ImportRequest.type, readType]
    cases Ty.read text <;> rfl

end

end Imports

end JavaSource
