import JavaSource.Proofs.Imports.Faithful
import JavaSource.Proofs.Outline.Erasure

/-!
# Resolutions are final

What a type was resolved to is settled for the rest of the session: whatever is asked for in
between, resolving the type again gives the same type, resolving the result gives the result itself,
and neither changes the tables (`Imports.session_stable`).

* `Imports.Records.visit_of_mem`: a named type that was visited before has its claim in the tables,
  so another visit changes nothing.
* `Imports.Records.shortenNamed_settled`: what a named type was settled to has no short form. A
  short form has a simple head, which is claimed already, and a name that was kept has lost its
  claim.
-/

namespace JavaSource

/-! ### What a named type is settled to -/

section

variable {strategy : ImportStrategy} {ts : List NamedType} {t t' t'' : NamedType}

/-- What a named type is settled to is determined up to handles. -/
theorem Settles.unique (settles : Settles strategy ts t t') (settles' : Settles strategy ts t t'') :
    t'.name.Same t''.name := by
  rw [Name.same_iff_words_eq]
  by_cases wins : Wins strategy ts t
  · obtain ⟨q, head, -⟩ := id wins
    have split : strategy.split t.name = (q.toName, (strategy.split t.name).2) := Prod.ext head rfl
    have short := (settles.shortened_iff q _ split).mpr wins
    have short' := (settles'.shortened_iff q _ split).mpr wins
    exact (Name.same_iff_words_eq.mp short).trans (Name.same_iff_words_eq.mp short').symm
  · rw [settles.kept wins, settles'.kept wins]

/-- A short form has a simple head: the last segment of the head that was imported. -/
theorem Settles.exists_simple_head (settles : Settles strategy ts t t')
    (wins : Wins strategy ts t) :
    ∃ n members, strategy.split t'.name = (.simple n, members) ∧
      n.token = (strategy.head t).last.token := by
  obtain ⟨q, members, -, split, -, -, words, -⟩ := settles.exists_of_wins wins
  have short := (settles.shortened_iff q members split).mpr wins
  have whole := strategy.words_split t'.name
  rcases split' : strategy.split t'.name with ⟨n | ⟨h, p, n⟩, members'⟩
  · rw [split', Name.words_simple, List.singleton_append, words] at whole
    refine ⟨n, members', rfl, ?_⟩
    rw [ImportStrategy.head, split]
    exact (List.cons.inj whole).1
  · have qualified : HasQualifiedHead strategy t' := ⟨⟨h, p, n⟩, congrArg Prod.fst split'⟩
    exact absurd short (not_same_of_hasQualifiedHead split qualified)

end

/-! ### Named types that were visited before -/

namespace Imports

variable {s : Imports} {strategy : ImportStrategy} {ts : List NamedType} {t t' : NamedType}

/-- A simple name cannot be claimed twice. -/
theorem claim_of_mem {token : String} (used : token ∈ s.used) : s.claim token = s :=
  if_pos used

/-- The claim of a named type that was visited is in the tables. -/
theorem Records.mem_used (rec : s.Records strategy ts) (visited : t ∈ ts) :
    (strategy.head t).last.token ∈ s.used := by
  rw [rec.used_iff, firstClaim, List.find?_isSome]
  exact ⟨strategy.head t, List.mem_map_of_mem visited, beq_self_eq_true _⟩

/-- **Another visit changes nothing** in the tables. -/
theorem Records.visit_of_mem (rec : s.Records strategy ts) (visited : t ∈ ts) :
    (s.visit t).2 = s := by
  have used := rec.mem_used visited
  have cases := s.visit_cases t
  rw [rec.strategy_eq] at cases
  rcases cases with ⟨n, members, split, eq⟩ | ⟨q, members, split, ⟨p, -, eq⟩ | ⟨-, -, eq⟩ | free⟩
  · rw [ImportStrategy.head, split] at used
    rw [eq]
    exact claim_of_mem used
  · rw [eq]
  · rw [eq]
  · -- the last segment of the head is not free
    rw [ImportStrategy.head, split] at used
    exact absurd used free.2.1

theorem Records.visitEach_of_mem (rec : s.Records strategy ts) {us : List NamedType}
    (visited : ∀ u ∈ us, u ∈ ts) : (s.visitEach us).2 = s := by
  induction us with
  | nil => rfl
  | cons u us ih =>
    have first : (s.visit u).2 = s := rec.visit_of_mem (visited u List.mem_cons_self)
    rw [visitEach_cons, first]
    exact ih fun v hv => visited v (List.mem_cons_of_mem u hv)

/-- **What a named type was settled to has no short form**, and asking for one changes nothing. -/
theorem Records.shortenNamed_settled (rec : s.Records strategy ts) (visited : t ∈ ts)
    (settles : Settles strategy ts t t') : s.shortenNamed t' = (none, s) := by
  have used := rec.mem_used visited
  by_cases wins : Wins strategy ts t
  · obtain ⟨n, members, split, token⟩ := settles.exists_simple_head wins
    rw [← token] at used
    simp only [shortenNamed, rec.strategy_eq, split, claim_of_mem used]
  · obtain rfl := settles.kept wins
    rcases split : strategy.split t'.name with ⟨n | ⟨h, p, n⟩, members⟩
    · rw [ImportStrategy.head, split] at used
      have claimed : n.token ∈ s.used := used
      simp only [shortenNamed, rec.strategy_eq, split, claim_of_mem claimed]
    · rw [ImportStrategy.head, split] at used
      have claimed : n.token ∈ s.used := used
      have missing : s.find? ⟨h, p, n⟩ = none := by
        rw [Option.eq_none_iff_forall_ne_some]
        intro q found
        obtain ⟨first, same⟩ := rec.find?_eq_some_iff.mp found
        exact wins ⟨⟨h, p, n⟩, congrArg Prod.fst split, q.toName, first,
          Name.same_iff_words_eq.mpr same⟩
      simp only [shortenNamed, rec.strategy_eq, split, missing, claimed, if_true]

/-! ### Types, from their named types -/

/-- A type without a named type that has a short form has no short form. -/
theorem shorten_eq_none {r : Ty} (each : ∀ u ∈ r.occurrences, s.shortenNamed u = (none, s)) :
    s.shorten r = (none, s) := by
  induction r with
  | array h c ih => simp [shorten, ih each]
  | basic h k => rfl
  | named u => exact each u (by simp [Ty.occurrences])
  | parameterized h b f r ihb ihf ihr =>
    simp only [Ty.occurrences, List.mem_append] at each
    have rest : s.shortenEach r = (none, s) := by
      have each' : ∀ u ∈ Ty.occurrencesEach r, s.shortenNamed u = (none, s) :=
        fun u hu => each u (.inr hu)
      clear each
      induction r with
      | nil => rfl
      | cons t r ih =>
        simp only [Ty.occurrencesEach, List.mem_append] at each'
        have first := ihr t List.mem_cons_self fun u hu => each' u (.inl hu)
        have others := ih (fun u hu => ihr u (List.mem_cons_of_mem t hu))
          fun u hu => each' u (.inr hu)
        simp [shortenEach, first, others]
    have base := ihb fun u hu => each u (.inl (.inl hu))
    have first := ihf fun u hu => each u (.inl (.inr hu))
    simp [shorten, base, first, rest]
  | qualified h q n ih => simp [shorten, ih each]
  | wildcard h d b ih =>
    cases b with
    | none => rfl
    | some b => simp [shorten, ih b rfl each]

theorem length_visitEach (s : Imports) (us : List NamedType) :
    (s.visitEach us).1.length = us.length := by
  induction us generalizing s with
  | nil => rfl
  | cons u us ih => simp [ih]

/-- Named types are replaced one by one. -/
theorem length_occurrences_resolve (s : Imports) (t : Ty) :
    (s.resolve t).1.occurrences.length = t.occurrences.length := by
  have walk := s.length_visitEach t.occurrences
  rwa [visitEach_occurrences] at walk

/-- Two resolutions of a type are the same up to handles if its named types are given the same
names. -/
theorem erased_resolve_eq (s s' : Imports) (t : Ty)
    (each : (s.resolve t).1.occurrences.map (·.name.words) =
      (s'.resolve t).1.occurrences.map (·.name.words)) :
    (s.resolve t).1.outline.erased = (s'.resolve t).1.outline.erased := by
  induction t generalizing s s' with
  | array h c ih =>
    obtain ⟨h₁, resolved⟩ := s.resolve_array h c
    obtain ⟨h₂, resolved'⟩ := s'.resolve_array h c
    rw [resolved, resolved'] at each ⊢
    simp [Ty.outline, Outline.erased, ih s s' each]
  | basic h k => rfl
  | named t =>
    rw [resolve_named, resolve_named] at each ⊢
    have same : (s.visit t).1.name.Same (s'.visit t).1.name := by
      rw [Name.same_iff_words_eq]
      simpa [Ty.occurrences] using each
    rw [Name.Same, Outline.same_iff_erased_eq] at same
    simp [Ty.outline, NamedType.outline, Outline.erased, same]
  | parameterized h b f r ihb ihf ihr =>
    have rest : ∀ s s' : Imports,
        (Ty.occurrencesEach (s.resolveEach r).1).map (·.name.words) =
          (Ty.occurrencesEach (s'.resolveEach r).1).map (·.name.words) →
        (s.resolveEach r).1.map (·.outline.erased) =
          (s'.resolveEach r).1.map (·.outline.erased) := by
      clear each
      induction r with
      | nil => exact fun s s' _ => rfl
      | cons t r ih =>
        intro s s' each
        rw [resolveEach_cons, resolveEach_cons] at each ⊢
        simp only [Ty.occurrencesEach, List.map_append] at each
        obtain ⟨first, others⟩ := List.append_inj each (by simp [length_occurrences_resolve])
        rw [List.map_cons, List.map_cons, ihr t List.mem_cons_self s s' first,
          ih (fun u hu => ihr u (List.mem_cons_of_mem t hu)) _ _ others]
    obtain ⟨h₁, resolved⟩ := s.resolve_parameterized h b f r
    obtain ⟨h₂, resolved'⟩ := s'.resolve_parameterized h b f r
    rw [resolved, resolved'] at each ⊢
    simp only [Ty.occurrences, List.map_append] at each
    obtain ⟨front, last⟩ := List.append_inj each (by simp [length_occurrences_resolve])
    obtain ⟨base, first⟩ := List.append_inj front (by simp [length_occurrences_resolve])
    simp [Ty.outline, Outline.erased, ihb _ _ base, ihf _ _ first, Function.comp_def,
      rest _ _ last]
  | qualified h q n ih =>
    obtain ⟨h₁, resolved⟩ := s.resolve_qualified h q n
    obtain ⟨h₂, resolved'⟩ := s'.resolve_qualified h q n
    rw [resolved, resolved'] at each ⊢
    simp [Ty.outline, Outline.erased, ih s s' each]
  | wildcard h d b ih =>
    cases b with
    | none => rfl
    | some b =>
      obtain ⟨h₁, resolved⟩ := s.resolve_wildcard h d b
      obtain ⟨h₂, resolved'⟩ := s'.resolve_wildcard h d b
      rw [resolved, resolved'] at each ⊢
      simp [Ty.outline, Outline.erased, ih b rfl s s' each]

/-! ### Whole sessions -/

/-- What several named types are settled to is determined up to handles. -/
theorem map_words_eq_of_settles {us vs vs' : List NamedType}
    (settled : List.Forall₂ (Settles strategy ts) us vs)
    (settled' : List.Forall₂ (Settles strategy ts) us vs') :
    vs.map (·.name.words) = vs'.map (·.name.words) := by
  induction settled generalizing vs' with
  | nil =>
    rw [List.forall₂_nil_left_iff.mp settled']
  | cons settles _ ih =>
    obtain ⟨v', vs', settles', rest, rfl⟩ := List.forall₂_cons_left_iff.mp settled'
    rw [List.map_cons, List.map_cons, ih rest,
      Name.same_iff_words_eq.mp (settles.unique settles')]

/-- A type that was resolved is resolved to the same type later on, and the result to itself. -/
theorem Records.resolve_stable (rec : s.Records strategy ts) (t : Ty)
    (after : List ImportRequest) :
    let later := ((s.resolve t).2.session after).2
    (later.resolve t).1.outline.same (s.resolve t).1.outline = true ∧
      (later.resolve t).2 = later ∧ later.resolve (s.resolve t).1 = ((s.resolve t).1, later) := by
  intro later
  have settled := fun rest => (rec.visitEach t.occurrences rest).1
  have behind := (rec.visitEach t.occurrences []).2
  rw [visitEach_occurrences] at settled behind
  obtain ⟨us, finish⟩ : ∃ us, later.Records strategy (ts ++ t.occurrences ++ us) :=
    ⟨_, (behind.session after).2⟩
  have visited : ∀ u ∈ t.occurrences, u ∈ ts ++ t.occurrences ++ us := fun u hu => by simp [hu]
  refine ⟨?_, ?_, ?_⟩
  · -- both resolutions are settled by the first claims of the whole session
    have first := settled (us ++ t.occurrences)
    have again := (finish.visitEach t.occurrences []).1
    rw [visitEach_occurrences, List.append_nil, List.append_assoc _ us] at again
    rw [Outline.same_iff_erased_eq]
    exact erased_resolve_eq later s t (map_words_eq_of_settles again first)
  · have walk := finish.visitEach_of_mem visited
    rwa [visitEach_occurrences] at walk
  · have kept : later.shorten (s.resolve t).1 = (none, later) := by
      refine shorten_eq_none fun u' hu' => ?_
      obtain ⟨i, hi, rfl⟩ := List.mem_iff_getElem.mp hu'
      have hi' : i < t.occurrences.length := by rwa [← (settled us).length_eq] at hi
      exact finish.shortenNamed_settled (visited _ (List.getElem_mem hi')) ((settled us).get hi' hi)
    rw [resolve, kept]
    rfl

/-- **Resolutions are final.** After any session `before`, let a type be resolved, and let any
session `after` follow. Then resolving the type again gives the same type, resolving the result
gives the result itself, and both leave the session as it is. -/
theorem session_stable (package : Option PackageDeclaration) (strategy : ImportStrategy)
    (before : List ImportRequest) (t : Ty) (after : List ImportRequest) :
    let first := (session { package, strategy } before).2.resolve t
    let later := (first.2.session after).2
    (later.resolve t).1.outline.same first.1.outline = true ∧ (later.resolve t).2 = later ∧
      later.resolve first.1 = (first.1, later) := by
  have recorded := ((records_nil package strategy).session before).2
  exact recorded.resolve_stable t after

end Imports

end JavaSource
