import JavaSource.Proofs.Imports.FirstClaim

/-!
# Short names stand for one type

Resolving never makes two types look alike: named types with qualified heads that are resolved to
the same name, anywhere in a session, have the same name to begin with. A shortened name can be
undone with the imported table at the end of the session, which holds exactly one qualified name for
it (`Imports.session_faithful`).

Two short forms are told apart by the first claim of their first segment. A short form and a name
that was kept are told apart by their capitals: in front of its last segment a short form has
capitalized segments only, and a name like that has a simple head
(`Name.splitMembers_eq_simple`).
-/

namespace JavaSource

/-! ### Capitals -/

theorem SimpleName.isCapitalized_congr {m n : SimpleName} (h : m.token = n.token) :
    m.isCapitalized = n.isCapitalized := by
  rw [isCapitalized, isCapitalized, h]

namespace Name

theorem last_mem_segments (n : Name) : n.last ∈ n.segments := by
  cases n <;> simp [last]

theorem getLast?_splitMembers (n : Name) :
    (n.splitMembers.1.last :: n.splitMembers.2).getLast? = some n.last := by
  cases n with
  | simple n => rfl
  | qualified h q n =>
    by_cases capitalized : q.last.isCapitalized
    · simp only [splitMembers, capitalized, if_true, ← List.cons_append, List.getLast?_concat]
      rfl
    · simp [splitMembers, capitalized]

/-- In front of the last member, the end of the head and the members are capitalized. -/
theorem isCapitalized_of_mem_splitMembers (n : Name) :
    ∀ m ∈ (n.splitMembers.1.last :: n.splitMembers.2).dropLast, m.isCapitalized = true := by
  induction n with
  | simple n => simp [splitMembers]
  | qualified h q n ih =>
    by_cases capitalized : q.last.isCapitalized
    · -- the members of the qualifier end with its last segment, which is capitalized
      have ends := List.dropLast_append_getLast? _ q.getLast?_splitMembers
      intro m hm
      simp only [splitMembers, capitalized, if_true, ← List.cons_append,
        List.dropLast_concat] at hm
      rw [← ends, List.mem_append, List.mem_singleton] at hm
      rcases hm with inner | rfl
      · exact ih m inner
      · exact capitalized
    · simp [splitMembers, capitalized]

/-- A name that is capitalized in front of its last segment has a simple head. -/
theorem splitMembers_eq_simple {n : Name}
    (capitals : ∀ m ∈ n.segments.dropLast, m.isCapitalized = true) :
    ∃ s, n.splitMembers.1 = .simple s := by
  induction n with
  | simple n => exact ⟨n, rfl⟩
  | qualified h q n ih =>
    rw [segments_qualified, List.dropLast_concat] at capitals
    obtain ⟨s, simple⟩ := ih fun m hm => capitals m (List.dropLast_subset _ hm)
    exact ⟨s, by simp [splitMembers, capitals _ q.last_mem_segments, simple]⟩

end Name

/-! ### Two names in one session -/

section

variable {strategy : ImportStrategy} {ts : List NamedType} {t t' u u' : NamedType}

/-- A named type with a qualified head. -/
def HasQualifiedHead (strategy : ImportStrategy) (t : NamedType) : Prop :=
  ∃ q : QualifiedName, strategy.head t = q.toName

/-- A short form is not the name of a type with a qualified head. -/
theorem not_same_of_hasQualifiedHead {q : QualifiedName} {members : List SimpleName}
    (split : strategy.split t.name = (q.toName, members))
    (qualified : HasQualifiedHead strategy u) :
    ¬ u.name.Same ((Name.simple q.name).append members) := by
  rw [Name.same_iff_words_eq, Name.words_append, Name.words_simple, List.singleton_append]
  intro same
  obtain ⟨r, head⟩ := qualified
  cases strategy with
  | enclosing =>
    -- the short form is a single word
    obtain ⟨-, rfl⟩ := Prod.mk.inj split
    rw [show u.name = r.toName from head, QualifiedName.words_toName] at same
    exact r.qualifier.words_append_singleton_ne _ _ same
  | topLevel =>
    -- all words of the short form but the last are capitalized
    have capitals := t.name.isCapitalized_of_mem_splitMembers
    rw [show t.name.splitMembers = (q.toName, members) from split] at capitals
    obtain ⟨s, simple⟩ := Name.splitMembers_eq_simple (n := u.name) fun m hm => by
      have word : m.token ∈ ((q.name :: members).dropLast).map SimpleName.token := by
        rw [List.map_dropLast, List.map_cons, ← same, Name.words, ← List.map_dropLast]
        exact List.mem_map_of_mem hm
      obtain ⟨m', hm', token⟩ := List.mem_map.mp word
      rw [← SimpleName.isCapitalized_congr token]
      exact capitals m' hm'
    cases simple.symm.trans head

/-- The words of a named type that wins are those of the first claim of its last segment, followed
by its members. -/
theorem Settles.exists_of_wins (settles : Settles strategy ts t t') (wins : Wins strategy ts t) :
    ∃ (q : QualifiedName) (members : List SimpleName) (first : Name),
      strategy.split t.name = (q.toName, members) ∧
      firstClaim strategy ts q.name.token = some first ∧ first.words = q.toName.words ∧
      t'.name.words = q.name.token :: members.map SimpleName.token ∧
      t.name.words = first.words ++ members.map SimpleName.token := by
  obtain ⟨q, head, first, found, same⟩ := wins
  have split : strategy.split t.name = (q.toName, (strategy.split t.name).2) := Prod.ext head rfl
  have short := (settles.shortened_iff q _ split).mpr ⟨q, head, first, found, same⟩
  rw [Name.same_iff_words_eq, Name.words_append] at short
  have words := Name.same_iff_words_eq.mp same
  refine ⟨q, _, first, split, found, words, short, ?_⟩
  rw [words, ← head]
  exact (strategy.words_split t.name).symm

/-- **Resolving does not conflate names** with qualified heads. -/
theorem Settles.same_of_same (ht : Settles strategy ts t t') (hu : Settles strategy ts u u')
    (qt : HasQualifiedHead strategy t) (qu : HasQualifiedHead strategy u)
    (same : t'.name.Same u'.name) : t.name.Same u.name := by
  by_cases wt : Wins strategy ts t <;> by_cases wu : Wins strategy ts u
  · obtain ⟨q, ms, first, -, found, -, short, whole⟩ := ht.exists_of_wins wt
    obtain ⟨r, ns, first', -, found', -, short', whole'⟩ := hu.exists_of_wins wu
    rw [Name.same_iff_words_eq, short, short', List.cons.injEq] at same
    obtain ⟨token, members⟩ := same
    rw [token, found'] at found
    rw [Name.same_iff_words_eq, whole, whole', Option.some.inj found, members]
  · obtain ⟨q, ms, -, split, -, -, short, -⟩ := ht.exists_of_wins wt
    obtain rfl := hu.kept wu
    refine absurd ?_ (not_same_of_hasQualifiedHead split qu)
    rw [Name.same_iff_words_eq] at same ⊢
    rw [← same, short, Name.words_append, Name.words_simple, List.singleton_append]
  · obtain ⟨r, ns, -, split, -, -, short, -⟩ := hu.exists_of_wins wu
    obtain rfl := ht.kept wt
    refine absurd ?_ (not_same_of_hasQualifiedHead split qt)
    rw [Name.same_iff_words_eq] at same ⊢
    rw [same, short, Name.words_append, Name.words_simple, List.singleton_append]
  · obtain rfl := ht.kept wt
    obtain rfl := hu.kept wu
    exact same

end

/-! ### Whole sessions -/

namespace Imports

/-- The named types that a session is asked for, each with what it is resolved to. -/
def resolutions (s : Imports) (requests : List ImportRequest) : List (NamedType × NamedType) :=
  (requests.zip (s.session requests).1).flatMap fun request =>
    (occurrencesOf request.1.type).zip (occurrencesOf request.2)

section

variable {package : Option PackageDeclaration} {strategy : ImportStrategy}
  {requests : List ImportRequest} {t t' : NamedType}

/-- Each named type is resolved as the first claim in the session decides. -/
theorem settles_of_mem_resolutions
    (resolved : (t, t') ∈ resolutions { package, strategy } requests) :
    Settles strategy (requests.flatMap fun r => occurrencesOf r.type) t t' := by
  have answers := ((records_nil package strategy).session requests).1
  rw [List.nil_append, List.forall₂_iff_zip] at answers
  obtain ⟨⟨r, a⟩, request, pair⟩ := List.mem_flatMap.mp resolved
  exact (List.forall₂_iff_zip.mp (answers.2 request).forall₂).2 pair

/-- No named type is left out. -/
theorem map_fst_resolutions (package : Option PackageDeclaration) (strategy : ImportStrategy)
    (requests : List ImportRequest) :
    (resolutions { package, strategy } requests).map Prod.fst =
      requests.flatMap fun r => occurrencesOf r.type := by
  have answers := ((records_nil package strategy).session requests).1
  unfold resolutions
  -- the named types of the whole session do not matter here
  generalize (session { package, strategy } requests).1 = given at answers ⊢
  generalize [] ++ requests.flatMap (fun r => occurrencesOf r.type) = ts at answers
  induction answers with
  | nil => rfl
  | cons answer _ ih =>
    have aligned := List.Forall₂.length_eq answer.forall₂
    rw [List.zip_cons_cons, List.flatMap_cons, List.map_append, List.flatMap_cons, ih,
      List.map_fst_zip (Nat.le_of_eq aligned)]

/-- A shortened name is undone by the one imported name whose last segment it starts with. -/
theorem exists_imported_of_not_same
    (resolved : (t, t') ∈ resolutions { package, strategy } requests)
    (shortened : ¬ t'.name.Same t.name) :
    ∃ (first : SimpleName) (rest : List SimpleName) (q : QualifiedName),
      t'.name.segments = first :: rest ∧
      (∀ p, p ∈ (session { package, strategy } requests).2.imported ∧
        p.name.token = first.token ↔ p = q) ∧
      (q.toName.append rest).Same t.name := by
  have settles := settles_of_mem_resolutions resolved
  have recorded := ((records_nil package strategy).session requests).2
  rw [List.nil_append] at recorded
  have wins : Wins strategy (requests.flatMap fun r => occurrencesOf r.type) t := by
    by_contra loses
    rw [settles.kept loses] at shortened
    exact shortened (Name.same_iff_words_eq.mpr rfl)
  obtain ⟨q, members, claimed, -, found, same, short, whole⟩ := settles.exists_of_wins wins
  obtain ⟨p, rfl⟩ := QualifiedName.exists_of_words_eq same
  rw [Name.words, List.map_eq_cons_iff] at short
  obtain ⟨first, rest, segments, token, tail⟩ := short
  refine ⟨first, rest, p, segments, fun p' => ?_, ?_⟩
  · rw [recorded.imported_iff, token]
    constructor
    · rintro ⟨claims, token'⟩
      rw [token', found] at claims
      exact (QualifiedName.toName_inj.mp (Option.some.inj claims)).symm
    · rintro rfl
      have token' : p'.name.token = q.name.token := Name.last_token_eq_of_words_eq same
      exact ⟨by rw [token', found], token'⟩
  · rw [Name.same_iff_words_eq, Name.words_append, tail, whole]

end

/-- **Import resolution is faithful.** Every named type of a session is resolved; two of them with
qualified heads and different names are resolved to different names; and a name that was changed is
given back by replacing its first segment by the one imported name that ends with it. -/
theorem session_faithful (package : Option PackageDeclaration) (strategy : ImportStrategy)
    (requests : List ImportRequest) :
    (resolutions { package, strategy } requests).map Prod.fst =
        (requests.flatMap fun r => occurrencesOf r.type) ∧
      (∀ t t' u u' : NamedType, (t, t') ∈ resolutions { package, strategy } requests →
        (u, u') ∈ resolutions { package, strategy } requests →
        HasQualifiedHead strategy t → HasQualifiedHead strategy u →
        ¬ t.name.Same u.name → ¬ t'.name.Same u'.name) ∧
      ∀ t t' : NamedType, (t, t') ∈ resolutions { package, strategy } requests →
        ¬ t'.name.Same t.name →
        ∃ (first : SimpleName) (rest : List SimpleName) (q : QualifiedName),
          t'.name.segments = first :: rest ∧
          (∀ p, p ∈ (session { package, strategy } requests).2.imported ∧
            p.name.token = first.token ↔ p = q) ∧
          (q.toName.append rest).Same t.name := by
  refine ⟨map_fst_resolutions package strategy requests, ?_, ?_⟩
  · intro t t' u u' ht hu qt qu different same
    exact different ((settles_of_mem_resolutions ht).same_of_same (settles_of_mem_resolutions hu)
      qt qu same)
  · exact fun t t' => exists_imported_of_not_same

end Imports

end JavaSource
