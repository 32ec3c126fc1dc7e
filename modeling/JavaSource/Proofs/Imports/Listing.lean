import JavaSource.Proofs.Imports.Faithful
import JavaSource.Proofs.Name.Reading
import Mathlib.Data.List.Nodup
import Mathlib.Data.String.Basic

/-!
# The list of imports

The declarations of a session are sorted by the texts of the imported names. The text of a name
determines its words (`Name.dotted_inj`), and imported names end in different words
(`Imports.Distinct`), so the order is strict, and the list does not depend on the order in which the
table of imported names is run through.

`Imports.session_listing` says in full what is listed after a session.
-/

namespace JavaSource

namespace Imports

variable {s : Imports}

/-! ### What every session keeps -/

/-- What every visit keeps, every session keeps. -/
theorem session_induction {motive : Imports → Prop}
    (visit : ∀ s t, motive s → motive (visit s t).2) (start : motive s)
    (requests : List ImportRequest) : motive (s.session requests).2 := by
  have walk : ∀ (us : List NamedType) (s : Imports), motive s → motive (s.visitEach us).2 := by
    intro us
    induction us with
    | nil => exact fun s start => start
    | cons u us ih => exact fun s start => ih _ (visit s u start)
  induction requests generalizing s with
  | nil => exact start
  | cons r rs ih =>
    rw [session_cons]
    refine ih ?_
    rw [answer_eq]
    cases r.type with
    | ok t =>
      have resolved := walk t.occurrences s start
      rwa [visitEach_occurrences] at resolved
    | error e => exact start

/-- The imported names end in different words, and all of these are taken. -/
structure Distinct (s : Imports) : Prop where
  nodup : (s.imported.map (·.name.token)).Nodup
  used : ∀ q ∈ s.imported, q.name.token ∈ s.used

theorem Distinct.visit (distinct : s.Distinct) (t : NamedType) : (s.visit t).2.Distinct := by
  rcases s.visit_cases t with ⟨n, members, -, eq⟩ | ⟨q, members, -, ⟨p, -, eq⟩ | ⟨-, -, eq⟩ | free⟩
  · rw [eq]
    refine ⟨by simpa using distinct.nodup, fun q hq => ?_⟩
    rw [imported_claim] at hq
    exact mem_used_claim.mpr (.inr (distinct.used q hq))
  · rwa [eq]
  · rwa [eq]
  · obtain ⟨-, unused, eq⟩ := free
    rw [eq]
    refine ⟨?_, fun p hp => ?_⟩
    · -- the word of a new name was not taken, so no imported name ends in it
      simp only [register, List.map_append, List.map_cons, List.map_nil]
      refine distinct.nodup.append (List.nodup_singleton _) (List.disjoint_singleton.mpr ?_)
      intro taken
      obtain ⟨p, hp, token⟩ := List.mem_map.mp taken
      exact unused (token ▸ distinct.used p hp)
    · simp only [register, List.mem_append, List.mem_singleton] at hp
      simp only [register, mem_used_claim]
      rcases hp with hp | rfl
      · exact .inr (distinct.used p hp)
      · exact .inl rfl

theorem package_visit (s : Imports) (t : NamedType) : (s.visit t).2.package = s.package := by
  have claim : ∀ w, (s.claim w).package = s.package := by
    intro w
    unfold Imports.claim
    split <;> rfl
  rcases s.visit_cases t with ⟨n, members, -, eq⟩ | ⟨q, members, -, ⟨p, -, eq⟩ | ⟨-, -, eq⟩ | free⟩
  · rw [eq, claim]
  · rw [eq]
  · rw [eq]
  · rw [free.2.2]
    exact claim q.name.token

/-! ### The sorted list -/

/-- Imported names with the same text are the same name. -/
theorem Distinct.eq_of_dotted_eq (distinct : s.Distinct) {p q : QualifiedName}
    (hp : p ∈ s.imported) (hq : q ∈ s.imported) (same : p.toName.dotted = q.toName.dotted) :
    p = q := by
  have words := Name.dotted_inj.mp same
  have token : p.name.token = q.name.token := Name.last_token_eq_of_words_eq words
  exact List.inj_on_of_nodup_map distinct.nodup hp hq token

theorem mem_listed {q : QualifiedName} :
    q ∈ s.listed ↔ q ∈ s.imported ∧ s.isImplicit q.qualifier = false := by
  simp [listed]

/-- The listed names are sorted by their texts. -/
theorem pairwise_listed (s : Imports) :
    s.listed.Pairwise fun p q => p.toName.dotted ≤ q.toName.dotted := by
  have sorted := @List.pairwise_mergeSort _
    (fun p q : QualifiedName => decide (p.toName.dotted ≤ q.toName.dotted))
    (fun _ _ _ h h' => decide_eq_true (le_trans (of_decide_eq_true h) (of_decide_eq_true h')))
    (fun p q => by simpa using le_total p.toName.dotted q.toName.dotted)
    (s.imported.filter fun q => !s.isImplicit q.qualifier)
  simpa [listed] using sorted

/-- The listed names end in different words. -/
theorem Distinct.nodup_listed (distinct : s.Distinct) :
    (s.listed.map (·.name.token)).Nodup := by
  have perm := (List.mergeSort_perm (s.imported.filter fun q => !s.isImplicit q.qualifier)
    fun p q => decide (p.toName.dotted ≤ q.toName.dotted)).map fun q => q.name.token
  rw [listed, perm.nodup_iff]
  exact distinct.nodup.sublist (List.filter_sublist.map _)

/-- The order of the listed names is strict. -/
theorem Distinct.pairwise_lt_listed (distinct : s.Distinct) :
    s.listed.Pairwise fun p q => p.toName.dotted < q.toName.dotted := by
  have apart : s.listed.Pairwise fun p q => p.name.token ≠ q.name.token :=
    List.pairwise_map.mp distinct.nodup_listed
  refine (s.pairwise_listed.and apart).imp fun {p q} h => lt_of_le_of_ne h.1 fun same => ?_
  exact h.2 (Name.last_token_eq_of_words_eq (Name.dotted_inj.mp same))

/-- **The order of the table does not matter**: the same names are listed in the same order. -/
theorem Distinct.listed_of_perm (distinct : s.Distinct) {order : List QualifiedName}
    (perm : order.Perm s.imported) : listed { s with imported := order } = s.listed := by
  have members : ∀ {p}, p ∈ s.listed → p ∈ s.imported := fun hp => (mem_listed.mp hp).1
  have perm' : (listed { s with imported := order }).Perm s.listed :=
    ((List.mergeSort_perm _ _).trans (perm.filter _)).trans (List.mergeSort_perm _ _).symm
  refine perm'.eq_of_pairwise (fun p q hp hq le ge => ?_) (pairwise_listed _) s.pairwise_listed
  exact distinct.eq_of_dotted_eq (members (perm'.subset hp)) (members hq) (le_antisymm le ge)

/-! ### Whole sessions -/

section

variable {package : Option PackageDeclaration} {strategy : ImportStrategy}
  {requests : List ImportRequest} {t t' : NamedType}

theorem distinct_session (package : Option PackageDeclaration) (strategy : ImportStrategy)
    (requests : List ImportRequest) : (session { package, strategy } requests).2.Distinct :=
  session_induction (fun _ t distinct => distinct.visit t) ⟨List.nodup_nil, by simp⟩ requests

theorem package_session (package : Option PackageDeclaration) (strategy : ImportStrategy)
    (requests : List ImportRequest) :
    (session { package, strategy } requests).2.package = package :=
  session_induction (motive := fun s => s.package = package)
    (fun s t same => (s.package_visit t).trans same) rfl requests

/-- A package is implicit if it is `java.lang` or the package of the session. -/
theorem isImplicit_eq_false_iff {n : Name} :
    s.isImplicit n = false ↔
      n.dotted ≠ "java.lang" ∧ ∀ p, s.package = some p → n.dotted ≠ p.name.dotted := by
  cases declared : s.package with
  | none => simp [isImplicit, declared]
  | some p =>
    have swap : p.name.dotted ≠ n.dotted ↔ n.dotted ≠ p.name.dotted := ne_comm
    simp [isImplicit, declared, ← swap]

/-- A named type changes its name if and only if it wins its last segment. -/
theorem not_same_iff_wins (resolved : (t, t') ∈ resolutions { package, strategy } requests) :
    ¬ t'.name.Same t.name ↔
      Wins strategy (requests.flatMap fun r => occurrencesOf r.type) t := by
  have settles := settles_of_mem_resolutions resolved
  constructor
  · intro changed
    by_contra loses
    rw [settles.kept loses] at changed
    exact changed (Name.same_iff_words_eq.mpr rfl)
  · intro wins same
    obtain ⟨q, head, -⟩ := id wins
    have split : strategy.split t.name = (q.toName, (strategy.split t.name).2) := Prod.ext head rfl
    have short := (settles.shortened_iff q _ split).mpr wins
    rw [Name.same_iff_words_eq] at same short
    exact not_same_append split (Name.same_iff_words_eq.mpr (same.symm.trans short))

/-- The imported names are the heads of the named types that changed their names. -/
theorem exists_imported_iff {q : QualifiedName} :
    (∃ p ∈ (session { package, strategy } requests).2.imported, p.toName.Same q.toName) ↔
      ∃ t t', (t, t') ∈ resolutions { package, strategy } requests ∧ ¬ t'.name.Same t.name ∧
        (strategy.head t).Same q.toName := by
  have recorded := ((records_nil package strategy).session requests).2
  rw [List.nil_append] at recorded
  constructor
  · rintro ⟨p, imported, same⟩
    -- the named type that claimed the last segment of `p` first has the head `p`
    have first := (recorded.imported_iff p).mp imported
    obtain ⟨t, visited, head⟩ := List.mem_map.mp (List.mem_of_find?_eq_some first)
    rw [← map_fst_resolutions package strategy requests] at visited
    obtain ⟨⟨_, t'⟩, resolved, rfl⟩ := List.mem_map.mp visited
    have wins : Wins strategy _ _ := ⟨p, head, p.toName, first, Name.same_iff_words_eq.mpr rfl⟩
    exact ⟨_, t', resolved, (not_same_iff_wins resolved).mpr wins, head ▸ same⟩
  · rintro ⟨t, t', resolved, changed, same⟩
    obtain ⟨p, head, first, found, claims⟩ := (not_same_iff_wins resolved).mp changed
    rw [Name.same_iff_words_eq] at same claims
    obtain ⟨p', rfl⟩ := QualifiedName.exists_of_words_eq claims
    have token : p'.name.token = p.name.token := Name.last_token_eq_of_words_eq claims
    refine ⟨p', (recorded.imported_iff p').mpr (token ▸ found), ?_⟩
    rw [Name.same_iff_words_eq, claims, ← head, same]

end

/-- **The list of imports is well formed.** After any session, the declarations import single types,
in strictly increasing order of their texts, and no two of them end in the same word. A qualified
name is listed if and only if it is the head of a named type that changed its name in the session,
and its qualifier is neither `java.lang` nor the package of the session. The list does not depend on
the order of the imported names. -/
theorem session_listing (package : Option PackageDeclaration) (strategy : ImportStrategy)
    (requests : List ImportRequest) :
    let s := (session { package, strategy } requests).2
    (∀ d ∈ s.declarations, d.kind = .singleType) ∧
      s.declarations.Pairwise (fun d e => d.name.dotted < e.name.dotted) ∧
      s.declarations.Pairwise (fun d e => d.name.last.token ≠ e.name.last.token) ∧
      (∀ q : QualifiedName, (∃ d ∈ s.declarations, d.name.Same q.toName) ↔
        (∃ t t', (t, t') ∈ resolutions { package, strategy } requests ∧
          ¬ t'.name.Same t.name ∧ (strategy.head t).Same q.toName) ∧
        q.qualifier.dotted ≠ "java.lang" ∧
        ∀ p, package = some p → q.qualifier.dotted ≠ p.name.dotted) ∧
      ∀ order : List QualifiedName, order.Perm s.imported →
        declarations { s with imported := order } = s.declarations := by
  intro s
  have distinct : s.Distinct := distinct_session package strategy requests
  refine ⟨?_, ?_, ?_, fun q => ?_, fun order perm => ?_⟩
  · simp [declarations]
  · exact List.pairwise_map.mpr distinct.pairwise_lt_listed
  · exact List.pairwise_map.mpr (List.pairwise_map.mp distinct.nodup_listed)
  · have implicit := @isImplicit_eq_false_iff s q.qualifier
    rw [show s.package = package from package_session package strategy requests] at implicit
    rw [← exists_imported_iff, ← implicit]
    -- names with the same words have qualifiers with the same text
    have qualifiers : ∀ p : QualifiedName, p.toName.Same q.toName →
        s.isImplicit p.qualifier = s.isImplicit q.qualifier := by
      intro p same
      rw [Name.same_iff_words_eq, QualifiedName.words_toName, QualifiedName.words_toName,
        List.append_singleton_inj] at same
      simp only [isImplicit, Name.dotted_inj.mpr same.1]
    constructor
    · rintro ⟨d, listed, same⟩
      obtain ⟨p, hp, rfl⟩ := List.mem_map.mp listed
      obtain ⟨imported, visible⟩ := mem_listed.mp hp
      exact ⟨⟨p, imported, same⟩, (qualifiers p same) ▸ visible⟩
    · rintro ⟨⟨p, imported, same⟩, visible⟩
      have hp : p ∈ s.listed := mem_listed.mpr ⟨imported, (qualifiers p same).trans visible⟩
      exact ⟨_, List.mem_map_of_mem hp, same⟩
  · rw [declarations, distinct.listed_of_perm perm, declarations]

end Imports

end JavaSource
