import JavaSource.Proofs.Imports.Faithful

/-!
# Names that stay qualified

A named type keeps its qualified name if another head holds the last segment of its own. The name is
still read as it was meant if its first segment is not the short form of an import
(`Imports.Captures`). A session does not guarantee that: it keeps track of last segments only, so a
later request may import a type under the first segment of a name that was kept. This happens
exactly if a qualified head is the first to claim that segment (`Imports.captures_kept_iff`).

Capitals prevent it. Where the heads of a session end with a capital and the name starts without
one, as packages do, no import captures the name.
-/

namespace JavaSource

/-- The first identifier of a name. -/
def Name.outermost : Name → SimpleName
  | .simple n => n
  | .qualified _ q _ => q.outermost

/-- An imported name has the first identifier of a name as its short form. -/
def Imports.Captures (s : Imports) (n : Name) : Prop :=
  ∃ q ∈ s.imported, q.name.token = n.outermost.token

/-- The qualified heads of named types end with a capital, as names of types do. -/
def EndCapitalized (strategy : ImportStrategy) (ts : List NamedType) : Prop :=
  ∀ t ∈ ts, HasQualifiedHead strategy t → (strategy.head t).last.isCapitalized = true

section

variable {strategy : ImportStrategy} {ts : List NamedType} {t t' : NamedType} {token : String}

/-! ### Claims of kept names -/

/-- A claim is made by one of the named types. -/
theorem exists_head_of_firstClaim {first : Name}
    (claims : firstClaim strategy ts token = some first) :
    ∃ u ∈ ts, strategy.head u = first ∧ first.last.token = token := by
  have claimed : first.last.token = token := by simpa using List.find?_some claims
  obtain ⟨u, hu, head⟩ := List.mem_map.mp (List.mem_of_find?_eq_some claims)
  exact ⟨u, hu, head, claimed⟩

/-- A named type claims the last segment of its head, perhaps after another one. -/
theorem exists_firstClaim_of_mem (strategy : ImportStrategy) (mem : t ∈ ts) :
    ∃ first, firstClaim strategy ts (strategy.head t).last.token = some first := by
  rw [← Option.isSome_iff_exists, firstClaim, List.find?_isSome]
  exact ⟨strategy.head t, List.mem_map_of_mem mem, by simp⟩

/-- What keeps its qualified name does not win. -/
theorem Settles.not_wins_of_same (settles : Settles strategy ts t t')
    (kept : t'.name.Same t.name) : ¬ Wins strategy ts t := by
  intro wins
  obtain ⟨q, members, -, split, -, -, short, -⟩ := settles.exists_of_wins wins
  refine Imports.not_same_append split ?_
  rw [Name.same_iff_words_eq] at kept ⊢
  rw [← kept, short, Name.words_append, Name.words_simple, List.singleton_append]

/-- A qualified head that does not win finds its last segment taken by another head. -/
theorem exists_other_claim (mem : t ∈ ts) (qualified : HasQualifiedHead strategy t)
    (loses : ¬ Wins strategy ts t) :
    ∃ first, firstClaim strategy ts (strategy.head t).last.token = some first ∧
      ¬ first.Same (strategy.head t) := by
  obtain ⟨first, claims⟩ := exists_firstClaim_of_mem strategy mem
  obtain ⟨q, head⟩ := qualified
  rw [head, QualifiedName.last_toName] at claims ⊢
  exact ⟨first, claims, fun same => loses ⟨q, head, first, claims, same⟩⟩

end

/-! ### Capture -/

namespace Imports

section

variable {s : Imports} {strategy : ImportStrategy} {ts : List NamedType} {n : Name}

/-- A name is captured exactly if a qualified head claims its first identifier first. -/
theorem Records.captures_iff (rec : s.Records strategy ts) :
    s.Captures n ↔
      ∃ q : QualifiedName, firstClaim strategy ts n.outermost.token = some q.toName := by
  constructor
  · rintro ⟨q, imported, token⟩
    rw [rec.imported_iff, token] at imported
    exact ⟨q, imported⟩
  · rintro ⟨q, claims⟩
    obtain ⟨-, -, -, token⟩ := exists_head_of_firstClaim claims
    rw [QualifiedName.last_toName] at token
    exact ⟨q, (rec.imported_iff q).mpr (by rw [token, claims]), token⟩

/-- Where heads end with a capital, a name that starts without one is not captured. -/
theorem Records.not_captures (rec : s.Records strategy ts) (capitals : EndCapitalized strategy ts)
    (lower : n.outermost.isCapitalized = false) : ¬ s.Captures n := by
  rw [rec.captures_iff]
  rintro ⟨q, claims⟩
  obtain ⟨u, hu, head, token⟩ := exists_head_of_firstClaim claims
  have upper := capitals u hu ⟨q, head⟩
  rw [head, SimpleName.isCapitalized_congr token, lower] at upper
  contradiction

end

/-- **When an import captures a name that was kept.** A named type with a qualified head keeps its
name in a session if another head holds the last segment. An import at the end of the session
captures the name exactly if the first named type to claim its first segment, anywhere in the
session, has a qualified head. This never happens to a name that starts without a capital, if the
qualified heads of the session end with one. -/
theorem captures_kept_iff {package : Option PackageDeclaration} {strategy : ImportStrategy}
    {requests : List ImportRequest} {t t' : NamedType}
    (resolved : (t, t') ∈ resolutions { package, strategy } requests)
    (qualified : HasQualifiedHead strategy t) (kept : t'.name.Same t.name) :
    (∃ first, firstClaim strategy (requests.flatMap fun r => occurrencesOf r.type)
        (strategy.head t).last.token = some first ∧ ¬ first.Same (strategy.head t)) ∧
      ((session { package, strategy } requests).2.Captures t'.name ↔
        ∃ q : QualifiedName, firstClaim strategy (requests.flatMap fun r => occurrencesOf r.type)
          t'.name.outermost.token = some q.toName) ∧
      (EndCapitalized strategy (requests.flatMap fun r => occurrencesOf r.type) →
        t'.name.outermost.isCapitalized = false →
        ¬ (session { package, strategy } requests).2.Captures t'.name) := by
  have settles := settles_of_mem_resolutions resolved
  have recorded := ((records_nil package strategy).session requests).2
  rw [List.nil_append] at recorded
  have asked : t ∈ requests.flatMap fun r => occurrencesOf r.type := by
    rw [← map_fst_resolutions package strategy requests]
    exact List.mem_map_of_mem resolved
  exact ⟨exists_other_claim asked qualified (settles.not_wins_of_same kept),
    recorded.captures_iff, recorded.not_captures⟩

/-- `b.Foo` behind `a.Foo` is kept, and nothing is imported as `b`. -/
theorem captures_kept_iff_package :
    ¬ (session { package := none, strategy := .topLevel }
      [.resolve (.named ⟨none, .qualified none (.simple ⟨none, "a", rfl⟩) ⟨none, "Foo", rfl⟩⟩),
        .resolve (.named ⟨none, .qualified none (.simple ⟨none, "b", rfl⟩)
          ⟨none, "Foo", rfl⟩⟩)]).2.Captures
      (.qualified none (.simple ⟨none, "b", rfl⟩) ⟨none, "Foo", rfl⟩) := by
  refine (@captures_kept_iff none .topLevel _
    ⟨none, .qualified none (.simple ⟨none, "b", rfl⟩) ⟨none, "Foo", rfl⟩⟩
    ⟨none, .qualified none (.simple ⟨none, "b", rfl⟩) ⟨none, "Foo", rfl⟩⟩ (by decide)
    ⟨⟨none, .simple ⟨none, "b", rfl⟩, ⟨none, "Foo", rfl⟩⟩, rfl⟩ rfl).2.2 ?_ (by decide)
  intro u asked qualified
  clear qualified
  revert u
  decide

/-- `Map.Entry` behind `p.Entry` is kept, and `java.util.Map` is imported as `Map` afterwards. -/
theorem captures_kept_member :
    ¬ ∀ (strategy : ImportStrategy) (requests : List ImportRequest) (t t' : NamedType),
      (t, t') ∈ resolutions { strategy } requests → HasQualifiedHead strategy t →
      t'.name.Same t.name → ¬ (session { strategy } requests).2.Captures t'.name := by
  intro safe
  refine safe .enclosing
    [.resolve (.named ⟨none, .qualified none (.simple ⟨none, "p", rfl⟩) ⟨none, "Entry", rfl⟩⟩),
      .resolve (.named ⟨none, .qualified none (.simple ⟨none, "Map", rfl⟩) ⟨none, "Entry", rfl⟩⟩),
      .resolve (.named ⟨none, .qualified none (.qualified none (.simple ⟨none, "java", rfl⟩)
        ⟨none, "util", rfl⟩) ⟨none, "Map", rfl⟩⟩)]
    ⟨none, .qualified none (.simple ⟨none, "Map", rfl⟩) ⟨none, "Entry", rfl⟩⟩
    ⟨none, .qualified none (.simple ⟨none, "Map", rfl⟩) ⟨none, "Entry", rfl⟩⟩ (by decide)
    ⟨⟨none, .simple ⟨none, "Map", rfl⟩, ⟨none, "Entry", rfl⟩⟩, rfl⟩ rfl ?_
  exact ⟨⟨none, .qualified none (.simple ⟨none, "java", rfl⟩) ⟨none, "util", rfl⟩,
    ⟨none, "Map", rfl⟩⟩, by decide, rfl⟩

end Imports

end JavaSource
