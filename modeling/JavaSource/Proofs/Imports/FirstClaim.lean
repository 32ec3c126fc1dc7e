import JavaSource.Proofs.Imports.Session
import JavaSource.Proofs.Name.Words
import Mathlib.Data.List.Forall2

/-!
# The first claim of a simple name wins

Every named type of an import session claims the last segment of its head. `firstClaim` finds the
head that claims a simple name first, and it decides everything: a qualified head is shortened if
and only if it is the head of the first claim of its last segment, and the imported names are the
qualified heads of first claims (`Imports.session_first_claim`).

* `Imports.Records` relates the two tables of a session to the named types visited so far.
* `Imports.Records.visit` is the step: a visit settles a named type as the first claim decides, and
  the tables record it. Since a named type claims the last segment of its own head, what is visited
  later cannot change the decision.
-/

namespace JavaSource

/-! ### Qualified names and their words -/

@[simp] theorem QualifiedName.last_toName (q : QualifiedName) : q.toName.last = q.name := rfl

@[simp] theorem QualifiedName.words_toName (q : QualifiedName) :
    q.toName.words = q.qualifier.words ++ [q.name.token] :=
  Name.words_qualified _ _ _

/-- A name with the words of a qualified name is qualified. -/
theorem QualifiedName.exists_of_words_eq {n : Name} {q : QualifiedName}
    (same : n.words = q.toName.words) : ∃ p : QualifiedName, n = p.toName := by
  cases n with
  | simple n =>
    rw [words_toName] at same
    exact absurd same.symm (q.qualifier.words_append_singleton_ne _ _)
  | qualified h p n => exact ⟨⟨h, p, n⟩, rfl⟩

/-- Splitting cuts a name in two. -/
theorem ImportStrategy.words_split (strategy : ImportStrategy) (n : Name) :
    (strategy.split n).1.words ++ (strategy.split n).2.map SimpleName.token = n.words := by
  cases strategy with
  | enclosing => simp [split]
  | topLevel =>
    rw [split]
    induction n with
    | simple n => simp [Name.splitMembers]
    | qualified h q n ih =>
      by_cases capitalized : q.last.isCapitalized
      · simp [Name.splitMembers, capitalized, ← ih]
      · simp [Name.splitMembers, capitalized]

/-! ### Claims -/

/-- The part of a named type that is imported. -/
def ImportStrategy.head (strategy : ImportStrategy) (t : NamedType) : Name :=
  (strategy.split t.name).1

/-- The head that is the first to claim a simple name among several named types. -/
def firstClaim (strategy : ImportStrategy) (ts : List NamedType) (token : String) : Option Name :=
  (ts.map strategy.head).find? fun head => head.last.token == token

/-- A named type with a qualified head whose last segment is claimed by an equal head first. -/
def Wins (strategy : ImportStrategy) (ts : List NamedType) (t : NamedType) : Prop :=
  ∃ q : QualifiedName, strategy.head t = q.toName ∧
    ∃ first, firstClaim strategy ts q.name.token = some first ∧ first.Same q.toName

/-- What becomes of a named type in a session over `ts`: it is shortened to the last segment of its
head, followed by its members, if and only if it wins; otherwise it keeps its name. -/
structure Settles (strategy : ImportStrategy) (ts : List NamedType) (t t' : NamedType) : Prop where
  /-- The named type is shortened if and only if it wins. -/
  shortened_iff : ∀ (q : QualifiedName) (members : List SimpleName),
    strategy.split t.name = (q.toName, members) →
      (t'.name.Same ((Name.simple q.name).append members) ↔ Wins strategy ts t)
  /-- A named type that does not win stays as it is. -/
  kept : ¬ Wins strategy ts t → t' = t

section

variable {strategy : ImportStrategy} {ts us : List NamedType} {t : NamedType} {token : String}

@[simp] theorem firstClaim_nil : firstClaim strategy [] token = none := rfl

theorem firstClaim_append :
    firstClaim strategy (ts ++ us) token =
      (firstClaim strategy ts token).or (firstClaim strategy us token) := by
  simp [firstClaim]

@[simp] theorem firstClaim_cons_self :
    firstClaim strategy (t :: us) (strategy.head t).last.token = some (strategy.head t) := by
  simp [firstClaim]

theorem firstClaim_singleton_of_ne (other : (strategy.head t).last.token ≠ token) :
    firstClaim strategy [t] token = none := by
  simp [firstClaim, other]

end

/-! ### The tables of a session -/

theorem QualifiedName.toName_inj {p q : QualifiedName} : p.toName = q.toName ↔ p = q := by
  cases p
  cases q
  simp [toName]

namespace Imports

variable {s s' : Imports} {strategy : ImportStrategy} {ts : List NamedType} {t : NamedType}

/-- The tables of a session say which simple names are claimed by the named types `ts`, and which
qualified heads claim their last segment first. -/
structure Records (s : Imports) (strategy : ImportStrategy) (ts : List NamedType) : Prop where
  strategy_eq : s.strategy = strategy
  used_iff : ∀ token, token ∈ s.used ↔ (firstClaim strategy ts token).isSome = true
  imported_iff : ∀ q : QualifiedName,
    q ∈ s.imported ↔ firstClaim strategy ts q.name.token = some q.toName

/-- A session that was asked for nothing has empty tables. -/
theorem records_nil (package : Option PackageDeclaration) (strategy : ImportStrategy) :
    Records { package, strategy } strategy [] where
  strategy_eq := rfl
  used_iff := by simp
  imported_iff := by simp

@[simp] theorem mem_used_claim {token w : String} :
    token ∈ (s.claim w).used ↔ token = w ∨ token ∈ s.used := by
  by_cases used : w ∈ s.used
  · have absorbed : token = w → token ∈ s.used := by rintro rfl; exact used
    simpa [claim, used] using absorbed
  · simp [claim, used]

@[simp] theorem strategy_claim (w : String) : (s.claim w).strategy = s.strategy := by
  unfold claim
  split <;> rfl

@[simp] theorem imported_claim (w : String) : (s.claim w).imported = s.imported := by
  unfold claim
  split <;> rfl

/-- An imported name is found if it is the head of the first claim of its last segment. -/
theorem Records.find?_eq_some_iff (rec : s.Records strategy ts) {p q : QualifiedName} :
    s.find? q = some p ↔
      firstClaim strategy ts q.name.token = some p.toName ∧ p.toName.words = q.toName.words := by
  have found : ∀ {p}, s.find? q = some p →
      firstClaim strategy ts q.name.token = some p.toName ∧
        p.toName.words = q.toName.words := by
    intro p hp
    have same : p.toName.words = q.toName.words := by simpa using List.find?_some hp
    have token : p.name.token = q.name.token := Name.last_token_eq_of_words_eq same
    have first := (rec.imported_iff p).mp (List.mem_of_find?_eq_some hp)
    rw [token] at first
    exact ⟨first, same⟩
  refine ⟨found, fun ⟨first, same⟩ => ?_⟩
  have token : p.name.token = q.name.token := Name.last_token_eq_of_words_eq same
  have imported : p ∈ s.imported := (rec.imported_iff p).mpr (by rw [token, first])
  have some_found : (s.find? q).isSome = true :=
    List.find?_isSome.mpr ⟨p, imported, by simpa using same⟩
  obtain ⟨p', hp'⟩ := Option.isSome_iff_exists.mp some_found
  have unique := (found hp').1.symm.trans first
  rw [hp', QualifiedName.toName_inj.mp (Option.some.inj unique)]

/-- The tables record one named type more if its head claims its last segment, and is imported where
that segment was free. -/
theorem Records.extend (rec : s.Records strategy ts) (unchanged : s'.strategy = s.strategy)
    (used : ∀ token, token ∈ s'.used ↔ token = (strategy.head t).last.token ∨ token ∈ s.used)
    (imported : ∀ q : QualifiedName, q ∈ s'.imported ↔
      q ∈ s.imported ∨ strategy.head t = q.toName ∧ q.name.token ∉ s.used) :
    s'.Records strategy (ts ++ [t]) where
  strategy_eq := unchanged.trans rec.strategy_eq
  used_iff token := by
    rw [used, rec.used_iff, firstClaim_append]
    by_cases own : (strategy.head t).last.token = token
    · subst own
      simp
    · simp [firstClaim_singleton_of_ne own, Ne.symm own]
  imported_iff q := by
    rw [imported, rec.imported_iff, rec.used_iff, firstClaim_append]
    cases first : firstClaim strategy ts q.name.token with
    | some f => simp
    | none =>
      by_cases own : (strategy.head t).last.token = q.name.token
      · simp [← own]
      · have other : strategy.head t ≠ q.toName := by
          intro same
          exact own (by rw [same, QualifiedName.last_toName])
        simp [firstClaim_singleton_of_ne own, other]

/-- A taken segment changes nothing in the tables. -/
theorem Records.extend_of_used (rec : s.Records strategy ts) {q : QualifiedName}
    (head : strategy.head t = q.toName) (taken : q.name.token ∈ s.used) :
    s.Records strategy (ts ++ [t]) := by
  refine rec.extend rfl (fun token => ?_) fun q' => ?_
  · rw [head, QualifiedName.last_toName]
    refine ⟨.inr, ?_⟩
    rintro (rfl | used)
    exacts [taken, used]
  · refine ⟨.inl, ?_⟩
    rintro (imported | ⟨head', free⟩)
    · exact imported
    · rw [← QualifiedName.toName_inj.mp (head.symm.trans head')] at free
      contradiction

/-! ### One visit -/

/-- A named type wins if its head is equal to the first claim so far, or if there is none. -/
theorem wins_append_cons_iff {q : QualifiedName} {rest : List NamedType}
    (head : strategy.head t = q.toName) :
    Wins strategy (ts ++ t :: rest) t ↔
      ∀ first, firstClaim strategy ts q.name.token = some first → first.Same q.toName := by
  have claims : firstClaim strategy (t :: rest) q.name.token = some q.toName := by
    rw [← head, ← QualifiedName.last_toName, ← head, firstClaim_cons_self]
  constructor
  · rintro ⟨q', head', first, found, same⟩ first' found'
    obtain rfl := QualifiedName.toName_inj.mp (head.symm.trans head')
    rw [firstClaim_append, found', Option.some_or] at found
    exact Option.some.inj found ▸ same
  · intro earlier
    refine ⟨q, head, ?_⟩
    rw [firstClaim_append, claims]
    cases found : firstClaim strategy ts q.name.token with
    | none => exact ⟨q.toName, rfl, Name.same_iff_words_eq.mpr rfl⟩
    | some first => exact ⟨first, rfl, earlier first found⟩

/-- A short form has fewer words than the name. -/
theorem not_same_append {q : QualifiedName} {members : List SimpleName}
    (split : strategy.split t.name = (q.toName, members)) :
    ¬ t.name.Same ((Name.simple q.name).append members) := by
  have whole := strategy.words_split t.name
  rw [split] at whole
  intro same
  have short := whole.trans (Name.same_iff_words_eq.mp same)
  rw [Name.words_append, List.append_left_inj, QualifiedName.words_toName] at short
  exact q.qualifier.words_append_singleton_ne _ _ short

theorem settles_of_wins {t' : NamedType} {q : QualifiedName} {members : List SimpleName}
    (split : strategy.split t.name = (q.toName, members)) (wins : Wins strategy ts t)
    (short : t'.name.Same ((Name.simple q.name).append members)) : Settles strategy ts t t' where
  shortened_iff q' members' split' := by
    rw [split, Prod.mk.injEq, QualifiedName.toName_inj] at split'
    obtain ⟨rfl, rfl⟩ := split'
    exact iff_of_true short wins
  kept loses := absurd wins loses

theorem settles_of_not_wins (loses : ¬ Wins strategy ts t) : Settles strategy ts t t where
  shortened_iff _ _ split := iff_of_false (not_same_append split) loses
  kept _ := rfl

/-- **One visit.** The named type is settled as the first claim decides, whatever is visited later,
and the tables record it. -/
theorem Records.visit (rec : s.Records strategy ts) (t : NamedType) (rest : List NamedType) :
    Settles strategy (ts ++ t :: rest) t (s.visit t).1 ∧
      (s.visit t).2.Records strategy (ts ++ [t]) := by
  have cases := s.visit_cases t
  rw [rec.strategy_eq] at cases
  rcases cases with ⟨n, members, split, visited⟩ | ⟨q, members, split, found | used | free⟩
  · -- a simple head claims its name and is never shortened
    have head : strategy.head t = .simple n := by rw [ImportStrategy.head, split]
    rw [visited]
    refine ⟨settles_of_not_wins ?_, rec.extend (strategy_claim _) ?_ ?_⟩
    · rintro ⟨q, qualified, -⟩
      cases head.symm.trans qualified
    · intro token
      rw [mem_used_claim, head, Name.last]
    · intro q
      have simple : strategy.head t ≠ q.toName := by simp [head, QualifiedName.toName]
      simp [simple]
  all_goals have head : strategy.head t = q.toName := by rw [ImportStrategy.head, split]
  · -- the head is imported already
    obtain ⟨p, hp, visited⟩ := found
    obtain ⟨first, same⟩ := rec.find?_eq_some_iff.mp hp
    have taken : q.name.token ∈ s.used := (rec.used_iff _).mpr (by rw [first]; rfl)
    rw [visited]
    refine ⟨settles_of_wins split ((wins_append_cons_iff head).mpr ?_) ?_,
      rec.extend_of_used head taken⟩
    · intro first' found'
      rw [← Option.some.inj (first.symm.trans found')]
      exact Name.same_iff_words_eq.mpr same
    · have token : p.name.token = q.name.token := Name.last_token_eq_of_words_eq same
      simp [Name.same_iff_words_eq, token]
  · -- another head holds the last segment
    obtain ⟨missing, taken, visited⟩ := used
    rw [visited]
    refine ⟨settles_of_not_wins fun wins => ?_, rec.extend_of_used head taken⟩
    obtain ⟨first, hfirst⟩ := Option.isSome_iff_exists.mp ((rec.used_iff _).mp taken)
    have same := Name.same_iff_words_eq.mp ((wins_append_cons_iff head).mp wins first hfirst)
    obtain ⟨p, rfl⟩ := QualifiedName.exists_of_words_eq same
    have hp := rec.find?_eq_some_iff.mpr ⟨hfirst, same⟩
    rw [missing] at hp
    contradiction
  · -- the last segment is free
    obtain ⟨missing, free, visited⟩ := free
    rw [visited]
    refine ⟨settles_of_wins split ((wins_append_cons_iff head).mpr ?_) ?_, rec.extend ?_ ?_ ?_⟩
    · intro first found
      rw [rec.used_iff, found] at free
      exact absurd rfl free
    · exact Name.same_iff_words_eq.mpr rfl
    · simp [register]
    · intro token
      simp [register, head]
    · intro q'
      simp only [register, List.mem_append, List.mem_singleton, head,
        QualifiedName.toName_inj]
      refine or_congr Iff.rfl ⟨?_, fun h => h.1.symm⟩
      rintro rfl
      exact ⟨rfl, free⟩

/-! ### Whole sessions -/

/-- A walk settles each named type, whatever is visited later, and the tables record all of them. -/
theorem Records.visitEach (rec : s.Records strategy ts) (us rest : List NamedType) :
    List.Forall₂ (Settles strategy (ts ++ us ++ rest)) us (s.visitEach us).1 ∧
      (s.visitEach us).2.Records strategy (ts ++ us) := by
  induction us generalizing s ts with
  | nil => exact ⟨.nil, by simpa using rec⟩
  | cons t us ih =>
    obtain ⟨settles, rec'⟩ := rec.visit t (us ++ rest)
    obtain ⟨settled, recorded⟩ := ih rec'
    rw [visitEach_cons]
    simp only [List.append_assoc, List.cons_append, List.nil_append] at settled recorded ⊢
    exact ⟨.cons settles settled, recorded⟩

/-- The answer to a request in a session over `ts`: every named type of the type that is asked for
is settled in its place, and a text that is not a type is refused. -/
def Answers (strategy : ImportStrategy) (ts : List NamedType) :
    (asked answer : Except BuildError Ty) → Prop
  | .ok t, .ok t' => List.Forall₂ (Settles strategy ts) t.occurrences t'.occurrences
  | .error e, .error e' => e = e'
  | _, _ => False

theorem Answers.forall₂ {asked answer : Except BuildError Ty}
    (answers : Answers strategy ts asked answer) :
    List.Forall₂ (Settles strategy ts) (occurrencesOf asked) (occurrencesOf answer) := by
  cases asked <;> cases answer
  case ok.ok => exact answers
  case error.error => exact .nil
  all_goals exact answers.elim

theorem Records.answer (rec : s.Records strategy ts) (r : ImportRequest) (rest : List NamedType) :
    Answers strategy (ts ++ occurrencesOf r.type ++ rest) r.type (s.answer r).1 ∧
      (s.answer r).2.Records strategy (ts ++ occurrencesOf r.type) := by
  rw [answer_eq]
  cases r.type with
  | ok t =>
    have walk := rec.visitEach t.occurrences rest
    rwa [visitEach_occurrences] at walk
  | error e => exact ⟨rfl, by simpa [occurrencesOf] using rec⟩

theorem Records.session (rec : s.Records strategy ts) (rs : List ImportRequest) :
    List.Forall₂ (fun r a =>
        Answers strategy (ts ++ rs.flatMap fun r => occurrencesOf r.type) r.type a)
      rs (s.session rs).1 ∧
      (s.session rs).2.Records strategy (ts ++ rs.flatMap fun r => occurrencesOf r.type) := by
  induction rs generalizing s ts with
  | nil => exact ⟨.nil, by simpa using rec⟩
  | cons r rs ih =>
    obtain ⟨answers, rec'⟩ := rec.answer r (rs.flatMap fun r => occurrencesOf r.type)
    obtain ⟨answered, recorded⟩ := ih rec'
    simp only [session_cons, List.flatMap_cons, ← List.append_assoc]
    exact ⟨.cons answers answered, recorded⟩

/-- **The first claim wins.** In a session that starts with empty tables, every named type is
settled as the first claim in the whole session decides, and the imported table maps a qualified
name to a short one exactly if it is the head of the first claim of its last segment and that is the
short name. -/
theorem session_first_claim (package : Option PackageDeclaration) (strategy : ImportStrategy)
    (requests : List ImportRequest) :
    List.Forall₂ (fun r a =>
        Answers strategy (requests.flatMap fun r => occurrencesOf r.type) r.type a)
      requests (session { package, strategy } requests).1 ∧
    ∀ (q : QualifiedName) (short : String),
      ((session { package, strategy } requests).2.find? q).map (·.name.token) = some short ↔
        short = q.name.token ∧ ∃ first,
          firstClaim strategy (requests.flatMap fun r => occurrencesOf r.type) q.name.token =
            some first ∧ first.Same q.toName := by
  obtain ⟨answers, recorded⟩ := (records_nil package strategy).session requests
  rw [List.nil_append] at answers recorded
  refine ⟨answers, fun q short => ?_⟩
  simp only [Option.map_eq_some_iff, recorded.find?_eq_some_iff, Name.same_iff_words_eq]
  constructor
  · rintro ⟨p, ⟨first, same⟩, rfl⟩
    exact ⟨Name.last_token_eq_of_words_eq same, p.toName, first, same⟩
  · rintro ⟨rfl, first, found, same⟩
    obtain ⟨p, rfl⟩ := QualifiedName.exists_of_words_eq same
    exact ⟨p, ⟨found, same⟩, Name.last_token_eq_of_words_eq same⟩

end Imports

end JavaSource
