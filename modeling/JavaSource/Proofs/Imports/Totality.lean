import JavaSource.Imports.Resolving
import JavaSource.Proofs.Imports.Session

/-!
# Requests that cannot fail halfway

Resolving a type never fails, and reading a text fails only if the text is not a type, before the
session is touched (`Resolving.resolve_total_read_atomic`). The tables are changed while a type is
visited, so a failure behind the first named type would leave a session that is changed in part;
there is none, because the visitor has a rule for every form of types and gives a type with
arguments as many arguments as it had.

* `Resolving.run_accept`: the visitor does to the session what `Imports.shorten` does, and succeeds.
* `Resolving.run_request`: a request, run with failures, is `Imports.answer`, so what is known of
  `Imports.session` holds of the steps that are run.
-/

namespace JavaSource

namespace Resolving

/-! ### The rules of the visitor

There is a rule for each form of types, so no type is refused. -/

theorem accept_array (h : Handle) (c : Ty) :
    shortening.accept (.array h c) = do
      let some c ← shortening.accept c | return none
      return some (.array none c) := rfl

theorem accept_parameterized (h : Handle) (b f : Ty) (r : List Ty) :
    shortening.accept (.parameterized h b f r) = do
      let short ← shortening.accept b
      let (changed, ts) ← visitEach (shortening.acceptEach (f :: r))
      if short.isSome || changed then
        return some (← build (Ty.withArguments none (short.getD b) ts))
      else return none := rfl

theorem accept_qualified (h : Handle) (q : Ty) (n : SimpleName) :
    shortening.accept (.qualified h q n) = do
      let some q ← shortening.accept q | return none
      return some (.qualified none q n) := rfl

theorem accept_wildcard (h : Handle) (d : WildcardBoundKind) (b : Ty) :
    shortening.accept (.wildcard h d (some b)) = do
      let some b ← shortening.accept b | return none
      return some (.wildcard none d (some b)) := rfl

/-! ### Visits -/

/-- The arguments of a type are visited one after the other, and none is lost. -/
theorem run_visitEach {ts : List Ty}
    (each : ∀ t ∈ ts, ∀ s : Imports,
      (shortening.accept t).run s = .ok (s.shorten t).1 (s.shorten t).2) (s : Imports) :
    (visitEach (shortening.acceptEach ts)).run s =
      .ok ((s.shortenEach ts).1.isSome, (s.shortenEach ts).1.getD ts) (s.shortenEach ts).2 := by
  induction ts generalizing s with
  | nil => rfl
  | cons t ts ih =>
    have first := each t List.mem_cons_self s
    have others := ih (fun u hu => each u (List.mem_cons_of_mem t hu)) (s.shorten t).2
    simp only [TypeVisitor.acceptEach, visitEach, EStateM.run_bind, first, others,
      EStateM.run_pure, Imports.shortenEach]
    cases (s.shorten t).1 <;> cases ((s.shorten t).2.shortenEach ts).1 <;> rfl

/-- **The visit of a type succeeds**, and gives the short form of the type. -/
theorem run_accept (t : Ty) (s : Imports) :
    (shortening.accept t).run s = .ok (s.shorten t).1 (s.shorten t).2 := by
  induction t generalizing s with
  | array h c ih =>
    rw [accept_array, EStateM.run_bind, ih, Imports.shorten]
    rcases s.shorten c with ⟨_ | short, later⟩ <;> rfl
  | basic h k => rfl
  | named t => rfl
  | parameterized h b f r ihb ihf ihr =>
    -- the arguments are as many as before, so the type can be built again
    have each : ∀ t ∈ f :: r, ∀ s : Imports,
        (shortening.accept t).run s = .ok (s.shorten t).1 (s.shorten t).2 := by
      simpa using ⟨ihf, ihr⟩
    have arguments := run_visitEach each (s.shorten b).2
    rw [accept_parameterized, EStateM.run_bind, ihb]
    simp only [EStateM.run_bind, arguments, Imports.shorten, Imports.shortenEach]
    cases (s.shorten b).1 <;> cases ((s.shorten b).2.shorten f).1 <;>
      cases (((s.shorten b).2.shorten f).2.shortenEach r).1 <;> rfl
  | qualified h q n ih =>
    rw [accept_qualified, EStateM.run_bind, ih, Imports.shorten]
    rcases s.shorten q with ⟨_ | short, later⟩ <;> rfl
  | wildcard h d b ih =>
    cases b with
    | none => rfl
    | some b =>
      rw [accept_wildcard, EStateM.run_bind, ih b rfl, Imports.shorten]
      rcases s.shorten b with ⟨_ | short, later⟩ <;> rfl

/-! ### Requests -/

/-- Resolving a type succeeds. -/
theorem run_resolve (t : Ty) (s : Imports) :
    (resolve t).run s = .ok (s.resolve t).1 (s.resolve t).2 := by
  rw [resolve, EStateM.run_bind, run_accept]
  rfl

/-- Reading a text either resolves the type that it stands for, or fails at once. -/
theorem run_read (text : String) (s : Imports) :
    (read text).run s =
      match Ty.read text with
      | .ok t => .ok (s.resolve t).1 (s.resolve t).2
      | .error cause => .error (.build cause) s := by
  rw [read, EStateM.run_bind]
  cases Ty.read text with
  | ok t => exact run_resolve t s
  | error cause => rfl

/-- The step that a request stands for. -/
def request : ImportRequest → Resolving Ty
  | .resolve t => resolve t
  | .read text => read text

/-- **What a request does to a session** is what `Imports.answer` says. -/
theorem run_request (r : ImportRequest) (s : Imports) :
    (request r).run s =
      match s.answer r with
      | (.ok t, later) => .ok t later
      | (.error cause, later) => .error (.build cause) later := by
  rw [Imports.answer_eq]
  cases r with
  | resolve t => exact run_resolve t s
  | read text =>
    rw [request, run_read, ImportRequest.type]
    cases Ty.read text <;> rfl

/-- **Import resolution is total, and a failed request leaves the session as it was.** Whatever the
tables of the session are, resolving a type succeeds, and reading a text fails exactly if the text
is not a type, for the same cause and with the tables untouched. -/
theorem resolve_total_read_atomic (s : Imports) :
    (∀ t : Ty, (resolve t).run s = .ok (s.resolve t).1 (s.resolve t).2) ∧
    ∀ (text : String) (err : ImportError) (later : Imports),
      (read text).run s = .error err later ↔
        (∃ cause, Ty.read text = .error cause ∧ err = .build cause) ∧ later = s := by
  refine ⟨fun t => run_resolve t s, fun text err later => ?_⟩
  rw [run_read]
  cases Ty.read text with
  | ok t => simp
  | error cause => simp [eq_comm]

end Resolving

end JavaSource
