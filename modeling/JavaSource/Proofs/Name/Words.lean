import JavaSource.Matching
import JavaSource.Name

/-!
# The words of a name

The handles of a name do not count when names are compared, and how it is nested is determined by
the number of its identifiers. So a name is determined by its words, up to structural equality
(`Name.same_iff_words_eq`).
-/

namespace JavaSource

/-- Every character of an identifier can stand in one. -/
theorem SimpleName.notMem_token (n : SimpleName) {c : Char} (h : isIdentifierPart c = false) :
    c ∉ n.token.toList := by
  intro mem
  have part := (forall_isIdentifierPart n.valid).2 c mem
  rw [h] at part
  cases part

namespace Name

/-- Two names are structurally equal. -/
def Same (m n : Name) : Prop :=
  m.outline.same n.outline = true

@[simp] theorem words_simple (n : SimpleName) : (simple n).words = [n.token] := rfl

@[simp] theorem words_qualified (h : Handle) (q : Name) (n : SimpleName) :
    (qualified h q n).words = q.words ++ [n.token] := by
  simp [words]

theorem words_ne_nil (n : Name) : n.words ≠ [] := by
  cases n <;> simp

/-- A qualified name has more than one word. -/
theorem words_append_singleton_ne (n : Name) (v w : String) : n.words ++ [v] ≠ [w] := by
  intro single
  have empty : n.words = [] := by
    rw [← List.nil_append [w]] at single
    exact (List.append_singleton_inj.mp single).1
  exact n.words_ne_nil empty

@[simp] theorem words_append (n : Name) (segments : List SimpleName) :
    (n.append segments).words = n.words ++ segments.map SimpleName.token := by
  simp [words, segments_append]

theorem getLast?_words (n : Name) : n.words.getLast? = some n.last.token := by
  cases n <;> simp [last]

/-- Names are structurally equal if they have the same words. -/
theorem same_iff_words_eq {m n : Name} : m.Same n ↔ m.words = n.words := by
  induction m generalizing n with
  | simple a =>
    cases n with
    | simple b => simp [Same, outline, SimpleName.outline, Outline.same, Outline.sameEach]
    | qualified h q b =>
      have longer := (q.words_append_singleton_ne b.token a.token).symm
      simp [Same, outline, SimpleName.outline, Outline.same, longer]
  | qualified h q a ih =>
    cases n with
    | simple b =>
      have longer := q.words_append_singleton_ne a.token b.token
      simp [Same, outline, SimpleName.outline, Outline.same, longer]
    | qualified h' q' b =>
      have qualifiers := ih (n := q')
      simp only [Same] at qualifiers
      simp [Same, outline, SimpleName.outline, Outline.same, Outline.sameEach, qualifiers]

theorem last_token_eq_of_words_eq {m n : Name} (h : m.words = n.words) :
    m.last.token = n.last.token := by
  have ends := m.getLast?_words
  rw [h, n.getLast?_words] at ends
  exact (Option.some.inj ends).symm

end Name

end JavaSource
