import JavaSource.Proofs.Node.Erasure
import JavaSource.Proofs.Outline.Comparison
import Mathlib.Logic.Relation

/-!
# Comparison and digest of nodes

The comparison of two nodes decides whether they are the same tree once the handles, and with them
all that is attached, are gone (`Node.tryEqual_decides`). The digest of a node does not depend on
its handles or on the category that the node is seen in, so it is consistent with the comparison
(`Node.digest_eq_of_equal`).
-/

namespace JavaSource

namespace Outline

/-- A digest folds in the digests of the parts, so it depends on nothing else. -/
theorem digestFrom_map_erased {os : List Outline} (h : ∀ o ∈ os, o.erased.digest = o.digest)
    (seed : UInt64) : digestFrom seed (os.map erased) = digestFrom seed os := by
  induction os generalizing seed with
  | nil => rfl
  | cons o os ih =>
    have tail := ih fun p hp => h p (List.mem_cons_of_mem o hp)
    rw [List.map_cons, digestFrom, digestFrom, h o List.mem_cons_self, tail]

/-- Handles take no part in a digest. -/
theorem digest_erased (o : Outline) : o.erased.digest = o.digest := by
  induction o using induction_on with
  | node k h fs ih =>
    rw [erased, erasedEach_eq_map, digest, digest, digestFrom_map_erased ih]
  | list os ih => rw [erased, erasedEach_eq_map, digest, digest, digestFrom_map_erased ih]
  | _ => rfl

end Outline

namespace Node

open Outline (FindsShared findsShared_never)

variable {identical : Outline → Outline → Bool} {l r : Node} {k k' : Kind}

/-! ### Comparison -/

theorem tryEqual_eq_ok_same (kind : l.kind? = some k) (kind' : r.kind? = some k')
    (shared : FindsShared identical l.outline r.outline) :
    l.tryEqual identical r = .ok (l.same r) := by
  obtain ⟨p, fit⟩ := exists_conforms_outline kind
  obtain ⟨q, fit'⟩ := exists_conforms_outline kind'
  exact Outline.tryEqual_eq_ok_same fit fit' shared

theorem equal_eq_same (kind : l.kind? = some k) (kind' : r.kind? = some k')
    (shared : FindsShared identical l.outline r.outline) : l.equal identical r = l.same r := by
  obtain ⟨p, fit⟩ := exists_conforms_outline kind
  obtain ⟨q, fit'⟩ := exists_conforms_outline kind'
  exact Outline.equal_eq_same fit fit' shared

/-- **Comparison decides equality without handles**, whatever nodes the two trees share: it never
fails, finding a shared node never changes the answer, and a comparison that does not look at the
kinds first fails exactly if they differ. -/
theorem tryEqual_decides (type : SameType l r) (kind : l.kind? = some k)
    (kind' : r.kind? = some k') (shared : FindsShared identical l.outline r.outline) :
    l.tryEqual identical r = .ok (l.equal identical r) ∧
      (l.equal identical r = true ↔ l.erased = r.erased) ∧
      l.tryEqual identical r = l.tryEqual (fun _ _ => false) r ∧
      l.matchWith identical r =
        if k = k' then .ok (l.equal identical r) else .error ⟨k, k'⟩ := by
  -- With and without shortcuts, the answer is that of `same`, which does not depend on handles.
  have never := findsShared_never l.outline r.outline
  obtain ⟨p, fit⟩ := exists_conforms_outline kind
  obtain ⟨q, fit'⟩ := exists_conforms_outline kind'
  rw [equal_eq_same kind kind' shared, tryEqual_eq_ok_same kind kind' shared,
    tryEqual_eq_ok_same kind kind' never]
  refine ⟨rfl, ?_, rfl, Outline.matchWith_eq fit fit' kind kind' shared⟩
  rw [same, Outline.same_iff_erased_eq, erased_eq_iff type kind]

/-- Two names that share the node of their qualifier and no other. -/
theorem tryEqual_decides_shared_qualifier :
    (Node.name (.qualified (some 0) (.simple ⟨some 1, "b", by decide⟩)
        ⟨none, "c", by decide⟩)).tryEqual Outline.sharesHandle
      (.name (.qualified none (.simple ⟨some 1, "b", by decide⟩) ⟨some 2, "c", by decide⟩)) =
        .ok true := by
  obtain ⟨answers, decides, -⟩ := tryEqual_decides
    (.name (.qualified (some 0) (.simple ⟨some 1, "b", by decide⟩) ⟨none, "c", by decide⟩)
      (.qualified none (.simple ⟨some 1, "b", by decide⟩) ⟨some 2, "c", by decide⟩)) rfl rfl
    (Outline.findsShared_sharesHandle (by
      simp [outline, Name.outline, SimpleName.outline, Outline.preorder, Outline.preorderEach,
        Outline.handle]))
  rw [answers, decides.mpr rfl]

/-! ### Digest -/

/-- The first node is the second one, seen as a member of a larger category. -/
inductive Wraps : Node → Node → Prop where
  | nameExpression (n : Name) : Wraps (.tree (.nameExpression n)) (.name n)
  | initializerExpression (t : Tree .arrayInitializer) :
      Wraps (.tree (.initializerExpression t)) (.tree t)
  | annotated (t : Tree .annotationUse) : Wraps (.tree (.annotated t)) (.tree t)
  | headerVariables (t : Tree .localVariables) : Wraps (.tree (.headerVariables t)) (.tree t)
  | headerExpressions (t : Tree .expressionList) : Wraps (.tree (.headerExpressions t)) (.tree t)
  | blockStatement (t : Tree .block) : Wraps (.tree (.blockStatement t)) (.tree t)
  | variablesStatement (t : Tree .localVariables) : Wraps (.tree (.variablesStatement t)) (.tree t)
  | classType (t : Tree .classDeclaration) : Wraps (.tree (.classType t)) (.tree t)
  | typeMember (t : Tree .typeDeclaration) : Wraps (.tree (.typeMember t)) (.tree t)
  | docName (n : Name) : Wraps (.docElement (.name n)) (.name n)
  | docType (t : Ty) : Wraps (.docElement (.type t)) (.type t)

variable {a b : Node}

theorem Wraps.outline_eq (h : Wraps a b) : a.outline = b.outline := by
  cases h <;> rfl

/-- Seeing a node as a member of larger and larger categories leaves its outline as it is. -/
theorem outline_eq_of_wraps (h : Relation.ReflTransGen Wraps a b) : a.outline = b.outline := by
  induction h with
  | refl => rfl
  | tail _ step ih => rw [ih, step.outline_eq]

/-- **The digest is consistent with the comparison**: nodes that are found equal have one digest.
A node keeps its digest where it is seen as a member of larger categories, however many. -/
theorem digest_eq_of_equal (kind : a.kind? = some k) (kind' : b.kind? = some k')
    (shared : FindsShared identical a.outline b.outline) :
    (a.equal identical b = true → a.digest = b.digest) ∧
      ∀ u, Relation.ReflTransGen Wraps u a → u.digest = a.digest := by
  refine ⟨fun found => ?_, fun u wraps => ?_⟩
  · rw [equal_eq_same kind kind' shared, same, Outline.same_iff_erased_eq] at found
    rw [digest, digest, ← Outline.digest_erased, found, Outline.digest_erased]
  · rw [digest, digest, outline_eq_of_wraps wraps]

/-- A class that is seen as a type and then as a member, and an equal class with other handles. -/
theorem digest_eq_of_equal_member :
    (Node.tree (.typeMember (.classType (.classDeclaration (some 0) none .nil
        ⟨none, "A", by decide⟩ [] none [] .nil)))).digest =
      (Node.tree (.classDeclaration none none .nil ⟨some 1, "A", by decide⟩ [] none []
        .nil)).digest := by
  obtain ⟨consistent, seen⟩ := digest_eq_of_equal
    (a := .tree (.classDeclaration (some 0) none .nil ⟨none, "A", by decide⟩ [] none [] .nil))
    (b := .tree (.classDeclaration none none .nil ⟨some 1, "A", by decide⟩ [] none [] .nil))
    rfl rfl (findsShared_never _ _)
  have member := seen _ (.head (.typeMember _) (.single (.classType _)))
  rw [member, consistent rfl]

end Node

end JavaSource
