import JavaSource.Proofs.Emission.Agreement
import JavaSource.Proofs.Expression.CastOperand
import JavaSource.Tree.Checked

/-!
# Dimensions of arrays

An array type is written as its innermost component with one pair of brackets for each dimension,
and so is the type of a new array, where the first pairs hold the sizes. What is checked when an
array creation is built, the number of dimensions of the type and the brackets that are written
agree for any nesting of array types (`ArrayType.brackets_conserved`).
-/

namespace JavaSource

/-! ### Pairs of brackets -/

/-- Empty brackets are pairs of brackets that hold nothing. -/
theorem emptyBrackets_eq_flatMap (n : Nat) :
    emptyBrackets n = (List.replicate n []).flatMap bracketed := by
  induction n with
  | zero => rfl
  | succ n ih => rw [emptyBrackets, ih, List.replicate_succ, List.flatMap_cons]; rfl

/-- Behind empty pairs, one more pair is the same as in front of them. -/
theorem emptyBrackets_succ (n : Nat) :
    emptyBrackets (n + 1) = emptyBrackets n ++ emptyBrackets 1 := by
  rw [emptyBrackets_eq_flatMap, emptyBrackets_eq_flatMap, emptyBrackets_eq_flatMap,
    List.replicate_add, List.flatMap_append]

/-! ### Array types -/

/-- A type with nothing attached is its element with a pair of brackets for each dimension. -/
theorem Ty.emit_eq_append_emptyBrackets {notes : Notes} {t : Ty} (bare : notes.Bare t.outline)
    (blankLines : Bool) :
    t.emit (notes.context blankLines) =
      t.element.emit (notes.context blankLines) ++ emptyBrackets t.dimensions := by
  induction t with
  | array h c ih =>
    have own : (notes.find h).isEmpty = true := bare h (by simp [outline, Outline.handles])
    have component : notes.Bare c.outline := fun h' hh =>
      bare h' (by simp [outline, Outline.handles, hh])
    have none : (notes.context blankLines).attached h .inline = [] :=
      Notes.attached_of_isEmpty own _ _
    rw [emit, none, List.nil_append, ih component, List.append_assoc, ← emptyBrackets_succ]
    rfl
  | _ => exact (List.append_nil _).symm

/-! ### Array creations -/

namespace Tree

/-- The tokens of several expressions are those of each of them. -/
theorem map_tokens_emit_ofList (es : List Expression) (x : EmitContext) (p : Precedence) :
    ((ofList es).emit x p).map Emitted.tokens = es.map fun e => joined (e.emit x p) := by
  induction es with
  | nil => rfl
  | cons e es ih =>
    obtain ⟨w, single⟩ := exists_emit_expression x e p
    rw [ofList, emit, List.map_append, ih, List.map_cons, single]
    simp [joined]

theorem createArray_eq_ok_iff {h : Handle} {type : ArrayType} {sizes : List Expression}
    {values : Tree (.optional .arrayInitializer)} {e : Expression} :
    createArray h type sizes values = .ok e ↔
      sizes.length ≤ type.dimensions ∧
        e = .arrayCreationExpression h type (ofList sizes) values := by
  unfold createArray
  split
  · next less => simp [Nat.not_le.mpr less]
  · next enough => simp [Nat.not_lt.mp enough, eq_comm]

end Tree

/-- **Array dimensions are conserved.** An array type with nothing attached is written as its
element and an empty pair of brackets for each dimension. What is written behind `new` for an array
creation that can be built is the element of its type, a pair of brackets for each dimension, of
which the first ones hold the sizes in their order and the others nothing, and the initial values,
if there are any. -/
theorem ArrayType.brackets_conserved (type : ArrayType) :
    (∀ (notes : Notes) (blankLines : Bool), notes.Bare type.toTy.outline →
      type.toTy.emit (notes.context blankLines) =
        type.element.emit (notes.context blankLines) ++
          (List.replicate type.dimensions []).flatMap bracketed) ∧
    ∀ (h : Handle) (sizes : List Expression) (values : Option (Tree .arrayInitializer))
      (e : Expression), Tree.createArray h type sizes (Tree.ofOption values) = .ok e →
      ∃ empty, sizes.length + empty = type.dimensions ∧
        ∀ (x : EmitContext) (p : Precedence), joined (e.emit x p) =
          x.attached h .inline ++ .word "new" ::
            (type.element.emit x ++
              ((sizes.map fun s : Expression => joined (s.emit x .lowest)) ++
                List.replicate empty []).flatMap bracketed ++
              values.toList.flatMap fun v => .space :: joined (v.emit x .lowest)) := by
  constructor
  · intro notes blankLines bare
    rw [← emptyBrackets_eq_flatMap]
    exact Ty.emit_eq_append_emptyBrackets bare blankLines
  · intro h sizes values e built
    obtain ⟨enough, rfl⟩ := Tree.createArray_eq_ok_iff.mp built
    refine ⟨type.dimensions - sizes.length, by omega, fun x p => ?_⟩
    have initial : after .space ((Tree.ofOption values).emit x .lowest) =
        values.toList.flatMap fun v => .space :: joined (v.emit x .lowest) := by
      cases values with
      | none => rfl
      | some v =>
        cases v
        simp [Tree.ofOption, Tree.emit, after, joined]
    have given := Tree.map_tokens_emit_ofList sizes x .lowest
    have filled : (((Tree.ofList sizes).emit x .lowest).flatMap fun w => bracketed w.tokens) =
        (sizes.map fun s : Expression => joined (s.emit x .lowest)).flatMap bracketed := by
      rw [← given, List.flatMap_map]
    have length : ((Tree.ofList sizes).emit x .lowest).length = sizes.length := by
      simpa using congrArg List.length given
    rw [Tree.emit, wrapped_primary, filled, length, initial, emptyBrackets_eq_flatMap,
      List.flatMap_append]
    simp [joined]

/-- A type of three dimensions, and a new array with sizes for two of them. -/
theorem ArrayType.brackets_conserved_three :
    let type : ArrayType := ⟨none, .array none (.array none (.basic none .int))⟩
    let sizes : List Expression := [.literal none "2" (by decide), .literal none "3" (by decide)]
    let e : Expression := .arrayCreationExpression none type (Tree.ofList sizes) .absent
    Notes.Bare {} type.toTy.outline ∧
    type.toTy.emit (Notes.context {} true) =
      .word "int" :: ([[], [], []] : List (List Token)).flatMap bracketed ∧
    Tree.createArray none type sizes (Tree.ofOption none) = .ok e ∧
    joined (e.emit (Notes.context {} true) .primary) = [.word "new", .word "int"] ++
      [[.word "2"], [.word "3"], []].flatMap bracketed := by
  intro type sizes e
  have bare : Notes.Bare {} type.toTy.outline := by
    intro h mem
    revert h
    decide
  obtain ⟨types, creations⟩ := ArrayType.brackets_conserved type
  refine ⟨bare, types {} true bare, rfl, ?_⟩
  obtain ⟨empty, total, written⟩ := creations none sizes none e rfl
  obtain rfl : empty = 1 := Nat.add_left_cancel (n := 2) total
  exact written (Notes.context {} true) .primary

end JavaSource
