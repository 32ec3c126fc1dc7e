import JavaSource.Proofs.Node.Fields

/-!
# Changes that show in the digest

The digest folds in its parts by `h ↦ h * 31 + d`. Since 31 is odd it can be undone modulo `2 ^ 64`,
in `h` as well as in `d`, so no step forgets a difference. Where two trees differ in one place only,
their digests therefore differ exactly if the digests of what stands in that place do
(`Node.digest_eq_iff_of_fill`).

A tree with one place left open is a list of `Frame`s, from the inside out: each of them is a node
that is still to be assembled, with a hole in one of its fields.
-/

namespace JavaSource

/-! ### Folding in a part -/

namespace Outline

/-- The inverse of 31 modulo `2 ^ 64`. -/
private def inverse : UInt64 := 0xef7bdef7bdef7bdf

/-- What was folded in last can be undone. -/
theorem combine_left_inj {h h' d : UInt64} : combine h d = combine h' d ↔ h = h' := by
  refine ⟨fun same => ?_, fun same => by rw [same]⟩
  have multiples : h * 31 = h' * 31 := (UInt64.add_left_inj d).mp same
  have undo : ∀ x : UInt64, x * 31 * inverse = x := by
    intro x
    have unit : (31 : UInt64) * inverse = 1 := by decide
    rw [UInt64.mul_assoc, unit, UInt64.mul_one]
  rw [← undo h, multiples, undo]

theorem combine_right_inj {h d d' : UInt64} : combine h d = combine h d' ↔ d = d' :=
  UInt64.add_right_inj (h * 31)

/-- Folding in the same parts keeps two digests apart. -/
theorem digestFrom_inj (os : List Outline) {h h' : UInt64} :
    digestFrom h os = digestFrom h' os ↔ h = h' := by
  induction os generalizing h h' with
  | nil => rfl
  | cons o os ih => rw [digestFrom, digestFrom, ih, combine_left_inj]

theorem digestFrom_append (h : UInt64) (os ps : List Outline) :
    digestFrom h (os ++ ps) = digestFrom (digestFrom h os) ps := by
  induction os generalizing h with
  | nil => rfl
  | cons o os ih => rw [List.cons_append, digestFrom, digestFrom, ih]

/-- Among equal parts, one that differs shows in the digest. -/
theorem digestFrom_part_inj (h : UInt64) (front back : List Outline) {o o' : Outline} :
    digestFrom h (front ++ o :: back) = digestFrom h (front ++ o' :: back) ↔
      o.digest = o'.digest := by
  rw [digestFrom_append, digestFrom_append, digestFrom, digestFrom, digestFrom_inj,
    combine_right_inj]

end Outline

/-! ### Trees with a hole -/

/-- Where a field has its hole: the whole field is open, or a place in its list is. -/
inductive Hole where
  | whole
  | element (before after : List Node)

namespace Hole

/-- The field with a node in its hole. -/
def fill : Hole → Node → Field
  | .whole, n => .node n
  | .element before after, n => .nodes (before ++ n :: after)

/-- Whatever the slot of the field is, nodes in the hole show in it. -/
theorem digest_eq_iff (hole : Hole) {position : String → Nat} {s : Slot} {x y : Node}
    {o o' : Outline} (shown : (hole.fill x).Shows position s o)
    (shown' : (hole.fill y).Shows position s o') : o.digest = o'.digest ↔ x.digest = y.digest := by
  cases hole with
  | whole => cases shown <;> cases shown' <;> rfl
  | element before after =>
    cases shown
    cases shown'
    rw [List.map_append, List.map_append, Outline.digest, Outline.digest]
    exact Outline.digestFrom_part_inj 1 _ _

end Hole

/-- A node with a hole in one of its fields. -/
structure Frame where
  /-- The kind of the node. -/
  kind : Kind
  /-- The node's handle. -/
  handle : Handle
  /-- The fields in front. -/
  before : List Field
  /-- Where the open field has its hole. -/
  hole : Hole
  /-- The fields behind. -/
  after : List Field

namespace Frame

/-- The node with another one in its hole. -/
def fill (f : Frame) (n : Node) : Except AssemblyError Node :=
  Node.assemble f.kind f.handle (f.before ++ f.hole.fill n :: f.after)

/-- A node in the hole shows in the digest around it. -/
theorem digest_eq_iff (f : Frame) {x y m n : Node} (hx : f.fill x = .ok m)
    (hy : f.fill y = .ok n) : m.digest = n.digest ↔ x.digest = y.digest := by
  obtain ⟨os, shown, outline⟩ := Node.showsEach_of_assemble hx
  obtain ⟨os', shown', outline'⟩ := Node.showsEach_of_assemble hy
  obtain ⟨s, front, o, o', back, rfl, rfl, one, one'⟩ := shown.exists_differ shown'
  rw [Node.digest, Node.digest, outline, outline', Outline.digest, Outline.digest,
    Outline.digestFrom_part_inj, f.hole.digest_eq_iff one one']

end Frame

namespace Node

/-- The node in the hole of the innermost frame, with all frames assembled around it. -/
def fill (frames : List Frame) (n : Node) : Except AssemblyError Node :=
  frames.foldlM (fun n f => f.fill n) n

/-- With frames around it, a node is first put in the hole of the innermost one. -/
theorem exists_fill_of_cons {f : Frame} {frames : List Frame} {x m : Node}
    (h : fill (f :: frames) x = .ok m) : ∃ x', f.fill x = .ok x' ∧ fill frames x' = .ok m := by
  rw [fill, List.foldlM_cons] at h
  cases step : f.fill x with
  | error e =>
    rw [step] at h
    cases h
  | ok x' =>
    rw [step] at h
    exact ⟨x', rfl, h⟩

/-- **A change in one place shows in the digest of the whole**: with two nodes that fit, the digests
of the trees around them are equal exactly if the digests of the two nodes are. -/
theorem digest_eq_iff_of_fill (frames : List Frame) {x y m n : Node} (hx : fill frames x = .ok m)
    (hy : fill frames y = .ok n) : m.digest = n.digest ↔ x.digest = y.digest := by
  induction frames generalizing x y with
  | nil =>
    cases hx
    cases hy
    rfl
  | cons f frames ih =>
    obtain ⟨x', around, outside⟩ := exists_fill_of_cons hx
    obtain ⟨y', around', outside'⟩ := exists_fill_of_cons hy
    exact (ih outside outside').trans (f.digest_eq_iff around around')

/-- A value that is returned in the last block of a `try` statement, with other statements around
it. -/
theorem digest_eq_iff_of_fill_finally :
    let empty : Node := .tree (.emptyStatement none)
    let frames : List Frame :=
      [⟨.returnStatement, some 0, [], .whole, []⟩,
        ⟨.block, none, [], .element [empty] [empty, empty], []⟩,
        ⟨.tryStatement, none, [.node (.tree (.block none .nil)), .nodes []], .whole, []⟩]
    ∃ m n, fill frames (.tree (.thisReference none none)) = .ok m ∧
      fill frames (.tree (.superReference none none)) = .ok n ∧ m.digest ≠ n.digest := by
  intro empty frames
  refine ⟨_, _, rfl, rfl, ?_⟩
  rw [Ne, digest_eq_iff_of_fill frames (x := .tree (.thisReference none none))
    (y := .tree (.superReference none none)) rfl rfl]
  decide

end Node

end JavaSource
