import JavaSource.Node.Schema
import JavaSource.Outline

/-!
# Structural comparison

Two trees are the same if they have the same kinds and the same scalars in the same places; handles
and what is attached to them do not count. `Outline.same` says so for any two trees.

`Outline.tryEqual` compares two nodes by walking over the fields that their kind declares. It takes
two shortcuts: it answers at once where the two nodes are one and the same in memory, which is for
the test `identical` to say, and where they are in different arms of a place. Only a node that
stands where its kind is not admitted makes it fail.
-/

namespace JavaSource

namespace Outline

mutual

/-- Whether two trees are the same up to handles. -/
def same : Outline → Outline → Bool
  | .node k _ fs, .node k' _ fs' => k == k' && sameEach fs fs'
  | .text s, .text s' => s == s'
  | .flag b, .flag b' => b == b'
  | .count n, .count n' => n == n'
  | .choice i s, .choice i' s' => i == i' && s == s'
  | .absent, .absent => true
  | .list os, .list os' => sameEach os os'
  | _, _ => false

/-- Whether two lists of trees are the same up to handles. -/
def sameEach : List Outline → List Outline → Bool
  | [], [] => true
  | o :: os, o' :: os' => same o o' && sameEach os os'
  | _, _ => false

end

end Outline

/-- Two nodes that are to be compared are of different kinds. -/
structure KindMismatch where
  /-- The kind of the first node. -/
  expected : Kind
  /-- The kind of the second node. -/
  found : Kind
  deriving DecidableEq

/-- The report of a mismatch. -/
def KindMismatch.message (e : KindMismatch) : String :=
  "matcher: branch for " ++ e.expected.name ++ " reached with a " ++ e.found.name ++ " context"

namespace Outline

/-- Whether two nodes have one handle, as the occurrences of a shared node do. -/
def sharesHandle (l r : Outline) : Bool :=
  l.handle.isSome && l.handle == r.handle

/-- The comparison of two nodes of one kind; fails if the kinds differ. -/
def counterpart (k k' : Kind) (compare : Except KindMismatch Bool) : Except KindMismatch Bool :=
  if k = k' then compare else .error ⟨k, k'⟩

section

variable (identical : Outline → Outline → Bool)

mutual

/-- Compares the contents of a field. -/
def matchField : Slot → Outline → Outline → Except KindMismatch Bool
  | .one p, .node k h fs, .node k' h' fs' | .optional p, .node k h fs, .node k' h' fs' =>
    if p.arms k ≠ p.arms k' then .ok false
    else if identical (.node k h fs) (.node k' h' fs') then .ok true
    else counterpart k k' (matchEach k.slots fs fs')
  | .optional _, .absent, .absent => .ok true
  | .many p, .list os, .list os' =>
    if os.length ≠ os'.length then .ok false
    else matchEach (os.map fun _ => .one p) os os'
  | .text, .text s, .text s' => .ok (s == s')
  | .flag, .flag b, .flag b' => .ok (b == b')
  | .number, .count n, .count n' => .ok (n == n')
  | .choice, .choice i s, .choice i' s' => .ok (i == i' && s == s')
  | _, _, _ => .ok false

/-- Compares the contents of several fields until two of them differ. -/
def matchEach : List Slot → List Outline → List Outline → Except KindMismatch Bool
  | s :: ss, o :: os, o' :: os' => do
    if ← matchField s o o' then matchEach ss os os' else return false
  | _, _, _ => .ok true

end

/-- Compares two nodes of one kind; fails if the kinds differ. -/
def matchWith : Outline → Outline → Except KindMismatch Bool
  | .node k _ fs, .node k' _ fs' => counterpart k k' (matchEach identical k.slots fs fs')
  | _, _ => .ok false

/-- Compares two nodes of any kinds. -/
def tryEqual (l r : Outline) : Except KindMismatch Bool :=
  if identical l r then .ok true
  else if l.kind? ≠ r.kind? then .ok false
  else l.matchWith identical r

/-- Whether two nodes are the same; a failed comparison counts as a difference. -/
def equal (l r : Outline) : Bool :=
  match l.tryEqual identical r with
  | .ok answer => answer
  | .error _ => false

end

end Outline

end JavaSource
