import JavaSource.Node

/-!
# Operands

The simple names that are operands of infix expressions, from left to right. Only simple names,
literals and infix expressions are understood: at a node of any other kind the walk ends, and what
was found up to there is kept.
-/

namespace JavaSource

/-- The names found by a walk, and the kind of the node at which it ended, if it did. -/
structure Walk where
  /-- The names. -/
  names : List String := []
  /-- Where the walk ended. -/
  fault : Option UnsupportedKind := none

namespace Walk

/-- One walk after another, unless the first one ended too early. -/
def andThen (w v : Walk) : Walk :=
  match w.fault with
  | some _ => w
  | none => ⟨w.names ++ v.names, v.fault⟩

/-- The walk that ends at a node. -/
def endAt (o : Outline) : Walk :=
  ⟨[], o.kind?.map UnsupportedKind.mk⟩

/-- The walk through a name. -/
def ofName : Name → Walk
  | .simple n => ⟨[n.token], none⟩
  | n => endAt n.outline

end Walk

/-- The walk through a tree. -/
def Tree.operands : {c : Category} → Tree c → Walk
  | _, .nameExpression n => .ofName n
  | _, .literal .. => {}
  | _, .infixExpression _ l _ r => l.operands.andThen r.operands
  | _, t => .endAt t.outline

/-- The walk through a node. -/
def Node.operands : Node → Walk
  | .name n => .ofName n
  | .tree t => t.operands
  | n => .endAt n.outline

/-- The walks through several nodes, each together with the names found before it. -/
def Node.operandsEach (names : List String) : List Node → List Walk
  | [] => []
  | n :: ns =>
    let found := names ++ n.operands.names
    ⟨found, n.operands.fault⟩ :: operandsEach found ns

end JavaSource
