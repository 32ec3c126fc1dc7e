import JavaSource.Digest
import JavaSource.Emission.Note
import JavaSource.Emission.Unit
import JavaSource.Layout
import JavaSource.Matching

/-!
# Nodes of any kind

`Node` gathers the trees of all kinds. Everything that can be asked of any node is a function of it:
its kind, its text, its digest, and whether it is the same as another node.
-/

namespace JavaSource

/-- A node of any kind. -/
inductive Node where
  /-- A name. -/
  | name (name : Name)
  /-- A type. -/
  | type (type : Ty)
  /-- A parameter of a documented method. -/
  | docParameter (parameter : DocParameter)
  /-- A piece of documentation; a block here is a block of its own. -/
  | docElement (element : DocElement)
  /-- A comment. -/
  | comment (comment : Comment)
  /-- A type parameter. -/
  | typeParameter (parameter : TypeParameter)
  /-- A package declaration. -/
  | package (declaration : PackageDeclaration)
  /-- An import declaration. -/
  | importing (declaration : ImportDeclaration)
  /-- A compilation unit. -/
  | unit (unit : CompilationUnit)
  /-- Code. -/
  | tree {category : Category} (tree : Tree category)

namespace Node

/-- The outline of a node. -/
def outline : Node → Outline
  | .name n => n.outline
  | .type t => t.outline
  | .docParameter p => p.outline
  | .docElement e => e.outline
  | .comment c => c.outline
  | .typeParameter p => p.outline
  | .package p => p.outline
  | .importing i => i.outline
  | .unit u => u.outline
  | .tree t => t.outline

/-- The kind of a node. -/
def kind? (n : Node) : Option Kind :=
  n.outline.kind?

/-- The handle of a node. -/
def handle (n : Node) : Handle :=
  n.outline.handle

/-- The digest of a node. -/
def digest (n : Node) : UInt64 :=
  n.outline.digest

/-- Whether two nodes are the same up to handles. -/
def same (l r : Node) : Bool :=
  l.outline.same r.outline

section

variable (identical : Outline → Outline → Bool)

/-- Compares two nodes of one kind; fails if the kinds differ. -/
def matchWith (l r : Node) : Except KindMismatch Bool :=
  l.outline.matchWith identical r.outline

/-- Compares two nodes of any kinds. -/
def tryEqual (l r : Node) : Except KindMismatch Bool :=
  l.outline.tryEqual identical r.outline

/-- Whether two nodes are the same; a failed comparison counts as a difference. -/
def equal (l r : Node) : Bool :=
  l.outline.equal identical r.outline

end

/-- For each of several nodes, the position of the first one that is the same. -/
def firstSame (ns : List Node) : List Nat :=
  ns.map fun n => ns.findIdx n.same

/-- The tokens of a node. -/
def emit (x : EmitContext) : Node → List Token
  | .name n => n.emit x
  | .type t => t.emit x
  | .docParameter p => p.emit x
  | .docElement e => e.emit x
  | .comment c => c.emit x
  | .typeParameter p => p.emit x
  | .package p => p.emit x
  | .importing i => i.emit x
  | .unit u => u.emit x
  | .tree t => joined (t.emit x .lowest)

/-- The text of a node with its notes. -/
def render (notes : Notes) (o : Options) (n : Node) : Except EmitError String :=
  layout o (n.emit (notes.context o.blankLines))

end Node

end JavaSource
