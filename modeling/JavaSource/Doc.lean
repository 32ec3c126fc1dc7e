import JavaSource.Ty

/-!
# Documentation

A documentation comment is a list of blocks. A block has a tag, which is empty for the synopsis, and
elements: running text, names, types, references to fields and methods, and nested blocks, which are
written in braces inside the text.
-/

namespace JavaSource

/-- A parameter of a method that documentation refers to. -/
structure DocParameter where
  /-- The node's handle. -/
  handle : Handle
  /-- The type of the parameter. -/
  type : Ty
  /-- The name of the parameter, which may be left out. -/
  name : Option SimpleName
  /-- Whether the parameter takes any number of arguments. -/
  variableArity : Bool

/-- A piece of documentation. -/
inductive DocElement where
  /-- A nested block, written in braces. -/
  | block (handle : Handle) (tag : String) (elements : List DocElement)
  /-- A reference to a field, with the type it belongs to. -/
  | field (handle : Handle) (type : Option Ty) (name : SimpleName)
  /-- A reference to a method, with the type it belongs to. -/
  | method (handle : Handle) (type : Option Ty) (name : SimpleName) (parameters : List DocParameter)
  /-- Running text, possibly of several lines. -/
  | text (handle : Handle) (string : String)
  /-- A name. -/
  | name (name : Name)
  /-- A type. -/
  | type (type : Ty)

/-- Structural induction on pieces of documentation. -/
@[elab_as_elim, induction_eliminator]
theorem DocElement.induction_on {motive : DocElement → Prop}
    (block : ∀ h tag es, (∀ e ∈ es, motive e) → motive (.block h tag es))
    (field : ∀ h t n, motive (.field h t n))
    (method : ∀ h t n ps, motive (.method h t n ps))
    (text : ∀ h s, motive (.text h s))
    (name : ∀ n, motive (.name n))
    (type : ∀ t, motive (.type t)) : ∀ e, motive e
  | .block h tag es =>
    block h tag es fun e _ => induction_on block field method text name type e
  | .field h t n => field h t n
  | .method h t n ps => method h t n ps
  | .text h s => text h s
  | .name n => name n
  | .type t => type t

/-- A block of a documentation comment. -/
structure DocBlock where
  /-- The node's handle. -/
  handle : Handle
  /-- The tag, empty for the synopsis. -/
  tag : String
  /-- What the block says. -/
  elements : List DocElement

/-- A block nested in the text of another one. -/
def DocBlock.toElement (b : DocBlock) : DocElement :=
  .block b.handle b.tag b.elements

/-- A documentation comment. -/
structure Javadoc where
  /-- The node's handle. -/
  handle : Handle
  /-- The blocks, the synopsis first. -/
  blocks : List DocBlock

/-- A comment of a compilation unit. -/
inductive Comment where
  /-- A comment between `/*` and `*/`. -/
  | block (handle : Handle) (string : String)
  /-- A comment that ends with its line. -/
  | line (handle : Handle) (string : String)
  /-- A documentation comment. -/
  | javadoc (javadoc : Javadoc)

end JavaSource
