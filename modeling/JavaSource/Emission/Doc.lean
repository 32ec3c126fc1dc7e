import JavaSource.Doc
import JavaSource.Emission.Type
import JavaSource.Text.Split

/-!
# Tokens of comments and documentation

Every block of a documentation comment starts on a line of its own behind ` * `, and running text
continues behind ` * ` after each of its line feeds. A block nested in text stands in braces.
-/

namespace JavaSource

/-- The tokens of running text: one line for each part between line feeds. -/
def docText (s : String) : List Token :=
  match Text.split '\n' s with
  | [] => []
  | first :: rest =>
    .raw first :: rest.flatMap fun line => [.newline, .raw " * ", .raw line]

/-- A documentation comment of which the tokens of each block are given. -/
def docComment (blocks : List (List Token)) : List Token :=
  [Token.raw "/**", .newline] ++ blocks.flatMap (fun b => .raw " * " :: b ++ [Token.newline]) ++
    [Token.raw " */"]

/-- The tokens of a documented method's parameter. -/
def DocParameter.emit (x : EmitContext) (p : DocParameter) : List Token :=
  x.attached p.handle .inline ++ p.type.emit x ++
    (if p.variableArity then [Token.mark .ellipsis] else []) ++
    match p.name with
    | none => []
    | some n => Token.space :: n.emit x

/-- The tokens of a type that may be missing. -/
def emitOptional (x : EmitContext) : Option Ty → List Token
  | none => []
  | some t => t.emit x

namespace DocElement

mutual

/-- The tokens of an element inside a block: text continues the line, everything else is set off
from it. Nothing attached to a text is written. -/
def emitInside (x : EmitContext) : DocElement → List Token
  | .text _ s => docText s
  | .block h tag es =>
    .space :: x.attached h .inline ++ [.raw "\x7b", .raw tag] ++ emitAll x es ++ [.raw "\x7d"]
  | .field h t n =>
    .space :: x.attached h .inline ++ emitOptional x t ++ .mark .hash :: n.emit x
  | .method h t n ps =>
    .space :: x.attached h .inline ++ emitOptional x t ++ .mark .hash :: n.emit x ++
      parenthesized (commaSeparated (ps.map (DocParameter.emit x)))
  | .name n => .space :: n.emit x
  | .type t => .space :: t.emit x

/-- The tokens of the elements of a block. -/
def emitAll (x : EmitContext) : List DocElement → List Token
  | [] => []
  | e :: es => emitInside x e ++ emitAll x es

end

end DocElement

/-- The tokens of a block at the start of a line. -/
def DocBlock.emit (x : EmitContext) (b : DocBlock) : List Token :=
  x.attached b.handle .inline ++ (if b.tag = "" then [] else [Token.raw b.tag]) ++
    DocElement.emitAll x b.elements

/-- The tokens of an element that stands alone. -/
def DocElement.emit (x : EmitContext) : DocElement → List Token
  | .text h s => x.attached h .inline ++ docText s
  | .block h tag es => (DocBlock.mk h tag es).emit x
  | .field h t n => x.attached h .inline ++ emitOptional x t ++ .mark .hash :: n.emit x
  | .method h t n ps =>
    x.attached h .inline ++ emitOptional x t ++ .mark .hash :: n.emit x ++
      parenthesized (commaSeparated (ps.map (DocParameter.emit x)))
  | .name n => n.emit x
  | .type t => t.emit x

/-- The tokens of a documentation comment. -/
def Javadoc.emit (x : EmitContext) (j : Javadoc) : List Token :=
  x.attached j.handle .inline ++ docComment (j.blocks.map (DocBlock.emit x))

/-- The tokens of a comment. -/
def Comment.emit (x : EmitContext) : Comment → List Token
  | .block h s => x.attached h .inline ++ [.raw ("/*" ++ s ++ "*/")]
  | .line h s => x.attached h .inline ++ [.raw ("//" ++ s)]
  | .javadoc j => j.emit x

/-- A documentation comment in front of a declaration. -/
def emitJavadoc (x : EmitContext) : Option Javadoc → List Token
  | none => []
  | some j => j.emit x ++ [.newline]

end JavaSource
