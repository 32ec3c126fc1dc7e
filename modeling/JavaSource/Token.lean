import JavaSource.Kind
import JavaSource.Operator

/-!
# Tokens

A tree is written in two steps: first as a list of tokens, then the tokens are laid out as text.
Words, marks and operators carry spelling; the other tokens only steer the layout. The token
`rejected` stands for an assignment whose operator has no spelling; a list that holds one has no
text.

`Emitted` is the list of tokens of one node together with the kind of the node, which decides how
the node is set among its neighbours.
-/

namespace JavaSource

/-- A punctuation mark, written next to its neighbours. -/
inductive Mark where
  | openParen | closeParen | openBracket | closeBracket | openBrace | closeBrace | openAngle
  | closeAngle | dot | semicolon | colon | comma | atSign | hash | star | ellipsis | increment
  | decrement
  deriving DecidableEq

namespace Mark

/-- The mark as it is written. -/
def spelling : Mark → String
  | .openParen => "("
  | .closeParen => ")"
  | .openBracket => "["
  | .closeBracket => "]"
  | .openBrace => "\x7b"
  | .closeBrace => "\x7d"
  | .openAngle => "<"
  | .closeAngle => ">"
  | .dot => "."
  | .semicolon => ";"
  | .colon => ":"
  | .comma => ","
  | .atSign => "@"
  | .hash => "#"
  | .star => "*"
  | .ellipsis => "..."
  | .increment => "++"
  | .decrement => "--"

/-- Whether a following word is set off from the mark. -/
def isClosing : Mark → Bool
  | .closeParen | .closeBracket | .closeAngle => true
  | _ => false

end Mark

/-- The mark of an operator behind its operand. -/
def PostfixOperator.mark : PostfixOperator → Mark
  | .increment => .increment
  | .decrement => .decrement

/-- A unit of a written tree. -/
inductive Token where
  /-- An identifier, a keyword or a literal. Adjacent words are set apart. -/
  | word (text : String)
  /-- A punctuation mark. -/
  | mark (mark : Mark)
  /-- An operator in front of its operand, set apart from what it would merge with. -/
  | sign (operator : UnaryOperator)
  /-- An operator with a space on either side. -/
  | operator (symbol : String)
  /-- A comma with a space behind it. -/
  | comma
  /-- A space, unless the line is empty or ends with one. -/
  | space
  /-- The end of the line. -/
  | newline
  /-- One level of indentation more. -/
  | indent
  /-- One level of indentation less. -/
  | dedent
  /-- Text written as it is. -/
  | raw (text : String)
  /-- The next word follows directly. -/
  | join
  /-- An assignment that cannot be written. -/
  | rejected (operator : InfixOperator)
  deriving DecidableEq

/-- The tokens of a node, with its kind. -/
structure Emitted where
  /-- The kind of the node. -/
  kind : Kind
  /-- The tokens of the node. -/
  tokens : List Token
  deriving DecidableEq

/-! ### Groups of tokens -/

/-- The tokens of several nodes, one after the other. -/
def joined (es : List Emitted) : List Token :=
  es.flatMap Emitted.tokens

/-- Lists of tokens with commas between them. -/
def commaSeparated (parts : List (List Token)) : List Token :=
  [Token.comma].intercalate parts

/-- The tokens of several nodes, with commas between them. -/
def separated (es : List Emitted) : List Token :=
  commaSeparated (es.map Emitted.tokens)

/-- Tokens in parentheses. -/
def parenthesized (ts : List Token) : List Token :=
  .mark .openParen :: ts ++ [Token.mark .closeParen]

/-- Tokens in brackets. -/
def bracketed (ts : List Token) : List Token :=
  .mark .openBracket :: ts ++ [Token.mark .closeBracket]

/-- Tokens in braces, on one line. -/
def braced (ts : List Token) : List Token :=
  .mark .openBrace :: ts ++ [Token.mark .closeBrace]

/-- Lists of tokens in angle brackets, with commas between them; nothing if there are none. -/
def angled : List (List Token) → List Token
  | [] => []
  | parts => .mark .openAngle :: commaSeparated parts ++ [.mark .closeAngle]

/-- Lines in braces, one level further in. -/
def indentedBraces (ts : List Token) : List Token :=
  [Token.mark .openBrace, .newline, .indent] ++ ts ++ [Token.dedent, .mark .closeBrace]

/-- Empty pairs of brackets. -/
def emptyBrackets : Nat → List Token
  | 0 => []
  | n + 1 => .mark .openBracket :: .mark .closeBracket :: emptyBrackets n

/-- Tokens of strength `own` where strength `demanded` is needed: parenthesized if too loose. -/
def wrapped (own demanded : Precedence) (ts : List Token) : List Token :=
  if own.rank < demanded.rank then parenthesized ts else ts

/-- A keyword and lists of tokens with commas between them; nothing if there are none. -/
def clause (keyword : String) : List (List Token) → List Token
  | [] => []
  | parts => .word keyword :: commaSeparated parts

end JavaSource
