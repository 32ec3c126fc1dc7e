import JavaSource.Proofs.Outline.Erasure
import JavaSource.Token

/-!
# The grammar of expressions

A text of an expression is a list of spellings: what its tokens spell, without the tokens that only
steer the layout (`spellings`). `Grammar.Derives n ts o` is the grammar of such lists for the
expressions of a program without type arguments: `ts` is the expression `o` in a place that demands
the binding strength `n`. Parentheses leave no trace in `o`.

* A strength is a rank of `Precedence`. One more rank stands above all of them: what is indexed must
  be a primary expression, but not the creation of an array, whose brackets would go on.
* An infix operator takes an operand of its own strength on the left and a tighter one on the right,
  a conditional or an assignment nests on the right.
* A cast to a named type does not stand in front of a sign: `(a) - b` is a difference.
-/

namespace JavaSource

/-! ### Spellings -/

/-- What a token spells. Tokens that only steer the layout spell nothing. -/
def Token.spelling? : Token → Option String
  | .word text => some text
  | .mark m => some m.spelling
  | .sign op => some op.symbol
  | .operator symbol => some symbol
  | .comma => some ","
  | .raw text => some text
  | .space | .newline | .indent | .dedent | .join | .rejected _ => none

/-- What several tokens spell. -/
def spellings (ts : List Token) : List String :=
  ts.filterMap Token.spelling?

/-! ### Words -/

/-- The words of the language that are no names: keywords and the literals that look like names. -/
def reservedWords : List String :=
  ["abstract", "assert", "boolean", "break", "byte", "case", "catch", "char", "class", "const",
   "continue", "default", "do", "double", "else", "enum", "extends", "final", "finally", "float",
   "for", "goto", "if", "implements", "import", "instanceof", "int", "interface", "long", "native",
   "new", "package", "private", "protected", "public", "return", "short", "static", "strictfp",
   "super", "switch", "synchronized", "this", "throw", "throws", "transient", "try", "void",
   "volatile", "while", "true", "false", "null"]

/-- Whether a word can be used as a name. -/
def isNameWord (w : String) : Bool :=
  isIdentifier w && !reservedWords.contains w

/-- Whether a list of characters starts as a literal does: with a digit, a quote, or a minus sign in
front of a digit. -/
def startsLiteral : List Char → Bool
  | '-' :: c :: _ => c.isDigit
  | c :: _ => c.isDigit || c == '"' || c == '\x27'
  | [] => false

/-- Whether a word can be used as a literal. -/
def isLiteralWord (w : String) : Bool :=
  ["true", "false", "null"].contains w || startsLiteral w.toList

namespace Grammar

/-! ### Expressions as outlines -/

/-- A name. -/
def name (w : String) : Outline :=
  .node .simpleName none [.text w]

/-- A literal. -/
def literal (w : String) : Outline :=
  .node .literal none [.text w]

/-- The current object. -/
def this : Outline :=
  .node .thisReference none [.absent]

/-- A basic type. -/
def basicType (k : BasicTypeKind) : Outline :=
  .node .basicType none [.ofChoice k]

/-- A type given by a simple name. -/
def namedType (w : String) : Outline :=
  .node .namedType none [name w]

/-- A basic type with a number of dimensions. -/
def arrayType (k : BasicTypeKind) : Nat → Outline
  | 0 => basicType k
  | n + 1 => .node .arrayType none [arrayType k n]

/-- Written `l op r`. -/
def infixed (l : Outline) (op : InfixOperator) (r : Outline) : Outline :=
  .node .infixExpression none [l, .ofChoice op, r]

/-- Written `op o`. -/
def signed (op : UnaryOperator) (o : Outline) : Outline :=
  .node .unaryExpression none [.ofChoice op, o]

/-- Written `o op`. -/
def stepped (o : Outline) (op : PostfixOperator) : Outline :=
  .node .postfixExpression none [o, .ofChoice op]

/-- Written `c ? y : n`. -/
def conditional (c y n : Outline) : Outline :=
  .node .conditionalExpression none [c, y, n]

/-- Written `l op= r`. -/
def assignment (l : Outline) (op : InfixOperator) (r : Outline) : Outline :=
  .node .assignmentExpression none [l, .ofChoice op, r]

/-- Written `o instanceof t`. -/
def tested (o t : Outline) : Outline :=
  .node .instanceofExpression none [o, t]

/-- Written `(t) o`. -/
def cast (t o : Outline) : Outline :=
  .node .castExpression none [t, o]

/-- Written `q.w`. -/
def field (q : Outline) (w : String) : Outline :=
  .node .fieldAccessExpression none [q, name w]

/-- Written `a[i]`. -/
def indexed (a i : Outline) : Outline :=
  .node .arrayAccessExpression none [a, i]

/-- Written `q.w(…)`, or `w(…)` if `q` is missing. -/
def call (q : Outline) (w : String) (arguments : List Outline) : Outline :=
  .node .methodInvocationExpression none [q, .list [], name w, .list arguments]

/-- Written `new k[…]…[]…`. -/
def creation (k : BasicTypeKind) (sizes : List Outline) (empty : Nat) : Outline :=
  .node .arrayCreationExpression none [arrayType k (sizes.length + empty), .list sizes, .absent]

/-! ### Derivations -/

/-- The signs that can be read as a sum, a difference or a step of what comes before them. -/
def signs : List String :=
  ["+", "-", "++", "--"]

/-- Several lists of spellings in brackets each. -/
def brackets (parts : List (List String)) : List String :=
  parts.flatMap fun ts => "[" :: ts ++ ["]"]

/-- The strength that is demanded of what is indexed. -/
def indexedRank : Nat :=
  Precedence.primary.rank + 1

/-- The spellings `ts` are the expression `o` where the strength `n` is demanded. -/
inductive Derives : Nat → List String → Outline → Prop where
  | name {n : Nat} {w : String} (word : isNameWord w = true) : Derives n [w] (name w)
  | literal {n : Nat} {w : String} (word : isLiteralWord w = true) : Derives n [w] (literal w)
  | this {n : Nat} : Derives n ["this"] this
  | parenthesized {n : Nat} {ts : List String} {o : Outline} (inner : Derives 0 ts o) :
      Derives n ("(" :: ts ++ [")"]) o
  | infixed {n : Nat} {op : InfixOperator} {l r : List String} {lo ro : Outline}
      (proper : op ≠ .assign) (strong : n ≤ op.precedence.rank)
      (left : Derives op.precedence.rank l lo) (right : Derives (op.precedence.rank + 1) r ro) :
      Derives n (l ++ op.symbol :: r) (infixed lo op ro)
  | signed {n : Nat} {op : UnaryOperator} {ts : List String} {o : Outline}
      (strong : n ≤ Precedence.unary.rank) (operand : Derives Precedence.unary.rank ts o) :
      Derives n (op.symbol :: ts) (signed op o)
  | stepped {n : Nat} {op : PostfixOperator} {ts : List String} {o : Outline}
      (strong : n ≤ Precedence.suffix.rank) (operand : Derives Precedence.suffix.rank ts o) :
      Derives n (ts ++ [op.symbol]) (stepped o op)
  | conditional {n : Nat} {c y z : List String} {co yo zo : Outline}
      (strong : n ≤ Precedence.conditional.rank)
      (condition : Derives Precedence.conditionalOr.rank c co) (yes : Derives 0 y yo)
      (no : Derives Precedence.conditional.rank z zo) :
      Derives n (c ++ "?" :: y ++ ":" :: z) (conditional co yo zo)
  | assignment {n : Nat} {op : InfixOperator} {symbol : String} {l r : List String}
      {lo ro : Outline} (spelled : op.assignmentSymbol = some symbol)
      (strong : n ≤ Precedence.assignment.rank) (left : Derives Precedence.primary.rank l lo)
      (right : Derives Precedence.assignment.rank r ro) :
      Derives n (l ++ symbol :: r) (assignment lo op ro)
  | testedBasic {n : Nat} {k : BasicTypeKind} {ts : List String} {o : Outline}
      (strong : n ≤ Precedence.relational.rank)
      (operand : Derives Precedence.relational.rank ts o) :
      Derives n (ts ++ ["instanceof", k.keyword]) (tested o (basicType k))
  | testedNamed {n : Nat} {w : String} {ts : List String} {o : Outline}
      (word : isNameWord w = true) (strong : n ≤ Precedence.relational.rank)
      (operand : Derives Precedence.relational.rank ts o) :
      Derives n (ts ++ ["instanceof", w]) (tested o (namedType w))
  | castBasic {n : Nat} {k : BasicTypeKind} {ts : List String} {o : Outline}
      (strong : n ≤ Precedence.unary.rank) (operand : Derives Precedence.unary.rank ts o) :
      Derives n ("(" :: k.keyword :: ")" :: ts) (cast (basicType k) o)
  | castNamed {n : Nat} {w : String} {ts : List String} {o : Outline}
      (word : isNameWord w = true) (strong : n ≤ Precedence.unary.rank)
      (operand : Derives Precedence.unary.rank ts o) (unsigned : ∀ t ∈ ts.head?, t ∉ signs) :
      Derives n ("(" :: w :: ")" :: ts) (cast (namedType w) o)
  | field {n : Nat} {w : String} {ts : List String} {o : Outline} (word : isNameWord w = true)
      (qualifier : Derives Precedence.primary.rank ts o) : Derives n (ts ++ [".", w]) (field o w)
  | indexed {n : Nat} {a i : List String} {ao io : Outline} (array : Derives indexedRank a ao)
      (index : Derives 0 i io) : Derives n (a ++ "[" :: i ++ ["]"]) (indexed ao io)
  | call {n : Nat} {w : String} {arguments : List (List String × Outline)}
      (word : isNameWord w = true) (each : ∀ a ∈ arguments, Derives 0 a.1 a.2) :
      Derives n (w :: "(" :: [","].intercalate (arguments.map Prod.fst) ++ [")"])
        (call .absent w (arguments.map Prod.snd))
  | callOn {n : Nat} {w : String} {q : List String} {qo : Outline}
      {arguments : List (List String × Outline)} (word : isNameWord w = true)
      (qualifier : Derives Precedence.primary.rank q qo)
      (each : ∀ a ∈ arguments, Derives 0 a.1 a.2) :
      Derives n (q ++ "." :: w :: "(" :: [","].intercalate (arguments.map Prod.fst) ++ [")"])
        (call qo w (arguments.map Prod.snd))
  | creation {n : Nat} {k : BasicTypeKind} {sizes : List (List String × Outline)} {empty : Nat}
      (strong : n ≤ Precedence.primary.rank) (each : ∀ a ∈ sizes, Derives 0 a.1 a.2) :
      Derives n
        ("new" :: k.keyword :: brackets (sizes.map Prod.fst) ++
          brackets (List.replicate empty []))
        (creation k (sizes.map Prod.snd) empty)

end Grammar

end JavaSource
