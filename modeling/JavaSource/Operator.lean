import JavaSource.Enumeration

/-!
# Operators and how tightly they bind

`Precedence` is the scale of binding strengths, from the loosest context to a primary expression.
An infix operator has a symbol, a place on the scale and, for most operators, a compound form as an
assignment such as `+=`.

* `Precedence.tighter` is the next place on the scale; a primary expression is its own successor.
* `InfixOperator.assignmentSymbol` is `none` exactly for the comparisons and the two conditional
  connectives.
-/

namespace JavaSource

/-- A binding strength. -/
inductive Precedence where
  | lowest | assignment | conditional | conditionalOr | conditionalAnd | bitOr | bitXor | bitAnd
  | equality | relational | shift | additive | multiplicative | unary | suffix | primary
  deriving DecidableEq

namespace Precedence

/-- The place on the scale, counted from the loosest. -/
def rank : Precedence → Nat
  | .lowest => 0
  | .assignment => 1
  | .conditional => 2
  | .conditionalOr => 3
  | .conditionalAnd => 4
  | .bitOr => 5
  | .bitXor => 6
  | .bitAnd => 7
  | .equality => 8
  | .relational => 9
  | .shift => 10
  | .additive => 11
  | .multiplicative => 12
  | .unary => 13
  | .suffix => 14
  | .primary => 15

/-- The next tighter strength. -/
def tighter : Precedence → Precedence
  | .lowest => .assignment
  | .assignment => .conditional
  | .conditional => .conditionalOr
  | .conditionalOr => .conditionalAnd
  | .conditionalAnd => .bitOr
  | .bitOr => .bitXor
  | .bitXor => .bitAnd
  | .bitAnd => .equality
  | .equality => .relational
  | .relational => .shift
  | .shift => .additive
  | .additive => .multiplicative
  | .multiplicative => .unary
  | .unary => .suffix
  | .suffix => .primary
  | .primary => .primary

/-- The name of a strength. -/
def name : Precedence → String
  | .lowest => "Lowest"
  | .assignment => "Assignment"
  | .conditional => "Conditional"
  | .conditionalOr => "ConditionalOr"
  | .conditionalAnd => "ConditionalAnd"
  | .bitOr => "BitOr"
  | .bitXor => "BitXor"
  | .bitAnd => "BitAnd"
  | .equality => "Equality"
  | .relational => "Relational"
  | .shift => "Shift"
  | .additive => "Additive"
  | .multiplicative => "Multiplicative"
  | .unary => "Unary"
  | .suffix => "Postfix"
  | .primary => "Primary"

instance : Enumeration Precedence where
  members := [.lowest, .assignment, .conditional, .conditionalOr, .conditionalAnd, .bitOr, .bitXor,
    .bitAnd, .equality, .relational, .shift, .additive, .multiplicative, .unary, .suffix, .primary]
  name := name

end Precedence

/-- An operator between two operands. -/
inductive InfixOperator where
  | times | divide | remainder | plus | minus | leftShift | rightShiftSigned | rightShiftUnsigned
  | less | greater | lessEquals | greaterEquals | equals | notEquals | and | xor | or
  | conditionalAnd | conditionalOr | assign
  deriving DecidableEq

namespace InfixOperator

/-- The operator as it is written. -/
def symbol : InfixOperator → String
  | .times => "*"
  | .divide => "/"
  | .remainder => "%"
  | .plus => "+"
  | .minus => "-"
  | .leftShift => "<<"
  | .rightShiftSigned => ">>"
  | .rightShiftUnsigned => ">>>"
  | .less => "<"
  | .greater => ">"
  | .lessEquals => "<="
  | .greaterEquals => ">="
  | .equals => "=="
  | .notEquals => "!="
  | .and => "&"
  | .xor => "^"
  | .or => "|"
  | .conditionalAnd => "&&"
  | .conditionalOr => "||"
  | .assign => "="

/-- The operator as an assignment: `=` for plain assignment, otherwise the compound form, if the
operator has one. -/
def assignmentSymbol : InfixOperator → Option String
  | .assign => some "="
  | .times => some "*="
  | .divide => some "/="
  | .remainder => some "%="
  | .plus => some "+="
  | .minus => some "-="
  | .leftShift => some "<<="
  | .rightShiftSigned => some ">>="
  | .rightShiftUnsigned => some ">>>="
  | .and => some "&="
  | .xor => some "^="
  | .or => some "|="
  | .less | .greater | .lessEquals | .greaterEquals | .equals | .notEquals | .conditionalAnd
  | .conditionalOr => none

/-- How tightly the operator binds its operands. -/
def precedence : InfixOperator → Precedence
  | .times | .divide | .remainder => .multiplicative
  | .plus | .minus => .additive
  | .leftShift | .rightShiftSigned | .rightShiftUnsigned => .shift
  | .less | .greater | .lessEquals | .greaterEquals => .relational
  | .equals | .notEquals => .equality
  | .and => .bitAnd
  | .xor => .bitXor
  | .or => .bitOr
  | .conditionalAnd => .conditionalAnd
  | .conditionalOr => .conditionalOr
  | .assign => .assignment

/-- The name of an operator. -/
def name : InfixOperator → String
  | .times => "Times"
  | .divide => "Divide"
  | .remainder => "Remainder"
  | .plus => "Plus"
  | .minus => "Minus"
  | .leftShift => "LeftShift"
  | .rightShiftSigned => "RightShiftSigned"
  | .rightShiftUnsigned => "RightShiftUnsigned"
  | .less => "Less"
  | .greater => "Greater"
  | .lessEquals => "LessEquals"
  | .greaterEquals => "GreaterEquals"
  | .equals => "Equals"
  | .notEquals => "NotEquals"
  | .and => "And"
  | .xor => "Xor"
  | .or => "Or"
  | .conditionalAnd => "ConditionalAnd"
  | .conditionalOr => "ConditionalOr"
  | .assign => "Assign"

instance : Enumeration InfixOperator where
  members := [.times, .divide, .remainder, .plus, .minus, .leftShift, .rightShiftSigned,
    .rightShiftUnsigned, .less, .greater, .lessEquals, .greaterEquals, .equals, .notEquals, .and,
    .xor, .or, .conditionalAnd, .conditionalOr, .assign]
  name := name

end InfixOperator

/-- An operator in front of its operand. -/
inductive UnaryOperator where
  | plus | minus | complement | not | increment | decrement
  deriving DecidableEq

namespace UnaryOperator

/-- The operator as it is written. -/
def symbol : UnaryOperator → String
  | .plus => "+"
  | .minus => "-"
  | .complement => "~"
  | .not => "!"
  | .increment => "++"
  | .decrement => "--"

/-- Whether the operator starts with a sign, so that it could be read as a sum or a difference after
a closing parenthesis. -/
def isSign : UnaryOperator → Bool
  | .plus | .minus | .increment | .decrement => true
  | .complement | .not => false

/-- The name of an operator. -/
def name : UnaryOperator → String
  | .plus => "Plus"
  | .minus => "Minus"
  | .complement => "Complement"
  | .not => "Not"
  | .increment => "Increment"
  | .decrement => "Decrement"

instance : Enumeration UnaryOperator where
  members := [.plus, .minus, .complement, .not, .increment, .decrement]
  name := name

end UnaryOperator

/-- An operator behind its operand. -/
inductive PostfixOperator where
  | increment | decrement
  deriving DecidableEq

namespace PostfixOperator

/-- The operator as it is written. -/
def symbol : PostfixOperator → String
  | .increment => "++"
  | .decrement => "--"

/-- The name of an operator. -/
def name : PostfixOperator → String
  | .increment => "Increment"
  | .decrement => "Decrement"

instance : Enumeration PostfixOperator where
  members := [.increment, .decrement]
  name := name

end PostfixOperator

end JavaSource
