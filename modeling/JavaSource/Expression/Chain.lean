import JavaSource.Literal
import JavaSource.Name.Reader

/-!
# Chains of expressions

Larger expressions around an expression that is already there: it becomes an operand, the object of
a call, an indexed array, and so on. Each function takes the expression first, so that steps can be
chained. Only steps that read a name from a text can fail.
-/

namespace JavaSource

namespace Expression

/-- Written `e operator right`. -/
def combine (e : Expression) (operator : InfixOperator) (right : Expression) : Expression :=
  .infixExpression none e operator right

/-- Written `operator e`. -/
def applyUnary (e : Expression) (operator : UnaryOperator) : Expression :=
  .unaryExpression none operator e

/-- Written `e operator`. -/
def applyPostfix (e : Expression) (operator : PostfixOperator) : Expression :=
  .postfixExpression none e operator

/-- Written `e operator= right`. -/
def assignWith (e : Expression) (operator : InfixOperator) (right : Expression) : Expression :=
  .assignmentExpression none e operator right

/-- Written `e = right`. -/
def assignFrom (e right : Expression) : Expression :=
  e.assignWith .assign right

/-- Written `(type) e`. -/
def castTo (e : Expression) (type : Ty) : Expression :=
  .castExpression none type e

/-- Written `e instanceof type`. -/
def instanceOf (e : Expression) (type : Ty) : Expression :=
  .instanceofExpression none e type

/-- Written `e.name`. -/
def select (e : Expression) (name : SimpleName) : Expression :=
  .fieldAccessExpression none e name

/-- The field with the name that a text is. -/
def field (e : Expression) (name : String) : Except BuildError Expression := do
  return e.select (← SimpleName.ofToken name)

/-- Written `e[index]`. -/
def element (e index : Expression) : Expression :=
  .arrayAccessExpression none e index

/-- The element at a constant position. -/
def elementAt (e : Expression) (index : Int32) : Except BuildError Expression := do
  return e.element (← (LiteralValue.int index).literal)

/-- The element at the position that a variable holds. -/
def elementNamed (e : Expression) (index : String) : Except BuildError Expression := do
  return e.element (.nameExpression (← Name.read index))

/-- Written `e.<typeArguments>name(arguments)`. -/
def invoke (e : Expression) (typeArguments : List Ty) (name : SimpleName)
    (arguments : List Expression) : Expression :=
  .methodInvocationExpression none (.present e) typeArguments name (Tree.ofList arguments)

/-- A call of the method with the name that a text is. -/
def call (e : Expression) (name : String) (arguments : List Expression) :
    Except BuildError Expression := do
  return e.invoke [] (← SimpleName.ofToken name) arguments

/-- The expression as a statement. -/
def toStatement (e : Expression) : Statement :=
  .expressionStatement none e

/-- A statement that returns the expression. -/
def toReturn (e : Expression) : Statement :=
  .returnStatement none (.present e)

end Expression

end JavaSource
