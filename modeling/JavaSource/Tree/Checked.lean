import JavaSource.Tree

/-!
# Checked construction

Most nodes can be built from any parts that fit. The others have a condition, which is checked here:

* a literal has a token;
* a declaration has a variable, and a list of statement expressions has an expression;
* a number of extra dimensions is not negative;
* an array creation gives no more sizes than its type has dimensions.
-/

namespace JavaSource

namespace Tree

/-- A number of extra dimensions, which must not be negative. -/
def checkDimensions (kind : Kind) (n : Int) : Except BuildError Nat :=
  if n < 0 then .error (.negative kind "extra_dimensions" n) else .ok n.toNat

/-- The literal with a given token. -/
def ofToken (handle : Handle) (token : String) : Except BuildError Expression :=
  if h : token = "" then .error .emptyLiteral else .ok (.literal handle token h)

/-- The creation of an array with sizes for its first dimensions. -/
def createArray (handle : Handle) (type : ArrayType) (sizes : List Expression)
    (values : Tree (.optional .arrayInitializer)) : Except BuildError Expression :=
  if type.dimensions < sizes.length then
    .error (.tooManyDimensions sizes.length type.dimensions)
  else .ok (.arrayCreationExpression handle type (ofList sizes) values)

/-- A list of statement expressions. -/
def listExpressions (handle : Handle) : List Expression → Except BuildError (Tree .expressionList)
  | [] => .error (.emptySequence .statementExpressionList "expressions")
  | first :: rest => .ok (.statementExpressionList handle first (ofList rest))

/-- A declaration of local variables. -/
def declareLocals (handle : Handle) (modifiers : Tree (.listOf .attribute)) (type : Ty) :
    List (Tree .variableDeclarator) → Except BuildError (Tree .localVariables)
  | [] => .error (.emptySequence .localVariableDeclaration "variable_declarators")
  | first :: rest => .ok (.localVariableDeclaration handle modifiers type first (ofList rest))

/-- A declaration of fields. -/
def declareFields (handle : Handle) (javadoc : Option Javadoc)
    (modifiers : Tree (.listOf .attribute)) (type : Ty) :
    List (Tree .variableDeclarator) → Except BuildError (Tree .member)
  | [] => .error (.emptySequence .fieldDeclaration "variable_declarators")
  | first :: rest => .ok (.fieldDeclaration handle javadoc modifiers type first (ofList rest))

end Tree

end JavaSource
