import JavaSource.Kind

/-!
# Why a node cannot be built

The causes for which building a node fails, and the sentence that reports each of them.
-/

namespace JavaSource

/-- What a text or a value was to be read as. -/
inductive Target where
  | name | type | floatLiteral | doubleLiteral | charLiteral
  deriving DecidableEq

/-- The target in words. -/
def Target.words : Target → String
  | .name => "name"
  | .type => "type"
  | .floatLiteral => "float literal"
  | .doubleLiteral => "double literal"
  | .charLiteral => "char literal"

/-- The cause for which a node cannot be built. -/
inductive BuildError where
  /-- A sequence that must have an element is empty. -/
  | emptySequence (kind : Kind) (field : String)
  /-- A number of dimensions is negative. -/
  | negative (kind : Kind) (field : String) (value : Int)
  /-- The token of a simple name is not an identifier. -/
  | invalidIdentifier (token : String)
  /-- The token of a literal is empty. -/
  | emptyLiteral
  /-- An array creation gives more sizes than its type has dimensions. -/
  | tooManyDimensions (expressions dimensions : Nat)
  /-- A text or a value has no reading as the target. -/
  | unparsable (text : String) (target : Target)
  deriving DecidableEq

/-- The report of a cause. -/
def BuildError.message : BuildError → String
  | .emptySequence kind field => kind.name ++ ": `" ++ field ++ "` must not be empty"
  | .negative kind field value =>
    kind.name ++ ": `" ++ field ++ "` must not be negative (got " ++ toString value ++ ")"
  | .invalidIdentifier token => "`" ++ token ++ "` is not a valid identifier"
  | .emptyLiteral => "literal token must not be empty"
  | .tooManyDimensions expressions dimensions =>
    "array creation has " ++ toString expressions ++
      " dimension expressions but the type has only " ++ toString dimensions ++ " dimensions"
  | .unparsable text target => "cannot convert `" ++ text ++ "` into a " ++ target.words

end JavaSource
