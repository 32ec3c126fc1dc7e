import JavaSource.Options
import JavaSource.Text.Blank
import JavaSource.Token

/-!
# Layout

Tokens are written to the current line one after the other; what came before decides whether a word
is set off by a space. The line is indented when something is first written to it, and blank
characters at its end are dropped when it is finished.

The layout of a list of tokens fails if an assignment in it was rejected, or if its indentation does
not come out even.
-/

namespace JavaSource

/-- Why a tree has no text. -/
inductive EmitError where
  /-- An assignment uses an operator that has no assignment form. -/
  | invalidAssignment (operator : InfixOperator)
  /-- There are more steps out than steps in. -/
  | belowMargin
  /-- Steps in were left open at the end. -/
  | leftOpen (levels : Nat)
  deriving DecidableEq

/-- The report of a failed layout. -/
def EmitError.message : EmitError → String
  | .invalidAssignment op => "operator `" ++ op.symbol ++ "` cannot be used in an assignment"
  | .belowMargin => "internal emitter error: indentation dropped below the left margin"
  | .leftOpen n => "internal emitter error: " ++ toString n ++ " indentation levels left open"

namespace Layout

/-- What was last written to a line. -/
inductive Previous where
  /-- Nothing yet. -/
  | lineStart
  /-- A space. -/
  | space
  /-- A word. -/
  | word
  /-- A mark that the next word follows directly. -/
  | opening
  /-- A mark that the next word is set off from. -/
  | closing
  /-- An operator in front of its operand. -/
  | sign (operator : UnaryOperator)
  /-- Text as it is. -/
  | raw
  deriving DecidableEq

/-- What has been written so far. -/
structure State where
  /-- The finished lines. -/
  out : String := ""
  /-- The current line. -/
  line : String := ""
  /-- The level of indentation. -/
  depth : Nat := 0
  /-- What was last written to the current line. -/
  previous : Previous := .lineStart

/-- The character that an operator repeats. -/
def signChar : UnaryOperator → Char
  | .plus | .increment => '+'
  | .minus | .decrement => '-'
  | .complement => '~'
  | .not => '!'

/-- Whether an operator is a plus or a minus, once or twice. -/
def isPlusOrMinus (op : UnaryOperator) : Bool :=
  signChar op == '+' || signChar op == '-'

/-- Whether a word needs a space in front: behind a word, behind a closing mark, and behind a plus
or minus that it starts with itself. -/
def wordApart (text : String) : Previous → Bool
  | .word | .closing => true
  | .sign op => isPlusOrMinus op && text.toList.head? == some (signChar op)
  | .lineStart | .space | .opening | .raw => false

/-- Whether an operator in front of its operand needs a space before it. -/
def signApart (op : UnaryOperator) : Previous → Bool
  | .word | .closing => true
  | .sign last => signChar last == signChar op
  | .lineStart | .space | .opening | .raw => false

namespace State

/-- The state with a text written to the line, which is indented first if it is empty. -/
def write (indent : String) (s : State) (text : String) : State :=
  let start := if s.line = "" then String.join (List.replicate s.depth indent) else s.line
  { s with line := start ++ text }

/-- The state with a space at the end of the line, unless the line is empty or has one. -/
def addSpace (s : State) : State :=
  if s.line = "" ∨ s.line.toList.getLast? = some ' ' then s else { s with line := s.line ++ " " }

/-- The state after a text, with a space in front where one is needed. -/
def writeApart (indent : String) (s : State) (apart : Bool) (text : String) (previous : Previous) :
    State :=
  { (if apart then s.addSpace else s).write indent text with previous }

/-- The state at the start of the next line. -/
def endLine (separator : String) (s : State) : State :=
  { s with out := s.out ++ Text.trimEnd s.line ++ separator, line := "", previous := .lineStart }

end State

/-- The state after a token. -/
def step (o : Options) (s : State) : Token → Except EmitError State
  | .word text => .ok (s.writeApart o.indent (wordApart text s.previous) text .word)
  | .mark m =>
    .ok (s.writeApart o.indent false m.spelling (if m.isClosing then .closing else .opening))
  | .sign op => .ok (s.writeApart o.indent (signApart op s.previous) op.symbol (.sign op))
  | .operator symbol => .ok (s.writeApart o.indent true (symbol ++ " ") .space)
  | .comma => .ok (s.writeApart o.indent false ", " .space)
  | .space => .ok { s.addSpace with previous := .space }
  | .newline => .ok (s.endLine o.lineSeparator)
  | .indent => .ok { s with depth := s.depth + 1 }
  | .dedent =>
    match s.depth with
    | 0 => .error .belowMargin
    | depth + 1 => .ok { s with depth }
  | .raw text => .ok (s.writeApart o.indent false text .raw)
  | .join => .ok { s with previous := .opening }
  | .rejected op => .error (.invalidAssignment op)

/-- The state after several tokens. -/
def run (o : Options) : State → List Token → Except EmitError State
  | s, [] => .ok s
  | s, t :: ts =>
    match step o s t with
    | .ok s => run o s ts
    | .error e => .error e

/-- The text of a state in which all steps in were closed. -/
def finish (s : State) : Except EmitError String :=
  if s.depth = 0 then .ok (s.out ++ Text.trimEnd s.line) else .error (.leftOpen s.depth)

end Layout

/-- The text of a list of tokens. -/
def layout (o : Options) (ts : List Token) : Except EmitError String :=
  match Layout.run o {} ts with
  | .ok s => Layout.finish s
  | .error e => .error e

end JavaSource
