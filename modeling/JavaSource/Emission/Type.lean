import JavaSource.Token
import JavaSource.Ty

/-!
# Tokens of names and types

What is attached to a node is written in front of it. The `EmitContext` says what that is for each
handle, so the tokens of a tree are a function of the tree and the context.
-/

namespace JavaSource

/-- Where an attachment stands: on lines of its own, or inside a line. -/
inductive Placement where
  | ownLine | inline
  deriving DecidableEq

/-- What the tokens of a node depend on besides the node. -/
structure EmitContext where
  /-- The tokens of what is attached to a handle. -/
  attached : Handle → Placement → List Token
  /-- Whether the members of a type have an empty line between them. -/
  blankLines : Bool

/-- The tokens of a simple name. -/
def SimpleName.emit (x : EmitContext) (n : SimpleName) : List Token :=
  x.attached n.handle .inline ++ [Token.word n.token]

/-- The tokens of a name. -/
def Name.emit (x : EmitContext) : Name → List Token
  | .simple n => n.emit x
  | .qualified h q n => x.attached h .inline ++ q.emit x ++ .mark .dot :: n.emit x

/-- The tokens of a named type. -/
def NamedType.emit (x : EmitContext) (t : NamedType) : List Token :=
  x.attached t.handle .inline ++ t.name.emit x

namespace Ty

mutual

/-- The tokens of a type. -/
def emit (x : EmitContext) : Ty → List Token
  | .array h c => x.attached h .inline ++ c.emit x ++ emptyBrackets 1
  | .basic h k => x.attached h .inline ++ [.word k.keyword]
  | .named t => t.emit x
  | .parameterized h b f r =>
    x.attached h .inline ++ b.emit x ++ angled (f.emit x :: emitEach x r)
  | .qualified h q n => x.attached h .inline ++ q.emit x ++ .mark .dot :: n.emit x
  | .wildcard h d none => x.attached h .inline ++ .word "?" :: (d.keyword.map Token.word).toList
  | .wildcard h d (some b) =>
    x.attached h .inline ++ .word "?" :: (d.keyword.map Token.word).toList ++ b.emit x

/-- The tokens of each of several types. -/
def emitEach (x : EmitContext) : List Ty → List (List Token)
  | [] => []
  | t :: ts => t.emit x :: emitEach x ts

end

@[simp] theorem emitEach_eq_map (x : EmitContext) (ts : List Ty) :
    emitEach x ts = ts.map (emit x) := by
  induction ts with
  | nil => rfl
  | cons t ts ih => simp [emitEach, ih]

end Ty

/-- The tokens of several types in angle brackets. -/
def typeArguments (x : EmitContext) (ts : List Ty) : List Token :=
  angled (ts.map (Ty.emit x))

/-- Type arguments in front of the name that is invoked, which follows directly. -/
def invocationArguments (x : EmitContext) : List Ty → List Token
  | [] => []
  | ts => typeArguments x ts ++ [.join]

end JavaSource
