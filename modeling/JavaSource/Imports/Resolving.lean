import JavaSource.Imports
import JavaSource.Ty.Visitor

/-!
# Steps of an import session that may fail

A request to an import session fails if a text is not a type, if a part of a type has no rule, or if
a shortened type cannot be built. The tables of the session are changed while a type is visited, so
a failure in the middle of a type would leave them changed. `Resolving` is the type of such steps:
what a step has done to the session is kept whether it fails or not.

* `Resolving.shortening` is the visitor that shortens types, with one rule for each form of types.
* `Resolving.resolve` and `Resolving.read` are the two requests.
-/

namespace JavaSource

/-- Why a request to an import session fails. -/
inductive ImportError where
  /-- There is no rule for a part of the type. -/
  | visit (fault : UnsupportedKind)
  /-- The type cannot be built. -/
  | build (cause : BuildError)
  deriving DecidableEq

/-- The report of a failed request. -/
def ImportError.message : ImportError → String
  | .visit fault => "cannot resolve imports: " ++ fault.message
  | .build cause => cause.importMessage

/-- A step of an import session. -/
abbrev Resolving := EStateM ImportError Imports

namespace Resolving

/-- The step that takes what was built, and fails if it could not be built. -/
def build {α : Type} : Except BuildError α → Resolving α
  | .ok a => pure a
  | .error e => throw (.build e)

/-- Visits types one after the other: whether one of them has a short form, and the types with their
short forms put in. -/
def visitEach : List (VisitedPart Resolving (Option Ty)) → Resolving (Bool × List Ty)
  | [] => return (false, [])
  | p :: ps => do
    let short ← p.visit
    let (changed, ts) ← visitEach ps
    return (short.isSome || changed, short.getD p.type :: ts)

/-- The visitor that gives the short form of a type, if it differs from the type. -/
def shortening : TypeVisitor Resolving (Option Ty) where
  refuse fault := throw (.visit fault)
  array := some fun component => do
    let some c ← component.visit | return none
    return some (.array none c)
  basic := some fun _ => return none
  named := some fun t => modifyGet (·.shortenNamed t)
  parameterized := some fun base arguments => do
    let b ← base.visit
    let (changed, ts) ← visitEach arguments
    if b.isSome || changed then
      return some (← build (Ty.withArguments none (b.getD base.type) ts))
    else return none
  qualified := some fun qualifier n => do
    let some q ← qualifier.visit | return none
    return some (.qualified none q n)
  wildcard := some fun d bound => do
    let some bound := bound | return none
    let some b ← bound.visit | return none
    return some (.wildcard none d (some b))

/-- Puts a type in its short form. -/
def resolve (t : Ty) : Resolving Ty := do
  return (← shortening.accept t).getD t

/-- Reads a text as a type and puts it in its short form. -/
def read (text : String) : Resolving Ty := do
  resolve (← build (Ty.read text))

end Resolving

end JavaSource
