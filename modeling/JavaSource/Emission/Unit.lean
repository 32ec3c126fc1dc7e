import JavaSource.CompilationUnit
import JavaSource.Emission.Code

/-!
# Tokens of compilation units

The sections of a unit (comments, package, imports, each declared type) have an empty line between
them.
-/

namespace JavaSource

/-- The tokens of a package declaration. -/
def PackageDeclaration.emit (x : EmitContext) (p : PackageDeclaration) : List Token :=
  x.attached p.handle .ownLine ++ emitJavadoc x p.javadoc ++
    lines (p.annotations.flatMap fun t => t.emit x .lowest) ++ .word "package" :: p.name.emit x ++
    [Token.mark .semicolon]

/-- The tokens of an import declaration. -/
def ImportDeclaration.emit (x : EmitContext) (i : ImportDeclaration) : List Token :=
  x.attached i.handle .ownLine ++ Token.word "import" ::
    (if i.kind.isStatic then [Token.word "static"] else []) ++ i.name.emit x ++
    (if i.kind.isOnDemand then [Token.mark .dot, .mark .star] else []) ++ [Token.mark .semicolon]

/-- Lists of tokens on a line each, behind an empty line if something comes before them; nothing if
there are none. -/
def sectionLines (somethingBefore : Bool) : List (List Token) → List Token
  | [] => []
  | parts =>
    (if somethingBefore then [.newline] else []) ++ parts.flatMap fun ts => ts ++ [.newline]

/-- The tokens of a compilation unit. -/
def CompilationUnit.emit (x : EmitContext) (u : CompilationUnit) : List Token :=
  let comments := !u.comments.isEmpty
  let package := comments || u.package.isSome
  let imports := package || !u.imports.isEmpty
  x.attached u.handle .ownLine ++
    sectionLines false (u.comments.map (Comment.emit x)) ++
    sectionLines comments (u.package.toList.map (PackageDeclaration.emit x)) ++
    sectionLines package (u.imports.map (ImportDeclaration.emit x)) ++
    memberLines true imports (u.types.flatMap fun t => t.emit x .lowest)

end JavaSource
