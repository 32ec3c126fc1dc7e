import JavaSource.Node
import JavaSource.Text.Split

/-!
# Where units are filed

A unit is filed below a root folder: one folder for each segment of its package, and in it a file
named after the primary type of the unit, or `package-info.java` if it declares no type.

* `CompilationUnit.location` is the place of a unit below the root.
* `SourceRoot.path` is the path of its file. It is made by `extendPath`, which appends a component
  to a path, and by `withExtension`, which replaces the extension of the last component.
* `parentPath` is the path of the folder that a path leads into.
-/

namespace JavaSource

/-- A place below a root folder. -/
structure Location where
  /-- The folders, outermost first. -/
  folders : List String
  /-- The name of the file. -/
  file : String
  deriving DecidableEq

/-- The folders and the file of a place. -/
def Location.components (l : Location) : List String :=
  l.folders ++ [l.file]

/-- The folders of a package. -/
def packageFolders (p : Option PackageDeclaration) : List String :=
  match p with
  | none => []
  | some p => p.name.words

namespace CompilationUnit

/-- The name of the file of a unit. -/
def fileName (u : CompilationUnit) : String :=
  match u.primaryType? with
  | none => "package-info.java"
  | some t => t.declaredName.token ++ ".java"

/-- The place of a unit. -/
def location (u : CompilationUnit) : Location :=
  ⟨packageFolders u.package, u.fileName⟩

end CompilationUnit

/-! ### Paths -/

/-- What is written between a path and one more component. -/
def slashBehind (path : String) : String :=
  if path = "" ∨ path.toList.getLast? = some '/' then "" else "/"

/-- A path with one more component. A component that starts with a slash is a path of its own. -/
def extendPath (path component : String) : String :=
  if component.toList.head? = some '/' then component else path ++ slashBehind path ++ component

/-- A name without its extension: what stands in front of its last dot, unless nothing does. -/
def stem (name : String) : String :=
  let front := ".".intercalate (Text.split '.' name).dropLast
  if front = "" then name else front

/-- A path whose last component has another extension. -/
def withExtension (path extension : String) : String :=
  let components := Text.split '/' path
  "/".intercalate
    (components.dropLast ++ [stem (components.getLast?.getD "") ++ "." ++ extension])

/-- Whether a component of a path leads nowhere. -/
def isIdle (component : String) : Bool :=
  component = "" || component = "."

/-- A path without its last component. What then stands at the end and leads nowhere is left out
too, but for the start of the path. -/
def parentPath (path : String) : String :=
  match (Text.split '/' path).dropLast with
  | [] => ""
  | first :: rest =>
    let kept := (rest.reverse.dropWhile isIdle).reverse
    if first = "" ∧ kept = [] then "/" else "/".intercalate (first :: kept)

/-- A root folder, with the options for files below it. -/
structure SourceRoot where
  /-- The path of the root. -/
  root : String
  /-- How units are laid out. -/
  options : Options := {}

namespace SourceRoot

/-- The path of several components below the root. -/
def below (r : SourceRoot) (components : List String) : String :=
  components.foldl extendPath r.root

/-- The path of the folder of a package. -/
def folder (r : SourceRoot) (p : Option PackageDeclaration) : String :=
  r.below (packageFolders p)

/-- The path of the file of a unit. -/
def path (r : SourceRoot) (u : CompilationUnit) : String :=
  match u.primaryType? with
  | none => extendPath (r.folder u.package) "package-info.java"
  | some t => withExtension (extendPath (r.folder u.package) t.declaredName.token) "java"

end SourceRoot

end JavaSource
