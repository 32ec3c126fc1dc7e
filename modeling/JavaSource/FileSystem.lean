import JavaSource.Text.Split

/-!
# A file system

A file system has folders and files at addresses: the names that lead to a place from the outermost
folder. A path is text; `FileSystem.resolve` reads the address off it, name by name.

* `FileSystem.createFolders` makes a folder and the folders around it. It stops where a file is in
  the way or a name is too long, and what it made before stays.
* `FileSystem.save` puts a text in a file of an existing folder, over what was in the file before.
  It changes nothing if a folder is in the way or the name is too long.
-/

namespace JavaSource

/-- How many bytes the names and paths of a file system may have. -/
structure PathLimits where
  /-- The length of the longest name of a folder or a file. -/
  name : Nat := 255
  /-- The length of the longest path, if paths are bounded. -/
  path? : Option Nat := some 4095

namespace PathLimits

/-- Whether a name is short enough. -/
def allowsName (l : PathLimits) (name : String) : Bool :=
  name.utf8ByteSize ≤ l.name

/-- Whether a path is short enough, the lengths of its components aside. -/
def allowsPath (l : PathLimits) (path : String) : Bool :=
  l.path?.all (path.utf8ByteSize ≤ ·)

end PathLimits

/-- The names that lead to a place, outermost first. -/
abbrev Address := List String

/-- What stands at an address. -/
inductive Entry where
  /-- A folder. -/
  | folder
  /-- A file with a text. -/
  | file (text : String)
  deriving DecidableEq

/-- The folders and files of a computer. -/
structure FileSystem where
  /-- The bounds on names and paths. -/
  limits : PathLimits := {}
  /-- The folder from which paths lead that do not start with a slash. -/
  current : Address := []
  /-- What stands at the addresses inside the outermost folder. -/
  entries : List (Address × Entry) := []

namespace FileSystem

/-- What stands at an address. -/
def find? (fs : FileSystem) (a : Address) : Option Entry :=
  if a = [] then some .folder else fs.entries.lookup a

/-- The text of the file at an address. -/
def file? (fs : FileSystem) (a : Address) : Option String :=
  match fs.find? a with
  | some (.file text) => some text
  | _ => none

/-- The file system with something put at an address. -/
def put (fs : FileSystem) (a : Address) (e : Entry) : FileSystem :=
  { fs with entries := (a, e) :: fs.entries }

@[simp] theorem limits_put (fs : FileSystem) (a : Address) (e : Entry) :
    (fs.put a e).limits = fs.limits := rfl

@[simp] theorem current_put (fs : FileSystem) (a : Address) (e : Entry) :
    (fs.put a e).current = fs.current := rfl

/-- What was put last at an address counts. -/
theorem find?_put {a : Address} (ha : a ≠ []) (fs : FileSystem) (e : Entry) (b : Address) :
    (fs.put a e).find? b = if b = a then some e else fs.find? b := by
  by_cases hb : b = a
  · subst hb
    simp [find?, put, ha]
  · have other : (b == a) = false := by simpa using hb
    simp [find?, put, hb, List.lookup_cons, other]

/-! ### Paths -/

/-- The address after one more component of a path. -/
def follow (a : Address) (component : String) : Address :=
  if component = "" ∨ component = "." then a
  else if component = ".." then a.dropLast
  else a ++ [component]

/-- The address that a path leads to. -/
def resolve (fs : FileSystem) (path : String) : Address :=
  (Text.split '/' path).foldl follow (if path.toList.head? = some '/' then [] else fs.current)

/-! ### Changes -/

/-- Makes the folders that names lead to from an address, as far as they are missing. The result is
an error where one of them cannot be made; it holds the file system with those made before. -/
def makeFolders (fs : FileSystem) (a : Address) : List String → Except FileSystem FileSystem
  | [] => .ok fs
  | name :: names =>
    match fs.find? (a ++ [name]) with
    | some .folder => makeFolders fs (a ++ [name]) names
    | some (.file _) => .error fs
    | none =>
      if fs.limits.allowsName name then
        makeFolders (fs.put (a ++ [name]) .folder) (a ++ [name]) names
      else .error fs

/-- Puts a text in the file with a name in a folder. -/
def writeFile (fs : FileSystem) (folder : Address) (name text : String) : Option FileSystem :=
  if fs.find? folder = some .folder ∧ fs.find? (folder ++ [name]) ≠ some .folder ∧
      fs.limits.allowsName name then
    some (fs.put (folder ++ [name]) (.file text))
  else none

/-- Makes the folder with a path and the folders around it, as far as they are missing. -/
def createFolders (fs : FileSystem) (path : String) : Except FileSystem FileSystem :=
  if fs.limits.allowsPath path then fs.makeFolders [] (fs.resolve path) else .error fs

/-- Puts a text in the file with a path. -/
def save (fs : FileSystem) (path text : String) : Option FileSystem :=
  match (fs.resolve path).getLast? with
  | none => none
  | some name =>
    if fs.limits.allowsPath path then fs.writeFile (fs.resolve path).dropLast name text else none

/-! ### Listing -/

/-- The addresses of the files below a folder, seen from that folder, without repetition. -/
def filesBelow (fs : FileSystem) (folder : Address) : List Address :=
  (fs.entries.filterMap fun e =>
    if folder.isPrefixOf e.1 ∧ (fs.file? e.1).isSome then some (e.1.drop folder.length)
    else none).eraseDups

end FileSystem

end JavaSource
