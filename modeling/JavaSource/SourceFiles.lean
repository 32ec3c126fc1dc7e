import JavaSource.FileSystem
import JavaSource.SourceRoot

/-!
# Filing units

Writing a unit makes the folder of its file and puts its text in the file, over what was there
before. It fails if the unit has no text, if the folder cannot be made, or if the file cannot be
written. Folders made by a failed write stay.
-/

namespace JavaSource

/-- Why a unit was not written. -/
inductive WriteError where
  /-- The unit has no text. -/
  | noText (cause : EmitError)
  /-- The folder with a given path cannot be made. -/
  | noFolder (path : String)
  /-- The file with a given path cannot be written. -/
  | noFile (path : String)
  deriving DecidableEq

/-- The report of a unit that was not written. -/
def WriteError.message : WriteError → String
  | .noText _ => "failed to render compilation unit"
  | .noFolder path => "failed to create " ++ path
  | .noFile path => "failed to write " ++ path

/-- A file that was written. -/
structure WrittenFile where
  /-- The path of the file. -/
  path : String
  /-- Its text. -/
  text : String
  deriving DecidableEq

namespace SourceRoot

/-- Writes a unit: what was written, and the file system after that. -/
def write (r : SourceRoot) (notes : Notes) (fs : FileSystem) (u : CompilationUnit) :
    Except WriteError WrittenFile × FileSystem :=
  match (Node.unit u).render notes r.options with
  | .error e => (.error (.noText e), fs)
  | .ok text =>
    match fs.createFolders (parentPath (r.path u)) with
    | .error fs => (.error (.noFolder (parentPath (r.path u))), fs)
    | .ok fs =>
      match fs.save (r.path u) text with
      | none => (.error (.noFile (r.path u)), fs)
      | some fs => (.ok ⟨r.path u, text⟩, fs)

/-- Writes several units one after the other. -/
def writeAll (r : SourceRoot) (notes : Notes) (fs : FileSystem) :
    List CompilationUnit → List (Except WriteError WrittenFile) × FileSystem
  | [] => ([], fs)
  | u :: us =>
    let (result, fs) := r.write notes fs u
    let (results, fs) := r.writeAll notes fs us
    (result :: results, fs)

/-- Whether a path comes before another one, or is the same, in a listing of all folders. -/
def listedBefore : List String → List String → Bool
  | [], _ => true
  | _ :: _, [] => false
  | a :: as, b :: bs => a < b || (a == b && listedBefore as bs)

/-- The places of all files below the root, folder by folder, and in each folder in the order of the
names. -/
def listing (r : SourceRoot) (fs : FileSystem) : List (List String) :=
  (fs.filesBelow (fs.resolve r.root)).mergeSort listedBefore

end SourceRoot

end JavaSource
