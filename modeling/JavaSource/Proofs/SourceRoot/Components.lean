import JavaSource.Proofs.Name.Words
import JavaSource.Proofs.Text.Parts
import JavaSource.SourceFiles
import Mathlib.Data.List.Basic

/-!
# The components of paths

The components that a unit adds to the path of the root are names (`IsPathName`): none of them is
empty, has a slash in it or stands for a folder that is there already. So the path of a unit leads
to the address of the root, extended by its components (`SourceRoot.resolve_path`), however the root
is spelled.
-/

namespace JavaSource

/-! ### Names in paths -/

/-- A component of a path that names something in the folder before it. -/
structure IsPathName (component : String) : Prop where
  /-- It is not empty. -/
  ne_empty : component ≠ ""
  /-- It does not stand for the folder itself. -/
  ne_dot : component ≠ "."
  /-- It does not stand for the folder around it. -/
  ne_dots : component ≠ ".."
  /-- It is one component. -/
  slash_notMem : '/' ∉ component.toList

/-- Identifiers are names. -/
theorem SimpleName.isPathName_token (n : SimpleName) : IsPathName n.token := by
  have dot : '.' ∉ n.token.toList := n.notMem_token (by decide)
  refine ⟨?_, ?_, ?_, n.notMem_token (by decide)⟩
  · intro empty
    exact (forall_isIdentifierPart n.valid).1 (by rw [empty]; rfl)
  · intro single
    simp [single] at dot
  · intro double
    simp [double] at dot

/-- The folders of a package are named by identifiers. -/
theorem exists_token_of_mem_packageFolders {p : Option PackageDeclaration} {component : String}
    (h : component ∈ packageFolders p) : ∃ n : SimpleName, n.token = component := by
  cases p with
  | none => cases h
  | some p =>
    obtain ⟨n, -, token⟩ := List.mem_map.mp h
    exact ⟨n, token⟩

namespace CompilationUnit

/-- The name of a file has a dot in it. -/
theorem dot_mem_fileName (u : CompilationUnit) : '.' ∈ u.fileName.toList := by
  rw [fileName]
  split
  · decide
  · rw [String.toList_append]
    exact List.mem_append_right _ (by decide)

/-- The name of a file is a name. -/
theorem isPathName_fileName (u : CompilationUnit) : IsPathName u.fileName := by
  rw [fileName]
  split
  · constructor <;> decide
  · rename_i t _
    have long : ∀ s : String, t.declaredName.token ++ ".java" = s → 5 ≤ s.length := by
      rintro s rfl
      rw [String.length_append]
      exact Nat.le_add_left 5 _
    refine ⟨fun h => ?_, fun h => ?_, fun h => ?_, ?_⟩
    · exact absurd (long _ h) (by decide)
    · exact absurd (long _ h) (by decide)
    · exact absurd (long _ h) (by decide)
    · rw [String.toList_append, List.mem_append, not_or]
      exact ⟨t.declaredName.notMem_token (by decide), by decide⟩

/-- **All components that a unit adds to a path are names.** -/
theorem isPathName_of_mem_components {u : CompilationUnit} {component : String}
    (h : component ∈ u.location.components) : IsPathName component := by
  rcases List.mem_append.mp h with folder | file
  · obtain ⟨n, rfl⟩ := exists_token_of_mem_packageFolders folder
    exact n.isPathName_token
  · rw [List.mem_singleton.mp file]
    exact u.isPathName_fileName

end CompilationUnit

/-! ### Paths -/

/-- A name is appended to a path. -/
theorem extendPath_of_isPathName {name : String} (h : IsPathName name) (path : String) :
    extendPath path name = path ++ slashBehind path ++ name :=
  if_neg fun head => h.slash_notMem (List.mem_of_head? head)

/-- In front of an appended component there is nothing, or there is a slash. -/
theorem append_slashBehind (path : String) :
    path ++ slashBehind path = "" ∨
      ∃ front, path ++ slashBehind path = front ++ String.ofList ['/'] := by
  rw [slashBehind]
  split
  · next ends =>
    rw [String.append_empty]
    rcases ends with empty | last
    · exact .inl empty
    · obtain ⟨cs, spelled⟩ := List.getLast?_eq_some_iff.mp last
      refine .inr ⟨String.ofList cs, ?_⟩
      rw [← String.toList_inj, spelled, String.toList_append, String.toList_ofList,
        String.toList_ofList]
  · exact .inr ⟨path, rfl⟩

/-- An appended name is the last component. -/
theorem exists_split_extendPath {name : String} (h : IsPathName name) (path : String) :
    ∃ front, Text.split '/' (extendPath path name) = front ++ [name] := by
  rw [extendPath_of_isPathName h]
  rcases append_slashBehind path with empty | ⟨front, slash⟩
  · refine ⟨[], ?_⟩
    rw [empty, String.empty_append, Text.split, Text.splitAt_of_notMem h.slash_notMem,
      List.map_singleton, String.ofList_toList, List.nil_append]
  · refine ⟨Text.split '/' front, ?_⟩
    rw [slash, Text.split_append_singleton_append front name h.slash_notMem]

/-- A name without a dot has no extension. -/
theorem stem_of_notMem {name : String} (free : '.' ∉ name.toList) : stem name = name := by
  have single : Text.split '.' name = [name] := by
    rw [Text.split, Text.splitAt_of_notMem free, List.map_singleton, String.ofList_toList]
  rw [stem, single]
  exact if_pos rfl

/-- An extension of a name without one is appended to the name. -/
theorem withExtension_extendPath {name extension : String} (h : IsPathName name)
    (free : '.' ∉ name.toList) (h' : IsPathName (name ++ "." ++ extension)) (path : String) :
    withExtension (extendPath path name) extension =
      extendPath path (name ++ "." ++ extension) := by
  have last : ∀ front : List String,
      "/".intercalate ((front ++ [name]).dropLast ++
        [stem ((front ++ [name]).getLast?.getD "") ++ "." ++ extension]) =
      "/".intercalate (front ++ [name ++ "." ++ extension]) := by
    intro front
    rw [List.dropLast_concat, List.getLast?_concat, Option.getD_some, stem_of_notMem free]
  rw [extendPath_of_isPathName h, extendPath_of_isPathName h', withExtension]
  rcases append_slashBehind path with empty | ⟨front, slash⟩
  · have single : Text.split '/' name = [] ++ [name] := by
      rw [Text.split, Text.splitAt_of_notMem h.slash_notMem, List.map_singleton,
        String.ofList_toList, List.nil_append]
    rw [empty, String.empty_append, String.empty_append, single, last, List.nil_append,
      String.intercalate_singleton]
  · have several : Text.split '/' front ≠ [] := by
      simp [Text.split, Text.splitAt_ne_nil]
    rw [slash, Text.split_append_singleton_append front name h.slash_notMem, last,
      String.intercalate_append_of_ne_nil several (by simp), String.intercalate_singleton]
    have whole : "/".intercalate (Text.split '/' front) = front := Text.intercalate_split '/' front
    rw [whole]

/-- The path of a unit is that of its folder with the name of its file appended. -/
theorem SourceRoot.path_eq_extendPath (r : SourceRoot) (u : CompilationUnit) :
    r.path u = extendPath (r.folder u.package) u.fileName := by
  have file := u.isPathName_fileName
  rw [path, CompilationUnit.fileName]
  rw [CompilationUnit.fileName] at file
  cases found : u.primaryType? with
  | none => rfl
  | some t =>
    simp only [found] at file ⊢
    have dot : t.declaredName.token ++ ".java" = t.declaredName.token ++ "." ++ "java" := by
      rw [String.append_assoc]
      rfl
    rw [dot] at file ⊢
    exact withExtension_extendPath t.declaredName.isPathName_token
      (t.declaredName.notMem_token (by decide)) file _

/-- **The path of a unit is the root with the components of its place appended.** -/
theorem SourceRoot.path_eq_below (r : SourceRoot) (u : CompilationUnit) :
    r.path u = r.below u.location.components := by
  rw [path_eq_extendPath, below, Location.components, List.foldl_append]
  rfl

/-! ### Addresses -/

namespace FileSystem

/-- A name leads into the folder before it. -/
theorem follow_isPathName {name : String} (h : IsPathName name) (a : Address) :
    follow a name = a ++ [name] := by
  rw [follow, if_neg (not_or.mpr ⟨h.ne_empty, h.ne_dot⟩), if_neg h.ne_dots]

/-- An empty component leads nowhere. -/
theorem follow_empty (a : Address) : follow a "" = a :=
  if_pos (.inl rfl)

/-- What stands behind a slash is followed last. -/
theorem resolve_append_slash (fs : FileSystem) (cs : List Char) {ds : List Char} (h : '/' ∉ ds) :
    fs.resolve (String.ofList (cs ++ '/' :: ds)) =
      follow (fs.resolve (String.ofList (cs ++ ['/']))) (String.ofList ds) := by
  have start : (cs ++ '/' :: ds).head? = (cs ++ ['/']).head? := by
    cases cs <;> rfl
  simp only [resolve, Text.split, String.toList_ofList, start, Text.splitAt_append_cons,
    Text.splitAt_of_notMem h, Text.splitAt, List.map_append, List.foldl_append, List.map_cons,
    List.map_nil, List.foldl_cons, List.foldl_nil, String.ofList_nil, follow_empty]

/-- A slash at the end of a path leads nowhere. -/
theorem resolve_slash (fs : FileSystem) {cs : List Char} (h : cs ≠ []) :
    fs.resolve (String.ofList (cs ++ ['/'])) = fs.resolve (String.ofList cs) := by
  have start : (cs ++ ['/']).head? = cs.head? := by
    rw [List.head?_append_of_ne_nil cs h]
  simp only [resolve, Text.split, String.toList_ofList, start, Text.splitAt_append_cons,
    Text.splitAt, List.map_append, List.foldl_append, List.map_cons, List.map_nil,
    List.foldl_cons, List.foldl_nil, String.ofList_nil, follow_empty]

/-- A path with one more name leads one step further. -/
theorem resolve_extendPath (fs : FileSystem) (path : String) {name : String}
    (h : IsPathName name) : fs.resolve (extendPath path name) = fs.resolve path ++ [name] := by
  have behind : ∀ cs, fs.resolve (String.ofList (cs ++ '/' :: name.toList)) =
      fs.resolve (String.ofList (cs ++ ['/'])) ++ [name] := by
    intro cs
    rw [resolve_append_slash fs cs h.slash_notMem, String.ofList_toList, follow_isPathName h]
  by_cases empty : path = ""
  · have start : name.toList.head? ≠ some '/' := fun head =>
      h.slash_notMem (List.mem_of_head? head)
    simp [empty, extendPath, slashBehind, resolve, Text.split, Text.splitAt, start, follow_empty,
      Text.splitAt_of_notMem h.slash_notMem, follow_isPathName h]
  rw [extendPath_of_isPathName h]
  by_cases slash : path.toList.getLast? = some '/'
  · obtain ⟨cs, spelled⟩ := List.getLast?_eq_some_iff.mp slash
    have joined : path ++ "" ++ name = String.ofList (cs ++ '/' :: name.toList) := by
      rw [← String.toList_inj]
      simp [spelled]
    rw [slashBehind, if_pos (.inr slash), joined, behind, ← spelled, String.ofList_toList]
  · have joined : path ++ "/" ++ name = String.ofList (path.toList ++ '/' :: name.toList) := by
      rw [← String.toList_inj]
      simp
    have notNil : path.toList ≠ [] := fun nil => empty (String.toList_eq_nil_iff.mp nil)
    rw [slashBehind, if_neg (not_or.mpr ⟨empty, slash⟩), joined, behind, resolve_slash fs notNil,
      String.ofList_toList]

/-- **Names appended to a path extend its address.** -/
theorem resolve_foldl_extendPath (fs : FileSystem) (path : String) {names : List String}
    (h : ∀ name ∈ names, IsPathName name) :
    fs.resolve (names.foldl extendPath path) = fs.resolve path ++ names := by
  induction names generalizing path with
  | nil => rw [List.foldl_nil, List.append_nil]
  | cons name names ih =>
    have first : IsPathName name := h name List.mem_cons_self
    have others : ∀ n ∈ names, IsPathName n := fun n hn => h n (List.mem_cons_of_mem name hn)
    rw [List.foldl_cons, ih (extendPath path name) others, resolve_extendPath fs path first,
      List.append_assoc, List.singleton_append]

/-- A path is followed component by component, from the outermost folder if it starts with a
slash. -/
theorem resolve_intercalate (fs : FileSystem) {first : String} {rest : List String}
    (free : ∀ c ∈ first :: rest, '/' ∉ c.toList) (start : first = "" → rest ≠ []) :
    fs.resolve ("/".intercalate (first :: rest)) =
      (first :: rest).foldl follow (if first = "" then [] else fs.current) := by
  have outermost : ("/".intercalate (first :: rest)).toList.head? = some '/' ↔ first = "" := by
    constructor
    · intro head
      by_contra nonempty
      have own : first.toList ≠ [] := fun nil => nonempty (String.toList_eq_nil_iff.mp nil)
      have front : first.toList <+: ("/".intercalate (first :: rest)).toList := by
        cases rest with
        | nil => simp
        | cons c rest =>
          rw [String.intercalate_cons_of_ne_nil (by simp), String.append_assoc,
            String.toList_append]
          exact List.prefix_append _ _
      obtain ⟨behind, whole⟩ := front
      rw [← whole, List.head?_append_of_ne_nil _ own] at head
      exact free first List.mem_cons_self (List.mem_of_head? head)
    · intro empty
      rw [empty, String.intercalate_cons_of_ne_nil (start empty)]
      simp
  have parts : Text.split '/' ("/".intercalate (first :: rest)) = first :: rest :=
    Text.split_intercalate (List.cons_ne_nil first rest) free
  rw [resolve, parts]
  simp only [outermost]

/-- Components that lead nowhere can be left out at the end. -/
theorem foldl_follow_reverse_dropWhile (a : Address) (components : List String) :
    (components.reverse.dropWhile isIdle).reverse.foldl follow a = components.foldl follow a := by
  induction components using List.reverseRecOn with
  | nil => rfl
  | append_singleton components c ih =>
    rw [List.reverse_append, List.reverse_singleton, List.singleton_append, List.dropWhile_cons]
    split
    · next idle =>
      have nowhere : follow (components.foldl follow a) c = components.foldl follow a :=
        if_pos (by simpa [isIdle] using idle)
      rw [ih, List.foldl_append, List.foldl_cons, List.foldl_nil, nowhere]
    · rw [List.reverse_cons, List.reverse_reverse]

/-- **The folder that a path leads into is where the path leads without its last name.** -/
theorem resolve_parentPath (fs : FileSystem) (path : String) {name : String} (h : IsPathName name) :
    fs.resolve (parentPath (extendPath path name)) = fs.resolve path := by
  have whole := fs.resolve_extendPath path h
  obtain ⟨front, parts⟩ := exists_split_extendPath h path
  have free : ∀ c ∈ front ++ [name], '/' ∉ c.toList := by
    rw [← parts]
    exact fun c mem => Text.notMem_of_mem_split mem
  have text : extendPath path name = "/".intercalate (front ++ [name]) := by
    rw [← parts]
    exact (Text.intercalate_split '/' _).symm
  rw [text] at whole
  rw [parentPath, parts, List.dropLast_concat]
  cases front with
  | nil =>
    rw [List.nil_append, resolve_intercalate fs free fun empty => absurd empty h.ne_empty,
      if_neg h.ne_empty, List.foldl_cons, List.foldl_nil, follow_isPathName h] at whole
    rw [← List.append_cancel_right whole]
    rfl
  | cons first rest =>
    rw [List.cons_append] at free whole
    rw [resolve_intercalate fs free (by simp), ← List.cons_append, List.foldl_append,
      List.foldl_cons (l := []), List.foldl_nil, follow_isPathName h] at whole
    rw [← List.append_cancel_right whole]
    have shorter := foldl_follow_reverse_dropWhile
      (follow (if first = "" then [] else fs.current) first) rest
    dsimp only
    split
    · next nothing =>
      rw [nothing.2, List.foldl_nil] at shorter
      rw [List.foldl_cons, ← shorter, nothing.1]
      rfl
    · next something =>
      rw [resolve_intercalate fs ?_ fun empty nothing => something ⟨empty, nothing⟩,
        List.foldl_cons, shorter, List.foldl_cons]
      refine fun c mem => free c (List.mem_append_left [name] (List.mem_cons.mpr ?_))
      refine (List.mem_cons.mp mem).imp_right fun kept => List.mem_reverse.mp ?_
      exact (List.dropWhile_sublist isIdle).subset (List.mem_reverse.mp kept)

end FileSystem

namespace SourceRoot

variable (r : SourceRoot) (fs : FileSystem)

/-- The file of a unit is below the root. -/
theorem resolve_path (u : CompilationUnit) :
    fs.resolve (r.path u) = fs.resolve r.root ++ u.location.components := by
  rw [path_eq_below]
  exact fs.resolve_foldl_extendPath r.root fun _ h => CompilationUnit.isPathName_of_mem_components h

/-- The folder of the file of a unit is below the root. -/
theorem resolve_parentPath_path (u : CompilationUnit) :
    fs.resolve (parentPath (r.path u)) = fs.resolve r.root ++ u.location.folders := by
  have folder : fs.resolve (r.folder u.package) = fs.resolve r.root ++ u.location.folders :=
    fs.resolve_foldl_extendPath r.root fun _ h =>
      CompilationUnit.isPathName_of_mem_components (List.mem_append_left [u.location.file] h)
  rw [path_eq_extendPath, fs.resolve_parentPath _ u.isPathName_fileName, folder]

/-- Units have the same path if their files have the same address. -/
theorem resolve_path_inj {u v : CompilationUnit} :
    fs.resolve (r.path u) = fs.resolve (r.path v) ↔ r.path u = r.path v := by
  refine ⟨fun same => ?_, fun same => by rw [same]⟩
  rw [resolve_path, resolve_path, List.append_cancel_left_eq] at same
  rw [path_eq_below, path_eq_below, same]

end SourceRoot

end JavaSource
