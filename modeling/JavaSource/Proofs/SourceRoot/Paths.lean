import JavaSource.Proofs.SourceRoot.Components

/-!
# Paths that stay apart

Units are filed apart: the path of a unit tells its package and the name of its primary type, or
that it has no type (`SourceRoot.path_eq_path_iff`). No two places have the same text, since the
components of a place have no slashes in them, and no type is called like the file of a package.
-/

namespace JavaSource

/-! ### Texts of paths -/

/-- Behind a name there is always a slash. -/
theorem slashBehind_append {name : String} (h : IsPathName name) (front : String) :
    slashBehind (front ++ name) = "/" := by
  have nonempty : name.toList ≠ [] := fun nil => h.ne_empty (String.toList_eq_nil_iff.mp nil)
  refine if_neg (not_or.mpr ⟨fun empty => ?_, fun last => ?_⟩)
  · rw [String.append_eq_empty_iff] at empty
    exact h.ne_empty empty.2
  · rw [String.toList_append, List.getLast?_append_of_ne_nil _ nonempty] at last
    exact h.slash_notMem (List.mem_of_getLast? last)

/-- Several names appended to a path have slashes between them. -/
theorem foldl_extendPath {names : List String} (several : names ≠ [])
    (h : ∀ name ∈ names, IsPathName name) (path : String) :
    names.foldl extendPath path = path ++ slashBehind path ++ "/".intercalate names := by
  induction names generalizing path with
  | nil => exact absurd rfl several
  | cons name names ih =>
    have first : IsPathName name := h name List.mem_cons_self
    rw [List.foldl_cons, extendPath_of_isPathName first]
    by_cases last : names = []
    · rw [last, List.foldl_nil, String.intercalate_singleton]
    · have others : ∀ n ∈ names, IsPathName n := fun n mem => h n (List.mem_cons_of_mem name mem)
      rw [ih last others, slashBehind_append first, String.intercalate_cons_of_ne_nil last]
      simp only [String.append_assoc]

/-! ### Names of files -/

namespace CompilationUnit

variable {u v : CompilationUnit}

/-- The name of the primary type, if the unit has a type. -/
def primaryName? (u : CompilationUnit) : Option String :=
  u.primaryType?.map fun t => t.declaredName.token

/-- No type is called like the file of a package. -/
theorem append_java_ne (n : SimpleName) : n.token ++ ".java" ≠ "package-info.java" := by
  intro same
  have dash : '-' ∈ (n.token ++ ".java").toList := by
    rw [same]
    decide
  rw [String.toList_append, List.mem_append] at dash
  rcases dash with token | extension
  · exact n.notMem_token (by decide) token
  · exact absurd extension (by decide)

/-- The name of the file tells the name of the primary type. -/
theorem fileName_inj : u.fileName = v.fileName ↔ u.primaryName? = v.primaryName? := by
  rw [fileName, fileName, primaryName?, primaryName?]
  cases u.primaryType? with
  | none =>
    cases v.primaryType? with
    | none => simp
    | some t => simpa using (append_java_ne t.declaredName).symm
  | some t =>
    cases v.primaryType? with
    | none => simpa using append_java_ne t.declaredName
    | some t' => simp

/-- The place of a unit tells its package and its primary type. -/
theorem components_inj :
    u.location.components = v.location.components ↔
      packageFolders u.package = packageFolders v.package ∧ u.primaryName? = v.primaryName? := by
  rw [Location.components, Location.components, List.append_singleton_inj, ← fileName_inj]
  rfl

end CompilationUnit

namespace SourceRoot

variable (r : SourceRoot)

theorem path_eq (u : CompilationUnit) :
    r.path u = r.root ++ slashBehind r.root ++ "/".intercalate u.location.components := by
  rw [path_eq_below]
  refine foldl_extendPath ?_ (fun _ h => CompilationUnit.isPathName_of_mem_components h) r.root
  simp [Location.components]

theorem path_eq_path_iff {u v : CompilationUnit} :
    r.path u = r.path v ↔ u.location.components = v.location.components := by
  constructor
  · intro same
    have address := congrArg (FileSystem.resolve {}) same
    rw [resolve_path, resolve_path] at address
    exact List.append_cancel_left address
  · intro same
    rw [path_eq_below, path_eq_below, same]

/-- **The files of units are below the root and apart from each other**: the path of a unit is the
root followed by the segments of its package and the name of its file, with slashes between them,
and each of these is the name of something in the folder before it. Two units have one path, or
paths that lead to one file, exactly if they have the same package and the same primary name. -/
theorem paths_below_apart (u v : CompilationUnit) :
    r.path u = r.root ++ (if r.root = "" ∨ r.root.toList.getLast? = some '/' then "" else "/") ++
      "/".intercalate (packageFolders u.package ++ [u.fileName]) ∧
    (∀ c ∈ packageFolders u.package ++ [u.fileName],
      c ≠ "" ∧ c ≠ "." ∧ c ≠ ".." ∧ '/' ∉ c.toList) ∧
    (∀ fs : FileSystem, fs.resolve (r.path u) =
      fs.resolve r.root ++ (packageFolders u.package ++ [u.fileName])) ∧
    (r.path u = r.path v ↔
      packageFolders u.package = packageFolders v.package ∧ u.primaryName? = v.primaryName?) ∧
    ∀ fs : FileSystem, fs.resolve (r.path u) = fs.resolve (r.path v) ↔ r.path u = r.path v := by
  refine ⟨r.path_eq u, fun c mem => ?_, fun fs => r.resolve_path fs u, ?_,
    fun fs => r.resolve_path_inj fs⟩
  · have name : IsPathName c := CompilationUnit.isPathName_of_mem_components mem
    exact ⟨name.ne_empty, name.ne_dot, name.ne_dots, name.slash_notMem⟩
  · rw [path_eq_path_iff, CompilationUnit.components_inj]

/-- A unit with a package and no type, below a root that ends with a slash, beside a unit of the
default package. -/
theorem paths_below_apart_package_info :
    let r : SourceRoot := { root := "src/" }
    let package : PackageDeclaration := ⟨none, none, [], .simple ⟨none, "a", rfl⟩⟩
    let u : CompilationUnit := ⟨none, some package, [], [], []⟩
    let v : CompilationUnit := ⟨none, none, [], [], []⟩
    r.path u = "src/a/package-info.java" ∧ "a" ≠ ".." ∧ r.path u ≠ r.path v := by
  intro r package u v
  obtain ⟨text, names, -, apart, -⟩ := r.paths_below_apart u v
  refine ⟨text.trans (by decide), (names "a" (by decide)).2.2.1, fun same => ?_⟩
  exact absurd (apart.mp same).1 (by decide)

end SourceRoot

end JavaSource
