import JavaSource.Proofs.SourceRoot.Components
import Mathlib.Data.List.Forall2
import Mathlib.Data.List.Infix

/-!
# What is below a root after units were written

Below the root, folders are named by identifiers and files have a dot in their names
(`FileSystem.Filed`). So no folder that a unit needs is the file of another unit, and the only thing
in the way of a write is the length of the names. `SourceRoot.Ready.leaves` says what one write
does, and `SourceRoot.Ready.file?_writeAll` what the files are after several.
-/

namespace JavaSource

namespace FileSystem

/-! ### Same files -/

/-- Two file systems with the same limits and files: only folders differ. -/
structure SameFiles (fs fs' : FileSystem) : Prop where
  /-- The limits are the same. -/
  limits : fs'.limits = fs.limits
  /-- Paths lead from the same folder. -/
  current : fs'.current = fs.current
  /-- The files are the same. -/
  files : ∀ a, fs'.file? a = fs.file? a

theorem SameFiles.refl (fs : FileSystem) : SameFiles fs fs :=
  ⟨rfl, rfl, fun _ => rfl⟩

theorem SameFiles.trans {fs fs' fs'' : FileSystem} (h : SameFiles fs fs')
    (h' : SameFiles fs' fs'') : SameFiles fs fs'' :=
  ⟨h'.limits.trans h.limits, h'.current.trans h.current, fun a => (h'.files a).trans (h.files a)⟩

/-- A folder put where nothing was leaves the files alone. -/
theorem sameFiles_put {fs : FileSystem} {a : Address} (ha : a ≠ []) (free : fs.find? a = none) :
    SameFiles fs (fs.put a .folder) := by
  refine ⟨rfl, rfl, fun b => ?_⟩
  rw [file?, file?, find?_put ha]
  by_cases same : b = a
  · rw [if_pos same, same, free]
  · rw [if_neg same]

/-- **Making folders leaves the files alone**, whether or not it succeeds. -/
theorem sameFiles_makeFolders {fs fs' : FileSystem} {a : Address} {names : List String}
    (h : fs.makeFolders a names = .ok fs' ∨ fs.makeFolders a names = .error fs') :
    SameFiles fs fs' := by
  fun_induction makeFolders fs a names with
  | case1 fs a =>
    rcases h with h | h
    · obtain rfl := Except.ok.inj h
      exact .refl fs
    · cases h
  | case2 fs a name names here ih => exact ih h
  | case3 fs a name names text here =>
    rcases h with h | h
    · cases h
    · obtain rfl := Except.error.inj h
      exact .refl fs
  | case4 fs a name names here allowed ih =>
    have notNil : a ++ [name] ≠ [] := by simp
    exact (sameFiles_put notNil here).trans (ih h)
  | case5 fs a name names here =>
    rcases h with h | h
    · cases h
    · obtain rfl := Except.error.inj h
      exact .refl fs

/-- Creating a folder leaves the files alone, whether or not it succeeds. -/
theorem sameFiles_createFolders {fs fs' : FileSystem} {path : String}
    (h : fs.createFolders path = .ok fs' ∨ fs.createFolders path = .error fs') :
    SameFiles fs fs' := by
  rw [createFolders] at h
  split at h
  · exact sameFiles_makeFolders h
  · rcases h with h | h
    · cases h
    · obtain rfl := Except.error.inj h
      exact .refl fs

/-! ### Folders and files below a root -/

/-- The root is there, and what is below it has an allowed name: one with a dot if it is a file, and
one without if it is a folder. -/
structure Filed (root : Address) (fs : FileSystem) : Prop where
  /-- The root is a folder in folders. -/
  around : ∀ a, a <+: root → fs.find? a = some .folder
  /-- Names tell folders and files below the root apart. -/
  below : ∀ a name e, root <+: a → fs.find? (a ++ [name]) = some e →
    fs.limits.allowsName name ∧ (e = .folder ↔ '.' ∉ name.toList)

variable {root a : Address} {fs : FileSystem}

/-- The address of something in a folder below the root is no part of the way to the root. -/
theorem ne_of_isPrefix {b : Address} {name : String} (ha : root <+: a) (hb : b <+: root) :
    b ≠ a ++ [name] := by
  rintro rfl
  have short := (hb.trans ha).length_le
  rw [List.length_append, List.length_singleton] at short
  omega

theorem Filed.put (filed : Filed root fs) {name : String} {e : Entry} (ha : root <+: a)
    (allowed : fs.limits.allowsName name) (tells : e = .folder ↔ '.' ∉ name.toList) :
    Filed root (fs.put (a ++ [name]) e) := by
  have notNil : a ++ [name] ≠ [] := by simp
  constructor
  · intro b hb
    rw [find?_put notNil, if_neg (ne_of_isPrefix ha hb), filed.around b hb]
  · intro b other e' hb found
    rw [find?_put notNil] at found
    split at found
    · rename_i same
      obtain rfl := Option.some.inj found
      obtain rfl : other = name := by simpa using (List.append_inj' same rfl).2
      exact ⟨allowed, tells⟩
    · exact filed.below b other e' hb found

/-- The folders on the way to the root need not be made. -/
theorem makeFolders_append {before after : List String}
    (there : ∀ b, b <+: before → fs.find? (a ++ b) = some .folder) :
    fs.makeFolders a (before ++ after) = fs.makeFolders (a ++ before) after := by
  induction before generalizing a with
  | nil => rw [List.nil_append, List.append_nil]
  | cons name before ih =>
    have first : fs.find? (a ++ [name]) = some .folder := there [name] ⟨before, rfl⟩
    have others : ∀ b, b <+: before → fs.find? (a ++ [name] ++ b) = some .folder := by
      intro b hb
      rw [List.append_assoc]
      exact there ([name] ++ b) (List.cons_prefix_cons.mpr ⟨rfl, hb⟩)
    rw [List.cons_append, makeFolders, first]
    simp only
    rw [ih others, List.append_assoc, List.singleton_append]

/-- What can come of making folders below a root: they are there, or one of the names is too
long. -/
def MadeFolders (root : Address) (limits : PathLimits) (target : Address) (names : List String) :
    Except FileSystem FileSystem → Prop
  | .ok fs => Filed root fs ∧ fs.find? target = some .folder ∧
      ∀ name ∈ names, limits.allowsName name
  | .error fs => Filed root fs ∧ ∃ name ∈ names, limits.allowsName name = false

theorem MadeFolders.cons {limits : PathLimits} {target : Address} {name : String}
    {names : List String} {result : Except FileSystem FileSystem}
    (h : MadeFolders root limits target names result) (allowed : limits.allowsName name) :
    MadeFolders root limits target (name :: names) result := by
  cases result with
  | ok fs => exact ⟨h.1, h.2.1, List.forall_mem_cons.mpr ⟨allowed, h.2.2⟩⟩
  | error fs =>
    obtain ⟨filed, long, mem, notAllowed⟩ := h
    exact ⟨filed, long, List.mem_cons_of_mem name mem, notAllowed⟩

/-- **Folders whose names have no dot are made below the root, unless a name is too long.** -/
theorem Filed.makeFolders (filed : Filed root fs) (ha : root <+: a)
    (here : fs.find? a = some .folder) {names : List String}
    (dotless : ∀ name ∈ names, '.' ∉ name.toList) :
    MadeFolders root fs.limits (a ++ names) names (fs.makeFolders a names) := by
  induction names generalizing fs a with
  | nil =>
    refine ⟨filed, ?_, List.forall_mem_nil _⟩
    rw [List.append_nil, here]
  | cons name names ih =>
    obtain ⟨dot, others⟩ := List.forall_mem_cons.mp dotless
    have inside : root <+: a ++ [name] := ha.trans (List.prefix_append a [name])
    rw [List.append_cons, FileSystem.makeFolders]
    match found : fs.find? (a ++ [name]) with
    | some .folder =>
      exact (ih filed inside found others).cons (filed.below a name .folder ha found).1
    | some (.file text) =>
      -- a file would have a dot in its name
      exact absurd ((filed.below a name (.file text) ha found).2.mpr dot) (by simp)
    | none =>
      by_cases allowed : fs.limits.allowsName name
      · have there : (fs.put (a ++ [name]) .folder).find? (a ++ [name]) = some .folder := by
          rw [find?_put (by simp), if_pos rfl]
        simp only [allowed, if_true]
        exact (ih (filed.put ha allowed (iff_of_true rfl dot)) inside there others).cons allowed
      · simp only [allowed, if_false, Bool.false_eq_true]
        exact ⟨filed, name, List.mem_cons_self, by simpa using allowed⟩

/-- **A file whose name has a dot is written in a folder below the root, unless the name is too
long.** -/
theorem Filed.writeFile (filed : Filed root fs) (ha : root <+: a)
    (here : fs.find? a = some .folder) {name : String} (dot : '.' ∈ name.toList) (text : String) :
    fs.writeFile a name text =
      if fs.limits.allowsName name then some (fs.put (a ++ [name]) (.file text)) else none := by
  have noFolder : fs.find? (a ++ [name]) ≠ some .folder := fun found =>
    (filed.below a name .folder ha found).2.mp rfl dot
  simp [FileSystem.writeFile, here, noFolder]

/-- A file that is put somewhere is there, and the others are as before. -/
theorem file?_put (ha : a ≠ []) (text : String) (b : Address) :
    (fs.put a (.file text)).file? b = if b = a then some text else fs.file? b := by
  rw [file?, file?, find?_put ha]
  by_cases same : b = a
  · rw [if_pos same, if_pos same]
  · rw [if_neg same, if_neg same]

/-- Paths lead from the same folder to the same addresses. -/
theorem resolve_congr {fs' : FileSystem} (h : fs'.current = fs.current) (path : String) :
    fs'.resolve path = fs.resolve path := by
  rw [resolve, resolve, h]

/-- Without a bound on paths, a path counts for its address only. -/
theorem createFolders_eq (unbounded : fs.limits.path? = none) (path : String) :
    fs.createFolders path = fs.makeFolders [] (fs.resolve path) := by
  simp [createFolders, PathLimits.allowsPath, unbounded]

/-- Without a bound on paths, a path counts for its address only. -/
theorem save_eq (unbounded : fs.limits.path? = none) {path name : String}
    (leads : fs.resolve path = a ++ [name]) (text : String) :
    fs.save path text = fs.writeFile a name text := by
  simp [save, PathLimits.allowsPath, unbounded, leads]

end FileSystem

namespace SourceRoot

variable {r : SourceRoot} {notes : Notes} {fs : FileSystem}

/-! ### One write -/

/-- **A write that fails leaves all files alone**, in every file system. -/
theorem sameFiles_write_of_error {u : CompilationUnit} {e : WriteError}
    (failed : (r.write notes fs u).1 = .error e) : fs.SameFiles (r.write notes fs u).2 := by
  rw [write] at failed ⊢
  split at failed
  · exact .refl fs
  · split at failed
    · rename_i stopped
      exact FileSystem.sameFiles_createFolders (.inr stopped)
    · rename_i made
      split at failed
      · exact FileSystem.sameFiles_createFolders (.inl made)
      · cases failed

/-- Only the length of a name can be in the way of a write below the root. -/
structure Ready (r : SourceRoot) (fs : FileSystem) : Prop where
  /-- Names tell folders and files below the root apart. -/
  filed : fs.Filed (fs.resolve r.root)
  /-- The lengths of paths are not bounded. -/
  unbounded : fs.limits.path? = none

/-- What the result of a write says about the unit. -/
def Reports (r : SourceRoot) (notes : Notes) (limits : PathLimits) (u : CompilationUnit) :
    Except WriteError WrittenFile → Prop
  | .ok file => file.path = r.path u ∧ (Node.unit u).render notes r.options = .ok file.text ∧
      ∀ c ∈ u.location.components, limits.allowsName c
  | .error _ => (∃ e, (Node.unit u).render notes r.options = .error e) ∨
      ∃ c ∈ u.location.components, limits.allowsName c = false

/-- A write fails if and only if the unit has no text or a name is too long. -/
theorem Reports.isError_iff {limits : PathLimits} {u : CompilationUnit}
    {result : Except WriteError WrittenFile} (h : r.Reports notes limits u result) :
    (∃ e, result = .error e) ↔
      (∃ e, (Node.unit u).render notes r.options = .error e) ∨
        ∃ c ∈ u.location.components, limits.allowsName c = false := by
  cases result with
  | error e => exact iff_of_true ⟨e, rfl⟩ h
  | ok file =>
    obtain ⟨-, rendered, allowed⟩ := h
    refine iff_of_false (by rintro ⟨e, ⟨⟩⟩) ?_
    rintro (⟨e, unrendered⟩ | ⟨c, mem, long⟩)
    · rw [rendered] at unrendered
      cases unrendered
    · rw [allowed c mem] at long
      cases long

/-- The text of a file after a write, given the text before. -/
def textAfter (fs : FileSystem) (a : Address) (text? : Option String) :
    Except WriteError WrittenFile → Option String
  | .ok file => if fs.resolve file.path = a then some file.text else text?
  | .error _ => text?

/-- What a write leaves behind. -/
structure Leaves (r : SourceRoot) (notes : Notes) (fs : FileSystem) (u : CompilationUnit)
    (result : Except WriteError WrittenFile) (fs' : FileSystem) : Prop where
  /-- The result is right. -/
  reports : r.Reports notes fs.limits u result
  /-- The limits do not change. -/
  limits : fs'.limits = fs.limits
  /-- Paths lead to the same addresses. -/
  current : fs'.current = fs.current
  /-- Names still tell folders and files below the root apart. -/
  filed : fs'.Filed (fs.resolve r.root)
  /-- The file of the unit is changed if it was written, and no other file is. -/
  files : ∀ a, fs'.file? a = textAfter fs a (fs.file? a) result

/-- The folder of a unit has no dots in its names. -/
theorem dot_notMem_of_mem_folders {u : CompilationUnit} {name : String}
    (h : name ∈ u.location.folders) : '.' ∉ name.toList := by
  obtain ⟨n, rfl⟩ := exists_token_of_mem_packageFolders h
  exact n.notMem_token (by decide)

/-- The folder of a unit is made, unless a name is too long. -/
theorem Ready.madeFolders (ready : r.Ready fs) (u : CompilationUnit) :
    FileSystem.MadeFolders (fs.resolve r.root) fs.limits
      (fs.resolve r.root ++ u.location.folders) u.location.folders
      (fs.createFolders (parentPath (r.path u))) := by
  rw [fs.createFolders_eq ready.unbounded, r.resolve_parentPath_path fs u,
    FileSystem.makeFolders_append ready.filed.around, List.nil_append]
  exact ready.filed.makeFolders List.prefix_rfl (ready.filed.around _ List.prefix_rfl)
    fun _ => dot_notMem_of_mem_folders

/-- **What a write does.** -/
theorem Ready.leaves (ready : r.Ready fs) (notes : Notes) (u : CompilationUnit) :
    r.Leaves notes fs u (r.write notes fs u).1 (r.write notes fs u).2 := by
  have folders := ready.madeFolders u
  rw [write]
  split
  · rename_i e unrendered
    exact ⟨.inl ⟨e, unrendered⟩, rfl, rfl, ready.filed, fun _ => rfl⟩
  rename_i text rendered
  match made : fs.createFolders (parentPath (r.path u)) with
  | .error fs₁ =>
    rw [made] at folders
    obtain ⟨filed, name, mem, long⟩ := folders
    have same := FileSystem.sameFiles_createFolders (.inr made)
    exact ⟨.inr ⟨name, List.mem_append_left _ mem, long⟩, same.limits, same.current, filed,
      same.files⟩
  | .ok fs₁ =>
    rw [made] at folders
    obtain ⟨filed, there, allowed⟩ := folders
    have same := FileSystem.sameFiles_createFolders (.inl made)
    have unbounded : fs₁.limits.path? = none := by
      rw [same.limits, ready.unbounded]
    have leads : fs₁.resolve (r.path u) =
        fs.resolve r.root ++ u.location.folders ++ [u.location.file] := by
      rw [FileSystem.resolve_congr same.current, r.resolve_path fs u, List.append_assoc]
      rfl
    have below : fs.resolve r.root <+: fs.resolve r.root ++ u.location.folders :=
      List.prefix_append _ _
    have dot : '.' ∈ u.location.file.toList := u.dot_mem_fileName
    simp only [fs₁.save_eq unbounded leads text, filed.writeFile below there dot text, same.limits]
    by_cases short : fs.limits.allowsName u.location.file
    · simp only [short, if_true]
      refine ⟨⟨rfl, rendered, ?_⟩, same.limits, same.current, ?_, fun a => ?_⟩
      · exact List.forall_mem_append.mpr ⟨allowed, List.forall_mem_singleton.mpr short⟩
      · exact filed.put below (by rw [same.limits]; exact short) (by simpa using dot)
      · rw [FileSystem.file?_put (by simp), same.files, textAfter, ← leads,
          FileSystem.resolve_congr same.current]
        simp only [eq_comm]
    · simp only [short, if_false, Bool.false_eq_true]
      refine ⟨.inr ⟨u.location.file, ?_, by simpa using short⟩, same.limits, same.current, filed,
        same.files⟩
      exact List.mem_append_right _ List.mem_cons_self

/-- A root stays ready. -/
theorem Ready.write (ready : r.Ready fs) (notes : Notes) (u : CompilationUnit) :
    r.Ready (r.write notes fs u).2 := by
  have left := ready.leaves notes u
  constructor
  · rw [FileSystem.resolve_congr left.current]
    exact left.filed
  · rw [left.limits, ready.unbounded]

/-! ### Several writes -/

/-- **Each result of several writes says what became of its unit.** -/
theorem Ready.reports (ready : r.Ready fs) (notes : Notes) (us : List CompilationUnit) :
    List.Forall₂ (r.Reports notes fs.limits) us (r.writeAll notes fs us).1 := by
  induction us generalizing fs with
  | nil => exact .nil
  | cons u us ih =>
    have left := ready.leaves notes u
    have others := ih (ready.write notes u)
    rw [left.limits] at others
    exact .cons left.reports others

/-- What was written has the path of a unit. -/
theorem exists_path_eq {limits : PathLimits} {us : List CompilationUnit}
    {results : List (Except WriteError WrittenFile)} {file : WrittenFile}
    (reports : List.Forall₂ (r.Reports notes limits) us results) (h : .ok file ∈ results) :
    ∃ u, file.path = r.path u := by
  induction reports with
  | nil => cases h
  | @cons u result us results first _ ih =>
    rcases List.mem_cons.mp h with rfl | h
    · exact ⟨u, first.1⟩
    · exact ih h

/-- The text of a file after several writes follows from the results. -/
theorem Ready.file?_writeAll (ready : r.Ready fs) (notes : Notes) (us : List CompilationUnit)
    (a : Address) :
    (r.writeAll notes fs us).2.file? a =
      (r.writeAll notes fs us).1.foldl (textAfter fs a) (fs.file? a) := by
  induction us generalizing fs with
  | nil => rfl
  | cons u us ih =>
    have left := ready.leaves notes u
    have same : textAfter (r.write notes fs u).2 a = textAfter fs a := by
      funext text? result
      cases result with
      | ok file => rw [textAfter, textAfter, FileSystem.resolve_congr left.current]
      | error e => rfl
    have others := ih (ready.write notes u)
    rw [same, left.files] at others
    exact others

/-- A file that was not there before has the text of the last result for it. -/
theorem foldl_textAfter_none_eq_some_iff {results : List (Except WriteError WrittenFile)}
    {a : Address} {text : String} :
    results.foldl (textAfter fs a) none = some text ↔
      ∃ earlier file later, results = earlier ++ Except.ok file :: later ∧
        fs.resolve file.path = a ∧ file.text = text ∧
        ∀ file', .ok file' ∈ later → fs.resolve file'.path ≠ a := by
  -- the last result decides, unless it is for another file
  induction results using List.reverseRecOn with
  | nil => simp
  | append_singleton results result ih =>
    rw [List.foldl_append, List.foldl_cons, List.foldl_nil]
    by_cases here : ∃ file, result = .ok file ∧ fs.resolve file.path = a
    · obtain ⟨file, rfl, leads⟩ := here
      rw [textAfter, if_pos leads, Option.some_inj]
      constructor
      · intro same
        exact ⟨results, file, [], rfl, leads, same, by simp⟩
      · rintro ⟨earlier, file', later, split, -, rfl, last⟩
        rcases List.eq_nil_or_concat later with rfl | ⟨later, result, rfl⟩
        · obtain rfl : file = file' := by simpa using (List.append_inj' split rfl).2
          rfl
        · rw [List.concat_eq_append] at split last
          rw [← List.cons_append, ← List.append_assoc] at split
          obtain rfl : .ok file = result := by simpa using (List.append_inj' split rfl).2
          exact absurd leads (last file (by simp))
    · have unchanged : ∀ text?, textAfter fs a text? result = text? := by
        intro text?
        cases result with
        | error e => rfl
        | ok file => exact if_neg fun leads => here ⟨file, rfl, leads⟩
      rw [unchanged, ih]
      constructor
      · rintro ⟨earlier, file, later, rfl, leads, rfl, last⟩
        refine ⟨earlier, file, later ++ [result], by simp, leads, rfl, fun file' mem => ?_⟩
        rcases List.mem_append.mp mem with mem | mem
        · exact last file' mem
        · exact fun leads => here ⟨file', (List.mem_singleton.mp mem).symm, leads⟩
      · rintro ⟨earlier, file, later, split, leads, rfl, last⟩
        rcases List.eq_nil_or_concat later with rfl | ⟨later, result', rfl⟩
        · obtain rfl : result = .ok file := by simpa using (List.append_inj' split rfl).2
          exact absurd ⟨file, rfl, leads⟩ here
        · rw [List.concat_eq_append] at split last
          rw [← List.cons_append, ← List.append_assoc] at split
          exact ⟨earlier, file, later, (List.append_inj' split rfl).1, leads, rfl,
            fun file' mem => last file' (List.mem_append_left _ mem)⟩

/-- A root that is there and empty is ready if paths are not bounded. -/
theorem ready_of_empty (unbounded : fs.limits.path? = none)
    (around : ∀ a, a <+: fs.resolve r.root → fs.find? a = some .folder)
    (empty : ∀ a, a ≠ [] → fs.find? (fs.resolve r.root ++ a) = none) : r.Ready fs := by
  refine ⟨⟨around, ?_⟩, unbounded⟩
  rintro _ name e ⟨a, rfl⟩ found
  rw [List.append_assoc, empty (a ++ [name]) (by simp)] at found
  cases found

/-- **Units written below an empty root get in each other's way only by having the same path, and
then the last one counts.**

A write fails if and only if the unit has no text or a component of its path below the root is too
long. Afterwards there is a file for each path that was written, with the text that was written
last, and no other file. A write that fails changes no file. -/
theorem writeAll_last_wins (r : SourceRoot) (notes : Notes) (fs : FileSystem)
    (limits : fs.limits = { name := 255, path? := none })
    (around : ∀ a, a <+: fs.resolve r.root → fs.find? a = some .folder)
    (empty : ∀ a, a ≠ [] → fs.find? (fs.resolve r.root ++ a) = none)
    (us : List CompilationUnit) :
    (∀ u, fs.resolve (r.path u) = fs.resolve r.root ++ u.location.components) ∧
    List.Forall₂ (fun u result =>
        (∀ file, result = .ok file →
          file.path = r.path u ∧ (Node.unit u).render notes r.options = .ok file.text) ∧
        ((∃ e, result = .error e) ↔
          (∃ e, (Node.unit u).render notes r.options = .error e) ∨
            ∃ c ∈ u.location.components, 255 < c.utf8ByteSize))
      us (r.writeAll notes fs us).1 ∧
    (∀ a text, fs.resolve r.root <+: a →
      ((r.writeAll notes fs us).2.file? a = some text ↔
        ∃ earlier file later, (r.writeAll notes fs us).1 = earlier ++ .ok file :: later ∧
          fs.resolve file.path = a ∧ file.text = text ∧
          ∀ file', .ok file' ∈ later → file'.path ≠ file.path)) ∧
    (∀ fs' u e, (r.write notes fs' u).1 = .error e →
      ∀ a, (r.write notes fs' u).2.file? a = fs'.file? a) := by
  have ready : r.Ready fs := ready_of_empty (by rw [limits]) around empty
  have reports := ready.reports notes us
  have before : ∀ a, fs.resolve r.root <+: a → fs.file? a = none := by
    rintro _ ⟨a, rfl⟩
    by_cases nil : a = []
    · rw [nil, List.append_nil, FileSystem.file?, around _ List.prefix_rfl]
    · rw [FileSystem.file?, empty a nil]
  refine ⟨r.resolve_path fs, reports.imp fun u result h => ?_, fun a text ha => ?_, ?_⟩
  · refine ⟨?_, h.isError_iff.trans (or_congr_right ?_)⟩
    · rintro file rfl
      exact ⟨h.1, h.2.1⟩
    · simp [PathLimits.allowsName, limits]
  · rw [ready.file?_writeAll, before a ha, foldl_textAfter_none_eq_some_iff]
    refine exists_congr fun earlier => exists_congr fun file => exists_congr fun later =>
      and_congr_right fun split => and_congr_right ?_
    rintro rfl
    refine and_congr_right fun _ => forall₂_congr fun file' mem => not_congr ?_
    have first : .ok file ∈ (r.writeAll notes fs us).1 := by simp [split]
    have second : .ok file' ∈ (r.writeAll notes fs us).1 := by simp [split, mem]
    obtain ⟨u, path⟩ := exists_path_eq reports first
    obtain ⟨u', path'⟩ := exists_path_eq reports second
    rw [path, path', r.resolve_path_inj]
  · exact fun fs' u e failed => (sameFiles_write_of_error failed).files

/-- Two units for the same package, the second of them with a comment. -/
theorem writeAll_last_wins_package :
    let r : SourceRoot := { root := "out" }
    let fs : FileSystem := { limits := { path? := none }, entries := [(["out"], .folder)] }
    let package : PackageDeclaration := ⟨none, none, [], .simple ⟨none, "a", rfl⟩⟩
    let us : List CompilationUnit :=
      [⟨none, some package, [], [], []⟩, ⟨none, some package, [], [], [.line none "new"]⟩]
    fs.limits = { name := 255, path? := none } ∧
    (∀ a, a <+: fs.resolve r.root → fs.find? a = some .folder) ∧
    (∀ a, a ≠ [] → fs.find? (fs.resolve r.root ++ a) = none) ∧
    (r.writeAll {} fs us).2.file? ["out", "a", "package-info.java"] =
      some "//new\n\npackage a;\n" := by
  intro r fs package us
  have root : fs.resolve r.root = ["out"] := by decide
  have around : ∀ a, a <+: fs.resolve r.root → fs.find? a = some .folder := by
    intro a ha
    rw [root] at ha
    rcases List.prefix_cons_iff.mp ha with rfl | ⟨b, rfl, hb⟩
    · rfl
    · rw [List.prefix_nil.mp hb]
      rfl
  have empty : ∀ a, a ≠ [] → fs.find? (fs.resolve r.root ++ a) = none := by
    intro a ha
    obtain ⟨name, a, rfl⟩ := List.exists_cons_of_ne_nil ha
    rw [root]
    rfl
  refine ⟨rfl, around, empty, ?_⟩
  refine ((writeAll_last_wins r {} fs rfl around empty us).2.2.1 _ _ ?_).mpr ?_
  · rw [root]
    exact ⟨["a", "package-info.java"], rfl⟩
  · exact ⟨[.ok ⟨"out/a/package-info.java", "package a;\n"⟩],
      ⟨"out/a/package-info.java", "//new\n\npackage a;\n"⟩, [], by decide, by decide, rfl, by simp⟩

end SourceRoot

end JavaSource
