import Mathlib

/-! Directory trees, and two walks over them: one calls a function on every entry in lexical order,
and one lists the directories. -/
namespace Library

/-- The entries of a directory, as they are listed. -/
inductive Entries where
  | nil
  | file (name : String) (rest : Entries)
  | dir (name : String) (below rest : Entries)
  deriving Repr, DecidableEq

/-- The names on the way from the root. -/
abbrev Path := List String

namespace Entries

def names : Entries → List String
  | nil => []
  | file name rest => name :: rest.names
  | dir name _ rest => name :: rest.names

/-- The regular files in and below the directory, from there. -/
def files : Entries → List Path
  | nil => []
  | file name rest => [name] :: rest.files
  | dir name below rest => below.files.map (name :: ·) ++ rest.files

/-- The directories among the entries, with what is in them. -/
def folders : Entries → List (String × Entries)
  | nil => []
  | file _ rest => rest.folders
  | dir name below rest => (name, below) :: rest.folders

def folderNames (f : Entries) : List String := f.folders.map Prod.fst

/-- The directories below, from the top, with the way to each. -/
def foldersBelow (base : Path) : Entries → List (Path × Entries)
  | nil => []
  | file _ rest => rest.foldersBelow base
  | dir name below rest =>
    (base ++ [name], below) :: below.foldersBelow (base ++ [name]) ++ rest.foldersBelow base

/-- The directory with a path. -/
def folderAt (f : Entries) : Path → Option Entries
  | [] => some f
  | name :: p => (f.folders.lookup name).bind (folderAt · p)

/-- The regular files among the entries. -/
def fileNames : Entries → List String
  | nil => []
  | file name rest => name :: rest.fileNames
  | dir _ _ rest => rest.fileNames

/-- No name comes twice in one directory. -/
def Distinct : Entries → Prop
  | nil => True
  | file name rest => name ∉ rest.names ∧ rest.Distinct
  | dir name below rest => name ∉ rest.names ∧ below.Distinct ∧ rest.Distinct

/-- The directory at the end of a path. -/
inductive Folder : Entries → Path → Entries → Prop where
  | here {f : Entries} : Folder f [] f
  | inside {f below g : Entries} {name : String} {p : Path} (hname : (name, below) ∈ f.folders)
      (h : Folder below p g) : Folder f (name :: p) g

/-- All directories are listed in lexical order, and no name comes twice in one. -/
def Sorted : Entries → Prop
  | nil => True
  | file name rest => (∀ n ∈ rest.names, name < n) ∧ rest.Sorted
  | dir name below rest => (∀ n ∈ rest.names, name < n) ∧ below.Sorted ∧ rest.Sorted

end Entries

/-- A directory, with the order in which `readDirNames` lists it. -/
structure Directory where
  entries : Entries
  sorted : entries.Sorted

/-- A directory that is listed in any order. -/
structure DirTree where
  entries : Entries
  distinct : entries.Distinct

/-- What a walk function returns: `nil`, or `SkipDir`. -/
inductive WalkReturn where
  | next
  | skipDir
  deriving Repr, DecidableEq

/-- A walk function: from the path of an entry, and whether it is a directory, to what it returns
and what it reports. -/
abbrev WalkFunc (ε : Type) := Path → Bool → WalkReturn × List ε

/-- The loop over the entries of a directory `d`. `SkipDir` for a directory skips what is below it;
for a file it skips the entries that are left, and the walk goes on behind `d`. -/
def walkEntries {ε : Type} (walkFn : WalkFunc ε) (d : Path) : Entries → List ε
  | .nil => []
  | .file name rest =>
    match walkFn (d ++ [name]) false with
    | (.skipDir, found) => found
    | (.next, found) => found ++ walkEntries walkFn d rest
  | .dir name below rest =>
    match walkFn (d ++ [name]) true with
    | (.skipDir, found) => found ++ walkEntries walkFn d rest
    | (.next, found) => found ++ walkEntries walkFn (d ++ [name]) below ++ walkEntries walkFn d rest

/-- `filepath.Walk`, which begins at the root itself. -/
def walk {ε : Type} (walkFn : WalkFunc ε) (root : Directory) : List ε :=
  match walkFn [] true with
  | (.skipDir, found) => found
  | (.next, found) => found ++ walkEntries walkFn [] root.entries

/-- What `os.walk` finds below a directory: each directory, from the top, with the names of those in
it. -/
def osWalkFolders (base : Path) : Entries → List (Path × List String)
  | .nil => []
  | .file _ rest => osWalkFolders base rest
  | .dir name below rest =>
    (base ++ [name], below.folderNames) :: osWalkFolders (base ++ [name]) below ++
      osWalkFolders base rest

/-- `os.walk`, which begins at the root itself. -/
def osWalk (tree : DirTree) : List (Path × List String) :=
  ([], tree.entries.folderNames) :: osWalkFolders [] tree.entries

/-- The files that `os.walk` comes to below a directory, those of a directory before those below
it. -/
def osWalkFilesBelow (base : Path) : Entries → List Path
  | .nil => []
  | .file _ rest => osWalkFilesBelow base rest
  | .dir name below rest =>
    below.fileNames.map (fun f => base ++ [name, f]) ++ osWalkFilesBelow (base ++ [name]) below ++
      osWalkFilesBelow base rest

/-- All files that `os.walk` comes to. -/
def osWalkFiles (tree : DirTree) : List Path :=
  tree.entries.fileNames.map ([·]) ++ osWalkFilesBelow [] tree.entries

namespace Entries

variable {p s : Path} {f below : Entries} {m n : String}

/-- A file lies at or below one of the names. -/
theorem exists_of_mem_files (h : p ∈ f.files) : ∃ n ∈ f.names, ∃ s, p = n :: s := by
  induction f with
  | nil => cases h
  | file name rest ih =>
    obtain rfl | h := List.mem_cons.mp h
    · exact ⟨name, List.mem_cons_self, [], rfl⟩
    · obtain ⟨n, hn, s, hp⟩ := ih h
      exact ⟨n, List.mem_cons_of_mem _ hn, s, hp⟩
  | dir name below rest _ ih =>
    obtain h | h := List.mem_append.mp h
    · obtain ⟨s, _, hp⟩ := List.mem_map.mp h
      exact ⟨name, List.mem_cons_self, s, hp.symm⟩
    · obtain ⟨n, hn, s, hp⟩ := ih h
      exact ⟨n, List.mem_cons_of_mem _ hn, s, hp⟩

theorem mem_names (h : n :: s ∈ f.files) : n ∈ f.names := by
  obtain ⟨n', hn', s', hp⟩ := exists_of_mem_files h
  cases hp
  exact hn'

theorem nil_not_mem_files : [] ∉ f.files := by
  intro h
  obtain ⟨_, _, _, hp⟩ := exists_of_mem_files h
  cases hp

@[simp] theorem mem_files_file : p ∈ (file m f).files ↔ p = [m] ∨ p ∈ f.files := List.mem_cons

theorem mem_files_dir : p ∈ (dir m below f).files ↔
    (∃ s ∈ below.files, p = m :: s) ∨ p ∈ f.files := by
  simp only [files, List.mem_append, List.mem_map, eq_comm]

theorem folderNames_sublist (f : Entries) : f.folderNames.Sublist f.names := by
  induction f with
  | nil => exact .slnil
  | file name rest ih => exact ih.cons name
  | dir name below rest _ ih => exact ih.cons_cons name

theorem Distinct.folderNames_nodup (h : f.Distinct) : f.folderNames.Nodup := by
  have hnames : f.names.Nodup := by
    induction f with
    | nil => exact .nil
    | file name rest ih => exact List.nodup_cons.mpr ⟨h.1, ih h.2⟩
    | dir name below rest _ ih => exact List.nodup_cons.mpr ⟨h.1, ih h.2.2⟩
  exact hnames.sublist (folderNames_sublist f)

theorem Distinct.of_folder (h : f.Distinct) (hm : (n, below) ∈ f.folders) : below.Distinct := by
  induction f with
  | nil => cases hm
  | file name rest ih => exact ih h.2 hm
  | dir name other rest _ ih =>
    rcases List.mem_cons.mp hm with heq | hm
    · cases heq
      exact h.2.1
    · exact ih h.2.2 hm

theorem folder_cons_iff {g : Entries} :
    Folder f (n :: p) g ↔ ∃ below, (n, below) ∈ f.folders ∧ Folder below p g := by
  constructor
  · intro h
    cases h with
    | inside hname h => exact ⟨_, hname, h⟩
  · rintro ⟨below, hname, h⟩
    exact .inside hname h

theorem folder_append {g : Entries} :
    Folder f (p ++ s) g ↔ ∃ above, Folder f p above ∧ Folder above s g := by
  induction p generalizing f with
  | nil =>
    rw [List.nil_append]
    constructor
    · exact fun h => ⟨f, .here, h⟩
    · rintro ⟨above, hfolder, h⟩
      cases hfolder
      exact h
  | cons m p ih =>
    rw [List.cons_append, folder_cons_iff]
    constructor
    · rintro ⟨below, hm, hfolder⟩
      obtain ⟨above, habove, h⟩ := ih.mp hfolder
      exact ⟨above, .inside hm habove, h⟩
    · rintro ⟨above, hfolder, h⟩
      obtain ⟨below, hm, habove⟩ := folder_cons_iff.mp hfolder
      exact ⟨below, hm, ih.mpr ⟨above, habove, h⟩⟩

theorem folder_append_singleton {g : Entries} : Folder f (p ++ [n]) g ↔
    ∃ above, Folder f p above ∧ (n, g) ∈ above.folders := by
  have hone (above : Entries) : Folder above [n] g ↔ (n, g) ∈ above.folders := by
    rw [folder_cons_iff]
    constructor
    · rintro ⟨below, hname, h⟩
      cases h
      exact hname
    · exact fun hname => ⟨g, hname, .here⟩
  simp only [folder_append, hone]

/-- A directory is found by its name. -/
theorem Distinct.lookup_iff (h : f.Distinct) :
    f.folders.lookup n = some below ↔ (n, below) ∈ f.folders := by
  have hnodup := h.folderNames_nodup
  unfold folderNames at hnodup
  generalize f.folders = folders at hnodup
  induction folders with
  | nil => simp
  | cons folder folders ih =>
    obtain ⟨name, other⟩ := folder
    obtain ⟨hname, hrest⟩ := List.nodup_cons.mp hnodup
    by_cases heq : n = name
    · subst heq
      have hnot : (n, below) ∉ folders := fun hm => hname (List.mem_map.mpr ⟨_, hm, rfl⟩)
      simp [hnot, eq_comm]
    · have hb : (n == name) = false := by simpa using heq
      simp [List.lookup_cons, hb, heq, ih hrest]

theorem Distinct.folderAt_iff {g : Entries} (h : f.Distinct) : f.folderAt p = some g ↔ Folder f p g := by
  induction p generalizing f with
  | nil =>
    rw [folderAt, Option.some_inj]
    constructor
    · rintro rfl
      exact .here
    · intro hfolder
      cases hfolder
      rfl
  | cons n p ih =>
    rw [folderAt, Option.bind_eq_some_iff, folder_cons_iff]
    constructor
    · rintro ⟨below, hname, hbelow⟩
      have hname := h.lookup_iff.mp hname
      exact ⟨below, hname, (ih (h.of_folder hname)).mp hbelow⟩
    · rintro ⟨below, hname, hbelow⟩
      exact ⟨below, h.lookup_iff.mpr hname, (ih (h.of_folder hname)).mpr hbelow⟩

/-- Those are the directories at every depth. -/
theorem mem_foldersBelow {g : Entries} {base q : Path} :
    (q, g) ∈ f.foldersBelow base ↔ ∃ n p, q = base ++ n :: p ∧ Folder f (n :: p) g := by
  induction f generalizing base with
  | nil => simp [foldersBelow, folder_cons_iff, folders]
  | file name rest ih =>
    rw [foldersBelow, ih]
    simp only [folder_cons_iff, folders]
  | dir name below rest ihBelow ihRest =>
    rw [foldersBelow, List.cons_append, List.mem_cons, List.mem_append, ihBelow, ihRest]
    constructor
    · rintro (heq | ⟨n, p, rfl, hfolder⟩ | ⟨n, p, rfl, hfolder⟩)
      · cases heq
        exact ⟨name, [], rfl, .inside List.mem_cons_self .here⟩
      · exact ⟨name, n :: p, List.append_assoc _ _ _, .inside List.mem_cons_self hfolder⟩
      · obtain ⟨other, hname, hfolder⟩ := folder_cons_iff.mp hfolder
        exact ⟨n, p, rfl, .inside (List.mem_cons_of_mem _ hname) hfolder⟩
    · rintro ⟨n, p, rfl, hfolder⟩
      obtain ⟨other, hname, hfolder⟩ := folder_cons_iff.mp hfolder
      rcases List.mem_cons.mp hname with heq | hname
      · cases heq
        cases p with
        | nil =>
          cases hfolder
          exact Or.inl rfl
        | cons m p => exact Or.inr (Or.inl ⟨m, p, by simp, hfolder⟩)
      · exact Or.inr (Or.inr ⟨n, p, rfl, .inside hname hfolder⟩)

theorem mem_foldersAt {g : Entries} : (p, g) ∈ ([], f) :: f.foldersBelow [] ↔ Folder f p g := by
  rw [List.mem_cons, mem_foldersBelow]
  constructor
  · rintro (heq | ⟨n, p, rfl, hfolder⟩)
    · cases heq
      exact .here
    · exact hfolder
  · intro hfolder
    cases p with
    | nil =>
      cases hfolder
      exact Or.inl rfl
    | cons n p => exact Or.inr ⟨n, p, rfl, hfolder⟩

/-- Below a path lie the directories that are listed at it. -/
theorem Distinct.folder_append_iff {g : Entries} (h : f.Distinct) : Folder f (p ++ s) g ↔
    ∃ above, f.folderAt p = some above ∧ (s, g) ∈ ([], above) :: above.foldersBelow [] := by
  simp only [folder_append, h.folderAt_iff, mem_foldersAt]

end Entries

section
open Entries
variable {tree : DirTree} {q : Path} {dirs : List String}

theorem osWalkFolders_eq (base : Path) (d : Entries) : osWalkFolders base d =
    (d.foldersBelow base).map fun folder => (folder.1, folder.2.folderNames) := by
  induction d generalizing base with
  | nil => rfl
  | file name rest ih => rw [osWalkFolders, ih, foldersBelow]
  | dir name below rest ihBelow ihRest =>
    rw [osWalkFolders, ihBelow, ihRest, foldersBelow, List.map_append, List.map_cons]

/-- The walk finds the directories at every depth. -/
theorem mem_osWalk : (q, dirs) ∈ osWalk tree ↔
    ∃ g, Folder tree.entries q g ∧ dirs = g.folderNames := by
  have hwalk : osWalk tree = (([], tree.entries) :: tree.entries.foldersBelow []).map
      fun folder => (folder.1, folder.2.folderNames) := by
    rw [osWalk, osWalkFolders_eq, List.map_cons]
  rw [hwalk, List.mem_map]
  constructor
  · rintro ⟨⟨_, g⟩, hmem, heq⟩
    cases heq
    exact ⟨g, mem_foldersAt.mp hmem, rfl⟩
  · rintro ⟨g, hfolder, rfl⟩
    exact ⟨_, mem_foldersAt.mpr hfolder, rfl⟩

theorem mem_osWalkFilesBelow {d : Entries} {base : Path} :
    q ∈ d.fileNames.map (fun f => base ++ [f]) ++ osWalkFilesBelow base d ↔
      ∃ p ∈ d.files, q = base ++ p := by
  induction d generalizing base with
  | nil => simp [fileNames, osWalkFilesBelow, files]
  | file name rest ih =>
    rw [fileNames, osWalkFilesBelow, files, List.map_cons, List.cons_append, List.mem_cons, ih]
    simp
  | dir name below rest ihBelow ihRest =>
    have hbelow : q ∈ below.fileNames.map (fun f => base ++ [name, f]) ++
        osWalkFilesBelow (base ++ [name]) below ↔ ∃ p ∈ below.files, q = base ++ name :: p := by
      simpa using @ihBelow (base ++ [name])
    have hsplit : q ∈ rest.fileNames.map (fun f => base ++ [f]) ++
          osWalkFilesBelow base (.dir name below rest) ↔
        q ∈ below.fileNames.map (fun f => base ++ [name, f]) ++
          osWalkFilesBelow (base ++ [name]) below ∨
          q ∈ rest.fileNames.map (fun f => base ++ [f]) ++ osWalkFilesBelow base rest := by
      simp only [osWalkFilesBelow, List.mem_append]
      tauto
    rw [fileNames, hsplit, hbelow, ihRest]
    simp only [mem_files_dir]
    constructor
    · rintro (⟨p, hp, rfl⟩ | ⟨p, hp, rfl⟩)
      · exact ⟨name :: p, Or.inl ⟨p, hp, rfl⟩, rfl⟩
      · exact ⟨p, Or.inr hp, rfl⟩
    · rintro ⟨_, ⟨p, hp, rfl⟩ | hp, rfl⟩
      · exact Or.inl ⟨p, hp, rfl⟩
      · exact Or.inr ⟨_, hp, rfl⟩

/-- The walk comes to all files, and to nothing else. -/
theorem mem_osWalkFiles : q ∈ osWalkFiles tree ↔ q ∈ tree.entries.files := by
  have h : q ∈ tree.entries.fileNames.map (fun f => [] ++ [f]) ++ osWalkFilesBelow [] tree.entries ↔
      ∃ p ∈ tree.entries.files, q = [] ++ p := mem_osWalkFilesBelow
  simpa [osWalkFiles] using h

/-- A walk whose function goes on from what another one reports. -/
theorem walkEntries_flatMap {ε δ : Type} {walkFn : WalkFunc ε} (f : ε → List δ) (d : Path) (es : Entries) :
    walkEntries (fun path isDir => ((walkFn path isDir).1, (walkFn path isDir).2.flatMap f)) d es =
      (walkEntries walkFn d es).flatMap f := by
  induction es generalizing d with
  | nil => rfl
  | file name rest ih =>
    rw [walkEntries, walkEntries]
    rcases walkFn (d ++ [name]) false with ⟨_ | _, found⟩
    · simp [ih]
    · rfl
  | dir name below rest ihBelow ihRest =>
    rw [walkEntries, walkEntries]
    rcases walkFn (d ++ [name]) true with ⟨_ | _, found⟩
    · simp [ihBelow, ihRest]
    · simp [ihRest]

theorem walk_flatMap {ε δ : Type} {walkFn : WalkFunc ε} (f : ε → List δ) (root : Directory) :
    walk (fun path isDir => ((walkFn path isDir).1, (walkFn path isDir).2.flatMap f)) root =
      (walk walkFn root).flatMap f := by
  rw [walk, walk]
  rcases walkFn [] true with ⟨_ | _, found⟩
  · simp [walkEntries_flatMap]
  · rfl

end
end Library
