import Manifests.Library.FileTree

/-! The repository validators: five walks over the tree, and the files at which each makes its
checks. -/
namespace Manifests.Validators
open Library

/-- `filepath.Rel(rootDir, path)` of an entry at or below the root. -/
def relPath (path : Path) : String := if path = [] then "." else "/".intercalate path

/-- The characters from the last dot on. -/
def extOf : List Char → List Char
  | [] => []
  | c :: cs =>
    match extOf cs with
    | [] => if c = '.' then c :: cs else []
    | e => e

/-- `filepath.Ext(name)`. -/
def ext (name : String) : String := String.ofList (extOf name.toList)

/-- `unicode.ToLower`, as far as it matters for an ASCII result: besides the ASCII capitals, the
dotted capital I and the Kelvin sign become ASCII letters. -/
def lowerChar (c : Char) : Char :=
  if c = Char.ofNat 0x130 then 'i' else if c = Char.ofNat 0x212A then 'k' else c.toLower

/-- `strings.ToLower(name)`. -/
def toLower (name : String) : String := String.ofList (name.toList.map lowerChar)

/-- A walk by its excluded paths and by the names whose files it checks. -/
structure Validator where
  excludes : List String
  looksFor : String → Bool

def kustomizationFile : String := "kustomization.yaml"

def isYaml (name : String) : Bool := ext name = ".yaml" || ext name = ".yml"

def testCommonLabelsImmutable : Validator where
  excludes := ["tests", ".git", ".github"]
  looksFor name := name = kustomizationFile

def testValidK8sResources : Validator where
  excludes := ["tests", ".git", ".github", "profiles/overlays/test",
    "distributions/gcp/v2/management/cnrm-install"]
  looksFor := isYaml

def testCheckWebhookSelector : Validator where
  excludes := ["tests", ".git", ".github"]
  looksFor := isYaml

def testNoObsoleteKustomizations : Validator where
  excludes := ["tests", ".git", ".github", "profiles/overlays/test",
    "distributions/gcp/v2/management/cnrm-install"]
  looksFor name := toLower name = "kustomization.yaml"

def fixCommonLabels : Validator where
  excludes := ["tests", ".git", ".github"]
  looksFor name := name = kustomizationFile

def validators : List Validator :=
  [testCommonLabelsImmutable, testValidK8sResources, testCheckWebhookSelector,
    testNoObsoleteKustomizations, fixCommonLabels]

/-- The function of the walk, which reports the files it checks. The exclusion comes before the
question whether the entry is a directory. -/
def Validator.walkFn (v : Validator) : WalkFunc Path := fun path isDir =>
  if relPath path ∈ v.excludes then (.skipDir, [])
  else if isDir then (.next, [])
  else if v.looksFor (path.getLastD "") then (.next, [path]) else (.next, [])

/-- The files that reach the check. -/
def Validator.checked (v : Validator) (root : Directory) : List Path := walk v.walkFn root

/-- The path is, or lies below, an excluded one. -/
def Validator.Excluded (v : Validator) (path : Path) : Prop :=
  ∃ above, above <+: path ∧ relPath above ∈ v.excludes

/-- The file has a name that the validator looks for, and is not excluded. -/
def Validator.Wanted (v : Validator) (path : Path) : Prop :=
  v.looksFor (path.getLastD "") = true ∧ ¬ v.Excluded path

/-- The validator looks at all files that it claims to. -/
def Validator.Complete (v : Validator) (root : Directory) : Prop :=
  ∀ path ∈ root.entries.files, v.Wanted path → path ∈ v.checked root

/-- Behind no regular file at an excluded path does a wanted file follow in the same directory, or
below an entry of it. -/
def Validator.NoHole (v : Validator) (root : Directory) : Prop :=
  ∀ d a n s, d ++ [a] ∈ root.entries.files → relPath (d ++ [a]) ∈ v.excludes →
    d ++ n :: s ∈ root.entries.files → v.Wanted (d ++ n :: s) → ¬ a < n

variable {v : Validator} {d p q s : Path} {f below : Entries} {a m n : String} {root : Directory}

theorem not_excluded_snoc (hd : ¬ v.Excluded d) (hm : relPath (d ++ [m]) ∉ v.excludes) :
    ¬ v.Excluded (d ++ [m]) := by
  rintro ⟨above, hpre, hin⟩
  obtain heq | hpre := List.prefix_concat_iff.mp hpre
  · exact hm (heq ▸ hin)
  · exact hd ⟨above, hpre, hin⟩

theorem excluded_of_above (hm : relPath (d ++ [m]) ∈ v.excludes) : v.Excluded (d ++ m :: s) :=
  ⟨d ++ [m], by simp, hm⟩

/-- On the way from `d` to its file `q`, no excluded regular file comes before the branch that
leads to `q`. -/
def Uncut (v : Validator) (d : Path) (f : Entries) (q : Path) : Prop :=
  ∀ t a n s, q = t ++ n :: s → t ++ [a] ∈ f.files → relPath (d ++ t ++ [a]) ∈ v.excludes → ¬ a < n

theorem uncut_file_self (hm : relPath (d ++ [m]) ∉ v.excludes) (hlt : ∀ n ∈ f.names, m < n) :
    Uncut v d (.file m f) [m] := by
  intro t a n s hq ha hin
  obtain ⟨rfl, rfl, rfl⟩ : t = [] ∧ m = n ∧ s = [] := by cases t <;> simp_all
  rw [List.append_nil] at hin
  obtain ha | ha := Entries.mem_files_file.mp ha
  · cases ha
    exact (hm hin).elim
  · exact (hlt a (Entries.mem_names ha)).not_gt

theorem uncut_file (hlt : m < n) : Uncut v d (.file m f) (n :: s) ↔
    relPath (d ++ [m]) ∉ v.excludes ∧ Uncut v d f (n :: s) := by
  constructor
  · intro h
    refine ⟨fun hin => ?_, fun t a n' s' hq ha hin => ?_⟩
    · exact h [] m n s rfl List.mem_cons_self (by simpa using hin) hlt
    · exact h t a n' s' hq (List.mem_cons_of_mem _ ha) hin
  · rintro ⟨hm, h⟩ t a n' s' hq ha hin
    obtain ha | ha := Entries.mem_files_file.mp ha
    · obtain ⟨rfl, rfl⟩ : t = [] ∧ a = m := by cases t <;> simp_all
      exact (hm (by simpa using hin)).elim
    · exact h t a n' s' hq ha hin

/-- What lies below a directory does not cut off the entries behind it. -/
theorem uncut_dir_rest (hlt : m < n) :
    Uncut v d (.dir m below f) (n :: s) ↔ Uncut v d f (n :: s) := by
  constructor
  · intro h t a n' s' hq ha hin
    exact h t a n' s' hq (Entries.mem_files_dir.mpr (Or.inr ha)) hin
  · intro h t a n' s' hq ha hin
    obtain ⟨u, hu, ha⟩ | ha := Entries.mem_files_dir.mp ha
    · cases t with
      | nil =>
        obtain rfl : u = [] := by simp_all
        exact (Entries.nil_not_mem_files hu).elim
      | cons k t =>
        obtain ⟨rfl, rfl⟩ : n = k ∧ k = m := by simp_all
        exact (lt_irrefl _ hlt).elim
    · exact h t a n' s' hq ha hin

/-- Entries behind a directory do not cut off what lies below it. -/
theorem uncut_dir_below (hlt : ∀ n ∈ f.names, m < n) :
    Uncut v d (.dir m below f) (m :: s) ↔ Uncut v (d ++ [m]) below s := by
  constructor
  · intro h t a n' s' hq ha hin
    refine h (m :: t) a n' s' (by simp [hq]) ?_ (by simpa using hin)
    exact Entries.mem_files_dir.mpr (Or.inl ⟨_, ha, rfl⟩)
  · intro h t a n' s' hq ha hin
    cases t with
    | nil =>
      obtain ⟨rfl, rfl⟩ : m = n' ∧ s = s' := by simp_all
      obtain ⟨u, hu, ha⟩ | ha := Entries.mem_files_dir.mp ha
      · obtain rfl : u = [] := by simp_all
        exact (Entries.nil_not_mem_files hu).elim
      · exact (hlt a (Entries.mem_names ha)).not_gt
    | cons k t =>
      obtain ⟨rfl, htail⟩ : m = k ∧ s = t ++ n' :: s' := by simpa using hq
      obtain ⟨u, hu, ha⟩ | ha := Entries.mem_files_dir.mp ha
      · obtain rfl : t ++ [a] = u := by simp_all
        exact h t a n' s' htail hu (by simpa using hin)
      · exact (lt_irrefl _ (hlt m (Entries.mem_names ha))).elim

/-- A regular file at an excluded path ends the walk through its directory. -/
theorem walkEntries_file_excluded (hm : relPath (d ++ [m]) ∈ v.excludes) :
    walkEntries v.walkFn d (.file m f) = [] := by
  simp [walkEntries, Validator.walkFn, hm]

theorem mem_walkEntries_file (hm : relPath (d ++ [m]) ∉ v.excludes) :
    p ∈ walkEntries v.walkFn d (.file m f) ↔
      (p = d ++ [m] ∧ v.looksFor m = true) ∨ p ∈ walkEntries v.walkFn d f := by
  by_cases hlooks : v.looksFor m = true <;> simp [walkEntries, Validator.walkFn, hm, hlooks]

/-- A directory at an excluded path is passed over. -/
theorem walkEntries_dir_excluded (hm : relPath (d ++ [m]) ∈ v.excludes) :
    walkEntries v.walkFn d (.dir m below f) = walkEntries v.walkFn d f := by
  simp [walkEntries, Validator.walkFn, hm]

theorem mem_walkEntries_dir (hm : relPath (d ++ [m]) ∉ v.excludes) :
    p ∈ walkEntries v.walkFn d (.dir m below f) ↔
      p ∈ walkEntries v.walkFn (d ++ [m]) below ∨ p ∈ walkEntries v.walkFn d f := by
  simp [walkEntries, Validator.walkFn, hm]

/-- The walk through a directory checks the wanted files that are not cut off. -/
theorem mem_walkEntries_iff (hs : f.Sorted) (hd : ¬ v.Excluded d) :
    p ∈ walkEntries v.walkFn d f ↔ ∃ q ∈ f.files, p = d ++ q ∧ v.Wanted p ∧ Uncut v d f q := by
  induction f generalizing d with
  | nil => simp [walkEntries, Entries.files]
  | file m rest ih =>
    obtain ⟨hlt, hrest⟩ := hs
    by_cases hm : relPath (d ++ [m]) ∈ v.excludes
    · rw [walkEntries_file_excluded hm]
      refine iff_of_false List.not_mem_nil ?_
      rintro ⟨q, hq, rfl, hwanted, huncut⟩
      obtain rfl | hq := Entries.mem_files_file.mp hq
      · exact hwanted.2 (excluded_of_above hm)
      · obtain ⟨n, hn, s, rfl⟩ := Entries.exists_of_mem_files hq
        exact ((uncut_file (hlt n hn)).mp huncut).1 hm
    · rw [mem_walkEntries_file hm, ih hrest hd]
      constructor
      · rintro (⟨rfl, hlooks⟩ | ⟨q, hq, rfl, hwanted, huncut⟩)
        · exact ⟨[m], List.mem_cons_self, rfl, ⟨by simpa using hlooks, not_excluded_snoc hd hm⟩,
            uncut_file_self hm hlt⟩
        · obtain ⟨n, hn, s, rfl⟩ := Entries.exists_of_mem_files hq
          exact ⟨_, List.mem_cons_of_mem _ hq, rfl, hwanted, (uncut_file (hlt n hn)).mpr ⟨hm, huncut⟩⟩
      · rintro ⟨q, hq, rfl, hwanted, huncut⟩
        obtain rfl | hq := Entries.mem_files_file.mp hq
        · exact Or.inl ⟨rfl, by simpa using hwanted.1⟩
        · obtain ⟨n, hn, s, rfl⟩ := Entries.exists_of_mem_files hq
          exact Or.inr ⟨_, hq, rfl, hwanted, ((uncut_file (hlt n hn)).mp huncut).2⟩
  | dir m below rest ihb ihr =>
    obtain ⟨hlt, hbelow, hrest⟩ := hs
    -- the part of the statement that is about the entries behind the directory
    have hbehind : p ∈ walkEntries v.walkFn d rest ↔
        ∃ q ∈ rest.files, p = d ++ q ∧ v.Wanted p ∧ Uncut v d (.dir m below rest) q := by
      rw [ihr hrest hd]
      refine exists_congr fun q => and_congr_right fun hq => ?_
      obtain ⟨n, hn, s, rfl⟩ := Entries.exists_of_mem_files hq
      rw [uncut_dir_rest (hlt n hn)]
    by_cases hm : relPath (d ++ [m]) ∈ v.excludes
    · rw [walkEntries_dir_excluded hm, hbehind]
      constructor
      · rintro ⟨q, hq, h⟩
        exact ⟨q, Entries.mem_files_dir.mpr (Or.inr hq), h⟩
      · rintro ⟨q, hq, rfl, hwanted, huncut⟩
        obtain ⟨s, _, rfl⟩ | hq := Entries.mem_files_dir.mp hq
        · exact (hwanted.2 (excluded_of_above hm)).elim
        · exact ⟨q, hq, rfl, hwanted, huncut⟩
    · rw [mem_walkEntries_dir hm, hbehind, ihb hbelow (not_excluded_snoc hd hm)]
      constructor
      · rintro (⟨s, hs, rfl, hwanted, huncut⟩ | ⟨q, hq, h⟩)
        · exact ⟨m :: s, Entries.mem_files_dir.mpr (Or.inl ⟨s, hs, rfl⟩), by simp, hwanted,
            (uncut_dir_below hlt).mpr huncut⟩
        · exact ⟨q, Entries.mem_files_dir.mpr (Or.inr hq), h⟩
      · rintro ⟨q, hq, rfl, hwanted, huncut⟩
        obtain ⟨s, hs, rfl⟩ | hq := Entries.mem_files_dir.mp hq
        · exact Or.inl ⟨s, hs, by simp, hwanted, (uncut_dir_below hlt).mp huncut⟩
        · exact Or.inr ⟨q, hq, rfl, hwanted, huncut⟩

theorem not_excluded_root (hv : v ∈ validators) : ¬ v.Excluded [] := by
  have hroot : ∀ v ∈ validators, "." ∉ v.excludes := by decide
  rintro ⟨above, hpre, hin⟩
  obtain rfl := List.prefix_nil.mp hpre
  exact hroot v hv hin

theorem mem_checked_iff (hv : v ∈ validators) :
    p ∈ v.checked root ↔ p ∈ root.entries.files ∧ v.Wanted p ∧ Uncut v [] root.entries p := by
  have hroot := not_excluded_root hv
  have hin : relPath [] ∉ v.excludes := fun h => hroot ⟨[], List.prefix_rfl, h⟩
  have hwalk : v.checked root = walkEntries v.walkFn [] root.entries := by
    simp [Validator.checked, walk, Validator.walkFn, hin]
  rw [hwalk, mem_walkEntries_iff root.sorted hroot]
  simp

/-- Each of the five walks looks at all it claims to exactly when no wanted file comes behind a
regular file at an excluded path. -/
theorem complete_iff (v : Validator) (hv : v ∈ validators) (root : Directory) :
    v.Complete root ↔ v.NoHole root := by
  constructor
  · intro h d a n s ha hin hfile hwanted
    exact ((mem_checked_iff hv).mp (h _ hfile hwanted)).2.2 d a n s rfl ha hin
  · intro h p hfile hwanted
    refine (mem_checked_iff hv).mpr ⟨hfile, hwanted, ?_⟩
    rintro t a n s rfl ha hin
    exact h t a n s ha hin hfile hwanted

/-- A checkout in which `.git` is a file. -/
def worktree : Directory where
  entries := .file ".git" (.file "kustomization.yaml" .nil)
  sorted := by
    simp only [Entries.Sorted, Entries.names]
    decide

theorem complete_iff_worktree : testNoObsoleteKustomizations.Complete worktree ↔
    testNoObsoleteKustomizations.NoHole worktree :=
  complete_iff testNoObsoleteKustomizations (by simp [validators]) worktree

/-- The validators see nothing of a worktree. -/
theorem not_complete : ¬ ∀ v ∈ validators, ∀ root, v.Complete root := by
  intro h
  have hcomplete := h testCommonLabelsImmutable (by simp [validators]) worktree
  have hchecked : testCommonLabelsImmutable.checked worktree = [] := by decide +kernel
  have hwanted : testCommonLabelsImmutable.Wanted ["kustomization.yaml"] := by
    refine ⟨by decide, ?_⟩
    rintro ⟨above, hpre, hin⟩
    have hprefixes := (List.mem_inits above _).mpr hpre
    have hnone : ∀ above ∈ ["kustomization.yaml"].inits,
        relPath above ∉ testCommonLabelsImmutable.excludes := by decide +kernel
    exact hnone above hprefixes hin
  have hmem := hcomplete ["kustomization.yaml"] (by decide) hwanted
  rw [hchecked] at hmem
  cases hmem

end Manifests.Validators
