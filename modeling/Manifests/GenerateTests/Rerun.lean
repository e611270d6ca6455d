import Manifests.GenerateTests.Regenerate
import Manifests.GoldenFiles

/-! What `generate_tests.py` leaves on the disk, in whatever order it goes through the packages. -/
namespace Manifests.GenerateTests
open Library PosixPath

/-- On this disk, a package does not read what is generated: what kustomize builds for it stays the
same when nothing else is changed. -/
def ReadsInputs (kustomize : Files → List String → Option (List (String × String))) (root : AbsPath)
    (disk : Files) (dir : PackageDir) : Prop :=
  ∀ disk', SameInputs root disk disk' →
    kustomize disk' (dir.path root).names = kustomize disk (dir.path root).names

section
variable {kustomize : Files → List String → Option (List (String × String))} {cwd q : List String}
  {root : AbsPath} {dir : PackageDir} {dirs : List PackageDir} {disk disk' disk₀ : Files}
  {files : List (String × String)} {result : Except Raised Unit × Files}

/-- What the script makes for a package when it begins with the disk `disk₀`. -/
def PackageDir.siteOn (dir : PackageDir)
    (kustomize : Files → List String → Option (List (String × String))) (cwd : List String) (root : AbsPath) (disk₀ : Files) : Site String String :=
  dir.site cwd root ((kustomize disk₀ (dir.path root).names).getD [])

/-- The turn of a package goes well when kustomize can build it and nothing is in the way. -/
theorem regenerate_ok_iff (hreads : ReadsInputs kustomize root disk₀ dir)
    (hdir : ∃ s ∈ searchDirs, components s <+: dir.names) (hsame : SameInputs root disk₀ disk) :
    regenerate kustomize cwd root.text (dir.path root).text disk = (.ok (), disk') ↔
      (kustomize disk₀ (dir.path root).names).isSome ∧ (dir.siteOn kustomize cwd root disk₀).Ready disk ∧
        Site.fill disk (dir.siteOn kustomize cwd root disk₀) = disk' := by
  have hbuilds (h : ¬ disk.blocked (dir.expectedDir root) = true) :
      kustomize (anew disk (dir.expectedDir root)) (dir.path root).names =
        kustomize disk₀ (dir.path root).names := by
    have htouches : Touches (dir.site cwd root []) disk (anew disk (dir.expectedDir root)) :=
      anew_touches h
    exact hreads _ (hsame.trans (htouches.sameInputs hdir))
  have hends : TurnEnds kustomize cwd root dir disk _ := regenerate_ends
  generalize regenerate kustomize cwd root.text (dir.path root).text disk = result at hends
  cases hends with
  | notBuilt h =>
    refine iff_of_false (fun heq => by cases heq) ?_
    rintro ⟨hsome, hready, -⟩
    cases h with
    | file raised h => exact hready.dir h
    | removed raised h => exact hready.dir h
    | failed h hnone =>
      rw [← hbuilds h, hnone] at hsome
      cases hsome
  | notWritten files h hfiles hdir =>
    refine iff_of_false (fun heq => by cases heq) ?_
    rintro ⟨-, hready, -⟩
    exact hready.beside hdir
  | written files hready hfiles =>
    rw [hbuilds hready.dir] at hfiles
    rw [PackageDir.siteOn, hfiles, Option.getD_some]
    constructor
    · intro heq
      cases heq
      exact ⟨rfl, ⟨hready.dir, hready.beside⟩, rfl⟩
    · rintro ⟨-, -, rfl⟩
      rfl

/-- The loop goes well when all turns do. -/
theorem regenerateAll_ok_iff (hreads : ∀ dir ∈ dirs, ReadsInputs kustomize root disk₀ dir)
    (hdirs : ∀ dir ∈ dirs, ∃ s ∈ searchDirs, components s <+: dir.names)
    (hsame : SameInputs root disk₀ disk) :
    regenerateAll kustomize cwd root.text (dirs.map fun dir => (dir.path root).text) disk =
        (.ok (), disk') ↔
      (∀ dir ∈ dirs, (kustomize disk₀ (dir.path root).names).isSome) ∧
        Site.AllReady disk (dirs.map fun dir => dir.siteOn kustomize cwd root disk₀) ∧
        Site.fillAll disk (dirs.map fun dir => dir.siteOn kustomize cwd root disk₀) = disk' := by
  induction dirs generalizing disk with
  | nil => simp [regenerateAll, Site.AllReady, Site.fillAll]
  | cons dir dirs ih =>
    obtain ⟨hdir, hrest⟩ := List.forall_mem_cons.mp hdirs
    obtain ⟨hread, hreads⟩ := List.forall_mem_cons.mp hreads
    have hkept (disk₁ : Files) (h : regenerate kustomize cwd root.text (dir.path root).text disk =
        (.ok (), disk₁)) : SameInputs root disk₀ disk₁ := by
      have hends : TurnEnds kustomize cwd root dir disk _ := regenerate_ends
      rw [h] at hends
      exact hsame.trans (hends.touches.sameInputs hdir)
    rw [List.map_cons, List.map_cons, List.forall_mem_cons, Site.AllReady, Site.fillAll, List.foldl_cons,
      ← Site.fillAll]
    constructor
    · intro hrun
      obtain ⟨_, disk₁, hfirst, hloop⟩ := Script.of_bind_ok hrun
      obtain ⟨hsome, hready, rfl⟩ := (regenerate_ok_iff hread hdir hsame).mp hfirst
      obtain ⟨hall, hready', heq⟩ := (ih hreads hrest (hkept _ hfirst)).mp hloop
      exact ⟨⟨hsome, hall⟩, ⟨hready, hready'⟩, heq⟩
    · rintro ⟨⟨hsome, hall⟩, ⟨hready, hready'⟩, heq⟩
      have hfirst := (regenerate_ok_iff hread hdir hsame).mpr ⟨hsome, hready, rfl⟩
      exact (Script.bind_ok hfirst).trans ((ih hreads hrest (hkept _ hfirst)).mpr ⟨hall, hready', heq⟩)

/-- What is searched for packages is not generated. -/
theorem not_generated {names : List String} (h : ∃ s ∈ searchDirs, components s <+: names)
    (rest : List String) : ¬ Generated root (root.names ++ names ++ rest) := by
  obtain ⟨s, hs, below, rfl⟩ := h
  rintro ⟨s', hs', hle⟩
  have hnames : searchDirs.map components =
      [["stacks"], ["tests", "legacy_kustomizations"], ["katib", "installs"]] := by decide +kernel
  have hmem := List.mem_map_of_mem (f := components) hs
  have hmem' := List.mem_map_of_mem (f := components) hs'
  rw [hnames] at hmem hmem'
  rw [List.append_assoc, List.prefix_append_right_inj] at hle
  simp only [List.mem_cons, List.not_mem_nil, or_false] at hmem hmem'
  rcases hmem with hmem | hmem | hmem <;> rcases hmem' with hmem' | hmem' | hmem' <;>
    simp [hmem, hmem', List.cons_prefix_cons] at hle

theorem regenerateAll_sameInputs (hdirs : ∀ dir ∈ dirs, ∃ s ∈ searchDirs, components s <+: dir.names) :
    SameInputs root disk (regenerateAll kustomize cwd root.text
      (dirs.map fun dir => (dir.path root).text) disk).2 := by
  intro q hq text
  have hcovers (dir : PackageDir) (hdir : dir ∈ dirs) : ¬ (dir.site cwd root []).Covers q :=
    fun h => hq (generated_of_covers (hdirs dir hdir) h)
  rcases regenerateAll_touches hcovers with hsame | ⟨_, hnone, hdir⟩
  · rw [hsame]
  · rw [hnone, hdir]
    simp

/-- The second package lies where the expected resources of the first would be. -/
def Nested (dir dir' : PackageDir) : Prop := dir.names ++ ["test_data", "expected"] <+: dir'.names

theorem below_tests_iff {names names' rest rest' : List String} :
    root.names ++ "tests" :: names ++ rest <+: root.names ++ "tests" :: names' ++ rest' ↔
      names ++ rest <+: names' ++ rest' := by
  rw [List.append_assoc, List.append_assoc, List.prefix_append_right_inj, List.cons_append,
    List.cons_append, List.prefix_cons_inj]

theorem prefix_append_pair {α : Type} {a b : α} {l l' : List α} (hab : a ≠ b)
    (h : l ++ [a, b] <+: l' ++ [a, b]) : l = l' ∨ l ++ [a, b] <+: l' := by
  have hpair (l : List α) : l ++ [a, b] = (l ++ [a]) ++ [b] := by simp
  rw [hpair l', List.prefix_concat_iff] at h
  rcases h with heq | h
  · rw [← hpair, List.append_cancel_right_eq] at heq
    exact Or.inl heq
  · rw [List.prefix_concat_iff] at h
    rcases h with heq | h
    · rw [hpair] at heq
      exact (hab (List.append_inj_right' heq rfl |> List.singleton_inj.mp).symm).elim
    · exact Or.inr h

theorem expectedDir_prefix_iff {dir' : PackageDir} (hne : dir ≠ dir') :
    dir.expectedDir root <+: dir'.expectedDir root ↔ Nested dir dir' := by
  rw [PackageDir.expectedDir, PackageDir.expectedDir, below_tests_iff, Nested]
  constructor
  · intro h
    exact (prefix_append_pair (by decide) h).resolve_left fun heq => hne (PackageDir.ext heq)
  · intro h
    exact h.trans (List.prefix_append _ _)

theorem expectedDir_prefix_testFile_iff {dir' : PackageDir} :
    dir.expectedDir root <+: dir'.testFile root ↔ Nested dir dir' := by
  have hpair : dir.names ++ ["test_data", "expected"] = (dir.names ++ ["test_data"]) ++ ["expected"] := by
    simp
  rw [PackageDir.expectedDir, PackageDir.testFile, below_tests_iff, Nested, List.prefix_concat_iff]
  refine or_iff_right fun heq => ?_
  rw [hpair] at heq
  exact absurd (List.singleton_inj.mp (List.append_inj_right' heq rfl)) (by decide)

/-- What the script makes for different packages only overlaps when one of them is nested. -/
theorem disjoint_of_not_nested {dir' : PackageDir} (hne : dir ≠ dir') (h : ¬ Nested dir dir')
    (h' : ¬ Nested dir' dir) (files files' : List (String × String)) :
    Site.Disjoint (dir.site cwd root files) (dir'.site cwd root files') := by
  rintro q (hq | rfl) (hq' | heq)
  · rcases List.prefix_or_prefix_of_prefix hq hq' with hle | hle
    · exact h ((expectedDir_prefix_iff hne).mp hle)
    · exact h' ((expectedDir_prefix_iff hne.symm).mp hle)
  · rw [heq] at hq
    exact h (expectedDir_prefix_testFile_iff.mp hq)
  · exact h' (expectedDir_prefix_testFile_iff.mp hq')
  · apply hne
    apply PackageDir.ext
    simpa [PackageDir.site, PackageDir.testFile] using heq

/-- The expected resources of the package are those that kustomize builds for it, and the test is the
package's own. -/
structure HoldsOwn (kustomize : Files → List String → Option (List (String × String))) (cwd : List String)
    (root : AbsPath) (disk disk' : Files) (dir : PackageDir) : Prop where
  expected : ∃ files, kustomize disk (dir.path root).names = some files ∧
    ∀ q, disk'.node ((dir.generated cwd root).build.written cwd ++ q) = Disk.holding files q
  test : disk'.node (resolve cwd (dir.generated cwd root).testPath) =
    some (.file (dir.generated cwd root).test.text)

theorem contents_below (q : List String) :
    (dir.site cwd root files).contents (dir.expectedDir root ++ q) = Disk.holding files q := by
  have hne : dir.expectedDir root ++ q ≠ dir.testFile root := by
    intro heq
    exact (dir.site cwd root files).notIn ⟨q, heq⟩
  rw [Site.contents, PackageDir.site, if_neg hne, List.drop_left]

theorem holdsOwn_iff (hbuilds : kustomize disk (dir.path root).names = some files) :
    HoldsOwn kustomize cwd root disk disk' dir ↔ Site.Holds disk' (dir.site cwd root files) := by
  have hwritten : (dir.generated cwd root).build.written cwd = dir.expectedDir root :=
    written_eq.trans (resolve_outputDir cwd)
  have htest : resolve cwd (dir.generated cwd root).testPath = dir.testFile root := resolve_testPath
  have hbeside : (dir.site cwd root files).contents (dir.testFile root) =
      some (.file (dir.generated cwd root).test.text) := Site.contents_beside
  constructor
  · rintro ⟨⟨files', hbuilds', hexpected⟩, hfile⟩ q (⟨rest, rfl⟩ | rfl)
    · cases hbuilds.symm.trans hbuilds'
      exact (hwritten ▸ hexpected rest).trans (contents_below rest).symm
    · exact (htest ▸ hfile).trans hbeside.symm
  · intro h
    refine ⟨⟨files, hbuilds, fun q => ?_⟩, ?_⟩
    · rw [hwritten]
      exact (h _ (Or.inl (List.prefix_append _ _))).trans (contents_below q)
    · rw [htest]
      exact (h _ Site.covers_beside).trans hbeside

/-- Two packages cannot both have their own when one is nested: its directory of expected resources would
be among the expected resources of the other. -/
theorem not_nested_of_holds {dir' : PackageDir} {files' : List (String × String)}
    (h : Site.Holds disk' (dir.site cwd root files)) (h' : Site.Holds disk' (dir'.site cwd root files')) :
    ¬ Nested dir dir' := by
  rintro ⟨rest, hrest⟩
  have hplace : dir'.expectedDir root = dir.expectedDir root ++ (rest ++ ["test_data", "expected"]) := by
    simp [PackageDir.expectedDir, ← hrest]
  have hdir : disk'.node (dir'.expectedDir root) = some .dir := h'.above List.prefix_rfl
  have hnone : disk'.node (dir'.expectedDir root) = none := by
    have hcovers : (dir.site cwd root files).Covers (dir'.expectedDir root) :=
      Or.inl (hplace ▸ List.prefix_append _ _)
    rw [h _ hcovers, hplace, contents_below, Disk.holding_long (by simp)]
  rw [hnone] at hdir
  cases hdir

end

/-! Two packages, in two of the directories that are searched, and a disk with nothing else. -/

def sampleEntries : Entries :=
  .dir "katib" (.dir "installs" (.dir "standalone" (.file "kustomization.yaml" .nil) .nil) .nil)
    (.dir "stacks" (.dir "gcp" (.file "kustomization.yaml" .nil) .nil) .nil)

theorem sampleEntries_folder {names : List String} {d : Entries}
    (h : Entries.Folder sampleEntries names d) : names ∈ [[], ["katib"], ["katib", "installs"],
      ["katib", "installs", "standalone"], ["stacks"], ["stacks", "gcp"]] :=
  List.mem_map_of_mem (f := Prod.fst) (Entries.mem_foldersAt.mpr h)

theorem sampleEntries_distinct : sampleEntries.Distinct := by
  simp [sampleEntries, Entries.Distinct, Entries.names]

theorem sampleEntries_isName :
    ∀ names d, Entries.Folder sampleEntries names d → ∀ c ∈ names, IsName c := by
  have hall : ∀ names ∈ [[], ["katib"], ["katib", "installs"], ["katib", "installs", "standalone"],
      ["stacks"], ["stacks", "gcp"]], ∀ c ∈ names, IsName c := by decide +kernel
  exact fun names d h => hall names (sampleEntries_folder h)

theorem sampleRoot_isName : ∀ c ∈ ["repo"], IsName c := by decide +kernel

def sampleRepository : Repository where
  root := ⟨["repo"], sampleRoot_isName⟩
  tree := ⟨sampleEntries, sampleEntries_distinct⟩
  isName := sampleEntries_isName

def sampleDirs : List String := ["/repo/stacks/gcp", "/repo/katib/installs/standalone"]

theorem sampleDirs_toFinset : sampleDirs.toFinset = packageDirs sampleRepository [] := by
  decide +kernel

theorem sample_not_nested (dir dir' : PackageDir) (_ : sampleRepository.IsPackage dir)
    (h : sampleRepository.IsPackage dir') : ¬ Nested dir dir' := by
  rintro ⟨rest, hrest⟩
  obtain ⟨_, d, hfolder, _⟩ := h
  have hexpected : "expected" ∈ dir'.names := by simp [← hrest]
  have hnone : ∀ names ∈ [[], ["katib"], ["katib", "installs"], ["katib", "installs", "standalone"],
      ["stacks"], ["stacks", "gcp"]], "expected" ∉ names := by decide
  exact hnone _ (sampleEntries_folder hfolder) hexpected

def emptyDisk : Files where
  node q := if q = [] then some .dir else none
  parent p name := by simp

def sampleDisk : Files :=
  (((emptyDisk.withDirs ["repo", "katib", "installs", "standalone"]).withDirs
      ["repo", "stacks", "gcp"]).withFile ["repo", "stacks", "gcp", "kustomization.yaml"]
        "namespace: istio-system\n").withFile
    ["repo", "katib", "installs", "standalone", "kustomization.yaml"] "namespace: istio-system\n"

/-- A kustomization of this namespace is built to one resource in it. -/
def sampleKustomize (disk : Files) (packageDir : List String) : Option (List (String × String)) :=
  if disk.node (packageDir ++ ["kustomization.yaml"]) = some (.file "namespace: istio-system\n") then
    some [("~g_v1_configmap_config.yaml", GoldenFiles.configMap "istio-system")]
  else none

theorem sample_readsInputs (dir : PackageDir) (h : sampleRepository.IsPackage dir) :
    ReadsInputs sampleKustomize sampleRepository.root sampleDisk dir := by
  intro disk' hsame
  have hinput : ¬ Generated sampleRepository.root
      ((dir.path sampleRepository.root).names ++ ["kustomization.yaml"]) := not_generated h.1 _
  rw [sampleKustomize, sampleKustomize, if_congr (hsame _ hinput _) rfl rfl]

def sampleAfter : Files :=
  (regenerateAll sampleKustomize [] sampleRepository.root.text sampleDirs sampleDisk).2

theorem ok_of_isSome {result : Except Raised Unit × Files} (h : result.1.toOption.isSome) :
    result = (.ok (), result.2) := by
  rcases result with ⟨_ | _, disk⟩
  · cases h
  · rfl

theorem sample_run : regenerateAll sampleKustomize [] sampleRepository.root.text sampleDirs sampleDisk =
    (.ok (), sampleAfter) := ok_of_isSome (by decide +kernel)

section
variable {kustomize : Files → List String → Option (List (String × String))} {cwd : List String}
  {repo : Repository} {dir : PackageDir} {disk disk' : Files} {changedDirs : List String}

/-- The packages, in the order in which the script goes through them. -/
theorem exists_packages (hset : changedDirs.toFinset = packageDirs repo cwd) : ∃ dirs : List PackageDir,
    changedDirs = dirs.map (fun dir => (dir.path repo.root).text) ∧
      ∀ dir, dir ∈ dirs ↔ repo.IsPackage dir := by
  have hlist (l : List String) (h : ∀ fullDir ∈ l, ∃ dir, repo.IsPackage dir ∧
      fullDir = (dir.path repo.root).text) : ∃ dirs : List PackageDir,
      l = dirs.map (fun dir => (dir.path repo.root).text) ∧ ∀ dir ∈ dirs, repo.IsPackage dir := by
    induction l with
    | nil => exact ⟨[], rfl, by simp⟩
    | cons fullDir l ih =>
      obtain ⟨⟨dir, hdir, rfl⟩, hrest⟩ := List.forall_mem_cons.mp h
      obtain ⟨dirs, rfl, hdirs⟩ := ih hrest
      exact ⟨dir :: dirs, rfl, List.forall_mem_cons.mpr ⟨hdir, hdirs⟩⟩
  obtain ⟨dirs, rfl, hdirs⟩ := hlist changedDirs fun fullDir h => (mem_changedDirs hset).mp h
  refine ⟨dirs, rfl, fun dir => ⟨hdirs dir, fun hdir => ?_⟩⟩
  obtain ⟨dir', hdir', heq⟩ := List.mem_map.mp ((mem_changedDirs hset).mpr ⟨dir, hdir, rfl⟩)
  have hnames : (dir'.path repo.root).names = (dir.path repo.root).names := by
    rw [← resolve_text cwd, heq, resolve_text]
  have hdirs : dir' = dir := by
    apply PackageDir.ext
    simpa [PackageDir.path, AbsPath.append] using hnames
  exact hdirs ▸ hdir'

/-- The place is in the directory of the expected resources of the package, or it is that of the test. -/
def PackageDir.Owns (dir : PackageDir) (cwd : List String) (root : AbsPath) (q : List String) : Prop :=
  (dir.generated cwd root).build.written cwd <+: q ∨ q = resolve cwd (dir.generated cwd root).testPath

theorem owns_iff {q : List String} {files : List (String × String)} :
    dir.Owns cwd repo.root q ↔ (dir.site cwd repo.root files).Covers q := by
  rw [PackageDir.Owns, written_eq, resolve_outputDir, resolve_testPath]
  rfl

/-- The tree is that of the disk, below the root of the repository. -/
def Repository.Describes (repo : Repository) (disk : Files) : Prop :=
  ∀ names name, (∃ d, Entries.Folder repo.tree.entries names d ∧ name ∈ d.fileNames) ↔
    ∃ text, disk.node (repo.root.names ++ names ++ [name]) = some (.file text)

theorem isPackage_iff (h : repo.Describes disk) : repo.IsPackage dir ↔
    (∃ s ∈ searchDirs, components s <+: dir.names) ∧
      ∃ text, disk.node (repo.root.names ++ dir.names ++ ["kustomization.yaml"]) = some (.file text) := by
  rw [Repository.IsPackage, h]

theorem Repository.IsPackage.searched (h : repo.IsPackage dir) :
    ∃ s ∈ searchDirs, components s <+: dir.names := h.1

theorem allDisjoint_sites {dirs : List PackageDir} (hdirs : ∀ dir ∈ dirs, repo.IsPackage dir)
    (hnested : ∀ dir dir', repo.IsPackage dir → repo.IsPackage dir' → ¬ Nested dir dir') :
    Site.AllDisjoint (dirs.map fun dir => dir.siteOn kustomize cwd repo.root disk) := by
  intro s hs t ht hne
  obtain ⟨dir, hdir, rfl⟩ := List.mem_map.mp hs
  obtain ⟨dir', hdir', rfl⟩ := List.mem_map.mp ht
  have hother : dir ≠ dir' := by
    rintro rfl
    exact hne rfl
  have hpackage := hdirs dir hdir
  have hpackage' := hdirs dir' hdir'
  exact disjoint_of_not_nested hother (hnested dir dir' hpackage hpackage')
    (hnested dir' dir hpackage' hpackage) _ _

/-- However a run ends, what lies at a place that no package owns is what lay there before, except for the
directories that have been made on the way. The next run finds the same packages. -/
theorem regenerateAll_keeps (hset : changedDirs.toFinset = packageDirs repo cwd) :
    let disk' := (regenerateAll kustomize cwd repo.root.text changedDirs disk).2
    (∀ q, (∀ dir, repo.IsPackage dir → ¬ dir.Owns cwd repo.root q) → disk'.node q = disk.node q ∨
      ((∃ dir, repo.IsPackage dir ∧ q <+: (dir.generated cwd repo.root).build.written cwd) ∧
        disk.node q = none ∧ disk'.node q = some .dir)) ∧
    (repo.Describes disk → ∀ repo' : Repository, repo'.root = repo.root → repo'.Describes disk' →
      packageDirs repo' cwd = packageDirs repo cwd) := by
  obtain ⟨dirs, rfl, hdirs⟩ := exists_packages hset
  constructor
  · intro q hq
    have hcovers (dir : PackageDir) (hdir : dir ∈ dirs) : ¬ (dir.site cwd repo.root []).Covers q :=
      mt owns_iff.mpr (hq dir ((hdirs dir).mp hdir))
    refine (regenerateAll_touches hcovers).imp_right ?_
    rintro ⟨⟨dir, hdir, habove⟩, hmade⟩
    refine ⟨⟨dir, (hdirs dir).mp hdir, ?_⟩, hmade⟩
    rw [written_eq, resolve_outputDir]
    exact habove
  · intro hdisk repo' hroot hdisk'
    have hsame : SameInputs repo.root disk (regenerateAll kustomize cwd repo.root.text _ disk).2 :=
      regenerateAll_sameInputs fun dir hdir => ((hdirs dir).mp hdir).searched
    have hpackage (dir : PackageDir) : repo'.IsPackage dir ↔ repo.IsPackage dir := by
      rw [isPackage_iff hdisk, isPackage_iff hdisk', hroot]
      refine and_congr_right fun hsearched => exists_congr fun text => ?_
      exact hsame _ (not_generated hsearched _) text
    ext fullDir
    simp only [mem_packageDirs, hpackage, hroot]

theorem regenerateAll_keeps_sample :
    let disk' := (regenerateAll sampleKustomize [] sampleRepository.root.text sampleDirs sampleDisk).2
    (∀ q, (∀ dir, sampleRepository.IsPackage dir → ¬ dir.Owns [] sampleRepository.root q) →
      disk'.node q = sampleDisk.node q ∨
        ((∃ dir, sampleRepository.IsPackage dir ∧
            q <+: (dir.generated [] sampleRepository.root).build.written []) ∧
          sampleDisk.node q = none ∧ disk'.node q = some .dir)) ∧
    (sampleRepository.Describes sampleDisk → ∀ repo' : Repository, repo'.root = sampleRepository.root →
      repo'.Describes disk' → packageDirs repo' [] = packageDirs sampleRepository []) :=
  regenerateAll_keeps sampleDirs_toFinset

theorem holdsOwn_of_run (hreads : ∀ dir, repo.IsPackage dir → ReadsInputs kustomize repo.root disk dir)
    (hset : changedDirs.toFinset = packageDirs repo cwd)
    (hnested : ∀ dir dir', repo.IsPackage dir → repo.IsPackage dir' → ¬ Nested dir dir')
    (hrun : regenerateAll kustomize cwd repo.root.text changedDirs disk = (.ok (), disk')) :
    ∀ dir, repo.IsPackage dir → HoldsOwn kustomize cwd repo.root disk disk' dir := by
  obtain ⟨dirs, rfl, hdirs⟩ := exists_packages hset
  obtain ⟨hsome, hready, rfl⟩ := (regenerateAll_ok_iff
    (fun dir hdir => hreads dir ((hdirs dir).mp hdir))
    (fun dir hdir => ((hdirs dir).mp hdir).searched) .refl).mp hrun
  intro dir hdir
  have hmem := (hdirs dir).mpr hdir
  obtain ⟨files, hfiles⟩ := Option.isSome_iff_exists.mp (hsome dir hmem)
  have hholds := Site.holds_fillAll hready (allDisjoint_sites (fun dir => (hdirs dir).mp) hnested)
    (List.mem_map_of_mem hmem)
  rw [PackageDir.siteOn, hfiles, Option.getD_some] at hholds
  exact (holdsOwn_iff hfiles).mpr hholds

/-- After a run that goes through, every package has its own expected resources and its own test if and
only if no package lies where the expected resources of another would be. -/
theorem holdsOwn_iff_not_nested
    (hreads : ∀ dir, repo.IsPackage dir → ReadsInputs kustomize repo.root disk dir)
    (hset : changedDirs.toFinset = packageDirs repo cwd)
    (hrun : regenerateAll kustomize cwd repo.root.text changedDirs disk = (.ok (), disk')) :
    (∀ dir, repo.IsPackage dir → HoldsOwn kustomize cwd repo.root disk disk' dir) ↔
      ∀ dir dir', repo.IsPackage dir → repo.IsPackage dir' → ¬ Nested dir dir' := by
  refine ⟨fun hholds dir dir' hdir hdir' => ?_, fun hnested => holdsOwn_of_run hreads hset hnested hrun⟩
  obtain ⟨files, hfiles, _⟩ := (hholds dir hdir).expected
  obtain ⟨files', hfiles', _⟩ := (hholds dir' hdir').expected
  exact not_nested_of_holds ((holdsOwn_iff hfiles).mp (hholds dir hdir))
    ((holdsOwn_iff hfiles').mp (hholds dir' hdir'))

theorem holdsOwn_iff_not_nested_sample : (∀ dir, sampleRepository.IsPackage dir →
      HoldsOwn sampleKustomize [] sampleRepository.root sampleDisk sampleAfter dir) ↔
    ∀ dir dir', sampleRepository.IsPackage dir → sampleRepository.IsPackage dir' → ¬ Nested dir dir' :=
  holdsOwn_iff_not_nested sample_readsInputs sampleDirs_toFinset sample_run

/-- When no package is nested, the order in which the set of the packages is gone through does not
matter, and going through them once more, in any order, changes nothing. -/
theorem regenerateAll_order {changedDirs' : List String}
    (hreads : ∀ dir, repo.IsPackage dir → ReadsInputs kustomize repo.root disk dir)
    (hset : changedDirs.toFinset = packageDirs repo cwd)
    (hset' : changedDirs'.toFinset = packageDirs repo cwd)
    (hnested : ∀ dir dir', repo.IsPackage dir → repo.IsPackage dir' → ¬ Nested dir dir')
    (hrun : regenerateAll kustomize cwd repo.root.text changedDirs disk = (.ok (), disk')) :
    regenerateAll kustomize cwd repo.root.text changedDirs' disk = (.ok (), disk') ∧
      regenerateAll kustomize cwd repo.root.text changedDirs' disk' = (.ok (), disk') := by
  obtain ⟨dirs, rfl, hdirs⟩ := exists_packages hset
  obtain ⟨dirs', rfl, hdirs'⟩ := exists_packages hset'
  have hsearched (dir : PackageDir) (hdir : dir ∈ dirs) := ((hdirs dir).mp hdir).searched
  have hsearched' (dir : PackageDir) (hdir : dir ∈ dirs') := ((hdirs' dir).mp hdir).searched
  have hreads' (dir : PackageDir) (hdir : dir ∈ dirs') := hreads dir ((hdirs' dir).mp hdir)
  obtain ⟨hsome, hready, heq⟩ := (regenerateAll_ok_iff
    (fun dir hdir => hreads dir ((hdirs dir).mp hdir)) hsearched .refl).mp hrun
  have hsome' : ∀ dir ∈ dirs', (kustomize disk (dir.path repo.root).names).isSome := fun dir hdir =>
    hsome dir ((hdirs dir).mpr ((hdirs' dir).mp hdir))
  have hmem (s : Site String String) :
      s ∈ dirs'.map (fun dir => dir.siteOn kustomize cwd repo.root disk) ↔
        s ∈ dirs.map (fun dir => dir.siteOn kustomize cwd repo.root disk) := by
    simp only [List.mem_map, hdirs, hdirs']
  obtain ⟨⟨hready', heq'⟩, hagain, heqAgain⟩ := Site.fillAll_order hready
    (allDisjoint_sites (fun dir => (hdirs dir).mp) hnested) hmem
  rw [heq] at heq' hagain heqAgain
  have hkept : SameInputs repo.root disk disk' := by
    have hinputs : SameInputs repo.root disk (regenerateAll kustomize cwd repo.root.text _ disk).2 :=
      regenerateAll_sameInputs hsearched
    rwa [hrun] at hinputs
  exact ⟨(regenerateAll_ok_iff hreads' hsearched' .refl).mpr ⟨hsome', hready', heq'⟩,
    (regenerateAll_ok_iff hreads' hsearched' hkept).mpr ⟨hsome', hagain, heqAgain⟩⟩

theorem regenerateAll_order_sample :
    regenerateAll sampleKustomize [] sampleRepository.root.text sampleDirs.reverse sampleDisk =
        (.ok (), sampleAfter) ∧
      regenerateAll sampleKustomize [] sampleRepository.root.text sampleDirs.reverse sampleAfter =
        (.ok (), sampleAfter) :=
  regenerateAll_order sample_readsInputs sampleDirs_toFinset
    ((List.toFinset_reverse (l := sampleDirs)).trans sampleDirs_toFinset) sample_not_nested sample_run

end

/-! The tests, after they have been regenerated. -/

section
open GoldenFiles
variable {unmarshal : String → Option ResourceId}

/-- The files that `ioutil.ReadDir` lists in a directory, which are all that is there. -/
structure Lists (disk : Files) (p : List String) (listed : List File) : Prop where
  mem_iff : ∀ f, f ∈ listed ↔ disk.node (p ++ [f.name]) = some (.file f.contents)
  noDirs : ∀ name, disk.node (p ++ [name]) ≠ some .dir

/-- Each resource is written to a file of its own. -/
structure WritesEach (files : List (String × String)) (resources : List (Resource unmarshal)) : Prop where
  names : (files.map Prod.fst).Nodup
  texts : ∀ text, text ∈ files.map Prod.snd ↔ text ∈ resources.map (·.yaml)

variable {kustomize : Files → List String → Option (List (String × String))} {cwd : List String}
  {root : AbsPath} {repo : Repository} {dir : PackageDir} {disk disk' : Files} {changedDirs : List String}
  {files : List (String × String)} {listed : List File} {resources : List (Resource unmarshal)}

/-- A run over the files of the resources themselves is silent when no two resources with one key
differ. -/
theorem runTestCase_own (htexts : ∀ text, text ∈ listed.map (·.contents) ↔ text ∈ resources.map (·.yaml)) :
    runTestCase listed resources = [] ↔
      ∀ r ∈ resources, ∀ r' ∈ resources, r.id.key = r'.id.key → r.yaml = r'.yaml := by
  have hof (f : File) (hf : f ∈ listed) : ∃ r ∈ resources, r.yaml = f.contents :=
    List.mem_map.mp ((htexts f.contents).mp (List.mem_map_of_mem hf))
  have hparse : ∀ f ∈ listed, (unmarshal f.contents).isSome := by
    intro f hf
    obtain ⟨r, _, hr⟩ := hof f hf
    rw [← hr, r.parses]
    rfl
  rw [runTestCase_eq_nil, and_iff_right hparse]
  simp only [← htexts]
  rw [lastText_iff hparse]
  constructor
  · intro h r hr r' hr' hkey
    obtain ⟨f, hf, hfr⟩ := List.mem_map.mp ((htexts r.yaml).mpr (List.mem_map_of_mem hr))
    obtain ⟨g, hg, hgr⟩ := List.mem_map.mp ((htexts r'.yaml).mpr (List.mem_map_of_mem hr'))
    have heq := h f hf g hg (by rw [hfr, hgr, keyOf_yaml, keyOf_yaml, hkey])
    rw [← hfr, ← hgr, heq]
  · intro h f hf g hg hkey
    obtain ⟨r, hr, hrf⟩ := hof f hf
    obtain ⟨r', hr', hrg⟩ := hof g hg
    rw [← hrf, ← hrg, keyOf_yaml, keyOf_yaml] at hkey
    rw [← hrf, ← hrg]
    exact h r hr r' hr' (Option.some.inj hkey)

theorem HoldsOwn.lists (h : HoldsOwn kustomize cwd root disk disk' dir)
    (hbuilds : kustomize disk (dir.path root).names = some files) (hnames : (files.map Prod.fst).Nodup) :
    Lists disk' ((dir.generated cwd root).read cwd) listed ↔
      ∀ f, f ∈ listed ↔ (f.name, f.contents) ∈ files := by
  obtain ⟨⟨files', hbuilds', hexpected⟩, _⟩ := h
  cases hbuilds.symm.trans hbuilds'
  have hread : (dir.generated cwd root).read cwd = (dir.generated cwd root).build.written cwd :=
    pointsAtOwn_generated.reads
  have hfile (f : File) : disk'.node ((dir.generated cwd root).read cwd ++ [f.name]) =
      some (.file f.contents) ↔ (f.name, f.contents) ∈ files := by
    rw [hread, hexpected, Disk.holding_file_iff hnames]
  constructor
  · rintro ⟨hmem, _⟩ f
    rw [hmem, hfile]
  · intro hmem
    refine ⟨fun f => by rw [hmem, hfile], fun name => ?_⟩
    rw [hread, hexpected, Disk.holding]
    cases files.reverse.lookup name <;> simp

/-- After a run that goes through, with no package nested, the test of a package reads the files of its own
resources. It is silent if and only if no two of them with the same kind and name differ. -/
theorem regenerated_test_silent_iff
    (hreads : ∀ dir, repo.IsPackage dir → ReadsInputs kustomize repo.root disk dir)
    (hset : changedDirs.toFinset = packageDirs repo cwd)
    (hnested : ∀ dir dir', repo.IsPackage dir → repo.IsPackage dir' → ¬ Nested dir dir')
    (hrun : regenerateAll kustomize cwd repo.root.text changedDirs disk = (.ok (), disk'))
    (resources : PackageDir → List (Resource unmarshal))
    (hwrites : ∀ dir files, repo.IsPackage dir → kustomize disk (dir.path repo.root).names = some files →
      WritesEach files (resources dir))
    (dir : PackageDir) (hdir : repo.IsPackage dir) :
    (∃ listed, Lists disk' ((dir.generated cwd repo.root).read cwd) listed) ∧
      ∀ listed, Lists disk' ((dir.generated cwd repo.root).read cwd) listed →
        (runTestCase listed (resources dir) = [] ↔
          ∀ r ∈ resources dir, ∀ r' ∈ resources dir, r.id.key = r'.id.key → r.yaml = r'.yaml) := by
  have hown := (holdsOwn_of_run hreads hset hnested hrun) dir hdir
  obtain ⟨files, hbuilds, _⟩ := hown.expected
  obtain ⟨hnames, htexts⟩ := hwrites dir files hdir hbuilds
  constructor
  · refine ⟨files.map fun file => ⟨file.1, file.2⟩, (hown.lists hbuilds hnames).mpr fun f => ?_⟩
    rw [List.mem_map]
    constructor
    · rintro ⟨file, hfile, rfl⟩
      exact hfile
    · exact fun hfile => ⟨_, hfile, rfl⟩
  · intro listed hlists
    have hmem := (hown.lists hbuilds hnames).mp hlists
    apply runTestCase_own
    intro text
    rw [← htexts, List.mem_map, List.mem_map]
    constructor
    · rintro ⟨f, hf, rfl⟩
      exact ⟨_, (hmem f).mp hf, rfl⟩
    · rintro ⟨⟨name, text⟩, hfile, rfl⟩
      exact ⟨⟨name, text⟩, (hmem ⟨name, text⟩).mpr hfile, rfl⟩

theorem sample_writesEach : WritesEach [("~g_v1_configmap_config.yaml", configMap "istio-system")]
    [istioConfigMap] := ⟨by simp, by simp [istioConfigMap]⟩

/-- The test of a package with one resource is silent. -/
theorem regenerated_test_silent_iff_sample : ∃ dir listed, sampleRepository.IsPackage dir ∧
    Lists sampleAfter ((dir.generated [] sampleRepository.root).read []) listed ∧
      runTestCase listed [istioConfigMap] = [] := by
  have hmem : "/repo/stacks/gcp" ∈ packageDirs sampleRepository [] := by
    rw [← sampleDirs_toFinset, List.mem_toFinset]
    exact List.mem_cons_self
  obtain ⟨dir, hdir, _⟩ := mem_packageDirs.mp hmem
  have hwrites (dir : PackageDir) (files : List (String × String)) (_ : sampleRepository.IsPackage dir)
      (hfiles : sampleKustomize sampleDisk (dir.path sampleRepository.root).names = some files) :
      WritesEach files [istioConfigMap] := by
    unfold sampleKustomize at hfiles
    split at hfiles
    · cases hfiles
      exact sample_writesEach
    · cases hfiles
  obtain ⟨⟨listed, hlists⟩, hsilent⟩ := regenerated_test_silent_iff sample_readsInputs
    sampleDirs_toFinset sample_not_nested sample_run (fun _ => [istioConfigMap]) hwrites dir hdir
  exact ⟨dir, listed, hdir, hlists, (hsilent listed hlists).mpr (by simp)⟩

end
end Manifests.GenerateTests
