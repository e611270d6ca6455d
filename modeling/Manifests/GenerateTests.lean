import Manifests.Library.FileTree
import Manifests.Library.PosixPath

/-! `generate_tests.py`: the Go tests of the kustomizations. Where each of them lies, which package
it loads, and which directory of expected resources it reads. -/
namespace Manifests.GenerateTests
open Library PosixPath

def searchDirs : List String := ["stacks", "tests/legacy_kustomizations", "katib/installs"]

def kustomizeOutputDir : String := "test_data/expected"

def testName : String := "kustomize_test.go"

def generateTestPath (repoRoot kustomizeRpath : String) : String :=
  join repoRoot ["tests", kustomizeRpath, testName]

/-- A call of kustomize: where it runs, and the directory that is made for what it builds. -/
structure KustomizeBuild where
  cwd : String
  outputDir : String
  deriving Repr, DecidableEq

/-- `KustomizeTestCase`: what `RunTestCase` builds, and where it reads the expected resources. -/
structure KustomizeTestCase where
  package : String
  expected : String
  deriving Repr, DecidableEq

/-- What `kustomize_test.go.template` becomes. -/
structure GoTest where
  package : String
  testCase : KustomizeTestCase
  deriving Repr, DecidableEq

def render (package packageDir : String) : GoTest where
  package := package
  testCase := { package := packageDir, expected := "test_data/expected" }

/-- What the script does for one package. -/
structure GeneratedTest where
  build : KustomizeBuild
  testPath : String
  test : GoTest
  deriving Repr, DecidableEq

section
variable (cwd : List String) (repoRoot : String)

def runKustomizeBuild (packageDir : String) : KustomizeBuild where
  cwd := join repoRoot [packageDir]
  outputDir := join repoRoot ["tests", relpath cwd packageDir repoRoot, kustomizeOutputDir]

/-- The body of the loop over the packages. -/
def generateTest (fullDir : String) : GeneratedTest :=
  let rpath := relpath cwd fullDir repoRoot
  let packageName := (basename fullDir).map fun c => if c = '-' then '_' else c
  let pieces := rpath.toList.splitOn '/'
  let p := List.replicate pieces.length ".." ++ ["..", rpath]
  { build := runKustomizeBuild cwd repoRoot fullDir
    testPath := generateTestPath repoRoot rpath
    test := render packageName (joinPieces p) }

end

/-- `find_kustomize_dirs`, by what `os.walk` yields: directories with the names of their files. -/
def findKustomizeDirs (walk : String → List (String × List String)) (searchDirs : List String) :
    Finset String :=
  (searchDirs.flatMap fun s =>
    ((walk s).filter fun child => "kustomization.yaml" ∈ child.2).map Prod.fst).toFinset

/-- The repository: its root, and what is in it. -/
structure Repository where
  root : AbsPath
  tree : DirTree
  isName : ∀ names d, Entries.Folder tree.entries names d → ∀ c ∈ names, IsName c

/-- `os.walk(top)`, which yields nothing when there is no directory. -/
def Repository.walk (repo : Repository) (cwd : List String) (top : String) :
    List (String × List String) :=
  let names := resolve cwd top
  if repo.root.names <+: names then
    match repo.tree.entries.folderAt (names.drop repo.root.names.length) with
    | none => []
    | some d => (([], d) :: d.foldersBelow []).map fun (q, below) => (join top q, below.fileNames)
  else []

/-- `package_dirs`. -/
def packageDirs (repo : Repository) (cwd : List String) : Finset String :=
  findKustomizeDirs (repo.walk cwd) (searchDirs.map fun s => join repo.root.text [s])

/-- A package directory, by the names that lead to it from the root of the repository. -/
@[ext]
structure PackageDir where
  names : List String
  isName : ∀ c ∈ names, IsName c
  below : names ≠ []

def PackageDir.path (dir : PackageDir) (root : AbsPath) : AbsPath :=
  root.append dir.names dir.isName

/-- What the script does for the package. -/
def PackageDir.generated (dir : PackageDir) (cwd : List String) (root : AbsPath) : GeneratedTest :=
  generateTest cwd root.text (dir.path root).text

/-- A directory with a kustomization, at or below one of those that are searched. -/
def Repository.IsPackage (repo : Repository) (dir : PackageDir) : Prop :=
  (∃ s ∈ searchDirs, components s <+: dir.names) ∧
    ∃ d, Entries.Folder repo.tree.entries dir.names d ∧ "kustomization.yaml" ∈ d.fileNames

/-! What the test uses. The go tool runs it in the directory of its file. -/

section
variable (cwd : List String)

/-- The directory that kustomize writes to, from the one that it is called in. -/
def KustomizeBuild.written (build : KustomizeBuild) : List String :=
  resolve (resolve cwd build.cwd) build.outputDir

def GeneratedTest.testDir (generated : GeneratedTest) : List String :=
  (resolve cwd generated.testPath).dropLast

/-- The package that the test loads. -/
def GeneratedTest.loaded (generated : GeneratedTest) : List String :=
  resolve (generated.testDir cwd) generated.test.testCase.package

/-- The directory that the test reads. -/
def GeneratedTest.read (generated : GeneratedTest) : List String :=
  resolve (generated.testDir cwd) generated.test.testCase.expected

/-- The test loads the package that kustomize is called in, and reads the directory that kustomize
writes to, which is next to it. -/
structure PointsAtOwn (packageDir : List String) (generated : GeneratedTest) : Prop where
  loads : generated.loaded cwd = packageDir
  builds : resolve cwd generated.build.cwd = packageDir
  reads : generated.read cwd = generated.build.written cwd
  makes : resolve cwd generated.build.outputDir = generated.build.written cwd
  nextTo : generated.read cwd = generated.testDir cwd ++ ["test_data", "expected"]

end

section
variable {cwd names : List String} {root : AbsPath} {dir : PackageDir} {last : String}

theorem rpath_eq (cwd : List String) (root : AbsPath) (dir : PackageDir) :
    relpath cwd (dir.path root).text root.text = joinPieces dir.names :=
  relpath_append cwd dir.below dir.isName

theorem isAbs_rpath (dir : PackageDir) : isAbs (joinPieces dir.names) = false :=
  isAbs_joinPieces fun c hc => (dir.isName c hc).isAbs

theorem components_rpath (dir : PackageDir) : components (joinPieces dir.names) = dir.names := by
  rw [components_joinPieces fun c hc => (dir.isName c hc).isAbs,
    flatMap_components fun c hc => (dir.isName c hc).components]

/-- What the script writes for a package is below the directory of the package in the tests. -/
theorem resolve_tests (habs : isAbs last = false) (hlast : components last = names)
    (hdots : ∀ c ∈ names, c ≠ "..") :
    resolve cwd (join root.text ["tests", joinPieces dir.names, last]) =
      root.names ++ "tests" :: dir.names ++ names := by
  have htests : isAbs "tests" = false ∧ components "tests" = ["tests"] := by decide +kernel
  have hpaths : ∀ path ∈ ["tests", joinPieces dir.names, last], isAbs path = false := by
    simp [htests.1, isAbs_rpath, habs]
  have hnames : ["tests", joinPieces dir.names, last].flatMap components =
      "tests" :: dir.names ++ names := by
    simp [htests.2, components_rpath, hlast]
  rw [resolve_join hpaths, hnames, resolve_text, foldl_follow_names, List.append_assoc]
  intro c hc
  rcases List.mem_append.mp hc with hc | hc
  · rcases List.mem_cons.mp hc with rfl | hc
    · decide
    · exact (dir.isName c hc).notDots
  · exact hdots c hc

theorem resolve_testPath : resolve cwd (dir.generated cwd root).testPath =
    root.names ++ "tests" :: dir.names ++ [testName] := by
  have hname : isAbs testName = false ∧ components testName = [testName] := by decide +kernel
  rw [PackageDir.generated, generateTest, rpath_eq, generateTestPath,
    resolve_tests hname.1 hname.2 (by decide)]

theorem testDir_eq : (dir.generated cwd root).testDir cwd = root.names ++ "tests" :: dir.names := by
  rw [GeneratedTest.testDir, resolve_testPath, List.dropLast_concat]

/-- The directory is absolute, so that kustomize finds it from the package. -/
theorem resolve_outputDir (start : List String) :
    resolve start (dir.generated cwd root).build.outputDir =
      root.names ++ "tests" :: dir.names ++ ["test_data", "expected"] := by
  have hdir : isAbs kustomizeOutputDir = false ∧
      components kustomizeOutputDir = ["test_data", "expected"] := by decide +kernel
  rw [PackageDir.generated, generateTest, runKustomizeBuild, rpath_eq,
    resolve_tests hdir.1 hdir.2 (by decide)]

theorem written_eq : (dir.generated cwd root).build.written cwd =
    resolve cwd (dir.generated cwd root).build.outputDir := by
  rw [KustomizeBuild.written, resolve_outputDir, resolve_outputDir]

theorem build_cwd : resolve cwd (dir.generated cwd root).build.cwd = (dir.path root).names := by
  have hjoin : join root.text [(dir.path root).text] = (dir.path root).text := by
    rw [join, List.foldl_cons, List.foldl_nil, join2, isAbs_text, if_pos rfl]
  rw [PackageDir.generated, generateTest, runKustomizeBuild, hjoin, resolve_text]

/-- The dots lead from the test to the root of the repository, over the names of the package and
over the directory `tests`. -/
theorem loaded_eq : (dir.generated cwd root).loaded cwd = (dir.path root).names := by
  have hpieces : ((joinPieces dir.names).toList.splitOn '/').length = dir.names.length :=
    length_splitOn_joinPieces dir.below dir.isName
  have hdots : List.replicate dir.names.length ".." ++ ["..", joinPieces dir.names] =
      List.replicate (dir.names.length + 1) ".." ++ [joinPieces dir.names] := by
    rw [List.replicate_succ', List.append_assoc, List.singleton_append]
  have hup : (root.names ++ "tests" :: dir.names).take
      ((root.names ++ "tests" :: dir.names).length - (dir.names.length + 1)) = root.names := by
    simp
  rw [GeneratedTest.loaded, testDir_eq, PackageDir.generated, generateTest, rpath_eq, render,
    hpieces, hdots, resolve_dots (by simpa using isAbs_rpath dir), hup, joinPieces, join,
    List.foldl_nil, ← rpath_eq cwd root dir, resolve_relpath]

theorem read_eq (generated : GeneratedTest)
    (h : generated.test.testCase.expected = "test_data/expected") :
    generated.read cwd = generated.testDir cwd ++ ["test_data", "expected"] := by
  have hexpected : isAbs "test_data/expected" = false ∧
      components "test_data/expected" = ["test_data", "expected"] := by decide +kernel
  rw [GeneratedTest.read, h, resolve_eq hexpected.1, hexpected.2, foldl_follow_names (by decide)]

theorem pointsAtOwn_generated :
    PointsAtOwn cwd (dir.path root).names (dir.generated cwd root) where
  loads := loaded_eq
  builds := build_cwd
  reads := by rw [read_eq _ rfl, written_eq, resolve_outputDir, testDir_eq]
  makes := written_eq.symm
  nextTo := read_eq _ rfl

theorem testPath_inj {dir' : PackageDir} (h : resolve cwd (dir.generated cwd root).testPath =
    resolve cwd (dir'.generated cwd root).testPath) : dir = dir' := by
  rw [resolve_testPath, resolve_testPath] at h
  apply PackageDir.ext
  simpa using h

/-- The test of a package below the root of the repository loads this package, and reads the
directory that kustomize writes to for it. Other packages have other tests. -/
theorem own_tests (cwd : List String) (root : AbsPath) :
    (∀ dir : PackageDir, PointsAtOwn cwd (dir.path root).names (dir.generated cwd root)) ∧
    ∀ dir dir' : PackageDir, dir ≠ dir' → resolve cwd (dir.generated cwd root).testPath ≠
      resolve cwd (dir'.generated cwd root).testPath :=
  ⟨fun _ => pointsAtOwn_generated, fun _ _ hne heq => hne (testPath_inj heq)⟩

example : (generateTest [] "/repo" "/repo/stacks/gcp").test.testCase.package =
    "../../../stacks/gcp" := by decide +kernel

end

/-! The packages that the script finds, and the loop over them. -/

section
variable {repo : Repository} {cwd names files : List String} {repoRoot child fullDir : String}
  {succeeds : KustomizeBuild → Bool}

theorem searchDirs_names : ∀ s ∈ searchDirs, s = joinPieces (components s) ∧ components s ≠ [] ∧
    ∀ c ∈ components s, IsName c := by
  decide +kernel

theorem mem_findKustomizeDirs {walk : String → List (String × List String)} {dirs : List String} :
    child ∈ findKustomizeDirs walk dirs ↔
      ∃ s ∈ dirs, ∃ files, (child, files) ∈ walk s ∧ "kustomization.yaml" ∈ files := by
  simp [findKustomizeDirs]

theorem mem_walk (h : ∀ c ∈ names, IsName c) :
    (child, files) ∈ repo.walk cwd (repo.root.append names h).text ↔
      ∃ q d, ∃ hq : Entries.Folder repo.tree.entries (names ++ q) d,
        child = (repo.root.append (names ++ q) (repo.isName _ d hq)).text ∧ files = d.fileNames := by
  have hdrop : (repo.root.append names h).names.drop repo.root.names.length = names := by
    simp [AbsPath.append]
  have hbegins : repo.root.names <+: (repo.root.append names h).names := List.prefix_append ..
  have hchild (q : List String) (hq : ∀ c ∈ names ++ q, IsName c) :
      join (repo.root.append names h).text q = (repo.root.append (names ++ q) hq).text := by
    have hbelow : ∀ c ∈ q, IsName c := fun c hc => hq c (List.mem_append_right names hc)
    rw [join_text hbelow, append_append h hbelow hq]
  have hfolder (q : List String) (d : Entries) := repo.tree.distinct.folder_append_iff (p := names)
    (s := q) (g := d)
  simp only [Repository.walk, resolve_text, if_pos hbegins, hdrop]
  cases hat : repo.tree.entries.folderAt names with
  | none =>
    constructor
    · intro hmem
      cases hmem
    · rintro ⟨q, d, hq, _⟩
      obtain ⟨above, habove, _⟩ := (hfolder q d).mp hq
      cases hat.symm.trans habove
  | some d =>
    rw [List.mem_map]
    constructor
    · rintro ⟨⟨q, below⟩, hmem, heq⟩
      cases heq
      exact ⟨q, below, (hfolder q below).mpr ⟨d, hat, hmem⟩, hchild q _, rfl⟩
    · rintro ⟨q, below, hq, rfl, rfl⟩
      obtain ⟨above, habove, hmem⟩ := (hfolder q below).mp hq
      cases hat.symm.trans habove
      exact ⟨(q, below), hmem, by rw [hchild q (repo.isName _ _ hq)]⟩

/-- The script finds the packages, and it names them by their absolute paths. -/
theorem mem_packageDirs : fullDir ∈ packageDirs repo cwd ↔
    ∃ dir, repo.IsPackage dir ∧ fullDir = (dir.path repo.root).text := by
  have htop : ∀ s ∈ searchDirs, ∃ h : ∀ c ∈ components s, IsName c,
      join repo.root.text [s] = (repo.root.append (components s) h).text := by
    intro s hs
    obtain ⟨hjoin, hne, hnames⟩ := searchDirs_names s hs
    have hstep : join2 repo.root.text (joinPieces (components s)) = _ := join2_text hne hnames
    rw [← hjoin] at hstep
    exact ⟨hnames, hstep⟩
  rw [packageDirs, mem_findKustomizeDirs]
  constructor
  · rintro ⟨_, hmem, files, hwalk, hfile⟩
    obtain ⟨s, hs, rfl⟩ := List.mem_map.mp hmem
    obtain ⟨hnames, heq⟩ := htop s hs
    rw [heq, mem_walk hnames] at hwalk
    obtain ⟨q, d, hq, rfl, rfl⟩ := hwalk
    have hbelow : components s ++ q ≠ [] := by simp [(searchDirs_names s hs).2.1]
    exact ⟨⟨components s ++ q, repo.isName _ d hq, hbelow⟩,
      ⟨⟨s, hs, List.prefix_append ..⟩, d, hq, hfile⟩, rfl⟩
  · rintro ⟨dir, ⟨⟨s, hs, q, hq⟩, d, hd, hfile⟩, rfl⟩
    obtain ⟨hnames, heq⟩ := htop s hs
    refine ⟨_, List.mem_map_of_mem hs, d.fileNames, ?_, hfile⟩
    rw [heq, mem_walk hnames]
    exact ⟨q, d, hq ▸ hd, by simp only [PackageDir.path, hq], rfl⟩

variable {changedDirs : List String} (hset : changedDirs.toFinset = packageDirs repo cwd)
include hset

theorem mem_changedDirs : fullDir ∈ changedDirs ↔
    ∃ dir, repo.IsPackage dir ∧ fullDir = (dir.path repo.root).text := by
  rw [← mem_packageDirs, ← hset, List.mem_toFinset]

end

end Manifests.GenerateTests
