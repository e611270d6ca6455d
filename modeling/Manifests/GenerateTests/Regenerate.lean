import Manifests.GenerateTests
import Manifests.Library.Sites

/-! `generate_tests.py` on the disk of the repository: each package has the directory of its expected
resources removed and made again, kustomize fills it, and the test is written next to it. -/
namespace Manifests.GenerateTests
open Library PosixPath

/-- `kustomize_test.go.template`, rendered. -/
def GoTest.text (test : GoTest) : String :=
  "package " ++ test.package ++
    "\n\nimport (\n\t\"github.com/kubeflow/manifests/tests\"\n\t\"testing\"\n)\n\n" ++
    "func TestKustomize(t *testing.T) \x7b\n\ttestCase := &tests.KustomizeTestCase\x7b\n\t\tPackage: \"" ++
    test.testCase.package ++ "\",\n\t\tExpected: \"" ++ test.testCase.expected ++
    "\",\n\t\x7d\n\n\ttests.RunTestCase(t, testCase)\n\x7d"

inductive Raised where
  | os (error : DiskError)
  | calledProcessError
  deriving Repr, DecidableEq

abbrev Files := Disk String String

section
-- `kustomize build -o`: the files that it writes for a directory, or `none` when it fails
variable (kustomize : Files → List String → Option (List (String × String))) (cwd : List String)

/-- `subprocess.check_call` of kustomize, which writes its files when all of them are built. -/
def checkCall (build : KustomizeBuild) : Script Raised Files Unit := fun disk =>
  match kustomize disk (resolve cwd build.cwd) with
  | none => (.error .calledProcessError, disk)
  | some files => (.ok (), disk.withFiles (build.written cwd) files)

/-- `if os.path.exists(p): shutil.rmtree(p)`. -/
def removePrevious (p : List String) : Script Raised Files Unit := fun disk =>
  if disk.pathExists p then Disk.rmtree .os p disk else (.ok (), disk)

/-- `run_kustomize_build`. -/
def KustomizeBuild.run (build : KustomizeBuild) : Script Raised Files Unit := do
  removePrevious (resolve cwd build.outputDir)
  Disk.makedirs .os (resolve cwd build.outputDir)
  checkCall kustomize cwd build

/-- `write_go_test`. -/
def writeGoTest (testPath : String) (test : GoTest) : Script Raised Files Unit :=
  Disk.write .os (resolve cwd testPath) test.text

def regenerate (repoRoot fullDir : String) : Script Raised Files Unit := do
  let generated := generateTest cwd repoRoot fullDir
  generated.build.run kustomize cwd
  writeGoTest cwd generated.testPath generated.test

/-- The loop over `changed_dirs`. -/
def regenerateAll (repoRoot : String) : List String → Script Raised Files Unit
  | [] => pure ()
  | fullDir :: dirs => do
    regenerate kustomize cwd repoRoot fullDir
    regenerateAll repoRoot dirs

end

/-- Below the tests, where those of the packages lie. -/
def Generated (root : AbsPath) (q : List String) : Prop :=
  ∃ s ∈ searchDirs, root.names ++ "tests" :: components s <+: q

/-- The same files lie on the two disks, apart from those that are generated. -/
def SameInputs (root : AbsPath) (disk disk' : Files) : Prop :=
  ∀ q, ¬ Generated root q → ∀ text, disk'.node q = some (.file text) ↔ disk.node q = some (.file text)

/-- Where the expected resources of a package lie. -/
def PackageDir.expectedDir (dir : PackageDir) (root : AbsPath) : List String :=
  root.names ++ "tests" :: dir.names ++ ["test_data", "expected"]

/-- Where the test of a package lies. -/
def PackageDir.testFile (dir : PackageDir) (root : AbsPath) : List String :=
  root.names ++ "tests" :: dir.names ++ [testName]

/-- What the script makes for a package, when kustomize builds these files. -/
def PackageDir.site (dir : PackageDir) (cwd : List String) (root : AbsPath)
    (files : List (String × String)) : Site String String where
  dir := dir.expectedDir root
  files := files
  beside := dir.testFile root
  text := (dir.generated cwd root).test.text
  reached := by
    rw [PackageDir.testFile, List.dropLast_concat]
    exact List.prefix_append _ _
  notAbove := by simp [PackageDir.testFile, PackageDir.expectedDir, List.prefix_append_right_inj, testName]
  notIn := by
    intro h
    simpa [PackageDir.testFile, PackageDir.expectedDir] using h.length_le

/-- The directory, removed and made again. -/
def anew (disk : Files) (p : List String) : Files := (disk.without p).withDirs p

/-- How a build ends, and what is on the disk then. -/
inductive BuildEnds (builds : Files → Option (List (String × String))) (out : List String) (disk : Files) :
    Except Raised Unit × Files → Prop where
  | file (raised : Raised) (h : disk.blocked out = true) : BuildEnds builds out disk (.error raised, disk)
  | removed (raised : Raised) (h : disk.blocked out = true) :
      BuildEnds builds out disk (.error raised, disk.without out)
  | failed (h : ¬ disk.blocked out = true) (hbuilds : builds (anew disk out) = none) :
      BuildEnds builds out disk (.error .calledProcessError, anew disk out)
  | built (files : List (String × String)) (h : ¬ disk.blocked out = true)
      (hbuilds : builds (anew disk out) = some files) :
      BuildEnds builds out disk (.ok (), (anew disk out).withFiles out files)

/-- How the turn of a package ends, and what is on the disk then. -/
inductive TurnEnds (kustomize : Files → List String → Option (List (String × String))) (cwd : List String)
    (root : AbsPath) (dir : PackageDir) (disk : Files) : Except Raised Unit × Files → Prop where
  | notBuilt {raised : Raised} {disk' : Files}
      (h : BuildEnds (kustomize · (dir.path root).names) (dir.expectedDir root) disk
        (.error raised, disk')) :
      TurnEnds kustomize cwd root dir disk (.error raised, disk')
  | notWritten (files : List (String × String)) (h : ¬ disk.blocked (dir.expectedDir root) = true)
      (hbuilds : kustomize (anew disk (dir.expectedDir root)) (dir.path root).names = some files)
      (hdir : disk.node (dir.testFile root) = some .dir) : TurnEnds kustomize cwd root dir disk
        (.error (.os .isADirectory), Site.fillDir disk (dir.site cwd root files))
  | written (files : List (String × String)) (hready : (dir.site cwd root files).Ready disk)
      (hbuilds : kustomize (anew disk (dir.expectedDir root)) (dir.path root).names = some files) :
      TurnEnds kustomize cwd root dir disk (.ok (), Site.fill disk (dir.site cwd root files))

/-- What changes at most when a site is filled, or when it has been tried in vain. -/
def Touches (s : Site String String) (disk disk' : Files) : Prop :=
  ∀ q, s.Covers q ∨ disk'.node q = disk.node q ∨
    (q <+: s.dir ∧ disk.node q = none ∧ disk'.node q = some .dir)

section
variable {kustomize : Files → List String → Option (List (String × String))} {cwd q : List String}
  {root : AbsPath} {dir : PackageDir} {disk disk' disk₀ : Files} {files : List (String × String)}
  {s : Site String String} {build : KustomizeBuild}

theorem SameInputs.refl : SameInputs root disk disk := fun _ _ _ => Iff.rfl

theorem SameInputs.trans {disk₁ disk₂ : Files} (h : SameInputs root disk disk₁)
    (h' : SameInputs root disk₁ disk₂) : SameInputs root disk disk₂ :=
  fun q hq text => (h' q hq text).trans (h q hq text)

theorem removePrevious_eq (disk : Files) (p : List String) : removePrevious p disk =
    if (disk.node p).any Node.isFile then (.error (.os .notADirectory), disk)
    else (.ok (), disk.without p) := by
  rw [removePrevious, Disk.pathExists, Disk.rmtree]
  cases hp : disk.node p with
  | none => simp [Disk.without_of_none hp]
  | some node => cases node <;> simp [Node.isFile]

theorem makedirs_without (disk : Files) (p : List String) : Disk.makedirs .os p (disk.without p) =
    if (disk.without p).blocked p
    then ((.error (.os .notADirectory), disk.without p) : Except Raised Unit × Files)
    else (.ok (), (disk.without p).withDirs p) := by
  have hgone : (disk.without p).pathExists p = false := by
    rw [Disk.pathExists, Disk.without_below List.prefix_rfl, Option.isSome_none]
  rw [Disk.makedirs, hgone, if_neg Bool.false_ne_true]

theorem run_ends {out : List String} (hout : resolve cwd build.outputDir = out)
    (hwritten : build.written cwd = out) :
    BuildEnds (fun disk => kustomize disk (resolve cwd build.cwd)) out disk
      (build.run kustomize cwd disk) := by
  rw [KustomizeBuild.run, hout]
  have hremove := removePrevious_eq disk out
  have hmake := makedirs_without disk out
  by_cases hfile : (disk.node out).any Node.isFile = true
  · rw [if_pos hfile] at hremove
    obtain ⟨contents, hcontents⟩ := Node.any_isFile.mp hfile
    rw [Script.bind_error hremove]
    exact .file _ (Disk.blocked_iff.mpr ⟨out, List.prefix_rfl, contents, hcontents⟩)
  · have hself : ∀ contents, disk.node out ≠ some (.file contents) := fun contents heq =>
      hfile (Node.any_isFile.mpr ⟨contents, heq⟩)
    rw [if_neg hfile] at hremove
    rw [Script.bind_ok hremove]
    by_cases hblocked : (disk.without out).blocked out = true
    · rw [if_pos hblocked] at hmake
      rw [Script.bind_error hmake]
      refine .removed _ ?_
      by_contra hno
      exact (Disk.not_blocked_iff_without.mp hno).2 hblocked
    · rw [if_neg hblocked] at hmake
      have hfree : ¬ disk.blocked out = true := Disk.not_blocked_iff_without.mpr ⟨hself, hblocked⟩
      rw [Script.bind_ok hmake, checkCall, hwritten, ← anew]
      cases hbuilds : kustomize (anew disk out) (resolve cwd build.cwd) with
      | none => exact .failed hfree hbuilds
      | some files => exact .built files hfree hbuilds

theorem regenerate_ends : TurnEnds kustomize cwd root dir disk
    (regenerate kustomize cwd root.text (dir.path root).text disk) := by
  have hout : resolve cwd (dir.generated cwd root).build.outputDir = dir.expectedDir root :=
    resolve_outputDir cwd
  have hends : BuildEnds _ _ disk ((dir.generated cwd root).build.run kustomize cwd disk) :=
    run_ends hout (written_eq.trans hout)
  rw [build_cwd] at hends
  change TurnEnds kustomize cwd root dir disk
    (((dir.generated cwd root).build.run kustomize cwd >>= fun _ =>
      writeGoTest cwd (dir.generated cwd root).testPath (dir.generated cwd root).test) disk)
  rw [Script.bind_apply]
  generalize (dir.generated cwd root).build.run kustomize cwd disk = result at hends
  cases hends with
  | file raised h => exact .notBuilt (.file raised h)
  | removed raised h => exact .notBuilt (.removed raised h)
  | failed h hbuilds => exact .notBuilt (.failed h hbuilds)
  | built files h hbuilds =>
    have hsite : (anew disk (dir.expectedDir root)).withFiles (dir.expectedDir root) files =
        Site.fillDir disk (dir.site cwd root files) := rfl
    have hparent : (Site.fillDir disk (dir.site cwd root files)).node (dir.testFile root).dropLast =
        some .dir := Site.fillDir_above (dir.site cwd root files).reached
    have hsame : (Site.fillDir disk (dir.site cwd root files)).node (dir.testFile root) =
        disk.node (dir.testFile root) :=
      Site.fillDir_other (dir.site cwd root files).notIn (dir.site cwd root files).notAbove
    have htest : resolve cwd (dir.generated cwd root).testPath = dir.testFile root := resolve_testPath
    dsimp only
    rw [hsite, writeGoTest, htest]
    by_cases hdir : disk.node (dir.testFile root) = some .dir
    · rw [Disk.write_dir hparent (hsame.trans hdir)]
      exact .notWritten files h hbuilds hdir
    · rw [Disk.write_ok hparent (hsame ▸ hdir)]
      exact .written files ⟨h, hdir⟩ hbuilds

theorem anew_touches {s : Site String String} (h : ¬ disk.blocked s.dir = true) :
    Touches s disk (anew disk s.dir) := by
  intro q
  by_cases hdir : s.dir <+: q
  · exact Or.inl (Or.inl hdir)
  right
  rw [anew]
  by_cases habove : q <+: s.dir
  · rw [Disk.withDirs_above habove]
    rcases hq : disk.node q with _ | contents | _
    · exact Or.inr ⟨habove, rfl, rfl⟩
    · exact (Disk.not_blocked_iff.mp h q habove contents hq).elim
    · exact Or.inl rfl
  · rw [Disk.withDirs_other habove, Disk.without_other hdir]
    exact Or.inl rfl

theorem BuildEnds.touches {builds : Files → Option (List (String × String))} {s : Site String String}
    {result : Except Raised Unit × Files} (h : BuildEnds builds s.dir disk result) :
    Touches s disk result.2 := by
  cases h with
  | file raised h => exact fun q => Or.inr (Or.inl rfl)
  | removed raised h =>
    intro q
    by_cases hdir : s.dir <+: q
    · exact Or.inl (Or.inl hdir)
    · exact Or.inr (Or.inl (Disk.without_other hdir))
  | failed h hbuilds => exact anew_touches h
  | built files h hbuilds =>
    intro q
    by_cases hdir : s.dir <+: q
    · exact Or.inl (Or.inl hdir)
    · have hnot (name : String) : q ≠ s.dir ++ [name] := by
        rintro rfl
        exact hdir (List.prefix_append _ _)
      have hq := anew_touches h q
      have hsame : ((anew disk s.dir).withFiles s.dir files).node q = (anew disk s.dir).node q :=
        Disk.withFiles_other hnot
      rwa [← hsame] at hq

theorem TurnEnds.touches {result : Except Raised Unit × Files}
    (h : TurnEnds kustomize cwd root dir disk result) : Touches (dir.site cwd root []) disk result.2 := by
  have hbuilt (files : List (String × String)) (h : ¬ disk.blocked (dir.expectedDir root) = true)
      (hbuilds : kustomize (anew disk (dir.expectedDir root)) (dir.path root).names = some files) :
      Touches (dir.site cwd root []) disk (Site.fillDir disk (dir.site cwd root files)) := by
    have hends : BuildEnds (kustomize · (dir.path root).names) (dir.expectedDir root) disk
        (.ok (), Site.fillDir disk (dir.site cwd root files)) := .built files h hbuilds
    exact BuildEnds.touches (s := dir.site cwd root []) hends
  cases h with
  | notBuilt h => exact BuildEnds.touches (s := dir.site cwd root []) h
  | notWritten files h hbuilds hdir => exact hbuilt files h hbuilds
  | written files hready hbuilds =>
    intro q
    by_cases hbeside : q = dir.testFile root
    · exact Or.inl (Or.inr hbeside)
    · have hsame : (Site.fill disk (dir.site cwd root files)).node q =
          (Site.fillDir disk (dir.site cwd root files)).node q := Disk.withFile_other hbeside
      have hq := hbuilt files hready.dir hbuilds q
      rwa [← hsame] at hq

/-- However the loop ends, at a place that is no package's own there is what there was, or a directory
that has been made on the way. -/
theorem regenerateAll_touches {dirs : List PackageDir}
    (hcovers : ∀ dir ∈ dirs, ¬ (dir.site cwd root []).Covers q) :
    let disk' := (regenerateAll kustomize cwd root.text (dirs.map fun dir => (dir.path root).text) disk).2
    disk'.node q = disk.node q ∨
      ((∃ dir ∈ dirs, q <+: dir.expectedDir root) ∧ disk.node q = none ∧ disk'.node q = some .dir) := by
  induction dirs generalizing disk with
  | nil => exact Or.inl rfl
  | cons dir dirs ih =>
    obtain ⟨hself, hrest⟩ := List.forall_mem_cons.mp hcovers
    have hends : TurnEnds kustomize cwd root dir disk _ := regenerate_ends
    have hturn := (hends.touches q).resolve_left hself
    rw [List.map_cons, regenerateAll, Script.bind_apply]
    rcases hresult : regenerate kustomize cwd root.text (dir.path root).text disk with ⟨raised | _, disk₁⟩
    · rw [hresult] at hturn
      rcases hturn with hsame | ⟨habove, hnone, hdir⟩
      · exact Or.inl hsame
      · exact Or.inr ⟨⟨dir, List.mem_cons_self, habove⟩, hnone, hdir⟩
    · rw [hresult] at hturn
      have hloop := @ih disk₁ hrest
      dsimp only at hturn hloop ⊢
      rcases hturn with hsame | ⟨habove, hnone, hdir⟩
      · rw [hsame] at hloop
        exact hloop.imp_right fun ⟨⟨other, hother, habove⟩, hmade⟩ =>
          ⟨⟨other, List.mem_cons_of_mem _ hother, habove⟩, hmade⟩
      · rcases hloop with hsame | ⟨_, hnone', _⟩
        · exact Or.inr ⟨⟨dir, List.mem_cons_self, habove⟩, hnone, hsame.trans hdir⟩
        · rw [hdir] at hnone'
          cases hnone'

/-- What the script makes lies where packages are not searched for. -/
theorem generated_of_covers (hdir : ∃ s ∈ searchDirs, components s <+: dir.names)
    (h : (dir.site cwd root files).Covers q) : Generated root q := by
  obtain ⟨s, hs, rest, hrest⟩ := hdir
  refine ⟨s, hs, ?_⟩
  rcases h with hbelow | rfl
  · refine List.IsPrefix.trans ?_ hbelow
    exact ⟨rest ++ ["test_data", "expected"], by simp [PackageDir.site, PackageDir.expectedDir, ← hrest]⟩
  · exact ⟨rest ++ [testName], by simp [PackageDir.site, PackageDir.testFile, ← hrest]⟩

theorem Touches.sameInputs (h : Touches (dir.site cwd root files) disk disk')
    (hdir : ∃ s ∈ searchDirs, components s <+: dir.names) : SameInputs root disk disk' := by
  intro q hq text
  rcases h q with hcovers | hsame | ⟨_, hnone, hmade⟩
  · exact (hq (generated_of_covers hdir hcovers)).elim
  · rw [hsame]
  · rw [hnone, hmade]
    simp

end
end Manifests.GenerateTests
