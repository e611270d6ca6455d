import Manifests.ExtractImages.Idempotence
import Manifests.KustomizationDirs
import Manifests.Library.Sweep

/-! `extract_images.py` from its start to its end: one kustomization after the other is scanned and
written, and an exception ends the run. -/
namespace Manifests.ExtractImages
open Library KustomizationDirs

/-- What a directory holds: the `images` of its `kustomization.yaml`, when that is there and loads,
and the other files. -/
structure KustomizationDir where
  kustomization : Except PyError (Option (List Image))
  files : List ResourceFile

/-- The order in which `os.walk` lists the files of a directory. -/
structure Listing where
  list : Path → List ResourceFile → List ResourceFile
  perm : ∀ kustDir files, (list kustDir files).Perm files

/-- What a scan leaves in a directory. Without images the kustomization is not written. -/
def scanDir (listing : Listing) (kustDir : Path) (d : KustomizationDir) :
    Except PyError KustomizationDir := do
  let images ← d.kustomization
  let imgList ← scanKustomizationForImages (images.getD []) (listing.list kustDir d.files)
  return if imgList.isEmpty then d else { d with kustomization := .ok (some imgList) }

/-- The loop over the kustomizations. -/
def main (listing : Listing) (tree : DirTree) : Script PyError (Path → KustomizationDir) Unit :=
  sweep (scanDir listing) (getKustomizationDirs tree)

section
variable {listing listing' : Listing} {tree tree' : DirTree} {d d' : KustomizationDir}
  {kustDir : Path} {dirs dirs' : Path → KustomizationDir}

theorem scanDir_ok_iff : scanDir listing kustDir d = .ok d' ↔ ∃ images imgList,
    d.kustomization = .ok images ∧
      scanKustomizationForImages (images.getD []) (listing.list kustDir d.files) = .ok imgList ∧
      (if imgList.isEmpty then d else { d with kustomization := .ok (some imgList) }) = d' := by
  rw [scanDir]
  cases hkust : d.kustomization with
  | error e => simp [bind, Except.bind]
  | ok images =>
    cases hscan : scanKustomizationForImages (images.getD []) (listing.list kustDir d.files) with
    | error e => simp [bind, Except.bind, hscan]
    | ok imgList => simp [bind, Except.bind, hscan, pure, Except.pure]

theorem length_appendOrUpdate (images : List Image) (newImg : Img) :
    images.length ≤ (appendOrUpdate images newImg).length := by
  induction images with
  | nil => exact Nat.zero_le _
  | cons img images ih =>
    rw [appendOrUpdate]
    split
    · exact le_rfl
    · simpa using ih

/-- No entry is taken out of the list. -/
theorem length_scan {images written : List Image} {files : List ResourceFile}
    (h : scanKustomizationForImages images files = .ok written) :
    images.length ≤ written.length := by
  obtain ⟨scanned, hscanned, rfl⟩ := scan_eq h
  clear hscanned h
  induction scanned generalizing images with
  | nil => exact le_rfl
  | cons s scanned ih => exact (length_appendOrUpdate images (imageFromString s)).trans ih

/-- A directory that has been scanned is not changed by another scan, in whatever order its files
are listed then. -/
theorem settles_scanDir (listing listing' : Listing) :
    Settles (scanDir listing) (scanDir listing') := by
  intro kustDir d d' h
  obtain ⟨images, imgList, hkust, hscan, rfl⟩ := scanDir_ok_iff.mp h
  have hperm : (listing.list kustDir d.files).Perm (listing'.list kustDir d.files) :=
    (listing.perm kustDir d.files).trans (listing'.perm kustDir d.files).symm
  have hagain := rescan_eq hperm hscan
  by_cases hempty : imgList = []
  · subst hempty
    have hnone : images.getD [] = [] :=
      List.eq_nil_of_length_eq_zero (Nat.le_zero.mp (length_scan hscan))
    exact scanDir_ok_iff.mpr ⟨images, [], hkust, by rwa [hnone], rfl⟩
  · have hne : imgList.isEmpty = false := by simpa using hempty
    simp only [hne, Bool.false_eq_true, if_false]
    exact scanDir_ok_iff.mpr ⟨some imgList, imgList, rfl, hagain, by simp [hne]⟩

theorem main_ok_iff : main listing tree dirs = (.ok (), dirs') ↔ ∀ kustDir,
    (PackagePart tree.entries kustDir →
        scanDir listing kustDir (dirs kustDir) = .ok (dirs' kustDir)) ∧
      (¬ PackagePart tree.entries kustDir → dirs' kustDir = dirs kustDir) := by
  rw [main, sweep_ok_iff (settles_scanDir listing listing)]
  refine forall_congr' fun kustDir => ?_
  rw [← mem_getKustomizationDirs]
  split
  · next h => simp [h]
  · next h => simp [h]

/-- After a run that goes through, each part of a package that can be reached has been scanned as if
it were the only one, and nothing else has changed. Another run goes through and changes nothing, in
whatever order it finds the parts and their files. -/
theorem main_again (hrun : main listing tree dirs = (.ok (), dirs'))
    (hsame : ∀ kustDir, PackagePart tree'.entries kustDir → PackagePart tree.entries kustDir) :
    (∀ kustDir, (PackagePart tree.entries kustDir →
        scanDir listing kustDir (dirs kustDir) = .ok (dirs' kustDir)) ∧
      (¬ PackagePart tree.entries kustDir → dirs' kustDir = dirs kustDir)) ∧
      main listing' tree' dirs' = (.ok (), dirs') := by
  refine ⟨main_ok_iff.mp hrun, ?_⟩
  refine sweep_again (settles_scanDir listing listing) (settles_scanDir listing listing')
    (settles_scanDir listing' listing') hrun fun kustDir h => ?_
  exact mem_getKustomizationDirs.mpr (hsame kustDir (mem_getKustomizationDirs.mp h))

/-- A run that ends with an exception has scanned the kustomizations before the one that raises it,
and touched no others. When what is wrong there and behind it is repaired, another run ends as one
would that had come after the repair only. -/
theorem main_resumed {e : PyError} (hrun : main listing tree dirs = (.error e, dirs')) :
    ∃ done kustDir rest, getKustomizationDirs tree = done ++ kustDir :: rest ∧
      scanDir listing kustDir (dirs' kustDir) = .error e ∧
      (∀ p ∈ done, scanDir listing p (dirs p) = .ok (dirs' p)) ∧ (∀ p ∉ done, dirs' p = dirs p) ∧
      ∀ repaired after : Path → KustomizationDir, (∀ p ∈ done, repaired p = dirs p) →
        (main listing tree (fun p => if p ∈ done then dirs' p else repaired p) = (.ok (), after) ↔
          main listing tree repaired = (.ok (), after)) := by
  have hsettles := settles_scanDir listing listing
  obtain ⟨done, kustDir, rest, hdirs, hdone, hraises⟩ := sweep_error hrun
  have hscanned := (sweep_ok_iff hsettles).mp hdone
  refine ⟨done, kustDir, rest, hdirs, hraises, fun p hp => ?_, fun p hp => ?_,
    fun repaired after h => ?_⟩
  · simpa [hp] using hscanned p
  · simpa [hp] using hscanned p
  · have hpart : sweep (scanDir listing) done repaired =
        (.ok (), fun p => if p ∈ done then dirs' p else repaired p) := by
      rw [sweep_ok_iff hsettles]
      intro p
      by_cases hp : p ∈ done
      · simpa [hp, h p hp] using hscanned p
      · simp [hp]
    refine sweep_resume hsettles (fun p hp => ?_) hpart
    rw [hdirs]
    exact List.mem_append_left _ hp

/-- The files of a directory in the order in which they are stored, and the other way round. -/
def asStored : Listing := ⟨fun _ files => files, fun _ _ => List.Perm.refl _⟩

def backwards : Listing := ⟨fun _ files => files.reverse, fun _ files => List.reverse_perm files⟩

/-- Two bases, found in this order and in the other. -/
def appFirst : DirTree :=
  ⟨.dir "app" (.dir "base" (.file "kustomization.yaml" .nil) .nil)
    (.dir "web" (.dir "base" (.file "kustomization.yaml" .nil) .nil) .nil),
    by simp [Entries.Distinct, Entries.names]⟩

def webFirst : DirTree :=
  ⟨.dir "web" (.dir "base" (.file "kustomization.yaml" .nil) .nil)
    (.dir "app" (.dir "base" (.file "kustomization.yaml" .nil) .nil) .nil),
    by simp [Entries.Distinct, Entries.names]⟩

theorem getKustomizationDirs_appFirst :
    getKustomizationDirs appFirst = [["app", "base"], ["web", "base"]] := by
  decide +kernel

theorem packagePart_webFirst (h : PackagePart webFirst.entries kustDir) :
    PackagePart appFirst.entries kustDir := by
  have hdirs : getKustomizationDirs webFirst = [["web", "base"], ["app", "base"]] := by decide +kernel
  have hmem := mem_getKustomizationDirs.mpr h
  rw [hdirs] at hmem
  rw [← mem_getKustomizationDirs, getKustomizationDirs_appFirst]
  simpa [or_comm] using hmem

/-- A kustomization that lists no image yet, with two files beside it. -/
def unlisted : KustomizationDir :=
  ⟨.ok none, [deploymentOf ["nginx:1.19"], { deploymentOf ["redis:6"] with name := "worker.yaml" }]⟩

/-- What a scan writes there. -/
def twoEntries : List Image :=
  [⟨"nginx", some "nginx", some "1.19", none⟩, ⟨"redis", some "redis", some "6", none⟩]

def listed : KustomizationDir := { unlisted with kustomization := .ok (some twoEntries) }

theorem scanDir_unlisted : scanDir asStored kustDir unlisted = .ok listed := by
  have hscan : scanKustomizationForImages [] unlisted.files = .ok twoEntries := by decide +kernel
  exact scanDir_ok_iff.mpr ⟨none, twoEntries, rfl, hscan, rfl⟩

/-- The second run finds the bases and the files in another order. -/
theorem main_again_twoBases : ∃ dirs', main asStored appFirst (fun _ => unlisted) = (.ok (), dirs') ∧
    dirs' ["app", "base"] = listed ∧ main backwards webFirst dirs' = (.ok (), dirs') := by
  let dirs : Path → KustomizationDir := fun _ => unlisted
  let dirs' := Function.update (Function.update dirs ["app", "base"] listed) ["web", "base"] listed
  have hrun : main asStored appFirst dirs = (.ok (), dirs') := by
    rw [main, getKustomizationDirs_appFirst]
    exact sweep_cons_ok_iff.mpr ⟨listed, scanDir_unlisted,
      sweep_cons_ok_iff.mpr ⟨listed, scanDir_unlisted, rfl⟩⟩
  exact ⟨dirs', hrun, rfl, (main_again hrun fun _ h => packagePart_webFirst h).2⟩

/-- The kustomization of the second base does not load. -/
def webBroken (kustDir : Path) : KustomizationDir :=
  if kustDir = ["web", "base"] then ⟨.error (.exception "could not find expected ':'"), []⟩ else unlisted

/-- The first base has been scanned when the run ends. With the second repaired, another run ends as
one from the start. -/
theorem main_resumed_webBroken : ∃ dirs',
    main asStored appFirst webBroken = (.error (.exception "could not find expected ':'"), dirs') ∧
      dirs' ["app", "base"] = listed ∧ ∀ after, main asStored appFirst (fun kustDir =>
          if kustDir = ["app", "base"] then listed else unlisted) = (.ok (), after) ↔
        main asStored appFirst (fun _ => unlisted) = (.ok (), after) := by
  have hrun : main asStored appFirst webBroken = (.error (.exception "could not find expected ':'"),
      Function.update webBroken ["app", "base"] listed) := by
    rw [main, getKustomizationDirs_appFirst]
    refine (Script.bind_ok (visit_ok_iff.mpr ⟨listed, scanDir_unlisted, rfl⟩)).trans ?_
    rw [sweep, Script.bind_apply, visit_error_iff.mpr ⟨rfl, rfl⟩]
  obtain ⟨done, _, rest, hdirs, _, _, huntouched, hresume⟩ := main_resumed hrun
  have hdone : done = [["app", "base"]] := by
    rw [getKustomizationDirs_appFirst] at hdirs
    rcases done with _ | ⟨p, _ | ⟨_, _⟩⟩
    · cases congrArg KustomizationDir.kustomization (huntouched ["app", "base"] List.not_mem_nil)
    · cases hdirs
      rfl
    · simp at hdirs
  subst hdone
  refine ⟨_, hrun, rfl, fun after => ?_⟩
  rw [← hresume (fun _ => unlisted) after (by simp [webBroken])]
  have hdirs' : (fun kustDir => if kustDir ∈ [["app", "base"]] then
      Function.update webBroken ["app", "base"] listed kustDir else unlisted) =
      fun kustDir => if kustDir = ["app", "base"] then listed else unlisted := by
    funext kustDir
    by_cases hp : kustDir = ["app", "base"]
    · simp [hp]
    · simp [hp]
  rw [hdirs']

end
end Manifests.ExtractImages
