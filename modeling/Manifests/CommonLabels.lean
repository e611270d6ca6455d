import Manifests.Validators

/-! `fix_common_labels.go` and `TestCommonLabelsImmutable`: the one takes four labels out of the
kustomizations, the other reports where they are. -/
namespace Manifests.CommonLabels
open Library
open Validators (kustomizationFile)

def versionLabel : String := "app.kubernetes.io/version"
def instanceLabel : String := "app.kubernetes.io/instance"
def managedByLabel : String := "app.kubernetes.io/managed-by"
def partOfLabel : String := "app.kubernetes.io/part-of"

def labelsToRemove : List String := [versionLabel, managedByLabel, instanceLabel, partOfLabel]

def forbiddenLabels : List String := [versionLabel, managedByLabel, instanceLabel, partOfLabel]

abbrev Labels := List (String × String)

/-- `types.Kustomization`, with its common labels, which may be nil, and all its other fields. -/
structure Kustomization (ρ : Type) where
  commonLabels : Option Labels
  other : ρ
  deriving Repr, DecidableEq

/-- The files by their paths, where `none` cannot be read, and which of them can be written. -/
structure Disk where
  file : Path → Option String
  canWrite : Path → Bool

/-- A run of the fixer: the files, and the paths that it has written. -/
structure Run where
  disk : Disk
  written : List Path

/-- What the test reports. -/
inductive Report where
  | reading (path : Path)
  | forbidden (path : Path) (label : String)
  deriving Repr, DecidableEq

def hasLabel (labels : Labels) (l : String) : Bool := labels.any fun entry => entry.1 = l

/-- `delete(labels, l)`. -/
def delete (labels : Labels) (l : String) : Labels := labels.filter fun entry => entry.1 ≠ l

/-- The loop over `labelsToRemove`: the labels that are left, and whether they are modified. -/
def removeLabels (labels : Labels) : Labels × Bool :=
  labelsToRemove.foldl (fun state l =>
    if hasLabel state.1 l then (delete state.1 l, true) else state) (labels, false)

variable {ρ : Type}

/-- A kustomization as it is stored: an empty map of labels is left out. -/
def Kustomization.stored (k : Kustomization ρ) : Kustomization ρ :=
  { k with commonLabels := k.commonLabels.filter (!·.isEmpty) }

section
variable (marshal : Kustomization ρ → String) (unmarshal : String → Option (Kustomization ρ))

def readKustomization (disk : Disk) (path : Path) : Option (Kustomization ρ) :=
  (disk.file path).bind unmarshal

def writeKustomization (run : Run) (path : Path) (k : Kustomization ρ) : Run :=
  if run.disk.canWrite path then
    { disk := { run.disk with file := Function.update run.disk.file path (some (marshal k)) },
      written := run.written ++ [path] }
  else run

/-- What the fixer does to a file that it comes to. -/
def fixFile (run : Run) (path : Path) : Run :=
  match readKustomization unmarshal run.disk path with
  | none => run
  | some k =>
    match k.commonLabels with
    | none => run
    | some labels =>
      let (left, modified) := removeLabels labels
      if modified then writeKustomization marshal run path { k with commonLabels := some left }
      else run

/-- The walk of the fixer. What its function returns depends on the paths alone, so that it comes to
the files that are checked. -/
def main (root : Directory) (disk : Disk) : Run :=
  (Validators.fixCommonLabels.checked root).foldl (fixFile marshal unmarshal) ⟨disk, []⟩

/-- What the test reports at a file. -/
def checkFile (disk : Disk) (path : Path) : List Report :=
  match readKustomization unmarshal disk path with
  | none => [.reading path]
  | some k =>
    match k.commonLabels with
    | none => []
    | some labels => (forbiddenLabels.filter (hasLabel labels)).map (.forbidden path)

/-- `TestCommonLabelsImmutable`. -/
def testCommonLabelsImmutable (root : Directory) (disk : Disk) : List Report :=
  (Validators.testCommonLabelsImmutable.checked root).flatMap (checkFile unmarshal disk)

end

/-- The labels of a kustomization. -/
def Kustomization.labels (k : Kustomization ρ) : Labels := k.commonLabels.getD []

/-- It has one of the forbidden labels. -/
def Kustomization.Forbidden (k : Kustomization ρ) : Prop :=
  ∃ entry ∈ k.labels, entry.1 ∈ forbiddenLabels

/-- The kustomization without the forbidden labels. -/
def Kustomization.strip (k : Kustomization ρ) : Kustomization ρ :=
  { k with commonLabels := k.commonLabels.map (·.filter (·.1 ∉ forbiddenLabels)) }

variable {marshal : Kustomization ρ → String} {unmarshal : String → Option (Kustomization ρ)}
  {root : Directory} {disk : Disk} {run : Run} {path p : Path} {paths : List Path}
  {k : Kustomization ρ} {labels : Labels} {l : String}

theorem hasLabel_iff : hasLabel labels l = true ↔ ∃ entry ∈ labels, entry.1 = l := by
  simp [hasLabel]

theorem delete_of_not_hasLabel (h : hasLabel labels l = false) : delete labels l = labels := by
  rw [delete, List.filter_eq_self]
  intro entry hentry
  simp only [hasLabel, List.any_eq_false, decide_eq_true_eq] at h
  simpa using h entry hentry

theorem filter_cons_labels (l : String) (ls : List String) (labels : Labels) :
    labels.filter (fun entry => entry.1 ∉ l :: ls) =
      (delete labels l).filter fun entry => entry.1 ∉ ls := by
  rw [delete, List.filter_filter]
  refine List.filter_congr fun entry _ => ?_
  simp [Bool.and_comm]

theorem any_cons_labels (l : String) (ls : List String) (labels : Labels) :
    labels.any (fun entry => entry.1 ∈ l :: ls) =
      (hasLabel labels l || labels.any fun entry => entry.1 ∈ ls) := by
  rw [Bool.eq_iff_iff, Bool.or_eq_true, hasLabel_iff]
  simp only [List.any_eq_true, decide_eq_true_eq, List.mem_cons, and_or_left, exists_or]

/-- The loop takes out the labels, and notes whether there was one. -/
theorem foldl_delete (ls : List String) (labels : Labels) (modified : Bool) :
    ls.foldl (fun (state : Labels × Bool) l =>
      if hasLabel state.1 l then (delete state.1 l, true) else state) (labels, modified) =
      (labels.filter (fun entry => entry.1 ∉ ls),
        modified || labels.any fun entry => entry.1 ∈ ls) := by
  induction ls generalizing labels modified with
  | nil => simp
  | cons l ls ih =>
    rw [List.foldl_cons, filter_cons_labels, any_cons_labels]
    cases hl : hasLabel labels l with
    | true =>
      rw [if_pos rfl, ih]
      simp
    | false => rw [delete_of_not_hasLabel hl, if_neg Bool.false_ne_true, ih, Bool.false_or]

theorem removeLabels_eq (labels : Labels) : removeLabels labels =
    (labels.filter (fun entry => entry.1 ∉ forbiddenLabels),
      labels.any fun entry => entry.1 ∈ forbiddenLabels) :=
  (foldl_delete labelsToRemove labels false).trans (by rw [Bool.false_or]; rfl)

/-- The test is silent about a kustomization without forbidden labels. -/
theorem checkFile_eq_nil (hr : readKustomization unmarshal disk path = some k) :
    checkFile unmarshal disk path = [] ↔ ¬ k.Forbidden := by
  simp only [checkFile, hr]
  unfold Kustomization.Forbidden Kustomization.labels
  cases k.commonLabels with
  | none => simp
  | some labels =>
    simp only [List.map_eq_nil_iff, List.filter_eq_nil_iff, hasLabel_iff, Option.getD_some]
    constructor
    · rintro h ⟨entry, hentry, hin⟩
      exact h _ hin ⟨entry, hentry, rfl⟩
    · rintro h l hl ⟨entry, hentry, rfl⟩
      exact h ⟨entry, hentry, hl⟩

/-- The fixer passes over a file that it cannot read, and over one without forbidden labels. -/
theorem fixFile_of_clean
    (hr : ∀ k, readKustomization unmarshal run.disk path = some k → ¬ k.Forbidden) :
    fixFile marshal unmarshal run path = run := by
  rw [fixFile]
  cases hread : readKustomization unmarshal run.disk path with
  | none => rfl
  | some k =>
    have hclean := hr k hread
    unfold Kustomization.Forbidden Kustomization.labels at hclean
    cases hlabels : k.commonLabels with
    | none => simp [hlabels]
    | some labels =>
      have hany : labels.any (fun entry => entry.1 ∈ forbiddenLabels) = false := by
        rw [hlabels] at hclean
        simpa using hclean
      simp [hlabels, removeLabels_eq, hany]

/-- It writes one with forbidden labels, without these. -/
theorem fixFile_of_forbidden (hr : readKustomization unmarshal run.disk path = some k)
    (hf : k.Forbidden) :
    fixFile marshal unmarshal run path = writeKustomization marshal run path k.strip := by
  rw [fixFile, hr]
  obtain ⟨entry, hentry, hin⟩ := hf
  rw [Kustomization.labels] at hentry
  rw [Kustomization.strip]
  cases hlabels : k.commonLabels with
  | none =>
    rw [hlabels] at hentry
    cases hentry
  | some labels =>
    rw [hlabels] at hentry
    have hany : labels.any (fun entry => entry.1 ∈ forbiddenLabels) = true :=
      List.any_eq_true.mpr ⟨entry, hentry, by simpa using hin⟩
    simp only [hlabels, removeLabels_eq, hany, if_true, Option.map_some]

/-- Where a file stands in a run that began with `disk`: it is as it was, or it has been written
without its forbidden labels. -/
inductive Handled (marshal : Kustomization ρ → String) (unmarshal : String → Option (Kustomization ρ))
    (disk : Disk) (run : Run) (p : Path) : Prop where
  | untouched (written : p ∉ run.written) (file : run.disk.file p = disk.file p)
  | fixed (written : p ∈ run.written) (k : Kustomization ρ)
      (read : readKustomization unmarshal disk p = some k) (forbidden : k.Forbidden)
      (file : run.disk.file p = some (marshal k.strip))

structure Inv (marshal : Kustomization ρ → String) (unmarshal : String → Option (Kustomization ρ))
    (disk : Disk) (run : Run) : Prop where
  handled : ∀ p, Handled marshal unmarshal disk run p
  canWrite : run.disk.canWrite = disk.canWrite

/-- What is read at a path comes back after its labels have been removed, as it is stored. -/
def RoundTrips (marshal : Kustomization ρ → String) (unmarshal : String → Option (Kustomization ρ))
    (disk : Disk) (p : Path) : Prop :=
  ∀ k, readKustomization unmarshal disk p = some k → unmarshal (marshal k.strip) = some k.strip.stored

theorem labels_strip_stored (k : Kustomization ρ) :
    k.strip.stored.labels = k.labels.filter fun entry => entry.1 ∉ forbiddenLabels := by
  unfold Kustomization.stored Kustomization.strip Kustomization.labels
  cases k.commonLabels with
  | none => rfl
  | some labels =>
    rw [Option.map_some, Option.getD_some]
    cases labels.filter fun entry => entry.1 ∉ forbiddenLabels <;> rfl

theorem not_forbidden_strip_stored (k : Kustomization ρ) : ¬ k.strip.stored.Forbidden := by
  rintro ⟨entry, hentry, hin⟩
  rw [labels_strip_stored, List.mem_filter] at hentry
  simp [hin] at hentry

/-- A file that has been written is clean. -/
theorem clean_of_fixed (hround : RoundTrips marshal unmarshal disk p)
    (hr : readKustomization unmarshal disk p = some k)
    (hfile : run.disk.file p = some (marshal k.strip)) :
    readKustomization unmarshal run.disk p = some k.strip.stored := by
  rw [readKustomization, hfile]
  exact hround k hr

theorem read_of_untouched (h : run.disk.file p = disk.file p) :
    readKustomization unmarshal run.disk p = readKustomization unmarshal disk p := by
  rw [readKustomization, h, readKustomization]

theorem written_subset_fixFile : run.written ⊆ (fixFile marshal unmarshal run path).written := by
  unfold fixFile writeKustomization
  split
  · exact List.Subset.refl _
  · split
    · exact List.Subset.refl _
    · simp only
      split
      · split
        · exact List.subset_append_left _ _
        · exact List.Subset.refl _
      · exact List.Subset.refl _

/-- A step writes its own file at most, and only one with forbidden labels. -/
theorem inv_step (hround : RoundTrips marshal unmarshal disk path)
    (h : Inv marshal unmarshal disk run) :
    Inv marshal unmarshal disk (fixFile marshal unmarshal run path) := by
  by_cases hclean : ∀ k, readKustomization unmarshal run.disk path = some k → ¬ k.Forbidden
  · rw [fixFile_of_clean hclean]
    exact h
  push Not at hclean
  obtain ⟨k, hread, hforbidden⟩ := hclean
  rw [fixFile_of_forbidden hread hforbidden, writeKustomization]
  split
  · refine ⟨fun p => ?_, h.canWrite⟩
    by_cases hp : p = path
    · subst hp
      cases h.handled p with
      | untouched hwritten hfile =>
        rw [read_of_untouched hfile] at hread
        exact .fixed (by simp) k hread hforbidden (Function.update_self ..)
      | fixed hwritten k' hk' hf hfile =>
        -- a file that has been written has no forbidden label left
        rw [clean_of_fixed hround hk' hfile] at hread
        cases hread
        exact (not_forbidden_strip_stored k' hforbidden).elim
    · have hsame : Function.update run.disk.file path (some (marshal k.strip)) p = run.disk.file p :=
        Function.update_of_ne hp ..
      cases h.handled p with
      | untouched hwritten hfile => exact .untouched (by simp [hwritten, hp]) (hsame.trans hfile)
      | fixed hwritten k' hk' hf hfile =>
        exact .fixed (by simp [hwritten]) k' hk' hf (hsame.trans hfile)
  · exact h

theorem inv_foldl (hround : ∀ p ∈ paths, RoundTrips marshal unmarshal disk p)
    (h : Inv marshal unmarshal disk run) :
    Inv marshal unmarshal disk (paths.foldl (fixFile marshal unmarshal) run) := by
  induction paths generalizing run with
  | nil => exact h
  | cons path paths ih =>
    exact ih (fun p hp => hround p (List.mem_cons_of_mem _ hp))
      (inv_step (hround path List.mem_cons_self) h)

theorem written_subset_foldl :
    run.written ⊆ (paths.foldl (fixFile marshal unmarshal) run).written := by
  induction paths generalizing run with
  | nil => exact List.Subset.refl _
  | cons path paths ih => exact fun p hp => ih (written_subset_fixFile hp)

/-- A file with forbidden labels is written once the fixer has come to it. -/
theorem written_of_forbidden (h : Inv marshal unmarshal disk run) (hw : disk.canWrite path = true)
    (hr : readKustomization unmarshal disk path = some k) (hf : k.Forbidden) :
    path ∈ (fixFile marshal unmarshal run path).written := by
  cases h.handled path with
  | untouched hwritten hfile =>
    rw [fixFile_of_forbidden ((read_of_untouched hfile).trans hr) hf, writeKustomization,
      if_pos (by rw [h.canWrite, hw])]
    simp
  | fixed hwritten k' hk' hf' hfile => exact written_subset_fixFile hwritten

theorem written_foldl_of_forbidden (hround : ∀ p ∈ paths, RoundTrips marshal unmarshal disk p)
    (hwrites : ∀ p ∈ paths, disk.canWrite p = true) (h : Inv marshal unmarshal disk run)
    (hp : p ∈ paths) (hr : readKustomization unmarshal disk p = some k) (hf : k.Forbidden) :
    p ∈ (paths.foldl (fixFile marshal unmarshal) run).written := by
  induction paths generalizing run with
  | nil => cases hp
  | cons path paths ih =>
    rw [List.foldl_cons]
    rcases List.mem_cons.mp hp with rfl | hp
    · exact written_subset_foldl (written_of_forbidden h (hwrites p List.mem_cons_self) hr hf)
    · exact ih (fun q hq => hround q (List.mem_cons_of_mem _ hq))
        (fun q hq => hwrites q (List.mem_cons_of_mem _ hq))
        (inv_step (hround path List.mem_cons_self) h) hp

/-- Only files that the fixer comes to are written. -/
theorem mem_of_written (hp : p ∈ (paths.foldl (fixFile marshal unmarshal) run).written) :
    p ∈ run.written ∨ p ∈ paths := by
  induction paths generalizing run with
  | nil => exact Or.inl hp
  | cons path paths ih =>
    rcases ih hp with hp | hp
    · by_cases hclean : ∀ k, readKustomization unmarshal run.disk path = some k → ¬ k.Forbidden
      · rw [fixFile_of_clean hclean] at hp
        exact Or.inl hp
      · push Not at hclean
        obtain ⟨k, hread, hforbidden⟩ := hclean
        rw [fixFile_of_forbidden hread hforbidden, writeKustomization] at hp
        split at hp
        · rcases List.mem_append.mp hp with hp | hp
          · exact Or.inl hp
          · exact Or.inr (List.mem_cons.mpr (Or.inl (List.mem_singleton.mp hp)))
        · exact Or.inl hp
    · exact Or.inr (List.mem_cons_of_mem _ hp)

theorem foldl_of_clean
    (h : ∀ p ∈ paths, ∀ k, readKustomization unmarshal run.disk p = some k → ¬ k.Forbidden) :
    paths.foldl (fixFile marshal unmarshal) run = run := by
  induction paths with
  | nil => rfl
  | cons path paths ih =>
    rw [List.foldl_cons, fixFile_of_clean (h path List.mem_cons_self)]
    exact ih fun p hp => h p (List.mem_cons_of_mem _ hp)

/-- Every file that the walk comes to can be read and written, and comes back as it is stored. -/
structure Works (marshal : Kustomization ρ → String) (unmarshal : String → Option (Kustomization ρ))
    (root : Directory) (disk : Disk) : Prop where
  reads : ∀ p ∈ Validators.fixCommonLabels.checked root, ∃ k, readKustomization unmarshal disk p = some k
  writes : ∀ p ∈ Validators.fixCommonLabels.checked root, disk.canWrite p = true
  roundTrips : ∀ p ∈ Validators.fixCommonLabels.checked root, RoundTrips marshal unmarshal disk p

/-- What a run of the fixer leaves behind: the test is silent; only kustomizations with forbidden
labels have been written, and those have all other labels and fields as before; all other files are as
they were; and a second run writes nothing. -/
structure Fixed (marshal : Kustomization ρ → String) (unmarshal : String → Option (Kustomization ρ))
    (root : Directory) (disk : Disk) (run : Run) : Prop where
  silent : testCommonLabelsImmutable unmarshal root run.disk = []
  written : ∀ p ∈ run.written, p.getLastD "" = kustomizationFile ∧
    ∃ k k', readKustomization unmarshal disk p = some k ∧ k.Forbidden ∧
      readKustomization unmarshal run.disk p = some k' ∧ k'.other = k.other ∧
      k'.labels = k.labels.filter fun entry => entry.1 ∉ forbiddenLabels
  untouched : ∀ p, p ∉ run.written → run.disk.file p = disk.file p
  again : main marshal unmarshal root run.disk = ⟨run.disk, []⟩

theorem looksFor_of_checked (h : p ∈ Validators.fixCommonLabels.checked root) :
    p.getLastD "" = kustomizationFile := by
  have hwanted := ((Validators.mem_checked_iff (by simp [Validators.validators])).mp h).2.1
  simpa [Validators.fixCommonLabels] using hwanted.1

/-- The fixer and the test agree. -/
theorem fixed_main (marshal : Kustomization ρ → String)
    (unmarshal : String → Option (Kustomization ρ)) (root : Directory) (disk : Disk)
    (h : Works marshal unmarshal root disk) :
    Fixed marshal unmarshal root disk (main marshal unmarshal root disk) := by
  have hstart : Inv marshal unmarshal disk ⟨disk, []⟩ :=
    ⟨fun p => .untouched List.not_mem_nil rfl, rfl⟩
  have hinv : Inv marshal unmarshal disk (main marshal unmarshal root disk) :=
    inv_foldl h.roundTrips hstart
  have hwritten : ∀ p ∈ (main marshal unmarshal root disk).written,
      p ∈ Validators.fixCommonLabels.checked root := fun p hp =>
    (mem_of_written hp).resolve_left List.not_mem_nil
  -- after the run, no file that the walk comes to has a forbidden label
  have hclean : ∀ p ∈ Validators.fixCommonLabels.checked root, ∃ k,
      readKustomization unmarshal (main marshal unmarshal root disk).disk p = some k ∧
        ¬ k.Forbidden := by
    intro p hp
    cases hinv.handled p with
    | untouched hnot hfile =>
      obtain ⟨k, hk⟩ := h.reads p hp
      refine ⟨k, (read_of_untouched hfile).trans hk, fun hf => hnot ?_⟩
      exact written_foldl_of_forbidden h.roundTrips h.writes hstart hp hk hf
    | fixed _ k hk _ hfile =>
      exact ⟨_, clean_of_fixed (h.roundTrips p hp) hk hfile, not_forbidden_strip_stored k⟩
  refine ⟨?_, fun p hp => ⟨looksFor_of_checked (hwritten p hp), ?_⟩, fun p hp => ?_, ?_⟩
  · refine List.flatMap_eq_nil_iff.mpr fun p hp => ?_
    obtain ⟨k, hk, hnot⟩ := hclean p hp
    exact (checkFile_eq_nil hk).mpr hnot
  · cases hinv.handled p with
    | untouched hnot _ => exact (hnot hp).elim
    | fixed _ k hk hf hfile =>
      exact ⟨k, _, hk, hf, clean_of_fixed (h.roundTrips p (hwritten p hp)) hk hfile, rfl,
        labels_strip_stored k⟩
  · cases hinv.handled p with
    | untouched _ hfile => exact hfile
    | fixed hin _ _ _ _ => exact (hp hin).elim
  · refine foldl_of_clean fun p hp k hk => ?_
    obtain ⟨k', hk', hnot⟩ := hclean p hp
    rw [hk] at hk'
    cases hk'
    exact hnot

/-- A kustomization with a version among its labels, and what is written in its place. -/
def versioned : String := "commonLabels:\n  app: web\n  app.kubernetes.io/version: v1\n"

def unversioned : String := "commonLabels:\n  app: web\n"

def unmarshalVersioned (text : String) : Option (Kustomization Unit) :=
  if text = versioned then some ⟨some [("app", "web"), (versionLabel, "v1")], ()⟩
  else if text = unversioned then some ⟨some [("app", "web")], ()⟩
  else none

/-- Two directories with a kustomization each. -/
def versionedRoot : Directory where
  entries := .dir "app" (.file "kustomization.yaml" .nil) (.dir "web" (.file "kustomization.yaml" .nil) .nil)
  sorted := by
    refine ⟨by decide +kernel, ?_, ?_⟩ <;> simp [Entries.Sorted, Entries.names]

/-- Only the first has the version among its labels. -/
def versionedDisk : Disk where
  file p := if p = ["app", "kustomization.yaml"] then some versioned else some unversioned
  canWrite _ := true

theorem fixed_main_versioned : Fixed (fun _ => unversioned) unmarshalVersioned versionedRoot
    versionedDisk (main (fun _ => unversioned) unmarshalVersioned versionedRoot versionedDisk) := by
  have hread : ∀ p, readKustomization unmarshalVersioned versionedDisk p =
      if p = ["app", "kustomization.yaml"] then some ⟨some [("app", "web"), (versionLabel, "v1")], ()⟩
      else some ⟨some [("app", "web")], ()⟩ := by
    intro p
    by_cases hp : p = ["app", "kustomization.yaml"]
    · rw [if_pos hp]
      exact congrArg (Option.bind · unmarshalVersioned) (if_pos hp)
    · rw [if_neg hp]
      exact congrArg (Option.bind · unmarshalVersioned) (if_neg hp)
  refine fixed_main _ _ _ _ ⟨fun p _ => ?_, fun _ _ => rfl, fun p _ k hk => ?_⟩
  · rw [hread]
    split <;> exact ⟨_, rfl⟩
  · rw [hread] at hk
    split at hk
    · cases hk
      decide +kernel
    · cases hk
      decide +kernel

end Manifests.CommonLabels
