import Manifests.Library.FileTree

/-! `extract_images.py`: how it finds the kustomizations below a directory. -/
namespace Manifests.KustomizationDirs
open Library Entries

def excludeDirs : List String := [".github", "docs", "hack", "kfdef", "plugins", "tests"]

/-- The directories in `overlays`. -/
def overlays (d : Entries) : List String := ((d.folders.lookup "overlays").map folderNames).getD []

/-- `check_kustomize_dir`, for the directory `curr` with the entries `d`. -/
def checkKustomizeDir (curr : Path) (d : Entries) : Bool × List Path :=
  if d.folderNames.length = 1 ∧ "base" ∈ d.folderNames then (true, [curr ++ ["base"]])
  else if d.folderNames.length = 2 ∧ "base" ∈ d.folderNames ∧ "overlays" ∈ d.folderNames then
    (true, (curr ++ ["base"]) :: (overlays d).map fun f => curr ++ ["overlays", f])
  else (false, [])

/-- The loop of `helper` over the folders of `curr`, with the calls of `helper` that it makes. -/
def walkFolders (curr : Path) : Entries → List Path
  | .nil => []
  | .file _ rest => walkFolders curr rest
  | .dir f below rest =>
    (if f ∈ excludeDirs then []
      else
        match checkKustomizeDir (curr ++ [f]) below with
        | (true, kustDirs) => kustDirs
        | (false, _) => walkFolders (curr ++ [f]) below) ++ walkFolders curr rest

def helper (root : Path) (d : Entries) : List Path :=
  match checkKustomizeDir root d with
  | (true, kustDirs) => kustDirs
  | (false, _) => walkFolders root d

/-- The paths from the root of the tree on. -/
def getKustomizationDirs (tree : DirTree) : List Path := helper [] tree.entries

/-- A directory with a base, or with a base and overlays, and no other folders. -/
def Package (d : Entries) : Prop :=
  (∀ n, n ∈ d.folderNames ↔ n = "base") ∨ (∀ n, n ∈ d.folderNames ↔ n = "base" ∨ n = "overlays")

/-- The directories that can be reached through neither a package nor an excluded directory. -/
inductive Reached : Entries → Path → Entries → Prop where
  | here {d : Entries} : Reached d [] d
  | inside {d below d' : Entries} {f : String} {q : Path} (hd : ¬ Package d)
      (hf : (f, below) ∈ d.folders) (hx : f ∉ excludeDirs) (h : Reached below q d') :
      Reached d (f :: q) d'

/-- The base or one of the overlays of a package, from the package on. -/
inductive Part (d : Entries) : Path → Prop where
  | base : Part d ["base"]
  | overlay {o : Entries} {f : String} (ho : ("overlays", o) ∈ d.folders) (hf : f ∈ o.folderNames) :
      Part d ["overlays", f]

/-- A part of a package that can be reached. -/
def PackagePart (root : Entries) (p : Path) : Prop :=
  ∃ q d s, Reached root q d ∧ Package d ∧ Part d s ∧ p = q ++ s

section
variable {d below : Entries} {curr p q : Path} {f : String}

theorem walkFolders_dir {rest : Entries} : walkFolders curr (.dir f below rest) =
    (if f ∈ excludeDirs then [] else helper (curr ++ [f]) below) ++ walkFolders curr rest := rfl

/-- The script counts the folders, which are exactly those of a package. -/
theorem package_iff (h : d.Distinct) : Package d ↔
    (d.folderNames.length = 1 ∧ "base" ∈ d.folderNames) ∨
      (d.folderNames.length = 2 ∧ "base" ∈ d.folderNames ∧ "overlays" ∈ d.folderNames) := by
  have hnodup := h.folderNames_nodup
  generalize hnames : d.folderNames = names at hnodup ⊢
  unfold Package
  rw [hnames]
  constructor
  · rintro (hbase | hboth)
    · have hperm : names.Perm ["base"] :=
        (List.perm_ext_iff_of_nodup hnodup (by decide)).mpr (by simpa using hbase)
      exact Or.inl ⟨hperm.length_eq, (hbase _).mpr rfl⟩
    · have hperm : names.Perm ["base", "overlays"] :=
        (List.perm_ext_iff_of_nodup hnodup (by decide)).mpr (by simpa using hboth)
      exact Or.inr ⟨hperm.length_eq, (hboth _).mpr (Or.inl rfl), (hboth _).mpr (Or.inr rfl)⟩
  · rintro (⟨hlen, hbase⟩ | ⟨hlen, hbase, hoverlays⟩)
    · obtain ⟨name, rfl⟩ := List.length_eq_one_iff.mp hlen
      obtain rfl := List.mem_singleton.mp hbase
      exact Or.inl fun n => List.mem_singleton
    · have hsub : ["base", "overlays"] ⊆ names := by simp [hbase, hoverlays]
      have hperm : ["base", "overlays"].Perm names :=
        (List.subperm_of_subset (by decide) hsub).perm_of_length_le (by simp [hlen])
      exact Or.inr fun n => hperm.mem_iff.symm.trans (by simp)

theorem checkKustomizeDir_fst (h : d.Distinct) : (checkKustomizeDir curr d).1 = true ↔ Package d := by
  rw [package_iff h, checkKustomizeDir]
  split
  · next hone => simp [hone]
  · next hone =>
    split
    · next htwo => simp [htwo]
    · next htwo => simp [hone, htwo]

theorem helper_of_package (h : d.Distinct) (hd : Package d) :
    helper curr d = (checkKustomizeDir curr d).2 := by
  have hfst : (checkKustomizeDir curr d).1 = true := (checkKustomizeDir_fst h).mpr hd
  unfold helper
  split
  · next heq => rw [heq]
  · next heq =>
    rw [heq] at hfst
    cases hfst

theorem helper_of_not_package (h : d.Distinct) (hd : ¬ Package d) :
    helper curr d = walkFolders curr d := by
  have hfst : ¬ (checkKustomizeDir curr d).1 = true := mt (checkKustomizeDir_fst h).mp hd
  unfold helper
  split
  · next heq =>
    rw [heq] at hfst
    exact (hfst rfl).elim
  · rfl

theorem mem_overlays (h : d.Distinct) :
    f ∈ overlays d ↔ ∃ o, ("overlays", o) ∈ d.folders ∧ f ∈ o.folderNames := by
  simp only [← h.lookup_iff, overlays]
  cases d.folders.lookup "overlays" <;> simp

theorem part_iff (h : d.Distinct) : Part d p ↔ p = ["base"] ∨ ∃ f ∈ overlays d, p = ["overlays", f] := by
  constructor
  · rintro (_ | ⟨ho, hf⟩)
    · exact Or.inl rfl
    · exact Or.inr ⟨_, (mem_overlays h).mpr ⟨_, ho, hf⟩, rfl⟩
  · rintro (rfl | ⟨f, hf, rfl⟩)
    · exact .base
    · obtain ⟨o, ho, hf⟩ := (mem_overlays h).mp hf
      exact .overlay ho hf

/-- What is found in a package. -/
theorem mem_checkKustomizeDir (h : d.Distinct) (hd : Package d) :
    p ∈ (checkKustomizeDir curr d).2 ↔ ∃ s, Part d s ∧ p = curr ++ s := by
  simp only [part_iff h, or_and_right, exists_or, exists_eq_left]
  rcases (package_iff h).mp hd with hone | htwo
  · have hnone : overlays d = [] := by
      rw [List.eq_nil_iff_forall_not_mem]
      intro f hf
      obtain ⟨o, ho, _⟩ := (mem_overlays h).mp hf
      have hmem : "overlays" ∈ d.folderNames := List.mem_map.mpr ⟨_, ho, rfl⟩
      obtain ⟨name, hname⟩ := List.length_eq_one_iff.mp hone.1
      obtain ⟨hlen, hbase⟩ := hone
      rw [hname, List.mem_singleton] at hbase hmem
      rw [← hbase] at hmem
      revert hmem
      decide
    rw [checkKustomizeDir, if_pos hone, hnone]
    simp
  · have hone : ¬ (d.folderNames.length = 1 ∧ "base" ∈ d.folderNames) := by
      rintro ⟨hlen, _⟩
      omega
    rw [checkKustomizeDir, if_neg hone, if_pos htwo]
    simp only [List.mem_cons, List.mem_map]
    constructor
    · rintro (rfl | ⟨f, hf, rfl⟩)
      · exact Or.inl rfl
      · exact Or.inr ⟨_, ⟨f, hf, rfl⟩, rfl⟩
    · rintro (rfl | ⟨_, ⟨f, hf, rfl⟩, rfl⟩)
      · exact Or.inl rfl
      · exact Or.inr ⟨f, hf, rfl⟩

/-- A package is not searched for other packages. -/
theorem packagePart_of_package (hd : Package d) : PackagePart d p ↔ Part d p := by
  constructor
  · rintro ⟨q, d', s, hq, _, hs, rfl⟩
    cases hq with
    | here => exact hs
    | inside hne => exact (hne hd).elim
  · exact fun hp => ⟨[], d, p, .here, hd, hp, rfl⟩

theorem packagePart_of_not_package (hd : ¬ Package d) : PackagePart d p ↔
    ∃ f below q, (f, below) ∈ d.folders ∧ f ∉ excludeDirs ∧ PackagePart below q ∧ p = f :: q := by
  constructor
  · rintro ⟨q, d', s, hq, hd', hs, rfl⟩
    cases hq with
    | here => exact (hd hd').elim
    | inside _ hf hx hq => exact ⟨_, _, _, hf, hx, ⟨_, d', s, hq, hd', hs, rfl⟩, rfl⟩
  · rintro ⟨f, below, _, hf, hx, ⟨q, d', s, hq, hd', hs, rfl⟩, rfl⟩
    exact ⟨f :: q, d', s, .inside hd hf hx hq, hd', hs, rfl⟩

theorem mem_helper (h : d.Distinct) (hwalk : p ∈ walkFolders curr d ↔ ∃ f below q,
      (f, below) ∈ d.folders ∧ f ∉ excludeDirs ∧ PackagePart below q ∧ p = curr ++ f :: q) :
    p ∈ helper curr d ↔ ∃ q, PackagePart d q ∧ p = curr ++ q := by
  by_cases hd : Package d
  · rw [helper_of_package h hd, mem_checkKustomizeDir h hd]
    simp only [packagePart_of_package hd]
  · rw [helper_of_not_package h hd, hwalk]
    simp only [packagePart_of_not_package hd]
    constructor
    · rintro ⟨f, below, q, hf, hx, hq, rfl⟩
      exact ⟨f :: q, ⟨f, below, q, hf, hx, hq, rfl⟩, rfl⟩
    · rintro ⟨_, ⟨f, below, q, hf, hx, hq, rfl⟩, rfl⟩
      exact ⟨f, below, q, hf, hx, hq, rfl⟩

/-- The loop over the folders finds the parts of the packages below them. -/
theorem mem_walkFolders (h : d.Distinct) : p ∈ walkFolders curr d ↔ ∃ f below q,
    (f, below) ∈ d.folders ∧ f ∉ excludeDirs ∧ PackagePart below q ∧ p = curr ++ f :: q := by
  induction d generalizing curr p with
  | nil => simp [walkFolders, folders]
  | file name rest ih => exact ih h.2
  | dir name below rest ih_below ih_rest =>
    rw [walkFolders_dir, List.mem_append, ih_rest h.2.2]
    have hname : p ∈ (if name ∈ excludeDirs then [] else helper (curr ++ [name]) below) ↔
        name ∉ excludeDirs ∧ ∃ q, PackagePart below q ∧ p = curr ++ name :: q := by
      split
      · next hx => simp [hx]
      · next hx =>
        rw [mem_helper h.2.1 (ih_below h.2.1)]
        simp [hx]
    rw [hname]
    constructor
    · rintro (⟨hx, q, hq, rfl⟩ | ⟨f, below', q, hf, hx, hq, rfl⟩)
      · exact ⟨name, below, q, List.mem_cons_self, hx, hq, rfl⟩
      · exact ⟨f, below', q, List.mem_cons_of_mem _ hf, hx, hq, rfl⟩
    · rintro ⟨f, below', q, hf, hx, hq, rfl⟩
      rcases List.mem_cons.mp hf with heq | hf
      · cases heq
        exact Or.inl ⟨hx, q, hq, rfl⟩
      · exact Or.inr ⟨f, below', q, hf, hx, hq, rfl⟩

theorem nodup_checkKustomizeDir (h : d.Distinct) : (checkKustomizeDir curr d).2.Nodup := by
  unfold checkKustomizeDir
  split
  · simp
  · split
    · have hnodup : (overlays d).Nodup := by
        unfold overlays
        cases ho : d.folders.lookup "overlays" with
        | none => simp
        | some o => exact (h.of_folder (h.lookup_iff.mp ho)).folderNames_nodup
      have hinj : Function.Injective fun f => curr ++ ["overlays", f] := by
        intro f g hfg
        simpa using hfg
      simpa using hnodup.map hinj
    · exact .nil

theorem nodup_helper (h : d.Distinct) (hwalk : (walkFolders curr d).Nodup) : (helper curr d).Nodup := by
  by_cases hd : Package d
  · rw [helper_of_package h hd]
    exact nodup_checkKustomizeDir h
  · rwa [helper_of_not_package h hd]

theorem nodup_walkFolders (h : d.Distinct) : (walkFolders curr d).Nodup := by
  induction d generalizing curr with
  | nil => exact .nil
  | file name rest ih => exact ih h.2
  | dir name below rest ih_below ih_rest =>
    rw [walkFolders_dir]
    refine List.nodup_append.mpr ⟨?_, ih_rest h.2.2, ?_⟩
    · split
      · exact .nil
      · exact nodup_helper h.2.1 (ih_below h.2.1)
    · -- the paths of two folders differ in the name of the folder
      intro p hp p' hp' heq
      split at hp
      · cases hp
      obtain ⟨q, _, rfl⟩ := (mem_helper h.2.1 (mem_walkFolders h.2.1)).mp hp
      obtain ⟨f, _, q', hf, _, _, rfl⟩ := (mem_walkFolders h.2.2).mp hp'
      have hsame : name = f := by
        have := List.append_cancel_left ((List.append_assoc ..).symm.trans heq)
        exact (List.cons.inj this).1
      subst hsame
      exact h.1 ((folderNames_sublist rest).subset (List.mem_map.mpr ⟨_, hf, rfl⟩))

theorem mem_getKustomizationDirs {tree : DirTree} :
    p ∈ getKustomizationDirs tree ↔ PackagePart tree.entries p := by
  rw [getKustomizationDirs, mem_helper tree.distinct (mem_walkFolders tree.distinct)]
  simp

theorem Reached.not_excluded {d' : Entries} (h : Reached d q d') : ∀ name ∈ q, name ∉ excludeDirs := by
  induction h with
  | here => simp
  | inside _ _ hx _ ih => exact List.forall_mem_cons.mpr ⟨hx, ih⟩

theorem PackagePart.not_excluded (h : PackagePart d p) : ∀ name ∈ p.dropLast, name ∉ excludeDirs := by
  obtain ⟨q, d', s, hq, _, hs, rfl⟩ := h
  have hq := hq.not_excluded
  cases hs with
  | base => simpa using hq
  | overlay _ _ =>
    intro name hname
    have hname : name ∈ q ∨ name = "overlays" := by simpa using hname
    rcases hname with hname | rfl
    · exact hq name hname
    · decide

theorem Reached.folder {d' : Entries} (h : Reached d q d') : Folder d q d' := by
  induction h with
  | here => exact .here
  | inside _ hf _ _ ih => exact .inside hf ih

theorem Package.base (h : Package d) : "base" ∈ d.folderNames := by
  rcases h with hbase | hboth
  · exact (hbase _).mpr rfl
  · exact (hboth _).mpr (Or.inl rfl)

theorem PackagePart.folder (h : PackagePart d p) : ∃ d', Folder d p d' := by
  obtain ⟨q, d', s, hq, hd', hs, rfl⟩ := h
  have hpart : ∃ part, Folder d' s part := by
    cases hs with
    | base =>
      obtain ⟨⟨_, base⟩, hbase, rfl⟩ := List.mem_map.mp hd'.base
      exact ⟨base, .inside hbase .here⟩
    | overlay ho hf =>
      obtain ⟨⟨_, overlay⟩, hoverlay, rfl⟩ := List.mem_map.mp hf
      exact ⟨overlay, .inside ho (.inside hoverlay .here)⟩
  obtain ⟨part, hpart⟩ := hpart
  exact ⟨part, folder_append.mpr ⟨d', hq.folder, hpart⟩⟩

end

/-- The directories that are found are the bases and overlays of the packages that can be reached
through neither another package nor an excluded directory. Each is a directory of the tree and found
once, and none of them is below an excluded one. -/
theorem kustomization_dirs (tree : DirTree) :
    (∀ p, p ∈ getKustomizationDirs tree ↔ PackagePart tree.entries p) ∧
    (getKustomizationDirs tree).Nodup ∧
    (∀ p ∈ getKustomizationDirs tree, ∀ name ∈ p.dropLast, name ∉ excludeDirs) ∧
    ∀ p ∈ getKustomizationDirs tree, ∃ d, Folder tree.entries p d :=
  ⟨fun _ => mem_getKustomizationDirs,
    nodup_helper tree.distinct (nodup_walkFolders tree.distinct),
    fun _ hp => (mem_getKustomizationDirs.mp hp).not_excluded,
    fun _ hp => (mem_getKustomizationDirs.mp hp).folder⟩

/-- A kustomization without a base. -/
def plainKustomization : DirTree :=
  ⟨.dir "app" (.file "kustomization.yaml" .nil) .nil, by simp [Distinct, names]⟩

/-- A base without a kustomization. -/
def bareBase : DirTree := ⟨.dir "base" (.file "deployment.yaml" .nil) .nil, by simp [Distinct, names]⟩

/-- Every directory that is found has a kustomization. -/
def OnlyKustomizations (tree : DirTree) : Prop :=
  ∀ p ∈ getKustomizationDirs tree, ∃ d, Folder tree.entries p d ∧ "kustomization.yaml" ∈ d.fileNames

/-- The first is not found, and the second is. -/
theorem not_all_kustomizations :
    (¬ ∀ tree : DirTree,
      (∀ p d, Folder tree.entries p d → (∀ name ∈ p, name ∉ excludeDirs) →
        "kustomization.yaml" ∈ d.fileNames → p ∈ getKustomizationDirs tree) ∧
      (getKustomizationDirs tree).Nodup ∧
      (∀ p ∈ getKustomizationDirs tree, ∀ name ∈ p.dropLast, name ∉ excludeDirs) ∧
      OnlyKustomizations tree) ∧
    ¬ ∀ tree : DirTree, OnlyKustomizations tree := by
  constructor
  · intro h
    have hmem := (h plainKustomization).1 ["app"] (.file "kustomization.yaml" .nil)
      (.inside List.mem_cons_self .here) (by decide) (by decide)
    revert hmem
    decide
  · intro h
    obtain ⟨d, hd, hfile⟩ := h bareBase ["base"] (by decide)
    have hbase : some (.file "deployment.yaml" .nil) = some d := bareBase.distinct.folderAt_iff.mpr hd
    cases hbase
    revert hfile
    decide

end Manifests.KustomizationDirs
