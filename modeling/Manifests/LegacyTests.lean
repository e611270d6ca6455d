import Manifests.Library.PosixPath
import Manifests.Library.Value

/-! `generate_legacy_kustomizations.py`: from the kustomizations of a deployed application it makes
one for the tests, with copies of the parameter files. -/
namespace Manifests.LegacyTests
open Library PosixPath

def appsToSkip : List String := ["mysql", "minio"]

/-- An entry of `configMapGenerator`: its name, and the keys `envs` and `env`. -/
structure Generator where
  name : String
  envs : List String
  env : Option String
  deriving Repr, DecidableEq

def Generator.files (g : Generator) : List String := g.envs ++ g.env.toList

/-- `generators[name] = files`: a name that is there keeps its place. -/
def setFiles (generators : List (String × List String)) (name : String) (files : List String) :
    List (String × List String) :=
  match generators with
  | [] => [(name, files)]
  | (n, fs) :: rest =>
    if n = name then (n, files) :: rest else (n, fs) :: setFiles rest name files

/-- `build_configmap_generators`, for the entries of the kustomization in `kustomizeDir`. -/
def buildConfigmapGenerators (kustomizeDir : String) (base : List Generator) :
    List (String × List String) :=
  base.foldl (fun generators g => setFiles generators g.name (g.files.map (join2 kustomizeDir))) []

/-- The file of the parameters with an index. -/
def pfile (paramsIndex : Nat) : String := "params_" ++ (toString paramsIndex ++ ".env")

/-- A generator of the new kustomization. -/
structure NewGenerator where
  name : String
  envs : List String
  deriving Repr, DecidableEq

def NewGenerator.value (g : NewGenerator) : Value :=
  .dict [("name", .str g.name), ("envs", .list (g.envs.map .str)), ("behavior", .str "merge")]

/-- What is in the directory of a test: the copies of the parameter files, and the kustomization. -/
structure AppTest where
  params : List (String × String)
  kustomization : Option Dict

section
-- the contents of a file, or none when it cannot be read
variable (read : String → Option String)

/-- The loop over the files of a generator: the copies, and whether all of them are made. -/
def copyFiles (paramsIndex : Nat) : List String → List (String × String) × Bool
  | [] => ([], true)
  | f :: files =>
    match read f with
    | none => ([], false)
    | some contents =>
      let rest := copyFiles (paramsIndex + 1) files
      ((pfile paramsIndex, contents) :: rest.1, rest.2)

/-- The loop over the generators, which share the index. -/
def writeGenerators (paramsIndex : Nat) :
    List (String × List String) → List (String × String) × Option (List NewGenerator)
  | [] => ([], some [])
  | (name, files) :: generators =>
    match copyFiles read paramsIndex files with
    | (copies, false) => (copies, none)
    | (copies, true) =>
      let g : NewGenerator :=
        { name, envs := (List.range' paramsIndex files.length).map pfile }
      let rest := writeGenerators (paramsIndex + files.length) generators
      (copies ++ rest.1, rest.2.map (g :: ·))

/-- What `generate` writes for an application, from its rewritten kustomization and the entries of
its base. -/
def writeAppTest (kustomizeDir : String) (base : List Generator) (kustomization : Dict) : AppTest :=
  match writeGenerators read 0 (buildConfigmapGenerators kustomizeDir base) with
  | (params, none) => { params, kustomization := none }
  | (params, some generators) =>
    let withGenerators := kustomization.set "configMapGenerator" (.list (generators.map (·.value)))
    { params, kustomization := some (withGenerators.erase "secretGenerator") }

end

/-- The files of the entries with a name, in their order. -/
def listed (base : List Generator) (name : String) : List String :=
  (base.filter (·.name = name)).flatMap Generator.files

/-- The parameter files of the generators with a name. -/
def references (generators : List NewGenerator) (name : String) : List String :=
  (generators.filter (·.name = name)).flatMap NewGenerator.envs

/-- No parameter file is lost: the copies have different names, each of them is referenced once, and
the copies for a name are the files that the entries with this name list. -/
structure Complete (contents : String → String) (kustomizeDir : String) (base : List Generator)
    (params : List (String × String)) (generators : List NewGenerator) : Prop where
  named : ∀ p ∈ params, ∃ i, p.1 = pfile i
  distinct : (params.map Prod.fst).Nodup
  once : (generators.flatMap NewGenerator.envs).Perm (params.map Prod.fst)
  kept : ∀ name, (references generators name).map (List.lookup · params) =
    (listed base name).map fun f => some (contents (join2 kustomizeDir f))

/-- The same for the directory of a test. -/
def CompleteTest (contents : String → String) (kustomizeDir : String) (base : List Generator)
    (test : AppTest) : Prop :=
  ∃ kustomization generators, test.kustomization = some kustomization ∧
    kustomization.get "configMapGenerator" = some (.list (generators.map NewGenerator.value)) ∧
      Complete contents kustomizeDir base test.params generators

section
variable {generators : List (String × List String)} {base : List Generator} {g : Generator}
  {name kustomizeDir : String} {files : List String} {contents : String → String} {i j n : Nat}

/-- The files that are kept for a name. -/
def keptFiles (generators : List (String × List String)) (name : String) : List String :=
  (generators.filter (·.1 = name)).flatMap Prod.snd

theorem mem_keys_setFiles {n : String} : n ∈ (setFiles generators name files).map Prod.fst ↔
    n = name ∨ n ∈ generators.map Prod.fst := by
  induction generators with
  | nil => simp [setFiles]
  | cons entry generators ih =>
    rw [setFiles]
    split
    · next h => simp [h]
    · rw [List.map_cons, List.mem_cons, ih, List.map_cons, List.mem_cons, or_left_comm]

theorem nodup_setFiles (h : (generators.map Prod.fst).Nodup) :
    ((setFiles generators name files).map Prod.fst).Nodup := by
  induction generators with
  | nil => exact List.nodup_singleton _
  | cons entry generators ih =>
    obtain ⟨hentry, hrest⟩ := List.nodup_cons.mp h
    rw [setFiles]
    split
    · exact h
    · next hne =>
      rw [List.map_cons, List.nodup_cons, mem_keys_setFiles, not_or]
      exact ⟨⟨hne, hentry⟩, ih hrest⟩

theorem keptFiles_of_not_mem (h : name ∉ generators.map Prod.fst) :
    keptFiles generators name = [] := by
  have hnone : generators.filter (·.1 = name) = [] := by
    rw [List.filter_eq_nil_iff]
    intro entry hentry heq
    exact h (List.mem_map.mpr ⟨entry, hentry, of_decide_eq_true heq⟩)
  rw [keptFiles, hnone, List.flatMap_nil]

theorem keptFiles_cons {entry : String × List String} : keptFiles (entry :: generators) name =
    (if entry.1 = name then entry.2 else []) ++ keptFiles generators name := by
  rw [keptFiles, List.filter_cons]
  split <;> simp_all [keptFiles]

/-- Setting the files of a name replaces what is there for it. -/
theorem keptFiles_setFiles (h : (generators.map Prod.fst).Nodup) {n : String} :
    keptFiles (setFiles generators name files) n =
      if n = name then files else keptFiles generators n := by
  induction generators with
  | nil =>
    rw [setFiles, keptFiles_cons, keptFiles_of_not_mem List.not_mem_nil, List.append_nil]
    exact if_congr eq_comm rfl rfl
  | cons entry generators ih =>
    obtain ⟨hentry, hrest⟩ := List.nodup_cons.mp h
    rw [setFiles]
    split
    · next heq =>
      rw [keptFiles_cons, keptFiles_cons]
      split
      · next hn =>
        have hnot : n ∉ generators.map Prod.fst := hn ▸ hentry
        rw [keptFiles_of_not_mem hnot, if_pos (hn.symm.trans heq), List.append_nil]
      · next hn => rw [if_neg (heq ▸ Ne.symm hn)]
    · next hne =>
      rw [keptFiles_cons, ih hrest, keptFiles_cons]
      by_cases hn : n = name
      · rw [if_pos hn, if_pos hn, if_neg (hn ▸ hne), List.nil_append]
      · rw [if_neg hn, if_neg hn]

theorem buildConfigmapGenerators_append_singleton :
    buildConfigmapGenerators kustomizeDir (base ++ [g]) =
      setFiles (buildConfigmapGenerators kustomizeDir base) g.name
        (g.files.map (join2 kustomizeDir)) := by
  rw [buildConfigmapGenerators, List.foldl_append]
  rfl

theorem nodup_buildConfigmapGenerators (kustomizeDir : String) (base : List Generator) :
    ((buildConfigmapGenerators kustomizeDir base).map Prod.fst).Nodup := by
  induction base using List.reverseRecOn with
  | nil => exact List.nodup_nil
  | append_singleton base g ih =>
    rw [buildConfigmapGenerators_append_singleton]
    exact nodup_setFiles ih

theorem listed_append_singleton : listed (base ++ [g]) name =
    listed base name ++ if g.name = name then g.files else [] := by
  rw [listed, List.filter_append, List.flatMap_append, ← listed, List.filter_cons]
  split <;> simp_all

/-- Only the files of the last entry with a name are kept. -/
theorem keptFiles_append_singleton :
    keptFiles (buildConfigmapGenerators kustomizeDir (base ++ [g])) name =
      if name = g.name then g.files.map (join2 kustomizeDir)
      else keptFiles (buildConfigmapGenerators kustomizeDir base) name := by
  rw [buildConfigmapGenerators_append_singleton,
    keptFiles_setFiles (nodup_buildConfigmapGenerators kustomizeDir base)]

theorem keptFiles_suffix (kustomizeDir : String) (base : List Generator) (name : String) :
    keptFiles (buildConfigmapGenerators kustomizeDir base) name <:+
      (listed base name).map (join2 kustomizeDir) := by
  induction base using List.reverseRecOn with
  | nil => exact List.suffix_rfl
  | append_singleton base g ih =>
    rw [keptFiles_append_singleton, listed_append_singleton, List.map_append]
    by_cases h : name = g.name
    · rw [if_pos h, if_pos h.symm]
      exact List.suffix_append _ _
    · rw [if_neg h, if_neg (Ne.symm h), List.map_nil, List.append_nil]
      exact ih

/-- Each entry has the files of its name to itself: an entry with a later one of the same name lists
no files. -/
def Unrepeated (base : List Generator) : Prop :=
  base.Pairwise fun g later => g.name = later.name → g.files = []

theorem listed_eq_nil_iff : listed base name = [] ↔ ∀ g ∈ base, g.name = name → g.files = [] := by
  simp [listed, List.flatMap_eq_nil_iff]

/-- The files that are kept are all that are listed exactly when the names are not repeated. -/
theorem kept_iff (kustomizeDir : String) (base : List Generator) :
    (∀ name, (keptFiles (buildConfigmapGenerators kustomizeDir base) name).length =
      (listed base name).length) ↔ Unrepeated base := by
  unfold Unrepeated
  induction base using List.reverseRecOn with
  | nil => exact iff_of_true (fun _ => rfl) .nil
  | append_singleton base g ih =>
    have hpairwise : (base ++ [g]).Pairwise (fun g later => g.name = later.name → g.files = []) ↔
        base.Pairwise (fun g later => g.name = later.name → g.files = []) ∧
          listed base g.name = [] := by
      rw [List.pairwise_append, listed_eq_nil_iff]
      simp
    rw [hpairwise, ← ih]
    constructor
    · intro h
      have hlast := h g.name
      rw [keptFiles_append_singleton, if_pos rfl, listed_append_singleton, if_pos rfl,
        List.length_map, List.length_append] at hlast
      have hnil : listed base g.name = [] := List.length_eq_zero_iff.mp (by omega)
      refine ⟨fun name => ?_, hnil⟩
      by_cases hname : name = g.name
      · have hle := (keptFiles_suffix kustomizeDir base name).length_le
        rw [hname, hnil] at hle ⊢
        exact Nat.le_zero.mp hle
      · have hother := h name
        rwa [keptFiles_append_singleton, if_neg hname, listed_append_singleton,
          if_neg (Ne.symm hname), List.append_nil] at hother
    · rintro ⟨h, hnil⟩ name
      rw [keptFiles_append_singleton, listed_append_singleton]
      by_cases hname : name = g.name
      · rw [if_pos hname, if_pos hname.symm, hname, hnil, List.nil_append, List.length_map]
      · rw [if_neg hname, if_neg (Ne.symm hname), List.append_nil, h name]

end

section
variable {generators : List (String × List String)} {base : List Generator} {name kustomizeDir : String}
  {files : List String} {contents : String → String} {params : List (String × String)} {i n : Nat}

/-- The parameter files from an index on. -/
def pfiles (i n : Nat) : List String := (List.range' i n).map pfile

theorem pfiles_add (i m n : Nat) : pfiles i (m + n) = pfiles i m ++ pfiles (i + m) n := by
  rw [pfiles, ← List.range'_append_1, List.map_append]
  rfl

theorem pfile_injective : Function.Injective pfile := by
  intro i j h
  rw [pfile, pfile, String.append_right_inj, String.append_left_inj] at h
  exact Nat.repr_injective h

theorem pfiles_nodup (i n : Nat) : (pfiles i n).Nodup :=
  (List.nodup_range').map pfile_injective

theorem length_pfiles (i n : Nat) : (pfiles i n).length = n := by
  rw [pfiles, List.length_map, List.length_range']

/-- All files of the generators. -/
def allFiles (generators : List (String × List String)) : List String := generators.flatMap Prod.snd

theorem allFiles_cons : allFiles ((name, files) :: generators) = files ++ allFiles generators := rfl

/-- The generators that are written from an index on. -/
def newGenerators (i : Nat) : List (String × List String) → List NewGenerator
  | [] => []
  | (name, files) :: generators =>
    { name, envs := pfiles i files.length } :: newGenerators (i + files.length) generators

/-- When all files can be read, each one is copied. -/
theorem copyFiles_eq (contents : String → String) (i : Nat) (files : List String) :
    copyFiles (fun f => some (contents f)) i files =
      ((pfiles i files.length).zip (files.map contents), true) := by
  induction files generalizing i with
  | nil => rfl
  | cons f files ih =>
    rw [copyFiles, ih]
    rfl

theorem writeGenerators_eq (contents : String → String) (i : Nat)
    (generators : List (String × List String)) :
    writeGenerators (fun f => some (contents f)) i generators =
      ((pfiles i (allFiles generators).length).zip ((allFiles generators).map contents),
        some (newGenerators i generators)) := by
  induction generators generalizing i with
  | nil => rfl
  | cons entry generators ih =>
    obtain ⟨name, files⟩ := entry
    rw [writeGenerators, copyFiles_eq]
    simp only [ih]
    rw [allFiles_cons, List.length_append, pfiles_add, List.map_append,
      List.zip_append (by rw [length_pfiles, List.length_map])]
    rfl

theorem flatMap_newGenerators (i : Nat) (generators : List (String × List String)) :
    (newGenerators i generators).flatMap NewGenerator.envs =
      pfiles i (allFiles generators).length := by
  induction generators generalizing i with
  | nil => rfl
  | cons entry generators ih =>
    obtain ⟨name, files⟩ := entry
    rw [newGenerators, List.flatMap_cons, ih, allFiles_cons, List.length_append, pfiles_add]

/-- With distinct keys each value is found at its key. -/
theorem map_lookup_zip {keys : List String} {values : List String} (hn : keys.Nodup)
    (hlen : keys.length = values.length) :
    keys.map (List.lookup · (keys.zip values)) = values.map some := by
  induction keys generalizing values with
  | nil => rw [List.length_eq_zero_iff.mp hlen.symm]; rfl
  | cons k keys ih =>
    cases values with
    | nil => cases hlen
    | cons v values =>
      obtain ⟨hk, hrest⟩ := List.nodup_cons.mp hn
      have hother : ∀ key ∈ keys, List.lookup key ((k, v) :: keys.zip values) =
          List.lookup key (keys.zip values) := by
        intro key hkey
        have hne : (key == k) = false := by simpa using ne_of_mem_of_not_mem hkey hk
        rw [List.lookup_cons, hne]
      rw [List.zip_cons_cons, List.map_cons, List.map_congr_left hother,
        ih hrest (Nat.succ.inj hlen), List.lookup_cons_self, List.map_cons]

/-- What the references of a name lead to. -/
theorem map_lookup_references
    (h : (pfiles i (allFiles generators).length).map (List.lookup · params) =
      (allFiles generators).map fun f => some (contents f)) (name : String) :
    (references (newGenerators i generators) name).map (List.lookup · params) =
      (keptFiles generators name).map fun f => some (contents f) := by
  induction generators generalizing i with
  | nil => rfl
  | cons entry generators ih =>
    obtain ⟨n, files⟩ := entry
    rw [allFiles_cons, List.length_append, pfiles_add, List.map_append, List.map_append] at h
    obtain ⟨hfiles, hrest⟩ := List.append_inj h (by simp [length_pfiles])
    rw [newGenerators, references, List.filter_cons, keptFiles_cons, List.map_append, ← ih hrest]
    by_cases hname : n = name
    · rw [if_pos (decide_eq_true hname), if_pos hname, List.flatMap_cons, List.map_append, hfiles]
      rfl
    · rw [if_neg (by simpa using hname), if_neg hname]
      rfl

theorem writeAppTest_eq (contents : String → String) (kustomizeDir : String) (base : List Generator)
    (kustomization : Dict) :
    writeAppTest (fun f => some (contents f)) kustomizeDir base kustomization =
      let generators := buildConfigmapGenerators kustomizeDir base
      { params := (pfiles 0 (allFiles generators).length).zip ((allFiles generators).map contents)
        kustomization := some ((kustomization.set "configMapGenerator"
          (.list ((newGenerators 0 generators).map NewGenerator.value))).erase "secretGenerator") } := by
  rw [writeAppTest, writeGenerators_eq]

theorem value_injective : Function.Injective NewGenerator.value := by
  intro g h heq
  obtain ⟨name, envs⟩ := g
  obtain ⟨name', envs'⟩ := h
  simp only [NewGenerator.value, Value.dict.injEq, List.cons.injEq, Prod.mk.injEq, Value.str.injEq,
    Value.list.injEq, true_and, and_true] at heq
  obtain ⟨rfl, henvs⟩ := heq
  rw [List.map_injective_iff.mpr (fun _ _ => Value.str.inj) henvs]

/-- The copies that are made of the files of some generators. -/
def copies (contents : String → String) (generators : List (String × List String)) :
    List (String × String) :=
  (pfiles 0 (allFiles generators).length).zip ((allFiles generators).map contents)

theorem map_fst_copies (contents : String → String) (generators : List (String × List String)) :
    (copies contents generators).map Prod.fst = pfiles 0 (allFiles generators).length :=
  List.map_fst_zip (by rw [length_pfiles, List.length_map])

theorem map_lookup_copies (contents : String → String) (generators : List (String × List String)) :
    (pfiles 0 (allFiles generators).length).map (List.lookup · (copies contents generators)) =
      (allFiles generators).map fun f => some (contents f) := by
  rw [copies, map_lookup_zip (pfiles_nodup _ _) (by rw [length_pfiles, List.length_map]),
    List.map_map]
  rfl

theorem completeTest_writeAppTest (contents : String → String) (kustomizeDir : String)
    (base : List Generator) (kustomization : Dict) :
    CompleteTest contents kustomizeDir base
      (writeAppTest (fun f => some (contents f)) kustomizeDir base kustomization) ↔
        Complete contents kustomizeDir base
          (copies contents (buildConfigmapGenerators kustomizeDir base))
          (newGenerators 0 (buildConfigmapGenerators kustomizeDir base)) := by
  rw [writeAppTest_eq]
  constructor
  · rintro ⟨_, generators, ⟨⟩, hgenerators, hcomplete⟩
    rw [Dict.get_erase, if_neg (by decide), Dict.get_set_self, Option.some_inj,
      Value.list.injEq] at hgenerators
    obtain rfl := List.map_injective_iff.mpr value_injective hgenerators
    exact hcomplete
  · intro h
    refine ⟨_, _, rfl, ?_, h⟩
    rw [Dict.get_erase, if_neg (by decide), Dict.get_set_self]

theorem complete_newGenerators (h : Unrepeated base) (contents : String → String)
    (kustomizeDir : String) : Complete contents kustomizeDir base
      (copies contents (buildConfigmapGenerators kustomizeDir base))
      (newGenerators 0 (buildConfigmapGenerators kustomizeDir base)) where
  named p hp := by
    obtain ⟨i, _, hi⟩ := List.mem_map.mp (List.of_mem_zip hp).1
    exact ⟨i, hi.symm⟩
  distinct := by
    rw [map_fst_copies]
    exact pfiles_nodup _ _
  once := by rw [map_fst_copies, flatMap_newGenerators]
  kept name := by
    have hlen : (keptFiles (buildConfigmapGenerators kustomizeDir base) name).length =
        ((listed base name).map (join2 kustomizeDir)).length := by
      rw [List.length_map]
      exact (kept_iff kustomizeDir base).mpr h name
    rw [map_lookup_references (map_lookup_copies contents _),
      (keptFiles_suffix kustomizeDir base name).eq_of_length hlen, List.map_map]
    rfl

/-- No parameter file is lost in the directory of a test exactly when each entry of the base that lists
files is the last one of its name. -/
theorem completeTest_iff (contents : String → String) (kustomizeDir : String) (base : List Generator)
    (kustomization : Dict) :
    CompleteTest contents kustomizeDir base
      (writeAppTest (fun f => some (contents f)) kustomizeDir base kustomization) ↔
        Unrepeated base := by
  rw [completeTest_writeAppTest]
  refine ⟨fun hcomplete => ?_, fun h => complete_newGenerators h contents kustomizeDir⟩
  rw [← kept_iff kustomizeDir base]
  intro name
  have hkept := congrArg List.length (hcomplete.kept name)
  rwa [map_lookup_references (map_lookup_copies contents _), List.length_map, List.length_map] at hkept

/-- An entry for each of two files, with the name of one configuration map. -/
def repeatedBase : List Generator :=
  [{ name := "config", envs := ["params.env"], env := none },
    { name := "config", envs := [], env := some "extra.env" }]

/-- The file of the first one is lost. -/
theorem not_completeTest : ¬ ∀ (contents : String → String) (kustomizeDir : String)
    (base : List Generator) (kustomization : Dict), CompleteTest contents kustomizeDir base
      (writeAppTest (fun f => some (contents f)) kustomizeDir base kustomization) := by
  intro h
  have hcomplete := (completeTest_writeAppTest id "base" repeatedBase []).mp (h _ _ _ _)
  have hone : (references (newGenerators 0 (buildConfigmapGenerators "base" repeatedBase))
      "config").length = 1 := by decide +kernel
  have htwo : (listed repeatedBase "config").length = 2 := by decide +kernel
  have hkept := congrArg List.length (hcomplete.kept "config")
  rw [List.length_map, List.length_map, hone, htwo] at hkept
  cases hkept

end

end Manifests.LegacyTests
