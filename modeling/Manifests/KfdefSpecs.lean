import Manifests.Library.FileTree
import Manifests.Library.PosixPath
import Manifests.Library.Value

/-! `build_kfdef_specs.py`: it builds the packages of all versions, and writes their specs to one
directory. -/
namespace Manifests.KfdefSpecs
open Library Entries

def resourcePrefix : String := "kfdef.apps.kubeflow.org_v1_kfdef_"

/-- The values of `base` and `version` in the two loops. -/
def packageDirs (tree : DirTree) : List (Path × String) :=
  (osWalk tree).flatMap fun walked => walked.2.map (walked.1, ·)

/-- `.replace("-", "_")`. -/
def underscored (s : String) : String :=
  String.ofList (s.toList.map fun c => if c = '-' then '_' else c)

/-- What stands between the name of a resource and the extension. -/
def versionSuffix (version : String) : String := if version = "master" then "" else "." ++ version

/-- The name of the new file, for a file `f` that kustomize has written. -/
def newFile (version f : String) : String :=
  let newName := String.ofList (f.toList.drop resourcePrefix.length)
  underscored ((PosixPath.splitext newName).1 ++ (versionSuffix version ++ ".yaml"))

/-- `del spec["metadata"]["name"]`; `none` is a KeyError or a TypeError. -/
def removeName : Value → Option Value
  | .dict spec =>
    match Dict.get spec "metadata" with
    | some (.dict metadata) =>
      if (Dict.get metadata "name").isSome then
        some (.dict (Dict.set spec "metadata" (.dict (Dict.erase metadata "name"))))
      else none
    | _ => none
  | _ => none

/-- The body of the inner loop. The second argument are the files of `kfdef`. -/
def processFile (version : String) (kfdef : Dict) (f : String × Value) : Option Dict := do
  let spec ← removeName f.2
  some (kfdef.set (newFile version f.1) spec)

/-- `KFDefBuilder.run`. From the directory of a package, `kustomizeBuild` gives the files that
kustomize writes, as they are listed, with the documents in them. -/
def run (kustomizeBuild : Path → Option (List (String × Value))) (tree : DirTree) (kfdef : Dict) :
    Option Dict :=
  (packageDirs tree).foldlM (fun kfdef package => do
    let files ← kustomizeBuild (package.1 ++ [package.2])
    files.foldlM (processFile package.2) kfdef) kfdef

/-- A KFDef resource. Its name is that of a file, and not only dots. -/
structure Resource where
  name : String
  spec : Value
  noSlash : '/' ∉ name.toList
  notDots : ∃ c ∈ name.toList, c ≠ '.'
  named : (removeName spec).isSome = true

/-- The file that kustomize writes. -/
def Resource.file (r : Resource) : String × Value := (resourcePrefix ++ r.name ++ ".yaml", r.spec)

/-- What kustomize builds of one package. -/
structure Package where
  resources : List Resource
  distinct : (resources.map Resource.name).Nodup

/-- kustomize, when it builds all the packages. -/
def kustomizeBuild (packages : Path → Package) (p : Path) : Option (List (String × Value)) :=
  some ((packages p).resources.map Resource.file)

/-- A spec: the directory of the package, and the resource. -/
structure Spec where
  base : Path
  version : String
  resource : Resource

/-- The spec is built: its package is a directory of the tree, at any depth. -/
structure Built (packages : Path → Package) (tree : DirTree) (s : Spec) : Prop where
  folder : ∃ d, Folder tree.entries (s.base ++ [s.version]) d
  resource : s.resource ∈ (packages (s.base ++ [s.version])).resources

/-- The file that the spec is written to. -/
def Spec.newFile (s : Spec) : String := KfdefSpecs.newFile s.version s.resource.file.1

/-- The spec as it is written. -/
def Spec.written (s : Spec) : Value := (removeName s.resource.spec).get s.resource.named

/-- The name of the resource with the version, without the difference between `-` and `_`. -/
def Spec.stem (s : Spec) : String := underscored (s.resource.name ++ versionSuffix s.version)

/-- The directory of the package, and the name of the resource. -/
def Spec.pair (s : Spec) : Path × String := (s.base ++ [s.version], s.resource.name)

def Spec.write (kfdef : Dict) (s : Spec) : Dict := kfdef.set s.newFile s.written

/-- All specs, as they are written. -/
def specs (packages : Path → Package) (tree : DirTree) : List Spec :=
  (packageDirs tree).flatMap fun package =>
    (packages (package.1 ++ [package.2])).resources.map (Spec.mk package.1 package.2)

variable {packages : Path → Package} {tree : DirTree} {kfdef : Dict} {s t : Spec} {base : Path}
  {version : String}

theorem mem_packageDirs : (base, version) ∈ packageDirs tree ↔
    ∃ g, Folder tree.entries (base ++ [version]) g := by
  simp only [packageDirs, List.mem_flatMap, List.mem_map, Prod.mk.injEq, Prod.exists]
  constructor
  · rintro ⟨q, dirs, hwalk, v, hv, rfl, rfl⟩
    obtain ⟨above, hfolder, rfl⟩ := mem_osWalk.mp hwalk
    obtain ⟨⟨_, g⟩, hname, rfl⟩ := List.mem_map.mp hv
    exact ⟨g, folder_append_singleton.mpr ⟨above, hfolder, hname⟩⟩
  · rintro ⟨g, hfolder⟩
    obtain ⟨above, habove, hname⟩ := folder_append_singleton.mp hfolder
    exact ⟨base, above.folderNames, mem_osWalk.mpr ⟨above, habove, rfl⟩, version,
      List.mem_map.mpr ⟨_, hname, rfl⟩, rfl, rfl⟩

theorem mem_specs : s ∈ specs packages tree ↔ Built packages tree s := by
  simp only [specs, List.mem_flatMap, List.mem_map, Prod.exists]
  constructor
  · rintro ⟨base, version, hdir, r, hr, rfl⟩
    exact ⟨mem_packageDirs.mp hdir, hr⟩
  · exact fun h => ⟨s.base, s.version, mem_packageDirs.mpr h.folder, s.resource, h.resource, rfl⟩

theorem underscored_append (a b : String) : underscored (a ++ b) = underscored a ++ underscored b := by
  simp [underscored]

/-- The prefix and the extension go, the version comes, and `-` becomes `_`. -/
theorem newFile_eq (s : Spec) : s.newFile = s.stem ++ ".yaml" := by
  have hname : String.ofList ((resourcePrefix ++ s.resource.name ++ ".yaml").toList.drop
      resourcePrefix.length) = s.resource.name ++ "." ++ "yaml" := by
    apply String.toList_inj.mp
    rw [String.append_assoc, String.toList_append, ← String.length_toList, List.drop_left,
      String.ofList_toList, String.append_assoc]
    rfl
  have hext : '.' ∉ "yaml".toList := by decide
  rw [Spec.newFile, newFile, Resource.file, hname, PosixPath.splitext_append hext s.resource.notDots,
    ← String.append_assoc, underscored_append]
  rfl

theorem newFile_eq_iff : s.newFile = t.newFile ↔ s.stem = t.stem := by
  rw [newFile_eq, newFile_eq]
  exact ⟨fun h => String.append_left_inj ".yaml" |>.mp h, fun h => by rw [h]⟩

theorem not_mem_underscored {text : String} (h : '.' ∉ text.toList) :
    '.' ∉ (underscored text).toList := by
  rw [underscored, String.toList_ofList, List.mem_map]
  rintro ⟨c, hc, heq⟩
  split at heq
  · cases heq
  · exact h (heq ▸ hc)

/-- The suffix is empty, or it begins with a dot. -/
theorem underscored_versionSuffix (version : String) :
    (underscored (versionSuffix version)).toList = [] ∨
      ∃ rest, (underscored (versionSuffix version)).toList = '.' :: rest := by
  unfold versionSuffix
  split
  · exact Or.inl rfl
  · right
    rw [underscored_append]
    exact ⟨(underscored version).toList, by simp [underscored]⟩

/-- With no dot in the names, the name and the version can be told apart. -/
theorem stem_eq_iff (hs : '.' ∉ s.resource.name.toList) (ht : '.' ∉ t.resource.name.toList) :
    s.stem = t.stem ↔ underscored s.resource.name = underscored t.resource.name ∧
      underscored (versionSuffix s.version) = underscored (versionSuffix t.version) := by
  have hs' := not_mem_underscored hs
  have ht' := not_mem_underscored ht
  rw [Spec.stem, Spec.stem, underscored_append, underscored_append]
  refine ⟨fun h => ?_, fun h => by rw [h.1, h.2]⟩
  simp only [← String.toList_inj, String.toList_append] at h ⊢
  obtain hv | ⟨v, hv⟩ := underscored_versionSuffix s.version <;>
    obtain hw | ⟨w, hw⟩ := underscored_versionSuffix t.version <;> rw [hv, hw] at h ⊢
  · exact ⟨by simpa using h, rfl⟩
  · rw [List.append_nil] at h
    exact (hs' (by simp [h])).elim
  · rw [List.append_nil] at h
    exact (ht' (by simp [← h])).elim
  · have hname := congrArg (List.takeWhile (· ≠ '.')) h
    rw [Text.takeWhile_append_cons hs', Text.takeWhile_append_cons ht'] at hname
    rw [hname, List.append_cancel_left_eq] at h
    exact ⟨hname, h⟩

/-- The step of the inner loop. -/
theorem processFile_file (base : Path) (r : Resource) : processFile version kfdef r.file =
    some ((Spec.mk base version r).write kfdef) := by
  have hspec : removeName r.file.2 = some ((removeName r.spec).get r.named) :=
    (Option.some_get r.named).symm
  rw [processFile, hspec]
  rfl

/-- `run` writes the specs one after the other, and nothing stops it. -/
theorem run_eq : run (kustomizeBuild packages) tree kfdef =
    some ((specs packages tree).foldl Spec.write kfdef) := by
  rw [run, specs, List.foldl_flatMap]
  generalize packageDirs tree = dirs
  induction dirs generalizing kfdef with
  | nil => rfl
  | cons package dirs ih =>
    have hfiles : (((packages (package.1 ++ [package.2])).resources.map Resource.file).foldlM
        (processFile package.2) kfdef) =
        some ((((packages (package.1 ++ [package.2])).resources.map
          (Spec.mk package.1 package.2))).foldl Spec.write kfdef) := by
      generalize (packages (package.1 ++ [package.2])).resources = resources
      induction resources generalizing kfdef with
      | nil => rfl
      | cons r resources ih =>
        rw [List.map_cons, List.foldlM_cons, processFile_file package.1 r]
        exact ih
    rw [List.foldlM_cons, List.foldl_cons, ← ih]
    simp only [kustomizeBuild, Option.bind_eq_bind, Option.bind_some, hfiles]

/-- After the writes, a file holds the last spec that is written to it. -/
theorem get_foldl_write (list : List Spec) (kfdef : Dict) (f : String) :
    (∃ t ∈ list, t.newFile = f ∧ (list.foldl Spec.write kfdef).get f = some t.written) ∨
      (∀ t ∈ list, t.newFile ≠ f) ∧ (list.foldl Spec.write kfdef).get f = kfdef.get f := by
  induction list generalizing kfdef with
  | nil => exact Or.inr ⟨nofun, rfl⟩
  | cons s list ih =>
    rw [List.foldl_cons]
    rcases ih (s.write kfdef) with ⟨t, ht, hfile, hget⟩ | ⟨hother, hget⟩
    · exact Or.inl ⟨t, List.mem_cons_of_mem _ ht, hfile, hget⟩
    · rw [hget, Spec.write, Dict.get_set]
      by_cases hf : f = s.newFile
      · exact Or.inl ⟨s, List.mem_cons_self, hf.symm, if_pos hf⟩
      · exact Or.inr ⟨List.forall_mem_cons.mpr ⟨Ne.symm hf, hother⟩, if_neg hf⟩

/-- Each pair has a file of its own. -/
def Separate (packages : Path → Package) (tree : DirTree) : Prop :=
  ∀ s t, Built packages tree s → Built packages tree t → s.pair ≠ t.pair → s.newFile ≠ t.newFile

/-- In a package the name tells the resource. -/
theorem Built.eq_of_pair (hs : Built packages tree s) (ht : Built packages tree t)
    (h : s.pair = t.pair) : s = t := by
  obtain ⟨base, version, r⟩ := s
  obtain ⟨base', version', r'⟩ := t
  obtain ⟨hdir, hname⟩ := Prod.mk.inj h
  obtain ⟨rfl, hversion⟩ := List.append_inj' hdir rfl
  cases hversion
  have hresource : r = r' :=
    List.inj_on_of_nodup_map (packages (base ++ [version])).distinct hs.resource ht.resource hname
  rw [hresource]

/-- With separate files, nothing that is built is lost. -/
theorem written_of_separate {after : Dict} (h : Separate packages tree) (hs : Built packages tree s)
    (hafter : ∃ t, Built packages tree t ∧ t.newFile = s.newFile ∧
      after.get s.newFile = some t.written) : after.get s.newFile = some s.written := by
  obtain ⟨t, ht, hfile, hget⟩ := hafter
  have hpair : t.pair = s.pair := by
    by_contra hne
    exact h t s ht hs hne hfile
  rw [hget, ht.eq_of_pair hs hpair]

/-- `run` ends, and the file of a spec holds this spec or another one with the same stem. All specs
have files of their own, and are there afterwards, exactly when the stems differ; where no name has a
dot, the stem is the name and the version. -/
theorem run_specs (packages : Path → Package) (tree : DirTree) (kfdef : Dict) :
    ∃ after, run (kustomizeBuild packages) tree kfdef = some after ∧
      (∀ s, Built packages tree s →
        ∃ t, Built packages tree t ∧ t.stem = s.stem ∧ after.get s.newFile = some t.written) ∧
      (Separate packages tree ↔ ∀ s t, Built packages tree s → Built packages tree t →
        s.pair ≠ t.pair → s.stem ≠ t.stem) ∧
      (Separate packages tree → ∀ s, Built packages tree s → after.get s.newFile = some s.written) ∧
      ∀ s t, Built packages tree s → Built packages tree t →
        '.' ∉ s.resource.name.toList → '.' ∉ t.resource.name.toList →
          (s.newFile = t.newFile ↔ underscored s.resource.name = underscored t.resource.name ∧
            underscored (versionSuffix s.version) = underscored (versionSuffix t.version)) := by
  have hholds : ∀ s, Built packages tree s → ∃ t, Built packages tree t ∧ t.newFile = s.newFile ∧
      ((specs packages tree).foldl Spec.write kfdef).get s.newFile = some t.written := by
    intro s hs
    rcases get_foldl_write (specs packages tree) kfdef s.newFile with ⟨t, ht, h⟩ | ⟨hother, _⟩
    · exact ⟨t, mem_specs.mp ht, h⟩
    · exact (hother s (mem_specs.mpr hs) rfl).elim
  refine ⟨_, run_eq, fun s hs => ?_, ?_, fun h s hs => written_of_separate h hs (hholds s hs),
    fun s t _ _ hs ht => newFile_eq_iff.trans (stem_eq_iff hs ht)⟩
  · obtain ⟨t, ht, hfile, hget⟩ := hholds s hs
    exact ⟨t, ht, newFile_eq_iff.mp hfile, hget⟩
  · simp only [Separate, ne_eq, newFile_eq_iff]

/-- The KFDef named `name`, as kustomize builds it. -/
def kfdefResource (name : String) (noSlash : '/' ∉ name.toList)
    (notDots : ∃ c ∈ name.toList, c ≠ '.') : Resource where
  name := name
  spec := .dict [("kind", .str "KfDef"), ("metadata", .dict [("name", .str name)])]
  noSlash := noSlash
  notDots := notDots
  named := by simp [removeName]

/-- The packages `master` and `v1.0`: the first has `kfctl.v1.0`, and the other one `kfctl`. -/
def versionPackages (p : Path) : Package :=
  if p = ["master"] then
    ⟨[kfdefResource "kfctl.v1.0" (by decide) ⟨'k', by decide⟩], List.nodup_singleton _⟩
  else ⟨[kfdefResource "kfctl" (by decide) ⟨'k', by decide⟩], List.nodup_singleton _⟩

def versionTree : DirTree := ⟨.dir "master" .nil (.dir "v1.0" .nil .nil), by simp [Distinct, names]⟩

/-- Both are written to `kfctl.v1.0.yaml`. -/
theorem not_separate : ¬ ∀ (packages : Path → Package) (tree : DirTree), Separate packages tree := by
  intro h
  let first : Spec := ⟨[], "master", kfdefResource "kfctl.v1.0" (by decide) ⟨'k', by decide⟩⟩
  let second : Spec := ⟨[], "v1.0", kfdefResource "kfctl" (by decide) ⟨'k', by decide⟩⟩
  have hfirst : Built versionPackages versionTree first :=
    ⟨⟨.nil, .inside List.mem_cons_self .here⟩, List.mem_singleton.mpr rfl⟩
  have hsecond : Built versionPackages versionTree second :=
    ⟨⟨.nil, .inside (List.mem_cons_of_mem _ List.mem_cons_self) .here⟩, List.mem_singleton.mpr rfl⟩
  exact h versionPackages versionTree first second hfirst hsecond (by decide) (by decide +kernel)

end Manifests.KfdefSpecs
