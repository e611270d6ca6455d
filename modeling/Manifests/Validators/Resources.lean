import Manifests.Kyaml
import Manifests.Validators

/-! `TestValidK8sResources` and `TestNoObsoleteKustomizations`: what they report of the files that their
walks come to. -/
namespace Manifests.Validators
open Kyaml Library

/-- A file, as `ReadFile` and the reader of documents find it. -/
inductive Contents (ν : Type) where
  | unreadable
  | malformed
  | documents (nodes : List ν)

structure DeprecatedK8s where
  oldVersion : String
  oldKind : String
  newVersion : String
  newKind : String
  deriving Repr, DecidableEq

def deprecated : List DeprecatedK8s :=
  [{ oldVersion := "extensions/v1beta1", oldKind := "Ingress",
     newVersion := "networking.k8s.io/v1beta1", newKind := "Ingress" },
   { oldVersion := "extensions/v1beta1", oldKind := "Deployment",
     newVersion := "apps/v1", newKind := "Deployment" }]

def versionAndKind (version kind : String) : String := version ++ "/" ++ kind

/-- The map that is made of them. No old version and kind come twice. -/
def deprecatedMap : List (String × String) :=
  deprecated.map fun d => (versionAndKind d.oldVersion d.oldKind, versionAndKind d.newVersion d.newKind)

/-- What the tests report, and the panic at a `nil`. -/
inductive Finding where
  | reading (path : Path)
  | unmarshaling (path : Path)
  | deprecated (path : Path) (resource vAndK replacement : String)
  | status (path : Path) (resource : String)
  | emptyAnnotations (path : Path) (resource : String)
  | nilDereference (path : Path)
  | lookingUp
  | visiting
  | obsolete (path : Path)
  deriving Repr, DecidableEq

section
variable {ν : Type}

/-- The checks of a file: its documents, one by one. -/
def checkContents (check : Path → ν → List Finding) (path : Path) : Contents ν → List Finding
  | .unreadable => [.reading path]
  | .malformed => [.unmarshaling path]
  | .documents nodes => nodes.flatMap (check path)

/-- A validator's walk, with the checks that it makes. -/
def Validator.test (v : Validator) (check : Path → ν → List Finding) (read : Path → Contents ν)
    (root : Directory) : List Finding :=
  walk (fun path isDir =>
    if relPath path ∈ v.excludes then (.skipDir, [])
    else if isDir then (.next, [])
    else if v.looksFor (path.getLastD "") then (.next, checkContents check path (read path))
    else (.next, [])) root

variable (kyaml : Kyaml ν)

/-- `checkEmptyAnnotations`. -/
def checkEmptyAnnotations (path : Path) (resource : String) : Option ν → List Finding
  | none => [.nilDereference path]
  | some metadata =>
    match kyaml.field metadata "annotations" with
    | none => []
    | some annotations =>
      if kyaml.isFieldEmpty (some annotations) then [.emptyAnnotations path resource] else []

/-- The loop of `TestValidK8sResources` over the documents of a file. -/
def checkResource (path : Path) (n : ν) : List Finding :=
  match kyaml.getMeta n with
  | none => []
  | some m =>
    if toLower m.kind = "kustomization" then []
    else if m.name = "" ∨ m.kind = "" then []
    else
      let vAndK := versionAndKind m.apiVersion m.kind
      ((deprecatedMap.lookup vAndK).map (Finding.deprecated path m.name vAndK)).toList ++
        (if kyaml.isFieldEmpty (kyaml.field n "status") then [] else [.status path m.name]) ++
        checkEmptyAnnotations kyaml path m.name (kyaml.field n "metadata")

/-- `kustomizationHasDeprecatedEnv`: what it reports, and what it returns. -/
def kustomizationHasDeprecatedEnv (n : ν) : List Finding × Bool :=
  match kyaml.lookup n "configMapGenerator" with
  | none => ([.lookingUp], false)
  | some none => ([], false)
  | some (some configMaps) =>
    match kyaml.elements configMaps with
    | none => ([.visiting], false)
    | some cms => ([], cms.any fun cm => !kyaml.isFieldEmpty (kyaml.field cm "env"))

/-- The loop of `TestNoObsoleteKustomizations`. -/
def checkKustomization (path : Path) (n : ν) : List Finding :=
  match kyaml.getMeta n with
  | none => []
  | some m =>
    if toLower m.kind ≠ "kustomization" then []
    else
      let (found, hasDeprecated) := kustomizationHasDeprecatedEnv kyaml n
      found ++ if hasDeprecated then [.obsolete path] else []

/-- A resource as `TestValidK8sResources` wants it, without its aliases. -/
structure Valid (m : ResourceMeta) (n : ν) : Prop where
  current : versionAndKind m.apiVersion m.kind ≠ "extensions/v1beta1/Ingress" ∧
    versionAndKind m.apiVersion m.kind ≠ "extensions/v1beta1/Deployment"
  noStatus : emptyAt kyaml.shape id n "status" = true
  annotations : ∃ metadata, fieldAt kyaml.shape id n "metadata" = some metadata ∧
    ∀ annotations, fieldAt kyaml.shape id metadata "annotations" = some annotations →
      (kyaml.shape annotations).isEmpty = false

/-- The ConfigMap generators of a kustomization are a list, and none has an `env`, without its aliases. -/
inductive Generators (n : ν) : Prop where
  | missing (h : fieldAt kyaml.shape id n "configMapGenerator" = none)
  | null {v : ν} (h : fieldAt kyaml.shape id n "configMapGenerator" = some v)
      (hnull : kyaml.shape v = .null)
      (htaken : kyaml.lookup n "configMapGenerator" = some none ∨ kyaml.elements v = some [])
  | listed {v : ν} {cms : List ν} (h : fieldAt kyaml.shape id n "configMapGenerator" = some v)
      (hcms : kyaml.shape v = .sequence cms) (henv : ∀ cm ∈ cms, emptyAt kyaml.shape id cm "env" = true)

end

/-- The walk comes to the file: nothing on its way is excluded or hidden behind an excluded file. -/
def Validator.Reaches (v : Validator) (root : Directory) (path : Path) : Prop :=
  path ∈ root.entries.files ∧ v.Wanted path ∧ Uncut v [] root.entries path

section
variable {ν : Type} {v : Validator} {check : Path → ν → List Finding} {read : Path → Contents ν}
  {root : Directory} {path : Path} {n : ν} {kyaml : Kyaml ν}

/-- A test reports what its checks report of the files that the walk comes to. -/
theorem test_eq : v.test check read root =
    (v.checked root).flatMap fun path => checkContents check path (read path) := by
  rw [Validator.checked, ← walk_flatMap, Validator.test]
  congr 1
  funext path isDir
  rw [Validator.walkFn]
  split
  · rfl
  · split
    · rfl
    · split <;> simp

theorem checkContents_eq_nil {contents : Contents ν} : checkContents check path contents = [] ↔
    ∃ nodes, contents = .documents nodes ∧ ∀ n ∈ nodes, check path n = [] := by
  cases contents with
  | unreadable => simp [checkContents]
  | malformed => simp [checkContents]
  | documents nodes => simp [checkContents]

/-- A test is silent exactly when all the files that it comes to are read, and all their documents pass. -/
theorem test_eq_nil (hv : v ∈ validators) : v.test check read root = [] ↔
    ∀ path, v.Reaches root path →
      ∃ nodes, read path = .documents nodes ∧ ∀ n ∈ nodes, check path n = [] := by
  rw [test_eq, List.flatMap_eq_nil_iff]
  refine forall_congr' fun path => ?_
  rw [mem_checked_iff hv, checkContents_eq_nil]
  rfl

theorem lookup_deprecatedMap {vAndK : String} : deprecatedMap.lookup vAndK = none ↔
    vAndK ≠ "extensions/v1beta1/Ingress" ∧ vAndK ≠ "extensions/v1beta1/Deployment" := by
  have hmap : deprecatedMap = [("extensions/v1beta1/Ingress", "networking.k8s.io/v1beta1/Ingress"),
      ("extensions/v1beta1/Deployment", "apps/v1/Deployment")] := by decide +kernel
  rw [hmap, List.lookup_eq_none_iff]
  simp

theorem checkEmptyAnnotations_eq_nil {resource : String} {metadata : Option ν} :
    checkEmptyAnnotations kyaml path resource metadata = [] ↔ ∃ found, metadata = some found ∧
      ∀ annotations, fieldAt kyaml.shape id found "annotations" = some annotations →
        (kyaml.shape annotations).isEmpty = false := by
  cases metadata with
  | none => simp [checkEmptyAnnotations]
  | some found =>
    cases hfield : fieldAt kyaml.shape id found "annotations" with
    | none => simp [checkEmptyAnnotations, kyaml.field_eq, hfield]
    | some annotations =>
      simp [checkEmptyAnnotations, kyaml.field_eq, hfield, kyaml.isFieldEmpty_some]

theorem checkResource_eq_nil : checkResource kyaml path n = [] ↔ ∀ m, kyaml.getMeta n = some m →
    toLower m.kind ≠ "kustomization" → m.name ≠ "" → m.kind ≠ "" → Valid kyaml m n := by
  unfold checkResource
  cases hmeta : kyaml.getMeta n with
  | none => simp
  | some m =>
    simp only [Option.some.injEq, forall_eq']
    by_cases hkust : toLower m.kind = "kustomization"
    · simp [hkust]
    by_cases hempty : m.name = "" ∨ m.kind = ""
    · rw [if_neg hkust, if_pos hempty]
      simp only [true_iff]
      intro _ hname hkind
      exact (hempty.elim hname hkind).elim
    rw [if_neg hkust, if_neg hempty, List.append_eq_nil_iff, List.append_eq_nil_iff,
      Option.toList_eq_nil_iff, Option.map_eq_none_iff, lookup_deprecatedMap, checkEmptyAnnotations_eq_nil,
      isFieldEmpty_field, kyaml.field_eq]
    obtain ⟨hname, hkind⟩ := not_or.mp hempty
    simp only [ne_eq, hkust, hname, hkind, not_false_eq_true, true_implies]
    constructor
    · rintro ⟨⟨hcurrent, hstatus⟩, hannotations⟩
      exact ⟨hcurrent, by simpa using hstatus, hannotations⟩
    · rintro ⟨hcurrent, hstatus, hannotations⟩
      exact ⟨⟨hcurrent, by simp [hstatus]⟩, hannotations⟩

/-- What `Generators` says of a field that is there. -/
theorem generators_of_field {value : ν}
    (hv : fieldAt kyaml.shape id n "configMapGenerator" = some value) : Generators kyaml n ↔
      (kyaml.shape value = .null ∧
        (kyaml.lookup n "configMapGenerator" = some none ∨ kyaml.elements value = some [])) ∨
      ∃ cms, kyaml.shape value = .sequence cms ∧ ∀ cm ∈ cms, emptyAt kyaml.shape id cm "env" = true := by
  constructor
  · rintro (h | ⟨h, hnull, htaken⟩ | ⟨h, hcms, henv⟩)
    · rw [hv] at h
      cases h
    · cases hv.symm.trans h
      exact Or.inl ⟨hnull, htaken⟩
    · cases hv.symm.trans h
      exact Or.inr ⟨_, hcms, henv⟩
  · rintro (⟨hnull, htaken⟩ | ⟨cms, hcms, henv⟩)
    · exact .null hv hnull htaken
    · exact .listed hv hcms henv

/-- The generators of a mapping. -/
theorem generators_iff {fields : List (String × ν)} (hn : kyaml.shape n = .mapping fields) :
    Generators kyaml n ↔ kustomizationHasDeprecatedEnv kyaml n = ([], false) := by
  have hfield : fieldAt kyaml.shape id n "configMapGenerator" = fields.lookup "configMapGenerator" := by
    rw [fieldAt, id, hn]
    rfl
  unfold kustomizationHasDeprecatedEnv
  cases hlookup : fields.lookup "configMapGenerator" with
  | none =>
    rw [kyaml.lookup_missing hn hlookup]
    exact iff_of_true (.missing (hfield.trans hlookup)) rfl
  | some value =>
    rw [generators_of_field (hfield.trans hlookup)]
    cases hshape : kyaml.shape value with
    | null =>
      rcases kyaml.lookup_null hn hlookup hshape with h | h
      · simp [h]
      · rcases kyaml.elements_null hshape with he | he
        · simp [h, he]
        · simp [h, he]
    | sequence cms =>
      have hcms := kyaml.elements_sequence hshape
      have hsome := kyaml.lookup_some hn hlookup (by simp [hshape])
      simp [hsome, hcms, isFieldEmpty_field]
    | scalar | mapping | aliasOf =>
      have herror := kyaml.elements_other (n := value) (by simp [hshape]) (by simp [hshape])
      have hsome := kyaml.lookup_some hn hlookup (by simp [hshape])
      simp [hsome, herror]

theorem checkKustomization_eq_nil : checkKustomization kyaml path n = [] ↔
    ∀ m, kyaml.getMeta n = some m → toLower m.kind = "kustomization" → Generators kyaml n := by
  unfold checkKustomization
  cases hmeta : kyaml.getMeta n with
  | none => simp
  | some m =>
    simp only [Option.some.injEq, forall_eq']
    by_cases hkust : toLower m.kind = "kustomization"
    · have hnot : ¬ toLower m.kind ≠ "kustomization" := not_not.mpr hkust
      obtain ⟨fields, hn⟩ := kyaml.getMeta_mapping hmeta
      rw [if_neg hnot, forall_prop_of_true hkust, generators_iff hn]
      rcases kustomizationHasDeprecatedEnv kyaml n with ⟨found, _ | _⟩
      · simp
      · simp
    · simp [hkust]

/-- `TestValidK8sResources` passes exactly when all the YAML files that it comes to are read, and each of
their resources with a name and a kind is up to date, without a status, and without empty annotations. -/
theorem validK8sResources_silent_iff {ν : Type} (kyaml : Kyaml ν) (read : Path → Contents ν)
    (root : Directory) :
    testValidK8sResources.test (checkResource kyaml) read root = [] ↔
      ∀ path, testValidK8sResources.Reaches root path → ∃ nodes, read path = .documents nodes ∧
        ∀ n ∈ nodes, ∀ m, kyaml.getMeta n = some m → toLower m.kind ≠ "kustomization" → m.name ≠ "" →
          m.kind ≠ "" → Valid kyaml m n := by
  rw [test_eq_nil (by simp [validators])]
  simp only [checkResource_eq_nil]

/-- `TestNoObsoleteKustomizations` passes exactly when all the kustomizations that it comes to are read,
and none of those that state their kind has an `env` in a ConfigMap generator. -/
theorem noObsoleteKustomizations_silent_iff {ν : Type} (kyaml : Kyaml ν) (read : Path → Contents ν)
    (root : Directory) :
    testNoObsoleteKustomizations.test (checkKustomization kyaml) read root = [] ↔
      ∀ path, testNoObsoleteKustomizations.Reaches root path → ∃ nodes, read path = .documents nodes ∧
        ∀ n ∈ nodes, ∀ m, kyaml.getMeta n = some m → toLower m.kind = "kustomization" →
          Generators kyaml n := by
  rw [test_eq_nil (by simp [validators])]
  simp only [checkKustomization_eq_nil]

end
end Manifests.Validators
