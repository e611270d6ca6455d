import Mathlib

/-! The golden-file harness: `RunTestCase` compares the resources that kustomize builds with the
files of expected ones. -/
namespace Manifests.GoldenFiles

/-- What identifies a Kubernetes resource. -/
structure ResourceId where
  apiVersion : String
  kind : String
  ns : String
  name : String
  deriving Repr, DecidableEq

/-- A function that generates a name to index resources by. -/
def key (kind name : String) : String := kind ++ "." ++ name

def ResourceId.key (id : ResourceId) : String := GoldenFiles.key id.kind id.name

/-- A file of the directory of expected resources. -/
structure File where
  name : String
  contents : String
  deriving Repr, DecidableEq

structure ExpectedResource where
  fileName : String
  yaml : String
  u : ResourceId
  deriving Repr, DecidableEq

/-- `expectedResource.Key`. -/
def ExpectedResource.key (r : ExpectedResource) : String := r.u.key

/-- What the test run reports. -/
inductive Report where
  | unmarshalError (fileName : String)
  | unexpected (key : String)
  | notEqual (actual expected : String)
  | missing (key : String)
  deriving Repr, DecidableEq

section
-- `yaml.Unmarshal` into an unstructured object, as far as the identity of the object goes
variable (unmarshal : String → Option ResourceId)

/-- A resource that kustomize has built. Its YAML is that of the resource with its identity. -/
structure Resource where
  id : ResourceId
  yaml : String
  parses : unmarshal yaml = some id

/-- The map from keys to expected resources. -/
abbrev Expected := AList fun _ : String => ExpectedResource

/-- The loop that reads the expected files; a file that does not parse ends the test. -/
def readExpected : List File → Expected → Except Report Expected
  | [], expected => .ok expected
  | f :: files, expected =>
    match unmarshal f.contents with
    | none => .error (.unmarshalError f.name)
    | some u =>
      let r : ExpectedResource := { fileName := f.name, yaml := f.contents, u }
      readExpected files (expected.insert r.key r)

variable {unmarshal}

/-- The loop over the actual resources. A difference ends the test, and the names that come after it
are of no account. -/
def checkActual (expected : Expected) : List (Resource unmarshal) → Except (List Report) (List Report)
  | [] => .ok []
  | r :: actual =>
    match expected.lookup r.id.key with
    | none =>
      match checkActual expected actual with
      | .ok reports => .ok (.unexpected r.id.key :: reports)
      | .error reports => .error (.unexpected r.id.key :: reports)
    | some e =>
      if r.yaml ≠ e.yaml then .error [.notEqual r.yaml e.yaml] else checkActual expected actual

/-- The loop over the keys of the map. -/
def checkMissing (expected : Expected) (actualNames : List String) : List Report :=
  (expected.keys.filter fun name => name ∉ actualNames).map .missing

/-- `RunTestCase` over the files it reads and the resources it builds: everything it reports. -/
def runTestCase (files : List File) (actual : List (Resource unmarshal)) : List Report :=
  match readExpected unmarshal files ∅ with
  | .error report => [report]
  | .ok expected =>
    match checkActual expected actual with
    | .error reports => reports
    | .ok reports => reports ++ checkMissing expected (actual.map (·.id.key))

/-- The documents of the expected files are those of the actual resources. -/
def SameDocuments (files : List File) (actual : List (Resource unmarshal)) : Prop :=
  ∀ text, text ∈ files.map (·.contents) ↔ text ∈ actual.map (·.yaml)

variable (unmarshal) in
/-- The key of a document, when it parses. -/
def keyOf (text : String) : Option String := (unmarshal text).map ResourceId.key

variable (unmarshal) in
/-- `f` is the last of the files with the key `k`. -/
inductive LastFor (k : String) : List File → File → Prop where
  | head {f : File} {files : List File} (key : keyOf unmarshal f.contents = some k)
      (behind : ∀ g ∈ files, keyOf unmarshal g.contents ≠ some k) : LastFor k (f :: files) f
  | tail {f g : File} {files : List File} (h : LastFor k files f) : LastFor k (g :: files) f

variable (unmarshal) in
/-- The documents that no later file with the same key replaces. -/
def LastText (files : List File) (text : String) : Prop :=
  ∃ k f, LastFor unmarshal k files f ∧ f.contents = text

variable {files : List File} {actual : List (Resource unmarshal)} {expected expected' : Expected}
  {f g : File} {k k' text : String}

theorem LastFor.mem (h : LastFor unmarshal k files f) : f ∈ files := by
  induction h with
  | head => exact List.mem_cons_self
  | tail _ ih => exact List.mem_cons_of_mem _ ih

theorem LastFor.key_eq (h : LastFor unmarshal k files f) : keyOf unmarshal f.contents = some k := by
  induction h with
  | head key => exact key
  | tail _ ih => exact ih

/-- A last file with the document of a key is that key's. -/
theorem LastFor.key_unique (h : LastFor unmarshal k files f)
    (hk : keyOf unmarshal f.contents = some k') : k = k' :=
  Option.some.inj (h.key_eq.symm.trans hk)

theorem LastFor.unique (hf : LastFor unmarshal k files f) (hg : LastFor unmarshal k files g) :
    f = g := by
  induction hf with
  | head key behind =>
    cases hg with
    | head => rfl
    | tail hg => exact (behind g hg.mem hg.key_eq).elim
  | tail hf ih =>
    cases hg with
    | head key behind => exact (behind _ hf.mem hf.key_eq).elim
    | tail hg => exact ih hg

theorem exists_lastFor (hg : g ∈ files) (hk : keyOf unmarshal g.contents = some k) :
    ∃ f, LastFor unmarshal k files f := by
  induction files generalizing g with
  | nil => cases hg
  | cons f files ih =>
    by_cases hrest : ∃ g ∈ files, keyOf unmarshal g.contents = some k
    · obtain ⟨g, hg, hk⟩ := hrest
      obtain ⟨f', hf'⟩ := ih hg hk
      exact ⟨f', .tail hf'⟩
    · have hbehind : ∀ g ∈ files, keyOf unmarshal g.contents ≠ some k :=
        fun g hg hk => hrest ⟨g, hg, hk⟩
      obtain rfl | hg := List.mem_cons.mp hg
      · exact ⟨g, .head hk hbehind⟩
      · exact (hbehind g hg hk).elim

/-- What the map holds after the reading: for each key the last file, and no other keys. -/
theorem readExpected_ok (h : readExpected unmarshal files expected = .ok expected') :
    (∀ f ∈ files, (unmarshal f.contents).isSome) ∧
    (∀ k f, LastFor unmarshal k files f →
      ∃ e, expected'.lookup k = some e ∧ e.yaml = f.contents) ∧
    ∀ k, (∀ f ∈ files, keyOf unmarshal f.contents ≠ some k) →
      expected'.lookup k = expected.lookup k := by
  induction files generalizing expected with
  | nil =>
    cases h
    refine ⟨by simp, ?_, fun _ _ => rfl⟩
    intro k f hl
    cases hl
  | cons f files ih =>
    rw [readExpected] at h
    cases hu : unmarshal f.contents with
    | none =>
      rw [hu] at h
      cases h
    | some u =>
      rw [hu] at h
      obtain ⟨hparse, hlast, hother⟩ := ih h
      have hkey : keyOf unmarshal f.contents = some u.key := by rw [keyOf, hu, Option.map_some]
      refine ⟨?_, ?_, ?_⟩
      · intro g hg
        obtain rfl | hg := List.mem_cons.mp hg
        · rw [hu]
          rfl
        · exact hparse g hg
      · intro k g hl
        cases hl with
        | head key behind =>
          obtain rfl : u.key = k := Option.some.inj (hkey.symm.trans key)
          exact ⟨_, (hother u.key behind).trans (AList.lookup_insert _), rfl⟩
        | tail hl => exact hlast k g hl
      · intro k hk
        rw [hother k fun g hg => hk g (List.mem_cons_of_mem _ hg)]
        apply AList.lookup_insert_ne
        rintro rfl
        exact hk f List.mem_cons_self hkey

/-- What the map holds under a key is the last file's document. -/
theorem lastFor_of_lookup {e : ExpectedResource} (h : readExpected unmarshal files ∅ = .ok expected)
    (he : expected.lookup k = some e) :
    ∃ f, LastFor unmarshal k files f ∧ e.yaml = f.contents := by
  obtain ⟨_, hlast, hother⟩ := readExpected_ok h
  by_cases hk : ∃ g ∈ files, keyOf unmarshal g.contents = some k
  · obtain ⟨g, hg, hgk⟩ := hk
    obtain ⟨f, hf⟩ := exists_lastFor hg hgk
    obtain ⟨e', he', hyaml⟩ := hlast k f hf
    rw [he] at he'
    cases he'
    exact ⟨f, hf, hyaml⟩
  · rw [hother k fun f hf hfk => hk ⟨f, hf, hfk⟩, AList.lookup_empty] at he
    cases he

theorem readExpected_error {report : Report}
    (h : readExpected unmarshal files expected = .error report) :
    ∃ f ∈ files, unmarshal f.contents = none := by
  induction files generalizing expected with
  | nil => cases h
  | cons f files ih =>
    rw [readExpected] at h
    cases hu : unmarshal f.contents with
    | none => exact ⟨f, List.mem_cons_self, hu⟩
    | some u =>
      rw [hu] at h
      obtain ⟨g, hg, hn⟩ := ih h
      exact ⟨g, List.mem_cons_of_mem _ hg, hn⟩

/-- The first loop is silent when every actual resource has an expected one with its text. -/
theorem checkActual_eq_nil : checkActual expected actual = .ok [] ↔
    ∀ r ∈ actual, ∃ e, expected.lookup r.id.key = some e ∧ e.yaml = r.yaml := by
  induction actual with
  | nil => simp [checkActual]
  | cons r actual ih =>
    rw [checkActual, List.forall_mem_cons, ← ih]
    cases he : expected.lookup r.id.key with
    | none => cases checkActual expected actual <;> simp
    | some e =>
      by_cases hyaml : r.yaml = e.yaml
      · simp [hyaml]
      · simp [hyaml, Ne.symm hyaml]

/-- A test that ends early has reported why. -/
theorem checkActual_error {reports : List Report}
    (h : checkActual expected actual = .error reports) : reports ≠ [] := by
  induction actual generalizing reports with
  | nil => cases h
  | cons r actual ih =>
    rw [checkActual] at h
    cases he : expected.lookup r.id.key with
    | none =>
      rw [he] at h
      cases hc : checkActual expected actual <;> rw [hc] at h <;> cases h
      exact List.cons_ne_nil _ _
    | some e =>
      rw [he] at h
      by_cases hyaml : r.yaml = e.yaml
      · exact ih (by simpa [hyaml] using h)
      · simp only [ne_eq, hyaml, not_false_eq_true, if_true, Except.error.injEq] at h
        simp [← h]

/-- The second loop is silent when every key is one of an actual resource. -/
theorem checkMissing_eq_nil {names : List String} : checkMissing expected names = [] ↔
    ∀ k e, expected.lookup k = some e → k ∈ names := by
  simp only [checkMissing, List.map_eq_nil_iff, List.filter_eq_nil_iff, decide_eq_true_eq, not_not]
  constructor
  · intro h k e he
    apply h k
    rw [← AList.mem_keys, ← AList.lookup_isSome, he]
    rfl
  · intro h k hk
    obtain ⟨e, he⟩ := Option.isSome_iff_exists.mp (AList.lookup_isSome.mpr (AList.mem_keys.mpr hk))
    exact h k e he

theorem keyOf_yaml (r : Resource unmarshal) : keyOf unmarshal r.yaml = some r.id.key := by
  rw [keyOf, r.parses, Option.map_some]

/-- A run is silent when the actual documents are those that the map has kept. -/
theorem runTestCase_eq_nil : runTestCase files actual = [] ↔
    (∀ f ∈ files, (unmarshal f.contents).isSome) ∧
      ∀ text, text ∈ actual.map (·.yaml) ↔ LastText unmarshal files text := by
  cases hread : readExpected unmarshal files ∅ with
  | error report =>
    obtain ⟨f, hf, hn⟩ := readExpected_error hread
    simp only [runTestCase, hread]
    refine iff_of_false (by simp) ?_
    rintro ⟨hparse, _⟩
    simpa [hn] using hparse f hf
  | ok expected =>
    obtain ⟨hparse, hlast, _⟩ := readExpected_ok hread
    have hsilent : runTestCase files actual = [] ↔ checkActual expected actual = .ok [] ∧
        checkMissing expected (actual.map (·.id.key)) = [] := by
      cases hcheck : checkActual expected actual with
      | error reports => simp [runTestCase, hread, hcheck, checkActual_error hcheck]
      | ok reports => simp [runTestCase, hread, hcheck]
    rw [hsilent, checkActual_eq_nil, checkMissing_eq_nil, and_iff_right hparse]
    constructor
    · rintro ⟨hactual, hmissing⟩ text
      constructor
      · intro ht
        obtain ⟨r, hr, rfl⟩ := List.mem_map.mp ht
        obtain ⟨e, he, hyaml⟩ := hactual r hr
        obtain ⟨f, hf, hfe⟩ := lastFor_of_lookup hread he
        exact ⟨_, f, hf, hfe.symm.trans hyaml⟩
      · rintro ⟨k, f, hf, rfl⟩
        obtain ⟨e, he, hfe⟩ := hlast k f hf
        obtain ⟨r, hr, rfl⟩ := List.mem_map.mp (hmissing k e he)
        obtain ⟨e', he', hyaml⟩ := hactual r hr
        rw [he] at he'
        cases he'
        rw [← hfe, hyaml]
        exact List.mem_map_of_mem hr
    · intro h
      constructor
      · intro r hr
        obtain ⟨k, f, hf, hfr⟩ := (h r.yaml).mp (List.mem_map_of_mem hr)
        obtain ⟨e, he, hfe⟩ := hlast k f hf
        obtain rfl : k = r.id.key := hf.key_unique (by rw [hfr, keyOf_yaml])
        exact ⟨e, he, hfe.trans hfr⟩
      · intro k e he
        obtain ⟨f, hf, hfe⟩ := lastFor_of_lookup hread he
        obtain ⟨r, hr, hyaml⟩ := List.mem_map.mp ((h f.contents).mpr ⟨k, f, hf, rfl⟩)
        obtain rfl : k = r.id.key := hf.key_unique (by rw [← hyaml, keyOf_yaml])
        exact List.mem_map.mpr ⟨r, hr, rfl⟩

/-- When a silent run and equal documents come to the same: a file does not parse, no two files
with different documents share a key, or the actual documents are neither those of all the files
nor those of the last files for each key. -/
def KeysTell (files : List File) (actual : List (Resource unmarshal)) : Prop :=
  (∃ f ∈ files, unmarshal f.contents = none) ∨
    (∀ f ∈ files, ∀ g ∈ files,
      keyOf unmarshal f.contents = keyOf unmarshal g.contents → f.contents = g.contents) ∨
    (¬ SameDocuments files actual ∧
      ¬ ∀ text, text ∈ actual.map (·.yaml) ↔ LastText unmarshal files text)

theorem lastText_mem (h : LastText unmarshal files text) : text ∈ files.map (·.contents) := by
  obtain ⟨k, f, hf, rfl⟩ := h
  exact List.mem_map_of_mem hf.mem

/-- Nothing is lost in the map exactly when no two different documents share a key. -/
theorem lastText_iff (hparse : ∀ f ∈ files, (unmarshal f.contents).isSome) :
    (∀ text, text ∈ files.map (·.contents) ↔ LastText unmarshal files text) ↔
      ∀ f ∈ files, ∀ g ∈ files,
        keyOf unmarshal f.contents = keyOf unmarshal g.contents → f.contents = g.contents := by
  have hkey : ∀ f ∈ files, ∃ k, keyOf unmarshal f.contents = some k := by
    intro f hf
    obtain ⟨u, hu⟩ := Option.isSome_iff_exists.mp (hparse f hf)
    exact ⟨u.key, by rw [keyOf, hu, Option.map_some]⟩
  constructor
  · intro h f hf g hg hfg
    obtain ⟨k, hk⟩ := hkey f hf
    obtain ⟨k₁, f', hf', hfc⟩ := (h f.contents).mp (List.mem_map_of_mem hf)
    obtain ⟨k₂, g', hg', hgc⟩ := (h g.contents).mp (List.mem_map_of_mem hg)
    obtain rfl : k₁ = k := hf'.key_unique (by rw [hfc, hk])
    obtain rfl : k₂ = k₁ := hg'.key_unique (by rw [hgc, ← hfg, hk])
    rw [← hfc, ← hgc, hf'.unique hg']
  · intro h text
    refine ⟨fun ht => ?_, lastText_mem⟩
    obtain ⟨f, hf, rfl⟩ := List.mem_map.mp ht
    obtain ⟨k, hk⟩ := hkey f hf
    obtain ⟨f', hf'⟩ := exists_lastFor hf hk
    exact ⟨k, f', hf', h f' hf'.mem f hf (hf'.key_eq.trans hk.symm)⟩

/-- The harness is silent exactly on equal sets of documents, if and only if the keys tell the
documents apart, or the actual documents match neither the files nor the map. -/
theorem silent_iff_sameDocuments (unmarshal : String → Option ResourceId) (files : List File)
    (actual : List (Resource unmarshal)) :
    (runTestCase files actual = [] ↔ SameDocuments files actual) ↔ KeysTell files actual := by
  by_cases hparse : ∀ f ∈ files, (unmarshal f.contents).isSome
  · have hsilent : runTestCase files actual = [] ↔
        ∀ text, text ∈ actual.map (·.yaml) ↔ LastText unmarshal files text := by
      rw [runTestCase_eq_nil, and_iff_right hparse]
    have hfile : ¬ ∃ f ∈ files, unmarshal f.contents = none := by
      rintro ⟨f, hf, hn⟩
      simpa [hn] using hparse f hf
    rw [KeysTell, or_iff_right hfile, ← lastText_iff hparse, ← hsilent]
    constructor
    · intro h
      by_cases hsame : SameDocuments files actual
      · exact Or.inl fun text => (hsame text).trans (hsilent.mp (h.mpr hsame) text)
      · exact Or.inr ⟨hsame, fun hnil => hsame (h.mp hnil)⟩
    · rintro (hlast | ⟨hsame, hnil⟩)
      · rw [hsilent]
        refine forall_congr' fun text => ?_
        rw [hlast text]
        exact ⟨Iff.symm, Iff.symm⟩
      · exact iff_of_false hnil hsame
  · have hfile : ∃ f ∈ files, unmarshal f.contents = none := by
      simpa using hparse
    refine iff_of_true (iff_of_false ?_ ?_) (Or.inl hfile)
    · rw [runTestCase_eq_nil]
      exact fun h => hparse h.1
    · -- an actual document parses, and the file does not
      intro hsame
      obtain ⟨f, hf, hn⟩ := hfile
      obtain ⟨r, _, hr⟩ := List.mem_map.mp ((hsame f.contents).mp (List.mem_map_of_mem hf))
      have hp := r.parses
      rw [hr, hn] at hp
      cases hp

end

/-- A config map of one name in the namespace `ns`. -/
def configMap (ns : String) : String :=
  "apiVersion: v1\nkind: ConfigMap\nmetadata:\n  name: config\n  namespace: " ++ ns ++ "\n"

/-- The identities of two such documents. -/
def unmarshalConfigMap (text : String) : Option ResourceId :=
  if text = configMap "kubeflow" then some ⟨"v1", "ConfigMap", "kubeflow", "config"⟩
  else if text = configMap "istio-system" then some ⟨"v1", "ConfigMap", "istio-system", "config"⟩
  else none

def istioConfigMap : Resource unmarshalConfigMap where
  id := ⟨"v1", "ConfigMap", "istio-system", "config"⟩
  yaml := configMap "istio-system"
  parses := by decide +kernel

/-- A config map is expected in two namespaces, and built in the second alone. -/
theorem not_silent_iff_sameDocuments : ¬ ∀ (unmarshal : String → Option ResourceId)
    (files : List File) (actual : List (Resource unmarshal)), (actual.map (·.id)).Nodup →
      (runTestCase files actual = [] ↔ SameDocuments files actual) := by
  intro h
  have hiff := h unmarshalConfigMap
    [⟨"a.yaml", configMap "kubeflow"⟩, ⟨"b.yaml", configMap "istio-system"⟩] [istioConfigMap] (by simp)
  have hsilent : runTestCase [⟨"a.yaml", configMap "kubeflow"⟩,
      ⟨"b.yaml", configMap "istio-system"⟩] [istioConfigMap] = [] := by decide +kernel
  have hmem := (hiff.mp hsilent (configMap "kubeflow")).mp (by simp)
  revert hmem
  decide +kernel

end Manifests.GoldenFiles
