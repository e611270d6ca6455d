import Manifests.MinioConfig
import Manifests.ProfileController

/-! The way of the MinIO parameters: from the external secret or the default config through
`minio-params` and the profile controller's environment into every enabled namespace. -/
namespace Manifests
open Library ProfileController

/-- The bytes that a value of a secret's `data` stands for. -/
def textBytes (text : String) : Option (List UInt8) := do
  Base64.decode (← Text.encodeAscii text)

/-- The bytes that a secret holds under a key. -/
def dataBytes (data : List (String × String)) (key : String) : Option (List UInt8) :=
  (data.lookup key).bind textBytes

/-- The variables of the profile controller's container that come from `minio-params`, with the
keys they come from. -/
def minioEnv : List (String × String) :=
  [("MINIO_ACCESS_KEY", "accesskey"), ("MINIO_SECRET_KEY", "secretkey"), ("MINIO_HOST", "host"),
    ("MINIO_PORT", "port"), ("MINIO_SECURE", "secure")]

/-- The text that a `secretKeyRef` puts into a variable. -/
def secretKeyRef (data : List (String × String)) (key : String) : Option String := do
  Text.decodeUtf8 (← dataBytes data key)

/-- The environment of the profile controller's container, over the variables `base` that do not
come from the secret. A key that cannot be resolved keeps the container from starting. -/
def startEnv (data : List (String × String)) (base : String → Option String) :
    Option (String → Option String) :=
  if minioEnv.all fun (_, key) => (secretKeyRef data key).isSome then
    some fun v => match minioEnv.lookup v with
      | some key => secretKeyRef data key
      | none => base v
  else none

def minioParamsId (ns : String) : ObjectId := ⟨"v1", "Secret", ns, "minio-params"⟩

/-- The answer of `sync` has one MinIO secret for the namespace, which holds the bytes `source`
field by field. -/
def Delivers (synced : Synced) (ns : String) (source : String → Option (List UInt8)) : Prop :=
  ∃ child params, synced.children.filter (fun c => objectId c = minioParamsId ns) = [child] ∧
    child.get "data" = some (.dict params) ∧
    ∀ field ∈ MinioConfig.requiredFields, ∃ text bytes,
      Dict.get params field = some (.str text) ∧ textBytes text = some bytes ∧
        source field = some bytes

/-- A controller started from `data` has the five variables, and hands the bytes `source` out to
every enabled namespace. -/
def Reaches (data : List (String × String)) (source : String → Option (List UInt8)) : Prop :=
  ∀ base : String → Option String, (base "KFP_VERSION").isSome → (base "airgapRegistry").isSome →
    ∃ env settings, startEnv data base = some env ∧ (∀ p ∈ minioEnv, (env p.1).isSome) ∧
      loadSettings env = .ok settings ∧
      ∀ parent ns children, Enabled parent ns →
        (ObservesDeclared children → ∃ synced, sync settings parent children = .ok synced) ∧
        ∀ synced, sync settings parent children = .ok synced → Delivers synced ns source

variable {data : List (String × String)} {env : String → Option String} {key v value : String}

/-- Re-encoding a text gives an encoding of its bytes. -/
theorem b64encodeUtf8_ok (s : String) :
    ∃ text, b64encodeUtf8 s = .ok text ∧ textBytes text = some (Text.encodeUtf8 s) := by
  obtain ⟨t, _, he⟩ := encode_decodeAscii (Text.encodeUtf8 s)
  have hd := Text.decodeUtf8_encodeUtf8 t
  rw [Text.encodeUtf8_of_encodeAscii he] at hd
  refine ⟨t, by rw [b64encodeUtf8, hd], ?_⟩
  simp [textBytes, he, Base64.decode_encode]

theorem environB64_ok (h : env v = some value) :
    ∃ text, environB64 env v = .ok text ∧ textBytes text = some (Text.encodeUtf8 value) := by
  obtain ⟨text, ht, hb⟩ := b64encodeUtf8_ok value
  refine ⟨text, ?_, hb⟩
  simp only [environB64, h, ht]

/-- A variable holds the bytes of its key. -/
theorem encodeUtf8_secretKeyRef (h : secretKeyRef data key = some value) :
    dataBytes data key = some (Text.encodeUtf8 value) := by
  obtain ⟨bytes, hb, hd⟩ := Option.bind_eq_some_iff.mp h
  rw [hb, Text.encodeUtf8_decodeUtf8 hd]

theorem startEnv_some (base : String → Option String)
    (h : ∀ p ∈ minioEnv, (secretKeyRef data p.2).isSome) :
    ∃ env, startEnv data base = some env ∧ (∀ p ∈ minioEnv, env p.1 = secretKeyRef data p.2) ∧
      env "KFP_VERSION" = base "KFP_VERSION" ∧ env "airgapRegistry" = base "airgapRegistry" := by
  have hall : (minioEnv.all fun p => (secretKeyRef data p.2).isSome) = true :=
    List.all_eq_true.mpr h
  refine ⟨_, if_pos hall, ?_, rfl, rfl⟩
  intro p hp
  simp only [minioEnv, List.mem_cons, List.not_mem_nil, or_false] at hp
  rcases hp with rfl | rfl | rfl | rfl | rfl <;> rfl

/-- The settings that the controller loads hold, for each of the five variables, an encoding of
the variable's bytes. -/
theorem loadSettings_ok (values : String → String) (hv : ∀ p ∈ minioEnv, env p.1 = some (values p.2))
    (hkfp : (env "KFP_VERSION").isSome) (hreg : (env "airgapRegistry").isSome) :
    ∃ settings, loadSettings env = .ok settings ∧ ∀ field ∈ MinioConfig.requiredFields,
      ∃ text, Dict.get (minioParamsData settings) field = some (.str text) ∧
        textBytes text = some (Text.encodeUtf8 (values field)) := by
  obtain ⟨kfp, hkfp⟩ := Option.isSome_iff_exists.mp hkfp
  obtain ⟨reg, hreg⟩ := Option.isSome_iff_exists.mp hreg
  obtain ⟨access, ha, hab⟩ := environB64_ok (hv ("MINIO_ACCESS_KEY", "accesskey") (by simp [minioEnv]))
  obtain ⟨secret, hs, hsb⟩ := environB64_ok (hv ("MINIO_SECRET_KEY", "secretkey") (by simp [minioEnv]))
  obtain ⟨host, hh, hhb⟩ := environB64_ok (hv ("MINIO_HOST", "host") (by simp [minioEnv]))
  obtain ⟨port, hp, hpb⟩ := environB64_ok (hv ("MINIO_PORT", "port") (by simp [minioEnv]))
  obtain ⟨secure, hc, hcb⟩ := environB64_ok (hv ("MINIO_SECURE", "secure") (by simp [minioEnv]))
  refine ⟨⟨kfp, env "DISABLE_ISTIO_SIDECAR" = some "true", access, secret, host, port, secure, reg⟩,
    ?_, ?_⟩
  · simp only [loadSettings, environ, hkfp, hreg, ha, hs, hh, hp, hc]
    rfl
  · intro field hf
    simp only [MinioConfig.requiredFields, List.mem_cons, List.not_mem_nil, or_false] at hf
    rcases hf with rfl | rfl | rfl | rfl | rfl
    · exact ⟨host, rfl, hhb⟩
    · exact ⟨port, rfl, hpb⟩
    · exact ⟨secure, rfl, hcb⟩
    · exact ⟨access, rfl, hab⟩
    · exact ⟨secret, rfl, hsb⟩

theorem Reaches.congr {s₁ s₂ : String → Option (List UInt8)} (h : Reaches data s₁)
    (hs : ∀ field ∈ MinioConfig.requiredFields, s₁ field = s₂ field) : Reaches data s₂ := by
  intro base hkfp hreg
  obtain ⟨env, settings, henv, hvars, hload, hsync⟩ := h base hkfp hreg
  refine ⟨env, settings, henv, hvars, hload, fun parent ns children he => ?_⟩
  refine ⟨(hsync parent ns children he).1, fun synced h₁ => ?_⟩
  obtain ⟨child, params, hchild, hdata, hfields⟩ := (hsync parent ns children he).2 synced h₁
  refine ⟨child, params, hchild, hdata, fun field hf => ?_⟩
  rw [← hs field hf]
  exact hfields field hf

theorem sync_children {parent : Value} {ns : String} {children : Children} {settings : Settings}
    {synced : Synced} (he : Enabled parent ns) (h : sync settings parent children = .ok synced) :
    synced.children = desiredResources settings (.str ns) := by
  have ht : ProfileController.isTrue (.str "true") = true := by decide
  simp only [sync, he.label, he.name, ht, bind, Except.bind, pure, Except.pure, if_true] at h
  cases hc : allCounts children readyCounts with
  | error e =>
    rw [hc] at h
    cases h
  | ok ready =>
    rw [hc] at h
    cases h
    rfl

/-- With an entry for every declared kind, `sync` answers an enabled namespace. -/
theorem sync_ok {parent : Value} {ns : String} {children : Children} (settings : Settings)
    (he : Enabled parent ns) (ho : ObservesDeclared children) :
    ∃ synced, sync settings parent children = .ok synced := by
  have hcounts := ho.allCounts
  have ht : ProfileController.isTrue (.str "true") = true := by decide
  simp only [sync, he.label, he.name, ht, hcounts, bind, Except.bind, pure, Except.pure, if_true]
  exact ⟨_, rfl⟩

/-- One of the desired children is the namespace's MinIO secret. -/
theorem filter_desired (settings : Settings) (ns : String) :
    (desiredResources settings (.str ns)).filter (fun c => objectId c = minioParamsId ns) =
      [minioParams settings (.str ns)] := by
  simp [desiredResources, List.filter, minioParamsId, metadataGrpcConfigmap,
    visualizationDeployment, visualizationDestinationRule, visualizationAuthorizationPolicy,
    visualizationService, artifactDeployment, artifactService, minioParams, workflowRole,
    workflowDefaultBinding, deployment, metadata, objectId, stringAt]

/-- All the fields that can be read from the secret reach the namespaces. -/
theorem reaches_of_secretKeyRef
    (h : ∀ field ∈ MinioConfig.requiredFields, (secretKeyRef data field).isSome) :
    Reaches data (dataBytes data) := by
  intro base hkfp hreg
  have hfield : ∀ p ∈ minioEnv, p.2 ∈ MinioConfig.requiredFields := by decide
  have hsome : ∀ p ∈ minioEnv, (secretKeyRef data p.2).isSome := fun p hp => h p.2 (hfield p hp)
  obtain ⟨env, henv, hvars, hk, hr⟩ := startEnv_some base hsome
  have hv : ∀ p ∈ minioEnv, env p.1 = some ((secretKeyRef data p.2).getD "") := by
    intro p hp
    obtain ⟨value, hvalue⟩ := Option.isSome_iff_exists.mp (hsome p hp)
    rw [hvars p hp, hvalue, Option.getD_some]
  obtain ⟨settings, hload, hparams⟩ := loadSettings_ok
    (fun key => (secretKeyRef data key).getD "") hv (hk ▸ hkfp) (hr ▸ hreg)
  refine ⟨env, settings, henv, fun p hp => by simp [hv p hp], hload, ?_⟩
  intro parent ns children he
  refine ⟨sync_ok settings he, fun synced hs => ?_⟩
  refine ⟨minioParams settings (.str ns), minioParamsData settings, ?_, rfl, ?_⟩
  · rw [sync_children he hs, filter_desired]
  · intro field hf
    obtain ⟨text, hget, hbytes⟩ := hparams field hf
    obtain ⟨value, hvalue⟩ := Option.isSome_iff_exists.mp (h field hf)
    rw [hvalue, Option.getD_some] at hbytes
    exact ⟨text, _, hget, hbytes, encodeUtf8_secretKeyRef hvalue⟩

/-- A text that the job encodes is read back as it was. -/
theorem textBytes_b64encode {text : String} (h : b64encode value = some text) :
    textBytes text = some (Text.encodeUtf8 value) := by
  obtain ⟨bytes, hvalue, htext⟩ := b64encode_eq_some.mp h
  rw [Text.encodeUtf8_of_encodeAscii hvalue]
  simp [textBytes, htext, Base64.decode_encode]

theorem defaultConfig_ascii {field : String} (h : field ∈ MinioConfig.requiredFields) :
    ∃ value, MinioConfig.defaultConfig.lookup field = some value ∧
      (Text.encodeAscii value).isSome := by
  simp only [MinioConfig.requiredFields, List.mem_cons, List.not_mem_nil, or_false] at h
  rcases h with rfl | rfl | rfl | rfl | rfl <;> exact ⟨_, rfl, by decide⟩

/-- The encoded default config holds the default values. -/
theorem dataBytes_default
    (h : ∀ field, data.lookup field = (MinioConfig.defaultConfig.lookup field).bind b64encode)
    {field : String} (hf : field ∈ MinioConfig.requiredFields) :
    ∃ value, MinioConfig.defaultConfig.lookup field = some value ∧
      dataBytes data field = some (Text.encodeUtf8 value) := by
  obtain ⟨value, hvalue, hascii⟩ := defaultConfig_ascii hf
  obtain ⟨text, htext⟩ := Option.isSome_iff_exists.mp (b64encode_isSome.mpr hascii)
  refine ⟨value, hvalue, ?_⟩
  have hlookup : data.lookup field = some text := by
    rw [h, hvalue]
    exact htext
  rw [dataBytes, hlookup]
  exact textBytes_b64encode htext

/-- The bytes of the default config. -/
def defaultBytes (field : String) : Option (List UInt8) :=
  (MinioConfig.defaultConfig.lookup field).map Text.encodeUtf8

theorem reaches_default
    (h : ∀ field, data.lookup field = (MinioConfig.defaultConfig.lookup field).bind b64encode) :
    Reaches data defaultBytes := by
  have hread : ∀ field ∈ MinioConfig.requiredFields, (secretKeyRef data field).isSome := by
    intro field hf
    obtain ⟨value, _, hbytes⟩ := dataBytes_default h hf
    simp [secretKeyRef, hbytes, Text.decodeUtf8_encodeUtf8]
  apply (reaches_of_secretKeyRef hread).congr
  intro field hf
  obtain ⟨value, hvalue, hbytes⟩ := dataBytes_default h hf
  rw [hbytes, defaultBytes, hvalue]
  rfl

/-- Every value of the external secret is the encoding of a UTF-8 text. -/
def Utf8Values (answers : MinioConfig.Answers) : Prop :=
  ∀ data, answers.minioSecret = .ok ⟨some data⟩ →
    ∀ entry ∈ data, ((textBytes entry.2).bind Text.decodeUtf8).isSome

/-- A field that the job has found can be read by the container. -/
theorem secretKeyRef_external {answers : MinioConfig.Answers} (hutf8 : Utf8Values answers)
    (hread : answers.minioSecret = .ok ⟨some data⟩) (hp : (present (data.lookup key)).isSome) :
    (secretKeyRef data key).isSome := by
  cases hl : data.lookup key with
  | none =>
    rw [hl] at hp
    cases hp
  | some text =>
    obtain ⟨before, after, hsplit, _⟩ := List.lookup_eq_some_iff.mp hl
    have hm : (key, text) ∈ data := by simp [hsplit]
    have hdecodes := hutf8 data hread (key, text) hm
    simpa [secretKeyRef, dataBytes, hl] using hdecodes

/-- The parameters that the job creates reach every enabled namespace as they are in the external
secret, or in the default config when there is none; from an external secret without one of the
required fields it creates nothing. -/
theorem minioParams_reach (settings : MinioConfig.Settings) (answers : MinioConfig.Answers)
    (hutf8 : Utf8Values answers) :
    ((MinioConfig.run settings answers).created = [] ∨
      ∃ data, (MinioConfig.run settings answers).created = [MinioConfig.minioParams data] ∧
        ((answers.minioSecret = .ok ⟨some data⟩ ∧ Reaches data (dataBytes data)) ∨
          ((∃ text, answers.minioSecret = .apiException 404 text) ∧ Reaches data defaultBytes))) ∧
    ∀ secret field, answers.minioSecret = .ok secret → field ∈ MinioConfig.requiredFields →
      present (secret.data.bind (·.lookup field)) = none →
        (MinioConfig.run settings answers).created = [] := by
  obtain ⟨hnone, _⟩ | ⟨data, hcreated, _, hsource⟩ := MinioConfig.run_cases settings answers
  · exact ⟨Or.inl hnone, fun _ _ _ _ _ => hnone⟩
  refine ⟨Or.inr ⟨data, hcreated, ?_⟩, ?_⟩
  · cases hsource with
    | external hread hvalid =>
      refine Or.inl ⟨hread, reaches_of_secretKeyRef fun field hf => ?_⟩
      exact secretKeyRef_external hutf8 hread (hvalid field hf)
    | default text hread hencoded => exact Or.inr ⟨⟨text, hread⟩, reaches_default hencoded⟩
  · intro secret field hread' hf hmissing
    cases hsource with
    | external hread hvalid =>
      cases hread.symm.trans hread'
      have hpresent := hvalid field hf
      rw [Option.bind_some] at hmissing
      rw [hmissing] at hpresent
      cases hpresent
    | default text hread _ => cases hread.symm.trans hread'

/-- A cluster without an external secret. -/
def noExternalMinio : MinioConfig.Answers where
  loadKubeConfig := .error (.exception "no config")
  loadInclusterConfig := .ok ()
  minioSecret := .apiException 404 "Not Found"
  openDefaultConfig := .ok ()
  create := .ok ()

/-- An external secret with a key of its own beside the required ones. -/
def externalMinioSecret : Secret where
  data := some [("host", "bWluaW8="), ("port", "OTAwMA=="), ("secure", "ZmFsc2U="),
    ("accesskey", "YWJj"), ("note", "w6k="), ("secretkey", "eHl6")]

def externalMinio : MinioConfig.Answers :=
  { noExternalMinio with minioSecret := .ok externalMinioSecret }

theorem utf8Values_externalMinio : Utf8Values externalMinio := by
  intro data h
  cases h
  decide +kernel

theorem minioParams_reach_external : ∃ data,
    (MinioConfig.run ⟨none, none⟩ externalMinio).created = [MinioConfig.minioParams data] ∧
      Reaches data (dataBytes data) := by
  obtain ⟨hnone | ⟨data, hcreated, ⟨_, hreach⟩ | ⟨⟨_, hread⟩, _⟩⟩, _⟩ :=
    minioParams_reach ⟨none, none⟩ externalMinio utf8Values_externalMinio
  · have hcreates : (MinioConfig.run ⟨none, none⟩ externalMinio).created ≠ [] := by decide +kernel
    exact (hcreates hnone).elim
  · exact ⟨data, hcreated, hreach⟩
  · cases hread

end Manifests
