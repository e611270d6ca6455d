import Manifests.Cluster

/-! The minio-config job: it reads the external MinIO secret, or falls back to the default
config, and creates the MinIO parameters of the kubeflow namespace. -/
namespace Manifests.MinioConfig
open Library

def minioSecretName : String := "minio-params"
def minioSecretNamespace : String := "kubeflow"

def requiredFields : List String := ["host", "port", "secure", "accesskey", "secretkey"]

/-- `default_config.json`. -/
def defaultConfig : List (String × String) :=
  [("host", "minio-service.kubeflow.svc.cluster.local"), ("port", "9000"), ("insecure", "true"),
    ("secure", "false"), ("accesskey", "minioadmin"), ("secretkey", "minioadmin")]

/-- What the job's pod gives to a run. -/
structure Settings where
  externalMinioConfigSecretName : Option String
  externalMinioConfigSecretNamespace : Option String

def Settings.generalMinioSecretName (settings : Settings) : String :=
  environOr settings.externalMinioConfigSecretName "kubeflow-external-minio"

def Settings.generalMinioSecretNamespace (settings : Settings) : String :=
  environOr settings.externalMinioConfigSecretNamespace "kubeflow-minio"

/-- The answers to the calls of one run. -/
structure Answers where
  loadKubeConfig : Except PyError Unit
  loadInclusterConfig : Except PyError Unit
  minioSecret : Answer Secret
  openDefaultConfig : Except PyError Unit
  create : Answer Unit

/-- The loop over the required fields. -/
def checkFields (data : List (String × String)) : List String → Py Unit
  | [] => pure ()
  | field :: fields =>
    match present (data.lookup field) with
    | some _ => checkFields data fields
    | none => sysExit ("Secret was read successfully, but is invalid. Missing field \"" ++ field ++ "\"")

/-- The body of the `try`. -/
def externalData (minioSecret : Answer Secret) : Py (List (String × String)) := do
  let secret ← minioSecret.call
  match secret.data with
  -- `field not in None`
  | none => .raise .typeError
  | some data =>
    checkFields data requiredFields
    print ["Secret valid!"]
    return data

/-- The loop that encodes the default values in place. -/
def encodeValues : List (String × String) → Py (List (String × String))
  | [] => pure []
  | (field, value) :: rest => do
    let encoded ← .ofOption .unicodeError (b64encode value)
    return (field, encoded) :: (← encodeValues rest)

/-- The `except client.exceptions.ApiException`; anything else passes through. -/
def defaultData (openDefaultConfig : Except PyError Unit) : PyError → Py (List (String × String))
  | .apiException status text =>
    if status ≠ 404 then do
      print ["Unexpected error while connecting to kubernetes"]
      sysExit text
    else do
      print ["Secret was not found. Setting to use the default minio..."]
      -- the message is built by adding the exception to a string, which raises again
      (ofExcept openDefaultConfig).catching fun _ => .raise .typeError
      encodeValues defaultConfig
  | e => .raise e

def minioParams (data : List (String × String)) : SecretBody where
  ns := minioSecretNamespace
  name := minioSecretName
  type := "Opaque"
  data := data

/-- The script up to its last call: what it asks the cluster to create. -/
def prepare (settings : Settings) (answers : Answers) : Py SecretBody := do
  loadConfig answers.loadKubeConfig answers.loadInclusterConfig
  print ["Reading secret", settings.generalMinioSecretName, "from namespace",
    settings.generalMinioSecretNamespace]
  let data ← (externalData answers.minioSecret).catching (defaultData answers.openDefaultConfig)
  print ["Trying to create kubeflow minio params secret..."]
  return minioParams data

/-- The create call, whose failure ends the script. -/
def createParams (create : Answer Unit) : Py Unit := do
  create.call.catching fun
    | .apiException _ text => sysExit ("Error while creating secret: " ++ text)
    | e => .raise e
  print ["Success!"]

/-- One run of the job. -/
def run (settings : Settings) (answers : Answers) : Run :=
  Run.of (prepare settings answers) (createParams answers.create)

variable {settings : Settings} {answers : Answers} {data : List (String × String)}
  {fields : List String} {g g' : Globals}

open Library.Script

theorem checkFields_ok (h : checkFields data fields g = (.ok (), g')) :
    ∀ field ∈ fields, (present (data.lookup field)).isSome := by
  induction fields generalizing g with
  | nil => simp
  | cons field fields ih =>
    unfold checkFields at h
    rcases hp : present (data.lookup field) with _ | value
    · rw [hp] at h
      cases h
    · rw [hp] at h
      have hrest := ih h
      intro f hf
      rcases List.mem_cons.mp hf with rfl | hf
      · rw [hp]
        rfl
      · exact hrest f hf

theorem plain_checkFields (data : List (String × String)) (fields : List String) :
    Plain (checkFields data fields) := by
  induction fields with
  | nil => exact plain_pure ()
  | cons field fields ih =>
    unfold checkFields
    split
    · exact ih
    · exact plain_sysExit _

/-- A secret that was read can only fail the run in ways that no handler takes. -/
theorem plain_externalData (secret : Secret) : Plain (externalData (.ok secret)) := by
  apply plain_bind (plain_pure secret)
  intro secret
  split
  · exact plain_raise (by simp [NotApi])
  · apply plain_bind (plain_checkFields _ _)
    intro _
    apply plain_bind (plain_print _)
    intro _
    exact plain_pure _

theorem externalData_ok {secret : Secret} (h : externalData (.ok secret) g = (.ok data, g')) :
    secret = ⟨some data⟩ ∧ ∀ field ∈ requiredFields, (present (data.lookup field)).isSome := by
  obtain ⟨secret', g₁, hs, h₁⟩ := of_bind_ok h
  cases hs
  obtain ⟨_ | found⟩ := secret
  · cases h₁
  · obtain ⟨_, g₂, hc, h₂⟩ := of_bind_ok h₁
    cases h₂
    exact ⟨rfl, checkFields_ok hc⟩

/-- The encoded values, key by key. -/
theorem encodeValues_ok {config : List (String × String)}
    (h : encodeValues config g = (.ok data, g')) (field : String) :
    data.lookup field = (config.lookup field).bind b64encode := by
  induction config generalizing data g g' with
  | nil =>
    cases h
    rfl
  | cons entry rest ih =>
    obtain ⟨name, value⟩ := entry
    obtain ⟨encoded, g₁, he, h₁⟩ := of_bind_ok h
    obtain ⟨data', g₂, hr, h₂⟩ := of_bind_ok h₁
    obtain ⟨he, _⟩ := ofOption_ok he
    cases h₂
    rw [List.lookup_cons, List.lookup_cons, ih hr]
    cases field == name
    · rfl
    · exact he.symm

/-- The data that a run asks to store, and where it comes from: all of a valid external secret,
or the encoded default config after a 404. -/
inductive Source (answers : Answers) (data : List (String × String)) : Prop where
  | external (read : answers.minioSecret = .ok ⟨some data⟩)
      (valid : ∀ field ∈ requiredFields, (present (data.lookup field)).isSome)
  | default (text : String) (read : answers.minioSecret = .apiException 404 text)
      (encoded : ∀ field, data.lookup field = (defaultConfig.lookup field).bind b64encode)

theorem defaultData_ok {openDefaultConfig : Except PyError Unit} {status : Nat} {text : String}
    (h : defaultData openDefaultConfig (.apiException status text) g = (.ok data, g')) :
    status = 404 ∧ ∀ field, data.lookup field = (defaultConfig.lookup field).bind b64encode := by
  unfold defaultData at h
  by_cases hs : status = 404
  · subst hs
    obtain ⟨_, g₁, _, h₁⟩ := of_bind_ok h
    obtain ⟨_, g₂, _, h₂⟩ := of_bind_ok h₁
    exact ⟨rfl, encodeValues_ok h₂⟩
  · simp [hs] at h

theorem prepare_ok {body : SecretBody} (h : prepare settings answers g = (.ok body, g')) :
    ∃ data, body = minioParams data ∧ Source answers data := by
  obtain ⟨_, g₁, _, h₁⟩ := of_bind_ok h
  obtain ⟨_, g₂, _, h₂⟩ := of_bind_ok h₁
  obtain ⟨data, g₃, hd, h₃⟩ := of_bind_ok h₂
  cases h₃
  refine ⟨data, rfl, ?_⟩
  cases ha : answers.minioSecret with
  | ok secret =>
    rw [ha] at hd
    unfold catching at hd
    split at hd
    · next hm =>
      cases hd
      obtain ⟨rfl, hv⟩ := externalData_ok hm
      exact .external ha hv
    · next e _ hm =>
      have he := (plain_externalData secret).raises.of_error _ _ (congrArg Prod.fst hm)
      unfold defaultData at hd
      split at hd
      · exact (he _ _ rfl).elim
      · cases hd
  | apiException status text =>
    rw [ha] at hd
    obtain ⟨rfl, he⟩ := defaultData_ok hd
    exact .default text ha he

/-- Everything a run can do to the cluster. -/
theorem run_cases (settings : Settings) (answers : Answers) :
    ((run settings answers).created = [] ∧ (run settings answers).outcome ≠ .ok ()) ∨
      ∃ data, (run settings answers).created = [minioParams data] ∧
        (run settings answers).outcome = .ok () ∧ Source answers data := by
  obtain hn | ⟨body, g, g', hp, _, hr⟩ :=
    Run.of_cases (prepare settings answers) (createParams answers.create)
  · exact Or.inl hn
  · obtain ⟨data, rfl, hs⟩ := prepare_ok hp
    refine Or.inr ⟨data, ?_, ?_, hs⟩
    · rw [run, hr]
    · rw [run, hr]

end Manifests.MinioConfig
