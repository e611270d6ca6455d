import Manifests.DexSecret.FailClosed
import Manifests.Library.Clients
import Manifests.MinioConfig

/-! Any number of runs of the two bootstrap jobs on one cluster, call by call. -/
namespace Manifests.Bootstrap
open Library Library.Clients

/-- The secrets of the cluster, by namespace and name. -/
abbrev Stored := String × String → Option Secret

def dexConfigKey : String × String :=
  (DexSecret.dexConfigSecretNamespace, DexSecret.dexConfigSecretName)

def minioParamsKey : String × String :=
  (MinioConfig.minioSecretNamespace, MinioConfig.minioSecretName)

/-- The secrets that the jobs create. -/
def targets : List (String × String) := [dexConfigKey, minioParamsKey]

inductive Request where
  | read (key : String × String)
  | create (body : SecretBody)

def bodyKey (body : SecretBody) : String × String := (body.ns, body.name)

/-- The secret that a body becomes. -/
def created (body : SecretBody) : Secret := ⟨some body.data⟩

/-- A create is atomic and fails if the secret exists. Any call may end with an error, and the
answer to a create that was done may be lost. -/
inductive Serves (stored : Stored) : Request → Answer Secret → Stored → Prop where
  | read {key : String × String} {answer : Answer Secret} (h : Reads (stored key) answer) :
      Serves stored (.read key) answer stored
  | created {body : SecretBody} (habsent : stored (bodyKey body) = none) :
      Serves stored (.create body) (.ok (created body))
        (Function.update stored (bodyKey body) (some (created body)))
  | lost {body : SecretBody} {status : Nat} {text : String} (habsent : stored (bodyKey body) = none) :
      Serves stored (.create body) (.apiException status text)
        (Function.update stored (bodyKey body) (some (created body)))
  | refused {body : SecretBody} {status : Nat} {text : String} :
      Serves stored (.create body) (.apiException status text) stored

/-- The outside writers change any secret but the two. -/
def apiServer : Server Stored Request (Answer Secret) where
  serve := Serves
  outside stored stored' := ∀ target ∈ targets, stored' target = stored target

abbrev JobClient := Client Request (Answer Secret) (Except PyError Unit)

/-- A script that ends with an exception makes no more calls. -/
def after {α : Type} (result : Except PyError α × Globals) (next : α → Globals → JobClient) :
    JobClient :=
  match result with
  | (.error e, _) => .done (.error e)
  | (.ok a, g) => next a g

/-- The answer to a create, whose secret the jobs do not look at. -/
def acknowledged : Answer Secret → Answer Unit
  | .ok _ => .ok ()
  | .apiException status text => .apiException status text

def authSecretKey (settings : DexSecret.Settings) : String × String :=
  (environOr settings.authSecretNamespace "hpecp",
    environOr settings.authSecretName "hpecp-ext-auth-secret")

def minioSecretKey (settings : MinioConfig.Settings) : String × String :=
  (settings.generalMinioSecretNamespace, settings.generalMinioSecretName)

/-- The calls of the dex-secret-ldap job: two reads and the create. -/
def dexClient (settings : DexSecret.Settings)
    (loadKubeConfig loadInclusterConfig : Except PyError Unit) : JobClient :=
  after (loadConfig loadKubeConfig loadInclusterConfig {}) fun _ g =>
    .call (.read (authSecretKey settings)) fun authSecret =>
      after (DexSecret.makeConfig settings authSecret g) fun config g =>
        .call (.read dexConfigKey) fun dexSecret =>
          after (DexSecret.checkAbsent dexSecret g) fun _ g =>
            after (DexSecret.secretBody settings config g) fun body g =>
              .call (.create body) fun create =>
                .done ((do
                  (acknowledged create).call
                  print ["Success!"]) g).1

/-- What the minio-config job does between its two calls. -/
def minioBody (settings : MinioConfig.Settings) (openDefaultConfig : Except PyError Unit)
    (minioSecret : Answer Secret) : Py SecretBody := do
  print ["Reading secret", settings.generalMinioSecretName, "from namespace",
    settings.generalMinioSecretNamespace]
  let data ← (MinioConfig.externalData minioSecret).catching
    (MinioConfig.defaultData openDefaultConfig)
  print ["Trying to create kubeflow minio params secret..."]
  return MinioConfig.minioParams data

/-- The calls of the minio-config job: one read and the create. -/
def minioClient (settings : MinioConfig.Settings)
    (loadKubeConfig loadInclusterConfig openDefaultConfig : Except PyError Unit) : JobClient :=
  after (loadConfig loadKubeConfig loadInclusterConfig {}) fun _ g =>
    .call (.read (minioSecretKey settings)) fun minioSecret =>
      after (minioBody settings openDefaultConfig minioSecret g) fun body g =>
        .call (.create body) fun create =>
          .done (MinioConfig.createParams (acknowledged create) g).1

/-- One run of a job, with what its pod gives to it. -/
inductive Job where
  | dex (settings : DexSecret.Settings) (loadKubeConfig loadInclusterConfig : Except PyError Unit)
  | minio (settings : MinioConfig.Settings)
      (loadKubeConfig loadInclusterConfig openDefaultConfig : Except PyError Unit)

namespace Job

def client : Job → JobClient
  | dex settings loadKubeConfig loadInclusterConfig =>
    dexClient settings loadKubeConfig loadInclusterConfig
  | minio settings loadKubeConfig loadInclusterConfig openDefaultConfig =>
    minioClient settings loadKubeConfig loadInclusterConfig openDefaultConfig

/-- The source secret. -/
def source : Job → String × String
  | dex settings _ _ => authSecretKey settings
  | minio settings _ _ _ => minioSecretKey settings

end Job

def notFound : Answer Secret := .apiException 404 "Not Found"

/-- What a read finds that meets no error. -/
def found : Option Secret → Answer Secret
  | some secret => .ok secret
  | none => notFound

/-- The run of a job alone that finds one version of its source secret, and whose create is done. -/
def Job.run (version : Option Secret) : Job → Run
  | dex settings loadKubeConfig loadInclusterConfig =>
    DexSecret.run settings ⟨loadKubeConfig, loadInclusterConfig, found version, notFound, .ok ()⟩
  | minio settings loadKubeConfig loadInclusterConfig openDefaultConfig =>
    MinioConfig.run settings
      ⟨loadKubeConfig, loadInclusterConfig, found version, openDefaultConfig, .ok ()⟩

/-- The version of a secret that the answer to a read tells. -/
def told : Answer Secret → Option (Option Secret)
  | .ok secret => some (some secret)
  | .apiException status _ => if status = 404 then some none else none

variable {π : Type} [DecidableEq π]

/-- The runs before their first call. -/
def start (jobs : π → Job) (stored : Stored) :
    World π Stored Request (Answer Secret) (Except PyError Unit) :=
  ⟨stored, fun p => (jobs p).client⟩

/-- The bodies of the creates of a secret that were answered with success. -/
def creates (target : String × String) (events : List (Event π Request (Answer Secret))) :
    List SecretBody :=
  events.filterMap fun
    | .call _ (.create body) (.ok _) => if bodyKey body = target then some body else none
    | _ => none

/-- A run has asked for a create of `body`. Its first call was a read of its source secret, whose
answer tells the version that was there, and alone on this version it creates `body`. -/
def Wrote (jobs : π → Job) (stored : Stored) (events : List (Event π Request (Answer Secret)))
    (body : SecretBody) : Prop :=
  ∃ p before between read create version w,
    before ++ .call p (.read (jobs p).source) read :: between ++ [.call p (.create body) create] <+:
      events ∧
    movesOf p before = [] ∧ told read = some version ∧ ((jobs p).run version).created = [body] ∧
      Trace apiServer (start jobs stored) before w ∧ w.state (jobs p).source = version

section
open Library.Script

variable {α : Type} {result : Except PyError α × Globals} {next : α → Globals → JobClient}
  {moves : List (Request × Answer Secret)} {request asked : Request} {body : SecretBody}
  {k k' : Answer Secret → JobClient} {g g' : Globals} {answer : Answer Secret} {job : Job}
  {version : Option Secret} {loadKubeConfig loadInclusterConfig openDefaultConfig : Except PyError Unit}

theorem after_ok {a : α} (h : result = (.ok a, g)) : after result next = next a g := by
  rw [h, after]

/-- A client that makes a call has got through the script before it. -/
theorem leads_after (h : Leads (after result next) moves (.call request k)) :
    ∃ a g, result = (.ok a, g) ∧ Leads (next a g) moves (.call request k) := by
  obtain ⟨_ | a, g⟩ := result
  · cases h
  · exact ⟨a, g, rfl, h⟩

/-- A client that has come to another call has heard the answer to this one. -/
theorem leads_call (h : Leads (.call request k) moves (.call asked k')) (hne : request ≠ asked) :
    ∃ answer rest, moves = (request, answer) :: rest ∧ Leads (k answer) rest (.call asked k') := by
  cases h with
  | refl => exact (hne rfl).elim
  | step h => exact ⟨_, _, rfl, h⟩

/-- After its create a client makes no other. -/
theorem leads_create {β : Answer Secret → Except PyError Unit} {created : SecretBody}
    (h : Leads (.call (.create created) fun answer => .done (β answer)) moves (.call (.create body) k)) :
    created = body := by
  cases h with
  | refl => rfl
  | step h => cases h

/-- An answer that lets the job go on tells it which version there is. -/
theorem makeConfig_told {settings : DexSecret.Settings} {config : Dict}
    (h : DexSecret.makeConfig settings answer g = (.ok config, g')) :
    ∃ version, told answer = some version ∧
      DexSecret.makeConfig settings (found version) g = (.ok config, g') := by
  cases answer with
  | ok secret => exact ⟨some secret, rfl, h⟩
  | apiException status text =>
    by_cases hs : status = 404
    · subst hs
      exact ⟨none, rfl, h⟩
    · simp [DexSecret.makeConfig, DexSecret.configFromSecret, DexSecret.configWithoutSecret,
        Answer.call, catching, hs, bind_apply] at h

theorem minioBody_told {settings : MinioConfig.Settings}
    (h : minioBody settings openDefaultConfig answer g = (.ok body, g')) :
    ∃ version, told answer = some version ∧
      minioBody settings openDefaultConfig (found version) g = (.ok body, g') := by
  cases answer with
  | ok secret => exact ⟨some secret, rfl, h⟩
  | apiException status text =>
    by_cases hs : status = 404
    · subst hs
      exact ⟨none, rfl, h⟩
    · simp [minioBody, MinioConfig.externalData, MinioConfig.defaultData, Answer.call, catching, hs,
        bind_apply] at h

/-- What an answer tells is what is there. -/
theorem eq_of_told {stored : Option Secret} (h : Reads stored answer)
    (ht : told answer = some version) : stored = version := by
  cases answer with
  | ok secret =>
    cases ht
    exact h
  | apiException status text =>
    by_cases hs : status = 404
    · rw [told, if_pos hs] at ht
      cases ht
      exact h hs
    · rw [told, if_neg hs] at ht
      cases ht

theorem created_of_prepare {prepare : Py SecretBody} {create : Py Unit}
    (h : prepare {} = (.ok body, g)) (hcreate : create g = (.ok (), g')) :
    (Run.of prepare create).created = [body] := by
  simp [Run.of, h, hcreate]

/-- A dex run that asks for a create has read the auth secret, and on what the answer tells it creates
what it asks for. -/
theorem leads_dexClient {settings : DexSecret.Settings}
    (h : Leads (dexClient settings loadKubeConfig loadInclusterConfig) moves (.call (.create body) k)) :
    ∃ answer rest version, moves = (.read (authSecretKey settings), answer) :: rest ∧
      told answer = some version ∧
        ((Job.dex settings loadKubeConfig loadInclusterConfig).run version).created = [body] := by
  obtain ⟨_, g₁, hload, h₁⟩ := leads_after h
  obtain ⟨answer, rest, rfl, h₂⟩ := leads_call h₁ nofun
  obtain ⟨config, g₂, hmake, h₃⟩ := leads_after h₂
  obtain ⟨dexSecret, _, rfl, h₄⟩ := leads_call h₃ nofun
  obtain ⟨_, g₃, habsent, h₅⟩ := leads_after h₄
  obtain ⟨body', g₄, hbody, h₆⟩ := leads_after h₅
  obtain rfl := leads_create h₆
  obtain ⟨rfl, _⟩ := DexSecret.checkAbsent_ok habsent
  obtain ⟨version, htold, hversion⟩ := makeConfig_told hmake
  refine ⟨answer, _, version, rfl, htold, ?_⟩
  have hchecked : DexSecret.checkedConfig settings
      ⟨loadKubeConfig, loadInclusterConfig, found version, notFound, .ok ()⟩ {} = (.ok config, g₃) :=
    (bind_ok hload).trans (bind_ok hversion)
  have hprepare : DexSecret.prepare settings
      ⟨loadKubeConfig, loadInclusterConfig, found version, notFound, .ok ()⟩ {} = (.ok body', g₄) :=
    (bind_ok hchecked).trans hbody
  exact created_of_prepare hprepare rfl

/-- The same for a MinIO run. -/
theorem leads_minioClient {settings : MinioConfig.Settings}
    (h : Leads (minioClient settings loadKubeConfig loadInclusterConfig openDefaultConfig) moves
      (.call (.create body) k)) :
    ∃ answer rest version, moves = (.read (minioSecretKey settings), answer) :: rest ∧
      told answer = some version ∧
        ((Job.minio settings loadKubeConfig loadInclusterConfig openDefaultConfig).run
          version).created = [body] := by
  obtain ⟨_, g₁, hload, h₁⟩ := leads_after h
  obtain ⟨answer, rest, rfl, h₂⟩ := leads_call h₁ nofun
  obtain ⟨body', g₂, hbody, h₃⟩ := leads_after h₂
  obtain rfl := leads_create h₃
  obtain ⟨version, htold, hversion⟩ := minioBody_told hbody
  refine ⟨answer, _, version, rfl, htold, ?_⟩
  have hprepare : MinioConfig.prepare settings
      ⟨loadKubeConfig, loadInclusterConfig, found version, openDefaultConfig, .ok ()⟩ {} =
        (.ok body', g₂) :=
    (bind_ok hload).trans hversion
  exact created_of_prepare hprepare rfl

/-- Before a run asks for a create it has read its source secret once, at its first call, and what it
asks for is what it creates on the version that it was told. -/
theorem leads_client (h : Leads job.client moves (.call (.create body) k)) :
    ∃ answer rest version, moves = (.read job.source, answer) :: rest ∧
      told answer = some version ∧ (job.run version).created = [body] := by
  cases job with
  | dex => exact leads_dexClient h
  | minio => exact leads_minioClient h

end

section
variable {jobs : π → Job} {stored stored' : Stored} {events : List (Event π Request (Answer Secret))}
  {e : Event π Request (Answer Secret)} {target : String × String} {secret : Secret}
  {request : Request} {answer : Answer Secret} {body : SecretBody}
  {w w' : World π Stored Request (Answer Secret) (Except PyError Unit)}

theorem written_cases (habsent : stored (bodyKey body) = none) (key : String × String) :
    Function.update stored (bodyKey body) (some (created body)) key = stored key ∨
      ∃ body', Request.create body = .create body' ∧ bodyKey body' = key ∧ stored key = none ∧
        Function.update stored (bodyKey body) (some (created body)) key = some (created body') := by
  by_cases hkey : key = bodyKey body
  · subst hkey
    exact Or.inr ⟨body, rfl, rfl, habsent, Function.update_self ..⟩
  · exact Or.inl (Function.update_of_ne hkey ..)

/-- What a step can do to a secret: nothing, or it writes one that was not there. -/
theorem serves_cases (h : Serves stored request answer stored') (key : String × String) :
    stored' key = stored key ∨ ∃ body, request = .create body ∧ bodyKey body = key ∧
      stored key = none ∧ stored' key = some (created body) := by
  cases h with
  | read _ => exact Or.inl rfl
  | refused => exact Or.inl rfl
  | created habsent => exact written_cases habsent key
  | lost habsent => exact written_cases habsent key

theorem step_cases (h : Step apiServer w e w') (ht : target ∈ targets) :
    w'.state target = w.state target ∨ ∃ p body answer next, e = .call p (.create body) answer ∧
      w.clients p = .call (.create body) next ∧ bodyKey body = target ∧ w.state target = none ∧
        w'.state target = some (created body) := by
  cases h with
  | outside h => exact Or.inl (h target ht)
  | @call p request answer next state hp hs =>
    rcases serves_cases hs target with hsame | ⟨body, rfl, hkey, habsent, hnew⟩
    · exact Or.inl hsame
    · exact Or.inr ⟨p, body, answer, next, rfl, hp, hkey, habsent, hnew⟩

theorem step_frozen (h : Step apiServer w e w') (ht : target ∈ targets)
    (hs : w.state target = some secret) : w'.state target = some secret := by
  rcases step_cases h ht with hsame | ⟨_, _, _, _, _, _, _, habsent, _⟩
  · exact hsame.trans hs
  · rw [habsent] at hs
    cases hs

theorem trace_frozen (h : Trace apiServer w events w') (ht : target ∈ targets)
    (hs : w.state target = some secret) : w'.state target = some secret :=
  h.invariant (fun _ _ _ hstep hs => step_frozen hstep ht hs) hs

/-- A create that is answered with success was the first. -/
theorem step_creates (h : Step apiServer w e w') : creates target [e] = [] ∨
    ∃ body, creates target [e] = [body] ∧ w.state target = none ∧
      w'.state target = some (created body) := by
  cases h with
  | outside h => exact Or.inl rfl
  | @call p request answer next state hp hs =>
    cases hs with
    | read _ => exact Or.inl rfl
    | refused => exact Or.inl rfl
    | lost _ => exact Or.inl rfl
    | @created body habsent =>
      by_cases hkey : bodyKey body = target
      · subst hkey
        exact Or.inr ⟨body, by simp [creates], habsent, Function.update_self ..⟩
      · exact Or.inl (by simp [creates, hkey])

omit [DecidableEq π] in
theorem creates_append {more : List (Event π Request (Answer Secret))} :
    creates target (events ++ more) = creates target events ++ creates target more :=
  List.filterMap_append

/-- The first create leaves the secret there, and no other succeeds after it. -/
theorem trace_creates (h : Trace apiServer w events w') (ht : target ∈ targets) :
    creates target events = [] ∨
      ∃ body, creates target events = [body] ∧ w'.state target = some (created body) := by
  induction h with
  | nil => exact Or.inl rfl
  | @snoc events e w₁ w₂ _ hstep ih =>
    rw [creates_append]
    rcases ih with hnone | ⟨body, hone, hstored⟩
    · rw [hnone, List.nil_append]
      rcases step_creates hstep with hnone | ⟨body, hone, _, hstored⟩
      · exact Or.inl hnone
      · exact Or.inr ⟨body, hone, hstored⟩
    · right
      refine ⟨body, ?_, step_frozen hstep ht hstored⟩
      rcases step_creates hstep with hnone | ⟨_, _, habsent, _⟩
      · rw [hone, hnone, List.append_nil]
      · rw [hstored] at habsent
        cases habsent

theorem Wrote.snoc (h : Wrote jobs stored events body) : Wrote jobs stored (events ++ [e]) body := by
  obtain ⟨p, before, between, read, create, version, w, hstart, hrest⟩ := h
  exact ⟨p, before, between, read, create, version, w, hstart.trans (List.prefix_append _ _), hrest⟩

/-- A run that asks for a create has computed the body from the version it read. -/
theorem wrote_of_call (h : Trace apiServer (start jobs stored) events w) {p : π}
    {next : Answer Secret → JobClient} (hp : w.clients p = .call (.create body) next) :
    Wrote jobs stored (events ++ [.call p (.create body) answer]) body := by
  have hleads := h.leads p
  rw [hp] at hleads
  obtain ⟨read, rest, version, hmoves, htold, hbody⟩ := leads_client hleads
  obtain ⟨before, between, rfl, hfirst, _⟩ := exists_first_move hmoves
  obtain ⟨w₁, w₂, hbefore, hread, _⟩ := h.split
  refine ⟨p, before, between, read, answer, version, w₁, List.prefix_refl _, hfirst, htold, hbody,
    hbefore, ?_⟩
  cases hread with
  | call _ hs =>
    cases hs with
    | read hr => exact eq_of_told hr htold

/-- Where the secrets that the jobs create come from. -/
theorem trace_origin (h : Trace apiServer (start jobs stored) events w) (ht : target ∈ targets)
    (hs : w.state target = some secret) : stored target = some secret ∨
      ∃ body, bodyKey body = target ∧ secret = created body ∧ Wrote jobs stored events body := by
  induction h with
  | nil => exact Or.inl hs
  | @snoc events e w w' h hstep ih =>
    rcases step_cases hstep ht with hsame | ⟨p, body, _, _, rfl, hp, hkey, _, hnew⟩
    · rw [hsame] at hs
      rcases ih hs with hinit | ⟨body, hkey, hbody, hwrote⟩
      · exact Or.inl hinit
      · exact Or.inr ⟨body, hkey, hbody, hwrote.snoc⟩
    · rw [hnew] at hs
      cases hs
      exact Or.inr ⟨body, hkey, rfl, wrote_of_call h hp⟩

/-- Whatever runs there are and however their calls interleave with outside changes: a secret that
the jobs create is not modified once it is there, at most one create of it succeeds, and it holds
the whole output of one run on the version of the source secret that this run was told at its read. -/
theorem written_once (jobs : π → Job) (stored : Stored) (ht : target ∈ targets)
    (h : Trace apiServer (start jobs stored) events w) :
    (∀ before after w₁ secret, events = before ++ after → Trace apiServer (start jobs stored) before w₁ →
      Trace apiServer w₁ after w → w₁.state target = some secret → w.state target = some secret) ∧
    (creates target events).length ≤ 1 ∧
    ∀ secret, w.state target = some secret → stored target = some secret ∨
      ∃ body, bodyKey body = target ∧ secret = created body ∧ Wrote jobs stored events body := by
  refine ⟨fun _ _ _ _ _ _ hafter hs => trace_frozen hafter ht hs, ?_, fun _ hs => trace_origin h ht hs⟩
  rcases trace_creates h ht with hnone | ⟨body, hone, _⟩
  · simp [hnone]
  · simp [hone]

end

/-- Two MinIO runs, and an external secret whose key changes between their reads. -/
def overlappingJobs (_ : Bool) : Job := .minio ⟨none, none⟩ (.ok ()) (.ok ()) (.ok ())

def externalData (secretkey : String) : List (String × String) :=
  [("host", "bWluaW8="), ("port", "OTAwMA=="), ("secure", "ZmFsc2U="), ("accesskey", "YWJj"),
    ("secretkey", secretkey)]

def externalStored (secretkey : String) : Stored := fun key =>
  if key = minioSecretKey ⟨none, none⟩ then some ⟨some (externalData secretkey)⟩ else none

def externalBody (secretkey : String) : SecretBody :=
  MinioConfig.minioParams (externalData secretkey)

/-- Both runs have read when the first of them creates the parameters. -/
def overlappingEvents : List (Event Bool Request (Answer Secret)) :=
  [.call true (.read (minioSecretKey ⟨none, none⟩)) (.ok ⟨some (externalData "eHl6")⟩), .outside,
    .call false (.read (minioSecretKey ⟨none, none⟩)) (.ok ⟨some (externalData "YWJj")⟩),
    .call true (.create (externalBody "eHl6")) (.ok (created (externalBody "eHl6"))),
    .call false (.create (externalBody "YWJj")) (.apiException 409 "AlreadyExists")]

/-- The client of a run that has read the external secret. -/
theorem minioClient_read {g : Globals} {next : Answer Secret → JobClient} {secretkey : String}
    (hclient : minioClient ⟨none, none⟩ (.ok ()) (.ok ()) (.ok ()) =
      .call (.read (minioSecretKey ⟨none, none⟩)) next)
    (hbody : minioBody ⟨none, none⟩ (.ok ()) (.ok ⟨some (externalData secretkey)⟩) {} =
      (.ok (externalBody secretkey), g)) :
    ∃ next', next (.ok ⟨some (externalData secretkey)⟩) =
      .call (.create (externalBody secretkey)) next' := by
  cases hclient
  exact ⟨_, after_ok hbody⟩

theorem trace_overlapping : ∃ w,
    Trace apiServer (start overlappingJobs (externalStored "eHl6")) overlappingEvents w ∧
      w.state minioParamsKey = some (created (externalBody "eHl6")) := by
  obtain ⟨next, hnext⟩ : ∃ next, minioClient ⟨none, none⟩ (.ok ()) (.ok ()) (.ok ()) =
      .call (.read (minioSecretKey ⟨none, none⟩)) next := ⟨_, rfl⟩
  obtain ⟨next₁, hnext₁⟩ : ∃ next₁, next (.ok ⟨some (externalData "eHl6")⟩) =
      .call (.create (externalBody "eHl6")) next₁ := minioClient_read hnext rfl
  obtain ⟨next₂, hnext₂⟩ : ∃ next₂, next (.ok ⟨some (externalData "YWJj")⟩) =
      .call (.create (externalBody "YWJj")) next₂ := minioClient_read hnext rfl
  have hserve (secretkey : String) : Serves (externalStored secretkey)
      (.read (minioSecretKey ⟨none, none⟩)) (.ok ⟨some (externalData secretkey)⟩)
      (externalStored secretkey) := .read (if_pos rfl)
  have hchange : ∀ target ∈ targets, externalStored "YWJj" target = externalStored "eHl6" target := by
    decide
  have hrefused (stored : Stored) : Serves stored (.create (externalBody "YWJj"))
      (.apiException 409 "AlreadyExists") stored := .refused
  have hread₁ : Trace apiServer (start overlappingJobs (externalStored "eHl6")) _ _ :=
    .snoc .nil (.call (p := true) hnext (hserve "eHl6"))
  have hread₂ := (hread₁.snoc (.outside hchange)).snoc (.call (p := false) hnext (hserve "YWJj"))
  have hcreate₁ := hread₂.snoc (.call (p := true) hnext₁ (Serves.created rfl))
  have hcreate₂ := hcreate₁.snoc (.call (p := false) hnext₂ (hrefused _))
  exact ⟨_, hcreate₂, rfl⟩

theorem written_once_overlapping : ∃ w,
    Trace apiServer (start overlappingJobs (externalStored "eHl6")) overlappingEvents w ∧
      (creates minioParamsKey overlappingEvents).length ≤ 1 ∧
        ∃ body, created (externalBody "eHl6") = created body ∧
          Wrote overlappingJobs (externalStored "eHl6") overlappingEvents body := by
  have hparams : minioParamsKey ∈ targets := by decide
  obtain ⟨w, hw, hstored⟩ := trace_overlapping
  obtain ⟨_, hone, horigin⟩ :=
    written_once overlappingJobs (externalStored "eHl6") hparams hw
  rcases horigin _ hstored with hinit | ⟨body, _, hbody, hwrote⟩
  · cases hinit
  · exact ⟨w, hw, hone, body, hbody, hwrote⟩

end Manifests.Bootstrap
