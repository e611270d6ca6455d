import Manifests.Library.Guarded
import Manifests.Lifecycle

/-! `gcp-workload-identity-setup.sh`, command by command: it makes two service accounts of a project and
binds service accounts of a namespace to them. -/
namespace Manifests.WorkloadIdentity
open Library Library.Clients

/-- The shell takes the character for itself when it expands a variable without quotes: it neither ends a
word nor matches the names of files. -/
def isPlain (c : Char) : Bool := c ∉ [' ', '\t', '\n', '*', '?', '[', '\\']

/-- The variables of the script. It expands most of them without quotes, and so their values are taken to
be plain. -/
structure Environ where
  texts : Lifecycle.Environ
  plain : ∀ name ∈ ["NAMESPACE", "SYSTEM_GSA", "USER_GSA", "PROJECT_ID", "RESOURCE_PREFIX",
    "USE_GCP_MANAGED_STORAGE"], ∀ c ∈ (Lifecycle.value texts name).toList, isPlain c = true

/-- `${X}`, and `${X:-default}` where there is a default. -/
def value (environ : Environ) (name : String) : String := Lifecycle.value environ.texts name

def valueOr (environ : Environ) (name default : String) : String :=
  Lifecycle.valueOr environ.texts name default

/-- A service account of a project. -/
structure Account where
  project : String
  name : String
  deriving Repr, DecidableEq

def Account.email (account : Account) : String :=
  account.name ++ "@" ++ account.project ++ ".iam.gserviceaccount.com"

inductive Request where
  | listAccounts (pattern : String)
  | createAccount (name : String)
  | addMember (account : Account) (member : String)
  | getServiceAccount (key : String × String)
  | createServiceAccount (key : String × String)
  | annotate (key : String × String) (gsa : String)

/-- The project that `gcloud` works in, the accounts that `--filter=name:X` leaves, and which commands
are accepted: a name may be too long or ill-formed, and the caller may lack a right. An account is found
by its own name, and the caller may list and get. -/
structure Gcloud where
  project : String
  filter : String → Account → Bool
  own : ∀ project name, filter name ⟨project, name⟩ = true
  accepts : Request → Bool
  lists : ∀ pattern, accepts (.listAccounts pattern) = true
  gets : ∀ key, accepts (.getServiceAccount key) = true

/-- What the commands of the script see. A member has the role of a workload identity user of the
account, and a service account of a namespace may be annotated with one. -/
@[ext] structure Cloud where
  accounts : Finset Account
  members : Finset (Account × String)
  namespaces : Finset String
  serviceAccounts : String × String → Option (Option String)

namespace Cloud

def withAccount (cloud : Cloud) (account : Account) : Cloud :=
  { cloud with accounts := insert account cloud.accounts }

def withMember (cloud : Cloud) (account : Account) (member : String) : Cloud :=
  { cloud with members := insert (account, member) cloud.members }

def withServiceAccount (cloud : Cloud) (key : String × String) (annotated : Option String) : Cloud :=
  { cloud with serviceAccounts := Function.update cloud.serviceAccounts key (some annotated) }

variable {cloud : Cloud} {key other : String × String} {annotated : Option String}

@[simp] theorem serviceAccounts_self :
    (cloud.withServiceAccount key annotated).serviceAccounts key = some annotated :=
  Function.update_self _ _ _

theorem serviceAccounts_other (h : other ≠ key) :
    (cloud.withServiceAccount key annotated).serviceAccounts other = cloud.serviceAccounts other :=
  Function.update_of_ne h _ _

end Cloud

/-- What a command prints when it succeeds. Only the list of the accounts is looked at. -/
abbrev Answer := Option (Finset Account)

def listed (gcloud : Gcloud) (cloud : Cloud) (pattern : String) : Finset Account :=
  cloud.accounts.filter fun account =>
    account.project = gcloud.project ∧ gcloud.filter pattern account = true

/-- What a command that is accepted answers and does. -/
def perform (gcloud : Gcloud) (cloud : Cloud) : Request → Answer × Cloud
  | .listAccounts pattern => (some (listed gcloud cloud pattern), cloud)
  | .createAccount name =>
    if ⟨gcloud.project, name⟩ ∈ cloud.accounts then (none, cloud)
    else (some ∅, cloud.withAccount ⟨gcloud.project, name⟩)
  | .addMember account member =>
    if account ∈ cloud.accounts then (some ∅, cloud.withMember account member) else (none, cloud)
  | .getServiceAccount key => (if cloud.serviceAccounts key = none then none else some ∅, cloud)
  | .createServiceAccount key =>
    if key.1 ∈ cloud.namespaces ∧ cloud.serviceAccounts key = none then
      (some ∅, cloud.withServiceAccount key none)
    else (none, cloud)
  | .annotate key gsa =>
    if cloud.serviceAccounts key = none then (none, cloud)
    else (some ∅, cloud.withServiceAccount key (some gsa))

def respond (gcloud : Gcloud) (cloud : Cloud) (request : Request) : Answer × Cloud :=
  if gcloud.accepts request then perform gcloud cloud request else (none, cloud)

section
variable {gcloud : Gcloud} (cloud : Cloud) {request : Request}

theorem respond_accepted (h : gcloud.accepts request = true) :
    respond gcloud cloud request = perform gcloud cloud request := if_pos h

theorem respond_refused (h : ¬ gcloud.accepts request = true) :
    respond gcloud cloud request = (none, cloud) := if_neg h

@[simp] theorem respond_list (pattern : String) : respond gcloud cloud (.listAccounts pattern) =
    (some (listed gcloud cloud pattern), cloud) :=
  respond_accepted cloud (gcloud.lists pattern)

@[simp] theorem respond_get (key : String × String) : respond gcloud cloud (.getServiceAccount key) =
    (if cloud.serviceAccounts key = none then none else some ∅, cloud) :=
  respond_accepted cloud (gcloud.gets key)

end

/-- A command may fail at any point, and its success may be lost. -/
inductive Serves (gcloud : Gcloud) (cloud : Cloud) (request : Request) : Answer → Cloud → Prop where
  | fails : Serves gcloud cloud request none cloud
  | lost : Serves gcloud cloud request none (respond gcloud cloud request).2
  | served : Serves gcloud cloud request (respond gcloud cloud request).1
      (respond gcloud cloud request).2

def server (gcloud : Gcloud) : Server Cloud Request Answer where
  serve := Serves gcloud
  outside cloud cloud' := cloud' = cloud

abbrev Script := Client Request Answer Nat

/-- A command under `set -e`. -/
def check (request : Request) (next : Script) : Script :=
  .call request fun
    | some _ => next
    | none => .done 1

def kfpNamespace (environ : Environ) : String := valueOr environ "NAMESPACE" "kubeflow"

def systemGsa (environ : Environ) : String :=
  valueOr environ "SYSTEM_GSA" (value environ "RESOURCE_PREFIX" ++ "-kfp-system")

def userGsa (environ : Environ) : String :=
  valueOr environ "USER_GSA" (value environ "RESOURCE_PREFIX" ++ "-kfp-user")

/-- `[ -n $X ]` without quotes, for the word of a plain value. Without a word it tests `-n`, which is a
text like any other. -/
def isNonempty : Option String → Bool
  | none => "-n" ≠ ""
  | some word => word ≠ ""

/-- The word of a plain value, if there is one. -/
def wordOf (text : String) : Option String := if text = "" then none else some text

def systemKsa (environ : Environ) : List String :=
  ["ml-pipeline-ui", "ml-pipeline-visualizationserver"] ++
    if isNonempty (wordOf (value environ "USE_GCP_MANAGED_STORAGE")) then
      ["kubeflow-pipelines-minio-gcs-gateway", "kubeflow-pipelines-cloudsql-proxy"]
    else []

def userKsa : List String :=
  ["pipeline-runner", "kubeflow-pipelines-container-builder", "kubeflow-pipelines-viewer"]

/-- The status of the list is lost in `local`, so that an empty output may also be a failure. -/
def createGsaIfNotPresent (name : String) (next : Script) : Script :=
  .call (.listAccounts name) fun alreadyPresent =>
    if (alreadyPresent.getD ∅).Nonempty then next else check (.createAccount name) next

def createKsaIfNotPresent (key : String × String) (next : Script) : Script :=
  .call (.getServiceAccount key) fun
    | some _ => next
    | none => check (.createServiceAccount key) next

/-- The account that is bound to, which is in `$PROJECT_ID`. -/
def gsaFull (environ : Environ) (gsa : String) : Account := ⟨value environ "PROJECT_ID", gsa⟩

def member (environ : Environ) (ksa : String) : String :=
  "serviceAccount:" ++ value environ "PROJECT_ID" ++ ".svc.id.goog[" ++ kfpNamespace environ ++ "/" ++
    ksa ++ "]"

def bindGsaAndKsa (environ : Environ) (gsa ksa : String) (next : Script) : Script :=
  check (.addMember (gsaFull environ gsa) (member environ ksa))
    (createKsaIfNotPresent (kfpNamespace environ, ksa)
      (check (.annotate (kfpNamespace environ, ksa) (gsaFull environ gsa).email) next))

/-- `for ksa in ...` -/
def bindEach (environ : Environ) (gsa : String) (ksas : List String) (next : Script) : Script :=
  ksas.foldr (bindGsaAndKsa environ gsa) next

/-- What the script does after the question. -/
def bindings (environ : Environ) : Script :=
  createGsaIfNotPresent (systemGsa environ) (createGsaIfNotPresent (userGsa environ)
    (bindEach environ (systemGsa environ) (systemKsa environ)
      (bindEach environ (userGsa environ) userKsa (.done 0))))

/-- `read -n 1`, which fails at the end of the input. -/
def readReply : List Char → Option (List Char)
  | [] => none
  | '\n' :: _ => some []
  | c :: _ => some [c]

/-- The script, with what is typed. -/
def setup (environ : Environ) (typed : List Char) : Script :=
  if value environ "PROJECT_ID" = "" then .done 1
  else if value environ "RESOURCE_PREFIX" = "" then .done 1
  else
    match readReply typed with
    | none => .done 1
    | some reply => if reply = ['Y'] ∨ reply = ['y'] then bindings environ else .done 0

/-- The run gets to the commands. -/
def Confirmed (environ : Environ) (typed : List Char) : Prop :=
  value environ "PROJECT_ID" ≠ "" ∧ value environ "RESOURCE_PREFIX" ≠ "" ∧
    (readReply typed = some ['Y'] ∨ readReply typed = some ['y'])

/-- The service accounts of the project with those of the namespace that are bound to them. -/
def targets (environ : Environ) : List (String × String) :=
  (systemKsa environ).map (systemGsa environ, ·) ++ userKsa.map (userGsa environ, ·)

/-- What is set up for one of them. -/
structure Bound (environ : Environ) (t : String × String) (cloud : Cloud) : Prop where
  member : (gsaFull environ t.1, member environ t.2) ∈ cloud.members
  annotated : cloud.serviceAccounts (kfpNamespace environ, t.2) =
    some (some (gsaFull environ t.1).email)

variable {environ : Environ} {typed : List Char}

theorem setup_confirmed (h : Confirmed environ typed) : setup environ typed = bindings environ := by
  obtain ⟨hproject, hprefix, hreply⟩ := h
  rw [setup, if_neg hproject, if_neg hprefix]
  rcases hreply with hreply | hreply
  · rw [hreply]
    rfl
  · rw [hreply]
    rfl

/-- A run that does not get to the commands does nothing. -/
theorem setup_not_confirmed (h : ¬ Confirmed environ typed) :
    ∃ status, setup environ typed = .done status := by
  unfold setup
  split
  · exact ⟨1, rfl⟩
  next hproject =>
  split
  · exact ⟨1, rfl⟩
  next hprefix =>
  split
  · exact ⟨1, rfl⟩
  next reply hreply =>
  refine ⟨0, if_neg fun hyes => h ⟨hproject, hprefix, ?_⟩⟩
  rw [hreply]
  exact hyes.imp (congrArg some) (congrArg some)

/-- The two loops are one over all pairs. -/
theorem bindEach_targets : bindEach environ (systemGsa environ) (systemKsa environ)
      (bindEach environ (userGsa environ) userKsa (.done 0)) =
    (targets environ).foldr (fun t => bindGsaAndKsa environ t.1 t.2) (.done 0) := by
  rw [targets, List.foldr_append, List.foldr_map, List.foldr_map]
  rfl

theorem map_snd_targets : (targets environ).map Prod.snd = systemKsa environ ++ userKsa := by
  simp [targets, Function.comp_def]

/-- No service account of the namespace is bound twice. -/
theorem nodup_ksas : ((targets environ).map Prod.snd).Nodup := by
  rw [map_snd_targets, systemKsa]
  split <;> simp [userKsa]

theorem target_unique {t t' : String × String} (ht : t ∈ targets environ) (ht' : t' ∈ targets environ)
    (h : t.2 = t'.2) : t = t' :=
  List.inj_on_of_nodup_map nodup_ksas ht ht' h

end Manifests.WorkloadIdentity
