import Manifests.Library.Clients
import Manifests.TlsSecret
import Manifests.Uninstaller

/-! `install.sh` and `uninstall.sh`, run any number of times and at the same time, command by command.
The first makes the namespace of the jobs and fills it, and the other deletes it when the uninstaller
job is complete. -/
namespace Manifests.Lifecycle
open Library Library.Clients TlsSecret

/-- The environment of a script. -/
abbrev Environ := String → Option String

/-- `${X}`, and `${X:-default}` where there is a default. -/
def value (environ : Environ) (name : String) : String := (environ name).getD ""

def valueOr (environ : Environ) (name default : String) : String :=
  if value environ name = "" then default else value environ name

/-- `KF_JOBS_NS=${KF_JOBS_NS:-kubeflow-jobs}` -/
def kfJobsNs (environ : Environ) : String := valueOr environ "KF_JOBS_NS" "kubeflow-jobs"

/-- The namespace of `-n ${KF_JOBS_NS}`. A command fails when the value is not one word. -/
def jobsNs (environ : Environ) : Option String :=
  match shellWords (kfJobsNs environ) with
  | [ns] => some ns
  | _ => none

def envVars (environ : Environ) : EnvVars where
  kfJobsNs := kfJobsNs environ
  tlsSecretName := value environ "TLS_SECRET_NAME"
  tlsSecretNs := value environ "TLS_SECRET_NS"
  tlsKeyLocation := value environ "TLS_KEY_LOCATION"
  tlsCertLocation := value environ "TLS_CERT_LOCATION"

/-- A variable as kustomize sees it. The two with a default are exported only when they were set
before. -/
def exported (environ : Environ) : String → String
  | "HTTP_PROXY" => value environ "http_proxy"
  | "HTTPS_PROXY" => value environ "https_proxy"
  | "NO_PROXY" => value environ "no_proxy"
  | "USER_AIRGAP_REGISTRY" => (environ "USER_AIRGAP_REGISTRY").getD (value environ "AIRGAP_REGISTRY")
  | "KF_JOBS_NS" => if environ "KF_JOBS_NS" = none then "" else kfJobsNs environ
  | "MANIFESTS_LOCATION" =>
    if environ "MANIFESTS_LOCATION" = none then ""
    else valueOr environ "MANIFESTS_LOCATION" "file:///opt/hpe/static/manifests.tar.gz"
  | name => value environ name

abbrev Parameters := List (String × String)

/-- A `params.env`, whose lines are names only. -/
def parameters (environ : Environ) (names : List String) : Parameters :=
  names.map fun name => (name, exported environ name)

def installerParameters (environ : Environ) : Parameters :=
  parameters environ ["DISABLE_ISTIO", "DISABLE_NOTEBOOKSERVERS_LINK", "AIRGAP_REGISTRY",
    "USER_AIRGAP_REGISTRY", "KF_JOBS_NS", "MANIFESTS_LOCATION", "HTTP_PROXY", "HTTPS_PROXY", "NO_PROXY"]

def uninstallerParameters (environ : Environ) : Parameters :=
  parameters environ ["AIRGAP_REGISTRY", "KF_JOBS_NS", "MANIFESTS_LOCATION", "DISABLE_ISTIO",
    "HTTP_PROXY", "HTTPS_PROXY"]

/-- An object in the namespace of the jobs. What is copied from another namespace has the name that the
pipe gives it. -/
inductive ObjectId where
  | copied
  | named (kind name : String)
  deriving Repr, DecidableEq

/-- What an object is made from. -/
inductive Source where
  | piped (lines : List String)
  | files (key cert : List String)
  | built (parameters : Parameters)
  deriving Repr, DecidableEq

abbrev Manifest := ObjectId × Source

def certSecret : ObjectId := .named "Secret" internalTlsSecretName

def imagePullIds : List ObjectId :=
  [.named "ConfigMap" "ips-parameters", .named "Secret" "hpe-imagepull-secrets"]

/-- `components/image-pull-secret/jobs` -/
def imagePullSecret (environ : Environ) : List Manifest :=
  imagePullIds.map (·, .built (parameters environ ["KF_JOBS_NS"]))

def installerIds : List ObjectId :=
  [.named "ServiceAccount" "kf-installer", .named "ConfigMap" "kf-installer",
    .named "ConfigMap" "kf-installer-parameters", .named "Job" "kf-installer"]

/-- `components/installer`, as far as it is in the namespace. -/
def installer (environ : Environ) : List Manifest :=
  installerIds.map (·, .built (installerParameters environ))

/-- `components/uninstaller` without its job. -/
def uninstallerIds : List ObjectId :=
  [.named "ServiceAccount" "kf-uninstaller", .named "ConfigMap" "kf-uninstaller",
    .named "ConfigMap" "kf-uninstaller-parameters"]

/-- What the two scripts put in the namespace, apart from the job of the uninstaller. -/
def scriptIds : List ObjectId :=
  .copied :: certSecret :: imagePullIds ++ installerIds ++ uninstallerIds

/-- The value of `DISABLE_ISTIO` that the script of the job tests. -/
def disableIstio (parameters : Parameters) : Option Bool :=
  match parameters.lookup "DISABLE_ISTIO" with
  | some "true" => some true
  | some "false" | some "" => some false
  | _ => none

/-- A run of the script of the job that has exited with zero. -/
structure Finished (parameters : Parameters) where
  settings : Uninstaller.Settings
  goes : List Uninstaller.Go
  exit : (Uninstaller.uninstall settings goes).exit = some 0
  flag : ∀ flag, disableIstio parameters = some flag → settings.disableIstio = flag

/-- How far the uninstaller job is. -/
inductive Phase (parameters : Parameters) where
  | running
  | complete (run : Finished parameters)
  | failed

structure Job where
  parameters : Parameters
  phase : Phase parameters

structure Contents where
  objects : ObjectId → Option Source
  uninstaller : Option Job

def Contents.empty : Contents := ⟨fun _ => none, none⟩

/-- The namespaces that are there. -/
abbrev Cluster := String → Option Contents

/-- The commands of the scripts. -/
inductive Request where
  | createNs (ns : String)
  | getSecret (name ns : String)
  | createSecret (ns : String) (manifest : Manifest)
  | apply (ns : String) (manifests : List Manifest)
  | applyUninstaller (ns : String) (parameters : Parameters)
  | waitComplete (ns : String)
  | deleteUninstaller (ns : String)
  | deleteNs (ns : String)

/-- What a command prints when it succeeds. -/
abbrev Answer := Option (List String)

/-- The namespace that a command changes. -/
def Request.ns : Request → Option String
  | .getSecret .. => none
  | .createNs ns | .createSecret ns _ | .apply ns _ | .applyUninstaller ns _ | .waitComplete ns |
    .deleteUninstaller ns | .deleteNs ns => some ns

/-- Any of the manifests are applied. -/
def Put (manifests : List Manifest) (contents contents' : Contents) : Prop :=
  contents'.uninstaller = contents.uninstaller ∧ ∀ id, contents'.objects id = contents.objects id ∨
    ∃ source, (id, source) ∈ manifests ∧ contents'.objects id = some source

/-- A command may fail at any point, and its success may be lost. A job that is there is not changed. -/
inductive Serves (cluster : Cluster) : Request → Answer → Cluster → Prop where
  | fails {request : Request} : Serves cluster request none cluster
  | createNs {ns : String} {answer : Answer} (habsent : cluster ns = none) :
      Serves cluster (.createNs ns) answer (Function.update cluster ns (some .empty))
  | getSecret {name ns : String} {lines : List String} :
      Serves cluster (.getSecret name ns) (some lines) cluster
  | createSecret {ns : String} {manifest : Manifest} {answer : Answer} {contents contents' : Contents}
      (hns : cluster ns = some contents) (habsent : contents.objects manifest.1 = none)
      (hput : Put [manifest] contents contents')
      (hall : contents'.objects manifest.1 = some manifest.2) :
      Serves cluster (.createSecret ns manifest) answer (Function.update cluster ns (some contents'))
  | apply {ns : String} {manifests : List Manifest} {answer : Answer} {contents contents' : Contents}
      (hns : cluster ns = some contents) (hput : Put manifests contents contents')
      (hall : answer ≠ none → ∀ manifest ∈ manifests, contents'.objects manifest.1 = some manifest.2) :
      Serves cluster (.apply ns manifests) answer (Function.update cluster ns (some contents'))
  | applyUninstaller {ns : String} {parameters : Parameters} {answer : Answer}
      {contents contents' : Contents} (hns : cluster ns = some contents)
      (hobjects : ∀ id ∉ uninstallerIds, contents'.objects id = contents.objects id)
      (hjob : contents'.uninstaller = contents.uninstaller ∨
        contents.uninstaller = none ∧ contents'.uninstaller = some ⟨parameters, .running⟩)
      (hall : answer ≠ none → ∃ phase, contents'.uninstaller = some ⟨parameters, phase⟩) :
      Serves cluster (.applyUninstaller ns parameters) answer
        (Function.update cluster ns (some contents'))
  | waitComplete {ns : String} {contents : Contents} {parameters : Parameters}
      {run : Finished parameters} (hns : cluster ns = some contents)
      (hjob : contents.uninstaller = some ⟨parameters, .complete run⟩) :
      Serves cluster (.waitComplete ns) (some []) cluster
  | deleteUninstaller {ns : String} {answer : Answer} {contents contents' : Contents}
      (hns : cluster ns = some contents)
      (hobjects : ∀ id ∉ uninstallerIds, contents'.objects id = contents.objects id)
      (hjob : contents'.uninstaller = contents.uninstaller ∨ contents'.uninstaller = none) :
      Serves cluster (.deleteUninstaller ns) answer (Function.update cluster ns (some contents'))
  | deleteNs {ns : String} {answer : Answer} {contents : Contents} (hns : cluster ns = some contents) :
      Serves cluster (.deleteNs ns) answer (Function.update cluster ns none)

/-- What becomes of the uninstaller job without the scripts. -/
inductive Turns {parameters : Parameters} : Phase parameters → Phase parameters → Prop where
  | same {phase : Phase parameters} : Turns phase phase
  | complete (run : Finished parameters) : Turns .running (.complete run)
  | failed : Turns .running .failed

/-- What becomes of a namespace without the scripts. The uninstaller deletes the installer while it
runs. What is no object of the scripts may come and go: the installer applies jobs of its own with
`-n ${KF_JOBS_NS}`, and the cluster adds accounts, tokens and pods. -/
inductive Passes : Option Contents → Option Contents → Prop where
  | absent : Passes none none
  | idle {contents contents' : Contents} (hjob : contents.uninstaller = none)
      (hjob' : contents'.uninstaller = none)
      (hobjects : ∀ id ∈ scriptIds, contents'.objects id = contents.objects id) :
      Passes (some contents) (some contents')
  | job {contents contents' : Contents} {parameters : Parameters} {phase phase' : Phase parameters}
      (hjob : contents.uninstaller = some ⟨parameters, phase⟩) (hturns : Turns phase phase')
      (hjob' : contents'.uninstaller = some ⟨parameters, phase'⟩)
      (hobjects : ∀ id ∈ scriptIds, contents'.objects id = contents.objects id ∨
        phase = .running ∧ id ∈ installerIds ∧ contents'.objects id = none) :
      Passes (some contents) (some contents')

def apiServer : Server Cluster Request Answer where
  serve := Serves
  outside cluster cluster' := ∀ ns, Passes (cluster ns) (cluster' ns)

abbrev Script := Client Request Answer Nat

/-- A command under `set -e`. -/
def check (request : Request) (next : Script) : Script :=
  .call request fun
    | some _ => next
    | none => .done 1

/-- The last commands of `install.sh`. -/
def applyComponents (environ : Environ) (ns : String) : Script :=
  check (.apply ns (imagePullSecret environ)) (check (.apply ns (installer environ)) (.done 0))

/-- The copy of the secret, and what is behind it. The status of the pipe is that of its last
command, which gets no lines when `kubectl get` fails. -/
def copySecret (environ : Environ) (ns : String) : Script :=
  let env := envVars environ
  if env.tlsSecretName ≠ "" then
    .call (.getSecret env.tlsSecretName env.tlsSecretNs) fun answer =>
      check (.apply ns [(.copied, .piped (sed env.tlsSecretName (answer.getD [])))])
        (applyComponents environ ns)
  else if env.tlsKeyLocation ≠ "" then
    check (.createSecret ns (certSecret,
        .files (shellWords env.tlsKeyLocation) (shellWords env.tlsCertLocation)))
      (applyComponents environ ns)
  else applyComponents environ ns

/-- `install.sh` -/
def installScript (readable : String → Bool) (environ : Environ) : Script :=
  if testEnvVars readable (envVars environ) = true then
    match jobsNs environ with
    | some ns => check (.createNs ns) (copySecret environ ns)
    | none => .done 1
  else .done 1

/-- What is behind the wait: when the job is not complete in time, the script says so and ends with
zero. -/
def afterWait (ns : String) : Answer → Script
  | some _ => check (.deleteUninstaller ns) (check (.deleteNs ns) (.done 0))
  | none => .done 0

/-- `uninstall.sh` -/
def uninstallScript (environ : Environ) : Script :=
  match jobsNs environ with
  | some ns =>
    check (.applyUninstaller ns (uninstallerParameters environ)) (.call (.waitComplete ns) (afterWait ns))
  | none => .done 1

/-- A run of one of the scripts. -/
inductive Run where
  | install (readable : String → Bool) (environ : Environ)
  | uninstall (environ : Environ)

namespace Run

def script : Run → Script
  | install readable environ => installScript readable environ
  | uninstall environ => uninstallScript environ

def environ : Run → Environ
  | install _ environ | uninstall environ => environ

end Run

variable {π : Type} [DecidableEq π]

/-- The runs before their first command. -/
def start (runs : π → Run) (cluster : Cluster) : World π Cluster Request Answer Nat :=
  ⟨cluster, fun p => (runs p).script⟩

/-- What `kubectl get` has printed. -/
def heard : List (Request × Answer) → List String
  | [] => []
  | (.getSecret _ _, answer) :: _ => answer.getD []
  | _ :: moves => heard moves

/-- What a run of `install.sh` is to put in its namespace, with what it has heard. -/
def wanted (environ : Environ) (lines : List String) : List Manifest :=
  let env := envVars environ
  (if env.tlsSecretName ≠ "" then [(.copied, .piped (sed env.tlsSecretName lines))]
    else if env.tlsKeyLocation ≠ "" then
      [(certSecret, .files (shellWords env.tlsKeyLocation) (shellWords env.tlsCertLocation))]
    else []) ++ imagePullSecret environ ++ installer environ

/-- An environment without any of the variables. -/
def unset : Environ := fun _ => none

theorem jobsNs_unset : jobsNs unset = some "kubeflow-jobs" := by decide

theorem installScript_unset : installScript (fun _ => true) unset =
    check (.createNs "kubeflow-jobs") (applyComponents unset "kubeflow-jobs") := by
  have htest : testEnvVars (fun _ => true) (envVars unset) = true := by decide
  rw [installScript, if_pos htest, jobsNs_unset]
  rfl

end Manifests.Lifecycle
