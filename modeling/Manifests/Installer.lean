import Manifests.Library.Shell

/-! The installer script: its deploy functions, and `install`, which leaves a stage when the
stage's function returns zero. -/
namespace Manifests.Installer
open Library

/-- The commands of the deploy functions. The paths are those below the manifests directory. -/
inductive Command where
  /-- `./kustomize build path | kubectl apply -f -`. -/
  | apply (path : String)
  /-- The same once more, after `||`. -/
  | reapply (path : String)
  /-- `kubectl wait --for condition=established --timeout=60s resource`. -/
  | waitEstablished (resource : String)
  deriving Repr, DecidableEq

open Command

/-- The component that a command applies. -/
def Command.component : Command → Option String
  | .apply path => some path
  | .reapply path => some path
  | .waitEstablished _ => none

/-- The two flags, which `test_env_vars` has found to be `true` or `false`. -/
structure Settings where
  disableIstio : Bool
  disableNotebookserversLink : Bool
  deriving Repr, DecidableEq

/-- What `kubectl get secret --ignore-not-found` finds. -/
inductive SecretProbe where
  | found
  | notFound
  | error
  deriving Repr, DecidableEq

/-- The printed status of `grep .`, which sees a line for a secret that is there and none
otherwise; the status of `kubectl` is lost in the pipe. -/
def minioNeedsToBeInstalled : SecretProbe → Nat
  | .found => 0
  | .notFound => 1
  | .error => 1

/-- `[ $SHOULD_INSTALL_MINIO -ne "0" ]`. -/
def shouldInstallMinio (probe : SecretProbe) : Bool := minioNeedsToBeInstalled probe ≠ 0

def certManagerCommands : List Command :=
  [apply "common/cert-manager/cert-manager-kube-system-resources/base",
    apply "common/cert-manager/cert-manager-crds/base",
    apply "common/cert-manager/cert-manager/overlays/self-signed"]

def istioCommands : List Command :=
  [apply "common/istio-1-9-0/istio-crds/base", apply "common/istio-1-9-0/istio-namespace/base",
    apply "common/istio-1-9-0/istio-install/base"]

def authservicesCommands : List Command :=
  [apply "common/oidc-authservice/base", apply "common/dex/overlays/istio"]

def knativeServing : String := "common/knative/knative-serving/overlays/proxy"

def knativeRest : List Command :=
  [apply "common/knative/knative-eventing/overlays/image-pull-secret",
    apply "bootstrap/components/image-pull-secret/knative-eventing"]

def clusterLocalGatewayCommands : List Command := [apply "common/istio-1-9-0/cluster-local-gateway/base"]

/-- The first chain of `deploy_kf_services`, up to the `if`. -/
def kfBase : List Command :=
  [apply "common/kubeflow-namespace/base", apply "bootstrap/components/image-pull-secret/kubeflow",
    apply "common/kubeflow-roles/base", apply "common/istio-1-9-0/kubeflow-istio-resources/base",
    apply "apps/pipeline/upstream/cluster-scoped-resources",
    waitEstablished "crd/applications.app.k8s.io",
    apply "apps/pipeline/upstream/overlays/image-pull-secret"]

def minio : List Command :=
  [apply "apps/pipeline/upstream/third-party/minio/overlays/ldap",
    apply "apps/pipeline/upstream/third-party/minio/options/istio",
    apply "apps/pipeline/upstream/third-party/minio-console/base"]

def kfServing : List Command :=
  [apply "apps/kfserving/upstream/overlays/kubeflow",
    apply "apps/katib/upstream/installs/katib-with-kubeflow"]

def centralDashboard (settings : Settings) : Command :=
  if settings.disableNotebookserversLink then
    apply "apps/centraldashboard/upstream/overlays/disableNotebookServers"
  else apply "apps/centraldashboard/upstream/overlays/istio"

/-- The last chain of `deploy_kf_services`. -/
def kfApps : List Command :=
  [apply "apps/admission-webhook/upstream/overlays/cert-manager",
    apply "apps/jupyter/jupyter-web-app/upstream/overlays/istio",
    apply "apps/jupyter/notebook-controller/upstream/overlays/kubeflow",
    apply "apps/profiles/upstream/overlays/kubeflow",
    apply "apps/volumes-web-app/upstream/overlays/istio",
    apply "apps/tensorboard/tensorboard-controller/upstream/overlays/kubeflow",
    apply "apps/tensorboard/tensorboards-web-app/upstream/overlays/istio",
    apply "apps/tf-training/upstream/overlays/kubeflow",
    apply "apps/pytorch-job/upstream/overlays/kubeflow",
    apply "apps/mpi-job/upstream/overlays/kubeflow",
    apply "apps/mxnet-job/upstream/overlays/kubeflow",
    apply "apps/xgboost-job/upstream/overlays/kubeflow",
    apply "common/user-namespace/base", apply "contrib/application/application-crds/base",
    apply "contrib/seldon/seldon-core-operator/overlays/application"]

def deployCertManager : Sh Command := .chain certManagerCommands

def deployIstio : Sh Command := .chain istioCommands

def deployAuthservices : Sh Command := .chain authservicesCommands

/-- `a || a && b && c`, where `||` and `&&` bind alike. -/
def deployKnative : Sh Command :=
  ((Sh.run (apply knativeServing)).orElse (.run (reapply knativeServing))).andThen (.chain knativeRest)

def deployClusterLocalGateway : Sh Command := .chain clusterLocalGatewayCommands

/-- The `&&` that ends the first chain is followed by the `if`, so that the chain guards it. -/
def deployKfServices (settings : Settings) (probe : SecretProbe) : Sh Command :=
  ((Sh.chain kfBase).andThen (.ifThen (shouldInstallMinio probe) (.lines minio))).seq
    ((Sh.chain kfServing).seq ((Sh.run (centralDashboard settings)).seq (.chain kfApps)))

def deployPrism : Sh Command := .chain [apply "apps/prism/base"]

def enableKfDashboardUrlInTenantUi : Sh Command := .chain [apply "bootstrap/components/hpecpconfig-patch"]

/-- The places of `install`. -/
inductive Stage where
  | certManager
  | istio
  | authservices
  | knative
  | clusterLocalGateway
  | kfServices
  | prism
  | tenantUi
  | finished
  | aborted
  deriving Repr, DecidableEq

/-- What one attempt at a stage meets: which commands succeed, and when the external MinIO secret
is probed for and with what result. -/
structure Attempt where
  succeeds : Command → Bool
  moment : Nat
  probe : SecretProbe

/-- The function that a stage calls. -/
def Stage.body (settings : Settings) (probe : SecretProbe) : Stage → Sh Command
  | .certManager => deployCertManager
  | .istio => deployIstio
  | .authservices => deployAuthservices
  | .knative => deployKnative
  | .clusterLocalGateway => deployClusterLocalGateway
  | .kfServices => deployKfServices settings probe
  | .prism => deployPrism
  | .tenantUi => enableKfDashboardUrlInTenantUi
  | .finished => .skip
  | .aborted => .skip

def Stage.next (settings : Settings) : Stage → Stage
  | .certManager => if settings.disableIstio then .authservices else .istio
  | .istio => .authservices
  | .authservices => .knative
  | .knative => if settings.disableIstio then .kfServices else .clusterLocalGateway
  | .clusterLocalGateway => .kfServices
  | .kfServices => .prism
  | .prism => .tenantUi
  | .tenantUi => .finished
  | .finished => .finished
  | .aborted => .aborted

/-- A failed attempt is made again, except that `set -e` ends the script at `deploy_prism`. -/
def Stage.retry : Stage → Stage
  | .prism => .aborted
  | stage => stage

/-- The status of the function that a stage calls. -/
def Stage.status (settings : Settings) (stage : Stage) (attempt : Attempt) : Bool :=
  (stage.body settings attempt.probe attempt.succeeds).status

def Stage.step (settings : Settings) (stage : Stage) (attempt : Attempt) : Stage :=
  if stage.status settings attempt then stage.next settings else stage.retry

/-- The attempts of a run, each with the stage it is made at. -/
def trace (settings : Settings) : Stage → List Attempt → List (Stage × Attempt)
  | _, [] => []
  | stage, attempt :: rest => (stage, attempt) :: trace settings (stage.step settings attempt) rest

/-- Where a run has got to. -/
def reached (settings : Settings) : Stage → List Attempt → Stage
  | stage, [] => stage
  | stage, attempt :: rest => reached settings (stage.step settings attempt) rest

theorem mem_of_mem_trace {settings : Settings} {stage stage' : Stage} {attempt : Attempt}
    {attempts : List Attempt} (h : (stage', attempt) ∈ trace settings stage attempts) :
    attempt ∈ attempts := by
  induction attempts generalizing stage with
  | nil => cases h
  | cons a attempts ih =>
    obtain h | h := List.mem_cons.mp h
    · cases h
      exact List.mem_cons_self
    · exact List.mem_cons_of_mem _ (ih h)

end Manifests.Installer
