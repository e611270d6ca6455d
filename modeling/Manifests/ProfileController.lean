import Manifests.Cluster

/-! The profile controller: the webhook that answers metacontroller with the desired children
of a namespace. -/
namespace Manifests.ProfileController
open Library

/-- The module's settings, as read from the environment at start. -/
structure Settings where
  kfpVersion : String
  disableIstioSidecar : Bool
  mlpipelineMinioAccessKey : String
  mlpipelineMinioSecretKey : String
  mlpipelineMinioHost : String
  mlpipelineMinioPort : String
  mlpipelineMinioSecure : String
  airgapRegistry : String
  deriving Repr, DecidableEq

/-- `os.environ[key]`. -/
def environ (env : String → Option String) (key : String) : Except PyError String :=
  match env key with
  | some v => .ok v
  | none => .error (.keyError key)

/-- `base64.b64encode(bytes(s, 'utf-8')).decode('utf-8')`. -/
def b64encodeUtf8 (s : String) : Except PyError String :=
  match Text.decodeUtf8 (Base64.encode (Text.encodeUtf8 s)) with
  | some t => .ok t
  | none => .error .unicodeError

/-- The encoding of `os.environ.get(key)`; `bytes` refuses a missing variable. -/
def environB64 (env : String → Option String) (key : String) : Except PyError String :=
  match env key with
  | some v => b64encodeUtf8 v
  | none => .error .typeError

def loadSettings (env : String → Option String) : Except PyError Settings := do
  let kfpVersion ← environ env "KFP_VERSION"
  let disableIstioSidecar := env "DISABLE_ISTIO_SIDECAR" = some "true"
  let mlpipelineMinioAccessKey ← environB64 env "MINIO_ACCESS_KEY"
  let mlpipelineMinioSecretKey ← environB64 env "MINIO_SECRET_KEY"
  let mlpipelineMinioHost ← environB64 env "MINIO_HOST"
  let mlpipelineMinioPort ← environB64 env "MINIO_PORT"
  let mlpipelineMinioSecure ← environB64 env "MINIO_SECURE"
  let airgapRegistry ← environ env "airgapRegistry"
  return { kfpVersion, disableIstioSidecar, mlpipelineMinioAccessKey, mlpipelineMinioSecretKey,
           mlpipelineMinioHost, mlpipelineMinioPort, mlpipelineMinioSecure, airgapRegistry }

/-- `v.get(key, default)` of a value that should be a dictionary. -/
def getOr (v : Value) (key : String) (default : Value) : Except PyError Value :=
  match v with
  | .dict d => .ok ((Dict.get d key).getD default)
  | _ => .error .attributeError

/-- The observed children: the objects of each kind, under `Kind.apiVersion`. -/
abbrev Children := List (String × List Value)

/-- `len(children[key]) == n`. -/
def countIs (children : Children) (key : String) (n : Nat) : Except PyError Bool :=
  match children.lookup key with
  | some objects => .ok (objects.length == n)
  | none => .error (.keyError key)

/-- The hand-written counts of `desired_status`, in the order of the conjunction. -/
def readyCounts : List (String × Nat) :=
  [("Secret.v1", 1), ("ConfigMap.v1", 1), ("Deployment.apps/v1", 2), ("Service.v1", 2),
    ("DestinationRule.networking.istio.io/v1alpha3", 1),
    ("AuthorizationPolicy.security.istio.io/v1beta1", 1)]

/-- The conjunction stops at the first count that differs. -/
def allCounts (children : Children) : List (String × Nat) → Except PyError Bool
  | [] => .ok true
  | (key, n) :: rest => do
    if ← countIs children key n then allCounts children rest else return false

/-- The annotations of both pod templates. -/
def sidecarAnnotations (settings : Settings) : Value :=
  if settings.disableIstioSidecar then .dict [("sidecar.istio.io/inject", .str "false")]
  else .dict []

def metadata (name : String) (ns : Value) : Value := .dict [("name", .str name), ("namespace", ns)]

def appLabels (app : String) : Value := .dict [("app", .str app)]

def metadataGrpcConfigmap (ns : Value) : Value :=
  .dict [("apiVersion", .str "v1"), ("kind", .str "ConfigMap"),
    ("metadata", metadata "metadata-grpc-configmap" ns),
    ("data", .dict [("METADATA_GRPC_SERVICE_HOST", .str "metadata-grpc-service.kubeflow"),
      ("METADATA_GRPC_SERVICE_PORT", .str "8080")])]

/-- The deployments of the visualization server and of the artifact fetcher differ in their
name, image, port and resources. -/
def deployment (settings : Settings) (ns : Value) (app image : String) (containerPort : Int)
    (requests limits : String × String) : Value :=
  .dict [("apiVersion", .str "apps/v1"), ("kind", .str "Deployment"),
    ("metadata", .dict [("labels", appLabels app), ("name", .str app), ("namespace", ns)]),
    ("spec", .dict [("selector", .dict [("matchLabels", appLabels app)]),
      ("template", .dict [
        ("metadata", .dict [("labels", appLabels app), ("annotations", sidecarAnnotations settings)]),
        ("spec", .dict [("containers", .list [.dict [
            ("image", .str (settings.airgapRegistry ++ image ++ settings.kfpVersion)),
            ("imagePullPolicy", .str "IfNotPresent"), ("name", .str app),
            ("ports", .list [.dict [("containerPort", .int containerPort)]]),
            ("resources", .dict [
              ("requests", .dict [("cpu", .str requests.1), ("memory", .str requests.2)]),
              ("limits", .dict [("cpu", .str limits.1), ("memory", .str limits.2)])])]]),
          ("serviceAccountName", .str "default-editor")])])])]

def visualizationDeployment (settings : Settings) (ns : Value) : Value :=
  deployment settings ns "ml-pipeline-visualizationserver"
    "gcr.io/ml-pipeline/visualization-server:" 8888 ("50m", "200Mi") ("500m", "1Gi")

def visualizationDestinationRule (ns : Value) : Value :=
  .dict [("apiVersion", .str "networking.istio.io/v1alpha3"), ("kind", .str "DestinationRule"),
    ("metadata", metadata "ml-pipeline-visualizationserver" ns),
    ("spec", .dict [("host", .str "ml-pipeline-visualizationserver"),
      ("trafficPolicy", .dict [("tls", .dict [("mode", .str "ISTIO_MUTUAL")])])])]

def visualizationAuthorizationPolicy (ns : Value) : Value :=
  .dict [("apiVersion", .str "security.istio.io/v1beta1"), ("kind", .str "AuthorizationPolicy"),
    ("metadata", metadata "ml-pipeline-visualizationserver" ns),
    ("spec", .dict [
      ("selector", .dict [("matchLabels", appLabels "ml-pipeline-visualizationserver")]),
      ("rules", .list [.dict [("from", .list [.dict [("source", .dict [
        ("principals", .list [.str "cluster.local/ns/kubeflow/sa/ml-pipeline"])])]])]])])]

def servicePort (port targetPort : Int) : Value :=
  .list [.dict [("name", .str "http"), ("port", .int port), ("protocol", .str "TCP"),
    ("targetPort", .int targetPort)]]

def visualizationService (ns : Value) : Value :=
  .dict [("apiVersion", .str "v1"), ("kind", .str "Service"),
    ("metadata", metadata "ml-pipeline-visualizationserver" ns),
    ("spec", .dict [("ports", servicePort 8888 8888),
      ("selector", appLabels "ml-pipeline-visualizationserver")])]

def artifactDeployment (settings : Settings) (ns : Value) : Value :=
  deployment settings ns "ml-pipeline-ui-artifact" "gcr.io/ml-pipeline/frontend:" 3000
    ("10m", "70Mi") ("100m", "500Mi")

def artifactService (ns : Value) : Value :=
  .dict [("apiVersion", .str "v1"), ("kind", .str "Service"),
    ("metadata", .dict [("name", .str "ml-pipeline-ui-artifact"), ("namespace", ns),
      ("labels", appLabels "ml-pipeline-ui-artifact")]),
    ("spec", .dict [("ports", servicePort 80 3000), ("selector", appLabels "ml-pipeline-ui-artifact")])]

/-- The keys of the namespace's MinIO secret. -/
def minioParamsData (settings : Settings) : Dict :=
  [("accesskey", .str settings.mlpipelineMinioAccessKey),
    ("secretkey", .str settings.mlpipelineMinioSecretKey),
    ("host", .str settings.mlpipelineMinioHost), ("port", .str settings.mlpipelineMinioPort),
    ("secure", .str settings.mlpipelineMinioSecure)]

def minioParams (settings : Settings) (ns : Value) : Value :=
  .dict [("apiVersion", .str "v1"), ("kind", .str "Secret"),
    ("metadata", metadata "minio-params" ns), ("data", .dict (minioParamsData settings))]

def workflowRole (ns : Value) : Value :=
  .dict [("apiVersion", .str "rbac.authorization.k8s.io/v1"), ("kind", .str "Role"),
    ("metadata", metadata "workflow-role" ns),
    ("rules", .list [.dict [("apiGroups", .list [.str ""]),
      ("resources", .list [.str "pods", .str "pods/log"]),
      ("verbs", .list [.str "get", .str "watch", .str "patch"])]])]

def workflowDefaultBinding (ns : Value) : Value :=
  .dict [("apiVersion", .str "rbac.authorization.k8s.io/v1"), ("kind", .str "RoleBinding"),
    ("metadata", metadata "workflow-default-binding" ns),
    ("roleRef", .dict [("apiGroup", .str "rbac.authorization.k8s.io"), ("kind", .str "Role"),
      ("name", .str "workflow-role")]),
    ("subjects", .list [.dict [("kind", .str "ServiceAccount"), ("name", .str "default"),
      ("namespace", ns)]])]

def desiredResources (settings : Settings) (ns : Value) : List Value :=
  [metadataGrpcConfigmap ns, visualizationDeployment settings ns, visualizationDestinationRule ns,
    visualizationAuthorizationPolicy ns, visualizationService ns, artifactDeployment settings ns,
    artifactService ns, minioParams settings ns, workflowRole ns, workflowDefaultBinding ns]

structure Synced where
  status : Dict
  children : List Value

/-- `parent.get("metadata", {}).get("labels", {}).get("pipelines.kubeflow.org/enabled")`. -/
def pipelineEnabled (parent : Value) : Except PyError Value := do
  let metadata ← getOr parent "metadata" (.dict [])
  let labels ← getOr metadata "labels" (.dict [])
  getOr labels "pipelines.kubeflow.org/enabled" .null

/-- `parent.get("metadata", {}).get("name")`. -/
def parentName (parent : Value) : Except PyError Value := do
  getOr (← getOr parent "metadata" (.dict [])) "name" .null

def isTrue : Value → Bool
  | .str s => s = "true"
  | _ => false

/-- `Controller.sync`; what it prints is left out. -/
def sync (settings : Settings) (parent : Value) (children : Children) : Except PyError Synced := do
  if isTrue (← pipelineEnabled parent) then
    let ready ← allCounts children readyCounts
    let ns ← parentName parent
    return { status := [("kubeflow-pipelines-ready", .str (if ready then "True" else "False"))],
             children := desiredResources settings ns }
  else return { status := [], children := [] }

/-- The identity of an object in the cluster. -/
structure ObjectId where
  apiVersion : String
  kind : String
  ns : String
  name : String
  deriving Repr, DecidableEq

/-- The string at a key of an object, empty when there is none. -/
def stringAt (d : Dict) (key : String) : String :=
  match d.get key with
  | some (.str s) => s
  | _ => ""

def objectId : Value → ObjectId
  | .dict d =>
    let metadata := match Dict.get d "metadata" with
      | some (.dict m) => m
      | _ => []
    { apiVersion := stringAt d "apiVersion", kind := stringAt d "kind",
      ns := stringAt metadata "namespace", name := stringAt metadata "name" }
  | _ => { apiVersion := "", kind := "", ns := "", name := "" }

/-- `Kind.apiVersion`, the key of the observed children of one kind. -/
def ObjectId.childKey (id : ObjectId) : String := id.kind ++ "." ++ id.apiVersion

/-- `childResources` of the composite controller: the API version, the resource, the kind that
the cluster serves under it, and the update strategy. -/
structure ChildResource where
  apiVersion : String
  resource : String
  kind : String
  method : String
  deriving Repr, DecidableEq

def childResources : List ChildResource :=
  [⟨"v1", "secrets", "Secret", "OnDelete"⟩, ⟨"v1", "configmaps", "ConfigMap", "OnDelete"⟩,
    ⟨"apps/v1", "deployments", "Deployment", "InPlace"⟩, ⟨"v1", "services", "Service", "InPlace"⟩,
    ⟨"networking.istio.io/v1alpha3", "destinationrules", "DestinationRule", "InPlace"⟩,
    ⟨"security.istio.io/v1beta1", "authorizationpolicies", "AuthorizationPolicy", "InPlace"⟩]

def ChildResource.serves (r : ChildResource) (id : ObjectId) : Bool :=
  id.apiVersion == r.apiVersion && id.kind == r.kind

/-- The kinds whose objects metacontroller observes. -/
def declared (id : ObjectId) : Bool := childResources.any (·.serves id)

/-- How many objects are observed under a key. -/
def countOf (children : Children) (key : String) : Nat := ((children.lookup key).getD []).length

/-- With an entry for every key that is counted, the conjunction is one of all its counts. -/
theorem allCounts_eq {children : Children} {counts : List (String × Nat)}
    (h : ∀ p ∈ counts, (children.lookup p.1).isSome) :
    allCounts children counts = .ok (counts.all fun p => countOf children p.1 == p.2) := by
  induction counts with
  | nil => rfl
  | cons p rest ih =>
    obtain ⟨key, n⟩ := p
    have hrest := ih fun p hp => h p (List.mem_cons_of_mem _ hp)
    obtain ⟨objects, ho⟩ := Option.isSome_iff_exists.mp (h (key, n) List.mem_cons_self)
    have hc : countIs children key n = .ok (countOf children key == n) := by
      rw [countIs, countOf]
      simp only at ho
      rw [ho]
      rfl
    rw [allCounts, hc, List.all_cons]
    cases hb : (countOf children key == n)
    · rfl
    · exact hrest

/-- A namespace that asks for pipelines. -/
structure Enabled (parent : Value) (ns : String) : Prop where
  label : pipelineEnabled parent = .ok (.str "true")
  name : parentName parent = .ok (.str ns)

/-- The keys that are counted are those of the declared kinds. -/
theorem declared_readyCounts {p : String × Nat} (hp : p ∈ readyCounts) :
    ∃ c ∈ childResources, p.1 = c.kind ++ "." ++ c.apiVersion := by
  simp only [readyCounts, List.mem_cons, List.not_mem_nil, or_false] at hp
  rcases hp with rfl | rfl | rfl | rfl | rfl | rfl <;> simp [childResources]

end Manifests.ProfileController

namespace Manifests
open Library ProfileController

/-- The observed children have an entry for every declared kind. -/
def ObservesDeclared (children : Children) : Prop :=
  ∀ c ∈ childResources, (children.lookup (c.kind ++ "." ++ c.apiVersion)).isSome

theorem ObservesDeclared.allCounts {children : Children} (h : ObservesDeclared children) :
    allCounts children readyCounts =
      .ok (readyCounts.all fun p => countOf children p.1 == p.2) := by
  refine allCounts_eq fun p hp => ?_
  obtain ⟨c, hc, hkey⟩ := declared_readyCounts hp
  rw [hkey]
  exact h c hc

end Manifests
