import Manifests.Library.Teardown

/-! The uninstaller script: what it deletes, in which order, and how it ends. There is no `set -e`,
and nothing looks at the status of a deletion, so that only the time that `delete_kf_services` takes
decides how the script goes on. -/
namespace Manifests.Uninstaller

/-! The paths whose build each function pipes into `kubectl delete -f -`. -/

def deleteCertManager : List String :=
  ["common/cert-manager/cert-manager/overlays/self-signed",
    "common/cert-manager/cert-manager-crds/base",
    "common/cert-manager/cert-manager-kube-system-resources/base"]

def deleteIstio : List String :=
  ["common/istio-1-9-0/istio-install/base", "common/istio-1-9-0/istio-namespace/base",
    "common/istio-1-9-0/istio-crds/base"]

def deleteAuthservices : List String := ["common/dex/overlays/istio", "common/oidc-authservice/base"]

def deleteKnative : List String :=
  ["common/knative/knative-eventing/overlays/image-pull-secret",
    "bootstrap/components/image-pull-secret/knative-eventing", "common/knative/knative-serving/base"]

def deleteClusterLocalGateway : List String := ["common/istio-1-9-0/cluster-local-gateway/base"]

def deletePrism : List String := ["apps/prism/base"]

def deleteKfServices : List String :=
  ["contrib/seldon/seldon-core-operator/overlays/application",
    "contrib/application/application-crds/base", "common/user-namespace/base",
    "apps/xgboost-job/upstream/overlays/kubeflow",
    "apps/mxnet-job/upstream/overlays/kubeflow", "apps/mpi-job/upstream/overlays/kubeflow",
    "apps/pytorch-job/upstream/overlays/kubeflow", "apps/tf-training/upstream/overlays/kubeflow",
    "apps/tensorboard/tensorboards-web-app/upstream/overlays/istio",
    "apps/tensorboard/tensorboard-controller/upstream/overlays/kubeflow",
    "apps/volumes-web-app/upstream/overlays/istio", "apps/profiles/upstream/overlays/kubeflow",
    "apps/jupyter/notebook-controller/upstream/overlays/kubeflow",
    "apps/jupyter/jupyter-web-app/upstream/overlays/istio",
    "apps/admission-webhook/upstream/overlays/cert-manager",
    "apps/centraldashboard/upstream/overlays/istio",
    "apps/katib/upstream/installs/katib-with-kubeflow", "apps/kfserving/upstream/overlays/kubeflow",
    "apps/pipeline/upstream/third-party/minio-console/base",
    "apps/pipeline/upstream/third-party/minio/options/istio",
    "apps/pipeline/upstream/third-party/minio/overlays/ldap",
    "apps/pipeline/upstream/overlays/image-pull-secret",
    "apps/pipeline/upstream/cluster-scoped-resources",
    "common/istio-1-9-0/kubeflow-istio-resources/base", "common/kubeflow-roles/base",
    "common/kubeflow-namespace/base"]

def deleteKfUrl : List String := ["bootstrap/components/hpecpconfig-patch"]

/-- What the script meets: the flag, which `test_env_vars` has found to be `true` or `false`, and
whether `tar` unpacks the manifests. -/
structure Settings where
  disableIstio : Bool
  unpacked : Bool
  deriving Repr, DecidableEq

/-- How `timeout -s SIGINT 4m bash -c delete_kf_services` ends: the function returns, always with
zero, or it is killed when it has begun that many deletions. -/
inductive Go where
  | returns
  | killed (begun : Nat)
  deriving Repr, DecidableEq

def Go.deletes : Go → List String
  | .returns => deleteKfServices
  | .killed begun => deleteKfServices.take begun

/-- The loop around it: the deletions that it begins, and whether it is left. -/
def loop : List Go → List String × Bool
  | [] => ([], false)
  | go :: goes =>
    match go with
    | .returns => (go.deletes, true)
    | .killed _ => (go.deletes ++ (loop goes).1, (loop goes).2)

/-- What is deleted in front of the loop. -/
def beforeLoop : List String := "bootstrap/components/installer" :: deleteKfUrl ++ deletePrism

/-- What is deleted behind the loop. -/
def afterLoop (disableIstio : Bool) : List String :=
  (if disableIstio then [] else deleteClusterLocalGateway) ++ deleteKnative ++ deleteAuthservices ++
    (if disableIstio then [] else deleteIstio) ++ deleteCertManager ++
    ["bootstrap/components/dex-secret-ldap", "bootstrap/components/minio-config"]

/-- A run: the deletions that it begins, and the status with which it exits when it does. -/
structure Run where
  begun : List String
  exit : Option Nat
  deriving Repr, DecidableEq

/-- The script, for the ends that the goes at `delete_kf_services` come to. -/
def uninstall (settings : Settings) (goes : List Go) : Run :=
  if settings.unpacked then
    if (loop goes).2 then
      ⟨beforeLoop ++ (loop goes).1 ++ afterLoop settings.disableIstio, some 0⟩
    else ⟨beforeLoop ++ (loop goes).1, none⟩
  else ⟨[], some 1⟩

/-- All that a run that ends deletes. -/
def deletes (disableIstio : Bool) : List String :=
  beforeLoop ++ deleteKfServices ++ afterLoop disableIstio

variable {settings : Settings} {goes : List Go} {path : String}

theorem left_iff : (loop goes).2 = true ↔ .returns ∈ goes := by
  induction goes with
  | nil => simp [loop]
  | cons go goes ih =>
    cases go with
    | returns => simp [loop]
    | killed begun => simp [loop, ih]

/-- The script exits with zero exactly when the manifests are unpacked and one of the goes is not
killed. -/
theorem exit_iff : (uninstall settings goes).exit = some 0 ↔
    settings.unpacked = true ∧ .returns ∈ goes := by
  rw [← left_iff, uninstall]
  cases settings.unpacked with
  | false => simp
  | true => cases (loop goes).2 <;> simp

/-- What a go that is killed has begun, a later one begins again. -/
theorem loop_eq (goes : List Go) : ∃ parts : List (List String),
    (∀ part ∈ parts, ∃ n, part = deleteKfServices.take n) ∧
      (loop goes).1 = parts.flatten ++ if (loop goes).2 then deleteKfServices else [] := by
  induction goes with
  | nil => exact ⟨[], by simp, rfl⟩
  | cons go goes ih =>
    cases go with
    | returns => exact ⟨[], by simp, rfl⟩
    | killed begun =>
      obtain ⟨parts, hparts, heq⟩ := ih
      refine ⟨deleteKfServices.take begun :: parts, ?_, ?_⟩
      · simpa using ⟨⟨begun, rfl⟩, hparts⟩
      · simp [loop, Go.deletes, heq]

theorem mem_loop (h : path ∈ (loop goes).1) : path ∈ deleteKfServices := by
  obtain ⟨parts, hparts, heq⟩ := loop_eq goes
  rw [heq] at h
  rcases List.mem_append.mp h with h | h
  · obtain ⟨part, hpart, hmem⟩ := List.mem_flatten.mp h
    obtain ⟨n, rfl⟩ := hparts part hpart
    exact List.mem_of_mem_take hmem
  · split at h
    · exact h
    · cases h

/-- A run that exits with zero has begun all deletions. -/
theorem mem_begun (h : (uninstall settings goes).exit = some 0) :
    path ∈ (uninstall settings goes).begun ↔ path ∈ deletes settings.disableIstio := by
  obtain ⟨hunpacked, hreturns⟩ := exit_iff.mp h
  have hleft := left_iff.mpr hreturns
  have hloop : path ∈ (loop goes).1 ↔ path ∈ deleteKfServices := by
    refine ⟨mem_loop, fun hpath => ?_⟩
    obtain ⟨parts, _, heq⟩ := loop_eq goes
    rw [heq, if_pos hleft]
    exact List.mem_append_right _ hpath
  simp only [uninstall, hunpacked, if_true, hleft, deletes, List.mem_append, hloop]

end Manifests.Uninstaller
