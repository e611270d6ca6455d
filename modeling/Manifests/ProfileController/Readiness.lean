import Manifests.ProfileController.Resync

/-! When the readiness that the profile controller reports is that of its desired children. -/
namespace Manifests.ProfileController
open Library

/-- The API version and the kind of an object. -/
def kindOf (v : Value) : String × String := ((objectId v).apiVersion, (objectId v).kind)

/-- Each kind that is desired is observed as often as it is desired. -/
def Present (children : Children) (desired : List Value) : Prop :=
  ∀ v ∈ desired,
    countOf children (objectId v).childKey = (desired.map kindOf).count (kindOf v)

/-- The children and the status of a call agree: it is ready when all that it desires is there. -/
def ReadyMeansPresent (settings : Settings) (parent : Value) (children : Children) : Prop :=
  ∃ synced, sync settings parent children = .ok synced ∧
    (synced.status.get "kubeflow-pipelines-ready" = some (.str "True") ↔
      Present children synced.children)

/-- All the hand-written counts are met. -/
def CountsMet (children : Children) : Prop := ∀ p ∈ readyCounts, countOf children p.1 = p.2

/-- The kinds of the desired children, which do not depend on the namespace. -/
def desiredKinds : List (String × String) :=
  [("v1", "ConfigMap"), ("apps/v1", "Deployment"), ("networking.istio.io/v1alpha3", "DestinationRule"),
    ("security.istio.io/v1beta1", "AuthorizationPolicy"), ("v1", "Service"),
    ("apps/v1", "Deployment"), ("v1", "Service"), ("v1", "Secret"),
    ("rbac.authorization.k8s.io/v1", "Role"), ("rbac.authorization.k8s.io/v1", "RoleBinding")]

def roleKey : String := "Role.rbac.authorization.k8s.io/v1"

def roleBindingKey : String := "RoleBinding.rbac.authorization.k8s.io/v1"

variable {settings : Settings} {parent ns : Value} {children : Children}

theorem map_kindOf_desired (settings : Settings) (ns : Value) :
    (desiredResources settings ns).map kindOf = desiredKinds := by
  rfl

theorem present_iff_kinds : Present children (desiredResources settings ns) ↔
    ∀ k ∈ desiredKinds, countOf children (k.2 ++ "." ++ k.1) = desiredKinds.count k := by
  rw [Present, map_kindOf_desired, ← map_kindOf_desired settings ns, List.forall_mem_map]
  rfl

/-- What is desired is what the hand-written counts say, and a role and its binding. -/
theorem present_iff : Present children (desiredResources settings ns) ↔
    CountsMet children ∧ countOf children roleKey = 1 ∧ countOf children roleBindingKey = 1 := by
  rw [present_iff_kinds]
  simp only [desiredKinds, CountsMet, readyCounts, roleKey, roleBindingKey, List.forall_mem_cons,
    List.count_cons, List.count_nil]
  simp
  tauto

/-- A parent with labels has metadata, and so a name or none. -/
theorem parentName_of_enabled {enabled : Value} (h : pipelineEnabled parent = .ok enabled) :
    ∃ ns, parentName parent = .ok ns := by
  cases parent with
  | dict d =>
    simp only [pipelineEnabled, parentName, getOr, bind, Except.bind] at h ⊢
    cases hm : (Dict.get d "metadata").getD (.dict []) with
    | dict m => exact ⟨_, rfl⟩
    | _ => simp [hm] at h
  | _ => simp [pipelineEnabled, getOr, bind, Except.bind] at h

theorem sync_of_enabled (settings : Settings) (he : pipelineEnabled parent = .ok (.str "true"))
    (hd : ObservesDeclared children) : ∃ ns, sync settings parent children = .ok {
      status := [("kubeflow-pipelines-ready", .str
        (if readyCounts.all fun p => countOf children p.1 == p.2 then "True" else "False"))]
      children := desiredResources settings ns } := by
  obtain ⟨ns, hns⟩ := parentName_of_enabled he
  refine ⟨ns, ?_⟩
  simp [sync, he, hns, hd.allCounts, isTrue, bind, Except.bind, pure, Except.pure]

/-- The status tells the truth exactly when the counts are not met, or the role and its binding,
which are not counted, are observed once each. -/
theorem readyMeansPresent_iff (settings : Settings) (parent : Value) (children : Children)
    (he : pipelineEnabled parent = .ok (.str "true")) (hd : ObservesDeclared children) :
    ReadyMeansPresent settings parent children ↔
      (CountsMet children →
        countOf children roleKey = 1 ∧ countOf children roleBindingKey = 1) := by
  obtain ⟨ns, hs⟩ := sync_of_enabled settings he hd
  have hready : readyCounts.all (fun p => countOf children p.1 == p.2) = true ↔
      CountsMet children := by
    simp [CountsMet]
  have hstatus : Dict.get [("kubeflow-pipelines-ready", .str
      (if readyCounts.all fun p => countOf children p.1 == p.2 then "True" else "False"))]
      "kubeflow-pipelines-ready" = some (.str "True") ↔ CountsMet children := by
    rw [← hready]
    by_cases hall : readyCounts.all (fun p => countOf children p.1 == p.2) = true
    · simp [hall]
    · simp [hall]
  constructor
  · rintro ⟨synced, hsync, hiff⟩ hmet
    rw [hs] at hsync
    cases hsync
    exact (present_iff.mp (hiff.mp (hstatus.mpr hmet))).2
  · intro h
    refine ⟨_, hs, hstatus.trans ?_⟩
    rw [present_iff]
    exact ⟨fun hmet => ⟨hmet, h hmet⟩, fun hp => hp.1⟩

/-- The observed children of a namespace that is settled, as metacontroller hands them over: there
are no entries for the kinds that are not declared. -/
def settledChildren : Children :=
  childResources.map fun c => (c.kind ++ "." ++ c.apiVersion,
    (desiredResources someSettings (.str "user")).filter (c.serves ∘ objectId))

theorem observesDeclared_settledChildren : ObservesDeclared settledChildren := by
  simp only [ObservesDeclared, childResources, List.forall_mem_cons]
  simp [settledChildren, childResources, List.lookup]

theorem readyMeansPresent_iff_settled :
    ReadyMeansPresent someSettings userNamespace settledChildren ↔
      (CountsMet settledChildren →
        countOf settledChildren roleKey = 1 ∧ countOf settledChildren roleBindingKey = 1) :=
  readyMeansPresent_iff someSettings userNamespace settledChildren rfl observesDeclared_settledChildren

/-- The namespace is reported ready though no role is observed. -/
theorem not_readyMeansPresent : ¬ ∀ settings parent children,
    pipelineEnabled parent = .ok (.str "true") → ObservesDeclared children →
      ReadyMeansPresent settings parent children := by
  intro h
  obtain ⟨synced, hsync, hiff⟩ :=
    h someSettings userNamespace settledChildren rfl observesDeclared_settledChildren
  have henabled : pipelineEnabled userNamespace = .ok (.str "true") := rfl
  obtain ⟨ns, hs⟩ := sync_of_enabled someSettings henabled observesDeclared_settledChildren
  rw [hs] at hsync
  cases hsync
  have hcounts : readyCounts.all (fun p => countOf settledChildren p.1 == p.2) = true := by
    decide +kernel
  have hpresent := present_iff.mp (hiff.mp (by rw [hcounts]; rfl))
  have hrole : countOf settledChildren roleKey = 0 := by decide +kernel
  omega

end Manifests.ProfileController
