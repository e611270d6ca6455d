import Manifests.Cluster
import Manifests.Library.PrefixPool

/-! `pods-validator.py`: it takes a template off its list for each pod that is up, and its exit code
is the number of templates that are left. -/
namespace Manifests.PodsValidator
open Library PrefixPool

def podsTemplates : List String :=
  ["authservice-", "cluster-local-", "istio-citadel-", "istio-galley-", "istio-ingressgateway-",
    "istio-nodeagent-", "istio-pilot-", "istio-policy-", "istio-security-post-install-",
    "istio-sidecar-injector-", "istio-telemetry-", "kfserving-ingressgateway-", "prometheus-",
    "admission-webhook-deployment-", "application-controller-stateful-set-", "argo-ui-",
    "centraldashboard-", "jupyter-web-app-deployment-", "katib-controller-", "katib-db-manager-",
    "katib-mysql-", "katib-ui-", "kfserving-controller-manager-", "minio-",
    "ml-pipeline-ml-pipeline-visualizationserver-", "ml-pipeline-persistenceagent-",
    "ml-pipeline-scheduledworkflow-", "ml-pipeline-ui-",
    "ml-pipeline-viewer-controller-deployment-", "ml-pipeline-", "mysql-",
    "notebook-controller-deployment-", "profiles-deployment-", "pytorch-operator-",
    "seldon-controller-manager-", "spartakus-volunteer-", "tf-job-operator-", "workflow-controller-",
    "dex-"]

/-- A pod as the client lists it, with the readiness of its containers; a pod without any has
`container_statuses = None`. -/
structure Pod where
  name : String
  phase : String
  containerStatuses : Option (List Bool)
  deriving Repr, DecidableEq

/-- `name.startswith(template)`. -/
def startsWith (name template : String) : Bool := decide (template.toList <+: name.toList)

/-- `status == 'Succeeded' or (status == 'Running' and pod.status.container_statuses[0].ready)`. -/
def counts (pod : Pod) : Except PyError Bool :=
  if pod.phase = "Succeeded" then .ok true
  else if pod.phase = "Running" then
    match pod.containerStatuses with
    | none => .error .typeError
    | some [] => .error .indexError
    | some (ready :: _) => .ok ready
  else .ok false

/-- The inner loop, which removes the first template that fits. -/
def removeTemplate (templates : List String) (name : String) : List String :=
  match templates.find? (startsWith name) with
  | some template => templates.erase template
  | none => templates

/-- The loop over the pods: the templates that are left. -/
def matchPods (templates : List String) : List Pod → Except PyError (List String)
  | [] => .ok templates
  | pod :: pods => do
    if ← counts pod then matchPods (removeTemplate templates pod.name) pods
    else matchPods templates pods

/-- The exit code over the pods of the three namespaces; an exception makes it 1. -/
def exitCode (pods : List Pod) : Nat :=
  match matchPods podsTemplates pods with
  | .ok templates => templates.length
  | .error _ => 1

/-- A pod of the component: no longer prefix of the list fits its name. -/
def Of (template : String) (pod : Pod) : Prop :=
  startsWith pod.name template = true ∧
    ∀ t ∈ podsTemplates, startsWith pod.name t = true → t.toList.length ≤ template.toList.length

/-- A pod that has succeeded, or runs with all its containers ready. -/
def Pod.Up (pod : Pod) : Prop :=
  pod.phase = "Succeeded" ∨
    (pod.phase = "Running" ∧ ∃ ready, pod.containerStatuses = some ready ∧ ∀ r ∈ ready, r = true)

/-- Exit code 0 means that every component has a pod that is up. -/
def SuccessTells (pods : List Pod) : Prop :=
  exitCode pods = 0 → ∀ template ∈ podsTemplates, ∃ pod ∈ pods, Of template pod ∧ pod.Up

/-- A running pod without a container status. -/
def Pod.Statusless (pod : Pod) : Prop :=
  pod.phase = "Running" ∧ (pod.containerStatuses.getD []) = []

/-- A pod that has succeeded, or runs with its first container ready. -/
def Pod.countsIn (pod : Pod) : Bool := counts pod = .ok true

/-- The containers behind the first are ready too, as far as it matters. -/
def Pod.RestReady (pod : Pod) : Prop :=
  pod.phase = "Succeeded" ∨ ∀ r ∈ (pod.containerStatuses.getD []).tail, r = true

/-- How many of the counted pods have the prefix. -/
def countedBehind (template : String) (pods : List Pod) : Nat :=
  pods.countP fun pod => pod.countsIn && startsWith pod.name template

/-- How many of the templates have the prefix. -/
def templatesBehind (template : String) : Nat := podsTemplates.countP fun t => startsWith t template

/-- When an exit code of 0 tells the truth: a running pod has no container status, so that the script
ends with an exception; or some prefix has fewer counted pods behind it than templates, so that one is
left; or every component has a counted pod whose other containers are ready. -/
inductive Reliable (pods : List Pod) : Prop where
  | raises (pod : Pod) (hpod : pod ∈ pods) (h : pod.Statusless)
  | left (template : String) (ht : template ∈ podsTemplates)
      (h : countedBehind template pods < templatesBehind template)
  | up (h : ∀ template ∈ podsTemplates, ∃ pod ∈ pods, Of template pod ∧ pod.countsIn = true ∧
      pod.RestReady)

variable {pods : List Pod} {pod : Pod} {templates : List String} {name template : String}

theorem counts_cases (pod : Pod) :
    (∃ b, counts pod = .ok b ∧ ¬ pod.Statusless) ∨ ((∃ e, counts pod = .error e) ∧ pod.Statusless) := by
  unfold counts Pod.Statusless
  by_cases hs : pod.phase = "Succeeded"
  · simp [hs]
  · by_cases hr : pod.phase = "Running"
    · rcases hc : pod.containerStatuses with _ | _ | ⟨ready, rest⟩ <;> simp [hr]
    · simp [hs, hr]

/-- What the loop counts is up but for the containers behind the first. -/
theorem countsIn_restReady (hs : ¬ pod.Statusless) :
    pod.countsIn = true ∧ pod.RestReady ↔ pod.Up := by
  unfold Pod.Statusless at hs
  unfold Pod.countsIn Pod.RestReady Pod.Up counts
  by_cases hsucceeded : pod.phase = "Succeeded"
  · simp [hsucceeded]
  · by_cases hr : pod.phase = "Running"
    · rcases hc : pod.containerStatuses with _ | _ | ⟨ready, rest⟩
      · simp [hr, hc] at hs
      · simp [hr, hc] at hs
      · simp [hr]
    · simp [hsucceeded, hr]

theorem map_removeTemplate : (removeTemplate templates name).map String.toList =
    use (templates.map String.toList) name.toList := by
  have hfind : (templates.map String.toList).find? (fun t => decide (t <+: name.toList)) =
      (templates.find? (startsWith name)).map String.toList := List.find?_map
  unfold removeTemplate use
  rw [hfind]
  cases templates.find? (startsWith name) with
  | none => rfl
  | some t => exact List.map_erase (fun _ _ h => String.toList_inj.mp h) templates

/-- Without an exception, the templates that are left are those that the counted pods leave. -/
theorem matchPods_ok (templates : List String) (hs : ∀ pod ∈ pods, ¬ pod.Statusless) :
    ∃ left, matchPods templates pods = .ok left ∧ left.map String.toList =
      useAll (templates.map String.toList)
        ((pods.filter Pod.countsIn).map fun pod => pod.name.toList) := by
  induction pods generalizing templates with
  | nil => exact ⟨templates, rfl, rfl⟩
  | cons pod pods ih =>
    have hrest : ∀ pod ∈ pods, ¬ pod.Statusless := fun p hp => hs p (List.mem_cons_of_mem _ hp)
    obtain ⟨b, hb, _⟩ | ⟨_, hpod⟩ := counts_cases pod
    · rw [matchPods, hb]
      cases b with
      | true =>
        obtain ⟨left, hleft, hmap⟩ := ih (removeTemplate templates pod.name) hrest
        refine ⟨left, hleft, ?_⟩
        rw [hmap, map_removeTemplate, List.filter_cons_of_pos (by simp [Pod.countsIn, hb])]
        rfl
      | false =>
        obtain ⟨left, hleft, hmap⟩ := ih templates hrest
        refine ⟨left, hleft, ?_⟩
        rw [hmap, List.filter_cons_of_neg (by simp [Pod.countsIn, hb])]
    · exact (hs pod List.mem_cons_self hpod).elim

theorem matchPods_error (templates : List String) (hpod : pod ∈ pods) (hs : pod.Statusless) :
    ∃ e, matchPods templates pods = .error e := by
  induction pods generalizing templates with
  | nil => cases hpod
  | cons p pods ih =>
    rw [matchPods]
    obtain ⟨b, hb, hp⟩ | ⟨⟨e, he⟩, _⟩ := counts_cases p
    · obtain rfl | hpod := List.mem_cons.mp hpod
      · exact (hp hs).elim
      · rw [hb]
        cases b with
        | true => exact ih _ hpod
        | false => exact ih _ hpod
    · exact ⟨e, by rw [he]; rfl⟩

theorem longestFirst_podsTemplates : LongestFirst (podsTemplates.map String.toList) := by
  unfold LongestFirst
  decide +kernel

theorem behind_podsTemplates : behind template.toList (podsTemplates.map String.toList) =
    templatesBehind template := by
  rw [behind, List.countP_map]
  rfl

theorem behind_counted :
    behind template.toList ((pods.filter Pod.countsIn).map fun pod => pod.name.toList) =
      countedBehind template pods := by
  rw [behind, List.countP_map, List.countP_filter, countedBehind]
  refine List.countP_congr fun pod _ => ?_
  simp [startsWith, and_comm]

/-- The script ends with exit code 0 when no exception ends it and every prefix has as many counted
pods behind it as templates. -/
theorem exitCode_eq_zero : exitCode pods = 0 ↔ (∀ pod ∈ pods, ¬ pod.Statusless) ∧
    ∀ template ∈ podsTemplates, templatesBehind template ≤ countedBehind template pods := by
  by_cases hs : ∀ pod ∈ pods, ¬ pod.Statusless
  · obtain ⟨left, hleft, hmap⟩ := matchPods_ok podsTemplates hs
    have hnil : left.length = 0 ↔ useAll (podsTemplates.map String.toList)
        ((pods.filter Pod.countsIn).map fun pod => pod.name.toList) = [] := by
      rw [← hmap, List.map_eq_nil_iff, List.length_eq_zero_iff]
    rw [and_iff_right hs, exitCode, hleft, hnil, longestFirst_podsTemplates.useAll_eq_nil,
      List.forall_mem_map]
    simp only [behind_podsTemplates, behind_counted]
  · refine iff_of_false ?_ fun h => hs h.1
    push Not at hs
    obtain ⟨pod, hpod, hstatusless⟩ := hs
    obtain ⟨e, he⟩ := matchPods_error podsTemplates hpod hstatusless
    rw [exitCode, he]
    exact one_ne_zero

/-- Exit code 0 means that every component is up exactly for the lists of pods that are reliable. -/
theorem successTells_iff (pods : List Pod) : SuccessTells pods ↔ Reliable pods := by
  by_cases hzero : exitCode pods = 0
  · obtain ⟨hs, henough⟩ := exitCode_eq_zero.mp hzero
    constructor
    · intro h
      refine .up fun template ht => ?_
      obtain ⟨pod, hpod, hof, hup⟩ := h hzero template ht
      exact ⟨pod, hpod, hof, (countsIn_restReady (hs pod hpod)).mpr hup⟩
    · rintro (⟨pod, hpod, hstatusless⟩ | ⟨template, ht, hleft⟩ | h)
      · exact (hs pod hpod hstatusless).elim
      · have hle := henough template ht
        omega
      · intro _ template ht
        obtain ⟨pod, hpod, hof, hcounts⟩ := h template ht
        exact ⟨pod, hpod, hof, (countsIn_restReady (hs pod hpod)).mp hcounts⟩
  · refine iff_of_true (fun h => (hzero h).elim) ?_
    rw [exitCode_eq_zero, not_and_or] at hzero
    push Not at hzero
    obtain ⟨pod, hpod, hs⟩ | ⟨template, ht, hlt⟩ := hzero
    · exact .raises pod hpod hs
    · exact .left template ht hlt

/-- One pod for each component but the API server, and a second replica of the UI. -/
def secondUi : List Pod :=
  (podsTemplates.erase "ml-pipeline-" ++ ["ml-pipeline-ui-"]).map fun template =>
    ⟨template ++ "0", "Succeeded", none⟩

/-- The second replica of the UI takes the template of the API server. -/
theorem not_successTells : ¬ ∀ pods, SuccessTells pods := by
  intro h
  have hzero : exitCode secondUi = 0 := by decide +kernel
  obtain ⟨pod, hpod, ⟨hstarts, hlongest⟩, _⟩ := h secondUi hzero "ml-pipeline-" (by decide)
  have hlonger : ∀ pod ∈ secondUi, startsWith pod.name "ml-pipeline-" = true →
      ∃ t ∈ podsTemplates, startsWith pod.name t = true ∧
        "ml-pipeline-".toList.length < t.toList.length := by
    decide +kernel
  obtain ⟨t, ht, hfits, hlt⟩ := hlonger pod hpod hstarts
  have hle := hlongest t ht hfits
  omega

end Manifests.PodsValidator
