import Manifests.ProfileController.Resync
import Manifests.Library.Reconcile

/-! The profile controller of the pipelines that run on Tekton. Its composite controller declares every
kind that it desires, and updates some of them in place. What is left to do after rounds in which requests
fail, and what its report of readiness says then. -/
namespace Manifests.KfpTekton
open Library ProfileController

/-- The module's settings, as read from the environment at start. -/
structure Settings where
  kfpVersion : String
  disableIstioSidecar : Bool
  mlpipelineMinioAccessKey : String
  mlpipelineMinioSecretKey : String
  deriving Repr, DecidableEq

def loadSettings (env : String → Option String) : Except PyError Settings := do
  let kfpVersion ← environ env "KFP_VERSION"
  let disableIstioSidecar := env "DISABLE_ISTIO_SIDECAR" = some "true"
  let mlpipelineMinioAccessKey ← environB64 env "MINIO_ACCESS_KEY"
  let mlpipelineMinioSecretKey ← environB64 env "MINIO_SECRET_KEY"
  return { kfpVersion, disableIstioSidecar, mlpipelineMinioAccessKey, mlpipelineMinioSecretKey }

/-- The settings that the pods depend on; the images come from no other registry. -/
def Settings.pods (settings : Settings) : ProfileController.Settings where
  kfpVersion := settings.kfpVersion
  disableIstioSidecar := settings.disableIstioSidecar
  mlpipelineMinioAccessKey := settings.mlpipelineMinioAccessKey
  mlpipelineMinioSecretKey := settings.mlpipelineMinioSecretKey
  mlpipelineMinioHost := ""
  mlpipelineMinioPort := ""
  mlpipelineMinioSecure := ""
  airgapRegistry := ""

def mlpipelineMinioArtifact (settings : Settings) (ns : Value) : Value :=
  .dict [("apiVersion", .str "v1"), ("kind", .str "Secret"),
    ("metadata", metadata "mlpipeline-minio-artifact" ns),
    ("data", .dict [("accesskey", .str settings.mlpipelineMinioAccessKey),
      ("secretkey", .str settings.mlpipelineMinioSecretKey)])]

def desiredResources (settings : Settings) (ns : Value) : List Value :=
  [metadataGrpcConfigmap ns, visualizationDeployment settings.pods ns, visualizationDestinationRule ns,
    visualizationAuthorizationPolicy ns, visualizationService ns, artifactDeployment settings.pods ns,
    artifactService ns, mlpipelineMinioArtifact settings ns]

/-- `Controller.sync`; what it prints is left out. -/
def sync (settings : Settings) (parent : Value) (children : Children) : Except PyError Synced := do
  if isTrue (← pipelineEnabled parent) then
    let ready ← allCounts children readyCounts
    let ns ← parentName parent
    return { status := [("kubeflow-pipelines-ready", .str (if ready then "True" else "False"))],
             children := desiredResources settings ns }
  else return { status := [], children := [] }

/-- The kinds whose objects are updated in place. -/
def inPlace (id : ObjectId) : Bool := childResources.any fun r => r.serves id && r.method == "InPlace"

/-- What metacontroller and the cluster make of a desired child: the object that is there when it is
created, and what an object that is there becomes when the child is applied to it, where that is not what
it is. Applying it once is enough, and an object that is just created is as desired. -/
structure Merge where
  created : Value → Value
  update : Value → Value → Option Value
  objectId_created : ∀ c, objectId (created c) = objectId c
  objectId_update : ∀ {o c o'}, objectId o = objectId c → update o c = some o' → objectId o' = objectId o
  update_update : ∀ {o c o'}, objectId o = objectId c → update o c = some o' → update o' c = none
  update_created : ∀ c, update (created c) c = none

/-- What the update of an object is to make of it, when one is needed. -/
def change (merge : Merge) (children : List Value) (o : Value) : Option Value :=
  if inPlace (objectId o) then
    (children.find? fun c => objectId c = objectId o).bind fun c => merge.update o c
  else none

/-- What a round sets out to do; the updates are the objects that are to come of them. -/
structure Round where
  creates : List Value
  updates : List Value
  deletes : List Value
  status : Dict

def attempt (settings : Settings) (merge : Merge) (parent : Value) (owned : Owned) :
    Except PyError Round := do
  let synced ← sync settings parent (observe owned)
  return { creates := synced.children.filter fun c => objectId c ∉ (observed owned).map objectId,
           updates := (observed owned).filterMap (change merge synced.children),
           deletes := (observed owned).filter fun o => objectId o ∉ synced.children.map objectId,
           status := synced.status }

/-- An object behind a round in which the requests about the objects `ok` go through. -/
def updated (r : Round) (ok : ObjectId → Bool) (o : Value) : Value :=
  if ok (objectId o) then (r.updates.find? fun o' => objectId o' = objectId o).getD o else o

/-- What is there after a round in which the requests about the objects `ok` go through. An object
that is there already is not created. -/
def after (merge : Merge) (r : Round) (ok : ObjectId → Bool) (owned : Owned) : List Value :=
  (owned.objects.filter fun o => ¬ (objectId o ∈ r.deletes.map objectId ∧ ok (objectId o))).map
      (updated r ok) ++
    (r.creates.filter fun c => ok (objectId c) ∧ objectId c ∉ owned.objects.map objectId).map
      merge.created

/-- Rounds, one after the other, with nothing else changing the objects. -/
inductive Rounds (settings : Settings) (merge : Merge) (parent : Value) :
    Owned → List (ObjectId → Bool) → Owned → Prop where
  | nil (owned : Owned) : Rounds settings merge parent owned [] owned
  | cons {owned owned₁ owned₂ : Owned} {ok : ObjectId → Bool} {oks : List (ObjectId → Bool)} {r : Round}
      (hr : attempt settings merge parent owned = .ok r)
      (hafter : owned₁.objects = after merge r ok owned)
      (h : Rounds settings merge parent owned₁ oks owned₂) :
      Rounds settings merge parent owned (ok :: oks) owned₂

/-- A namespace, with the label that asks for pipelines when it is `true`. -/
structure Labelled (parent enabled : Value) (ns : String) : Prop where
  label : pipelineEnabled parent = .ok enabled
  name : parentName parent = .ok (.str ns)

/-- The identities of the desired children. -/
def desiredIds (ns : String) : List ObjectId :=
  [⟨"v1", "ConfigMap", ns, "metadata-grpc-configmap"⟩,
    ⟨"apps/v1", "Deployment", ns, "ml-pipeline-visualizationserver"⟩,
    ⟨"networking.istio.io/v1alpha3", "DestinationRule", ns, "ml-pipeline-visualizationserver"⟩,
    ⟨"security.istio.io/v1beta1", "AuthorizationPolicy", ns, "ml-pipeline-visualizationserver"⟩,
    ⟨"v1", "Service", ns, "ml-pipeline-visualizationserver"⟩,
    ⟨"apps/v1", "Deployment", ns, "ml-pipeline-ui-artifact"⟩,
    ⟨"v1", "Service", ns, "ml-pipeline-ui-artifact"⟩,
    ⟨"v1", "Secret", ns, "mlpipeline-minio-artifact"⟩]

/-- The desired children of a namespace that asks for pipelines or does not. -/
def childrenOf (settings : Settings) (enabled : Value) (ns : String) : List Value :=
  if isTrue enabled then desiredResources settings (.str ns) else []

/-- The report for a namespace: whether all kinds are observed as often as they are counted. -/
def report (enabled : Value) (owned : Owned) : Dict :=
  if isTrue enabled then [("kubeflow-pipelines-ready", .str
    (if readyCounts.all fun p => countOf (observe owned) p.1 == p.2 then "True" else "False"))]
  else []

/-- The round of a state, over all objects that are owned. -/
def roundOf (settings : Settings) (merge : Merge) (enabled : Value) (ns : String) (owned : Owned) :
    Round where
  creates := (childrenOf settings enabled ns).filter fun c => objectId c ∉ owned.objects.map objectId
  updates := owned.objects.filterMap (change merge (childrenOf settings enabled ns))
  deletes := owned.objects.filter fun o =>
    declared (objectId o) ∧ objectId o ∉ (childrenOf settings enabled ns).map objectId
  status := report enabled owned

section
variable {settings : Settings} {merge : Merge} {parent enabled : Value} {ns : String}
  {owned owned' : Owned} {r r' : Round} {ok : ObjectId → Bool} {oks : List (ObjectId → Bool)}
  {id : ObjectId} {o o' c : Value} {children : List Value}

theorem desired_ids (settings : Settings) (ns : String) :
    (desiredResources settings (.str ns)).map objectId = desiredIds ns := rfl

theorem desiredIds_nodup : (desiredIds ns).Nodup := by
  simp [desiredIds]

/-- The composite controller declares all that is desired. -/
theorem declared_of_mem (h : id ∈ desiredIds ns) : declared id = true := by
  simp only [desiredIds, List.mem_cons, List.not_mem_nil, or_false] at h
  rcases h with rfl | rfl | rfl | rfl | rfl | rfl | rfl | rfl <;>
    simp [declared, childResources, ChildResource.serves]

theorem childrenOf_ids (settings : Settings) (enabled : Value) (ns : String) :
    (childrenOf settings enabled ns).map objectId = if isTrue enabled then desiredIds ns else [] := by
  unfold childrenOf
  split <;> rfl

theorem childrenOf_distinct : ((childrenOf settings enabled ns).map objectId).Nodup := by
  rw [childrenOf_ids]
  split
  · exact desiredIds_nodup
  · exact List.nodup_nil

theorem declared_childrenOf (h : c ∈ childrenOf settings enabled ns) : declared (objectId c) = true := by
  have hid : objectId c ∈ (childrenOf settings enabled ns).map objectId := List.mem_map_of_mem h
  rw [childrenOf_ids] at hid
  split at hid
  · exact declared_of_mem hid
  · cases hid

theorem declared_of_inPlace (h : inPlace id = true) : declared id = true := by
  obtain ⟨c, hc, hserves⟩ := List.any_eq_true.mp h
  rw [Bool.and_eq_true] at hserves
  exact serves_declared hc hserves.1

/-! What an update makes of an object. -/

theorem change_eq_some (h : change merge children o = some o') :
    inPlace (objectId o) = true ∧ ∃ c ∈ children, objectId c = objectId o ∧
      merge.update o c = some o' := by
  unfold change at h
  split at h
  · next hplace =>
    obtain ⟨c, hfind, hupdate⟩ := Option.bind_eq_some_iff.mp h
    have hid := List.find?_some hfind
    exact ⟨hplace, c, List.mem_of_find?_eq_some hfind, by simpa using hid, hupdate⟩
  · cases h

theorem objectId_change (h : change merge children o = some o') : objectId o' = objectId o := by
  obtain ⟨_, c, _, hid, hupdate⟩ := change_eq_some h
  exact merge.objectId_update hid.symm hupdate

theorem find_child (hdistinct : (children.map objectId).Nodup) (hc : c ∈ children) :
    children.find? (fun c' => objectId c' = objectId c) = some c := by
  cases hfind : children.find? (fun c' => objectId c' = objectId c) with
  | none => exact absurd (List.find?_eq_none.mp hfind c hc) (by simp)
  | some c' =>
    have hid := List.find?_some hfind
    rw [List.inj_on_of_nodup_map hdistinct (List.mem_of_find?_eq_some hfind) hc (by simpa using hid)]

theorem change_change (hdistinct : (children.map objectId).Nodup)
    (h : change merge children o = some o') : change merge children o' = none := by
  have hsame := objectId_change h
  obtain ⟨hplace, c, hc, hid, hupdate⟩ := change_eq_some h
  rw [change, hsame, if_pos hplace, ← hid, find_child hdistinct hc]
  exact merge.update_update hid.symm hupdate

theorem change_created (hdistinct : (children.map objectId).Nodup) (hc : c ∈ children) :
    change merge children (merge.created c) = none := by
  unfold change
  split
  · rw [merge.objectId_created, find_child hdistinct hc]
    exact merge.update_created c
  · rfl

theorem change_other (h : objectId o ∉ children.map objectId) : change merge children o = none := by
  cases hchange : change merge children o with
  | none => rfl
  | some o' =>
    obtain ⟨_, c, hc, hid, _⟩ := change_eq_some hchange
    exact absurd (hid ▸ List.mem_map_of_mem hc) h

/-- The update of an object is found by its identity. -/
theorem find_updates {objects : List Value} (hdistinct : (objects.map objectId).Nodup)
    (ho : o ∈ objects) : (objects.filterMap (change merge children)).find?
      (fun o' => objectId o' = objectId o) = change merge children o := by
  cases hfind : (objects.filterMap (change merge children)).find? (fun o' => objectId o' = objectId o) with
  | none =>
    cases hchange : change merge children o with
    | none => rfl
    | some o' =>
      have hnone := List.find?_eq_none.mp hfind o' (List.mem_filterMap.mpr ⟨o, ho, hchange⟩)
      exact absurd (objectId_change hchange) (by simpa using hnone)
  | some o' =>
    have hid := List.find?_some hfind
    obtain ⟨o₀, ho₀, hchange⟩ := List.mem_filterMap.mp (List.mem_of_find?_eq_some hfind)
    have hsame : o₀ = o := List.inj_on_of_nodup_map hdistinct ho₀ ho
      ((objectId_change hchange).symm.trans (by simpa using hid))
    rw [← hsame, hchange]

/-- What is to be there, as the reconciliation has it. -/
def wanted (settings : Settings) (merge : Merge) (enabled : Value) (ns : String) :
    Reconcile.Desired Value ObjectId where
  idOf := objectId
  watched := declared
  objects := (childrenOf settings enabled ns).map merge.created
  distinct := by
    have hids : ((childrenOf settings enabled ns).map merge.created).map objectId =
        (childrenOf settings enabled ns).map objectId := by
      rw [List.map_map]
      exact List.map_congr_left fun c _ => merge.objectId_created c
    rw [hids]
    exact childrenOf_distinct
  isWatched o ho := by
    obtain ⟨c, hc, rfl⟩ := List.mem_map.mp ho
    rw [merge.objectId_created]
    exact declared_childrenOf hc
  change := change merge (childrenOf settings enabled ns)
  idOf_change := objectId_change
  change_change := change_change childrenOf_distinct
  change_desired o ho := by
    obtain ⟨c, hc, rfl⟩ := List.mem_map.mp ho
    exact change_created childrenOf_distinct hc
  change_other o ho := by
    refine change_other fun hid => ho ?_
    obtain ⟨c, hc, hid⟩ := List.mem_map.mp hid
    exact List.mem_map.mpr ⟨merge.created c, List.mem_map_of_mem hc, (merge.objectId_created c).trans hid⟩

theorem wanted_ids : (wanted settings merge enabled ns).ids =
    (childrenOf settings enabled ns).map objectId := by
  rw [Reconcile.Desired.ids, wanted, List.map_map]
  exact List.map_congr_left fun c _ => merge.objectId_created c

/-- The owned objects, as those that are there. -/
def present (settings : Settings) (merge : Merge) (enabled : Value) (ns : String) (owned : Owned) :
    Reconcile.Present (wanted settings merge enabled ns).idOf := ⟨owned.objects, owned.distinct⟩

/-- A call never raises, and only looks at what is declared. -/
theorem attempt_eq (settings : Settings) (merge : Merge) (h : Labelled parent enabled ns)
    (owned : Owned) :
    attempt settings merge parent owned = .ok (roundOf settings merge enabled ns owned) := by
  have hs : sync settings parent (observe owned) = .ok {
      status := report enabled owned, children := childrenOf settings enabled ns } := by
    cases henabled : isTrue enabled
    · simp [sync, h.label, henabled, report, childrenOf, bind, Except.bind, pure, Except.pure]
    · simp [sync, h.label, h.name, henabled, report, childrenOf, allCounts_observe, bind, Except.bind,
        pure, Except.pure]
  have hcreates : (childrenOf settings enabled ns).filter
      (fun c => objectId c ∉ (observed owned).map objectId) =
      (childrenOf settings enabled ns).filter fun c => objectId c ∉ owned.objects.map objectId := by
    refine List.filter_congr fun c hc => ?_
    have hiff : objectId c ∈ (observed owned).map objectId ↔
        objectId c ∈ owned.objects.map objectId := by
      rw [mem_observed_ids]
      exact and_iff_left (declared_childrenOf hc)
    simp only [hiff]
  have hupdates : (observed owned).filterMap (change merge (childrenOf settings enabled ns)) =
      owned.objects.filterMap (change merge (childrenOf settings enabled ns)) := by
    rw [observed, List.filterMap_filter]
    refine List.filterMap_congr fun o _ => ?_
    split
    · rfl
    · next hnot =>
      exact (if_neg fun hplace => hnot (declared_of_inPlace hplace)).symm
  have hdeletes : (observed owned).filter
      (fun o => objectId o ∉ (childrenOf settings enabled ns).map objectId) =
      owned.objects.filter fun o =>
        declared (objectId o) ∧ objectId o ∉ (childrenOf settings enabled ns).map objectId := by
    rw [observed, List.filter_filter]
    refine List.filter_congr fun o _ => ?_
    rw [Bool.eq_iff_iff, Bool.and_eq_true, decide_eq_true_eq, decide_eq_true_eq, and_comm]
    rfl
  rw [attempt, hs]
  simp only [bind, Except.bind, pure, Except.pure, hcreates, hupdates, hdeletes, roundOf]

/-! The requests of a round are those of the reconciliation. -/

theorem creates_ids : id ∈ (roundOf settings merge enabled ns owned).creates.map objectId ↔
    id ∈ ((wanted settings merge enabled ns).creates (present settings merge enabled ns owned)).map
      objectId := by
  have hmem : id ∈ ((wanted settings merge enabled ns).creates
      (present settings merge enabled ns owned)).map objectId ↔
      id ∈ (childrenOf settings enabled ns).map objectId ∧ id ∉ owned.objects.map objectId := by
    rw [← wanted_ids]
    exact Reconcile.Desired.mem_creates_ids (d := wanted settings merge enabled ns)
  rw [hmem]
  simp only [roundOf, List.mem_map, List.mem_filter, decide_eq_true_eq]
  constructor
  · rintro ⟨c, ⟨hc, hnew⟩, rfl⟩
    exact ⟨⟨c, hc, rfl⟩, hnew⟩
  · rintro ⟨⟨c, hc, rfl⟩, hnew⟩
    exact ⟨c, ⟨hc, hnew⟩, rfl⟩

theorem deletes_eq : (roundOf settings merge enabled ns owned).deletes =
    (wanted settings merge enabled ns).deletes (present settings merge enabled ns owned) := by
  rw [Reconcile.Desired.deletes, wanted_ids]
  rfl

theorem updates_ids : id ∈ (roundOf settings merge enabled ns owned).updates.map objectId ↔
    id ∈ ((wanted settings merge enabled ns).updates (present settings merge enabled ns owned)).map
      objectId := by
  have hiff : id ∈ ((wanted settings merge enabled ns).updates
      (present settings merge enabled ns owned)).map objectId ↔ ∃ o ∈ owned.objects,
        (change merge (childrenOf settings enabled ns) o).isSome ∧ objectId o = id := by
    simp only [Reconcile.Desired.updates, List.mem_map, List.mem_filter, and_assoc]
    rfl
  rw [hiff]
  simp only [roundOf, List.mem_map, List.mem_filterMap]
  constructor
  · rintro ⟨o', ⟨o, ho, hchange⟩, rfl⟩
    exact ⟨o, ho, by rw [hchange]; rfl, (objectId_change hchange).symm⟩
  · rintro ⟨o, ho, hsome, rfl⟩
    obtain ⟨o', hchange⟩ := Option.isSome_iff_exists.mp hsome
    exact ⟨o', ⟨o, ho, hchange⟩, objectId_change hchange⟩

theorem updated_eq (ho : o ∈ owned.objects) :
    updated (roundOf settings merge enabled ns owned) ok o =
      (wanted settings merge enabled ns).settled ok o := by
  rw [updated, roundOf, find_updates owned.distinct ho]
  rfl

/-- What is there after a round is what is there after the round of the reconciliation. -/
theorem after_eq : after merge (roundOf settings merge enabled ns owned) ok owned =
    ((wanted settings merge enabled ns).round ok (present settings merge enabled ns owned)).objects := by
  rw [after, Reconcile.Desired.round]
  congr 1
  · have hkept : (owned.objects.filter fun o => ¬ (objectId o ∈
          (roundOf settings merge enabled ns owned).deletes.map objectId ∧ ok (objectId o))) =
        (wanted settings merge enabled ns).kept ok (present settings merge enabled ns owned) := by
      refine List.filter_congr fun o ho => ?_
      have hmem : objectId o ∈ owned.objects.map objectId := List.mem_map_of_mem ho
      have hdeleted : objectId o ∈ ((wanted settings merge enabled ns).deletes
          (present settings merge enabled ns owned)).map objectId ↔
          objectId o ∈ owned.objects.map objectId ∧ declared (objectId o) = true ∧
            objectId o ∉ (wanted settings merge enabled ns).ids :=
        Reconcile.Desired.mem_deletes_ids (d := wanted settings merge enabled ns)
      rw [Bool.eq_iff_iff, decide_eq_true_eq, decide_eq_true_eq, deletes_eq, hdeleted,
        and_iff_right hmem, and_assoc]
      rfl
    rw [← hkept]
    exact List.map_congr_left fun o ho => updated_eq (List.mem_filter.mp ho).1
  · rw [roundOf, List.filter_filter]
    show _ = (((childrenOf settings enabled ns).map merge.created).filter fun c =>
      objectId c ∉ owned.objects.map objectId).filter (ok ∘ objectId)
    rw [List.filter_filter, List.filter_map]
    congr 1
    refine List.filter_congr fun c _ => ?_
    simp only [Function.comp_apply, merge.objectId_created]
    rw [Bool.eq_iff_iff, Bool.and_eq_true, Bool.and_eq_true, decide_eq_true_eq, decide_eq_true_eq]
    tauto

/-- Rounds are those of the reconciliation. -/
theorem rounds_eq (h : Labelled parent enabled ns)
    (hrounds : Rounds settings merge parent owned oks owned') :
    present settings merge enabled ns owned' =
      (wanted settings merge enabled ns).run oks (present settings merge enabled ns owned) := by
  induction hrounds with
  | nil owned => rfl
  | @cons owned owned₁ owned₂ ok oks r hr hafter _ ih =>
    rw [attempt_eq settings merge h] at hr
    cases hr
    have hround : present settings merge enabled ns owned₁ =
        (wanted settings merge enabled ns).round ok (present settings merge enabled ns owned) := by
      apply Reconcile.Present.ext
      exact hafter.trans after_eq
    rw [ih, hround]
    rfl

/-- However the requests of the rounds before have failed, another round can be made. -/
theorem exists_rounds (settings : Settings) (merge : Merge) (h : Labelled parent enabled ns)
    (owned : Owned) (oks : List (ObjectId → Bool)) :
    ∃ owned', Rounds settings merge parent owned oks owned' := by
  induction oks generalizing owned with
  | nil => exact ⟨owned, .nil owned⟩
  | cons ok oks ih =>
    obtain ⟨owned', hrounds⟩ := ih ⟨_, ((wanted settings merge enabled ns).round ok
      (present settings merge enabled ns owned)).distinct⟩
    exact ⟨owned', .cons (attempt_eq settings merge h owned) after_eq.symm hrounds⟩

/-- The requests about an object that the last round has to make are those of the first one, when none of
them has gone through. -/
structure LeftOf (r r' : Round) (oks : List (ObjectId → Bool)) (id : ObjectId) : Prop where
  creates : id ∈ r'.creates.map objectId ↔
    id ∈ r.creates.map objectId ∧ ∀ ok ∈ oks, ok id = false
  updates : id ∈ r'.updates.map objectId ↔
    id ∈ r.updates.map objectId ∧ ∀ ok ∈ oks, ok id = false
  deletes : id ∈ r'.deletes.map objectId ↔
    id ∈ r.deletes.map objectId ∧ ∀ ok ∈ oks, ok id = false

/-- What a round after others has to do is what the first one had to do, less the requests that have gone
through in one of them. -/
theorem requests_after (h : Labelled parent enabled ns)
    (hrounds : Rounds settings merge parent owned oks owned') :
    LeftOf (roundOf settings merge enabled ns owned) (roundOf settings merge enabled ns owned') oks
      id := by
  refine ⟨?_, ?_, ?_⟩
  · rw [creates_ids, creates_ids, rounds_eq h hrounds]
    exact Reconcile.Desired.creates_run (d := wanted settings merge enabled ns)
  · rw [updates_ids, updates_ids, rounds_eq h hrounds]
    exact Reconcile.Desired.updates_run (d := wanted settings merge enabled ns)
  · rw [deletes_eq, deletes_eq, rounds_eq h hrounds]
    exact Reconcile.Desired.deletes_run (d := wanted settings merge enabled ns)

/-- Rounds leave what the first one would have left, had all gone through in it that has gone through in
one of them. -/
theorem mem_after_rounds (h : Labelled parent enabled ns)
    (hrounds : Rounds settings merge parent owned oks owned') :
    o ∈ owned'.objects ↔
      o ∈ after merge (roundOf settings merge enabled ns owned) (fun id => oks.any (· id)) owned := by
  have hobjects : owned'.objects = ((wanted settings merge enabled ns).run oks
      (present settings merge enabled ns owned)).objects := by
    rw [← rounds_eq h hrounds]
    rfl
  rw [hobjects, after_eq]
  exact Reconcile.Desired.mem_run (d := wanted settings merge enabled ns)

/-- From any state of a namespace, with any label, rounds can be made without end. Each has left to do what
the first one had to do and what has failed in all those before it, and what is there is what the first one
would have left, had all gone through in it that has gone through in one of them. -/
theorem rounds_requests (settings : Settings) (merge : Merge) (h : Labelled parent enabled ns)
    (owned : Owned) (oks : List (ObjectId → Bool)) :
    (∃ owned', Rounds settings merge parent owned oks owned') ∧
      ∀ owned', Rounds settings merge parent owned oks owned' → ∃ r r',
        attempt settings merge parent owned = .ok r ∧ attempt settings merge parent owned' = .ok r' ∧
        (∀ id, LeftOf r r' oks id) ∧
        ∀ o, o ∈ owned'.objects ↔ o ∈ after merge r (fun id => oks.any (· id)) owned := by
  refine ⟨exists_rounds settings merge h owned oks, fun owned' hrounds => ?_⟩
  exact ⟨_, _, attempt_eq settings merge h owned, attempt_eq settings merge h owned',
    fun _ => requests_after h hrounds, fun _ => mem_after_rounds h hrounds⟩

end

/-! A namespace with an artifact fetcher of an older version and a configuration that is no longer desired,
and two rounds: in the first the requests about services go through, in the second all but those about
destination rules. -/

def tektonSettings : Settings := ⟨"1.5.0", false, "YQ==", "Yg=="⟩

theorem labelled_userNamespace : Labelled userNamespace (.str "true") "user" := ⟨rfl, rfl⟩

def imageOf (o : Value) : Option String :=
  o.textAt [.key "spec", .key "template", .key "spec", .key "containers", .index 0, .key "image"]

/-- For objects that differ from the desired ones in nothing but their image. -/
def imageMerge : Merge where
  created c := c
  update o c := if imageOf o = imageOf c then none else some c
  objectId_created _ := rfl
  objectId_update hid h := by
    split at h
    · cases h
    · cases h
      exact hid.symm
  update_update _ h := by
    split at h
    · cases h
    · cases h
      exact if_pos rfl
  update_created _ := if_pos rfl

def oldConfigmap : Value :=
  .dict [("apiVersion", .str "v1"), ("kind", .str "ConfigMap"),
    ("metadata", metadata "ml-pipeline-config" (.str "user"))]

def oldFetcher : Value :=
  artifactDeployment { tektonSettings.pods with kfpVersion := "1.4.0" } (.str "user")

def newFetcher : Value := artifactDeployment tektonSettings.pods (.str "user")

def stale : Owned where
  objects := [oldConfigmap, oldFetcher]
  distinct := by decide

def staleRounds : List (ObjectId → Bool) :=
  [fun id => id.kind = "Service", fun id => id.kind ≠ "DestinationRule"]

/-- The first round, and what is left of its requests. -/
theorem stale_attempt : attempt tektonSettings imageMerge userNamespace stale = .ok {
    creates := (desiredResources tektonSettings (.str "user")).eraseIdx 5
    updates := [newFetcher]
    deletes := [oldConfigmap]
    status := [("kubeflow-pipelines-ready", .str "False")] } :=
  (attempt_eq tektonSettings imageMerge labelled_userNamespace stale).trans rfl

theorem failed_staleRounds {id : ObjectId} :
    (∀ ok ∈ staleRounds, ok id = false) ↔ id.kind = "DestinationRule" := by
  have hservice : id.kind = "DestinationRule" → ¬ id.kind = "Service" := by
    rintro h
    rw [h]
    decide
  simpa [staleRounds] using hservice

/-- Behind the two rounds the old configuration is gone and the artifact fetcher is the new one, and the
destination rule is still to be created. -/
theorem rounds_requests_stale : ∃ owned' r',
    Rounds tektonSettings imageMerge userNamespace stale staleRounds owned' ∧
      attempt tektonSettings imageMerge userNamespace owned' = .ok r' ∧
      (∀ o, o ∈ owned'.objects ↔
        o ∈ newFetcher :: ((desiredResources tektonSettings (.str "user")).eraseIdx 5).eraseIdx 2) ∧
      (∀ id, id ∈ r'.creates.map objectId ↔
        id = objectId (visualizationDestinationRule (.str "user"))) ∧
      r'.updates = [] ∧ r'.deletes = [] := by
  obtain ⟨⟨owned', hrounds⟩, hall⟩ :=
    rounds_requests tektonSettings imageMerge labelled_userNamespace stale staleRounds
  obtain ⟨r, r', hr, hr', hleft, hobjects⟩ := hall owned' hrounds
  rw [stale_attempt] at hr
  cases hr
  refine ⟨owned', r', hrounds, hr', hobjects, fun id => ?_, ?_, ?_⟩
  · rw [(hleft id).creates, failed_staleRounds]
    constructor
    · rintro ⟨hid, hkind⟩
      have hmem : id ∈ (desiredIds "user").eraseIdx 5 := hid
      simp only [desiredIds, List.eraseIdx, List.mem_cons, List.not_mem_nil, or_false] at hmem
      rcases hmem with rfl | rfl | rfl | rfl | rfl | rfl | rfl <;>
        first | rfl | exact absurd hkind (by decide)
    · rintro rfl
      exact ⟨List.mem_map_of_mem (by simp [desiredResources]), rfl⟩
  · rw [← List.map_eq_nil_iff (f := objectId), List.eq_nil_iff_forall_not_mem]
    intro id hid
    obtain ⟨hfetcher, hfailed⟩ := (hleft id).updates.mp hid
    rw [failed_staleRounds, List.mem_singleton.mp hfetcher] at hfailed
    exact absurd hfailed (by decide)
  · rw [← List.map_eq_nil_iff (f := objectId), List.eq_nil_iff_forall_not_mem]
    intro id hid
    obtain ⟨hconfigmap, hfailed⟩ := (hleft id).deletes.mp hid
    rw [failed_staleRounds, List.mem_singleton.mp hconfigmap] at hfailed
    exact absurd hfailed (by decide)

section
variable {settings : Settings} {merge : Merge} {parent : Value} {ns : String} {owned owned' : Owned}
  {r r' : Round} {oks : List (ObjectId → Bool)}

/-- The counts are those of the desired children of each declared kind. -/
theorem readyCounts_eq (ns : String) : readyCounts = childResources.map fun c =>
    (c.kind ++ "." ++ c.apiVersion, ((desiredIds ns).filter c.serves).length) := by
  simp [readyCounts, childResources, desiredIds, ChildResource.serves]

theorem countOf_observe (owned : Owned) {c : ChildResource} (hc : c ∈ childResources) :
    countOf (observe owned) (c.kind ++ "." ++ c.apiVersion) =
      ((owned.objects.map objectId).filter c.serves).length := by
  rw [countOf, lookup_observe owned hc, Option.getD_some, List.filter_map, List.length_map]

/-- When nothing is to be deleted, the report says whether anything is to be created. -/
theorem ready_iff (hdeletes : (roundOf settings merge (.str "true") ns owned).deletes = []) :
    (report (.str "true") owned).get "kubeflow-pipelines-ready" = some (.str "True") ↔
      ∀ id, id ∉ (roundOf settings merge (.str "true") ns owned).creates.map objectId := by
  have hids : (wanted settings merge (.str "true") ns).ids = desiredIds ns := wanted_ids
  have hcover : ∀ id ∈ (wanted settings merge (.str "true") ns).ids,
      ∃ c ∈ childResources.map ChildResource.serves, c id = true := by
    intro id hid
    rw [hids] at hid
    obtain ⟨c, hc, hserves⟩ := List.any_eq_true.mp (declared_of_mem hid)
    exact ⟨_, List.mem_map_of_mem hc, hserves⟩
  have hwatched : ∀ c ∈ childResources.map ChildResource.serves, ∀ id, c id = true →
      (wanted settings merge (.str "true") ns).watched id = true := by
    intro c hc id hserves
    obtain ⟨resource, hresource, rfl⟩ := List.mem_map.mp hc
    exact serves_declared hresource hserves
  rw [deletes_eq] at hdeletes
  simp only [creates_ids, ← List.eq_nil_iff_forall_not_mem, List.map_eq_nil_iff]
  rw [Reconcile.Desired.creates_eq_nil_iff hcover hwatched hdeletes, hids, List.forall_mem_map]
  have hready : (readyCounts.all fun p => countOf (observe owned) p.1 == p.2) = true ↔
      ∀ c ∈ childResources, ((owned.objects.map objectId).filter c.serves).length =
        ((desiredIds ns).filter c.serves).length := by
    rw [readyCounts_eq ns, List.all_map, List.all_eq_true]
    refine forall_congr' fun c => forall_congr' fun hc => ?_
    rw [Function.comp_apply, countOf_observe owned hc, beq_iff_eq]
  refine Iff.trans ?_ hready
  have htrue : isTrue (Value.str "true") = true := by decide
  rw [report, htrue, if_pos rfl]
  cases readyCounts.all fun p => countOf (observe owned) p.1 == p.2 <;> simp [Dict.get]

/-- When every deletion that was needed has gone through in one of the rounds, the namespace is reported
ready after them exactly when every creation that was needed has, too. -/
theorem ready_after_rounds (h : Labelled parent (.str "true") ns)
    (hr : attempt settings merge parent owned = .ok r)
    (hrounds : Rounds settings merge parent owned oks owned')
    (hr' : attempt settings merge parent owned' = .ok r')
    (hdeletes : ∀ o ∈ r.deletes, ∃ ok ∈ oks, ok (objectId o) = true) :
    r'.status.get "kubeflow-pipelines-ready" = some (.str "True") ↔
      ∀ c ∈ r.creates, ∃ ok ∈ oks, ok (objectId c) = true := by
  rw [attempt_eq settings merge h] at hr hr'
  cases hr
  cases hr'
  have hleft (id : ObjectId) : LeftOf (roundOf settings merge (.str "true") ns owned)
      (roundOf settings merge (.str "true") ns owned') oks id := requests_after h hrounds
  have hnone : (roundOf settings merge (.str "true") ns owned').deletes = [] := by
    rw [← List.map_eq_nil_iff (f := objectId), List.eq_nil_iff_forall_not_mem]
    intro id hid
    obtain ⟨hfirst, hfailed⟩ := (hleft id).deletes.mp hid
    obtain ⟨o, ho, rfl⟩ := List.mem_map.mp hfirst
    obtain ⟨ok, hok, hthrough⟩ := hdeletes o ho
    rw [hfailed ok hok] at hthrough
    cases hthrough
  refine (ready_iff hnone).trans ?_
  simp only [(hleft _).creates]
  constructor
  · intro hall c hc
    by_contra hnot
    push Not at hnot
    exact hall (objectId c) ⟨List.mem_map_of_mem hc, fun ok hok => by simpa using hnot ok hok⟩
  · rintro hall id ⟨hfirst, hfailed⟩
    obtain ⟨c, hc, rfl⟩ := List.mem_map.mp hfirst
    obtain ⟨ok, hok, hthrough⟩ := hall c hc
    rw [hfailed ok hok] at hthrough
    cases hthrough

end

/-- Behind the two rounds nothing is to be deleted, and the namespace is not reported ready. -/
theorem ready_after_rounds_stale : ∃ owned' r',
    Rounds tektonSettings imageMerge userNamespace stale staleRounds owned' ∧
      attempt tektonSettings imageMerge userNamespace owned' = .ok r' ∧
      ¬ r'.status.get "kubeflow-pipelines-ready" = some (.str "True") := by
  obtain ⟨owned', hrounds⟩ :=
    exists_rounds tektonSettings imageMerge labelled_userNamespace stale staleRounds
  have hr' := attempt_eq tektonSettings imageMerge labelled_userNamespace owned'
  refine ⟨owned', _, hrounds, hr', fun hready => ?_⟩
  have hdeletes : ∀ o ∈ [oldConfigmap], ∃ ok ∈ staleRounds, ok (objectId o) = true :=
    List.forall_mem_singleton.mpr ⟨_, List.mem_cons_of_mem _ (List.mem_singleton_self _), rfl⟩
  have hrule : visualizationDestinationRule (.str "user") ∈
      (desiredResources tektonSettings (.str "user")).eraseIdx 5 := by
    simp [desiredResources]
  obtain ⟨ok, hok, hthrough⟩ :=
    (ready_after_rounds labelled_userNamespace stale_attempt hrounds hr' hdeletes).mp hready _ hrule
  have hfailed := failed_staleRounds.mpr
    (rfl : (objectId (visualizationDestinationRule (.str "user"))).kind = "DestinationRule") ok hok
  rw [hfailed] at hthrough
  cases hthrough

end Manifests.KfpTekton
