import Manifests.ProfileController

/-! Rounds of metacontroller over the profile controller: what is created and deleted, and what
is left to do in the next round. -/
namespace Manifests.ProfileController
open Library

/-- The owned objects of a namespace, one for each identity. -/
structure Owned where
  objects : List Value
  distinct : (objects.map objectId).Nodup

/-- The owned objects that metacontroller sees. -/
def observed (owned : Owned) : List Value := owned.objects.filter (declared ∘ objectId)

/-- The observed objects as they are handed to `sync`. -/
def observe (owned : Owned) : Children :=
  childResources.map fun r =>
    (r.kind ++ "." ++ r.apiVersion, owned.objects.filter (r.serves ∘ objectId))

/-- What one round sets out to do. -/
structure Round where
  creates : List Value
  deletes : List Value
  status : Dict

/-- Every desired child that is not observed is created, every observed one that is not
desired is deleted. -/
def attempt (settings : Settings) (parent : Value) (owned : Owned) : Except PyError Round := do
  let synced ← sync settings parent (observe owned)
  return { creates := synced.children.filter fun c => objectId c ∉ (observed owned).map objectId,
           deletes := (observed owned).filter fun o => objectId o ∉ synced.children.map objectId,
           status := synced.status }

/-- All the creates of a round go through: no object is there already, and none comes twice. -/
structure Round.Succeeds (r : Round) (owned : Owned) : Prop where
  absent : ∀ c ∈ r.creates, objectId c ∉ owned.objects.map objectId
  distinct : (r.creates.map objectId).Nodup

theorem apply_distinct {r : Round} {owned : Owned} (h : r.Succeeds owned) :
    ((owned.objects.filter (fun o => objectId o ∉ r.deletes.map objectId) ++ r.creates).map
      objectId).Nodup := by
  rw [List.map_append, List.nodup_append']
  refine ⟨owned.distinct.sublist (List.filter_sublist.map objectId), h.distinct, ?_⟩
  intro id ho hc
  obtain ⟨c, hcr, rfl⟩ := List.mem_map.mp hc
  obtain ⟨o, hor, he⟩ := List.mem_map.mp ho
  exact h.absent c hcr (List.mem_map.mpr ⟨o, (List.mem_filter.mp hor).1, he⟩)

/-- The owned objects after a round that succeeds. -/
def Round.apply (r : Round) (owned : Owned) (h : r.Succeeds owned) : Owned where
  objects := owned.objects.filter (fun o => objectId o ∉ r.deletes.map objectId) ++ r.creates
  distinct := apply_distinct h

/-- Nothing is left to do, and the namespace is reported ready. -/
def AtFixpoint (settings : Settings) (parent : Value) (owned : Owned) : Prop :=
  ∃ r, attempt settings parent owned = .ok r ∧ r.creates = [] ∧ r.deletes = [] ∧
    r.status.get "kubeflow-pipelines-ready" = some (.str "True")

def roleId (ns : String) : ObjectId :=
  ⟨"rbac.authorization.k8s.io/v1", "Role", ns, "workflow-role"⟩

def roleBindingId (ns : String) : ObjectId :=
  ⟨"rbac.authorization.k8s.io/v1", "RoleBinding", ns, "workflow-default-binding"⟩

/-- The identities of the desired children that metacontroller observes. -/
def declaredIds (ns : String) : List ObjectId :=
  [⟨"v1", "ConfigMap", ns, "metadata-grpc-configmap"⟩,
    ⟨"apps/v1", "Deployment", ns, "ml-pipeline-visualizationserver"⟩,
    ⟨"networking.istio.io/v1alpha3", "DestinationRule", ns, "ml-pipeline-visualizationserver"⟩,
    ⟨"security.istio.io/v1beta1", "AuthorizationPolicy", ns, "ml-pipeline-visualizationserver"⟩,
    ⟨"v1", "Service", ns, "ml-pipeline-visualizationserver"⟩,
    ⟨"apps/v1", "Deployment", ns, "ml-pipeline-ui-artifact"⟩,
    ⟨"v1", "Service", ns, "ml-pipeline-ui-artifact"⟩,
    ⟨"v1", "Secret", ns, "minio-params"⟩]

variable {settings : Settings} {parent : Value} {ns : String} {owned : Owned} {r : Round}

theorem desired_ids (settings : Settings) (ns : String) :
    (desiredResources settings (.str ns)).map objectId =
      declaredIds ns ++ [roleId ns, roleBindingId ns] := by
  rfl

theorem declared_of_mem {id : ObjectId} (h : id ∈ declaredIds ns) : declared id = true := by
  simp only [declaredIds, List.mem_cons, List.not_mem_nil, or_false] at h
  rcases h with rfl | rfl | rfl | rfl | rfl | rfl | rfl | rfl <;>
    simp [declared, childResources, ChildResource.serves]

theorem not_declared_role : declared (roleId ns) = false := by
  simp [declared, childResources, ChildResource.serves, roleId]

theorem not_declared_roleBinding : declared (roleBindingId ns) = false := by
  simp [declared, childResources, ChildResource.serves, roleBindingId]

theorem desired_nodup (settings : Settings) (ns : String) :
    ((desiredResources settings (.str ns)).map objectId).Nodup := by
  rw [desired_ids settings ns]
  simp [declaredIds, roleId, roleBindingId]

theorem lookup_observe (owned : Owned) {c : ChildResource} (h : c ∈ childResources) :
    (observe owned).lookup (c.kind ++ "." ++ c.apiVersion) =
      some (owned.objects.filter (c.serves ∘ objectId)) := by
  simp only [childResources, List.mem_cons, List.not_mem_nil, or_false] at h
  rcases h with rfl | rfl | rfl | rfl | rfl | rfl <;> simp [observe, childResources, List.lookup]

/-- The status of a round counts the owned objects of each declared kind. -/
theorem allCounts_observe (owned : Owned) : allCounts (observe owned) readyCounts =
    .ok (readyCounts.all fun p => countOf (observe owned) p.1 == p.2) := by
  have hdeclared : ObservesDeclared (observe owned) := fun c hc =>
    Option.isSome_iff_exists.mpr ⟨_, lookup_observe owned hc⟩
  exact hdeclared.allCounts

/-- The round that every state of the namespace leads to. -/
theorem attempt_eq (settings : Settings) (he : Enabled parent ns) (owned : Owned) :
    attempt settings parent owned = .ok {
      creates := (desiredResources settings (.str ns)).filter fun c =>
        objectId c ∉ (observed owned).map objectId
      deletes := (observed owned).filter fun o =>
        objectId o ∉ declaredIds ns ++ [roleId ns, roleBindingId ns]
      status := [("kubeflow-pipelines-ready", .str
        (if readyCounts.all fun p => countOf (observe owned) p.1 == p.2 then "True" else "False"))] } := by
  have hs : sync settings parent (observe owned) = .ok {
      status := [("kubeflow-pipelines-ready", .str
        (if readyCounts.all fun p => countOf (observe owned) p.1 == p.2 then "True" else "False"))]
      children := desiredResources settings (.str ns) } := by
    simp [sync, he.label, he.name, allCounts_observe, isTrue, bind, Except.bind, pure, Except.pure]
  rw [attempt, hs, ← desired_ids settings ns]
  rfl

theorem mem_desired_iff {id : ObjectId} : id ∈ declaredIds ns ↔
    id ∈ declaredIds ns ++ [roleId ns, roleBindingId ns] ∧ declared id = true := by
  constructor
  · intro h
    exact ⟨List.mem_append_left _ h, declared_of_mem h⟩
  · rintro ⟨h, hd⟩
    simp only [List.mem_append, List.mem_cons, List.not_mem_nil, or_false] at h
    rcases h with h | rfl | rfl
    · exact h
    · simp [not_declared_role] at hd
    · simp [not_declared_roleBinding] at hd

theorem mem_observed_ids {id : ObjectId} : id ∈ (observed owned).map objectId ↔
    id ∈ owned.objects.map objectId ∧ declared id = true := by
  simp only [observed, List.mem_map, List.mem_filter, Function.comp]
  constructor
  · rintro ⟨o, ⟨ho, hd⟩, rfl⟩
    exact ⟨⟨o, ho, rfl⟩, hd⟩
  · rintro ⟨⟨o, ho, rfl⟩, hd⟩
    exact ⟨o, ⟨ho, hd⟩, rfl⟩

/-- After a round that succeeds, the observed objects are exactly the desired children of the
declared kinds, whatever was there before. -/
theorem observed_apply (he : Enabled parent ns) (hr : attempt settings parent owned = .ok r)
    (hs : r.Succeeds owned) (id : ObjectId) :
    id ∈ (observed (r.apply owned hs)).map objectId ↔ id ∈ declaredIds ns := by
  rw [attempt_eq settings he] at hr
  cases hr
  rw [mem_observed_ids, mem_desired_iff]
  refine and_congr_left fun hd => ?_
  constructor
  · intro hm
    obtain ⟨o, ho, rfl⟩ := List.mem_map.mp hm
    rcases List.mem_append.mp ho with ho | ho
    · obtain ⟨hown, hn⟩ := List.mem_filter.mp ho
      by_contra hd'
      apply of_decide_eq_true hn
      refine List.mem_map_of_mem (List.mem_filter.mpr ⟨List.mem_filter.mpr ⟨hown, hd⟩, ?_⟩)
      simpa using hd'
    · rw [← desired_ids settings ns]
      exact List.mem_map_of_mem (List.mem_filter.mp ho).1
  · intro hm
    rw [← desired_ids settings ns] at hm
    obtain ⟨c, hc, rfl⟩ := List.mem_map.mp hm
    by_cases ho : objectId c ∈ (observed owned).map objectId
    · obtain ⟨o, ho, he⟩ := List.mem_map.mp ho
      rw [← he]
      refine List.mem_map_of_mem (List.mem_append_left _ (List.mem_filter.mpr
        ⟨(List.mem_filter.mp ho).1, ?_⟩))
      -- a desired object is not among the deleted ones
      apply decide_eq_true
      intro hdel
      obtain ⟨o', ho', he'⟩ := List.mem_map.mp hdel
      apply of_decide_eq_true (List.mem_filter.mp ho').2
      rwa [he', he]
    · exact List.mem_map_of_mem (List.mem_append_right _ (List.mem_filter.mpr ⟨hc, by simpa using ho⟩))

/-- The three hand-kept lists agree on the declared kinds. -/
theorem readyCounts_eq (ns : String) : readyCounts = childResources.map fun c =>
    (c.kind ++ "." ++ c.apiVersion, ((declaredIds ns).filter c.serves).length) := by
  simp [readyCounts, childResources, declaredIds, ChildResource.serves]

theorem serves_declared {c : ChildResource} (hc : c ∈ childResources) {id : ObjectId}
    (h : c.serves id = true) : declared id = true :=
  List.any_eq_true.mpr ⟨c, hc, h⟩

/-- The number of observed objects of a kind only depends on their identities. -/
theorem countOf_observe {ids : List ObjectId} (hn : ids.Nodup)
    (h : ∀ id, id ∈ (observed owned).map objectId ↔ id ∈ ids) {c : ChildResource}
    (hc : c ∈ childResources) :
    countOf (observe owned) (c.kind ++ "." ++ c.apiVersion) = (ids.filter c.serves).length := by
  rw [countOf, lookup_observe owned hc, Option.getD_some, ← List.length_map objectId,
    ← List.filter_map]
  apply List.Perm.length_eq
  rw [List.perm_ext_iff_of_nodup (owned.distinct.filter _) (hn.filter _)]
  intro id
  rw [List.mem_filter, List.mem_filter, ← h id, mem_observed_ids]
  constructor
  · rintro ⟨hm, hserves⟩
    exact ⟨⟨hm, serves_declared hc hserves⟩, hserves⟩
  · rintro ⟨⟨hm, _⟩, hserves⟩
    exact ⟨hm, hserves⟩

theorem declaredIds_nodup : (declaredIds ns).Nodup := by
  simp [declaredIds]

/-- The round after one that succeeds: the namespace is reported ready and nothing is deleted,
but the role and its binding, which are not observed, are created once more. -/
theorem attempt_apply (he : Enabled parent ns) (hr : attempt settings parent owned = .ok r)
    (hs : r.Succeeds owned) :
    attempt settings parent (r.apply owned hs) = .ok {
      creates := [workflowRole (.str ns), workflowDefaultBinding (.str ns)]
      deletes := []
      status := [("kubeflow-pipelines-ready", .str "True")] } := by
  have hobs := observed_apply he hr hs
  have hcreates : ((desiredResources settings (.str ns)).filter fun c =>
      objectId c ∉ (observed (r.apply owned hs)).map objectId) =
      [workflowRole (.str ns), workflowDefaultBinding (.str ns)] := by
    have hsplit : desiredResources settings (.str ns) =
        (desiredResources settings (.str ns)).take 8 ++
          [workflowRole (.str ns), workflowDefaultBinding (.str ns)] := rfl
    have hids : ((desiredResources settings (.str ns)).take 8).map objectId = declaredIds ns := rfl
    have hnil : (((desiredResources settings (.str ns)).take 8).filter fun c =>
        objectId c ∉ declaredIds ns) = [] := by
      rw [List.filter_eq_nil_iff]
      intro c hc
      have hm : objectId c ∈ declaredIds ns := hids ▸ List.mem_map_of_mem hc
      simp [hm]
    simp only [hobs]
    rw [hsplit, List.filter_append, hnil]
    rfl
  have hdeletes : ((observed (r.apply owned hs)).filter fun o =>
      objectId o ∉ declaredIds ns ++ [roleId ns, roleBindingId ns]) = [] := by
    rw [List.filter_eq_nil_iff]
    intro o ho
    have hm := (hobs (objectId o)).mp (List.mem_map_of_mem ho)
    simp [hm]
  have hready : (readyCounts.all fun p => countOf (observe (r.apply owned hs)) p.1 == p.2) = true := by
    rw [readyCounts_eq ns, List.all_map, List.all_eq_true]
    intro c hc
    simp [countOf_observe declaredIds_nodup hobs hc]
  rw [attempt_eq settings he, hcreates, hdeletes, hready]
  rfl

/-- Whether a round succeeds only depends on the objects that are never observed. -/
theorem succeeds_iff (he : Enabled parent ns) (hr : attempt settings parent owned = .ok r) :
    r.Succeeds owned ↔
      roleId ns ∉ owned.objects.map objectId ∧ roleBindingId ns ∉ owned.objects.map objectId := by
  rw [attempt_eq settings he] at hr
  cases hr
  have hunseen : ∀ v ∈ desiredResources settings (.str ns), declared (objectId v) = false →
      v ∈ (desiredResources settings (.str ns)).filter fun c =>
        objectId c ∉ (observed owned).map objectId := by
    intro v hv hd
    refine List.mem_filter.mpr ⟨hv, decide_eq_true ?_⟩
    intro hm
    simp [(mem_observed_ids.mp hm).2] at hd
  constructor
  · intro hs
    constructor
    · exact hs.absent _ (hunseen (workflowRole (.str ns)) (by simp [desiredResources])
        not_declared_role)
    · exact hs.absent _ (hunseen (workflowDefaultBinding (.str ns)) (by simp [desiredResources])
        not_declared_roleBinding)
  · rintro ⟨hrole, hbinding⟩
    constructor
    · intro c hc hm
      obtain ⟨hcd, hn⟩ := List.mem_filter.mp hc
      have hid : objectId c ∈ declaredIds ns ++ [roleId ns, roleBindingId ns] := by
        rw [← desired_ids settings ns]
        exact List.mem_map_of_mem hcd
      simp only [List.mem_append, List.mem_cons, List.not_mem_nil, or_false] at hid
      rcases hid with hid | hid | hid
      · exact of_decide_eq_true hn (mem_observed_ids.mpr ⟨hm, declared_of_mem hid⟩)
      · exact hrole (hid ▸ hm)
      · exact hbinding (hid ▸ hm)
    · exact (desired_nodup settings ns).sublist (List.filter_sublist.map objectId)

/-- After one round in which every create and delete succeeds, nothing is left to do. -/
def Settles (settings : Settings) (parent : Value) (owned : Owned) : Prop :=
  ∀ r (hs : r.Succeeds owned), attempt settings parent owned = .ok r →
    AtFixpoint settings parent (r.apply owned hs)

/-- The law holds of a namespace only when its first round fails: the role or its binding is
there already, and creating it again is an error. -/
theorem settles_iff (settings : Settings) (parent : Value) (ns : String) (owned : Owned)
    (he : Enabled parent ns) : Settles settings parent owned ↔
      roleId ns ∈ owned.objects.map objectId ∨ roleBindingId ns ∈ owned.objects.map objectId := by
  have hr := attempt_eq settings he owned
  constructor
  · intro hset
    by_contra hn
    rw [not_or] at hn
    obtain ⟨r, hnext, hc, _⟩ := hset _ ((succeeds_iff he hr).mpr hn) hr
    rw [attempt_apply he hr] at hnext
    cases hnext
    cases hc
  · intro hm r hs hr'
    obtain ⟨hrole, hbinding⟩ := (succeeds_iff he hr').mp hs
    rcases hm with hm | hm
    · exact (hrole hm).elim
    · exact (hbinding hm).elim

/-- A namespace that has just been labelled. -/
def userNamespace : Value :=
  .dict [("metadata", .dict [("name", .str "user"),
    ("labels", .dict [("pipelines.kubeflow.org/enabled", .str "true")])])]

theorem enabled_userNamespace : Enabled userNamespace "user" := ⟨rfl, rfl⟩

def someSettings : Settings := ⟨"1.5.0", false, "YQ==", "Yg==", "aA==", "OTAwMA==", "ZmFsc2U=", ""⟩

theorem settles_iff_user : Settles someSettings userNamespace ⟨[], by decide⟩ ↔
    roleId "user" ∈ ([] : List Value).map objectId ∨
      roleBindingId "user" ∈ ([] : List Value).map objectId :=
  settles_iff someSettings userNamespace "user" ⟨[], by decide⟩ enabled_userNamespace

/-- A fresh namespace never settles. -/
theorem not_settles : ¬ ∀ settings parent ns owned, Enabled parent ns →
    Settles settings parent owned := by
  intro h
  have hs := h someSettings userNamespace "user" ⟨[], by decide⟩ enabled_userNamespace
  have hr := attempt_eq someSettings enabled_userNamespace ⟨[], by decide⟩
  obtain ⟨r, hnext, hc, _⟩ := hs _ ((succeeds_iff enabled_userNamespace hr).mpr (by simp)) hr
  rw [attempt_apply enabled_userNamespace hr] at hnext
  cases hnext
  cases hc

end Manifests.ProfileController
