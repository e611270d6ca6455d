import Manifests.Installer

/-! Whether a stage of the installer is complete when it is left. -/
namespace Manifests.Installer
open Library Command

/-- The components whose applies stand in the function of a deploy stage. -/
def Stage.components (settings : Settings) (probe : SecretProbe) : Stage → List String
  | .certManager => certManagerCommands.filterMap component
  | .istio => istioCommands.filterMap component
  | .authservices => authservicesCommands.filterMap component
  | .knative => knativeServing :: knativeRest.filterMap component
  | .clusterLocalGateway => clusterLocalGatewayCommands.filterMap component
  | .kfServices =>
    (kfBase ++ (if shouldInstallMinio probe then minio else []) ++ kfServing ++
      centralDashboard settings :: kfApps).filterMap component
  | _ => []

/-- A component was applied by the function of the stage. -/
def Stage.Applied (settings : Settings) (stage : Stage) (attempt : Attempt) (path : String) : Prop :=
  ∃ c ∈ (stage.body settings attempt.probe).applied attempt.succeeds, c.component = some path

/-- The attempt has applied all components of the stage. -/
def Stage.Complete (settings : Settings) (stage : Stage) (attempt : Attempt) : Prop :=
  ∀ path ∈ stage.components settings attempt.probe, stage.Applied settings attempt path

/-- Every stage that a run leaves is complete in the attempt that leaves it. -/
def StagesComplete (settings : Settings) (attempts : List Attempt) : Prop :=
  ∀ stage attempt, (stage, attempt) ∈ trace settings .certManager attempts →
    stage.status settings attempt = true → stage.Complete settings attempt

/-- The commands of `deploy_kf_services` that do not decide its status. -/
def kfEarlier (settings : Settings) (probe : SecretProbe) : List Command :=
  kfBase ++ (if shouldInstallMinio probe then minio else []) ++ kfServing ++ [centralDashboard settings]

/-- What `deploy_kf_services` needs for its status to mean that it is complete: a command of the
last chain fails, or all the commands before it succeed. -/
def StatusTells (settings : Settings) (attempt : Attempt) : Prop :=
  (∃ c ∈ kfApps, attempt.succeeds c = false) ∨
    ∀ c ∈ kfEarlier settings attempt.probe, attempt.succeeds c = true

variable {settings : Settings} {probe : SecretProbe} {stage : Stage} {attempt : Attempt}
  {succeeds : Command → Bool} {cs : List Command} {c : Command} {path : String}

theorem applied_chain (h : cs.all succeeds = true) (hp : path ∈ cs.filterMap component) :
    ∃ c ∈ (Sh.chain cs).applied succeeds, c.component = some path := by
  obtain ⟨c, hc, hpath⟩ := List.mem_filterMap.mp hp
  exact ⟨c, Sh.mem_applied_of_status h hc, hpath⟩

/-- `deploy_knative` returns zero only when knative-serving went through at one of its two goes. -/
theorem knative_complete (h : Stage.knative.status settings attempt = true) :
    Stage.knative.Complete settings attempt := by
  simp only [Stage.status, Stage.body, deployKnative, Sh.andThen_status, Sh.orElse_status,
    Sh.run_status, Sh.chain_status, Bool.and_eq_true, Bool.or_eq_true] at h
  obtain ⟨hserving, hrest⟩ := h
  intro path hp
  obtain rfl | hp := List.mem_cons.mp hp
  · by_cases hfirst : attempt.succeeds (apply knativeServing) = true
    · refine ⟨apply knativeServing, ?_, rfl⟩
      simp [Stage.body, deployKnative, hfirst]
    · have hsecond := hserving.resolve_left hfirst
      refine ⟨reapply knativeServing, ?_, rfl⟩
      simp [Stage.body, deployKnative, hfirst, hsecond]
  · obtain ⟨c, hc, hpath⟩ := applied_chain hrest hp
    refine ⟨c, ?_, hpath⟩
    simp [Stage.body, deployKnative, hc, hserving]

/-- The other stages are complete whenever their function returns zero. -/
theorem complete_of_status (hs : stage ≠ .kfServices) (h : stage.status settings attempt = true) :
    stage.Complete settings attempt := by
  cases stage with
  | certManager => exact fun path hp => applied_chain (Sh.chain_status.symm.trans h) hp
  | istio => exact fun path hp => applied_chain (Sh.chain_status.symm.trans h) hp
  | authservices => exact fun path hp => applied_chain (Sh.chain_status.symm.trans h) hp
  | knative => exact knative_complete h
  | clusterLocalGateway => exact fun path hp => applied_chain (Sh.chain_status.symm.trans h) hp
  | kfServices => exact (hs rfl).elim
  | prism => exact fun _ hp => absurd hp List.not_mem_nil
  | tenantUi => exact fun _ hp => absurd hp List.not_mem_nil
  | finished => exact fun _ hp => absurd hp List.not_mem_nil
  | aborted => exact fun _ hp => absurd hp List.not_mem_nil

/-- Only the last chain decides the status of `deploy_kf_services`. -/
theorem kfServices_status :
    Stage.kfServices.status settings attempt = kfApps.all attempt.succeeds := by
  simp [Stage.status, Stage.body, deployKfServices]

/-- What `deploy_kf_services` applies. -/
theorem mem_applied_kfServices : c ∈ (deployKfServices settings probe).applied succeeds ↔
    c ∈ (Sh.chain kfBase).applied succeeds ∨
      (kfBase.all succeeds = true ∧ shouldInstallMinio probe = true ∧ c ∈ minio ∧ succeeds c = true) ∨
      c ∈ (Sh.chain kfServing).applied succeeds ∨
      (c = centralDashboard settings ∧ succeeds c = true) ∨ c ∈ (Sh.chain kfApps).applied succeeds := by
  have hminio : c ∈ (Sh.ifThen (shouldInstallMinio probe) (.lines minio)).applied succeeds ↔
      shouldInstallMinio probe = true ∧ c ∈ minio ∧ succeeds c = true := by
    unfold Sh.ifThen
    cases shouldInstallMinio probe
    · simp
    · simp [Sh.mem_applied_lines]
  simp only [deployKfServices, Sh.mem_applied_seq, Sh.mem_applied_andThen, Sh.mem_applied_run,
    Sh.chain_status, hminio, or_assoc]

theorem kfServices_complete (happs : kfApps.all attempt.succeeds = true)
    (h : ∀ c ∈ kfEarlier settings attempt.probe, attempt.succeeds c = true) :
    Stage.kfServices.Complete settings attempt := by
  have hbase : kfBase.all attempt.succeeds = true := by
    refine List.all_eq_true.mpr fun c hc => h c ?_
    simp [kfEarlier, hc]
  have hserving : kfServing.all attempt.succeeds = true := by
    refine List.all_eq_true.mpr fun c hc => h c ?_
    simp [kfEarlier, hc]
  have hdashboard := h (centralDashboard settings) (by simp [kfEarlier])
  intro path hp
  obtain ⟨c, hc, hpath⟩ := List.mem_filterMap.mp hp
  refine ⟨c, mem_applied_kfServices.mpr ?_, hpath⟩
  simp only [List.mem_append, List.mem_cons] at hc
  rcases hc with ((hc | hc) | hc) | rfl | hc
  · exact Or.inl (Sh.mem_applied_of_status hbase hc)
  · split at hc
    case isTrue hm =>
      have hok := h c (by simp [kfEarlier, hm, hc])
      exact Or.inr (Or.inl ⟨hbase, hm, hc, hok⟩)
    case isFalse => cases hc
  · exact Or.inr (Or.inr (Or.inl (Sh.mem_applied_of_status hserving hc)))
  · exact Or.inr (Or.inr (Or.inr (Or.inl ⟨rfl, hdashboard⟩)))
  · exact Or.inr (Or.inr (Or.inr (Or.inr (Sh.mem_applied_of_status happs hc))))

/-- Only `deploy_knative` applies a component again. -/
theorem apply_of_component (hc : c ∈ kfEarlier settings probe ++ kfApps)
    (hpath : c.component = some path) : c = apply path := by
  have hno : ∀ path', c ≠ reapply path' := by
    rintro path' rfl
    unfold kfEarlier centralDashboard at hc
    split at hc <;> split at hc <;> simp [kfBase, minio, kfServing, kfApps] at hc
  cases c with
  | apply path' => rw [Option.some.inj hpath]
  | reapply path' => exact (hno path' rfl).elim
  | waitEstablished resource => cases hpath

theorem mem_of_mem_applied (h : c ∈ (deployKfServices settings probe).applied succeeds) :
    c ∈ kfEarlier settings probe ++ kfApps := by
  rcases mem_applied_kfServices.mp h with h | ⟨_, hm, h, _⟩ | h | ⟨rfl, _⟩ | h
  · simp [kfEarlier, Sh.mem_of_mem_applied_chain h]
  · simp [kfEarlier, hm, h]
  · simp [kfEarlier, Sh.mem_of_mem_applied_chain h]
  · simp [kfEarlier]
  · simp [Sh.mem_of_mem_applied_chain h]

theorem apply_mem_of_complete (h : Stage.kfServices.Complete settings attempt)
    (hc : apply path ∈ kfEarlier settings attempt.probe) :
    apply path ∈ (deployKfServices settings attempt.probe).applied attempt.succeeds := by
  have hpath : path ∈ Stage.kfServices.components settings attempt.probe := by
    refine List.mem_filterMap.mpr ⟨apply path, ?_, rfl⟩
    simpa [kfEarlier, or_assoc] using Or.inl hc
  obtain ⟨c, hm, hcomp⟩ := h path hpath
  obtain rfl := apply_of_component (mem_of_mem_applied hm) hcomp
  exact hm

def pipeline : Command := apply "apps/pipeline/upstream/overlays/image-pull-secret"

/-- The pipeline stands behind the wait, and nowhere else. -/
theorem wait_of_pipeline
    (h : pipeline ∈ (deployKfServices settings probe).applied succeeds) :
    succeeds (waitEstablished "crd/applications.app.k8s.io") = true := by
  have hsplit : kfBase = kfBase.take 5 ++ waitEstablished "crd/applications.app.k8s.io" ::
      kfBase.drop 6 := rfl
  rcases mem_applied_kfServices.mp h with h | ⟨_, _, h, _⟩ | h | ⟨h, _⟩ | h
  · rw [hsplit] at h
    exact Sh.succeeds_of_applied_after h (by decide)
  · exact absurd h (by decide)
  · exact absurd (Sh.mem_of_mem_applied_chain h) (by decide)
  · unfold centralDashboard at h
    split at h <;> exact absurd h (by decide)
  · exact absurd (Sh.mem_of_mem_applied_chain h) (by decide)

/-- When everything was applied, the commands before the last chain have succeeded, the wait
included: the chain goes on to the pipeline only after it. -/
theorem kfEarlier_of_complete (h : Stage.kfServices.Complete settings attempt) :
    ∀ c ∈ kfEarlier settings attempt.probe, attempt.succeeds c = true := by
  intro c hc
  cases c with
  | apply path => exact Sh.succeeds_of_mem_applied (apply_mem_of_complete h hc)
  | reapply path => cases apply_of_component (List.mem_append_left _ hc) rfl
  | waitEstablished resource =>
    have hresource : resource = "crd/applications.app.k8s.io" := by
      unfold kfEarlier centralDashboard at hc
      split at hc <;> split at hc <;> simpa [kfBase, minio, kfServing] using hc
    subst hresource
    have hpipeline : pipeline ∈ kfEarlier settings attempt.probe := by
      simp [kfEarlier, kfBase, pipeline]
    exact wait_of_pipeline (apply_mem_of_complete h hpipeline)

theorem statusTells_iff : StatusTells settings attempt ↔
    (Stage.kfServices.status settings attempt = true → Stage.kfServices.Complete settings attempt) := by
  rw [kfServices_status]
  constructor
  · rintro (⟨c, hc, hfail⟩ | hearlier) happs
    · rw [List.all_eq_true.mp happs c hc] at hfail
      cases hfail
    · exact kfServices_complete happs hearlier
  · intro h
    by_cases happs : kfApps.all attempt.succeeds = true
    · exact Or.inr (kfEarlier_of_complete (h happs))
    · obtain ⟨c, hc, hfail⟩ := List.all_eq_false.mp (Bool.not_eq_true _ ▸ happs)
      exact Or.inl ⟨c, hc, by simpa using hfail⟩

/-- The stages that a run leaves are complete exactly when the status of `deploy_kf_services`
tells the truth at every attempt that is made at it. -/
theorem stagesComplete_iff (settings : Settings) (attempts : List Attempt) :
    StagesComplete settings attempts ↔
      ∀ attempt, (Stage.kfServices, attempt) ∈ trace settings .certManager attempts →
        StatusTells settings attempt := by
  constructor
  · intro h attempt hm
    exact statusTells_iff.mpr (h .kfServices attempt hm)
  · intro h stage attempt hm hstatus
    by_cases hs : stage = .kfServices
    · subst hs
      exact statusTells_iff.mp (h attempt hm) hstatus
    · exact complete_of_status hs hstatus

/-- An attempt at which only katib cannot be applied. -/
def katibFails : Attempt where
  succeeds c := c ≠ apply "apps/katib/upstream/installs/katib-with-kubeflow"
  moment := 0
  probe := .found

theorem trace_katibFails : (Stage.kfServices, katibFails) ∈
    trace ⟨true, false⟩ .certManager (List.replicate 4 katibFails) := by
  have h₁ : Stage.certManager.step ⟨true, false⟩ katibFails = .authservices := by decide +kernel
  have h₂ : Stage.authservices.step ⟨true, false⟩ katibFails = .knative := by decide +kernel
  have h₃ : Stage.knative.step ⟨true, false⟩ katibFails = .kfServices := by decide +kernel
  simp [List.replicate, trace, h₁, h₂, h₃]

/-- A run leaves the services without katib. -/
theorem not_stagesComplete : ¬ ∀ settings attempts, StagesComplete settings attempts := by
  intro h
  have hkf := h ⟨true, false⟩ _ .kfServices katibFails trace_katibFails
  obtain ⟨c, hc, hfail⟩ | hearlier := statusTells_iff.mpr hkf
  · have hsucceeds : ∀ c ∈ kfApps, katibFails.succeeds c = true := by decide +kernel
    rw [hsucceeds c hc] at hfail
    cases hfail
  · have hkatib := hearlier (apply "apps/katib/upstream/installs/katib-with-kubeflow")
      (by simp [kfEarlier, kfServing])
    simp [katibFails] at hkatib

end Manifests.Installer
