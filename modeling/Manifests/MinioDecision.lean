import Manifests.Installer.Stages
import Manifests.MinioParams

/-! The two decisions about MinIO: the job takes its parameters from the external secret or the
default config, and the installer applies the in-cluster MinIO or does not. -/
namespace Manifests
open Library Installer

/-- What a probe finds when `stored` is there. -/
def Probes (stored : Option Secret) : SecretProbe → Prop
  | .found => stored.isSome = true
  | .notFound => stored = none
  | .error => True

/-- One run of the job, with the moment it reads the external secret. -/
structure JobRun where
  moment : Nat
  answers : MinioConfig.Answers

/-- The namespace and the name that the installer probes for. -/
def installerSecret : String × String := ("kubeflow-minio", "kubeflow-external-minio")

def jobSecret (settings : MinioConfig.Settings) : String × String :=
  (settings.generalMinioSecretNamespace, settings.generalMinioSecretName)

/-- A history of the secrets of the cluster, with the runs of the job and the attempts of the
installer that meet it. -/
structure Rollout where
  jobSettings : MinioConfig.Settings
  settings : Installer.Settings
  history : Nat → String × String → Option Secret
  jobRuns : List JobRun
  attempts : List Attempt
  reads : ∀ j ∈ jobRuns, Reads (history j.moment (jobSecret jobSettings)) j.answers.minioSecret
  probes : ∀ a, (Stage.kfServices, a) ∈ trace settings .certManager attempts →
    Probes (history a.moment installerSecret) a.probe

namespace Rollout

/-- The runs of the job that succeed. -/
def Succeeded (r : Rollout) (j : JobRun) : Prop :=
  j ∈ r.jobRuns ∧ (MinioConfig.run r.jobSettings j.answers).outcome = .ok ()

/-- The attempts at the services. -/
def Attempted (r : Rollout) (a : Attempt) : Prop :=
  (Stage.kfServices, a) ∈ trace r.settings .certManager r.attempts

/-- The job and the installer have both come to their end. -/
structure Finishes (r : Rollout) : Prop where
  job : ∃ j, r.Succeeded j
  installer : reached r.settings .certManager r.attempts = .finished

/-- `minio-params` was created from the default config, after the read found no secret. -/
def DefaultParams (r : Rollout) : Prop :=
  ∃ j ∈ r.jobRuns, ∃ text data, j.answers.minioSecret = .apiException 404 text ∧
    (MinioConfig.run r.jobSettings j.answers).created = [MinioConfig.minioParams data] ∧
    ∀ field, data.lookup field = (MinioConfig.defaultConfig.lookup field).bind b64encode

/-- The attempt has applied the command. -/
def Applied (r : Rollout) (a : Attempt) (c : Command) : Prop :=
  r.Attempted a ∧ c ∈ (deployKfServices r.settings a.probe).applied a.succeeds

/-- The in-cluster MinIO was applied. -/
def MinioApplied (r : Rollout) : Prop := ∀ c ∈ minio, ∃ a, r.Applied a c

/-- Whenever the installer probes, the secret it probes for is there exactly if the secret of the
job was there when the job read it. The two may have different names. -/
def SamePresence (r : Rollout) : Prop :=
  ∀ j a, r.Succeeded j → r.Attempted a →
    (r.history j.moment (jobSecret r.jobSettings)).isSome = (r.history a.moment installerSecret).isSome

/-- A probe for a secret that is there meets no error. -/
def Answered (r : Rollout) : Prop :=
  ∀ a, r.Attempted a → a.probe = .error → r.history a.moment installerSecret = none

/-- The attempt that ends the services gets through the chain before the MinIO branch, and the
applies in the branch succeed. -/
def GetsThrough (r : Rollout) : Prop :=
  ∀ a, r.Attempted a → Stage.kfServices.status r.settings a = true →
    ∀ c ∈ kfBase ++ minio, a.succeeds c = true

end Rollout

variable {r : Rollout} {a : Attempt} {j : JobRun} {c : Command} {settings : Installer.Settings}
  {stage : Stage} {attempts : List Attempt}

/-- The stages up to the services. -/
def upToServices : Stage → Bool
  | .certManager | .istio | .authservices | .knative | .clusterLocalGateway | .kfServices => true
  | _ => false

/-- A step leads past the services only from them, when their function returns zero. -/
theorem step_upToServices (settings : Installer.Settings) (a : Attempt) (hs : upToServices stage = true) :
    upToServices (stage.step settings a) = true ∨
      (stage = .kfServices ∧ stage.status settings a = true) := by
  by_cases hk : stage = .kfServices ∧ stage.status settings a = true
  · exact Or.inr hk
  left
  rw [not_and] at hk
  unfold Stage.step
  split
  case isTrue hstatus =>
    cases stage with
    | kfServices => exact (hk rfl hstatus).elim
    | certManager =>
      rw [Stage.next]
      split <;> rfl
    | knative =>
      rw [Stage.next]
      split <;> rfl
    | istio => rfl
    | authservices => rfl
    | clusterLocalGateway => rfl
    | prism => cases hs
    | tenantUi => cases hs
    | finished => cases hs
    | aborted => cases hs
  case isFalse => cases stage <;> first | rfl | cases hs

/-- A run that gets past the services has an attempt at which their function returns zero. -/
theorem exists_services_left (hs : upToServices stage = true)
    (hr : upToServices (reached settings stage attempts) = false) :
    ∃ a, (Stage.kfServices, a) ∈ trace settings stage attempts ∧
      Stage.kfServices.status settings a = true := by
  induction attempts generalizing stage with
  | nil =>
    rw [reached, hs] at hr
    cases hr
  | cons a attempts ih =>
    rcases step_upToServices settings a hs with hnext | ⟨rfl, hstatus⟩
    · obtain ⟨b, hb, hstatus⟩ := ih hnext hr
      exact ⟨b, List.mem_cons_of_mem _ hb, hstatus⟩
    · exact ⟨a, List.mem_cons_self, hstatus⟩

theorem minio_apart (settings : Installer.Settings) (hc : c ∈ minio) :
    c ∉ kfBase ++ kfServing ++ centralDashboard settings :: kfApps := by
  obtain ⟨disableIstio, disableNotebookserversLink⟩ := settings
  revert c
  cases disableIstio <;> cases disableNotebookserversLink <;> decide

/-- MinIO is only applied after a probe that does not find the secret. -/
theorem shouldInstall_of_applied (hc : c ∈ minio)
    (h : c ∈ (deployKfServices settings a.probe).applied a.succeeds) :
    shouldInstallMinio a.probe = true := by
  have hapart := minio_apart settings hc
  simp only [List.mem_append, List.mem_cons, not_or] at hapart
  obtain ⟨⟨hbase, hserving⟩, hdashboard, happs⟩ := hapart
  rcases mem_applied_kfServices.mp h with h | ⟨_, hm, _, _⟩ | h | ⟨h, _⟩ | h
  · exact (hbase (Sh.mem_of_mem_applied_chain h)).elim
  · exact hm
  · exact (hserving (Sh.mem_of_mem_applied_chain h)).elim
  · exact (hdashboard h).elim
  · exact (happs (Sh.mem_of_mem_applied_chain h)).elim

/-- The probe decides by the presence of the secret, and with an error as if it was not there. -/
theorem shouldInstall_iff {stored : Option Secret} {probe : SecretProbe} (h : Probes stored probe)
    (hp : probe = .error → stored = none) : shouldInstallMinio probe = true ↔ stored = none := by
  cases probe with
  | found =>
    obtain ⟨secret, rfl⟩ := Option.isSome_iff_exists.mp h
    simp [shouldInstallMinio, minioNeedsToBeInstalled]
  | notFound =>
    have hn : stored = none := h
    simp [shouldInstallMinio, minioNeedsToBeInstalled, hn]
  | error => simp [shouldInstallMinio, minioNeedsToBeInstalled, hp rfl]

namespace Rollout

/-- A run of the job that succeeds has created the parameters, from the default config exactly
when there was no external secret. -/
theorem fromDefault_of_absent (hj : r.Succeeded j)
    (hnone : r.history j.moment (jobSecret r.jobSettings) = none) : r.DefaultParams := by
  have hreads := r.reads j hj.1
  obtain ⟨_, hfail⟩ | ⟨data, hcreated, _, hsource⟩ := MinioConfig.run_cases r.jobSettings j.answers
  · exact (hfail hj.2).elim
  · cases hsource with
    | external hread _ =>
      rw [hread, Reads, hnone] at hreads
      cases hreads
    | default text hread hencoded => exact ⟨j, hj.1, text, data, hread, hcreated, hencoded⟩

theorem absent_of_default (h : r.DefaultParams) :
    ∃ j, r.Succeeded j ∧ r.history j.moment (jobSecret r.jobSettings) = none := by
  obtain ⟨j, hj, text, data, hread, hcreated, _⟩ := h
  refine ⟨j, ⟨hj, ?_⟩, ?_⟩
  · obtain ⟨hnone, _⟩ | ⟨_, _, hok, _⟩ := MinioConfig.run_cases r.jobSettings j.answers
    · rw [hcreated] at hnone
      cases hnone
    · exact hok
  · have hreads := r.reads j hj
    rw [hread] at hreads
    exact hreads rfl

theorem SamePresence.none_iff (hs : r.SamePresence) (hanswered : r.Answered) (hj : r.Succeeded j)
    (ha : r.Attempted a) :
    r.history j.moment (jobSecret r.jobSettings) = none ↔ shouldInstallMinio a.probe = true := by
  have hpresence := hs j a hj ha
  rw [shouldInstall_iff (r.probes a ha) (hanswered a ha), ← Option.not_isSome_iff_eq_none,
    ← Option.not_isSome_iff_eq_none, hpresence]

/-- The installer finishes after an attempt that ends the services. -/
theorem Finishes.exists_left (hf : r.Finishes) :
    ∃ a, r.Attempted a ∧ Stage.kfServices.status r.settings a = true := by
  have hpast : upToServices (reached r.settings .certManager r.attempts) = false := by
    rw [hf.installer]
    rfl
  exact exists_services_left rfl hpast

/-- In a run that finishes, where job and installer meet the same presence: MinIO, or a part of it,
is only applied when the parameters are the default ones, and it is applied then if the attempt
that ends the services gets through to it. -/
theorem minio_decisions_agree (r : Rollout) (hf : r.Finishes) (hs : r.SamePresence)
    (hanswered : r.Answered) : (∀ c ∈ minio, ∀ a, r.Applied a c → r.DefaultParams) ∧
      (r.GetsThrough → (r.MinioApplied ↔ r.DefaultParams)) := by
  have hdefault : ∀ c ∈ minio, ∀ a, r.Applied a c → r.DefaultParams := by
    rintro c hc a ⟨ha, happlied⟩
    obtain ⟨j, hj⟩ := hf.job
    have hshould := shouldInstall_of_applied hc happlied
    exact fromDefault_of_absent hj ((hs.none_iff hanswered hj ha).mpr hshould)
  refine ⟨hdefault, fun hthrough => ⟨fun happlied => ?_, fun hparams c hc => ?_⟩⟩
  · have hmem : Command.apply "apps/pipeline/upstream/third-party/minio/overlays/ldap" ∈ minio := by
      simp [minio]
    obtain ⟨a, ha⟩ := happlied _ hmem
    exact hdefault _ hmem a ha
  · obtain ⟨j, hj, hnone⟩ := absent_of_default hparams
    obtain ⟨a, ha, hstatus⟩ := hf.exists_left
    have hok := hthrough a ha hstatus
    refine ⟨a, ha, mem_applied_kfServices.mpr (Or.inr (Or.inl ⟨?_, ?_, hc, ?_⟩))⟩
    · exact List.all_eq_true.mpr fun c hc => hok c (List.mem_append_left _ hc)
    · exact (hs.none_iff hanswered hj ha).mp hnone
    · exact hok c (List.mem_append_right _ hc)

end Rollout

/-- An attempt at which all commands succeed. -/
def smooth (probe : SecretProbe) : Attempt where
  succeeds _ := true
  moment := 1
  probe := probe

theorem reached_smooth (probe : SecretProbe) :
    reached ⟨true, false⟩ .certManager (List.replicate 6 (smooth probe)) = .finished := by
  cases probe <;> rfl

theorem eq_smooth {probe : SecretProbe}
    (h : (stage, a) ∈ trace ⟨true, false⟩ .certManager (List.replicate 6 (smooth probe))) :
    a = smooth probe :=
  List.eq_of_mem_replicate (mem_of_mem_trace h)

/-- One run of the job, and then attempts of the installer that all go smoothly. -/
def smoothRollout (jobSettings : MinioConfig.Settings) (history : Nat → String × String → Option Secret)
    (answers : MinioConfig.Answers) (probe : SecretProbe)
    (hreads : Reads (history 0 (jobSecret jobSettings)) answers.minioSecret)
    (hprobes : Probes (history 1 installerSecret) probe) : Rollout where
  jobSettings := jobSettings
  settings := ⟨true, false⟩
  history := history
  jobRuns := [⟨0, answers⟩]
  attempts := List.replicate 6 (smooth probe)
  reads := by
    intro j hj
    obtain rfl := List.mem_singleton.mp hj
    exact hreads
  probes := by
    intro a ha
    obtain rfl := eq_smooth ha
    exact hprobes

section
variable {jobSettings : MinioConfig.Settings} {history : Nat → String × String → Option Secret}
  {answers : MinioConfig.Answers} {probe : SecretProbe}
  {hreads : Reads (history 0 (jobSecret jobSettings)) answers.minioSecret}
  {hprobes : Probes (history 1 installerSecret) probe}

theorem finishes_smooth (hjob : (MinioConfig.run jobSettings answers).outcome = .ok ()) :
    (smoothRollout jobSettings history answers probe hreads hprobes).Finishes :=
  ⟨⟨⟨0, answers⟩, List.mem_singleton_self _, hjob⟩, reached_smooth probe⟩

theorem getsThrough_smooth :
    (smoothRollout jobSettings history answers probe hreads hprobes).GetsThrough := by
  intro a ha _ _ _
  obtain rfl := eq_smooth ha
  rfl

/-- Smooth attempts apply MinIO unless the probe finds the secret. -/
theorem minioApplied_smooth (hjob : (MinioConfig.run jobSettings answers).outcome = .ok ()) :
    (smoothRollout jobSettings history answers probe hreads hprobes).MinioApplied ↔
      shouldInstallMinio probe = true := by
  constructor
  · intro h
    have hmem : Command.apply "apps/pipeline/upstream/third-party/minio/overlays/ldap" ∈ minio := by
      simp [minio]
    obtain ⟨a, ha, hc⟩ := h _ hmem
    obtain rfl := eq_smooth ha
    exact shouldInstall_of_applied hmem hc
  · intro hprobe c hc
    have hf : (smoothRollout jobSettings history answers probe hreads hprobes).Finishes :=
      finishes_smooth hjob
    obtain ⟨a, ha, _⟩ := hf.exists_left
    obtain rfl := eq_smooth ha
    exact ⟨_, ha, mem_applied_kfServices.mpr (Or.inr (Or.inl ⟨rfl, hprobe, hc, rfl⟩))⟩

end

/-- The job is given a secret of its own, and neither that nor the one of the installer is there. -/
def withoutExternalMinio : Rollout :=
  smoothRollout ⟨some "minio", some "storage"⟩ (fun _ _ => none) noExternalMinio .notFound
    (fun _ => rfl) rfl

theorem minio_decisions_agree_without :
    withoutExternalMinio.MinioApplied ∧ withoutExternalMinio.DefaultParams := by
  have hpresence : withoutExternalMinio.SamePresence := fun _ _ _ _ => rfl
  have hanswered : withoutExternalMinio.Answered := fun _ _ _ => rfl
  have hjob : (MinioConfig.run ⟨some "minio", some "storage"⟩ noExternalMinio).outcome = .ok () := by
    decide +kernel
  have happlied : withoutExternalMinio.MinioApplied := (minioApplied_smooth hjob).mpr rfl
  obtain ⟨_, hagree⟩ := Rollout.minio_decisions_agree withoutExternalMinio (finishes_smooth hjob)
    hpresence hanswered
  exact ⟨happlied, (hagree getsThrough_smooth).mp happlied⟩

/-- The external secret is created after the job has looked for it. -/
def lateExternalMinio : Rollout :=
  smoothRollout ⟨none, none⟩ (fun moment _ => if moment = 0 then none else some ⟨some []⟩)
    noExternalMinio .found (fun _ => rfl) rfl

/-- The installer gets no answer about a secret that the job has read. -/
def unansweredProbe : Rollout :=
  smoothRollout ⟨none, none⟩ (fun _ _ => some externalMinioSecret) externalMinio .error rfl trivial

/-- The parameters are the default ones, and there is no MinIO to go with them. -/
theorem late_disagrees : lateExternalMinio.Finishes ∧
    ¬ (lateExternalMinio.MinioApplied ↔ lateExternalMinio.DefaultParams) := by
  have hjob : (MinioConfig.run ⟨none, none⟩ noExternalMinio).outcome = .ok () := by decide +kernel
  have hf : lateExternalMinio.Finishes := finishes_smooth hjob
  refine ⟨hf, fun h => ?_⟩
  obtain ⟨j, hj⟩ := hf.job
  obtain rfl := List.mem_singleton.mp hj.1
  have hshould := (minioApplied_smooth hjob).mp (h.mpr (Rollout.fromDefault_of_absent hj rfl))
  cases hshould

/-- MinIO is applied beside parameters that do not lead to it. -/
theorem unanswered_disagrees : unansweredProbe.Finishes ∧ unansweredProbe.SamePresence ∧
    ¬ (unansweredProbe.MinioApplied ↔ unansweredProbe.DefaultParams) := by
  have hjob : (MinioConfig.run ⟨none, none⟩ externalMinio).outcome = .ok () := by decide +kernel
  refine ⟨finishes_smooth hjob, fun _ _ _ _ => rfl, fun h => ?_⟩
  obtain ⟨j, hj, text, data, hread, _⟩ := h.mp ((minioApplied_smooth hjob).mpr rfl)
  obtain rfl := List.mem_singleton.mp hj
  cases hread

/-- The decisions differ in some run, also in one where both meet the same presence. -/
theorem not_minio_decisions_agree :
    (¬ ∀ r : Rollout, r.Finishes → (r.MinioApplied ↔ r.DefaultParams)) ∧
      ¬ ∀ r : Rollout, r.Finishes → r.SamePresence → (r.MinioApplied ↔ r.DefaultParams) := by
  constructor
  · intro h
    exact late_disagrees.2 (h lateExternalMinio late_disagrees.1)
  · intro h
    obtain ⟨hf, hpresence, hdisagree⟩ := unanswered_disagrees
    exact hdisagree (h unansweredProbe hf hpresence)

end Manifests
