import Manifests.Installer
import Manifests.Uninstaller

/-! What is left of an installation when the uninstaller has come to its end, and the order in which
it takes the components down. -/
namespace Manifests.Uninstaller
open Library Teardown
open Installer (Command Stage Attempt trace)
open Installer.Command (apply component)

/-- What the installer script applies in front of `install`. -/
def configuration : List Command :=
  [apply "bootstrap/components/minio-config", apply "bootstrap/components/dex-secret-ldap"]

/-- What a run of `install` applies, for the attempts that it makes. -/
def installApplies (settings : Installer.Settings) (attempts : List Attempt) : List Command :=
  (trace settings .certManager attempts).flatMap fun (stage, attempt) =>
    (stage.body settings attempt.probe attempt.succeeds).ran

/-- The paths whose build a run of the installer script begins to apply. `set -e` ends it at the first
failure in front of `install`. -/
def applies (settings : Installer.Settings) (succeeds : Command → Bool) (attempts : List Attempt) :
    List String :=
  ((Sh.chain configuration succeeds).ran ++
    if (Sh.chain configuration succeeds).status then installApplies settings attempts
    else []).filterMap component

/-- The commands in the order in which the installer script names them. -/
def installCommands (settings : Installer.Settings) : List Command :=
  configuration ++ Installer.certManagerCommands ++
    (if settings.disableIstio then [] else Installer.istioCommands) ++
    Installer.authservicesCommands ++ apply Installer.knativeServing :: Installer.knativeRest ++
    (if settings.disableIstio then [] else Installer.clusterLocalGatewayCommands) ++
    Installer.kfBase ++ Installer.minio ++ Installer.kfServing ++
    [Installer.centralDashboard settings] ++ Installer.kfApps ++
    [apply "apps/prism/base", apply "bootstrap/components/hpecpconfig-patch"]

def installOrder (settings : Installer.Settings) : List String :=
  (installCommands settings).filterMap component

/-- What the installer applies and the uninstaller does not name. -/
def notDeleted (settings : Installer.Settings) (disableIstio : Bool) : List String :=
  (if settings.disableIstio then [] else
    if disableIstio then Installer.istioCommands.filterMap component else []) ++
    Installer.knativeServing ::
    (if settings.disableIstio then [] else
      if disableIstio then Installer.clusterLocalGatewayCommands.filterMap component else []) ++
    "bootstrap/components/image-pull-secret/kubeflow" ::
    if settings.disableNotebookserversLink then
      ["apps/centraldashboard/upstream/overlays/disableNotebookServers"] else []

/-- The paths of commands that the uninstaller does not name. -/
def leaves (disableIstio : Bool) (commands : List Command) : List String :=
  (commands.filterMap component).filter (· ∉ deletes disableIstio)

theorem leaves_append (disableIstio : Bool) (cs ds : List Command) :
    leaves disableIstio (cs ++ ds) = leaves disableIstio cs ++ leaves disableIstio ds := by
  rw [leaves, List.filterMap_append, List.filter_append, leaves, leaves]

/-- The paths that each group of commands leaves. -/
theorem leaves_groups : ∀ disableIstio : Bool, leaves disableIstio configuration = [] ∧
    leaves disableIstio Installer.certManagerCommands = [] ∧
    leaves disableIstio Installer.istioCommands =
      (if disableIstio then Installer.istioCommands.filterMap component else []) ∧
    leaves disableIstio Installer.authservicesCommands = [] ∧
    leaves disableIstio (apply Installer.knativeServing :: Installer.knativeRest) =
      [Installer.knativeServing] ∧
    leaves disableIstio Installer.clusterLocalGatewayCommands =
      (if disableIstio then Installer.clusterLocalGatewayCommands.filterMap component else []) ∧
    leaves disableIstio Installer.kfBase = ["bootstrap/components/image-pull-secret/kubeflow"] ∧
    leaves disableIstio Installer.minio = [] ∧ leaves disableIstio Installer.kfServing = [] ∧
    (∀ istio link, leaves disableIstio [Installer.centralDashboard ⟨istio, link⟩] =
      if link then ["apps/centraldashboard/upstream/overlays/disableNotebookServers"] else []) ∧
    leaves disableIstio Installer.kfApps = [] ∧ leaves disableIstio
      [apply "apps/prism/base", apply "bootstrap/components/hpecpconfig-patch"] = [] := by
  decide +kernel

theorem leaves_installCommands (settings : Installer.Settings) (disableIstio : Bool) :
    leaves disableIstio (installCommands settings) = notDeleted settings disableIstio := by
  obtain ⟨hconfiguration, hcert, histio, hauth, hknative, hgateway, hbase, hminio, hserving,
    hdashboard, happs, hlast⟩ := leaves_groups disableIstio
  have hnil : leaves disableIstio [] = [] := rfl
  rw [installCommands, notDeleted]
  simp only [leaves_append, apply_ite (leaves disableIstio), hnil, hconfiguration, hcert, hauth,
    hknative, hbase, hminio, hserving, happs, hlast, hdashboard, histio, hgateway]
  simp

section
variable {installer : Installer.Settings} {settings : Settings} {goes : List Go}
  {succeeds : Command → Bool} {attempts : List Attempt} {stage stage' : Stage} {attempt : Attempt}
  {path other : String} {c : Command}

/-- The two Istio stages come only when Istio is not disabled. -/
def Reachable (installer : Installer.Settings) (stage : Stage) : Prop :=
  (stage = .istio ∨ stage = .clusterLocalGateway) → installer.disableIstio = false

theorem reachable_step (h : Reachable installer stage) (attempt : Attempt) :
    Reachable installer (stage.step installer attempt) := by
  obtain ⟨istio, link⟩ := installer
  unfold Stage.step
  split
  · cases stage <;> cases istio <;> simp_all [Reachable, Stage.next]
  · cases stage <;> simp_all [Reachable, Stage.retry]

theorem reachable_of_mem_trace (h : Reachable installer stage)
    (hmem : (stage', attempt) ∈ trace installer stage attempts) : Reachable installer stage' := by
  induction attempts generalizing stage with
  | nil => cases hmem
  | cons first attempts ih =>
    rcases List.mem_cons.mp hmem with heq | hmem
    · cases heq
      exact h
    · exact ih (reachable_step h first) hmem

/-- The commands of `deploy_kf_services`. -/
theorem mem_ran_kfServices {probe : Installer.SecretProbe}
    (h : c ∈ (Installer.deployKfServices installer probe succeeds).ran) :
    c ∈ Installer.kfBase ∨ c ∈ Installer.minio ∨ c ∈ Installer.kfServing ∨
      c = Installer.centralDashboard installer ∨ c ∈ Installer.kfApps := by
  rcases Sh.mem_ran_seq.mp h with h | h
  · rcases Sh.mem_ran_andThen h with h | h
    · exact Or.inl (Sh.mem_ran_chain h)
    · exact Or.inr (Or.inl (Sh.mem_ran_lines.mp (Sh.mem_ran_ifThen h)))
  · rcases Sh.mem_ran_seq.mp h with h | h
    · exact Or.inr (Or.inr (Or.inl (Sh.mem_ran_chain h)))
    · rcases Sh.mem_ran_seq.mp h with h | h
      · exact Or.inr (Or.inr (Or.inr (Or.inl (List.mem_singleton.mp h))))
      · exact Or.inr (Or.inr (Or.inr (Or.inr (Sh.mem_ran_chain h))))

/-- What `deploy_knative` runs: the second go at knative-serving has the path of the first. -/
theorem mem_ran_knative (h : c ∈ (Installer.deployKnative succeeds).ran) :
    c.component = some Installer.knativeServing ∨ c ∈ Installer.knativeRest := by
  rcases Sh.mem_ran_andThen h with h | h
  · rcases Sh.mem_ran_orElse h with h | h
    · rw [List.mem_singleton.mp h]
      exact Or.inl rfl
    · rw [List.mem_singleton.mp h]
      exact Or.inl rfl
  · exact Or.inr (Sh.mem_ran_chain h)

theorem mem_installOrder (hc : c ∈ installCommands installer) (hpath : c.component = some path) :
    path ∈ installOrder installer :=
  List.mem_filterMap.mpr ⟨c, hc, hpath⟩

theorem mem_ran_body (hreachable : Reachable installer stage)
    (h : c ∈ (stage.body installer attempt.probe succeeds).ran) (hpath : c.component = some path) :
    path ∈ installOrder installer := by
  cases stage with
  | certManager => exact mem_installOrder (by simp [installCommands, Sh.mem_ran_chain h]) hpath
  | istio =>
    have hnot := hreachable (Or.inl rfl)
    exact mem_installOrder (by simp [installCommands, hnot, Sh.mem_ran_chain h]) hpath
  | authservices => exact mem_installOrder (by simp [installCommands, Sh.mem_ran_chain h]) hpath
  | knative =>
    rcases mem_ran_knative h with hserving | hc
    · have heq : path = Installer.knativeServing := Option.some_inj.mp (hpath.symm.trans hserving)
      exact mem_installOrder (c := apply Installer.knativeServing) (by simp [installCommands])
        (congrArg some heq.symm)
    · exact mem_installOrder (by simp [installCommands, hc]) hpath
  | clusterLocalGateway =>
    have hnot := hreachable (Or.inr rfl)
    exact mem_installOrder (by simp [installCommands, hnot, Sh.mem_ran_chain h]) hpath
  | kfServices =>
    refine mem_installOrder ?_ hpath
    rcases mem_ran_kfServices h with hc | hc | hc | hc | hc <;> simp [installCommands, hc]
  | prism =>
    have hc := Sh.mem_ran_chain h
    exact mem_installOrder (by simp [installCommands, List.mem_singleton.mp hc]) hpath
  | tenantUi =>
    have hc := Sh.mem_ran_chain h
    exact mem_installOrder (by simp [installCommands, List.mem_singleton.mp hc]) hpath
  | finished => cases h
  | aborted => cases h

/-- Whatever fails, the installer applies nothing else. -/
theorem mem_applies (h : path ∈ applies installer succeeds attempts) :
    path ∈ installOrder installer := by
  obtain ⟨c, hc, hpath⟩ := List.mem_filterMap.mp h
  rcases List.mem_append.mp hc with hc | hc
  · exact mem_installOrder (by simp [installCommands, Sh.mem_ran_chain hc]) hpath
  · split at hc
    · obtain ⟨⟨stage, attempt⟩, hmem, hran⟩ := List.mem_flatMap.mp hc
      have hstart : Reachable installer .certManager := by
        rintro (hstage | hstage) <;> cases hstage
      exact mem_ran_body (reachable_of_mem_trace hstart hmem) hran hpath
    · cases hc

theorem mem_notDeleted {disableIstio : Bool} : path ∈ notDeleted installer disableIstio ↔
    path ∈ installOrder installer ∧ path ∉ deletes disableIstio := by
  rw [← leaves_installCommands, leaves, List.mem_filter, installOrder, decide_eq_true_eq]

/-- What is left when the uninstaller has exited with zero and each deletion has gone through once,
after any run of the installer, also one that failed or did not come to its end. Nothing new is left
exactly when what the installer applies and the uninstaller does not name goes with what is deleted. -/
theorem uninstall_leaves {ο : Type} {inv : Inventory String ο} {before mid after : Set ο}
    {outcomes : List (String × Bool)}
    (hinstall : Applied inv before (applies installer succeeds attempts) mid)
    (hexit : (uninstall settings goes).exit = some 0)
    (hbegun : outcomes.map Prod.fst = (uninstall settings goes).begun)
    (hdelete : Deleted inv mid outcomes after)
    (hthrough : ∀ path ∈ deletes settings.disableIstio, (path, true) ∈ outcomes) :
    after = mid \ inv.goneWith (deletes settings.disableIstio) ∧
      (after ⊆ before ↔ ∀ path ∈ notDeleted installer settings.disableIstio,
        ∀ o ∈ inv.contents path, o ∈ mid → o ∉ before →
          o ∈ inv.goneWith (deletes settings.disableIstio)) := by
  have hks (path : String) : path ∈ outcomes.map Prod.fst ↔ path ∈ deletes settings.disableIstio := by
    rw [hbegun, mem_begun hexit]
  have heq := hdelete.eq hks hthrough
  refine ⟨heq, ?_⟩
  constructor
  · intro hsub path _ o _ hmid hnew
    by_contra hnot
    rw [heq] at hsub
    exact hnew (hsub ⟨hmid, hnot⟩)
  · intro hgone
    refine (hdelete.subset_iff hinstall hks hthrough).mpr fun path hpath hnot => ?_
    exact hgone path (mem_notDeleted.mpr ⟨mem_applies hpath, hnot⟩)

/-- The path under which the uninstaller names a component of the installer. -/
def counterpart (path : String) : String :=
  if path = Installer.knativeServing then "common/knative/knative-serving/base"
  else if path = "apps/centraldashboard/upstream/overlays/disableNotebookServers" then
    "apps/centraldashboard/upstream/overlays/istio"
  else path

def eventing : String := "common/knative/knative-eventing/overlays/image-pull-secret"

def eventingSecret : String := "bootstrap/components/image-pull-secret/knative-eventing"

/-- What the installer applies in front of knative-eventing, and behind its image pull secret. -/
def frontOrder : List String :=
  (configuration ++ Installer.certManagerCommands ++ Installer.istioCommands ++
    Installer.authservicesCommands).filterMap component ++ ["common/knative/knative-serving/base"]

def backOrder : List String :=
  (Installer.clusterLocalGatewayCommands ++ Installer.kfBase ++ Installer.minio ++
    Installer.kfServing ++ apply "apps/centraldashboard/upstream/overlays/istio" :: Installer.kfApps ++
    [apply "apps/prism/base", apply "bootstrap/components/hpecpconfig-patch"]).filterMap component ++
    ["bootstrap/components/installer"]

/-- The orders of the two scripts, apart from knative-eventing and its image pull secret. -/
theorem orders : (∀ istio link, ((installOrder ⟨istio, link⟩).map counterpart).Sublist
      (frontOrder ++ eventing :: eventingSecret :: backOrder)) ∧
    (∀ disableIstio, (deletes disableIstio).reverse.Sublist
      (frontOrder ++ eventingSecret :: eventing :: backOrder)) ∧
    (frontOrder ++ eventingSecret :: eventing :: backOrder).Nodup := by
  decide +kernel

theorem order_sublist (installer : Installer.Settings) :
    ((installOrder installer).map counterpart).Sublist
      (frontOrder ++ eventing :: eventingSecret :: backOrder) := orders.1 _ _

theorem deletes_sublist (disableIstio : Bool) : (deletes disableIstio).reverse.Sublist
    (frontOrder ++ eventingSecret :: eventing :: backOrder) := orders.2.1 disableIstio

theorem nodup_order : (frontOrder ++ eventingSecret :: eventing :: backOrder).Nodup := orders.2.2

theorem eventing_mem (disableIstio : Bool) : eventing ∈ afterLoop disableIstio := by
  simp [afterLoop, deleteKnative, eventing]

/-- In a run each deletion comes behind those that come before it in a run without a killed go. -/
theorem ordered_begun {before : String → String → Prop}
    (h : Ordered before [] (deletes settings.disableIstio)) :
    Ordered before [] (uninstall settings goes).begun := by
  obtain ⟨parts, hparts, hloop⟩ := loop_eq goes
  obtain ⟨hkilled, hleft⟩ := h.replay hparts
  unfold uninstall
  split
  · split
    · next hend =>
      rw [hloop, if_pos hend]
      exact hleft
    · next hend =>
      rw [hloop, if_neg hend, List.append_nil]
      exact hkilled
  · trivial

theorem eventing_once (settings : Settings) (goes : List Go) :
    (uninstall settings goes).begun.count eventing ≤ 1 := by
  have honce : (deletes settings.disableIstio).count eventing ≤ 1 :=
    List.nodup_iff_count_le_one.mp (List.nodup_reverse.mp
      (nodup_order.sublist (deletes_sublist settings.disableIstio))) eventing
  have hafter := List.count_pos_iff.mpr (eventing_mem settings.disableIstio)
  rw [deletes, List.count_append, List.count_append] at honce
  have hloop : (loop goes).1.count eventing = 0 := by
    rw [List.count_eq_zero]
    intro hmem
    have hservices := List.count_pos_iff.mpr (mem_loop hmem)
    omega
  unfold uninstall
  split
  · split
    · rw [List.count_append, List.count_append]
      omega
    · rw [List.count_append]
      omega
  · exact Nat.zero_le 1

/-- Whatever the goes at `delete_kf_services` come to, each component is deleted behind all those that
the installer applies behind it, as far as they are deleted. One pair is the exception: the image pull
secret of knative-eventing, which is applied last, is deleted last. -/
theorem deletes_in_reverse {done rest : List String}
    (hbegun : (uninstall settings goes).begun = done ++ path :: rest)
    (horder : Behind ((installOrder installer).map counterpart) path other)
    (hother : other ∈ deletes settings.disableIstio) :
    other ∈ done ↔ ¬ (path = eventing ∧ other = eventingSecret) := by
  have hordered : Ordered _ [] (uninstall settings goes).begun :=
    ordered_begun (ordered_reverse nodup_order (deletes_sublist settings.disableIstio))
  by_cases hpair : path = eventing ∧ other = eventingSecret
  · refine iff_of_false (fun hmem => ?_) (not_not.mpr hpair)
    obtain ⟨rfl, rfl⟩ := hpair
    obtain ⟨earlier, later, rfl⟩ := List.append_of_mem hmem
    have hsplit : (uninstall settings goes).begun =
        earlier ++ eventingSecret :: (later ++ eventing :: rest) := by simpa using hbegun
    have hbehind : Behind (frontOrder ++ eventingSecret :: eventing :: backOrder) eventingSecret
        eventing := by simp [behind_append, behind_cons]
    have heventing : eventing ∈ deletes settings.disableIstio :=
      List.mem_append_right _ (eventing_mem settings.disableIstio)
    rw [hsplit] at hordered
    have hearlier : eventing ∈ earlier := hordered.mem ⟨hbehind, heventing⟩
    have honce := eventing_once settings goes
    rw [hsplit] at honce
    have hcount := List.count_pos_iff.mpr hearlier
    simp only [List.count_append, List.count_cons_self, List.count_cons] at honce
    omega
  · refine iff_of_true ?_ hpair
    rw [hbegun] at hordered
    exact hordered.mem ⟨behind_swap (horder.trans (order_sublist installer)) hpair, hother⟩

/-- A go that is killed, and one that returns. -/
theorem deletes_in_reverse_prism : ∃ done rest,
    (uninstall ⟨false, true⟩ [.killed 3, .returns]).begun = done ++ "apps/prism/base" :: rest ∧
      "bootstrap/components/hpecpconfig-patch" ∈ done := by
  have hlast : ((installOrder ⟨false, false⟩).map counterpart).drop 41 =
      ["apps/prism/base", "bootstrap/components/hpecpconfig-patch"] := by decide +kernel
  have horder : Behind ((installOrder ⟨false, false⟩).map counterpart) "apps/prism/base"
      "bootstrap/components/hpecpconfig-patch" := by
    rw [Behind, ← hlast]
    exact List.drop_sublist 41 _
  obtain ⟨rest, hbegun⟩ : ∃ rest, (uninstall ⟨false, true⟩ [.killed 3, .returns]).begun =
      ["bootstrap/components/installer", "bootstrap/components/hpecpconfig-patch"] ++
        "apps/prism/base" :: rest := ⟨_, rfl⟩
  refine ⟨_, rest, hbegun, (deletes_in_reverse hbegun horder ?_).mpr ?_⟩
  · exact List.mem_of_getElem? (i := 1) rfl
  · simp [eventing]

/-- Namespaces, and what lies in them and goes with them. -/
inductive Sample where
  | ns (name : String)
  | inside (name object : String)

inductive SampleContents : String → Sample → Prop where
  | kubeflow : SampleContents "common/kubeflow-namespace/base" (.ns "kubeflow")
  | serving : SampleContents "common/knative/knative-serving/base" (.ns "knative-serving")
  | servingAgain : SampleContents Installer.knativeServing (.ns "knative-serving")
  | proxy : SampleContents Installer.knativeServing (.inside "knative-serving" "knative-serving-proxy")
  | pullSecret : SampleContents "bootstrap/components/image-pull-secret/kubeflow"
      (.inside "kubeflow" "hpe-imagepull-secrets")

def sampleInventory : Inventory String Sample where
  contents := fun path => {o | SampleContents path o}
  goesWith := fun p o => ∃ name object, p = .ns name ∧ o = .inside name object

theorem sample_gone {o : Sample} (h : SampleContents path o) :
    o ∈ sampleInventory.goneWith (deletes false) := by
  have hkubeflow : "common/kubeflow-namespace/base" ∈ deletes false :=
    List.mem_of_getElem? (i := 28) rfl
  have hserving : "common/knative/knative-serving/base" ∈ deletes false :=
    List.mem_of_getElem? (i := 32) rfl
  cases h with
  | kubeflow => exact ⟨_, hkubeflow, _, .kubeflow, .refl⟩
  | serving => exact ⟨_, hserving, _, .serving, .refl⟩
  | servingAgain => exact ⟨_, hserving, _, .serving, .refl⟩
  | proxy => exact ⟨_, hserving, _, .serving, .single ⟨_, _, rfl, rfl⟩⟩
  | pullSecret => exact ⟨_, hkubeflow, _, .kubeflow, .single ⟨_, _, rfl, rfl⟩⟩

/-- The installer with eight attempts that go through, and the uninstaller. -/
theorem uninstall_leaves_sample : ∃ mid after, Applied sampleInventory ∅
      (applies ⟨false, false⟩ (fun _ => true) (List.replicate 8 ⟨fun _ => true, 0, .notFound⟩)) mid ∧
    Deleted sampleInventory mid
      ((uninstall ⟨false, true⟩ [.killed 3, .returns]).begun.map fun path => (path, true)) after ∧
    after ⊆ ∅ := by
  obtain ⟨mid, hinstall⟩ := exists_applied sampleInventory ∅
    (applies ⟨false, false⟩ (fun _ => true) (List.replicate 8 ⟨fun _ => true, 0, .notFound⟩))
  obtain ⟨after, hdelete⟩ := exists_deleted sampleInventory mid
    (uninstall ⟨false, true⟩ [.killed 3, .returns]).begun
  have hexit : (uninstall ⟨false, true⟩ [.killed 3, .returns]).exit = some 0 :=
    exit_iff.mpr ⟨rfl, by simp⟩
  refine ⟨mid, after, hinstall, hdelete, ?_⟩
  have hthrough : ∀ path ∈ deletes false, (path, true) ∈
      (uninstall ⟨false, true⟩ [.killed 3, .returns]).begun.map fun path => (path, true) :=
    fun path hpath => List.mem_map.mpr ⟨path, (mem_begun hexit).mpr hpath, rfl⟩
  have hleft := uninstall_leaves hinstall hexit (by simp [Function.comp_def]) hdelete hthrough
  exact hleft.2.mpr fun path _ o ho _ _ => sample_gone ho

end
end Manifests.Uninstaller
