import Manifests.Installer

/-! The counter and the texts of `install`, and how often it deploys the Kubeflow services. -/
namespace Manifests.Installer
open Library Command

/-- `MAX_RETRIES`. -/
def maxRetries : Nat := 8

/-- What is printed when a stage is reached. The last text is printed behind `install`. -/
def Stage.announcement : Stage → List String
  | .certManager => ["\nTrying to deploy cert manager...\n\n"]
  | .istio => ["\nTrying to deploy istio...\n\n"]
  | .authservices => ["\nTrying to deploy authservices...\n\n"]
  | .knative => ["\nTrying to deploy knative...\n\n"]
  | .clusterLocalGateway => ["\nTrying to deploy cluster local gateway...\n\n"]
  | .kfServices => ["\nTrying to deploy kubeflow services...\n\n"]
  | .prism => ["\nDeploying prism...\n\n"]
  | .tenantUi => ["\nTrying to enable KF URL in tenant UI...\n\n"]
  | .finished => ["kubeflow install script finished done\n"]
  | .aborted => []

/-- What the body of a stage's loop prints. -/
def Stage.retryText : Stage → List String
  | .certManager => ["\n*** Retrying to deploy cert manager... ***\n\n"]
  | .istio => ["\n*** Retrying to deploy istio... ***\n\n"]
  | .authservices => ["\n*** Retrying to deploy authservices... ***\n\n"]
  | .knative => ["\n*** Retrying to deploy knative... ***\n\n"]
  | .clusterLocalGateway => ["\n*** Retrying to deploy cluster local gateway... ***\n\n"]
  | .kfServices => ["\n*** Retrying to deploy kubeflow services... ***\n\n"]
  | .tenantUi => ["\n*** Retrying to enable KF URL in tenant UI... ***\n\n"]
  | _ => []

def failedText : String := "\n*** KF deploy failed ***\n\n"

/-- How far `install` has got: its stage, `cur_retries`, and what it has printed. -/
structure Progress where
  stage : Stage
  curRetries : Nat
  printed : List String
  deriving Repr, DecidableEq

/-- The next stage is reached, and announced. -/
def Progress.enter (p : Progress) (stage : Stage) : Progress :=
  { p with stage := stage, printed := p.printed ++ stage.announcement }

/-- The loop body around `deploy_kf_services`. `(( cur_retries > MAX_RETRIES ))` compares only in a
shell with arithmetic commands; elsewhere it is a command that fails. -/
def Progress.retryKfServices (arithmetic : Bool) (p : Progress) : Progress :=
  let curRetries := p.curRetries + 1
  let failed := if arithmetic && curRetries > maxRetries then [failedText] else []
  { p with curRetries := curRetries, printed := p.printed ++ failed ++ Stage.kfServices.retryText }

/-- What follows an attempt at the function of a stage. -/
def Progress.step (settings : Settings) (arithmetic : Bool) (p : Progress) (attempt : Attempt) :
    Progress :=
  match p.stage with
  | .finished => p
  | .aborted => p
  | .kfServices =>
    if Stage.kfServices.status settings attempt then p.enter (Stage.kfServices.next settings)
    else p.retryKfServices arithmetic
  | stage =>
    if stage.status settings attempt then p.enter (stage.next settings)
    else { p with stage := stage.retry, printed := p.printed ++ stage.retryText }

/-- `install` in front of the loop around `deploy_kf_services`. -/
def loopEntry : Progress := ⟨.kfServices, 0, Stage.kfServices.announcement⟩

/-- How far `install` has got from there after a number of attempts. -/
def progress (settings : Settings) (arithmetic : Bool) (attempts : Nat → Attempt) : Nat → Progress
  | 0 => loopEntry
  | n + 1 => (progress settings arithmetic attempts n).step settings arithmetic (attempts n)

/-- How many of the first attempts are calls of `deploy_kf_services`. -/
def kfCalls (settings : Settings) (arithmetic : Bool) (attempts : Nat → Attempt) (n : Nat) : Nat :=
  (List.range n).countP fun k => (progress settings arithmetic attempts k).stage = .kfServices

variable {settings : Settings} {arithmetic : Bool} {attempts : Nat → Attempt} {p : Progress}
  {attempt : Attempt} {n m : Nat}

/-- The counter and the texts do not decide where `install` goes on. -/
theorem step_stage : (p.step settings arithmetic attempt).stage = p.stage.step settings attempt := by
  obtain ⟨stage, curRetries, printed⟩ := p
  cases stage <;> simp only [Progress.step, Stage.step]
  case finished => split <;> rfl
  case aborted => split <;> rfl
  all_goals
    split
    · rfl
    · rfl

theorem progress_succ_stage : (progress settings arithmetic attempts (n + 1)).stage =
    (progress settings arithmetic attempts n).stage.step settings (attempts n) :=
  step_stage

/-- A failed call of `deploy_kf_services` is followed by another, whatever the counter says. -/
theorem progress_failing
    (h : ∀ k < n, Stage.kfServices.status settings (attempts k) = false) :
    (progress settings arithmetic attempts n).stage = .kfServices ∧
      (progress settings arithmetic attempts n).curRetries = n := by
  induction n with
  | zero => exact ⟨rfl, rfl⟩
  | succ n ih =>
    obtain ⟨hstage, hretries⟩ := ih fun k hk => h k (by omega)
    have hfail := h n (by omega)
    have hstep : progress settings arithmetic attempts (n + 1) =
        (progress settings arithmetic attempts n).retryKfServices arithmetic := by
      simp [progress, Progress.step, hstage, hfail]
    rw [hstep]
    exact ⟨hstage, congrArg (· + 1) hretries⟩

/-- The stages behind the loop. -/
def Stage.PastKf (stage : Stage) : Prop :=
  stage = .prism ∨ stage = .tenantUi ∨ stage = .finished ∨ stage = .aborted

theorem pastKf_step {stage : Stage} (h : stage.PastKf) : (stage.step settings attempt).PastKf := by
  unfold Stage.step Stage.PastKf
  rcases h with rfl | rfl | rfl | rfl <;> split <;> simp [Stage.next, Stage.retry]

theorem pastKf_of_le (hmn : m ≤ n) (h : (progress settings arithmetic attempts m).stage.PastKf) :
    (progress settings arithmetic attempts n).stage.PastKf := by
  induction n, hmn using Nat.le_induction with
  | base => exact h
  | succ n _ ih =>
    rw [progress_succ_stage]
    exact pastKf_step ih

/-- A successful call of `deploy_kf_services` is the last. -/
theorem pastKf_of_success (hs : Stage.kfServices.status settings (attempts m) = true) (hmn : m < n) :
    (progress settings arithmetic attempts n).stage.PastKf := by
  by_cases hm : (progress settings arithmetic attempts m).stage = .kfServices
  · refine pastKf_of_le (Nat.succ_le_of_lt hmn) ?_
    rw [progress_succ_stage, hm]
    simp [Stage.step, hs, Stage.next, Stage.PastKf]
  · have hpast : ∀ k, (progress settings arithmetic attempts k).stage = .kfServices ∨
        (progress settings arithmetic attempts k).stage.PastKf := by
      intro k
      induction k with
      | zero => exact Or.inl rfl
      | succ k ih =>
        rw [progress_succ_stage]
        rcases ih with hk | hk
        · rw [hk]
          unfold Stage.step
          split
          · simp [Stage.next, Stage.PastKf]
          · exact Or.inl rfl
        · exact Or.inr (pastKf_step hk)
    exact pastKf_of_le hmn.le ((hpast m).resolve_left hm)

theorem kfCalls_succ : kfCalls settings arithmetic attempts (n + 1) =
    kfCalls settings arithmetic attempts n +
      (if (progress settings arithmetic attempts n).stage = .kfServices then 1 else 0) := by
  simp [kfCalls, List.range_succ, List.countP_append, List.countP_cons]

/-- There are as many calls as failures in front of a success, and the success. -/
theorem kfCalls_le_of_success (hs : Stage.kfServices.status settings (attempts m) = true) (n : Nat) :
    kfCalls settings arithmetic attempts n ≤ m + 1 := by
  induction n with
  | zero => exact Nat.zero_le _
  | succ n ih =>
    rw [kfCalls_succ]
    by_cases hn : n ≤ m
    · have hlen : kfCalls settings arithmetic attempts n ≤ n :=
        List.countP_le_length.trans (by simp)
      split <;> omega
    · have hpast : (progress settings arithmetic attempts n).stage.PastKf :=
        pastKf_of_success hs (Nat.lt_of_not_le hn)
      have hne : (progress settings arithmetic attempts n).stage ≠ .kfServices := by
        rcases hpast with h | h | h | h <;> simp [h]
      rw [if_neg hne]
      exact ih

/-- While the calls fail, every attempt is a call. -/
theorem kfCalls_failing
    (h : ∀ k < n, Stage.kfServices.status settings (attempts k) = false) :
    kfCalls settings arithmetic attempts (n + 1) = n + 1 := by
  induction n with
  | zero => simp [kfCalls, progress, loopEntry]
  | succ n ih =>
    rw [kfCalls_succ, ih fun k hk => h k (by omega), if_pos (progress_failing h).1]

/-- The loop calls `deploy_kf_services` at most `MAX_RETRIES + 1` times, and when all of these calls
fail, the installer stops with a failure and does not go on. -/
structure RetriesBounded (settings : Settings) (arithmetic : Bool) (attempts : Nat → Attempt) :
    Prop where
  calls : ∀ n, kfCalls settings arithmetic attempts n ≤ maxRetries + 1
  stops : (∀ k ≤ maxRetries, Stage.kfServices.status settings (attempts k) = false) →
    (∃ n, (progress settings arithmetic attempts n).stage = .aborted) ∧
      ∀ n, (progress settings arithmetic attempts n).stage ∉ [.prism, .tenantUi, .finished] ∧
        "kubeflow install script finished done\n" ∉ (progress settings arithmetic attempts n).printed

/-- The loop is bounded only by a success: it is when one of the first calls succeeds. -/
theorem retriesBounded_iff (settings : Settings) (arithmetic : Bool) (attempts : Nat → Attempt) :
    RetriesBounded settings arithmetic attempts ↔
      ∃ k ≤ maxRetries, Stage.kfServices.status settings (attempts k) = true := by
  constructor
  · intro h
    by_contra hno
    have hfail : ∀ k < maxRetries + 1, Stage.kfServices.status settings (attempts k) = false := by
      intro k hk
      by_contra hs
      exact hno ⟨k, by omega, by simpa using hs⟩
    have hcalls := h.calls (maxRetries + 2)
    rw [kfCalls_failing hfail] at hcalls
    omega
  · rintro ⟨k, hk, hs⟩
    constructor
    · intro n
      exact (kfCalls_le_of_success hs n).trans (Nat.succ_le_succ hk)
    · intro hfail
      rw [hfail k hk] at hs
      cases hs

/-- An attempt at which the last application cannot be applied. -/
def seldonFails : Attempt where
  succeeds c := c ≠ apply "contrib/seldon/seldon-core-operator/overlays/application"
  moment := 0
  probe := .found

/-- Nothing ends the loop while the services cannot be deployed. -/
theorem not_retriesBounded : ¬ ∀ settings arithmetic attempts,
    RetriesBounded settings arithmetic attempts := by
  intro h
  have hfail : ∀ k < maxRetries + 1, Stage.kfServices.status ⟨true, false⟩ seldonFails = false := by
    intro _ _
    decide +kernel
  have hcalls := (h ⟨true, false⟩ true fun _ => seldonFails).calls (maxRetries + 2)
  rw [kfCalls_failing hfail] at hcalls
  omega

end Manifests.Installer
