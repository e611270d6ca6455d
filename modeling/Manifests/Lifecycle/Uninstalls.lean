import Manifests.Lifecycle.Moves

/-! Runs of both scripts on a namespace that is there: it is deleted behind an uninstaller job that is
complete, and never when the job has failed. -/
namespace Manifests.Lifecycle
open Library Library.Clients

/-- A namespace with an uninstaller job, and a run of `uninstall.sh`. -/
def withJob (phase : Phase (uninstallerParameters unset)) : Cluster := fun ns =>
  if ns = "kubeflow-jobs" then some ⟨fun _ => none, some ⟨uninstallerParameters unset, phase⟩⟩ else none

def oneUninstall (_ : Unit) : Run := .uninstall unset

def finished : Finished (uninstallerParameters unset) :=
  ⟨⟨false, true⟩, [.returns], rfl, fun _ hflag => Option.some.inj hflag⟩

theorem uninstallScript_unset : (oneUninstall ()).script =
    check (.applyUninstaller "kubeflow-jobs" (uninstallerParameters unset))
      (.call (.waitComplete "kubeflow-jobs") (afterWait "kubeflow-jobs")) := by
  simp only [oneUninstall, Run.script, uninstallScript, jobsNs_unset]

/-- The job is there already, and is left as it is. -/
theorem trace_apply (phase : Phase (uninstallerParameters unset)) : ∃ w,
    Trace apiServer (start oneUninstall (withJob phase))
      [.call () (.applyUninstaller "kubeflow-jobs" (uninstallerParameters unset)) (some [])] w ∧
        w.state "kubeflow-jobs" = withJob phase "kubeflow-jobs" ∧
          w.clients () = .call (.waitComplete "kubeflow-jobs") (afterWait "kubeflow-jobs") :=
  ⟨_, .snoc .nil (.call (p := ()) uninstallScript_unset
    (Serves.applyUninstaller rfl (fun _ _ => rfl) (.inl rfl) fun _ => ⟨phase, rfl⟩)), rfl, rfl⟩

section
variable {π : Type} [DecidableEq π] {runs : π → Run} {cluster : Cluster} {ns : String}
  {contents : Contents} {before events : List (Event π Request Answer)}
  {w w₁ : World π Cluster Request Answer Nat}

theorem passes_failed {parameters : Parameters} {after : Option Contents}
    (hjob : contents.uninstaller = some ⟨parameters, .failed⟩) (h : Passes (some contents) after) :
    ∃ contents', after = some contents' ∧ contents'.uninstaller = some ⟨parameters, .failed⟩ ∧
      ∀ id ∈ scriptIds, contents'.objects id = contents.objects id := by
  cases h with
  | idle hnone => cases hjob.symm.trans hnone
  | @job _ contents' parameters' phase phase' hjob' hturns hjob'' hobjects =>
    rw [hjob] at hjob'
    cases hjob'
    cases hturns
    refine ⟨contents', rfl, hjob'', fun id hid => ?_⟩
    rcases hobjects id hid with hsame | ⟨hrunning, _⟩
    · exact hsame
    · cases hrunning

/-- A command of `install.sh` behind the first puts its manifests. -/
theorem fills_puts {cluster' : Cluster} {request : Request} {answer : Answer} (hfills : request.Fills ns)
    (hns : cluster ns = some contents) (h : Serves cluster request answer cluster') :
    ∃ contents', cluster' ns = some contents' ∧ Put request.manifests contents contents' := by
  cases h with
  | fails => exact ⟨contents, hns, rfl, fun _ => .inl rfl⟩
  | getSecret => exact ⟨contents, hns, rfl, fun _ => .inl rfl⟩
  | @createSecret ns' manifest _ contents₁ contents' hns' _ hput _ =>
    cases hfills
    obtain rfl : contents = contents₁ := Option.some.inj (hns.symm.trans hns')
    exact ⟨contents', Function.update_self .., hput⟩
  | @apply ns' manifests _ contents₁ contents' hns' hput _ =>
    cases hfills
    obtain rfl : contents = contents₁ := Option.some.inj (hns.symm.trans hns')
    exact ⟨contents', Function.update_self .., hput⟩
  | createNs => cases hfills
  | applyUninstaller => cases hfills
  | waitComplete => cases hfills
  | deleteUninstaller => cases hfills
  | deleteNs => cases hfills

theorem applyUninstaller_keeps {cluster' : Cluster} {parameters : Parameters} {answer : Answer}
    {job : Job} (hns : cluster ns = some contents) (hjob : contents.uninstaller = some job)
    (h : Serves cluster (.applyUninstaller ns parameters) answer cluster') :
    ∃ contents', cluster' ns = some contents' ∧ contents'.uninstaller = some job ∧
      ∀ id ∉ uninstallerIds, contents'.objects id = contents.objects id := by
  cases h with
  | fails => exact ⟨contents, hns, hjob, fun _ _ => rfl⟩
  | @applyUninstaller _ _ _ contents₁ contents' hns' hobjects hjob' _ =>
    obtain rfl : contents = contents₁ := Option.some.inj (hns.symm.trans hns')
    refine ⟨contents', Function.update_self .., ?_, hobjects⟩
    rcases hjob' with hsame | ⟨hnone, _⟩
    · exact hsame.trans hjob
    · cases hjob.symm.trans hnone

/-- A wait that is over has found the job complete. -/
theorem waitComplete_cases {cluster' : Cluster} {answer : Answer}
    (h : Serves cluster (.waitComplete ns) answer cluster') : cluster' = cluster ∧ (answer = none ∨
      ∃ contents parameters, ∃ run : Finished parameters, cluster ns = some contents ∧
        contents.uninstaller = some ⟨parameters, .complete run⟩) := by
  cases h with
  | fails => exact ⟨rfl, .inl rfl⟩
  | waitComplete hns hjob => exact ⟨rfl, .inr ⟨_, _, _, hns, hjob⟩⟩

/-- No wait for the job of the namespace is over. -/
def Waiting (runs : π → Run) (ns : String) (events : List (Event π Request Answer)) : Prop :=
  ∀ q lines, jobsNs (runs q).environ = some ns → (.waitComplete ns, some lines) ∉ movesOf q events

/-- An object is as before, or a run that was already in the namespace has put it there. -/
def Kept (runs : π → Run) (ns : String) (before events : List (Event π Request Answer))
    (contents contents' : Contents) (id : ObjectId) : Prop :=
  contents'.objects id = contents.objects id ∨ ∃ q source, jobsNs (runs q).environ = some ns ∧
    ¬ Idle ns (movesOf q before) ∧ (id, source) ∈ asked (movesOf q events) ∧
      contents'.objects id = some source

/-- What holds in a namespace since its uninstaller job has failed. -/
structure Stays (runs : π → Run) (ns : String) (before events : List (Event π Request Answer))
    (parameters : Parameters) (contents contents' : Contents) : Prop where
  failed : contents'.uninstaller = some ⟨parameters, .failed⟩
  kept : ∀ id ∈ scriptIds, id ∉ uninstallerIds → Kept runs ns before events contents contents' id
  waiting : Waiting runs ns events
  idle : ∀ q readable environ, runs q = .install readable environ → jobsNs environ = some ns →
    Idle ns (movesOf q before) → Idle ns (movesOf q events)

section
variable {parameters : Parameters} {contents' contents'' : Contents} {e : Event π Request Answer}
  {q : π} {request : Request} {answer : Answer} {id : ObjectId}

theorem Kept.go (h : Kept runs ns before events contents contents' id)
    (hasked : ∀ q, ∀ manifest ∈ asked (movesOf q events), manifest ∈ asked (movesOf q (events ++ [e])))
    (hsame : contents''.objects id = contents'.objects id) :
    Kept runs ns before (events ++ [e]) contents contents'' id := by
  rcases h with heq | ⟨q, source, hq, hin, hmem, heq⟩
  · exact .inl (hsame.trans heq)
  · exact .inr ⟨q, source, hq, hin, hasked q _ hmem, hsame.trans heq⟩

theorem asked_go (q : π) : ∀ manifest ∈ asked (movesOf q events),
    manifest ∈ asked (movesOf q (events ++ [e])) := by
  intro manifest hm
  rw [movesOf_append, asked_append]
  exact List.mem_append_left _ hm

/-- A step at which no run of the namespace moves. -/
theorem Stays.passes {after : Option Contents}
    (h : Stays runs ns before events parameters contents contents')
    (hpasses : Passes (some contents') after) (hmoves : ∀ q, jobsNs (runs q).environ = some ns →
      movesOf q (events ++ [e]) = movesOf q events) :
    ∃ contents'', after = some contents'' ∧
      Stays runs ns before (events ++ [e]) parameters contents contents'' := by
  obtain ⟨contents'', rfl, hfailed, hsame⟩ := passes_failed h.failed hpasses
  refine ⟨contents'', rfl, hfailed, fun id hid hnot => ?_, fun q lines hq => ?_,
    fun q readable environ hrun hq hidle => ?_⟩
  · exact (h.kept id hid hnot).go asked_go (hsame id hid)
  · rw [hmoves q hq]
    exact h.waiting q lines hq
  · rw [hmoves q (hrun ▸ hq)]
    exact h.idle q readable environ hrun hq hidle

/-- A move after which no wait is over. -/
theorem Waiting.move (h : Waiting runs ns events)
    (hmove : movesOf q (events ++ [e]) = movesOf q events ++ [(request, answer)])
    (hother : ∀ q' ≠ q, movesOf q' (events ++ [e]) = movesOf q' events)
    (hwait : request = .waitComplete ns → answer = none) : Waiting runs ns (events ++ [e]) := by
  intro q' lines hq' hover
  by_cases hne : q' = q
  · subst hne
    rw [hmove] at hover
    rcases List.mem_append.mp hover with hover | hover
    · exact h q' lines hq' hover
    · cases List.mem_singleton.mp hover
      cases hwait rfl
  · rw [hother q' hne] at hover
    exact h q' lines hq' hover

/-- A step of a run of `install.sh`. -/
theorem Stays.install {cluster' : Cluster} {next : Answer → Script} {readable : String → Bool}
    {environ : Environ} (h : Stays runs ns before events parameters contents contents')
    (hthere : cluster ns = some contents') (hrun : runs q = .install readable environ)
    (hq : jobsNs environ = some ns)
    (hleads : Leads (installScript readable environ) (movesOf q events) (.call request next))
    (hs : Serves cluster request answer cluster')
    (hmove : movesOf q (events ++ [e]) = movesOf q events ++ [(request, answer)])
    (hother : ∀ q' ≠ q, movesOf q' (events ++ [e]) = movesOf q' events) :
    ∃ contents'', cluster' ns = some contents'' ∧
      Stays runs ns before (events ++ [e]) parameters contents contents'' := by
  have hothers (q' : π) (hne : q' ≠ q) (readable' : String → Bool) (environ' : Environ)
      (hrun' : runs q' = .install readable' environ') (hq' : jobsNs environ' = some ns)
      (hidle : Idle ns (movesOf q' before)) : Idle ns (movesOf q' (events ++ [e])) :=
    hother q' hne ▸ h.idle q' readable' environ' hrun' hq' hidle
  by_cases hidle : Idle ns (movesOf q events)
  · -- the namespace is there, and cannot be made
    obtain ⟨hnil, rfl⟩ := idle_call hq hidle hleads
    obtain ⟨rfl, rfl⟩ := serves_createNs hthere hs
    refine ⟨contents', hthere, h.failed, fun id hid hnot => (h.kept id hid hnot).go asked_go rfl,
      h.waiting.move hmove hother (by rintro ⟨⟩), fun q' readable' environ' hrun' hq' hidle' => ?_⟩
    by_cases hne : q' = q
    · subst hne
      rw [hmove, hnil]
      exact .inr rfl
    · exact hothers q' hne readable' environ' hrun' hq' hidle'
  · have hin : ¬ Idle ns (movesOf q before) := fun hbefore =>
      hidle (h.idle q readable environ hrun hq hbefore)
    have hnext : Leads (installScript readable environ) (movesOf q events ++ [(request, answer)])
        (next answer) := hleads.snoc
    have hfills : request.Fills ns := by
      rcases leads_install hq hnext with hnil | ⟨hone, _⟩ | ⟨lines, rest, hmoves, hrest⟩
      · simp at hnil
      · exact (hidle (.inl (by simpa using congrArg List.length hone))).elim
      · cases hpast : movesOf q events with
        | nil => exact (hidle (.inl hpast)).elim
        | cons move moves =>
          rw [hpast, List.cons_append, List.cons_eq_cons] at hmoves
          obtain ⟨_, rfl⟩ := hmoves
          exact hrest.fills (request, answer) (by simp)
    obtain ⟨contents'', hthere', hjob, hobjects⟩ := fills_puts hfills hthere hs
    refine ⟨contents'', hthere', hjob.trans h.failed, fun id hid hnot => ?_,
      h.waiting.move hmove hother (by rintro rfl; cases hfills),
      fun q' readable' environ' hrun' hq' hidle' => ?_⟩
    · rcases hobjects id with hsame | ⟨source, hm, heq⟩
      · exact (h.kept id hid hnot).go asked_go hsame
      · refine .inr ⟨q, source, hrun ▸ hq, hin, ?_, heq⟩
        rw [hmove, asked_append]
        exact List.mem_append_right _ (by simpa using hm)
    · exact hothers q' (fun hne => hin (hne ▸ hidle')) readable' environ' hrun' hq' hidle'

/-- A step of a run of `uninstall.sh`. -/
theorem Stays.uninstall {cluster' : Cluster} {next : Answer → Script} {environ : Environ}
    (h : Stays runs ns before events parameters contents contents') (hthere : cluster ns = some contents')
    (hrun : runs q = .uninstall environ) (hq : jobsNs environ = some ns)
    (hleads : Leads (uninstallScript environ) (movesOf q events) (.call request next))
    (hs : Serves cluster request answer cluster')
    (hmove : movesOf q (events ++ [e]) = movesOf q events ++ [(request, answer)])
    (hother : ∀ q' ≠ q, movesOf q' (events ++ [e]) = movesOf q' events) :
    ∃ contents'', cluster' ns = some contents'' ∧
      Stays runs ns before (events ++ [e]) parameters contents contents'' := by
  have hidle (q' : π) (readable : String → Bool) (environ' : Environ)
      (hrun' : runs q' = .install readable environ') (hq' : jobsNs environ' = some ns)
      (hbefore : Idle ns (movesOf q' before)) : Idle ns (movesOf q' (events ++ [e])) := by
    have hne : q' ≠ q := by
      rintro rfl
      rw [hrun] at hrun'
      cases hrun'
    exact hother q' hne ▸ h.idle q' readable environ' hrun' hq' hbefore
  have hnext : Leads (uninstallScript environ) (movesOf q events ++ [(request, answer)]) (next answer) :=
    hleads.snoc
  rcases leads_uninstall hq hnext with hall | ⟨lines, lines', rest, hmoves, _⟩
  · rcases hall (request, answer) (by simp) with rfl | hwait
    · obtain ⟨contents'', hthere', hfailed, hsame⟩ := applyUninstaller_keeps hthere h.failed hs
      exact ⟨contents'', hthere', hfailed,
        fun id hid hnot => (h.kept id hid hnot).go asked_go (hsame id hnot),
        h.waiting.move hmove hother (by rintro ⟨⟩), hidle⟩
    · cases hwait
      exact ⟨contents', (waitComplete_cases hs).1 ▸ hthere, h.failed,
        fun id hid hnot => (h.kept id hid hnot).go asked_go rfl,
        h.waiting.move hmove hother fun _ => rfl, hidle⟩
  · -- a wait that is over has found a job that is complete
    have hover : (.waitComplete ns, some lines') ∈ movesOf q events ++ [(request, answer)] := by
      simp [hmoves]
    rcases List.mem_append.mp hover with hover | hover
    · exact (h.waiting q lines' (hrun ▸ hq) hover).elim
    · cases List.mem_singleton.mp hover
      obtain ⟨_, hnone | ⟨contents₂, parameters', run, hthere₂, hcomplete⟩⟩ := waitComplete_cases hs
      · cases hnone
      · obtain rfl : contents' = contents₂ := Option.some.inj (hthere.symm.trans hthere₂)
        cases h.failed.symm.trans hcomplete

end

theorem trace_stays {parameters : Parameters} (hbefore : Trace apiServer (start runs cluster) before w₁)
    (hwaiting : Waiting runs ns before) (hns : w₁.state ns = some contents)
    (hjob : contents.uninstaller = some ⟨parameters, .failed⟩) (h : Trace apiServer w₁ events w) :
    ∃ contents', w.state ns = some contents' ∧
      Stays runs ns before (before ++ events) parameters contents contents' := by
  induction h with
  | nil =>
    rw [List.append_nil]
    exact ⟨contents, hns, hjob, fun _ _ _ => .inl rfl, hwaiting, fun _ _ _ _ _ hidle => hidle⟩
  | @snoc events e w w' h hstep ih =>
    obtain ⟨contents', hthere, hstays⟩ := ih
    rw [← List.append_assoc]
    rcases step_cases (hbefore.append h) hstep ns with
      ⟨hpasses, hmoves⟩ | ⟨q, request, answer, next, hq, hleads, hs, hmove, hother⟩
    · rw [hthere] at hpasses
      exact hstays.passes hpasses hmoves
    · cases hrun : runs q with
      | install readable environ =>
        rw [hrun] at hq hleads
        exact hstays.install hthere hrun hq hleads hs hmove hother
      | uninstall environ =>
        rw [hrun] at hq hleads
        exact hstays.uninstall hthere hrun hq hleads hs hmove hother

/-- When the uninstaller job has failed and no run is behind its wait, the namespace stays, and the job
stays failed. Of the objects of the scripts, only what the job is made from changes, and what a run of
`install.sh` puts that was already in the namespace. No other run of `install.sh` gets into it. -/
theorem failed_stays {parameters : Parameters} (hbefore : Trace apiServer (start runs cluster) before w₁)
    (hwaiting : Waiting runs ns before) (hns : w₁.state ns = some contents)
    (hjob : contents.uninstaller = some ⟨parameters, .failed⟩) (h : Trace apiServer w₁ events w) :
    (∃ contents', w.state ns = some contents' ∧ contents'.uninstaller = some ⟨parameters, .failed⟩ ∧
        ∀ id ∈ scriptIds, id ∉ uninstallerIds →
          Kept runs ns before (before ++ events) contents contents' id) ∧
      ∀ q readable environ, runs q = .install readable environ → jobsNs environ = some ns →
        Idle ns (movesOf q before) → Waits (runs q) (w.clients q) := by
  obtain ⟨contents', hthere, hstays⟩ := trace_stays hbefore hwaiting hns hjob h
  refine ⟨⟨contents', hthere, hstays.failed, hstays.kept⟩, fun q readable environ hrun hq hidle => ?_⟩
  have hleads : Leads (runs q).script (movesOf q (before ++ events)) (w.clients q) :=
    (hbefore.append h).leads q
  have hstill := hstays.idle q readable environ hrun hq hidle
  rw [hrun] at hleads ⊢
  exact Idle.waits hq hstill hleads

end

/-- The job fails while the run waits for it. -/
theorem failed_stays_timedOut : ∃ before w₁ events w,
    Trace apiServer (start oneUninstall (withJob .running)) before w₁ ∧ Trace apiServer w₁ events w ∧
      w.clients () = .done 0 ∧ ∃ contents, w.state "kubeflow-jobs" = some contents ∧
        contents.uninstaller = some ⟨uninstallerParameters unset, .failed⟩ := by
  obtain ⟨w, hw, hstate, hclient⟩ := trace_apply .running
  let failed : Cluster := Function.update w.state "kubeflow-jobs" (withJob .failed "kubeflow-jobs")
  have hpasses (ns : String) : Passes (w.state ns) (failed ns) := by
    by_cases hns : ns = "kubeflow-jobs"
    · subst hns
      rw [hstate]
      have hself : failed "kubeflow-jobs" = withJob .failed "kubeflow-jobs" := Function.update_self ..
      rw [hself]
      exact .job rfl .failed rfl fun _ _ => .inl rfl
    · have hsame : failed ns = w.state ns := Function.update_of_ne hns ..
      rw [hsame]
      exact .refl _
  have hfails : Trace apiServer (start oneUninstall (withJob .running)) _ ⟨failed, w.clients⟩ :=
    hw.snoc (.outside hpasses)
  have hwait : Trace apiServer ⟨failed, w.clients⟩ _ _ := .snoc .nil (.call (p := ()) hclient Serves.fails)
  have hthere : failed "kubeflow-jobs" =
      some ⟨fun _ => none, some ⟨uninstallerParameters unset, .failed⟩⟩ := Function.update_self ..
  have hwaiting : Waiting oneUninstall "kubeflow-jobs" ([.call () (.applyUninstaller "kubeflow-jobs"
      (uninstallerParameters unset)) (some [])] ++ [.outside]) := by
    simp [Waiting, movesOf, Event.move]
  obtain ⟨⟨contents, hstays, hjob, _⟩, _⟩ := failed_stays hfails hwaiting hthere rfl hwait
  exact ⟨_, _, _, _, hfails, hwait, rfl, contents, hstays, hjob⟩

section
variable {π : Type} [DecidableEq π] {runs : π → Run} {cluster : Cluster} {ns : String}
  {contents : Contents} {events : List (Event π Request Answer)} {e : Event π Request Answer}
  {w w' : World π Cluster Request Answer Nat}

/-- Only a command deletes a namespace. -/
theorem deletes_cases {cluster' : Cluster} {request : Request} {answer : Answer}
    (hns : cluster ns = some contents) (h : Serves cluster request answer cluster')
    (hgone : cluster' ns = none) : request = .deleteNs ns := by
  by_cases hother : request.ns = some ns
  · cases h with
    | fails | waitComplete | getSecret => cases hns.symm.trans hgone
    | createNs | createSecret | apply | applyUninstaller | deleteUninstaller =>
      obtain rfl := Option.some.inj hother
      rw [Function.update_self] at hgone
      cases hgone
    | deleteNs =>
      rw [Option.some.inj hother]
  · rw [serves_other h hother, hns] at hgone
    cases hgone

/-- A run that is to delete its namespace has waited for the job. -/
theorem leads_deleteNs {run : Run} {moves : List (Request × Answer)} {next : Answer → Script}
    (h : Leads run.script moves (.call (.deleteNs ns) next)) :
    ∃ lines, (.waitComplete ns, some lines) ∈ moves := by
  have hnext : Leads run.script (moves ++ [(.deleteNs ns, none)]) (next none) := h.snoc
  have hlast : (.deleteNs ns, none) ∈ moves ++ [(.deleteNs ns, none)] := by simp
  have hns : jobsNs run.environ = some ns := by
    rcases run_ns hnext hlast with hnone | hsome
    · cases hnone
    · exact hsome.symm
  cases run with
  | install readable environ =>
    rcases leads_install hns hnext with hnil | ⟨hone, _⟩ | ⟨lines, rest, hmoves, hrest⟩
    · simp at hnil
    · rw [hone] at hlast
      simp at hlast
    · rw [hmoves, List.mem_cons] at hlast
      rcases hlast with heq | hmem
      · cases heq
      · cases hrest.fills _ hmem
  | uninstall environ =>
    rcases leads_uninstall hns hnext with hall | ⟨_, lines, rest, hmoves, _⟩
    · rcases hall _ hlast with heq | heq <;> cases heq
    · refine ⟨lines, ?_⟩
      have hwait : (.waitComplete ns, some lines) ∈ moves ++ [(.deleteNs ns, none)] := by simp [hmoves]
      simpa using hwait

/-- Whenever a namespace goes, a run of the scripts deletes it whose own wait is over: it has found an
uninstaller job in the namespace of that name that was complete, so that everything that the job is to
delete had been begun. -/
theorem deleted_after_complete (h : Trace apiServer (start runs cluster) events w)
    (hstep : Step apiServer w e w') (hthere : (w.state ns).isSome) (hgone : w'.state ns = none) :
    ∃ p answer, e = .call p (.deleteNs ns) answer ∧
      ∃ before lines later w₁ w₂, events = before ++ .call p (.waitComplete ns) (some lines) :: later ∧
        Trace apiServer (start runs cluster) before w₁ ∧
          Step apiServer w₁ (.call p (.waitComplete ns) (some lines)) w₂ ∧ Trace apiServer w₂ later w ∧
            ∃ contents parameters, ∃ run : Finished parameters, w₁.state ns = some contents ∧
              contents.uninstaller = some ⟨parameters, .complete run⟩ ∧
                ∀ flag, disableIstio parameters = some flag → ∀ path ∈ Uninstaller.deletes flag,
                  path ∈ (Uninstaller.uninstall run.settings run.goes).begun := by
  obtain ⟨contents, hthere⟩ := Option.isSome_iff_exists.mp hthere
  cases hstep with
  | @outside cluster' hout =>
    have hpasses : Passes (w.state ns) (cluster' ns) := hout ns
    have hleft : cluster' ns = none := hgone
    rw [hthere, hleft] at hpasses
    cases hpasses
  | @call p request answer next cluster' hp hs =>
    obtain rfl := deletes_cases hthere hs hgone
    obtain ⟨lines, hwait⟩ := leads_deleteNs (hp ▸ h.leads p)
    obtain ⟨before, later, rfl⟩ := exists_event hwait
    obtain ⟨w₁, w₂, hbefore, hwaits, hlater⟩ := h.split
    refine ⟨p, answer, rfl, before, lines, later, w₁, w₂, rfl, hbefore, hwaits, hlater, ?_⟩
    cases hwaits with
    | call _ hs₁ =>
      obtain ⟨_, hnone | ⟨contents₁, parameters, run, hthere₁, hcomplete⟩⟩ := waitComplete_cases hs₁
      · cases hnone
      · refine ⟨contents₁, parameters, run, hthere₁, hcomplete, fun flag hflag path hpath => ?_⟩
        rw [Uninstaller.mem_begun run.exit, run.flag flag hflag]
        exact hpath

end

/-- A run that is about to delete its namespace. -/
theorem trace_deleteUninstaller : ∃ events w,
    Trace apiServer (start oneUninstall (withJob (.complete finished))) events w ∧
      w.state "kubeflow-jobs" = withJob (.complete finished) "kubeflow-jobs" ∧
        w.clients () = check (.deleteNs "kubeflow-jobs") (.done 0) := by
  obtain ⟨w, hw, hstate, hclient⟩ := trace_apply (.complete finished)
  have hwait : Trace apiServer (start oneUninstall (withJob (.complete finished))) _ _ :=
    hw.snoc (.call (p := ()) hclient (Serves.waitComplete hstate rfl))
  have hdelete : Trace apiServer (start oneUninstall (withJob (.complete finished)))
      (_ ++ [.call () (.deleteUninstaller "kubeflow-jobs") (some [])]) _ :=
    hwait.snoc (.call (p := ()) rfl (.deleteUninstaller hstate (fun _ _ => rfl) (.inl rfl)))
  exact ⟨_, _, hdelete, rfl, rfl⟩

theorem deleted_after_complete_run : ∃ events w w',
    Trace apiServer (start oneUninstall (withJob (.complete finished))) events w ∧
      Step apiServer w (.call () (.deleteNs "kubeflow-jobs") (some [])) w' ∧
        w'.state "kubeflow-jobs" = none ∧ ∃ before w₁ contents parameters,
          ∃ run : Finished parameters, before <+: events ∧
            Trace apiServer (start oneUninstall (withJob (.complete finished))) before w₁ ∧
              w₁.state "kubeflow-jobs" = some contents ∧
                contents.uninstaller = some ⟨parameters, .complete run⟩ := by
  obtain ⟨events, w, hw, hstate, hclient⟩ := trace_deleteUninstaller
  have hgoes : Step apiServer w (.call () (.deleteNs "kubeflow-jobs") (some [])) _ :=
    .call (p := ()) hclient (.deleteNs hstate)
  have hgone : Function.update w.state "kubeflow-jobs" none "kubeflow-jobs" = none :=
    Function.update_self ..
  obtain ⟨_, _, _, before, _, later, w₁, _, rfl, hbefore, _, _, contents, parameters, run, hthere,
      hjob, _⟩ := deleted_after_complete hw hgoes (by rw [hstate]; rfl) hgone
  exact ⟨_, w, _, hw, hgoes, hgone, before, w₁, contents, parameters, run, List.prefix_append _ _, hbefore,
    hthere, hjob⟩

end Manifests.Lifecycle
