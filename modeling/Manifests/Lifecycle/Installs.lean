import Manifests.Lifecycle.Moves

/-! Runs of `install.sh` for one namespace: at most one of them gets into it. -/
namespace Manifests.Lifecycle
open Library Library.Clients

section
variable {cluster cluster' : Cluster} {contents contents' : Contents} {request : Request}
  {answer : Answer} {ns : String} {moves : List (Request × Answer)} {environ : Environ}
  {readable : String → Bool} {c : Script}

/-- The run has made the namespace, and of the objects of the scripts there is what it has put there. -/
structure Holder (ns : String) (moves : List (Request × Answer)) (contents : Contents) : Prop where
  made : ∃ answer rest, moves = (.createNs ns, answer) :: rest
  known : ∀ manifest ∈ asked moves, manifest.1 ∈ scriptIds
  origin : ∀ id ∈ scriptIds, ∀ source, contents.objects id = some source → (id, source) ∈ asked moves
  kept : ∀ manifest ∈ granted moves, contents.objects manifest.1 = some manifest.2
  idle : contents.uninstaller = none

theorem Holder.empty : Holder ns [(.createNs ns, answer)] .empty := by
  refine ⟨⟨answer, [], rfl⟩, by simp [Request.manifests], nofun, fun manifest hm => ?_, rfl⟩
  cases answer <;> simp [Request.manifests] at hm

/-- Without the scripts, their objects stay. -/
theorem Holder.passes {after : Option Contents} (h : Holder ns moves contents)
    (hpasses : Passes (some contents) after) :
    ∃ contents', after = some contents' ∧ Holder ns moves contents' := by
  obtain ⟨contents', rfl, hjob, hobjects⟩ := passes_idle hpasses h.idle
  refine ⟨contents', rfl, h.made, h.known, fun id hid source hsource => ?_, fun manifest hm => ?_, hjob⟩
  · exact h.origin id hid source ((hobjects id hid).symm.trans hsource)
  · obtain ⟨move, hmove, hmanifest⟩ := List.mem_flatMap.mp hm
    have hasked : manifest ∈ asked moves :=
      List.mem_flatMap.mpr ⟨move, (List.mem_filter.mp hmove).1, hmanifest⟩
    exact (hobjects _ (h.known manifest hasked)).trans (h.kept manifest hm)

theorem Holder.fails (h : Holder ns moves contents)
    (hknown : ∀ manifest ∈ asked (moves ++ [(request, none)]), manifest.1 ∈ scriptIds) :
    Holder ns (moves ++ [(request, none)]) contents := by
  obtain ⟨answer, rest, rfl⟩ := h.made
  refine ⟨⟨answer, rest ++ [(request, none)], rfl⟩, hknown, fun id hid source hsource => ?_,
    fun manifest hm => ?_, h.idle⟩
  · rw [asked_append]
    exact List.mem_append_left _ (h.origin id hid source hsource)
  · rw [granted_append] at hm
    exact h.kept manifest (by simpa using hm)

/-- A command that puts manifests with other names than those that are there, or the same again. -/
theorem Holder.put (h : Holder ns moves contents) (hput : Put request.manifests contents contents')
    (hall : answer ≠ none → ∀ manifest ∈ request.manifests,
      contents'.objects manifest.1 = some manifest.2)
    (hknown : ∀ manifest ∈ asked (moves ++ [(request, answer)]), manifest.1 ∈ scriptIds)
    (hinj : ∀ id source source', (id, source) ∈ asked (moves ++ [(request, answer)]) →
      (id, source') ∈ asked (moves ++ [(request, answer)]) → source = source') :
    Holder ns (moves ++ [(request, answer)]) contents' := by
  obtain ⟨first, rest, rfl⟩ := h.made
  obtain ⟨hjob, hobjects⟩ := hput
  have hnew (manifest : Manifest) (hm : manifest ∈ request.manifests) :
      manifest ∈ asked ((.createNs ns, first) :: rest ++ [(request, answer)]) := by
    rw [asked_append]
    exact List.mem_append_right _ (by simpa using hm)
  have hold (manifest : Manifest) (hm : manifest ∈ asked ((.createNs ns, first) :: rest)) :
      manifest ∈ asked ((.createNs ns, first) :: rest ++ [(request, answer)]) := by
    rw [asked_append]
    exact List.mem_append_left _ hm
  refine ⟨⟨first, rest ++ [(request, answer)], rfl⟩, hknown, fun id hid source hsource => ?_,
    fun manifest hm => ?_, hjob.trans h.idle⟩
  · rcases hobjects id with hsame | ⟨source', hm, heq⟩
    · exact hold _ (h.origin id hid source (hsame.symm.trans hsource))
    · rw [hsource] at heq
      cases heq
      exact hnew _ hm
  · have hid : manifest.1 ∈ scriptIds := by
      obtain ⟨move, hmove, hmanifest⟩ := List.mem_flatMap.mp hm
      exact hknown manifest (List.mem_flatMap.mpr ⟨move, (List.mem_filter.mp hmove).1, hmanifest⟩)
    rw [granted_append] at hm
    rcases List.mem_append.mp hm with hm | hm
    · have hthere := h.kept manifest hm
      rcases hobjects manifest.1 with hsame | ⟨source', hm', heq⟩
      · exact hsame.trans hthere
      · rw [heq, hinj _ _ _ (hnew _ hm') (hold _ (h.origin _ hid _ hthere))]
    · cases answer with
      | none => simp at hm
      | some lines => exact hall nofun manifest (by simpa using hm)

/-- The run that has made the namespace goes on. -/
theorem Holder.step (h : Holder ns moves contents) (hns : jobsNs environ = some ns)
    (hleads : Leads (installScript readable environ) (moves ++ [(request, answer)]) c)
    (hthere : cluster ns = some contents) (hs : Serves cluster request answer cluster') :
    ∃ contents', cluster' ns = some contents' ∧ Holder ns (moves ++ [(request, answer)]) contents' := by
  have hbehind : request.Fills ns ∧
      (∀ manifest ∈ asked (moves ++ [(request, answer)]), manifest.1 ∈ scriptIds) ∧
        ∀ id source source', (id, source) ∈ asked (moves ++ [(request, answer)]) →
          (id, source') ∈ asked (moves ++ [(request, answer)]) → source = source' := by
    obtain ⟨first, rest, rfl⟩ := h.made
    rcases leads_install hns hleads with hnil | ⟨hone, _⟩ | ⟨lines, rest', hmoves, hrest⟩
    · simp at hnil
    · simp at hone
    · rw [List.cons_append, List.cons_eq_cons] at hmoves
      obtain ⟨hfirst, rfl⟩ := hmoves
      cases hfirst
      refine ⟨hrest.fills (request, answer) (by simp), fun manifest hm => ?_,
        fun id source source' h h' => ?_⟩
      · exact mem_scriptIds (hrest.asked manifest hm)
      · exact wanted_inj (hrest.asked _ h) (hrest.asked _ h')
  obtain ⟨hfills, hknown, hinj⟩ := hbehind
  cases hs with
  | fails => exact ⟨contents, hthere, h.fails hknown⟩
  | getSecret =>
    exact ⟨contents, hthere, h.put ⟨rfl, fun _ => .inl rfl⟩ (by simp [Request.manifests]) hknown hinj⟩
  | @createSecret ns' manifest _ contents₁ contents' hns' _ hput hall =>
    cases hfills
    obtain rfl : contents = contents₁ := Option.some.inj (hthere.symm.trans hns')
    refine ⟨contents', Function.update_self .., h.put hput (fun _ => ?_) hknown hinj⟩
    simpa [Request.manifests] using hall
  | @apply ns' manifests _ contents₁ contents' hns' hput hall =>
    cases hfills
    obtain rfl : contents = contents₁ := Option.some.inj (hthere.symm.trans hns')
    exact ⟨contents', Function.update_self .., h.put hput hall hknown hinj⟩
  | createNs => cases hfills
  | applyUninstaller => cases hfills
  | waitComplete => cases hfills
  | deleteUninstaller => cases hfills
  | deleteNs => cases hfills

end

section
variable {π : Type} [DecidableEq π] {runs : π → Run} {cluster : Cluster} {ns : String}
  {contents : Contents} {events : List (Event π Request Answer)}
  {w : World π Cluster Request Answer Nat}

/-- The namespace is not there and all its runs are idle, or one of them has made it. -/
theorem trace_holder (hns : cluster ns = none)
    (hinstall : ∀ p, jobsNs (runs p).environ = some ns →
      ∃ readable environ, runs p = .install readable environ)
    (h : Trace apiServer (start runs cluster) events w) :
    (w.state ns = none ∧ ∀ q, jobsNs (runs q).environ = some ns → Idle ns (movesOf q events)) ∨
      ∃ p contents, jobsNs (runs p).environ = some ns ∧ w.state ns = some contents ∧
        Holder ns (movesOf p events) contents ∧
        ∀ q ≠ p, jobsNs (runs q).environ = some ns → Idle ns (movesOf q events) := by
  induction h with
  | nil => exact .inl ⟨hns, fun _ _ => .inl rfl⟩
  | @snoc events e w w' h hstep ih =>
    rcases step_cases h hstep ns with
      ⟨hpasses, hmoves⟩ | ⟨q, request, answer, next, hq, hleads, hs, hmove, hother⟩
    · rcases ih with ⟨habsent, hidle⟩ | ⟨p, contents, hp, hthere, hholder, hidle⟩
      · rw [habsent] at hpasses
        exact .inl ⟨passes_absent hpasses, fun q hq => hmoves q hq ▸ hidle q hq⟩
      · rw [hthere] at hpasses
        obtain ⟨contents', hthere', hholder'⟩ := hholder.passes hpasses
        exact .inr ⟨p, contents', hp, hthere', hmoves p hp ▸ hholder',
          fun q hqp hq => hmoves q hq ▸ hidle q hqp hq⟩
    · obtain ⟨readable, environ, hrun⟩ := hinstall q hq
      rw [hrun] at hq hleads
      rcases ih with ⟨habsent, hidle⟩ | ⟨p, contents, hp, hthere, hholder, hidle⟩
      · obtain ⟨hnil, rfl⟩ := idle_call hq (hidle q (hrun ▸ hq)) hleads
        rw [hnil, List.nil_append] at hmove
        have hothers (q' : π) (hne : q' ≠ q) (hq' : jobsNs (runs q').environ = some ns) :
            Idle ns (movesOf q' (events ++ [e])) := hother q' hne ▸ hidle q' hq'
        rcases createNs_cases hs with ⟨rfl, hsame⟩ | hmade
        · refine .inl ⟨hsame ▸ habsent, fun q' hq' => ?_⟩
          by_cases hne : q' = q
          · rw [hne, hmove]
            exact .inr rfl
          · exact hothers q' hne hq'
        · exact .inr ⟨q, .empty, hrun ▸ hq, hmade, hmove ▸ .empty, hothers⟩
      · by_cases hqp : q = p
        · subst hqp
          obtain ⟨contents', hthere', hholder'⟩ := hholder.step hq hleads.snoc hthere hs
          exact .inr ⟨q, contents', hp, hthere', hmove ▸ hholder',
            fun q' hne hq' => hother q' hne ▸ hidle q' hne hq'⟩
        · obtain ⟨hnil, rfl⟩ := idle_call hq (hidle q hqp (hrun ▸ hq)) hleads
          obtain ⟨rfl, hsame⟩ := serves_createNs hthere hs
          refine .inr ⟨p, contents, hp, hsame ▸ hthere, hother p (Ne.symm hqp) ▸ hholder,
            fun q' hne hq' => ?_⟩
          by_cases hq'q : q' = q
          · rw [hq'q, hmove, hnil]
            exact .inr rfl
          · exact hother q' hq'q ▸ hidle q' hne hq'

/-- However many runs of `install.sh` there are for a namespace that is not there, and however their
commands interleave, at most one gets past the first command. Of the objects that the scripts put in
the namespace, those that are there are what this run is to put there, and all of that is there when it
ends with zero. -/
theorem one_install (hns : cluster ns = none)
    (hinstall : ∀ p, jobsNs (runs p).environ = some ns →
      ∃ readable environ, runs p = .install readable environ)
    (h : Trace apiServer (start runs cluster) events w) :
    (w.state ns = none ∧ ∀ q, jobsNs (runs q).environ = some ns → Waits (runs q) (w.clients q)) ∨
      ∃ p contents, jobsNs (runs p).environ = some ns ∧ w.state ns = some contents ∧
        (∀ id ∈ scriptIds, ∀ source, contents.objects id = some source →
          (id, source) ∈ wanted (runs p).environ (heard (movesOf p events))) ∧
        (w.clients p = .done 0 → ∀ manifest ∈ wanted (runs p).environ (heard (movesOf p events)),
          contents.objects manifest.1 = some manifest.2) ∧
        ∀ q ≠ p, jobsNs (runs q).environ = some ns → Waits (runs q) (w.clients q) := by
  have hwaits (q : π) (hq : jobsNs (runs q).environ = some ns) (hidle : Idle ns (movesOf q events)) :
      Waits (runs q) (w.clients q) := by
    obtain ⟨readable, environ, hrun⟩ := hinstall q hq
    have hleads : Leads (runs q).script (movesOf q events) (w.clients q) := h.leads q
    rw [hrun] at hq hleads ⊢
    exact hidle.waits hq hleads
  rcases trace_holder hns hinstall h with ⟨habsent, hidle⟩ | ⟨p, contents, hp, hthere, hholder, hidle⟩
  · exact .inl ⟨habsent, fun q hq => hwaits q hq (hidle q hq)⟩
  · refine .inr ⟨p, contents, hp, hthere, ?_, ?_, fun q hne hq => hwaits q hq (hidle q hne hq)⟩
    all_goals
      obtain ⟨readable, environ, hrun⟩ := hinstall p hp
      have hleads : Leads (runs p).script (movesOf p events) (w.clients p) := h.leads p
      rw [hrun] at hp hleads ⊢
      obtain ⟨answer, rest, hmoves⟩ := hholder.made
      rcases leads_install hp hleads with hnil | ⟨hone, hdone⟩ | ⟨lines, rest', hmoves', hrest⟩
      · rw [hnil] at hmoves
        cases hmoves
    · intro id hid source hsource
      have horigin := hholder.origin id hid source hsource
      rw [hone] at horigin
      simp [Request.manifests] at horigin
    · intro id hid source hsource
      have horigin := hholder.origin id hid source hsource
      rw [hmoves'] at horigin ⊢
      exact hrest.asked _ horigin
    · intro hzero
      rw [hdone] at hzero
      cases hzero
    · intro hzero manifest hm
      refine hholder.kept manifest ?_
      rw [hmoves'] at hm ⊢
      exact List.mem_append_right _ (hrest.granted hzero manifest hm)

end

/-- Two runs of `install.sh`, and one makes the namespace before the other. -/
def twoInstalls (_ : Bool) : Run := .install (fun _ => true) unset

def filled (manifests : List Manifest) : Contents := ⟨fun id => manifests.lookup id, none⟩

theorem put_filled (manifests more : List Manifest) :
    Put more (filled manifests) (filled (manifests ++ more)) := by
  refine ⟨rfl, fun id => ?_⟩
  have happend : (manifests ++ more).lookup id = (manifests.lookup id).or (more.lookup id) :=
    List.lookup_append
  simp only [filled, happend]
  cases manifests.lookup id with
  | some source => exact .inl rfl
  | none =>
    cases hmore : more.lookup id with
    | none => exact .inl rfl
    | some source =>
      obtain ⟨before, after, rfl, _⟩ := List.lookup_eq_some_iff.mp hmore
      exact .inr ⟨source, by simp, rfl⟩

/-- A job that the installer applies when it has been started. -/
def minioJob : ObjectId := .named "Job" "minio-config-generator"

def withMinioJob (contents : Contents) : Contents where
  objects := Function.update contents.objects minioJob (some (.built []))
  uninstaller := contents.uninstaller

/-- The namespace when the installer job runs, and nothing else. -/
def installing : String → Option Contents := fun ns =>
  if ns = "kubeflow-jobs" then
    some (withMinioJob (filled (imagePullSecret unset ++ installer unset)))
  else none

theorem passes_minioJob (manifests : List Manifest) :
    Passes (some (filled manifests)) (some (withMinioJob (filled manifests))) := by
  refine .idle rfl rfl fun id hid => Function.update_of_ne ?_ ..
  have hother : ∀ id ∈ scriptIds, id ≠ minioJob := by decide
  exact hother id hid

def twoEvents : List (Event Bool Request Answer) :=
  [.call true (.createNs "kubeflow-jobs") (some []), .call false (.createNs "kubeflow-jobs") none,
    .call true (.apply "kubeflow-jobs" (imagePullSecret unset)) (some []),
    .call true (.apply "kubeflow-jobs" (installer unset)) (some []), .outside]

theorem trace_twoInstalls : ∃ w contents, Trace apiServer (start twoInstalls fun _ => none) twoEvents w ∧
    w.state "kubeflow-jobs" = some contents ∧ contents.objects minioJob = some (.built []) ∧
      w.clients true = .done 0 := by
  have hstart (p : Bool) : (twoInstalls p).script =
      check (.createNs "kubeflow-jobs") (applyComponents unset "kubeflow-jobs") := installScript_unset
  have hmade : Trace apiServer (start twoInstalls fun _ => none) (twoEvents.take 1) _ :=
    .snoc .nil (.call (p := true) (hstart true) (Serves.createNs rfl))
  have hrefused : Trace apiServer (start twoInstalls fun _ => none) (twoEvents.take 2) _ :=
    hmade.snoc (.call (p := false) (hstart false) Serves.fails)
  have hpull : Trace apiServer (start twoInstalls fun _ => none) (twoEvents.take 3) _ :=
    hrefused.snoc (.call (p := true) rfl
      (Serves.apply rfl (put_filled [] (imagePullSecret unset)) fun _ => by decide))
  have hinstaller : Trace apiServer (start twoInstalls fun _ => none) (twoEvents.take 4) _ :=
    hpull.snoc (.call (p := true) rfl
      (Serves.apply rfl (put_filled (imagePullSecret unset) (installer unset)) fun _ => by decide))
  have hstarted : Trace apiServer (start twoInstalls fun _ => none) twoEvents _ :=
    hinstaller.snoc (show Step apiServer _ .outside ⟨installing, _⟩ from .outside fun ns => by
      by_cases hns : ns = "kubeflow-jobs"
      · subst hns
        exact passes_minioJob _
      · simpa [installing, hns, Function.update_of_ne, start] using Passes.absent)
  exact ⟨_, _, hstarted, rfl, by simp [withMinioJob], rfl⟩

theorem one_install_twoInstalls : ∃ w,
    Trace apiServer (start twoInstalls fun _ => none) twoEvents w ∧ w.clients true = .done 0 ∧
      ∃ p contents, w.state "kubeflow-jobs" = some contents ∧
        (∀ id ∈ scriptIds, ∀ source, contents.objects id = some source →
          (id, source) ∈ wanted unset (heard (movesOf p twoEvents))) ∧
        ∀ q ≠ p, Waits (twoInstalls q) (w.clients q) := by
  obtain ⟨w, contents, hw, hthere, _, hdone⟩ := trace_twoInstalls
  refine ⟨w, hw, hdone, ?_⟩
  rcases one_install rfl (fun p _ => ⟨_, _, rfl⟩) hw with
    ⟨habsent, _⟩ | ⟨p, contents, _, hcontents, horigin, _, hwaits⟩
  · rw [habsent] at hthere
    cases hthere
  · exact ⟨p, contents, hcontents, horigin, fun q hne => hwaits q hne jobsNs_unset⟩

end Manifests.Lifecycle
