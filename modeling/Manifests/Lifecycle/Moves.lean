import Manifests.Lifecycle

/-! What a run of one of the scripts has got through, and what a step does to a namespace. -/
namespace Manifests.Lifecycle
open Library Library.Clients TlsSecret

def Request.manifests : Request → List Manifest
  | .createSecret _ manifest => [manifest]
  | .apply _ manifests => manifests
  | _ => []

/-- The manifests of the commands, and of those that succeeded. -/
def asked (moves : List (Request × Answer)) : List Manifest := moves.flatMap (·.1.manifests)

def granted (moves : List (Request × Answer)) : List Manifest :=
  asked (moves.filter fun move => move.2.isSome)

/-- A command of `install.sh` behind the first. -/
inductive Request.Fills (ns : String) : Request → Prop where
  | getSecret {name ns' : String} : Fills ns (.getSecret name ns')
  | createSecret {manifest : Manifest} : Fills ns (.createSecret ns manifest)
  | apply {manifests : List Manifest} : Fills ns (.apply ns manifests)

/-- Commands that put these manifests in a namespace, all of them when the script ends with zero. -/
structure Fulfils (ns : String) (manifests : List Manifest) (moves : List (Request × Answer))
    (c : Script) : Prop where
  fills : ∀ move ∈ moves, move.1.Fills ns
  asked : ∀ manifest ∈ asked moves, manifest ∈ manifests
  granted : c = .done 0 → ∀ manifest ∈ manifests, manifest ∈ granted moves

section
variable {request : Request} {answer : Answer} {next c : Script} {moves rest : List (Request × Answer)}
  {ns : String} {environ : Environ} {manifest : Manifest} {manifests more : List Manifest} {status : Nat}

theorem leads_done (h : Leads (.done status : Script) moves c) : moves = [] ∧ c = .done status := by
  cases h
  exact ⟨rfl, rfl⟩

theorem leads_nil {c' : Script} (h : Leads c [] c') : c' = c := by
  cases h
  rfl

/-- A script under `set -e` is before a command, or has ended at it, or is behind it. -/
theorem leads_check (h : Leads (check request next) moves c) :
    moves = [] ∧ c = check request next ∨ moves = [(request, none)] ∧ c = .done 1 ∨
      ∃ lines rest, moves = (request, some lines) :: rest ∧ Leads next rest c := by
  rcases h with _ | @⟨_, _ | lines, _, rest, _, h⟩
  · exact .inl ⟨rfl, rfl⟩
  · obtain ⟨rfl, rfl⟩ := leads_done h
    exact .inr (.inl ⟨rfl, rfl⟩)
  · exact .inr (.inr ⟨lines, rest, rfl, h⟩)

@[simp] theorem asked_nil : asked [] = [] := rfl

@[simp] theorem granted_nil : granted [] = [] := rfl

@[simp] theorem asked_cons : asked ((request, answer) :: moves) = request.manifests ++ asked moves := rfl

@[simp] theorem asked_append : asked (moves ++ rest) = asked moves ++ asked rest := List.flatMap_append

@[simp] theorem granted_some {lines : List String} :
    granted ((request, some lines) :: moves) = request.manifests ++ granted moves := rfl

@[simp] theorem granted_none : granted ((request, none) :: moves) = granted moves := rfl

@[simp] theorem granted_append : granted (moves ++ rest) = granted moves ++ granted rest := by
  rw [granted, List.filter_append, asked_append, granted, granted]

theorem Fulfils.done : Fulfils ns [] [] c := ⟨by simp, by simp, by simp⟩

theorem Fulfils.check (hfills : request.Fills ns) (h : Leads (check request next) moves c)
    (hnext : ∀ rest, Leads next rest c → Fulfils ns more rest c) :
    Fulfils ns (request.manifests ++ more) moves c := by
  rcases leads_check h with ⟨rfl, rfl⟩ | ⟨rfl, rfl⟩ | ⟨lines, rest, rfl, hrest⟩
  · exact ⟨by simp, by simp, nofun⟩
  · exact ⟨by simpa using hfills, by simp +contextual, nofun⟩
  · obtain ⟨hfills', hasked, hgranted⟩ := hnext rest hrest
    refine ⟨by simpa using ⟨hfills, fun r a => hfills' (r, a)⟩, fun manifest hm => ?_, fun hc => ?_⟩
    · rcases List.mem_append.mp hm with hm | hm
      · exact List.mem_append_left _ hm
      · exact List.mem_append_right _ (hasked manifest hm)
    · intro manifest hm
      rw [granted_some]
      rcases List.mem_append.mp hm with hm | hm
      · exact List.mem_append_left _ hm
      · exact List.mem_append_right _ (hgranted hc manifest hm)

theorem fulfils_applyComponents (h : Leads (applyComponents environ ns) moves c) :
    Fulfils ns (imagePullSecret environ ++ installer environ) moves c := by
  refine Fulfils.check .apply h fun rest h => ?_
  rw [← List.append_nil (installer environ)]
  refine Fulfils.check .apply h fun rest h => ?_
  obtain ⟨rfl, rfl⟩ := leads_done h
  exact .done

theorem fulfils_copySecret (h : Leads (copySecret environ ns) moves c) :
    Fulfils ns (wanted environ (heard moves)) moves c := by
  rw [copySecret] at h
  rw [wanted]
  split_ifs at h ⊢
  · rw [List.append_assoc]
    cases h with
    | refl => exact ⟨by simp, by simp, nofun⟩
    | @step _ answer _ moves _ h =>
      obtain ⟨hfills, hasked, hgranted⟩ := Fulfils.check .apply h fun rest => fulfils_applyComponents
      refine ⟨by simpa using ⟨.getSecret, fun r a => hfills (r, a)⟩, hasked, ?_⟩
      cases answer with
      | none => exact hgranted
      | some lines => exact hgranted
  · rw [List.append_assoc]
    exact Fulfils.check .createSecret h fun rest => fulfils_applyComponents
  · exact fulfils_applyComponents h

theorem leads_install {readable : String → Bool} (hns : jobsNs environ = some ns)
    (h : Leads (installScript readable environ) moves c) :
    moves = [] ∨ moves = [(.createNs ns, none)] ∧ c = .done 1 ∨ ∃ lines rest,
      moves = (.createNs ns, some lines) :: rest ∧ Fulfils ns (wanted environ (heard rest)) rest c := by
  rw [installScript, hns] at h
  split at h
  · rcases leads_check h with ⟨hnil, _⟩ | hfailed | ⟨lines, rest, hmoves, hrest⟩
    · exact .inl hnil
    · exact .inr (.inl hfailed)
    · exact .inr (.inr ⟨lines, rest, hmoves, fulfils_copySecret hrest⟩)
  · exact .inl (leads_done h).1

/-- What a run of `uninstall.sh` has got through, up to its wait. -/
theorem leads_uninstall (hns : jobsNs environ = some ns) (h : Leads (uninstallScript environ) moves c) :
    (∀ move ∈ moves, move.1 = .applyUninstaller ns (uninstallerParameters environ) ∨
        move = (.waitComplete ns, none)) ∨
      ∃ lines lines' rest, moves = (.applyUninstaller ns (uninstallerParameters environ), some lines) ::
        (.waitComplete ns, some lines') :: rest ∧
          ∀ move ∈ rest, move.1 = .deleteUninstaller ns ∨ move.1 = .deleteNs ns := by
  simp only [uninstallScript, hns] at h
  rcases leads_check h with ⟨rfl, rfl⟩ | ⟨rfl, rfl⟩ | ⟨lines, rest, rfl, hrest⟩
  · simp
  · simp
  · rcases hrest with _ | @⟨_, _ | lines', _, rest, _, hwaited⟩
    · simp
    · obtain ⟨rfl, rfl⟩ := leads_done hwaited
      simp
    · refine .inr ⟨lines, lines', rest, rfl, ?_⟩
      rcases leads_check hwaited with ⟨rfl, rfl⟩ | ⟨rfl, rfl⟩ | ⟨_, rest, rfl, hdeleted⟩
      · simp
      · simp
      · rcases leads_check hdeleted with ⟨rfl, rfl⟩ | ⟨rfl, rfl⟩ | ⟨_, rest, rfl, hdone⟩
        · simp
        · simp
        · obtain ⟨rfl, rfl⟩ := leads_done hdone
          simp

theorem Request.Fills.ns_eq (h : request.Fills ns) : request.ns = none ∨ request.ns = some ns := by
  cases h <;> simp [Request.ns]

/-- A run changes its own namespace only. -/
theorem run_ns {run : Run} (h : Leads run.script moves c) {move : Request × Answer}
    (hmove : move ∈ moves) : move.1.ns = none ∨ move.1.ns = jobsNs run.environ := by
  cases hns : jobsNs run.environ with
  | none =>
    cases run with
    | install readable environ =>
      have hscript : installScript readable environ = .done 1 := by
        rw [Run.environ] at hns
        rw [installScript, hns, ite_self]
      rw [Run.script, hscript] at h
      obtain ⟨rfl, _⟩ := leads_done h
      cases hmove
    | uninstall environ =>
      rw [Run.environ] at hns
      simp only [Run.script, uninstallScript, hns] at h
      obtain ⟨rfl, _⟩ := leads_done h
      cases hmove
  | some ns =>
    cases run with
    | install readable environ =>
      rcases leads_install hns h with rfl | ⟨rfl, _⟩ | ⟨lines, rest, rfl, hrest⟩
      · cases hmove
      · simp only [List.mem_singleton] at hmove
        exact .inr (hmove ▸ rfl)
      · rcases List.mem_cons.mp hmove with rfl | hmove
        · exact .inr rfl
        · exact (hrest.fills move hmove).ns_eq
    | uninstall environ =>
      rcases leads_uninstall hns h with hall | ⟨_, _, rest, rfl, hrest⟩
      · rcases hall move hmove with heq | rfl
        · exact .inr (heq ▸ rfl)
        · exact .inr rfl
      · simp only [List.mem_cons] at hmove
        rcases hmove with rfl | rfl | hmove
        · exact .inr rfl
        · exact .inr rfl
        · rcases hrest move hmove with heq | heq <;> exact .inr (heq ▸ rfl)

/-- A run of `install.sh` puts objects of the scripts. -/
theorem mem_scriptIds {lines : List String} {manifest : Manifest}
    (h : manifest ∈ wanted environ lines) : manifest.1 ∈ scriptIds := by
  have hids : ∀ id ∈ (wanted environ lines).map Prod.fst, id ∈ scriptIds := by
    rw [wanted]
    split_ifs <;> simp [imagePullSecret, imagePullIds, installer, installerIds, certSecret, scriptIds]
  exact hids _ (List.mem_map_of_mem h)

/-- The objects of a run of `install.sh` have different names. -/
theorem wanted_inj {lines : List String} {id : ObjectId} {source source' : Source}
    (h : (id, source) ∈ wanted environ lines) (h' : (id, source') ∈ wanted environ lines) :
    source = source' := by
  have hnodup : ((wanted environ lines).map Prod.fst).Nodup := by
    rw [wanted]
    split_ifs <;>
      simp [imagePullSecret, imagePullIds, installer, installerIds, certSecret, internalTlsSecretName]
  exact congrArg Prod.snd (List.inj_on_of_nodup_map hnodup h h' rfl)

end

section
variable {cluster cluster' : Cluster} {contents contents' : Contents} {request : Request}
  {answer : Answer} {ns : String} {moves : List (Request × Answer)} {environ : Environ}
  {readable : String → Bool} {c : Script}

/-- Nothing, or a try to make the namespace that has failed. -/
def Idle (ns : String) (moves : List (Request × Answer)) : Prop :=
  moves = [] ∨ moves = [(.createNs ns, none)]

theorem idle_call {next : Answer → Script} (hns : jobsNs environ = some ns) (hidle : Idle ns moves)
    (h : Leads (installScript readable environ) moves (.call request next)) :
    moves = [] ∧ request = .createNs ns := by
  have hnext : Leads (installScript readable environ) (moves ++ [(request, none)]) (next none) := h.snoc
  rcases hidle with rfl | rfl
  · rcases leads_install hns hnext with hnil | ⟨hone, _⟩ | ⟨lines, rest, hmoves, _⟩
    · simp at hnil
    · simpa using hone
    · simp at hmoves
  · rcases leads_install hns h with hnil | ⟨_, hdone⟩ | ⟨lines, rest, hmoves, _⟩
    · simp at hnil
    · cases hdone
    · simp at hmoves

/-- A run that has not begun, or has failed. -/
def Waits (run : Run) (c : Script) : Prop := c = run.script ∨ c = .done 1

theorem Idle.waits {readable : String → Bool} {environ : Environ} {c : Script}
    {moves : List (Request × Answer)} (hns : jobsNs environ = some ns) (hidle : Idle ns moves)
    (h : Leads (installScript readable environ) moves c) : Waits (.install readable environ) c := by
  rcases hidle with rfl | rfl
  · exact .inl (leads_nil h)
  · rcases leads_install hns h with hnil | ⟨_, hdone⟩ | ⟨lines, rest, hmoves, _⟩
    · simp at hnil
    · exact .inr hdone
    · simp at hmoves

/-- What a step leaves alone. -/
theorem serves_other (h : Serves cluster request answer cluster') (hne : request.ns ≠ some ns) :
    cluster' ns = cluster ns := by
  cases h with
  | fails | getSecret | waitComplete => rfl
  | createNs | createSecret | apply | applyUninstaller | deleteUninstaller | deleteNs =>
    exact Function.update_of_ne (fun h => hne (congrArg some h.symm)) ..

theorem createNs_cases (h : Serves cluster (.createNs ns) answer cluster') :
    answer = none ∧ cluster' = cluster ∨ cluster' ns = some .empty := by
  cases h with
  | fails => exact .inl ⟨rfl, rfl⟩
  | createNs _ => exact .inr (Function.update_self ..)

/-- A namespace that is there is not made again. -/
theorem serves_createNs (hns : cluster ns = some contents)
    (h : Serves cluster (.createNs ns) answer cluster') : answer = none ∧ cluster' = cluster := by
  cases h with
  | fails => exact ⟨rfl, rfl⟩
  | createNs habsent =>
    rw [hns] at habsent
    cases habsent

theorem passes_absent {after : Option Contents} (h : Passes none after) : after = none := by
  cases h
  rfl

theorem passes_idle {after : Option Contents} (h : Passes (some contents) after)
    (hjob : contents.uninstaller = none) : ∃ contents', after = some contents' ∧
      contents'.uninstaller = none ∧ ∀ id ∈ scriptIds, contents'.objects id = contents.objects id := by
  cases h with
  | idle _ hjob' hobjects => exact ⟨_, rfl, hjob', hobjects⟩
  | job hjob' => cases hjob.symm.trans hjob'

end

theorem Passes.refl (contents : Option Contents) : Passes contents contents := by
  rcases contents with _ | ⟨objects, _ | ⟨parameters, phase⟩⟩
  · exact .absent
  · exact .idle rfl rfl fun _ _ => rfl
  · exact .job rfl .same rfl fun _ _ => .inl rfl

section
variable {π : Type} [DecidableEq π] {runs : π → Run} {cluster : Cluster}
  {events : List (Event π Request Answer)} {e : Event π Request Answer}
  {w w' : World π Cluster Request Answer Nat}

/-- What a step does to a namespace: it is a command of one of its runs, or none of them notices. -/
theorem step_cases (h : Trace apiServer (start runs cluster) events w) (hstep : Step apiServer w e w')
    (ns : String) :
    (Passes (w.state ns) (w'.state ns) ∧ ∀ q, jobsNs (runs q).environ = some ns →
        movesOf q (events ++ [e]) = movesOf q events) ∨
      ∃ p request answer next, jobsNs (runs p).environ = some ns ∧
        Leads (runs p).script (movesOf p events) (.call request next) ∧
          Serves w.state request answer w'.state ∧
            movesOf p (events ++ [e]) = movesOf p events ++ [(request, answer)] ∧
              ∀ q ≠ p, movesOf q (events ++ [e]) = movesOf q events := by
  cases hstep with
  | outside hout =>
    refine .inl ⟨hout ns, fun q _ => ?_⟩
    rw [movesOf_append]
    exact List.append_nil _
  | @call p request answer next cluster' hp hs =>
    have hleads : Leads (runs p).script (movesOf p events) (.call request next) := hp ▸ h.leads p
    have hother (q : π) (hq : q ≠ p) :
        movesOf q (events ++ [.call p request answer]) = movesOf q events := by
      simp [movesOf, Event.move, hq.symm]
    by_cases hns : jobsNs (runs p).environ = some ns
    · refine .inr ⟨p, request, answer, next, hns, hleads, hs, ?_, hother⟩
      simp [movesOf, Event.move]
    · have hforeign : request.ns ≠ some ns := by
        intro heq
        have hlast : (request, answer) ∈ movesOf p events ++ [(request, answer)] := by simp
        rcases run_ns hleads.snoc hlast with hnone | hsome
        · cases hnone.symm.trans heq
        · exact hns (hsome.symm.trans heq)
      refine .inl ⟨?_, fun q hq => hother q ?_⟩
      · have hsame : cluster' ns = w.state ns := serves_other hs hforeign
        exact hsame ▸ .refl _
      · rintro rfl
        exact hns hq

end

end Manifests.Lifecycle
