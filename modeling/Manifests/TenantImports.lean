import Manifests.Library.Clients
import Manifests.Library.Text
import Manifests.Library.Value

/-! The hpecpconfig-patch script: it adds the dashboard to the tenant service imports unless a name
in the list looks like it. Any number of its runs work on one list. -/
namespace Manifests.TenantImports
open Library Library.Clients

/-- An entry of `tenantServiceImports`: its `importName` and its other fields. -/
structure TenantServiceImport where
  importName : String
  fields : Dict

/-- The `value` of the patch. -/
def kfDashboard : TenantServiceImport where
  importName := "kf-dashboard"
  fields := [("category", .str "default"), ("targetName", .str "istio-ingressgateway"),
    ("targetNamespace", .str "istio-system"),
    ("targetPorts", .list [.dict [("importName", .str "http-80"), ("targetName", .str "http-80")]])]

/-- The calls of `kubectl`. -/
inductive Request where
  | getImportNames
  /-- `op: add` at the end of `/spec/tenantServiceImports`. -/
  | patch (value : TenantServiceImport)

inductive Response where
  | importNames (text : String)
  | patched
  | failed

/-- `{.spec.tenantServiceImports[*].importName}`: the names with blanks between them. -/
def importNames (imports : List TenantServiceImport) : String :=
  (String.singleton ' ').intercalate (imports.map (·.importName))

/-- A patch appends its value. A call may fail, also after its patch was done. -/
inductive Serves (imports : List TenantServiceImport) :
    Request → Response → List TenantServiceImport → Prop where
  | getImportNames : Serves imports .getImportNames (.importNames (importNames imports)) imports
  | patched {value : TenantServiceImport} :
      Serves imports (.patch value) .patched (imports ++ [value])
  | failed {request : Request} : Serves imports request .failed imports
  | lost {value : TenantServiceImport} : Serves imports (.patch value) .failed (imports ++ [value])

/-- Only the runs of the script change the list. -/
def hpecpConfig : Server (List TenantServiceImport) Request Response where
  serve := Serves
  outside _ _ := False

/-- `grep -q 'kf-dashboard' <<< "$importNames"`. -/
def patchNotNeeded (importNames : String) : Bool := Text.contains "kf-dashboard" importNames

/-- A run between its two calls. -/
def patching : Client Request Response Bool :=
  .call (.patch kfDashboard) fun
    | .patched => .done true
    | _ => .done false

/-- One run of the script, whose result is whether it ends without an error. -/
def script : Client Request Response Bool :=
  .call .getImportNames fun
    | .importNames text => if patchNotNeeded text then .done true else patching
    | _ => .done false

variable {π : Type} [DecidableEq π]

/-- The runs before their first call. -/
def start (imports : List TenantServiceImport) :
    World π (List TenantServiceImport) Request Response Bool :=
  ⟨imports, fun _ => script⟩

def isPatch : Event π Request Response → Bool
  | .call _ (.patch _) _ => true
  | _ => false

/-- The reads before the first patch. -/
def readsBeforePatch : List (Event π Request Response) → Nat
  | [] => 0
  | .call _ (.patch _) _ :: _ => 0
  | .call _ .getImportNames _ :: events => readsBeforePatch events + 1
  | .outside :: events => readsBeforePatch events

def named (entry : TenantServiceImport) : Bool := entry.importName = "kf-dashboard"

/-- The list has the dashboard once, and the other entries as before. -/
structure Exact (imports final : List TenantServiceImport) : Prop where
  once : final.countP named = 1
  others : final.filter (!named ·) = imports.filter (!named ·)

/-- Some entry has the name of the dashboard in its own. -/
def LooksPatched (imports : List TenantServiceImport) : Prop :=
  ∃ entry ∈ imports, Text.contains "kf-dashboard" entry.importName = true

section
variable {imports final : List TenantServiceImport} {events : List (Event π Request Response)}
  {e : Event π Request Response} {w w' : World π (List TenantServiceImport) Request Response Bool}
  {p : π} {n : Nat}

/-- The guard looks for an entry whose name has the dashboard's name in it. -/
theorem patchNotNeeded_iff : patchNotNeeded (importNames imports) = true ↔ LooksPatched imports := by
  rw [patchNotNeeded, importNames, Text.contains_intercalate_iff (by decide) (by decide)]
  simp [LooksPatched]

theorem looksPatched_append {more : List TenantServiceImport} :
    LooksPatched (imports ++ more) ↔ LooksPatched imports ∨ LooksPatched more := by
  simp [LooksPatched, or_and_right, exists_or]

theorem looksPatched_replicate : LooksPatched (List.replicate n kfDashboard) ↔ n ≠ 0 := by
  have hname : Text.contains "kf-dashboard" kfDashboard.importName = true := by decide
  simp [LooksPatched, hname]

theorem looksPatched_of_named (h : ∃ entry ∈ imports, named entry = true) : LooksPatched imports := by
  obtain ⟨entry, hentry, hname⟩ := h
  refine ⟨entry, hentry, ?_⟩
  rw [named, decide_eq_true_eq] at hname
  rw [hname]
  decide

theorem exact_append_iff (n : Nat) : Exact imports (imports ++ List.replicate n kfDashboard) ↔
    imports.countP named + n = 1 := by
  have hname : named kfDashboard = true := rfl
  constructor
  · intro h
    have honce := h.once
    rwa [List.countP_append, List.countP_replicate, if_pos hname] at honce
  · intro h
    constructor
    · rwa [List.countP_append, List.countP_replicate, if_pos hname]
    · simp [List.filter_append, hname]

omit [DecidableEq π] in
theorem readsBeforePatch_append {more : List (Event π Request Response)} :
    readsBeforePatch (events ++ more) =
      if events.any isPatch then readsBeforePatch events
      else readsBeforePatch events + readsBeforePatch more := by
  induction events with
  | nil => simp [readsBeforePatch]
  | cons e events ih =>
    cases e with
    | outside => simpa [readsBeforePatch, isPatch] using ih
    | call p request response =>
      cases request with
      | patch value => simp [readsBeforePatch, isPatch]
      | getImportNames =>
        simp only [List.cons_append, readsBeforePatch, ih, List.any_cons, isPatch, Bool.false_or]
        split
        · rfl
        · omega

/-- A run that has ended with an error. -/
def Failed (w : World π (List TenantServiceImport) Request Response Bool) : Prop :=
  ∃ p, w.clients p = .done false

/-- A run that has ended makes no more calls. -/
theorem Failed.step (h : Failed w) (hstep : Step hpecpConfig w e w') : Failed w' := by
  obtain ⟨p, hp⟩ := h
  refine ⟨p, ?_⟩
  cases hstep with
  | outside _ => exact hp
  | @call q _ _ _ _ hq _ =>
    have hne : p ≠ q := by
      rintro rfl
      rw [hp] at hq
      cases hq
    exact (Function.update_of_ne hne ..).trans hp

/-- What the runs have come to when no name in the list looks like the dashboard: of those that
read before the first patch, `n` have patched and the others are about to. -/
structure Progress (imports : List TenantServiceImport) (events : List (Event π Request Response))
    (w : World π (List TenantServiceImport) Request Response Bool) (waiting : Finset π) (n : Nat) :
    Prop where
  clients : ∀ p, (p ∈ waiting ∧ w.clients p = patching) ∨
    (p ∉ waiting ∧ (w.clients p = script ∨ (w.clients p = .done true ∧ n ≠ 0)))
  state : w.state = imports ++ List.replicate n kfDashboard
  reads : n + waiting.card = readsBeforePatch events
  patched : events.any isPatch = true ↔ n ≠ 0

/-- The runs that are not at the call stay where they are. -/
theorem Progress.clients_of_ne {waiting waiting' : Finset π} {q : π} {c : Client Request Response Bool}
    {n' : Nat} (h : Progress imports events w waiting n) (hne : q ≠ p)
    (hwaiting : q ∈ waiting' ↔ q ∈ waiting) (hn : n ≠ 0 → n' ≠ 0) :
    (q ∈ waiting' ∧ Function.update w.clients p c q = patching) ∨
      (q ∉ waiting' ∧ (Function.update w.clients p c q = script ∨
        (Function.update w.clients p c q = .done true ∧ n' ≠ 0))) := by
  rw [Function.update_of_ne hne, hwaiting]
  rcases h.clients q with hpatching | ⟨hout, hscript | ⟨hdone, hpos⟩⟩
  · exact Or.inl hpatching
  · exact Or.inr ⟨hout, Or.inl hscript⟩
  · exact Or.inr ⟨hout, Or.inr ⟨hdone, hn hpos⟩⟩

/-- A run reads the names. -/
theorem Progress.read {waiting : Finset π} {response : Response} {state : List TenantServiceImport}
    (hnew : ¬ LooksPatched imports) (h : Progress imports events w waiting n) (hp : p ∉ waiting)
    (hs : Serves w.state .getImportNames response state) {next : Response → Client Request Response Bool}
    (hnext : script = .call .getImportNames next) :
    let w' : World π (List TenantServiceImport) Request Response Bool :=
      ⟨state, Function.update w.clients p (next response)⟩
    Failed w' ∨ ∃ waiting' n',
      Progress imports (events ++ [.call p .getImportNames response]) w' waiting' n' := by
  intro w'
  cases hnext
  cases hs with
  | failed => exact Or.inl ⟨p, Function.update_self ..⟩
  | getImportNames =>
    right
    have hlooks : patchNotNeeded (importNames w.state) = true ↔ n ≠ 0 := by
      rw [patchNotNeeded_iff, h.state, looksPatched_append, looksPatched_replicate, or_iff_right hnew]
    by_cases hn : n = 0
    · -- the list is as it was, and the run goes on to patch it
      have hguard : patchNotNeeded (importNames w.state) = false := by
        rw [← Bool.not_eq_true, hlooks]
        exact fun h => h hn
      have hfresh : events.any isPatch = false := by
        rw [← Bool.not_eq_true, h.patched]
        exact fun h => h hn
      refine ⟨insert p waiting, n, ?_, h.state, ?_, ?_⟩
      · intro q
        by_cases hq : q = p
        · subst hq
          refine Or.inl ⟨Finset.mem_insert_self _ _, (Function.update_self ..).trans ?_⟩
          simp [hguard]
        · exact h.clients_of_ne hq (by simp [hq]) id
      · have hreads := h.reads
        rw [readsBeforePatch_append, hfresh, Finset.card_insert_of_notMem hp]
        simp only [Bool.false_eq_true, if_false, readsBeforePatch]
        omega
      · simp [hfresh, isPatch, hn]
    · have hguard : patchNotNeeded (importNames w.state) = true := hlooks.mpr hn
      have hpatched : events.any isPatch = true := h.patched.mpr hn
      refine ⟨waiting, n, ?_, h.state, ?_, ?_⟩
      · intro q
        by_cases hq : q = p
        · subst hq
          refine Or.inr ⟨hp, Or.inr ⟨(Function.update_self ..).trans ?_, hn⟩⟩
          simp [hguard]
        · exact h.clients_of_ne hq Iff.rfl id
      · rw [readsBeforePatch_append, if_pos hpatched]
        exact h.reads
      · simp [hpatched, hn]

/-- A run that has seen the list without the dashboard adds it. -/
theorem Progress.patch {waiting : Finset π} {request : Request} {response : Response}
    {state : List TenantServiceImport} (h : Progress imports events w waiting n) (hp : p ∈ waiting)
    {next : Response → Client Request Response Bool} (hnext : patching = .call request next)
    (hs : Serves w.state request response state) :
    let w' : World π (List TenantServiceImport) Request Response Bool :=
      ⟨state, Function.update w.clients p (next response)⟩
    Failed w' ∨ ∃ waiting' n', Progress imports (events ++ [.call p request response]) w' waiting' n' := by
  intro w'
  cases hnext
  cases hs with
  | failed => exact Or.inl ⟨p, Function.update_self ..⟩
  | lost => exact Or.inl ⟨p, Function.update_self ..⟩
  | patched =>
    right
    have hreads := h.reads
    have hcard := Finset.card_erase_add_one hp
    refine ⟨waiting.erase p, n + 1, ?_, ?_, ?_, ?_⟩
    · intro q
      by_cases hq : q = p
      · subst hq
        exact Or.inr ⟨Finset.notMem_erase _ _, Or.inr ⟨Function.update_self .., by omega⟩⟩
      · exact h.clients_of_ne hq (by simp [hq]) (by omega)
    · simp [w', h.state, List.replicate_succ']
    · rw [readsBeforePatch_append]
      simp only [readsBeforePatch, add_zero, ite_self]
      omega
    · simp [isPatch]

theorem Progress.step {waiting : Finset π} (hnew : ¬ LooksPatched imports)
    (h : Progress imports events w waiting n) (hstep : Step hpecpConfig w e w') :
    Failed w' ∨ ∃ waiting' n', Progress imports (events ++ [e]) w' waiting' n' := by
  cases hstep with
  | outside h => exact h.elim
  | @call p request response next state hcall hs =>
    rcases h.clients p with ⟨hp, hpatching⟩ | ⟨hp, hscript | ⟨hdone, _⟩⟩
    · exact h.patch hp (hpatching.symm.trans hcall) hs
    · have hnext := hscript.symm.trans hcall
      obtain rfl : request = .getImportNames := by
        cases hnext
        rfl
      exact h.read hnew hp hs hnext
    · rw [hdone] at hcall
      cases hcall

/-- The runs of a trace on a list where no name looks like the dashboard. -/
theorem trace_progress (hnew : ¬ LooksPatched imports) (h : Trace hpecpConfig (start imports) events w) :
    Failed w ∨ ∃ waiting n, Progress imports events w waiting n := by
  induction h with
  | nil =>
    right
    exact ⟨∅, 0, fun p => Or.inr ⟨Finset.notMem_empty p, Or.inl rfl⟩, by simp [start], rfl, by simp⟩
  | snoc _ hstep ih =>
    rcases ih with hfailed | ⟨waiting, n, hprogress⟩
    · exact Or.inl (hfailed.step hstep)
    · exact hprogress.step hnew hstep

/-- A list in which some name looks like the dashboard stays as it is. -/
structure Kept (imports : List TenantServiceImport)
    (w : World π (List TenantServiceImport) Request Response Bool) : Prop where
  clients : ∀ p, w.clients p = script ∨ ∃ b, w.clients p = .done b
  state : w.state = imports

theorem Kept.step (hlooks : LooksPatched imports) (h : Kept imports w)
    (hstep : Step hpecpConfig w e w') : Kept imports w' := by
  cases hstep with
  | outside h => exact h.elim
  | @call p request response next state hcall hs =>
    have hclients (result : Bool) (q : π) : Function.update w.clients p (.done result) q = script ∨
        ∃ b, Function.update w.clients p (.done result) q = .done b := by
      by_cases hq : q = p
      · subst hq
        exact Or.inr ⟨result, Function.update_self ..⟩
      · rw [Function.update_of_ne hq]
        exact h.clients q
    rcases h.clients p with hscript | ⟨b, hdone⟩
    · have hnext := hscript.symm.trans hcall
      cases hnext
      cases hs with
      | failed => exact ⟨hclients false, h.state⟩
      | getImportNames =>
        have hguard : patchNotNeeded (importNames w.state) = true := by
          rw [patchNotNeeded_iff, h.state]
          exact hlooks
        refine ⟨?_, h.state⟩
        simp only [hguard, if_true]
        exact hclients true
    · rw [hdone] at hcall
      cases hcall

theorem trace_kept (hlooks : LooksPatched imports) (h : Trace hpecpConfig (start imports) events w) :
    Kept imports w :=
  h.invariant (fun _ _ _ hstep hkept => hkept.step hlooks hstep) ⟨fun _ => Or.inl rfl, rfl⟩

theorem countP_named_pos : 0 < imports.countP named ↔
    ∃ entry ∈ imports, entry.importName = "kf-dashboard" := by
  simp [List.countP_pos_iff, named]

/-- The list that runs leave behind which all end well: for each run that read before the first
patch it has one new entry, unless some name already looked like the dashboard. -/
theorem final_state [Nonempty π] (h : Trace hpecpConfig (start imports) events w)
    (hfinish : ∀ p, w.clients p = .done true) :
    (LooksPatched imports ∧ w.state = imports) ∨
      (¬ LooksPatched imports ∧ readsBeforePatch events ≠ 0 ∧
        w.state = imports ++ List.replicate (readsBeforePatch events) kfDashboard) := by
  by_cases hlooks : LooksPatched imports
  · exact Or.inl ⟨hlooks, (trace_kept hlooks h).state⟩
  right
  rcases trace_progress hlooks h with ⟨p, hp⟩ | ⟨waiting, n, hprogress⟩
  · rw [hfinish p] at hp
    cases hp
  have hnone : waiting = ∅ := by
    apply Finset.eq_empty_of_forall_notMem
    intro p hp
    rcases hprogress.clients p with ⟨_, hpatching⟩ | ⟨hout, _⟩
    · rw [hfinish p] at hpatching
      cases hpatching
    · exact hout hp
  have hreads : n = readsBeforePatch events := by
    rw [← hprogress.reads, hnone, Finset.card_empty, Nat.add_zero]
  obtain ⟨p⟩ := ‹Nonempty π›
  have hpatched : n ≠ 0 := by
    rcases hprogress.clients p with ⟨hp, _⟩ | ⟨_, hscript | ⟨_, hn⟩⟩
    · rw [hnone] at hp
      cases hp
    · rw [hfinish p] at hscript
      cases hscript
    · exact hn
  subst hreads
  exact ⟨hlooks, hpatched, hprogress.state⟩

end

/-- Runs that all end well leave the dashboard once, and the other entries as they were, exactly when
its entry was there, or no name looked like it and one run reads before the first patch. -/
theorem exact_iff (runs : Nat) {imports : List TenantServiceImport}
    {events : List (Event (Fin (runs + 1)) Request Response)}
    {w : World (Fin (runs + 1)) (List TenantServiceImport) Request Response Bool}
    (hone : imports.countP named ≤ 1) (h : Trace hpecpConfig (start imports) events w)
    (hfinish : ∀ p, w.clients p = .done true) :
    Exact imports w.state ↔ (∃ entry ∈ imports, entry.importName = "kf-dashboard") ∨
      (¬ LooksPatched imports ∧ readsBeforePatch events ≤ 1) := by
  rw [← countP_named_pos]
  rcases final_state h hfinish with ⟨hlooks, hstate⟩ | ⟨hnew, hreads, hstate⟩
  · have hexact : Exact imports (imports ++ List.replicate 0 kfDashboard) ↔
        imports.countP named + 0 = 1 := exact_append_iff 0
    rw [List.replicate_zero, List.append_nil] at hexact
    rw [hstate, hexact, or_iff_left (fun h => h.1 hlooks)]
    omega
  · have hzero : imports.countP named = 0 := by
      by_contra hne
      have hnamed : ∃ entry ∈ imports, named entry = true :=
        List.countP_pos_iff.mp (Nat.pos_of_ne_zero hne)
      exact hnew (looksPatched_of_named hnamed)
    rw [hstate, exact_append_iff, hzero, and_iff_right hnew]
    omega

/-- The imports of two other services. -/
def otherImports : List TenantServiceImport :=
  [⟨"mlflow", [("category", .str "default")]⟩, ⟨"livy-http", [("targetName", .str "livy")]⟩]

abbrev TwoRuns := World (Fin 2) (List TenantServiceImport) Request Response Bool

/-- The second run reads after the first has patched. -/
def oneAfterTheOther : List (Event (Fin 2) Request Response) :=
  [.call 0 .getImportNames (.importNames "mlflow livy-http"), .call 0 (.patch kfDashboard) .patched,
    .call 1 .getImportNames (.importNames "mlflow livy-http kf-dashboard")]

/-- Both runs have read when the first of them patches. -/
def overlapping : List (Event (Fin 2) Request Response) :=
  [.call 0 .getImportNames (.importNames "mlflow livy-http"),
    .call 1 .getImportNames (.importNames "mlflow livy-http"),
    .call 1 (.patch kfDashboard) .patched, .call 0 (.patch kfDashboard) .patched]

theorem finished_cases {w : TwoRuns} (hfirst : w.clients 0 = .done true)
    (hsecond : w.clients 1 = .done true) (p : Fin 2) : w.clients p = .done true := by
  obtain rfl | rfl : p = 0 ∨ p = 1 := by omega
  · exact hfirst
  · exact hsecond

theorem trace_oneAfterTheOther : ∃ w : TwoRuns,
    Trace hpecpConfig (start otherImports) oneAfterTheOther w ∧ ∀ p, w.clients p = .done true := by
  have hread : Trace hpecpConfig (start (π := Fin 2) otherImports) _ _ :=
    .snoc .nil (.call (p := 0) rfl Serves.getImportNames)
  have hpatch := hread.snoc (.call (p := 0) rfl Serves.patched)
  have hagain := hpatch.snoc (.call (p := 1) rfl Serves.getImportNames)
  exact ⟨_, hagain, finished_cases rfl rfl⟩

theorem trace_overlapping : ∃ w : TwoRuns,
    Trace hpecpConfig (start otherImports) overlapping w ∧ ∀ p, w.clients p = .done true := by
  have hread₀ : Trace hpecpConfig (start (π := Fin 2) otherImports) _ _ :=
    .snoc .nil (.call (p := 0) rfl Serves.getImportNames)
  have hread₁ := hread₀.snoc (.call (p := 1) rfl Serves.getImportNames)
  have hpatch₁ := hread₁.snoc (.call (p := 1) rfl Serves.patched)
  have hpatch₀ := hpatch₁.snoc (.call (p := 0) rfl Serves.patched)
  exact ⟨_, hpatch₀, finished_cases rfl rfl⟩

/-- Two runs on a list of other services: one after the other they add the dashboard once, and when
both read before the first patch they do not. -/
theorem exact_iff_twoRuns :
    (∃ w : TwoRuns, Trace hpecpConfig (start otherImports) oneAfterTheOther w ∧
      Exact otherImports w.state) ∧
    ∃ w : TwoRuns, Trace hpecpConfig (start otherImports) overlapping w ∧
      ¬ Exact otherImports w.state := by
  have hone : otherImports.countP named ≤ 1 := by decide
  have hnew : ¬ LooksPatched otherImports := by
    unfold LooksPatched
    decide
  constructor
  · obtain ⟨w, hw, hfinish⟩ := trace_oneAfterTheOther
    exact ⟨w, hw, (exact_iff 1 hone hw hfinish).mpr (Or.inr ⟨hnew, by decide⟩)⟩
  · obtain ⟨w, hw, hfinish⟩ := trace_overlapping
    refine ⟨w, hw, fun hexact => ?_⟩
    rcases (exact_iff 1 hone hw hfinish).mp hexact with ⟨entry, hentry, hname⟩ | ⟨_, hreads⟩
    · exact hnew (looksPatched_of_named ⟨entry, hentry, decide_eq_true hname⟩)
    · revert hreads
      decide

/-- A list with the dashboard of someone else. -/
def otherDashboard : List TenantServiceImport := [⟨"my-kf-dashboard", []⟩]

/-- The one run takes the other entry for its own. -/
theorem not_exact : ¬ ∀ (runs : Nat) (imports : List TenantServiceImport)
    (events : List (Event (Fin (runs + 1)) Request Response))
    (w : World (Fin (runs + 1)) (List TenantServiceImport) Request Response Bool),
    imports.countP named ≤ 1 → Trace hpecpConfig (start imports) events w →
      (∀ p, w.clients p = .done true) → Exact imports w.state := by
  intro h
  have hread : Trace hpecpConfig (start (π := Fin 1) otherDashboard) _ _ :=
    .snoc .nil (.call (p := 0) rfl Serves.getImportNames)
  have hexact := h 0 otherDashboard _ _ (by decide) hread fun (p : Fin 1) => by
    obtain rfl := Subsingleton.elim p 0
    rfl
  have honce : otherDashboard.countP named = 1 := hexact.once
  revert honce
  decide

end Manifests.TenantImports
