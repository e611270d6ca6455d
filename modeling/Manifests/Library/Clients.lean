import Mathlib

/-! Clients that share a server. A client is a tree of requests; the server answers one request at a
time, and outsiders may change its state in between. A trace is any interleaving of these steps. -/
namespace Library.Clients

/-- A client is done, or makes a request and goes on with the response. -/
inductive Client (ρ α β : Type) where
  | done (result : β)
  | call (request : ρ) (next : α → Client ρ α β)

/-- How a server may answer a request, and what outsiders may do to its state. -/
structure Server (σ ρ α : Type) where
  serve : σ → ρ → α → σ → Prop
  outside : σ → σ → Prop

inductive Event (π ρ α : Type) where
  | call (p : π) (request : ρ) (response : α)
  | outside

structure World (π σ ρ α β : Type) where
  state : σ
  clients : π → Client ρ α β

section
variable {π σ ρ α β : Type} [DecidableEq π]

inductive Step (server : Server σ ρ α) : World π σ ρ α β → Event π ρ α → World π σ ρ α β → Prop where
  | call {w : World π σ ρ α β} {p : π} {request : ρ} {response : α} {next : α → Client ρ α β}
      {state : σ} (hp : w.clients p = .call request next)
      (hs : server.serve w.state request response state) :
      Step server w (.call p request response) ⟨state, Function.update w.clients p (next response)⟩
  | outside {w : World π σ ρ α β} {state : σ} (h : server.outside w.state state) :
      Step server w .outside ⟨state, w.clients⟩

inductive Trace (server : Server σ ρ α) (w₀ : World π σ ρ α β) :
    List (Event π ρ α) → World π σ ρ α β → Prop where
  | nil : Trace server w₀ [] w₀
  | snoc {events : List (Event π ρ α)} {e : Event π ρ α} {w w' : World π σ ρ α β}
      (h : Trace server w₀ events w) (hstep : Step server w e w') : Trace server w₀ (events ++ [e]) w'

/-- The request and the response of an event, when it is one of `p`. -/
def Event.move (p : π) : Event π ρ α → Option (ρ × α)
  | .call q request response => if q = p then some (request, response) else none
  | .outside => none

/-- What a client has asked and heard, in order. -/
def movesOf (p : π) (events : List (Event π ρ α)) : List (ρ × α) := events.filterMap (Event.move p)

end

/-- The moves lead from one client to the other. -/
inductive Leads {ρ α β : Type} : Client ρ α β → List (ρ × α) → Client ρ α β → Prop where
  | refl {c : Client ρ α β} : Leads c [] c
  | step {request : ρ} {response : α} {next : α → Client ρ α β} {moves : List (ρ × α)}
      {c : Client ρ α β} (h : Leads (next response) moves c) :
      Leads (.call request next) ((request, response) :: moves) c

variable {π σ ρ α β : Type} {server : Server σ ρ α} {request : ρ} {response : α}
  {next : α → Client ρ α β} {moves moves' : List (ρ × α)} {c c' : Client ρ α β}

theorem Leads.snoc (h : Leads c moves (.call request next)) :
    Leads c (moves ++ [(request, response)]) (next response) := by
  generalize hc : Client.call request next = c' at h
  induction h with
  | refl =>
    subst hc
    exact .step .refl
  | step _ ih => exact .step (ih hc)

variable [DecidableEq π] {w₀ w w' w₁ : World π σ ρ α β} {events pre post : List (Event π ρ α)}
  {e : Event π ρ α} {p q : π}

@[simp] theorem movesOf_append : movesOf p (pre ++ post) = movesOf p pre ++ movesOf p post :=
  List.filterMap_append

/-- The moves of a client in a trace have led it to where it is. -/
theorem Trace.leads (h : Trace server w₀ events w) (p : π) :
    Leads (w₀.clients p) (movesOf p events) (w.clients p) := by
  induction h with
  | nil => exact .refl
  | @snoc events e w w' _ hstep ih =>
    rw [movesOf_append]
    cases hstep with
    | @call q request response next state hq hs =>
      by_cases hpq : q = p
      · subst hpq
        rw [hq] at ih
        simpa [movesOf, Event.move] using ih.snoc
      · simpa [movesOf, Event.move, hpq, Function.update_of_ne (Ne.symm hpq)] using ih
    | outside _ =>
      have hnone : movesOf p [(.outside : Event π ρ α)] = [] := rfl
      rw [hnone, List.append_nil]
      exact ih

/-- What every step keeps holds at the end of a trace. -/
theorem Trace.invariant {I : World π σ ρ α β → Prop} (h : Trace server w₀ events w)
    (hkeeps : ∀ e w w', Step server w e w' → I w → I w') (h₀ : I w₀) : I w := by
  induction h with
  | nil => exact h₀
  | snoc _ hstep ih => exact hkeeps _ _ _ hstep ih

/-- A trace goes on from where another has come to. -/
theorem Trace.append (h : Trace server w₀ pre w) (h' : Trace server w post w') :
    Trace server w₀ (pre ++ post) w' := by
  induction h' with
  | nil => rwa [List.append_nil]
  | snoc _ hstep ih =>
    rw [← List.append_assoc]
    exact ih.snoc hstep

/-- A trace passes through a world before each of its events. -/
theorem Trace.split (h : Trace server w₀ (pre ++ e :: post) w) :
    ∃ w₁ w₂, Trace server w₀ pre w₁ ∧ Step server w₁ e w₂ ∧ Trace server w₂ post w := by
  induction post using List.reverseRecOn generalizing w with
  | nil =>
    generalize hevents : pre ++ [e] = events at h
    cases h with
    | nil => simp at hevents
    | snoc h hstep =>
      obtain ⟨rfl, heq⟩ := List.append_inj' hevents rfl
      cases heq
      exact ⟨_, _, h, hstep, .nil⟩
  | append_singleton post e' ih =>
    generalize hevents : pre ++ e :: (post ++ [e']) = events at h
    cases h with
    | nil => simp at hevents
    | snoc h hstep =>
      rw [← List.cons_append, ← List.append_assoc] at hevents
      obtain ⟨rfl, heq⟩ := List.append_inj' hevents rfl
      cases heq
      obtain ⟨w₁, w₂, h₁, h₂, h₃⟩ := ih h
      exact ⟨w₁, w₂, h₁, h₂, .snoc h₃ hstep⟩

/-- The first move of a client is an event of the trace. -/
theorem exists_first_move (h : movesOf p events = (request, response) :: moves) :
    ∃ pre post, events = pre ++ .call p request response :: post ∧ movesOf p pre = [] ∧
      movesOf p post = moves := by
  induction events with
  | nil => cases h
  | cons e events ih =>
    cases hm : e.move p with
    | none =>
      rw [movesOf, List.filterMap_cons_none hm] at h
      obtain ⟨pre, post, rfl, hpre, hpost⟩ := ih h
      exact ⟨e :: pre, post, rfl, by rw [movesOf, List.filterMap_cons_none hm]; exact hpre, hpost⟩
    | some move =>
      rw [movesOf, List.filterMap_cons_some hm] at h
      obtain ⟨rfl, hrest⟩ := List.cons.inj h
      cases e with
      | outside => cases hm
      | call q r a =>
        by_cases hq : q = p
        · subst hq
          simp only [Event.move, ↓reduceIte, Option.some.injEq, Prod.mk.injEq] at hm
          obtain ⟨rfl, rfl⟩ := hm
          exact ⟨[], events, rfl, rfl, hrest⟩
        · simp [Event.move, hq] at hm

/-- A move of a client is an event of the trace. -/
theorem exists_event (h : (request, response) ∈ movesOf p events) :
    ∃ pre post, events = pre ++ .call p request response :: post := by
  obtain ⟨e, he, hmove⟩ := List.mem_filterMap.mp h
  cases e with
  | outside => cases hmove
  | call q r a =>
    rw [Event.move] at hmove
    split_ifs at hmove with hq
    cases hmove
    subst hq
    exact List.append_of_mem he

end Library.Clients
