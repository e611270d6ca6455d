import Manifests.Library.Clients

/-! Clients that rely on what the steps of the others may do to the state, and guarantee the same of
their own. Also one client that has the server for itself. -/
namespace Library.Clients

section
variable {σ ρ α β : Type}

/-- From this state on each step of the client is one of `R`, and its result fits the state from then
on, as long as the others make steps of `R`, too. -/
def Guarded (server : Server σ ρ α) (R : σ → σ → Prop) (Q : β → σ → Prop) : Client ρ α β → σ → Prop
  | .done result, s => ∀ s', R s s' → Q result s'
  | .call request next, s => ∀ s', R s s' → ∀ response s'', server.serve s' request response s'' →
    R s' s'' ∧ Guarded server R Q (next response) s''

/-- A run of a client without others, for a server that has one answer to each request. -/
def Client.alone (serve : σ → ρ → α × σ) : Client ρ α β → σ → β × σ
  | .done result, s => (result, s)
  | .call request next, s => (next (serve s request).1).alone serve (serve s request).2

variable {server : Server σ ρ α} {R : σ → σ → Prop} {Q : β → σ → Prop} {c : Client ρ α β} {s s' : σ}

/-- The rule for a request, with what is known in front of it and kept by the others. -/
theorem guarded_call {K : σ → Prop} {request : ρ} {next : α → Client ρ α β} (hs : K s)
    (hK : ∀ s s', R s s' → K s → K s')
    (h : ∀ s, K s → ∀ response s', server.serve s request response s' →
      R s s' ∧ Guarded server R Q (next response) s') :
    Guarded server R Q (.call request next) s :=
  fun s' hs' => h s' (hK s s' hs' hs)

/-- What the others do does not matter. -/
theorem Guarded.stable [IsPreorder σ R] (h : Guarded server R Q c s) (hs : R s s') :
    Guarded server R Q c s' := by
  cases c with
  | done result => exact fun s'' hs'' => h s'' (trans_of R hs hs'')
  | call request next => exact fun s'' hs'' => h s'' (trans_of R hs hs'')

end

variable {π σ ρ α β : Type} [DecidableEq π] {server : Server σ ρ α} {R : σ → σ → Prop}
  [IsPreorder σ R] {Q : π → β → σ → Prop} {w₀ w w' : World π σ ρ α β} {e : Event π ρ α}
  {events : List (Event π ρ α)} {p : π}

theorem Step.guarded (houtside : ∀ s s', server.outside s s' → R s s')
    (h : ∀ p, Guarded server R (Q p) (w.clients p) w.state) (hstep : Step server w e w') :
    R w.state w'.state ∧ ∀ p, Guarded server R (Q p) (w'.clients p) w'.state := by
  cases hstep with
  | @call q request response next state hq hs =>
    have hcall := h q
    rw [hq] at hcall
    obtain ⟨hR, hnext⟩ := hcall _ (refl_of R _) _ _ hs
    refine ⟨hR, fun p => ?_⟩
    by_cases hpq : p = q
    · subst hpq
      simpa using hnext
    · simpa [Function.update_of_ne hpq] using (h p).stable hR
  | outside hs => exact ⟨houtside _ _ hs, fun p => (h p).stable (houtside _ _ hs)⟩

/-- When all clients are guarded at the start, the state changes by steps of `R` only. -/
theorem Trace.guarded (houtside : ∀ s s', server.outside s s' → R s s')
    (h₀ : ∀ p, Guarded server R (Q p) (w₀.clients p) w₀.state) (h : Trace server w₀ events w) :
    R w₀.state w.state ∧ ∀ p, Guarded server R (Q p) (w.clients p) w.state := by
  induction h with
  | nil => exact ⟨refl_of R _, h₀⟩
  | snoc _ hstep ih =>
    obtain ⟨hR, hclients⟩ := ih
    obtain ⟨hR', hclients'⟩ := hstep.guarded houtside hclients
    exact ⟨trans_of R hR hR', hclients'⟩

/-- A client that is done has the result that it guarantees. -/
theorem Trace.guarded_result (houtside : ∀ s s', server.outside s s' → R s s')
    (h₀ : ∀ p, Guarded server R (Q p) (w₀.clients p) w₀.state) (h : Trace server w₀ events w)
    {result : β} (hp : w.clients p = .done result) : Q p result w.state := by
  have hdone := (h.guarded houtside h₀).2 p
  rw [hp] at hdone
  exact hdone _ (refl_of R _)

/-- A client can go on to its end without the others. -/
theorem Trace.exists_alone {serve : σ → ρ → α × σ}
    (hserve : ∀ s request, server.serve s request (serve s request).1 (serve s request).2)
    (h : Trace server w₀ events w) (p : π) : ∃ events' w', Trace server w₀ (events ++ events') w' ∧
      w'.clients p = .done ((w.clients p).alone serve w.state).1 ∧
        w'.state = ((w.clients p).alone serve w.state).2 := by
  generalize hc : w.clients p = c
  induction c generalizing w events with
  | done result => exact ⟨[], w, by rwa [List.append_nil], hc, rfl⟩
  | call request next ih =>
    have hnext := h.snoc (.call hc (hserve w.state request))
    obtain ⟨events', w', htrace, hdone, hstate⟩ := ih _ hnext (Function.update_self _ _ _)
    exact ⟨_ :: events', w', by rwa [List.append_cons], hdone, hstate⟩

end Library.Clients
