import Manifests.Library.Script

/-! Sweeps: a script goes through keys and updates what is stored at each of them. It ends at the
first update that fails. An update settles when making it again changes nothing. -/
namespace Library

variable {κ α ε : Type} [DecidableEq κ]

/-- One update. -/
def visit (f : κ → α → Except ε α) (k : κ) : Script ε (κ → α) Unit := fun s =>
  match f k (s k) with
  | .ok a => (.ok (), Function.update s k a)
  | .error e => (.error e, s)

def sweep (f : κ → α → Except ε α) : List κ → Script ε (κ → α) Unit
  | [] => pure ()
  | k :: ks => do
    visit f k
    sweep f ks

/-- What `f` has stored, `g` leaves as it is. -/
def Settles (f g : κ → α → Except ε α) : Prop := ∀ k a b, f k a = .ok b → g k b = .ok b

section
variable {f g : κ → α → Except ε α} {k : κ} {ks ks' : List κ} {s s' t : κ → α} {a : α} {e : ε}

theorem visit_ok_iff : visit f k s = (.ok (), s') ↔
    ∃ a, f k (s k) = .ok a ∧ s' = Function.update s k a := by
  rw [visit]
  cases hf : f k (s k) with
  | error e => simp
  | ok a => simp [eq_comm]

theorem visit_error_iff : visit f k s = (.error e, s') ↔ f k (s k) = .error e ∧ s' = s := by
  rw [visit]
  cases hf : f k (s k) with
  | error e => simp [eq_comm]
  | ok a => simp

theorem sweep_cons_ok_iff : sweep f (k :: ks) s = (.ok (), s') ↔
    ∃ a, f k (s k) = .ok a ∧ sweep f ks (Function.update s k a) = (.ok (), s') := by
  constructor
  · intro h
    obtain ⟨_, t, hvisit, hrest⟩ := Script.of_bind_ok h
    obtain ⟨a, ha, rfl⟩ := visit_ok_iff.mp hvisit
    exact ⟨a, ha, hrest⟩
  · rintro ⟨a, ha, hrest⟩
    exact (Script.bind_ok (visit_ok_iff.mpr ⟨a, ha, rfl⟩)).trans hrest

/-- A sweep that fails has gone through to the key at which it fails. -/
theorem sweep_error (h : sweep f ks s = (.error e, s')) :
    ∃ done k rest, ks = done ++ k :: rest ∧ sweep f done s = (.ok (), s') ∧ f k (s' k) = .error e := by
  induction ks generalizing s with
  | nil => cases h
  | cons k ks ih =>
    rw [sweep, Script.bind_apply] at h
    cases hf : f k (s k) with
    | error e' =>
      rw [visit_error_iff.mpr ⟨hf, rfl⟩] at h
      cases h
      exact ⟨[], k, ks, rfl, rfl, hf⟩
    | ok a =>
      rw [visit_ok_iff.mpr ⟨a, hf, rfl⟩] at h
      obtain ⟨done, k', rest, rfl, hdone, hfails⟩ := ih h
      exact ⟨k :: done, k', rest, rfl, sweep_cons_ok_iff.mpr ⟨a, hf, hdone⟩, hfails⟩

/-- A sweep with an update that settles: each key is updated as if it were the only one. -/
theorem sweep_ok_iff (hf : Settles f f) : sweep f ks s = (.ok (), s') ↔
    ∀ k, if k ∈ ks then f k (s k) = .ok (s' k) else s' k = s k := by
  induction ks generalizing s with
  | nil =>
    have hnil : sweep f [] s = (.ok (), s) := rfl
    simp [hnil, funext_iff, eq_comm]
  | cons k ks ih =>
    rw [sweep_cons_ok_iff]
    constructor
    · rintro ⟨a, ha, hrest⟩ k'
      have hk' := ih.mp hrest k'
      by_cases heq : k' = k
      · subst heq
        rw [if_pos List.mem_cons_self]
        by_cases hmem : k' ∈ ks
        · rw [if_pos hmem, Function.update_self, hf _ _ _ ha] at hk'
          rw [ha, hk']
        · rw [if_neg hmem, Function.update_self] at hk'
          rw [ha, hk']
      · simpa [heq, Function.update_of_ne heq] using hk'
    · intro h
      have hk := h k
      rw [if_pos List.mem_cons_self] at hk
      refine ⟨s' k, hk, ih.mpr fun k' => ?_⟩
      by_cases heq : k' = k
      · subst heq
        rw [Function.update_self]
        split
        · exact hf _ _ _ hk
        · rfl
      · simpa [heq, Function.update_of_ne heq] using h k'

/-- A sweep goes through when each update does by itself. -/
theorem sweep_isOk_iff (hf : Settles f f) : (∃ s', sweep f ks s = (.ok (), s')) ↔
    ∀ k ∈ ks, ∃ a, f k (s k) = .ok a := by
  constructor
  · rintro ⟨s', h⟩ k hk
    have hupdated := (sweep_ok_iff hf).mp h k
    rw [if_pos hk] at hupdated
    exact ⟨s' k, hupdated⟩
  · intro h
    choose a ha using h
    refine ⟨fun k => if hk : k ∈ ks then a k hk else s k, (sweep_ok_iff hf).mpr fun k => ?_⟩
    split
    · next hk => exact ha k hk
    · rfl

/-- Another sweep, over keys that have been gone through, changes nothing. -/
theorem sweep_again (hf : Settles f f) (hg : Settles f g) (hgg : Settles g g)
    (h : sweep f ks s = (.ok (), s')) (hsub : ∀ k ∈ ks', k ∈ ks) : sweep g ks' s' = (.ok (), s') := by
  rw [sweep_ok_iff hgg]
  intro k
  split
  · next hk =>
    have hupdated := (sweep_ok_iff hf).mp h k
    rw [if_pos (hsub k hk)] at hupdated
    exact hg _ _ _ hupdated
  · rfl

/-- Whether a part of the keys has been gone through before makes no difference. -/
theorem sweep_resume {done : List κ} (hf : Settles f f) (hsub : ∀ k ∈ done, k ∈ ks)
    (hdone : sweep f done s = (.ok (), t)) :
    sweep f ks t = (.ok (), s') ↔ sweep f ks s = (.ok (), s') := by
  rw [sweep_ok_iff hf, sweep_ok_iff hf]
  refine forall_congr' fun k => ?_
  have hk := (sweep_ok_iff hf).mp hdone k
  by_cases hmem : k ∈ done
  · rw [if_pos hmem] at hk
    rw [if_pos (hsub k hmem), if_pos (hsub k hmem), hk, hf _ _ _ hk]
  · rw [if_neg hmem] at hk
    rw [hk]

end
end Library
