import Manifests.KfParse.Completeness
import Manifests.KfParse.SideBySide

/-! What the limit on the depth of the calls decides: a result that is not cut short is the same
under every larger limit. -/
namespace Manifests.KfParse
open Library

/-- The second result is the first one, unless the limit has cut that short. -/
def CutShort (result result' : Except Failure (List String)) : Prop :=
  result = .error .recursionError ∨ result = result'

variable {format : Value → String} {d : Dict} {images : List String} {limit limit' : Nat}
  {result result' result'' : Except Failure (List String)}

theorem cutShort_trans (h : CutShort result result') (h' : CutShort result' result'') :
    CutShort result result'' := by
  rcases h with h | rfl
  · exact Or.inl h
  · exact h'

theorem respected_cutShort : Respected CutShort where
  refl _ := Or.inr rfl
  append := by
    intro first first' rest rest' hfirst hrest
    rcases hfirst with rfl | rfl
    · exact Or.inl rfl
    · cases first with
      | error e => exact Or.inr rfl
      | ok images =>
        rcases hrest with rfl | rfl
        · exact Or.inl rfl
        · exact Or.inr rfl

theorem cutShort_succ (format : Value → String) (limit : Nat) (v : Value) :
    CutShort (extractImagesRecursively format limit v)
      (extractImagesRecursively format (limit + 1) v) := by
  induction limit generalizing v with
  | zero => exact Or.inl rfl
  | succ limit ih =>
    cases v with
    | dict d =>
      exact rel_collect respected_cutShort fun entry _ =>
        rel_entryImages respected_cutShort ih (fun _ => Or.inr rfl) (fun _ _ => Or.inr rfl) entry
    | _ => exact Or.inr rfl

theorem cutShort_of_le (format : Value → String) (v : Value) (h : limit ≤ limit') :
    CutShort (extractImagesRecursively format limit v)
      (extractImagesRecursively format limit' v) := by
  induction limit', h using Nat.le_induction with
  | base => exact Or.inr rfl
  | succ limit' _ ih => exact cutShort_trans ih (cutShort_succ format limit' v)

/-- Whatever the limit, a list that is returned has exactly what the calls find. -/
theorem mem_images_iff (h : extractImagesRecursively format limit (.dict d) = .ok images) :
    ¬ Reaches format d none ∧ ∀ r, r ∈ images ↔ Reaches format d (some r) := by
  have hcut := cutShort_of_le format (.dict d) (Nat.le_max_left limit (Value.dict d).weight)
  have hgives := gives_extract format _ d (Nat.le_max_right limit (Value.dict d).weight)
  rw [h] at hcut
  obtain hcut | hcut := hcut
  · cases hcut
  · rw [← hcut] at hgives
    have hnone : ¬ Reaches format d none := by
      intro hraise
      cases hgives.raises hraise
    obtain ⟨images', hok, hiff⟩ := hgives.returns hnone
    cases hok
    exact ⟨hnone, hiff⟩

end Manifests.KfParse
