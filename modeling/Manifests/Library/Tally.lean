import Mathlib

/-! Sorted lines: what `uniq` and `uniq -c` make of them. -/
namespace Library.Tally

variable {α : Type} {le : α → α → Prop} {sort : List α → List α} {l : List α} {a b : α}

/-- `sort` puts lines in an order. -/
structure Sorts (le : α → α → Prop) (sort : List α → List α) : Prop where
  refl : ∀ a, le a a
  antisymm : ∀ a b, le a b → le b a → a = b
  perm : ∀ l, (sort l).Perm l
  sorted : ∀ l, (sort l).Pairwise le

theorem nodup_of_isChain (hanti : ∀ a b, le a b → le b a → a = b) (hchain : l.IsChain (· ≠ ·))
    (hsorted : l.Pairwise le) : l.Nodup := by
  induction l with
  | nil => exact List.nodup_nil
  | cons a l ih =>
    obtain ⟨hle, hrest⟩ := List.pairwise_cons.mp hsorted
    refine List.nodup_cons.mpr ⟨fun hmem => ?_, ih hchain.tail hrest⟩
    cases l with
    | nil => cases hmem
    | cons b l =>
      have hne : a ≠ b := (List.isChain_cons_cons.mp hchain).1
      rcases List.mem_cons.mp hmem with heq | hmem
      · exact hne heq
      · exact hne (hanti a b (hle b List.mem_cons_self) ((List.pairwise_cons.mp hrest).1 a hmem))

theorem pairwise_flatMap_replicate {n : α → ℕ} (hrefl : ∀ a, le a a) (hsorted : l.Pairwise le) :
    (l.flatMap fun b => List.replicate (n b) b).Pairwise le := by
  induction l with
  | nil => exact List.Pairwise.nil
  | cons b l ih =>
    obtain ⟨hle, hrest⟩ := List.pairwise_cons.mp hsorted
    rw [List.flatMap_cons, List.pairwise_append]
    refine ⟨List.pairwise_replicate.mpr (Or.inr (hrefl b)), ih hrest, fun c hc d hd => ?_⟩
    obtain ⟨e, he, hd⟩ := List.mem_flatMap.mp hd
    rw [List.eq_of_mem_replicate hc, List.eq_of_mem_replicate hd]
    exact hle e he

variable [DecidableEq α]

theorem mem_destutter' (h : a ∈ b :: l) : a ∈ l.destutter' (· ≠ ·) b := by
  induction l generalizing b with
  | nil => exact h
  | cons c l ih =>
    rw [List.destutter'_cons]
    split
    · rcases List.mem_cons.mp h with rfl | h
      · exact List.mem_cons_self
      · exact List.mem_cons_of_mem _ (ih h)
    · next heq =>
      rw [not_not] at heq
      refine ih ?_
      rcases List.mem_cons.mp h with rfl | h
      · exact List.mem_cons_self
      · rwa [heq]

/-- `uniq` drops no line altogether. -/
theorem mem_destutter : a ∈ l.destutter (· ≠ ·) ↔ a ∈ l := by
  refine ⟨fun h => (List.destutter_sublist _ l).subset h, fun h => ?_⟩
  cases l with
  | nil => cases h
  | cons b l => exact mem_destutter' h

/-- `sort | uniq` gives each line once. -/
theorem Sorts.nodup_uniq (h : Sorts le sort) (l : List α) : ((sort l).destutter (· ≠ ·)).Nodup :=
  nodup_of_isChain h.antisymm (List.isChain_destutter _ _)
    ((h.sorted l).sublist (List.destutter_sublist _ _))

theorem Sorts.mem_uniq (h : Sorts le sort) : a ∈ (sort l).destutter (· ≠ ·) ↔ a ∈ l := by
  rw [mem_destutter, (h.perm l).mem_iff]

theorem count_flatMap_replicate {n : α → ℕ} (hnodup : l.Nodup) :
    (l.flatMap fun b => List.replicate (n b) b).count a = if a ∈ l then n a else 0 := by
  induction l with
  | nil => simp
  | cons b l ih =>
    obtain ⟨hb, hl⟩ := List.nodup_cons.mp hnodup
    rw [List.flatMap_cons, List.count_append, ih hl, List.count_replicate]
    by_cases hab : b = a
    · subst hab
      simp [hb]
    · simp [hab, Ne.symm hab]

/-- Sorted lines come in groups, one for each line that is there. -/
theorem splitBy_sorted (hrefl : ∀ a, le a a) (hanti : ∀ a b, le a b → le b a → a = b)
    (hsorted : l.Pairwise le) :
    l.splitBy (· == ·) = (l.destutter (· ≠ ·)).map fun a => List.replicate (l.count a) a := by
  have huniq : (l.destutter (· ≠ ·)).Pairwise le := hsorted.sublist (List.destutter_sublist _ _)
  have hnodup := nodup_of_isChain hanti (List.isChain_destutter _ l) huniq
  have hgroups : l = ((l.destutter (· ≠ ·)).map fun a => List.replicate (l.count a) a).flatten := by
    rw [← List.flatMap_def]
    refine List.Perm.eq_of_pairwise (fun a b _ _ => hanti a b) hsorted
      (pairwise_flatMap_replicate hrefl huniq) (List.perm_iff_count.mpr fun a => ?_)
    rw [count_flatMap_replicate hnodup]
    split
    · rfl
    · next hnot => exact List.count_eq_zero.mpr (mt mem_destutter.mpr hnot)
  have hpos {a : α} (ha : a ∈ l.destutter (· ≠ ·)) : 0 < l.count a :=
    List.count_pos_iff.mpr (mem_destutter.mp ha)
  conv_lhs => rw [hgroups]
  refine List.splitBy_flatten ?_ ?_ ?_
  · intro hnil
    obtain ⟨a, ha, hreplicate⟩ := List.mem_map.mp hnil
    have hzero : l.count a = 0 := by simpa using congrArg List.length hreplicate
    exact absurd hzero (hpos ha).ne'
  · intro group hgroup
    obtain ⟨a, _, rfl⟩ := List.mem_map.mp hgroup
    exact (List.pairwise_replicate.mpr (Or.inr (beq_self_eq_true a))).isChain
  · rw [List.isChain_map]
    refine (List.isChain_destutter _ l).imp_of_mem_imp fun a b ha hb hne => ?_
    refine ⟨?_, ?_, ?_⟩
    · simpa using (hpos ha).ne'
    · simpa using (hpos hb).ne'
    · simpa using hne

end Library.Tally
