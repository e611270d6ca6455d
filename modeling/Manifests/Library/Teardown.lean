import Mathlib

/-! Components that are applied to a cluster and deleted from it. A component has contents, and with
an object that is deleted others may go. -/
namespace Library.Teardown

variable {κ ο : Type}

/-- What the components consist of. `goesWith p o` says that `o` goes when `p` is deleted. -/
structure Inventory (κ ο : Type) where
  contents : κ → Set ο
  goesWith : ο → ο → Prop

/-- What goes when a component is deleted. -/
def Inventory.gone (inv : Inventory κ ο) (k : κ) : Set ο :=
  {o | ∃ p ∈ inv.contents k, Relation.ReflTransGen inv.goesWith p o}

/-- What goes when all these components are deleted. -/
def Inventory.goneWith (inv : Inventory κ ο) (ks : List κ) : Set ο := {o | ∃ k ∈ ks, o ∈ inv.gone k}

/-- One component after the other is applied, each as a whole or in part. -/
inductive Applied (inv : Inventory κ ο) : Set ο → List κ → Set ο → Prop where
  | nil (s : Set ο) : Applied inv s [] s
  | cons {s t s' : Set ο} {k : κ} {ks : List κ} (ht : t ⊆ inv.contents k)
      (h : Applied inv (s ∪ t) ks s') : Applied inv s (k :: ks) s'

/-- One component after the other is deleted. What goes through leaves nothing of the component, and
nothing that goes with it. -/
inductive Deleted (inv : Inventory κ ο) : Set ο → List (κ × Bool) → Set ο → Prop where
  | nil (s : Set ο) : Deleted inv s [] s
  | cons {s t s' : Set ο} {k : κ} {through : Bool} {ks : List (κ × Bool)} (hsub : t ⊆ s)
      (hkept : s \ inv.gone k ⊆ t) (hthrough : through = true → Disjoint t (inv.gone k))
      (h : Deleted inv t ks s') : Deleted inv s ((k, through) :: ks) s'

/-- In front of each component stands everything that must come before it. -/
def Ordered (before : κ → κ → Prop) (done : List κ) : List κ → Prop
  | [] => True
  | k :: ks => (∀ j, before k j → j ∈ done) ∧ Ordered before (done ++ [k]) ks

section
variable {inv : Inventory κ ο} {s s' t : Set ο} {k : κ} {ks : List κ} {o : ο}
  {outcomes : List (κ × Bool)}

theorem contents_subset_gone : inv.contents k ⊆ inv.gone k := fun o ho => ⟨o, ho, .refl⟩

/-- Nothing is there afterwards but what was there or belongs to a component. -/
theorem Applied.mem (h : Applied inv s ks s') (ho : o ∈ s') :
    o ∈ s ∨ ∃ k ∈ ks, o ∈ inv.contents k := by
  induction h with
  | nil s => exact Or.inl ho
  | cons ht _ ih =>
    rcases ih ho with (hs | hnew) | ⟨k, hk, hin⟩
    · exact Or.inl hs
    · exact Or.inr ⟨_, List.mem_cons_self, ht hnew⟩
    · exact Or.inr ⟨k, List.mem_cons_of_mem _ hk, hin⟩

theorem Deleted.subset (h : Deleted inv s outcomes s') : s' ⊆ s := by
  induction h with
  | nil s => exact subset_rfl
  | cons hsub _ _ _ ih => exact ih.trans hsub

/-- What goes with none of the components stays. -/
theorem Deleted.mem (h : Deleted inv s outcomes s') (ho : o ∈ s)
    (hnot : ∀ outcome ∈ outcomes, o ∉ inv.gone outcome.1) : o ∈ s' := by
  induction h with
  | nil s => exact ho
  | cons _ hkept _ _ ih =>
    refine ih (hkept ⟨ho, hnot _ List.mem_cons_self⟩) fun outcome hmem => ?_
    exact hnot outcome (List.mem_cons_of_mem _ hmem)

/-- What goes with a component that has been deleted once is not there in the end. -/
theorem Deleted.not_mem (h : Deleted inv s outcomes s') (hk : (k, true) ∈ outcomes)
    (ho : o ∈ inv.gone k) : o ∉ s' := by
  induction h with
  | nil s => cases hk
  | cons _ _ hthrough hrest ih =>
    rcases List.mem_cons.mp hk with heq | hk
    · cases heq
      exact fun hs' => Set.disjoint_left.mp (hthrough rfl) (hrest.subset hs') ho
    · exact ih hk

/-- When each component has been deleted once, exactly what goes with none of them is left. -/
theorem Deleted.eq (h : Deleted inv s outcomes s') (hks : ∀ k, k ∈ outcomes.map Prod.fst ↔ k ∈ ks)
    (hthrough : ∀ k ∈ ks, (k, true) ∈ outcomes) : s' = s \ inv.goneWith ks := by
  ext o
  constructor
  · intro ho
    refine ⟨h.subset ho, ?_⟩
    rintro ⟨k, hk, hgone⟩
    exact h.not_mem (hthrough k hk) hgone ho
  · rintro ⟨ho, hnot⟩
    refine h.mem ho fun outcome hmem hgone => hnot ⟨outcome.1, ?_, hgone⟩
    exact (hks _).mp (List.mem_map_of_mem hmem)

/-- Nothing new is left exactly when what was applied and has not been deleted goes with what has. -/
theorem Deleted.subset_iff {applied : List κ} (happlied : Applied inv s applied t)
    (h : Deleted inv t outcomes s') (hks : ∀ k, k ∈ outcomes.map Prod.fst ↔ k ∈ ks)
    (hthrough : ∀ k ∈ ks, (k, true) ∈ outcomes) :
    s' ⊆ s ↔ ∀ k ∈ applied, k ∉ ks → ∀ o ∈ inv.contents k, o ∈ t → o ∉ s → o ∈ inv.goneWith ks := by
  rw [h.eq hks hthrough]
  constructor
  · intro hsub k _ _ o _ ht hs
    by_contra hnot
    exact hs (hsub ⟨ht, hnot⟩)
  · rintro hgone o ⟨ht, hnot⟩
    by_contra hs
    obtain ⟨k, hk, hin⟩ := (happlied.mem ht).resolve_left hs
    by_cases hdeleted : k ∈ ks
    · exact hnot ⟨k, hdeleted, contents_subset_gone hin⟩
    · exact hnot (hgone k hk hdeleted o hin ht hs)

/-- Components can be applied as a whole, and deleted again. -/
theorem exists_applied (inv : Inventory κ ο) (s : Set ο) (ks : List κ) :
    ∃ s', Applied inv s ks s' := by
  induction ks generalizing s with
  | nil => exact ⟨s, .nil s⟩
  | cons k ks ih =>
    obtain ⟨s', h⟩ := ih (s ∪ inv.contents k)
    exact ⟨s', .cons subset_rfl h⟩

theorem exists_deleted (inv : Inventory κ ο) (s : Set ο) (ks : List κ) :
    ∃ s', Deleted inv s (ks.map fun k => (k, true)) s' := by
  induction ks generalizing s with
  | nil => exact ⟨s, .nil s⟩
  | cons k ks ih =>
    obtain ⟨s', h⟩ := ih (s \ inv.gone k)
    exact ⟨s', .cons Set.sdiff_subset subset_rfl (fun _ => Set.disjoint_sdiff_left) h⟩

end

section
variable {before : κ → κ → Prop} {done done' ks ls : List κ} {k j : κ}

theorem ordered_append : Ordered before done (ks ++ ls) ↔
    Ordered before done ks ∧ Ordered before (done ++ ks) ls := by
  induction ks generalizing done with
  | nil => simp [Ordered]
  | cons k ks ih => simp [Ordered, ih, and_assoc]

theorem Ordered.mono (hsub : ∀ k ∈ done, k ∈ done') (h : Ordered before done ks) :
    Ordered before done' ks := by
  induction ks generalizing done done' with
  | nil => trivial
  | cons k ks ih =>
    refine ⟨fun j hj => hsub j (h.1 j hj), ih (fun i hi => ?_) h.2⟩
    rcases List.mem_append.mp hi with hdone | hk
    · exact List.mem_append_left _ (hsub i hdone)
    · exact List.mem_append_right _ hk

theorem Ordered.take (h : Ordered before done ks) (n : ℕ) : Ordered before done (ks.take n) := by
  rw [← List.take_append_drop n ks, ordered_append] at h
  exact h.1

/-- The same components can be gone through again. -/
theorem Ordered.flatten {parts : List (List κ)} (h : ∀ part ∈ parts, Ordered before done part) :
    Ordered before done parts.flatten := by
  induction parts with
  | nil => trivial
  | cons part parts ih =>
    rw [List.flatten_cons, ordered_append]
    refine ⟨h part List.mem_cons_self, ?_⟩
    refine (ih fun p hp => h p (List.mem_cons_of_mem _ hp)).mono fun i hi => ?_
    exact List.mem_append_left _ hi

theorem Ordered.mem (h : Ordered before done (ks ++ k :: ls)) (hj : before k j) : j ∈ done ++ ks :=
  (ordered_append.mp h).2.1 j hj

/-- An order is kept when parts of the middle are gone through before it is gone through as a whole. -/
theorem Ordered.replay {first body last : List κ} {parts : List (List κ)}
    (h : Ordered before [] (first ++ body ++ last))
    (hparts : ∀ part ∈ parts, ∃ n, part = body.take n) :
    Ordered before [] (first ++ parts.flatten) ∧
      Ordered before [] (first ++ (parts.flatten ++ body) ++ last) := by
  rw [ordered_append, ordered_append] at h
  obtain ⟨⟨hfirst, hbody⟩, hlast⟩ := h
  have hagain : Ordered before (first) parts.flatten := by
    refine Ordered.flatten fun part hpart => ?_
    obtain ⟨n, rfl⟩ := hparts part hpart
    exact hbody.take n
  rw [ordered_append, ordered_append, ordered_append, ordered_append]
  refine ⟨⟨hfirst, hagain⟩, ⟨hfirst, hagain, hbody.mono ?_⟩, hlast.mono ?_⟩
  · intro k hk
    exact List.mem_append_left _ hk
  · intro k hk
    simp only [List.mem_append] at hk ⊢
    tauto

/-- `j` stands behind `k` in the list. -/
def Behind (l : List κ) (k j : κ) : Prop := [k, j].Sublist l

theorem behind_cons {i : κ} {l : List κ} : Behind (i :: l) k j ↔ (k = i ∧ j ∈ l) ∨ Behind l k j := by
  unfold Behind
  constructor
  · intro h
    cases h with
    | cons _ h => exact Or.inr h
    | cons_cons _ h => exact Or.inl ⟨rfl, List.singleton_sublist.mp h⟩
  · rintro (⟨rfl, hj⟩ | h)
    · exact (List.singleton_sublist.mpr hj).cons_cons k
    · exact h.cons i

theorem behind_append {l l' : List κ} :
    Behind (l ++ l') k j ↔ Behind l k j ∨ (k ∈ l ∧ j ∈ l') ∨ Behind l' k j := by
  induction l with
  | nil => simp [Behind]
  | cons i l ih =>
    rw [List.cons_append, behind_cons, behind_cons, ih, List.mem_append, List.mem_cons]
    tauto

theorem Behind.mem {l : List κ} (h : Behind l k j) : k ∈ l ∧ j ∈ l :=
  ⟨List.Sublist.subset h List.mem_cons_self, List.Sublist.subset h (by simp)⟩

/-- When two neighbours change places, only their own order changes. -/
theorem behind_swap {a b : κ} {l l' : List κ} (h : Behind (l ++ a :: b :: l') k j)
    (hne : ¬ (k = a ∧ j = b)) : Behind (l ++ b :: a :: l') k j := by
  simp only [behind_append, behind_cons, List.mem_cons] at h ⊢
  tauto

theorem not_behind_of_nodup {l : List κ} (hnodup : l.Nodup) (h : Behind l k j) : ¬ Behind l j k := by
  induction l with
  | nil => simp [Behind]
  | cons i l ih =>
    obtain ⟨hi, hl⟩ := List.nodup_cons.mp hnodup
    rw [behind_cons] at h ⊢
    rintro (⟨rfl, hk⟩ | hback)
    · rcases h with ⟨rfl, _⟩ | h
      · exact hi hk
      · exact hi h.mem.2
    · rcases h with ⟨rfl, _⟩ | h
      · exact hi hback.mem.2
      · exact ih hl h hback

/-- When components are gone through in the reverse order of a list, each comes behind those that
stand behind it in the list. -/
theorem ordered_reverse {l : List κ} (hnodup : l.Nodup) (hsub : ks.reverse.Sublist l) :
    Ordered (fun k j => Behind l k j ∧ j ∈ ks) [] ks := by
  suffices h : ∀ pre post, ks = pre ++ post → Ordered (fun k j => Behind l k j ∧ j ∈ ks) pre post from
    h [] ks rfl
  intro pre post
  induction post generalizing pre with
  | nil => exact fun _ => trivial
  | cons k post ih =>
    intro hks
    refine ⟨fun j ⟨hbehind, hj⟩ => ?_, ih (pre ++ [k]) (by simpa using hks)⟩
    rw [hks] at hj
    rcases List.mem_append.mp hj with hpre | hj
    · exact hpre
    · exfalso
      rcases List.mem_cons.mp hj with rfl | hpost
      · exact not_behind_of_nodup hnodup hbehind hbehind
      · have hback : Behind ks.reverse j k := by
          rw [hks, List.reverse_append, List.reverse_cons, behind_append, behind_append]
          exact Or.inl (Or.inr (Or.inl ⟨List.mem_reverse.mpr hpost, List.mem_singleton_self k⟩))
        exact not_behind_of_nodup hnodup hbehind (List.Sublist.trans hback hsub)

end
end Library.Teardown
