import Mathlib

/-! A pool of prefixes that names use up: each name takes the first prefix of it that is left. When
no prefix stands before a longer one, the first is the longest, and the pool is used up exactly when
there are enough names behind every prefix. -/
namespace Library.PrefixPool

variable {α : Type} {pool names as bs : List (List α)} {m name t : List α}

/-- No prefix stands before a longer one. -/
def LongestFirst (pool : List (List α)) : Prop := pool.Pairwise fun s t => ¬ s <+: t

/-- The first prefix of a name is the longest. -/
theorem LongestFirst.first (h : LongestFirst (as ++ t :: bs)) (has : ∀ s ∈ as, ¬ s <+: name)
    (ht : t <+: name) (hm : m ∈ as ++ t :: bs) (hp : m <+: name) : m <+: t := by
  obtain hm | hm := List.mem_append.mp hm
  · exact (has m hm hp).elim
  · obtain rfl | hm := List.mem_cons.mp hm
    · exact List.prefix_rfl
    · have hbs := (List.pairwise_cons.mp (List.pairwise_append.mp h).2.1).1 m hm
      obtain hmt | htm := List.prefix_or_prefix_of_prefix hp ht
      · exact hmt
      · exact (hbs htm).elim

/-- No prefix stands before a longer one, but it may stand there more than once. -/
def Ordered (pool : List (List α)) : Prop := pool.Pairwise fun s t => s <+: t → s = t

theorem LongestFirst.ordered (h : LongestFirst pool) : Ordered pool :=
  List.Pairwise.imp (fun hst hp => (hst hp).elim) h

theorem find?_erase_of_ne {β : Type} [BEq β] [LawfulBEq β] {l : List β} {p : β → Bool} {b c : β}
    (h : l.find? p = some b) (hne : b ≠ c) : (l.erase c).find? p = some b := by
  induction l with
  | nil => cases h
  | cons a l ih =>
    by_cases hac : a = c
    · subst hac
      rw [List.erase_cons_head]
      rw [List.find?_cons] at h
      split at h
      · exact (hne (Option.some.inj h).symm).elim
      · exact h
    · rw [List.erase_cons_tail (by simpa using hac)]
      rw [List.find?_cons] at h ⊢
      split
      · next hpa => simpa [hpa] using h
      · next hpa => exact ih (by simpa [hpa] using h)

variable [DecidableEq α]

/-- What a name leaves of the pool. -/
def use (pool : List (List α)) (name : List α) : List (List α) :=
  match pool.find? fun t => decide (t <+: name) with
  | some t => pool.erase t
  | none => pool

def useAll (pool names : List (List α)) : List (List α) := names.foldl use pool

/-- How many of the words a prefix has behind it. -/
def behind (m : List α) (words : List (List α)) : Nat := words.countP fun w => decide (m <+: w)

theorem use_cases (pool : List (List α)) (name : List α) :
    (use pool name = pool ∧ ∀ t ∈ pool, ¬ t <+: name) ∨
      ∃ t as bs, pool = as ++ t :: bs ∧ (∀ s ∈ as, ¬ s <+: name) ∧ t <+: name ∧
        use pool name = pool.erase t := by
  unfold use
  cases hf : pool.find? fun t => decide (t <+: name) with
  | none => exact Or.inl ⟨rfl, by simpa using hf⟩
  | some t =>
    obtain ⟨ht, as, bs, hpool, has⟩ := List.find?_eq_some_iff_append.mp hf
    exact Or.inr ⟨t, as, bs, hpool, by simpa using has, by simpa using ht, rfl⟩

theorem use_sublist : (use pool name).Sublist pool := by
  obtain ⟨h, _⟩ | ⟨t, _, _, _, _, _, h⟩ := use_cases pool name
  · rw [h]
  · rw [h]
    exact List.erase_sublist

theorem useAll_sublist : (useAll pool names).Sublist pool := by
  induction names generalizing pool with
  | nil => exact List.Sublist.refl pool
  | cons name names ih => exact ih.trans use_sublist

theorem longestFirst_use (h : LongestFirst pool) : LongestFirst (use pool name) :=
  List.Pairwise.sublist use_sublist h

theorem behind_cons : behind m (name :: names) = behind m names + if m <+: name then 1 else 0 := by
  simp [behind, List.countP_cons]

theorem behind_erase (ht : t ∈ pool) :
    behind m (pool.erase t) + (if m <+: t then 1 else 0) = behind m pool := by
  have hperm : pool.Perm (t :: pool.erase t) := List.perm_cons_erase ht
  rw [← behind_cons, behind, behind, hperm.countP_eq]

/-- One name takes at most one prefix from behind `m`, and none unless `m` is a prefix of it. -/
theorem behind_le_use : behind m pool ≤ behind m (use pool name) + if m <+: name then 1 else 0 := by
  obtain ⟨h, _⟩ | ⟨t, as, bs, hpool, _, ht, h⟩ := use_cases pool name
  · rw [h]
    omega
  · rw [h]
    have htmem : t ∈ pool := by simp [hpool]
    rw [← behind_erase (m := m) htmem]
    by_cases hm : m <+: t
    · rw [if_pos hm, if_pos (hm.trans ht)]
    · rw [if_neg hm]
      omega

/-- As long as `m` is in the pool, a name with that prefix does take one from behind it. -/
theorem LongestFirst.behind_use (h : LongestFirst pool) (hm : m ∈ pool) :
    behind m (use pool name) + (if m <+: name then 1 else 0) = behind m pool := by
  obtain ⟨huse, hnone⟩ | ⟨t, as, bs, hpool, has, ht, huse⟩ := use_cases pool name
  · rw [huse, if_neg (hnone m hm), Nat.add_zero]
  · rw [huse]
    have htmem : t ∈ pool := by simp [hpool]
    have hiff : m <+: t ↔ m <+: name :=
      ⟨fun hmt => hmt.trans ht, LongestFirst.first (hpool ▸ h) has ht (hpool ▸ hm)⟩
    rw [← behind_erase htmem, if_congr hiff rfl rfl]

theorem behind_le_useAll : behind m pool ≤ behind m (useAll pool names) + behind m names := by
  induction names generalizing pool with
  | nil => simp [useAll]
  | cons name names ih =>
    have hstep : behind m pool ≤ behind m (use pool name) + if m <+: name then 1 else 0 :=
      behind_le_use
    have hrest : behind m (use pool name) ≤ _ := ih
    rw [behind_cons]
    rw [useAll, List.foldl_cons]
    rw [useAll] at hrest
    omega

theorem LongestFirst.behind_useAll (h : LongestFirst pool) (hm : m ∈ useAll pool names) :
    behind m (useAll pool names) + behind m names = behind m pool := by
  induction names generalizing pool with
  | nil => simp [useAll, behind]
  | cons name names ih =>
    have hm' : m ∈ useAll (use pool name) names := hm
    have hin : m ∈ use pool name := useAll_sublist.subset hm'
    have hstep : behind m (use pool name) + (if m <+: name then 1 else 0) = behind m pool :=
      h.behind_use (use_sublist.subset hin)
    have hrest := ih (longestFirst_use h) hm'
    rw [behind_cons]
    rw [useAll, List.foldl_cons]
    rw [useAll] at hrest
    omega

/-- The pool is used up when each of its prefixes has as many names behind it as prefixes. -/
theorem LongestFirst.useAll_eq_nil (h : LongestFirst pool) :
    useAll pool names = [] ↔ ∀ m ∈ pool, behind m pool ≤ behind m names := by
  constructor
  · intro hnil m _
    have hle : behind m pool ≤ behind m (useAll pool names) + behind m names := behind_le_useAll
    rw [hnil] at hle
    simpa [behind] using hle
  · intro henough
    by_contra hne
    obtain ⟨m, hm⟩ := List.exists_mem_of_ne_nil _ hne
    have heq := h.behind_useAll hm
    have hle := henough m (useAll_sublist.subset hm)
    have hpos : 0 < behind m (useAll pool names) :=
      List.countP_pos_iff.mpr ⟨m, hm, by simp⟩
    omega

/-- The prefix that a name takes. -/
def taken (pool : List (List α)) (name : List α) : Option (List α) :=
  pool.find? fun t => decide (t <+: name)

theorem use_eq (pool : List (List α)) (name : List α) :
    use pool name = (taken pool name).elim pool pool.erase := by
  rw [use, taken]
  cases pool.find? fun t => decide (t <+: name) <;> rfl

theorem ordered_use (h : Ordered pool) : Ordered (use pool name) := List.Pairwise.sublist use_sublist h

/-- The names behind a prefix that is taken have just the prefixes of it, as far as the pool goes. -/
theorem Ordered.prefix_iff (h : Ordered pool) (ht : taken pool name = some t) (hm : m ∈ pool) :
    m <+: name ↔ m <+: t := by
  obtain ⟨htname, as, bs, rfl, has⟩ := List.find?_eq_some_iff_append.mp ht
  have htname : t <+: name := by simpa using htname
  constructor
  · intro hp
    rcases List.mem_append.mp hm with hm | hm
    · have hno := has m hm
      simp only [Bool.not_eq_true', decide_eq_false_iff_not] at hno
      exact (hno hp).elim
    · rcases List.mem_cons.mp hm with rfl | hm
      · exact List.prefix_rfl
      · rcases List.prefix_or_prefix_of_prefix hp htname with hmt | htm
        · exact hmt
        · have heq := (List.pairwise_cons.mp (List.pairwise_append.mp h).2.1).1 m hm htm
          exact heq ▸ List.prefix_rfl
  · exact fun hmt => hmt.trans htname

theorem taken_erase_none (h : taken pool name = none) : taken (pool.erase t) name = none := by
  rw [taken, List.find?_eq_none] at h ⊢
  exact fun s hs => h s (List.mem_of_mem_erase hs)

/-- When both names take the same prefix, the next one is the same for both as well. -/
theorem Ordered.taken_erase (h : Ordered pool) {name' : List α} (ht : taken pool name = some t)
    (ht' : taken pool name' = some t) : taken (pool.erase t) name = taken (pool.erase t) name' := by
  refine List.find?_congr fun m hm => ?_
  have hmem : m ∈ pool := List.mem_of_mem_erase hm
  exact decide_eq_decide.mpr ((h.prefix_iff ht hmem).trans (h.prefix_iff ht' hmem).symm)

/-- Two names may come in either order. -/
theorem Ordered.use_comm (h : Ordered pool) (a b : List α) :
    use (use pool a) b = use (use pool b) a := by
  cases ha : taken pool a with
  | none =>
    have huse : use pool a = pool := by rw [use_eq, ha]; rfl
    rw [huse]
    cases hb : taken pool b with
    | none =>
      have huseb : use pool b = pool := by rw [use_eq, hb]; rfl
      rw [huseb, huse]
    | some t =>
      have huseb : use pool b = pool.erase t := by rw [use_eq, hb]; rfl
      rw [huseb, use_eq (pool.erase t), taken_erase_none ha]
      rfl
  | some s =>
    have huse : use pool a = pool.erase s := by rw [use_eq, ha]; rfl
    rw [huse]
    cases hb : taken pool b with
    | none =>
      have huseb : use pool b = pool := by rw [use_eq, hb]; rfl
      rw [huseb, huse, use_eq, taken_erase_none hb]
      rfl
    | some t =>
      have huseb : use pool b = pool.erase t := by rw [use_eq, hb]; rfl
      rw [huseb, use_eq, use_eq]
      by_cases hst : s = t
      · subst hst
        rw [h.taken_erase ha hb]
      · have hta : taken (pool.erase t) a = some s := find?_erase_of_ne ha hst
        have htb : taken (pool.erase s) b = some t := find?_erase_of_ne hb (Ne.symm hst)
        rw [hta, htb]
        exact List.erase_comm s t

/-- What all the names leave does not depend on their order. -/
theorem Ordered.useAll_perm (h : Ordered pool) {names' : List (List α)} (hp : names.Perm names') :
    useAll pool names = useAll pool names' := by
  induction hp generalizing pool with
  | nil => rfl
  | cons name _ ih => exact ih (ordered_use h)
  | swap a b names =>
    change useAll (use (use pool b) a) names = useAll (use (use pool a) b) names
    rw [h.use_comm]
  | trans _ _ ih ih' => exact (ih h).trans (ih' h)

end Library.PrefixPool
