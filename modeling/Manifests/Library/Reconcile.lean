import Mathlib

/-! Reconciliation: objects with identities, some of which are watched, and rounds that create the
desired objects that are missing, change those that have drifted, and delete the watched ones that are not
desired. In a round any of the requests may fail. -/
namespace Library.Reconcile

/-- What is to be there, all of it watched, and what an object that is there is to become where that is
not what it is. One change is enough, and no object is changed that is not desired or as desired. -/
structure Desired (ω ι : Type) where
  idOf : ω → ι
  watched : ι → Bool
  objects : List ω
  distinct : (objects.map idOf).Nodup
  isWatched : ∀ o ∈ objects, watched (idOf o) = true
  change : ω → Option ω
  idOf_change : ∀ {o o'}, change o = some o' → idOf o' = idOf o
  change_change : ∀ {o o'}, change o = some o' → change o' = none
  change_desired : ∀ o ∈ objects, change o = none
  change_other : ∀ o, idOf o ∉ objects.map idOf → change o = none

/-- The objects that are there, one for each identity. -/
@[ext]
structure Present {ω ι : Type} (idOf : ω → ι) where
  objects : List ω
  distinct : (objects.map idOf).Nodup

namespace Desired
variable {ω ι : Type}

def ids (d : Desired ω ι) : List ι := d.objects.map d.idOf

end Desired

def Present.ids {ω ι : Type} {idOf : ω → ι} (p : Present idOf) : List ι := p.objects.map idOf

namespace Desired

section
variable {ω ι : Type} [DecidableEq ι] (d : Desired ω ι)

/-- The objects that a round sets out to create. -/
def creates (p : Present d.idOf) : List ω := d.objects.filter fun o => d.idOf o ∉ p.ids

/-- The objects that a round sets out to delete. -/
def deletes (p : Present d.idOf) : List ω :=
  p.objects.filter fun o => d.watched (d.idOf o) ∧ d.idOf o ∉ d.ids

/-- The objects that a round sets out to change. -/
def updates (p : Present d.idOf) : List ω := p.objects.filter fun o => (d.change o).isSome

/-- An object when the requests about `ok` have gone through: a request to change it can fail. -/
def settled (ok : ι → Bool) (o : ω) : ω := if ok (d.idOf o) then (d.change o).getD o else o

/-- Something is to be made or deleted. -/
def Left (p : Present d.idOf) (id : ι) : Prop :=
  id ∈ (d.creates p).map d.idOf ∨ id ∈ (d.deletes p).map d.idOf

/-- What stays in a round: a request to delete can fail. -/
def kept (ok : ι → Bool) (p : Present d.idOf) : List ω :=
  p.objects.filter fun o => ¬ (d.watched (d.idOf o) ∧ d.idOf o ∉ d.ids ∧ ok (d.idOf o))

end

section
variable {ω ι : Type} {d : Desired ω ι} {ok : ι → Bool} {o : ω}

theorem idOf_settled : d.idOf (d.settled ok o) = d.idOf o := by
  unfold settled
  split
  · cases h : d.change o with
    | none => rfl
    | some o' => exact d.idOf_change h
  · rfl

theorem map_settled (l : List ω) : (l.map (d.settled ok)).map d.idOf = l.map d.idOf := by
  rw [List.map_map]
  exact List.map_congr_left fun _ _ => idOf_settled

theorem settled_of_none (h : d.change o = none) : d.settled ok o = o := by
  rw [settled, h, Option.getD_none, ite_self]

theorem change_settled (hok : ok (d.idOf o) = true) : d.change (d.settled ok o) = none := by
  rw [settled, if_pos hok]
  cases h : d.change o with
  | none => exact h
  | some o' => exact d.change_change h

/-- What goes through once is done. -/
theorem settled_settled {ok' : ι → Bool} :
    d.settled ok' (d.settled ok o) = d.settled (fun id => ok id || ok' id) o := by
  cases hok : ok (d.idOf o) with
  | true =>
    rw [settled_of_none (change_settled hok), settled, settled, hok]
    simp
  | false =>
    have hsame : d.settled ok o = o := by simp [settled, hok]
    rw [hsame, settled, settled, hok, Bool.false_or]

end

section
variable {ω ι : Type} [DecidableEq ι] {d : Desired ω ι} {p : Present d.idOf} {ok : ι → Bool} {id : ι}
  {o : ω}

theorem mem_creates_ids : id ∈ (d.creates p).map d.idOf ↔ id ∈ d.ids ∧ id ∉ p.ids := by
  simp only [creates, ids, List.mem_map, List.mem_filter, decide_eq_true_eq]
  constructor
  · rintro ⟨o, ⟨ho, hnot⟩, rfl⟩
    exact ⟨⟨o, ho, rfl⟩, hnot⟩
  · rintro ⟨⟨o, ho, rfl⟩, hnot⟩
    exact ⟨o, ⟨ho, hnot⟩, rfl⟩

theorem mem_deletes_ids : id ∈ (d.deletes p).map d.idOf ↔
    id ∈ p.ids ∧ d.watched id = true ∧ id ∉ d.ids := by
  simp only [deletes, Present.ids, List.mem_map, List.mem_filter, decide_eq_true_eq]
  constructor
  · rintro ⟨o, ⟨ho, hnot⟩, rfl⟩
    exact ⟨⟨o, ho, rfl⟩, hnot⟩
  · rintro ⟨⟨o, ho, rfl⟩, hnot⟩
    exact ⟨o, ⟨ho, hnot⟩, rfl⟩

theorem mem_kept_ids : id ∈ (d.kept ok p).map d.idOf ↔
    id ∈ p.ids ∧ ¬ (d.watched id = true ∧ id ∉ d.ids ∧ ok id = true) := by
  simp only [kept, Present.ids, List.mem_map, List.mem_filter, decide_eq_true_eq]
  constructor
  · rintro ⟨o, ⟨ho, hnot⟩, rfl⟩
    exact ⟨⟨o, ho, rfl⟩, hnot⟩
  · rintro ⟨⟨o, ho, rfl⟩, hnot⟩
    exact ⟨o, ⟨ho, hnot⟩, rfl⟩

theorem round_distinct :
    (((d.kept ok p).map (d.settled ok) ++ (d.creates p).filter (ok ∘ d.idOf)).map d.idOf).Nodup := by
  rw [List.map_append, map_settled, List.nodup_append']
  refine ⟨p.distinct.sublist (List.filter_sublist.map _), ?_, ?_⟩
  · exact d.distinct.sublist ((List.filter_sublist.trans List.filter_sublist).map _)
  · intro id hkept hcreated
    have hid := (List.filter_sublist (p := ok ∘ d.idOf)).map d.idOf |>.subset hcreated
    exact (mem_creates_ids.mp hid).2 (mem_kept_ids.mp hkept).1

end

variable {ω ι : Type} [DecidableEq ι] (d : Desired ω ι)

/-- A round in which the requests about the objects `ok` go through. -/
def round (ok : ι → Bool) (p : Present d.idOf) : Present d.idOf where
  objects := (d.kept ok p).map (d.settled ok) ++ (d.creates p).filter (ok ∘ d.idOf)
  distinct := round_distinct

def run (oks : List (ι → Bool)) (p : Present d.idOf) : Present d.idOf :=
  oks.foldl (fun p ok => d.round ok p) p

variable {d} {p : Present d.idOf} {ok : ι → Bool} {oks : List (ι → Bool)} {id : ι}

theorem mem_round_ids : id ∈ (d.round ok p).ids ↔
    (id ∈ p.ids ∧ ¬ (d.watched id = true ∧ id ∉ d.ids ∧ ok id = true)) ∨
      (id ∈ d.ids ∧ id ∉ p.ids ∧ ok id = true) := by
  have hcreated : id ∈ ((d.creates p).filter (ok ∘ d.idOf)).map d.idOf ↔
      id ∈ d.ids ∧ id ∉ p.ids ∧ ok id = true := by
    rw [← and_assoc, ← mem_creates_ids]
    simp only [List.mem_map, List.mem_filter, Function.comp_apply]
    constructor
    · rintro ⟨o, ⟨ho, hok⟩, rfl⟩
      exact ⟨⟨o, ho, rfl⟩, hok⟩
    · rintro ⟨⟨o, ho, rfl⟩, hok⟩
      exact ⟨o, ⟨ho, hok⟩, rfl⟩
  have happend : (d.round ok p).ids = (d.kept ok p).map d.idOf ++
      ((d.creates p).filter (ok ∘ d.idOf)).map d.idOf := by
    rw [Present.ids, round, List.map_append, map_settled]
  rw [happend, List.mem_append, mem_kept_ids, hcreated]

theorem left_iff : d.Left p id ↔
    (id ∈ d.ids ∧ id ∉ p.ids) ∨ (id ∈ p.ids ∧ d.watched id = true ∧ id ∉ d.ids) := by
  rw [Left, mem_creates_ids, mem_deletes_ids]

/-- What is left after a round is what was left and failed. -/
theorem left_round : d.Left (d.round ok p) id ↔ d.Left p id ∧ ok id = false := by
  rw [left_iff, left_iff, mem_round_ids, ← Bool.not_eq_true]
  tauto

/-- What is left after a run is what was left and failed in every round. -/
theorem left_run : d.Left (d.run oks p) id ↔ d.Left p id ∧ ∀ ok ∈ oks, ok id = false := by
  induction oks generalizing p with
  | nil => simp [run]
  | cons ok oks ih =>
    rw [run, List.foldl_cons, ← run, ih, left_round, List.forall_mem_cons, and_assoc]

theorem creates_run : id ∈ (d.creates (d.run oks p)).map d.idOf ↔
    id ∈ (d.creates p).map d.idOf ∧ ∀ ok ∈ oks, ok id = false := by
  have hleft (p : Present d.idOf) : id ∈ (d.creates p).map d.idOf ↔ d.Left p id ∧ id ∈ d.ids := by
    rw [left_iff, mem_creates_ids]
    tauto
  rw [hleft, hleft, left_run, and_right_comm]

theorem deletes_run : id ∈ (d.deletes (d.run oks p)).map d.idOf ↔
    id ∈ (d.deletes p).map d.idOf ∧ ∀ ok ∈ oks, ok id = false := by
  have hleft (p : Present d.idOf) : id ∈ (d.deletes p).map d.idOf ↔ d.Left p id ∧ id ∉ d.ids := by
    rw [left_iff, mem_deletes_ids]
    tauto
  rw [hleft, hleft, left_run, and_right_comm]

/-- When nothing is to be deleted, counting tells whether anything is to be created. -/
theorem creates_eq_nil_iff {classes : List (ι → Bool)}
    (hcover : ∀ id ∈ d.ids, ∃ c ∈ classes, c id = true)
    (hwatched : ∀ c ∈ classes, ∀ id, c id = true → d.watched id = true) (hdeletes : d.deletes p = []) :
    d.creates p = [] ↔ ∀ c ∈ classes, (p.ids.filter c).length = (d.ids.filter c).length := by
  have hcreates : d.creates p = [] ↔ ∀ id ∈ d.ids, id ∈ p.ids := by
    rw [← List.map_eq_nil_iff (f := d.idOf), List.eq_nil_iff_forall_not_mem]
    simp only [mem_creates_ids]
    grind
  have hsub (c : ι → Bool) (hc : c ∈ classes) : p.ids.filter c ⊆ d.ids.filter c := by
    intro id hid
    obtain ⟨hp, hclass⟩ := List.mem_filter.mp hid
    refine List.mem_filter.mpr ⟨?_, hclass⟩
    by_contra hnot
    have hmem := mem_deletes_ids.mpr ⟨hp, hwatched c hc id hclass, hnot⟩
    rw [hdeletes] at hmem
    cases hmem
  rw [hcreates]
  constructor
  · intro hall c hc
    refine List.Perm.length_eq
      ((List.perm_ext_iff_of_nodup (p.distinct.filter c) (d.distinct.filter c)).mpr ?_)
    refine fun id => ⟨fun hid => hsub c hc hid, fun hid => ?_⟩
    obtain ⟨hd, hclass⟩ := List.mem_filter.mp hid
    exact List.mem_filter.mpr ⟨hall id hd, hclass⟩
  · intro hlengths id hid
    obtain ⟨c, hc, hclass⟩ := hcover id hid
    have hperm : (p.ids.filter c).Perm (d.ids.filter c) :=
      (List.subperm_of_subset (p.distinct.filter c) (hsub c hc)).perm_of_length_le (hlengths c hc).ge
    exact (List.mem_filter.mp (hperm.mem_iff.mpr (List.mem_filter.mpr ⟨hid, hclass⟩))).1

theorem mem_round {o : ω} : o ∈ (d.round ok p).objects ↔
    (∃ o' ∈ p.objects, ¬ (d.watched (d.idOf o') = true ∧ d.idOf o' ∉ d.ids ∧ ok (d.idOf o') = true) ∧
      d.settled ok o' = o) ∨ o ∈ d.objects ∧ d.idOf o ∉ p.ids ∧ ok (d.idOf o) = true := by
  simp only [round, kept, creates, List.mem_append, List.mem_map, List.mem_filter, Function.comp_apply,
    decide_eq_true_eq, and_assoc]

/-- Two rounds leave what one leaves in which all goes through that goes through in one of them. -/
theorem mem_round_round {ok' : ι → Bool} {o : ω} : o ∈ (d.round ok' (d.round ok p)).objects ↔
    o ∈ (d.round (fun id => ok id || ok' id) p).objects := by
  constructor
  · rw [mem_round]
    rintro (⟨o₁, ho₁, hkept, rfl⟩ | ⟨ho, hnew, hok'⟩)
    · rcases mem_round.mp ho₁ with ⟨o₀, ho₀, hkept₀, rfl⟩ | ⟨ho₁, hnew, hok⟩
      · rw [idOf_settled] at hkept
        refine mem_round.mpr (Or.inl ⟨o₀, ho₀, ?_, settled_settled.symm⟩)
        simp only [Bool.or_eq_true]
        tauto
      · rw [settled_of_none (d.change_desired _ ho₁)]
        exact mem_round.mpr (Or.inr ⟨ho₁, hnew, by simp [hok]⟩)
    · have hid : d.idOf o ∈ d.ids := List.mem_map_of_mem ho
      rw [mem_round_ids] at hnew
      refine mem_round.mpr (Or.inr ⟨ho, fun hthere => hnew (Or.inl ⟨hthere, fun h => h.2.1 hid⟩), ?_⟩)
      simp [hok']
  · rw [mem_round]
    rintro (⟨o₀, ho₀, hkept, rfl⟩ | ⟨ho, hnew, hok⟩)
    · simp only [Bool.or_eq_true] at hkept
      have hfirst : d.settled ok o₀ ∈ (d.round ok p).objects :=
        mem_round.mpr (Or.inl ⟨o₀, ho₀, by tauto, rfl⟩)
      refine mem_round.mpr (Or.inl ⟨_, hfirst, ?_, settled_settled⟩)
      rw [idOf_settled]
      tauto
    · have hid : d.idOf o ∈ d.ids := List.mem_map_of_mem ho
      by_cases hfirst : ok (d.idOf o) = true
      · refine mem_round.mpr (Or.inl ⟨o, mem_round.mpr (Or.inr ⟨ho, hnew, hfirst⟩),
          fun h => h.2.1 hid, settled_of_none (d.change_desired o ho)⟩)
      · refine mem_round.mpr (Or.inr ⟨ho, ?_, by simpa [hfirst] using hok⟩)
        rw [mem_round_ids]
        tauto

/-- Rounds leave what one leaves in which all goes through that goes through in one of them. -/
theorem mem_run {o : ω} : o ∈ (d.run oks p).objects ↔
    o ∈ (d.round (fun id => oks.any (· id)) p).objects := by
  induction oks generalizing p with
  | nil =>
    rw [mem_round]
    simp [run, settled]
  | cons ok oks ih =>
    rw [run, List.foldl_cons, ← run, ih, mem_round_round]
    rfl

/-- What is left to change after a round is what was left and failed. -/
theorem updates_round : id ∈ (d.updates (d.round ok p)).map d.idOf ↔
    id ∈ (d.updates p).map d.idOf ∧ ok id = false := by
  simp only [updates, List.mem_map, List.mem_filter]
  constructor
  · rintro ⟨o, ⟨ho, hchange⟩, rfl⟩
    rcases mem_round.mp ho with ⟨o₀, ho₀, _, rfl⟩ | ⟨hdesired, _, _⟩
    · have hfailed : ok (d.idOf o₀) = false := by
        by_contra hok
        rw [change_settled (Bool.eq_true_of_not_eq_false hok)] at hchange
        cases hchange
      have hsame : d.settled ok o₀ = o₀ := by simp [settled, hfailed]
      rw [hsame] at hchange ⊢
      exact ⟨⟨o₀, ⟨ho₀, hchange⟩, rfl⟩, hfailed⟩
    · rw [d.change_desired o hdesired] at hchange
      cases hchange
  · rintro ⟨⟨o, ⟨ho, hchange⟩, rfl⟩, hfailed⟩
    refine ⟨o, ⟨mem_round.mpr (Or.inl ⟨o, ho, by simp [hfailed], by simp [settled, hfailed]⟩), hchange⟩,
      rfl⟩

/-- What is left to change after a run is what was left and failed in every round. -/
theorem updates_run : id ∈ (d.updates (d.run oks p)).map d.idOf ↔
    id ∈ (d.updates p).map d.idOf ∧ ∀ ok ∈ oks, ok id = false := by
  induction oks generalizing p with
  | nil => simp [run]
  | cons ok oks ih =>
    rw [run, List.foldl_cons, ← run, ih, updates_round, List.forall_mem_cons, and_assoc]

end Desired
end Library.Reconcile
