import Mathlib

/-! Pieces of a shell script, judged by their exit status: `&&`, `||`, sequences and `if`, over
commands whose outcome is given from outside. -/
namespace Library

/-- What a piece of script leaves behind: whether its status is zero, and the commands it ran. -/
structure Ran (ι : Type) where
  status : Bool
  ran : List ι
  deriving Repr, DecidableEq

/-- A piece of script, given which commands succeed. -/
abbrev Sh (ι : Type) := (ι → Bool) → Ran ι

namespace Sh

variable {ι : Type}

/-- The command `:`. -/
def skip : Sh ι := fun _ => ⟨true, []⟩

def run (c : ι) : Sh ι := fun succeeds => ⟨succeeds c, [c]⟩

/-- `a && b`. -/
def andThen (a b : Sh ι) : Sh ι := fun succeeds =>
  if (a succeeds).status then
    ⟨(b succeeds).status, (a succeeds).ran ++ (b succeeds).ran⟩
  else a succeeds

/-- `a || b`. -/
def orElse (a b : Sh ι) : Sh ι := fun succeeds =>
  if (a succeeds).status then a succeeds
  else ⟨(b succeeds).status, (a succeeds).ran ++ (b succeeds).ran⟩

/-- `a; b`, with the status of `b`. -/
def seq (a b : Sh ι) : Sh ι := fun succeeds =>
  ⟨(b succeeds).status, (a succeeds).ran ++ (b succeeds).ran⟩

/-- `if flag; then a; fi`, whose status is zero when `a` is not run. -/
def ifThen (flag : Bool) (a : Sh ι) : Sh ι := if flag then a else skip

/-- Commands joined by `&&`. -/
def chain : List ι → Sh ι
  | [] => skip
  | c :: cs => (run c).andThen (chain cs)

/-- Commands joined by newlines. -/
def lines : List ι → Sh ι
  | [] => skip
  | [c] => run c
  | c :: cs => (run c).seq (lines cs)

/-- The commands that were run and succeeded. -/
def applied (a : Sh ι) (succeeds : ι → Bool) : List ι := (a succeeds).ran.filter succeeds

variable {a b : Sh ι} {succeeds : ι → Bool} {c d : ι} {cs ds : List ι}

@[simp] theorem skip_status : (skip succeeds : Ran ι).status = true := rfl

@[simp] theorem run_status : (run c succeeds).status = succeeds c := rfl

@[simp] theorem seq_status : (a.seq b succeeds).status = (b succeeds).status := rfl

@[simp] theorem andThen_status :
    (a.andThen b succeeds).status = ((a succeeds).status && (b succeeds).status) := by
  unfold andThen
  cases h : (a succeeds).status <;> simp [h]

@[simp] theorem orElse_status :
    (a.orElse b succeeds).status = ((a succeeds).status || (b succeeds).status) := by
  unfold orElse
  cases h : (a succeeds).status <;> simp [h]

@[simp] theorem chain_status : (chain cs succeeds).status = cs.all succeeds := by
  induction cs with
  | nil => rfl
  | cons c cs ih => rw [chain, andThen_status, run_status, ih, List.all_cons]

theorem mem_applied : c ∈ a.applied succeeds ↔ c ∈ (a succeeds).ran ∧ succeeds c = true :=
  List.mem_filter

@[simp] theorem applied_skip : (skip : Sh ι).applied succeeds = [] := rfl

@[simp] theorem mem_applied_run : c ∈ (run d).applied succeeds ↔ c = d ∧ succeeds c = true := by
  simp [mem_applied, run]

@[simp] theorem mem_applied_seq : c ∈ (a.seq b).applied succeeds ↔
    c ∈ a.applied succeeds ∨ c ∈ b.applied succeeds := by
  simp only [mem_applied, seq, List.mem_append]
  exact or_and_right

@[simp] theorem mem_applied_andThen : c ∈ (a.andThen b).applied succeeds ↔
    c ∈ a.applied succeeds ∨ ((a succeeds).status = true ∧ c ∈ b.applied succeeds) := by
  simp only [mem_applied, andThen]
  cases h : (a succeeds).status
  · simp
  · simp only [if_true, List.mem_append, true_and]
    exact or_and_right

@[simp] theorem mem_applied_orElse : c ∈ (a.orElse b).applied succeeds ↔
    c ∈ a.applied succeeds ∨ ((a succeeds).status = false ∧ c ∈ b.applied succeeds) := by
  simp only [mem_applied, orElse]
  cases h : (a succeeds).status
  · simp only [Bool.false_eq_true, if_false, List.mem_append, true_and]
    exact or_and_right
  · simp

/-- A chain gets as far as its first failure. -/
theorem mem_applied_chain : c ∈ (chain cs).applied succeeds ↔ c ∈ cs.takeWhile succeeds := by
  induction cs with
  | nil => simp [chain]
  | cons d cs ih =>
    rw [chain, mem_applied_andThen, mem_applied_run, run_status, ih]
    cases hd : succeeds d
    · simp only [Bool.false_eq_true, false_and, or_false, List.takeWhile_cons, hd, if_false,
        List.not_mem_nil, iff_false]
      rintro ⟨rfl, hc⟩
      simp [hd] at hc
    · simp only [true_and, List.takeWhile_cons, hd, if_true, List.mem_cons]
      constructor
      · exact Or.imp_left And.left
      · rintro (rfl | h)
        · exact Or.inl ⟨rfl, hd⟩
        · exact Or.inr h

theorem mem_of_mem_applied_chain (h : c ∈ (chain cs).applied succeeds) : c ∈ cs :=
  (List.takeWhile_sublist succeeds).subset (mem_applied_chain.mp h)

/-- All commands of a chain with status zero were run. -/
theorem mem_applied_of_status (h : cs.all succeeds = true) (hc : c ∈ cs) :
    c ∈ (chain cs).applied succeeds := by
  rw [mem_applied_chain, List.takeWhile_eq_self_iff.mpr (List.all_eq_true.mp h)]
  exact hc

/-- What stands in a chain before a command that was run has succeeded. -/
theorem succeeds_of_applied_after (h : c ∈ (chain (cs ++ d :: ds)).applied succeeds)
    (hc : c ∉ cs) : succeeds d = true := by
  rw [mem_applied_chain] at h
  induction cs with
  | nil =>
    rw [List.nil_append, List.takeWhile_cons] at h
    by_contra hn
    simp [hn] at h
  | cons e cs ih =>
    rw [List.cons_append, List.takeWhile_cons] at h
    rw [List.mem_cons, not_or] at hc
    split at h
    · obtain rfl | h := List.mem_cons.mp h
      · exact (hc.1 rfl).elim
      · exact ih h hc.2
    · cases h

theorem mem_applied_lines : c ∈ (lines cs).applied succeeds ↔ c ∈ cs ∧ succeeds c = true := by
  fun_induction lines cs with
  | case1 => simp
  | case2 d => simp
  | case3 d cs _ ih =>
    rw [mem_applied_seq, mem_applied_run, ih, List.mem_cons, or_and_right]

/-- Only commands that succeed count as applied. -/
theorem succeeds_of_mem_applied (h : c ∈ a.applied succeeds) : succeeds c = true :=
  (mem_applied.mp h).2

theorem mem_ran_andThen (h : c ∈ (a.andThen b succeeds).ran) :
    c ∈ (a succeeds).ran ∨ c ∈ (b succeeds).ran := by
  unfold andThen at h
  split at h
  · exact List.mem_append.mp h
  · exact Or.inl h

theorem mem_ran_orElse (h : c ∈ (a.orElse b succeeds).ran) :
    c ∈ (a succeeds).ran ∨ c ∈ (b succeeds).ran := by
  unfold orElse at h
  split at h
  · exact Or.inl h
  · exact List.mem_append.mp h

theorem mem_ran_seq : c ∈ (a.seq b succeeds).ran ↔ c ∈ (a succeeds).ran ∨ c ∈ (b succeeds).ran :=
  List.mem_append

theorem mem_ran_ifThen {flag : Bool} (h : c ∈ (ifThen flag a succeeds).ran) :
    c ∈ (a succeeds).ran := by
  unfold ifThen at h
  split at h
  · exact h
  · cases h

theorem mem_ran_chain (h : c ∈ (chain cs succeeds).ran) : c ∈ cs := by
  induction cs with
  | nil => cases h
  | cons d cs ih =>
    rcases mem_ran_andThen h with hd | hcs
    · rw [List.mem_singleton.mp hd]
      exact List.mem_cons_self
    · exact List.mem_cons_of_mem _ (ih hcs)

theorem mem_ran_lines : c ∈ (lines cs succeeds).ran ↔ c ∈ cs := by
  fun_induction lines cs with
  | case1 => rfl
  | case2 d => rfl
  | case3 d cs _ ih => rw [mem_ran_seq, ih, List.mem_cons, run, List.mem_singleton]

end Sh
end Library
