import Mathlib

/-! The lines that `diff` marks in the second of two files. -/
namespace Library.Diff

variable {α : Type} {r : α → α → Prop} {before after kept marked common l l₁ l₂ : List α} {a b : α}

/-- Lines of both files, in their order, to which no line can be added. -/
structure Kept (before after kept : List α) : Prop where
  first : kept.Sublist before
  second : kept.Sublist after
  full : ∀ common : List α, common.Sublist before → common.Sublist after → kept.Sublist common →
    common = kept

/-- The other lines of the second file. -/
def Marks (before after marked : List α) : Prop :=
  ∃ kept, Kept before after kept ∧ (kept ++ marked).Perm after

/-- A line, which may be the last and without a newline. -/
structure Line (α : Type) where
  text : α
  last : Bool
  deriving DecidableEq

theorem line_injective : Function.Injective fun line : Line α => toLex (line.text, line.last) := by
  rintro ⟨text, last⟩ ⟨text', last'⟩ h
  obtain ⟨rfl, rfl⟩ := Prod.mk.inj h
  rfl

instance [LinearOrder α] : LinearOrder (Line α) := LinearOrder.lift' _ line_injective

/-- The lines of a file that ends without a newline. -/
def openEnded : List α → List (Line α)
  | [] => []
  | [a] => [⟨a, true⟩]
  | a :: b :: l => ⟨a, false⟩ :: openEnded (b :: l)

theorem map_openEnded : (openEnded l).map Line.text = l := by
  fun_induction openEnded l with
  | case1 => rfl
  | case2 a => rfl
  | case3 a b l ih => rw [List.map_cons, ih]

theorem openEnded_sorted [LinearOrder α] (h : l.Pairwise (· ≤ ·)) :
    (openEnded l).Pairwise (· ≤ ·) := by
  fun_induction openEnded l with
  | case1 => exact List.Pairwise.nil
  | case2 a => exact List.pairwise_singleton _ _
  | case3 a b l ih =>
    obtain ⟨hle, hrest⟩ := List.pairwise_cons.mp h
    refine List.pairwise_cons.mpr ⟨fun line hline => ?_, ih hrest⟩
    have htext : line.text ∈ b :: l := by
      rw [← map_openEnded (l := b :: l)]
      exact List.mem_map_of_mem hline
    refine Prod.Lex.le_iff.mpr ?_
    rcases (hle _ htext).lt_or_eq with hlt | heq
    · exact Or.inl hlt
    · exact Or.inr ⟨heq, Bool.false_le _⟩

section
variable [DecidableEq α]

/-- Of files in order it keeps each line as often as both have it. -/
theorem Kept.count [Std.Antisymm r] (h : Kept before after kept) (hbefore : before.Pairwise r)
    (hafter : after.Pairwise r) : kept.count a = min (before.count a) (after.count a) := by
  -- the lines of both files, sorted, can be kept as well
  have hsublist : (before.bagInter after).Sublist before := List.bagInter_sublist_left
  have hsubperm : (before.bagInter after).Subperm after :=
    List.subperm_ext_iff.mpr fun a _ => by rw [List.count_bagInter]; exact min_le_right _ _
  have hsorted : (before.bagInter after).Pairwise r := hbefore.sublist hsublist
  have hkept : kept.Subperm (before.bagInter after) := by
    refine List.subperm_ext_iff.mpr fun a _ => ?_
    rw [List.count_bagInter]
    exact le_min (h.first.count_le a) (h.second.count_le a)
  rw [← h.full _ hsublist (List.sublist_of_subperm_of_pairwise hsubperm hsorted hafter)
    (List.sublist_of_subperm_of_pairwise hkept (hbefore.sublist h.first) hsorted), List.count_bagInter]

/-- Of files in order it marks each line that the second has more often, as often as it has it more. -/
theorem Marks.count [Std.Antisymm r] (h : Marks before after marked) (hbefore : before.Pairwise r)
    (hafter : after.Pairwise r) : marked.count a = after.count a - before.count a := by
  obtain ⟨kept, hkept, hperm⟩ := h
  have hcount := hperm.count_eq a
  rw [List.count_append, hkept.count hbefore hafter] at hcount
  omega

theorem Marks.mem_iff [Std.Antisymm r] (h : Marks before after marked) (hbefore : before.Pairwise r)
    (hafter : after.Pairwise r) : a ∈ marked ↔ before.count a < after.count a := by
  rw [← List.count_pos_iff, h.count hbefore hafter, Nat.sub_pos_iff_lt]

/-- A longest list of lines of both files, in their order. -/
def longest (before after : List α) : List α :=
  ((before.sublists.filter (·.isSublist after)).argmax List.length).getD []

theorem longest_spec (before after : List α) :
    (longest before after).Sublist before ∧ (longest before after).Sublist after ∧
    ∀ common : List α, common.Sublist before → common.Sublist after →
      common.length ≤ (longest before after).length := by
  have hmem (common : List α) : common ∈ before.sublists.filter (·.isSublist after) ↔
      common.Sublist before ∧ common.Sublist after := by
    rw [List.mem_filter, List.mem_sublists, List.isSublist_iff_sublist]
  unfold longest
  cases hmax : (before.sublists.filter (·.isSublist after)).argmax List.length with
  | none =>
    have hnil := (hmem []).mpr ⟨List.nil_sublist _, List.nil_sublist _⟩
    rw [List.argmax_eq_none.mp hmax] at hnil
    cases hnil
  | some kept =>
    have hkept := (hmem kept).mp (List.argmax_mem hmax)
    refine ⟨hkept.1, hkept.2, fun common hbefore hafter => ?_⟩
    exact List.le_of_mem_argmax ((hmem common).mpr ⟨hbefore, hafter⟩) hmax

/-- What a longest list leaves is marked. -/
theorem marks_longest : Marks before after (after.diff (longest before after)) := by
  obtain ⟨hbefore, hafter, hlongest⟩ := longest_spec before after
  refine ⟨longest before after, ⟨hbefore, hafter, fun common h₁ h₂ hkept => ?_⟩, ?_⟩
  · exact (hkept.eq_of_length_le (hlongest common h₁ h₂)).symm
  · exact List.subperm_append_diff_self_of_count_le fun a _ => hafter.count_le a

end
end Library.Diff
