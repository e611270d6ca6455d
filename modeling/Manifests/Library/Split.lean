import Manifests.Library.Text

/-! Texts that are taken apart at a separator of any length: the parts that come out of a joined
text, and when the first of them comes out whole. -/
namespace Library.Text

section
variable {sep part rest before head : List Char} {tail : List (List Char)} {c : Char}

theorem splitFrom_skip (skipped : List Char) :
    splitFrom sep skipped.length (skipped ++ rest) = splitFrom sep 0 rest := by
  induction skipped with
  | nil => rfl
  | cons d skipped ih => exact ih

theorem splitFrom_separator (hne : sep ≠ []) :
    splitFrom sep 0 (sep ++ rest) = [] :: splitFrom sep 0 rest := by
  obtain ⟨d, sep', rfl⟩ := List.exists_cons_of_ne_nil hne
  have hstart : (d :: sep').isPrefixOf (d :: (sep' ++ rest)) = true :=
    List.isPrefixOf_iff_prefix.mpr (List.prefix_append (d :: sep') rest)
  rw [List.cons_append, splitFrom, if_pos hstart]
  exact congrArg _ (splitFrom_skip sep')

theorem splitFrom_cons (h : ¬ sep <+: c :: rest) :
    splitFrom sep 0 (c :: rest) = (splitFrom sep 0 rest).modifyHead (c :: ·) := by
  rw [splitFrom, if_neg (fun hp => h (List.isPrefixOf_iff_prefix.mp hp))]

theorem splitFrom_ne_nil (sep : List Char) (n : Nat) (s : List Char) : splitFrom sep n s ≠ [] := by
  induction s generalizing n with
  | nil => cases n <;> simp [splitFrom]
  | cons d s ih =>
    cases n with
    | succ n => exact ih n
    | zero =>
      rw [splitFrom]
      split
      · exact List.cons_ne_nil _ _
      · obtain ⟨head, tail, heq⟩ := List.exists_cons_of_ne_nil (ih 0)
        rw [heq]
        exact List.cons_ne_nil _ _

/-- There is nothing to take apart. -/
theorem splitFrom_of_not_infix (h : ¬ sep <:+: part) : splitFrom sep 0 part = [part] := by
  induction part with
  | nil => rfl
  | cons d part ih =>
    rw [List.infix_cons_iff, not_or] at h
    rw [splitFrom_cons h.1, ih h.2]
    rfl

/-- A separator that is not yet over at the end of the part does not begin in it. -/
theorem not_prefix_of_clear (h : ¬ sep <:+: (c :: part) ++ sep.dropLast) :
    ¬ sep <+: c :: (part ++ sep ++ rest) := by
  intro hp
  apply h
  have hlong : (c :: (part ++ sep.dropLast)) <+: c :: (part ++ sep ++ rest) := by
    rw [List.prefix_cons_inj, List.append_assoc, List.prefix_append_right_inj]
    exact (List.dropLast_prefix sep).trans (List.prefix_append _ _)
  refine (List.prefix_of_prefix_length_le hp hlong ?_).isInfix
  simp only [List.length_cons, List.length_append, List.length_dropLast]
  omega

/-- A part comes out whole when no separator begins in it, also over its end. -/
theorem splitFrom_append (hne : sep ≠ []) (h : ¬ sep <:+: part ++ sep.dropLast) :
    splitFrom sep 0 (part ++ sep ++ rest) = part :: splitFrom sep 0 rest := by
  induction part with
  | nil => exact splitFrom_separator hne
  | cons d part ih =>
    have htail : ¬ sep <:+: part ++ sep.dropLast := fun hi => h (List.infix_cons hi)
    rw [List.cons_append, List.cons_append, splitFrom_cons (not_prefix_of_clear h), ih htail]
    rfl

/-- A character that the separator does not have keeps what is before it in one part. -/
theorem splitFrom_append_cons (hc : c ∉ sep) (h : ¬ sep <:+: before) :
    splitFrom sep 0 (before ++ c :: rest) =
      (splitFrom sep 0 rest).modifyHead (before ++ c :: ·) := by
  have hsep : sep ≠ [] := by
    rintro rfl
    exact h List.nil_infix
  induction before with
  | nil =>
    rw [List.nil_append, splitFrom_cons]
    · rfl
    · intro hp
      have hp : sep <+: [] ++ c :: rest := hp
      exact hsep (List.prefix_nil.mp ((prefix_append_cons_iff hc).mp hp))
  | cons d before ih =>
    rw [List.infix_cons_iff, not_or] at h
    rw [List.cons_append, splitFrom_cons, ih h.2, List.modifyHead_modifyHead]
    · rfl
    · intro hp
      rw [← List.cons_append, prefix_append_cons_iff hc] at hp
      exact h.1 hp

/-- At a separator the first part is over. -/
theorem splitFrom_at_separator (h : sep <+: c :: rest) :
    splitFrom sep 0 (c :: rest) = [] :: splitFrom sep (sep.length - 1) rest := by
  rw [splitFrom, if_pos (List.isPrefixOf_iff_prefix.mpr h)]

theorem splitFrom_cons_head (hp : ¬ sep <+: c :: rest)
    (h : splitFrom sep 0 (c :: rest) = head :: tail) : ∃ first, splitFrom sep 0 rest = first :: tail ∧ head = c :: first := by
  obtain ⟨first, others, hrest⟩ := List.exists_cons_of_ne_nil (splitFrom_ne_nil sep 0 rest)
  rw [splitFrom_cons hp, hrest, List.modifyHead_cons, List.cons_eq_cons] at h
  obtain ⟨rfl, rfl⟩ := h
  exact ⟨first, hrest, rfl⟩

/-- The first part ends in the text that has a separator. -/
theorem head_splitFrom_of_infix (hne : sep ≠ []) (h : sep <:+: before)
    (hs : splitFrom sep 0 (before ++ rest) = head :: tail) : head <+: before := by
  induction before generalizing head with
  | nil => exact (hne (List.infix_nil.mp h)).elim
  | cons d before ih =>
    by_cases hp : sep <+: d :: (before ++ rest)
    · rw [List.cons_append, splitFrom_at_separator hp, List.cons_eq_cons] at hs
      obtain ⟨rfl, _⟩ := hs
      exact List.nil_prefix
    · obtain ⟨first, hfirst, rfl⟩ := splitFrom_cons_head hp hs
      obtain hbegins | hlater := List.infix_cons_iff.mp h
      · exact (hp (hbegins.trans (List.prefix_append (d :: before) rest))).elim
      · exact (List.prefix_cons_inj d).mpr (ih hlater hfirst)

/-- The first part of a text is all of it when there is nothing to take apart. -/
theorem head_splitFrom (hne : sep ≠ []) (h : splitFrom sep 0 part = head :: tail) :
    head <+: part ∧ (head = part ↔ ¬ sep <:+: part) := by
  induction part generalizing head with
  | nil =>
    cases h
    simp [hne]
  | cons d part ih =>
    by_cases hp : sep <+: d :: part
    · rw [splitFrom_at_separator hp, List.cons_eq_cons] at h
      obtain ⟨rfl, _⟩ := h
      simp [hp.isInfix]
    · obtain ⟨first, hfirst, rfl⟩ := splitFrom_cons_head hp h
      obtain ⟨hstart, hwhole⟩ := ih hfirst
      refine ⟨(List.prefix_cons_inj d).mpr hstart, ?_⟩
      rw [List.infix_cons_iff, not_or, and_iff_right hp, ← hwhole, List.cons_inj_right]

/-- Before a separator the first part comes out whole when no separator begins in it. -/
theorem head_splitFrom_append (hne : sep ≠ [])
    (h : splitFrom sep 0 (part ++ sep ++ rest) = head :: tail) :
    head <+: part ∧ (head = part ↔ ¬ sep <:+: part ++ sep.dropLast) := by
  induction part generalizing head with
  | nil =>
    rw [List.nil_append, splitFrom_separator hne, List.cons_eq_cons] at h
    obtain ⟨rfl, _⟩ := h
    have hshort : ¬ sep <:+: sep.dropLast := by
      intro hi
      have hlength := hi.length_le
      have hpos := List.length_pos_iff.mpr hne
      rw [List.length_dropLast] at hlength
      omega
    simp [hshort]
  | cons d part ih =>
    by_cases hp : sep <+: d :: (part ++ sep ++ rest)
    · rw [List.cons_append, List.cons_append, splitFrom_at_separator hp, List.cons_eq_cons] at h
      obtain ⟨rfl, _⟩ := h
      have hbegins : sep <:+: (d :: part) ++ sep.dropLast := by
        by_contra hclear
        exact not_prefix_of_clear hclear hp
      simp only [List.nil_prefix, List.nil_eq, reduceCtorEq, hbegins, not_true_eq_false, and_self]
    · obtain ⟨first, hfirst, rfl⟩ := splitFrom_cons_head hp h
      obtain ⟨hstart, hwhole⟩ := ih hfirst
      refine ⟨(List.prefix_cons_inj d).mpr hstart, ?_⟩
      have hshort : ¬ sep <+: d :: (part ++ sep.dropLast) := by
        intro hs
        apply hp
        refine hs.trans ((List.prefix_cons_inj d).mpr ?_)
        rw [List.append_assoc, List.prefix_append_right_inj]
        exact (List.dropLast_prefix sep).trans (List.prefix_append _ _)
      rw [List.cons_append, List.infix_cons_iff, not_or, and_iff_right hshort, ← hwhole,
        List.cons_inj_right]

theorem replicate_infix_append {n m : Nat} (hm : m ≤ n)
    (h : List.replicate (n + 1) c <:+: List.replicate m c ++ part) :
    List.replicate (n + 1) c <:+: part ∨ part.head? = some c := by
  induction m with
  | zero => exact Or.inl h
  | succ m ih =>
    rw [List.replicate_succ (n := m), List.cons_append, List.infix_cons_iff] at h
    obtain hbegins | hlater := h
    · have hrun : n + 1 = (m + 1) + (n - m - 1 + 1) := by omega
      rw [← List.cons_append, ← List.replicate_succ (n := m), hrun, List.replicate_add,
        List.prefix_append_right_inj, List.replicate_succ] at hbegins
      obtain ⟨others, rfl⟩ := hbegins
      exact Or.inr rfl
    · exact ih (by omega) hlater

/-- A run of one character that begins in a part and goes over its end: the part ends in it. -/
theorem infix_append_replicate {n : Nat} : List.replicate (n + 1) c <:+: part ++ List.replicate n c ↔
    List.replicate (n + 1) c <:+: part ∨ part.getLast? = some c := by
  constructor
  · intro h
    rw [← List.reverse_infix, List.reverse_append, List.reverse_replicate, List.reverse_replicate] at h
    obtain hinner | hlast := replicate_infix_append (Nat.le_refl n) h
    · rw [← List.reverse_infix, List.reverse_replicate, List.reverse_reverse] at hinner
      exact Or.inl hinner
    · rw [List.head?_reverse] at hlast
      exact Or.inr hlast
  · rintro (hinner | hlast)
    · exact hinner.trans List.infix_append_left
    · obtain ⟨others, rfl⟩ := List.getLast?_eq_some_iff.mp hlast
      rw [List.append_assoc, List.singleton_append, ← List.replicate_succ]
      exact List.infix_append_right

end

/-! The same for texts. -/

/-- The part before the first separator. -/
def firstPart (sep s : String) : String := (split sep s).headD ""

section
variable {sep part rest before s : String} {c : Char}

theorem split_of_not_contains (h : contains sep s = false) : split sep s = [s] := by
  have hinner : ¬ sep.toList <:+: s.toList := by
    rw [← contains_iff, h]
    decide
  rw [split, splitFrom_of_not_infix hinner, List.map_singleton, String.ofList_toList]

theorem split_append (hne : sep ≠ "") (h : ¬ sep.toList <:+: part.toList ++ sep.toList.dropLast) :
    split sep (part ++ sep ++ rest) = part :: split sep rest := by
  have hsep : sep.toList ≠ [] := by simpa using hne
  rw [split, String.toList_append, String.toList_append, splitFrom_append hsep h, List.map_cons,
    String.ofList_toList]
  rfl

theorem split_eq_cons (sep s : String) :
    ∃ first tail, splitFrom sep.toList 0 s.toList = first :: tail ∧
      firstPart sep s = String.ofList first ∧ split sep s = firstPart sep s :: tail.map String.ofList := by
  obtain ⟨first, tail, h⟩ := List.exists_cons_of_ne_nil (splitFrom_ne_nil sep.toList 0 s.toList)
  have hfirst : firstPart sep s = String.ofList first := by
    rw [firstPart, split, h, List.map_cons, List.headD_cons]
  refine ⟨first, tail, h, hfirst, ?_⟩
  rw [hfirst, split, h, List.map_cons]

theorem split_append_char (hc : c ∉ sep.toList) (h : contains sep before = false) :
    split sep (before ++ String.singleton c ++ s) =
      (split sep s).modifyHead (before ++ String.singleton c ++ ·) := by
  have hinner : ¬ sep.toList <:+: before.toList := by
    rw [← contains_iff, h]
    decide
  obtain ⟨first, tail, hsplit, hfirst, hs⟩ := split_eq_cons sep s
  have hlist : (before ++ String.singleton c ++ s).toList = before.toList ++ c :: s.toList := by
    simp
  rw [hs, hfirst, List.modifyHead_cons, split, hlist, splitFrom_append_cons hc hinner, hsplit,
    List.modifyHead_cons, List.map_cons]
  congr 1
  apply String.toList_inj.mp
  simp

theorem firstPart_append_char (hc : c ∉ sep.toList) (h : contains sep before = false) :
    firstPart sep (before ++ String.singleton c ++ s) =
      before ++ String.singleton c ++ firstPart sep s := by
  obtain ⟨_, _, _, _, hs⟩ := split_eq_cons sep s
  rw [firstPart, split_append_char hc h, hs, List.modifyHead_cons, List.headD_cons]

theorem firstPart_whole (sep s : String) (hne : sep ≠ "") : (firstPart sep s).toList <+: s.toList ∧
    (firstPart sep s = s ↔ contains sep s = false) := by
  obtain ⟨first, _, hsplit, hfirst, _⟩ := split_eq_cons sep s
  obtain ⟨hstart, hwhole⟩ := head_splitFrom (by simpa using hne) hsplit
  rw [← contains_iff, Bool.not_eq_true] at hwhole
  rw [hfirst, String.toList_ofList, ← String.toList_inj, String.toList_ofList]
  exact ⟨hstart, hwhole⟩

theorem firstPart_append (sep part rest : String) (hne : sep ≠ "") :
    (firstPart sep (part ++ sep ++ rest)).toList <+: part.toList ∧
    (firstPart sep (part ++ sep ++ rest) = part ↔
      ¬ sep.toList <:+: part.toList ++ sep.toList.dropLast) := by
  obtain ⟨first, _, hsplit, hfirst, _⟩ := split_eq_cons sep (part ++ sep ++ rest)
  rw [String.toList_append, String.toList_append] at hsplit
  obtain ⟨hstart, hwhole⟩ := head_splitFrom_append (by simpa using hne) hsplit
  rw [hfirst, String.toList_ofList, ← String.toList_inj, String.toList_ofList]
  exact ⟨hstart, hwhole⟩

theorem firstPart_of_contains (s : String) (hne : sep ≠ "") (hc : contains sep before = true) :
    (firstPart sep (before ++ s)).toList <+: before.toList := by
  obtain ⟨first, _, hsplit, hfirst, _⟩ := split_eq_cons sep (before ++ s)
  rw [String.toList_append] at hsplit
  rw [hfirst, String.toList_ofList]
  exact head_splitFrom_of_infix (by simpa using hne) (contains_iff.mp hc) hsplit

end

end Library.Text
