import Mathlib

/-! White space at the ends of texts, as script runtimes know it. -/
namespace Library.Text

/-- White space in the sense of Unicode. -/
def isWhiteSpace (c : Char) : Bool :=
  c.toNat ∈ [0x20, 0x85, 0xA0, 0x1680, 0x2028, 0x2029, 0x202F, 0x205F, 0x3000] ||
    (9 ≤ c.toNat && c.toNat ≤ 13) || (0x2000 ≤ c.toNat && c.toNat ≤ 0x200A)

/-- `s.isspace()` for one character: the four separators of ASCII count too. -/
def isPySpace (c : Char) : Bool := isWhiteSpace c || (0x1C ≤ c.toNat && c.toNat ≤ 0x1F)

/-- `s.rstrip()`. -/
def rstrip (cs : List Char) : List Char := cs.rdropWhile isPySpace

/-- `strings.TrimSpace(s)`. -/
def trimSpace (cs : List Char) : List Char := (cs.dropWhile isWhiteSpace).rdropWhile isWhiteSpace

variable {cs : List Char} {c : Char} {p : Char → Bool}

/-- White space behind a text is trimmed. -/
theorem trimSpace_concat (h : isWhiteSpace c = true) : trimSpace (cs ++ [c]) = trimSpace cs := by
  unfold trimSpace
  rw [List.dropWhile_append]
  split
  · next hempty =>
    rw [List.isEmpty_iff.mp hempty, List.dropWhile_cons_of_pos h]
    rfl
  · exact List.rdropWhile_concat_pos _ _ _ h

theorem mem_dropWhile (h : c ∈ cs) (hp : p c = false) : c ∈ cs.dropWhile p := by
  induction cs with
  | nil => cases h
  | cons d cs ih =>
    rcases List.mem_cons.mp h with rfl | h
    · rw [List.dropWhile_cons_of_neg (by simp [hp])]
      exact List.mem_cons_self
    · rw [List.dropWhile_cons]
      split
      · exact ih h
      · exact List.mem_cons_of_mem d h

/-- Only white space is trimmed. -/
theorem mem_trimSpace (h : c ∈ cs) (hc : isWhiteSpace c = false) : c ∈ trimSpace cs := by
  rw [trimSpace, List.rdropWhile, List.mem_reverse]
  exact mem_dropWhile (List.mem_reverse.mpr (mem_dropWhile h hc)) hc

end Library.Text
