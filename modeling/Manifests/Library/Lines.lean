import Mathlib

/-! Texts as they are read and written line by line: a line keeps its line break, and only the last
one may lack it. -/
namespace Library.Lines

/-- Universal newlines: each kind of line break is read as `\n`. -/
def universal : List Char → List Char
  | [] => []
  | c :: cs =>
    if c = '\r' then '\n' :: universal (if cs.head? = some '\n' then cs.tail else cs)
    else c :: universal cs
  termination_by cs => cs.length
  decreasing_by
    · split <;> simp
    · simp

/-- `readlines`. -/
def readlines : List Char → List (List Char)
  | [] => []
  | c :: cs =>
    if c = '\n' then [c] :: readlines cs
    else
      match readlines cs with
      | [] => [[c]]
      | l :: ls => (c :: l) :: ls

/-- A line with its line break. -/
def Ended (l : List Char) : Prop := ∃ body, '\n' ∉ body ∧ l = body ++ ['\n']

/-- The last line, without a line break. -/
def Open (l : List Char) : Prop := l ≠ [] ∧ '\n' ∉ l

/-- What `readlines` gives. -/
inductive AreLines : List (List Char) → Prop where
  | nil : AreLines []
  | last {l : List Char} (h : Open l) : AreLines [l]
  | cons {l : List Char} {ls : List (List Char)} (hl : Ended l) (h : AreLines ls) : AreLines (l :: ls)

/-- Each line is rewritten. -/
def rewrite (f : List Char → List Char) (s : List Char) : List Char := ((readlines s).map f).flatten

/-- A line becomes one line. A line break may be added to the last one. -/
structure Linewise (f : List Char → List Char) : Prop where
  ended : ∀ l, Ended l → Ended (f l)
  last : ∀ l, Open l → Open (f l) ∨ Ended (f l)

variable {s l : List Char} {ls : List (List Char)} {f : List Char → List Char} {c : Char}

@[simp] theorem universal_nil : universal [] = [] := by rw [universal]

theorem universal_cons (h : c ≠ '\r') (cs : List Char) : universal (c :: cs) = c :: universal cs := by
  rw [universal, if_neg h]

theorem universal_return (cs : List Char) : universal ('\r' :: cs) =
    '\n' :: universal (if cs.head? = some '\n' then cs.tail else cs) := by
  rw [universal, if_pos rfl]

theorem return_not_mem_universal (s : List Char) : '\r' ∉ universal s := by
  induction s using universal.induct with
  | case1 => simp
  | case2 cs ih =>
    rw [universal_return, List.mem_cons, not_or]
    exact ⟨by decide, ih⟩
  | case3 c cs hc ih =>
    rw [universal_cons hc, List.mem_cons, not_or]
    exact ⟨Ne.symm hc, ih⟩

/-- Exactly the texts without carriage returns are read as they are. -/
theorem universal_eq_self_iff : universal s = s ↔ '\r' ∉ s := by
  constructor
  · intro h hmem
    rw [← h] at hmem
    exact return_not_mem_universal s hmem
  · intro h
    induction s with
    | nil => exact universal_nil
    | cons c cs ih =>
      obtain ⟨hc, hcs⟩ := not_or.mp (mt List.mem_cons.mpr h)
      rw [universal_cons (Ne.symm hc), ih hcs]

theorem flatten_readlines (s : List Char) : (readlines s).flatten = s := by
  induction s with
  | nil => rfl
  | cons c cs ih =>
    rw [readlines]
    split
    · rw [List.flatten_cons, ih, List.singleton_append]
    · cases hls : readlines cs with
      | nil =>
        rw [hls] at ih
        simp [← ih]
      | cons l ls =>
        rw [hls] at ih
        simp [← ih]

theorem readlines_ended {body : List Char} (h : '\n' ∉ body) (rest : List Char) :
    readlines (body ++ '\n' :: rest) = (body ++ ['\n']) :: readlines rest := by
  induction body with
  | nil => simp [readlines]
  | cons c body ih =>
    obtain ⟨hc, hbody⟩ := not_or.mp (mt List.mem_cons.mpr h)
    simp [readlines, Ne.symm hc, ih hbody]

theorem readlines_open (h : Open l) : readlines l = [l] := by
  obtain ⟨hne, hl⟩ := h
  induction l with
  | nil => exact absurd rfl hne
  | cons c l ih =>
    obtain ⟨hc, hrest⟩ := not_or.mp (mt List.mem_cons.mpr hl)
    rw [readlines, if_neg (Ne.symm hc)]
    by_cases hnil : l = []
    · subst hnil
      rfl
    · rw [ih hnil hrest]

theorem areLines_readlines (s : List Char) : AreLines (readlines s) := by
  induction s with
  | nil => exact .nil
  | cons c cs ih =>
    rw [readlines]
    split
    · next h => exact .cons ⟨[], List.not_mem_nil, by rw [h]; rfl⟩ ih
    · next h =>
      generalize readlines cs = ls at ih
      cases ih with
      | nil => exact .last ⟨List.cons_ne_nil _ _, by simpa using Ne.symm h⟩
      | last hlast => exact .last ⟨List.cons_ne_nil _ _, by simpa [Ne.symm h] using hlast.2⟩
      | cons hl hls =>
        obtain ⟨body, hbody, rfl⟩ := hl
        exact .cons ⟨c :: body, by simpa [Ne.symm h] using hbody, rfl⟩ hls

/-- Lines that are written one after the other are read again as they were. -/
theorem readlines_flatten (h : AreLines ls) : readlines ls.flatten = ls := by
  induction h with
  | nil => rfl
  | last hl => simpa using readlines_open hl
  | cons hl _ ih =>
    obtain ⟨body, hbody, rfl⟩ := hl
    rw [List.flatten_cons, List.append_assoc, List.singleton_append, readlines_ended hbody, ih]

theorem Linewise.map (hf : Linewise f) (h : AreLines ls) : AreLines (ls.map f) := by
  induction h with
  | nil => exact .nil
  | last hl =>
    rcases hf.last _ hl with hopen | hended
    · exact .last hopen
    · exact .cons hended .nil
  | cons hl _ ih => exact .cons (hf.ended _ hl) ih

/-- The lines of a rewritten text are the rewritten lines. -/
theorem readlines_rewrite (hf : Linewise f) (s : List Char) :
    readlines (rewrite f s) = (readlines s).map f :=
  readlines_flatten (hf.map (areLines_readlines s))

theorem rewrite_eq_self_iff (hf : Linewise f) : rewrite f s = s ↔ ∀ l ∈ readlines s, f l = l := by
  have hmap : (readlines s).map f = readlines s ↔ ∀ l ∈ readlines s, f l = l := by
    simpa using List.map_inj_left (f := f) (g := id) (l := readlines s)
  rw [← hmap]
  constructor
  · intro h
    rw [← readlines_rewrite hf, h]
  · intro h
    rw [rewrite, h, flatten_readlines]

/-- Lines that are rewritten once are rewritten for good. -/
theorem rewrite_rewrite (hf : Linewise f) (h : ∀ l ∈ readlines s, f (f l) = f l) :
    rewrite f (rewrite f s) = rewrite f s := by
  rw [rewrite_eq_self_iff hf, readlines_rewrite hf]
  intro l hl
  obtain ⟨l', hl', rfl⟩ := List.mem_map.mp hl
  exact h l' hl'

end Library.Lines
