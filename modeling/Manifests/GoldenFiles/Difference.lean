import Manifests.GoldenFiles

/-! What is printed when a resource differs from the expected one: a table of the lines of both. -/
namespace Manifests.GoldenFiles

def tabToSpace (input : String) : String :=
  String.ofList (input.toList.flatMap fun c => if c = '\t' then [' ', ' '] else [c])

/-- `strings.TrimSuffix(x, "\n")` -/
def trimNewline (x : String) : String :=
  if x.toList.getLast? = some '\n' then String.ofList x.toList.dropLast else x

/-- `len(z)`, which counts bytes. -/
def len (z : String) : Nat := (z.toList.map Char.utf8Size).sum

/-- The lines of a text, and the length of the longest one. -/
def convertToArray (x : String) : List String × Nat :=
  let a := ((trimNewline x).toList.splitOn '\n').map fun v => tabToSpace (String.ofList v)
  (a, a.foldl (fun maxLen z => if len z > maxLen then len z else maxLen) 0)

def hint (a b : String) : String := if a = b then " " else "X"

/-- What one line of the table shows. -/
structure Row where
  hint : String
  expected : String
  actual : String
  deriving Repr, DecidableEq

/-- The lines side by side, and those that only one of the texts has. -/
def rows (sE sA : List String) : List Row :=
  List.zipWith (fun e a => ⟨hint e a, e, a⟩) sE sA ++
    if sE.length < sA.length then (sA.drop sE.length).map (⟨"X", "", ·⟩)
    else (sE.drop sA.length).map (⟨"X", ·, ""⟩)

/-- `%-5s`, for any width. -/
def padded (width : Nat) (s : String) : String :=
  s ++ String.ofList (List.replicate (width - s.length) ' ')

def Row.print (maxLen : Nat) (row : Row) : String :=
  row.hint ++ "  " ++ padded (maxLen + 4) row.expected ++ " " ++ row.actual ++ "\n"

/-- The lines of the table of two texts, below its head. -/
def difference (actual expected : String) : List Row :=
  rows (convertToArray expected).1 (convertToArray actual).1

/-- Everything that `ReportDiffAndFail` prints. -/
def reportDiff (actual expected : String) : List String :=
  ["===== ACTUAL BEGIN ========================================\n", actual,
    "===== ACTUAL END ==========================================\n"] ++
    (⟨" ", "EXPECTED", "ACTUAL"⟩ :: ⟨" ", "--------", "------"⟩ :: difference actual expected).map
      (Row.print (convertToArray expected).2)

/-- The text as the table shows it. -/
def shown (x : String) : String := tabToSpace (trimNewline x)

variable {sE sA : List String} {row : Row} {x actual expected : String} {c : Char}

/-- Lines are split before or behind what is done to their characters. -/
theorem splitOn_flatMap {f : Char → List Char} (hnewline : f '\n' = ['\n'])
    (hother : ∀ c ≠ '\n', '\n' ∉ f c) (cs : List Char) :
    (cs.flatMap f).splitOn '\n' = (cs.splitOn '\n').map (·.flatMap f) := by
  have hskip (front cs : List Char) (h : '\n' ∉ front) :
      (front ++ cs).splitOn '\n' = (cs.splitOn '\n').modifyHead (front ++ ·) := by
    induction front with
    | nil =>
      rw [List.nil_append]
      generalize cs.splitOn '\n' = ls
      cases ls <;> rfl
    | cons d front ih =>
      rw [List.mem_cons, not_or] at h
      rw [List.cons_append, List.splitOn_cons_eq_if_modifyHead, if_neg (by simpa using Ne.symm h.1),
        ih h.2]
      cases cs.splitOn '\n' <;> simp
  induction cs with
  | nil => rfl
  | cons c cs ih =>
    rw [List.flatMap_cons, List.splitOn_cons_eq_if_modifyHead]
    by_cases hc : c = '\n'
    · subst hc
      rw [hnewline, List.singleton_append, List.splitOn_cons_eq_if_modifyHead, ih]
      simp
    · rw [hskip _ _ (hother c hc), ih, if_neg (by simpa using hc)]
      cases cs.splitOn '\n' <;> simp

theorem splitOn_inj {cs ds : List Char} : cs.splitOn '\n' = ds.splitOn '\n' ↔ cs = ds := by
  refine ⟨fun h => ?_, congrArg _⟩
  calc cs = ['\n'].intercalate (cs.splitOn '\n') := (List.intercalate_splitOn '\n').symm
    _ = ['\n'].intercalate (ds.splitOn '\n') := by rw [h]
    _ = ds := List.intercalate_splitOn '\n'

theorem lines_eq : (convertToArray x).1 = ((shown x).toList.splitOn '\n').map String.ofList := by
  have htab : (fun c => if c = '\t' then [' ', ' '] else [c]) '\n' = ['\n'] := rfl
  rw [convertToArray, shown, tabToSpace, String.toList_ofList, splitOn_flatMap htab]
  · simp [tabToSpace, Function.comp_def]
  · intro c hc
    split <;> simp [Ne.symm hc]

/-- Two texts have the same lines when they are shown alike. -/
theorem lines_inj : (convertToArray expected).1 = (convertToArray actual).1 ↔
    shown expected = shown actual := by
  constructor
  · intro h
    rw [lines_eq, lines_eq] at h
    have hlists := congrArg (List.map String.toList) h
    simp only [List.map_map, Function.comp_def, String.toList_ofList, List.map_id'] at hlists
    exact String.toList_inj.mp (splitOn_inj.mp hlists)
  · intro h
    rw [lines_eq, lines_eq, h]

theorem rows_cons (e a : String) : rows (e :: sE) (a :: sA) = ⟨hint e a, e, a⟩ :: rows sE sA := by
  simp [rows]

theorem rows_nil : rows [] sA = sA.map (⟨"X", "", ·⟩) := by
  cases sA <;> simp [rows]

theorem rows_nil_right : rows sE [] = sE.map (⟨"X", ·, ""⟩) := by
  cases sE <;> simp [rows]

/-- No line is marked exactly when both texts have the same lines. -/
theorem unmarked_iff : (∀ row ∈ rows sE sA, row.hint = " ") ↔ sE = sA := by
  induction sE generalizing sA with
  | nil =>
    rw [rows_nil]
    cases sA <;> simp
  | cons e sE ih =>
    cases sA with
    | nil => simp [rows_nil_right]
    | cons a sA =>
      rw [rows_cons, List.forall_mem_cons, ih, List.cons.injEq]
      refine and_congr_left fun _ => ?_
      by_cases h : e = a <;> simp [hint, h]

/-- The columns hold the lines of the two texts, filled up with empty ones. -/
theorem columns : (rows sE sA).map Row.expected = sE ++ List.replicate (sA.length - sE.length) "" ∧
    (rows sE sA).map Row.actual = sA ++ List.replicate (sE.length - sA.length) "" := by
  induction sE generalizing sA with
  | nil => simp [rows_nil, Function.comp_def]
  | cons e sE ih =>
    cases sA with
    | nil => simp [rows_nil_right, Function.comp_def, List.replicate_succ]
    | cons a sA =>
      obtain ⟨hexpected, hactual⟩ := @ih sA
      simp [rows_cons, hexpected, hactual]

theorem length_hint (h : row ∈ rows sE sA) : row.hint.length = 1 := by
  have hmark : "X".length = 1 := rfl
  induction sE generalizing sA with
  | nil =>
    rw [rows_nil] at h
    obtain ⟨a, _, rfl⟩ := List.mem_map.mp h
    exact hmark
  | cons e sE ih =>
    cases sA with
    | nil =>
      rw [rows_nil_right] at h
      obtain ⟨e, _, rfl⟩ := List.mem_map.mp h
      exact hmark
    | cons a sA =>
      rw [rows_cons] at h
      rcases List.mem_cons.mp h with rfl | h
      · dsimp only [hint]
        split
        · rfl
        · exact hmark
      · exact ih h

theorem length_le_len (z : String) : z.length ≤ len z := by
  have hone : ∀ n ∈ z.toList.map Char.utf8Size, 1 ≤ n := by
    intro n hn
    obtain ⟨c, _, rfl⟩ := List.mem_map.mp hn
    exact c.utf8Size_pos
  have hle := List.length_le_sum_of_one_le _ hone
  rwa [List.length_map, String.length_toList] at hle

theorem le_foldl_len (zs : List String) (start : Nat) :
    start ≤ zs.foldl (fun maxLen z => if len z > maxLen then len z else maxLen) start ∧
      ∀ z ∈ zs, len z ≤ zs.foldl (fun maxLen z => if len z > maxLen then len z else maxLen) start := by
  induction zs generalizing start with
  | nil => simp
  | cons z zs ih =>
    obtain ⟨hstart, hall⟩ := ih (if len z > start then len z else start)
    rw [List.foldl_cons]
    have hfirst : start ≤ (if len z > start then len z else start) ∧
        len z ≤ (if len z > start then len z else start) := by
      split <;> omega
    refine ⟨hfirst.1.trans hstart, fun y hy => ?_⟩
    rcases List.mem_cons.mp hy with rfl | hy
    · exact hfirst.2.trans hstart
    · exact hall y hy

/-- In every line of the table the second column begins at the same place. -/
theorem print_column {maxLen : Nat} (hhint : row.hint.length = 1) (hlen : row.expected.length ≤ maxLen) :
    (row.print maxLen).toList.drop (maxLen + 8) = row.actual.toList ++ ['\n'] := by
  have hfront : (row.hint ++ "  " ++ padded (maxLen + 4) row.expected ++ " ").toList.length =
      maxLen + 8 := by
    simp only [padded, String.toList_append, List.length_append, String.length_toList, hhint,
      String.toList_ofList, List.length_replicate]
    have hblanks : "  ".length = 2 := rfl
    have hblank : " ".length = 1 := rfl
    omega
  have hprint : (row.print maxLen).toList =
      (row.hint ++ "  " ++ padded (maxLen + 4) row.expected ++ " ").toList ++
        (row.actual.toList ++ ['\n']) := by
    simp [Row.print]
  rw [hprint, ← hfront, List.drop_left]

/-- The table of two texts has a mark exactly when they differ in more than tabs against two blanks each
and a newline at the end. Below the five lines in front of it, and from the place where its second column
begins, what is printed is the lines of the actual text, filled up to those of the expected one. -/
theorem difference_table (actual expected : String) :
    ((∀ row ∈ difference actual expected, row.hint = " ") ↔ shown expected = shown actual) ∧
      ((reportDiff actual expected).drop 5).map
          (fun line => line.toList.drop ((convertToArray expected).2 + 8)) =
        ((convertToArray actual).1 ++ List.replicate
          ((convertToArray expected).1.length - (convertToArray actual).1.length) "").map
            (·.toList ++ ['\n']) := by
  constructor
  · rw [difference, unmarked_iff, lines_inj]
  · have hprinted : (reportDiff actual expected).drop 5 =
        (difference actual expected).map (Row.print (convertToArray expected).2) := rfl
    rw [hprinted, List.map_map, difference, ← columns.2, List.map_map]
    refine List.map_congr_left fun row hrow => print_column (length_hint hrow) ?_
    have hmem : row.expected ∈ (rows (convertToArray expected).1 (convertToArray actual).1).map
        Row.expected := List.mem_map_of_mem hrow
    rw [columns.1] at hmem
    rcases List.mem_append.mp hmem with hline | hempty
    · exact (length_le_len _).trans ((le_foldl_len _ 0).2 _ hline)
    · rw [List.eq_of_mem_replicate hempty]
      exact Nat.zero_le _

end Manifests.GoldenFiles
