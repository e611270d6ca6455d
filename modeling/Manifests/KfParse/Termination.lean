import Manifests.KfParse.Completeness

/-! Why the recursion ends, with any reader of JSON texts in the place of `json.loads`. -/
namespace Manifests.KfParse
open Library

section
variable (loads : String → Option Value)

/-- `parse_json_images` with another reader. -/
def parseJsonImagesWith (extract : Value → Except Failure (List String)) (searchKey : String)
    (textData : Value) : Except Failure (List String) :=
  match textData with
  | .str text =>
    if Text.contains searchKey text then
      match loads text with
      | some (.dict j) => extract (.dict j)
      | some _ => .ok []
      | none => .ok (yamlImage text).toList
    else .ok []
  | _ => .ok []

variable (format : Value → String)

/-- The inner loop with another reader. -/
def nestedImagesWith (extract : Value → Except Failure (List String)) (value : Dict) :
    String × Value → Except Failure (List String)
  | (_, .dict v2) => extract (.dict v2)
  | (k2, v2) =>
    if k2 = "image" then concatImageNameWithTag format value v2
    else parseJsonImagesWith loads extract imageKey v2

/-- The outer loop with another reader. -/
def entryImagesWith (extract : Value → Except Failure (List String)) (inpDict : Dict) :
    String × Value → Except Failure (List String)
  | (_, .list value) => collect extract value
  | (_, .dict value) => collect (nestedImagesWith loads format extract value) value
  | (key, .str value) =>
    if key = "image" then concatImageNameWithTag format inpDict (.str value)
    else parseJsonImagesWith loads extract imageKey (.str value)
  | _ => .ok []

/-- `extract_images_recursively` with another reader. -/
def extractWith : Nat → Value → Except Failure (List String)
  | 0, _ => .error .recursionError
  | limit + 1, .dict inpDict =>
    collect (entryImagesWith loads format (extractWith limit) inpDict) inpDict
  | _ + 1, _ => .ok []

/-- The keys and strings of an object that is read are together shorter than its text. -/
def Shrinks : Prop :=
  ∀ text d, loads text = some (.dict d) → (Value.dict d).textLength < text.toList.length

/-- A call for the first value calls again for the second one. -/
inductive Calls : Value → Value → Prop where
  | item {d : Dict} {k : String} {vs : List Value} {v : Value} (h : (k, .list vs) ∈ d) (hv : v ∈ vs) :
      Calls (.dict d) v
  | nested {d f e : Dict} {k k' : String} (h : (k, .dict f) ∈ d) (he : (k', .dict e) ∈ f) :
      Calls (.dict d) (.dict e)
  | text {d f e : Dict} {k s : String} (hf : Near d f) (h : (k, .str s) ∈ f) (hk : k ≠ "image")
      (hc : Text.contains imageKey s = true) (hl : loads s = some (.dict e)) :
      Calls (.dict d) (.dict e)

end

/-- From some depth on, the limit has no influence, and does not cut the result short. -/
def Settles (f : Nat → Except Failure (List String)) : Prop :=
  ∃ depth outcome, outcome ≠ .error .recursionError ∧ ∀ limit, depth ≤ limit → f limit = outcome

/-- A value has shorter texts, or texts of the same length in a smaller value. -/
def Smaller (w v : Value) : Prop :=
  w.textLength < v.textLength ∨ w.textLength = v.textLength ∧ sizeOf w < sizeOf v

variable {loads : String → Option Value} {format : Value → String} {v w : Value} {d f : Dict}
  {k s : String} {vs : List Value} {extract : Nat → Value → Except Failure (List String)}

theorem extractWith_loads (format : Value → String) :
    extractWith Json.loads format = extractImagesRecursively format := by
  have hparse : parseJsonImagesWith Json.loads = parseJsonImages := by
    funext extract searchKey textData
    cases textData <;> rfl
  have hnested : nestedImagesWith Json.loads format = nestedImages format := by
    funext extract value entry
    obtain ⟨k, v⟩ := entry
    cases v <;> simp only [nestedImagesWith, nestedImages, hparse]
  have hentry : entryImagesWith Json.loads format = entryImages format := by
    funext extract inpDict entry
    obtain ⟨k, v⟩ := entry
    cases v <;> simp only [entryImagesWith, entryImages, hparse, hnested]
  funext limit
  induction limit with
  | zero => rfl
  | succ limit ih =>
    funext v
    cases v <;> simp only [extractWith, extractImagesRecursively, ih, hentry]

/-- The reader of the library is one. -/
theorem shrinks_loads : Shrinks Json.loads := by
  intro text d h
  exact (Value.textLength_lt_weight _).trans_le (Json.weight_loads h)

theorem wellFounded_smaller : WellFounded Smaller := by
  have hlex : WellFounded (InvImage (Prod.Lex (· < ·) (· < ·)) fun v : Value =>
      (v.textLength, sizeOf v)) :=
    InvImage.wf _ (WellFounded.prod_lex Nat.lt_wfRel.wf Nat.lt_wfRel.wf)
  refine Subrelation.wf ?_ hlex
  intro w v h
  exact Prod.lex_iff.mpr h

theorem smaller_of_le (ht : w.textLength ≤ v.textLength) (hs : sizeOf w < sizeOf v) : Smaller w v := by
  rcases ht.lt_or_eq with ht | ht
  · exact Or.inl ht
  · exact Or.inr ⟨ht, hs⟩

theorem smaller_member (h : (k, v) ∈ d) : Smaller v (.dict d) := by
  refine smaller_of_le ?_ ?_
  · rw [Value.textLength]
    exact Value.textLength_le_dictTextLength h
  · have hmem := List.sizeOf_lt_of_mem h
    simp only [Prod.mk.sizeOf_spec, Value.dict.sizeOf_spec] at hmem ⊢
    omega

theorem smaller_item (h : v ∈ vs) : Smaller v (.list vs) := by
  refine smaller_of_le ?_ ?_
  · rw [Value.textLength]
    exact Value.textLength_le_listTextLength h
  · have hmem := List.sizeOf_lt_of_mem h
    simp only [Value.list.sizeOf_spec]
    omega

theorem smaller_trans {u : Value} (h : Smaller u w) (h' : Smaller w v) : Smaller u v := by
  unfold Smaller at *
  omega

/-- An object that is read from a string may be large, but its texts are shorter. -/
theorem smaller_text (hl : Shrinks loads) {e : Dict} (h : loads s = some (.dict e)) :
    Smaller (.dict e) (.str s) := by
  left
  rw [Value.textLength.eq_def (.str s)]
  exact hl s e h

/-- Every call is for a smaller value. -/
theorem smaller_of_calls (hl : Shrinks loads) (h : Calls loads v w) : Smaller w v := by
  cases h with
  | item h hv => exact smaller_trans (smaller_item hv) (smaller_member h)
  | nested h he => exact smaller_trans (smaller_member he) (smaller_member h)
  | text hf h _ _ he =>
    obtain rfl | ⟨k', hf⟩ := hf
    · exact smaller_trans (smaller_text hl he) (smaller_member h)
    · exact smaller_trans (smaller_text hl he)
        (smaller_trans (smaller_member h) (smaller_member hf))

theorem settles_const {outcome : Except Failure (List String)}
    (h : outcome ≠ .error .recursionError) : Settles fun _ => outcome :=
  ⟨0, outcome, h, fun _ _ => rfl⟩

theorem settles_of_succ {f : Nat → Except Failure (List String)} (h : Settles fun n => f (n + 1)) :
    Settles f := by
  obtain ⟨depth, outcome, hne, hf⟩ := h
  refine ⟨depth + 1, outcome, hne, fun limit hlimit => ?_⟩
  obtain ⟨n, rfl⟩ := Nat.exists_eq_add_of_le hlimit
  have hn := hf (depth + n) (by omega)
  rwa [Nat.add_right_comm]

theorem settles_collect {α : Type} {g : Nat → α → Except Failure (List String)} {as : List α}
    (h : ∀ a ∈ as, Settles fun n => g n a) : Settles fun n => collect (g n) as := by
  induction as with
  | nil => exact settles_const (by simp)
  | cons a as ih =>
    obtain ⟨depth, outcome, hne, ha⟩ := h a List.mem_cons_self
    obtain ⟨depth', outcome', hne', has⟩ := ih fun b hb => h b (List.mem_cons_of_mem _ hb)
    refine ⟨max depth depth', (do return (← outcome) ++ (← outcome')), ?_, ?_⟩
    · cases outcome with
      | error e => exact hne
      | ok images =>
        cases outcome' with
        | error e => exact hne'
        | ok images' => simp [bind, Except.bind, pure, Except.pure]
    · intro limit hlimit
      have hhead := ha limit (by omega)
      have hrest := has limit (by omega)
      simp only at hhead hrest
      simp only [collect, hhead, hrest]

theorem settles_string (h : ∀ e, k ≠ "image" → Text.contains imageKey s = true →
      loads s = some (.dict e) → Settles fun n => extract n (.dict e)) :
    Settles fun n => if k = "image" then concatImageNameWithTag format f (.str s)
      else parseJsonImagesWith loads (extract n) imageKey (.str s) := by
  split
  · exact settles_const (by simp [concatImageNameWithTag])
  · next hk =>
    simp only [parseJsonImagesWith]
    split
    · next hc =>
      cases hl : loads s with
      | none => exact settles_const (by simp)
      | some v =>
        cases v with
        | dict e => exact h e hk hc hl
        | _ => exact settles_const (by simp)
    · exact settles_const (by simp)

theorem settles_nested (hd : ∀ e, v = .dict e → Settles fun n => extract n (.dict e))
    (hs : ∀ s e, v = .str s → k ≠ "image" → Text.contains imageKey s = true →
      loads s = some (.dict e) → Settles fun n => extract n (.dict e)) :
    Settles fun n => nestedImagesWith loads format (extract n) f (k, v) := by
  have hother : Settles fun _ : Nat =>
      if k = "image" then (.error .typeError : Except Failure (List String)) else .ok [] := by
    split <;> exact settles_const (by simp)
  cases v with
  | dict e => exact hd e rfl
  | str s => exact settles_string fun e => hs s e rfl
  | _ => exact hother

/-- A call settles when the calls do that it makes. -/
theorem settles_call (hcalls : ∀ w, Calls loads v w → Settles fun n => extractWith loads format n w) :
    Settles fun n => extractWith loads format n v := by
  apply settles_of_succ
  cases v with
  | dict d =>
    refine settles_collect fun entry hentry => ?_
    obtain ⟨k, v⟩ := entry
    cases v with
    | list vs => exact settles_collect fun v hv => hcalls v (.item hentry hv)
    | dict f =>
      refine settles_collect fun entry' hentry' => ?_
      obtain ⟨k', v'⟩ := entry'
      refine settles_nested ?_ ?_
      · rintro e rfl
        exact hcalls _ (.nested hentry hentry')
      · rintro s e rfl hk hc hl
        exact hcalls _ (.text (Or.inr ⟨k, hentry⟩) hentry' hk hc hl)
    | str s => exact settles_string fun e hk hc hl => hcalls _ (.text (Or.inl rfl) hentry hk hc hl)
    | _ => exact settles_const (by simp)
  | _ => exact settles_const (by simp)

theorem wellFounded_calls (hl : Shrinks loads) : WellFounded (fun w v => Calls loads v w) :=
  Subrelation.wf (smaller_of_calls hl) wellFounded_smaller

theorem settles_extractWith (hl : Shrinks loads) (format : Value → String) (v : Value) :
    Settles fun limit => extractWith loads format limit v := by
  induction v using (wellFounded_calls hl).induction with
  | _ v ih => exact settles_call ih

/-- The extraction of the script ends, with a list or the type error. -/
theorem settles_extract (format : Value → String) (v : Value) :
    Settles fun limit => extractImagesRecursively format limit v := by
  rw [← extractWith_loads]
  exact settles_extractWith shrinks_loads format v

/-- With any reader that shrinks, there is no infinite chain of calls, and the extraction from every
value ends within some depth. -/
theorem extraction_terminates (loads : String → Option Value) (format : Value → String)
    (hl : Shrinks loads) :
    WellFounded (fun w v => Calls loads v w) ∧
      ∀ v, Settles fun limit => extractWith loads format limit v :=
  ⟨wellFounded_calls hl, settles_extractWith hl format⟩

theorem extraction_terminates_loads :
    WellFounded (fun w v => Calls Json.loads v w) ∧
      ∀ v, Settles fun limit => extractWith Json.loads (fun _ => "") limit v :=
  extraction_terminates Json.loads (fun _ => "") shrinks_loads

end Manifests.KfParse
