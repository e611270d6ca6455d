import Mathlib

/-! The text operations of a scripting runtime: the ASCII and UTF-8 codecs, with the errors
of the first, `split`, `in`, and the words of a line. -/
namespace Library.Text

/-- `source.encode('ascii')`; `none` is the codec's error. -/
def encodeAscii (s : String) : Option (List UInt8) :=
  if s.toList.all (fun c => c.toNat < 128) then
    some (s.toList.map fun c => UInt8.ofNat c.toNat)
  else none

/-- `bs.decode('ascii')`. -/
def decodeAscii (bs : List UInt8) : Option String :=
  if bs.all (fun b => b < 128) then
    some (String.ofList (bs.map fun b => Char.ofNat b.toNat))
  else none

/-- `bytes(s, 'utf-8')`. -/
def encodeUtf8 (s : String) : List UInt8 := s.toByteArray.data.toList

/-- `bs.decode('utf-8')`. -/
def decodeUtf8 (bs : List UInt8) : Option String := String.fromUTF8? ⟨bs.toArray⟩

/-- `split` with a separator of any length, on the characters. The first argument counts the
characters of a separator that are still to be skipped. -/
def splitFrom (sep : List Char) : Nat → List Char → List (List Char)
  | _, [] => [[]]
  | n + 1, _ :: cs => splitFrom sep n cs
  | 0, c :: cs =>
    if sep.isPrefixOf (c :: cs) then [] :: splitFrom sep (sep.length - 1) cs
    else (splitFrom sep 0 cs).modifyHead (c :: ·)

/-- `s.split(sep)`. -/
def split (sep s : String) : List String := (splitFrom sep.toList 0 s.toList).map String.ofList

/-- `sep in s`. -/
def contains (sep s : String) : Bool := s.toList.tails.any sep.toList.isPrefixOf

/-- The words of a line, as a shell splits it. -/
def words (line : String) : List String :=
  ((line.toList.splitOnP fun c => c = ' ' ∨ c = '\t').filter (· ≠ [])).map String.ofList

/-- The parts before and after the last `c`: `s.rsplit(c, 1)` when `c` is there. -/
def splitLast (c : Char) : List Char → Option (List Char × List Char)
  | [] => none
  | d :: cs =>
    match splitLast c cs with
    | some (before, after) => some (d :: before, after)
    | none => if d = c then some ([], cs) else none

theorem splitLast_of_not_mem {c : Char} {cs : List Char} (h : c ∉ cs) : splitLast c cs = none := by
  induction cs with
  | nil => rfl
  | cons d cs ih =>
    rw [List.mem_cons, not_or] at h
    rw [splitLast, ih h.2]
    exact if_neg (Ne.symm h.1)

theorem splitLast_append {c : Char} {after : List Char} (h : c ∉ after) (before : List Char) :
    splitLast c (before ++ c :: after) = some (before, after) := by
  induction before with
  | nil =>
    rw [List.nil_append, splitLast, splitLast_of_not_mem h]
    exact if_pos rfl
  | cons d before ih => rw [List.cons_append, splitLast, ih]

theorem decodeUtf8_encodeUtf8 (s : String) : decodeUtf8 (encodeUtf8 s) = some s := by
  have h : (⟨(encodeUtf8 s).toArray⟩ : ByteArray) = s.toByteArray := by simp [encodeUtf8]
  unfold decodeUtf8 String.fromUTF8?
  rw [h, dif_pos s.isValidUTF8]
  rfl

theorem encodeUtf8_decodeUtf8 {bs : List UInt8} {s : String} (h : decodeUtf8 bs = some s) :
    encodeUtf8 s = bs := by
  unfold decodeUtf8 String.fromUTF8? at h
  split at h
  · cases h
    simp [encodeUtf8, String.fromUTF8]
  · cases h

theorem byte_char_toNat {b : UInt8} (h : b < 128) : (Char.ofNat b.toNat).toNat = b.toNat := by
  have hb : b.toNat < 128 := UInt8.lt_iff_toNat_lt.mp h
  rw [Char.toNat_ofNat, if_pos (Or.inl (by omega))]

theorem char_byte_toNat {c : Char} (h : c.toNat < 128) : (UInt8.ofNat c.toNat).toNat = c.toNat := by
  simp [Nat.mod_eq_of_lt (show c.toNat < 256 by omega)]

/-- Bytes that decode as ASCII encode back to themselves. -/
theorem encodeAscii_decodeAscii {bs : List UInt8} {s : String} (h : decodeAscii bs = some s) :
    encodeAscii s = some bs := by
  unfold decodeAscii at h
  split at h
  case isFalse => cases h
  case isTrue hb =>
    cases h
    have hlt : ∀ b ∈ bs, b < 128 := by simpa using hb
    have hc : (bs.map fun b => Char.ofNat b.toNat).all (fun c => c.toNat < 128) = true := by
      simp only [List.all_map, List.all_eq_true, Function.comp, decide_eq_true_eq]
      intro b hm
      rw [byte_char_toNat (hlt b hm)]
      exact UInt8.lt_iff_toNat_lt.mp (hlt b hm)
    unfold encodeAscii
    rw [String.toList_ofList, if_pos hc, List.map_map]
    congr 1
    refine (List.map_congr_left fun b hm => ?_).trans (List.map_id bs)
    simp [byte_char_toNat (hlt b hm)]

theorem decodeAscii_encodeAscii {bs : List UInt8} {s : String} (h : encodeAscii s = some bs) :
    decodeAscii bs = some s := by
  unfold encodeAscii at h
  split at h
  case isFalse => cases h
  case isTrue hs =>
    cases h
    have hlt : ∀ c ∈ s.toList, c.toNat < 128 := by simpa using hs
    have hb : (s.toList.map fun c => UInt8.ofNat c.toNat).all (fun b => b < 128) = true := by
      simp only [List.all_map, List.all_eq_true, Function.comp, decide_eq_true_eq]
      intro c hm
      rw [UInt8.lt_iff_toNat_lt, char_byte_toNat (hlt c hm)]
      exact hlt c hm
    unfold decodeAscii
    rw [if_pos hb, List.map_map]
    congr 1
    have hm : s.toList.map ((fun b : UInt8 => Char.ofNat b.toNat) ∘ fun c => UInt8.ofNat c.toNat) =
        s.toList := by
      refine (List.map_congr_left fun c hc => ?_).trans (List.map_id _)
      simp only [Function.comp, id]
      rw [char_byte_toNat (hlt c hc), Char.ofNat_toNat]
    rw [hm, String.ofList_toList]

/-- On ASCII text the two encoders agree. -/
theorem encodeUtf8_of_encodeAscii {s : String} {bs : List UInt8} (h : encodeAscii s = some bs) :
    encodeUtf8 s = bs := by
  unfold encodeAscii at h
  split at h
  case isFalse => cases h
  case isTrue hs =>
    cases h
    have hlt : ∀ c ∈ s.toList, c.toNat < 128 := by simpa using hs
    have hc : ∀ c ∈ s.toList, String.utf8EncodeChar c = [UInt8.ofNat c.toNat] := by
      intro c hm
      have hle : c.toNat ≤ 127 := by
        have := hlt c hm
        omega
      simp [String.utf8EncodeChar, hle]
    rw [encodeUtf8, ← String.utf8Encode_toList, List.utf8Encode, List.toList_data_toByteArray,
      List.flatMap_congr hc]
    exact List.flatMap_pure_eq_map _ _

section
variable {c : Char} {word before after : List Char} {sep : String}

/-- The first `c` of a text. -/
theorem takeWhile_append_cons (h : c ∉ before) : (before ++ c :: after).takeWhile (· ≠ c) = before := by
  rw [List.takeWhile_append_of_pos]
  · simp
  · intro d hd
    simpa using ne_of_mem_of_not_mem hd h

theorem dropWhile_append_cons (h : c ∉ before) :
    (before ++ c :: after).dropWhile (· ≠ c) = c :: after := by
  rw [List.dropWhile_append_of_pos]
  · simp
  · intro d hd
    simpa using ne_of_mem_of_not_mem hd h

theorem prefix_append_cons_iff (hc : c ∉ word) :
    word <+: before ++ c :: after ↔ word <+: before := by
  constructor
  · intro h
    induction before generalizing word with
    | nil =>
      obtain rfl | ⟨rest, rfl, _⟩ := List.prefix_cons_iff.mp h
      · exact List.nil_prefix
      · simp at hc
    | cons d before ih =>
      obtain rfl | ⟨rest, rfl, hrest⟩ := List.prefix_cons_iff.mp h
      · exact List.nil_prefix
      · exact (List.prefix_cons_inj d).mpr (ih (List.not_mem_of_not_mem_cons hc) hrest)
  · exact fun h => h.trans (List.prefix_append _ _)

/-- A word does not reach over a character that it does not have. -/
theorem infix_append_cons_iff (hc : c ∉ word) :
    word <:+: before ++ c :: after ↔ word <:+: before ∨ word <:+: after := by
  induction before with
  | nil =>
    rw [List.nil_append, List.infix_cons_iff, List.infix_nil]
    have hstart : word <+: [] ++ c :: after ↔ word <+: [] := prefix_append_cons_iff hc
    rw [List.nil_append, List.prefix_nil] at hstart
    rw [hstart]
  | cons d before ih =>
    rw [List.cons_append, List.infix_cons_iff, List.infix_cons_iff, ih, ← List.cons_append,
      prefix_append_cons_iff hc, or_assoc]

theorem infix_intercalate_iff {words : List (List Char)} (hc : c ∉ word) (hne : word ≠ []) :
    word <:+: [c].intercalate words ↔ ∃ part ∈ words, word <:+: part := by
  induction words with
  | nil => simp [hne]
  | cons part words ih =>
    cases words with
    | nil => simp
    | cons next words =>
      rw [List.intercalate_cons_cons, List.append_assoc, List.singleton_append,
        infix_append_cons_iff hc, ih, List.exists_mem_cons_iff (l := next :: words)]

theorem contains_iff {s : String} : contains sep s = true ↔ sep.toList <:+: s.toList := by
  simp only [contains, List.any_eq_true, List.mem_tails, List.isPrefixOf_iff_prefix,
    List.infix_iff_prefix_suffix, and_comm]

/-- A word is in a joined text when it is in one of the parts. -/
theorem contains_intercalate_iff {words : List String} (hc : c ∉ sep.toList) (hsep : sep ≠ "") :
    contains sep ((String.singleton c).intercalate words) = true ↔
      ∃ part ∈ words, contains sep part = true := by
  have hne : sep.toList ≠ [] := by simpa using hsep
  simp only [contains_iff, String.toList_intercalate, String.toList_singleton,
    infix_intercalate_iff hc hne, List.mem_map, exists_exists_and_eq_and]

end

example : split "::::" "a,b::::c" = ["a,b", "c"] := by decide

end Library.Text
