import Manifests.DexSecret.Accepted

/-! Auth secrets whose values are base64 of text: what the script reads from them. It decodes ASCII
only. -/
namespace Manifests.DexSecret
open Library

/-- The value is base64 of the text in UTF-8. -/
def Encodes (value text : String) : Prop :=
  Text.encodeAscii value = some (Base64.encode (Text.encodeUtf8 text))

def Utf8Values (data : List (String × String)) : Prop :=
  ∀ key value, data.lookup key = some value → ∃ text, Encodes value text

def AsciiValues (data : List (String × String)) : Prop :=
  ∀ key value, data.lookup key = some value → ∃ text, b64encode text = some value

def IsAscii (text : String) : Prop := (Text.encodeAscii text).isSome

instance (text : String) : Decidable (IsAscii text) := inferInstanceAs (Decidable (_ = true))

/-- The text under a key; a missing one is empty. -/
def textOf (data : List (String × String)) (key : String) : String :=
  ((((data.lookup key).bind Text.encodeAscii).bind Base64.decode).bind Text.decodeUtf8).getD ""

section
variable {data : List (String × String)} {key value text : String}

theorem encode_eq_nil {bs : List UInt8} (h : Base64.encode bs = []) : bs = [] := by
  match bs with
  | [] => rfl
  | [a] => simp [Base64.encode] at h
  | [a, b] => simp [Base64.encode] at h
  | a :: b :: c :: rest => simp [Base64.encode] at h

theorem encodeUtf8_injective (h : Text.encodeUtf8 value = Text.encodeUtf8 text) : value = text := by
  have hdecode := Text.decodeUtf8_encodeUtf8 value
  rw [h, Text.decodeUtf8_encodeUtf8] at hdecode
  exact (Option.some.inj hdecode).symm

/-- Only the empty text has an empty value. -/
theorem Encodes.eq_empty_iff (h : Encodes value text) : value = "" ↔ text = "" := by
  have hempty : Text.encodeUtf8 "" = [] := by decide
  constructor
  · rintro rfl
    have hnil : Base64.encode (Text.encodeUtf8 text) = [] := (Option.some.inj h).symm
    exact encodeUtf8_injective ((encode_eq_nil hnil).trans hempty.symm)
  · rintro rfl
    rw [Encodes, hempty] at h
    have hdecode := Text.decodeAscii_encodeAscii h
    exact (Option.some.inj hdecode).symm

/-- The script reads ASCII text, and nothing else. -/
theorem Encodes.decode?_iff {t : String} (h : Encodes value text) :
    decode? value = some t ↔ text = t ∧ IsAscii text := by
  have hdecode : decode? value = Text.decodeAscii (Text.encodeUtf8 text) := by
    unfold Encodes at h
    simp [decode?, h, Base64.decode_encode]
  rw [hdecode]
  constructor
  · intro ht
    have hascii := Text.encodeAscii_decodeAscii ht
    obtain rfl := encodeUtf8_injective (Text.encodeUtf8_of_encodeAscii hascii)
    exact ⟨rfl, Option.isSome_of_eq_some hascii⟩
  · rintro ⟨rfl, hascii⟩
    obtain ⟨bs, hbs⟩ := Option.isSome_iff_exists.mp hascii
    rw [Text.encodeUtf8_of_encodeAscii hbs]
    exact Text.decodeAscii_encodeAscii hbs

/-- What is done with the decoded text is only done with ASCII text. -/
theorem Encodes.bind_decode? {β : Type} (h : Encodes value text) (f : String → Option β) :
    (decode? value).bind f = if IsAscii text then f text else none := by
  split
  · next hascii => rw [h.decode?_iff.mpr ⟨rfl, hascii⟩, Option.bind_some]
  · next hascii =>
    have hnone : decode? value = none :=
      Option.eq_none_iff_forall_ne_some.mpr fun t ht => hascii (h.decode?_iff.mp ht).2
    rw [hnone, Option.bind_none]

theorem encodes_of_b64encode (h : b64encode text = some value) : Encodes value text ∧ IsAscii text := by
  obtain ⟨bs, htext, hvalue⟩ := b64encode_eq_some.mp h
  refine ⟨?_, Option.isSome_of_eq_some htext⟩
  rw [Encodes, hvalue, Text.encodeUtf8_of_encodeAscii htext]

theorem textOf_eq (hlookup : data.lookup key = some value) (h : Encodes value text) :
    textOf data key = text := by
  unfold Encodes at h
  simp [textOf, hlookup, h, Base64.decode_encode, Text.decodeUtf8_encodeUtf8]

theorem textOf_of_none (hlookup : data.lookup key = none) : textOf data key = "" := by
  simp [textOf, hlookup]

theorem isAscii_iff : IsAscii text ↔ ∀ c ∈ text.toList, c.toNat < 128 := by
  unfold IsAscii Text.encodeAscii
  split
  · next h => simpa using h
  · next h => simpa using h

theorem isAscii_join {lines : List String} :
    IsAscii (String.join lines) ↔ ∀ line ∈ lines, IsAscii line := by
  simp only [isAscii_iff, String.toList_join, List.mem_flatMap]
  constructor
  · exact fun h line hm c hc => h c ⟨line, hm, hc⟩
  · rintro h c ⟨line, hm, hc⟩
    exact h line hm c hc

/-- A secret is checked entry by entry. -/
theorem utf8Values_of_all (h : ∀ entry ∈ data, Text.encodeAscii entry.2 =
    some (Base64.encode (Text.encodeUtf8 (textOf [entry] entry.1)))) : Utf8Values data := by
  intro key value hlookup
  obtain ⟨before, after, rfl, _⟩ := List.lookup_eq_some_iff.mp hlookup
  exact ⟨_, h (key, value) (by simp)⟩

theorem asciiValues_of_all (h : ∀ entry ∈ data, (decode? entry.2).bind b64encode = some entry.2) :
    AsciiValues data := by
  intro key value hlookup
  obtain ⟨before, after, rfl, _⟩ := List.lookup_eq_some_iff.mp hlookup
  obtain ⟨text, _, htext⟩ := Option.bind_eq_some_iff.mp (h (key, value) (by simp))
  exact ⟨text, htext⟩

theorem AsciiValues.utf8 (h : AsciiValues data) : Utf8Values data := by
  intro key value hlookup
  obtain ⟨text, htext⟩ := h key value hlookup
  exact ⟨text, (encodes_of_b64encode htext).1⟩

theorem AsciiValues.isAscii (h : AsciiValues data) (key : String) : IsAscii (textOf data key) := by
  cases hlookup : data.lookup key with
  | none =>
    rw [textOf_of_none hlookup]
    decide
  | some value =>
    obtain ⟨text, htext⟩ := h key value hlookup
    rw [textOf_eq hlookup (encodes_of_b64encode htext).1]
    exact (encodes_of_b64encode htext).2

section
variable (h : Utf8Values data)
include h

/-- A value counts as missing when its text is empty. -/
theorem present_eq_none : present (data.lookup key) = none ↔ textOf data key = "" := by
  cases hlookup : data.lookup key with
  | none => simp [present, textOf_of_none hlookup]
  | some value =>
    obtain ⟨text, htext⟩ := h key value hlookup
    rw [textOf_eq hlookup htext, ← htext.eq_empty_iff, present]
    simp

theorem textOf_ne_empty (hp : present (data.lookup key) = some value) : textOf data key ≠ "" := by
  intro hempty
  rw [(present_eq_none h).mpr hempty] at hp
  cases hp

theorem encodes_present (hp : present (data.lookup key) = some value) :
    Encodes value (textOf data key) := by
  have hlookup : data.lookup key = some value := by
    unfold present at hp
    split at hp
    · next heq =>
      split at hp
      · cases hp
      · cases hp
        exact heq
    · cases hp
  obtain ⟨text, htext⟩ := h key value hlookup
  rwa [textOf_eq hlookup htext]

theorem decode?_present {t : String} (hp : present (data.lookup key) = some value) :
    decode? value = some t ↔ textOf data key = t ∧ IsAscii t := by
  rw [(encodes_present h hp).decode?_iff]
  constructor
  · rintro ⟨rfl, hascii⟩
    exact ⟨rfl, hascii⟩
  · rintro ⟨rfl, hascii⟩
    exact ⟨rfl, hascii⟩

theorem field_eq_some {t : String} :
    field data key = some t ↔ textOf data key = t ∧ t ≠ "" ∧ IsAscii t := by
  unfold field
  cases hp : present (data.lookup key) with
  | none =>
    have hempty := (present_eq_none h).mp hp
    constructor
    · intro hnone
      cases hnone
    · rintro ⟨rfl, hne, _⟩
      exact (hne hempty).elim
  | some value =>
    have hne := textOf_ne_empty h hp
    rw [Option.bind_some, decode?_present h hp]
    constructor
    · rintro ⟨rfl, hascii⟩
      exact ⟨rfl, hne, hascii⟩
    · rintro ⟨rfl, _, hascii⟩
      exact ⟨rfl, hascii⟩

theorem field_isSome : (field data key).isSome ↔ textOf data key ≠ "" ∧ IsAscii (textOf data key) := by
  simp only [Option.isSome_iff_exists, field_eq_some h, exists_eq_left']

theorem bindAccepted_iff : BindAccepted data ↔ (textOf data "bind_dn" ≠ "" →
    IsAscii (textOf data "bind_dn") ∧ textOf data "bind_pwd" ≠ "" ∧ IsAscii (textOf data "bind_pwd")) := by
  have hnone : present (data.lookup "bind_dn") = none ↔ textOf data "bind_dn" = "" := present_eq_none h
  unfold BindAccepted
  rw [field_isSome h, ne_eq (textOf data "bind_dn"), ← hnone]
  cases hp : present (data.lookup "bind_dn") with
  | none => simp
  | some encodedDn =>
    simp only [Option.isSome_iff_exists, decode?_present h hp, Option.some.injEq, forall_eq',
      exists_eq_left', ne_eq, reduceCtorEq, not_false_eq_true, forall_const]

end

end

end Manifests.DexSecret
