import Mathlib

/-! Base64 over bytes: the standard encoder, and the lenient decoder of a scripting
runtime, which skips bytes outside the alphabet and only checks the final padding. -/
namespace Library.Base64

/-- The byte of a six-bit digit. -/
def digit (n : Nat) : UInt8 :=
  if n < 26 then UInt8.ofNat (65 + n)
  else if n < 52 then UInt8.ofNat (71 + n)
  else if n < 62 then UInt8.ofNat (n - 4)
  else if n = 62 then 43 else 47

def pad : UInt8 := 61

/-- The digit a byte stands for. -/
def value? (c : UInt8) : Option Nat :=
  if 65 ≤ c ∧ c ≤ 90 then some (c.toNat - 65)
  else if 97 ≤ c ∧ c ≤ 122 then some (c.toNat - 71)
  else if 48 ≤ c ∧ c ≤ 57 then some (c.toNat + 4)
  else if c = 43 then some 62
  else if c = 47 then some 63
  else none

def encode : List UInt8 → List UInt8
  | a :: b :: c :: rest =>
    digit (a.toNat / 4) :: digit (a.toNat % 4 * 16 + b.toNat / 16) ::
      digit (b.toNat % 16 * 4 + c.toNat / 64) :: digit (c.toNat % 64) :: encode rest
  | [a, b] =>
    [digit (a.toNat / 4), digit (a.toNat % 4 * 16 + b.toNat / 16), digit (b.toNat % 16 * 4), pad]
  | [a] => [digit (a.toNat / 4), digit (a.toNat % 4 * 16), pad, pad]
  | [] => []

/-- Where the decoder stands in a group of four digits, with the bits it still holds and,
after the second digit, the number of pads seen. -/
inductive Quad where
  | zero
  | one (left : Nat)
  | two (left pads : Nat)
  | three (left : Nat)
  deriving Repr, DecidableEq

/-- The decoder's loop. A pad that completes a group ends the input; any other pad and every
byte outside the alphabet is skipped; an input that stops inside a group is an error. -/
def decodeFrom : Quad → List UInt8 → Option (List UInt8)
  | .zero, [] => some []
  | _, [] => none
  | q, c :: cs =>
    if c = pad then
      match q with
      | .two left pads => if 1 ≤ pads then some [] else decodeFrom (.two left (pads + 1)) cs
      | .three _ => some []
      | q => decodeFrom q cs
    else match value? c, q with
      | none, q => decodeFrom q cs
      | some v, .zero => decodeFrom (.one v) cs
      | some v, .one left => (decodeFrom (.two (v % 16) 0) cs).map (UInt8.ofNat (left * 4 + v / 16) :: ·)
      | some v, .two left _ => (decodeFrom (.three (v % 4)) cs).map (UInt8.ofNat (left * 16 + v / 4) :: ·)
      | some v, .three left => (decodeFrom .zero cs).map (UInt8.ofNat (left * 64 + v) :: ·)

def decode (cs : List UInt8) : Option (List UInt8) := decodeFrom .zero cs

theorem digit_spec : ∀ n < 64, value? (digit n) = some n ∧ digit n ≠ pad ∧ digit n < 128 := by
  decide

theorem value?_digit {n : Nat} (h : n < 64) : value? (digit n) = some n := (digit_spec n h).1

theorem digit_ne_pad {n : Nat} (h : n < 64) : digit n ≠ pad := (digit_spec n h).2.1

section
variable {n left pads : Nat} {cs : List UInt8}

/-- One alphabet digit from each place of the group. -/
theorem decodeFrom_zero (h : n < 64) : decodeFrom .zero (digit n :: cs) = decodeFrom (.one n) cs := by
  simp [decodeFrom, digit_ne_pad h, value?_digit h]

theorem decodeFrom_one (h : n < 64) : decodeFrom (.one left) (digit n :: cs) =
    (decodeFrom (.two (n % 16) 0) cs).map (UInt8.ofNat (left * 4 + n / 16) :: ·) := by
  simp [decodeFrom, digit_ne_pad h, value?_digit h]

theorem decodeFrom_two (h : n < 64) : decodeFrom (.two left pads) (digit n :: cs) =
    (decodeFrom (.three (n % 4)) cs).map (UInt8.ofNat (left * 16 + n / 4) :: ·) := by
  simp [decodeFrom, digit_ne_pad h, value?_digit h]

theorem decodeFrom_three (h : n < 64) : decodeFrom (.three left) (digit n :: cs) =
    (decodeFrom .zero cs).map (UInt8.ofNat (left * 64 + n) :: ·) := by
  simp [decodeFrom, digit_ne_pad h, value?_digit h]

/-- The two ways a short last group ends. -/
theorem decodeFrom_two_pads : decodeFrom (.two left 0) [pad, pad] = some [] := by
  simp [decodeFrom]

theorem decodeFrom_three_pad : decodeFrom (.three left) [pad] = some [] := by
  simp [decodeFrom]

end

theorem ofNat_eq_of_toNat {a : UInt8} {n : Nat} (h : n = a.toNat) : UInt8.ofNat n = a := by
  rw [h, UInt8.ofNat_toNat]

/-- Decoding undoes encoding, for every byte string. -/
theorem decode_encode (bs : List UInt8) : decode (encode bs) = some bs := by
  unfold decode
  induction bs using encode.induct with
  | case1 a b c rest ih =>
    have ha := a.toNat_lt
    have hb := b.toNat_lt
    have hc := c.toNat_lt
    rw [encode, decodeFrom_zero (by omega), decodeFrom_one (by omega), decodeFrom_two (by omega),
      decodeFrom_three (by omega), ih]
    simp only [Option.map_some, Option.some.injEq, List.cons.injEq, and_true]
    refine ⟨ofNat_eq_of_toNat ?_, ofNat_eq_of_toNat ?_, ofNat_eq_of_toNat ?_⟩ <;> omega
  | case2 a b =>
    have ha := a.toNat_lt
    have hb := b.toNat_lt
    rw [encode, decodeFrom_zero (by omega), decodeFrom_one (by omega), decodeFrom_two (by omega),
      decodeFrom_three_pad]
    simp only [Option.map_some, Option.some.injEq, List.cons.injEq, and_true]
    refine ⟨ofNat_eq_of_toNat ?_, ofNat_eq_of_toNat ?_⟩ <;> omega
  | case3 a =>
    have ha := a.toNat_lt
    rw [encode, decodeFrom_zero (by omega), decodeFrom_one (by omega)]
    rw [decodeFrom_two_pads, Option.map_some, ofNat_eq_of_toNat (a := a) (by omega)]
  | case4 => rfl

/-- Every encoded byte is ASCII. -/
theorem encode_lt {bs : List UInt8} {c : UInt8} (h : c ∈ encode bs) : c < 128 := by
  induction bs using encode.induct with
  | case1 a b x rest ih =>
    have ha := a.toNat_lt
    have hb := b.toNat_lt
    have hx := x.toNat_lt
    simp only [encode, List.mem_cons] at h
    rcases h with rfl | rfl | rfl | rfl | h
    · exact (digit_spec _ (by omega)).2.2
    · exact (digit_spec _ (by omega)).2.2
    · exact (digit_spec _ (by omega)).2.2
    · exact (digit_spec _ (by omega)).2.2
    · exact ih h
  | case2 a b =>
    have ha := a.toNat_lt
    have hb := b.toNat_lt
    simp only [encode, List.mem_cons, List.not_mem_nil, or_false] at h
    rcases h with rfl | rfl | rfl | rfl
    · exact (digit_spec _ (by omega)).2.2
    · exact (digit_spec _ (by omega)).2.2
    · exact (digit_spec _ (by omega)).2.2
    · decide
  | case3 a =>
    have ha := a.toNat_lt
    simp only [encode, List.mem_cons, List.not_mem_nil, or_false] at h
    rcases h with rfl | rfl | rfl | rfl
    · exact (digit_spec _ (by omega)).2.2
    · exact (digit_spec _ (by omega)).2.2
    · decide
    · decide
  | case4 => simp [encode] at h

end Library.Base64
