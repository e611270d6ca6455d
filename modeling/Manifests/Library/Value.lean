import Mathlib

/-! Values of a scripting language: what a JSON or YAML document is read into. A `dict` keeps
the order in which its keys were first set. -/
namespace Library

inductive Value where
  | null
  | bool (b : Bool)
  | int (n : Int)
  /-- A float, by the text that stands for it. -/
  | float (text : String)
  | str (s : String)
  | list (items : List Value)
  | dict (entries : List (String × Value))
  deriving Inhabited

abbrev Dict := List (String × Value)

namespace Dict

/-- `d.get(key)`. -/
def get (d : Dict) (key : String) : Option Value := d.lookup key

/-- `d[key] = v`: a key that is there keeps its place. -/
def set (d : Dict) (key : String) (v : Value) : Dict :=
  match d with
  | [] => [(key, v)]
  | (k, w) :: rest => if k = key then (k, v) :: rest else (k, w) :: set rest key v

/-- `del d[key]`, for a key that is there. -/
def erase (d : Dict) (key : String) : Dict := d.filter fun entry => entry.1 ≠ key

variable {d : Dict} {key key' : String} {v : Value}

@[simp] theorem get_nil : get [] key = none := rfl

@[simp] theorem get_cons {k : String} {w : Value} {rest : Dict} :
    get ((k, w) :: rest) key = if key = k then some w else get rest key := by
  by_cases h : key = k
  · simp [get, List.lookup, h]
  · have hb : (key == k) = false := by simpa using h
    simp [get, List.lookup, hb, h]

theorem get_append {e : Dict} : get (d ++ e) key = (get d key).or (get e key) := by
  induction d with
  | nil => rfl
  | cons kw d ih =>
    obtain ⟨k, w⟩ := kw
    rw [List.cons_append, get_cons, get_cons, ih]
    split <;> rfl

@[simp] theorem get_set_self : (d.set key v).get key = some v := by
  induction d with
  | nil => simp [set]
  | cons kw d ih =>
    obtain ⟨k, w⟩ := kw
    rw [set]
    split
    · next h => simp [h]
    · next h => rw [get_cons, if_neg (Ne.symm h), ih]

theorem get_set_ne (h : key' ≠ key) : (d.set key v).get key' = d.get key' := by
  induction d with
  | nil => simp [set, h]
  | cons kw d ih =>
    obtain ⟨k, w⟩ := kw
    rw [set]
    split
    · next hk => rw [get_cons, get_cons, hk, if_neg h, if_neg h]
    · rw [get_cons, get_cons, ih]

theorem get_set {k : String} : (d.set key v).get k = if k = key then some v else d.get k := by
  split
  · next h => rw [h, get_set_self]
  · next h => exact get_set_ne h

@[simp] theorem set_set {w : Value} : (d.set key v).set key w = d.set key w := by
  induction d with
  | nil => simp [set]
  | cons kw d ih =>
    obtain ⟨k, u⟩ := kw
    by_cases h : k = key
    · simp [set, h]
    · simp [set, h, ih]

theorem get_erase {k : String} : (d.erase key).get k = if k = key then none else d.get k := by
  induction d with
  | nil => simp [erase]
  | cons kw d ih =>
    obtain ⟨j, w⟩ := kw
    rw [erase] at ih ⊢
    by_cases hj : j = key
    · subst hj
      rw [List.filter_cons_of_neg (by simp), ih, get_cons]
      split <;> rfl
    · rw [List.filter_cons_of_pos (by simpa using hj), get_cons, ih, get_cons]
      split
      · next hk => rw [if_neg (hk ▸ hj)]
      · rfl

/-- A key that is not there goes to the end. -/
theorem set_of_get_none (h : d.get key = none) : d.set key v = d ++ [(key, v)] := by
  induction d with
  | nil => rfl
  | cons kw d ih =>
    obtain ⟨k, w⟩ := kw
    rw [get_cons] at h
    split at h
    · cases h
    · next hk => rw [set, if_neg (Ne.symm hk), ih h, List.cons_append]

/-- With distinct keys, what is found at a key is an entry. -/
theorem get_eq_some_iff (hn : (d.map Prod.fst).Nodup) : get d key = some v ↔ (key, v) ∈ d := by
  induction d with
  | nil => simp
  | cons kw d ih =>
    obtain ⟨k, w⟩ := kw
    obtain ⟨hk, hrest⟩ := List.nodup_cons.mp hn
    rw [get_cons, List.mem_cons, ← ih hrest]
    by_cases h : key = k
    · subst h
      have hnone : get d key ≠ some v := by
        intro hget
        exact hk (List.mem_map.mpr ⟨_, (ih hrest).mp hget, rfl⟩)
      simp [hnone, eq_comm]
    · simp [h]

/-- The order of distinct keys does not matter. -/
theorem get_perm {e : Dict} (hn : (d.map Prod.fst).Nodup) (hp : d.Perm e) : get d key = get e key := by
  have hn' : (e.map Prod.fst).Nodup := (hp.map Prod.fst).nodup hn
  ext v
  rw [get_eq_some_iff hn, get_eq_some_iff hn', hp.mem_iff]

end Dict

/-- The value at a key, when the value is a dictionary that has it. -/
def Value.get (v : Value) (key : String) : Option Value :=
  match v with
  | .dict d => Dict.get d key
  | _ => .none

/-- The item at a place, when the value is a list that has it. -/
def Value.item (v : Value) (n : Nat) : Option Value :=
  match v with
  | .list items => items[n]?
  | _ => none

/-- A step into a document. -/
inductive Step where
  | key (key : String)
  | index (n : Nat)

/-- The text at the end of a way into a document. -/
def Value.textAt (v : Value) : List Step → Option String
  | [] =>
    match v with
    | .str s => some s
    | _ => none
  | .key key :: path => (v.get key).bind (textAt · path)
  | .index n :: path => (v.item n).bind (textAt · path)

namespace Value

mutual

/-- A number of characters that every text of the value has. -/
def weight : Value → Nat
  | .str s => s.toList.length + 1
  | .list vs => listWeight vs + 1
  | .dict d => dictWeight d + 1
  | _ => 1

def listWeight : List Value → Nat
  | [] => 0
  | v :: vs => weight v + listWeight vs

def dictWeight : List (String × Value) → Nat
  | [] => 0
  | (k, v) :: d => k.toList.length + weight v + dictWeight d

end

mutual

/-- The length of the keys and strings of a value, all together. -/
def textLength : Value → Nat
  | .str s => s.toList.length
  | .list vs => listTextLength vs
  | .dict d => dictTextLength d
  | _ => 0

def listTextLength : List Value → Nat
  | [] => 0
  | v :: vs => textLength v + listTextLength vs

def dictTextLength : List (String × Value) → Nat
  | [] => 0
  | (k, v) :: d => k.toList.length + textLength v + dictTextLength d

end

variable {v : Value} {vs : List Value} {d : List (String × Value)} {key : String}

theorem weight_pos (v : Value) : 0 < weight v := by
  cases v <;> simp [weight]

/-- A total that adds up a size of each entry is at least the size of one entry. -/
theorem le_total {α : Type} (size : α → Nat) {total : List α → Nat} {a : α} {as : List α}
    (hcons : ∀ b bs, total (b :: bs) = size b + total bs) (h : a ∈ as) : size a ≤ total as := by
  induction as with
  | nil => cases h
  | cons b bs ih =>
    rw [hcons]
    obtain rfl | h := List.mem_cons.mp h
    · omega
    · have := ih h
      omega

theorem weight_le_listWeight (h : v ∈ vs) : weight v ≤ listWeight vs :=
  le_total weight (fun _ _ => by rw [listWeight]) h

theorem weight_le_dictWeight (h : (key, v) ∈ d) : weight v ≤ dictWeight d := by
  have hentry : key.toList.length + weight v ≤ dictWeight d :=
    le_total (fun entry : String × Value => entry.1.toList.length + weight entry.2)
      (fun ⟨_, _⟩ _ => by rw [dictWeight]) h
  omega

theorem dictWeight_set (d : Dict) (key : String) (v : Value) :
    dictWeight (d.set key v) ≤ dictWeight d + (key.toList.length + weight v) := by
  induction d with
  | nil =>
    simp only [Dict.set, dictWeight]
    omega
  | cons entry d ih =>
    obtain ⟨k, w⟩ := entry
    rw [Dict.set]
    split
    · simp only [dictWeight]
      omega
    · simp only [dictWeight]
      omega

theorem textLength_le_listTextLength (h : v ∈ vs) : textLength v ≤ listTextLength vs :=
  le_total textLength (fun _ _ => by rw [listTextLength]) h

theorem textLength_le_dictTextLength (h : (key, v) ∈ d) : textLength v ≤ dictTextLength d := by
  have hentry : key.toList.length + textLength v ≤ dictTextLength d :=
    le_total (fun entry : String × Value => entry.1.toList.length + textLength entry.2)
      (fun ⟨_, _⟩ _ => by rw [dictTextLength]) h
  omega

mutual

theorem textLength_lt_weight : (v : Value) → textLength v < weight v
  | .str s => by simp [textLength, weight]
  | .list vs => by
    have := listTextLength_le vs
    rw [textLength, weight]
    omega
  | .dict d => by
    have := dictTextLength_le d
    rw [textLength, weight]
    omega
  | .null | .bool _ | .int _ | .float _ => by simp [textLength, weight]

theorem listTextLength_le : (vs : List Value) → listTextLength vs ≤ listWeight vs
  | [] => le_rfl
  | v :: vs => by
    have := textLength_lt_weight v
    have := listTextLength_le vs
    rw [listTextLength, listWeight]
    omega

theorem dictTextLength_le : (d : List (String × Value)) → dictTextLength d ≤ dictWeight d
  | [] => le_rfl
  | (k, v) :: d => by
    have := textLength_lt_weight v
    have := dictTextLength_le d
    rw [dictTextLength, dictWeight]
    omega

end

end Value
end Library
