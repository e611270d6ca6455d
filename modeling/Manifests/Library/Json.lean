import Manifests.Library.Value

/-! A JSON reader that takes what a scripting runtime's `loads` takes, and the length of text that
a value costs. -/
namespace Library.Json

/-- A prefix of the text, read as an `α`, and the text behind it. -/
abbrev Reader (α : Type) := List Char → Option (α × List Char)

def isSpace (c : Char) : Bool := c = ' ' || c = '\t' || c = '\n' || c = '\r'

def skipSpace (cs : List Char) : List Char := cs.dropWhile isSpace

def hexDigit? (c : Char) : Option Nat :=
  if '0' ≤ c ∧ c ≤ '9' then some (c.toNat - '0'.toNat)
  else if 'a' ≤ c ∧ c ≤ 'f' then some (c.toNat - 'a'.toNat + 10)
  else if 'A' ≤ c ∧ c ≤ 'F' then some (c.toNat - 'A'.toNat + 10)
  else none

def hex4? (a b c d : Char) : Option Nat := do
  return (((← hexDigit? a) * 16 + (← hexDigit? b)) * 16 + (← hexDigit? c)) * 16 + (← hexDigit? d)

/-- The character behind a backslash. -/
def unescape? (c : Char) : Option Char :=
  if c = '"' then some '"' else if c = '\\' then some '\\' else if c = '/' then some '/'
  else if c = 'b' then some (Char.ofNat 8) else if c = 'f' then some (Char.ofNat 12)
  else if c = 'n' then some '\n' else if c = 'r' then some '\r'
  else if c = 't' then some '\t' else none

/-- The code units of a string up to its closing quote, with the escapes resolved. -/
def stringUnits : List Char → Option (List Nat × List Char)
  | [] => none
  | c :: cs =>
    if c = '"' then some ([], cs)
    else if c = '\\' then
      match cs with
      | 'u' :: a :: b :: x :: y :: cs => do
        let unit ← hex4? a b x y
        let (units, rest) ← stringUnits cs
        return (unit :: units, rest)
      | e :: cs => do
        let unit ← unescape? e
        let (units, rest) ← stringUnits cs
        return (unit.toNat :: units, rest)
      | [] => none
    else if c.toNat < 32 then none
    else do
      let (units, rest) ← stringUnits cs
      return (c.toNat :: units, rest)

/-- Pairs of surrogates are joined. One that is left alone has no character of its own, and is
read as the replacement character. -/
def joinUnits : List Nat → List Char
  | [] => []
  | [unit] => [charOf unit]
  | high :: low :: units =>
    if 0xD800 ≤ high ∧ high < 0xDC00 ∧ 0xDC00 ≤ low ∧ low < 0xE000 then
      Char.ofNat (0x10000 + (high - 0xD800) * 0x400 + (low - 0xDC00)) :: joinUnits units
    else charOf high :: joinUnits (low :: units)
where
  charOf (unit : Nat) : Char :=
    if 0xD800 ≤ unit ∧ unit < 0xE000 then Char.ofNat 0xFFFD else Char.ofNat unit

/-- A string behind its opening quote. -/
def string : Reader String := fun cs => do
  let (units, rest) ← stringUnits cs
  return (String.ofList (joinUnits units), rest)

def natOf (digits : List Char) : Nat := digits.foldl (fun n c => n * 10 + (c.toNat - '0'.toNat)) 0

/-- The text behind digits, when there are any. -/
def digits? (cs : List Char) : Option (List Char) :=
  if cs.takeWhile Char.isDigit = [] then none else some (cs.dropWhile Char.isDigit)

/-- The text behind the digits of an integer without superfluous zeros. -/
def integer (cs : List Char) : Option (List Char) :=
  match cs with
  | '0' :: rest => some rest
  | _ => digits? cs

def fraction (cs : List Char) : List Char :=
  match cs with
  | '.' :: rest => (digits? rest).getD cs
  | _ => cs

def skipSign (cs : List Char) : List Char :=
  match cs with
  | '+' :: rest => rest
  | '-' :: rest => rest
  | _ => cs

def exponent (cs : List Char) : List Char :=
  match cs with
  | e :: rest => if e = 'e' ∨ e = 'E' then (digits? (skipSign rest)).getD cs else cs
  | [] => cs

/-- A number. A float keeps its literal. -/
def number : Reader Value := fun cs => do
  let body := if cs.head? = some '-' then cs.tail else cs
  let behind ← integer body
  let rest := exponent (fraction behind)
  if rest.length = behind.length then
    let n : Int := natOf (body.take (body.length - behind.length))
    return (.int (if cs.head? = some '-' then -n else n), rest)
  else return (.float (String.ofList (cs.take (cs.length - rest.length))), rest)

/-- A literal word. -/
def word (w : String) (v : Value) : Reader Value := fun cs =>
  if w.toList.isPrefixOf cs then some (v, cs.drop w.toList.length) else none

/-- The items of an array that is not empty; the number bounds how many there can be. -/
def items (value : Reader Value) : Nat → Reader (List Value)
  | 0, _ => none
  | n + 1, cs => do
    let (v, rest) ← value (skipSpace cs)
    match skipSpace rest with
    | ']' :: rest => return ([v], rest)
    | ',' :: rest => do
      let (vs, rest) ← items value n rest
      return (v :: vs, rest)
    | _ => none

/-- The members of an object that is not empty. -/
def members (value : Reader Value) : Nat → Reader (List (String × Value))
  | 0, _ => none
  | n + 1, cs => do
    match skipSpace cs with
    | '"' :: rest => do
      let (key, rest) ← string rest
      match skipSpace rest with
      | ':' :: rest => do
        let (v, rest) ← value (skipSpace rest)
        match skipSpace rest with
        | '}' :: rest => return ([(key, v)], rest)
        | ',' :: rest => do
          let (entries, rest) ← members value n rest
          return ((key, v) :: entries, rest)
        | _ => none
      | _ => none
    | _ => none

/-- The last entry of a key counts. -/
def dictOf (entries : List (String × Value)) : Dict :=
  entries.foldl (fun d entry => Dict.set d entry.1 entry.2) []

/-- The literal words. -/
def words : List (String × Value) :=
  [("null", .null), ("true", .bool true), ("false", .bool false), ("NaN", .float "NaN"),
    ("Infinity", .float "Infinity"), ("-Infinity", .float "-Infinity")]

/-- A value, in which arrays and objects nest at most as often as the number says. -/
def value : Nat → Reader Value
  | 0, _ => none
  | _ + 1, [] => none
  | n + 1, c :: cs =>
    if c = '"' then do
      let (s, rest) ← string cs
      return (.str s, rest)
    else if c = '[' then
      match skipSpace cs with
      | ']' :: rest => some (.list [], rest)
      | _ => do
        let (vs, rest) ← items (value n) cs.length cs
        return (.list vs, rest)
    else if c = '{' then
      match skipSpace cs with
      | '}' :: rest => some (.dict [], rest)
      | _ => do
        let (entries, rest) ← members (value n) cs.length cs
        return (.dict (dictOf entries), rest)
    else (words.findSome? fun w => word w.1 w.2 (c :: cs)) <|> number (c :: cs)

/-- `json.loads(text)`; `none` is a `JSONDecodeError`. -/
def loads (text : String) : Option Value :=
  match value (text.toList.length + 1) (skipSpace text.toList) with
  | some (v, rest) => if skipSpace rest = [] then some v else none
  | none => none

variable {cs rest : List Char} {units : List Nat} {v : Value} {vs : List Value}
  {entries : List (String × Value)} {n : Nat}

theorem length_skipSpace (cs : List Char) : (skipSpace cs).length ≤ cs.length :=
  List.length_dropWhile_le _ _

theorem length_stringUnits (h : stringUnits cs = some (units, rest)) :
    units.length + rest.length < cs.length := by
  fun_induction stringUnits cs generalizing units rest with
  | case1 => cases h
  | case2 cs =>
    cases h
    simp
  | case3 a b x y cs _ ih =>
    obtain ⟨unit, _, h⟩ := Option.bind_eq_some_iff.mp h
    obtain ⟨⟨units', rest'⟩, hread, h⟩ := Option.bind_eq_some_iff.mp h
    cases h
    have hlen := ih hread
    simp only [List.length_cons]
    omega
  | case4 e cs _ _ ih =>
    obtain ⟨unit, _, h⟩ := Option.bind_eq_some_iff.mp h
    obtain ⟨⟨units', rest'⟩, hread, h⟩ := Option.bind_eq_some_iff.mp h
    cases h
    have hlen := ih hread
    simp only [List.length_cons]
    omega
  | case5 => cases h
  | case6 => cases h
  | case7 c cs _ _ _ ih =>
    obtain ⟨⟨units', rest'⟩, hread, h⟩ := Option.bind_eq_some_iff.mp h
    cases h
    have hlen := ih hread
    simp only [List.length_cons]
    omega

theorem length_joinUnits (units : List Nat) : (joinUnits units).length ≤ units.length := by
  fun_induction joinUnits units with
  | case1 => simp
  | case2 => simp
  | case3 high low units _ ih =>
    simp only [List.length_cons]
    omega
  | case4 high low units _ ih =>
    simp only [List.length_cons] at ih ⊢
    omega

/-- A string takes at least a character for each of its own, and the closing quote. -/
theorem length_string {s : String} (h : string cs = some (s, rest)) :
    s.toList.length + rest.length < cs.length := by
  obtain ⟨⟨units, rest'⟩, hu, h⟩ := Option.bind_eq_some_iff.mp h
  cases h
  have hunits := length_stringUnits hu
  have hjoin := length_joinUnits units
  simp only [String.toList_ofList]
  omega

theorem dictWeight_foldl (entries : List (String × Value)) (d : Dict) :
    Value.dictWeight (entries.foldl (fun d entry => Dict.set d entry.1 entry.2) d) ≤
      Value.dictWeight d + Value.dictWeight entries := by
  induction entries generalizing d with
  | nil => simp [Value.dictWeight]
  | cons entry entries ih =>
    have hset := Value.dictWeight_set d entry.1 entry.2
    have hrest := ih (Dict.set d entry.1 entry.2)
    rw [List.foldl_cons]
    simp only [Value.dictWeight]
    omega

theorem dictWeight_dictOf (entries : List (String × Value)) :
    Value.dictWeight (dictOf entries) ≤ Value.dictWeight entries := by
  have hfold := dictWeight_foldl entries []
  rwa [Value.dictWeight, Nat.zero_add] at hfold

theorem length_digits? (h : digits? cs = some rest) : rest.length < cs.length := by
  unfold digits? at h
  split at h
  · cases h
  · next hne =>
    cases h
    have hsplit := congrArg List.length (List.takeWhile_append_dropWhile (p := Char.isDigit) (l := cs))
    have hpos := List.length_pos_iff.mpr hne
    rw [List.length_append] at hsplit
    omega

theorem length_integer (h : integer cs = some rest) : rest.length < cs.length := by
  unfold integer at h
  split at h
  · cases h
    simp
  · exact length_digits? h

theorem length_fraction (cs : List Char) : (fraction cs).length ≤ cs.length := by
  unfold fraction
  split
  · next rest =>
    cases hd : digits? rest with
    | none => exact le_rfl
    | some rest' =>
      have hlen := length_digits? hd
      simp only [Option.getD_some, List.length_cons]
      omega
  · exact le_rfl

theorem length_skipSign (cs : List Char) : (skipSign cs).length ≤ cs.length := by
  unfold skipSign
  split <;> simp

theorem length_exponent (cs : List Char) : (exponent cs).length ≤ cs.length := by
  unfold exponent
  split
  · next e rest =>
    split
    · cases hd : digits? (skipSign rest) with
      | none => exact le_rfl
      | some rest' =>
        have hlen := length_digits? hd
        have hsign := length_skipSign rest
        simp only [Option.getD_some, List.length_cons]
        omega
    · exact le_rfl
  · exact le_rfl

theorem length_word {w : String} (hw : w.toList ≠ []) {u : Value} (h : word w u cs = some (v, rest)) :
    v = u ∧ rest.length < cs.length := by
  unfold word at h
  split at h
  · next hpre =>
    cases h
    have hlen := (List.isPrefixOf_iff_prefix.mp hpre).length_le
    have hpos := List.length_pos_iff.mpr hw
    refine ⟨rfl, ?_⟩
    rw [List.length_drop]
    omega
  · cases h

theorem weight_number (h : number cs = some (v, rest)) :
    v.weight = 1 ∧ rest.length < cs.length := by
  obtain ⟨behind, hint, h⟩ := Option.bind_eq_some_iff.mp h
  have hlen := length_integer hint
  have hbody : (if cs.head? = some '-' then cs.tail else cs).length ≤ cs.length := by
    split
    · exact (List.tail_sublist cs).length_le
    · exact le_rfl
  have hfraction := length_fraction behind
  have hexponent := length_exponent (fraction behind)
  by_cases hsame : (exponent (fraction behind)).length = behind.length
  · rw [if_pos hsame] at h
    cases h
    exact ⟨rfl, by omega⟩
  · rw [if_neg hsame] at h
    cases h
    exact ⟨rfl, by omega⟩

theorem words_weight : ∀ w ∈ words, w.1.toList ≠ [] ∧ w.2.weight = 1 := by
  simp [words, Value.weight]

/-- A reader whose values cost at least their weight. -/
def Costs (value : Reader Value) : Prop :=
  ∀ cs v rest, value cs = some (v, rest) → v.weight + rest.length ≤ cs.length

theorem weight_items {value : Reader Value} (hv : Costs value)
    (h : items value n cs = some (vs, rest)) : Value.listWeight vs + rest.length < cs.length := by
  induction n generalizing cs vs rest with
  | zero => cases h
  | succ n ih =>
    obtain ⟨⟨v, rest₁⟩, hread, h⟩ := Option.bind_eq_some_iff.mp h
    have hcost := hv _ _ _ hread
    have hspace := length_skipSpace cs
    have hspace₁ := length_skipSpace rest₁
    simp only at h
    split at h
    · next rest₂ he =>
      cases h
      rw [he] at hspace₁
      simp only [Value.listWeight, List.length_cons] at hspace₁ ⊢
      omega
    · next rest₂ he =>
      obtain ⟨⟨vs', rest₃⟩, hrest, h⟩ := Option.bind_eq_some_iff.mp h
      cases h
      have hih := ih hrest
      rw [he] at hspace₁
      simp only [Value.listWeight, List.length_cons] at hspace₁ ⊢
      omega
    · cases h

theorem weight_members {value : Reader Value} (hv : Costs value)
    (h : members value n cs = some (entries, rest)) :
    Value.dictWeight entries + rest.length < cs.length := by
  induction n generalizing cs entries rest with
  | zero => cases h
  | succ n ih =>
    rw [members] at h
    have hspace := length_skipSpace cs
    split at h
    · next rest₀ he₀ =>
      obtain ⟨⟨key, rest₁⟩, hkey, h⟩ := Option.bind_eq_some_iff.mp h
      have hlen := length_string hkey
      have hspace₁ := length_skipSpace rest₁
      rw [he₀] at hspace
      simp only at h
      split at h
      · next rest₂ he₁ =>
        obtain ⟨⟨v, rest₃⟩, hread, h⟩ := Option.bind_eq_some_iff.mp h
        have hcost := hv _ _ _ hread
        have hspace₂ := length_skipSpace rest₂
        have hspace₃ := length_skipSpace rest₃
        rw [he₁] at hspace₁
        simp only at h
        split at h
        · next rest₄ he₃ =>
          cases h
          rw [he₃] at hspace₃
          simp only [Value.dictWeight, List.length_cons] at hspace hspace₁ hspace₃ ⊢
          omega
        · next rest₄ he₃ =>
          obtain ⟨⟨entries', rest₅⟩, hrest, h⟩ := Option.bind_eq_some_iff.mp h
          cases h
          have hih := ih hrest
          rw [he₃] at hspace₃
          simp only [Value.dictWeight, List.length_cons] at hspace hspace₁ hspace₃ ⊢
          omega
        · cases h
      · cases h
    · cases h

/-- A value costs at least its weight. -/
theorem costs_value (n : Nat) : Costs (value n) := by
  induction n with
  | zero =>
    intro cs v rest h
    cases h
  | succ n ih =>
    intro cs v rest h
    cases cs with
    | nil => cases h
    | cons c cs =>
      rw [value] at h
      have hspace := length_skipSpace cs
      split at h
      · obtain ⟨⟨s, rest'⟩, hread, h⟩ := Option.bind_eq_some_iff.mp h
        cases h
        have hlen := length_string hread
        simp only [Value.weight, List.length_cons]
        omega
      split at h
      · split at h
        · next rest' he =>
          cases h
          rw [he] at hspace
          simp only [Value.weight, Value.listWeight, List.length_cons] at hspace ⊢
          omega
        · obtain ⟨⟨vs, rest'⟩, hread, h⟩ := Option.bind_eq_some_iff.mp h
          cases h
          have hcost := weight_items ih hread
          simp only [Value.weight, List.length_cons]
          omega
      split at h
      · split at h
        · next rest' he =>
          cases h
          rw [he] at hspace
          simp only [Value.weight, Value.dictWeight, List.length_cons] at hspace ⊢
          omega
        · obtain ⟨⟨entries, rest'⟩, hread, h⟩ := Option.bind_eq_some_iff.mp h
          cases h
          have hcost := weight_members ih hread
          have hdict := dictWeight_dictOf entries
          simp only [Value.weight, List.length_cons]
          omega
      · -- the words and the numbers weigh one
        have hone : v.weight = 1 ∧ rest.length < (c :: cs).length := by
          rw [Option.orElse_eq_orElse, Option.orElse_eq_or, Option.or_eq_some_iff] at h
          rcases h with h | ⟨_, h⟩
          · obtain ⟨w, hw, hread⟩ := List.exists_of_findSome?_eq_some h
            obtain ⟨hne, hweight⟩ := words_weight w hw
            obtain ⟨rfl, hlt⟩ := length_word hne hread
            exact ⟨hweight, hlt⟩
          · exact weight_number h
        omega

/-- What is read from a text weighs no more than the text is long. -/
theorem weight_loads {text : String} (h : loads text = some v) : v.weight ≤ text.toList.length := by
  unfold loads at h
  split at h
  · next v' rest hread =>
    split at h
    · cases h
      have hcost := costs_value _ _ _ _ hread
      have hspace := length_skipSpace text.toList
      omega
    · cases h
  · cases h

end Library.Json
