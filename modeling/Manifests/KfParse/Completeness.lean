import Manifests.KfParse
import Mathlib.Logic.Relation

/-! Which images the extraction finds, and when it finds those of all objects. -/
namespace Manifests.KfParse
open Library Relation

/-- An object occurs in a value: in its objects and arrays at any depth, and likewise in the
objects that its strings are texts of. -/
inductive ObjectIn : Value → Dict → Prop where
  | here {d : Dict} : ObjectIn (.dict d) d
  | member {d o : Dict} {k : String} {v : Value} (h : (k, v) ∈ d) (ho : ObjectIn v o) :
      ObjectIn (.dict d) o
  | item {vs : List Value} {v : Value} {o : Dict} (h : v ∈ vs) (ho : ObjectIn v o) :
      ObjectIn (.list vs) o
  | text {s : String} {d o : Dict} (h : Json.loads s = some (.dict d)) (ho : ObjectIn (.dict d) o) :
      ObjectIn (.str s) o

/-- The objects that one call looks at: its own, and the objects that are values of its keys. -/
def Near (d f : Dict) : Prop := f = d ∨ ∃ k, (k, .dict f) ∈ d

/-- The text of a string is parsed, and found to be an object. -/
def Embeds (s : String) (e : Dict) : Prop :=
  Text.contains imageKey s = true ∧ Json.loads s = some (.dict e)

/-- The text of a string is no JSON, and its line `image:` is taken. -/
def YamlText (s r : String) : Prop :=
  Text.contains imageKey s = true ∧ Json.loads s = none ∧ yamlImage s = some r

/-- The objects on which a call for `d` calls again: the objects in an array of `d`, those that are
values in a value of `d`, and those in the text of a string that is not an image. -/
inductive Child (d : Dict) : Dict → Prop where
  | item {k : String} {vs : List Value} {e : Dict} (h : (k, .list vs) ∈ d) (he : .dict e ∈ vs) :
      Child d e
  | nested {k k' : String} {f e : Dict} (h : (k, .dict f) ∈ d) (he : (k', .dict e) ∈ f) : Child d e
  | text {f e : Dict} {k s : String} (hf : Near d f) (h : (k, .str s) ∈ f) (hk : k ≠ "image")
      (he : Embeds s e) : Child d e

/-- What a call finds by itself, where `none` is the exception: an image of an object it looks at,
a line of a YAML text, and the type error for an image of a nested object that is neither a string nor
an object. -/
inductive Finds (format : Value → String) (d : Dict) : Option String → Prop where
  | image {f : Dict} {v r : String} (hf : Near d f) (h : ("image", .str v) ∈ f)
      (hr : r ∈ withTag format f v) : Finds format d (some r)
  | yaml {f : Dict} {k s r : String} (hf : Near d f) (h : (k, .str s) ∈ f) (hk : k ≠ "image")
      (hr : YamlText s r) : Finds format d (some r)
  | illTyped {k : String} {f : Dict} {v : Value} (hf : (k, .dict f) ∈ d) (h : ("image", v) ∈ f)
      (hs : ∀ s, v ≠ .str s) (hd : ∀ e, v ≠ .dict e) : Finds format d none

/-- What the calls find that follow from one for `d`. -/
def Reaches (format : Value → String) (d : Dict) (found : Option String) : Prop :=
  ∃ e, ReflTransGen Child d e ∧ Finds format e found

/-- A computation raises the type error if `none` is found, and else returns what is found. -/
structure Gives (result : Except Failure (List String)) (found : Option String → Prop) : Prop where
  raises : found none → result = .error .typeError
  returns : ¬ found none → ∃ images, result = .ok images ∧ ∀ r, r ∈ images ↔ found (some r)

variable {format : Value → String} {d e f o : Dict} {k s r : String} {v : Value} {vs : List Value}
  {result : Except Failure (List String)} {P Q : Option String → Prop}

theorem gives_congr (h : Gives result P) (hpq : ∀ x, P x ↔ Q x) : Gives result Q := by
  obtain rfl : P = Q := funext fun x => propext (hpq x)
  exact h

theorem gives_ok (images : List String) : Gives (.ok images) fun x => ∃ r ∈ images, x = some r := by
  constructor
  · rintro ⟨r, _, h⟩
    cases h
  · intro _
    exact ⟨images, rfl, by simp⟩

theorem gives_collect {α : Type} {g : α → Except Failure (List String)} {as : List α}
    {P : α → Option String → Prop} (h : ∀ a ∈ as, Gives (g a) (P a)) :
    Gives (collect g as) fun x => ∃ a ∈ as, P a x := by
  induction as with
  | nil => exact gives_congr (gives_ok []) (by simp)
  | cons a as ih =>
    have ha := h a List.mem_cons_self
    have has := ih fun b hb => h b (List.mem_cons_of_mem _ hb)
    rw [collect]
    by_cases hn : P a none
    · constructor
      · intro _
        rw [ha.raises hn]
        rfl
      · intro hnone
        exact (hnone ⟨a, List.mem_cons_self, hn⟩).elim
    · obtain ⟨images, hg, himages⟩ := ha.returns hn
      rw [hg]
      constructor
      · rintro ⟨b, hb, hbn⟩
        obtain rfl | hb := List.mem_cons.mp hb
        · exact (hn hbn).elim
        · rw [has.raises ⟨b, hb, hbn⟩]
          rfl
      · intro hnone
        obtain ⟨rest, hc, hrest⟩ := has.returns fun ⟨b, hb, hbn⟩ =>
          hnone ⟨b, List.mem_cons_of_mem _ hb, hbn⟩
        rw [hc]
        refine ⟨images ++ rest, rfl, fun r => ?_⟩
        rw [List.mem_append, himages, hrest]
        simp

theorem reaches_iff {x : Option String} :
    Reaches format d x ↔ Finds format d x ∨ ∃ e, Child d e ∧ Reaches format e x := by
  constructor
  · rintro ⟨e, hpath, hfinds⟩
    obtain rfl | ⟨c, hchild, hpath⟩ := hpath.cases_head
    · exact Or.inl hfinds
    · exact Or.inr ⟨c, hchild, e, hpath, hfinds⟩
  · rintro (hfinds | ⟨c, hchild, e, hpath, hfinds⟩)
    · exact ⟨d, .refl, hfinds⟩
    · exact ⟨e, .head hchild hpath, hfinds⟩

section
variable (format)

/-- What a string of `f` under the key `k` gives. -/
def StringGives (f : Dict) (k s : String) (x : Option String) : Prop :=
  (k = "image" ∧ ∃ r ∈ withTag format f s, x = some r) ∨
    (k ≠ "image" ∧ ((∃ e, Embeds s e ∧ Reaches format e x) ∨ ∃ r, YamlText s r ∧ x = some r))

/-- What an entry of a nested object gives. -/
def NestedGives (f : Dict) (entry : String × Value) (x : Option String) : Prop :=
  match entry.2 with
  | .dict e => Reaches format e x
  | .str s => StringGives format f entry.1 s x
  | _ => entry.1 = "image" ∧ x = none

/-- What an entry of the object of a call gives. -/
def EntryGives (d : Dict) (entry : String × Value) (x : Option String) : Prop :=
  match entry.2 with
  | .list vs => ∃ v ∈ vs, ∃ e, v = .dict e ∧ Reaches format e x
  | .dict f => ∃ entry ∈ f, NestedGives format f entry x
  | .str s => StringGives format d entry.1 s x
  | _ => False

end

/-- A limit that is enough for the objects a call goes on to. -/
def Enough (format : Value → String) (extract : Value → Except Failure (List String)) (e : Dict) :
    Prop :=
  Gives (extract (.dict e)) (Reaches format e)

variable {extract : Value → Except Failure (List String)}

theorem gives_string (h : ∀ e, k ≠ "image" → Embeds s e → Enough format extract e) :
    Gives (if k = "image" then concatImageNameWithTag format f (.str s)
      else parseJsonImages extract imageKey (.str s)) (StringGives format f k s) := by
  by_cases hk : k = "image"
  · rw [if_pos hk]
    exact gives_congr (gives_ok _) (by simp [StringGives, hk])
  · rw [if_neg hk, parseJsonImages]
    by_cases hc : Text.contains imageKey s = true
    · rw [if_pos hc]
      cases hl : Json.loads s with
      | none =>
        refine gives_congr (gives_ok _) fun x => ?_
        simp [StringGives, hk, Embeds, YamlText, hc, hl]
      | some v =>
        cases v with
        | dict e =>
          refine gives_congr (h e hk ⟨hc, hl⟩) fun x => ?_
          simp [StringGives, hk, Embeds, YamlText, hc, hl]
        | _ => exact gives_congr (gives_ok []) (by simp [StringGives, hk, Embeds, YamlText, hl])
    · rw [if_neg hc]
      exact gives_congr (gives_ok []) (by simp [StringGives, hk, Embeds, YamlText, hc])

theorem gives_illTyped (k : String) :
    Gives (if k = "image" then .error .typeError else .ok []) fun x => k = "image" ∧ x = none := by
  by_cases hk : k = "image"
  · rw [if_pos hk]
    exact ⟨fun _ => rfl, fun hn => (hn ⟨hk, rfl⟩).elim⟩
  · rw [if_neg hk]
    exact gives_congr (gives_ok []) (by simp [hk])

theorem gives_nested (entry : String × Value) (hd : ∀ e, entry.2 = .dict e → Enough format extract e)
    (hs : ∀ s e, entry.2 = .str s → entry.1 ≠ "image" → Embeds s e → Enough format extract e) :
    Gives (nestedImages format extract f entry) (NestedGives format f entry) := by
  obtain ⟨k, v⟩ := entry
  cases v with
  | dict e => exact hd e rfl
  | str s => exact gives_string fun e => hs s e rfl
  | _ => exact gives_illTyped k

theorem finds_of_string {x : Option String} (hf : Near d f) (h : (k, .str s) ∈ f)
    (hx : StringGives format f k s x) :
    Finds format d x ∨ ∃ e, Child d e ∧ Reaches format e x := by
  rcases hx with ⟨rfl, r, hr, rfl⟩ | ⟨hk, ⟨e, he, hx⟩ | ⟨r, hr, rfl⟩⟩
  · exact Or.inl (.image hf h hr)
  · exact Or.inr ⟨e, .text hf h hk he, hx⟩
  · exact Or.inl (.yaml hf h hk hr)

theorem entryGives_of_string {x : Option String} (hf : Near d f) (h : (k, .str s) ∈ f)
    (hx : StringGives format f k s x) : ∃ entry ∈ d, EntryGives format d entry x := by
  obtain rfl | ⟨k', hf⟩ := hf
  · exact ⟨(k, .str s), h, hx⟩
  · exact ⟨(k', .dict f), hf, (k, .str s), h, hx⟩

/-- A call finds what it finds by itself, and what the calls find that it makes. -/
theorem entryGives_iff {x : Option String} :
    (∃ entry ∈ d, EntryGives format d entry x) ↔ Reaches format d x := by
  rw [reaches_iff]
  constructor
  · rintro ⟨⟨k, v⟩, hentry, hx⟩
    cases v with
    | list vs =>
      obtain ⟨v, hv, e, rfl, hx⟩ := hx
      exact Or.inr ⟨e, .item hentry hv, hx⟩
    | dict f =>
      obtain ⟨⟨k', v'⟩, hentry', hx⟩ := hx
      cases v' with
      | dict e => exact Or.inr ⟨e, .nested hentry hentry', hx⟩
      | str s => exact finds_of_string (Or.inr ⟨k, hentry⟩) hentry' hx
      | _ =>
        obtain ⟨rfl, rfl⟩ := hx
        exact Or.inl (.illTyped hentry hentry' nofun nofun)
    | str s => exact finds_of_string (Or.inl rfl) hentry hx
    | _ => cases hx
  · rintro (hfinds | ⟨e, hchild, hx⟩)
    · cases hfinds with
      | image hf h hr => exact entryGives_of_string hf h (Or.inl ⟨rfl, _, hr, rfl⟩)
      | yaml hf h hk hr => exact entryGives_of_string hf h (Or.inr ⟨hk, Or.inr ⟨_, hr, rfl⟩⟩)
      | @illTyped k f v hf h hs hd =>
        refine ⟨(k, .dict f), hf, ("image", v), h, ?_⟩
        cases v with
        | str s => exact (hs s rfl).elim
        | dict e => exact (hd e rfl).elim
        | _ => exact ⟨rfl, rfl⟩
    · cases hchild with
      | item h he => exact ⟨_, h, _, he, e, rfl, hx⟩
      | nested h he => exact ⟨_, h, _, he, hx⟩
      | text hf h hk he => exact entryGives_of_string hf h (Or.inr ⟨hk, Or.inl ⟨e, he, hx⟩⟩)

/-- The calls that a call makes are for values of a smaller weight. -/
theorem weight_child (h : Child d e) : (Value.dict e).weight ≤ Value.dictWeight d := by
  have htext : ∀ {f : Dict} {k s : String}, (k, .str s) ∈ f → Embeds s e →
      (Value.dict e).weight ≤ Value.dictWeight f := by
    intro f k s hs he
    have hloads := Json.weight_loads he.2
    have hmem := Value.weight_le_dictWeight hs
    rw [Value.weight] at hmem
    omega
  cases h with
  | item h he =>
    have hlist := Value.weight_le_listWeight he
    have hmem := Value.weight_le_dictWeight h
    simp only [Value.weight] at hmem hlist ⊢
    omega
  | nested h he =>
    have hin := Value.weight_le_dictWeight he
    have hmem := Value.weight_le_dictWeight h
    simp only [Value.weight] at hmem hin ⊢
    omega
  | text hf h _ he =>
    obtain rfl | ⟨k', hf⟩ := hf
    · exact htext h he
    · have hin := htext h he
      have hmem := Value.weight_le_dictWeight hf
      simp only [Value.weight] at hmem hin ⊢
      omega

/-- With a limit of at least the weight of an object, the extraction raises or returns exactly what
its calls find. -/
theorem gives_extract (format : Value → String) (limit : Nat) (d : Dict)
    (h : (Value.dict d).weight ≤ limit) :
    Gives (extractImagesRecursively format limit (.dict d)) (Reaches format d) := by
  induction limit generalizing d with
  | zero =>
    have hpos := Value.weight_pos (.dict d)
    omega
  | succ limit ih =>
    have hd : Value.dictWeight d ≤ limit := by
      rw [Value.weight] at h
      omega
    have hchild : ∀ e, Child d e → Enough format (extractImagesRecursively format limit) e :=
      fun e he => ih e ((weight_child he).trans hd)
    rw [extractImagesRecursively]
    refine gives_congr (gives_collect fun entry hentry => ?_) fun _ => entryGives_iff
    obtain ⟨k, v⟩ := entry
    cases v with
    | list vs =>
      refine gives_collect fun v hv => ?_
      cases v with
      | dict e => exact gives_congr (hchild e (.item hentry hv)) (by simp)
      | _ =>
        -- the array has an item, so that the limit allows the call for it
        have hitem := Value.weight_le_listWeight hv
        have hlist := Value.weight_le_dictWeight hentry
        simp only [Value.weight] at hitem hlist
        obtain ⟨m, rfl⟩ : ∃ m, limit = m + 1 := Nat.exists_eq_succ_of_ne_zero (by omega)
        exact gives_congr (gives_ok []) (by simp)
    | dict f =>
      refine gives_collect fun entry' hentry' => gives_nested entry' ?_ ?_
      · rintro e he
        obtain ⟨k', v'⟩ := entry'
        cases he
        exact hchild e (.nested hentry hentry')
      · rintro s e he hk hs
        obtain ⟨k', v'⟩ := entry'
        cases he
        exact hchild e (.text (Or.inr ⟨k, hentry⟩) hentry' hk hs)
    | str s => exact gives_string fun e hk he => hchild e (.text (Or.inl rfl) hentry hk he)
    | _ => exact gives_congr (gives_ok []) (by simp [EntryGives])

/-- The strings that an object with the image `v` asks for. -/
def required (format : Value → String) (o : Dict) (v : String) : List String :=
  if Text.contains ":" v then [v]
  else
    match defaultVersions o with
    | [] => [v]
    | versions => versions.map fun version => v ++ ":" ++ format version

/-- With a limit that is large enough, the extraction returns the strings of all objects that occur
in the document. -/
def Complete (format : Value → String) (d : Dict) : Prop :=
  ∀ limit, (Value.dict d).weight ≤ limit → ∀ o v, ObjectIn (.dict d) o → ("image", .str v) ∈ o →
    ∃ images, extractImagesRecursively format limit (.dict d) = .ok images ∧
      ∀ r ∈ required format o v, r ∈ images

/-- Where an object with an image occurs, the calls raise nothing and find its strings. -/
def Covered (format : Value → String) (d : Dict) : Prop :=
  ∀ o v, ObjectIn (.dict d) o → ("image", .str v) ∈ o →
    ¬ Reaches format d none ∧ ∀ r ∈ required format o v, Reaches format d (some r)

/-- The extraction is complete for exactly the documents whose images its calls cover. -/
theorem complete_iff_covered (format : Value → String) (d : Dict) :
    Complete format d ↔ Covered format d := by
  constructor
  · intro hcomplete o v ho hv
    have hgives := gives_extract format _ d le_rfl
    obtain ⟨images, hextract, himages⟩ := hcomplete _ le_rfl o v ho hv
    have hnone : ¬ Reaches format d none := by
      intro hraise
      rw [hgives.raises hraise] at hextract
      cases hextract
    obtain ⟨images', hextract', hiff⟩ := hgives.returns hnone
    rw [hextract'] at hextract
    cases hextract
    exact ⟨hnone, fun r hr => (hiff r).mp (himages r hr)⟩
  · intro hcovered limit hlimit o v ho hv
    obtain ⟨hnone, hfound⟩ := hcovered o v ho hv
    obtain ⟨images, hextract, hiff⟩ := (gives_extract format limit d hlimit).returns hnone
    exact ⟨images, hextract, fun r hr => (hiff r).mpr (hfound r hr)⟩

/-- An object with an image, in an array of a nested object. -/
def arrayInNested : Dict := [("a", .dict [("b", .list [.dict [("image", .str "x:1")]])])]

/-- An array of a nested object is passed over. -/
theorem not_complete_nested_array : ¬ ∀ format d, Complete format d := by
  intro h
  have hin : ObjectIn (.dict arrayInNested) [("image", .str "x:1")] :=
    .member List.mem_cons_self (.member List.mem_cons_self (.item List.mem_cons_self .here))
  have hnone : extractImagesRecursively (fun _ => "") (Value.dict arrayInNested).weight
      (.dict arrayInNested) = .ok [] := by decide +kernel
  obtain ⟨images, hextract, himages⟩ := h (fun _ => "") _ _ le_rfl _ _ hin List.mem_cons_self
  rw [hnone] at hextract
  cases hextract
  exact List.not_mem_nil (himages "x:1" (by decide +kernel))

end Manifests.KfParse
