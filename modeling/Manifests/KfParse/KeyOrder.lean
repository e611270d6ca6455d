import Manifests.KfParse.SideBySide
import Mathlib.Logic.Relation

/-! The order of the keys of a document, and what the extraction returns. -/
namespace Manifests.KfParse
open Library Relation

/-- The keys whose values are printed into images. -/
def versionKeys : List String := ["defaultImageVersion", "defaultGpuImageVersion"]

/-- One object of a value has its distinct keys in another order. Where it stands in a default version,
`keeps` is required of the version. -/
inductive Swapped (keeps : Value → Value → Prop) : Value → Value → Prop where
  | here {d e : Dict} (hn : (d.map Prod.fst).Nodup) (hp : d.Perm e) :
      Swapped keeps (.dict d) (.dict e)
  | member {d e : Dict} {k : String} {v w : Value} (h : Swapped keeps v w)
      (hk : k ∈ versionKeys → keeps v w) :
      Swapped keeps (.dict (d ++ (k, v) :: e)) (.dict (d ++ (k, w) :: e))
  | item {vs ws : List Value} {v w : Value} (h : Swapped keeps v w) :
      Swapped keeps (.list (vs ++ v :: ws)) (.list (vs ++ w :: ws))

/-- Any of the objects have their keys in another order. -/
def Reordered (keeps : Value → Value → Prop) : Value → Value → Prop := ReflTransGen (Swapped keeps)

/-- The document is free to be in any order of keys. -/
def AnyOrder : Value → Value → Prop := Reordered fun _ _ => True

/-- The order of keys stays as it is where a default version is printed with it. -/
def SameVersions (format : Value → String) : Value → Value → Prop :=
  Reordered fun v w => format v = format w

/-- Both results are exceptions, or both are lists with the same strings, each as often. -/
inductive Agree : Except Failure (List String) → Except Failure (List String) → Prop where
  | ok {images images' : List String} (h : images.Perm images') : Agree (.ok images) (.ok images')
  | error {e e' : Failure} : Agree (.error e) (.error e')

def Raises (result : Except Failure (List String)) : Prop := ∃ e, result = .error e

/-- Both results are exceptions, or both are lists. -/
def SameEnd (result result' : Except Failure (List String)) : Prop := Raises result ↔ Raises result'

variable {keeps : Value → Value → Prop} {format format' : Value → String} {v w : Value}
  {d e inpDict inpDict' : Dict} {k : String} {limit : Nat}
  {extract extract' : Value → Except Failure (List String)}
  {result result' result'' first rest : Except Failure (List String)}

theorem agree_refl (result : Except Failure (List String)) : Agree result result := by
  cases result with
  | ok images => exact .ok (List.Perm.refl _)
  | error e => exact .error

theorem agree_trans (h : Agree result result') (h' : Agree result' result'') :
    Agree result result'' := by
  cases h with
  | ok h =>
    cases h' with
    | ok h' => exact .ok (h.trans h')
  | error =>
    cases h' with
    | error => exact .error

theorem agree_append {first' rest' : Except Failure (List String)} (h : Agree first first')
    (h' : Agree rest rest') : Agree (do return (← first) ++ (← rest))
      (do return (← first') ++ (← rest')) := by
  cases h with
  | ok h =>
    cases h' with
    | ok h' => exact .ok (h.append h')
    | error => exact .error
  | error => exact .error

theorem respected_agree : Respected Agree := ⟨agree_refl, agree_append⟩

theorem agree_collect_swap {α : Type} (g : α → Except Failure (List String)) (a b : α)
    (as : List α) : Agree (collect g (a :: b :: as)) (collect g (b :: a :: as)) := by
  simp only [collect]
  cases g a with
  | error e =>
    cases g b with
    | error e' => exact .error
    | ok images' => exact .error
  | ok images =>
    cases g b with
    | error e' => exact .error
    | ok images' =>
      cases collect g as with
      | error e'' => exact .error
      | ok images'' =>
        refine .ok ?_
        rw [← List.append_assoc, ← List.append_assoc]
        exact List.perm_append_comm.append_right _

theorem agree_collect_perm {α : Type} {g : α → Except Failure (List String)} {as bs : List α}
    (h : as.Perm bs) : Agree (collect g as) (collect g bs) := by
  induction h with
  | nil => exact agree_refl _
  | cons a _ ih => exact agree_append (agree_refl _) ih
  | swap a b as => exact agree_collect_swap g b a as
  | trans _ _ ih ih' => exact agree_trans ih ih'

/-- The loops may go through another list, in which one entry gives another result. -/
theorem agree_collect_at {α : Type} {g g' : α → Except Failure (List String)} {as bs : List α}
    {a a' : α} (h : ∀ x, Agree (g x) (g' x)) (ha : Agree (g a) (g' a')) :
    Agree (collect g (as ++ a :: bs)) (collect g' (as ++ a' :: bs)) := by
  induction as with
  | nil => exact agree_append ha (rel_collect respected_agree fun x _ => h x)
  | cons x as ih => exact agree_append (h x) ih

/-- The images of an object only depend on how its default versions are printed. -/
theorem withTag_congr
    (h : (defaultVersions inpDict).map format = (defaultVersions inpDict').map format) (s : String) :
    withTag format inpDict s = withTag format inpDict' s := by
  have hmap : ∀ o : Dict, (defaultVersions o).map (fun version => s ++ ":" ++ format version) =
      ((defaultVersions o).map format).map (s ++ ":" ++ ·) := by
    intro o
    rw [List.map_map]
    rfl
  rw [withTag, withTag, hmap, hmap, h]

theorem withTag_perm (hn : (d.map Prod.fst).Nodup) (hp : d.Perm e) (s : String) :
    withTag format d s = withTag format e s := by
  have hget : Dict.get d = Dict.get e := funext fun key => Dict.get_perm hn hp
  have hversions : defaultVersions d = defaultVersions e := by
    rw [defaultVersions, defaultVersions, hget]
  exact withTag_congr (congrArg _ hversions) s

theorem withTag_member (hk : k ∈ versionKeys → format v = format w) (s : String) :
    withTag format (d ++ (k, v) :: e) s = withTag format (d ++ (k, w) :: e) s := by
  apply withTag_congr
  have hget : ∀ key ∈ versionKeys, (Dict.get (d ++ (k, v) :: e) key).map format =
      (Dict.get (d ++ (k, w) :: e) key).map format := by
    intro key hkey
    rw [Dict.get_append, Dict.get_append, Dict.get_cons, Dict.get_cons]
    by_cases h : key = k
    · subst h
      cases Dict.get d key with
      | none => simp [hk hkey]
      | some u => rfl
    · simp [h]
  rw [defaultVersions, defaultVersions, List.map_filterMap, List.map_filterMap]
  exact List.filterMap_congr hget

/-- A loop over an object and one over the swapped object. -/
theorem agree_loop {g g' : String × Value → Except Failure (List String)}
    (h : Swapped keeps (.dict d) (.dict e)) (hg : ∀ entry, Agree (g entry) (g' entry))
    (hmember : ∀ k v w, Swapped keeps v w → Agree (g (k, v)) (g' (k, w))) :
    Agree (collect g d) (collect g' e) := by
  generalize hv : Value.dict d = v at h
  generalize hw : Value.dict e = w at h
  cases h with
  | here hn hp =>
    cases hv
    cases hw
    exact agree_trans (agree_collect_perm hp) (rel_collect respected_agree fun entry _ => hg entry)
  | member h _ =>
    cases hv
    cases hw
    exact agree_collect_at hg (hmember _ _ _ h)
  | item => cases hv

theorem agree_ok {images images' : List String} (h : images = images') :
    Agree (.ok images) (.ok images') :=
  h ▸ agree_refl _

section
variable (hkeeps : ∀ v w, keeps v w → format v = format w)
include hkeeps

theorem withTag_swapped (h : Swapped keeps (.dict d) (.dict e)) (s : String) :
    withTag format d s = withTag format e s := by
  generalize hv : Value.dict d = v at h
  generalize hw : Value.dict e = w at h
  cases h with
  | here hn hp =>
    cases hv
    cases hw
    exact withTag_perm hn hp s
  | member _ hk =>
    cases hv
    cases hw
    exact withTag_member (fun hm => hkeeps _ _ (hk hm)) s
  | item => cases hv

variable (hx : ∀ v w, Swapped keeps v w → Agree (extract v) (extract w))
include hx

/-- The entries of a nested object. -/
theorem agree_nested (h : Swapped keeps (.dict d) (.dict e)) :
    Agree (collect (nestedImages format extract d) d) (collect (nestedImages format extract e) e) := by
  have htag : ∀ s, Agree (.ok (withTag format d s)) (.ok (withTag format e s)) :=
    fun s => agree_ok (withTag_swapped hkeeps h s)
  have hentry : ∀ entry, Agree (nestedImages format extract d entry)
      (nestedImages format extract e entry) :=
    rel_nestedImages respected_agree (fun v => agree_refl (extract v)) htag
  refine agree_loop h hentry fun k v w hvw => ?_
  cases hvw with
  | here hn hp => exact hx _ _ (.here hn hp)
  | member hvw hk => exact hx _ _ (.member hvw hk)
  | item hvw => exact agree_refl _

/-- The entries of the object of a call. -/
theorem agree_entries (h : Swapped keeps (.dict d) (.dict e)) :
    Agree (collect (entryImages format extract d) d) (collect (entryImages format extract e) e) := by
  have htag : ∀ s, Agree (.ok (withTag format d s)) (.ok (withTag format e s)) :=
    fun s => agree_ok (withTag_swapped hkeeps h s)
  have hentry : ∀ entry, Agree (entryImages format extract d entry)
      (entryImages format extract e entry) :=
    rel_entryImages respected_agree (fun v => agree_refl (extract v)) htag fun _ _ => agree_refl _
  refine agree_loop h hentry fun k v w hvw => ?_
  cases hvw with
  | here hn hp => exact agree_nested hkeeps hx (.here hn hp)
  | member hvw hk => exact agree_nested hkeeps hx (.member hvw hk)
  | item hvw => exact agree_collect_at (fun v => agree_refl _) (hx _ _ hvw)

end

/-- The extraction agrees on a document and the document with one object in another order. -/
theorem agree_swapped (hkeeps : ∀ v w, keeps v w → format v = format w) (limit : Nat)
    (h : Swapped keeps v w) :
    Agree (extractImagesRecursively format limit v) (extractImagesRecursively format limit w) := by
  induction limit generalizing v w with
  | zero => exact .error
  | succ limit ih =>
    cases h with
    | here hn hp => exact agree_entries hkeeps (fun _ _ => ih) (.here hn hp)
    | member h hk => exact agree_entries hkeeps (fun _ _ => ih) (.member h hk)
    | item h => exact agree_refl _

theorem agree_reordered (hkeeps : ∀ v w, keeps v w → format v = format w) (limit : Nat)
    (h : Reordered keeps v w) :
    Agree (extractImagesRecursively format limit v) (extractImagesRecursively format limit w) := by
  induction h with
  | refl => exact agree_refl _
  | tail _ hs ih => exact agree_trans ih (agree_swapped hkeeps limit hs)

theorem raises_append :
    Raises (do return (← first) ++ (← rest)) ↔ Raises first ∨ Raises rest := by
  cases first with
  | error e => exact iff_of_true ⟨e, rfl⟩ (Or.inl ⟨e, rfl⟩)
  | ok images =>
    cases rest with
    | error e => exact iff_of_true ⟨e, rfl⟩ (Or.inr ⟨e, rfl⟩)
    | ok images' => simp [Raises, bind, Except.bind, pure, Except.pure]

theorem respected_sameEnd : Respected SameEnd where
  refl _ := Iff.rfl
  append := by
    intro first first' rest rest' hfirst hrest
    rw [SameEnd, raises_append, raises_append]
    exact or_congr hfirst hrest

/-- What is printed for a version has no influence on whether the extraction raises. -/
theorem sameEnd_format (format format' : Value → String) (limit : Nat) (v : Value) :
    SameEnd (extractImagesRecursively format limit v) (extractImagesRecursively format' limit v) := by
  have hok : ∀ images images', SameEnd (.ok images) (.ok images') := by
    simp [SameEnd, Raises]
  induction limit generalizing v with
  | zero => exact Iff.rfl
  | succ limit ih =>
    cases v with
    | dict d =>
      exact rel_collect respected_sameEnd fun entry _ =>
        rel_entryImages respected_sameEnd ih (fun _ => hok _ _) (fun _ _ => hok _ _) entry
    | _ => exact Iff.rfl

theorem agree_sameEnd (h : Agree result result') : SameEnd result result' := by
  cases h with
  | ok h => simp [SameEnd, Raises]
  | error => simp [SameEnd, Raises]

theorem nodup_eraseDups {α : Type} [DecidableEq α] (as : List α) : as.eraseDups.Nodup := by
  induction hn : as.length using Nat.strong_induction_on generalizing as with
  | _ n ih =>
    cases as with
    | nil => simp
    | cons a as =>
      rw [List.eraseDups_cons, List.nodup_cons]
      constructor
      · simp [List.mem_eraseDups]
      · refine ih _ ?_ _ rfl
        have hlen := List.length_filter_le (fun b => !b == a) as
        rw [List.length_cons] at hn
        omega

theorem eraseDups_perm {α : Type} [DecidableEq α] {as bs : List α} (h : as.Perm bs) :
    as.eraseDups.Perm bs.eraseDups := by
  rw [List.perm_ext_iff_of_nodup (nodup_eraseDups as) (nodup_eraseDups bs)]
  intro a
  rw [List.mem_eraseDups, List.mem_eraseDups, h.mem_iff]

/-- The file's images are those of its document. -/
theorem agree_processJsonFile {text text' : String} (hv : Json.loads text = some v)
    (hw : Json.loads text' = some w)
    (h : Agree (extractImagesRecursively format limit v) (extractImagesRecursively format limit w)) :
    Agree (processJsonFile format limit text) (processJsonFile format limit text') := by
  have hfile : processJsonFile format limit text =
      do return (← extractImagesRecursively format limit v).eraseDups := by
    rw [processJsonFile, hv]
  have hfile' : processJsonFile format limit text' =
      do return (← extractImagesRecursively format limit w).eraseDups := by
    rw [processJsonFile, hw]
  rw [hfile, hfile']
  generalize extractImagesRecursively format limit v = result at h ⊢
  generalize extractImagesRecursively format limit w = result' at h ⊢
  cases h with
  | ok h => exact .ok (eraseDups_perm h)
  | error => exact .error

/-- A string, a number, a boolean or null. -/
def Scalar (v : Value) : Prop := (∀ vs, v ≠ .list vs) ∧ ∀ d, v ≠ .dict d

/-- All default versions in the objects of a value are scalars. -/
inductive ScalarVersions : Value → Prop where
  | scalar {v : Value} (h : Scalar v) : ScalarVersions v
  | list {vs : List Value} (h : ∀ v ∈ vs, ScalarVersions v) : ScalarVersions (.list vs)
  | dict {d : Dict} (h : ∀ k v, (k, v) ∈ d → ScalarVersions v)
      (hk : ∀ k v, (k, v) ∈ d → k ∈ versionKeys → Scalar v) : ScalarVersions (.dict d)

theorem not_scalar_of_swapped (h : Swapped keeps v w) : ¬ Scalar v := by
  intro hscalar
  cases h with
  | here => exact hscalar.2 _ rfl
  | member => exact hscalar.2 _ rfl
  | item => exact hscalar.1 _ rfl

/-- In a scalar there is no order of keys, so that a swap is in no default version. -/
theorem swapped_of_scalarVersions (h : Swapped (fun _ _ => True) v w) (hv : ScalarVersions v) :
    Swapped keeps v w ∧ ScalarVersions w := by
  have hnot := not_scalar_of_swapped h
  induction h with
  | here hn hp =>
    cases hv with
    | scalar hs => exact (hnot hs).elim
    | dict hmem hkeys =>
      exact ⟨.here hn hp, .dict (fun k v hm => hmem k v (hp.mem_iff.mpr hm))
        fun k v hm => hkeys k v (hp.mem_iff.mpr hm)⟩
  | @member d e k v w h _ ih =>
    cases hv with
    | scalar hs => exact (hnot hs).elim
    | dict hmem hkeys =>
      have hin : (k, v) ∈ d ++ (k, v) :: e := by simp
      obtain ⟨hswap, hw⟩ := ih (hmem k v hin) (not_scalar_of_swapped h)
      have hkey : k ∉ versionKeys := fun hk => not_scalar_of_swapped h (hkeys k v hin hk)
      refine ⟨.member hswap fun hk => (hkey hk).elim, .dict ?_ ?_⟩
      · intro k' v' hm
        rcases List.mem_append.mp hm with hm | hm
        · exact hmem k' v' (List.mem_append_left _ hm)
        · rcases List.mem_cons.mp hm with hm | hm
          · cases hm
            exact hw
          · exact hmem k' v' (List.mem_append_right _ (List.mem_cons_of_mem _ hm))
      · intro k' v' hm hk'
        rcases List.mem_append.mp hm with hm | hm
        · exact hkeys k' v' (List.mem_append_left _ hm) hk'
        · rcases List.mem_cons.mp hm with hm | hm
          · cases hm
            exact (hkey hk').elim
          · exact hkeys k' v' (List.mem_append_right _ (List.mem_cons_of_mem _ hm)) hk'
  | @item vs ws v w h ih =>
    cases hv with
    | scalar hs => exact (hnot hs).elim
    | list hmem =>
      obtain ⟨hswap, hw⟩ := ih (hmem v (by simp)) (not_scalar_of_swapped h)
      refine ⟨.item hswap, .list fun v' hm => ?_⟩
      rcases List.mem_append.mp hm with hm | hm
      · exact hmem v' (List.mem_append_left _ hm)
      · rcases List.mem_cons.mp hm with hm | hm
        · exact hm ▸ hw
        · exact hmem v' (List.mem_append_right _ (List.mem_cons_of_mem _ hm))

theorem sameVersions_of_scalarVersions (h : AnyOrder v w) (hv : ScalarVersions v) :
    SameVersions format v w := by
  have hboth : SameVersions format v w ∧ ScalarVersions w := by
    induction h with
    | refl => exact ⟨.refl, hv⟩
    | tail _ hs ih =>
      obtain ⟨hsame, hscalar⟩ := ih
      obtain ⟨hswap, hw⟩ := swapped_of_scalarVersions hs hscalar
      exact ⟨.tail hsame hswap, hw⟩
  exact hboth.1

/-- What does not depend on the order of the keys: whether the extraction raises; and when the default
versions are scalars, or printed as before, the strings that it returns, and those of a file. -/
structure OrderFree (format : Value → String) (limit : Nat) (v w : Value) : Prop where
  ends : SameEnd (extractImagesRecursively format limit v) (extractImagesRecursively format limit w)
  agrees : ScalarVersions v ∨ SameVersions format v w →
    Agree (extractImagesRecursively format limit v) (extractImagesRecursively format limit w)
  files : ScalarVersions v ∨ SameVersions format v w → ∀ text text', Json.loads text = some v →
    Json.loads text' = some w →
      Agree (processJsonFile format limit text) (processJsonFile format limit text')

/-- An image, and an object where its default version should be. -/
def versionedImage (versions : Dict) : Value :=
  .dict [("image", .str "jupyter"), ("defaultImageVersion", .dict versions)]

theorem anyOrder_versionedImage : AnyOrder (versionedImage [("cpu", .int 1), ("gpu", .int 2)])
    (versionedImage [("gpu", .int 2), ("cpu", .int 1)]) := by
  have hswap : Swapped (fun _ _ => True) (.dict [("cpu", .int 1), ("gpu", .int 2)])
      (.dict [("gpu", .int 2), ("cpu", .int 1)]) :=
    .here (by decide) (List.Perm.swap _ _ _)
  exact .single (@Swapped.member _ [("image", .str "jupyter")] [] "defaultImageVersion" _ _ hswap
    fun _ => trivial)

/-- What `format` prints for a number, and for an object of numbers: its `repr`, in the order of the
keys. -/
def formatNumbers : Value → String
  | .int n => toString n
  | .dict d => "\x7b" ++ ", ".intercalate (d.map fun entry =>
      match entry.2 with
      | .int n => "'" ++ entry.1 ++ "': " ++ toString n
      | _ => "") ++ "\x7d"
  | _ => ""

end Manifests.KfParse
