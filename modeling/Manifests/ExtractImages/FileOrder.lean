import Manifests.ExtractImages.Idempotence
import Manifests.ExtractImages.WellFormed

/-! The same files in another order: the entries that the scan writes are the same as far as the same
tag and the same digest come first for each name. -/
namespace Manifests.ExtractImages
open Library

/-- The scanned images with a name. -/
def named (scanned : List String) (name : String) : List Img :=
  (scanned.map imageFromString).filter fun img => img.name = name

/-- For each name, the tag that comes first is the same, unless the entry has one; and so is the
digest. -/
def FirstsAgree (images : List Image) (scanned scanned' : List String) : Prop :=
  ∀ name,
    ((entryFor images name).bind (·.newTag) = none →
      first Img.tag (named scanned name) = first Img.tag (named scanned' name)) ∧
    ((entryFor images name).bind (·.digest) = none →
      first Img.digest (named scanned name) = first Img.digest (named scanned' name))

/-- What the scans of two lists of files have in common: both end with an exception; or both write a
list, with the same names, and the entries are the same exactly when the firsts agree among the
images that the two scans find. -/
inductive SameScan (images : List Image) (files files' : List ResourceFile) : Prop where
  | raised {e e' : PyError} (raises : scanKustomizationForImages images files = .error e)
      (raises' : scanKustomizationForImages images files' = .error e')
  | written {scanned scanned' : List String} {list list' : List Image}
      (scans : scannedImages (localResources files) = .ok scanned)
      (scans' : scannedImages (localResources files') = .ok scanned')
      (writes : scanKustomizationForImages images files = .ok list)
      (writes' : scanKustomizationForImages images files' = .ok list')
      (names : (list.map Image.name).Perm (list'.map Image.name))
      (entries : list.Perm list' ↔ FirstsAgree images scanned scanned')

variable {images : List Image} {scanned scanned' : List String} {entry entry' : Option Image}
  {imgs imgs' : List Img} {newImg : Img} {files files' : List ResourceFile} {name : String}

theorem filter_eq_find?_append {α : Type} (p : α → Bool) (l : List α) :
    l.filter p = (l.find? p).toList ++ (l.filter p).tail := by
  rw [← List.head?_filter]
  cases l.filter p <;> rfl

/-- Of the entries of one name only the first one changes. -/
theorem tail_filter_appendOrUpdate (images : List Image) (newImg : Img) (name : String) :
    ((appendOrUpdate images newImg).filter (·.name = name)).tail =
      (images.filter (·.name = name)).tail := by
  rcases appendOrUpdate_cases images newImg with
    ⟨before, e, after, rfl, hbefore, he, heq⟩ | ⟨hnone, heq⟩
  · rw [heq, List.filter_append, List.filter_append]
    by_cases hn : newImg.name = name
    · have hnil : before.filter (·.name = name) = [] := by
        rw [List.filter_eq_nil_iff]
        intro b hb
        simpa [← hn] using hbefore b hb
      rw [hnil, List.filter_cons_of_pos (by simp [merge, hn]),
        List.filter_cons_of_pos (by simpa [he] using hn)]
      rfl
    · rw [List.filter_cons_of_neg (by simp [merge, hn]),
        List.filter_cons_of_neg (by simpa [he] using hn)]
  · rw [heq, List.filter_append]
    by_cases hn : newImg.name = name
    · have hnil : images.filter (·.name = name) = [] := by
        rw [List.filter_eq_nil_iff]
        intro b hb
        simpa [← hn] using hnone b hb
      rw [hnil, List.filter_cons_of_pos (by simp [merge, hn])]
      rfl
    · rw [List.filter_cons_of_neg (by simp [merge, hn]), List.filter_nil, List.append_nil]

theorem tail_filter_appendAll (images : List Image) (scanned : List String) (name : String) :
    ((appendAll images scanned).filter (·.name = name)).tail =
      (images.filter (·.name = name)).tail := by
  induction scanned generalizing images with
  | nil => rfl
  | cons s scanned ih => exact (ih _).trans (tail_filter_appendOrUpdate _ _ _)

/-- The entries of a name after a scan: the one that is found, and those behind it as they were. -/
theorem filter_appendAll (images : List Image) (scanned : List String) (name : String) :
    (appendAll images scanned).filter (·.name = name) =
      (entryFor (appendAll images scanned) name).toList ++ (images.filter (·.name = name)).tail := by
  rw [filter_eq_find?_append, tail_filter_appendAll]
  rfl

/-- Two scans leave the same entries when they leave the same first one for each name. -/
theorem appendAll_perm_iff :
    (appendAll images scanned).Perm (appendAll images scanned') ↔ ∀ name,
      entryFor (appendAll images scanned) name = entryFor (appendAll images scanned') name := by
  constructor
  · intro h name
    have hfilter := h.filter (·.name = name)
    rw [filter_appendAll, filter_appendAll, List.perm_append_right_iff] at hfilter
    cases he : entryFor (appendAll images scanned) name with
    | none =>
      rw [he, Option.toList_none, List.nil_perm] at hfilter
      exact (Option.toList_eq_nil_iff.mp hfilter).symm
    | some e =>
      rw [he, Option.toList_some, List.singleton_perm] at hfilter
      exact (Option.toList_eq_singleton_iff.mp hfilter.symm).symm
  · intro h
    rw [List.perm_iff_count]
    intro e
    have hfilter : ∀ scanned, (appendAll images scanned).count e =
        ((appendAll images scanned).filter (·.name = e.name)).count e := by
      intro scanned
      rw [List.count_filter (by simp)]
    rw [hfilter, hfilter, filter_appendAll, filter_appendAll, h]

/-- What namesakes make of an entry. -/
theorem foldl_merge_eq (hn : ∀ img ∈ imgs, img.name = name) (himgs : imgs ≠ []) :
    imgs.foldl (fun e img => some (merge e img)) entry =
      some { name := name, newName := some ((entry.bind (·.newName)).getD name),
             newTag := (entry.bind (·.newTag)).or (first Img.tag imgs),
             digest := (entry.bind (·.digest)).or (first Img.digest imgs) } := by
  induction imgs generalizing entry with
  | nil => exact (himgs rfl).elim
  | cons img imgs ih =>
    have himg : img.name = name := hn img List.mem_cons_self
    rw [List.foldl_cons, first_cons, first_cons]
    by_cases hrest : imgs = []
    · subst hrest
      simp [first, merge, getOrSet_eq, himg]
    · rw [ih (fun m hm => hn m (List.mem_cons_of_mem _ hm)) hrest]
      simp [merge, getOrSet_eq, himg, Option.or_assoc]

theorem or_eq_or_iff {α : Type} {x a b : Option α} : x.or a = x.or b ↔ (x = none → a = b) := by
  cases x <;> simp

theorem named_perm (hp : scanned.Perm scanned') (name : String) :
    (named scanned name).Perm (named scanned' name) := (hp.map _).filter _

theorem named_eq_nil (hp : scanned.Perm scanned') :
    named scanned name = [] ↔ named scanned' name = [] := by
  rw [← List.length_eq_zero_iff, ← List.length_eq_zero_iff, (named_perm hp name).length_eq]

theorem name_of_mem_named {img : Img} (h : img ∈ named scanned name) : img.name = name := by
  simpa using (List.mem_filter.mp h).2

theorem entryFor_appendAll : entryFor (appendAll images scanned) name =
    (named scanned name).foldl (fun e img => some (merge e img)) (entryFor images name) :=
  entryFor_foldl scanned

/-- The entry for a name is the same after both scans when what comes first is. -/
theorem entryFor_appendAll_eq_iff (hp : scanned.Perm scanned') :
    entryFor (appendAll images scanned) name = entryFor (appendAll images scanned') name ↔
    ((entryFor images name).bind (·.newTag) = none →
      first Img.tag (named scanned name) = first Img.tag (named scanned' name)) ∧
    ((entryFor images name).bind (·.digest) = none →
      first Img.digest (named scanned name) = first Img.digest (named scanned' name)) := by
  rw [entryFor_appendAll, entryFor_appendAll]
  by_cases hnil : named scanned name = []
  · simp [hnil, (named_eq_nil hp).mp hnil]
  · have hnil' : named scanned' name ≠ [] := mt (named_eq_nil hp).mpr hnil
    rw [foldl_merge_eq (fun _ => name_of_mem_named) hnil,
      foldl_merge_eq (fun _ => name_of_mem_named) hnil']
    simp [or_eq_or_iff]

theorem entryFor_isSome (hp : scanned.Perm scanned') :
    (entryFor (appendAll images scanned) name).isSome =
      (entryFor (appendAll images scanned') name).isSome := by
  rw [entryFor_appendAll, entryFor_appendAll]
  by_cases hnil : named scanned name = []
  · rw [hnil, (named_eq_nil hp).mp hnil]
  · have hnil' : named scanned' name ≠ [] := mt (named_eq_nil hp).mpr hnil
    rw [foldl_merge_eq (fun _ => name_of_mem_named) hnil,
      foldl_merge_eq (fun _ => name_of_mem_named) hnil']
    rfl

/-- The names of the list do not depend on the order. -/
theorem names_appendAll_perm (hp : scanned.Perm scanned') :
    ((appendAll images scanned).map Image.name).Perm
      ((appendAll images scanned').map Image.name) := by
  rw [List.perm_iff_count]
  intro name
  have hcount : ∀ scanned, ((appendAll images scanned).map Image.name).count name =
      (entryFor (appendAll images scanned) name).toList.length +
        (images.filter (·.name = name)).tail.length := by
    intro scanned
    rw [← List.length_append, ← filter_appendAll, ← List.countP_eq_length_filter, List.count,
      List.countP_map]
    exact List.countP_congr fun e _ => by simp
  rw [hcount, hcount, Option.length_toList, Option.length_toList, entryFor_isSome hp]

theorem scan_of_scanned (h : scannedImages (localResources files) = .ok scanned) :
    scanKustomizationForImages images files = .ok (appendAll images scanned) := by
  unfold scanKustomizationForImages
  rw [h]
  rfl

theorem scan_of_raised {e : PyError} (h : scannedImages (localResources files) = .error e) :
    scanKustomizationForImages images files = .error e := by
  unfold scanKustomizationForImages
  rw [h]
  rfl

/-- The scan of the same files in another order writes the same entries exactly when, for each name
whose entry has no tag, the same tag comes first among its images, and likewise for the digest. -/
theorem scan_reordered (images : List Image) (files files' : List ResourceFile)
    (hp : files.Perm files') : SameScan images files files' := by
  have hresources := localResources_perm hp
  cases hs : scannedImages (localResources files) with
  | ok scanned =>
    obtain ⟨scanned', hs', hperm⟩ := scannedImages_perm hresources hs
    refine .written hs hs' (scan_of_scanned hs) (scan_of_scanned hs') (names_appendAll_perm hperm) ?_
    rw [appendAll_perm_iff]
    exact forall_congr' fun name => entryFor_appendAll_eq_iff hperm
  | error e =>
    cases hs' : scannedImages (localResources files') with
    | ok scanned' =>
      obtain ⟨scanned, hok, _⟩ := scannedImages_perm hresources.symm hs'
      rw [hs] at hok
      cases hok
    | error e' => exact .raised (scan_of_raised hs) (scan_of_raised hs')

/-- Two deployments with two tags of one image. -/
def twoTags : List ResourceFile :=
  [deploymentOf ["nginx:1.19"], { deploymentOf ["nginx:1.20"] with name := "worker.yaml" }]

theorem scan_reordered_twoTags : SameScan [] twoTags twoTags.reverse :=
  scan_reordered [] twoTags twoTags.reverse (List.reverse_perm _).symm

/-- The tag of the file that comes first is written. -/
theorem not_scan_order_free : ¬ ∀ images files files' written written', files.Perm files' →
    scanKustomizationForImages images files = .ok written →
    scanKustomizationForImages images files' = .ok written' → ∀ e, e ∈ written ↔ e ∈ written' := by
  intro h
  have hiff := h [] twoTags twoTags.reverse [⟨"nginx", some "nginx", some "1.19", none⟩]
    [⟨"nginx", some "nginx", some "1.20", none⟩] (List.reverse_perm _).symm (by decide +kernel)
    (by decide +kernel) ⟨"nginx", some "nginx", some "1.19", none⟩
  revert hiff
  decide

end Manifests.ExtractImages
