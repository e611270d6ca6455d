import Manifests.ExtractImages.Preservation

/-! A second scan: what the first one has filled in is not changed by the same images again, in
whatever order they come. -/
namespace Manifests.ExtractImages
open Library

/-- The `images` list after the images of containers, one after the other. -/
def appendAll (images : List Image) (scanned : List String) : List Image :=
  scanned.foldl (fun imgList s => appendOrUpdate imgList (imageFromString s)) images

/-- The entry for the name of an image has all the keys that the image would set. -/
def Saturated (images : List Image) (img : Img) : Prop :=
  ∃ e, entryFor images img.name = some e ∧ e.newName.isSome ∧
    (img.tag ≠ "" → e.newTag.isSome) ∧ (img.digest ≠ "" → e.digest.isSome)

variable {images written : List Image} {scanned scanned' : List String} {img newImg : Img} {e : Image}
  {files files' : List ResourceFile} {resources resources' : List Value} {name s : String}

theorem getOrSet_of_isSome {value : Option String} {new : String} (h : new ≠ "" → value.isSome) :
    getOrSet value new = value := by
  rw [getOrSet_eq]
  cases value with
  | some v => rfl
  | none =>
    by_cases hn : new = ""
    · simp [present, hn]
    · cases h hn

/-- A saturated entry is written back as it is. -/
theorem appendOrUpdate_of_saturated (h : Saturated images img) :
    appendOrUpdate images img = images := by
  obtain ⟨e, he, hname, htag, hdigest⟩ := h
  induction images with
  | nil => cases he
  | cons e' images ih =>
    rw [appendOrUpdate]
    by_cases hn : e'.name = img.name
    · rw [entryFor, List.find?_cons_of_pos (by simpa using hn)] at he
      cases he
      obtain ⟨newName, hnew⟩ := Option.isSome_iff_exists.mp hname
      rw [if_pos hn, getOrSet_of_isSome htag, getOrSet_of_isSome hdigest, hnew, Option.getD_some,
        ← hnew]
    · rw [if_neg hn]
      rw [entryFor, List.find?_cons_of_neg (by simpa using hn)] at he
      rw [ih he]

/-- An image that has been scanned has left all the keys that it sets. -/
theorem saturated_self (images : List Image) (img : Img) :
    Saturated (appendOrUpdate images img) img := by
  refine ⟨merge (entryFor images img.name) img, ?_, rfl, ?_, ?_⟩
  · rw [entryFor_appendOrUpdate, if_pos rfl]
  · intro ht
    rw [merge_newTag]
    simp [present, ht]
  · intro hd
    rw [merge_digest]
    simp [present, hd]

/-- Other images take no key away. -/
theorem saturated_step (newImg : Img) (h : Saturated images img) :
    Saturated (appendOrUpdate images newImg) img := by
  obtain ⟨e, he, hname, htag, hdigest⟩ := h
  by_cases hn : newImg.name = img.name
  · refine ⟨merge (some e) newImg, ?_, rfl, ?_, ?_⟩
    · rw [entryFor_appendOrUpdate, if_pos hn, he]
    · intro ht
      rw [merge_newTag, Option.bind_some, Option.isSome_or, htag ht]
      rfl
    · intro hd
      rw [merge_digest, Option.bind_some, Option.isSome_or, hdigest hd]
      rfl
  · refine ⟨e, ?_, hname, htag, hdigest⟩
    rw [entryFor_appendOrUpdate, if_neg hn, he]

theorem saturated_appendAll (h : Saturated images img) (scanned : List String) :
    Saturated (appendAll images scanned) img := by
  induction scanned generalizing images with
  | nil => exact h
  | cons s scanned ih => exact ih (saturated_step _ h)

/-- After a whole scan, every image in it is saturated. -/
theorem saturated_of_mem (h : s ∈ scanned) :
    Saturated (appendAll images scanned) (imageFromString s) := by
  induction scanned generalizing images with
  | nil => cases h
  | cons s' scanned ih =>
    rcases List.mem_cons.mp h with rfl | h
    · exact saturated_appendAll (saturated_self _ _) scanned
    · exact ih h

theorem appendAll_of_saturated (h : ∀ s ∈ scanned, Saturated images (imageFromString s)) :
    appendAll images scanned = images := by
  induction scanned with
  | nil => rfl
  | cons s scanned ih =>
    rw [appendAll, List.foldl_cons, appendOrUpdate_of_saturated (h s List.mem_cons_self)]
    exact ih fun s' hs => h s' (List.mem_cons_of_mem _ hs)

/-- No image beyond those of the first scan: the second one changes nothing. -/
theorem appendAll_twice (h : scanned' ⊆ scanned) :
    appendAll (appendAll images scanned) scanned' = appendAll images scanned :=
  appendAll_of_saturated fun _ hs => saturated_of_mem (h hs)

theorem scannedImages_cons {r : Value} : scannedImages (r :: resources) = .ok scanned ↔
    ∃ imgs rest, resourceImages r = .ok imgs ∧ scannedImages resources = .ok rest ∧
      scanned = imgs ++ rest := by
  rw [scannedImages]
  cases resourceImages r with
  | error e => simp [bind, Except.bind]
  | ok imgs =>
    cases scannedImages resources with
    | error e => simp [bind, Except.bind]
    | ok rest => simp [bind, Except.bind, pure, Except.pure, eq_comm]

/-- Resources in another order have the same images. -/
theorem scannedImages_perm (hp : resources.Perm resources')
    (h : scannedImages resources = .ok scanned) :
    ∃ scanned', scannedImages resources' = .ok scanned' ∧ scanned.Perm scanned' := by
  induction hp generalizing scanned with
  | nil => exact ⟨scanned, h, List.Perm.refl _⟩
  | cons r _ ih =>
    obtain ⟨imgs, rest, himgs, hrest, rfl⟩ := scannedImages_cons.mp h
    obtain ⟨rest', hrest', hperm⟩ := ih hrest
    exact ⟨imgs ++ rest', scannedImages_cons.mpr ⟨imgs, rest', himgs, hrest', rfl⟩,
      hperm.append_left imgs⟩
  | swap r r' resources =>
    obtain ⟨imgs, _, himgs, htail, rfl⟩ := scannedImages_cons.mp h
    obtain ⟨imgs', rest, himgs', hrest, rfl⟩ := scannedImages_cons.mp htail
    refine ⟨imgs' ++ (imgs ++ rest), scannedImages_cons.mpr ⟨imgs', imgs ++ rest, himgs',
      scannedImages_cons.mpr ⟨imgs, rest, himgs, hrest, rfl⟩, rfl⟩, ?_⟩
    rw [← List.append_assoc, ← List.append_assoc]
    exact List.perm_append_comm.append_right rest
  | trans _ _ ih ih' =>
    obtain ⟨scanned', hscanned', hperm⟩ := ih h
    obtain ⟨scanned'', hscanned'', hperm'⟩ := ih' hscanned'
    exact ⟨scanned'', hscanned'', hperm.trans hperm'⟩

theorem localResources_perm (hp : files.Perm files') :
    (localResources files).Perm (localResources files') :=
  (hp.filter _).flatMap_right _

/-- Scanning a directory again, with its files in any order, leaves the list as it is. -/
theorem rescan_eq (hp : files.Perm files') (h : scanKustomizationForImages images files = .ok written) :
    scanKustomizationForImages written files' = .ok written := by
  obtain ⟨scanned, hs, rfl⟩ := scan_eq h
  obtain ⟨scanned', hs', hperm⟩ := scannedImages_perm (localResources_perm hp) hs
  rw [scanKustomizationForImages, hs']
  exact congrArg Except.ok (appendAll_twice fun _ hm => hperm.mem_iff.mpr hm)

/-- The scan is idempotent: the containers once more in any order change nothing, nor do the files of
the directory. -/
theorem scan_idempotent (images : List Image) (scanned scanned' : List String)
    (hp : scanned.Perm scanned') :
    appendAll (appendAll images scanned) scanned' = appendAll images scanned ∧
      ∀ files files' written, files.Perm files' →
        scanKustomizationForImages images files = .ok written →
          scanKustomizationForImages written files' = .ok written :=
  ⟨appendAll_twice fun _ hm => hp.mem_iff.mpr hm, fun _ _ _ => rescan_eq⟩

/-- Two tags of one image, under an entry without any. -/
theorem scan_idempotent_nginx :
    appendAll (appendAll [⟨"nginx", none, none, none⟩] ["nginx:1.19", "nginx:1.20"])
        ["nginx:1.20", "nginx:1.19"] =
      appendAll [⟨"nginx", none, none, none⟩] ["nginx:1.19", "nginx:1.20"] ∧
      ∀ files files' written, files.Perm files' →
        scanKustomizationForImages [⟨"nginx", none, none, none⟩] files = .ok written →
          scanKustomizationForImages written files' = .ok written :=
  scan_idempotent [⟨"nginx", none, none, none⟩] ["nginx:1.19", "nginx:1.20"]
    ["nginx:1.20", "nginx:1.19"] (List.Perm.swap _ _ _)

end Manifests.ExtractImages
