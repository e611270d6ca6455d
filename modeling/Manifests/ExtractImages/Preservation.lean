import Manifests.ExtractImages

/-! What a container's image resolves to under an `images` list, before and after the scan. -/
namespace Manifests.ExtractImages
open Library

/-- What stands behind the name of an image. -/
inductive Ref where
  | tag (tag : String)
  | digest (digest : String)
  deriving Repr, DecidableEq

/-- The name of a container's image and its own tag or digest, as kustomize's transformer takes
them. A colon in front of the first slash belongs to the registry; an absent tag means latest. -/
def splitImage (image : String) : String × Ref :=
  match Text.splitLast '@' image.toList with
  | some (before, after) => (String.ofList before, .digest (String.ofList after))
  | none =>
    let host := image.toList.takeWhile (· ≠ '/')
    let path := image.toList.dropWhile (· ≠ '/')
    match (if path = [] then Text.splitLast ':' host else
        (Text.splitLast ':' path).map fun (before, after) => (host ++ before, after)) with
    | some (before, after) => (String.ofList before, .tag (String.ofList after))
    | none => (image, .tag "latest")

/-- The digest of an entry goes before its tag, and that before the container's own. -/
def pick (digest newTag : Option String) (own : Ref) : Ref :=
  match present digest, present newTag with
  | some d, _ => .digest d
  | none, some t => .tag t
  | none, none => own

/-- The image that a container gets under the entry for its name. -/
def resolveBy (entry : Option Image) (container : String) : String × Ref :=
  let (name, own) := splitImage container
  ((present (entry.bind (·.newName))).getD name,
    pick (entry.bind (·.digest)) (entry.bind (·.newTag)) own)

/-- The entry for a name is the first one. -/
def entryFor (images : List Image) (name : String) : Option Image := images.find? (·.name = name)

/-- The image that a container gets under an `images` list. -/
def resolve (images : List Image) (container : String) : String × Ref :=
  resolveBy (entryFor images (splitImage container).1) container

/-- What `append_or_update` makes of the entry for a name. -/
def merge (entry : Option Image) (newImg : Img) : Image where
  name := newImg.name
  newName := some ((entry.bind (·.newName)).getD newImg.name)
  newTag := getOrSet (entry.bind (·.newTag)) newImg.tag
  digest := getOrSet (entry.bind (·.digest)) newImg.digest

/-- The first non-empty tag, or digest, among images. -/
def first (field : Img → String) (imgs : List Img) : Option String :=
  imgs.findSome? fun img => present (some (field img))

/-- The scanned images with the name of a container, as the scan splits them. -/
def namesakes (scanned : List String) (container : String) : List Img :=
  (scanned.map imageFromString).filter fun img => img.name = (splitImage container).1

/-- Why a container keeps its image: the entry for its name has a digest already; or it has a tag,
and no scanned namesake has a digest; or it has neither, and the first digest among the
namesakes, or without digests the first tag, is the container's own. -/
inductive Kept (images : List Image) (scanned : List String) (container : String) : Prop where
  | digest (entry : (present ((entryFor images (splitImage container).1).bind (·.digest))).isSome)
  | tag (entry : ((entryFor images (splitImage container).1).bind (·.newTag)).isSome)
      (digests : first Img.digest (namesakes scanned container) = none)
  | ownDigest (digest : (entryFor images (splitImage container).1).bind (·.digest) = none)
      (tag : (entryFor images (splitImage container).1).bind (·.newTag) = none) (d : String)
      (first : first Img.digest (namesakes scanned container) = some d)
      (own : (splitImage container).2 = .digest d)
  | ownTag (digest : (entryFor images (splitImage container).1).bind (·.digest) = none)
      (tag : (entryFor images (splitImage container).1).bind (·.newTag) = none)
      (digests : first Img.digest (namesakes scanned container) = none)
      (own : ∀ t, first Img.tag (namesakes scanned container) = some t →
        (splitImage container).2 = .tag t)

variable {images written : List Image} {scanned : List String} {files : List ResourceFile}
  {entry : Option Image} {img newImg : Img} {imgs : List Img} {name container : String}

theorem pick_digest {digest newTag : Option String} {own : Ref} {d : String}
    (h : present digest = some d) : pick digest newTag own = .digest d := by
  rw [pick, h]

theorem pick_tag {newTag : Option String} {own : Ref} {t : String} (h : present newTag = some t) :
    pick none newTag own = .tag t := by
  rw [pick, h]
  rfl

theorem pick_none {own : Ref} : pick none none own = own := rfl

theorem getOrSet_eq (value : Option String) (new : String) :
    getOrSet value new = value.or (present (some new)) := by
  cases value with
  | none => by_cases h : new = "" <;> simp [getOrSet, present, h]
  | some v => by_cases h : v = "" <;> simp [getOrSet, h]

theorem merge_newTag : (merge entry newImg).newTag =
    (entry.bind (·.newTag)).or (present (some newImg.tag)) :=
  getOrSet_eq _ _

theorem merge_digest : (merge entry newImg).digest =
    (entry.bind (·.digest)).or (present (some newImg.digest)) :=
  getOrSet_eq _ _

theorem first_cons (field : Img → String) :
    first field (img :: imgs) = (present (some (field img))).or (first field imgs) := by
  rw [first, List.findSome?_cons]
  cases present (some (field img)) <;> rfl

/-- One step of the scan merges into the entry for one name, and leaves the others. -/
theorem entryFor_appendOrUpdate : entryFor (appendOrUpdate images newImg) name =
    if newImg.name = name then some (merge (entryFor images name) newImg)
    else entryFor images name := by
  induction images with
  | nil =>
    by_cases h : newImg.name = name <;> simp [appendOrUpdate, entryFor, merge, h]
  | cons e images ih =>
    rw [appendOrUpdate]
    by_cases he : e.name = newImg.name
    · by_cases h : newImg.name = name
      · simp [entryFor, merge, he, h]
      · simp [entryFor, he, h]
    · rw [if_neg he]
      by_cases h : e.name = name
      · have hn : newImg.name ≠ name := fun hn => he (h.trans hn.symm)
        simp [entryFor, h, hn]
      · simpa [entryFor, h] using ih

/-- What a list of namesakes makes of an entry: a key that is there stays, and the first image that
has something for an absent one sets it. -/
theorem foldl_merge (entry : Option Image) (imgs : List Img) (hn : ∀ img ∈ imgs, img.name = name) :
    let after := imgs.foldl (fun e img => some (merge e img)) entry
    after.bind (·.newTag) = (entry.bind (·.newTag)).or (first Img.tag imgs) ∧
      after.bind (·.digest) = (entry.bind (·.digest)).or (first Img.digest imgs) ∧
      (present (after.bind (·.newName))).getD name = (present (entry.bind (·.newName))).getD name := by
  induction imgs generalizing entry with
  | nil => simp [first]
  | cons img imgs ih =>
    obtain ⟨htag, hdigest, hname⟩ := ih (some (merge entry img)) fun m hm =>
      hn m (List.mem_cons_of_mem _ hm)
    have himg : img.name = name := hn img List.mem_cons_self
    refine ⟨?_, ?_, ?_⟩
    · rw [List.foldl_cons, htag, first_cons, Option.bind_some, merge_newTag, Option.or_assoc]
    · rw [List.foldl_cons, hdigest, first_cons, Option.bind_some, merge_digest, Option.or_assoc]
    · rw [List.foldl_cons, hname, Option.bind_some, merge, himg]
      cases entry.bind (·.newName) with
      | none => by_cases h : name = "" <;> simp [present, h]
      | some newName => rfl

/-- The entry for a name, after the scan. -/
theorem entryFor_foldl (scanned : List String) : entryFor
    (scanned.foldl (fun imgList s => appendOrUpdate imgList (imageFromString s)) images) name =
      ((scanned.map imageFromString).filter (·.name = name)).foldl
        (fun e img => some (merge e img)) (entryFor images name) := by
  induction scanned generalizing images with
  | nil => rfl
  | cons s scanned ih =>
    rw [List.foldl_cons, ih, entryFor_appendOrUpdate, List.map_cons]
    by_cases h : (imageFromString s).name = name
    · simp [h]
    · simp [h]

/-- The scan keeps the name that a container gets, and fills in the digest and the tag that its
entry has no key for. -/
theorem resolve_foldl (scanned : List String) (container : String) : resolve
    (scanned.foldl (fun imgList s => appendOrUpdate imgList (imageFromString s)) images) container =
      ((resolve images container).1,
        pick (((entryFor images (splitImage container).1).bind (·.digest)).or
            (first Img.digest (namesakes scanned container)))
          (((entryFor images (splitImage container).1).bind (·.newTag)).or
            (first Img.tag (namesakes scanned container))) (splitImage container).2) := by
  have hn : ∀ img ∈ namesakes scanned container, img.name = (splitImage container).1 := by
    intro img himg
    simpa using (List.mem_filter.mp himg).2
  obtain ⟨htag, hdigest, hname⟩ :=
    foldl_merge (entryFor images (splitImage container).1) (namesakes scanned container) hn
  rw [resolve, entryFor_foldl, resolveBy]
  exact Prod.ext hname (by rw [← htag, ← hdigest]; rfl)

theorem scan_eq (h : scanKustomizationForImages images files = .ok written) :
    ∃ scanned, scannedImages (localResources files) = .ok scanned ∧
      written = scanned.foldl (fun imgList s => appendOrUpdate imgList (imageFromString s)) images := by
  unfold scanKustomizationForImages at h
  cases hs : scannedImages (localResources files) with
  | error e =>
    rw [hs] at h
    cases h
  | ok scanned =>
    rw [hs] at h
    cases h
    exact ⟨scanned, rfl, rfl⟩

/-- A first image's field is not empty. -/
theorem present_first {field : Img → String} {value : String} (h : first field imgs = some value) :
    present (some value) = some value := by
  obtain ⟨_, img, _, _, himg, _⟩ := List.findSome?_eq_some_iff.mp h
  have hne : field img ≠ "" := by
    intro he
    simp [present, he] at himg
  simp only [present, hne, if_false, Option.some.injEq] at himg
  rw [← himg, present, if_neg hne]

theorem resolve_eq_iff (scanned : List String) (container : String) : resolve
    (scanned.foldl (fun imgList s => appendOrUpdate imgList (imageFromString s)) images) container =
      resolve images container ↔
    pick (((entryFor images (splitImage container).1).bind (·.digest)).or
        (first Img.digest (namesakes scanned container)))
      (((entryFor images (splitImage container).1).bind (·.newTag)).or
        (first Img.tag (namesakes scanned container))) (splitImage container).2 =
      pick ((entryFor images (splitImage container).1).bind (·.digest))
        ((entryFor images (splitImage container).1).bind (·.newTag)) (splitImage container).2 := by
  rw [resolve_foldl, Prod.ext_iff]
  exact and_iff_right rfl

/-- A container that is kept gets the same image after the scan as before; and where no digest
comes in, no other container does. -/
theorem resolve_scan (h : scanKustomizationForImages images files = .ok written)
    (hs : scannedImages (localResources files) = .ok scanned) (container : String) :
    (Kept images scanned container → resolve written container = resolve images container) ∧
    ((entryFor images (splitImage container).1).bind (·.digest) = none →
      first Img.digest (namesakes scanned container) = none →
      resolve written container = resolve images container → Kept images scanned container) := by
  obtain ⟨scanned', hs', rfl⟩ := scan_eq h
  cases hs.symm.trans hs'
  rw [resolve_eq_iff]
  constructor
  · intro hk
    cases hk with
    | digest hentry =>
      obtain ⟨d, hd⟩ := Option.isSome_iff_exists.mp hentry
      obtain ⟨value, hvalue⟩ : ∃ value,
          (entryFor images (splitImage container).1).bind (·.digest) = some value := by
        cases hv : (entryFor images (splitImage container).1).bind (·.digest) with
        | none =>
          rw [hv] at hd
          cases hd
        | some value => exact ⟨value, rfl⟩
      rw [hvalue] at hd ⊢
      rw [Option.some_or, pick_digest hd, pick_digest hd]
    | tag hentry hdigests =>
      obtain ⟨t, ht⟩ := Option.isSome_iff_exists.mp hentry
      rw [hdigests, ht, Option.or_none, Option.some_or]
    | ownDigest hdigest htag d hfirst hown =>
      rw [hdigest, htag, hfirst, hown, Option.none_or, pick_digest (present_first hfirst), pick_none]
    | ownTag hdigest htag hdigests hown =>
      rw [hdigest, htag, hdigests]
      cases hfirst : first Img.tag (namesakes scanned container) with
      | none => rfl
      | some t =>
        rw [hown t hfirst, Option.none_or, Option.none_or, pick_tag (present_first hfirst), pick_none]
  · intro hdigest hdigests heq
    cases htag : (entryFor images (splitImage container).1).bind (·.newTag) with
    | some t => exact .tag (by rw [htag]; rfl) hdigests
    | none =>
      refine .ownTag hdigest htag hdigests fun t ht => ?_
      rw [hdigest, htag, hdigests, ht, Option.none_or, Option.none_or, pick_tag (present_first ht),
        pick_none] at heq
      exact heq.symm

/-- A deployment with one container for each image. -/
def deploymentOf (images : List String) : ResourceFile where
  name := "deployment.yaml"
  documents := [.dict [("kind", .str "Deployment"), ("spec", .dict [("template", .dict [
    ("spec", .dict [("containers", .list (images.map fun image => .dict [("image", .str image)]))])])])]]

theorem containerImages_ok (images : List String) :
    containerImages (images.map fun image => .dict [("image", .str image)]) = .ok images := by
  induction images with
  | nil => rfl
  | cons image images ih =>
    rw [List.map_cons, containerImages, ih]
    rfl

theorem scannedImages_deploymentOf (images : List String) :
    scannedImages (localResources [deploymentOf images]) = .ok images := by
  have hresource : resourceImages (.dict [("kind", .str "Deployment"), ("spec", .dict [("template",
      .dict [("spec", .dict [("containers",
        .list (images.map fun image => .dict [("image", .str image)]))])])])]) = .ok images := by
    have hkind : "Deployment".toLower ∈ acceptedKinds := by decide +kernel
    simp only [resourceImages, Dict.get_cons, if_true, Option.getD_some, hkind]
    exact containerImages_ok images
  have hfile : isResourceFile "deployment.yaml" = true := by decide +kernel
  simp only [localResources, deploymentOf, List.filter_cons, hfile, if_true, List.filter_nil,
    List.flatMap_cons, List.flatMap_nil, List.append_nil, scannedImages, hresource]
  exact congrArg Except.ok (List.append_nil images)

theorem scan_deploymentOf (images : List Image) (scanned : List String) :
    scanKustomizationForImages images [deploymentOf scanned] =
      .ok (scanned.foldl (fun imgList s => appendOrUpdate imgList (imageFromString s)) images) := by
  rw [scanKustomizationForImages, scannedImages_deploymentOf]
  rfl

/-- An entry with a tag, and containers of its name and of another. -/
def nginxEntry : List Image := [⟨"nginx", some "registry.local/nginx", some "1.19", none⟩]

def fourContainers : List String := ["nginx:1.20", "nginx:1.21", "redis:6", "redis:7"]

/-- The containers of the entry's name keep its image, and of the others the first one keeps its own. -/
theorem resolve_scan_fourContainers : ∃ written,
    scanKustomizationForImages nginxEntry [deploymentOf fourContainers] = .ok written ∧
      resolve written "nginx:1.21" = resolve nginxEntry "nginx:1.21" ∧
      resolve written "redis:6" = resolve nginxEntry "redis:6" ∧
      resolve written "redis:7" ≠ resolve nginxEntry "redis:7" := by
  have hscan := scan_deploymentOf nginxEntry fourContainers
  have hscanned := scannedImages_deploymentOf fourContainers
  have hredis : first Img.tag (namesakes fourContainers "redis:6") = some "6" := by decide +kernel
  refine ⟨_, hscan, (resolve_scan hscan hscanned "nginx:1.21").1 (.tag ?_ ?_),
    (resolve_scan hscan hscanned "redis:6").1 (.ownTag ?_ ?_ ?_ fun t ht => ?_), fun hsame => ?_⟩
  · decide +kernel
  · decide +kernel
  · decide +kernel
  · decide +kernel
  · decide +kernel
  · rw [hredis] at ht
    cases ht
    decide +kernel
  · have hentry : entryFor nginxEntry (splitImage "redis:7").1 = none := by decide +kernel
    have hdigests : first Img.digest (namesakes fourContainers "redis:7") = none := by decide +kernel
    have hfirst : first Img.tag (namesakes fourContainers "redis:7") = some "6" := by decide +kernel
    have hown : (splitImage "redis:7").2 = .tag "7" := by decide +kernel
    have hkept := (resolve_scan hscan hscanned "redis:7").2 (by rw [hentry]; rfl) hdigests hsame
    cases hkept with
    | digest hentry' =>
      rw [hentry] at hentry'
      cases hentry'
    | tag hentry' _ =>
      rw [hentry] at hentry'
      cases hentry'
    | ownDigest _ _ d hfirst' _ =>
      rw [hdigests] at hfirst'
      cases hfirst'
    | ownTag _ _ _ hown' =>
      have hsix := hown' "6" hfirst
      rw [hown] at hsix
      exact absurd hsix (by decide)

/-- Of two containers with the same image and different tags, the second gets the tag of the
first. -/
theorem not_resolve_scan : ¬ ∀ images files written scanned, (images.map Image.name).Nodup →
    scanKustomizationForImages images files = .ok written →
    scannedImages (localResources files) = .ok scanned →
    ∀ container ∈ scanned, resolve written container = resolve images container := by
  intro h
  have heq := h [] [deploymentOf ["nginx:1.19", "nginx:1.20"]] _ _ List.nodup_nil
    (scan_deploymentOf [] ["nginx:1.19", "nginx:1.20"])
    (scannedImages_deploymentOf ["nginx:1.19", "nginx:1.20"]) "nginx:1.20" (by simp)
  revert heq
  decide +kernel

end Manifests.ExtractImages
