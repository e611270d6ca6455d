import Manifests.Library.Text

/-! `air-gapped_environment`: it pulls the images of a list, tags them for the air-gap registry and
pushes the tags. The manifests look for an image under the address of the registry and its name. -/
namespace Manifests.AirGap
open Library

/-- A regular expression of characters and dots; `none` is the dot. -/
abbrev Regex := List (Option Char)

def regex (text : String) : Regex := text.toList.map fun c => if c = '.' then none else some c

def matchesAt : Regex → List Char → Bool
  | [], _ => true
  | _ :: _, [] => false
  | none :: r, _ :: cs => matchesAt r cs
  | some d :: r, c :: cs => c == d && matchesAt r cs

/-- `sed 's:r::'`. -/
def sedRemove (r : Regex) : List Char → List Char
  | [] => []
  | c :: cs => if matchesAt r (c :: cs) then (c :: cs).drop r.length else c :: sedRemove r cs

/-- There is a match. -/
def occurs (r : Regex) (cs : List Char) : Bool := cs.tails.any (matchesAt r)

def maprRegistry : Regex := regex "gcr.io/mapr-252711/"
def k8scsiRegistry : Regex := regex "quay.io/k8scsi/"

/-- `image=$(echo $line | cut -d' ' -f2)`: a line of one word is taken whole. -/
def readImage (line : String) : Option String :=
  match Text.words line with
  | [] => none
  | [word] => some word
  | _ :: word :: _ => some word

/-- The loop over the lines of the input file. -/
def readImages (lines : List String) : List String := lines.filterMap readImage

/-- The images that keep their names. -/
def isWorkaround (image : String) : Bool :=
  Text.contains "notebook-controller" image || Text.contains "zeppelin-operator" image

/-- The name under which the manifests find an image. -/
def pulledName (ip image : String) : String := ip ++ ":5000/" ++ image

/-- The tag of an image. -/
def imageTag (ip image : String) : String :=
  let tag :=
    if isWorkaround image then image
    else String.ofList (sedRemove k8scsiRegistry (sedRemove maprRegistry image.toList))
  ip ++ ":5000/" ++ tag

/-- What the script relies on of docker. A name that is well formed stands for a reference, with the
default registry and tag where it has none: two names may stand for one reference, but the names of two
references do so no more behind an address. A reference has a size, the length of its shortest name. -/
structure Docker (ρ : Type) where
  reference : String → Option ρ
  isTag : ρ → Bool
  pulls : ρ → Bool
  size : ρ → ℕ
  reference_inj : ∀ {ip x y r s t}, reference x = some r → reference y = some s →
    reference (pulledName ip x) = some t → reference (pulledName ip y) = some t → r = s
  size_lt : ∀ {ip x r t}, reference x = some r → reference (pulledName ip x) = some t →
    size r < size t

/-- The local images by reference. An image goes by the reference that it was pulled under. -/
abbrev Store (ρ : Type) := ρ → Option ρ

section
variable {ρ : Type} [DecidableEq ρ] (docker : Docker ρ)

def dockerPull (store : Store ρ) (image : String) : Store ρ :=
  match docker.reference image with
  | some r => if docker.pulls r then Function.update store r (some r) else store
  | none => store

/-- `docker tag`: the tag refers to the image that the name refers to. What is not a tag is refused, such
as a name with a digest, and so is a name without an image. -/
def dockerTag (store : Store ρ) (image tag : String) : Store ρ :=
  match docker.reference image, docker.reference tag with
  | some r, some t =>
    if docker.isTag t ∧ (store r).isSome then Function.update store t (store r) else store
  | _, _ => store

/-- `docker push`: the image that is pushed, if any is. -/
def dockerPush (store : Store ρ) (tag : String) : Option ρ :=
  match docker.reference tag with
  | some t => if docker.isTag t then store t else none
  | none => none

/-- The loop over the images that tags them. -/
def tagImages (ip : String) (store : Store ρ) (images : List String) : Store ρ :=
  images.foldl (fun store image => dockerTag docker store image (imageTag ip image)) store

/-- What the script pushes, in order: each name with its image. -/
def pushes (ip : String) (store : Store ρ) (lines : List String) : List (String × Option ρ) :=
  let images := readImages lines
  let store := images.foldl (dockerPull docker) store
  let tags := images.map (imageTag ip)
  let store := tagImages docker ip store images
  tags.map fun tag => (tag, dockerPush docker store tag)

/-- Each image is pushed under the name that the manifests look for, and different images have
different tags. -/
structure Mirrored (ip : String) (store : Store ρ) (lines : List String) : Prop where
  pushed : pushes docker ip store lines =
    (readImages lines).map fun image => (pulledName ip image, docker.reference image)
  apart : ∀ x ∈ readImages lines, ∀ y ∈ readImages lines, imageTag ip x = imageTag ip y → x = y

/-- The image can be pulled. -/
def Docker.Pullable (image : String) : Prop :=
  ∃ r, docker.reference image = some r ∧ docker.pulls r = true

/-- The name that the manifests look for can be a tag. -/
def Docker.Taggable (ip image : String) : Prop :=
  ∃ t, docker.reference (pulledName ip image) = some t ∧ docker.isTag t = true

end

/-- The script does not shorten the name. -/
def KeepsName (image : String) : Prop :=
  isWorkaround image = true ∨
    (occurs maprRegistry image.toList = false ∧ occurs k8scsiRegistry image.toList = false)

section
variable {r : Regex} {cs : List Char} {ip image : String}

theorem sedRemove_length_le : (sedRemove r cs).length ≤ cs.length := by
  induction cs with
  | nil => exact le_rfl
  | cons c cs ih =>
    rw [sedRemove]
    split
    · rw [List.length_drop]
      omega
    · simpa using ih

theorem sedRemove_of_not_occurs (h : occurs r cs = false) : sedRemove r cs = cs := by
  induction cs with
  | nil => rfl
  | cons c cs ih =>
    rw [occurs, List.tails_cons, List.any_cons, Bool.or_eq_false_iff] at h
    rw [sedRemove, h.1, ih h.2]
    rfl

/-- A match is removed. -/
theorem sedRemove_length_lt (hr : r ≠ []) (h : occurs r cs = true) :
    (sedRemove r cs).length < cs.length := by
  have hlen : 0 < r.length := List.length_pos_iff.mpr hr
  induction cs with
  | nil =>
    obtain _ | ⟨a, r⟩ := r
    · exact (hr rfl).elim
    · simp [occurs, matchesAt] at h
  | cons c cs ih =>
    rw [sedRemove]
    split
    · rw [List.length_drop, List.length_cons]
      omega
    · next hne =>
      rw [occurs, List.tails_cons, List.any_cons, Bool.or_eq_true] at h
      have hrest : occurs r cs = true := h.resolve_left hne
      simpa using ih hrest

theorem imageTag_eq_iff : imageTag ip image = pulledName ip image ↔ KeepsName image := by
  have happend (tag : String) : ip ++ ":5000/" ++ tag = ip ++ ":5000/" ++ image ↔ tag = image :=
    String.append_right_inj _
  unfold imageTag pulledName KeepsName
  rw [happend]
  by_cases hw : isWorkaround image = true
  · simp [hw]
  rw [if_neg hw, or_iff_right hw]
  constructor
  · intro h
    have hlen := congrArg (fun s => s.toList.length) h
    simp only [String.toList_ofList] at hlen
    have hle : (sedRemove k8scsiRegistry (sedRemove maprRegistry image.toList)).length ≤
        (sedRemove maprRegistry image.toList).length := sedRemove_length_le
    have hmapr : occurs maprRegistry image.toList = false := by
      by_contra hne
      have hlt := sedRemove_length_lt (by decide) (Bool.not_eq_false _ ▸ hne)
      omega
    refine ⟨hmapr, ?_⟩
    rw [sedRemove_of_not_occurs hmapr] at hlen
    by_contra hne
    have hlt := sedRemove_length_lt (by decide) (Bool.not_eq_false _ ▸ hne)
    omega
  · rintro ⟨hmapr, hk8scsi⟩
    rw [sedRemove_of_not_occurs hmapr, sedRemove_of_not_occurs hk8scsi, String.ofList_toList]

theorem pulledName_injective : Function.Injective (pulledName ip) := fun _ _ h =>
  (String.append_right_inj _).mp h

theorem length_pulledName (image : String) : image.length < (pulledName ip image).length := by
  have hslash : ":5000/".length = 6 := by decide
  rw [pulledName, String.length_append, String.length_append, hslash]
  omega

end

/-! Copies from cell to cell. Each cell has at first itself in it, and no two different cells are copied
to one. -/

section
variable {ρ : Type} [DecidableEq ρ] {store : Store ρ} {op : ρ × ρ} {ops : List (ρ × ρ)} {c z : ρ} {n : ℕ}
  {size : ρ → ℕ}

def copy (store : Store ρ) (op : ρ × ρ) : Store ρ := Function.update store op.2 (store op.1)

@[simp] theorem copy_self : copy store op op.2 = store op.1 := Function.update_self ..

theorem copy_of_ne (h : z ≠ op.2) : copy store op z = store z := Function.update_of_ne h ..

theorem isSome_copy (h : (store op.1).isSome) (hz : (store z).isSome) : (copy store op z).isSome := by
  by_cases heq : z = op.2
  · rwa [heq, copy_self]
  · rwa [copy_of_ne heq]

/-- Each copy is of the cell itself, as long as nothing was copied to it before. -/
theorem copies_of_apart (hinj : ∀ a ∈ ops, ∀ b ∈ ops, a.2 = b.2 → a.1 = b.1)
    (hstore : ∀ a ∈ ops, store a.1 = some a.1)
    (hapart : ops.Pairwise fun earlier a => a.1 ≠ earlier.2) :
    ∀ a ∈ ops, ops.foldl copy store a.2 = some a.1 := by
  have hkeep (ops : List (ρ × ρ)) (store : Store ρ) (z : ρ) (h : ∀ a ∈ ops, a.2 ≠ z) :
      ops.foldl copy store z = store z := by
    induction ops generalizing store with
    | nil => rfl
    | cons a ops ih =>
      rw [List.foldl_cons, ih _ fun b hb => h b (List.mem_cons_of_mem a hb)]
      exact copy_of_ne (h a List.mem_cons_self).symm
  induction ops generalizing store with
  | nil => simp
  | cons b ops ih =>
    obtain ⟨hb, hrest⟩ := List.pairwise_cons.mp hapart
    have hnext : ∀ a ∈ ops, copy store b a.1 = some a.1 := fun a ha =>
      (copy_of_ne (hb a ha)).trans (hstore a (List.mem_cons_of_mem b ha))
    have hall := ih (fun a ha c hc => hinj a (List.mem_cons_of_mem b ha) c (List.mem_cons_of_mem b hc))
      hnext hrest
    intro a ha
    rw [List.foldl_cons]
    by_cases hlater : ∃ a' ∈ ops, a'.2 = a.2
    · obtain ⟨a', ha', hsame⟩ := hlater
      rw [← hsame, hall a' ha', hinj a' (List.mem_cons_of_mem b ha') a ha hsame]
    · push Not at hlater
      obtain rfl : a = b := (List.mem_cons.mp ha).resolve_right fun hmem => hlater a hmem rfl
      rw [hkeep ops _ _ hlater, copy_self]
      exact hstore a List.mem_cons_self

/-- In the cell is nothing of size `n` or more. -/
def Below (size : ρ → ℕ) (store : Store ρ) (z : ρ) (n : ℕ) : Prop := ∀ c, store z = some c → size c < n

theorem below_copy (h : Below size store z n) (hop : op.2 = z → Below size store op.1 n) :
    Below size (copy store op) z n := by
  intro c hc
  by_cases hz : z = op.2
  · rw [hz, copy_self] at hc
    exact hop hz.symm c hc
  · rw [copy_of_ne hz] at hc
    exact h c hc

/-- A cell with something smaller in it goes on to have that, and with it the one that it is copied to. -/
theorem below_copies (hsize : ∀ a ∈ ops, size a.1 < size a.2)
    (hinj : ∀ a ∈ ops, a.2 = op.2 → a.1 = op.1)
    (hstore : ∀ a ∈ ops, Below size store a.1 (size a.1 + 1)) (hop : Below size store op.1 (size op.1))
    (h : op ∈ ops ∨ Below size store op.2 (size op.1)) :
    Below size (ops.foldl copy store) op.2 (size op.1) := by
  induction ops generalizing store with
  | nil => exact h.resolve_left List.not_mem_nil
  | cons b ops ih =>
    have hlow {n : ℕ} (hn : size b.1 < n) : Below size store b.1 n := fun c hc => by
      have := hstore b List.mem_cons_self c hc
      omega
    have hb := hsize b List.mem_cons_self
    refine ih (fun a ha => hsize a (List.mem_cons_of_mem b ha))
      (fun a ha => hinj a (List.mem_cons_of_mem b ha)) ?_ ?_ ?_
    · intro a ha
      refine below_copy (hstore a (List.mem_cons_of_mem b ha)) fun heq => ?_
      rw [← heq]
      exact hlow (by omega)
    · refine below_copy hop fun heq => ?_
      rw [← heq]
      exact hlow hb
    · rcases h with hmem | hbelow
      · rcases List.mem_cons.mp hmem with rfl | hmem
        · right
          intro c hc
          rw [copy_self] at hc
          exact hop c hc
        · exact Or.inl hmem
      · right
        refine below_copy hbelow fun heq => ?_
        rw [hinj b List.mem_cons_self heq]
        exact hop

theorem apart_of_copies (hsize : ∀ a ∈ ops, size a.1 < size a.2)
    (hinj : ∀ a ∈ ops, ∀ b ∈ ops, a.2 = b.2 → a.1 = b.1)
    (hstore : ∀ a ∈ ops, Below size store a.1 (size a.1 + 1))
    (h : ∀ a ∈ ops, ops.foldl copy store a.2 = some a.1) :
    ops.Pairwise fun earlier a => a.1 ≠ earlier.2 := by
  induction ops generalizing store with
  | nil => exact .nil
  | cons b ops ih =>
    have hb : Below size store b.1 (size b.1 + 1) := hstore b List.mem_cons_self
    have hlt := hsize b List.mem_cons_self
    have hsize' : ∀ a ∈ ops, size a.1 < size a.2 := fun a ha => hsize a (List.mem_cons_of_mem b ha)
    have hinj' : ∀ a ∈ ops, ∀ c ∈ ops, a.2 = c.2 → a.1 = c.1 := fun a ha c hc =>
      hinj a (List.mem_cons_of_mem b ha) c (List.mem_cons_of_mem b hc)
    have hnext : ∀ a ∈ ops, Below size (copy store b) a.1 (size a.1 + 1) := by
      intro a ha
      refine below_copy (hstore a (List.mem_cons_of_mem b ha)) fun heq c hc => ?_
      have := hb c hc
      rw [← heq]
      omega
    refine List.pairwise_cons.mpr
      ⟨?_, ih hsize' hinj' hnext fun a ha => h a (List.mem_cons_of_mem b ha)⟩
    intro a ha heq
    -- what is copied later was copied to before, and so it is of the earlier one
    have hbelow : Below size (copy store b) a.1 (size a.1) := by
      intro c hc
      rw [heq, copy_self] at hc
      have := hb c hc
      rw [heq]
      omega
    have hfinal := below_copies hsize' (fun c hc => hinj' c hc a ha) hnext hbelow (Or.inl ha)
    exact absurd (hfinal _ (h a (List.mem_cons_of_mem b ha))) (lt_irrefl _)

end

section
variable {ρ : Type} {docker : Docker ρ} {ip x : String} {store : Store ρ} {images : List String}
  {op a b : ρ × ρ} {r t : ρ}

/-- The reference of an image and that of the name that the manifests look for. -/
def copyOf (docker : Docker ρ) (ip image : String) : Option (ρ × ρ) :=
  match docker.reference image, docker.reference (pulledName ip image) with
  | some r, some t => some (r, t)
  | _, _ => none

theorem copyOf_eq_some : copyOf docker ip x = some op ↔
    docker.reference x = some op.1 ∧ docker.reference (pulledName ip x) = some op.2 := by
  unfold copyOf
  split
  · next r t hr ht => simp [hr, ht, Prod.ext_iff]
  · next hnot =>
    exact iff_of_false (by simp) fun h => hnot op.1 op.2 h.1 h.2

theorem copyOf_inj (ha : a ∈ images.filterMap (copyOf docker ip))
    (hb : b ∈ images.filterMap (copyOf docker ip)) (h : a.2 = b.2) : a.1 = b.1 := by
  obtain ⟨x, _, hx⟩ := List.mem_filterMap.mp ha
  obtain ⟨y, _, hy⟩ := List.mem_filterMap.mp hb
  obtain ⟨hx, hxt⟩ := copyOf_eq_some.mp hx
  obtain ⟨hy, hyt⟩ := copyOf_eq_some.mp hy
  exact docker.reference_inj hx hy hxt (h ▸ hyt)

theorem size_lt_of_mem (h : op ∈ images.filterMap (copyOf docker ip)) :
    docker.size op.1 < docker.size op.2 := by
  obtain ⟨x, _, hx⟩ := List.mem_filterMap.mp h
  obtain ⟨hx, hxt⟩ := copyOf_eq_some.mp hx
  exact docker.size_lt hx hxt

theorem dockerPush_eq (ht : docker.reference (pulledName ip x) = some t)
    (histag : docker.isTag t = true) : dockerPush docker store (pulledName ip x) = store t := by
  rw [dockerPush, ht]
  exact if_pos histag

theorem taggable_of_push (h : dockerPush docker store (pulledName ip x) = some r) :
    docker.Taggable ip x := by
  unfold dockerPush at h
  split at h
  · next t ht =>
    split at h
    · next histag => exact ⟨t, ht, histag⟩
    · cases h
  · cases h

/-- The copies are apart as the references of the images are. -/
theorem apart_iff (hpull : ∀ x ∈ images, docker.Pullable x) (htag : ∀ x ∈ images, docker.Taggable ip x) :
    (images.filterMap (copyOf docker ip)).Pairwise (fun earlier op => op.1 ≠ earlier.2) ↔
      images.Pairwise fun earlier image =>
        docker.reference image ≠ docker.reference (pulledName ip earlier) := by
  rw [List.pairwise_filterMap]
  refine List.Pairwise.iff_of_mem fun {earlier image} hearlier himage => ?_
  obtain ⟨r, hr, _⟩ := hpull image himage
  obtain ⟨s, hs, _⟩ := hpull earlier hearlier
  obtain ⟨t, ht, _⟩ := htag earlier hearlier
  obtain ⟨u, hu, _⟩ := htag image himage
  have hfirst : copyOf docker ip earlier = some (s, t) := copyOf_eq_some.mpr ⟨hs, ht⟩
  have hsecond : copyOf docker ip image = some (r, u) := copyOf_eq_some.mpr ⟨hr, hu⟩
  rw [hfirst, hsecond, hr, ht]
  simp

variable [DecidableEq ρ]

theorem dockerPull_keeps (h : store r = some r) : dockerPull docker store x r = some r := by
  cases hx : docker.reference x with
  | none => simpa [dockerPull, hx] using h
  | some s =>
    rw [dockerPull, hx]
    simp only
    split
    · by_cases hs : r = s
      · rw [hs]
        exact Function.update_self ..
      · exact (Function.update_of_ne hs ..).trans h
    · exact h

theorem pulled (hpull : ∀ x ∈ images, docker.Pullable x) (hx : x ∈ images)
    (hr : docker.reference x = some r) : images.foldl (dockerPull docker) store r = some r := by
  have hkeep (images : List String) (store : Store ρ) (h : store r = some r) :
      images.foldl (dockerPull docker) store r = some r := by
    induction images generalizing store with
    | nil => exact h
    | cons y images ih => exact ih _ (dockerPull_keeps h)
  induction images generalizing store with
  | nil => cases hx
  | cons y images ih =>
    rcases List.mem_cons.mp hx with rfl | hx
    · obtain ⟨s, hs, hpulls⟩ := hpull x List.mem_cons_self
      cases hr.symm.trans hs
      refine hkeep images _ ?_
      rw [dockerPull, hr]
      simp [hpulls]
    · exact ih (fun x hx => hpull x (List.mem_cons_of_mem y hx)) hx

theorem pulled_copies (hpull : ∀ x ∈ images, docker.Pullable x)
    (hop : op ∈ images.filterMap (copyOf docker ip)) :
    images.foldl (dockerPull docker) store op.1 = some op.1 := by
  obtain ⟨x, hx, hxop⟩ := List.mem_filterMap.mp hop
  exact pulled hpull hx (copyOf_eq_some.mp hxop).1

/-- When all names can be tags, the loop over the images copies from reference to reference. -/
theorem tagImages_eq (hkeeps : ∀ x ∈ images, imageTag ip x = pulledName ip x)
    (htag : ∀ x ∈ images, docker.Taggable ip x)
    (hstore : ∀ x ∈ images, ∃ r, docker.reference x = some r ∧ (store r).isSome) :
    tagImages docker ip store images = (images.filterMap (copyOf docker ip)).foldl copy store := by
  induction images generalizing store with
  | nil => rfl
  | cons x images ih =>
    obtain ⟨r, hr, hsome⟩ := hstore x List.mem_cons_self
    obtain ⟨t, ht, histag⟩ := htag x List.mem_cons_self
    have hcopy : copyOf docker ip x = some (r, t) := copyOf_eq_some.mpr ⟨hr, ht⟩
    have hfirst : dockerTag docker store x (imageTag ip x) = copy store (r, t) := by
      rw [hkeeps x List.mem_cons_self, dockerTag, hr, ht]
      exact if_pos ⟨histag, hsome⟩
    rw [List.filterMap_cons_some hcopy, List.foldl_cons, tagImages, List.foldl_cons, hfirst]
    refine ih (fun y hy => hkeeps y (List.mem_cons_of_mem x hy))
      (fun y hy => htag y (List.mem_cons_of_mem x hy)) fun y hy => ?_
    obtain ⟨s, hs, hthere⟩ := hstore y (List.mem_cons_of_mem x hy)
    exact ⟨s, hs, isSome_copy hsome hthere⟩

theorem tag_pulled (hpull : ∀ x ∈ images, docker.Pullable x)
    (hkeeps : ∀ x ∈ images, imageTag ip x = pulledName ip x)
    (htag : ∀ x ∈ images, docker.Taggable ip x) :
    tagImages docker ip (images.foldl (dockerPull docker) store) images =
      (images.filterMap (copyOf docker ip)).foldl copy (images.foldl (dockerPull docker) store) := by
  refine tagImages_eq hkeeps htag fun x hx => ?_
  obtain ⟨r, hr, _⟩ := hpull x hx
  exact ⟨r, hr, by rw [pulled hpull hx hr]; rfl⟩

/-- What is pushed for the images has the names and the references that are looked for. -/
theorem pushed_iff (lines : List String) : pushes docker ip store lines =
    ((readImages lines).map fun image => (pulledName ip image, docker.reference image)) ↔
      ∀ x ∈ readImages lines, imageTag ip x = pulledName ip x ∧
        dockerPush docker (tagImages docker ip ((readImages lines).foldl (dockerPull docker) store)
          (readImages lines)) (imageTag ip x) = docker.reference x := by
  simp only [pushes, List.map_map, List.map_inj_left, Function.comp, Prod.mk.injEq]

end

/-- A docker of names that stand for themselves, where only a digest keeps a name from being a tag. -/
def plainDocker : Docker String where
  reference name := some name
  isTag r := !r.toList.contains '@'
  pulls _ := true
  size := String.length
  reference_inj hx hy hxt hyt := by
    cases hx
    cases hy
    exact pulledName_injective (Option.some.inj (hxt.trans hyt.symm))
  size_lt hx hxt := by
    cases hx
    cases hxt
    exact length_pulledName _

theorem plainDocker_pullable (image : String) : plainDocker.Pullable image := ⟨image, rfl, rfl⟩

/-- An image of the two families that keep their names, and one of another registry. -/
def keptImages : List String :=
  ["gcr.io/mapr-252711/kf-ecp-5.3.0/notebook-controller:1.0", "docker.io/istio/pilot:1.9.6"]

theorem keptImages_read : readImages keptImages = keptImages := by decide +kernel

theorem keptImages_keep : ∀ image ∈ keptImages, KeepsName image :=
  List.forall_mem_cons.mpr ⟨Or.inl (by decide),
    List.forall_mem_singleton.mpr (Or.inr ⟨by decide, by decide⟩)⟩

theorem keptImages_taggable : ∀ image ∈ keptImages, plainDocker.Taggable "10.0.0.1" image :=
  List.forall_mem_cons.mpr ⟨⟨_, rfl, by decide⟩, List.forall_mem_singleton.mpr ⟨_, rfl, by decide⟩⟩

/-- The controller of the profiles, as the manifests name it. -/
def profileController : List String := ["gcr.io/mapr-252711/kf-ecp-5.3.0/profile-controller:1.0"]

end Manifests.AirGap
