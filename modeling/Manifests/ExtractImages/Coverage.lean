import Manifests.ExtractImages.FileOrder
import Manifests.ExtractImages.References

/-! Which workloads' images the scan reaches: the kinds that it accepts, where it looks for their pod
template, and the documents on which it ends with an exception. -/
namespace Manifests.ExtractImages
open Library

/-- StatefulSet, Deployment, DaemonSet, ReplicaSet, Job and CronJob. -/
def workloadKinds : List String :=
  ["statefulset", "deployment", "daemonset", "replicaset", "job", "cronjob"]

/-- The kind of a document, in lower case. -/
def kindOf (r : Value) : Option String :=
  match r.get "kind" with
  | some (.str kind) => some kind.toLower
  | _ => none

def Workload (r : Value) : Prop := ∃ kind ∈ workloadKinds, kindOf r = some kind

/-- What is found at the end of a way over keys. -/
def valueAt (v : Value) (keys : List String) : Option Value := keys.foldlM Value.get v

/-- Where a kind has its pod template. -/
def templatePath (kind : String) : List String :=
  if kind = "cronjob" then ["spec", "jobTemplate", "spec", "template"] else ["spec", "template"]

/-- One of the containers in the list at the end of a way has the image. -/
def ImageAt (r : Value) (keys : List String) (s : String) : Prop :=
  ∃ containers c, valueAt r keys = some (.list containers) ∧ c ∈ containers ∧
    c.get "image" = some (.str s)

/-- The lists of a pod template that hold containers. -/
def containerLists : List String := ["containers", "initContainers"]

/-- A container of a workload's pod template has the image, which may be one that runs first. -/
def WorkloadImage (r : Value) (s : String) : Prop :=
  ∃ kind ∈ workloadKinds, kindOf r = some kind ∧
    ∃ containers ∈ containerLists, ImageAt r (templatePath kind ++ ["spec", containers]) s

/-- The script looks at the image. -/
def ReadImage (r : Value) (s : String) : Prop :=
  ∃ kind ∈ acceptedKinds, kindOf r = some kind ∧
    ImageAt r ["spec", "template", "spec", "containers"] s

/-- All documents of a directory. -/
def allDocuments (files : List ResourceFile) : List Value := files.flatMap (·.documents)

/-- The `images` list after the scan, which stays as it is when the scan ends with an exception. -/
def imagesAfter (images : List Image) (files : List ResourceFile) : List Image :=
  match scanKustomizationForImages images files with
  | .ok written => written
  | .error _ => images

/-- Every image of a workload has an entry of its name after the scan, and no other document
ends it. -/
structure Covered (images : List Image) (files : List ResourceFile) : Prop where
  covers : ∀ r ∈ allDocuments files, ∀ image : Reference, WorkloadImage r image.text →
    image.name ∈ (imagesAfter images files).map Image.name
  quiet : ∀ r ∈ localResources files, ¬ Workload r → ∃ imgs, resourceImages r = .ok imgs

/-- The document is a mapping with a kind that is no text. -/
def KindTextless (r : Value) : Prop := ∃ v, r.get "kind" = some v ∧ ∀ s, v ≠ .str s

/-- Every step goes into a mapping, as far as the keys are there. -/
def OnMappings (v : Value) : List String → Prop
  | [] => True
  | key :: keys => ∃ d, v = .dict d ∧ ∀ w, Dict.get d key = some w → OnMappings w keys

/-- A container is a mapping, and its image a text. -/
def ContainerOk (c : Value) : Prop :=
  ∃ d, c = .dict d ∧ ∀ v, Dict.get d "image" = some v → ∃ s, v = .str s

/-- A list of containers, or something else that is empty. -/
def ContainersOk (v : Value) : Prop :=
  v = .str "" ∨ v = .dict [] ∨ ∃ containers, v = .list containers ∧ ∀ c ∈ containers, ContainerOk c

/-- The script gets through a document: its kind is a text, and in one of an accepted kind there are
mappings on the way to the containers, as far as it goes, and the containers are such. -/
def Readable (r : Value) : Prop :=
  ¬ KindTextless r ∧ ∀ kind ∈ acceptedKinds, kindOf r = some kind →
    OnMappings r ["spec", "template", "spec", "containers"] ∧
      ∀ v, valueAt r ["spec", "template", "spec", "containers"] = some v → ContainersOk v

/-- When all workloads are covered: no document that is not a workload has a kind that is no text; and
the name of every image of a workload has an entry already, or it is what `image_from_string` takes
for the name of an image that the script looks at, while it gets through all documents. -/
structure CoveredWhen (images : List Image) (files : List ResourceFile) : Prop where
  kinds : ∀ r ∈ localResources files, ¬ Workload r → ¬ KindTextless r
  names : ∀ r ∈ allDocuments files, ∀ image : Reference, WorkloadImage r image.text →
    image.name ∈ images.map Image.name ∨
      ((∀ r' ∈ localResources files, Readable r') ∧
        ∃ r' ∈ localResources files, ∃ s, ReadImage r' s ∧ (imageFromString s).name = image.name)

variable {images : List Image} {files : List ResourceFile} {resources : List Value}
  {scanned imgs keys : List String} {r v c : Value} {key kind name s : String}

/-- `v[key]…`, over several keys. -/
def getItems (v : Value) : List String → Except PyError Value
  | [] => .ok v
  | key :: keys => do getItems (← getItem v key) keys

theorem containersOf_eq : containersOf r = getItems r ["spec", "template", "spec", "containers"] := by
  have hlast : ∀ v, getItem v "containers" = getItems v ["containers"] := fun v => (bind_pure _).symm
  simp only [containersOf, hlast]
  rfl

theorem valueAt_cons : valueAt v (key :: keys) = (v.get key).bind (valueAt · keys) := by
  rw [valueAt, List.foldlM_cons]
  rfl

/-- Over mappings, the way ends where the document says, or at a key that is not there. -/
theorem getItems_of_onMappings (h : OnMappings v keys) :
    orContinue (getItems v keys) = .ok (valueAt v keys) := by
  induction keys generalizing v with
  | nil => rfl
  | cons key keys ih =>
    obtain ⟨d, rfl, hrest⟩ := h
    rw [getItems, valueAt_cons, getItem, Value.get]
    cases hk : Dict.get d key with
    | none => rfl
    | some w => exact ih (hrest w hk)

theorem getItems_of_not_onMappings (h : ¬ OnMappings v keys) :
    ∃ e, orContinue (getItems v keys) = .error e := by
  induction keys generalizing v with
  | nil => exact (h trivial).elim
  | cons key keys ih =>
    rw [getItems]
    cases v with
    | dict d =>
      rw [getItem]
      cases hk : Dict.get d key with
      | none =>
        refine (h ⟨d, rfl, fun w hw => ?_⟩).elim
        rw [hk] at hw
        cases hw
      | some w =>
        refine ih fun hw => h ⟨d, rfl, fun w' hw' => ?_⟩
        rw [hk] at hw'
        cases hw'
        exact hw
    | _ => exact ⟨.typeError, rfl⟩

/-- The containers' images, when each container is a mapping. -/
theorem containerImages_of_ok {containers : List Value} (h : ∀ c ∈ containers, ContainerOk c) :
    ∃ imgs, containerImages containers = .ok imgs ∧
      ∀ s, s ∈ imgs ↔ ∃ c ∈ containers, c.get "image" = some (.str s) := by
  induction containers with
  | nil => exact ⟨[], rfl, by simp⟩
  | cons c containers ih =>
    obtain ⟨imgs, himgs, hmem⟩ := ih fun c hc => h c (List.mem_cons_of_mem _ hc)
    obtain ⟨d, rfl, himage⟩ := h c List.mem_cons_self
    rw [containerImages, getItem]
    cases hd : Dict.get d "image" with
    | none =>
      refine ⟨imgs, himgs, fun s => ?_⟩
      simp [hmem, Value.get, hd]
    | some v =>
      obtain ⟨s', rfl⟩ := himage v hd
      refine ⟨s' :: imgs, ?_, fun s => ?_⟩
      · simp [orContinue, himgs, bind, Except.bind, pure, Except.pure]
      · simp [hmem, Value.get, hd, eq_comm]

theorem containerImages_of_not_ok {containers : List Value} (hc : c ∈ containers)
    (h : ¬ ContainerOk c) : ∃ e, containerImages containers = .error e := by
  induction containers with
  | nil => cases hc
  | cons c' containers ih =>
    -- the containers in front of it do not keep the loop from it
    have hrest : c ∈ containers → ∃ e, containerImages containers = .error e := ih
    rw [containerImages]
    cases c' with
    | dict d =>
      rw [getItem]
      cases hd : Dict.get d "image" with
      | none =>
        refine hrest ((List.mem_cons.mp hc).resolve_left ?_)
        rintro rfl
        exact h ⟨d, rfl, fun v hv => by rw [hd] at hv; cases hv⟩
      | some v =>
        cases v with
        | str s' =>
          obtain ⟨e, he⟩ := hrest ((List.mem_cons.mp hc).resolve_left (by
            rintro rfl
            exact h ⟨d, rfl, fun v hv => by rw [hd] at hv; cases hv; exact ⟨s', rfl⟩⟩))
          exact ⟨e, by simp [orContinue, he, bind, Except.bind]⟩
        | _ => exact ⟨.typeError, rfl⟩
    | _ => exact ⟨.typeError, rfl⟩

theorem iterate_of_ok (h : ContainersOk v) : ∃ containers, iterate v = .ok containers ∧
    (∀ c ∈ containers, ContainerOk c) ∧ ∀ c, c ∈ containers ↔ ∃ cs, v = .list cs ∧ c ∈ cs := by
  rcases h with rfl | rfl | ⟨containers, rfl, hok⟩
  · exact ⟨[], rfl, nofun, by simp⟩
  · exact ⟨[], rfl, nofun, by simp⟩
  · exact ⟨containers, rfl, hok, by simp⟩

/-- What is no list of containers ends the scan. -/
theorem containerImages_iterate_of_not_ok (h : ¬ ContainersOk v) :
    ∃ e, (iterate v >>= containerImages) = .error e := by
  cases v with
  | list containers =>
    have hbad : ∃ c ∈ containers, ¬ ContainerOk c := by
      by_contra hall
      push Not at hall
      exact h (Or.inr (Or.inr ⟨containers, rfl, hall⟩))
    obtain ⟨c, hc, hbad⟩ := hbad
    exact containerImages_of_not_ok hc hbad
  | dict d =>
    cases d with
    | nil => exact (h (Or.inr (Or.inl rfl))).elim
    | cons entry d => exact containerImages_of_not_ok List.mem_cons_self nofun
  | str s =>
    have hs : s.toList ≠ [] := fun hnil => h (Or.inl (by simpa using hnil))
    obtain ⟨first, rest, hs⟩ := List.exists_cons_of_ne_nil hs
    have hiter : iterate (.str s) =
        .ok (.str (String.singleton first) :: rest.map fun c => .str (String.singleton c)) := by
      rw [iterate, hs, List.map_cons]
    rw [hiter]
    exact containerImages_of_not_ok List.mem_cons_self nofun
  | _ => exact ⟨.typeError, rfl⟩

theorem kindOf_eq_some : kindOf r = some kind ↔
    ∃ text, r.get "kind" = some (.str text) ∧ text.toLower = kind := by
  unfold kindOf
  split
  · next text h => simp [h]
  · next hne =>
    refine iff_of_false nofun ?_
    rintro ⟨text, h, _⟩
    exact hne text h

/-- A document whose kind is not accepted is passed over. -/
theorem resourceImages_of_kind (ht : ¬ KindTextless r)
    (hk : ∀ kind ∈ acceptedKinds, kindOf r ≠ some kind) : resourceImages r = .ok [] := by
  cases r with
  | dict d =>
    have hempty : "".toLower ∉ acceptedKinds := by decide +kernel
    rw [resourceImages]
    cases hd : Dict.get d "kind" with
    | none => simp [hempty]
    | some v =>
      cases v with
      | str text =>
        have hnot : text.toLower ∉ acceptedKinds := fun hin =>
          hk _ hin (kindOf_eq_some.mpr ⟨text, hd, rfl⟩)
        simp [hnot]
      | _ => exact (ht ⟨_, hd, by simp⟩).elim
  | _ => rfl

theorem resourceImages_of_textless (h : KindTextless r) :
    resourceImages r = .error .attributeError := by
  obtain ⟨v, hv, hne⟩ := h
  cases r with
  | dict d =>
    have hd : Dict.get d "kind" = some v := hv
    rw [resourceImages, hd]
    cases v with
    | str s => exact (hne s rfl).elim
    | _ => rfl
  | _ => cases hv

theorem resourceImages_of_accepted (hin : kind ∈ acceptedKinds) (hk : kindOf r = some kind) :
    resourceImages r = (do
      match ← orContinue (containersOf r) with
      | none => return []
      | some containers => containerImages (← iterate containers)) := by
  obtain ⟨text, htext, rfl⟩ := kindOf_eq_some.mp hk
  cases r with
  | dict d =>
    have hd : Dict.get d "kind" = some (.str text) := htext
    rw [resourceImages, hd, Option.getD_some]
    exact if_pos hin
  | _ => cases htext

theorem imageAt_iff : ImageAt r keys s ↔ ∃ v, valueAt r keys = some v ∧
    ∃ c, (∃ cs, v = .list cs ∧ c ∈ cs) ∧ c.get "image" = some (.str s) := by
  constructor
  · rintro ⟨cs, c, hat, hc, himage⟩
    exact ⟨_, hat, c, ⟨cs, rfl, hc⟩, himage⟩
  · rintro ⟨_, hat, c, ⟨cs, rfl, hc⟩, himage⟩
    exact ⟨cs, c, hat, hc, himage⟩

/-- A document that the script gets through: its images are those that it looks at. -/
theorem resourceImages_of_readable (h : Readable r) :
    ∃ imgs, resourceImages r = .ok imgs ∧ ∀ s, s ∈ imgs ↔ ReadImage r s := by
  obtain ⟨htext, hway⟩ := h
  by_cases hk : ∃ kind ∈ acceptedKinds, kindOf r = some kind
  · obtain ⟨kind, hin, hkind⟩ := hk
    obtain ⟨hmappings, hcontainers⟩ := hway kind hin hkind
    have hread : ∀ s, ReadImage r s ↔ ImageAt r ["spec", "template", "spec", "containers"] s := fun s =>
      ⟨fun ⟨_, _, _, himage⟩ => himage, fun himage => ⟨kind, hin, hkind, himage⟩⟩
    rw [resourceImages_of_accepted hin hkind, containersOf_eq, getItems_of_onMappings hmappings]
    simp only [hread, imageAt_iff]
    cases hat : valueAt r ["spec", "template", "spec", "containers"] with
    | none => exact ⟨[], rfl, by simp⟩
    | some v =>
      obtain ⟨containers, hiterate, hok, hmem⟩ := iterate_of_ok (hcontainers v hat)
      obtain ⟨imgs, himgs, himage⟩ := containerImages_of_ok hok
      refine ⟨imgs, ?_, fun s => ?_⟩
      · simp [hiterate, himgs, bind, Except.bind]
      · simp only [himage, hmem, Option.some.injEq, exists_eq_left']
  · push Not at hk
    refine ⟨[], resourceImages_of_kind htext hk, fun s => iff_of_false List.not_mem_nil ?_⟩
    rintro ⟨kind, hin, hkind, _⟩
    exact hk kind hin hkind

theorem resourceImages_of_not_readable (h : ¬ Readable r) : ∃ e, resourceImages r = .error e := by
  by_cases htext : KindTextless r
  · exact ⟨_, resourceImages_of_textless htext⟩
  · have hbad : ∃ kind ∈ acceptedKinds, kindOf r = some kind ∧
        ¬ (OnMappings r ["spec", "template", "spec", "containers"] ∧
          ∀ v, valueAt r ["spec", "template", "spec", "containers"] = some v → ContainersOk v) := by
      by_contra hall
      push Not at hall
      exact h ⟨htext, hall⟩
    obtain ⟨kind, hin, hkind, hway⟩ := hbad
    rw [resourceImages_of_accepted hin hkind, containersOf_eq]
    by_cases hmappings : OnMappings r ["spec", "template", "spec", "containers"]
    · rw [getItems_of_onMappings hmappings]
      have hcontainers : ∃ v, valueAt r ["spec", "template", "spec", "containers"] = some v ∧
          ¬ ContainersOk v := by
        by_contra hall
        push Not at hall
        exact hway ⟨hmappings, hall⟩
      obtain ⟨v, hat, hbad⟩ := hcontainers
      rw [hat]
      exact containerImages_iterate_of_not_ok hbad
    · obtain ⟨e, he⟩ := getItems_of_not_onMappings hmappings
      exact ⟨e, by rw [he]; rfl⟩

theorem resourceImages_ok_iff : (∃ imgs, resourceImages r = .ok imgs) ↔ Readable r := by
  refine ⟨fun ⟨imgs, himgs⟩ => ?_, fun h => ?_⟩
  · by_contra h
    obtain ⟨e, he⟩ := resourceImages_of_not_readable h
    rw [himgs] at he
    cases he
  · obtain ⟨imgs, himgs, _⟩ := resourceImages_of_readable h
    exact ⟨imgs, himgs⟩

/-- The scan gets through all documents or none of its images are written. -/
theorem scannedImages_of_readable (h : ∀ r ∈ resources, Readable r) :
    ∃ scanned, scannedImages resources = .ok scanned ∧
      ∀ s, s ∈ scanned ↔ ∃ r ∈ resources, ReadImage r s := by
  induction resources with
  | nil => exact ⟨[], rfl, by simp⟩
  | cons r resources ih =>
    obtain ⟨imgs, himgs, hmem⟩ := resourceImages_of_readable (h r List.mem_cons_self)
    obtain ⟨scanned, hscanned, hrest⟩ := ih fun r hr => h r (List.mem_cons_of_mem _ hr)
    refine ⟨imgs ++ scanned, scannedImages_cons.mpr ⟨imgs, scanned, himgs, hscanned, rfl⟩, fun s => ?_⟩
    simp [hmem, hrest]

theorem readable_of_scannedImages (h : scannedImages resources = .ok scanned) :
    ∀ r ∈ resources, Readable r := by
  induction resources generalizing scanned with
  | nil => nofun
  | cons r resources ih =>
    obtain ⟨imgs, rest, himgs, hrest, rfl⟩ := scannedImages_cons.mp h
    exact List.forall_mem_cons.mpr ⟨resourceImages_ok_iff.mp ⟨imgs, himgs⟩, ih hrest⟩

theorem mem_names_appendOrUpdate {newImg : Img} :
    name ∈ (appendOrUpdate images newImg).map Image.name ↔
      name ∈ images.map Image.name ∨ name = newImg.name := by
  rcases appendOrUpdate_cases images newImg with ⟨before, e, after, rfl, _, he, heq⟩ | ⟨_, heq⟩
  · rw [heq]
    simp only [List.map_append, List.map_cons, List.mem_append, List.mem_cons, merge, he]
    tauto
  · rw [heq]
    simp [merge]

theorem mem_names_appendAll : name ∈ (appendAll images scanned).map Image.name ↔
    name ∈ images.map Image.name ∨ ∃ s ∈ scanned, (imageFromString s).name = name := by
  induction scanned generalizing images with
  | nil => simp [appendAll]
  | cons s scanned ih =>
    have hstep : appendAll images (s :: scanned) =
        appendAll (appendOrUpdate images (imageFromString s)) scanned := rfl
    rw [hstep, ih, mem_names_appendOrUpdate, or_assoc, List.exists_mem_cons_iff, eq_comm (a := name)]

theorem toLower_ne_capital (c : Char) : c.toLower ≠ 'S' := by
  unfold Char.toLower
  split
  · next h =>
    intro heq
    have hlow : 'A'.toNat ≤ c.toNat := UInt32.le_iff_toNat_le.mp h.1
    have hsum := congrArg Char.toNat heq
    have hadd : (c.val + ('a'.val - 'A'.val)).toNat = (c.toNat + 32) % 2 ^ 32 := UInt32.toNat_add _ _
    have hhigh : c.toNat ≤ 'Z'.toNat := UInt32.le_iff_toNat_le.mp h.2
    have hA : 'A'.toNat = 65 := rfl
    have hZ : 'Z'.toNat = 90 := rfl
    have hS : 'S'.toNat = 83 := rfl
    rw [hS] at hsum
    change (c.val + ('a'.val - 'A'.val)).toNat = 83 at hsum
    omega
  · next h =>
    rintro rfl
    exact h (by decide)

theorem workload_of_accepted (hin : kind ∈ acceptedKinds) (hk : kindOf r = some kind) :
    Workload r := by
  have hkinds : ∀ kind ∈ acceptedKinds, kind ∈ workloadKinds ∨ kind = "daemonSet" := by decide
  rcases hkinds kind hin with hin | rfl
  · exact ⟨kind, hin, hk⟩
  · -- no text has a capital in lower case
    obtain ⟨text, _, htext⟩ := kindOf_eq_some.mp hk
    have hcapital : 'S' ∈ text.toLower.toList := by
      rw [htext]
      decide
    rw [String.toLower, String.toList_map, List.mem_map] at hcapital
    obtain ⟨c, _, hc⟩ := hcapital
    exact (toLower_ne_capital c hc).elim

/-- Documents that are not workloads are only asked for their kind. -/
theorem readable_iff_of_not_workload (h : ¬ Workload r) : Readable r ↔ ¬ KindTextless r :=
  and_iff_left fun _ hin hk => (h (workload_of_accepted hin hk)).elim

theorem mem_imagesAfter : name ∈ (imagesAfter images files).map Image.name ↔
    name ∈ images.map Image.name ∨ ((∀ r ∈ localResources files, Readable r) ∧
      ∃ r ∈ localResources files, ∃ s, ReadImage r s ∧ (imageFromString s).name = name) := by
  unfold imagesAfter scanKustomizationForImages
  by_cases h : ∀ r ∈ localResources files, Readable r
  · obtain ⟨scanned, hscanned, hmem⟩ := scannedImages_of_readable h
    have hafter : name ∈ (appendAll images scanned).map Image.name ↔ _ := mem_names_appendAll
    rw [hscanned]
    refine hafter.trans (or_congr_right ?_)
    simp only [hmem]
    constructor
    · rintro ⟨s, ⟨r, hr, himage⟩, hname⟩
      exact ⟨h, r, hr, s, himage, hname⟩
    · rintro ⟨_, r, hr, s, himage, hname⟩
      exact ⟨s, ⟨r, hr, himage⟩, hname⟩
  · cases hs : scannedImages (localResources files) with
    | ok scanned => exact (h (readable_of_scannedImages hs)).elim
    | error e => simp [h, bind, Except.bind]

/-- The scan covers all workloads exactly when every image of theirs that it does not look at has an
entry for its name all the same, and no document ends the scan. -/
theorem covered_iff (images : List Image) (files : List ResourceFile) :
    Covered images files ↔ CoveredWhen images files := by
  constructor
  · rintro ⟨hcovers, hquiet⟩
    refine ⟨fun r hr hw => ?_, fun r hr image h => mem_imagesAfter.mp (hcovers r hr image h)⟩
    exact (readable_iff_of_not_workload hw).mp (resourceImages_ok_iff.mp (hquiet r hr hw))
  · rintro ⟨hkinds, hnames⟩
    refine ⟨fun r hr image h => mem_imagesAfter.mpr (hnames r hr image h), fun r hr hw => ?_⟩
    exact resourceImages_ok_iff.mpr ((readable_iff_of_not_workload hw).mpr (hkinds r hr hw))

/-- A DaemonSet with one container. -/
def daemonSet : Value :=
  .dict [("kind", .str "DaemonSet"), ("spec", .dict [("template", .dict [("spec",
    .dict [("containers", .list [.dict [("image", .str "nginx:1.19")]])])])])]

/-- The image of its container. -/
def nginxImage : Reference where
  registry := none
  path := ["nginx"]
  tag := some "1.19"
  digest := none
  pathPlain := by simp [Plain]
  tagPlain := by simp [Plain]

/-- It is passed over. -/
theorem not_covered : ¬ ∀ images files, Covered images files := by
  intro h
  have htext : nginxImage.text = "nginx:1.19" := by decide +kernel
  have himage : WorkloadImage daemonSet nginxImage.text := by
    rw [htext]
    exact ⟨"daemonset", by decide, by decide +kernel, "containers", List.mem_cons_self, _, _, rfl,
      List.mem_cons_self, rfl⟩
  have hmem := (h [] [⟨"daemonset.yaml", [daemonSet]⟩]).covers daemonSet List.mem_cons_self _ himage
  have hafter : (imagesAfter [] [⟨"daemonset.yaml", [daemonSet]⟩]).map Image.name = [] := by
    decide +kernel
  rw [hafter] at hmem
  cases hmem

end Manifests.ExtractImages
