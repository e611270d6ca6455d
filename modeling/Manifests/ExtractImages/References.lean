import Manifests.ExtractImages

/-! Image references, part by part, and how `image_from_string` takes them apart. -/
namespace Manifests.ExtractImages
open Library

/-- A part has none of the characters that stand between parts. -/
def Plain (s : String) : Prop := ∀ c ∈ s.toList, c ≠ ':' ∧ c ≠ '@' ∧ c ≠ '/'

/-- A registry, as in `host` or `host:port`. -/
structure Registry where
  host : String
  port : Option String
  hostPlain : Plain host
  portPlain : ∀ p ∈ port, Plain p

/-- A digest, as in `algorithm:encoded`. -/
structure Digest where
  algorithm : String
  encoded : String
  algorithmPlain : Plain algorithm
  encodedPlain : Plain encoded

/-- A reference to an image: a repository, and perhaps a tag and a digest. -/
structure Reference where
  registry : Option Registry
  path : List String
  tag : Option String
  digest : Option Digest
  pathPlain : ∀ s ∈ path, Plain s
  tagPlain : ∀ t ∈ tag, Plain t ∧ t ≠ ""

def Registry.text (r : Registry) : String := r.host ++ r.port.elim "" (":" ++ ·)

def Digest.text (d : Digest) : String := d.algorithm ++ ":" ++ d.encoded

/-- The name of the repository. -/
def Reference.name (r : Reference) : String :=
  r.registry.elim "" (·.text ++ "/") ++ "/".intercalate r.path

/-- `name[:tag][@digest]`. -/
def Reference.text (r : Reference) : String :=
  r.name ++ r.tag.elim "" (":" ++ ·) ++ r.digest.elim "" fun d => "@" ++ d.text

/-- The parts of a reference. The tag is `latest` when there is neither a tag nor a digest. -/
def Reference.img (r : Reference) : Img where
  name := r.name
  tag := r.tag.getD (if r.digest.isSome then "" else "latest")
  digest := r.digest.elim "" Digest.text

/-- An image as a reference. -/
def Img.text (img : Img) : String :=
  img.name ++ (if img.tag = "" then "" else ":" ++ img.tag) ++
    (if img.digest = "" then "" else "@" ++ img.digest)

/-- The registry is given with its port. -/
def Reference.HasPort (r : Reference) : Prop := ∃ registry ∈ r.registry, registry.port.isSome

/-- The reference comes apart as it is written, and its parts make it up again. -/
structure SplitsAsWritten (r : Reference) : Prop where
  parts : imageFromString r.text = r.img
  text : (imageFromString r.text).text =
    if r.tag = none ∧ r.digest = none then r.text ++ ":latest" else r.text

variable {r : Reference} {s before after : String} {c : Char} {t : String} {d : Digest}

theorem Plain.not_mem (h : Plain s) : ':' ∉ s.toList ∧ '@' ∉ s.toList :=
  ⟨fun hm => (h _ hm).1 rfl, fun hm => (h _ hm).2.1 rfl⟩

theorem rsplit_eq (hs : s.toList = before.toList ++ c :: after.toList) (h : c ∉ after.toList) :
    rsplit c s = (before, after) := by
  rw [rsplit, hs, Text.splitLast_append h]
  simp

/-- What stands in front of the last separator is shorter than the text. -/
theorem length_rsplit (h : c ∈ s.toList) : (rsplit c s).1.toList.length < s.toList.length := by
  obtain ⟨before, after, hs, hafter⟩ :
      ∃ before after, s.toList = before ++ c :: after ∧ c ∉ after := by
    obtain ⟨after, before, heq, hnot⟩ := List.eq_append_cons_of_mem (List.mem_reverse.mpr h)
    refine ⟨before.reverse, after.reverse, ?_, by simpa using hnot⟩
    rw [← List.reverse_reverse s.toList, heq]
    simp
  rw [rsplit, hs, Text.splitLast_append hafter]
  simp

theorem mem_intercalate {path : List String} (h : c ∈ ("/".intercalate path).toList) :
    c = '/' ∨ ∃ s ∈ path, c ∈ s.toList := by
  induction path with
  | nil => simp at h
  | cons s path ih =>
    cases path with
    | nil =>
      rw [String.intercalate_singleton] at h
      exact Or.inr ⟨s, List.mem_cons_self, h⟩
    | cons s' path =>
      rw [String.intercalate_cons_cons, String.toList_append, String.toList_append, List.mem_append,
        List.mem_append] at h
      rcases h with (h | h) | h
      · exact Or.inr ⟨s, List.mem_cons_self, h⟩
      · exact Or.inl (List.mem_singleton.mp h)
      · rcases ih h with h | ⟨s'', hs, h⟩
        · exact Or.inl h
        · exact Or.inr ⟨s'', List.mem_cons_of_mem _ hs, h⟩

theorem separator_mem_path (h : c ∈ ("/".intercalate r.path).toList) : c ≠ ':' ∧ c ≠ '@' := by
  rcases mem_intercalate h with rfl | ⟨s, hs, h⟩
  · decide
  · exact ⟨(r.pathPlain s hs c h).1, (r.pathPlain s hs c h).2.1⟩

/-- In a registry, only the port is set off with a colon. -/
theorem mem_registry (registry : Registry) (h : c ∈ registry.text.toList) :
    c ≠ '@' ∧ (c = ':' → registry.port.isSome) := by
  obtain ⟨host, port, hostPlain, portPlain⟩ := registry
  rw [Registry.text, String.toList_append, List.mem_append] at h
  rcases h with h | h
  · exact ⟨(hostPlain c h).2.1, fun hc => ((hostPlain c h).1 hc).elim⟩
  · cases port with
    | none => simp at h
    | some p =>
      refine ⟨?_, fun _ => rfl⟩
      simp only [Option.elim_some, String.toList_append, List.mem_append] at h
      rcases h with h | h
      · obtain rfl := List.mem_singleton.mp h
        decide
      · exact (portPlain p rfl c h).2.1

theorem at_not_mem_name (r : Reference) : '@' ∉ r.name.toList := by
  rw [Reference.name, String.toList_append, List.mem_append]
  rintro (h | h)
  · cases hr : r.registry with
    | none => simp [hr] at h
    | some registry =>
      rw [hr] at h
      simp only [Option.elim_some, String.toList_append, List.mem_append] at h
      rcases h with h | h
      · exact (mem_registry registry h).1 rfl
      · simp at h
  · exact (separator_mem_path h).2 rfl

/-- A name has a colon exactly when its registry has a port. -/
theorem colon_mem_name : ':' ∈ r.name.toList ↔ r.HasPort := by
  rw [Reference.name, String.toList_append, List.mem_append]
  constructor
  · rintro (h | h)
    · cases hr : r.registry with
      | none => simp [hr] at h
      | some registry =>
        rw [hr] at h
        simp only [Option.elim_some, String.toList_append, List.mem_append] at h
        rcases h with h | h
        · exact ⟨registry, hr, (mem_registry registry h).2 rfl⟩
        · simp at h
    · exact ((separator_mem_path h).1 rfl).elim
  · rintro ⟨registry, hr, hport⟩
    obtain ⟨p, hp⟩ := Option.isSome_iff_exists.mp hport
    left
    rw [Option.mem_def.mp hr]
    simp [Registry.text, hp]

theorem at_not_mem_digest (d : Digest) : '@' ∉ d.text.toList := by
  simp only [Digest.text, String.toList_append, List.mem_append]
  rintro ((h | h) | h)
  · exact d.algorithmPlain.not_mem.2 h
  · simp at h
  · exact d.encodedPlain.not_mem.2 h

theorem digest_ne_empty (d : Digest) : d.text ≠ "" := by
  intro h
  have hmem : ':' ∈ d.text.toList := by simp [Digest.text]
  simp [h] at hmem

/-- With a digest, everything in front of it is the name. -/
theorem imageFromString_digest (hd : r.digest = some d) : imageFromString r.text =
    { name := r.name ++ r.tag.elim "" (":" ++ ·), tag := "", digest := d.text } := by
  have htext : r.text.toList =
      (r.name ++ r.tag.elim "" (":" ++ ·)).toList ++ '@' :: d.text.toList := by
    simp [Reference.text, hd]
  have hcolon : ':' ∈ r.text.toList := by
    rw [htext]
    simp [Digest.text]
  have hat : '@' ∈ r.text.toList := by
    rw [htext]
    simp
  simp only [imageFromString, hcolon, hat, if_true, rsplit_eq htext (at_not_mem_digest d)]

theorem at_not_mem_text (hd : r.digest = none) : '@' ∉ r.text.toList := by
  simp only [Reference.text, hd, Option.elim_none, String.append_empty, String.toList_append,
    List.mem_append]
  rintro (h | h)
  · exact at_not_mem_name r h
  · cases ht : r.tag with
    | none => simp [ht] at h
    | some t =>
      rw [ht] at h
      simp only [Option.elim_some, String.toList_append, List.mem_append] at h
      rcases h with h | h
      · simp at h
      · exact (r.tagPlain t ht).1.not_mem.2 h

theorem imageFromString_tag (hd : r.digest = none) (ht : r.tag = some t) :
    imageFromString r.text = { name := r.name, tag := t, digest := "" } := by
  have htext : r.text.toList = r.name.toList ++ ':' :: t.toList := by
    simp [Reference.text, hd, ht]
  have hcolon : ':' ∈ r.text.toList := by
    rw [htext]
    simp
  simp only [imageFromString, hcolon, at_not_mem_text hd, if_true, if_false,
    rsplit_eq htext (r.tagPlain t ht).1.not_mem.1]

theorem imageFromString_name (hd : r.digest = none) (ht : r.tag = none) (hp : ¬ r.HasPort) :
    imageFromString r.text = { name := r.name, tag := "latest", digest := "" } := by
  have htext : r.text = r.name := by simp [Reference.text, hd, ht]
  have hcolon : ':' ∉ r.name.toList := fun h => hp (colon_mem_name.mp h)
  have hlatest : (r.name ++ ":latest").toList = r.name.toList ++ ':' :: "latest".toList := by simp
  have hat : '@' ∉ (r.name ++ ":latest").toList := by
    rw [hlatest, List.mem_append]
    rintro (h | h)
    · exact at_not_mem_name r h
    · exact absurd h (by decide)
  rw [htext]
  simp only [imageFromString, hcolon, if_false, hat, rsplit_eq hlatest (by decide)]

/-- Without a tag and a digest, the port is taken for the tag. -/
theorem imageFromString_port (hd : r.digest = none) (ht : r.tag = none) (hp : r.HasPort) :
    (imageFromString r.text).name ≠ r.name := by
  have htext : r.text = r.name := by simp [Reference.text, hd, ht]
  have hcolon : ':' ∈ r.name.toList := colon_mem_name.mpr hp
  rw [htext]
  simp only [imageFromString, hcolon, if_true, at_not_mem_name r, if_false]
  intro h
  have hlen := length_rsplit hcolon
  rw [h] at hlen
  omega

/-- A reference comes apart as it is written exactly when it does not have both a tag and a digest, and
has one of them if its registry has a port. -/
theorem splitsAsWritten_iff (r : Reference) : SplitsAsWritten r ↔
    (r.tag = none ∨ r.digest = none) ∧ (r.HasPort → r.tag ≠ none ∨ r.digest ≠ none) := by
  cases hd : r.digest with
  | some d =>
    have himg := imageFromString_digest hd
    cases ht : r.tag with
    | some t =>
      refine iff_of_false (fun h => ?_) (by simp)
      have hname := congrArg Img.name h.parts
      rw [himg, Reference.img, ht] at hname
      have hlen := congrArg String.length hname
      simp at hlen
    | none =>
      refine iff_of_true ?_ (by simp)
      rw [ht] at himg
      constructor
      · rw [himg, Reference.img, hd, ht]
        simp
      · rw [himg]
        simp [Img.text, Reference.text, hd, ht, digest_ne_empty]
  | none =>
    cases ht : r.tag with
    | some t =>
      have himg := imageFromString_tag hd ht
      refine iff_of_true ?_ (by simp)
      constructor
      · rw [himg, Reference.img, hd, ht]
        simp
      · rw [himg]
        simp [Img.text, Reference.text, hd, ht, (r.tagPlain t ht).2]
    | none =>
      by_cases hp : r.HasPort
      · refine iff_of_false (fun h => ?_) (by simp [hp])
        exact imageFromString_port hd ht hp (congrArg Img.name h.parts)
      · have himg := imageFromString_name hd ht hp
        refine iff_of_true ?_ (by simp [hp])
        constructor
        · rw [himg, Reference.img, hd, ht]
          simp
        · rw [himg]
          simp [Img.text, Reference.text, hd, ht]

/-- A local registry's image, without a tag. -/
def localImage : Reference where
  registry := some ⟨"localhost", some "5000", by simp [Plain], by simp [Plain]⟩
  path := ["app"]
  tag := none
  digest := none
  pathPlain := by simp [Plain]
  tagPlain := nofun

/-- Its port becomes a tag. -/
theorem not_splitsAsWritten : ¬ ∀ r, SplitsAsWritten r := by
  intro h
  have hparts := (h localImage).parts
  have hsplit : imageFromString localImage.text = ⟨"localhost", "5000/app", ""⟩ := by
    decide +kernel
  have himg : localImage.img = ⟨"localhost:5000/app", "latest", ""⟩ := by decide +kernel
  rw [hsplit, himg] at hparts
  simp at hparts

end Manifests.ExtractImages
