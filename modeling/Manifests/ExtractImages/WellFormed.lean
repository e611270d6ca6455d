import Manifests.ExtractImages.Preservation

/-! One image is merged into an `images` list: what `append_or_update` keeps and what it adds. -/
namespace Manifests.ExtractImages
open Library

/-- What becomes of an entry: it keeps all that it has, and only an entry of the image's name gets
more. -/
structure Keeps (newImg : Img) (before after : Image) : Prop where
  name : after.name = before.name
  newName : ∀ v, before.newName = some v → after.newName = some v
  newTag : ∀ v, before.newTag = some v → after.newTag = some v
  digest : ∀ v, before.digest = some v → after.digest = some v
  other : before.name ≠ newImg.name → after = before

/-- The entry has what the image asks for. -/
structure Holds (newImg : Img) (e : Image) : Prop where
  name : e.name = newImg.name
  newName : e.newName.isSome
  newTag : newImg.tag ≠ "" → e.newTag.isSome
  digest : newImg.digest ≠ "" → e.digest.isSome

/-- The image is merged into the list: names stay distinct, the entries stay in their places with all
that they have, at most one entry is added, for the image's name behind them, and this name has its
entry. -/
structure Merged (newImg : Img) (images after : List Image) : Prop where
  nodup : (after.map Image.name).Nodup
  kept : ∃ same added, after = same ++ added ∧ List.Forall₂ (Keeps newImg) images same ∧
    (added = [] ∨ ∃ e, added = [e] ∧ e.name = newImg.name)
  entry : ∃ e ∈ after, Holds newImg e

variable {images : List Image} {newImg : Img} {e : Image} {name : String}

theorem Keeps.refl (newImg : Img) (e : Image) : Keeps newImg e e where
  name := rfl
  newName _ h := h
  newTag _ h := h
  digest _ h := h
  other _ := rfl

theorem keeps_merge (h : e.name = newImg.name) : Keeps newImg e (merge (some e) newImg) where
  name := h.symm
  newName v hv := by simp [merge, hv]
  newTag v hv := by simp [merge_newTag, hv]
  digest v hv := by simp [merge_digest, hv]
  other hne := (hne h).elim

theorem holds_merge (entry : Option Image) (newImg : Img) : Holds newImg (merge entry newImg) where
  name := rfl
  newName := rfl
  newTag ht := by simp [merge_newTag, present, ht]
  digest hd := by simp [merge_digest, present, hd]

/-- `append_or_update` merges into the first entry of the name, or appends an entry for it. -/
theorem appendOrUpdate_cases (images : List Image) (newImg : Img) :
    (∃ before e after, images = before ++ e :: after ∧ (∀ b ∈ before, b.name ≠ newImg.name) ∧
      e.name = newImg.name ∧ appendOrUpdate images newImg = before ++ merge (some e) newImg :: after) ∨
    ((∀ b ∈ images, b.name ≠ newImg.name) ∧
      appendOrUpdate images newImg = images ++ [merge none newImg]) := by
  induction images with
  | nil => exact Or.inr ⟨nofun, rfl⟩
  | cons e images ih =>
    rw [appendOrUpdate]
    by_cases he : e.name = newImg.name
    · refine Or.inl ⟨[], e, images, rfl, nofun, he, ?_⟩
      rw [if_pos he]
      simp [merge, he]
    · rw [if_neg he]
      rcases ih with ⟨before, e', after, rfl, hbefore, he', heq⟩ | ⟨hnone, heq⟩
      · exact Or.inl ⟨e :: before, e', after, rfl, List.forall_mem_cons.mpr ⟨he, hbefore⟩, he',
          congrArg (e :: ·) heq⟩
      · exact Or.inr ⟨List.forall_mem_cons.mpr ⟨he, hnone⟩, congrArg (e :: ·) heq⟩

theorem forall₂_keeps_rfl (images : List Image) : List.Forall₂ (Keeps newImg) images images :=
  List.forall₂_same.mpr fun e _ => Keeps.refl newImg e

/-- Merging one image keeps the list well-formed. -/
theorem merged_appendOrUpdate (images : List Image) (newImg : Img)
    (h : (images.map Image.name).Nodup) : Merged newImg images (appendOrUpdate images newImg) := by
  rcases appendOrUpdate_cases images newImg with ⟨before, e, after, rfl, _, he, heq⟩ | ⟨hnone, heq⟩
  · rw [heq]
    refine ⟨?_, ⟨_, [], (List.append_nil _).symm, ?_, Or.inl rfl⟩, ⟨merge (some e) newImg, by simp,
      holds_merge _ _⟩⟩
    · simpa [merge, he] using h
    · exact List.rel_append (forall₂_keeps_rfl before)
        (List.Forall₂.cons (keeps_merge he) (forall₂_keeps_rfl after))
  · rw [heq]
    refine ⟨?_, ⟨images, _, rfl, forall₂_keeps_rfl images, Or.inr ⟨_, rfl, rfl⟩⟩,
      ⟨merge none newImg, by simp, holds_merge _ _⟩⟩
    rw [List.map_append, List.nodup_append]
    refine ⟨h, List.nodup_singleton _, ?_⟩
    intro n hn m hm
    obtain ⟨b, hb, rfl⟩ := List.mem_map.mp hn
    rw [List.map_cons, List.map_nil, List.mem_singleton] at hm
    rw [hm]
    exact hnone b hb

/-- An entry with an empty tag, and one for another image. -/
theorem merged_appendOrUpdate_nginx :
    Merged ⟨"nginx", "1.19", ""⟩ [⟨"redis", none, none, none⟩, ⟨"nginx", none, some "", none⟩]
      (appendOrUpdate [⟨"redis", none, none, none⟩, ⟨"nginx", none, some "", none⟩]
        ⟨"nginx", "1.19", ""⟩) :=
  merged_appendOrUpdate _ _ (by decide)

end Manifests.ExtractImages
