import Manifests.KfParse.Limit
import Manifests.KfParse.Termination

/-! For which documents the extraction returns, and a file's images are printed. -/
namespace Manifests.KfParse
open Library Relation

/-- With a limit that is large enough, the extraction returns. -/
def Returns (format : Value → String) (v : Value) : Prop :=
  ∃ depth images, ∀ limit, depth ≤ limit → extractImagesRecursively format limit v = .ok images

/-- An object that is called for has a key whose value is an object, and the image of that is neither
a string nor an object. -/
def IllTypedImage : Value → Prop
  | .dict d => ∃ e, ReflTransGen Child d e ∧ ∃ k f v, (k, .dict f) ∈ e ∧ ("image", v) ∈ f ∧
      (∀ s, v ≠ .str s) ∧ ∀ o, v ≠ .dict o
  | _ => False

variable {format : Value → String} {d : Dict} {v : Value} {text : String}

theorem reaches_none_iff : Reaches format d none ↔ IllTypedImage (.dict d) := by
  constructor
  · rintro ⟨e, hpath, hfinds⟩
    cases hfinds with
    | illTyped hf h hs hd => exact ⟨e, hpath, _, _, _, hf, h, hs, hd⟩
  · rintro ⟨e, hpath, k, f, v, hf, h, hs, hd⟩
    exact ⟨e, hpath, .illTyped hf h hs hd⟩

/-- An exception of the extraction is never the end of a shorter list. -/
theorem not_illTypedImage_of_ok {limit : Nat} {images : List String}
    (h : extractImagesRecursively format limit v = .ok images) : ¬ IllTypedImage v := by
  cases v with
  | dict d => exact fun hill => (mem_images_iff h).1 (reaches_none_iff.mpr hill)
  | _ => exact fun hill => hill

/-- The extraction returns exactly for the documents in which no image that it comes to, in an object
that is the value of a key, is ill-typed. -/
theorem returns_iff (format : Value → String) (v : Value) : Returns format v ↔ ¬ IllTypedImage v := by
  constructor
  · rintro ⟨depth, images, h⟩
    exact not_illTypedImage_of_ok (h depth le_rfl)
  · intro hill
    cases v with
    | dict d =>
      have hnone : ¬ Reaches format d none := fun hraise => hill (reaches_none_iff.mp hraise)
      obtain ⟨depth, outcome, _, hsettles⟩ := settles_extract format (.dict d)
      -- a limit of the weight is enough, so that the outcome is a list
      obtain ⟨images, hok, _⟩ :=
        (gives_extract format _ d (Nat.le_max_right depth (Value.dict d).weight)).returns hnone
      have hmax := hsettles _ (Nat.le_max_left depth (Value.dict d).weight)
      refine ⟨depth, images, fun limit hlimit => ?_⟩
      exact (hsettles limit hlimit).trans (hmax.symm.trans hok)
    | _ =>
      refine ⟨1, [], fun limit hlimit => ?_⟩
      obtain ⟨n, rfl⟩ := Nat.exists_eq_add_of_le' hlimit
      rfl

/-- A nested object whose image is null. -/
def nullImage : Value := .dict [("app", .dict [("image", .null)])]

/-- The extraction aborts on it. -/
theorem not_returns : ¬ ∀ format v, Returns format v := by
  intro h
  obtain ⟨depth, images, hok⟩ := h (fun _ => "") nullImage
  have hill : IllTypedImage nullImage :=
    ⟨_, .refl, "app", _, .null, List.mem_cons_self, List.mem_cons_self, nofun, nofun⟩
  exact not_illTypedImage_of_ok (hok depth le_rfl) hill

end Manifests.KfParse
