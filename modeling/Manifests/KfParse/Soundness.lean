import Manifests.KfParse.Limit

/-! Every string that the extraction returns comes from the document. -/
namespace Manifests.KfParse
open Library Relation

/-- Why a string may be returned for a document. -/
inductive Justified (format : Value → String) (v : Value) (r : String) : Prop where
  /-- It is the image of an object, with its tag. -/
  | tagged {o : Dict} (ho : ObjectIn v o) (h : ("image", .str r) ∈ o)
      (hc : Text.contains ":" r = true) : Justified format v r
  /-- It is the image of an object without a tag, and a default version of the same object. -/
  | versioned {o : Dict} {name key : String} {version : Value} (ho : ObjectIn v o)
      (h : ("image", .str name) ∈ o) (hc : Text.contains ":" name = false)
      (hk : key = "defaultImageVersion" ∨ key = "defaultGpuImageVersion")
      (hv : Dict.get o key = some version) (hr : r = name ++ ":" ++ format version) :
      Justified format v r
  /-- It is captured in a stored string that is no JSON. -/
  | captured {o : Dict} {k s : String} (ho : ObjectIn v o) (h : (k, .str s) ∈ o)
      (hl : Json.loads s = none) (hr : yamlImage s = some r) : Justified format v r

variable {format : Value → String} {v : Value} {d e f o : Dict} {r s : String}

theorem objectIn_trans (h : ObjectIn v d) (ho : ObjectIn (.dict d) o) : ObjectIn v o := by
  induction h with
  | here => exact ho
  | member hm _ ih => exact .member hm (ih ho)
  | item hm _ ih => exact .item hm (ih ho)
  | text hl _ ih => exact .text hl (ih ho)

theorem objectIn_near (h : Near d f) : ObjectIn (.dict d) f := by
  obtain rfl | ⟨k, hf⟩ := h
  · exact .here
  · exact .member hf .here

/-- The calls are for objects of the document. -/
theorem objectIn_child (h : Child d e) : ObjectIn (.dict d) e := by
  cases h with
  | item h he => exact .member h (.item he .here)
  | nested h he => exact .member h (.member he .here)
  | text hf h _ he => exact objectIn_trans (objectIn_near hf) (.member h (.text he.2 .here))

theorem objectIn_path (h : ReflTransGen Child d e) : ObjectIn (.dict d) e := by
  induction h with
  | refl => exact .here
  | tail _ hchild ih => exact objectIn_trans ih (objectIn_child hchild)

/-- The default versions that are tried are those of the object that has the image. -/
theorem justified_withTag (ho : ObjectIn v f) (h : ("image", .str s) ∈ f)
    (hr : r ∈ withTag format f s) : Justified format v r := by
  unfold withTag at hr
  split at hr
  · next hc =>
    obtain rfl := List.mem_singleton.mp hr
    exact .tagged ho h hc
  · next hc =>
    obtain ⟨version, hversion, rfl⟩ := List.mem_map.mp hr
    obtain ⟨key, hkey, hget⟩ := List.mem_filterMap.mp hversion
    refine .versioned ho h (Bool.eq_false_iff.mpr hc) ?_ hget rfl
    simpa using hkey

theorem justified_of_reaches (h : Reaches format d (some r)) : Justified format (.dict d) r := by
  obtain ⟨e, hpath, hfinds⟩ := h
  have he := objectIn_path hpath
  cases hfinds with
  | image hf h hr => exact justified_withTag (objectIn_trans he (objectIn_near hf)) h hr
  | yaml hf h _ hr => exact .captured (objectIn_trans he (objectIn_near hf)) h hr.2.1 hr.2.2

/-- Whenever the extraction returns, each string of its result is justified by the document. -/
theorem extract_justified (format : Value → String) (limit : Nat) (v : Value)
    (images : List String) (h : extractImagesRecursively format limit v = .ok images) :
    ∀ r ∈ images, Justified format v r := by
  intro r hr
  cases limit with
  | zero => cases h
  | succ limit =>
    cases v with
    | dict d => exact justified_of_reaches (((mem_images_iff h).2 r).mp hr)
    | _ =>
      cases h
      cases hr

/-- An image whose default version stands in its own object, in the text of a string. -/
def embeddedVersion : Value :=
  .dict [("spawner", .str "\x7b\"image\": \"jupyter\", \"defaultImageVersion\": \"v1\"\x7d")]

theorem extract_justified_embedded :
    Justified (fun v => match v with | .str s => s | _ => "") embeddedVersion "jupyter:v1" :=
  extract_justified _ 5 embeddedVersion ["jupyter:v1"] (by decide +kernel) "jupyter:v1"
    List.mem_cons_self

end Manifests.KfParse
