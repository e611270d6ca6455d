import Manifests.KfParse

/-! Two extractions side by side. A relation between results that the loops respect holds of the
results for an entry when it holds of those of the calls. -/
namespace Manifests.KfParse
open Library

/-- A relation between two results that goes through the loops. -/
structure Respected
    (rel : Except Failure (List String) → Except Failure (List String) → Prop) : Prop where
  refl : ∀ result, rel result result
  append : ∀ {first first' rest rest'}, rel first first' → rel rest rest' →
    rel (do return (← first) ++ (← rest)) (do return (← first') ++ (← rest'))

section
variable {rel : Except Failure (List String) → Except Failure (List String) → Prop}
  (hr : Respected rel)
include hr

theorem rel_collect {α : Type} {g g' : α → Except Failure (List String)} {as : List α}
    (h : ∀ a ∈ as, rel (g a) (g' a)) : rel (collect g as) (collect g' as) := by
  induction as with
  | nil => exact hr.refl _
  | cons a as ih =>
    exact hr.append (h a List.mem_cons_self) (ih fun b hb => h b (List.mem_cons_of_mem _ hb))

variable {format format' : Value → String} {extract extract' : Value → Except Failure (List String)}
  {inpDict inpDict' : Dict} (h : ∀ v, rel (extract v) (extract' v))
include h

theorem rel_parseJsonImages (searchKey : String) (textData : Value) :
    rel (parseJsonImages extract searchKey textData)
      (parseJsonImages extract' searchKey textData) := by
  cases textData with
  | str text =>
    rw [parseJsonImages, parseJsonImages]
    split
    · split
      · exact h _
      · exact hr.refl _
      · exact hr.refl _
    · exact hr.refl _
  | _ => exact hr.refl _

variable
  (htag : ∀ s, rel (.ok (withTag format inpDict s)) (.ok (withTag format' inpDict' s)))
include htag

theorem rel_string (k : String) (v : Value) :
    rel (if k = "image" then concatImageNameWithTag format inpDict v
        else parseJsonImages extract imageKey v)
      (if k = "image" then concatImageNameWithTag format' inpDict' v
        else parseJsonImages extract' imageKey v) := by
  split
  · cases v with
    | str s => exact htag s
    | _ => exact hr.refl _
  · exact rel_parseJsonImages hr h _ _

theorem rel_nestedImages (entry : String × Value) :
    rel (nestedImages format extract inpDict entry)
      (nestedImages format' extract' inpDict' entry) := by
  obtain ⟨k, v⟩ := entry
  cases v with
  | dict e => exact h _
  | _ => exact rel_string hr h htag k _

theorem rel_entryImages
    (hnested : ∀ f s, rel (.ok (withTag format f s)) (.ok (withTag format' f s)))
    (entry : String × Value) :
    rel (entryImages format extract inpDict entry)
      (entryImages format' extract' inpDict' entry) := by
  obtain ⟨k, v⟩ := entry
  cases v with
  | list vs => exact rel_collect hr fun v _ => h v
  | dict f => exact rel_collect hr fun entry _ => rel_nestedImages hr h (hnested f) entry
  | str s => exact rel_string hr h htag k _
  | _ => exact hr.refl _

end

end Manifests.KfParse
