import Manifests.PodsValidator

/-! The order in which the pods are listed, and the verdict. -/
namespace Manifests.PodsValidator
open Library PrefixPool

/-- No template comes before a longer one that it is a prefix of. -/
def LongerFirst (templates : List String) : Prop :=
  templates.Pairwise fun s t => s.toList <+: t.toList → s = t

/-- Both runs of the loop leave the same templates, or an exception ends both. -/
inductive SameVerdict : Except PyError (List String) → Except PyError (List String) → Prop where
  | left (templates : List String) : SameVerdict (.ok templates) (.ok templates)
  | raised (e e' : PyError) : SameVerdict (.error e) (.error e')

variable {templates : List String} {pods pods' : List Pod}

theorem LongerFirst.ordered (h : LongerFirst templates) : Ordered (templates.map String.toList) := by
  rw [Ordered, List.pairwise_map]
  exact h.imp fun hst hp => congrArg String.toList (hst hp)

theorem longerFirst_podsTemplates : LongerFirst podsTemplates := by
  have h := longestFirst_podsTemplates
  rw [LongestFirst, List.pairwise_map] at h
  exact h.imp fun hst hp => (hst hp).elim

theorem matchPods_perm (h : LongerFirst templates) (hp : pods.Perm pods') :
    SameVerdict (matchPods templates pods) (matchPods templates pods') := by
  by_cases hs : ∀ pod ∈ pods, ¬ pod.Statusless
  · have hs' : ∀ pod ∈ pods', ¬ pod.Statusless := fun pod hm => hs pod (hp.mem_iff.mpr hm)
    obtain ⟨left, hleft, hmap⟩ := matchPods_ok templates hs
    obtain ⟨left', hleft', hmap'⟩ := matchPods_ok templates hs'
    have hnames : ((pods.filter Pod.countsIn).map fun pod => pod.name.toList).Perm
        ((pods'.filter Pod.countsIn).map fun pod => pod.name.toList) :=
      (hp.filter _).map _
    have hsame : left = left' := by
      apply List.map_injective_iff.mpr (fun _ _ => String.toList_inj.mp)
      rw [hmap, hmap', h.ordered.useAll_perm hnames]
    rw [hleft, hleft', hsame]
    exact .left left'
  · push Not at hs
    obtain ⟨pod, hpod, hstatusless⟩ := hs
    obtain ⟨e, he⟩ := matchPods_error templates hpod hstatusless
    obtain ⟨e', he'⟩ := matchPods_error templates (hp.mem_iff.mp hpod) hstatusless
    rw [he, he']
    exact .raised e e'

/-- The loop and the exit code do not depend on the order of the pods. -/
theorem verdict_perm (templates : List String) (pods pods' : List Pod) (h : LongerFirst templates)
    (hp : pods.Perm pods') :
    SameVerdict (matchPods templates pods) (matchPods templates pods') ∧
      exitCode pods = exitCode pods' := by
  refine ⟨matchPods_perm h hp, ?_⟩
  have hverdict := matchPods_perm longerFirst_podsTemplates hp
  rw [exitCode, exitCode]
  generalize matchPods podsTemplates pods = result at hverdict ⊢
  generalize matchPods podsTemplates pods' = result' at hverdict ⊢
  cases hverdict with
  | left templates => rfl
  | raised e e' => rfl

/-- A pod of the UI and one of the API server, both of which the API server's template fits. -/
def twoPipelinePods : List Pod :=
  [⟨"ml-pipeline-ui-7d", "Running", some [true]⟩, ⟨"ml-pipeline-5c", "Running", some [true, false]⟩]

theorem verdict_perm_pipeline :
    SameVerdict (matchPods podsTemplates twoPipelinePods)
        (matchPods podsTemplates twoPipelinePods.reverse) ∧
      exitCode twoPipelinePods = exitCode twoPipelinePods.reverse :=
  verdict_perm podsTemplates twoPipelinePods twoPipelinePods.reverse longerFirst_podsTemplates
    (List.reverse_perm _).symm

end Manifests.PodsValidator
