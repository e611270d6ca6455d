import Manifests.Library.Disk

/-! Sites: a site is a directory that is made anew and filled, and a file beside it. What is on a disk
after sites have been filled one after the other. -/
namespace Library

structure Site (ν τ : Type) where
  dir : List ν
  files : List (ν × τ)
  beside : List ν
  text : τ
  reached : beside.dropLast <+: dir
  notAbove : ¬ beside <+: dir
  notIn : ¬ dir <+: beside

namespace Site

section
variable {ν τ : Type}

/-- The places that the site decides about. -/
def Covers (s : Site ν τ) (q : List ν) : Prop := s.dir <+: q ∨ q = s.beside

theorem covers_dir {s : Site ν τ} : s.Covers s.dir := Or.inl List.prefix_rfl

theorem covers_beside {s : Site ν τ} : s.Covers s.beside := Or.inr rfl

def Disjoint (s t : Site ν τ) : Prop := ∀ q, s.Covers q → ¬ t.Covers q

/-- Different sites do not overlap. -/
def AllDisjoint (sites : List (Site ν τ)) : Prop := ∀ s ∈ sites, ∀ t ∈ sites, s ≠ t → Disjoint s t

end

variable {ν τ : Type} [DecidableEq ν]

def contents (s : Site ν τ) (q : List ν) : Option (Node τ) :=
  if q = s.beside then some (.file s.text) else Disk.holding s.files (q.drop s.dir.length)

def Holds (disk : Disk ν τ) (s : Site ν τ) : Prop := ∀ q, s.Covers q → disk.node q = s.contents q

/-- Nothing is in the way of the site. -/
structure Ready (disk : Disk ν τ) (s : Site ν τ) : Prop where
  dir : ¬ disk.blocked s.dir = true
  beside : disk.node s.beside ≠ some .dir

def fillDir (disk : Disk ν τ) (s : Site ν τ) : Disk ν τ :=
  ((disk.without s.dir).withDirs s.dir).withFiles s.dir s.files

def fill (disk : Disk ν τ) (s : Site ν τ) : Disk ν τ := (fillDir disk s).withFile s.beside s.text

def fillAll (disk : Disk ν τ) (sites : List (Site ν τ)) : Disk ν τ := sites.foldl fill disk

/-- Nothing is in the way when it is the turn of a site. -/
def AllReady (disk : Disk ν τ) : List (Site ν τ) → Prop
  | [] => True
  | s :: sites => s.Ready disk ∧ AllReady (fill disk s) sites

variable {disk : Disk ν τ} {s t : Site ν τ} {sites sites' : List (Site ν τ)} {q : List ν}

theorem contents_dir : s.contents s.dir = some .dir := by
  have hne : s.dir ≠ s.beside := by
    intro h
    exact s.notIn (h ▸ List.prefix_rfl)
  rw [contents, if_neg hne, List.drop_length]
  rfl

theorem contents_beside : s.contents s.beside = some (.file s.text) := if_pos rfl

/-- Where a site is, there are directories on the way. -/
theorem Holds.above (h : Holds disk s) (hq : q <+: s.dir) : disk.node q = some .dir := by
  have hdir : disk.node s.dir = some .dir := (h _ covers_dir).trans contents_dir
  obtain ⟨rest, hrest⟩ := hq
  cases rest with
  | nil => rwa [← hrest, List.append_nil] at hdir
  | cons name rest =>
    apply Disk.above_isDir name rest
    rw [hrest, hdir]
    rfl

/-- The file of a site is not on the way to another. -/
theorem Holds.not_above (hs : Holds disk s) (ht : Holds disk t) : ¬ s.beside <+: t.dir := by
  intro h
  have hfile := (hs _ covers_beside).symm.trans (ht.above h)
  rw [contents_beside] at hfile
  cases hfile

theorem Holds.ready (h : Holds disk s) : s.Ready disk := by
  refine ⟨?_, ?_⟩
  · rw [Disk.not_blocked_iff]
    intro q hq contents heq
    rw [h.above hq] at heq
    cases heq
  · rw [h _ covers_beside, contents_beside]
    simp

theorem fillDir_above (h : q <+: s.dir) : (fillDir disk s).node q = some .dir := by
  have hnot (name : ν) : q ≠ s.dir ++ [name] := by
    rintro rfl
    simpa using h.length_le
  rw [fillDir, Disk.withFiles_other hnot, Disk.withDirs_above h]

theorem fillDir_other (hdir : ¬ s.dir <+: q) (habove : ¬ q <+: s.dir) :
    (fillDir disk s).node q = disk.node q := by
  have hnot (name : ν) : q ≠ s.dir ++ [name] := by
    rintro rfl
    exact hdir (List.prefix_append _ _)
  rw [fillDir, Disk.withFiles_other hnot, Disk.withDirs_other habove, Disk.without_other hdir]

theorem fill_above (h : q <+: s.dir) : (fill disk s).node q = some .dir := by
  have hne : q ≠ s.beside := by
    rintro rfl
    exact s.notAbove h
  rw [fill, Disk.withFile_other hne, fillDir_above h]

theorem fill_other (hcovers : ¬ s.Covers q) (habove : ¬ q <+: s.dir) :
    (fill disk s).node q = disk.node q := by
  obtain ⟨hdir, hne⟩ := not_or.mp hcovers
  rw [fill, Disk.withFile_other hne, fillDir_other hdir habove]

theorem holds_fill_self (h : s.Ready disk) : Holds (fill disk s) s := by
  rintro q (⟨rest, rfl⟩ | rfl)
  · have hne : s.dir ++ rest ≠ s.beside := by
      intro heq
      exact s.notIn (heq ▸ List.prefix_append _ _)
    rw [fill, Disk.withFile_other hne, fillDir, Disk.withFiles_anew, contents, if_neg hne, List.drop_left]
  · have hself : (fillDir disk s).node s.beside ≠ some .dir := by
      rw [fillDir_other s.notIn s.notAbove]
      exact h.beside
    rw [fill, Disk.withFile_self (fillDir_above s.reached) hself, contents_beside]

/-- A site stays when another one is filled that does not overlap with it. When the file beside it
is on the way, the other one cannot be filled. -/
theorem holds_fill (ht : Holds disk t) (hs : s.Ready disk) (hdisjoint : s ≠ t → Disjoint s t) :
    Holds (fill disk s) t := by
  by_cases heq : s = t
  · exact heq ▸ holds_fill_self hs
  · have hapart := hdisjoint heq
    intro q hq
    rw [← ht q hq]
    refine fill_other (fun hcovers => hapart q hcovers hq) ?_
    intro habove
    rcases hq with hdir | rfl
    · exact hapart s.dir covers_dir (Or.inl (hdir.trans habove))
    · refine Disk.not_blocked_iff.mp hs.dir _ habove t.text ?_
      rw [ht _ covers_beside, contents_beside]

theorem holds_fillAll_of_holds (ht : Holds disk t) (hready : AllReady disk sites)
    (hdisjoint : ∀ s ∈ sites, s ≠ t → Disjoint s t) : Holds (fillAll disk sites) t := by
  induction sites generalizing disk with
  | nil => exact ht
  | cons s sites ih =>
    obtain ⟨hs, hready⟩ := hready
    obtain ⟨hapart, hdisjoint⟩ := List.forall_mem_cons.mp hdisjoint
    exact ih (holds_fill ht hs hapart) hready hdisjoint

/-- In the end each site holds what is its own. -/
theorem holds_fillAll (hready : AllReady disk sites) (hdisjoint : AllDisjoint sites) (hs : s ∈ sites) :
    Holds (fillAll disk sites) s := by
  induction sites generalizing disk with
  | nil => cases hs
  | cons t sites ih =>
    obtain ⟨ht, hready⟩ := hready
    have hrest : AllDisjoint sites := fun r hr r' hr' =>
      hdisjoint r (List.mem_cons_of_mem _ hr) r' (List.mem_cons_of_mem _ hr')
    rcases List.mem_cons.mp hs with rfl | hs
    · have hothers : ∀ r ∈ sites, r ≠ s → Disjoint r s := fun r hr =>
        hdisjoint r (List.mem_cons_of_mem _ hr) s List.mem_cons_self
      have hkept : Holds (fillAll (fill disk s) sites) s :=
        holds_fillAll_of_holds (holds_fill_self ht) hready hothers
      exact hkept
    · exact ih hready hrest hs

theorem fillAll_other (h : ∀ s ∈ sites, ¬ s.Covers q ∧ ¬ q <+: s.dir) :
    (fillAll disk sites).node q = disk.node q := by
  induction sites generalizing disk with
  | nil => rfl
  | cons s sites ih =>
    obtain ⟨⟨hcovers, habove⟩, hrest⟩ := List.forall_mem_cons.mp h
    rw [fillAll, List.foldl_cons, ← fillAll, ih hrest, fill_other hcovers habove]

/-- What lies there in the end is decided by the sites, and where there are none by the disk. -/
theorem fillAll_eq {disk' : Disk ν τ} (hholds : ∀ s ∈ sites, Holds disk' s)
    (hother : ∀ q, (∀ s ∈ sites, ¬ s.Covers q ∧ ¬ q <+: s.dir) → disk'.node q = disk.node q)
    (hready : AllReady disk sites) (hdisjoint : AllDisjoint sites) : fillAll disk sites = disk' := by
  ext1
  funext q
  by_cases hq : ∀ s ∈ sites, ¬ s.Covers q ∧ ¬ q <+: s.dir
  · rw [fillAll_other hq, hother q hq]
  · push Not at hq
    obtain ⟨s, hs, hq⟩ := hq
    have hfilled := holds_fillAll hready hdisjoint hs
    by_cases hcovers : s.Covers q
    · rw [hfilled q hcovers, hholds s hs q hcovers]
    · rw [hfilled.above (hq hcovers), (hholds s hs).above (hq hcovers)]

/-- Whether a site can be filled does not depend on the others. -/
theorem ready_fill (hs : s.Ready disk) (hdisjoint : s ≠ t → Disjoint s t)
    (hst : ¬ s.beside <+: t.dir) (hts : ¬ t.beside <+: s.dir) : t.Ready (fill disk s) ↔ t.Ready disk := by
  by_cases heq : s = t
  · subst heq
    exact iff_of_true (holds_fill_self hs).ready hs
  · have hapart := hdisjoint heq
    have hbeside : (fill disk s).node t.beside = disk.node t.beside :=
      fill_other (fun hcovers => hapart _ hcovers covers_beside) hts
    have hnot (q : List ν) (hq : q <+: t.dir) : ¬ s.Covers q := by
      rintro (hdir | rfl)
      · exact hapart t.dir (Or.inl (hdir.trans hq)) covers_dir
      · exact hst hq
    have hblocked : ¬ (fill disk s).blocked t.dir = true ↔ ¬ disk.blocked t.dir = true := by
      rw [Disk.not_blocked_iff, Disk.not_blocked_iff]
      refine forall_congr' fun q => forall_congr' fun hq => ?_
      by_cases habove : q <+: s.dir
      · refine iff_of_true (fun _ => ?_) (Disk.not_blocked_iff.mp hs.dir q habove)
        rw [fill_above habove]
        simp
      · rw [fill_other (hnot q hq) habove]
    constructor
    · rintro ⟨hdir, hfile⟩
      exact ⟨hblocked.mp hdir, hbeside ▸ hfile⟩
    · rintro ⟨hdir, hfile⟩
      exact ⟨hblocked.mpr hdir, hbeside ▸ hfile⟩

theorem allReady_iff (hdisjoint : AllDisjoint sites)
    (hbeside : ∀ s ∈ sites, ∀ t ∈ sites, ¬ s.beside <+: t.dir) :
    AllReady disk sites ↔ ∀ s ∈ sites, s.Ready disk := by
  induction sites generalizing disk with
  | nil => simp [AllReady]
  | cons s sites ih =>
    have hmem (t : Site ν τ) (ht : t ∈ sites) : t ∈ s :: sites := List.mem_cons_of_mem _ ht
    have hrest : AllDisjoint sites := fun t ht r hr => hdisjoint t (hmem t ht) r (hmem r hr)
    rw [AllReady, List.forall_mem_cons,
      ih hrest fun t ht r hr => hbeside t (hmem t ht) r (hmem r hr)]
    refine and_congr_right fun hs => forall_congr' fun t => forall_congr' fun ht => ?_
    have hself : s ∈ s :: sites := List.mem_cons_self
    exact ready_fill hs (hdisjoint s hself t (hmem t ht)) (hbeside s hself t (hmem t ht))
      (hbeside t (hmem t ht) s hself)

/-- When the sites can be filled in one order, then they can be in every other, with the same
result, and filling them once more changes nothing. -/
theorem fillAll_order (hready : AllReady disk sites) (hdisjoint : AllDisjoint sites)
    (hmem : ∀ s, s ∈ sites' ↔ s ∈ sites) :
    (AllReady disk sites' ∧ fillAll disk sites' = fillAll disk sites) ∧
      AllReady (fillAll disk sites) sites' ∧ fillAll (fillAll disk sites) sites' = fillAll disk sites := by
  have hholds (s : Site ν τ) (hs : s ∈ sites') : Holds (fillAll disk sites) s :=
    holds_fillAll hready hdisjoint ((hmem s).mp hs)
  have hdisjoint' : AllDisjoint sites' := fun s hs t ht => hdisjoint s ((hmem s).mp hs) t ((hmem t).mp ht)
  have hbeside (s : Site ν τ) (hs : s ∈ sites') (t : Site ν τ) (ht : t ∈ sites') : ¬ s.beside <+: t.dir :=
    (hholds s hs).not_above (hholds t ht)
  have hinitially : AllReady disk sites' := by
    rw [allReady_iff hdisjoint' hbeside]
    intro s hs
    refine (allReady_iff hdisjoint ?_).mp hready s ((hmem s).mp hs)
    exact fun r hr t ht => hbeside r ((hmem r).mpr hr) t ((hmem t).mpr ht)
  have hagain : AllReady (fillAll disk sites) sites' :=
    (allReady_iff hdisjoint' hbeside).mpr fun s hs => (hholds s hs).ready
  refine ⟨⟨hinitially, fillAll_eq hholds ?_ hinitially hdisjoint'⟩, hagain,
    fillAll_eq hholds (fun _ _ => rfl) hagain hdisjoint'⟩
  exact fun q hq => fillAll_other fun s hs => hq s ((hmem s).mpr hs)

end Site
end Library
