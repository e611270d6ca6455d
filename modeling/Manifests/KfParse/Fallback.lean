import Manifests.KfParse
import Manifests.Library.YamlLines

/-! What the pattern of the fallback takes out of a block-style YAML text. -/
namespace Manifests.KfParse
open Library Yaml

/-- The group of the pattern, when what is left of it is `\s*([a-zA-Z]+.*)`. -/
def letterAt (cs : List Char) : Option (List Char) :=
  match cs.dropWhile isSpace with
  | c :: rest => if isLetter c then some ((c :: rest).takeWhile (· ≠ '\n')) else none
  | [] => none

/-- The match at the start of the rest of a line. Behind `image:` at the end of a line, the white
space goes on to `next`, the group that the following lines give. -/
def lineImageAt (next : Option (List Char)) (cs : List Char) : Option (List Char) :=
  if "image:".toList.isPrefixOf cs then
    let behind := cs.drop "image:".toList.length
    if behind.all isSpace then next
    else if behind.takeWhile isSpace = [] then none else letterAt behind
  else none

/-- The group of the first match on a line, in front of the lines `ls`. -/
def lineImage (l : Line) (ls : List Line) : Option (List Char) :=
  l.render.tails.findSome? (lineImageAt (letterAt (renderLines ls)))

/-- The first line of a text on which the pattern matches, and the lines behind it. -/
inductive FirstMatch : List Line → Line → List Line → Prop where
  | here {l : Line} {ls : List Line} (h : (lineImage l ls).isSome) : FirstMatch (l :: ls) l ls
  | later {l m : Line} {ls ms : List Line} (h : lineImage l ls = none) (hm : FirstMatch ls m ms) :
      FirstMatch (l :: ls) m ms

/-- The line of an image that is written plain, and starts with a letter. -/
def PlainImage (l : Line) (v : String) : Prop :=
  (∃ gap, l.body = .entry (.plain "image") gap (.plain v)) ∧
    ∃ c cs, v.toList = c :: cs ∧ isLetter c = true

variable {l m : Line} {ls ms : List Line} {a b cs rest g : List Char} {c : Char} {v : String}
  {next : Option (List Char)}

theorem isSpace_newline : isSpace '\n' = true := by decide

theorem letterAt_newline : letterAt ('\n' :: rest) = letterAt rest := by
  rw [letterAt, List.dropWhile_cons_of_pos isSpace_newline]
  rfl

theorem letterAt_spaces (h : b.all isSpace = true) : letterAt (b ++ rest) = letterAt rest := by
  rw [letterAt, List.dropWhile_append_of_pos (List.all_eq_true.mp h)]
  rfl

/-- On a line with a letter or another character, the rest of the text has no influence. -/
theorem letterAt_append (hb : b.all isSpace = false) (hn : '\n' ∉ b) :
    letterAt (b ++ '\n' :: rest) = letterAt b := by
  obtain ⟨c, cs, hdrop⟩ : ∃ c cs, b.dropWhile isSpace = c :: cs := by
    refine List.exists_cons_of_ne_nil fun hnil => ?_
    rw [List.dropWhile_eq_nil_iff] at hnil
    simp [List.all_eq_true.mpr hnil] at hb
  have hmem : '\n' ∉ c :: cs := fun h => hn ((List.dropWhile_sublist _).subset (hdrop ▸ h))
  have htake : ∀ x ∈ c :: cs, decide (x ≠ '\n') = true := by
    intro x hx
    simp only [decide_eq_true_eq]
    rintro rfl
    exact hmem hx
  rw [letterAt, letterAt, List.dropWhile_append, hdrop]
  simp only [List.isEmpty_cons, Bool.false_eq_true, if_false, List.cons_append]
  split
  · rw [← List.cons_append, List.takeWhile_append_of_pos htake, List.takeWhile_cons_of_neg (by simp),
      List.append_nil, List.takeWhile_eq_self_iff.mpr htake]
  · rfl

theorem yamlImageAt_eq (cs : List Char) : yamlImageAt cs =
    if "image:".toList.isPrefixOf cs then
      if (cs.drop "image:".toList.length).takeWhile isSpace = [] then none
      else letterAt (cs.drop "image:".toList.length)
    else none :=
  rfl

/-- A word without line breaks is at the start of a text when it is at the start of its line. -/
theorem isPrefixOf_line {w : List Char} (hw : '\n' ∉ w) :
    w.isPrefixOf (cs ++ '\n' :: rest) = w.isPrefixOf cs := by
  rw [Bool.eq_iff_iff, List.isPrefixOf_iff_prefix, List.isPrefixOf_iff_prefix]
  constructor
  · intro h
    by_cases hlen : w.length ≤ cs.length
    · exact List.prefix_of_prefix_length_le h (List.prefix_append _ _) hlen
    · have hlong : cs ++ ['\n'] <+: w := by
        refine List.prefix_of_prefix_length_le ?_ h ?_
        · exact ⟨rest, by simp⟩
        · rw [List.length_append, List.length_singleton]
          omega
      exact (hw (hlong.subset (by simp))).elim
  · intro h
    exact h.trans (List.prefix_append _ _)

/-- The pattern at a place of a line that others follow. -/
theorem yamlImageAt_line (hn : '\n' ∉ cs) :
    yamlImageAt (cs ++ '\n' :: rest) = lineImageAt (letterAt rest) cs := by
  rw [yamlImageAt_eq, lineImageAt, isPrefixOf_line (by decide)]
  split
  · next hstart =>
    have hlen := (List.isPrefixOf_iff_prefix.mp hstart).length_le
    rw [List.drop_append_of_le_length hlen]
    have hb : '\n' ∉ cs.drop "image:".toList.length := fun h => hn (List.mem_of_mem_drop h)
    generalize cs.drop "image:".toList.length = b at hb ⊢
    simp only
    by_cases hall : b.all isSpace = true
    · rw [if_pos hall, letterAt_spaces hall, letterAt_newline, if_neg]
      rw [List.takeWhile_append_of_pos (List.all_eq_true.mp hall),
        List.takeWhile_cons_of_pos isSpace_newline]
      simp
    · have hall' : b.all isSpace = false := by simpa using hall
      have htake : (b ++ '\n' :: rest).takeWhile isSpace = b.takeWhile isSpace := by
        rw [List.takeWhile_append, if_neg]
        intro hlen
        apply hall
        rw [List.all_eq_true]
        exact List.takeWhile_eq_self_iff.mp ((List.takeWhile_sublist _).eq_of_length hlen)
      rw [if_neg hall, htake, letterAt_append hall' hb]
  · rfl

/-- At the end of the text there is nothing to go on to. -/
theorem yamlImageAt_last (cs : List Char) : yamlImageAt cs = lineImageAt none cs := by
  rw [yamlImageAt_eq, lineImageAt]
  split
  · simp only
    split
    · next hnil =>
      split
      · rfl
      · rfl
    · next hne =>
      split
      · next hall =>
        have hnil : letterAt (cs.drop "image:".toList.length ++ []) = letterAt [] :=
          letterAt_spaces hall
        rw [List.append_nil] at hnil
        exact hnil
      · rfl
  · rfl

theorem tails_findSome_line (hn : '\n' ∉ cs) :
    (cs ++ '\n' :: rest).tails.findSome? yamlImageAt =
      (cs.tails.findSome? (lineImageAt (letterAt rest))).or (rest.tails.findSome? yamlImageAt) := by
  induction cs with
  | nil =>
    have hnil : lineImageAt (letterAt rest) [] = none := rfl
    have hbreak : yamlImageAt ('\n' :: rest) = none := rfl
    simp [hnil, hbreak]
  | cons c cs ih =>
    have hhead : yamlImageAt (c :: cs ++ '\n' :: rest) = lineImageAt (letterAt rest) (c :: cs) :=
      yamlImageAt_line hn
    rw [List.cons_append] at hhead ⊢
    rw [List.tails_cons, List.tails_cons, List.findSome?_cons, List.findSome?_cons, hhead,
      ih fun h => hn (List.mem_cons_of_mem _ h)]
    cases lineImageAt (letterAt rest) (c :: cs) <;> rfl

/-- Only the lines decide, one after the other. -/
theorem firstMatch_or_none (hn : ∀ l ∈ ls, '\n' ∉ l.render) :
    ((renderLines ls).tails.findSome? yamlImageAt = none ∧ ∀ l ms, ¬ FirstMatch ls l ms) ∨
      ∃ l ms, FirstMatch ls l ms ∧
        (renderLines ls).tails.findSome? yamlImageAt = lineImage l ms := by
  induction ls with
  | nil => exact Or.inl ⟨rfl, nofun⟩
  | cons l ls ih =>
    have hscan : (renderLines (l :: ls)).tails.findSome? yamlImageAt =
        (lineImage l ls).or ((renderLines ls).tails.findSome? yamlImageAt) := by
      cases ls with
      | nil =>
        have hlast : yamlImageAt = lineImageAt none := funext yamlImageAt_last
        have hnil : [].tails.findSome? yamlImageAt = none := rfl
        rw [renderLines, lineImage, renderLines, hnil, hlast, Option.or_none]
        rfl
      | cons l' ls => exact tails_findSome_line (hn l List.mem_cons_self)
    rw [hscan]
    cases hl : lineImage l ls with
    | some g => exact Or.inr ⟨l, ls, .here (by rw [hl]; rfl), by rw [hl]; rfl⟩
    | none =>
      rw [Option.none_or]
      rcases ih fun m hm => hn m (List.mem_cons_of_mem _ hm) with ⟨hnone, hno⟩ | ⟨m, ms, hm, hg⟩
      · refine Or.inl ⟨hnone, fun m ms hm => ?_⟩
        cases hm with
        | here h => simp [hl] at h
        | later _ hm => exact hno m ms hm
      · exact Or.inr ⟨m, ms, .later hl hm, hg⟩

theorem firstMatch_unique (h : FirstMatch ls l ms) {l' : Line} {ms' : List Line}
    (h' : FirstMatch ls l' ms') : l' = l ∧ ms' = ms := by
  induction h with
  | here h =>
    cases h' with
    | here => exact ⟨rfl, rfl⟩
    | later hnone => simp [hnone] at h
  | later hnone _ ih =>
    cases h' with
    | here h => simp [hnone] at h
    | later _ hm => exact ih hm

theorem FirstMatch.mem (h : FirstMatch ls l ms) : l ∈ ls := by
  induction h with
  | here => exact List.mem_cons_self
  | later _ _ ih => exact List.mem_cons_of_mem _ ih

theorem FirstMatch.isSome (h : FirstMatch ls l ms) : (lineImage l ms).isSome := by
  induction h with
  | here h => exact h
  | later _ _ ih => exact ih

/-- The pattern does not match where no `i` is. -/
theorem findSome_skip (ha : ∀ c ∈ a, c ≠ 'i') :
    (a ++ cs).tails.findSome? (lineImageAt next) = cs.tails.findSome? (lineImageAt next) := by
  induction a with
  | nil => rfl
  | cons c a ih =>
    have hne : lineImageAt next (c :: a ++ cs) = none := by
      have hstart : "image:".toList.isPrefixOf (c :: a ++ cs) = false := by
        have hc : ('i' == c) = false := by simpa using (ha c List.mem_cons_self).symm
        simp [List.isPrefixOf, hc]
      rw [lineImageAt, hstart]
      rfl
    rw [List.cons_append] at hne ⊢
    rw [List.tails_cons, List.findSome?_cons, hne]
    exact ih fun x hx => ha x (List.mem_cons_of_mem _ hx)

theorem isSpace_of_isLetter (h : isLetter c = true) : isSpace c = false := by
  have hrange : 97 ≤ c.toNat ∧ c.toNat ≤ 122 ∨ 65 ≤ c.toNat ∧ c.toNat ≤ 90 := by
    simpa [isLetter, Char.le_def, UInt32.le_iff_toNat_le] using h
  simp [isSpace]
  omega

theorem findSome_tails {f : List Char → Option (List Char)} (h : f cs = some g) :
    cs.tails.findSome? f = some g := by
  cases cs with
  | nil => simp [h]
  | cons c cs => rw [List.tails_cons, List.findSome?_cons, h]

/-- Behind spaces, a letter starts what is taken, up to the end of the line. -/
theorem letterAt_letter (ha : ∀ x ∈ a, isSpace x = true) (hc : isLetter c = true)
    (hn : '\n' ∉ c :: cs) : letterAt (a ++ c :: cs) = some (c :: cs) := by
  rw [letterAt, List.dropWhile_append_of_pos ha,
    List.dropWhile_cons_of_neg (by simp [isSpace_of_isLetter hc])]
  simp only [hc, if_true]
  rw [List.takeWhile_eq_self_iff.mpr]
  intro x hx
  simp only [decide_eq_true_eq]
  rintro rfl
  exact hn hx

theorem lineImageAt_letter (ha : ∀ x ∈ a, isSpace x = true) (hne : a ≠ []) (hc : isLetter c = true)
    (hn : '\n' ∉ c :: cs) :
    lineImageAt next ("image:".toList ++ (a ++ c :: cs)) = some (c :: cs) := by
  have hstart : "image:".toList.isPrefixOf ("image:".toList ++ (a ++ c :: cs)) = true :=
    List.isPrefixOf_iff_prefix.mpr (List.prefix_append _ _)
  have hall : (a ++ c :: cs).all isSpace = false := by
    rw [List.all_eq_false]
    exact ⟨c, by simp, by simp [isSpace_of_isLetter hc]⟩
  have htake : (a ++ c :: cs).takeWhile isSpace ≠ [] := by
    rw [List.takeWhile_append_of_pos ha]
    exact fun h => hne (List.append_eq_nil_iff.mp h).1
  rw [lineImageAt, if_pos hstart, List.drop_left' rfl]
  simp only [hall, Bool.false_eq_true, if_false, if_neg htake]
  exact letterAt_letter ha hc hn

/-- A plain image with a letter at its start is taken, with all that follows on its line. -/
theorem lineImage_plainImage (h : PlainImage l v) (hn : '\n' ∉ l.render) :
    lineImage l ls = some (v.toList ++ l.trail) := by
  obtain ⟨⟨gap, hbody⟩, c, cs, hv, hletter⟩ := h
  have hrender : l.render = l.lead ++ ("image:".toList ++
      ((' ' :: List.replicate gap ' ') ++ c :: (cs ++ l.trail))) := by
    rw [Line.render, hbody]
    simp [Body.render, Scalar.render, hv]
  have hlead : ∀ x ∈ l.lead, x ≠ 'i' := by
    intro x hx
    rcases mem_lead hx with rfl | rfl <;> decide
  have hspaces : ∀ x ∈ ' ' :: List.replicate gap ' ', isSpace x = true := by
    intro x hx
    obtain rfl : x = ' ' := by
      rcases List.mem_cons.mp hx with hx | hx
      · exact hx
      · exact (List.mem_replicate.mp hx).2
    decide
  have hline : '\n' ∉ c :: (cs ++ l.trail) := by
    intro hmem
    apply hn
    rw [hrender]
    exact List.mem_append_right _ (List.mem_append_right _ (List.mem_append_right _ hmem))
  rw [lineImage, hrender, findSome_skip hlead, hv, List.cons_append]
  exact findSome_tails (lineImageAt_letter hspaces (List.cons_ne_nil _ _) hletter hline)

/-- The fallback returns the values of the keys `image`, all of them in order and nothing else. -/
def FindsImages (unescape : String → String) (extract : Value → Except Failure (List String))
    (t : Text) : Prop :=
  parseJsonImages extract imageKey (.str t.toString) = .ok (scalarsAt unescape "image" t.lines)

/-- The text has no image, and the pattern matches on no line; or it has one, and the pattern first
matches on its line, where it stands plain with a letter at its start and with nothing behind it. The
other way to be right is that the pattern first matches elsewhere, in a quoted scalar, in a comment
or behind another key or value, on a text that happens to be the image. -/
inductive OneImage (unescape : String → String) (t : Text) : Prop where
  | none (hv : scalarsAt unescape "image" t.lines = []) (hm : ∀ l ls, ¬ FirstMatch t.lines l ls)
  | clean {v : String} {l : Line} {ls : List Line} (hv : scalarsAt unescape "image" t.lines = [v])
      (hm : FirstMatch t.lines l ls) (hp : PlainImage l v) (hb : l.blanks = 0) (hc : l.comment = none)
  | repeated {v : String} {l : Line} {ls : List Line}
      (hv : scalarsAt unescape "image" t.lines = [v]) (hm : FirstMatch t.lines l ls)
      (hp : ∀ w, ¬ PlainImage l w) (hr : lineImage l ls = some v.toList)

variable {unescape : String → String} {extract : Value → Except Failure (List String)} {t : Text}

theorem mem_scalarsAt (h : l ∈ ls) (hp : PlainImage l v) : v ∈ scalarsAt unescape "image" ls := by
  obtain ⟨⟨gap, hbody⟩, _⟩ := hp
  refine List.mem_filterMap.mpr ⟨l, h, ?_⟩
  rw [hbody]
  rfl

/-- Without JSON, what is returned is the group of the first match. -/
theorem findsImages_iff (hc : Text.contains imageKey t.toString = true)
    (hj : Json.loads t.toString = none) : FindsImages unescape extract t ↔
      (scalarsAt unescape "image" t.lines = [] ∧ ∀ l ls, ¬ FirstMatch t.lines l ls) ∨
        ∃ l ls g, FirstMatch t.lines l ls ∧ lineImage l ls = some g ∧
          scalarsAt unescape "image" t.lines = [String.ofList g] := by
  have hparse : parseJsonImages extract imageKey (.str t.toString) =
      .ok (((renderLines t.lines).tails.findSome? yamlImageAt).map String.ofList).toList := by
    rw [parseJsonImages, if_pos hc, hj]
    simp [yamlImage, Yaml.Text.toString]
  rw [FindsImages, hparse, Except.ok.injEq]
  rcases firstMatch_or_none fun l hl => t.oneLine hl with ⟨hnone, hno⟩ | ⟨l, ls, hm, hg⟩
  · rw [hnone]
    constructor
    · intro h
      exact Or.inl ⟨h.symm, hno⟩
    · rintro (⟨hv, _⟩ | ⟨l, ls, _, hm, _⟩)
      · exact hv.symm
      · exact (hno l ls hm).elim
  · obtain ⟨g, hl⟩ := Option.isSome_iff_exists.mp hm.isSome
    rw [hg, hl]
    constructor
    · intro h
      exact Or.inr ⟨l, ls, g, hm, hl, h.symm⟩
    · rintro (⟨_, hno⟩ | ⟨l', ls', g', hm', hl', hv⟩)
      · exact (hno l ls hm).elim
      · obtain ⟨rfl, rfl⟩ := firstMatch_unique hm' hm
        rw [hl] at hl'
        cases hl'
        exact hv.symm

/-- The fallback is right about a text exactly when that has at most one image, and the first match of
the pattern is that image. -/
theorem fallback_iff (unescape : String → String) (extract : Value → Except Failure (List String))
    (t : Text) (hc : Text.contains imageKey t.toString = true) (hj : Json.loads t.toString = none) :
    FindsImages unescape extract t ↔ OneImage unescape t := by
  rw [findsImages_iff hc hj]
  constructor
  · rintro (⟨hv, hno⟩ | ⟨l, ls, g, hm, hl, hv⟩)
    · exact .none hv hno
    · by_cases hp : ∃ w, PlainImage l w
      · obtain ⟨w, hp⟩ := hp
        have hw : w ∈ scalarsAt unescape "image" t.lines := mem_scalarsAt hm.mem hp
        rw [hv, List.mem_singleton] at hw
        rw [lineImage_plainImage hp (t.oneLine hm.mem), Option.some.injEq] at hl
        have htrail : l.trail = [] := by
          rw [hw, String.toList_ofList] at hl
          exact List.append_right_eq_self.mp hl
        obtain ⟨hblanks, hcomment⟩ := trail_eq_nil.mp htrail
        exact .clean (hw ▸ hv) hm hp hblanks hcomment
      · exact .repeated hv hm (not_exists.mp hp) (by rw [hl, String.toList_ofList])
  · rintro (⟨hv, hno⟩ | ⟨hv, hm, hp, hb, hcomment⟩ | ⟨hv, hm, _, hr⟩)
    · exact Or.inl ⟨hv, hno⟩
    · refine Or.inr ⟨_, _, _, hm, lineImage_plainImage hp (t.oneLine hm.mem), ?_⟩
      rw [trail_eq_nil.mpr ⟨hb, hcomment⟩, List.append_nil, String.ofList_toList]
      exact hv
    · refine Or.inr ⟨_, _, _, hm, hr, ?_⟩
      rw [String.ofList_toList]
      exact hv

/-- A container with a plain image. -/
def plainContainer : Text where
  lines := [⟨0, [], .block (.plain "containers"), 0, none⟩,
    ⟨0, [0], .entry (.plain "image") 0 (.plain "busybox"), 0, none⟩]
  valid := by decide +kernel

theorem fallback_iff_plainContainer :
    FindsImages id (fun _ => .ok []) plainContainer ↔ OneImage id plainContainer :=
  fallback_iff id (fun _ => .ok []) plainContainer (by decide +kernel) (by decide +kernel)

/-- Two containers, as the trial templates of PyTorch jobs have them. -/
def twoContainers : Text where
  lines := [⟨0, [0], .entry (.plain "image") 0 (.plain "master:v1"), 0, none⟩,
    ⟨0, [0], .entry (.plain "image") 0 (.plain "worker:v1"), 0, none⟩]
  valid := by decide +kernel

/-- Only the first image is found. -/
theorem not_findsImages : ¬ ∀ unescape extract t, Text.contains imageKey t.toString = true →
    Json.loads t.toString = none → FindsImages unescape extract t := by
  intro h
  have hcontains : Text.contains imageKey twoContainers.toString = true := by decide +kernel
  have hloads : Json.loads twoContainers.toString = none := by decide +kernel
  have hfinds := h id (fun _ => .ok []) twoContainers hcontains hloads
  have hvalues : scalarsAt id "image" twoContainers.lines = ["master:v1", "worker:v1"] := rfl
  rw [findsImages_iff hcontains hloads, hvalues] at hfinds
  obtain ⟨hnil, _⟩ | ⟨_, _, _, _, _, hone⟩ := hfinds
  · cases hnil
  · simp at hone

end Manifests.KfParse
