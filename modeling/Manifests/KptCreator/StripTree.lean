import Manifests.Cluster
import Manifests.KptCreator
import Manifests.Library.FileTree
import Manifests.Library.Lines
import Manifests.Library.Sweep

/-! `strip_comments` of `create_kptfile.py` over the files below a directory, from bytes to bytes. -/
namespace Manifests.KptCreator
open Library Lines
open Text (rstrip decodeUtf8 encodeUtf8)

/-- `f`, which `os.walk` lists in a directory. -/
def fileName (p : Path) : String := p.getLast?.getD ""

def lines (text : String) : List String := (readlines (universal text.toList)).map String.ofList

/-- `writelines`. -/
def writelines (newLines : List String) : String := String.ofList (newLines.flatMap String.toList)

/-- One round of the loop over the files. A file that does not decode raises before it is written. -/
def stripFile (p : Path) (bytes : List UInt8) : Except PyError (List UInt8) :=
  if (PosixPath.splitext (fileName p)).2 ≠ ".yaml" then .ok bytes
  else
    match decodeUtf8 bytes with
    | none => .error .unicodeError
    | some text => .ok (encodeUtf8 (writelines (stripComments (fileName p) (lines text))))

/-- `strip_comments`. -/
def stripTree (tree : DirTree) : Script PyError (Path → List UInt8) Unit :=
  sweep stripFile (osWalkFiles tree)

/-- The file is one that the script rewrites. -/
def IsYaml (p : Path) : Prop := (PosixPath.splitext (fileName p)).2 = ".yaml"

/-- There is nothing to strip from a text: it has no carriage return, and no line of it matches. -/
def Clean (text : String) : Prop :=
  '\r' ∉ text.toList ∧ ∀ line ∈ lines text, matchesKustomize line.toList = false

section
variable {p : Path} {bytes bytes' : List UInt8} {text : String} {cs line : List Char}
  {tree tree' : DirTree} {disk disk' : Path → List UInt8}

/-- `newLine`, on characters. -/
def newChars (line : List Char) : List Char := (newLine (String.ofList line)).toList

theorem newChars_of_matches (h : matchesKustomize line = true) :
    newChars line = rstrip (line.takeWhile (· ≠ '#')) ++ ['\n'] := by
  rw [newChars, newLine_of_matches (by rwa [String.toList_ofList]), String.toList_append,
    String.toList_ofList, String.toList_ofList]
  rfl

theorem newChars_of_not_matches (h : matchesKustomize line = false) : newChars line = line := by
  rw [newChars, newLine_of_not_matches (by rwa [String.toList_ofList]), String.toList_ofList]

/-- What is left of a line that matches: it neither matches nor breaks. -/
theorem not_mem_stripped {c : Char} (hc : c = '#' ∨ (c ∉ line)) :
    c ∉ rstrip (line.takeWhile (· ≠ '#')) := by
  intro hmem
  have htake : c ∈ line.takeWhile (· ≠ '#') := (List.rdropWhile_prefix _ _).subset hmem
  rcases hc with rfl | hc
  · simpa using List.mem_takeWhile_imp htake
  · exact hc ((List.takeWhile_prefix _).subset htake)

/-- In front of the first `#` of a line that matches there is no line break. -/
theorem newline_not_mem_front {body : List Char} (hbody : '\n' ∉ body)
    (h : matchesKustomize (body ++ ['\n']) = true) :
    '\n' ∉ (body ++ ['\n']).takeWhile (· ≠ '#') := by
  have hsign : '#' ∈ body := by
    by_contra hnot
    rw [matchesKustomize_of_not_mem (by simpa using hnot)] at h
    cases h
  obtain ⟨before, after, rfl, hbefore⟩ := List.eq_append_cons_of_mem hsign
  rw [List.append_assoc, List.cons_append, Text.takeWhile_append_cons hbefore]
  exact fun hmem => hbody (List.mem_append_left _ hmem)

theorem linewise_newChars : Linewise newChars := by
  constructor
  · rintro _ ⟨body, hbody, rfl⟩
    cases h : matchesKustomize (body ++ ['\n']) with
    | true =>
      rw [newChars_of_matches h]
      refine ⟨_, fun hmem => newline_not_mem_front hbody h ?_, rfl⟩
      exact (List.rdropWhile_prefix _ _).subset hmem
    | false =>
      rw [newChars_of_not_matches h]
      exact ⟨body, hbody, rfl⟩
  · rintro l ⟨hne, hl⟩
    cases h : matchesKustomize l with
    | true =>
      rw [newChars_of_matches h]
      exact Or.inr ⟨_, not_mem_stripped (Or.inr hl), rfl⟩
    | false =>
      rw [newChars_of_not_matches h]
      exact Or.inl ⟨hne, hl⟩

theorem newChars_eq_self_iff : newChars line = line ↔ matchesKustomize line = false := by
  constructor
  · intro h
    by_contra hmatches
    rw [Bool.not_eq_false] at hmatches
    have hsign : '#' ∉ newChars line := by
      rw [newChars_of_matches hmatches, List.mem_append, not_or]
      exact ⟨not_mem_stripped (Or.inl rfl), by decide⟩
    rw [h] at hsign
    rw [matchesKustomize_of_not_mem hsign] at hmatches
    cases hmatches
  · exact newChars_of_not_matches

theorem matchesKustomize_newChars (line : List Char) : matchesKustomize (newChars line) = false := by
  cases h : matchesKustomize line with
  | true =>
    rw [newChars_of_matches h]
    refine matchesKustomize_of_not_mem ?_
    rw [List.mem_append, not_or]
    exact ⟨not_mem_stripped (Or.inl rfl), by decide⟩
  | false => rwa [newChars_of_not_matches h]

theorem return_not_mem_newChars (h : '\r' ∉ line) : '\r' ∉ newChars line := by
  cases hm : matchesKustomize line with
  | true =>
    rw [newChars_of_matches hm, List.mem_append, not_or]
    exact ⟨not_mem_stripped (Or.inr h), by decide⟩
  | false => rwa [newChars_of_not_matches hm]

/-- The text that is written: each line of what was read is rewritten. -/
theorem toList_written (hp : IsYaml p) (text : String) :
    (writelines (stripComments (fileName p) (lines text))).toList =
      rewrite newChars (universal text.toList) := by
  have hext : ¬ (PosixPath.splitext (fileName p)).2 ≠ ".yaml" := not_not.mpr hp
  rw [writelines, String.toList_ofList, stripComments, if_neg hext, lines, List.map_map,
    List.flatMap_map, List.flatMap_def]
  rfl

theorem return_not_mem_rewrite (h : '\r' ∉ cs) : '\r' ∉ rewrite newChars cs := by
  intro hmem
  obtain ⟨l, hl, hr⟩ := List.mem_flatten.mp hmem
  obtain ⟨line, hline, rfl⟩ := List.mem_map.mp hl
  refine return_not_mem_newChars (fun hin => h ?_) hr
  rw [← flatten_readlines cs]
  exact List.mem_flatten_of_mem hline hin

theorem rewrite_twice (cs : List Char) :
    rewrite newChars (rewrite newChars cs) = rewrite newChars cs :=
  rewrite_rewrite linewise_newChars fun l _ => newChars_of_not_matches (matchesKustomize_newChars l)

theorem clean_iff : Clean text ↔ rewrite newChars (universal text.toList) = text.toList := by
  have hlines : (∀ line ∈ lines text, matchesKustomize line.toList = false) ↔
      ∀ l ∈ readlines (universal text.toList), newChars l = l := by
    simp [lines, newChars_eq_self_iff]
  rw [Clean, hlines, ← rewrite_eq_self_iff linewise_newChars]
  constructor
  · rintro ⟨hreturn, hsame⟩
    rwa [universal_eq_self_iff.mpr hreturn] at hsame ⊢
  · intro h
    have hreturn : '\r' ∉ text.toList := by
      rw [← h]
      exact return_not_mem_rewrite (return_not_mem_universal _)
    exact ⟨hreturn, by rwa [universal_eq_self_iff.mpr hreturn] at h ⊢⟩

theorem stripFile_other (h : ¬ IsYaml p) (bytes : List UInt8) : stripFile p bytes = .ok bytes :=
  if_pos h

theorem stripFile_yaml_iff (h : IsYaml p) : stripFile p bytes = .ok bytes' ↔
    ∃ text, decodeUtf8 bytes = some text ∧
      bytes' = encodeUtf8 (String.ofList (rewrite newChars (universal text.toList))) := by
  have hwritten (text : String) : writelines (stripComments (fileName p) (lines text)) =
      String.ofList (rewrite newChars (universal text.toList)) := by
    rw [← toList_written h, String.ofList_toList]
  have hext : ¬ (PosixPath.splitext (fileName p)).2 ≠ ".yaml" := not_not.mpr h
  rw [stripFile, if_neg hext]
  cases decodeUtf8 bytes with
  | none => simp
  | some text => simp [hwritten, eq_comm]

theorem settles_stripFile : Settles stripFile stripFile := by
  intro p bytes bytes' h
  by_cases hp : IsYaml p
  · obtain ⟨text, _, rfl⟩ := (stripFile_yaml_iff hp).mp h
    refine (stripFile_yaml_iff hp).mpr ⟨_, Text.decodeUtf8_encodeUtf8 _, ?_⟩
    rw [String.toList_ofList, universal_eq_self_iff.mpr (return_not_mem_rewrite
      (return_not_mem_universal _)), rewrite_twice]
  · exact stripFile_other hp bytes'

/-- A file that is read is changed exactly when there is something to strip. -/
theorem stripFile_self_iff (hp : IsYaml p) (h : decodeUtf8 bytes = some text)
    (hwritten : stripFile p bytes = .ok bytes') : bytes' = bytes ↔ Clean text := by
  obtain ⟨text', htext, rfl⟩ := (stripFile_yaml_iff hp).mp hwritten
  rw [h, Option.some_inj] at htext
  subst htext
  rw [clean_iff]
  constructor
  · intro heq
    rw [← heq, Text.decodeUtf8_encodeUtf8, Option.some_inj] at h
    rw [← String.toList_ofList (l := rewrite newChars (universal text.toList)), h]
  · intro heq
    rw [heq, String.ofList_toList, Text.encodeUtf8_decodeUtf8 h]

/-- The lines of what is written are the new lines of what was read. -/
theorem lines_written (text : String) :
    lines (String.ofList (rewrite newChars (universal text.toList))) = (lines text).map newLine := by
  rw [lines, String.toList_ofList, universal_eq_self_iff.mpr (return_not_mem_rewrite
    (return_not_mem_universal _)), readlines_rewrite linewise_newChars, lines, List.map_map,
    List.map_map]
  refine List.map_congr_left fun l _ => ?_
  exact String.ofList_toList

/-- What becomes of a YAML file: line by line it is rewritten, and it keeps its bytes exactly when
there is nothing to strip. -/
def FileStripped (before after : List UInt8) : Prop :=
  ∃ text text', decodeUtf8 before = some text ∧ decodeUtf8 after = some text' ∧
    lines text' = (lines text).map newLine ∧ (after = before ↔ Clean text)

theorem fileStripped (hp : IsYaml p) (h : stripFile p bytes = .ok bytes') :
    FileStripped bytes bytes' := by
  obtain ⟨text, htext, hwritten⟩ := (stripFile_yaml_iff hp).mp h
  refine ⟨text, _, htext, ?_, lines_written text, stripFile_self_iff hp htext h⟩
  rw [hwritten, Text.decodeUtf8_encodeUtf8]

/-- The script goes through exactly when all YAML files decode. -/
theorem stripTree_isOk_iff : (∃ disk', stripTree tree disk = (.ok (), disk')) ↔
    ∀ p ∈ tree.entries.files, IsYaml p → (decodeUtf8 (disk p)).isSome := by
  rw [stripTree, sweep_isOk_iff settles_stripFile]
  simp only [mem_osWalkFiles]
  refine forall₂_congr fun p _ => ?_
  by_cases hp : IsYaml p
  · simp [stripFile_yaml_iff hp, hp, Option.isSome_iff_exists]
  · simp [stripFile_other hp, hp]

/-- When the script goes through, the YAML files below the directory are stripped and all other
files keep their bytes. Once more, in any order in which the files are listed then, it goes through
and changes nothing. -/
theorem stripTree_again (hrun : stripTree tree disk = (.ok (), disk'))
    (hsame : ∀ p ∈ tree'.entries.files, p ∈ tree.entries.files) :
    (∀ p ∈ tree.entries.files, IsYaml p → FileStripped (disk p) (disk' p)) ∧
      (∀ p, ¬ (p ∈ tree.entries.files ∧ IsYaml p) → disk' p = disk p) ∧
      stripTree tree' disk' = (.ok (), disk') := by
  have hwritten := (sweep_ok_iff settles_stripFile).mp hrun
  simp only [mem_osWalkFiles] at hwritten
  refine ⟨fun p hp hyaml => ?_, fun p hp => ?_, ?_⟩
  · have h := hwritten p
    rw [if_pos hp] at h
    exact fileStripped hyaml h
  · have h := hwritten p
    split at h
    · next hmem =>
      rw [stripFile_other (fun hyaml => hp ⟨hmem, hyaml⟩)] at h
      exact (Except.ok.inj h).symm
    · exact h
  · refine sweep_again settles_stripFile settles_stripFile settles_stripFile hrun fun p hp => ?_
    exact mem_osWalkFiles.mpr (hsame p (mem_osWalkFiles.mp hp))

/-- One file, with a line that matches. -/
def oneFile : DirTree := ⟨.file "namespace.yaml" .nil, by simp [Entries.Distinct, Entries.names]⟩

def commented (_ : Path) : List UInt8 := encodeUtf8 "name: kubeflow # x-kustomize: kept\n"

theorem stripTree_again_oneFile : ∃ disk', stripTree oneFile commented = (.ok (), disk') ∧
    stripTree oneFile disk' = (.ok (), disk') := by
  have hdecodes : ∀ p ∈ oneFile.entries.files, IsYaml p → (decodeUtf8 (commented p)).isSome :=
    fun p _ _ => by rw [commented, Text.decodeUtf8_encodeUtf8]; rfl
  obtain ⟨disk', hrun⟩ := stripTree_isOk_iff.mpr hdecodes
  exact ⟨disk', hrun, (stripTree_again hrun fun _ h => h).2.2⟩

end
end Manifests.KptCreator
