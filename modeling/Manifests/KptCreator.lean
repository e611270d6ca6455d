import Manifests.Library.PosixPath
import Manifests.Library.Space
import Manifests.Library.YamlLines

/-! `create_kptfile.py`: it strips the comments of an earlier kustomize from YAML files, line by
line. -/
namespace Manifests.KptCreator
open Library
open Text (isPySpace rstrip)

/-- `re.match("[^#]+#.*x-kustomize.*", l)`. The first group ends at the first `#`, and the dots do not
go over a line break. -/
def matchesKustomize (l : List Char) : Bool :=
  match l.dropWhile (· ≠ '#') with
  | [] => false
  | _ :: rest =>
    l.takeWhile (· ≠ '#') ≠ [] &&
      Text.contains "x-kustomize" (String.ofList (rest.takeWhile (· ≠ '\n')))

/-- What the loop appends for a line. -/
def newLine (l : String) : String :=
  if matchesKustomize l.toList then
    String.ofList (rstrip (l.toList.takeWhile (· ≠ '#'))) ++ "\n"
  else l

/-- `strip_comments`: what becomes of the lines of a file. -/
def stripComments (f : String) (lines : List String) : List String :=
  if (PosixPath.splitext f).2 ≠ ".yaml" then lines else lines.map newLine

/-- The data of a line: quoted scalars, and what stands between them. -/
inductive Piece where
  | bare (text : String)
  | singleQuoted (raw : String)
  | doubleQuoted (raw : String)
  deriving Repr, DecidableEq

def Piece.render : Piece → List Char
  | .bare text => text.toList
  | .singleQuoted raw => Yaml.apostrophe :: raw.toList ++ [Yaml.apostrophe]
  | .doubleQuoted raw => '"' :: raw.toList ++ ['"']

/-- White space in a line of YAML. -/
def isBlank (c : Char) : Bool := c = ' ' || c = '\t'

/-- No comment begins in a bare text: in front of each `#` stands something that is not blank. The
first argument is the character in front of the text. -/
def bareValid (previous : Option Char) : List Char → Bool
  | [] => true
  | c :: cs => (c ≠ '#' || previous.any (!isBlank ·)) && bareValid (some c) cs

def piecesValid (previous : Option Char) : List Piece → Bool
  | [] => true
  | .bare text :: pieces =>
    bareValid previous text.toList && piecesValid (text.toList.getLast?.or previous) pieces
  | .singleQuoted raw :: pieces =>
    Yaml.singleValid raw.toList && piecesValid (some Yaml.apostrophe) pieces
  | .doubleQuoted raw :: pieces => Yaml.doubleValid raw.toList && piecesValid (some '"') pieces

def render (pieces : List Piece) : List Char := pieces.flatMap Piece.render

/-- A line: its data, white space behind it, a comment and a line break. A comment stands at the start
of the line or behind white space. -/
structure Line where
  pieces : List Piece
  blanks : List Char
  comment : Option String
  newline : Bool
  piecesValid : piecesValid none pieces = true
  trimmed : ∀ c ∈ (render pieces).getLast?, isBlank c = false
  allBlank : ∀ c ∈ blanks, isBlank c = true
  apart : comment.isSome → render pieces = [] ∨ blanks ≠ []
  oneLine : '\n' ∉ render pieces ∧ ∀ c ∈ comment, '\n' ∉ c.toList

def Line.data (l : Line) : List Char := render l.pieces

/-- The comment, with its sign. -/
def Line.note (l : Line) : List Char := l.comment.elim [] fun c => '#' :: c.toList

def Line.lineBreak (l : Line) : List Char := if l.newline then ['\n'] else []

def Line.render (l : Line) : List Char := l.data ++ l.blanks ++ l.note ++ l.lineBreak

def Line.text (l : Line) : String := String.ofList l.render

/-- The comment contains `x-kustomize`. -/
def Line.Kustomized (l : Line) : Prop := ∃ c, l.comment = some c ∧ Text.contains "x-kustomize" c = true

/-- What may become of a line: its data stay, a comment with `x-kustomize` behind data goes, and
without such a comment it stays as it is. -/
structure Stripped (l : Line) (after : String) : Prop where
  data : ∃ l' : Line, l'.text = after ∧ l'.pieces = l.pieces ∧
    (l.data ≠ [] → l.Kustomized → l'.comment = none)
  same : ¬ l.Kustomized → after = l.text

/-- The lines of a file are stripped, one by one. -/
def StripsComments (f : String) (lines : List Line) : Prop :=
  List.Forall₂ Stripped lines (stripComments f (lines.map Line.text))

/-- No `x-kustomize` comes behind a `#` of the data, and data in front of such a comment do not end
with a character that only Python takes for white space. -/
structure Safe (l : Line) : Prop where
  sign : '#' ∈ l.data → ¬ "x-kustomize".toList <:+: l.render.dropWhile (· ≠ '#')
  space : l.Kustomized → ∀ c ∈ l.data.getLast?, isPySpace c = false

variable {l : Line} {before after note cs : List Char} {c : Char} {f : String} {lines : List Line}

theorem takeWhile_lineBreak (h : '\n' ∉ after) :
    (after ++ l.lineBreak).takeWhile (· ≠ '\n') = after := by
  have hall : ∀ c ∈ after, c ≠ '\n' := fun c hc => ne_of_mem_of_not_mem hc h
  rw [List.takeWhile_append_of_pos (by simpa using hall), Line.lineBreak]
  split <;> simp

/-- The regular expression, for a text with a `#`. -/
theorem matchesKustomize_sign (h : '#' ∉ before) (hn : '\n' ∉ after) :
    matchesKustomize (before ++ '#' :: (after ++ l.lineBreak)) = true ↔
      before ≠ [] ∧ "x-kustomize".toList <:+: after := by
  simp only [matchesKustomize, Text.dropWhile_append_cons h, Text.takeWhile_append_cons h,
    takeWhile_lineBreak hn]
  simp [Text.contains_iff]

theorem matchesKustomize_of_not_mem (h : '#' ∉ cs) : matchesKustomize cs = false := by
  have hnil : cs.dropWhile (· ≠ '#') = [] := by
    rw [List.dropWhile_eq_nil_iff]
    intro c hc
    simpa using ne_of_mem_of_not_mem hc h
  rw [matchesKustomize, hnil]

/-- The code of the line up to its first `#`, when it matches. -/
theorem newLine_of_matches {text : String} (h : matchesKustomize text.toList = true) :
    newLine text = String.ofList (rstrip (text.toList.takeWhile (· ≠ '#'))) ++ "\n" := if_pos h

theorem newLine_of_not_matches {text : String} (h : matchesKustomize text.toList = false) :
    newLine text = text := if_neg (by simp [h])

theorem toList_text (l : Line) : l.text.toList = l.data ++ l.blanks ++ l.note ++ l.lineBreak :=
  String.toList_ofList

theorem not_mem_blanks (hc : isBlank c = false) : c ∉ l.blanks := fun h => by
  rw [l.allBlank c h] at hc
  cases hc

theorem newline_not_mem (l : Line) : '\n' ∉ l.data ++ l.blanks ++ l.note := by
  have hnote : '\n' ∉ l.note := by
    unfold Line.note
    cases hc : l.comment with
    | none => simp
    | some c => simpa using l.oneLine.2 c hc
  simp only [List.mem_append, not_or]
  exact ⟨⟨l.oneLine.1, not_mem_blanks (by decide)⟩, hnote⟩

/-- No piece begins with a comment. -/
theorem head?_render {pieces : List Piece} (h : piecesValid none pieces = true) :
    (render pieces).head? ≠ some '#' := by
  induction pieces with
  | nil => simp [render]
  | cons piece pieces ih =>
    cases piece with
    | bare text =>
      rw [piecesValid, Bool.and_eq_true] at h
      have hrender : render (.bare text :: pieces) = text.toList ++ render pieces := rfl
      rw [hrender]
      cases ht : text.toList with
      | nil =>
        rw [ht] at h
        exact ih h.2
      | cons c cs =>
        rw [ht, bareValid, Bool.and_eq_true] at h
        simpa using h.1.1
    | singleQuoted raw => simp [render, Piece.render, Yaml.apostrophe]
    | doubleQuoted raw => simp [render, Piece.render]

theorem data_ne_cons (l : Line) (rest : List Char) : l.data ≠ '#' :: rest := by
  intro h
  apply head?_render l.piecesValid
  rw [← Line.data, h]
  rfl

theorem isPySpace_of_isBlank (h : isBlank c = true) : isPySpace c = true := by
  rcases Bool.or_eq_true_iff.mp h with h | h <;> rw [of_decide_eq_true h] <;> decide

/-- Blanks at the end are stripped. -/
theorem rstrip_blanks (h : ∀ c ∈ after, isBlank c = true) : rstrip (cs ++ after) = rstrip cs := by
  induction after using List.reverseRecOn with
  | nil => rw [List.append_nil]
  | append_singleton after c ih =>
    rw [← List.append_assoc, rstrip, List.rdropWhile_concat_pos _ _ _
      (isPySpace_of_isBlank (h c (by simp)))]
    exact ih fun d hd => h d (List.mem_append_left _ hd)

/-- A line that is left as it is: it must not have a comment to be stripped. -/
theorem stripped_self (h : l.data ≠ [] → ¬ l.Kustomized) : Stripped l l.text :=
  ⟨⟨l, rfl, rfl, fun hd hk => (h hd hk).elim⟩, fun _ => rfl⟩

/-- The line with its data and a line break. -/
def Line.bare (l : Line) : Line :=
  { l with blanks := [], comment := none, newline := true, allBlank := nofun, apart := nofun,
           oneLine := ⟨l.oneLine.1, nofun⟩ }

theorem text_bare (l : Line) : l.bare.text = String.ofList l.data ++ "\n" := by
  apply String.toList_inj.mp
  rw [toList_text, String.toList_append, String.toList_ofList]
  simp [Line.bare, Line.data, Line.note, Line.lineBreak]

/-- What keeps the data begins with them. -/
theorem data_begins {text : String} (h : Stripped l text) : l.data <+: text.toList := by
  obtain ⟨l', rfl, hpieces, _⟩ := h.data
  rw [toList_text, List.append_assoc, List.append_assoc, Line.data, Line.data, hpieces]
  exact List.prefix_append _ _

/-- A text that ends before the data do, but for a line break, has lost some of them. -/
theorem not_prefix_concat {short : List Char} (hn : '\n' ∉ cs) (hlt : short.length < cs.length) :
    ¬ cs <+: short ++ ['\n'] := by
  intro h
  have hlen := h.length_le
  rw [List.length_append, List.length_singleton] at hlen
  have heq : cs = short ++ ['\n'] := h.eq_of_length (by simp; omega)
  exact hn (by simp [heq])

theorem kustomize_infix_iff :
    "x-kustomize".toList <:+: '#' :: (after ++ l.lineBreak) ↔ "x-kustomize".toList <:+: after := by
  have hsign : ¬ "x-kustomize".toList <+: '#' :: (after ++ l.lineBreak) := by simp
  rw [List.infix_cons_iff, or_iff_right hsign, Line.lineBreak]
  split
  · rw [Text.infix_append_cons_iff (by decide)]
    simp
  · rw [List.append_nil]

/-- A line whose first `#` is one of the data, with what stands on both sides of it. -/
theorem exists_sign (h : '#' ∈ l.data) : ∃ before after, before ≠ [] ∧ '#' ∉ before ∧
    l.data = before ++ '#' :: after ∧
      l.render = before ++ '#' :: ((after ++ l.blanks ++ l.note) ++ l.lineBreak) := by
  obtain ⟨before, after, hdata, hbefore⟩ := List.eq_append_cons_of_mem h
  refine ⟨before, after, ?_, hbefore, hdata, ?_⟩
  · rintro rfl
    exact data_ne_cons l after hdata
  · rw [Line.render, hdata]
    simp

/-- The comment stands behind a `#` of the data. -/
theorem kustomize_behind_sign (h : '#' ∈ l.data) (hk : l.Kustomized) :
    "x-kustomize".toList <:+: l.render.dropWhile (· ≠ '#') := by
  obtain ⟨before, after, _, hbefore, _, hrender⟩ := exists_sign h
  obtain ⟨c, hc, hin⟩ := hk
  rw [hrender, Text.dropWhile_append_cons hbefore, kustomize_infix_iff, Line.note, hc,
    Option.elim_some, List.append_cons]
  exact (Text.contains_iff.mp hin).trans List.infix_append_right

/-- The first `#` is one of the data. -/
theorem stripped_of_sign (h : '#' ∈ l.data) : Stripped l (newLine l.text) ↔
    ¬ "x-kustomize".toList <:+: l.render.dropWhile (· ≠ '#') := by
  obtain ⟨before, after, hne, hbefore, hdata, htext⟩ := exists_sign h
  have hnewline : '\n' ∉ after ++ l.blanks ++ l.note := by
    have hall := newline_not_mem l
    rw [hdata] at hall
    simp only [List.mem_append, List.mem_cons, not_or] at hall ⊢
    exact ⟨⟨hall.1.1.2.2, hall.1.2⟩, hall.2⟩
  have hmatches : matchesKustomize l.text.toList = true ↔
      "x-kustomize".toList <:+: l.render.dropWhile (· ≠ '#') := by
    rw [toList_text, ← Line.render, htext, matchesKustomize_sign hbefore hnewline,
      and_iff_right hne, Text.dropWhile_append_cons hbefore, kustomize_infix_iff]
  rw [← hmatches]
  cases hm : matchesKustomize l.text.toList with
  | true =>
    refine iff_of_false (fun hs => ?_) (by simp)
    have hpre := data_begins hs
    rw [newLine_of_matches hm, toList_text, ← Line.render, htext, Text.takeWhile_append_cons hbefore,
      String.toList_append, String.toList_ofList] at hpre
    have hle := (List.rdropWhile_prefix isPySpace before).length_le
    have hlt : (rstrip before).length < l.data.length := by
      rw [hdata, List.length_append, List.length_cons, rstrip]
      omega
    exact not_prefix_concat l.oneLine.1 hlt hpre
  | false =>
    refine iff_of_true ?_ (by simp)
    rw [newLine_of_not_matches hm]
    refine stripped_self fun _ hk => ?_
    rw [hmatches.mpr (kustomize_behind_sign h hk)] at hm
    cases hm

theorem rstrip_eq_self_iff : rstrip cs = cs ↔ ∀ c ∈ cs.getLast?, isPySpace c = false := by
  rw [rstrip, List.rdropWhile_eq_self_iff]
  cases h : cs.getLast? with
  | none => simp [List.getLast?_eq_none_iff.mp h]
  | some c =>
    obtain ⟨front, rfl⟩ := List.getLast?_eq_some_iff.mp h
    simp

theorem sign_not_mem (h : '#' ∉ l.data) : '#' ∉ l.data ++ l.blanks := by
  rw [List.mem_append, not_or]
  exact ⟨h, not_mem_blanks (by decide)⟩

theorem not_matches_of_no_comment (h : '#' ∉ l.data) (hc : l.comment = none) :
    matchesKustomize l.text.toList = false := by
  apply matchesKustomize_of_not_mem
  rw [toList_text, Line.note, hc, Option.elim_none, List.append_nil, List.mem_append, not_or]
  refine ⟨sign_not_mem h, ?_⟩
  unfold Line.lineBreak
  split <;> simp

/-- The text of a line with a comment. -/
theorem toList_text_of_comment {comment : String} (hc : l.comment = some comment) :
    l.text.toList = (l.data ++ l.blanks) ++ '#' :: (comment.toList ++ l.lineBreak) := by
  rw [toList_text, Line.note, hc, Option.elim_some]
  simp

theorem matches_comment_iff {comment : String} (h : '#' ∉ l.data) (hc : l.comment = some comment) :
    matchesKustomize l.text.toList = true ↔ l.data ++ l.blanks ≠ [] ∧ l.Kustomized := by
  have hk : l.Kustomized ↔ "x-kustomize".toList <:+: comment.toList := by
    simp [Line.Kustomized, hc, Text.contains_iff]
  rw [toList_text_of_comment hc, matchesKustomize_sign (sign_not_mem h) (l.oneLine.2 comment hc), hk]

/-- The data without white space at their end are the data when they do not end with any. -/
theorem stripped_rstrip_iff (hk : l.Kustomized) :
    Stripped l (String.ofList (rstrip l.data) ++ "\n") ↔
      ∀ c ∈ l.data.getLast?, isPySpace c = false := by
  rw [← rstrip_eq_self_iff]
  constructor
  · intro hs
    by_contra hne
    have hpre := data_begins hs
    rw [String.toList_append, String.toList_ofList] at hpre
    have hbegins : rstrip l.data <+: l.data := List.rdropWhile_prefix isPySpace l.data
    have hlt : (rstrip l.data).length < l.data.length :=
      lt_of_le_of_ne hbegins.length_le fun heq => hne (hbegins.eq_of_length heq)
    exact not_prefix_concat l.oneLine.1 hlt hpre
  · intro heq
    rw [heq, ← text_bare]
    exact ⟨⟨l.bare, rfl, rfl, fun _ _ => rfl⟩, fun hn => (hn hk).elim⟩

/-- The first `#`, if there is one, begins the comment. -/
theorem stripped_of_no_sign (h : '#' ∉ l.data) : Stripped l (newLine l.text) ↔
    (l.Kustomized → ∀ c ∈ l.data.getLast?, isPySpace c = false) := by
  cases hc : l.comment with
  | none =>
    have hk : ¬ l.Kustomized := by
      rintro ⟨c, hc', _⟩
      rw [hc] at hc'
      cases hc'
    rw [newLine_of_not_matches (not_matches_of_no_comment h hc)]
    exact iff_of_true (stripped_self fun _ => hk) fun hk' => (hk hk').elim
  | some comment =>
    cases hm : matchesKustomize l.text.toList with
    | true =>
      have hkustomized := ((matches_comment_iff h hc).mp hm).2
      rw [newLine_of_matches hm, toList_text_of_comment hc,
        Text.takeWhile_append_cons (sign_not_mem h), rstrip_blanks l.allBlank,
        stripped_rstrip_iff hkustomized, forall_prop_of_true hkustomized]
    | false =>
      have hnot : ¬ (l.data ++ l.blanks ≠ [] ∧ l.Kustomized) := by
        rw [← matches_comment_iff h hc, hm]
        simp
      have hnil : l.Kustomized → l.data = [] := fun hk => by
        by_contra hd
        exact hnot ⟨fun hnil => hd (List.append_eq_nil_iff.mp hnil).1, hk⟩
      rw [newLine_of_not_matches hm]
      refine iff_of_true (stripped_self fun hd hk => hd (hnil hk)) fun hk => ?_
      simp [hnil hk]

/-- A line is stripped as it should be exactly when it is safe. -/
theorem stripped_iff (l : Line) : Stripped l (newLine l.text) ↔ Safe l := by
  by_cases h : '#' ∈ l.data
  · rw [stripped_of_sign h]
    exact ⟨fun hn => ⟨fun _ => hn, fun hk => (hn (kustomize_behind_sign h hk)).elim⟩,
      fun hs => hs.sign h⟩
  · rw [stripped_of_no_sign h]
    exact ⟨fun hspace => ⟨fun hin => (h hin).elim, hspace⟩, fun hs => hs.space⟩

/-- Behind the data a `#` is the sign of the comment. -/
theorem sign_mem_iff : '#' ∈ l.blanks ++ (l.note ++ l.lineBreak) ↔ l.comment.isSome := by
  have hbreak : '#' ∉ l.lineBreak := by
    unfold Line.lineBreak
    split <;> simp
  rw [List.mem_append, or_iff_right (not_mem_blanks (by decide)), List.mem_append,
    or_iff_left hbreak, Line.note]
  cases l.comment <;> simp

/-- A line that keeps its text keeps its comment. -/
theorem isSome_comment_eq {l' : Line} (htext : l'.text = l.text) (hpieces : l'.pieces = l.pieces) :
    l'.comment.isSome = l.comment.isSome := by
  have hdata : l'.data = l.data := by rw [Line.data, Line.data, hpieces]
  have hlist : l'.text.toList = l.text.toList := congrArg String.toList htext
  rw [toList_text, toList_text, hdata, List.append_assoc, List.append_assoc, List.append_assoc,
    List.append_assoc, List.append_cancel_left_eq] at hlist
  rw [Bool.eq_iff_iff, ← sign_mem_iff, ← sign_mem_iff, hlist]

/-- A line may stay as it is exactly when there is nothing to strip. -/
theorem stripped_self_iff : Stripped l l.text ↔ (l.data ≠ [] → ¬ l.Kustomized) := by
  refine ⟨fun hs hd hk => ?_, stripped_self⟩
  obtain ⟨l', htext, hpieces, hnone⟩ := hs.data
  obtain ⟨c, hc, hpatch⟩ := hk
  have hsome := isSome_comment_eq htext hpieces
  rw [hnone hd ⟨c, hc, hpatch⟩, hc] at hsome
  cases hsome

/-- `url: "http://a#b" # x-kustomize`, with a `#` in the data. -/
def fragmentLine : Line where
  pieces := [.bare "url: ", .doubleQuoted "http://a#b"]
  blanks := [' ']
  comment := some " x-kustomize"
  newline := true
  piecesValid := by decide +kernel
  trimmed := by simp [render, Piece.render, isBlank]
  allBlank := by simp [isBlank]
  apart := fun _ => Or.inr (List.cons_ne_nil _ _)
  oneLine := by
    constructor
    · decide +kernel
    · rintro c ⟨⟩
      decide +kernel

example : newLine fragmentLine.text = "url: \"http://a\n" := by decide +kernel

end Manifests.KptCreator
