import Mathlib

/-! Block-style YAML texts, line by line: `key: scalar` lines, keys that open a block, items of
sequences, and comments. -/
namespace Library.Yaml

/-- The character that single-quoted scalars stand in. -/
def apostrophe : Char := Char.ofNat 39

/-- A scalar as it is written. The quoted ones keep what stands between the quotes. -/
inductive Scalar where
  | plain (text : String)
  | singleQuoted (raw : String)
  | doubleQuoted (raw : String)
  deriving Repr, DecidableEq

def Scalar.render : Scalar → List Char
  | .plain text => text.toList
  | .singleQuoted raw => apostrophe :: raw.toList ++ [apostrophe]
  | .doubleQuoted raw => '"' :: raw.toList ++ ['"']

/-- A doubled apostrophe stands for one. -/
def undouble : List Char → List Char
  | c :: d :: cs =>
    if c = apostrophe ∧ d = apostrophe then apostrophe :: undouble cs else c :: undouble (d :: cs)
  | cs => cs

/-- What a scalar stands for, where `unescape` resolves the escapes between double quotes. -/
def Scalar.value (unescape : String → String) : Scalar → String
  | .plain text => text
  | .singleQuoted raw => String.ofList (undouble raw.toList)
  | .doubleQuoted raw => unescape raw

/-- What stands on a line, besides its indentation, the dashes of its items and its comment. -/
inductive Body where
  | nothing
  | item (value : Scalar)
  /-- `key: value`, with that many further spaces in front of the value. -/
  | entry (key : Scalar) (gap : Nat) (value : Scalar)
  /-- `key:`, in front of a nested block. -/
  | block (key : Scalar)
  deriving Repr, DecidableEq

def Body.render : Body → List Char
  | .nothing => []
  | .item value => value.render
  | .entry key gap value => key.render ++ ':' :: ' ' :: List.replicate gap ' ' ++ value.render
  | .block key => key.render ++ [':']

/-- A line. Each dash has a space behind it, and as many further ones as its number says. -/
structure Line where
  indent : Nat
  dashes : List Nat
  body : Body
  blanks : Nat
  comment : Option String
  deriving Repr, DecidableEq

/-- The indentation and the dashes of a line. -/
def Line.lead (l : Line) : List Char :=
  List.replicate l.indent ' ' ++ l.dashes.flatMap fun n => '-' :: ' ' :: List.replicate n ' '

/-- The trailing spaces and the comment of a line. -/
def Line.trail (l : Line) : List Char :=
  List.replicate l.blanks ' ' ++ l.comment.elim [] fun c => '#' :: c.toList

def Line.render (l : Line) : List Char := l.lead ++ l.body.render ++ l.trail

def renderLines : List Line → List Char
  | [] => []
  | [l] => l.render
  | l :: l' :: ls => l.render ++ '\n' :: renderLines (l' :: ls)

/-- The characters that a plain scalar does not start with, except for the first three in front of
a character that is no space. -/
def indicators : List Char := "-?:,[]\x7b\x7d#&*!|>'\"%@`".toList

/-- No `: ` and no ` #` inside, and no colon or space at the end. -/
def plainInside : List Char → Bool
  | [] => true
  | [c] => c ≠ ':' && c ≠ ' '
  | c :: d :: cs => !(c = ':' && d = ' ') && !(c = ' ' && d = '#') && plainInside (d :: cs)

def plainValid : List Char → Bool
  | [] => false
  | c :: cs =>
    c ≠ ' ' && plainInside (c :: cs) &&
      (!indicators.contains c || (indicators.take 3).contains c && !cs.isEmpty && cs.head? ≠ some ' ')

/-- Every apostrophe is doubled. -/
def singleValid : List Char → Bool
  | c :: d :: cs =>
    if c = apostrophe then d = apostrophe && singleValid cs else singleValid (d :: cs)
  | [c] => c ≠ apostrophe
  | [] => true

/-- Every quote is behind a backslash, and no backslash stands at the end. -/
def doubleValid : List Char → Bool
  | '\\' :: _ :: cs => doubleValid cs
  | c :: cs => c ≠ '"' && c ≠ '\\' && doubleValid cs
  | [] => true

def Scalar.valid : Scalar → Bool
  | .plain text => plainValid text.toList
  | .singleQuoted raw => singleValid raw.toList
  | .doubleQuoted raw => doubleValid raw.toList

def Body.valid : Body → Bool
  | .nothing => true
  | .item value => value.valid
  | .entry key _ value => key.valid && value.valid
  | .block key => key.valid

/-- A line is one line, its scalars are well written, and a comment has a space in front of it. -/
def Line.valid (l : Line) : Bool :=
  !l.render.contains '\n' && l.body.valid &&
    (l.comment.isNone || l.body = .nothing || 0 < l.blanks)

/-- A text of such lines. -/
structure Text where
  lines : List Line
  valid : ∀ l ∈ lines, l.valid = true

def Text.toString (t : Text) : String := String.ofList (renderLines t.lines)

/-- The scalars that are values of a key, in order. -/
def scalarsAt (unescape : String → String) (key : String) (lines : List Line) : List String :=
  lines.filterMap fun l =>
    match l.body with
    | .entry k _ v => if k.value unescape = key then some (v.value unescape) else none
    | _ => none

variable {l : Line} {c : Char} {t : Text}

theorem Text.oneLine (h : l ∈ t.lines) : '\n' ∉ l.render := by
  have hvalid := t.valid l h
  simp only [Line.valid, Bool.and_eq_true, Bool.not_eq_true', List.contains_eq_mem,
    decide_eq_false_iff_not] at hvalid
  exact hvalid.1.1

theorem mem_lead (h : c ∈ l.lead) : c = ' ' ∨ c = '-' := by
  rcases List.mem_append.mp h with h | h
  · exact Or.inl (List.mem_replicate.mp h).2
  · obtain ⟨n, _, h⟩ := List.mem_flatMap.mp h
    rcases List.mem_cons.mp h with h | h
    · exact Or.inr h
    · rcases List.mem_cons.mp h with h | h
      · exact Or.inl h
      · exact Or.inl (List.mem_replicate.mp h).2

/-- A line ends with its body only when it has no trailing spaces and no comment. -/
theorem trail_eq_nil : l.trail = [] ↔ l.blanks = 0 ∧ l.comment = none := by
  rw [Line.trail, List.append_eq_nil_iff, List.replicate_eq_nil_iff]
  cases l.comment <;> simp

end Library.Yaml
