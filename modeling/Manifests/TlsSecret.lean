import Manifests.AirGap

/-! `install.sh`: it checks its variables, and copies the secret with the certificate of the user to
the namespace of the jobs. -/
namespace Manifests.TlsSecret
open Library AirGap

def internalTlsSecretName : String := "kf-jobs-cert-secret"

/-- The variables, where an unset one is empty. -/
structure EnvVars where
  kfJobsNs : String
  tlsSecretName : String
  tlsSecretNs : String
  tlsKeyLocation : String
  tlsCertLocation : String
  deriving Repr, DecidableEq

/-- The characters at which the shell splits a value. -/
def isIfs (c : Char) : Bool := c = ' ' || c = '\t' || c = '\n'

/-- The words of `${X}` without quotes. -/
def shellWords (value : String) : List String :=
  ((value.toList.splitOnP isIfs).filter (· ≠ [])).map String.ofList

/-- `\s` in a regular expression. -/
def isSpace (c : Char) : Bool :=
  c ∈ [' ', '\t', '\n', Char.ofNat 11, Char.ofNat 12, '\r']

/-- `echo ${X} | grep ".*\s.*"`. -/
def hasSpaces (value : String) : Bool := (" ".intercalate (shellWords value)).toList.any isSpace

section
variable (readable : String → Bool)

/-- `[ -r $X ]`, which is true without a path. -/
def isReadable (location : String) : Bool :=
  match shellWords location with
  | [] => true
  | [path] => readable path
  | _ => false

/-- `test_env_vars`. -/
def testEnvVars (env : EnvVars) : Bool :=
  !hasSpaces env.kfJobsNs && !hasSpaces env.tlsSecretName && !hasSpaces env.tlsSecretNs &&
    !(env.tlsSecretName ≠ "" && env.tlsCertLocation ≠ "") &&
    decide (env.tlsSecretName ≠ "" ↔ env.tlsSecretNs ≠ "") &&
    decide (env.tlsKeyLocation ≠ "" ↔ env.tlsCertLocation ≠ "") &&
    isReadable readable env.tlsKeyLocation && isReadable readable env.tlsCertLocation

end

/-- `s/r/replacement/g`. The first argument counts the characters of a match that are still to be
skipped. -/
def sedReplace (r : Regex) (replacement : List Char) : Nat → List Char → List Char
  | _, [] => []
  | n + 1, _ :: cs => sedReplace r replacement n cs
  | 0, c :: cs =>
    if matchesAt r (c :: cs) then replacement ++ sedReplace r replacement (r.length - 1) cs
    else c :: sedReplace r replacement 0 cs

/-- The texts that are replaced, from the left to the right. -/
def matched (r : Regex) : Nat → List Char → List (List Char)
  | _, [] => []
  | n + 1, _ :: cs => matched r n cs
  | 0, c :: cs =>
    if matchesAt r (c :: cs) then (c :: cs).take r.length :: matched r (r.length - 1) cs
    else matched r 0 cs

/-- `name: ${TLS_SECRET_NAME}` -/
def namePattern (value : String) : Regex := regex ("name: " ++ value)

/-- `name: ${INTERNAL_TLS_SECRET_NAME}` -/
def newName : List Char := ("name: " ++ internalTlsSecretName).toList

/-- What becomes of a line. -/
def sedLine (value line : String) : Option String :=
  let replaced := String.ofList (sedReplace (namePattern value) newName 0 line.toList)
  if Text.contains "namespace:" replaced then none else some replaced

/-- `sed`, which prints nothing when a line break ends its command. -/
def sed (value : String) (lines : List String) : List String :=
  if '\n' ∈ value.toList then [] else lines.filterMap (sedLine value)

/-- What the script pipes to `kubectl apply`, for the lines of the secret that kubectl prints. -/
def install (readable : String → Bool) (env : EnvVars) (secret : List String) : Option (List String) :=
  if testEnvVars readable env = true ∧ env.tlsSecretName ≠ "" then some (sed env.tlsSecretName secret)
  else none

/-- A name of Kubernetes: letters and digits, with hyphens and dots between them. -/
structure Name where
  text : String
  start : ∀ c ∈ text.toList.head?, c.isAlphanum = true
  nonempty : text ≠ ""
  chars : ∀ c ∈ text.toList, c.isAlphanum = true ∨ c = '-' ∨ c = '.'

/-- A name as kubectl prints it: it stands in quotes when it would not be read as a text. -/
def printed (quoted : Bool) (name : Name) : String :=
  if quoted then "\"" ++ name.text ++ "\"" else name.text

/-- The manifest of a secret. Its name and namespace stand on two lines of the metadata. -/
structure Manifest where
  before : List String
  name : Name
  quoted : Bool
  ns : Name
  nsQuoted : Bool
  after : List String
  isText : name.text = internalTlsSecretName → quoted = false

def Manifest.nameLine (m : Manifest) : String := "  name: " ++ printed m.quoted m.name

def Manifest.nsLine (m : Manifest) : String := "  namespace: " ++ printed m.nsQuoted m.ns

def Manifest.lines (m : Manifest) : List String :=
  m.before ++ m.nameLine :: m.nsLine :: m.after

/-- The line with the new name. -/
def newNameLine : String := "  name: " ++ internalTlsSecretName

/-- The manifest with the new name and without a namespace. -/
def Manifest.renamed (m : Manifest) : List String := m.before ++ newNameLine :: m.after

/-- The name is printed without quotes, and it is the value of the variable or the new name already;
and in all other lines there is no `namespace:` and nothing to replace, except for the new name. -/
structure Copies (value : String) (m : Manifest) : Prop where
  plain : m.quoted = false
  name : value = m.name.text ∨ m.name.text = internalTlsSecretName ∧ '\n' ∉ value.toList
  others : ∀ line ∈ m.before ++ m.after, Text.contains "namespace:" line = false ∧
    ∀ text ∈ matched (namePattern value) 0 line.toList, text = newName

section
variable {r : Regex} {replacement cs rest : List Char} {c : Char} {n : Nat} {value line : String}

theorem sedReplace_drop : sedReplace r replacement n cs = sedReplace r replacement 0 (cs.drop n) := by
  induction n generalizing cs with
  | zero => rfl
  | succ n ih =>
    cases cs with
    | nil => rfl
    | cons c cs => exact ih

theorem matched_drop : matched r n cs = matched r 0 (cs.drop n) := by
  induction n generalizing cs with
  | zero => rfl
  | succ n ih =>
    cases cs with
    | nil => rfl
    | cons c cs => exact ih

theorem length_le_of_matchesAt (h : matchesAt r cs = true) : r.length ≤ cs.length := by
  induction r generalizing cs with
  | nil => exact Nat.zero_le _
  | cons d r ih =>
    cases cs with
    | nil => cases d <;> cases h
    | cons c cs =>
      cases d with
      | none => exact Nat.succ_le_succ (ih h)
      | some d =>
        rw [matchesAt, Bool.and_eq_true] at h
        exact Nat.succ_le_succ (ih h.2)

/-- At a match the text of the match is replaced. -/
theorem sedReplace_of_matchesAt (hr : r ≠ []) (h : matchesAt r cs = true) :
    sedReplace r replacement 0 cs = replacement ++ sedReplace r replacement 0 (cs.drop r.length) := by
  have hlen := length_le_of_matchesAt h
  have hpos := List.length_pos_iff.mpr hr
  cases cs with
  | nil =>
    rw [List.length_nil] at hlen
    omega
  | cons c cs =>
    obtain ⟨n, hn⟩ := Nat.exists_eq_add_of_lt hpos
    rw [sedReplace, if_pos h, sedReplace_drop, hn]
    simp

theorem matched_of_matchesAt (hr : r ≠ []) (h : matchesAt r cs = true) :
    matched r 0 cs = cs.take r.length :: matched r 0 (cs.drop r.length) := by
  have hlen := length_le_of_matchesAt h
  have hpos := List.length_pos_iff.mpr hr
  cases cs with
  | nil =>
    rw [List.length_nil] at hlen
    omega
  | cons c cs =>
    obtain ⟨n, hn⟩ := Nat.exists_eq_add_of_lt hpos
    rw [matched, if_pos h, matched_drop, hn]
    simp

theorem sedReplace_of_not_matchesAt (h : matchesAt r (c :: cs) = false) :
    sedReplace r replacement 0 (c :: cs) = c :: sedReplace r replacement 0 cs := by
  rw [sedReplace, h]
  rfl

theorem matched_of_not_matchesAt (h : matchesAt r (c :: cs) = false) :
    matched r 0 (c :: cs) = matched r 0 cs := by
  rw [matched, h]
  rfl

/-- Each match takes as many characters as the expression has. -/
theorem length_sedReplace (hr : r ≠ []) (replacement cs : List Char) :
    (sedReplace r replacement 0 cs).length + (matched r 0 cs).length * r.length =
      cs.length + (matched r 0 cs).length * replacement.length := by
  induction hlen : cs.length using Nat.strong_induction_on generalizing cs with
  | _ len ih =>
    cases cs with
    | nil => simp [sedReplace, matched, ← hlen]
    | cons c cs =>
      cases h : matchesAt r (c :: cs) with
      | false =>
        rw [sedReplace_of_not_matchesAt h, matched_of_not_matchesAt h]
        rw [List.length_cons] at hlen ⊢
        have hrest := ih cs.length (by omega) cs rfl
        omega
      | true =>
        have hle := length_le_of_matchesAt h
        have hpos := List.length_pos_iff.mpr hr
        rw [sedReplace_of_matchesAt hr h, matched_of_matchesAt hr h]
        have hrest := ih ((c :: cs).drop r.length).length (by rw [List.length_drop]; omega) _ rfl
        rw [List.length_append, List.length_cons, Nat.succ_mul, Nat.succ_mul]
        rw [List.length_drop] at hrest
        omega

/-- A text stays as it is when what is replaced is the replacement already. -/
theorem sedReplace_eq_self_iff (hr : r ≠ []) (cs : List Char) :
    sedReplace r replacement 0 cs = cs ↔ ∀ text ∈ matched r 0 cs, text = replacement := by
  induction hlen : cs.length using Nat.strong_induction_on generalizing cs with
  | _ len ih =>
    cases cs with
    | nil => simp [sedReplace, matched]
    | cons c cs =>
      cases h : matchesAt r (c :: cs) with
      | false =>
        rw [sedReplace_of_not_matchesAt h, matched_of_not_matchesAt h, List.cons_inj_right]
        rw [List.length_cons] at hlen
        exact ih cs.length (by omega) cs rfl
      | true =>
        have hle := length_le_of_matchesAt h
        have hpos := List.length_pos_iff.mpr hr
        have hrest := ih ((c :: cs).drop r.length).length (by rw [List.length_drop]; omega) _ rfl
        rw [sedReplace_of_matchesAt hr h, matched_of_matchesAt hr h, List.forall_mem_cons, ← hrest]
        have hsplit := List.take_append_drop r.length (c :: cs)
        constructor
        · intro heq
          -- the lengths tell that the replacement is as long as a match
          have hcount := length_sedReplace hr replacement ((c :: cs).drop r.length)
          have htotal := congrArg List.length heq
          rw [List.length_append] at htotal
          rw [List.length_drop] at hcount
          have hequal : replacement.length = r.length := by
            have hmul : (matched r 0 ((c :: cs).drop r.length)).length.succ * replacement.length =
                (matched r 0 ((c :: cs).drop r.length)).length.succ * r.length := by
              rw [Nat.succ_mul, Nat.succ_mul]
              omega
            exact Nat.eq_of_mul_eq_mul_left (Nat.succ_pos _) hmul
          obtain ⟨hmatch, htail⟩ := List.append_inj (heq.trans hsplit.symm) (by
            rw [hequal, List.length_take, min_eq_left hle])
          exact ⟨hmatch.symm, htail⟩
        · rintro ⟨hmatch, htail⟩
          rw [htail, ← hmatch, hsplit]

end

/-! The words of a variable. -/

section
variable {cs w head : List Char} {tail : List (List Char)} {value word : String}

theorem exists_trail (h : cs.splitOnP isIfs = head :: tail) (ht : ∀ part ∈ tail, part = []) :
    ∃ trail, cs = head ++ trail ∧ ∀ c ∈ trail, isIfs c = true := by
  induction cs generalizing head tail with
  | nil =>
    cases h
    exact ⟨[], rfl, List.forall_mem_nil _⟩
  | cons c cs ih =>
    obtain ⟨first, others, hcs⟩ := List.exists_cons_of_ne_nil (List.splitOnP_ne_nil isIfs cs)
    rw [List.splitOnP_cons_eq_if_modifyHead, hcs] at h
    split at h
    · next hc =>
      cases h
      obtain ⟨hfirst, hothers⟩ := List.forall_mem_cons.mp ht
      obtain ⟨trail, rfl, htrail⟩ := ih hcs hothers
      refine ⟨c :: trail, by rw [hfirst]; rfl, List.forall_mem_cons.mpr ⟨hc, htrail⟩⟩
    · cases h
      obtain ⟨trail, rfl, htrail⟩ := ih hcs ht
      exact ⟨trail, rfl, htrail⟩

/-- A value with one word is this word, with blanks around it. -/
theorem exists_lead_trail (h : (cs.splitOnP isIfs).filter (· ≠ []) = [w]) :
    ∃ lead trail, cs = lead ++ (w ++ trail) ∧ (∀ c ∈ lead, isIfs c = true) ∧
      ∀ c ∈ trail, isIfs c = true := by
  induction cs with
  | nil => cases h
  | cons c cs ih =>
    obtain ⟨first, others, hcs⟩ := List.exists_cons_of_ne_nil (List.splitOnP_ne_nil isIfs cs)
    by_cases hc : isIfs c = true
    · rw [List.splitOnP_cons_eq_if_modifyHead, if_pos hc, List.filter_cons_of_neg (by simp)] at h
      obtain ⟨lead, trail, rfl, hlead, htrail⟩ := ih h
      exact ⟨c :: lead, trail, rfl, List.forall_mem_cons.mpr ⟨hc, hlead⟩, htrail⟩
    · have hsplit : (c :: cs).splitOnP isIfs = (c :: first) :: others := by
        rw [List.splitOnP_cons_eq_if_modifyHead, if_neg hc, hcs]
        rfl
      rw [hsplit, List.filter_cons_of_pos (by simp), List.cons_eq_cons, List.filter_eq_nil_iff] at h
      obtain ⟨rfl, hothers⟩ := h
      obtain ⟨trail, htrail, hifs⟩ := exists_trail hsplit fun part hpart => by
        simpa using hothers part hpart
      exact ⟨[], trail, htrail, List.forall_mem_nil _, hifs⟩

theorem of_shellWords (h : shellWords value = [word]) :
    ∃ lead trail, value.toList = lead ++ (word.toList ++ trail) ∧ (∀ c ∈ lead, isIfs c = true) ∧
      ∀ c ∈ trail, isIfs c = true := by
  obtain ⟨w, hw, hword⟩ := List.map_eq_singleton_iff.mp h
  rw [← hword, String.toList_ofList]
  exact exists_lead_trail hw

end

/-! The lines of a manifest. -/

section
variable {r : Regex} {lit cs : List Char} {c : Char} {value line : String} {m : Manifest} {name : Name}
  {quoted : Bool}

theorem namePattern_eq (value : String) :
    namePattern value = "name: ".toList.map some ++ regex value := by
  have hlit : "name: ".toList.map (fun c => if c = '.' then none else some c) =
      "name: ".toList.map some := by decide
  rw [namePattern, regex, String.toList_append, List.map_append, hlit]
  rfl

theorem namePattern_ne_nil (value : String) : namePattern value ≠ [] := by
  rw [namePattern_eq]
  exact List.cons_ne_nil _ _

theorem matchesAt_literal : matchesAt (lit.map some ++ r) cs = true ↔
    ∃ rest, cs = lit ++ rest ∧ matchesAt r rest = true := by
  induction lit generalizing cs with
  | nil => simp
  | cons d lit ih =>
    cases cs with
    | nil => simp [matchesAt]
    | cons c cs =>
      rw [List.map_cons, List.cons_append, matchesAt, Bool.and_eq_true, ih, beq_iff_eq]
      constructor
      · rintro ⟨rfl, rest, rfl, hrest⟩
        exact ⟨rest, rfl, hrest⟩
      · rintro ⟨rest, heq, hrest⟩
        cases heq
        exact ⟨rfl, rest, rfl, hrest⟩

theorem matchesAt_namePattern : matchesAt (namePattern value) cs = true ↔
    ∃ rest, cs = "name: ".toList ++ rest ∧ matchesAt (regex value) rest = true := by
  rw [namePattern_eq, matchesAt_literal]

/-- Without a colon there is nothing to replace. -/
theorem sedReplace_of_no_colon (h : ':' ∉ cs) : sedReplace (namePattern value) newName 0 cs = cs := by
  induction cs with
  | nil => rfl
  | cons c cs ih =>
    have hnot : matchesAt (namePattern value) (c :: cs) = false := by
      rw [← Bool.not_eq_true, matchesAt_namePattern]
      rintro ⟨rest, heq, _⟩
      rw [heq] at h
      exact h (by simp)
    rw [sedReplace_of_not_matchesAt hnot, ih (List.not_mem_of_not_mem_cons h)]

theorem matchesAt_self (text : String) : matchesAt (regex text) text.toList = true := by
  rw [regex]
  induction text.toList with
  | nil => rfl
  | cons c cs ih =>
    rw [List.map_cons]
    split
    · exact ih
    · rw [matchesAt, beq_self_eq_true, ih, Bool.and_self]

theorem not_special (h : c.isAlphanum = true) : c ≠ '.' ∧ c ≠ '"' ∧ c ≠ ':' ∧ isIfs c = false := by
  refine ⟨?_, ?_, ?_, ?_⟩
  · rintro rfl
    cases h
  · rintro rfl
    cases h
  · rintro rfl
    cases h
  · rw [← Bool.not_eq_true]
    intro hifs
    simp only [isIfs, Bool.or_eq_true, decide_eq_true_eq] at hifs
    rcases hifs with (rfl | rfl) | rfl <;> cases h

theorem no_colon (name : Name) : ':' ∉ name.text.toList := by
  intro h
  rcases name.chars _ h with h | h | h <;> cases h

theorem no_newline (name : Name) : '\n' ∉ name.text.toList := by
  intro h
  rcases name.chars _ h with h | h | h <;> cases h

theorem printed_no_colon (quoted : Bool) (name : Name) : ':' ∉ (printed quoted name).toList := by
  have h := no_colon name
  unfold printed
  split <;> simp [h]

/-- The first character of a match, unless the expression begins with a dot. -/
theorem head_of_matchesAt {d : Char} {ds : List Char} (hvalue : value.toList = d :: ds) (hd : d ≠ '.')
    (h : matchesAt (regex value) (c :: cs) = true) : c = d := by
  rw [regex, hvalue, List.map_cons, if_neg hd, matchesAt, Bool.and_eq_true] at h
  exact beq_iff_eq.mp h.1

/-- What is printed begins with the name or with a quote. -/
theorem exists_printed_cons {d : Char} {ds : List Char} (hname : name.text.toList = d :: ds)
    (quoted : Bool) : ∃ c cs, (printed quoted name).toList = c :: cs ∧ isIfs c = false ∧
      (c = d → quoted = false) := by
  obtain ⟨_, hquote, _, hifs⟩ := not_special (name.start d (by rw [hname]; rfl))
  unfold printed
  split
  · refine ⟨'"', name.text.toList ++ ['"'], by simp, by decide, fun heq => ?_⟩
    exact (hquote heq.symm).elim
  · next hq => exact ⟨d, ds, hname, hifs, fun _ => by simpa using hq⟩

/-- The pattern is found behind `name: ` when the name stands there as it is in the variable. -/
theorem matchesAt_printed (hvalue : shellWords value = [name.text]) :
    matchesAt (regex value) (printed quoted name).toList = true ↔
      quoted = false ∧ value = name.text := by
  constructor
  · intro h
    obtain ⟨lead, trail, hlist, hlead, _⟩ := of_shellWords hvalue
    obtain ⟨d, ds, hname⟩ := List.exists_cons_of_ne_nil (l := name.text.toList)
      (by simpa using name.nonempty)
    obtain ⟨hdot, _⟩ := not_special (name.start d (by rw [hname]; rfl))
    obtain ⟨c, cs, hcons, hc, hquoted⟩ := exists_printed_cons hname quoted
    cases lead with
    | cons b lead =>
      -- the pattern has a blank where the name begins
      have hb : isIfs b = true := hlead b List.mem_cons_self
      have hbdot : b ≠ '.' := by
        rintro rfl
        cases hb
      rw [hcons] at h
      rw [head_of_matchesAt hlist hbdot h, hb] at hc
      cases hc
    | nil =>
      rw [List.nil_append] at hlist
      have hplain : quoted = false := by
        rw [hcons] at h
        rw [hname, List.cons_append] at hlist
        exact hquoted (head_of_matchesAt hlist hdot h)
      refine ⟨hplain, String.toList_inj.mp ?_⟩
      have hlen := length_le_of_matchesAt h
      rw [hplain, regex, List.length_map, hlist, List.length_append, printed,
        if_neg Bool.false_ne_true] at hlen
      have hnil : trail = [] := List.length_eq_zero_iff.mp (by omega)
      rw [hlist, hnil, List.append_nil]
  · rintro ⟨rfl, rfl⟩
    exact matchesAt_self name.text

/-- A match begins with an `n`. -/
theorem sedReplace_append (h : 'n' ∉ lit) : sedReplace (namePattern value) newName 0 (lit ++ cs) =
    lit ++ sedReplace (namePattern value) newName 0 cs := by
  induction lit with
  | nil => rfl
  | cons c lit ih =>
    rw [List.mem_cons, not_or] at h
    have hnot : matchesAt (namePattern value) (c :: (lit ++ cs)) = false := by
      rw [← Bool.not_eq_true, matchesAt_namePattern]
      rintro ⟨rest, heq, _⟩
      have hhead : c = 'n' := by simpa using congrArg List.head? heq
      exact h.1 hhead.symm
    rw [List.cons_append, sedReplace_of_not_matchesAt hnot, ih h.2]
    rfl

/-- What is left of the line with the name. -/
theorem sedReplace_nameLine (hvalue : shellWords value = [m.name.text]) :
    sedReplace (namePattern value) newName 0 m.nameLine.toList =
      if m.quoted = false ∧ value = m.name.text then newNameLine.toList else m.nameLine.toList := by
  have hline : m.nameLine.toList =
      [' ', ' '] ++ 'n' :: ("ame: ".toList ++ (printed m.quoted m.name).toList) := by
    rw [Manifest.nameLine, String.toList_append]
    rfl
  have hmatches : matchesAt (namePattern value)
      ('n' :: ("ame: ".toList ++ (printed m.quoted m.name).toList)) = true ↔
        m.quoted = false ∧ value = m.name.text := by
    have hliteral : 'n' :: ("ame: ".toList ++ (printed m.quoted m.name).toList) =
        "name: ".toList ++ (printed m.quoted m.name).toList := rfl
    rw [← matchesAt_printed hvalue, hliteral, matchesAt_namePattern]
    refine ⟨fun ⟨rest, heq, h⟩ => ?_, fun h => ⟨_, rfl, h⟩⟩
    rwa [List.append_cancel_left heq]
  rw [hline, sedReplace_append (by decide)]
  split
  · next h =>
    have hrest : ('n' :: ("ame: ".toList ++ (printed m.quoted m.name).toList)).drop
        (namePattern value).length = [] := by
      rw [List.drop_eq_nil_iff, namePattern, regex, List.length_map, String.toList_append, h.1, h.2]
      exact le_rfl
    rw [sedReplace_of_matchesAt (namePattern_ne_nil value) (hmatches.mpr h), hrest]
    rfl
  · next h =>
    have hnot := Bool.eq_false_iff.mpr (mt hmatches.mp h)
    rw [sedReplace_of_not_matchesAt hnot, sedReplace_append (by decide),
      sedReplace_of_no_colon (printed_no_colon m.quoted m.name)]

theorem sedLine_eq_some_iff {new : String} : sedLine value line = some new ↔
    Text.contains "namespace:" new = false ∧
      sedReplace (namePattern value) newName 0 line.toList = new.toList := by
  rw [sedLine]
  constructor
  · intro h
    split at h
    · cases h
    · next hnot =>
      cases h
      exact ⟨by simpa using hnot, String.toList_ofList.symm⟩
  · rintro ⟨hnot, hnew⟩
    rw [hnew, String.ofList_toList]
    simp [hnot]

/-- The line with the namespace is deleted. -/
theorem sedLine_nsLine (value : String) (m : Manifest) : sedLine value m.nsLine = none := by
  have hline : m.nsLine.toList =
      [' ', ' '] ++ 'n' :: ("amespace: ".toList ++ (printed m.nsQuoted m.ns).toList) := by
    rw [Manifest.nsLine, String.toList_append]
    rfl
  have hnot : matchesAt (namePattern value)
      ('n' :: ("amespace: ".toList ++ (printed m.nsQuoted m.ns).toList)) = false := by
    rw [← Bool.not_eq_true, matchesAt_namePattern]
    rintro ⟨rest, heq, _⟩
    simp at heq
  have hself : sedReplace (namePattern value) newName 0 m.nsLine.toList = m.nsLine.toList := by
    rw [hline, sedReplace_append (by decide), sedReplace_of_not_matchesAt hnot,
      sedReplace_append (by decide), sedReplace_of_no_colon (printed_no_colon m.nsQuoted m.ns)]
  have hcontains : Text.contains "namespace:" m.nsLine = true := by
    rw [Text.contains_iff, hline]
    exact ⟨[' ', ' '], ' ' :: (printed m.nsQuoted m.ns).toList, by simp⟩
  rw [sedLine, hself, String.ofList_toList, hcontains]
  rfl

theorem newNameLine_clear : Text.contains "namespace:" newNameLine = false := by decide +kernel

theorem sedLine_nameLine_iff (hvalue : shellWords value = [m.name.text]) :
    sedLine value m.nameLine = some newNameLine ↔
      m.quoted = false ∧ (value = m.name.text ∨ m.name.text = internalTlsSecretName) := by
  rw [sedLine_eq_some_iff, and_iff_right newNameLine_clear, sedReplace_nameLine hvalue]
  split
  · next h => simp [h]
  · next h =>
    rw [String.toList_inj, Manifest.nameLine, newNameLine, String.append_right_inj]
    constructor
    · intro hprinted
      have hplain : m.quoted = false := by
        by_contra hquoted
        rw [printed, if_pos (by simpa using hquoted)] at hprinted
        have hhead := congrArg (fun text : String => text.toList.head?) hprinted
        simp [internalTlsSecretName] at hhead
      rw [printed, hplain] at hprinted
      exact ⟨hplain, Or.inr hprinted⟩
    · rintro ⟨hplain, hname⟩
      have hname' := hname.resolve_left fun hv => h ⟨hplain, hv⟩
      rw [printed, hplain, hname']
      rfl

/-- The other lines stay as they are exactly when there is nothing to find in them. -/
theorem sedLine_eq_self_iff : sedLine value line = some line ↔
    Text.contains "namespace:" line = false ∧
      ∀ text ∈ matched (namePattern value) 0 line.toList, text = newName := by
  rw [sedLine_eq_some_iff, sedReplace_eq_self_iff (namePattern_ne_nil value)]

end

/-! The whole manifest. -/

theorem filterMap_eq_self_iff {f : String → Option String} {lines : List String} :
    lines.filterMap f = lines ↔ ∀ line ∈ lines, f line = some line := by
  constructor
  · intro h
    induction lines with
    | nil => exact nofun
    | cons line lines ih =>
      cases hf : f line with
      | none =>
        rw [List.filterMap_cons_none hf] at h
        have hle := List.length_filterMap_le f lines
        rw [h, List.length_cons] at hle
        omega
      | some new =>
        rw [List.filterMap_cons_some hf, List.cons_eq_cons] at h
        exact List.forall_mem_cons.mpr ⟨by rw [hf, h.1], ih h.2⟩
  · intro h
    exact (List.filterMap_congr h).trans List.filterMap_some

/-- With one line deleted, the rest is in its place when each line is. -/
theorem filterMap_eq_iff {f : String → Option String} {before after : List String}
    {line new deleted : String} (hdeleted : f deleted = none) :
    (before ++ line :: deleted :: after).filterMap f = before ++ new :: after ↔
      (∀ l ∈ before ++ after, f l = some l) ∧ f line = some new := by
  rw [List.filterMap_append, List.forall_mem_append, ← filterMap_eq_self_iff, ← filterMap_eq_self_iff]
  have hbefore := List.length_filterMap_le f before
  have hafter := List.length_filterMap_le f after
  cases hline : f line with
  | none =>
    rw [List.filterMap_cons_none hline, List.filterMap_cons_none hdeleted]
    refine iff_of_false (fun h => ?_) (by simp)
    have hlen := congrArg List.length h
    rw [List.length_append, List.length_append, List.length_cons] at hlen
    omega
  | some found =>
    rw [List.filterMap_cons_some hline, List.filterMap_cons_none hdeleted]
    constructor
    · intro h
      have hlen := congrArg List.length h
      rw [List.length_append, List.length_append, List.length_cons, List.length_cons] at hlen
      obtain ⟨hb, hrest⟩ := List.append_inj h (by omega)
      obtain ⟨rfl, ha⟩ := List.cons_eq_cons.mp hrest
      exact ⟨⟨hb, ha⟩, rfl⟩
    · rintro ⟨⟨hb, ha⟩, hfound⟩
      rw [hb, ha, Option.some_inj.mp hfound]

/-- The script copies a secret with the new name, without its namespace and with nothing else changed,
exactly when the conditions of `Copies` hold. -/
theorem install_iff (readable : String → Bool) (env : EnvVars) (m : Manifest) (document : List String)
    (hsecret : shellWords env.tlsSecretName = [m.name.text])
    (h : install readable env m.lines = some document) :
    document = m.renamed ↔ Copies env.tlsSecretName m := by
  unfold install at h
  split at h
  · cases h
    rw [sed]
    split
    · next hline =>
      refine iff_of_false (fun heq => ?_) fun hcopies => ?_
      · have hlen := congrArg List.length heq
        simp [Manifest.renamed] at hlen
      · rcases hcopies.name with hvalue | ⟨_, hnot⟩
        · rw [hvalue] at hline
          exact no_newline m.name hline
        · exact hnot hline
    · next hline =>
      rw [Manifest.lines, Manifest.renamed, filterMap_eq_iff (sedLine_nsLine _ m),
        sedLine_nameLine_iff hsecret]
      simp only [sedLine_eq_self_iff]
      constructor
      · rintro ⟨hothers, hplain, hname⟩
        exact ⟨hplain, hname.imp_right fun hname => ⟨hname, hline⟩, hothers⟩
      · rintro ⟨hplain, hname, hothers⟩
        exact ⟨hothers, hplain, hname.imp_right And.left⟩
  · cases h

/-- A secret `tls` with its name in a label. -/
def labelledManifest : Manifest where
  before := ["apiVersion: v1", "kind: Secret", "metadata:", "  labels:",
    "    app.kubernetes.io/name: tls"]
  name := ⟨"tls", by simp, by decide, by simp⟩
  quoted := false
  ns := ⟨"certs", by simp, by decide, by simp⟩
  nsQuoted := false
  after := ["type: kubernetes.io/tls"]
  isText := fun _ => rfl

def labelledEnv : EnvVars where
  kfJobsNs := "kubeflow-jobs"
  tlsSecretName := "tls"
  tlsSecretNs := "certs"
  tlsKeyLocation := ""
  tlsCertLocation := ""

theorem install_labelled : install (fun _ => false) labelledEnv labelledManifest.lines =
    some (sed "tls" labelledManifest.lines) := if_pos (by decide +kernel)

/-- The label is changed too. -/
theorem not_renamed : ¬ ∀ (readable : String → Bool) (env : EnvVars) (m : Manifest)
    (document : List String), shellWords env.tlsSecretName = [m.name.text] →
      install readable env m.lines = some document → document = m.renamed := by
  intro h
  have hrenamed := h (fun _ => false) labelledEnv labelledManifest _ (by decide +kernel)
    install_labelled
  revert hrenamed
  decide +kernel

theorem install_iff_labelled :
    sed "tls" labelledManifest.lines = labelledManifest.renamed ↔ Copies "tls" labelledManifest :=
  install_iff (fun _ => false) labelledEnv labelledManifest _ (by decide +kernel) install_labelled

end Manifests.TlsSecret
