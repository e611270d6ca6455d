import Manifests.Library.Text

/-! Paths with slashes, as script runtimes put them together and take them apart. -/
namespace Library.PosixPath

/-- `os.path.splitext(name)`, for a name without slashes. Dots in front of everything else are not
those of an extension. -/
def splitext (name : String) : String × String :=
  match Text.splitLast '.' name.toList with
  | some (before, after) =>
    if before.all (· = '.') then (name, "")
    else (String.ofList before, String.ofList ('.' :: after))
  | none => (name, "")

theorem splitext_append {name ext : String} (hext : '.' ∉ ext.toList)
    (hname : ∃ c ∈ name.toList, c ≠ '.') : splitext (name ++ "." ++ ext) = (name, "." ++ ext) := by
  have hlist : (name ++ "." ++ ext).toList = name.toList ++ '.' :: ext.toList := by simp
  have hdots : name.toList.all (· = '.') = false := by
    obtain ⟨c, hc, hne⟩ := hname
    exact List.all_eq_false.mpr ⟨c, hc, by simpa using hne⟩
  have hafter : String.ofList ('.' :: ext.toList) = "." ++ ext := by
    apply String.toList_inj.mp
    simp
  rw [splitext, hlist, Text.splitLast_append hext]
  simp only [hdots, Bool.false_eq_true, if_false, String.ofList_toList, hafter]

example : splitext "kfctl_istio_dex.v1.0.0.yaml" = ("kfctl_istio_dex.v1.0.0", ".yaml") := by decide +kernel

/-- `os.path.dirname(path)`. -/
def dirname (path : String) : String :=
  match Text.splitLast '/' path.toList with
  | none => ""
  | some (before, _) =>
    if before.all (· = '/') then String.ofList (before ++ ['/'])
    else String.ofList (before.rdropWhile (· = '/'))

/-- `os.path.basename(path)`. -/
def basename (path : String) : String :=
  match Text.splitLast '/' path.toList with
  | none => path
  | some (_, after) => String.ofList after

def isAbs (path : String) : Bool := path.toList.head? = some '/'

/-- `os.path.join(a, b)`. -/
def join2 (a b : String) : String :=
  if isAbs b then b
  else if a = "" ∨ a.toList.getLast? = some '/' then a ++ b
  else a ++ "/" ++ b

/-- `os.path.join(a, *paths)`. -/
def join (a : String) (paths : List String) : String := paths.foldl join2 a

/-- `os.path.join(*pieces)`. -/
def joinPieces : List String → String
  | [] => ""
  | a :: paths => join a paths

/-- The names in a path. -/
def components (path : String) : List String :=
  ((path.toList.splitOn '/').map String.ofList).filter fun c => c ≠ "" ∧ c ≠ "."

/-- From a directory one name further, lexically. -/
def follow (dir : List String) (c : String) : List String :=
  if c = ".." then dir.dropLast else dir ++ [c]

/-- The directory or file that a path stands for in a directory, when there are no links. -/
def resolve (dir : List String) (path : String) : List String :=
  (components path).foldl follow (if isAbs path then [] else dir)

/-- The length of `os.path.commonprefix([a, b])`. -/
def commonLength : List String → List String → Nat
  | c :: a, d :: b => if c = d then commonLength a b + 1 else 0
  | _, _ => 0

/-- `rel_list` of `os.path.relpath`. -/
def relList (startList pathList : List String) : List String :=
  let i := commonLength startList pathList
  List.replicate (startList.length - i) ".." ++ pathList.drop i

/-- `os.path.relpath(path, start)` in the directory `cwd`, for a path that is not empty. -/
def relpath (cwd : List String) (path start : String) : String :=
  let names := relList (resolve cwd start) (resolve cwd path)
  if names = [] then "." else joinPieces names

/-- Where names lead: how many directories up, and what is below. -/
def relative : List String → Nat × List String :=
  List.foldl (fun place c =>
    if c ≠ ".." then (place.1, place.2 ++ [c])
    else if place.2 = [] then (place.1 + 1, [])
    else (place.1, place.2.dropLast)) (0, [])

/-- A name that is neither empty nor one of the dots. -/
structure IsName (c : String) : Prop where
  nonempty : c ≠ ""
  notDot : c ≠ "."
  notDots : c ≠ ".."
  noSlash : '/' ∉ c.toList

instance (c : String) : Decidable (IsName c) :=
  decidable_of_iff (c ≠ "" ∧ c ≠ "." ∧ c ≠ ".." ∧ '/' ∉ c.toList)
    ⟨fun h => ⟨h.1, h.2.1, h.2.2.1, h.2.2.2⟩, fun h => ⟨h.nonempty, h.notDot, h.notDots, h.noSlash⟩⟩

/-- An absolute path, in the form that `os.path.abspath` returns. -/
structure AbsPath where
  names : List String
  isName : ∀ c ∈ names, IsName c

/-- The names, with a slash in front of each. -/
def slashed (names : List String) : List Char := names.flatMap fun c => '/' :: c.toList

def AbsPath.text (path : AbsPath) : String :=
  if path.names = [] then "/" else String.ofList (slashed path.names)

/-- From a directory further down. -/
def AbsPath.append (path : AbsPath) (names : List String) (h : ∀ c ∈ names, IsName c) : AbsPath where
  names := path.names ++ names
  isName c hc := (List.mem_append.mp hc).elim (path.isName c) (h c)

section
variable {a b path c : String} {cs dir names others : List String}

theorem components_append_slash (a b : String) :
    components (a ++ "/" ++ b) = components a ++ components b := by
  have hlist : (a ++ "/" ++ b).toList = a.toList ++ '/' :: b.toList := by simp
  rw [components, hlist, List.splitOn_append_cons_self, List.map_append, List.filter_append]
  rfl

theorem components_empty : components "" = [] := rfl

theorem components_join2 (hb : isAbs b = false) :
    components (join2 a b) = components a ++ components b := by
  rw [join2, hb, if_neg Bool.false_ne_true]
  split
  · next h =>
    rcases h with rfl | hlast
    · rw [String.empty_append, components_empty, List.nil_append]
    · obtain ⟨front, hfront⟩ := List.getLast?_eq_some_iff.mp hlast
      have ha : a = String.ofList front ++ "/" ++ "" := by
        apply String.toList_inj.mp
        simpa using hfront
      rw [ha, String.append_empty, components_append_slash, ← String.append_empty (s := _ ++ "/"),
        components_append_slash, components_empty, List.append_nil]
  · exact components_append_slash a b

theorem components_join {paths : List String} (h : ∀ path ∈ paths, isAbs path = false) :
    components (join a paths) = components a ++ paths.flatMap components := by
  induction paths generalizing a with
  | nil => rw [join, List.foldl_nil, List.flatMap_nil, List.append_nil]
  | cons path paths ih =>
    obtain ⟨hpath, hrest⟩ := List.forall_mem_cons.mp h
    rw [join, List.foldl_cons, ← join, ih hrest, components_join2 hpath, List.flatMap_cons,
      List.append_assoc]

theorem isAbs_append (ha : a ≠ "") : isAbs (a ++ b) = isAbs a := by
  have hne : a.toList ≠ [] := by simpa using ha
  obtain ⟨c, cs, hcons⟩ := List.exists_cons_of_ne_nil hne
  rw [isAbs, isAbs, String.toList_append, hcons, List.cons_append, List.head?_cons, List.head?_cons]

theorem isAbs_join2 (a b : String) : isAbs (join2 a b) = (isAbs a || isAbs b) := by
  rw [join2]
  split
  · next hb => rw [hb, Bool.or_true]
  · next hb =>
    rw [Bool.not_eq_true] at hb
    rw [hb, Bool.or_false]
    by_cases hempty : a = ""
    · rw [if_pos (Or.inl hempty), hempty, String.empty_append, hb]
      rfl
    · split
      · exact isAbs_append hempty
      · rw [String.append_assoc, isAbs_append hempty]

theorem isAbs_join (a : String) (paths : List String) :
    isAbs (join a paths) = (isAbs a || paths.any isAbs) := by
  induction paths generalizing a with
  | nil => rw [join, List.foldl_nil, List.any_nil, Bool.or_false]
  | cons path paths ih =>
    rw [join, List.foldl_cons, ← join, ih, isAbs_join2, List.any_cons, Bool.or_assoc]

theorem resolve_eq (h : isAbs path = false) : resolve dir path = (components path).foldl follow dir := by
  rw [resolve, h, if_neg Bool.false_ne_true]

/-- Each part of a path leads on from where those before it lead. -/
theorem resolve_join {paths : List String} (h : ∀ path ∈ paths, isAbs path = false) :
    resolve dir (join a paths) = (paths.flatMap components).foldl follow (resolve dir a) := by
  have hany : paths.any isAbs = false := List.any_eq_false.mpr fun p hp => by simp [h p hp]
  rw [resolve, resolve, components_join h, isAbs_join, hany, Bool.or_false, List.foldl_append]

section
variable {pieces : List String} (h : ∀ piece ∈ pieces, isAbs piece = false)
include h

theorem isAbs_joinPieces : isAbs (joinPieces pieces) = false := by
  cases pieces with
  | nil => rfl
  | cons a paths =>
    have hany : (a :: paths).any isAbs = false := List.any_eq_false.mpr fun p hp => by simp [h p hp]
    rwa [joinPieces, isAbs_join]

theorem components_joinPieces : components (joinPieces pieces) = pieces.flatMap components := by
  cases pieces with
  | nil => rfl
  | cons a paths => exact components_join fun p hp => h p (List.mem_cons_of_mem a hp)

theorem resolve_joinPieces :
    resolve dir (joinPieces pieces) = (pieces.flatMap components).foldl follow dir := by
  rw [resolve_eq (isAbs_joinPieces h), components_joinPieces h]

end

theorem foldl_follow_names (h : ∀ c ∈ cs, c ≠ "..") : cs.foldl follow dir = dir ++ cs := by
  induction cs generalizing dir with
  | nil => rw [List.foldl_nil, List.append_nil]
  | cons c cs ih =>
    obtain ⟨hc, hrest⟩ := List.forall_mem_cons.mp h
    rw [List.foldl_cons, ih hrest, follow, if_neg hc, List.append_assoc, List.singleton_append]

/-- Each pair of dots leads one directory up. -/
theorem foldl_follow_dots (n : Nat) :
    (List.replicate n "..").foldl follow dir = dir.take (dir.length - n) := by
  induction n generalizing dir with
  | zero => simp
  | succ n ih =>
    rw [List.replicate_succ, List.foldl_cons, ih, follow, if_pos rfl, List.dropLast_eq_take,
      List.take_take, List.length_take]
    congr 1
    omega

theorem relative_append_singleton (cs : List String) (c : String) : relative (cs ++ [c]) =
    if c ≠ ".." then ((relative cs).1, (relative cs).2 ++ [c])
    else if (relative cs).2 = [] then ((relative cs).1 + 1, [])
    else ((relative cs).1, (relative cs).2.dropLast) := by
  rw [relative, List.foldl_append]
  rfl

/-- Names lead up a number of directories, and then down. -/
theorem foldl_follow (dir cs : List String) :
    cs.foldl follow dir = dir.take (dir.length - (relative cs).1) ++ (relative cs).2 := by
  induction cs using List.reverseRecOn with
  | nil => simp [relative]
  | append_singleton cs c ih =>
    rw [List.foldl_append, List.foldl_cons, List.foldl_nil, ih, relative_append_singleton, follow]
    by_cases hc : c = ".."
    · rw [if_pos hc, if_neg (not_not.mpr hc)]
      by_cases hnil : (relative cs).2 = []
      · rw [if_pos hnil, hnil, List.append_nil, List.append_nil, List.dropLast_eq_take,
          List.take_take, List.length_take]
        congr 1
        omega
      · rw [if_neg hnil, List.dropLast_append_of_ne_nil hnil]
    · rw [if_neg hc, if_pos hc, List.append_assoc]

/-- From two directories that have no more than their own names apart, names lead to the same place when
they lead out of both. -/
theorem foldl_follow_eq_iff (h : dir.dropLast = others.dropLast) :
    cs.foldl follow dir = cs.foldl follow others ↔ dir = others ∨ 1 ≤ (relative cs).1 := by
  rw [foldl_follow, foldl_follow, List.append_cancel_right_eq]
  have hdrop : ∀ (l : List String) {n : Nat}, 1 ≤ n →
      l.take (l.length - n) = l.dropLast.take (l.dropLast.length + 1 - n) := by
    intro l n hn
    rw [List.dropLast_eq_take, List.take_take, List.length_take]
    congr 1
    omega
  constructor
  · intro heq
    by_cases hup : 1 ≤ (relative cs).1
    · exact Or.inr hup
    · left
      have hzero : (relative cs).1 = 0 := by omega
      rwa [hzero, Nat.sub_zero, Nat.sub_zero, List.take_length, List.take_length] at heq
  · rintro (rfl | hup)
    · rfl
    · rw [hdrop dir hup, hdrop others hup, h]

end

section
variable {names others : List String} {root path : AbsPath}

theorem count_slashed (h : ∀ c ∈ names, '/' ∉ c.toList) : (slashed names).count '/' = names.length := by
  induction names with
  | nil => rfl
  | cons c names ih =>
    obtain ⟨hc, hrest⟩ := List.forall_mem_cons.mp h
    rw [slashed, List.flatMap_cons, ← slashed, List.cons_append, List.count_cons_self,
      List.count_append, List.count_eq_zero_of_not_mem hc, ih hrest, List.length_cons, Nat.zero_add]

theorem count_text (path : AbsPath) : path.text.toList.count '/' = max 1 path.names.length := by
  rw [AbsPath.text]
  split
  · next h => simp [h]
  · next h =>
    have hpos : 0 < path.names.length := List.length_pos_iff.mpr h
    rw [String.toList_ofList, count_slashed fun c hc => (path.isName c hc).noSlash]
    omega

theorem length_splitOn (c : Char) (cs : List Char) : (cs.splitOn c).length = cs.count c + 1 := by
  induction cs with
  | nil => rfl
  | cons d cs ih =>
    rw [List.splitOn_cons_eq_if_modifyHead]
    split
    · next h => rw [List.length_cons, ih, beq_iff_eq.mp h, List.count_cons_self]
    · next h => rw [List.length_modifyHead, ih, List.count_cons_of_ne (by simpa using h)]

theorem slashed_cons (c : String) (names : List String) :
    slashed (c :: names) = '/' :: (c.toList ++ slashed names) := rfl

/-- A path whose text begins with that of another has all its names but the last, which may go on. -/
theorem dropLast_of_slashed_prefix (h : ∀ c ∈ names, '/' ∉ c.toList)
    (h' : ∀ c ∈ others, '/' ∉ c.toList) (hbegins : slashed names <+: slashed others) :
    (others.take names.length).dropLast = names.dropLast := by
  induction names generalizing others with
  | nil => rfl
  | cons n names ih =>
    cases others with
    | nil => simp [slashed] at hbegins
    | cons o others =>
      rw [slashed_cons, slashed_cons, List.prefix_cons_inj] at hbegins
      cases names with
      | nil => simp
      | cons m names =>
        obtain ⟨hn, hnames⟩ := List.forall_mem_cons.mp h
        obtain ⟨ho, hothers⟩ := List.forall_mem_cons.mp h'
        obtain ⟨rest, hrest⟩ := hbegins
        cases others with
        | nil =>
          have hslash : '/' ∈ o.toList ++ slashed [] := by
            rw [← hrest, slashed_cons]
            simp
          exact (ho (by simpa [slashed] using hslash)).elim
        | cons p others =>
          -- both begin with a name and a slash
          rw [slashed_cons m, slashed_cons p, List.append_assoc, List.cons_append] at hrest
          have hname := congrArg (List.takeWhile (· ≠ '/')) hrest
          rw [Text.takeWhile_append_cons hn, Text.takeWhile_append_cons ho] at hname
          rw [hname, List.append_cancel_left_eq] at hrest
          have hstep := ih hnames hothers ⟨rest, hrest⟩
          have hne : (p :: others).take (m :: names).length ≠ [] := by simp
          rw [List.length_cons, List.take_succ_cons, List.dropLast_cons_of_ne_nil hne, hstep,
            ← String.toList_inj.mp hname]
          rfl

theorem slashed_begins (hroot : root.names ≠ []) (h : root.text.toList <+: path.text.toList) :
    slashed root.names <+: slashed path.names := by
  rw [AbsPath.text, if_neg hroot, String.toList_ofList, AbsPath.text] at h
  split at h
  · -- the root is not a prefix of a single slash
    obtain ⟨c, names, hnames⟩ := List.exists_cons_of_ne_nil hroot
    have hname : c.toList ≠ [] := by
      simpa using (root.isName c (by simp [hnames])).nonempty
    have hlen := h.length_le
    have hone : "/".toList.length = 1 := rfl
    have hpos := List.length_pos_iff.mpr hname
    rw [hnames, slashed_cons, List.length_cons, List.length_append, hone] at hlen
    omega
  · rwa [String.toList_ofList] at h

/-- The names of a path are those of the directory it begins with, but for the last. -/
theorem dropLast_take_names (h : root.text.toList <+: path.text.toList) :
    (path.names.take (max 1 root.names.length)).dropLast = root.names.dropLast := by
  by_cases hroot : root.names = []
  · rw [hroot]
    cases path.names <;> rfl
  · have hpos : 0 < root.names.length := List.length_pos_iff.mpr hroot
    rw [max_eq_right hpos]
    exact dropLast_of_slashed_prefix (fun c hc => (root.isName c hc).noSlash)
      (fun c hc => (path.isName c hc).noSlash) (slashed_begins hroot h)

end

section
variable {a b c : String} {cs : List Char} {cwd names : List String} {path : AbsPath}

theorem isAbs_of_noSlash (h : '/' ∉ c.toList) : isAbs c = false := by
  rw [isAbs, decide_eq_false_iff_not]
  exact fun hhead => h (List.mem_of_mem_head? hhead)

theorem components_of_noSlash (h : '/' ∉ c.toList) (hempty : c ≠ "") (hdot : c ≠ ".") :
    components c = [c] := by
  rw [components, List.splitOn_eq_singleton h]
  simp [hempty, hdot]

theorem flatMap_components (h : ∀ c ∈ names, components c = [c]) : names.flatMap components = names := by
  induction names with
  | nil => rfl
  | cons c names ih =>
    obtain ⟨hc, hrest⟩ := List.forall_mem_cons.mp h
    rw [List.flatMap_cons, hc, ih hrest, List.singleton_append]

theorem flatMap_components_dots (n : Nat) :
    (List.replicate n "..").flatMap components = List.replicate n ".." := by
  apply flatMap_components
  intro c hc
  rw [List.eq_of_mem_replicate hc]
  rfl

/-- Dots in front lead up, and the other pieces go on from there. -/
theorem resolve_dots {dir pieces : List String} (h : ∀ piece ∈ pieces, isAbs piece = false) (n : Nat) :
    resolve dir (joinPieces (List.replicate n ".." ++ pieces)) =
      resolve (dir.take (dir.length - n)) (joinPieces pieces) := by
  have hall : ∀ piece ∈ List.replicate n ".." ++ pieces, isAbs piece = false := by
    intro piece hpiece
    rcases List.mem_append.mp hpiece with hdots | hpiece
    · rw [List.eq_of_mem_replicate hdots]
      rfl
    · exact h piece hpiece
  rw [resolve_joinPieces hall, resolve_joinPieces h, List.flatMap_append, flatMap_components_dots,
    List.foldl_append, foldl_follow_dots]

theorem IsName.isAbs (h : IsName c) : isAbs c = false := isAbs_of_noSlash h.noSlash

theorem IsName.components (h : IsName c) : components c = [c] :=
  components_of_noSlash h.noSlash h.nonempty h.notDot

theorem slashed_append (names others : List String) :
    slashed (names ++ others) = slashed names ++ slashed others := List.flatMap_append

/-- Splitting at the slashes brings the names back. -/
theorem splitOn_append_slashed (hcs : '/' ∉ cs) (h : ∀ c ∈ names, '/' ∉ c.toList) :
    (cs ++ slashed names).splitOn '/' = cs :: names.map String.toList := by
  induction names generalizing cs with
  | nil =>
    rw [slashed, List.flatMap_nil, List.append_nil, List.splitOn_eq_singleton hcs]
    rfl
  | cons c names ih =>
    obtain ⟨hc, hrest⟩ := List.forall_mem_cons.mp h
    rw [slashed_cons, List.splitOn_append_cons_self, List.splitOn_eq_singleton hcs, ih hc hrest,
      List.map_cons, List.singleton_append]

theorem join2_eq (ha : a ≠ "") (hlast : a.toList.getLast? ≠ some '/') (hb : isAbs b = false) :
    join2 a b = a ++ "/" ++ b := by
  rw [join2, hb, if_neg Bool.false_ne_true, if_neg (not_or.mpr ⟨ha, hlast⟩)]

theorem IsName.getLast? (h : IsName c) (cs : List Char) : (cs ++ c.toList).getLast? ≠ some '/' := by
  have hne : c.toList ≠ [] := by simpa using h.nonempty
  rw [List.getLast?_append_of_ne_nil cs hne]
  exact fun hlast => h.noSlash (List.mem_of_getLast? hlast)

/-- The names are joined with slashes between them. -/
theorem toList_join (ha : a ≠ "") (hlast : a.toList.getLast? ≠ some '/') (h : ∀ c ∈ names, IsName c) :
    (join a names).toList = a.toList ++ slashed names := by
  induction names generalizing a with
  | nil =>
    rw [join, List.foldl_nil, slashed, List.flatMap_nil, List.append_nil]
  | cons c names ih =>
    obtain ⟨hc, hrest⟩ := List.forall_mem_cons.mp h
    have hne : a ++ "/" ++ c ≠ "" := by simp [hc.nonempty]
    have hlist : (a ++ "/" ++ c).toList = a.toList ++ ['/'] ++ c.toList := by simp
    rw [join, List.foldl_cons, join2_eq ha hlast hc.isAbs, ← join,
      ih hne (by rw [hlist]; exact hc.getLast? _) hrest, hlist, slashed_cons]
    simp

theorem slashed_eq (hne : names ≠ []) (h : ∀ c ∈ names, IsName c) :
    slashed names = '/' :: (joinPieces names).toList := by
  cases names with
  | nil => exact (hne rfl).elim
  | cons a names =>
    obtain ⟨ha, hrest⟩ := List.forall_mem_cons.mp h
    rw [joinPieces, toList_join ha.nonempty (ha.getLast? []) hrest, slashed_cons]

/-- A path of names has as many pieces as names. -/
theorem length_splitOn_joinPieces (hne : names ≠ []) (h : ∀ c ∈ names, IsName c) :
    ((joinPieces names).toList.splitOn '/').length = names.length := by
  have hcount := count_slashed fun c hc => (h c hc).noSlash
  rw [slashed_eq hne h, List.count_cons_self] at hcount
  rw [length_splitOn, hcount]

theorem components_text (path : AbsPath) : components path.text = path.names := by
  rw [AbsPath.text]
  split
  · next h =>
    rw [h]
    rfl
  · have hsplit : ([] ++ slashed path.names).splitOn '/' = [] :: path.names.map String.toList :=
      splitOn_append_slashed (by simp) fun c hc => (path.isName c hc).noSlash
    have hnames : path.names.filter (fun c => c ≠ "" ∧ c ≠ ".") = path.names := by
      apply List.filter_eq_self.mpr
      intro c hc
      have hname := path.isName c hc
      simp [hname.nonempty, hname.notDot]
    rw [List.nil_append] at hsplit
    rw [components, String.toList_ofList, hsplit]
    simpa using hnames

theorem isAbs_text (path : AbsPath) : isAbs path.text = true := by
  rw [AbsPath.text]
  split
  · rfl
  · next h =>
    obtain ⟨c, names, hnames⟩ := List.exists_cons_of_ne_nil h
    rw [hnames, isAbs, String.toList_ofList, slashed_cons]
    rfl

theorem resolve_text (cwd : List String) (path : AbsPath) : resolve cwd path.text = path.names := by
  rw [resolve, isAbs_text, if_pos rfl, components_text, foldl_follow_names, List.nil_append]
  exact fun c hc => (path.isName c hc).notDots

theorem toList_text (h : path.names ≠ []) : path.text.toList = slashed path.names := by
  rw [AbsPath.text, if_neg h, String.toList_ofList]

theorem getLast?_text (h : path.names ≠ []) : path.text.toList.getLast? ≠ some '/' := by
  obtain ⟨front, c, hnames⟩ := (List.eq_nil_or_concat' path.names).resolve_left h
  have hc : IsName c := path.isName c (by simp [hnames])
  have hslashed : slashed path.names = slashed front ++ ['/'] ++ c.toList := by
    rw [hnames, slashed_append]
    simp [slashed]
  rw [toList_text h, hslashed]
  exact hc.getLast? _

/-- A path of names, joined to a path, goes on below it. -/
theorem join2_text (hne : names ≠ []) (h : ∀ c ∈ names, IsName c) :
    join2 path.text (joinPieces names) = (path.append names h).text := by
  have habs : isAbs (joinPieces names) = false := isAbs_joinPieces fun c hc => (h c hc).isAbs
  apply String.toList_inj.mp
  rw [toList_text (by simp [AbsPath.append, hne]), AbsPath.append, slashed_append, slashed_eq hne h]
  by_cases hroot : path.names = []
  · have hslash : "/".toList.getLast? = some '/' := by rfl
    rw [AbsPath.text, if_pos hroot, join2, habs, if_neg Bool.false_ne_true,
      if_pos (Or.inr hslash), hroot]
    simp [slashed]
  · have hempty : path.text ≠ "" := by
      intro hempty
      have hslash := isAbs_text path
      rw [hempty] at hslash
      revert hslash
      simp [isAbs]
    rw [join2_eq hempty (getLast?_text hroot) habs, String.toList_append, String.toList_append,
      toList_text hroot]
    simp

theorem append_append (h : ∀ c ∈ names, IsName c) {others : List String}
    (h' : ∀ c ∈ others, IsName c) (hall : ∀ c ∈ names ++ others, IsName c) :
    (path.append names h).append others h' = path.append (names ++ others) hall := by
  simp [AbsPath.append]

/-- Below a path, `os.path.join` only appends the names. -/
theorem join_text (h : ∀ c ∈ names, IsName c) : join path.text names = (path.append names h).text := by
  induction names generalizing path with
  | nil => simp [join, AbsPath.append]
  | cons c names ih =>
    obtain ⟨hc, hrest⟩ := List.forall_mem_cons.mp h
    have hstep : join2 path.text c = (path.append [c] (by simpa using hc)).text :=
      join2_text (List.cons_ne_nil c []) _
    rw [join, List.foldl_cons, hstep, ← join, ih hrest]
    simp [AbsPath.append]

end

section
variable {start path names : List String} {root : AbsPath}

theorem take_commonLength (start path : List String) :
    start.take (commonLength start path) = path.take (commonLength start path) := by
  induction start generalizing path with
  | nil => simp [commonLength]
  | cons c start ih =>
    cases path with
    | nil => simp [commonLength]
    | cons d path =>
      rw [commonLength]
      split
      · next h => rw [h, List.take_succ_cons, List.take_succ_cons, ih]
      · rfl

theorem commonLength_append (start names : List String) :
    commonLength start (start ++ names) = start.length := by
  induction start with
  | nil => rfl
  | cons c start ih => rw [List.cons_append, commonLength, if_pos rfl, ih, List.length_cons]

theorem relList_append (start names : List String) : relList start (start ++ names) = names := by
  simp [relList, commonLength_append]

/-- The list leads from the start to the path: up to what they have in common, and down from there. -/
theorem foldl_follow_relList (h : ∀ c ∈ path, c ≠ "..") :
    (relList start path).foldl follow start = path := by
  have hup : start.length - (start.length - commonLength start path) =
      min (commonLength start path) start.length := by omega
  rw [relList, List.foldl_append, foldl_follow_dots, hup, ← List.take_eq_take_min,
    take_commonLength, foldl_follow_names fun c hc => h c (List.mem_of_mem_drop hc),
    List.take_append_drop]

/-- From the start, the relative path stands for the path. -/
theorem resolve_relpath (cwd : List String) (path start : AbsPath) :
    resolve start.names (relpath cwd path.text start.text) = path.names := by
  have hlist : (relList start.names path.names).foldl follow start.names = path.names :=
    foldl_follow_relList fun c hc => (path.isName c hc).notDots
  rw [relpath, resolve_text, resolve_text]
  split
  · next hnil =>
    rw [hnil] at hlist
    exact hlist
  · have hpieces : ∀ c ∈ relList start.names path.names, isAbs c = false ∧ components c = [c] := by
      intro c hc
      rcases List.mem_append.mp hc with hc | hc
      · rw [List.eq_of_mem_replicate hc]
        exact ⟨rfl, rfl⟩
      · have hname := path.isName c (List.mem_of_mem_drop hc)
        exact ⟨hname.isAbs, hname.components⟩
    rw [resolve_joinPieces fun c hc => (hpieces c hc).1,
      flatMap_components fun c hc => (hpieces c hc).2, hlist]

/-- The relative path of what lies below is made of the names that lead there. -/
theorem relpath_append (cwd : List String) (hne : names ≠ []) (h : ∀ c ∈ names, IsName c) :
    relpath cwd (root.append names h).text root.text = joinPieces names := by
  rw [relpath, resolve_text, resolve_text, AbsPath.append, relList_append]
  exact if_neg hne

end

end Library.PosixPath
