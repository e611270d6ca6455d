import Manifests.Library.Script

/-! A disk of files and directories, without links, and the calls that change it. -/
namespace Library

inductive Node (τ : Type) where
  | file (contents : τ)
  | dir
  deriving Repr, DecidableEq

namespace Node
variable {τ : Type}

def isFile : Node τ → Bool
  | file _ => true
  | dir => false

def isDir : Node τ → Bool
  | file _ => false
  | dir => true

theorem any_isFile {node : Option (Node τ)} :
    node.any isFile = true ↔ ∃ contents, node = some (.file contents) := by
  rcases node with _ | _ | _ <;> simp [isFile]

theorem any_isDir {node : Option (Node τ)} : node.any isDir = true ↔ node = some .dir := by
  rcases node with _ | _ | _ <;> simp [isDir]

end Node

/-- What lies at each place. Everything lies in a directory. -/
@[ext]
structure Disk (ν τ : Type) where
  node : List ν → Option (Node τ)
  parent : ∀ p name, (node (p ++ [name])).isSome → node p = some .dir

inductive DiskError where
  | fileNotFound
  | fileExists
  | notADirectory
  | isADirectory
  deriving Repr, DecidableEq

namespace Disk

section
variable {ν τ ε : Type} [DecidableEq ν]

def isDir (disk : Disk ν τ) (p : List ν) : Bool := (disk.node p).any Node.isDir

/-- A file lies at `p` or on the way to it. -/
def blocked (disk : Disk ν τ) (p : List ν) : Bool := p.inits.any fun q => (disk.node q).any Node.isFile

def without (disk : Disk ν τ) (p : List ν) : Disk ν τ where
  node q := if p <+: q then none else disk.node q
  parent q name := by
    by_cases h : p <+: q
    · simp [h.trans (List.prefix_append q [name])]
    · split
      · simp
      · simpa [h] using disk.parent q name

def withDirs (disk : Disk ν τ) (p : List ν) : Disk ν τ where
  node q := if q <+: p then some .dir else disk.node q
  parent q name := by
    by_cases h : q ++ [name] <+: p
    · simp [(List.prefix_append q [name]).trans h]
    · intro hsome
      rw [if_neg h] at hsome
      rw [disk.parent q name hsome, ite_self]

/-- Where a file can lie at `p`, it does. -/
def withFile (disk : Disk ν τ) (p : List ν) (contents : τ) : Disk ν τ where
  node q := if q = p ∧ disk.isDir p.dropLast ∧ ¬ disk.isDir p then some (.file contents) else disk.node q
  parent q name := by
    by_cases h : q ++ [name] = p ∧ disk.isDir p.dropLast ∧ ¬ disk.isDir p
    · obtain ⟨rfl, hparent, hself⟩ := h
      rw [List.dropLast_concat, isDir, Node.any_isDir] at hparent
      simp [hparent]
    · intro hsome
      rw [if_neg h] at hsome
      have hq := disk.parent q name hsome
      rw [hq]
      split
      · next hqp =>
        obtain ⟨rfl, _, hself⟩ := hqp
        exact absurd (Node.any_isDir.mpr hq) hself
      · rfl

/-- `os.path.exists(p)`. -/
def pathExists (disk : Disk ν τ) (p : List ν) : Bool := (disk.node p).isSome

/-- `shutil.rmtree(p)`. -/
def rmtree (raised : DiskError → ε) (p : List ν) : Script ε (Disk ν τ) Unit := fun disk =>
  match disk.node p with
  | none => (.error (raised .fileNotFound), disk)
  | some (.file _) => (.error (raised .notADirectory), disk)
  | some .dir => (.ok (), disk.without p)

/-- `os.makedirs(p)`. -/
def makedirs (raised : DiskError → ε) (p : List ν) : Script ε (Disk ν τ) Unit := fun disk =>
  if disk.pathExists p then (.error (raised .fileExists), disk)
  else if disk.blocked p then (.error (raised .notADirectory), disk)
  else (.ok (), disk.withDirs p)

/-- A file that is opened to be written, and written. -/
def write (raised : DiskError → ε) (p : List ν) (contents : τ) : Script ε (Disk ν τ) Unit :=
  fun disk =>
    match disk.node p.dropLast, disk.node p with
    | none, _ => (.error (raised .fileNotFound), disk)
    | some (.file _), _ => (.error (raised .notADirectory), disk)
    | some .dir, some .dir => (.error (raised .isADirectory), disk)
    | some .dir, _ => (.ok (), disk.withFile p contents)

/-- Files that a program writes to a directory, in order. -/
def withFiles (disk : Disk ν τ) (dir : List ν) (files : List (ν × τ)) : Disk ν τ :=
  files.foldl (fun disk file => disk.withFile (dir ++ [file.1]) file.2) disk

end

/-- What a directory holds, from there on, when it holds these files and nothing else. Of those with
one name it is the last. -/
def holding {ν τ : Type} [DecidableEq ν] (files : List (ν × τ)) : List ν → Option (Node τ)
  | [] => some .dir
  | [name] => (files.reverse.lookup name).map .file
  | _ => none

section
variable {ν τ : Type} {disk : Disk ν τ} {p : List ν}

theorem isDir_iff : disk.isDir p = true ↔ disk.node p = some .dir := Node.any_isDir

theorem blocked_iff : disk.blocked p = true ↔
    ∃ q, q <+: p ∧ ∃ contents, disk.node q = some (.file contents) := by
  rw [blocked, List.any_eq_true]
  simp only [List.mem_inits, Node.any_isFile]

theorem not_blocked_iff : ¬ disk.blocked p = true ↔
    ∀ q, q <+: p → ∀ contents, disk.node q ≠ some (.file contents) := by
  rw [blocked_iff]
  push Not
  rfl

/-- What is on the disk lies in directories all the way. -/
theorem above_isDir (name : ν) (q : List ν) (h : (disk.node (p ++ name :: q)).isSome) :
    disk.node p = some .dir := by
  induction q generalizing p name with
  | nil => exact disk.parent p name h
  | cons next q ih =>
    rw [← List.singleton_append, ← List.append_assoc] at h
    exact disk.parent p name (by rw [ih next h]; rfl)

end

section
variable {ν τ : Type} [DecidableEq ν] {disk : Disk ν τ} {p q dir : List ν} {name : ν} {contents : τ}
  {files : List (ν × τ)}

@[simp] theorem without_below (h : p <+: q) : (disk.without p).node q = none := if_pos h

/-- There are no directories in it. -/
theorem holding_long (h : 2 ≤ q.length) : holding files q = none :=
  match q, h with
  | _ :: _ :: _, _ => rfl

/-- When no two files have one name, it holds them all. -/
theorem holding_file_iff (h : (files.map Prod.fst).Nodup) :
    holding files [name] = some (.file contents) ↔ (name, contents) ∈ files := by
  have hreverse : (files.reverse.map Prod.fst).Nodup := by
    rw [List.map_reverse]
    exact List.nodup_reverse.mpr h
  rw [holding, ← List.mem_reverse]
  generalize files.reverse = files at hreverse
  induction files with
  | nil => simp
  | cons file files ih =>
    obtain ⟨other, text⟩ := file
    obtain ⟨hother, hrest⟩ := List.nodup_cons.mp hreverse
    by_cases hname : name = other
    · subst hname
      have hnot : (name, contents) ∉ files := fun hmem => hother (List.mem_map.mpr ⟨_, hmem, rfl⟩)
      simp [hnot, eq_comm]
    · have hb : (name == other) = false := by simpa using hname
      simpa [List.lookup_cons, hb, hname] using ih hrest

theorem without_other (h : ¬ p <+: q) : (disk.without p).node q = disk.node q := if_neg h

/-- A file that is in the way is one at `p`, or one that stays when `p` is removed. -/
theorem not_blocked_iff_without : ¬ disk.blocked p = true ↔
    (∀ contents, disk.node p ≠ some (.file contents)) ∧ ¬ (disk.without p).blocked p = true := by
  rw [not_blocked_iff, not_blocked_iff]
  constructor
  · intro h
    refine ⟨h p List.prefix_rfl, fun q hq contents => ?_⟩
    by_cases heq : q = p
    · rw [heq, without_below List.prefix_rfl]
      simp
    · have hnot : ¬ p <+: q := fun hpq => heq (hq.eq_of_length_le hpq.length_le)
      rw [without_other hnot]
      exact h q hq contents
  · rintro ⟨hself, h⟩ q hq contents
    by_cases heq : q = p
    · rw [heq]
      exact hself contents
    · have hnot : ¬ p <+: q := fun hpq => heq (hq.eq_of_length_le hpq.length_le)
      rw [← without_other hnot]
      exact h q hq contents

/-- What is not there need not be removed. -/
theorem without_of_none (h : disk.node p = none) : disk.without p = disk := by
  ext1
  funext q
  by_cases hq : p <+: q
  · obtain ⟨rest, rfl⟩ := hq
    rw [without_below (List.prefix_append p rest)]
    cases rest with
    | nil => rw [List.append_nil, h]
    | cons name rest =>
      refine (Option.eq_none_iff_forall_ne_some.mpr fun node heq => ?_).symm
      have hdir := above_isDir name rest (by rw [heq]; rfl)
      rw [h] at hdir
      cases hdir
  · exact without_other hq

theorem withDirs_above (h : q <+: p) : (disk.withDirs p).node q = some .dir := if_pos h

theorem withDirs_other (h : ¬ q <+: p) : (disk.withDirs p).node q = disk.node q := if_neg h

theorem withFile_self (hparent : disk.node p.dropLast = some .dir) (hself : disk.node p ≠ some .dir) :
    (disk.withFile p contents).node p = some (.file contents) :=
  if_pos ⟨rfl, isDir_iff.mpr hparent, mt isDir_iff.mp hself⟩

theorem withFile_other (h : q ≠ p) : (disk.withFile p contents).node q = disk.node q :=
  if_neg fun hall => h hall.1

theorem write_ok {ε : Type} {raised : DiskError → ε} (hparent : disk.node p.dropLast = some .dir)
    (hself : disk.node p ≠ some .dir) :
    write raised p contents disk = (.ok (), disk.withFile p contents) := by
  rw [write, hparent]
  rcases hp : disk.node p with _ | _ | _
  · rfl
  · rfl
  · exact (hself hp).elim

theorem write_dir {ε : Type} {raised : DiskError → ε} (hparent : disk.node p.dropLast = some .dir)
    (hself : disk.node p = some .dir) :
    write raised p contents disk = (.error (raised .isADirectory), disk) := by
  rw [write, hparent, hself]

theorem withFiles_cons {file : ν × τ} : disk.withFiles dir (file :: files) =
    (disk.withFile (dir ++ [file.1]) file.2).withFiles dir files := rfl

/-- Nothing but what lies in the directory changes. -/
theorem withFiles_other (h : ∀ name, q ≠ dir ++ [name]) :
    (disk.withFiles dir files).node q = disk.node q := by
  induction files generalizing disk with
  | nil => rfl
  | cons file files ih => rw [withFiles_cons, ih, withFile_other (h file.1)]

/-- The last of the files with a name is there in the end. -/
theorem withFiles_inside (hdir : disk.node dir = some .dir)
    (hno : ∀ name, disk.node (dir ++ [name]) ≠ some .dir) :
    (disk.withFiles dir files).node (dir ++ [name]) =
      ((files.reverse.lookup name).map .file).or (disk.node (dir ++ [name])) := by
  induction files generalizing disk with
  | nil => rfl
  | cons file files ih =>
    obtain ⟨other, text⟩ := file
    have hself : (disk.withFile (dir ++ [other]) text).node (dir ++ [other]) = some (.file text) :=
      withFile_self (by rw [List.dropLast_concat, hdir]) (hno other)
    have hothers (name : ν) (hne : name ≠ other) :
        (disk.withFile (dir ++ [other]) text).node (dir ++ [name]) = disk.node (dir ++ [name]) :=
      withFile_other (by simpa using hne)
    rw [withFiles_cons, ih ?_ ?_, List.reverse_cons, List.lookup_append]
    · cases hlookup : files.reverse.lookup name with
      | some contents => rfl
      | none =>
        by_cases hname : name = other
        · subst hname
          simp [hself]
        · have hne : (name == other) = false := by simpa using hname
          simp [List.lookup_cons, hne, hothers name hname]
    · rw [withFile_other (by simp), hdir]
    · intro name
      by_cases hname : name = other
      · rw [hname, hself]
        simp
      · rw [hothers name hname]
        exact hno name

/-- A directory that is made anew holds the files, and nothing else. -/
theorem withFiles_anew : (((disk.without dir).withDirs dir).withFiles dir files).node (dir ++ q) =
    holding files q := by
  have hdir : ((disk.without dir).withDirs dir).node dir = some .dir := withDirs_above List.prefix_rfl
  have hanew (name : ν) (q : List ν) :
      ((disk.without dir).withDirs dir).node (dir ++ name :: q) = none := by
    have hnot : ¬ dir ++ name :: q <+: dir := fun h => by simpa using h.length_le
    rw [withDirs_other hnot, without_below (List.prefix_append dir _)]
  match q with
  | [] =>
    have hnot (name : ν) : dir ≠ dir ++ [name] := fun h => by simp at h
    rw [List.append_nil, withFiles_other hnot, hdir, holding]
  | [name] =>
    have hno (name : ν) : ((disk.without dir).withDirs dir).node (dir ++ [name]) ≠ some .dir := by
      simp [hanew name []]
    rw [withFiles_inside hdir hno, hanew name [], Option.or_none, holding]
  | first :: second :: rest =>
    have hnot (name : ν) : dir ++ first :: second :: rest ≠ dir ++ [name] := by simp
    rw [withFiles_other hnot, hanew first]
    rfl

end
end Disk
end Library
