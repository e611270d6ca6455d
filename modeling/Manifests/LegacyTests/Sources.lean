import Manifests.LegacyTests

/-! `generate`: the directories of a deployed application, one by one. Where the paths in the tests
lead, and which directories get a test at all. -/
namespace Manifests.LegacyTests
open Library PosixPath

/-- An application of the kfdef file. -/
structure Application where
  name : String
  path : String
  relative : isAbs path = false

/-- `apps`: from the name of an application to its path. -/
def appPaths (applications : List Application) : String → Option String :=
  applications.foldl (fun apps a => Function.update apps a.name (some a.path)) fun _ => none

/-- The keys with paths to rewrite. -/
def fields : List String :=
  ["bases", "configurations", "resources", "patches", "patchesStrategicMerge"]

/-- The items of a loop over a value; `none` is a TypeError. -/
def iterate : Value → Option (List Value)
  | .list items => some items
  | .str s => some (s.toList.map fun c => .str (String.singleton c))
  | .dict d => some (d.map fun entry => .str entry.1)
  | _ => none

/-- The new path for a path `b`; `none` is a KeyError or a TypeError. -/
def rewritePath (numParents : Nat) (app : Option String) (b : Value) : Option Value := do
  let path ← app
  match b with
  | .str b => some (.str (joinPieces (List.replicate numParents ".." ++ [path, b])))
  | _ => none

def rewriteField (numParents : Nat) (app : Option String) (kustomization : Dict) (f : String) :
    Option Dict := do
  let items ← iterate ((kustomization.get f).getD (.list []))
  let new ← items.mapM (rewritePath numParents app)
  some (kustomization.set f (.list new))

def rewriteFields (numParents : Nat) (app : Option String) (kustomization : Dict) : Option Dict :=
  fields.foldlM (rewriteField numParents app) kustomization

/-- A directory of the deployed application: its kustomization, and the entries of the one in `base`,
when they are there. -/
structure AppDir where
  kustomization : Option Dict
  base : Option (List Generator)

/-- What becomes of a directory: it is skipped, an error ends the run before anything is written for
it, or there is a test, which is unfinished after an error. -/
inductive Outcome where
  | skipped
  | error
  | written (test : AppTest)

section
variable (numParents : Nat) (apps : String → Option String) (kustomizeDir : String)
  (read : String → Option String)

/-- The body of the loop over the directories. -/
def generateApp (d : String) (dir : AppDir) : Outcome :=
  if d ∈ appsToSkip then .skipped
  else
    -- for a directory that is not an application there is only a message
    match dir.kustomization with
    | none => .skipped
    | some kustomization =>
      match rewriteFields numParents (apps d) kustomization, dir.base with
      | some kustomization, some base =>
        .written (writeAppTest read (join kustomizeDir [d, "base"]) base kustomization)
      | _, _ => .error

def generateApps : List (String × AppDir) → List (String × AppTest)
  | [] => []
  | (d, dir) :: dirs =>
    match generateApp numParents apps kustomizeDir read d dir with
    | .skipped => generateApps dirs
    | .error => []
    | .written test =>
      if test.kustomization.isSome then (d, test) :: generateApps dirs else [(d, test)]

end

/-- The entries of the directory `kustomize`, as they are listed. -/
structure Listing where
  dirs : List (String × AppDir)
  isName : ∀ entry ∈ dirs, IsName entry.1
  distinct : (dirs.map Prod.fst).Nodup

/-- `num_parents`. -/
def numParents (repoRoot testPath : AbsPath) : Nat :=
  ((testPath.text.toList.drop repoRoot.text.toList.length).splitOn '/').length

/-- `generate`, with the tests that it writes; `none` is a ValueError. -/
def generate (repoRoot testPath : AbsPath) (kfdef : String) (applications : List Application)
    (listing : Listing) (read : String → Option String) : Option (List (String × AppTest)) :=
  if repoRoot.text.toList <+: testPath.text.toList then
    some (generateApps (numParents repoRoot testPath) (appPaths applications)
      (join (dirname kfdef) ["kustomize"]) read listing.dirs)
  else none

/-- A directory that gets a test: an application with a kustomization, which is not to be skipped. -/
structure IsApp (apps : String → Option String) (entry : String × AppDir) (path : String)
    (kustomization : Dict) : Prop where
  notSkipped : entry.1 ∉ appsToSkip
  app : apps entry.1 = some path
  kustomization : entry.2.kustomization = some kustomization

section
variable (repoRoot testPath : AbsPath)

/-- A relative path becomes one that leads, from the directory of the test, into the directory of the
application in the repository. -/
def Sourced (d path : String) (v v' : Value) : Prop :=
  ∀ b, v = .str b → isAbs b = false → ∃ p, v' = .str p ∧
    resolve (testPath.names ++ [d]) p = resolve repoRoot.names (join path [b])

/-- The test is finished, and all its relative paths are sourced. -/
def SourcedTest (d path : String) (kustomization : Dict) (test : AppTest) : Prop :=
  ∃ new, test.kustomization = some new ∧
    ∀ f ∈ fields, ∀ items, kustomization.get f = some (.list items) →
      ∃ items', new.get f = some (.list items') ∧
        List.Forall₂ (Sourced repoRoot testPath d path) items items'

/-- Each application has its test, and nothing else has one. -/
structure Generated (apps : String → Option String) (dirs : List (String × AppDir))
    (tests : List (String × AppTest)) : Prop where
  sourced : ∀ entry ∈ dirs, ∀ path kustomization, IsApp apps entry path kustomization →
    ∃ test, (entry.1, test) ∈ tests ∧
      SourcedTest repoRoot testPath entry.1 path kustomization test
  onlyApps : ∀ d, apps d = none → d ∉ tests.map Prod.fst

end

/-! Where the new paths lead. -/

section
variable {repoRoot testPath : AbsPath} {d path b : String}

/-- The path `b` of an application, as `generate` rewrites it. -/
def newPath (numParents : Nat) (path b : String) : String :=
  joinPieces (List.replicate numParents ".." ++ [path, b])

/-- The directory with the tests is the root of the repository or below it. -/
def InRoot (repoRoot testPath : AbsPath) : Prop :=
  if repoRoot.names = [] then testPath.names = [] else repoRoot.names <+: testPath.names

theorem numParents_eq (h : repoRoot.text.toList <+: testPath.text.toList) :
    numParents repoRoot testPath + max 1 repoRoot.names.length =
      max 1 testPath.names.length + 1 := by
  obtain ⟨rest, hrest⟩ := h
  have hcount := congrArg (List.count '/') hrest
  rw [List.count_append, count_text, count_text] at hcount
  rw [numParents, ← hrest, List.drop_left, length_splitOn]
  omega

/-- The dots of a new path lead up to as many names as the root has, but at least to one. -/
theorem take_parents (h : repoRoot.text.toList <+: testPath.text.toList) :
    (testPath.names ++ [d]).take ((testPath.names ++ [d]).length - numParents repoRoot testPath) =
      testPath.names.take (max 1 repoRoot.names.length) := by
  have hn := numParents_eq h
  have hbegins := h.sublist.count_le '/'
  rw [count_text, count_text] at hbegins
  cases hnames : testPath.names with
  | nil =>
    rw [hnames] at hn hbegins
    have hzero : ([] ++ [d]).length - numParents repoRoot testPath = 0 := by
      rw [List.nil_append, List.length_singleton]
      rw [List.length_nil] at hn hbegins
      omega
    rw [hzero, List.take_zero, List.take_nil]
  | cons c names =>
    rw [hnames, List.length_cons] at hn hbegins
    have hup : (c :: names ++ [d]).length - numParents repoRoot testPath =
        max 1 repoRoot.names.length := by
      rw [List.length_append, List.length_cons, List.length_singleton]
      omega
    have hle : max 1 repoRoot.names.length ≤ (c :: names).length := by
      rw [List.length_cons]
      omega
    rw [hup, List.take_append_of_le_length hle]

theorem inRoot_iff (repoRoot testPath : AbsPath) : InRoot repoRoot testPath ↔
    testPath.names.take (max 1 repoRoot.names.length) = repoRoot.names := by
  unfold InRoot
  split
  · next h =>
    rw [h]
    cases testPath.names <;> simp
  · next h =>
    have hpos : 0 < repoRoot.names.length := List.length_pos_iff.mpr h
    rw [max_eq_right hpos, List.prefix_iff_eq_take, eq_comm]

/-- A new path leads to the right place when the tests are in the repository, or when the path leads
out of the root anyway. -/
theorem resolve_newPath_iff (h : repoRoot.text.toList <+: testPath.text.toList)
    (hpath : isAbs path = false) (hb : isAbs b = false) :
    resolve (testPath.names ++ [d]) (newPath (numParents repoRoot testPath) path b) =
      resolve repoRoot.names (join path [b]) ↔
        InRoot repoRoot testPath ∨ 1 ≤ (relative (components path ++ components b)).1 := by
  have hpieces : ∀ piece ∈ [path, b], isAbs piece = false := by simp [hpath, hb]
  have hjoin (dir : List String) : resolve dir (join path [b]) =
      (components path ++ components b).foldl follow dir := by
    rw [← joinPieces, resolve_joinPieces hpieces]
    simp
  rw [newPath, resolve_dots hpieces, take_parents h, joinPieces, hjoin, hjoin,
    foldl_follow_eq_iff (dropLast_take_names h), inRoot_iff]

end

/-! What the loop over the fields does. -/

/-- The items of a field. -/
def fieldItems (kustomization : Dict) (f : String) : Option (List Value) :=
  iterate ((kustomization.get f).getD (.list []))

section
variable {n : Nat} {app : Option String} {kustomization new : Dict} {f path : String}
  {names : List String} {items items' : List Value}

/-- The new items of a field. -/
def newItems (n : Nat) (app : Option String) (kustomization : Dict) (f : String) :
    Option (List Value) :=
  (fieldItems kustomization f).bind (List.mapM (rewritePath n app))

theorem rewriteField_eq (n : Nat) (app : Option String) (kustomization : Dict) (f : String) :
    rewriteField n app kustomization f =
      (newItems n app kustomization f).map fun items => kustomization.set f (.list items) := by
  rw [rewriteField, newItems, fieldItems]
  cases iterate ((kustomization.get f).getD (.list [])) with
  | none => rfl
  | some items =>
    simp only [Option.bind_eq_bind, Option.bind_some]
    cases items.mapM (rewritePath n app) <;> rfl

theorem newItems_set (h : f ∉ names) {g : String} (hg : g ∈ names) {v : Value} :
    newItems n app (kustomization.set f v) g = newItems n app kustomization g := by
  rw [newItems, newItems, fieldItems, fieldItems, Dict.get_set_ne (ne_of_mem_of_not_mem hg h)]

/-- Each field gets its new items, from its own old ones. -/
theorem get_of_foldlM (hn : names.Nodup)
    (h : names.foldlM (rewriteField n app) kustomization = some new) :
    (∀ f ∈ names, ∃ items, newItems n app kustomization f = some items ∧
      new.get f = some (.list items)) ∧ ∀ f ∉ names, new.get f = kustomization.get f := by
  induction names generalizing kustomization with
  | nil =>
    cases h
    exact ⟨nofun, fun _ _ => rfl⟩
  | cons f names ih =>
    obtain ⟨hf, hrest⟩ := List.nodup_cons.mp hn
    rw [List.foldlM_cons, rewriteField_eq] at h
    cases hitems : newItems n app kustomization f with
    | none =>
      rw [hitems] at h
      cases h
    | some items =>
      rw [hitems] at h
      obtain ⟨hnew, hother⟩ := ih hrest h
      constructor
      · intro g hg
        rcases List.mem_cons.mp hg with rfl | hg
        · exact ⟨items, hitems, by rw [hother g hf, Dict.get_set_self]⟩
        · obtain ⟨items', hitems', hget⟩ := hnew g hg
          exact ⟨items', by rwa [newItems_set hf hg] at hitems', hget⟩
      · intro g hg
        rw [List.mem_cons, not_or] at hg
        rw [hother g hg.2, Dict.get_set_ne hg.1]

theorem exists_foldlM (hn : names.Nodup)
    (h : ∀ f ∈ names, ∃ items, newItems n app kustomization f = some items) :
    ∃ new, names.foldlM (rewriteField n app) kustomization = some new := by
  induction names generalizing kustomization with
  | nil => exact ⟨kustomization, rfl⟩
  | cons f names ih =>
    obtain ⟨hf, hrest⟩ := List.nodup_cons.mp hn
    obtain ⟨⟨items, hitems⟩, hothers⟩ := List.forall_mem_cons.mp h
    have hnext : ∀ g ∈ names, ∃ items',
        newItems n app (kustomization.set f (.list items)) g = some items' := by
      intro g hg
      rw [newItems_set hf hg]
      exact hothers g hg
    obtain ⟨new, hnew⟩ := ih hrest hnext
    refine ⟨new, ?_⟩
    rw [List.foldlM_cons, rewriteField_eq, hitems]
    exact hnew

theorem fields_nodup : fields.Nodup := by decide

/-- The fields can be rewritten exactly when each of them can. -/
theorem rewriteFields_isSome_iff : (∃ new, rewriteFields n app kustomization = some new) ↔
    ∀ f ∈ fields, ∃ items, newItems n app kustomization f = some items := by
  refine ⟨fun ⟨new, hnew⟩ f hf => ?_, exists_foldlM fields_nodup⟩
  obtain ⟨items, hitems, _⟩ := (get_of_foldlM fields_nodup hnew).1 f hf
  exact ⟨items, hitems⟩

theorem mapM_rewritePath_iff : items.mapM (rewritePath n (some path)) = some items' ↔
    ∃ bs : List String, items = bs.map .str ∧ items' = bs.map fun b => .str (newPath n path b) := by
  constructor
  · intro h
    induction items generalizing items' with
    | nil =>
      cases h
      exact ⟨[], rfl, rfl⟩
    | cons item items ih =>
      rw [List.mapM_cons] at h
      obtain ⟨v, hv, h⟩ := Option.bind_eq_some_iff.mp h
      obtain ⟨vs, hvs, h⟩ := Option.bind_eq_some_iff.mp h
      cases h
      obtain ⟨bs, rfl, rfl⟩ := ih hvs
      cases item with
      | str b =>
        cases hv
        exact ⟨b :: bs, rfl, rfl⟩
      | _ => cases hv
  · rintro ⟨bs, rfl, rfl⟩
    induction bs with
    | nil => rfl
    | cons b bs ih =>
      rw [List.map_cons, List.mapM_cons, ih]
      rfl

/-- For an application the items are texts. -/
theorem newItems_some_iff : newItems n (some path) kustomization f = some items' ↔
    ∃ bs : List String, fieldItems kustomization f = some (bs.map .str) ∧
      items' = bs.map fun b => .str (newPath n path b) := by
  rw [newItems, Option.bind_eq_some_iff]
  constructor
  · rintro ⟨items, hitems, hmapM⟩
    obtain ⟨bs, rfl, hbs⟩ := mapM_rewritePath_iff.mp hmapM
    exact ⟨bs, hitems, hbs⟩
  · rintro ⟨bs, hitems, hbs⟩
    exact ⟨_, hitems, mapM_rewritePath_iff.mpr ⟨bs, rfl, hbs⟩⟩

/-- For a directory that is not an application there must be no items. -/
theorem newItems_none : newItems n none kustomization f = some items' ↔
    fieldItems kustomization f = some [] ∧ items' = [] := by
  rw [newItems, Option.bind_eq_some_iff]
  constructor
  · rintro ⟨items, hitems, hmapM⟩
    cases items with
    | nil =>
      cases hmapM
      exact ⟨hitems, rfl⟩
    | cons item items => cases hmapM
  · rintro ⟨hitems, rfl⟩
    exact ⟨[], hitems, rfl⟩

end

/-! One directory. -/

section
variable (repoRoot testPath : AbsPath) (apps : String → Option String) (kustomizeDir : String)
  (read : String → Option String)

/-- Nothing stops the run at an application: the items of its fields are texts, the kustomization of
its base is there, and so are the files that are copied for it. -/
structure Ready (d : String) (dir : AppDir) (kustomization : Dict) : Prop where
  texts : ∀ f ∈ fields, ∃ bs : List String, fieldItems kustomization f = some (bs.map .str)
  base : ∃ base, dir.base = some base ∧
    ∀ f ∈ allFiles (buildConfigmapGenerators (join kustomizeDir [d, "base"]) base), (read f).isSome

/-- The tests are in the repository, or each path leads up from the root that it is taken from. -/
def RightPaths (path : String) (kustomization : Dict) : Prop :=
  ∀ f ∈ fields, ∀ items, kustomization.get f = some (.list items) →
    ∀ b, .str b ∈ items → isAbs b = false →
      InRoot repoRoot testPath ∨ 1 ≤ (relative (components path ++ components b)).1

/-- A directory that is not an application, but has a kustomization. -/
def isStray (entry : String × AppDir) : Bool :=
  entry.1 ∉ appsToSkip && (apps entry.1).isNone && entry.2.kustomization.isSome

/-- The run stops at a stray directory before anything is written for it: a field has items, or cannot
be gone through, or the kustomization of its base is not there. -/
def Blocked (dir : AppDir) : Prop :=
  ∀ kustomization, dir.kustomization = some kustomization →
    (∃ f ∈ fields, fieldItems kustomization f ≠ some []) ∨ dir.base = none

/-- What the directories must be like: the applications are ready with right paths, and the first stray
directory, if there is one, is blocked and has no application behind it. -/
structure Holds (dirs : List (String × AppDir)) : Prop where
  ready : ∀ entry ∈ dirs, ∀ path kustomization, IsApp apps entry path kustomization →
    Ready kustomizeDir read entry.1 entry.2 kustomization ∧
      RightPaths repoRoot testPath path kustomization
  stray :
    match dirs.dropWhile (!isStray apps ·) with
    | [] => True
    | stray :: behind => Blocked stray.2 ∧
        ∀ entry ∈ behind, ∀ path kustomization, ¬ IsApp apps entry path kustomization

end

section
variable {repoRoot testPath : AbsPath} {apps : String → Option String} {kustomizeDir d path f : String}
  {read : String → Option String} {dir : AppDir} {kustomization new : Dict} {n : Nat}
  {base : List Generator} {entry : String × AppDir} {dirs : List (String × AppDir)} {test : AppTest}
  {tests : List (String × AppTest)}

theorem copyFiles_snd_iff {i : Nat} {files : List String} :
    (copyFiles read i files).2 = true ↔ ∀ f ∈ files, (read f).isSome := by
  induction files generalizing i with
  | nil => exact iff_of_true rfl nofun
  | cons f files ih =>
    rw [List.forall_mem_cons, copyFiles]
    cases hf : read f with
    | none => simp
    | some contents => simp [ih]

theorem writeGenerators_isSome_iff {i : Nat} {generators : List (String × List String)} :
    (writeGenerators read i generators).2.isSome ↔ ∀ f ∈ allFiles generators, (read f).isSome := by
  induction generators generalizing i with
  | nil => exact iff_of_true rfl nofun
  | cons entry generators ih =>
    obtain ⟨name, files⟩ := entry
    rw [allFiles_cons, List.forall_mem_append, ← copyFiles_snd_iff (i := i), writeGenerators]
    cases hcopies : copyFiles read i files with
    | mk copies all =>
      cases all with
      | false => simp
      | true => simp [ih]

theorem kustomization_writeAppTest :
    (writeAppTest read kustomizeDir base kustomization).kustomization.isSome ↔
      ∀ f ∈ allFiles (buildConfigmapGenerators kustomizeDir base), (read f).isSome := by
  rw [← writeGenerators_isSome_iff (i := 0), writeAppTest]
  rcases writeGenerators read 0 (buildConfigmapGenerators kustomizeDir base) with ⟨params, _ | gens⟩ <;>
    rfl

/-- The fields with paths stay as they are rewritten. -/
theorem get_writeAppTest (hf : f ∈ fields)
    (h : (writeAppTest read kustomizeDir base kustomization).kustomization = some new) :
    new.get f = kustomization.get f := by
  have hconfig : f ≠ "configMapGenerator" := ne_of_mem_of_not_mem hf (by decide)
  have hsecret : f ≠ "secretGenerator" := ne_of_mem_of_not_mem hf (by decide)
  rw [writeAppTest] at h
  split at h
  · cases h
  · cases h
    rw [Dict.get_erase, if_neg hsecret, Dict.get_set_ne hconfig]

theorem generateApp_eq (hskip : d ∉ appsToSkip) (hk : dir.kustomization = some kustomization) :
    generateApp n apps kustomizeDir read d dir =
      match rewriteFields n (apps d) kustomization, dir.base with
      | some kustomization, some base =>
        .written (writeAppTest read (join kustomizeDir [d, "base"]) base kustomization)
      | _, _ => .error := by
  rw [generateApp, if_neg hskip, hk]

/-- The paths of a field, before and after. -/
theorem forall₂_sourced_iff (hbegins : repoRoot.text.toList <+: testPath.text.toList)
    (hpath : isAbs path = false) (bs : List String) :
    List.Forall₂ (Sourced repoRoot testPath d path) (bs.map .str)
        (bs.map fun b => .str (newPath (numParents repoRoot testPath) path b)) ↔
      ∀ b ∈ bs, isAbs b = false →
        InRoot repoRoot testPath ∨ 1 ≤ (relative (components path ++ components b)).1 := by
  rw [List.forall₂_map_left_iff, List.forall₂_map_right_iff, List.forall₂_same]
  refine forall₂_congr fun b _ => ?_
  constructor
  · intro h hb
    obtain ⟨p, hp, hresolve⟩ := h b rfl hb
    cases hp
    exact (resolve_newPath_iff hbegins hpath hb).mp hresolve
  · intro h b' heq hb
    cases heq
    exact ⟨_, rfl, (resolve_newPath_iff hbegins hpath hb).mpr (h hb)⟩

/-- The fields of a rewritten kustomization. -/
theorem get_rewriteFields (h : rewriteFields n (some path) kustomization = some new) (hf : f ∈ fields) :
    ∃ bs : List String, fieldItems kustomization f = some (bs.map .str) ∧
      new.get f = some (.list (bs.map fun b => .str (newPath n path b))) := by
  obtain ⟨items, hitems, hget⟩ := (get_of_foldlM fields_nodup h).1 f hf
  obtain ⟨bs, hbs, rfl⟩ := newItems_some_iff.mp hitems
  exact ⟨bs, hbs, hget⟩

theorem fieldItems_of_list {items : List Value} (h : kustomization.get f = some (.list items)) :
    fieldItems kustomization f = some items := by
  rw [fieldItems, h]
  rfl

/-- A finished test is sourced when its paths are right. -/
theorem sourcedTest_iff (hbegins : repoRoot.text.toList <+: testPath.text.toList)
    (hpath : isAbs path = false)
    (hnew : rewriteFields (numParents repoRoot testPath) (some path) kustomization = some new) :
    SourcedTest repoRoot testPath d path kustomization (writeAppTest read kustomizeDir base new) ↔
      (writeAppTest read kustomizeDir base new).kustomization.isSome ∧
        RightPaths repoRoot testPath path kustomization := by
  constructor
  · rintro ⟨k, hk, hsourced⟩
    refine ⟨by rw [hk]; rfl, fun f hf items hitems b hb => ?_⟩
    obtain ⟨bs, hbs, hget⟩ := get_rewriteFields hnew hf
    rw [fieldItems_of_list hitems, Option.some_inj] at hbs
    subst hbs
    obtain ⟨items', hget', hforall⟩ := hsourced f hf _ hitems
    rw [get_writeAppTest hf hk, hget] at hget'
    cases hget'
    have hb' : b ∈ bs := by simpa using hb
    exact (forall₂_sourced_iff hbegins hpath bs).mp hforall b hb'
  · rintro ⟨hsome, hright⟩
    obtain ⟨k, hk⟩ := Option.isSome_iff_exists.mp hsome
    refine ⟨k, hk, fun f hf items hitems => ?_⟩
    obtain ⟨bs, hbs, hget⟩ := get_rewriteFields hnew hf
    rw [fieldItems_of_list hitems, Option.some_inj] at hbs
    subst hbs
    refine ⟨_, (get_writeAppTest hf hk).trans hget, (forall₂_sourced_iff hbegins hpath bs).mpr ?_⟩
    exact fun b hb => hright f hf _ hitems b (List.mem_map.mpr ⟨b, hb, rfl⟩)

/-- An application gets its test exactly when it is ready with right paths. -/
theorem generateApp_iff (hbegins : repoRoot.text.toList <+: testPath.text.toList)
    (hpath : isAbs path = false) (happ : IsApp apps (d, dir) path kustomization) :
    (∃ test, generateApp (numParents repoRoot testPath) apps kustomizeDir read d dir = .written test ∧
        SourcedTest repoRoot testPath d path kustomization test) ↔
      Ready kustomizeDir read d dir kustomization ∧
        RightPaths repoRoot testPath path kustomization := by
  have happ' : apps d = some path := happ.app
  rw [generateApp_eq happ.notSkipped happ.kustomization, happ']
  constructor
  · rintro ⟨test, hwritten, hsourced⟩
    split at hwritten
    · next new base hnew hbase =>
      cases hwritten
      obtain ⟨hsome, hright⟩ := (sourcedTest_iff hbegins hpath hnew).mp hsourced
      refine ⟨⟨fun f hf => ?_, base, hbase, kustomization_writeAppTest.mp hsome⟩, hright⟩
      obtain ⟨bs, hbs, _⟩ := get_rewriteFields hnew hf
      exact ⟨bs, hbs⟩
    · cases hwritten
  · rintro ⟨⟨htexts, base, hbase, hfiles⟩, hright⟩
    have hitems : ∀ f ∈ fields, ∃ items,
        newItems (numParents repoRoot testPath) (some path) kustomization f = some items := by
      intro f hf
      obtain ⟨bs, hbs⟩ := htexts f hf
      exact ⟨_, newItems_some_iff.mpr ⟨bs, hbs, rfl⟩⟩
    obtain ⟨new, hnew⟩ := rewriteFields_isSome_iff.mpr hitems
    rw [hnew, hbase]
    exact ⟨_, rfl, (sourcedTest_iff hbegins hpath hnew).mpr
      ⟨kustomization_writeAppTest.mpr hfiles, hright⟩⟩

theorem isStray_iff : isStray apps entry = true ↔
    entry.1 ∉ appsToSkip ∧ apps entry.1 = none ∧ ∃ k, entry.2.kustomization = some k := by
  simp only [isStray, Bool.and_eq_true, decide_eq_true_eq, Option.isNone_iff_eq_none,
    Option.isSome_iff_exists, and_assoc]

/-- A stray directory gets no test exactly when it is blocked. -/
theorem generateApp_of_stray (h : isStray apps (d, dir) = true) :
    (Blocked dir ∧ generateApp n apps kustomizeDir read d dir = .error) ∨
      (¬ Blocked dir ∧ ∃ test, generateApp n apps kustomizeDir read d dir = .written test) := by
  obtain ⟨hskip, hnone, kustomization, hk⟩ := isStray_iff.mp h
  dsimp only at hskip hnone hk
  have hblocked : Blocked dir ↔
      (∃ f ∈ fields, fieldItems kustomization f ≠ some []) ∨ dir.base = none := by
    refine ⟨fun hb => hb kustomization hk, fun hb k hk' => ?_⟩
    rw [hk, Option.some_inj] at hk'
    rwa [← hk']
  have hrewrite : (∃ new, rewriteFields n none kustomization = some new) ↔
      ∀ f ∈ fields, fieldItems kustomization f = some [] := by
    rw [rewriteFields_isSome_iff]
    simp only [newItems_none, exists_and_left, exists_eq, and_true]
  rw [generateApp_eq hskip hk, hnone, hblocked]
  cases hnew : rewriteFields n none kustomization with
  | none =>
    have hnot : ¬ ∀ f ∈ fields, fieldItems kustomization f = some [] := by
      rw [← hrewrite, hnew]
      simp
    push Not at hnot
    exact Or.inl ⟨Or.inl hnot, rfl⟩
  | some new =>
    have hall := hrewrite.mp ⟨new, hnew⟩
    cases hbase : dir.base with
    | none => exact Or.inl ⟨Or.inr rfl, rfl⟩
    | some base =>
      refine Or.inr ⟨?_, _, rfl⟩
      rintro (⟨f, hf, hne⟩ | hbase)
      · exact hne (hall f hf)
      · cases hbase

/-- A directory that is neither an application nor stray is skipped. -/
theorem generateApp_of_other (happ : ∀ path k, ¬ IsApp apps (d, dir) path k)
    (hstray : isStray apps (d, dir) = false) :
    generateApp n apps kustomizeDir read d dir = .skipped := by
  rw [generateApp]
  split
  · rfl
  · next hskip =>
    cases hk : dir.kustomization with
    | none => rfl
    | some k =>
      cases ha : apps d with
      | none =>
        rw [isStray_iff.mpr ⟨hskip, ha, k, hk⟩] at hstray
        cases hstray
      | some path => exact (happ path k ⟨hskip, ha, hk⟩).elim

/-! All directories. -/

theorem mem_names_of_mem (h : d ∈ (generateApps n apps kustomizeDir read dirs).map Prod.fst) :
    d ∈ dirs.map Prod.fst := by
  induction dirs with
  | nil => exact h
  | cons entry dirs ih =>
    rw [generateApps] at h
    split at h
    · exact List.mem_cons_of_mem _ (ih h)
    · cases h
    · split at h
      · rcases List.mem_cons.mp h with rfl | h
        · exact List.mem_cons_self
        · exact List.mem_cons_of_mem _ (ih h)
      · rw [List.map_singleton, List.mem_singleton] at h
        exact h ▸ List.mem_cons_self

theorem generated_cons_of_not_app (happ : ∀ path k, ¬ IsApp apps entry path k) :
    Generated repoRoot testPath apps (entry :: dirs) tests ↔
      Generated repoRoot testPath apps dirs tests := by
  constructor
  · exact fun h => ⟨fun e he => h.sourced e (List.mem_cons_of_mem _ he), h.onlyApps⟩
  · refine fun h => ⟨fun e he path k happ' => ?_, h.onlyApps⟩
    rcases List.mem_cons.mp he with rfl | he
    · exact (happ path k happ').elim
    · exact h.sourced e he path k happ'

theorem not_isStray_of_app (h : IsApp apps entry path kustomization) : isStray apps entry = false := by
  rw [← Bool.not_eq_true, isStray_iff, h.app]
  simp

theorem dropWhile_of_not_stray (h : isStray apps entry = false) (dirs : List (String × AppDir)) :
    (entry :: dirs).dropWhile (!isStray apps ·) = dirs.dropWhile (!isStray apps ·) := by
  rw [List.dropWhile_cons_of_pos (by rw [h]; rfl)]

theorem holds_cons_of_other (happ : ∀ path k, ¬ IsApp apps entry path k)
    (hstray : isStray apps entry = false) :
    Holds repoRoot testPath apps kustomizeDir read (entry :: dirs) ↔
      Holds repoRoot testPath apps kustomizeDir read dirs := by
  have hdrop := dropWhile_of_not_stray hstray dirs
  constructor
  · rintro ⟨hready, hfirst⟩
    rw [hdrop] at hfirst
    exact ⟨fun e he => hready e (List.mem_cons_of_mem _ he), hfirst⟩
  · rintro ⟨hready, hfirst⟩
    rw [← hdrop] at hfirst
    refine ⟨fun e he path k happ' => ?_, hfirst⟩
    rcases List.mem_cons.mp he with rfl | he
    · exact (happ path k happ').elim
    · exact hready e he path k happ'

theorem IsApp.eq {path' : String} {kustomization' : Dict} (h : IsApp apps entry path kustomization)
    (h' : IsApp apps entry path' kustomization') : path = path' ∧ kustomization = kustomization' :=
  ⟨Option.some_inj.mp (h.app.symm.trans h'.app),
    Option.some_inj.mp (h.kustomization.symm.trans h'.kustomization)⟩

theorem holds_cons_of_app (happ : IsApp apps entry path kustomization) :
    Holds repoRoot testPath apps kustomizeDir read (entry :: dirs) ↔
      (Ready kustomizeDir read entry.1 entry.2 kustomization ∧
        RightPaths repoRoot testPath path kustomization) ∧
      Holds repoRoot testPath apps kustomizeDir read dirs := by
  have hdrop := dropWhile_of_not_stray (not_isStray_of_app happ) dirs
  constructor
  · rintro ⟨hready, hfirst⟩
    rw [hdrop] at hfirst
    exact ⟨hready entry List.mem_cons_self path kustomization happ,
      fun e he => hready e (List.mem_cons_of_mem _ he), hfirst⟩
  · rintro ⟨hentry, hready, hfirst⟩
    rw [← hdrop] at hfirst
    refine ⟨fun e he path' k happ' => ?_, hfirst⟩
    rcases List.mem_cons.mp he with rfl | he
    · obtain ⟨rfl, rfl⟩ := happ.eq happ'
      exact hentry
    · exact hready e he path' k happ'

/-- A test for the first directory is the one that is written for it. -/
theorem written_of_mem (hd : d ∉ dirs.map Prod.fst)
    (hmem : (d, test) ∈ generateApps n apps kustomizeDir read ((d, dir) :: dirs)) :
    generateApp n apps kustomizeDir read d dir = .written test := by
  have hrest : (d, test) ∉ generateApps n apps kustomizeDir read dirs := fun h =>
    hd (mem_names_of_mem (List.mem_map.mpr ⟨_, h, rfl⟩))
  rw [generateApps] at hmem
  split at hmem
  · exact (hrest hmem).elim
  · cases hmem
  · next test' hwritten =>
    split at hmem
    · rcases List.mem_cons.mp hmem with heq | hmem
      · cases heq
        exact hwritten
      · exact (hrest hmem).elim
    · cases List.mem_singleton.mp hmem
      exact hwritten

/-- Behind an application with its test the run goes on. -/
theorem generated_cons_of_written (hd : d ∉ dirs.map Prod.fst)
    (happ : IsApp apps (d, dir) path kustomization)
    (hwritten : generateApp n apps kustomizeDir read d dir = .written test)
    (hsourced : SourcedTest repoRoot testPath d path kustomization test) :
    Generated repoRoot testPath apps ((d, dir) :: dirs)
        (generateApps n apps kustomizeDir read ((d, dir) :: dirs)) ↔
      Generated repoRoot testPath apps dirs (generateApps n apps kustomizeDir read dirs) := by
  have hsome : test.kustomization.isSome := by
    obtain ⟨new, hnew, _⟩ := hsourced
    rw [hnew]
    rfl
  have htests : generateApps n apps kustomizeDir read ((d, dir) :: dirs) =
      (d, test) :: generateApps n apps kustomizeDir read dirs := by
    rw [generateApps, hwritten]
    exact if_pos hsome
  rw [htests]
  constructor
  · intro h
    refine ⟨fun e he path' k happ' => ?_, fun d' hd' hmem =>
      h.onlyApps d' hd' (List.mem_cons_of_mem _ hmem)⟩
    obtain ⟨test', hmem, hsourced'⟩ := h.sourced e (List.mem_cons_of_mem _ he) path' k happ'
    rcases List.mem_cons.mp hmem with heq | hmem
    · cases heq
      exact (hd (List.mem_map.mpr ⟨e, he, rfl⟩)).elim
    · exact ⟨test', hmem, hsourced'⟩
  · intro h
    refine ⟨fun e he path' k happ' => ?_, fun d' hd' hmem => ?_⟩
    · rcases List.mem_cons.mp he with rfl | he
      · obtain ⟨rfl, rfl⟩ := happ.eq happ'
        exact ⟨test, List.mem_cons_self, hsourced⟩
      · obtain ⟨test', hmem, hsourced'⟩ := h.sourced e he path' k happ'
        exact ⟨test', List.mem_cons_of_mem _ hmem, hsourced'⟩
    · rcases List.mem_cons.mp hmem with rfl | hmem
      · rw [happ.app] at hd'
        cases hd'
      · exact h.onlyApps d' hd' hmem

/-- At the first stray directory the run must stop, and all applications must be done. -/
theorem generated_cons_of_stray (hstray : isStray apps (d, dir) = true) :
    Generated repoRoot testPath apps ((d, dir) :: dirs)
        (generateApps n apps kustomizeDir read ((d, dir) :: dirs)) ↔
      Blocked dir ∧ ∀ entry ∈ dirs, ∀ path k, ¬ IsApp apps entry path k := by
  obtain ⟨_, hnone, _⟩ := isStray_iff.mp hstray
  have hcases : (Blocked dir ∧ generateApp n apps kustomizeDir read d dir = .error) ∨
      (¬ Blocked dir ∧ ∃ test, generateApp n apps kustomizeDir read d dir = .written test) :=
    generateApp_of_stray hstray
  rcases hcases with ⟨hblocked, herror⟩ | ⟨hblocked, test, hwritten⟩
  · have htests : generateApps n apps kustomizeDir read ((d, dir) :: dirs) = [] := by
      rw [generateApps, herror]
    rw [htests, and_iff_right hblocked]
    constructor
    · intro h entry hentry path k happ
      obtain ⟨_, hmem, _⟩ := h.sourced entry (List.mem_cons_of_mem _ hentry) path k happ
      cases hmem
    · refine fun h => ⟨fun entry hentry path k happ => ?_, fun _ _ => List.not_mem_nil⟩
      rcases List.mem_cons.mp hentry with rfl | hentry
      · rw [not_isStray_of_app happ] at hstray
        cases hstray
      · exact (h entry hentry path k happ).elim
  · refine iff_of_false (fun h => ?_) fun h => hblocked h.1
    apply h.onlyApps d hnone
    rw [generateApps, hwritten]
    dsimp only
    split <;> exact List.mem_cons_self

theorem holds_cons_of_stray (hstray : isStray apps entry = true) :
    Holds repoRoot testPath apps kustomizeDir read (entry :: dirs) ↔
      Blocked entry.2 ∧ ∀ entry ∈ dirs, ∀ path k, ¬ IsApp apps entry path k := by
  have hdrop : (entry :: dirs).dropWhile (!isStray apps ·) = entry :: dirs := by
    rw [List.dropWhile_cons_of_neg (by rw [hstray]; decide)]
  constructor
  · rintro ⟨_, hfirst⟩
    rwa [hdrop] at hfirst
  · intro h
    refine ⟨fun e he path k happ => ?_, by rwa [hdrop]⟩
    rcases List.mem_cons.mp he with rfl | he
    · rw [not_isStray_of_app happ] at hstray
      cases hstray
    · exact (h.2 e he path k happ).elim

theorem generated_iff_holds (hbegins : repoRoot.text.toList <+: testPath.text.toList)
    (hrelative : ∀ d path, apps d = some path → isAbs path = false)
    (hn : (dirs.map Prod.fst).Nodup) :
    Generated repoRoot testPath apps dirs
        (generateApps (numParents repoRoot testPath) apps kustomizeDir read dirs) ↔
      Holds repoRoot testPath apps kustomizeDir read dirs := by
  induction dirs with
  | nil => exact iff_of_true ⟨nofun, fun _ _ => List.not_mem_nil⟩ ⟨nofun, trivial⟩
  | cons entry dirs ih =>
    obtain ⟨d, dir⟩ := entry
    obtain ⟨hd, hrest⟩ := List.nodup_cons.mp hn
    cases hstray : isStray apps (d, dir) with
    | true => rw [generated_cons_of_stray hstray, holds_cons_of_stray hstray]
    | false =>
      by_cases happ : ∃ path k, IsApp apps (d, dir) path k
      · obtain ⟨path, k, happ⟩ := happ
        have hentry : (∃ test, generateApp (numParents repoRoot testPath) apps kustomizeDir read d
            dir = .written test ∧ SourcedTest repoRoot testPath d path k test) ↔
              Ready kustomizeDir read d dir k ∧ RightPaths repoRoot testPath path k :=
          generateApp_iff hbegins (hrelative d path happ.app) happ
        rw [holds_cons_of_app happ]
        by_cases hready : Ready kustomizeDir read d dir k ∧ RightPaths repoRoot testPath path k
        · obtain ⟨test, hwritten, hsourced⟩ := hentry.mpr hready
          rw [generated_cons_of_written hd happ hwritten hsourced, ih hrest, and_iff_right hready]
        · refine iff_of_false (fun h => hready ?_) fun h => hready h.1
          obtain ⟨test, hmem, hsourced⟩ := h.sourced _ List.mem_cons_self path k happ
          exact hentry.mp ⟨test, written_of_mem hd hmem, hsourced⟩
      · push Not at happ
        have hskipped : generateApp (numParents repoRoot testPath) apps kustomizeDir read d dir =
            .skipped := generateApp_of_other happ hstray
        have htests : generateApps (numParents repoRoot testPath) apps kustomizeDir read
            ((d, dir) :: dirs) =
              generateApps (numParents repoRoot testPath) apps kustomizeDir read dirs := by
          rw [generateApps, hskipped]
        rw [htests, generated_cons_of_not_app happ, holds_cons_of_other happ hstray, ih hrest]

theorem isAbs_appPaths (applications : List Application) {d path : String}
    (h : appPaths applications d = some path) : isAbs path = false := by
  induction applications using List.reverseRecOn with
  | nil => cases h
  | append_singleton applications a ih =>
    rw [appPaths, List.foldl_append, List.foldl_cons, List.foldl_nil, Function.update_apply] at h
    split at h
    · cases h
      exact a.relative
    · exact ih h

end

/-- `generate` accepts a path for the tests that begins with the text of the root. It then makes the
tests of all applications, with sourced paths, and of nothing else, exactly when the applications are
ready with right paths, and a stray directory is blocked and comes behind them. -/
theorem generate_iff (repoRoot testPath : AbsPath) (kfdef : String) (applications : List Application)
    (listing : Listing) (read : String → Option String) (tests : List (String × AppTest))
    (h : generate repoRoot testPath kfdef applications listing read = some tests) :
    Generated repoRoot testPath (appPaths applications) listing.dirs tests ↔
      Holds repoRoot testPath (appPaths applications) (join (dirname kfdef) ["kustomize"]) read
        listing.dirs := by
  unfold generate at h
  split at h
  · next hbegins =>
    cases h
    exact generated_iff_holds hbegins (fun _ _ => isAbs_appPaths applications) listing.distinct
  · cases h

def repo : AbsPath := ⟨["repo"], by simpa using ⟨by decide, by decide, by decide, by decide⟩⟩

def repoTests : AbsPath :=
  ⟨["repo", "tests"], by simpa using ⟨⟨by decide, by decide, by decide, by decide⟩,
    by decide, by decide, by decide, by decide⟩⟩

def jupyter : Application := ⟨"jupyter", "jupyter/notebooks", by decide +kernel⟩

/-- A directory with one resource, and no generators in its base. -/
def resourceDir (resource : String) : AppDir :=
  ⟨some [("resources", .list [.str resource])], some []⟩

/-- The application, and a directory in front of it that is none. -/
def strayListing : Listing :=
  ⟨[("istio", resourceDir "gateway.yaml"), ("jupyter", resourceDir "base/crd.yaml")],
    by simpa using ⟨⟨by decide, by decide, by decide, by decide⟩,
      by decide, by decide, by decide, by decide⟩, by simp⟩

/-- The run stops at the directory in front of the application. -/
theorem not_generated : ¬ ∀ (repoRoot testPath : AbsPath) (kfdef : String)
    (applications : List Application) (listing : Listing) (read : String → Option String)
    (tests : List (String × AppTest)),
    generate repoRoot testPath kfdef applications listing read = some tests →
      Generated repoRoot testPath (appPaths applications) listing.dirs tests := by
  intro h
  have hnone : generate repo repoTests "app/kfctl.yaml" [jupyter] strayListing (fun _ => none) =
      some [] := by
    rfl
  have happ : IsApp (appPaths [jupyter]) ("jupyter", resourceDir "base/crd.yaml") jupyter.path
      [("resources", .list [.str "base/crd.yaml"])] := ⟨by decide, by decide, rfl⟩
  obtain ⟨_, hmem, _⟩ := (h repo repoTests _ _ strayListing _ _ hnone).sourced _ (by
    rw [strayListing]
    exact List.mem_cons_of_mem _ List.mem_cons_self) _ _ happ
  cases hmem

theorem generate_iff_jupyter : ∃ tests,
    generate repo repoTests "app/kfctl.yaml" [jupyter] strayListing (fun _ => none) = some tests ∧
      (Generated repo repoTests (appPaths [jupyter]) strayListing.dirs tests ↔
        Holds repo repoTests (appPaths [jupyter]) (join (dirname "app/kfctl.yaml") ["kustomize"])
          (fun _ => none) strayListing.dirs) :=
  ⟨[], rfl, generate_iff _ _ _ _ _ _ _ rfl⟩

end Manifests.LegacyTests
