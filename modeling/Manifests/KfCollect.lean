import Manifests.KfParse

/-! `kf_collect.sh`: its commands work on text files in the current directory, while the cluster
changes. -/
namespace Manifests.KfCollect
open Library

/-- A directory of text files, each by its lines. -/
abbrev Dir := String → Option (List String)

/-- What `kubectl` prints about a cluster. -/
structure Cluster where
  namespaces : List String
  /-- The image names in everything of a namespace. -/
  images : String → List String
  /-- The ConfigMaps of a namespace as JSON. -/
  configMaps : String → List String

/-- The programs that the script calls, where it does not depend on what they do. -/
structure Tools where
  /-- The lines that `diff` marks with `>`, without the mark. -/
  diff : List String → List String → List String
  sort : List String → List String
  /-- What Python's `format` prints for a value. -/
  format : Value → String
  recursionLimit : Nat

def tmpBeforeInstall : String := "namespaces_before.txt"
def tmpAfterInstall : String := "namespaces_after.txt"
def fileImagesList : String := "images.txt"
def fileCmList : String := "cm_images.txt"
def fileKubeflowNsList : String := "kubeflow_ns_list.txt"
def fileImagesDescribe : String := "images_describe.txt"
def fileKubeflowImages : String := "kubeflow_images.txt"

/-- `cm-$ns.json`. -/
def cmFile (ns : String) : String := "cm-" ++ ns ++ ".json"

/-- `cat name`. -/
def cat (dir : Dir) (name : String) : List String := (dir name).getD []

def write (dir : Dir) (name : String) (lines : List String) : Dir :=
  Function.update dir name (some lines)

def append (dir : Dir) (name : String) (lines : List String) : Dir :=
  write dir name (cat dir name ++ lines)

/-- `rm -f name`. -/
def remove (dir : Dir) (name : String) : Dir := Function.update dir name none

def uniq (lines : List String) : List String := lines.destutter (· ≠ ·)

/-- `uniq -c`. -/
def uniqCount (lines : List String) : List String :=
  (lines.splitBy (· == ·)).map fun group =>
    String.ofList ((toString group.length).toList.leftpad 7 ' ') ++ " " ++ group.headD ""

/-- The text of a file. -/
def text (lines : List String) : String := String.join (lines.map (· ++ "\n"))

section
variable (tools : Tools) (cluster : Cluster)

/-- `kf_parse.py` on a dump. -/
def kfParse (dump : List String) : List String :=
  KfParse.mainOutput tools.format tools.recursionLimit (text dump)

def collectNs (dir : Dir) (name : String) : Dir := write dir name cluster.namespaces

/-- `diff`, `grep` and `awk`; without the first file there is only an error message. -/
def kubeflowNamespaces (dir : Dir) : List String :=
  match dir tmpBeforeInstall with
  | some before => (tools.diff before (cat dir tmpAfterInstall)).flatMap fun line => (Text.words line).take 1
  | none => []

/-- The lines that go to the list: `echo` prints an empty line when there are no words. -/
def namespaceLines (dir : Dir) : List String :=
  match kubeflowNamespaces tools dir with
  | [] => [""]
  | names => uniq (tools.sort names)

/-- The namespaces of the list. -/
def listedNamespaces (dir : Dir) : List String := (cat dir fileKubeflowNsList).flatMap Text.words

/-- The dump of a namespace is fetched unless it is there. -/
def fetch (dir : Dir) (ns : String) : Dir :=
  if (dir (cmFile ns)).isSome then dir else write dir (cmFile ns) (cluster.configMaps ns)

/-- The body of the loop of `scan_kf`. -/
def scanNamespace (dir : Dir) (ns : String) : Dir :=
  let dir := append dir fileImagesList (uniq (tools.sort (cluster.images ns)))
  let dir := fetch cluster dir ns
  append dir fileCmList (kfParse tools (cat dir (cmFile ns)))

/-- `scan_kf` up to its loop. -/
def startScan (dir : Dir) : Dir :=
  let dir := collectNs cluster dir tmpAfterInstall
  let dir := write dir fileKubeflowNsList (namespaceLines tools dir)
  let dir := write dir fileImagesList [""]
  let dir := write dir fileCmList [""]
  write dir fileImagesDescribe [""]

def scanKf (dir : Dir) : Dir :=
  let dir := startScan tools cluster dir
  let dir := (listedNamespaces dir).foldl (scanNamespace tools cluster) dir
  write dir fileKubeflowImages
    (uniqCount ((tools.sort (cat dir fileCmList ++ cat dir fileImagesList)).filter (· ≠ "")))

def scan (dir : Dir) : Dir :=
  if (dir tmpBeforeInstall).isSome then dir else collectNs cluster dir tmpBeforeInstall

def clear (dir : Dir) : Dir := remove dir tmpBeforeInstall

def clearKf (dir : Dir) : Dir :=
  let dir := remove dir tmpAfterInstall
  let dir := remove dir fileCmList
  let dir := (listedNamespaces dir).foldl (fun dir ns => remove dir (ns ++ ".json")) dir
  let dir := remove dir fileKubeflowNsList
  let dir := remove dir fileKubeflowImages
  remove dir fileImagesList

end

/-- The argument of the script. -/
inductive Command where
  | scan
  | scanKf
  | clear
  | clearKf
  deriving DecidableEq

/-- The script is called, or the cluster becomes another. -/
inductive Action where
  | command (command : Command)
  | change (cluster : Cluster)

structure State where
  dir : Dir
  cluster : Cluster

def step (tools : Tools) (s : State) : Action → State
  | .command .scan => { s with dir := scan s.cluster s.dir }
  | .command .scanKf => { s with dir := scanKf tools s.cluster s.dir }
  | .command .clear => { s with dir := clearKf (clear s.dir) }
  | .command .clearKf => { s with dir := clearKf s.dir }
  | .change cluster => { s with cluster := cluster }

def run (tools : Tools) (s : State) (actions : List Action) : State := actions.foldl (step tools) s

/-- The namespaces that `scan_kf` goes through. -/
def scanned (tools : Tools) (s : State) : List String :=
  listedNamespaces (startScan tools s.cluster s.dir)

/-- After a `clear` or `clear_kf` there was no `scan_kf` yet. -/
def AfterClear (actions : List Action) : Prop :=
  ∃ before command after, actions = before ++ .command command :: after ∧
    (command = .clear ∨ command = .clearKf) ∧ ∀ action ∈ after, action ≠ .command .scanKf

/-- The directory after some passes of the loop of `scan_kf`. -/
def afterPasses (tools : Tools) (s : State) (names : List String) : Dir :=
  names.foldl (scanNamespace tools s.cluster) (startScan tools s.cluster s.dir)

/-- Each pass of the loop appends the images of the ConfigMaps that its namespace has, and so the
lines of `cm_images.txt` are those of the ConfigMaps of the scanned namespaces. -/
structure ReportsCurrent (tools : Tools) (s : State) : Prop where
  passes : ∀ names ns rest, scanned tools s = names ++ ns :: rest →
    afterPasses tools s (names ++ [ns]) fileCmList =
      some (cat (afterPasses tools s names) fileCmList ++ kfParse tools (s.cluster.configMaps ns))
  file : scanKf tools s.cluster s.dir fileCmList =
    some ("" :: (scanned tools s).flatMap fun ns => kfParse tools (s.cluster.configMaps ns))

/-- No scanned namespace has a dump in the directory with other images than its ConfigMaps. -/
def Fresh (tools : Tools) (s : State) : Prop :=
  ∀ ns ∈ scanned tools s, ∀ dump, s.dir (cmFile ns) = some dump →
    kfParse tools dump = kfParse tools (s.cluster.configMaps ns)

/-- The dump that `scan_kf` parses for a namespace. -/
def usedDump (s : State) (ns : String) : List String :=
  (s.dir (cmFile ns)).getD (s.cluster.configMaps ns)

/-- The files with fixed names. -/
def fixedFiles : List String :=
  [tmpBeforeInstall, tmpAfterInstall, fileImagesList, fileCmList, fileKubeflowNsList,
    fileImagesDescribe, fileKubeflowImages]

variable {tools : Tools} {cluster : Cluster} {dir : Dir} {s : State} {name name' ns ns' : String}
  {lines acc names : List String} {action : Action} {actions : List Action} {dump : List String}

theorem json_ne (base : String) (h : name ∈ fixedFiles) : base ++ ".json" ≠ name := by
  rintro rfl
  have hlast : ∀ name ∈ fixedFiles, name.toList.getLast? = some 't' := by decide
  have ht := hlast _ h
  have hn : ".json".toList.getLast? = some 'n' := by decide
  rw [String.toList_append, List.getLast?_append, hn, Option.some_or] at ht
  revert ht
  decide

theorem cmFile_ne (h : name ∈ fixedFiles) : cmFile ns ≠ name := json_ne _ h

theorem cmFile_injective (h : cmFile ns = cmFile ns') : ns = ns' := by
  have hlist := congrArg String.toList h
  simp only [cmFile, String.toList_append] at hlist
  exact String.toList_injective (List.append_cancel_left (List.append_cancel_right hlist))

/-- The file that `clear_kf` removes for one namespace is the dump of another. -/
theorem json_eq_cmFile (h : ns' ++ ".json" = cmFile ns) : ns' = "cm-" ++ ns := by
  have hlist := congrArg String.toList h
  rw [cmFile, String.toList_append, String.toList_append] at hlist
  exact String.toList_injective (List.append_cancel_right hlist)

@[simp] theorem write_self : write dir name lines name = some lines := Function.update_self ..

theorem write_of_ne (h : name' ≠ name) : write dir name lines name' = dir name' :=
  Function.update_of_ne h ..

@[simp] theorem append_self : append dir name lines name = some (cat dir name ++ lines) :=
  write_self

theorem append_of_ne (h : name' ≠ name) : append dir name lines name' = dir name' := write_of_ne h

theorem remove_of_ne (h : name' ≠ name) : remove dir name name' = dir name' :=
  Function.update_of_ne h ..

/-- The start of a scan writes files with fixed names. -/
theorem startScan_cmFile : startScan tools cluster dir (cmFile ns) = dir (cmFile ns) := by
  unfold startScan collectNs
  iterate 5 rw [write_of_ne (cmFile_ne (by decide))]

theorem startScan_cmList : startScan tools cluster dir fileCmList = some [""] := by
  unfold startScan
  rw [write_of_ne (by decide), write_self]

theorem fetch_cmFile : fetch cluster dir ns (cmFile ns) =
    some ((dir (cmFile ns)).getD (cluster.configMaps ns)) := by
  unfold fetch
  cases h : dir (cmFile ns) with
  | none => exact write_self
  | some dump => exact h

theorem fetch_of_ne (h : name ≠ cmFile ns) : fetch cluster dir ns name = dir name := by
  unfold fetch
  split
  · rfl
  · exact write_of_ne h

/-- One pass of the loop leaves the dump of its namespace there, and no other changes. -/
theorem scanNamespace_cmFile : scanNamespace tools cluster dir ns (cmFile ns') =
    if ns' = ns then some ((dir (cmFile ns)).getD (cluster.configMaps ns)) else dir (cmFile ns') := by
  have himages : append dir fileImagesList (uniq (tools.sort (cluster.images ns))) (cmFile ns') =
      dir (cmFile ns') := append_of_ne (cmFile_ne (by decide))
  unfold scanNamespace
  rw [append_of_ne (cmFile_ne (by decide))]
  by_cases h : ns' = ns
  · subst h
    rw [if_pos rfl, fetch_cmFile, himages]
  · rw [if_neg h, fetch_of_ne fun heq => h (cmFile_injective heq), himages]

theorem scanNamespace_cmList (h : dir fileCmList = some acc) :
    scanNamespace tools cluster dir ns fileCmList =
      some (acc ++ kfParse tools ((dir (cmFile ns)).getD (cluster.configMaps ns))) := by
  have himages : append dir fileImagesList (uniq (tools.sort (cluster.images ns))) fileCmList =
      some acc := (append_of_ne (by decide)).trans h
  have hlist : fileCmList ≠ cmFile ns := (cmFile_ne (by decide)).symm
  have hfile : cmFile ns ≠ fileImagesList := cmFile_ne (by decide)
  unfold scanNamespace
  rw [append_self]
  simp only [cat, fetch_cmFile, fetch_of_ne hlist, himages, append_of_ne hfile, Option.getD_some]

/-- The loop parses the dumps that were there, and fetches the others. -/
theorem foldl_scanNamespace_cmList (h : dir fileCmList = some acc) :
    names.foldl (scanNamespace tools cluster) dir fileCmList = some (acc ++ names.flatMap fun ns =>
      kfParse tools ((dir (cmFile ns)).getD (cluster.configMaps ns))) := by
  induction names generalizing dir acc with
  | nil => simpa using h
  | cons ns names ih =>
    have hsame (ns' : String) : (scanNamespace tools cluster dir ns (cmFile ns')).getD
        (cluster.configMaps ns') = (dir (cmFile ns')).getD (cluster.configMaps ns') := by
      rw [scanNamespace_cmFile]
      split
      · next heq => rw [heq, Option.getD_some]
      · rfl
    rw [List.foldl_cons, ih (scanNamespace_cmList h)]
    simp only [hsame, List.flatMap_cons, List.append_assoc]

theorem foldl_scanNamespace_cmFile : names.foldl (scanNamespace tools cluster) dir (cmFile ns) =
    if ns ∈ names then some ((dir (cmFile ns)).getD (cluster.configMaps ns)) else dir (cmFile ns) := by
  induction names generalizing dir with
  | nil => rfl
  | cons ns' names ih =>
    rw [List.foldl_cons, ih, scanNamespace_cmFile]
    by_cases heq : ns = ns'
    · subst heq
      simp
    · simp [heq]

/-- What `scan_kf` writes about the ConfigMaps. -/
theorem scanKf_cmList : scanKf tools s.cluster s.dir fileCmList =
    some ("" :: (scanned tools s).flatMap fun ns => kfParse tools (usedDump s ns)) := by
  unfold scanKf
  rw [write_of_ne (by decide), foldl_scanNamespace_cmList startScan_cmList]
  simp only [startScan_cmFile]
  rfl

/-- The dumps after `scan_kf`. -/
theorem scanKf_cmFile : scanKf tools s.cluster s.dir (cmFile ns) =
    if ns ∈ scanned tools s then some (usedDump s ns) else s.dir (cmFile ns) := by
  unfold scanKf
  rw [write_of_ne (cmFile_ne (by decide)), foldl_scanNamespace_cmFile, startScan_cmFile]
  rfl

theorem listed_remove (name : String) (h : name ≠ fileKubeflowNsList) :
    listedNamespaces (remove dir name) = listedNamespaces dir := by
  rw [listedNamespaces, listedNamespaces, cat, cat, remove_of_ne h.symm]

/-- A namespace whose dump is there is reported with the images of that dump. -/
theorem fresh_iff : Fresh tools s ↔ ∀ ns ∈ scanned tools s,
    kfParse tools (usedDump s ns) = kfParse tools (s.cluster.configMaps ns) := by
  apply forall₂_congr
  intro ns _
  rw [usedDump]
  cases s.dir (cmFile ns) with
  | none => simp
  | some dump => simp

/-- A pass of the loop appends the images of the dump that was there before the scan. -/
theorem pass_cmList : afterPasses tools s (names ++ [ns]) fileCmList =
    some (cat (afterPasses tools s names) fileCmList ++ kfParse tools (usedDump s ns)) := by
  unfold afterPasses cat
  simp only [foldl_scanNamespace_cmList startScan_cmList, startScan_cmFile, Option.getD_some]
  simp only [List.flatMap_append, List.flatMap_singleton, List.append_assoc]
  rfl

theorem reportsCurrent_iff : ReportsCurrent tools s ↔ Fresh tools s := by
  rw [fresh_iff]
  constructor
  · intro h ns hns
    obtain ⟨names, rest, hsplit⟩ := List.append_of_mem hns
    have hpass := h.passes names ns rest hsplit
    rw [pass_cmList, Option.some.injEq] at hpass
    exact List.append_cancel_left hpass
  · intro h
    constructor
    · intro names ns rest hsplit
      rw [pass_cmList, h ns (by simp [hsplit])]
    · rw [scanKf_cmList, List.flatMap_congr h]

/-- A scan after a clear, with the namespaces from before the installation. -/
def Rescan (tools : Tools) (s : State) (before : List Action) : Prop :=
  AfterClear before ∧ ((run tools s before).dir tmpBeforeInstall).isSome = true

/-- In a run, the scans after a clear report the ConfigMaps of their moment exactly when they find
no dump with other images than the ConfigMaps have. -/
theorem rescans_current_iff (tools : Tools) (s : State) (actions : List Action) :
    (∀ before after, actions = before ++ .command .scanKf :: after → Rescan tools s before →
      ReportsCurrent tools (run tools s before)) ↔
    ∀ before after, actions = before ++ .command .scanKf :: after → Rescan tools s before →
      Fresh tools (run tools s before) := by
  constructor
  · intro h before after hactions hrescan
    exact reportsCurrent_iff.mp (h before after hactions hrescan)
  · intro h before after hactions hrescan
    exact reportsCurrent_iff.mpr (h before after hactions hrescan)

def plainTools : Tools where
  diff before after := after.filter (· ∉ before)
  sort lines := lines
  format _ := ""
  recursionLimit := 1000

/-- A cluster in which the namespace `kubeflow` has one ConfigMap, with one image. -/
def clusterWith (image : String) : Cluster where
  namespaces := ["default", "kubeflow"]
  images _ := []
  configMaps _ := ["\x7b\"data\": \x7b\"image\": \"" ++ image ++ "\"\x7d\x7d"]

/-- An empty directory before the installation. -/
def beforeInstall : State := ⟨fun _ => none, ⟨["default"], fun _ => [], fun _ => []⟩⟩

/-- A scan, a clear, and then another image. -/
def imageChanges : List Action :=
  [.command .scan, .change (clusterWith "a:1"), .command .scanKf, .command .clearKf,
    .change (clusterWith "b:1")]

theorem rescan_imageChanges : Rescan plainTools beforeInstall imageChanges := by
  constructor
  · refine ⟨[.command .scan, .change (clusterWith "a:1"), .command .scanKf], .clearKf,
      [.change (clusterWith "b:1")], rfl, Or.inr rfl, ?_⟩
    simp
  · decide +kernel

/-- The second scan reports the image of the first. -/
theorem not_rescans_current : ¬ ∀ (tools : Tools) (s : State) (before : List Action),
    Rescan tools s before → ReportsCurrent tools (run tools s before) := by
  intro h
  have hfresh := reportsCurrent_iff.mp (h plainTools beforeInstall imageChanges rescan_imageChanges)
  have hscanned : "kubeflow" ∈ scanned plainTools (run plainTools beforeInstall imageChanges) := by
    decide +kernel
  have hdump : (run plainTools beforeInstall imageChanges).dir (cmFile "kubeflow") =
      some ((clusterWith "a:1").configMaps "kubeflow") := by decide +kernel
  have himages := hfresh _ hscanned _ hdump
  revert himages
  decide +kernel

end Manifests.KfCollect
