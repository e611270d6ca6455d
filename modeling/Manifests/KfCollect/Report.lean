import Manifests.KfCollect
import Manifests.Library.Diff
import Manifests.Library.Tally

/-! What the files of `kf_collect.sh` stand for over a whole run, and what `scan_kf` reports. -/
namespace Manifests.KfCollect
open Library Diff Tally

/-- One of the lines of a namespace stands more often in the second list than in the first. Both files
end without a newline, and so the last line is another than one with the same name and a newline. -/
def CountsAsNew (before now : List String) (ns : String) : Prop :=
  ∃ last, (openEnded before).count ⟨ns, last⟩ < (openEnded now).count ⟨ns, last⟩

instance (before now : List String) : DecidablePred (CountsAsNew before now) :=
  fun _ => inferInstanceAs (Decidable (∃ _, _))

example : CountsAsNew ["apps", "default"] ["apps", "default", "kubeflow"] "default" := by decide

example : ¬ CountsAsNew ["apps", "default"] ["apps", "default", "kubeflow"] "apps" := by decide

/-- The namespaces that have come since the first scan. -/
def newNamespaces (baseline : Option (List String)) (cluster : Cluster) : Finset String :=
  match baseline with
  | none => ∅
  | some before => cluster.namespaces.toFinset.filter (CountsAsNew before cluster.namespaces)

/-- What the script remembers: the namespaces of the first scan, those that the last `scan_kf` went
through, and the ConfigMaps it has fetched. -/
structure Ledger where
  baseline : Option (List String)
  listed : Finset String
  dumps : String → Option (List String)

/-- A dump goes when a listed namespace has its name. -/
def Ledger.dropped (l : Ledger) (ns : String) : Option (List String) :=
  if "cm-" ++ ns ∈ l.listed then none else l.dumps ns

/-- What a command does to the ledger. -/
def Ledger.step (cluster : Cluster) (l : Ledger) : Command → Ledger
  | .scan => { l with baseline := l.baseline.or (some cluster.namespaces) }
  | .scanKf =>
    let names := newNamespaces l.baseline cluster
    { l with
      listed := names
      dumps := fun ns =>
        if ns ∈ names then some ((l.dumps ns).getD (cluster.configMaps ns)) else l.dumps ns }
  | .clear => { baseline := none, listed := ∅, dumps := l.dropped }
  | .clearKf => { l with listed := ∅, dumps := l.dropped }

/-- The ledger after a run. -/
def Ledger.run (cluster : Cluster) (l : Ledger) : List Action → Ledger
  | [] => l
  | .change cluster :: actions => Ledger.run cluster l actions
  | .command command :: actions => Ledger.run cluster (l.step cluster command) actions

/-- The ledger that a directory stands for. -/
def ledger (dir : Dir) : Ledger :=
  ⟨dir tmpBeforeInstall, (listedNamespaces dir).toFinset, fun ns => dir (cmFile ns)⟩

/-- How often an image is found: in everything that runs in the new namespaces, and in their dumps. -/
def occurrences (tools : Tools) (cluster : Cluster) (l : Ledger) (image : String) : Nat :=
  ∑ ns ∈ newNamespaces l.baseline cluster,
    ((if image ∈ cluster.images ns then 1 else 0) +
      (kfParse tools ((l.dumps ns).getD (cluster.configMaps ns))).count image)

/-- What `diff` does with two such files. -/
def Diffs (diff : List String → List String → List String) : Prop :=
  ∀ before now, ∃ marked, Marks (openEnded before) (openEnded now) marked ∧
    diff before now = marked.map Line.text

/-- A list of namespaces as `kubectl` prints it: in the order of the names, and each name a word. -/
structure InOrder (names : List String) : Prop where
  sorted : names.Pairwise (· ≤ ·)
  words : ∀ ns ∈ names, Text.words ns = [ns]

theorem InOrder.sublist {l names : List String} (h : InOrder names) (hsub : l.Sublist names) :
    InOrder l :=
  ⟨h.sorted.sublist hsub, fun ns hns => h.words ns (hsub.subset hns)⟩

/-- The list of the cluster and that of the first scan. -/
structure ListsInOrder (s : State) : Prop where
  now : InOrder s.cluster.namespaces
  before : ∀ names, s.dir tmpBeforeInstall = some names → InOrder names

/-- The lists at the start, and those of the clusters that come. -/
structure RunInOrder (s : State) (actions : List Action) : Prop where
  start : ListsInOrder s
  changes : ∀ cluster, .change cluster ∈ actions → InOrder cluster.namespaces

/-- A line of `uniq -c`. -/
def countLine (n : Nat) (line : String) : String :=
  String.ofList ((toString n).toList.leftpad 7 ' ') ++ " " ++ line

section
variable {tools : Tools} {cluster : Cluster} {dir : Dir} {s : State} {ns name image : String}
  {names lines acc : List String} {action : Action} {actions : List Action}
  {le : String → String → Prop} {before now : List String}

theorem scanned_lines : scanned tools s =
    (namespaceLines tools (collectNs s.cluster s.dir tmpAfterInstall)).flatMap Text.words := by
  have hlines : startScan tools s.cluster s.dir fileKubeflowNsList =
      some (namespaceLines tools (collectNs s.cluster s.dir tmpAfterInstall)) := by
    unfold startScan
    iterate 3 rw [write_of_ne (by decide)]
    exact write_self
  rw [scanned, listedNamespaces, cat, hlines, Option.getD_some]

theorem words_blank : Text.words "" = [] := by decide +kernel

theorem scanned_none (hbefore : s.dir tmpBeforeInstall = none) : scanned tools s = [] := by
  have hsame : collectNs s.cluster s.dir tmpAfterInstall tmpBeforeInstall = none :=
    (write_of_ne (by decide)).trans hbefore
  rw [scanned_lines, namespaceLines, kubeflowNamespaces, hsame]
  simp [words_blank]

/-- The loop goes through the marked names, sorted. -/
theorem scanned_some (hsort : Sorts le tools.sort) (hbefore : s.dir tmpBeforeInstall = some before) :
    scanned tools s = (uniq (tools.sort ((tools.diff before s.cluster.namespaces).flatMap fun line =>
      (Text.words line).take 1))).flatMap Text.words := by
  have hsame : collectNs s.cluster s.dir tmpAfterInstall tmpBeforeInstall = some before :=
    (write_of_ne (by decide)).trans hbefore
  have hafter : cat (collectNs s.cluster s.dir tmpAfterInstall) tmpAfterInstall =
      s.cluster.namespaces := by
    rw [cat, collectNs, write_self, Option.getD_some]
  rw [scanned_lines, namespaceLines, kubeflowNamespaces, hsame, hafter]
  dsimp only
  generalize (tools.diff before s.cluster.namespaces).flatMap _ = names
  cases names with
  | nil => simp [words_blank, uniq, List.Perm.eq_nil (hsort.perm [])]
  | cons name names => rfl

/-- `diff` marks the namespaces that count as new. -/
theorem mem_diff (hdiff : Diffs tools.diff) (hbefore : InOrder before) (hnow : InOrder now) :
    ns ∈ tools.diff before now ↔ CountsAsNew before now ns := by
  obtain ⟨marked, hmarks, heq⟩ := hdiff before now
  rw [heq, List.mem_map]
  constructor
  · rintro ⟨line, hline, rfl⟩
    refine ⟨line.last, ?_⟩
    exact (hmarks.mem_iff (openEnded_sorted hbefore.sorted) (openEnded_sorted hnow.sorted)).mp hline
  · rintro ⟨last, hcount⟩
    refine ⟨⟨ns, last⟩, ?_, rfl⟩
    exact (hmarks.mem_iff (openEnded_sorted hbefore.sorted) (openEnded_sorted hnow.sorted)).mpr hcount

theorem CountsAsNew.mem (h : CountsAsNew before now ns) : ns ∈ now := by
  obtain ⟨last, hcount⟩ := h
  have hline : (⟨ns, last⟩ : Line String) ∈ openEnded now := List.count_pos_iff.mp (by omega)
  rw [← map_openEnded (l := now)]
  exact List.mem_map_of_mem hline

/-- `scan_kf` goes through the new namespaces, each once. -/
theorem scanned_new (hsort : Sorts le tools.sort) (hdiff : Diffs tools.diff) (h : ListsInOrder s) :
    (scanned tools s).Nodup ∧
      (scanned tools s).toFinset = newNamespaces (s.dir tmpBeforeInstall) s.cluster := by
  cases hbefore : s.dir tmpBeforeInstall with
  | none => simp [scanned_none hbefore, newNamespaces]
  | some before =>
    have hmem (ns : String) : ns ∈ tools.diff before s.cluster.namespaces ↔
        CountsAsNew before s.cluster.namespaces ns := mem_diff hdiff (h.before _ hbefore) h.now
    have hword (ns : String) (hns : ns ∈ tools.diff before s.cluster.namespaces) :
        Text.words ns = [ns] := h.now.words _ ((hmem ns).mp hns).mem
    have hfirst : (tools.diff before s.cluster.namespaces).flatMap (fun line =>
        (Text.words line).take 1) = tools.diff before s.cluster.namespaces := by
      have hone (ns : String) (hns : ns ∈ tools.diff before s.cluster.namespaces) :
          (Text.words ns).take 1 = [ns] := by rw [hword ns hns]; rfl
      rw [List.flatMap_congr hone, List.flatMap_singleton']
    have hnames : scanned tools s = uniq (tools.sort (tools.diff before s.cluster.namespaces)) := by
      have hone (ns : String) (hns : ns ∈ uniq (tools.sort (tools.diff before s.cluster.namespaces))) :
          Text.words ns = [ns] := hword ns (hsort.mem_uniq.mp hns)
      rw [scanned_some hsort hbefore, hfirst, List.flatMap_congr hone, List.flatMap_singleton']
    rw [hnames]
    refine ⟨hsort.nodup_uniq _, Finset.ext fun ns => ?_⟩
    rw [List.mem_toFinset, uniq, hsort.mem_uniq, hmem, newNamespaces, Finset.mem_filter,
      List.mem_toFinset]
    exact ⟨fun hnew => ⟨hnew.mem, hnew⟩, fun hnew => hnew.2⟩

/-- Each pass of the loop writes the two lists and one dump. -/
theorem foldl_scanNamespace_other (himages : name ≠ fileImagesList) (hlist : name ≠ fileCmList)
    (hdump : ∀ ns, name ≠ cmFile ns) :
    names.foldl (scanNamespace tools cluster) dir name = dir name := by
  induction names generalizing dir with
  | nil => rfl
  | cons ns names ih =>
    rw [List.foldl_cons, ih, scanNamespace, append_of_ne hlist, fetch_of_ne (hdump ns),
      append_of_ne himages]

theorem scanKf_tmpBeforeInstall : scanKf tools cluster dir tmpBeforeInstall = dir tmpBeforeInstall := by
  rw [scanKf, write_of_ne (by decide), foldl_scanNamespace_other (by decide) (by decide)
    fun ns => (cmFile_ne (by decide)).symm]
  unfold startScan collectNs
  iterate 5 rw [write_of_ne (by decide)]

theorem scanKf_listed : listedNamespaces (scanKf tools s.cluster s.dir) = scanned tools s := by
  have hsame : scanKf tools s.cluster s.dir fileKubeflowNsList =
      startScan tools s.cluster s.dir fileKubeflowNsList := by
    rw [scanKf, write_of_ne (by decide), foldl_scanNamespace_other (by decide) (by decide)
      fun ns => (cmFile_ne (by decide)).symm]
  rw [listedNamespaces, cat, hsame, scanned, listedNamespaces, cat]

theorem foldl_remove_json : names.foldl (fun dir ns => remove dir (ns ++ ".json")) dir (cmFile ns) =
    if "cm-" ++ ns ∈ names then none else dir (cmFile ns) := by
  induction names generalizing dir with
  | nil => rfl
  | cons ns' names ih =>
    rw [List.foldl_cons, ih]
    by_cases heq : "cm-" ++ ns = ns'
    · subst heq
      have hremoved : remove dir ("cm-" ++ ns ++ ".json") (cmFile ns) = none := Function.update_self ..
      simp [hremoved]
    · have hkept : remove dir (ns' ++ ".json") (cmFile ns) = dir (cmFile ns) :=
        remove_of_ne fun hfile => heq (json_eq_cmFile hfile.symm).symm
      simp [heq, hkept]

theorem foldl_remove_fixed (h : name ∈ fixedFiles) :
    names.foldl (fun dir ns => remove dir (ns ++ ".json")) dir name = dir name := by
  induction names generalizing dir with
  | nil => rfl
  | cons ns names ih => rw [List.foldl_cons, ih, remove_of_ne (json_ne ns h).symm]

/-- What `clear_kf` leaves of the dumps. -/
theorem clearKf_dump : clearKf dir (cmFile ns) = (ledger dir).dropped ns := by
  unfold clearKf
  iterate 3 rw [remove_of_ne (cmFile_ne (by decide))]
  rw [foldl_remove_json, listed_remove _ (by decide), listed_remove _ (by decide)]
  iterate 2 rw [remove_of_ne (cmFile_ne (by decide))]
  simp only [Ledger.dropped, ledger, List.mem_toFinset]

theorem clearKf_listed : listedNamespaces (clearKf dir) = [] := by
  have hnone : clearKf dir fileKubeflowNsList = none := by
    unfold clearKf
    iterate 2 rw [remove_of_ne (by decide)]
    exact Function.update_self ..
  rw [listedNamespaces, cat, hnone]
  rfl

theorem clearKf_tmpBeforeInstall : clearKf dir tmpBeforeInstall = dir tmpBeforeInstall := by
  unfold clearKf
  iterate 3 rw [remove_of_ne (by decide)]
  rw [foldl_remove_fixed (by decide)]
  iterate 2 rw [remove_of_ne (by decide)]

/-- Each command does to the ledger of the directory what it does to the files. -/
theorem ledger_step (hsort : Sorts le tools.sort) (hdiff : Diffs tools.diff) (h : ListsInOrder s)
    (command : Command) :
    ledger (step tools s (.command command)).dir = (ledger s.dir).step s.cluster command := by
  cases command with
  | scan =>
    cases hbefore : s.dir tmpBeforeInstall with
    | some before => simp [step, scan, ledger, Ledger.step, hbefore]
    | none =>
      have hother (name : String) (hne : name ≠ tmpBeforeInstall) :
          collectNs s.cluster s.dir tmpBeforeInstall name = s.dir name := write_of_ne hne
      have hdumps (ns : String) :
          collectNs s.cluster s.dir tmpBeforeInstall (cmFile ns) = s.dir (cmFile ns) :=
        hother _ (cmFile_ne (by decide))
      have hself : collectNs s.cluster s.dir tmpBeforeInstall tmpBeforeInstall =
          some s.cluster.namespaces := write_self
      have hlist := hother fileKubeflowNsList (by decide)
      simp [step, scan, ledger, Ledger.step, listedNamespaces, cat, hbefore, hself, hlist, hdumps]
  | scanKf =>
    have hnew := (scanned_new hsort hdiff h).2
    have hdumps (ns : String) : scanKf tools s.cluster s.dir (cmFile ns) =
        if ns ∈ newNamespaces (s.dir tmpBeforeInstall) s.cluster then
          some ((s.dir (cmFile ns)).getD (s.cluster.configMaps ns)) else s.dir (cmFile ns) := by
      rw [scanKf_cmFile, ← hnew, usedDump]
      simp only [List.mem_toFinset]
    simp only [step, ledger, Ledger.step, scanKf_tmpBeforeInstall, scanKf_listed, hnew, hdumps]
    rfl
  | clear =>
    have hbefore : clear s.dir tmpBeforeInstall = none := by
      rw [clear, remove, Function.update_self]
    have hlisted : listedNamespaces (clear s.dir) = listedNamespaces s.dir := listed_remove _ (by decide)
    have hdumps (ns : String) : clearKf (clear s.dir) (cmFile ns) = (ledger s.dir).dropped ns := by
      have hne : cmFile ns ≠ tmpBeforeInstall := cmFile_ne (by decide)
      rw [clearKf_dump, Ledger.dropped, Ledger.dropped, ledger, ledger, hlisted]
      simp only [clear, remove_of_ne hne]
    simp only [step, ledger, Ledger.step, clearKf_tmpBeforeInstall, clearKf_listed, hbefore, hdumps,
      List.toFinset_nil]
  | clearKf =>
    simp only [step, ledger, Ledger.step, clearKf_tmpBeforeInstall, clearKf_listed, clearKf_dump,
      List.toFinset_nil]

/-- The first scan writes the list of the cluster; no other command writes one. -/
theorem ListsInOrder.step (h : ListsInOrder s) (command : Command) :
    ListsInOrder (step tools s (.command command)) := by
  have hcluster : (KfCollect.step tools s (.command command)).cluster = s.cluster := by
    cases command <;> rfl
  refine ⟨hcluster ▸ h.now, fun names hnames => ?_⟩
  cases command with
  | scan =>
    cases hbefore : s.dir tmpBeforeInstall with
    | some before =>
      have hsame : scan s.cluster s.dir = s.dir := by simp [scan, hbefore]
      exact h.before names (by rw [← hsame]; exact hnames)
    | none =>
      have hscan : scan s.cluster s.dir tmpBeforeInstall = some s.cluster.namespaces := by
        simp [scan, hbefore, collectNs]
      obtain rfl : s.cluster.namespaces = names := Option.some.inj (hscan.symm.trans hnames)
      exact h.now
  | scanKf => exact h.before names (scanKf_tmpBeforeInstall.symm.trans hnames)
  | clear =>
    have hnone : clearKf (clear s.dir) tmpBeforeInstall = none := by
      rw [clearKf_tmpBeforeInstall, clear, remove, Function.update_self]
    cases hnone.symm.trans hnames
  | clearKf => exact h.before names (clearKf_tmpBeforeInstall.symm.trans hnames)

/-- Over a run too, and the lists stay in order. -/
theorem ledger_run (hsort : Sorts le tools.sort) (hdiff : Diffs tools.diff) (h : RunInOrder s actions) :
    ListsInOrder (run tools s actions) ∧
      ledger (run tools s actions).dir = (ledger s.dir).run s.cluster actions := by
  induction actions generalizing s with
  | nil => exact ⟨h.start, rfl⟩
  | cons action actions ih =>
    have hrest (cluster : Cluster) (hmem : Action.change cluster ∈ actions) :
        InOrder cluster.namespaces := h.changes cluster (List.mem_cons_of_mem _ hmem)
    cases action with
    | change cluster => exact ih ⟨⟨h.changes cluster List.mem_cons_self, h.start.before⟩, hrest⟩
    | command command =>
      have hcluster : (step tools s (.command command)).cluster = s.cluster := by cases command <;> rfl
      have hrun := ih (s := step tools s (.command command)) ⟨h.start.step command, hrest⟩
      rw [ledger_step hsort hdiff h.start, hcluster] at hrun
      exact hrun

/-- The loop appends the images that are in use in each namespace. -/
theorem foldl_scanNamespace_images (h : dir fileImagesList = some acc) :
    names.foldl (scanNamespace tools cluster) dir fileImagesList =
      some (acc ++ names.flatMap fun ns => uniq (tools.sort (cluster.images ns))) := by
  induction names generalizing dir acc with
  | nil => simpa using h
  | cons ns names ih =>
    have hpass : scanNamespace tools cluster dir ns fileImagesList =
        some (acc ++ uniq (tools.sort (cluster.images ns))) := by
      have hne : fileImagesList ≠ cmFile ns := (cmFile_ne (by decide)).symm
      rw [scanNamespace, append_of_ne (by decide), fetch_of_ne hne, append_self, cat, h, Option.getD_some]
    rw [List.foldl_cons, ih hpass, List.flatMap_cons, List.append_assoc]

/-- All lines that the report is made of. -/
def foundLines (tools : Tools) (s : State) : List String :=
  ("" :: (scanned tools s).flatMap fun ns => kfParse tools (usedDump s ns)) ++
    "" :: (scanned tools s).flatMap fun ns => uniq (tools.sort (s.cluster.images ns))

theorem scanKf_report : scanKf tools s.cluster s.dir fileKubeflowImages =
    some (uniqCount ((tools.sort (foundLines tools s)).filter (· ≠ ""))) := by
  have hstart : startScan tools s.cluster s.dir fileImagesList = some [""] := by
    unfold startScan
    rw [write_of_ne (by decide), write_of_ne (by decide), write_self]
  have himages : (scanned tools s).foldl (scanNamespace tools s.cluster)
      (startScan tools s.cluster s.dir) fileImagesList = some ("" :: (scanned tools s).flatMap fun ns =>
        uniq (tools.sort (s.cluster.images ns))) := foldl_scanNamespace_images hstart
  have hlist : (scanned tools s).foldl (scanNamespace tools s.cluster)
      (startScan tools s.cluster s.dir) fileCmList = some ("" :: (scanned tools s).flatMap fun ns =>
        kfParse tools (usedDump s ns)) := by
    rw [foldl_scanNamespace_cmList startScan_cmList]
    simp only [startScan_cmFile]
    rfl
  rw [scanKf, write_self, cat, cat, ← scanned, himages, hlist, Option.getD_some, Option.getD_some,
    foundLines]

/-- How often an image stands in the lines. -/
theorem count_foundLines (hsort : Sorts le tools.sort) (hdiff : Diffs tools.diff) (h : ListsInOrder s)
    (hne : image ≠ "") :
    (foundLines tools s).count image = occurrences tools s.cluster (ledger s.dir) image := by
  have huniq (ns : String) : (uniq (tools.sort (s.cluster.images ns))).count image =
      if image ∈ s.cluster.images ns then 1 else 0 := by
    rw [uniq, (hsort.nodup_uniq _).count]
    simp only [hsort.mem_uniq]
  obtain ⟨hnodup, hnew⟩ := scanned_new hsort hdiff h
  rw [foundLines, List.count_append, List.count_cons_of_ne hne.symm, List.count_cons_of_ne hne.symm,
    List.count_flatMap, List.count_flatMap, occurrences, ledger, ← hnew, List.sum_toFinset _ hnodup,
    List.sum_map_add, Nat.add_comm]
  simp only [Function.comp_def, huniq]
  rfl

/-- What `uniq -c` makes of sorted lines. -/
theorem uniqCount_sorted (hsort : Sorts le tools.sort) (hsorted : lines.Pairwise le) :
    uniqCount lines = (uniq lines).map fun line => countLine (lines.count line) line := by
  rw [uniqCount, splitBy_sorted hsort.refl hsort.antisymm hsorted, List.map_map, uniq]
  refine List.map_congr_left fun line hline => ?_
  have hpos : 0 < lines.count line := List.count_pos_iff.mpr (mem_destutter.mp hline)
  obtain ⟨n, hn⟩ := Nat.exists_eq_succ_of_ne_zero hpos.ne'
  simp [countLine, hn, List.replicate_succ]

/-- After any run `scan_kf` reports each image of the new namespaces once, in order, and counts how
often it is found: new since the first scan that no `clear` has made forgotten, and with the ConfigMaps
that were fetched first. -/
theorem run_report (hsort : Sorts le tools.sort) (hdiff : Diffs tools.diff) (actions : List Action)
    (hlists : RunInOrder s actions) :
    let found := occurrences tools (run tools s actions).cluster ((ledger s.dir).run s.cluster actions)
    ∃ images : List String, images.Nodup ∧ images.Pairwise le ∧
      (∀ image, image ∈ images ↔ image ≠ "" ∧ 0 < found image) ∧
      (step tools (run tools s actions) (.command .scanKf)).dir fileKubeflowImages =
        some (images.map fun image => countLine (found image) image) := by
  intro found
  obtain ⟨hend, hledger⟩ := ledger_run hsort hdiff hlists
  have hfound (image : String) (h : image ≠ "") :
      (foundLines tools (run tools s actions)).count image = found image := by
    rw [count_foundLines hsort hdiff hend h, hledger]
  let sorted := tools.sort (foundLines tools (run tools s actions))
  have hperm : sorted.Perm (foundLines tools (run tools s actions)) := hsort.perm _
  have hsorted : (sorted.filter (· ≠ "")).Pairwise le := (hsort.sorted _).filter _
  have hcount (image : String) (h : image ≠ "") : (sorted.filter (· ≠ "")).count image = found image := by
    rw [List.count_filter (by simpa using h), hperm.count_eq, hfound image h]
  have huniq : (uniq (sorted.filter (· ≠ ""))).Pairwise le :=
    hsorted.sublist (List.destutter_sublist _ _)
  refine ⟨uniq (sorted.filter (· ≠ "")), ?_, huniq, fun image => ?_, ?_⟩
  · exact nodup_of_isChain hsort.antisymm (List.isChain_destutter _ _) huniq
  · rw [uniq, mem_destutter]
    constructor
    · intro hmem
      have hne : image ≠ "" := by simpa using (List.mem_filter.mp hmem).2
      exact ⟨hne, by rw [← hcount image hne]; exact List.count_pos_iff.mpr hmem⟩
    · rintro ⟨hne, hpos⟩
      rw [← hcount image hne] at hpos
      exact List.count_pos_iff.mp hpos
  · refine scanKf_report.trans (congrArg some ?_)
    rw [uniqCount_sorted hsort hsorted]
    refine List.map_congr_left fun image hmem => ?_
    have hne : image ≠ "" := by simpa using (List.mem_filter.mp (mem_destutter.mp hmem)).2
    rw [hcount image hne]

/-- `sort` in the order of the characters, and a `diff` that keeps as many lines as it can. -/
def sortingTools : Tools :=
  { plainTools with
    diff := fun before now =>
      ((openEnded now).diff (longest (openEnded before) (openEnded now))).map Line.text
    sort := List.insertionSort (· ≤ ·) }

theorem sorts_sortingTools : Sorts (· ≤ ·) sortingTools.sort where
  refl := le_refl
  antisymm _ _ := le_antisymm
  perm := List.perm_insertionSort _
  sorted := List.pairwise_insertionSort _

theorem diffs_sortingTools : Diffs sortingTools.diff := fun _ _ => ⟨_, marks_longest, rfl⟩

/-- A cluster with an image in each namespace, and another in its ConfigMaps. -/
def running (namespaces : List String) : Cluster where
  namespaces := namespaces
  images ns := ["istio/proxy:1", ns ++ "/app:1"]
  configMaps := (clusterWith "a:1").configMaps

/-- A scan, an installation, and a second scan after a `clear_kf`. -/
def installation : List Action :=
  [.command .scan, .change (running ["apps", "default", "kubeflow"]), .command .scanKf,
    .command .clearKf, .change (running ["apps", "default", "kubeflow", "monitoring"])]

theorem inOrder_installed : InOrder ["apps", "default", "kubeflow", "monitoring"] where
  sorted := by decide
  words := by decide +kernel

theorem runInOrder_installation :
    RunInOrder ⟨fun _ => none, running ["apps", "default"]⟩ installation where
  start := ⟨inOrder_installed.sublist (by decide), nofun⟩
  changes cluster h := by
    simp only [installation, List.mem_cons, reduceCtorEq, Action.change.injEq, List.not_mem_nil, or_false,
      false_or] at h
    obtain rfl | rfl := h
    · exact inOrder_installed.sublist (by decide)
    · exact inOrder_installed

/-- The namespace that was the last of the first scan counts as new. -/
theorem run_report_installation :
    newNamespaces (some ["apps", "default"]) (running ["apps", "default", "kubeflow", "monitoring"]) =
      ["default", "kubeflow", "monitoring"].toFinset ∧
    let s : State := ⟨fun _ => none, running ["apps", "default"]⟩
    let found := occurrences sortingTools (run sortingTools s installation).cluster
      ((ledger s.dir).run s.cluster installation)
    ∃ images : List String, images.Nodup ∧ images.Pairwise (· ≤ ·) ∧
      (∀ image, image ∈ images ↔ image ≠ "" ∧ 0 < found image) ∧
      (step sortingTools (run sortingTools s installation) (.command .scanKf)).dir
        fileKubeflowImages = some (images.map fun image => countLine (found image) image) :=
  ⟨by decide, run_report sorts_sortingTools diffs_sortingTools installation runInOrder_installation⟩

end
end Manifests.KfCollect
