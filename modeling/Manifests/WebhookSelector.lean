import Manifests.Kyaml
import Manifests.Validators

/-! `TestCheckWebhookSelector`: it reports the mutating webhooks on pods that have no selector, and
looks for pods in the resources as they are written. -/
namespace Manifests.WebhookSelector
open Kyaml Library
open Text (isWhiteSpace trimSpace)

/-- `Path %v; resource %v; does not have objectSelector or namespaceSelector is for mutating webhook
on pods`. -/
structure Report where
  path : Path
  resource : String
  deriving Repr, DecidableEq

section
variable {ν : Type} (kyaml : Kyaml ν)

/-- What a loop over the elements of a field goes over: nothing when the field is missing or no
sequence. -/
def fieldElements (n : ν) (key : String) : List ν :=
  match kyaml.field n key with
  | none => []
  | some value => (kyaml.elements value).getD []

/-- `strings.TrimSpace(resourceString) == "pods" || strings.TrimSpace(resourceString) == "*"`. -/
def isPods (resource : ν) : Bool :=
  match kyaml.string resource with
  | none => false
  | some resourceString =>
    trimSpace resourceString.toList = "pods".toList || trimSpace resourceString.toList = "*".toList

/-- One report for each resource of the rule that is pods. -/
def checkRule (report : Report) (rule : ν) : List Report :=
  ((fieldElements kyaml rule "resources").filter (isPods kyaml)).map fun _ => report

def checkWebhook (report : Report) (w : ν) : List Report :=
  if kyaml.isFieldEmpty (kyaml.field w "namespaceSelector") &&
      kyaml.isFieldEmpty (kyaml.field w "objectSelector") then
    (fieldElements kyaml w "rules").flatMap (checkRule kyaml report)
  else []

/-- What the test reports at a document of a file. -/
def testCheckWebhookSelector (path : Path) (n : ν) : List Report :=
  match kyaml.getMeta n with
  | none => []
  | some m =>
    if m.name = "" ∨ m.kind = "" then []
    else if Validators.toLower m.kind ≠ "mutatingwebhookconfiguration" then []
    else (fieldElements kyaml n "webhooks").flatMap (checkWebhook kyaml ⟨path, m.name⟩)

end

section
variable {ν : Type} (shape : ν → Shape ν) (see : ν → ν)

/-- Some rule of the webhook has such a resource. -/
def RulesOn (resource : Scalar → Prop) (w : ν) : Prop :=
  ∃ rule ∈ itemsAt shape see w "rules", ∃ r ∈ itemsAt shape see rule "resources",
    ∃ s, shape (see r) = .scalar s ∧ resource s

/-- Some webhook has neither of the selectors, and a rule with such a resource. -/
def OnPods (resource : Scalar → Prop) (n : ν) : Prop :=
  ∃ w ∈ itemsAt shape see n "webhooks", emptyAt shape see w "namespaceSelector" = true ∧
    emptyAt shape see w "objectSelector" = true ∧ RulesOn shape see resource w

end

/-- The strings that cover pods as a resource of a rule. -/
def podResources : List String := ["pods", "*", "*/*"]

/-- A plain scalar with nothing around it that is pods, or an asterisk, but for white space at its
ends. A plain scalar cannot begin with an asterisk, nor with a blank. -/
structure PlainPods (s : Scalar) : Prop where
  bare : s.Bare
  pods : trimSpace s.value.toList = "pods".toList ∨ trimSpace s.value.toList = "*".toList

section
variable {ν : Type} (kyaml : Kyaml ν) (n : ν)

/-- Some webhook without selectors has a rule that covers pods, whatever the document's aliases stand
for. -/
def Unguarded : Prop := OnPods kyaml.shape (resolve kyaml.shape) (fun s => s.value ∈ podResources) n

/-- Without its aliases, the document has a webhook without selectors on plain pods. -/
def PlainlyOnPods : Prop := OnPods kyaml.shape id PlainPods n

def MutatingWebhookConfiguration : Prop :=
  ∃ kind s, fieldAt kyaml.shape id n "kind" = some kind ∧
    kyaml.shape (resolve kyaml.shape kind) = .scalar s ∧ s.value = "MutatingWebhookConfiguration"

/-- `GetMeta` succeeds with a name. -/
def Named : Prop := ∃ m, kyaml.getMeta n = some m ∧ m.name ≠ ""

/-- The test reports the document exactly when it has an unguarded webhook on pods. -/
def Flags (path : Path) : Prop := testCheckWebhookSelector kyaml path n ≠ [] ↔ Unguarded kyaml n

end

section
variable {ν : Type} {kyaml : Kyaml ν} {path : Path} {n w rule r : ν} {s : Scalar} {report : Report}
  {key : String}

theorem fieldElements_eq : fieldElements kyaml n key = itemsAt kyaml.shape id n key := by
  rw [fieldElements, kyaml.field_eq, itemsAt]
  cases fieldAt kyaml.shape id n key with
  | none => rfl
  | some value => exact getD_elements

/-- No mark is in the words that are looked for. -/
theorem not_pods_of_mark {cs : List Char} (h : ∃ c ∈ marks, c ∈ cs) :
    cs ≠ "pods".toList ∧ cs ≠ "*".toList := by
  obtain ⟨c, hmark, hc⟩ := h
  have hnone : ∀ c ∈ marks, c ∉ "pods".toList ∧ c ∉ "*".toList := by
    simp [marks, Yaml.apostrophe]
  constructor
  · rintro rfl
    exact (hnone c hmark).1 hc
  · rintro rfl
    exact (hnone c hmark).2 hc

/-- Only plain scalars with nothing around them are found to be pods. -/
theorem isPods_iff : isPods kyaml r = true ↔ ∃ s, kyaml.shape r = .scalar s ∧ PlainPods s := by
  unfold isPods
  by_cases hscalar : ∃ s, kyaml.shape r = .scalar s
  swap
  · have hother : ∀ s, kyaml.shape r ≠ .scalar s := fun s hs => hscalar ⟨s, hs⟩
    refine iff_of_false ?_ fun ⟨s, hs, _⟩ => hscalar ⟨s, hs⟩
    cases hstring : kyaml.string r with
    | none => simp
    | some t => simpa using kyaml.string_other hother hstring
  obtain ⟨s, hs⟩ := hscalar
  have hiff : (∃ s, kyaml.shape r = .scalar s ∧ PlainPods s) ↔ PlainPods s := by
    rw [hs]
    simp
  rw [hiff]
  by_cases hbare : s.Bare
  · obtain ⟨t, ht, hword⟩ := kyaml.string_bare hs hbare
    have hpods := hword "pods".toList (by decide) (by simp [isWhiteSpace])
    have hstar := hword "*".toList (by decide) (by simp [isWhiteSpace])
    simp only [ht, Bool.or_eq_true, decide_eq_true_eq, hpods, hstar]
    exact ⟨fun h => ⟨hbare, h⟩, PlainPods.pods⟩
  · refine iff_of_false ?_ fun h => hbare h.bare
    cases hstring : kyaml.string r with
    | none => simp
    | some t => simpa using not_pods_of_mark (kyaml.string_marked hs hbare hstring)

theorem checkRule_ne_nil : checkRule kyaml report rule ≠ [] ↔
    ∃ r ∈ itemsAt kyaml.shape id rule "resources", ∃ s, kyaml.shape r = .scalar s ∧ PlainPods s := by
  rw [checkRule, Ne, List.map_eq_nil_iff, List.filter_eq_nil_iff, fieldElements_eq]
  push Not
  simp only [isPods_iff]

theorem checkWebhook_ne_nil : checkWebhook kyaml report w ≠ [] ↔
    emptyAt kyaml.shape id w "namespaceSelector" = true ∧
      emptyAt kyaml.shape id w "objectSelector" = true ∧ RulesOn kyaml.shape id PlainPods w := by
  unfold checkWebhook
  rw [isFieldEmpty_field, isFieldEmpty_field, fieldElements_eq]
  split
  · next hempty =>
    rw [Bool.and_eq_true] at hempty
    rw [Ne, List.flatMap_eq_nil_iff]
    push Not
    simp only [checkRule_ne_nil, hempty, true_and]
    rfl
  · next hempty =>
    rw [Bool.and_eq_true] at hempty
    refine iff_of_false (fun hne => hne rfl) ?_
    rintro ⟨hnamespace, hobject, _⟩
    exact hempty ⟨hnamespace, hobject⟩

/-- The test goes into the webhooks of a configuration that has a name. -/
theorem testCheckWebhookSelector_eq {m : ResourceMeta} (hmeta : kyaml.getMeta n = some m)
    (hk : m.kind = "MutatingWebhookConfiguration") :
    testCheckWebhookSelector kyaml path n = if m.name = "" then [] else
      (itemsAt kyaml.shape id n "webhooks").flatMap (checkWebhook kyaml ⟨path, m.name⟩) := by
  have hlower : Validators.toLower m.kind = "mutatingwebhookconfiguration" := by
    rw [hk]
    decide +kernel
  simp only [testCheckWebhookSelector, hmeta, hlower, fieldElements_eq]
  by_cases hname : m.name = ""
  · simp [hname]
  · have hnone : ¬ (m.name = "" ∨ m.kind = "") := by simp [hname, hk]
    rw [if_neg hnone, if_neg (not_not.mpr rfl), if_neg hname]

/-- What is reported of a configuration: its plain pods, if it has a name. -/
theorem reported_iff (hn : MutatingWebhookConfiguration kyaml n) :
    testCheckWebhookSelector kyaml path n ≠ [] ↔ Named kyaml n ∧ PlainlyOnPods kyaml n := by
  obtain ⟨kind, s, hkind, hs, hvalue⟩ := hn
  unfold Named
  cases hmeta : kyaml.getMeta n with
  | none => simp [testCheckWebhookSelector, hmeta]
  | some m =>
    rw [testCheckWebhookSelector_eq hmeta ((kyaml.getMeta_kind hmeta hkind hs).trans hvalue)]
    by_cases hname : m.name = ""
    · simp [hname]
    · rw [if_neg hname, Ne, List.flatMap_eq_nil_iff]
      push Not
      simp only [checkWebhook_ne_nil, Option.some.injEq, exists_eq_left', ne_eq, hname,
        not_false_eq_true, true_and]
      rfl

end

/-- The test reports a configuration exactly when it is unguarded, in two cases: when it is, it has
a name and, without its aliases, some webhook on pods in a plain scalar; and when it is not, it has no
such webhook or no name. -/
theorem flags_iff {ν : Type} (kyaml : Kyaml ν) (path : Path) (n : ν)
    (hn : MutatingWebhookConfiguration kyaml n) : Flags kyaml n path ↔
      (Unguarded kyaml n ∧ Named kyaml n ∧ PlainlyOnPods kyaml n) ∨
        (¬ Unguarded kyaml n ∧ ¬ (Named kyaml n ∧ PlainlyOnPods kyaml n)) := by
  rw [Flags, reported_iff hn]
  tauto

/-! Documents as trees, with what an alias stands for below it, and scalars in one line. -/

inductive Node where
  | null
  | scalar (s : Scalar)
  | sequence (items : List Node)
  | mapping (fields : List (String × Node))
  | aliasOf (target : Node)

def Node.shape : Node → Shape Node
  | .null => .null
  | .scalar s => .scalar s
  | .sequence items => .sequence items
  | .mapping fields => .mapping fields
  | .aliasOf target => .aliasOf target

/-- What is written around a scalar, and the scalar in its style. -/
def encode (s : Scalar) : List Char :=
  (s.anchor.elim [] fun anchor => '&' :: anchor.toList ++ [' ']) ++
    (s.tag.elim [] fun tag => '!' :: tag.toList ++ [' ']) ++
    (s.style.mark.elim s.value.toList fun c => c :: s.value.toList ++ [c]) ++
    (if s.comments = [] then [] else ' ' :: '#' :: (s.comments.flatMap String.toList)) ++ ['\n']

def textOf : Node → Option String
  | .scalar s => some (String.ofList (encode s))
  | _ => none

theorem encode_of_bare {s : Scalar} (h : s.Bare) : encode s = s.value.toList ++ ['\n'] := by
  simp [encode, h.anchor, h.tag, h.plain, h.comments, Style.mark]

theorem mark_of_not_bare {s : Scalar} (h : ¬ s.Bare) : ∃ c ∈ marks, c ∈ encode s := by
  cases hanchor : s.anchor with
  | some anchor => exact ⟨'&', by simp [marks], by simp [encode, hanchor]⟩
  | none =>
  cases htag : s.tag with
  | some tag => exact ⟨'!', by simp [marks], by simp [encode, htag]⟩
  | none =>
  cases hmark : s.style.mark with
  | some c =>
    refine ⟨c, ?_, by simp [encode, hmark]⟩
    revert hmark
    cases s.style <;> simp only [Style.mark, reduceCtorEq, Option.some.injEq, false_implies] <;>
      rintro rfl <;> simp [marks]
  | none =>
  by_cases hcomments : s.comments = []
  · have hplain : s.style = .plain := by
      cases hstyle : s.style <;> simp [hstyle, Style.mark] at hmark
      rfl
    exact absurd ⟨hplain, hcomments, hanchor, htag⟩ h
  · exact ⟨'#', by simp [marks], by simp [encode, hcomments]⟩

def metaOf (n : Node) : Option ResourceMeta :=
  match n.shape, (fieldAt Node.shape id n "metadata").bind (fieldAt Node.shape id · "name"),
    (fieldAt Node.shape id n "kind").map fun kind => (resolve Node.shape kind).shape with
  | .mapping _, some (.scalar name), some (.scalar kind) => some ⟨"", kind.value, name.value⟩
  | _, _, _ => none

def treeKyaml : Kyaml Node where
  shape := Node.shape
  getMeta := metaOf
  field := fieldAt Node.shape id
  elements n :=
    match n.shape with
    | .sequence items => some items
    | _ => none
  isFieldEmpty f := f.elim true fun n => n.shape.isEmpty
  lookup n key := some (n.shape.field key)
  string := textOf
  getMeta_mapping {n m} h := by
    unfold metaOf at h
    split at h
    · next fields _ _ hshape _ _ => exact ⟨fields, hshape⟩
    · cases h
  getMeta_kind {n m kind s} h hkind hs := by
    unfold metaOf at h
    rw [hkind, Option.map_some, hs] at h
    split at h
    · next heq =>
      cases heq
      cases h
      rfl
    · cases h
  field_eq _ _ := rfl
  elements_sequence h := by rw [h]
  elements_null h := by
    rw [h]
    exact Or.inl rfl
  elements_other {n} _ hsequence := by
    split
    · next items h => exact absurd h (hsequence items)
    · rfl
  isFieldEmpty_none := rfl
  isFieldEmpty_some _ := rfl
  lookup_missing hn hnone := by
    rw [hn]
    exact congrArg some hnone
  lookup_null hn hv _ := by
    rw [hn]
    exact Or.inr (congrArg some hv)
  lookup_some hn hv _ := by
    rw [hn]
    exact congrArg some hv
  string_bare {n s} hs hbare := by
    obtain rfl : n = .scalar s := by
      cases n <;> cases hs
      rfl
    refine ⟨_, rfl, fun word _ _ => ?_⟩
    have hnewline : isWhiteSpace '\n' = true := by decide
    rw [String.toList_ofList, encode_of_bare hbare]
    exact iff_of_eq (congrArg (· = word) (Text.trimSpace_concat hnewline))
  string_marked {n s t} hs hbare ht := by
    obtain rfl : n = .scalar s := by
      cases n <;> cases hs
      rfl
    cases ht
    obtain ⟨c, hmark, hc⟩ := mark_of_not_bare hbare
    have hwhite : ∀ c ∈ marks, isWhiteSpace c = false := by
      simp [marks, isWhiteSpace, Yaml.apostrophe]
    refine ⟨c, hmark, ?_⟩
    rw [String.toList_ofList]
    exact Text.mem_trimSpace hc (hwhite c hmark)
  string_other {n t} hother ht := by
    cases n with
    | scalar s => exact absurd rfl (hother s)
    | _ => cases ht

def plain (value : String) (h : Yaml.plainValid value.toList = true) : Scalar :=
  ⟨.plain, value, [], none, none, fun _ => h⟩

/-- A webhook whose only rule is for the resources. -/
def webhookOn (selector : Node) (resources : List Scalar) : Node :=
  .mapping [("namespaceSelector", selector),
    ("rules", .sequence [.mapping [("resources", .sequence (resources.map .scalar))]])]

def configuration (webhooks : List Node) : Node :=
  .mapping [("kind", .scalar (plain "MutatingWebhookConfiguration" (by decide))),
    ("metadata", .mapping [("name", .scalar (plain "hooks" (by decide)))]),
    ("webhooks", .sequence webhooks)]

theorem configuration_kind (webhooks : List Node) :
    MutatingWebhookConfiguration treeKyaml (configuration webhooks) :=
  ⟨_, _, rfl, rfl, rfl⟩

theorem configuration_named (webhooks : List Node) : Named treeKyaml (configuration webhooks) :=
  ⟨_, rfl, by decide⟩

def pods : Scalar := plain "pods" (by decide)

def configmaps : Scalar := plain "configmaps" (by decide)

/-- An asterisk, which must be quoted. -/
def quotedStar : Scalar := ⟨.doubleQuoted, "*", [], none, none, nofun⟩

/-- A webhook with a selector, and one with an empty one. -/
def twoWebhooks : Node :=
  configuration [webhookOn (.mapping [("matchLabels", .mapping [("hook", .scalar pods)])]) [quotedStar],
    webhookOn (.mapping []) [configmaps, pods]]

theorem flags_iff_twoWebhooks : Flags treeKyaml twoWebhooks ["hooks.yaml"] := by
  have hpods : PlainPods pods := ⟨⟨rfl, rfl, rfl, rfl⟩, Or.inl (by decide)⟩
  refine (flags_iff treeKyaml ["hooks.yaml"] twoWebhooks (configuration_kind _)).mpr
    (Or.inl ⟨?_, configuration_named _, ?_⟩)
  · exact ⟨_, List.mem_cons_of_mem _ List.mem_cons_self, rfl, rfl, _, List.mem_cons_self, _,
      List.mem_cons_of_mem _ List.mem_cons_self, pods, rfl, by decide⟩
  · exact ⟨_, List.mem_cons_of_mem _ List.mem_cons_self, rfl, rfl, _, List.mem_cons_self, _,
      List.mem_cons_of_mem _ List.mem_cons_self, pods, rfl, hpods⟩

/-- It is not found. -/
theorem not_flags : ¬ ∀ path n, MutatingWebhookConfiguration treeKyaml n → Flags treeKyaml n path := by
  intro h
  have hflags := h ["hooks.yaml"] _ (configuration_kind [webhookOn .null [quotedStar]])
  have hunguarded : Unguarded treeKyaml (configuration [webhookOn .null [quotedStar]]) :=
    ⟨_, List.mem_cons_self, rfl, rfl, _, List.mem_cons_self, _, List.mem_cons_self, quotedStar, rfl,
      by decide⟩
  refine hflags.mpr hunguarded ?_
  decide +kernel

end Manifests.WebhookSelector
