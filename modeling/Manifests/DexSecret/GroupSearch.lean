import Manifests.Library.Split
import Manifests.DexSecret.Stored

/-! The group settings as functions of the groups value: the filter that is put together from all its
parts, and the base DN of the first part that has one. -/
namespace Manifests.DexSecret
open Library Library.Script

/-- The parenthesised filters of the groups, one after the other. -/
def disjuncts : List String → String
  | [] => ""
  | oneOfGroups :: groups => "(" ++ Text.firstPart "," oneOfGroups ++ ")" ++ disjuncts groups

def quotedFilter (group : String) : String :=
  if Text.contains "::::" group then "\"(|" ++ disjuncts (Text.split "::::" group) ++ ")\""
  else "\"(" ++ Text.firstPart "," group ++ ")\""

/-- What the loop over the groups ends with. -/
def baseDn? : List String → Option String
  | [] => some "none"
  | oneOfGroups :: groups =>
    (Text.split "," oneOfGroups)[1]?.bind fun dn => if dn ≠ "none" then some dn else baseDn? groups

section
variable {group : String}

theorem computes_item (words : List String) (n : Nat) : Computes (item words n) words[n]? :=
  computes_ofOption _ _

/-- There is always a first part. -/
theorem computes_firstPart (text : String) : Computes (item (Text.split "," text) 0)
    (some (Text.firstPart "," text)) := by
  obtain ⟨_, _, _, _, h⟩ := Text.split_eq_cons "," text
  rw [h]
  exact computes_item _ _

theorem computes_groupBaseDn (groups : List String) :
    Computes (groupBaseDn groups) (baseDn? groups) := by
  induction groups with
  | nil => exact computes_pure _
  | cons oneOfGroups groups ih =>
    refine computes_bind (computes_item _ _) fun dn => ?_
    split
    · exact computes_pure _
    · exact ih

theorem computes_groupFilters (groups : List String) (groupFilter : String) :
    Computes (groupFilters groupFilter groups) (some (groupFilter ++ disjuncts groups)) := by
  induction groups generalizing groupFilter with
  | nil =>
    rw [disjuncts, String.append_empty]
    exact computes_pure _
  | cons oneOfGroups groups ih =>
    have hassoc : groupFilter ++ "(" ++ Text.firstPart "," oneOfGroups ++ ")" ++ disjuncts groups =
        groupFilter ++ disjuncts (oneOfGroups :: groups) := by
      simp only [disjuncts, String.append_assoc]
    rw [← hassoc]
    exact computes_seq (computes_firstPart oneOfGroups) (ih _)

/-- A value without a separator is the only one of its groups. -/
theorem baseDn?_single (text : String) : baseDn? [text] = (Text.split "," text)[1]? := by
  rw [baseDn?, baseDn?]
  cases (Text.split "," text)[1]? with
  | none => rfl
  | some dn =>
    by_cases h : dn = "none"
    · simp [h]
    · simp [h]

theorem groupSearch?_eq (group : String) : groupSearch? group =
    (baseDn? (Text.split "::::" group)).map fun baseDn => (baseDn, quotedFilter group) := by
  have h : Computes (groupSearch group)
      ((baseDn? (Text.split "::::" group)).map fun baseDn => (baseDn, quotedFilter group)) := by
    rw [Option.map_eq_bind]
    unfold groupSearch quotedFilter
    split
    · exact computes_bind (computes_groupBaseDn _) fun baseDn =>
        computes_seq (computes_groupFilters _ _) (computes_pure _)
    · next hc =>
      have hclear : Text.contains "::::" group = false := by simpa using hc
      rw [Text.split_of_not_contains hclear, baseDn?_single]
      exact computes_seq (computes_firstPart group)
        (computes_bind (computes_item _ _) fun baseDn => computes_pure _)
  exact h {}

end

/-! Groups as they are entered: each a filter and a base DN. -/

structure GroupEntry where
  filter : String
  base : String
  comma : ',' ∉ filter.toList

def GroupEntry.text (entry : GroupEntry) : String := entry.filter ++ "," ++ entry.base

def groupsText (entries : List GroupEntry) : String :=
  "::::".intercalate (entries.map GroupEntry.text)

/-- An attribute and its value. -/
def IsRdn (rdn : String) : Prop := ∃ name value, rdn = name ++ "=" ++ value ∧
  ∀ c ∈ name.toList, c.isAlphanum ∨ c = '-' ∨ c = '.'

def IsDn (dn : String) : Prop :=
  ∃ rdns : List String, dn = ",".intercalate rdns ∧ ∀ rdn ∈ rdns, IsRdn rdn

/-- What comes after the comma of the first entry. -/
def afterComma (base : String) : List GroupEntry → String
  | [] => base
  | entry :: entries => base ++ "::::" ++ groupsText (entry :: entries)

section
variable {entry : GroupEntry} {entries : List GroupEntry} {base text : String}

theorem groupsText_cons :
    groupsText (entry :: entries) = entry.filter ++ "," ++ afterComma entry.base entries := by
  cases entries with
  | nil => simp [groupsText, afterComma, GroupEntry.text]
  | cons next entries =>
    simp [groupsText, afterComma, GroupEntry.text, String.append_assoc]

theorem contains_comma {text : String} : Text.contains "," text = false ↔ ',' ∉ text.toList := by
  have hcomma : ",".toList = [','] := by decide
  rw [← Bool.not_eq_true, Text.contains_iff, hcomma, List.singleton_infix_iff]

/-- The comma of an entry is the first one. -/
theorem split_entry :
    Text.split "," (entry.filter ++ "," ++ text) = entry.filter :: Text.split "," text := by
  refine Text.split_append (by decide) ?_
  have hclear := contains_comma.mpr entry.comma
  have hdrop : ",".toList.dropLast = [] := by decide
  rw [hdrop, List.append_nil, ← Text.contains_iff, hclear]
  decide

theorem split_groupsText (h : Text.contains "::::" entry.filter = false) :
    Text.split "::::" (groupsText (entry :: entries)) =
      (Text.split "::::" (afterComma entry.base entries)).modifyHead (entry.filter ++ "," ++ ·) := by
  rw [groupsText_cons]
  exact Text.split_append_char (c := ',') (by decide) h

theorem firstPart_entry : Text.firstPart "," (entry.filter ++ "," ++ text) = entry.filter := by
  rw [Text.firstPart, split_entry, List.headD_cons]

theorem item_entry :
    (Text.split "," (entry.filter ++ "," ++ text))[1]? = some (Text.firstPart "," text) := by
  obtain ⟨_, _, _, _, h⟩ := Text.split_eq_cons "," text
  rw [split_entry, h]
  rfl

theorem exists_entry {group : String} (h : Text.contains "," group = true) :
    ∃ entry : GroupEntry, entry.text = group := by
  have hmem : ',' ∈ group.toList := by
    by_contra hn
    rw [contains_comma.mpr hn] at h
    cases h
  obtain ⟨filter, base, hgroup, hfilter⟩ := List.eq_append_cons_of_mem hmem
  refine ⟨⟨String.ofList filter, String.ofList base, by simpa using hfilter⟩, ?_⟩
  apply String.toList_inj.mp
  simp [GroupEntry.text, hgroup]

theorem baseDn?_isSome {groups : List String} (h : ∀ group ∈ groups, Text.contains "," group = true) :
    (baseDn? groups).isSome := by
  induction groups with
  | nil => rfl
  | cons group groups ih =>
    obtain ⟨hgroup, hgroups⟩ := List.forall_mem_cons.mp h
    obtain ⟨entry, rfl⟩ := exists_entry hgroup
    rw [baseDn?, GroupEntry.text, item_entry, Option.bind_some]
    split
    · rfl
    · exact ih hgroups

/-- The base DN that is read from the first entry: what the first separator and the first comma after
it leave. -/
def readBase (base : String) (entries : List GroupEntry) : String :=
  Text.firstPart "," (Text.firstPart "::::" (afterComma base entries))

theorem baseDn?_of_contains (h : Text.contains "::::" entry.filter = true) :
    baseDn? (Text.split "::::" (groupsText (entry :: entries))) = none := by
  rw [groupsText_cons, String.append_assoc]
  obtain ⟨_, _, _, _, hsplit⟩ :=
    Text.split_eq_cons "::::" (entry.filter ++ ("," ++ afterComma entry.base entries))
  have hstart := Text.firstPart_of_contains ("," ++ afterComma entry.base entries) (by decide) h
  have hcomma := contains_comma.mpr fun hm => entry.comma (hstart.subset hm)
  rw [hsplit, baseDn?, Text.split_of_not_contains hcomma]
  rfl

theorem baseDn?_of_not_contains (h : Text.contains "::::" entry.filter = false) :
    baseDn? (Text.split "::::" (groupsText (entry :: entries))) =
      if readBase entry.base entries ≠ "none" then some (readBase entry.base entries)
      else baseDn? (Text.split "::::" (afterComma entry.base entries)).tail := by
  obtain ⟨_, _, _, _, hsplit⟩ := Text.split_eq_cons "::::" (afterComma entry.base entries)
  rw [split_groupsText h, hsplit, List.modifyHead_cons, baseDn?, item_entry, Option.bind_some,
    List.tail_cons, readBase]

theorem split_afterComma_none : Text.split "::::" (afterComma "none" entries) =
    "none" :: match entries with
      | [] => []
      | entry :: entries => Text.split "::::" (groupsText (entry :: entries)) := by
  cases entries with
  | nil => decide
  | cons entry entries => exact Text.split_append (by decide) (by decide)

/-- The base DN of an entry is read whole when nothing in it looks like the end of it. -/
def Whole (base : String) (entries : List GroupEntry) : Prop :=
  Text.contains "," base = false ∧ Text.contains "::::" base = false ∧
    (entries = [] ∨ base.toList.getLast? ≠ some ':')

/-- No separator begins in a text that has none and does not end in its character. -/
theorem not_infix_separator_iff : ¬ "::::".toList <:+: text.toList ++ "::::".toList.dropLast ↔
    Text.contains "::::" text = false ∧ text.toList.getLast? ≠ some ':' := by
  have hsep : "::::".toList = List.replicate (3 + 1) ':' := by decide
  have hdrop : "::::".toList.dropLast = List.replicate 3 ':' := by decide
  rw [hdrop, hsep, Text.infix_append_replicate, ← hsep, ← Text.contains_iff, not_or, Bool.not_eq_true]

theorem firstPart_afterComma (base : String) (entries : List GroupEntry) :
    (Text.firstPart "::::" (afterComma base entries)).toList <+: base.toList ∧
      (Text.firstPart "::::" (afterComma base entries) = base ↔
        Text.contains "::::" base = false ∧ (entries = [] ∨ base.toList.getLast? ≠ some ':')) := by
  cases entries with
  | nil =>
    obtain ⟨hstart, hwhole⟩ := Text.firstPart_whole "::::" base (by decide)
    exact ⟨hstart, by simpa [afterComma] using hwhole⟩
  | cons entry entries =>
    obtain ⟨hstart, hwhole⟩ := Text.firstPart_append "::::" base
      (groupsText (entry :: entries)) (by decide)
    refine ⟨hstart, hwhole.trans (not_infix_separator_iff.trans ?_)⟩
    simp

theorem readBase_eq_iff : readBase base entries = base ↔ Whole base entries := by
  obtain ⟨hstart, hwhole⟩ := firstPart_afterComma base entries
  obtain ⟨hitem, hcomma⟩ := Text.firstPart_whole ","
    (Text.firstPart "::::" (afterComma base entries)) (by decide)
  unfold Whole
  constructor
  · intro h
    have heq : Text.firstPart "::::" (afterComma base entries) = base := by
      rw [readBase] at h
      rw [h] at hitem
      exact String.toList_inj.mp (List.IsPrefix.eq_of_length_le hstart hitem.length_le)
    rw [heq] at hcomma
    rw [readBase, heq] at h
    exact ⟨hcomma.mp h, hwhole.mp heq⟩
  · rintro ⟨hc, hw⟩
    have heq := hwhole.mpr hw
    rw [heq] at hcomma
    rw [readBase, heq, hcomma.mpr hc]

theorem IsDn.cases (h : IsDn base) : base = "" ∨ ∃ name value, base = name ++ "=" ++ value ∧
    ∀ c ∈ name.toList, c.isAlphanum ∨ c = '-' ∨ c = '.' := by
  obtain ⟨rdns, rfl, hrdns⟩ := h
  cases rdns with
  | nil => exact Or.inl String.intercalate_nil
  | cons rdn rdns =>
    obtain ⟨name, value, rfl, hname⟩ := hrdns rdn List.mem_cons_self
    refine Or.inr ⟨name, ",".intercalate (value :: rdns), ?_, hname⟩
    exact String.intercalate_cons_append

theorem afterComma_append :
    afterComma (text ++ base) entries = text ++ afterComma base entries := by
  cases entries with
  | nil => rfl
  | cons entry entries => simp only [afterComma, String.append_assoc]

/-- What is read of a DN still has the `=` of its first RDN. -/
theorem readBase_ne_none (h : IsDn base) : readBase base entries ≠ "none" := by
  obtain rfl | ⟨name, value, rfl, hname⟩ := h.cases
  · have hstart := (firstPart_afterComma "" entries).1
    have hempty : Text.firstPart "::::" (afterComma "" entries) = "" :=
      String.toList_inj.mp (List.prefix_nil.mp hstart)
    rw [readBase, hempty]
    decide
  · have hcolon : ':' ∉ name.toList := fun hm => absurd (hname _ hm) (by decide)
    have hcomma : ',' ∉ name.toList := fun hm => absurd (hname _ hm) (by decide)
    have hclear : Text.contains "::::" name = false := by
      rw [← Bool.not_eq_true, Text.contains_iff]
      exact fun hi => hcolon (hi.subset (by decide))
    have hequals : "=" = String.singleton '=' := by decide
    intro hnone
    rw [readBase, afterComma_append, hequals, Text.firstPart_append_char (by decide) hclear,
      Text.firstPart_append_char (by decide) (contains_comma.mpr hcomma)] at hnone
    have hmem : '=' ∈ "none".toList := by
      rw [← hnone]
      simp
    revert hmem
    decide

/-- What the loop ends with on the entries that are left. -/
def entriesBase? : List GroupEntry → Option String
  | [] => some "none"
  | entry :: entries => baseDn? (Text.split "::::" (groupsText (entry :: entries)))

/-- The base DN of the first entry that has one. -/
def commonBase : List GroupEntry → String
  | [] => "none"
  | entry :: entries => if entry.base ≠ "none" then entry.base else commonBase entries

/-- Up to the first entry with a base DN no filter has the separator. -/
def FiltersClear : List GroupEntry → Prop
  | [] => True
  | entry :: entries =>
    Text.contains "::::" entry.filter = false ∧ (entry.base = "none" → FiltersClear entries)

/-- The first base DN is read whole. -/
def FirstWhole : List GroupEntry → Prop
  | [] => True
  | entry :: entries => if entry.base ≠ "none" then Whole entry.base entries else FirstWhole entries

def BasesGiven (entries : List GroupEntry) : Prop :=
  ∀ entry ∈ entries, entry.base = "none" ∨ IsDn entry.base

/-- One entry of the loop: only without a base DN does it look at the next. -/
theorem entriesBase?_cons (h : entry.base = "none" ∨ IsDn entry.base) :
    entriesBase? (entry :: entries) =
      if Text.contains "::::" entry.filter then none
      else if entry.base ≠ "none" then some (readBase entry.base entries)
      else entriesBase? entries := by
  rw [entriesBase?]
  by_cases hc : Text.contains "::::" entry.filter = true
  · rw [if_pos hc, baseDn?_of_contains hc]
  · rw [if_neg hc, baseDn?_of_not_contains (by simpa using hc)]
    by_cases hnone : entry.base = "none"
    · have hread : readBase "none" entries = "none" :=
        readBase_eq_iff.mpr ⟨by decide, by decide, Or.inr (by decide)⟩
      rw [hnone, hread, if_neg (by decide), if_neg (by decide), split_afterComma_none, List.tail_cons]
      cases entries with
      | nil => rfl
      | cons next entries => rfl
    · have hread : readBase entry.base entries ≠ "none" := readBase_ne_none (h.resolve_left hnone)
      rw [if_pos hread, if_pos hnone]

theorem entriesBase?_isSome (h : BasesGiven entries) :
    (entriesBase? entries).isSome ↔ FiltersClear entries := by
  induction entries with
  | nil => simp [entriesBase?, FiltersClear]
  | cons entry entries ih =>
    obtain ⟨hentry, hentries⟩ := List.forall_mem_cons.mp h
    rw [entriesBase?_cons hentry, FiltersClear, ← ih hentries]
    by_cases hc : Text.contains "::::" entry.filter = true
    · simp [hc]
    · by_cases hnone : entry.base = "none"
      · simp [hc, hnone]
      · simp [hc, hnone]

theorem entriesBase?_eq_commonBase (h : BasesGiven entries) :
    entriesBase? entries = some (commonBase entries) ↔ FiltersClear entries ∧ FirstWhole entries := by
  induction entries with
  | nil => simp [entriesBase?, commonBase, FiltersClear, FirstWhole]
  | cons entry entries ih =>
    obtain ⟨hentry, hentries⟩ := List.forall_mem_cons.mp h
    rw [entriesBase?_cons hentry, commonBase, FiltersClear, FirstWhole]
    by_cases hc : Text.contains "::::" entry.filter = true
    · simp [hc]
    · by_cases hnone : entry.base = "none"
      · simp [hc, hnone, ih hentries]
      · simp [hc, hnone, readBase_eq_iff]

end

/-! A secret with groups. -/

section
variable {data : List (String × String)} {encoded : String} {entries : List GroupEntry}
  {template connector : Dict} (hne : entries ≠ []) (hencodes : Encodes encoded (groupsText entries))
include hne hencodes

theorem groupSearch?_entries : (decode? encoded).bind groupSearch? =
    if IsAscii (groupsText entries) then
      (entriesBase? entries).map fun baseDn => (baseDn, quotedFilter (groupsText entries))
    else none := by
  have hbase : baseDn? (Text.split "::::" (groupsText entries)) = entriesBase? entries := by
    obtain ⟨entry, entries, rfl⟩ := List.exists_cons_of_ne_nil hne
    rfl
  rw [hencodes.bind_decode?, groupSearch?_eq, hbase]

variable (hlookup : data.lookup "groups" = some encoded)
include hlookup

theorem present_groups : present (data.lookup "groups") = some encoded := by
  obtain ⟨entry, entries, rfl⟩ := List.exists_cons_of_ne_nil hne
  have hempty : groupsText (entry :: entries) ≠ "" := by
    rw [groupsText_cons]
    simp
  have hvalue : encoded ≠ "" := fun h => hempty (hencodes.eq_empty_iff.mp h)
  rw [hlookup]
  simp [present, hvalue]

theorem groupsAccepted_iff (h : BasesGiven entries) :
    GroupsAccepted data ↔ IsAscii (groupsText entries) ∧ FiltersClear entries := by
  unfold GroupsAccepted
  rw [present_groups hne hencodes hlookup, ← entriesBase?_isSome h]
  simp only [Option.some.injEq, forall_eq']
  rw [groupSearch?_entries hne hencodes]
  by_cases ha : IsAscii (groupsText entries)
  · simp [ha]
  · simp [ha]

/-- What the config of an accepted secret says about the groups. -/
theorem textAt_groupSearch (hc : secretConnector data = some connector) :
    ∃ baseDn, entriesBase? entries = some baseDn ∧
      (Value.dict (withConnector template connector)).textAt
        (settingPath ["groupSearch", "baseDN"]) = some baseDn ∧
      (Value.dict (withConnector template connector)).textAt
        (settingPath ["groupSearch", "filter"]) = some (quotedFilter (groupsText entries)) := by
  obtain ⟨info, id, name, idAttr, emailAttr, config, _, hconfig, rfl⟩ := secretConnector_some hc
  obtain ⟨group, baseDn, filter, hdecode, hsearch, hget⟩ := connectorConfig_groupSearch hconfig
    (present_groups hne hencodes hlookup)
  have hentries := groupSearch?_entries hne hencodes
  rw [hdecode, Option.bind_some, hsearch] at hentries
  split at hentries
  · obtain ⟨baseDn', hbase, heq⟩ := Option.map_eq_some_iff.mp hentries.symm
    cases heq
    refine ⟨_, hbase, ?_, ?_⟩
    · rw [textAt_setting]
      simp [Value.textAt, Value.get, hget]
    · rw [textAt_setting]
      simp [Value.textAt, Value.get, hget]
  · cases hentries

end

/-- The secret of an LDAP server with groups. -/
def groupedSecret (groups : String) : List (String × String) :=
  anonymousSecret "bGRhcHM=" ++ [("groups", groups)]

/-- The dump of its config, with the base DN and the filter as PyYAML writes them. -/
def groupedYaml (baseDn filter : String) : String :=
  anonymousYaml ["    groupSearch:\n", "      baseDN: ", baseDn, "\n", "      filter: ", filter, "\n",
    "      nameAttr: ''\n"] ["    startTLS: false\n"]

def devOps : List GroupEntry := [⟨"cn=dev", "ou=groups", by decide⟩, ⟨"cn=ops", "ou=groups", by decide⟩]

def devOpsSecret : List (String × String) :=
  groupedSecret "Y249ZGV2LG91PWdyb3Vwczo6Ojpjbj1vcHMsb3U9Z3JvdXBz"

/-- The filter is dumped as a single-quoted text. -/
def devOpsYaml : String := groupedYaml "ou=groups" "'\"(|(cn=dev)(cn=ops))\"'"

theorem encodes_devOps :
    Encodes "Y249ZGV2LG91PWdyb3Vwczo6Ojpjbj1vcHMsb3U9Z3JvdXBz" (groupsText devOps) :=
  (encodes_of_b64encode (by decide +kernel)).1

theorem lookup_devOps : devOpsSecret.lookup "groups" =
    some "Y249ZGV2LG91PWdyb3Vwczo6Ojpjbj1vcHMsb3U9Z3JvdXBz" := by decide

theorem yamlLaws_devOps :
    YamlLaws (readerOf devOpsYaml devOpsSecret) (dumping devOpsYaml) devOpsSecret :=
  yamlLaws_readerOf (isAscii_anonymousYaml (by decide +kernel) (by decide +kernel))

end Manifests.DexSecret
