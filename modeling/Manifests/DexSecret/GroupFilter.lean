import Manifests.DexSecret.GroupSearch
import Manifests.DexSecret.Stored

/-! The filter of the group search: the quotes that the script puts around it are part of the value
that is dumped, so that no reader of the config gets an LDAP filter. -/
namespace Manifests.DexSecret
open Library

/-- The LDAP filter for the members of any of the groups. -/
def ldapFilter : List GroupEntry → String
  | [entry] => "(" ++ entry.filter ++ ")"
  | entries => "(|" ++ String.join (entries.map fun entry => "(" ++ entry.filter ++ ")") ++ ")"

/-- An attribute with its value, and a base DN, that are not mistaken for something else. -/
structure PlainGroup (entry : GroupEntry) : Prop where
  item : ∃ name value, entry.filter = name ++ "=" ++ value
  parentheses : '(' ∉ entry.filter.toList ∧ ')' ∉ entry.filter.toList
  filter : Text.contains "::::" entry.filter = false
  base : Text.contains "::::" entry.base = false

section
variable {read : String → YamlReader} {settings : Settings} {answers : Answers}
  {data : List (String × String)} {encoded text : String} {entry : GroupEntry}
  {entries : List GroupEntry}

/-- What a reader finds is in quotes. -/
theorem Stores.filter_eq (hne : entries ≠ []) (hencodes : Encodes encoded (groupsText entries))
    (hlookup : data.lookup "groups" = some encoded) (hy : YamlLaws read settings data)
    (h : Stores read settings answers data (settingPath ["groupSearch", "filter"]) text) :
    text = quotedFilter (groupsText entries) := by
  obtain ⟨connector, hc, htext⟩ := h.found hy
  obtain ⟨_, _, _, hfilter⟩ := textAt_groupSearch hne hencodes hlookup hc
  rw [hfilter] at htext
  exact (Option.some.inj htext).symm

theorem quotedFilter_ne (group : String) : quotedFilter group ≠ ldapFilter entries := by
  intro h
  have hquote : (quotedFilter group).toList.head? = some '"' := by
    unfold quotedFilter
    split <;> simp
  have hparenthesis : (ldapFilter entries).toList.head? = some '(' := by
    unfold ldapFilter
    split <;> simp
  rw [h, hparenthesis] at hquote
  cases hquote

/-- No entry but the last ends in the character of the separator. -/
def EndsClear (entries : List GroupEntry) : Prop :=
  ∀ entry ∈ entries.dropLast, entry.base.toList.getLast? ≠ some ':'

theorem contains_text (h : PlainGroup entry) : Text.contains "::::" entry.text = false := by
  have htext : entry.text.toList = entry.filter.toList ++ ',' :: entry.base.toList := by
    simp [GroupEntry.text]
  rw [← Bool.not_eq_true, Text.contains_iff, htext, Text.infix_append_cons_iff (by decide),
    ← Text.contains_iff, ← Text.contains_iff, h.filter, h.base]
  decide

theorem getLast?_text (h : entry.base.toList.getLast? ≠ some ':') :
    entry.text.toList.getLast? ≠ some ':' := by
  have htext : entry.text.toList = entry.filter.toList ++ ',' :: entry.base.toList := by
    simp [GroupEntry.text]
  rw [htext, List.getLast?_append, List.getLast?_cons]
  cases hlast : entry.base.toList.getLast? with
  | none => simp
  | some c =>
    rw [hlast] at h
    simpa using h

theorem groupsText_cons_cons {next : GroupEntry} :
    groupsText (entry :: next :: entries) = entry.text ++ "::::" ++ groupsText (next :: entries) := by
  simp only [groupsText, List.map_cons, String.intercalate_cons_cons]

/-- The parts of the value are the entries. -/
theorem split_entries (hplain : ∀ entry ∈ entries, PlainGroup entry) (hends : EndsClear entries)
    (hne : entries ≠ []) : Text.split "::::" (groupsText entries) = entries.map GroupEntry.text := by
  induction entries with
  | nil => exact (hne rfl).elim
  | cons entry entries ih =>
    obtain ⟨hentry, hentries⟩ := List.forall_mem_cons.mp hplain
    cases entries with
    | nil =>
      have htext : groupsText [entry] = entry.text := by simp [groupsText]
      rw [htext, Text.split_of_not_contains (contains_text hentry), List.map_singleton]
    | cons next entries =>
      obtain ⟨hend, hends⟩ := List.forall_mem_cons.mp hends
      have hclear := not_infix_separator_iff.mpr ⟨contains_text hentry, getLast?_text hend⟩
      rw [groupsText_cons_cons, Text.split_append (by decide) hclear,
        ih hentries hends (List.cons_ne_nil _ _)]
      rfl

theorem disjuncts_entries : disjuncts (entries.map GroupEntry.text) =
    String.join (entries.map fun entry => "(" ++ entry.filter ++ ")") := by
  induction entries with
  | nil => rfl
  | cons entry entries ih =>
    rw [List.map_cons, disjuncts, GroupEntry.text, firstPart_entry, ih, List.map_cons, String.join_cons]

theorem quotedFilter_entries (hplain : ∀ entry ∈ entries, PlainGroup entry) (hends : EndsClear entries)
    (hne : entries ≠ []) : quotedFilter (groupsText entries) = "\"" ++ ldapFilter entries ++ "\"" := by
  obtain ⟨entry, entries, rfl⟩ := List.exists_cons_of_ne_nil hne
  cases entries with
  | nil =>
    have hentry := hplain entry List.mem_cons_self
    have htext : groupsText [entry] = entry.text := by simp [groupsText]
    rw [quotedFilter, htext, contains_text hentry, GroupEntry.text, firstPart_entry, ldapFilter]
    apply String.toList_inj.mp
    simp
  | cons next entries =>
    have hcontains : Text.contains "::::" (groupsText (entry :: next :: entries)) = true := by
      rw [Text.contains_iff, groupsText_cons_cons, String.toList_append, String.toList_append]
      exact List.infix_append _ _ _
    rw [quotedFilter, if_pos hcontains, split_entries hplain hends hne, disjuncts_entries]
    apply String.toList_inj.mp
    simp [ldapFilter]

/-- Plain groups are never rejected. -/
theorem groupsAccepted_entries (hplain : ∀ entry ∈ entries, PlainGroup entry)
    (hends : EndsClear entries) (hne : entries ≠ []) (hencodes : Encodes encoded (groupsText entries))
    (hlookup : data.lookup "groups" = some encoded) (ha : IsAscii (groupsText entries)) :
    GroupsAccepted data := by
  have hcommas : ∀ group ∈ entries.map GroupEntry.text, Text.contains "," group = true := by
    intro group hgroup
    obtain ⟨entry, _, rfl⟩ := List.mem_map.mp hgroup
    have hcomma : ",".toList <:+: entry.text.toList := by
      simp only [GroupEntry.text, String.toList_append]
      exact List.infix_append _ _ _
    exact Text.contains_iff.mpr hcomma
  have hsearch : (groupSearch? (groupsText entries)).isSome := by
    rw [groupSearch?_eq, Option.isSome_map, split_entries hplain hends hne]
    exact baseDn?_isSome hcommas
  unfold GroupsAccepted
  simp only [present_groups hne hencodes hlookup, Option.some.injEq, forall_eq']
  rwa [hencodes.bind_decode?, if_pos ha]

/-- Whatever the groups, no reader gets the filter that they stand for: it is in quotes. -/
theorem group_filter_quoted (settings : Settings) (answers : Answers) (read : String → YamlReader)
    (data : List (String × String)) (encoded : String) (entries : List GroupEntry) (hne : entries ≠ [])
    (hplain : ∀ entry ∈ entries, PlainGroup entry) (hencodes : Encodes encoded (groupsText entries))
    (hlookup : data.lookup "groups" = some encoded) (hy : YamlLaws read settings data) :
    ¬ Stores read settings answers data (settingPath ["groupSearch", "filter"]) (ldapFilter entries) ∧
      (Accepted data → Undisturbed answers → IsAscii (groupsText entries) → EndsClear entries →
        ∀ filter, Stores read settings answers data (settingPath ["groupSearch", "filter"]) filter ↔
          filter = "\"" ++ ldapFilter entries ++ "\"") := by
  constructor
  · intro h
    exact quotedFilter_ne _ (h.filter_eq hne hencodes hlookup hy).symm
  · intro haccepted hu hascii hends filter
    rw [← quotedFilter_entries hplain hends hne]
    constructor
    · exact fun h => h.filter_eq hne hencodes hlookup hy
    · rintro rfl
      have hgroups := groupsAccepted_entries hplain hends hne hencodes hlookup hascii
      obtain ⟨connector, hc⟩ :=
        Option.isSome_iff_exists.mp (secretConnector_isSome.mpr ⟨haccepted, hgroups⟩)
      obtain ⟨_, _, _, hfilter⟩ := textAt_groupSearch hne hencodes hlookup hc
      exact stores_of_connector hu hy hc hfilter

end

theorem plain_devOps : ∀ entry ∈ devOps, PlainGroup entry := by
  intro entry h
  simp only [devOps, List.mem_cons, List.not_mem_nil, or_false] at h
  rcases h with rfl | rfl
  · exact ⟨⟨"cn", "dev", by decide⟩, by decide, by decide, by decide⟩
  · exact ⟨⟨"cn", "ops", by decide⟩, by decide, by decide, by decide⟩

theorem group_filter_quoted_devOps :
    ¬ Stores (readerOf devOpsYaml devOpsSecret) (dumping devOpsYaml) freshAnswers devOpsSecret
      (settingPath ["groupSearch", "filter"]) (ldapFilter devOps) ∧
      (Accepted devOpsSecret → Undisturbed freshAnswers → IsAscii (groupsText devOps) →
        EndsClear devOps → ∀ filter,
          Stores (readerOf devOpsYaml devOpsSecret) (dumping devOpsYaml) freshAnswers devOpsSecret
            (settingPath ["groupSearch", "filter"]) filter ↔
              filter = "\"" ++ ldapFilter devOps ++ "\"") :=
  group_filter_quoted _ _ _ _ _ devOps (by decide) plain_devOps encodes_devOps lookup_devOps
    yamlLaws_devOps

theorem not_group_filter : ¬ ∀ (settings : Settings) (answers : Answers) (read : String → YamlReader)
    (data : List (String × String)) (encoded : String) (entries : List GroupEntry), entries ≠ [] →
      (∀ entry ∈ entries, PlainGroup entry) → Encodes encoded (groupsText entries) →
        data.lookup "groups" = some encoded → Accepted data → Undisturbed answers →
          YamlLaws read settings data →
            Stores read settings answers data (settingPath ["groupSearch", "filter"])
              (ldapFilter entries) := by
  intro h
  have haccepted : Accepted devOpsSecret := (secretConnector_isSome.mp (by decide +kernel)).1
  have hstores := h _ freshAnswers _ _ _ devOps (by decide) plain_devOps encodes_devOps lookup_devOps
    haccepted undisturbed_freshAnswers yamlLaws_devOps
  have hquoted := hstores.filter_eq (by decide) encodes_devOps lookup_devOps yamlLaws_devOps
  exact quotedFilter_ne _ hquoted.symm

end Manifests.DexSecret
