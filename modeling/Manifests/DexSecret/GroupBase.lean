import Manifests.DexSecret.GroupSearch

/-! The base DN of the group search. The loop stops at the first base DN that it finds, so that the
others are never compared with it, and it takes what is left of it by the first comma. -/
namespace Manifests.DexSecret
open Library

/-- The entries agree on the base DN. -/
def SameBase (entries : List GroupEntry) : Prop :=
  ∀ entry ∈ entries, ∀ entry' ∈ entries,
    entry.base ≠ "none" → entry'.base ≠ "none" → entry.base = entry'.base

/-- The loop gets to a base DN. -/
def Readable (entries : List GroupEntry) : Prop :=
  IsAscii (groupsText entries) ∧ FiltersClear entries

/-- Groups with one base DN are searched below it, and groups with several are rejected. -/
structure BaseHandled (settings : Settings) (answers : Answers) (read : String → YamlReader)
    (data : List (String × String)) (entries : List GroupEntry) : Prop where
  searches : SameBase entries →
    Stores read settings answers data (settingPath ["groupSearch", "baseDN"]) (commonBase entries)
  rejects : ¬ SameBase entries → (run settings (withSecret answers data)).created = [] ∧
    (run settings (withSecret answers data)).outcome ≠ .ok ()

section
variable {read : String → YamlReader} {settings : Settings} {answers : Answers}
  {data : List (String × String)} {encoded text : String} {entry : GroupEntry}
  {entries : List GroupEntry}

section
variable (hne : entries ≠ []) (hencodes : Encodes encoded (groupsText entries))
  (hlookup : data.lookup "groups" = some encoded)
include hne hencodes hlookup

/-- The base DN that a reader finds is what the loop ends with. -/
theorem Stores.entriesBase? (hy : YamlLaws read settings data)
    (h : Stores read settings answers data (settingPath ["groupSearch", "baseDN"]) text) :
    entriesBase? entries = some text := by
  obtain ⟨connector, hc, htext⟩ := h.found hy
  obtain ⟨baseDn, hbase, hfound, _⟩ := textAt_groupSearch hne hencodes hlookup hc
  rw [hfound] at htext
  rw [hbase, htext]

theorem secretConnector_isSome_groups (hgiven : BasesGiven entries) (ha : Accepted data) :
    (secretConnector data).isSome ↔ Readable entries := by
  rw [secretConnector_isSome, and_iff_right ha]
  exact groupsAccepted_iff hne hencodes hlookup hgiven

end

theorem run_of_none (h : secretConnector data = none) :
    (run settings (withSecret answers data)).created = [] ∧
      (run settings (withSecret answers data)).outcome ≠ .ok () := by
  have hcreated : (run settings (withSecret answers data)).created = [] := run_rejected h
  obtain hrejected | ⟨body, _, _, _, hbody, _⟩ := run_cases settings (withSecret answers data)
  · exact hrejected
  · rw [hcreated] at hbody
    cases hbody

/-- The groups are handled exactly when they agree on a base DN that is read whole, or when they do
not and something in them cannot be read at all. -/
theorem baseHandled_iff (settings : Settings) (answers : Answers) (read : String → YamlReader)
    (data : List (String × String)) (encoded : String) (entries : List GroupEntry) (hne : entries ≠ [])
    (hgiven : BasesGiven entries) (hencodes : Encodes encoded (groupsText entries))
    (hlookup : data.lookup "groups" = some encoded) (ha : Accepted data) (hu : Undisturbed answers)
    (hy : YamlLaws read settings data) :
    BaseHandled settings answers read data entries ↔
      (SameBase entries ∧ Readable entries ∧ FirstWhole entries) ∨
        (¬ SameBase entries ∧ ¬ Readable entries) := by
  have hsome := secretConnector_isSome_groups hne hencodes hlookup hgiven ha
  constructor
  · intro h
    by_cases hsame : SameBase entries
    · have hstores := h.searches hsame
      obtain ⟨connector, hc, _⟩ := hstores.found hy
      have hbase := hstores.entriesBase? hne hencodes hlookup hy
      obtain ⟨_, hwhole⟩ := (entriesBase?_eq_commonBase hgiven).mp hbase
      exact Or.inl ⟨hsame, hsome.mp (Option.isSome_of_eq_some hc), hwhole⟩
    · refine Or.inr ⟨hsame, fun hreadable => ?_⟩
      obtain ⟨connector, hc⟩ := Option.isSome_iff_exists.mp (hsome.mpr hreadable)
      obtain ⟨_, _, _, _, hok, _⟩ := run_of_connector hu hy hc
      exact (h.rejects hsame).2 hok
  · rintro (⟨hsame, hreadable, hwhole⟩ | ⟨hdiffer, hunreadable⟩)
    · constructor
      · intro _
        obtain ⟨connector, hc⟩ := Option.isSome_iff_exists.mp (hsome.mpr hreadable)
        obtain ⟨baseDn, hbase, hfound, _⟩ := textAt_groupSearch hne hencodes hlookup hc
        have hcommon := (entriesBase?_eq_commonBase hgiven).mpr ⟨hreadable.2, hwhole⟩
        rw [hcommon] at hbase
        cases hbase
        exact stores_of_connector hu hy hc hfound
      · intro hdiffer
        exact (hdiffer hsame).elim
    · constructor
      · intro hsame
        exact (hdiffer hsame).elim
      · intro _
        exact run_of_none (Option.not_isSome_iff_eq_none.mp (mt hsome.mp hunreadable))

end

/-- An RDN is checked character by character. -/
theorem isRdn_of_all (name value : String)
    (h : name.toList.all fun c => c.isAlphanum || c = '-' || c = '.') : IsRdn (name ++ "=" ++ value) := by
  refine ⟨name, value, rfl, fun c hc => ?_⟩
  simpa [or_assoc] using List.all_eq_true.mp h c hc

theorem isRdn_groups : IsRdn "ou=groups" := isRdn_of_all "ou" "groups" (by decide)

theorem basesGiven_devOps : BasesGiven devOps := by
  intro entry h
  have hdn : IsDn "ou=groups" := by
    refine ⟨["ou=groups"], by decide, fun rdn hrdn => ?_⟩
    rw [List.mem_singleton.mp hrdn]
    exact isRdn_groups
  simp only [devOps, List.mem_cons, List.not_mem_nil, or_false] at h
  rcases h with rfl | rfl
  · exact Or.inr hdn
  · exact Or.inr hdn

theorem accepted_devOps : Accepted devOpsSecret := (secretConnector_isSome.mp (by decide +kernel)).1

theorem baseHandled_iff_devOps :
    BaseHandled (dumping devOpsYaml) freshAnswers (readerOf devOpsYaml devOpsSecret) devOpsSecret devOps ↔
      (SameBase devOps ∧ Readable devOps ∧ FirstWhole devOps) ∨
        (¬ SameBase devOps ∧ ¬ Readable devOps) :=
  baseHandled_iff _ _ _ _ _ devOps (by decide) basesGiven_devOps encodes_devOps lookup_devOps
    accepted_devOps undisturbed_freshAnswers yamlLaws_devOps

theorem dev_comma : ',' ∉ "cn=dev".toList := by decide

/-- One group below `ou=groups,dc=example`. -/
def exampleGroup : List GroupEntry := [⟨"cn=dev", "ou=groups,dc=example", dev_comma⟩]

def exampleSecret : List (String × String) := groupedSecret "Y249ZGV2LG91PWdyb3VwcyxkYz1leGFtcGxl"

def exampleYaml : String := groupedYaml "ou=groups" "'\"(cn=dev)\"'"

theorem basesGiven_exampleGroup : BasesGiven exampleGroup := by
  intro entry he
  rw [List.mem_singleton.mp he]
  refine Or.inr ⟨["ou=groups", "dc=example"], by decide, fun rdn hrdn => ?_⟩
  simp only [List.mem_cons, List.not_mem_nil, or_false] at hrdn
  rcases hrdn with rfl | rfl
  · exact isRdn_groups
  · exact isRdn_of_all "dc" "example" (by decide)

theorem encodes_exampleGroup :
    Encodes "Y249ZGV2LG91PWdyb3VwcyxkYz1leGFtcGxl" (groupsText exampleGroup) :=
  (encodes_of_b64encode (by decide +kernel)).1

theorem lookup_exampleSecret :
    exampleSecret.lookup "groups" = some "Y249ZGV2LG91PWdyb3VwcyxkYz1leGFtcGxl" := by decide

theorem accepted_exampleSecret : Accepted exampleSecret :=
  (secretConnector_isSome.mp (by decide +kernel)).1

theorem yamlLaws_exampleSecret :
    YamlLaws (readerOf exampleYaml exampleSecret) (dumping exampleYaml) exampleSecret :=
  yamlLaws_readerOf (isAscii_anonymousYaml (by decide +kernel) (by decide +kernel))

theorem sameBase_exampleGroup : SameBase exampleGroup := by
  intro e₁ h₁ e₂ h₂ _ _
  rw [List.mem_singleton.mp h₁, List.mem_singleton.mp h₂]

theorem entriesBase?_exampleGroup : entriesBase? exampleGroup = some "ou=groups" := by decide +kernel

/-- The base DN of a single group is cut off at its first comma. -/
theorem not_baseHandled : ¬ ∀ (settings : Settings) (answers : Answers) (read : String → YamlReader)
    (data : List (String × String)) (encoded : String) (entries : List GroupEntry), entries ≠ [] →
      BasesGiven entries → Encodes encoded (groupsText entries) →
        data.lookup "groups" = some encoded → Accepted data → Undisturbed answers →
          YamlLaws read settings data → BaseHandled settings answers read data entries := by
  intro h
  have hhandled := h _ freshAnswers _ _ _ exampleGroup (by decide) basesGiven_exampleGroup
    encodes_exampleGroup lookup_exampleSecret accepted_exampleSecret undisturbed_freshAnswers
    yamlLaws_exampleSecret
  have hbase := (hhandled.searches sameBase_exampleGroup).entriesBase? (by decide) encodes_exampleGroup
    lookup_exampleSecret yamlLaws_exampleSecret
  rw [entriesBase?_exampleGroup] at hbase
  revert hbase
  decide

end Manifests.DexSecret
