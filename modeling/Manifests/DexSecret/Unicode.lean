import Manifests.DexSecret.GroupSearch

/-! Settings in any text: both codecs of the script are ASCII, so that a secret in UTF-8 leads to a
config only when the texts that are read are ASCII. -/
namespace Manifests.DexSecret
open Library

/-- The keys of the texts that the script decodes for a supported secret, apart from the three that
say what it supports. -/
def textKeys : List String :=
  ["auth_service_locations", "base_dn", "user_attr", "bind_dn", "bind_pwd", "groups"]

/-- The groups of a secret have the form that the script takes for granted. -/
def GroupsFormed (data : List (String × String)) : Prop :=
  textOf data "groups" ≠ "" → ∀ group ∈ Text.split "::::" (textOf data "groups"),
    Text.contains "," group = true

/-- The run succeeds, and its config and its password have the texts of the secret. -/
structure Survives (settings : Settings) (answers : Answers) (read : String → YamlReader)
    (data : List (String × String)) : Prop where
  succeeds : (run settings (withSecret answers data)).outcome = .ok ()
  host : Stores read settings answers data (settingPath ["host"]) (textOf data "auth_service_locations")
  bindDn : textOf data "bind_dn" ≠ "" →
    Stores read settings answers data (settingPath ["bindDN"]) (textOf data "bind_dn")
  baseDn : Stores read settings answers data (settingPath ["userSearch", "baseDN"]) (textOf data "base_dn")
  username : Stores read settings answers data (settingPath ["userSearch", "username"])
    (textOf data "user_attr")
  bindPw : ∃ configYaml bindPw, (run settings (withSecret answers data)).created =
    [dexConfigSecret configYaml bindPw] ∧
      (Text.encodeAscii bindPw).bind Base64.decode = some (Text.encodeUtf8 (textOf data "bind_pwd"))

section
variable {read : String → YamlReader} {settings : Settings} {answers : Answers}
  {data : List (String × String)} {connector : Dict}

theorem groupsAccepted_of_formed (hv : Utf8Values data) (h : GroupsFormed data) :
    GroupsAccepted data ↔ IsAscii (textOf data "groups") := by
  cases hp : present (data.lookup "groups") with
  | none =>
    have hascii : IsAscii (textOf data "groups") := by
      rw [(present_eq_none hv).mp hp]
      decide
    simp [GroupsAccepted, hp, hascii]
  | some encoded =>
    have hsearch : (groupSearch? (textOf data "groups")).isSome := by
      rw [groupSearch?_eq, Option.isSome_map]
      exact baseDn?_isSome (h (textOf_ne_empty hv hp))
    unfold GroupsAccepted
    simp only [hp, Option.some.injEq, forall_eq']
    rw [(encodes_present hv hp).bind_decode?]
    by_cases ha : IsAscii (textOf data "groups")
    · simp [ha, hsearch]
    · simp [ha]

/-- A supported secret leads to a connector when the texts that are read are ASCII. -/
theorem secretConnector_isSome_supported (hv : Utf8Values data) (hs : Supported data)
    (hg : GroupsFormed data) : (secretConnector data).isSome ↔
      (∀ key ∈ ["auth_service_locations", "base_dn", "user_attr", "bind_dn", "groups"],
        IsAscii (textOf data key)) ∧
      (textOf data "bind_dn" ≠ "" → IsAscii (textOf data "bind_pwd")) := by
  obtain ⟨hother, hprotocol⟩ := hs
  have htype : field data "type" = some "LDAP" ∨ field data "type" = some "Active Directory" :=
    hother.type.imp (fun h => (field_eq_some hv).mpr ⟨h, by decide, by decide⟩)
      fun h => (field_eq_some hv).mpr ⟨h, by decide, by decide⟩
  have hsecurity : (field data "security_protocol").isSome := by
    have hall : ∀ protocol ∈ supportedProtocols, protocol ≠ "" ∧ IsAscii protocol := by decide
    exact (field_isSome hv).mpr (hall _ hprotocol)
  have hbindType : field data "bind_type" = some "search_bind" :=
    (field_eq_some hv).mpr ⟨hother.bindType, by decide, by decide⟩
  have hhost : (field data "auth_service_locations").isSome ↔
      IsAscii (textOf data "auth_service_locations") := by
    rw [field_isSome hv, and_iff_right hother.host]
  have hbase : (field data "base_dn").isSome ↔ IsAscii (textOf data "base_dn") := by
    rw [field_isSome hv, and_iff_right hother.baseDn]
  have huser : (field data "user_attr").isSome ↔ IsAscii (textOf data "user_attr") := by
    rw [field_isSome hv, and_iff_right hother.userAttr]
  have hbind : BindAccepted data ↔ IsAscii (textOf data "bind_dn") ∧
      (textOf data "bind_dn" ≠ "" → IsAscii (textOf data "bind_pwd")) := by
    rw [bindAccepted_iff hv]
    by_cases hdn : textOf data "bind_dn" = ""
    · have hascii : IsAscii "" := by decide
      simp [hdn, hascii]
    · simp [hdn, hother.bindPwd hdn]
  rw [secretConnector_isSome, groupsAccepted_of_formed hv hg]
  constructor
  · rintro ⟨h, hgroups⟩
    obtain ⟨hdn, hpwd⟩ := hbind.mp h.bind
    simp only [List.forall_mem_cons, List.not_mem_nil, false_implies, implies_true, and_true]
    exact ⟨⟨hhost.mp h.host, hbase.mp h.baseDn, huser.mp h.username, hdn, hgroups⟩, hpwd⟩
  · rintro ⟨hkeys, hpwd⟩
    simp only [List.forall_mem_cons, List.not_mem_nil, false_implies, implies_true, and_true] at hkeys
    obtain ⟨h₁, h₂, h₃, hdn, hgroups⟩ := hkeys
    exact ⟨⟨htype, hsecurity, hbindType, hhost.mpr h₁, hbind.mpr ⟨hdn, hpwd⟩, hbase.mpr h₂,
      huser.mpr h₃⟩, hgroups⟩

theorem decode?_of_decodes {source text : String} (h : Decodes source text) :
    decode? source = some text := by
  have hcomputes : (b64decode source {}).1.toOption = decode? source := computes_b64decode {}
  rw [h {}] at hcomputes
  exact hcomputes.symm

theorem decodes_text (hv : Utf8Values data) {key encoded text : String}
    (hp : present (data.lookup key) = some encoded) (h : Decodes encoded text) : textOf data key = text :=
  ((decode?_present hv hp).mp (decode?_of_decodes h)).1

/-- The password of a run is that of the secret when there is a `bind_dn`, and empty otherwise. -/
theorem bindSettings_password (hv : Utf8Values data) {pw : String}
    (h : BindSettings data connector "" pw) :
    pw = if textOf data "bind_dn" = "" then "" else textOf data "bind_pwd" := by
  unfold BindSettings at h
  split at h
  · next hnone => rw [if_pos ((present_eq_none hv).mp hnone), h.2.2]
  · next encodedDn hsome =>
    obtain ⟨_, encodedPw, _, _, _, hp, hdecodes⟩ := h
    rw [if_neg (textOf_ne_empty hv hsome), decodes_text hv hp hdecodes]

theorem bindSettings_bindDn (hv : Utf8Values data) {pw : String}
    (h : BindSettings data connector "" pw) (hne : textOf data "bind_dn" ≠ "") :
    configKey connector "bindDN" = some (.str (textOf data "bind_dn")) := by
  unfold BindSettings at h
  split at h
  · next hnone => exact (hne ((present_eq_none hv).mp hnone)).elim
  · next encodedDn hsome =>
    obtain ⟨bindDn, _, hdecodes, hkey, _⟩ := h
    rw [hkey, decodes_text hv hsome hdecodes]

theorem decode_bindPw {pw bindPw : String} (h : b64encode pw = some bindPw) :
    (Text.encodeAscii bindPw).bind Base64.decode = some (Text.encodeUtf8 pw) := by
  have hencodes := (encodes_of_b64encode h).1
  unfold Encodes at hencodes
  rw [hencodes, Option.bind_some, Base64.decode_encode]

section
variable (hv : Utf8Values data) (hs : Supported data) (hg : GroupsFormed data) (hu : Undisturbed answers)
  (hy : YamlLaws read settings data)
include hv hs hg hu hy

/-- What survives has gone through the ASCII codec. -/
theorem Survives.ascii (h : Survives settings answers read data) :
    (∀ key ∈ textKeys, IsAscii (textOf data key)) ∧
      (textOf data "bind_dn" = "" → textOf data "bind_pwd" = "") := by
  obtain ⟨connector, hc, _⟩ := h.host.found hy
  obtain ⟨hkeys, _⟩ := (secretConnector_isSome_supported hv hs hg).mp (Option.isSome_of_eq_some hc)
  obtain ⟨_, pw, bindPw, _, _, hcreated, hbind, hpw⟩ := run_of_connector hu hy hc
  obtain ⟨_, _, hcreated', hdecode⟩ := h.bindPw
  rw [hcreated] at hcreated'
  cases hcreated'
  rw [decode_bindPw hpw] at hdecode
  have hsame : pw = textOf data "bind_pwd" := encodeUtf8_injective (Option.some.inj hdecode)
  have hascii : IsAscii (textOf data "bind_pwd") := hsame ▸ (encodes_of_b64encode hpw).2
  have hpassword := bindSettings_password hv hbind
  rw [hsame] at hpassword
  simp only [textKeys, List.forall_mem_cons, List.not_mem_nil, false_implies, implies_true,
    and_true] at hkeys ⊢
  obtain ⟨hhost, hbase, huser, hdn, hgroups⟩ := hkeys
  exact ⟨⟨hhost, hbase, huser, hdn, hascii, hgroups⟩, fun hnone => by rw [hpassword, if_pos hnone]⟩

theorem survives_of_ascii (hkeys : ∀ key ∈ textKeys, IsAscii (textOf data key))
    (hempty : textOf data "bind_dn" = "" → textOf data "bind_pwd" = "") :
    Survives settings answers read data := by
  have hsubset : ["auth_service_locations", "base_dn", "user_attr", "bind_dn", "groups"] ⊆ textKeys := by
    decide
  have hsome := (secretConnector_isSome_supported hv hs hg).mpr
    ⟨fun key hk => hkeys key (hsubset hk), fun _ => hkeys _ (by decide)⟩
  obtain ⟨connector, hc⟩ := Option.isSome_iff_exists.mp hsome
  obtain ⟨configYaml, pw, bindPw, _, hok, hcreated, hbind, hpw⟩ := run_of_connector hu hy hc
  obtain ⟨_, id, name, _, _, config, _, hconfig, rfl⟩ := secretConnector_some hc
  obtain ⟨host, hhost, hgetHost⟩ := connectorConfig_host hconfig
  obtain ⟨baseDn, username, entries, hbase, huser, hget, hgetBase, hgetUser⟩ :=
    connectorConfig_userSearch hconfig
  obtain ⟨rfl, _⟩ := (field_eq_some hv).mp hhost
  obtain ⟨rfl, _⟩ := (field_eq_some hv).mp hbase
  obtain ⟨rfl, _⟩ := (field_eq_some hv).mp huser
  have hpassword : pw = textOf data "bind_pwd" := by
    rw [bindSettings_password hv hbind]
    split
    · next hnone => rw [hempty hnone]
    · rfl
  constructor
  · exact hok
  · apply stores_setting hu hy hc
    simp [Value.textAt, Value.get, hgetHost]
  · intro hne
    have hgetDn : config.get "bindDN" = some (.str (textOf data "bind_dn")) :=
      bindSettings_bindDn hv hbind hne
    apply stores_setting hu hy hc
    simp [Value.textAt, Value.get, hgetDn]
  · apply stores_setting hu hy hc
    simp [Value.textAt, Value.get, hget, hgetBase]
  · apply stores_setting hu hy hc
    simp [Value.textAt, Value.get, hget, hgetUser]
  · exact ⟨configYaml, bindPw, hcreated, hpassword ▸ decode_bindPw hpw⟩

end

/-- The texts of a secret survive exactly when they are ASCII, with no password but for a `bind_dn`. -/
theorem survives_iff (settings : Settings) (answers : Answers) (read : String → YamlReader)
    (data : List (String × String)) (hv : Utf8Values data) (hs : Supported data) (hg : GroupsFormed data)
    (hu : Undisturbed answers) (hy : YamlLaws read settings data) :
    Survives settings answers read data ↔ (∀ key ∈ textKeys, IsAscii (textOf data key)) ∧
      (textOf data "bind_dn" = "" → textOf data "bind_pwd" = "") := by
  constructor
  · intro h
    exact h.ascii hv hs hg hu hy
  · rintro ⟨hkeys, hempty⟩
    exact survives_of_ascii hv hs hg hu hy hkeys hempty

end

/-- A secret of an LDAP server with the password `secret`. -/
def boundSecret (bindDn : String) : List (String × String) :=
  anonymousSecret "bGRhcHM=" ++ [("bind_dn", bindDn), ("bind_pwd", "c2VjcmV0")]

def boundYaml (bindDn : String) : String :=
  anonymousYaml ["    bindDN: ", bindDn, "\n", "    bindPW: $AUTH_SECRET_BIND_PW\n"]
    ["    startTLS: false\n"]

theorem isAscii_boundYaml {bindDn : String} (h : IsAscii bindDn) : IsAscii (boundYaml bindDn) := by
  refine isAscii_anonymousYaml ?_ (by decide +kernel)
  simp only [List.forall_mem_cons, List.not_mem_nil, false_implies, implies_true, and_true]
  exact ⟨by decide, h, by decide, by decide +kernel⟩

theorem textOf_boundSecret {bindDn key : String} (h : key ≠ "bind_dn") :
    textOf (boundSecret bindDn) key = textOf (boundSecret "") key := by
  have hb : (key == "bind_dn") = false := by simpa using h
  simp [textOf, boundSecret, List.lookup, List.lookup_append, hb]

theorem supported_boundSecret (bindDn : String) : Supported (boundSecret bindDn) := by
  refine ⟨⟨Or.inl ?_, ?_, ?_, ?_, ?_, fun _ => ?_⟩, ?_⟩
  all_goals
    rw [textOf_boundSecret (by decide)]
    decide +kernel

theorem groupsFormed_boundSecret (bindDn : String) : GroupsFormed (boundSecret bindDn) := by
  intro h
  rw [textOf_boundSecret (by decide)] at h
  exact (h (by decide +kernel)).elim

theorem survives_iff_boundSecret :
    Survives (dumping (boundYaml "cn=admin")) freshAnswers
        (readerOf (boundYaml "cn=admin") (boundSecret "Y249YWRtaW4=")) (boundSecret "Y249YWRtaW4=") ↔
      (∀ key ∈ textKeys, IsAscii (textOf (boundSecret "Y249YWRtaW4=") key)) ∧
        (textOf (boundSecret "Y249YWRtaW4=") "bind_dn" = "" →
          textOf (boundSecret "Y249YWRtaW4=") "bind_pwd" = "") :=
  survives_iff _ _ _ _ (utf8Values_of_all (by decide +kernel)) (supported_boundSecret _)
    (groupsFormed_boundSecret _) undisturbed_freshAnswers
    (yamlLaws_readerOf (isAscii_boundYaml (by decide)))

theorem secretConnector_umlaut : secretConnector (boundSecret "Y249asO2cmc=") = none :=
  Option.not_isSome_iff_eq_none.mp (by decide +kernel)

/-- The `bind_dn` of the secret is `cn=jörg`. -/
theorem not_survives : ¬ ∀ (settings : Settings) (answers : Answers) (read : String → YamlReader)
    (data : List (String × String)), Utf8Values data → Supported data → GroupsFormed data →
      Undisturbed answers → YamlLaws read settings data → Survives settings answers read data := by
  intro h
  have hy : YamlLaws (readerOf (boundYaml "") (boundSecret "Y249asO2cmc=")) (dumping (boundYaml ""))
      (boundSecret "Y249asO2cmc=") := yamlLaws_readerOf (isAscii_boundYaml (by decide))
  have hsurvives := h _ freshAnswers _ _ (utf8Values_of_all (by decide +kernel))
    (supported_boundSecret _) (groupsFormed_boundSecret _) undisturbed_freshAnswers hy
  obtain ⟨connector, hc, _⟩ := hsurvives.host.found hy
  rw [secretConnector_umlaut] at hc
  cases hc

end Manifests.DexSecret
