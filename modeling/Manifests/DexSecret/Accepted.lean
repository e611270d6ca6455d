import Manifests.DexSecret.Outcome

/-! Which auth secrets are accepted, and what their connector holds. -/
namespace Manifests.DexSecret
open Library Library.Script

section
variable {data : List (String × String)} {key bindType idAttr emailAttr : String}
  {config config' entries connector : Dict} {authTypeInfo : AuthTypeInfo}

/-- The bind settings of a secret can be taken over. -/
def BindAccepted (data : List (String × String)) : Prop :=
  ∀ encodedDn, present (data.lookup "bind_dn") = some encodedDn →
    (decode? encodedDn).isSome ∧ (field data "bind_pwd").isSome

/-- A secret without groups, or with groups of the form that the script takes for granted. -/
def GroupsAccepted (data : List (String × String)) : Prop :=
  ∀ encoded, present (data.lookup "groups") = some encoded →
    ((decode? encoded).bind groupSearch?).isSome

/-- What the script asks of the rest of a secret. -/
structure Accepted (data : List (String × String)) : Prop where
  type : field data "type" = some "LDAP" ∨ field data "type" = some "Active Directory"
  securityProtocol : (field data "security_protocol").isSome
  bindType : field data "bind_type" = some "search_bind"
  host : (field data "auth_service_locations").isSome
  bind : BindAccepted data
  baseDn : (field data "base_dn").isSome
  username : (field data "user_attr").isSome

theorem hostConfig_isSome :
    (hostConfig data config).isSome ↔ (field data "auth_service_locations").isSome := by
  rw [hostConfig, Option.isSome_map]

theorem bindConfig_isSome : (bindConfig data bindType config).isSome ↔
    bindType = "search_bind" ∧ BindAccepted data := by
  unfold bindConfig BindAccepted
  by_cases ht : bindType = "search_bind"
  · simp only [ht, ne_eq, not_true_eq_false, if_false, true_and]
    cases present (data.lookup "bind_dn") with
    | none => simp
    | some encodedDn =>
      cases hd : decode? encodedDn with
      | none => simp [hd]
      | some bindDn => simp [hd]
  · simp [ht]

theorem userConfig_isSome : (userConfig data entries config).isSome ↔
    (field data "base_dn").isSome ∧ (field data "user_attr").isSome := by
  unfold userConfig
  cases field data "base_dn" with
  | none => simp
  | some baseDn => simp

theorem groupConfig_isSome : (groupConfig data config).isSome ↔ GroupsAccepted data := by
  unfold groupConfig GroupsAccepted
  cases present (data.lookup "groups") with
  | none => simp
  | some encoded =>
    cases hd : decode? encoded with
    | none => simp [hd]
    | some group => simp [hd]

/-- The steps that lead to a connector's `config`. -/
theorem connectorConfig_iff : connectorConfig data authTypeInfo idAttr emailAttr = some config ↔
    ∃ c₁ c₂ c₃, hostConfig data [("userSearch", .dict (userEntries idAttr emailAttr))] = some c₁ ∧
      bindConfig data authTypeInfo.bindType c₁ = some c₂ ∧
        userConfig data (userEntries idAttr emailAttr)
          (securityConfig data authTypeInfo.securityProtocol c₂) = some c₃ ∧
            groupConfig data c₃ = some config := by
  simp only [connectorConfig, Option.bind_eq_some_iff, exists_and_left]

theorem connectorConfig_isSome : (connectorConfig data authTypeInfo idAttr emailAttr).isSome ↔
    (field data "auth_service_locations").isSome ∧
      (authTypeInfo.bindType = "search_bind" ∧ BindAccepted data) ∧
        ((field data "base_dn").isSome ∧ (field data "user_attr").isSome) ∧ GroupsAccepted data := by
  constructor
  · intro h
    obtain ⟨config, hconfig⟩ := Option.isSome_iff_exists.mp h
    obtain ⟨c₁, c₂, c₃, hhost, hbind, huser, hgroup⟩ := connectorConfig_iff.mp hconfig
    exact ⟨hostConfig_isSome.mp (Option.isSome_of_eq_some hhost),
      bindConfig_isSome.mp (Option.isSome_of_eq_some hbind),
      userConfig_isSome.mp (Option.isSome_of_eq_some huser),
      groupConfig_isSome.mp (Option.isSome_of_eq_some hgroup)⟩
  · rintro ⟨hhost, hbind, huser, hgroup⟩
    obtain ⟨c₁, h₁⟩ := Option.isSome_iff_exists.mp (hostConfig_isSome.mpr hhost)
    obtain ⟨c₂, h₂⟩ := Option.isSome_iff_exists.mp (bindConfig_isSome.mpr hbind)
    obtain ⟨c₃, h₃⟩ := Option.isSome_iff_exists.mp (userConfig_isSome.mpr huser)
    obtain ⟨config, h₄⟩ := Option.isSome_iff_exists.mp (groupConfig_isSome.mpr hgroup)
    exact Option.isSome_of_eq_some (connectorConfig_iff.mpr ⟨c₁, c₂, c₃, h₁, h₂, h₃, h₄⟩)

theorem connector?_isSome : (connector? data authTypeInfo).isSome ↔
    (authTypeInfo.directoryServer = "LDAP" ∨ authTypeInfo.directoryServer = "Active Directory") ∧
      (connectorConfig data authTypeInfo "uid" "uid").isSome := by
  have hsame : (connectorConfig data authTypeInfo "DN" "cn").isSome ↔
      (connectorConfig data authTypeInfo "uid" "uid").isSome := by
    rw [connectorConfig_isSome, connectorConfig_isSome]
  unfold connector?
  by_cases hl : authTypeInfo.directoryServer = "LDAP"
  · rw [if_pos hl, Option.isSome_map]
    simp [hl]
  · rw [if_neg hl]
    by_cases ha : authTypeInfo.directoryServer = "Active Directory"
    · rw [if_pos ha, Option.isSome_map, hsame]
      simp [ha]
    · simp [hl, ha]

theorem authTypeInfo?_eq_some : authTypeInfo? data = some authTypeInfo ↔
    field data "type" = some authTypeInfo.directoryServer ∧
      field data "security_protocol" = some authTypeInfo.securityProtocol ∧
        field data "bind_type" = some authTypeInfo.bindType := by
  obtain ⟨directoryServer, securityProtocol, bindType⟩ := authTypeInfo
  cases ht : field data "type" <;> cases hp : field data "security_protocol" <;>
    cases hb : field data "bind_type" <;> simp [authTypeInfo?, ht, hp, hb]

/-- The secrets that lead to a connector. -/
theorem secretConnector_isSome :
    (secretConnector data).isSome ↔ Accepted data ∧ GroupsAccepted data := by
  constructor
  · intro h
    obtain ⟨connector, hc⟩ := Option.isSome_iff_exists.mp h
    obtain ⟨info, hinfo, hconnector⟩ := Option.bind_eq_some_iff.mp hc
    obtain ⟨htype, hprotocol, hbindType⟩ := authTypeInfo?_eq_some.mp hinfo
    obtain ⟨hserver, hconfig⟩ := connector?_isSome.mp (Option.isSome_of_eq_some hconnector)
    obtain ⟨hhost, ⟨hsearch, hbind⟩, ⟨hbase, huser⟩, hgroups⟩ := connectorConfig_isSome.mp hconfig
    refine ⟨⟨?_, Option.isSome_of_eq_some hprotocol, hsearch ▸ hbindType, hhost, hbind, hbase, huser⟩,
      hgroups⟩
    rw [htype]
    simpa using hserver
  · rintro ⟨h, hgroups⟩
    obtain ⟨server, htype, hserver⟩ : ∃ server, field data "type" = some server ∧
        (server = "LDAP" ∨ server = "Active Directory") := by
      rcases h.type with htype | htype
      · exact ⟨_, htype, Or.inl rfl⟩
      · exact ⟨_, htype, Or.inr rfl⟩
    obtain ⟨protocol, hprotocol⟩ := Option.isSome_iff_exists.mp h.securityProtocol
    have hinfo : authTypeInfo? data = some ⟨server, protocol, "search_bind"⟩ :=
      authTypeInfo?_eq_some.mpr ⟨htype, hprotocol, h.bindType⟩
    rw [secretConnector, hinfo, Option.bind_some, connector?_isSome, connectorConfig_isSome]
    exact ⟨hserver, h.host, ⟨rfl, h.bind⟩, ⟨h.baseDn, h.username⟩, hgroups⟩

/-- A connector is built around its `config`. -/
theorem secretConnector_some (h : secretConnector data = some connector) :
    ∃ info id name idAttr emailAttr config, authTypeInfo? data = some info ∧
      connectorConfig data info idAttr emailAttr = some config ∧
        connector = connectorWith id name config := by
  obtain ⟨info, hinfo, hconnector⟩ := Option.bind_eq_some_iff.mp h
  unfold connector? at hconnector
  split at hconnector
  · obtain ⟨config, hconfig, rfl⟩ := Option.map_eq_some_iff.mp hconnector
    exact ⟨info, _, _, _, _, config, hinfo, hconfig, rfl⟩
  · split at hconnector
    · obtain ⟨config, hconfig, rfl⟩ := Option.map_eq_some_iff.mp hconnector
      exact ⟨info, _, _, _, _, config, hinfo, hconfig, rfl⟩
    · cases hconnector

theorem userConfig_get (h : userConfig data entries config = some config') (hk : key ≠ "userSearch") :
    config'.get key = config.get key := by
  obtain ⟨baseDn, _, h⟩ := Option.bind_eq_some_iff.mp h
  obtain ⟨username, _, rfl⟩ := Option.map_eq_some_iff.mp h
  exact Dict.get_set_ne hk

theorem groupConfig_get (h : groupConfig data config = some config') (hk : key ≠ "groupSearch") :
    config'.get key = config.get key := by
  unfold groupConfig at h
  split at h
  · cases h
    rfl
  · obtain ⟨group, _, h⟩ := Option.bind_eq_some_iff.mp h
    obtain ⟨⟨baseDn, filter⟩, _, rfl⟩ := Option.map_eq_some_iff.mp h
    exact Dict.get_set_ne hk

section
variable (h : connectorConfig data authTypeInfo idAttr emailAttr = some config)
include h

theorem connectorConfig_host : ∃ host, field data "auth_service_locations" = some host ∧
    config.get "host" = some (.str host) := by
  obtain ⟨c₁, c₂, c₃, hhost, hbind, huser, hgroup⟩ := connectorConfig_iff.mp h
  rw [groupConfig_get hgroup (by decide), userConfig_get huser (by decide),
    securityConfig_get (by decide), bindConfig_get hbind (by decide) (by decide)]
  obtain ⟨host, hfield, rfl⟩ := Option.map_eq_some_iff.mp hhost
  exact ⟨host, hfield, Dict.get_set_self⟩

theorem connectorConfig_userSearch : ∃ baseDn username, ∃ entries : Dict,
    field data "base_dn" = some baseDn ∧ field data "user_attr" = some username ∧
      config.get "userSearch" = some (.dict entries) ∧
        Dict.get entries "baseDN" = some (.str baseDn) ∧
          Dict.get entries "username" = some (.str username) := by
  obtain ⟨c₁, c₂, c₃, hhost, hbind, huser, hgroup⟩ := connectorConfig_iff.mp h
  rw [groupConfig_get hgroup (by decide)]
  obtain ⟨baseDn, hbase, huser⟩ := Option.bind_eq_some_iff.mp huser
  obtain ⟨username, hname, rfl⟩ := Option.map_eq_some_iff.mp huser
  exact ⟨baseDn, username, _, hbase, hname, Dict.get_set_self, by simp [Dict.get_set],
    by simp [Dict.get_set]⟩

/-- The keys of the security settings are set by their step alone. -/
theorem connectorConfig_security : ∃ c, (∀ key ∈ securityKeys, Dict.get c key = none) ∧
    ∀ key ∈ securityKeys,
      config.get key = (securityConfig data authTypeInfo.securityProtocol c).get key := by
  obtain ⟨c₁, c₂, c₃, hhost, hbind, huser, hgroup⟩ := connectorConfig_iff.mp h
  have hother : ∀ key ∈ securityKeys, key ≠ "groupSearch" ∧ key ≠ "userSearch" ∧ key ≠ "bindDN" ∧
      key ≠ "bindPW" ∧ key ≠ "host" := by decide
  refine ⟨c₂, fun key hk => ?_, fun key hk => ?_⟩
  · obtain ⟨_, hu, hd, hp, hh⟩ := hother key hk
    rw [bindConfig_get hbind hd hp, hostConfig_get hhost hh]
    simp [hu]
  · obtain ⟨hg, hu, _⟩ := hother key hk
    rw [groupConfig_get hgroup hg, userConfig_get huser hu]

theorem connectorConfig_groupSearch {encoded : String}
    (hgroups : present (data.lookup "groups") = some encoded) :
    ∃ group baseDn filter, decode? encoded = some group ∧ groupSearch? group = some (baseDn, filter) ∧
      config.get "groupSearch" = some (.dict [("baseDN", .str baseDn), ("filter", .str filter),
        ("nameAttr", .str "")]) := by
  obtain ⟨c₁, c₂, c₃, hhost, hbind, huser, hgroup⟩ := connectorConfig_iff.mp h
  rw [groupConfig, hgroups] at hgroup
  obtain ⟨group, hdecode, hgroup⟩ := Option.bind_eq_some_iff.mp hgroup
  obtain ⟨⟨baseDn, filter⟩, hsearch, rfl⟩ := Option.map_eq_some_iff.mp hgroup
  exact ⟨group, baseDn, filter, hdecode, hsearch, Dict.get_set_self⟩

end

end

end Manifests.DexSecret
