import Manifests.DexSecret.Secrecy

/-! What a run makes of an auth secret, without its printing and its error messages: the connector
as a function of the secret's data, and when the run gets to the create call. -/
namespace Manifests.DexSecret
open Library Library.Script

/-- `b64decode` without the errors. -/
def decode? (source : String) : Option String := do
  let raw ← Text.encodeAscii source
  let bytes ← Base64.decode raw
  Text.decodeAscii bytes

section
variable (data : List (String × String))

/-- The decoded value of a required key. -/
def field (key : String) : Option String := (present (data.lookup key)).bind decode?

def authTypeInfo? : Option AuthTypeInfo := do
  let directoryServer ← field data "type"
  let securityProtocol ← field data "security_protocol"
  let bindType ← field data "bind_type"
  return { directoryServer, securityProtocol, bindType }

/-! The connector's `config` after each step. -/

def hostConfig (config : Dict) : Option Dict :=
  (field data "auth_service_locations").map fun host => config.set "host" (.str host)

def bindConfig (bindType : String) (config : Dict) : Option Dict :=
  if bindType ≠ "search_bind" then none
  else match present (data.lookup "bind_dn") with
    | none => some config
    | some encodedDn =>
      (decode? encodedDn).bind fun bindDn => (field data "bind_pwd").map fun _ =>
        (config.set "bindDN" (.str bindDn)).set "bindPW" (.str ("$" ++ dexConfigSecretBindPw))

def rootCaConfig (config : Dict) : Dict :=
  match present (data.lookup "ca_cert") with
  | none => config.set "insecureSkipVerify" (.bool true)
  | some rootCaData =>
    (config.set "insecureSkipVerify" (.bool false)).set "rootCAData" (.str rootCaData)

def startTlsConfig (securityProtocol : String) (config : Dict) : Dict :=
  if securityProtocol = "ldaps" then config.set "startTLS" (.bool false)
  else if securityProtocol = "starttls" then config.set "startTLS" (.bool true)
  else config

def securityConfig (securityProtocol : String) (config : Dict) : Dict :=
  if securityProtocol = "none" then
    ((config.set "startTLS" (.bool false)).set "insecureNoSSL" (.bool true)).set
      "insecureSkipVerify" (.bool true)
  else
    startTlsConfig securityProtocol (rootCaConfig data (config.set "insecureNoSSL" (.bool false)))

def userConfig (entries config : Dict) : Option Dict :=
  (field data "base_dn").bind fun userBaseDn => (field data "user_attr").map fun username =>
    config.set "userSearch" (.dict (((entries.set "baseDN" (.str userBaseDn)).set
      "username" (.str username)).set "nameAttr" (.str username)))

/-- The base DN and the filter, when the groups have the form that the script takes for granted. -/
def groupSearch? (group : String) : Option (String × String) := (groupSearch group {}).1.toOption

def groupConfig (config : Dict) : Option Dict :=
  match present (data.lookup "groups") with
  | none => some config
  | some encoded =>
    (decode? encoded).bind fun group => (groupSearch? group).map fun (baseDn, filter) =>
      config.set "groupSearch"
        (.dict [("baseDN", .str baseDn), ("filter", .str filter), ("nameAttr", .str "")])

/-- What both builders start the user search with. -/
def userEntries (idAttr emailAttr : String) : Dict :=
  [("idAttr", .str idAttr), ("emailAttr", .str emailAttr)]

def connectorConfig (authTypeInfo : AuthTypeInfo) (idAttr emailAttr : String) : Option Dict :=
  (hostConfig data [("userSearch", .dict (userEntries idAttr emailAttr))]).bind fun config =>
    (bindConfig data authTypeInfo.bindType config).bind fun config =>
      (userConfig data (userEntries idAttr emailAttr)
        (securityConfig data authTypeInfo.securityProtocol config)).bind (groupConfig data)

def connectorWith (id name : String) (config : Dict) : Dict :=
  [("id", .str id), ("name", .str name), ("type", .str "ldap"), ("config", .dict config)]

def connector? (authTypeInfo : AuthTypeInfo) : Option Dict :=
  if authTypeInfo.directoryServer = "LDAP" then
    (connectorConfig data authTypeInfo "uid" "uid").map (connectorWith "ldap" "LDAP")
  else if authTypeInfo.directoryServer = "Active Directory" then
    (connectorConfig data authTypeInfo "DN" "cn").map (connectorWith "ad" "ActiveDirectory")
  else none

/-- The connector of a secret that is accepted. -/
def secretConnector : Option Dict := (authTypeInfo? data).bind (connector? data)

end

section
variable {data : List (String × String)} {key id name search source : String} {v : Value}
  {config entries : Dict} {authTypeInfo : AuthTypeInfo}

theorem dataGet_eq : Secret.dataGet ⟨some data⟩ key = pure (data.lookup key) := rfl

theorem computes_print (words : List String) : Computes (print words) (some ()) :=
  computes_modify _

theorem computes_b64decode : Computes (b64decode source) (decode? source) :=
  computes_bind (computes_ofOption _ _) fun _ => computes_bind (computes_ofOption _ _) fun _ =>
    computes_ofOption _ _

theorem computes_required : Computes (required ⟨some data⟩ key) (present (data.lookup key)) := by
  rw [required, dataGet_eq, pure_bind_eq]
  cases present (data.lookup key) with
  | none => exact computes_raise _
  | some s => exact computes_pure s

/-- A required value is read and decoded. -/
theorem computes_field {β : Type} {k : String → Py β} {t : String → Option β}
    (hk : ∀ s, Computes (k s) (t s)) :
    Computes (required ⟨some data⟩ key >>= fun encoded => b64decode encoded >>= k)
      ((field data key).bind t) := by
  rw [field, Option.bind_assoc]
  exact computes_bind computes_required fun encoded => computes_bind computes_b64decode hk

theorem computes_authTypeInfo : Computes (getAuthTypeInfo ⟨some data⟩) (authTypeInfo? data) :=
  computes_seq (computes_print _) <| computes_field fun _ => computes_field fun _ =>
    computes_field fun _ => computes_pure _

theorem getDict_connectorWith :
    getDict (connectorWith id name config) "config" = (pure config : Py Dict) := rfl

theorem setConfig_connectorWith : setConfig (connectorWith id name config) key v =
    pure (connectorWith id name (config.set key v)) := rfl

theorem setSearch_connectorWith (h : config.get search = some (.dict entries)) :
    setSearch (connectorWith id name config) search key v =
      pure (connectorWith id name (config.set search (.dict (entries.set key v)))) := by
  have hsearch : getDict config search = (pure entries : Py Dict) := by
    rw [getDict, h]
  rw [setSearch, getDict_connectorWith, pure_bind_eq, hsearch]
  rfl

theorem computes_host : Computes (getHostConfigured ⟨some data⟩ (connectorWith id name config))
    ((hostConfig data config).map (connectorWith id name)) := by
  rw [hostConfig, Option.map_map, Option.map_eq_bind]
  refine computes_seq (computes_print _) (computes_field fun host => ?_)
  rw [setConfig_connectorWith, pure_bind_eq]
  exact computes_seq (computes_print _) (computes_pure _)

theorem computes_bindSettings :
    Computes (getBindConfigured ⟨some data⟩ (connectorWith id name config) authTypeInfo)
      ((bindConfig data authTypeInfo.bindType config).map (connectorWith id name)) := by
  refine computes_seq (computes_print _) ?_
  unfold bindConfig
  split
  · exact computes_raise _
  · rw [dataGet_eq, pure_bind_eq]
    cases present (data.lookup "bind_dn") with
    | none => exact computes_pure _
    | some encodedDn =>
      simp only [Option.map_eq_bind, Option.bind_assoc, Option.bind_some, Function.comp_def]
      refine computes_bind computes_b64decode fun bindDn => computes_field fun bindPw => ?_
      rw [setConfig_connectorWith, pure_bind_eq, setConfig_connectorWith, pure_bind_eq]
      exact computes_seq (computes_modify _) (computes_seq (computes_print _) (computes_pure _))

theorem setRootCa_eq : setRootCa ⟨some data⟩ (connectorWith id name config) =
    pure (connectorWith id name (rootCaConfig data config)) := by
  unfold setRootCa rootCaConfig
  rw [dataGet_eq, pure_bind_eq]
  cases present (data.lookup "ca_cert") with
  | none => rfl
  | some rootCaData => rfl

theorem setStartTls_eq : setStartTls (connectorWith id name config) authTypeInfo =
    pure (connectorWith id name (startTlsConfig authTypeInfo.securityProtocol config)) := by
  unfold setStartTls startTlsConfig
  split
  · rfl
  · split <;> rfl

theorem computes_security :
    Computes (getSecurityConfigured ⟨some data⟩ (connectorWith id name config) authTypeInfo)
      (some (connectorWith id name (securityConfig data authTypeInfo.securityProtocol config))) := by
  refine computes_seq (computes_print _) ?_
  unfold securityConfig
  split
  · simp only [setConfig_connectorWith, pure_bind_eq]
    exact computes_seq (computes_print _) (computes_pure _)
  · simp only [setConfig_connectorWith, pure_bind_eq, setRootCa_eq, setStartTls_eq]
    exact computes_seq (computes_print _) (computes_pure _)

theorem computes_user (h : config.get "userSearch" = some (.dict entries)) :
    Computes (getUserSearchConfigured ⟨some data⟩ (connectorWith id name config))
      ((userConfig data entries config).map (connectorWith id name)) := by
  unfold userConfig
  simp only [Option.map_eq_bind, Option.bind_assoc, Option.bind_some, Function.comp_def]
  refine computes_seq (computes_print _) (computes_field fun baseDn => computes_field fun username => ?_)
  rw [setSearch_connectorWith h, pure_bind_eq, setSearch_connectorWith Dict.get_set_self, pure_bind_eq,
    setSearch_connectorWith Dict.get_set_self, pure_bind_eq]
  simp only [Dict.set_set]
  exact computes_seq (computes_print _) (computes_pure _)

/-- The groups are taken apart without a look at the globals. -/
theorem computes_groupSearch (group : String) : Computes (groupSearch group) (groupSearch? group) := by
  obtain ⟨r, _, _, hr⟩ := (plain_groupSearch group).oblivious.run
  intro g
  rw [groupSearch?, hr, hr]

theorem computes_group : Computes (getGroupSearchConfigured ⟨some data⟩ (connectorWith id name config))
    ((groupConfig data config).map (connectorWith id name)) := by
  unfold groupConfig
  refine computes_seq (computes_print _) ?_
  rw [dataGet_eq, pure_bind_eq]
  cases present (data.lookup "groups") with
  | none => exact computes_seq (computes_print _) (computes_pure _)
  | some encoded =>
    simp only [Option.map_eq_bind, Option.bind_assoc, Option.bind_some, Function.comp_def]
    rw [setConfig_connectorWith, pure_bind_eq]
    refine computes_bind computes_b64decode fun group => computes_bind (computes_groupSearch group) ?_
    rintro ⟨baseDn, filter⟩
    rw [setSearch_connectorWith Dict.get_set_self, pure_bind_eq,
      setSearch_connectorWith Dict.get_set_self, pure_bind_eq,
      setSearch_connectorWith Dict.get_set_self, pure_bind_eq]
    simp only [Dict.set_set]
    exact computes_seq (computes_print _) (computes_pure _)

end

section
variable {data : List (String × String)} {key id name idAttr emailAttr : String}
  {config config' connector : Dict} {authTypeInfo : AuthTypeInfo} {settings : Settings}
  {answers : Answers}

theorem hostConfig_get (h : hostConfig data config = some config') (hk : key ≠ "host") :
    config'.get key = config.get key := by
  obtain ⟨host, _, rfl⟩ := Option.map_eq_some_iff.mp h
  exact Dict.get_set_ne hk

theorem bindConfig_get {bindType : String} (h : bindConfig data bindType config = some config')
    (hd : key ≠ "bindDN") (hp : key ≠ "bindPW") : config'.get key = config.get key := by
  unfold bindConfig at h
  split at h
  · cases h
  · split at h
    · cases h
      rfl
    · obtain ⟨bindDn, _, h⟩ := Option.bind_eq_some_iff.mp h
      obtain ⟨bindPw, _, rfl⟩ := Option.map_eq_some_iff.mp h
      rw [Dict.get_set_ne hp, Dict.get_set_ne hd]

theorem securityConfig_get {securityProtocol : String} (hk : key ∉ securityKeys) :
    (securityConfig data securityProtocol config).get key = config.get key := by
  simp only [securityKeys, List.mem_cons, not_or] at hk
  obtain ⟨hstart, hssl, hskip, hca, _⟩ := hk
  have hroot (config : Dict) : (rootCaConfig data config).get key = config.get key := by
    unfold rootCaConfig
    split <;> simp [Dict.get_set, hskip, hca]
  have htls (config : Dict) : (startTlsConfig securityProtocol config).get key = config.get key := by
    unfold startTlsConfig
    split
    · exact Dict.get_set_ne hstart
    · split
      · exact Dict.get_set_ne hstart
      · rfl
  unfold securityConfig
  split
  · simp [Dict.get_set, hstart, hssl, hskip]
  · rw [htls, hroot, Dict.get_set_ne hssl]

theorem computes_configureConnector :
    Computes (configureConnector ⟨some data⟩ (newConnector id name idAttr emailAttr) authTypeInfo)
      ((connectorConfig data authTypeInfo idAttr emailAttr).map (connectorWith id name)) := by
  unfold connectorConfig
  rw [Option.map_bind]
  refine computes_bind_map computes_host fun config hhost => ?_
  rw [Function.comp, Option.map_bind]
  refine computes_bind_map computes_bindSettings fun config' hbind => ?_
  have huser : (securityConfig data authTypeInfo.securityProtocol config').get "userSearch" =
      some (.dict (userEntries idAttr emailAttr)) := by
    rw [securityConfig_get (by decide), bindConfig_get hbind (by decide) (by decide),
      hostConfig_get hhost (by decide)]
    rfl
  have hrest : Computes (getUserSearchConfigured ⟨some data⟩ (connectorWith id name
      (securityConfig data authTypeInfo.securityProtocol config')) >>=
        getGroupSearchConfigured ⟨some data⟩)
      (((userConfig data (userEntries idAttr emailAttr)
        (securityConfig data authTypeInfo.securityProtocol config')).bind (groupConfig data)).map
          (connectorWith id name)) := by
    rw [Option.map_bind]
    exact computes_bind_map (computes_user huser) fun config _ => computes_group
  exact computes_seq computes_security hrest

theorem computes_getConnector : Computes (getConnector ⟨some data⟩ authTypeInfo)
    (connector? data authTypeInfo) := by
  unfold getConnector connector?
  split
  · exact computes_seq (computes_print _) computes_configureConnector
  · split
    · exact computes_seq (computes_print _) computes_configureConnector
    · exact computes_raise _

theorem computes_foundSettings : Computes (foundSettings authTypeInfo) (some ()) := by
  unfold foundSettings
  split <;> exact computes_print _

/-- The config with a connector. -/
def withConnector (template connector : Dict) : Dict :=
  template.set "connectors" (.list [.dict connector])

theorem computes_configFromSecret {template : Dict} :
    Computes (configFromSecret template (.ok ⟨some data⟩))
      ((secretConnector data).map (withConnector template)) := by
  rw [secretConnector, Option.map_bind]
  refine computes_bind computes_authTypeInfo fun authTypeInfo => ?_
  refine computes_seq computes_foundSettings ?_
  rw [Function.comp, Option.map_eq_bind]
  exact computes_bind computes_getConnector fun connector => computes_pure _

theorem computes_configWithoutSecret {template : Dict} {e : PyError} (h : NotApi e) :
    Computes (configWithoutSecret template e) none := by
  unfold configWithoutSecret
  split
  · exact (h _ _ rfl).elim
  · exact computes_raise _

theorem computes_makeConfig : Computes (makeConfig settings (.ok ⟨some data⟩))
    ((secretConnector data).map (withConnector settings.template)) := by
  refine computes_seq (computes_print _) ?_
  have h : Computes ((configFromSecret settings.template (.ok ⟨some data⟩)).catching
      (configWithoutSecret settings.template))
        ((secretConnector data).map (withConnector settings.template)) :=
    computes_catching computes_configFromSecret raises_configFromSecret
      fun e he => computes_configWithoutSecret he
  rw [← Option.bind_fun_some ((secretConnector data).map (withConnector settings.template))]
  exact computes_bind h fun config => computes_seq (computes_print _) (computes_pure _)

theorem computes_loadConfig {r₁ r₂ : Except PyError Unit} (h : r₁ = .ok () ∨ r₂ = .ok ()) :
    Computes (loadConfig r₁ r₂) (some ()) := by
  rcases h with rfl | rfl
  · exact computes_pure ()
  · cases r₁ with
    | error e => exact computes_pure ()
    | ok _ => exact computes_pure ()

/-- The cluster lets the run through: one of the client configs loads, there is no dex secret yet,
and the create is accepted. -/
structure Undisturbed (answers : Answers) : Prop where
  config : answers.loadKubeConfig = .ok () ∨ answers.loadInclusterConfig = .ok ()
  absent : ∃ text, answers.dexSecret = .apiException 404 text
  create : answers.create = .ok ()

theorem computes_checkedConfig (hu : Undisturbed answers) :
    Computes (checkedConfig settings (withSecret answers data))
      ((secretConnector data).map (withConnector settings.template)) := by
  obtain ⟨text, habsent⟩ := hu.absent
  have hcheck : Computes (checkAbsent answers.dexSecret) (some ()) := by
    rw [habsent]
    exact computes_pure ()
  refine computes_seq (computes_loadConfig hu.config) ?_
  rw [← Option.bind_fun_some ((secretConnector data).map (withConnector settings.template))]
  exact computes_bind computes_makeConfig fun config => computes_seq hcheck (computes_pure config)

/-- The config that a run goes on with has the connector of the auth secret. -/
theorem checkedConfig_connector {g : Globals}
    (h : checkedConfig settings (withSecret answers data) {} = (.ok config, g)) :
    ∃ connector, secretConnector data = some connector ∧
      config = withConnector settings.template connector := by
  obtain ⟨hm, _⟩ := checkedConfig_ok h
  obtain ⟨connector, hc, heq⟩ := Option.map_eq_some_iff.mp (computes_makeConfig.isOk_iff.mp ⟨_, hm⟩)
  exact ⟨connector, hc, heq.symm⟩

/-- A run creates nothing, or the dex config secret with the connector of the auth secret. -/
theorem run_created {body : SecretBody}
    (h : (run settings (withSecret answers data)).created = [body]) :
    ∃ connector configYaml bindPw, secretConnector data = some connector ∧
      b64encode (settings.yamlDump (withConnector settings.template connector)) = some configYaml ∧
        body = dexConfigSecret configYaml bindPw := by
  obtain ⟨hnone, _⟩ | ⟨body', g, hp, _, hcreated, _⟩ := run_cases settings (withSecret answers data)
  · rw [hnone] at h
    cases h
  · rw [hcreated] at h
    cases h
    obtain ⟨config, g₁, hk, hb⟩ := of_bind_ok hp
    obtain ⟨connector, hc, rfl⟩ := checkedConfig_connector hk
    obtain ⟨configYaml, bindPw, hy, _, rfl⟩ := secretBody_ok hb
    exact ⟨connector, configYaml, bindPw, hc, hy, rfl⟩

theorem run_rejected (h : secretConnector data = none) :
    (run settings (withSecret answers data)).created = [] := by
  obtain ⟨hnone, _⟩ | ⟨body, _, _, _, hcreated, _⟩ := run_cases settings (withSecret answers data)
  · exact hnone
  · obtain ⟨_, _, _, hc, _⟩ := run_created hcreated
    rw [h] at hc
    cases hc

/-- An accepted secret whose config can be encoded leads to a dex config secret, with the bind
password beside the config. -/
theorem run_accepted {configYaml : String} (hu : Undisturbed answers)
    (hc : secretConnector data = some connector)
    (hy : b64encode (settings.yamlDump (withConnector settings.template connector)) = some configYaml) :
    ∃ pw bindPw, (run settings (withSecret answers data)).outcome = .ok () ∧
      (run settings (withSecret answers data)).created = [dexConfigSecret configYaml bindPw] ∧
        BindSettings data connector "" pw ∧ b64encode pw = some bindPw := by
  have hmap : (secretConnector data).map (withConnector settings.template) =
      some (withConnector settings.template connector) := by
    rw [hc, Option.map_some]
  have hcomputes : Computes (checkedConfig settings (withSecret answers data))
      ((secretConnector data).map (withConnector settings.template)) := computes_checkedConfig hu
  obtain ⟨g, hk⟩ := hcomputes.isOk_iff.mpr hmap
  obtain ⟨connector', hconfig, hbind⟩ := checkedConfig_bind hk
  have hsame : connector' = connector := by
    have hget := congrArg (Dict.get · "connectors") hconfig
    simp only [withConnector, Dict.get_set_self] at hget
    cases hget
    rfl
  subst hsame
  obtain ⟨bindPw, hp⟩ := hbind.encodes
  have hrun := run_of_checkedConfig hk hy hp hu.create
  exact ⟨g.authSecretBindPw, bindPw, by rw [hrun], by rw [hrun], hbind, hp⟩

/-- The script comes to its create call. -/
def ReachesCreate (settings : Settings) (answers : Answers) : Prop :=
  ∃ body g, prepare settings answers {} = (.ok body, g)

theorem reachesCreate_iff (hu : Undisturbed answers)
    (hdump : ∀ config, (b64encode (settings.yamlDump config)).isSome) :
    ReachesCreate settings (withSecret answers data) ↔ (secretConnector data).isSome := by
  constructor
  · rintro ⟨body, g, hp⟩
    obtain ⟨config, g₁, hk, _⟩ := of_bind_ok hp
    obtain ⟨connector, hc, _⟩ := checkedConfig_connector hk
    rw [hc]
    rfl
  · intro h
    obtain ⟨connector, hc⟩ := Option.isSome_iff_exists.mp h
    obtain ⟨configYaml, hy⟩ :=
      Option.isSome_iff_exists.mp (hdump (withConnector settings.template connector))
    obtain ⟨_, _, hok, _⟩ := run_accepted hu hc hy
    obtain ⟨body, g, hp, _⟩ := run_ok_iff.mp hok
    exact ⟨body, g, hp⟩

end

end Manifests.DexSecret
