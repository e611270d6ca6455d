import Manifests.DexSecret.Texts

/-! The TLS settings of an accepted secret: they follow from its protocol, but the protocol itself is
never checked. -/
namespace Manifests.DexSecret
open Library Library.Script

/-- The texts that the job supports, but for the security protocol. -/
structure OtherwiseSupported (data : List (String × String)) : Prop where
  type : textOf data "type" = "LDAP" ∨ textOf data "type" = "Active Directory"
  bindType : textOf data "bind_type" = "search_bind"
  host : textOf data "auth_service_locations" ≠ ""
  baseDn : textOf data "base_dn" ≠ ""
  userAttr : textOf data "user_attr" ≠ ""
  bindPwd : textOf data "bind_dn" ≠ "" → textOf data "bind_pwd" ≠ ""

def supportedProtocols : List String := ["none", "ldaps", "starttls"]

def Supported (data : List (String × String)) : Prop :=
  OtherwiseSupported data ∧ textOf data "security_protocol" ∈ supportedProtocols

/-- The flags of a connector fit the protocol and the certificate of the secret. -/
structure ConsistentTls (data : List (String × String)) (connector : Dict) : Prop where
  insecureNoSSL : configKey connector "insecureNoSSL" =
    some (.bool (textOf data "security_protocol" = "none"))
  startTLS : configKey connector "startTLS" =
    some (.bool (textOf data "security_protocol" = "starttls"))
  insecureSkipVerify : configKey connector "insecureSkipVerify" =
    some (.bool (textOf data "security_protocol" = "none" ∨ textOf data "ca_cert" = ""))
  rootCAData : (configKey connector "rootCAData").isSome ↔
    textOf data "ca_cert" ≠ "" ∧ textOf data "security_protocol" ≠ "none"

/-- The secret is accepted exactly when it is supported, and then its connector has fitting flags. -/
structure ChecksProtocol (settings : Settings) (answers : Answers) (data : List (String × String)) :
    Prop where
  accepts : ReachesCreate settings (withSecret answers data) ↔ Supported data
  flags : ∀ config g, checkedConfig settings (withSecret answers data) {} = (.ok config, g) →
    ∃ connector, config.get "connectors" = some (.list [.dict connector]) ∧ ConsistentTls data connector

variable {data : List (String × String)} {settings : Settings} {answers : Answers}
  {config connector c : Dict} {key protocol : String}

/-- A protocol that is supported sets all flags. -/
theorem consistentTls_of_supported (hv : Utf8Values data) {id name : String}
    (hprotocol : textOf data "security_protocol" ∈ supportedProtocols)
    (hnone : ∀ key ∈ securityKeys, Dict.get c key = none)
    (hsecurity : ∀ key ∈ securityKeys,
      config.get key = (securityConfig data (textOf data "security_protocol") c).get key) :
    ConsistentTls data (connectorWith id name config) := by
  have hkey : ∀ key ∈ securityKeys, configKey (connectorWith id name config) key =
      (securityConfig data (textOf data "security_protocol") c).get key := hsecurity
  have hroot : c.get "rootCAData" = none := hnone _ (by decide)
  have hca : present (data.lookup "ca_cert") = none ↔ textOf data "ca_cert" = "" := present_eq_none hv
  simp only [supportedProtocols, List.mem_cons, List.not_mem_nil, or_false] at hprotocol
  rcases hprotocol with hp | hp | hp
  · constructor
    · rw [hkey _ (by decide), hp]
      simp [securityConfig, Dict.get_set]
    · rw [hkey _ (by decide), hp]
      simp [securityConfig, Dict.get_set]
    · rw [hkey _ (by decide), hp]
      simp [securityConfig]
    · rw [hkey _ (by decide), hp]
      simp [securityConfig, Dict.get_set, hroot]
  -- a secured connection: the certificate decides the rest
  all_goals
    cases hcert : present (data.lookup "ca_cert") with
    | none =>
      have hempty := hca.mp hcert
      constructor <;> rw [hkey _ (by decide), hp] <;>
        simp [securityConfig, startTlsConfig, rootCaConfig, hcert, Dict.get_set, hroot, hempty]
    | some cert =>
      have hne := textOf_ne_empty hv hcert
      constructor <;> rw [hkey _ (by decide), hp] <;>
        simp [securityConfig, startTlsConfig, rootCaConfig, hcert, Dict.get_set, hne]

/-- Without groups the protocol is accepted whenever there is one. -/
theorem secretConnector_isSome_iff (hv : AsciiValues data) (hgroups : data.lookup "groups" = none) :
    (secretConnector data).isSome ↔ OtherwiseSupported data ∧ textOf data "security_protocol" ≠ "" := by
  have hfield (key : String) : (field data key).isSome ↔ textOf data key ≠ "" := by
    rw [field_isSome hv.utf8, and_iff_left (hv.isAscii key)]
  have htext (key : String) {t : String} (ht : t ≠ "") (ha : IsAscii t) :
      field data key = some t ↔ textOf data key = t := by
    rw [field_eq_some hv.utf8, and_iff_left ⟨ht, ha⟩]
  have hbind : BindAccepted data ↔ (textOf data "bind_dn" ≠ "" → textOf data "bind_pwd" ≠ "") := by
    simp only [bindAccepted_iff hv.utf8, hv.isAscii, true_and, and_true]
  have hnone : GroupsAccepted data := by
    intro encoded hencoded
    rw [hgroups] at hencoded
    cases hencoded
  rw [secretConnector_isSome, and_iff_left hnone]
  constructor
  · intro h
    refine ⟨⟨?_, (htext _ (by decide) (by decide)).mp h.bindType, (hfield _).mp h.host,
      (hfield _).mp h.baseDn, (hfield _).mp h.username, hbind.mp h.bind⟩, (hfield _).mp h.securityProtocol⟩
    exact h.type.imp (htext _ (by decide) (by decide)).mp (htext _ (by decide) (by decide)).mp
  · rintro ⟨h, hprotocol⟩
    refine ⟨?_, (hfield _).mpr hprotocol, (htext _ (by decide) (by decide)).mpr h.bindType,
      (hfield _).mpr h.host, hbind.mpr h.bindPwd, (hfield _).mpr h.baseDn, (hfield _).mpr h.userAttr⟩
    exact h.type.imp (htext _ (by decide) (by decide)).mpr (htext _ (by decide) (by decide)).mpr

/-- The connector of a run has the flags of the security settings. -/
theorem flags_of_checkedConfig (hv : Utf8Values data)
    (hprotocol : textOf data "security_protocol" ∈ supportedProtocols) {g : Globals}
    (h : checkedConfig settings (withSecret answers data) {} = (.ok config, g)) :
    ∃ connector, config.get "connectors" = some (.list [.dict connector]) ∧
      ConsistentTls data connector := by
  obtain ⟨connector, hc, rfl⟩ := checkedConfig_connector h
  obtain ⟨info, id, name, idAttr, emailAttr, config, hinfo, hconfig, rfl⟩ := secretConnector_some hc
  obtain ⟨c, hnone, hsecurity⟩ := connectorConfig_security hconfig
  obtain ⟨_, hfield, _⟩ := authTypeInfo?_eq_some.mp hinfo
  obtain ⟨htext, _⟩ := (field_eq_some hv).mp hfield
  rw [← htext] at hsecurity
  exact ⟨_, Dict.get_set_self, consistentTls_of_supported hv hprotocol hnone hsecurity⟩

/-- The secret is treated as it should be exactly when its protocol is supported or missing, or
something else in it is not supported. -/
theorem checksProtocol_iff (settings : Settings) (answers : Answers) (data : List (String × String))
    (hv : AsciiValues data) (hgroups : data.lookup "groups" = none) (hu : Undisturbed answers)
    (hdump : ∀ config, (b64encode (settings.yamlDump config)).isSome) :
    ChecksProtocol settings answers data ↔
      textOf data "security_protocol" ∈ "" :: supportedProtocols ∨ ¬ OtherwiseSupported data := by
  have hreaches : ReachesCreate settings (withSecret answers data) ↔ (secretConnector data).isSome :=
    reachesCreate_iff hu hdump
  rw [secretConnector_isSome_iff hv hgroups] at hreaches
  have hne : ∀ protocol ∈ supportedProtocols, protocol ≠ "" := by decide
  constructor
  · intro h
    rw [List.mem_cons]
    by_contra hcon
    simp only [not_or, not_not] at hcon
    obtain ⟨⟨hempty, hunsupported⟩, hother⟩ := hcon
    exact hunsupported (h.accepts.mp (hreaches.mpr ⟨hother, hempty⟩)).2
  · intro h
    constructor
    · rw [hreaches, Supported]
      constructor
      · rintro ⟨hother, hempty⟩
        rcases h with hmem | hnot
        · exact ⟨hother, (List.mem_cons.mp hmem).resolve_left hempty⟩
        · exact (hnot hother).elim
      · rintro ⟨hother, hmem⟩
        exact ⟨hother, hne _ hmem⟩
    · intro config g hk
      have haccepted : OtherwiseSupported data ∧ textOf data "security_protocol" ≠ "" := by
        obtain ⟨connector, hc, _⟩ := checkedConfig_connector hk
        exact (secretConnector_isSome_iff hv hgroups).mp (Option.isSome_of_eq_some hc)
      rcases h with hmem | hnot
      · exact flags_of_checkedConfig hv.utf8 ((List.mem_cons.mp hmem).resolve_left haccepted.2) hk
      · exact (hnot haccepted.1).elim

/-- A secret of an LDAP server with an anonymous bind and without groups. -/
def anonymousSecret (securityProtocol : String) : List (String × String) :=
  [("type", "TERBUA=="), ("security_protocol", securityProtocol), ("bind_type", "c2VhcmNoX2JpbmQ="),
    ("auth_service_locations", "aG9zdDo2MzY="), ("base_dn", "ZGM9ZXhhbXBsZQ=="), ("user_attr", "dWlk")]

/-- What `yaml.dump` makes of the shipped template with the connector of `anonymousSecret`. The line of
`startTLS` is the protocol's, and the settings for the bind and the groups stand before the host. -/
def anonymousYaml (settings startTls : List String) : String := String.join
  (["connectors:\n", "- config:\n"] ++ settings ++
    ["    host: host:636\n", "    insecureNoSSL: false\n", "    insecureSkipVerify: true\n"] ++
    startTls ++
    ["    userSearch:\n", "      baseDN: dc=example\n", "      emailAttr: uid\n", "      idAttr: uid\n",
      "      nameAttr: uid\n", "      username: uid\n", "  id: ldap\n", "  name: LDAP\n",
      "  type: ldap\n", "issuer: http://dex.auth.svc.cluster.local:5556/dex\n", "logger:\n",
      "  format: text\n", "  level: debug\n", "oauth2:\n", "  skipApprovalScreen: true\n",
      "staticClients:\n", "- id: kubeflow-oidc-authservice\n", "  name: Dex Login Application\n",
      "  redirectURIs:\n", "  - /login/oidc\n", "  secret: pUBnBOY80SnXgjibTYM9ZWNzY2xreNGQok\n",
      "storage:\n", "  config:\n", "    inCluster: true\n", "  type: kubernetes\n", "web:\n",
      "  http: 0.0.0.0:5556\n"])

theorem isAscii_anonymousYaml {settings startTls : List String}
    (hsettings : ∀ line ∈ settings, IsAscii line) (hstart : ∀ line ∈ startTls, IsAscii line) :
    IsAscii (anonymousYaml settings startTls) := by
  unfold anonymousYaml
  simp only [isAscii_join, List.forall_mem_append]
  exact ⟨⟨⟨⟨by decide +kernel, hsettings⟩, by decide +kernel⟩, hstart⟩, by decide +kernel⟩

def dumping (text : String) : Settings := { dexSettings with yamlDump := fun _ => text }

theorem undisturbed_freshAnswers : Undisturbed freshAnswers := ⟨Or.inr rfl, ⟨_, rfl⟩, rfl⟩

theorem encodes_dumping {text : String} (h : IsAscii text) (config : Dict) :
    (b64encode ((dumping text).yamlDump config)).isSome := by
  rw [Manifests.b64encode_isSome]
  exact h

theorem checksProtocol_iff_ldaps :
    ChecksProtocol (dumping (anonymousYaml [] ["    startTLS: false\n"])) freshAnswers
        (anonymousSecret "bGRhcHM=") ↔
      textOf (anonymousSecret "bGRhcHM=") "security_protocol" ∈ "" :: supportedProtocols ∨
        ¬ OtherwiseSupported (anonymousSecret "bGRhcHM=") :=
  checksProtocol_iff _ _ _ (asciiValues_of_all (by decide +kernel)) rfl undisturbed_freshAnswers
    (encodes_dumping (isAscii_anonymousYaml (by decide) (by decide +kernel)))

/-- A secret with the protocol `ssl` gets a connector. -/
theorem not_checksProtocol : ¬ ∀ (settings : Settings) (answers : Answers)
    (data : List (String × String)), AsciiValues data → data.lookup "groups" = none →
      Undisturbed answers → (∀ config, (b64encode (settings.yamlDump config)).isSome) →
        ChecksProtocol settings answers data := by
  intro h
  have hdump : ∀ config, (b64encode ((dumping (anonymousYaml [] [])).yamlDump config)).isSome :=
    encodes_dumping (isAscii_anonymousYaml (by decide) (by decide +kernel))
  have hcheck := h (dumping (anonymousYaml [] [])) freshAnswers (anonymousSecret "c3Ns")
    (asciiValues_of_all (by decide +kernel)) rfl undisturbed_freshAnswers hdump
  have hreaches : ReachesCreate (dumping (anonymousYaml [] []))
      (withSecret freshAnswers (anonymousSecret "c3Ns")) :=
    (reachesCreate_iff undisturbed_freshAnswers hdump).mpr (by decide +kernel)
  have hunsupported : textOf (anonymousSecret "c3Ns") "security_protocol" ∉ supportedProtocols := by
    decide +kernel
  exact hunsupported (hcheck.accepts.mp hreaches).2

end Manifests.DexSecret
