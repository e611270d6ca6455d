import Manifests.DexSecret

/-! What the helpers write: each sets its own keys of the connector's `config`, keeps the
others, and only the bind settings touch the bind password. -/
namespace Manifests.DexSecret
open Library Library.Script

variable {secret : Secret} {connector connector' template config : Dict}
  {authTypeInfo : AuthTypeInfo} {data : List (String × String)} {key : String} {v : Value}
  {keys : List String} {g g' : Globals}

/-- `connector['config'].get(key)`. -/
def configKey (connector : Dict) (key : String) : Option Value :=
  match connector.get "config" with
  | some (.dict config) => Dict.get config key
  | _ => none

/-- `b64decode` returns `s` on `source`. -/
def Decodes (source s : String) : Prop := ∀ g, b64decode source g = (.ok s, g)

theorem b64decode_ok {source s : String} (h : b64decode source g = (.ok s, g')) :
    g' = g ∧ Decodes source s := by
  obtain ⟨raw, g₁, hr, h₁⟩ := of_bind_ok h
  obtain ⟨bytes, g₂, hb, h₂⟩ := of_bind_ok h₁
  obtain ⟨hraw, rfl⟩ := ofOption_ok hr
  obtain ⟨hbytes, rfl⟩ := ofOption_ok hb
  obtain ⟨hs, rfl⟩ := ofOption_ok h₂
  refine ⟨rfl, fun g => ?_⟩
  simp [b64decode, hraw, hbytes, hs, ofOption, bind_apply]

theorem Decodes.unique {source s t : String} (hs : Decodes source s) (ht : Decodes source t) :
    s = t := by
  have h := (hs {}).symm.trans (ht {})
  cases h
  rfl

/-- An ASCII text is what its encoding decodes to. -/
theorem decodes_of_b64encode {s source : String} (h : b64encode s = some source) :
    Decodes source s := by
  obtain ⟨bs, hs, ht⟩ := b64encode_eq_some.mp h
  intro g
  simp [b64decode, ht, Base64.decode_encode, Text.decodeAscii_encodeAscii hs, ofOption, bind_apply]

theorem Decodes.b64encode_isSome {source s : String} (h : Decodes source s) :
    (b64encode s).isSome := by
  obtain ⟨raw, _, _, h₁⟩ := of_bind_ok (h {})
  obtain ⟨bytes, _, _, h₂⟩ := of_bind_ok h₁
  obtain ⟨hs, _⟩ := ofOption_ok h₂
  rw [Manifests.b64encode_isSome, Text.encodeAscii_decodeAscii hs]
  rfl

theorem getDict_ok {d e : Dict} (h : getDict d key g = (.ok e, g')) :
    g' = g ∧ d.get key = some (.dict e) := by
  unfold getDict at h
  rcases hd : d.get key with _ | v
  · rw [hd] at h
    cases h
  · rw [hd] at h
    cases v <;> cases h
    exact ⟨rfl, rfl⟩

theorem setConfig_ok (h : setConfig connector key v g = (.ok connector', g')) :
    g' = g ∧ ∀ k, configKey connector' k = if k = key then some v else configKey connector k := by
  obtain ⟨config, g₁, hd, h₁⟩ := of_bind_ok h
  obtain ⟨rfl, hc⟩ := getDict_ok hd
  cases h₁
  refine ⟨rfl, fun k => ?_⟩
  by_cases hk : k = key
  · subst hk
    simp [configKey]
  · simp [configKey, hc, Dict.get_set_ne hk, hk]

theorem setSearch_ok {search : String}
    (h : setSearch connector search key v g = (.ok connector', g')) :
    g' = g ∧ ∀ k, k ≠ search → configKey connector' k = configKey connector k := by
  obtain ⟨config, g₁, hd, h₁⟩ := of_bind_ok h
  obtain ⟨rfl, hc⟩ := getDict_ok hd
  obtain ⟨entries, g₂, he, h₂⟩ := of_bind_ok h₁
  obtain ⟨rfl, _⟩ := getDict_ok he
  cases h₂
  refine ⟨rfl, fun k hk => ?_⟩
  simp [configKey, hc, Dict.get_set_ne hk]

theorem required_ok {value : String} (h : required ⟨some data⟩ key g = (.ok value, g')) :
    present (data.lookup key) = some value := by
  obtain ⟨v, g₁, hd, h₁⟩ := of_bind_ok h
  cases hd
  rcases hs : present (data.lookup key) with _ | found
  · rw [hs] at h₁
    cases h₁
  · rw [hs] at h₁
    cases h₁
    rfl

/-- A plain step on the connector that sets no key of its `config` but `keys`. -/
structure Sets (keys : List String) (connector : Dict) (m : Py Dict) : Prop extends Plain m where
  frame : ∀ g c g', m g = (.ok c, g') → ∀ k, k ∉ keys → configKey c k = configKey connector k

theorem plain_required : Plain (required secret key) := by
  apply plain_bind plain_dataGet
  intro value
  split
  · exact plain_pure _
  · exact plain_sysExit _

theorem plain_b64decode (source : String) : Plain (b64decode source) := by
  unfold b64decode
  refine plain_bind (plain_ofOption ?_ _) fun raw => ?_
  · simp [NotApi]
  · refine plain_bind (plain_ofOption ?_ _) fun bytes => plain_ofOption ?_ _ <;> simp [NotApi]

theorem plain_getDict : Plain (getDict connector key) := by
  unfold getDict
  split
  · exact plain_pure _
  · exact plain_raise (by simp [NotApi])
  · exact plain_raise (by simp [NotApi])

theorem plain_item (words : List String) (n : Nat) : Plain (item words n) :=
  plain_ofOption (by simp [NotApi]) _

theorem plain_groupBaseDn (groups : List String) : Plain (groupBaseDn groups) := by
  induction groups with
  | nil => exact plain_pure _
  | cons oneOfGroups groups ih =>
    apply plain_bind (plain_item _ _)
    intro groupRootDn
    split
    · exact plain_pure _
    · exact ih

theorem plain_groupFilters (groups : List String) (groupFilter : String) :
    Plain (groupFilters groupFilter groups) := by
  induction groups generalizing groupFilter with
  | nil => exact plain_pure _
  | cons oneOfGroups groups ih =>
    apply plain_bind (plain_item _ _)
    intro groupCn
    exact ih _

theorem plain_groupSearch (group : String) : Plain (groupSearch group) := by
  unfold groupSearch
  split
  · apply plain_bind (plain_groupBaseDn _)
    intro groupBaseDn
    apply plain_bind (plain_groupFilters _ _)
    intro groupFilter
    exact plain_pure _
  · apply plain_bind (plain_item _ _)
    intro groupCn
    apply plain_bind (plain_item _ _)
    intro groupBaseDn
    exact plain_pure _

theorem plain_getAuthTypeInfo : Plain (getAuthTypeInfo secret) := by
  apply plain_bind (plain_print _)
  intro _
  apply plain_bind plain_required
  intro _
  apply plain_bind (plain_b64decode _)
  intro directoryServer
  apply plain_bind plain_required
  intro _
  apply plain_bind (plain_b64decode _)
  intro securityProtocol
  apply plain_bind plain_required
  intro _
  apply plain_bind (plain_b64decode _)
  intro bindType
  exact plain_pure _

theorem plain_foundSettings : Plain (foundSettings authTypeInfo) := by
  unfold foundSettings
  split
  · exact plain_print _
  · exact plain_print _

theorem sets_pure : Sets keys connector (pure connector) where
  toPlain := plain_pure _
  frame := by
    intro g c g' h k _
    cases h
    rfl

theorem sets_bind {m : Py Dict} {f : Dict → Py Dict} (hm : Sets keys connector m)
    (hf : ∀ c, Sets keys c (f c)) : Sets keys connector (m >>= f) where
  toPlain := plain_bind hm.toPlain fun c => (hf c).toPlain
  frame := by
    intro g c g'' h k hk
    obtain ⟨c', g', h₁, h₂⟩ := of_bind_ok h
    exact ((hf c').frame _ _ _ h₂ k hk).trans (hm.frame _ _ _ h₁ k hk)

theorem sets_read {α : Type} {m : Py α} {f : α → Py Dict} (hm : Plain m)
    (hf : ∀ a, Sets keys connector (f a)) : Sets keys connector (m >>= f) where
  toPlain := plain_bind hm fun a => (hf a).toPlain
  frame := by
    intro g c g'' h
    obtain ⟨a, g', _, h₂⟩ := of_bind_ok h
    exact (hf a).frame _ _ _ h₂

theorem plain_setConfig : Plain (setConfig connector key v) :=
  plain_bind plain_getDict fun _ => plain_pure _

theorem sets_setConfig (hk : key ∈ keys) : Sets keys connector (setConfig connector key v) where
  toPlain := plain_setConfig
  frame := by
    intro g c g' h k hn
    rw [(setConfig_ok h).2, if_neg]
    rintro rfl
    exact hn hk

theorem sets_setSearch {search : String} (hk : search ∈ keys) :
    Sets keys connector (setSearch connector search key v) where
  toPlain := plain_bind plain_getDict fun _ => plain_bind plain_getDict fun _ => plain_pure _
  frame := by
    intro g c g' h k hn
    apply (setSearch_ok h).2
    rintro rfl
    exact hn hk

theorem sets_getHostConfigured : Sets ["host"] connector (getHostConfigured secret connector) := by
  apply sets_read (plain_print _)
  intro _
  apply sets_read plain_required
  intro host
  apply sets_read (plain_b64decode _)
  intro decoded
  apply sets_bind (sets_setConfig (by simp))
  intro connector
  apply sets_read (plain_print _)
  intro _
  exact sets_pure

/-- The keys of the connection's security. -/
def securityKeys : List String := ["startTLS", "insecureNoSSL", "insecureSkipVerify", "rootCAData"]

theorem sets_setRootCa : Sets securityKeys connector (setRootCa secret connector) := by
  apply sets_read plain_dataGet
  intro value
  split
  · exact sets_setConfig (by simp [securityKeys])
  · apply sets_bind (sets_setConfig (by simp [securityKeys]))
    intro connector
    exact sets_setConfig (by simp [securityKeys])

theorem sets_setStartTls : Sets securityKeys connector (setStartTls connector authTypeInfo) := by
  unfold setStartTls
  split
  · exact sets_setConfig (by simp [securityKeys])
  · split
    · exact sets_setConfig (by simp [securityKeys])
    · exact sets_pure

theorem sets_getSecurityConfigured :
    Sets securityKeys connector (getSecurityConfigured secret connector authTypeInfo) := by
  apply sets_read (plain_print _)
  intro _
  split
  · apply sets_bind (sets_setConfig (by simp [securityKeys]))
    intro connector
    apply sets_bind (sets_setConfig (by simp [securityKeys]))
    intro connector
    apply sets_bind (sets_setConfig (by simp [securityKeys]))
    intro connector
    apply sets_read (plain_print _)
    intro _
    exact sets_pure
  · apply sets_bind (sets_setConfig (by simp [securityKeys]))
    intro connector
    apply sets_bind sets_setRootCa
    intro connector
    apply sets_bind sets_setStartTls
    intro connector
    apply sets_read (plain_print _)
    intro _
    exact sets_pure

theorem sets_getUserSearchConfigured :
    Sets ["userSearch"] connector (getUserSearchConfigured secret connector) := by
  apply sets_read (plain_print _)
  intro _
  apply sets_read plain_required
  intro encodedBaseDn
  apply sets_read (plain_b64decode _)
  intro userBaseDn
  apply sets_read plain_required
  intro encodedUsername
  apply sets_read (plain_b64decode _)
  intro username
  apply sets_bind (sets_setSearch (by simp))
  intro connector
  apply sets_bind (sets_setSearch (by simp))
  intro connector
  apply sets_bind (sets_setSearch (by simp))
  intro connector
  apply sets_read (plain_print _)
  intro _
  exact sets_pure

theorem sets_getGroupSearchConfigured :
    Sets ["groupSearch"] connector (getGroupSearchConfigured secret connector) := by
  apply sets_read (plain_print _)
  intro _
  apply sets_read plain_dataGet
  intro value
  split
  · apply sets_read (plain_print _)
    intro _
    exact sets_pure
  · apply sets_bind (sets_setConfig (by simp))
    intro connector
    apply sets_read (plain_b64decode _)
    intro group
    apply sets_read (plain_groupSearch _)
    intro search
    apply sets_bind (sets_setSearch (by simp))
    intro connector
    apply sets_bind (sets_setSearch (by simp))
    intro connector
    apply sets_bind (sets_setSearch (by simp))
    intro connector
    apply sets_read (plain_print _)
    intro _
    exact sets_pure

/-- What the bind settings leave in the connector and in the password: the placeholder and the
decoded `bind_pwd` when there is a `bind_dn`, and nothing otherwise. -/
def BindSettings (data : List (String × String)) (connector : Dict) (bindPw bindPw' : String) : Prop :=
  match present (data.lookup "bind_dn") with
  | none => configKey connector "bindDN" = none ∧ configKey connector "bindPW" = none ∧
      bindPw' = bindPw
  | some encodedDn => ∃ bindDn encodedPw, Decodes encodedDn bindDn ∧
      configKey connector "bindDN" = some (.str bindDn) ∧
      configKey connector "bindPW" = some (.str "$AUTH_SECRET_BIND_PW") ∧
      present (data.lookup "bind_pwd") = some encodedPw ∧ Decodes encodedPw bindPw'

theorem BindSettings.congr {pw pw' : String} (h : BindSettings data connector pw pw')
    (hd : configKey connector' "bindDN" = configKey connector "bindDN")
    (hp : configKey connector' "bindPW" = configKey connector "bindPW") :
    BindSettings data connector' pw pw' := by
  simpa only [BindSettings, hd, hp] using h

theorem getBindConfigured_ok (hd : configKey connector "bindDN" = none)
    (hp : configKey connector "bindPW" = none)
    (h : getBindConfigured ⟨some data⟩ connector authTypeInfo g = (.ok connector', g')) :
    BindSettings data connector' g.authSecretBindPw g'.authSecretBindPw := by
  unfold BindSettings
  obtain ⟨_, g₁, hprint, h₁⟩ := of_bind_ok h
  cases hprint
  split at h₁
  · cases h₁
  · obtain ⟨bindDnValue, g₂, hget, h₂⟩ := of_bind_ok h₁
    cases hget
    rcases hs : present (data.lookup "bind_dn") with _ | encodedDn
    · rw [hs] at h₂
      cases h₂
      exact ⟨hd, hp, rfl⟩
    · rw [hs] at h₂
      obtain ⟨bindDn, g₃, hdn, h₃⟩ := of_bind_ok h₂
      obtain ⟨encodedPw, g₄, hr, h₄⟩ := of_bind_ok h₃
      obtain ⟨bindPw, g₅, hpw, h₅⟩ := of_bind_ok h₄
      obtain ⟨c₁, g₆, hs₁, h₆⟩ := of_bind_ok h₅
      obtain ⟨c₂, g₇, hs₂, h₇⟩ := of_bind_ok h₆
      obtain ⟨_, hk₁⟩ := setConfig_ok hs₁
      obtain ⟨_, hk₂⟩ := setConfig_ok hs₂
      cases h₇
      refine ⟨bindDn, encodedPw, (b64decode_ok hdn).2, ?_, ?_, required_ok hr,
        (b64decode_ok hpw).2⟩
      · rw [hk₂, hk₁]
        simp
      · rw [hk₂]
        simp [dexConfigSecretBindPw]

/-- The other steps of a builder pass the bind settings on. -/
theorem configureConnector_ok (hd : configKey connector "bindDN" = none)
    (hp : configKey connector "bindPW" = none)
    (h : configureConnector ⟨some data⟩ connector authTypeInfo g = (.ok connector', g')) :
    BindSettings data connector' g.authSecretBindPw g'.authSecretBindPw := by
  obtain ⟨c₁, g₁, hhost, h₁⟩ := of_bind_ok h
  obtain ⟨c₂, g₂, hbind, h₂⟩ := of_bind_ok h₁
  obtain ⟨c₃, g₃, hsec, h₃⟩ := of_bind_ok h₂
  obtain ⟨c₄, g₄, huser, hgroup⟩ := of_bind_ok h₃
  have e₁ := sets_getHostConfigured.frame _ _ _ hhost
  have e₃ := sets_getSecurityConfigured.frame _ _ _ hsec
  have e₄ := sets_getUserSearchConfigured.frame _ _ _ huser
  have e₅ := sets_getGroupSearchConfigured.frame _ _ _ hgroup
  have hkeep : ∀ k, k ∉ securityKeys ++ ["userSearch", "groupSearch"] →
      configKey connector' k = configKey c₂ k := by
    intro k hk
    simp only [List.mem_append, List.mem_cons, not_or] at hk
    obtain ⟨hs, hu, hg, _⟩ := hk
    rw [e₅ k (by simpa using hg), e₄ k (by simpa using hu), e₃ k hs]
  have hb := getBindConfigured_ok ((e₁ _ (by decide)).trans hd) ((e₁ _ (by decide)).trans hp) hbind
  rw [sets_getHostConfigured.bindPw_eq hhost] at hb
  rw [sets_getGroupSearchConfigured.bindPw_eq hgroup, sets_getUserSearchConfigured.bindPw_eq huser,
    sets_getSecurityConfigured.bindPw_eq hsec]
  exact hb.congr (hkeep _ (by decide)) (hkeep _ (by decide))

theorem configKey_newConnector {id name idAttr emailAttr : String} (hk : key ≠ "userSearch") :
    configKey (newConnector id name idAttr emailAttr) key = none := by
  simp [configKey, newConnector, hk]

theorem getConnector_ok (h : getConnector ⟨some data⟩ authTypeInfo g = (.ok connector, g')) :
    BindSettings data connector g.authSecretBindPw g'.authSecretBindPw := by
  unfold getConnector at h
  split at h
  · obtain ⟨_, g₁, hprint, h₁⟩ := of_bind_ok h
    cases hprint
    have hc := configureConnector_ok (configKey_newConnector (by decide))
      (configKey_newConnector (by decide)) h₁
    exact hc
  · split at h
    · obtain ⟨_, g₁, hprint, h₁⟩ := of_bind_ok h
      cases hprint
      have hc := configureConnector_ok (configKey_newConnector (by decide))
        (configKey_newConnector (by decide)) h₁
      exact hc
    · cases h

end Manifests.DexSecret
