import Manifests.DexSecret.FailClosed

/-! The bind password stays out of the config: two auth secrets that differ in `bind_pwd`
alone lead to the same output and the same `config.yaml`. -/
namespace Manifests.DexSecret
open Library Library.Script

variable {connector config template : Dict} {authTypeInfo : AuthTypeInfo} {settings : Settings}
  {answers : Answers} {data data₁ data₂ : List (String × String)} {key pw pw₁ pw₂ : String}
  {g g' : Globals}

/-- The two secrets have the same value, or none, at every key but `bind_pwd`. -/
def SameBut (data₁ data₂ : List (String × String)) : Prop :=
  ∀ key, key ≠ "bind_pwd" → data₁.lookup key = data₂.lookup key

/-- The secret has a `bind_pwd` that decodes to `pw`. -/
def HasPassword (data : List (String × String)) (pw : String) : Prop :=
  ∃ encodedPw, present (data.lookup "bind_pwd") = some encodedPw ∧ Decodes encodedPw pw

section
variable (hs : SameBut data₁ data₂)
include hs

theorem dataGet_congr (hk : key ≠ "bind_pwd") :
    Secret.dataGet ⟨some data₁⟩ key = Secret.dataGet ⟨some data₂⟩ key :=
  congrArg pure (hs key hk)

theorem required_congr (hk : key ≠ "bind_pwd") :
    required ⟨some data₁⟩ key = required ⟨some data₂⟩ key := by
  rw [required, required, dataGet_congr hs hk]

theorem getHostConfigured_congr :
    getHostConfigured ⟨some data₁⟩ connector = getHostConfigured ⟨some data₂⟩ connector := by
  rw [getHostConfigured, getHostConfigured, required_congr hs (by decide)]

theorem getSecurityConfigured_congr : getSecurityConfigured ⟨some data₁⟩ connector authTypeInfo =
    getSecurityConfigured ⟨some data₂⟩ connector authTypeInfo := by
  have hca : ∀ c, setRootCa ⟨some data₁⟩ c = setRootCa ⟨some data₂⟩ c := by
    intro c
    rw [setRootCa, setRootCa, dataGet_congr hs (by decide)]
  simp only [getSecurityConfigured, hca]

theorem getUserSearchConfigured_congr : getUserSearchConfigured ⟨some data₁⟩ connector =
    getUserSearchConfigured ⟨some data₂⟩ connector := by
  rw [getUserSearchConfigured, getUserSearchConfigured, required_congr hs (by decide),
    required_congr hs (by decide)]

theorem getGroupSearchConfigured_congr : getGroupSearchConfigured ⟨some data₁⟩ connector =
    getGroupSearchConfigured ⟨some data₂⟩ connector := by
  rw [getGroupSearchConfigured, getGroupSearchConfigured, dataGet_congr hs (by decide)]

theorem getAuthTypeInfo_congr :
    getAuthTypeInfo ⟨some data₁⟩ = getAuthTypeInfo ⟨some data₂⟩ := by
  rw [getAuthTypeInfo, getAuthTypeInfo, required_congr hs (by decide),
    required_congr hs (by decide), required_congr hs (by decide)]

end

/-- Reading the password gives it to what follows and does nothing else. -/
theorem readPassword {α : Type} {k : String → Py α} (h : HasPassword data pw) :
    (do k (← b64decode (← required ⟨some data⟩ "bind_pwd")) : Py α) g = k pw g := by
  obtain ⟨encodedPw, hp, hd⟩ := h
  have hr : required ⟨some data⟩ "bind_pwd" g = (.ok encodedPw, g) := by
    simp [required, bind_apply, Secret.dataGet, hp]
  rw [bind_ok hr, bind_ok (hd g)]

section
variable (hs : SameBut data₁ data₂) (h₁ : HasPassword data₁ pw₁) (h₂ : HasPassword data₂ pw₂)
include hs h₁ h₂

theorem agree_getBindConfigured :
    Agree SameOutput (getBindConfigured ⟨some data₁⟩ connector authTypeInfo)
      (getBindConfigured ⟨some data₂⟩ connector authTypeInfo) := by
  apply agree_bind (plain_print _).agree
  intro _
  split
  · exact (plain_sysExit _).agree
  · rw [dataGet_congr hs (by decide)]
    apply agree_bind plain_dataGet.agree
    intro bindDn
    split
    · exact agree_pure _
    · apply agree_bind (plain_b64decode _).agree
      intro bindDn
      constructor
      intro g₁ g₂ hg
      rw [readPassword h₁, readPassword h₂]
      -- from here on the two scripts differ in the password they store, and in nothing else
      apply Agree.of_related ?_ _ _ hg
      apply agree_bind plain_setConfig.agree
      intro connector
      apply agree_bind plain_setConfig.agree
      intro connector
      refine agree_bind (agree_modify ?_) fun _ => ?_
      · intro s t h
        exact h
      · apply agree_bind (plain_print _).agree
        intro _
        exact agree_pure _

theorem agree_getConnector :
    Agree SameOutput (getConnector ⟨some data₁⟩ authTypeInfo)
      (getConnector ⟨some data₂⟩ authTypeInfo) := by
  have hc : ∀ connector, Agree SameOutput (configureConnector ⟨some data₁⟩ connector authTypeInfo)
      (configureConnector ⟨some data₂⟩ connector authTypeInfo) := by
    intro connector
    unfold configureConnector
    rw [getHostConfigured_congr hs]
    apply agree_bind sets_getHostConfigured.toPlain.agree
    intro connector
    apply agree_bind (agree_getBindConfigured hs h₁ h₂)
    intro connector
    rw [getSecurityConfigured_congr hs]
    apply agree_bind sets_getSecurityConfigured.toPlain.agree
    intro connector
    rw [getUserSearchConfigured_congr hs]
    apply agree_bind sets_getUserSearchConfigured.toPlain.agree
    intro connector
    rw [getGroupSearchConfigured_congr hs]
    exact sets_getGroupSearchConfigured.toPlain.agree
  unfold getConnector
  split
  · exact agree_bind (plain_print _).agree fun _ => hc _
  · split
    · exact agree_bind (plain_print _).agree fun _ => hc _
    · exact agree_raise _

theorem agree_configFromSecret :
    Agree SameOutput (configFromSecret template (.ok ⟨some data₁⟩))
      (configFromSecret template (.ok ⟨some data₂⟩)) := by
  simp only [configFromSecret, Answer.call, pure_bind_eq]
  rw [getAuthTypeInfo_congr hs]
  apply agree_bind plain_getAuthTypeInfo.agree
  intro authTypeInfo
  apply agree_bind plain_foundSettings.agree
  intro _
  apply agree_bind (agree_getConnector hs h₁ h₂)
  intro connector
  exact agree_pure _

end

theorem agree_configWithoutSecret (e : PyError) :
    Agree SameOutput (configWithoutSecret template e) (configWithoutSecret template e) := by
  unfold configWithoutSecret
  split
  · split
    · exact agree_bind (plain_print _).agree fun _ => (plain_sysExit _).agree
    · exact agree_bind (plain_print _).agree fun _ => agree_pure _
  · exact agree_raise _

theorem agree_checkAbsent (dexSecret : Answer Secret) :
    Agree SameOutput (checkAbsent dexSecret) (checkAbsent dexSecret) := by
  apply agree_catching
  · refine agree_bind ?_ fun _ => agree_raise _
    cases dexSecret with
    | ok secret => exact agree_pure secret
    | apiException status text => exact agree_raise _
  · intro e
    split
    · split
      · exact agree_bind (plain_print _).agree fun _ => (plain_sysExit _).agree
      · exact agree_pure _
    · exact agree_raise _

/-- The same answers, but for the content of the auth secret. -/
def withSecret (answers : Answers) (data : List (String × String)) : Answers :=
  { answers with authSecret := .ok ⟨some data⟩ }

theorem agree_checkedConfig (hs : SameBut data₁ data₂) (h₁ : HasPassword data₁ pw₁)
    (h₂ : HasPassword data₂ pw₂) :
    Agree SameOutput (checkedConfig settings (withSecret answers data₁))
      (checkedConfig settings (withSecret answers data₂)) := by
  apply agree_bind (agree_catching (agree_ofExcept _) fun _ => agree_ofExcept _)
  intro _
  apply agree_bind
  · apply agree_bind (plain_print _).agree
    intro _
    apply agree_bind (agree_catching (agree_configFromSecret hs h₁ h₂) agree_configWithoutSecret)
    intro config
    apply agree_bind (plain_print _).agree
    intro _
    exact agree_pure _
  · intro config
    apply agree_bind (agree_checkAbsent _)
    intro _
    exact agree_pure _

/-- The config of a run that reads the auth secret, with its bind settings. -/
theorem checkedConfig_bind
    (h : checkedConfig settings (withSecret answers data) {} = (.ok config, g')) :
    ∃ connector, config = settings.template.set "connectors" (.list [.dict connector]) ∧
      BindSettings data connector "" g'.authSecretBindPw := by
  obtain ⟨hm, _⟩ := checkedConfig_ok h
  obtain ⟨g₁, g₂, hc, h₁, h₂⟩ := makeConfig_found hm
  obtain ⟨_, g₃, hs, h₃⟩ := of_bind_ok hc
  obtain ⟨authTypeInfo, g₄, ha, h₄⟩ := of_bind_ok h₃
  obtain ⟨_, g₅, hf, h₅⟩ := of_bind_ok h₄
  obtain ⟨connector, g₆, hk, h₆⟩ := of_bind_ok h₅
  cases hs
  cases h₆
  refine ⟨connector, rfl, ?_⟩
  have hb := getConnector_ok hk
  rwa [plain_foundSettings.bindPw_eq hf, plain_getAuthTypeInfo.bindPw_eq ha, h₁, ← h₂] at hb

/-- What the two runs of `secretBody` have in common. -/
theorem secretBody_of_encodes {configYaml bindPw : String}
    (hy : b64encode (settings.yamlDump config) = some configYaml)
    (hp : b64encode g.authSecretBindPw = some bindPw) :
    secretBody settings config g = (.ok (dexConfigSecret configYaml bindPw), g) := by
  simp [secretBody, hy, ofOption, bind_apply, Script.get, hp]

/-- Whatever the bind settings leave in the password can be encoded. -/
theorem BindSettings.encodes (h : BindSettings data connector "" pw) :
    ∃ bindPw, b64encode pw = some bindPw := by
  unfold BindSettings at h
  split at h
  · obtain ⟨_, _, rfl⟩ := h
    exact ⟨"", by decide⟩
  · obtain ⟨_, _, _, _, _, _, hd⟩ := h
    exact Option.isSome_iff_exists.mp hd.b64encode_isSome

/-- A successful run, seen from what it created. -/
theorem run_ok_iff : (run settings answers).outcome = .ok () ↔
    ∃ body g, prepare settings answers {} = (.ok body, g) ∧ answers.create = .ok () := by
  constructor
  · intro h
    obtain ⟨_, hn⟩ | ⟨body, g, hp, hc, _⟩ := run_cases settings answers
    · exact (hn h).elim
    · exact ⟨body, g, hp, hc⟩
  · rintro ⟨body, g, hp, hc⟩
    simp [run, Run.of, hp, hc, Answer.call]

theorem run_of_checkedConfig {configYaml bindPw : String}
    (hk : checkedConfig settings answers {} = (.ok config, g))
    (hy : b64encode (settings.yamlDump config) = some configYaml)
    (hp : b64encode g.authSecretBindPw = some bindPw) (hc : answers.create = .ok ()) :
    run settings answers = { outcome := .ok (), output := g.output ++ ["Success!"],
                             created := [dexConfigSecret configYaml bindPw] } := by
  have hb : prepare settings answers {} = (.ok (dexConfigSecret configYaml bindPw), g) :=
    (bind_ok hk).trans (secretBody_of_encodes hy hp)
  simp only [run, Run.of, hb, hc, Answer.call, pure_bind_eq, print_apply]
  rfl

/-- The config that leads to what a run has created holds the placeholder, and the separate
key the password, exactly when there is a `bind_dn`. -/
def PasswordApart (data : List (String × String)) (config : Dict) (bindPw pw : String) : Prop :=
  ∃ connector, config.get "connectors" = some (.list [.dict connector]) ∧
    match present (data.lookup "bind_dn") with
    | some _ => configKey connector "bindPW" = some (.str "$AUTH_SECRET_BIND_PW") ∧
        Decodes bindPw pw
    | none => configKey connector "bindDN" = none ∧ configKey connector "bindPW" = none ∧
        bindPw = ""

theorem passwordApart_of_bind {bindPw stored : String} (hpw : HasPassword data pw)
    (hb : BindSettings data connector "" stored) (he : b64encode stored = some bindPw) :
    PasswordApart data (template.set "connectors" (.list [.dict connector])) bindPw pw := by
  refine ⟨connector, Dict.get_set_self, ?_⟩
  unfold BindSettings at hb
  split at hb
  · next hn =>
    obtain ⟨hd, hp, rfl⟩ := hb
    have hempty : b64encode "" = some "" := by decide
    rw [hn]
    exact ⟨hd, hp, Option.some.inj (he.symm.trans hempty)⟩
  · next hn =>
    obtain ⟨_, encodedPw, _, _, hp, hl, hd⟩ := hb
    obtain ⟨encodedPw', hl', hd'⟩ := hpw
    obtain rfl : encodedPw = encodedPw' := Option.some.inj (hl.symm.trans hl')
    obtain rfl := hd.unique hd'
    rw [hn]
    exact ⟨hp, decodes_of_b64encode he⟩

/-- Two runs on secrets that differ in `bind_pwd` alone print the same and store the same
`config.yaml`; the passwords go to the separate key, and only there. -/
theorem bind_pwd_apart (settings : Settings) (answers : Answers)
    (data₁ data₂ : List (String × String)) (pw₁ pw₂ : String) (hs : SameBut data₁ data₂)
    (h₁ : HasPassword data₁ pw₁) (h₂ : HasPassword data₂ pw₂)
    (hrun : (run settings (withSecret answers data₁)).outcome = .ok ()) :
    (run settings (withSecret answers data₂)).outcome = .ok () ∧
      (run settings (withSecret answers data₁)).output =
        (run settings (withSecret answers data₂)).output ∧
      ∃ config configYaml bindPw₁ bindPw₂,
        (run settings (withSecret answers data₁)).created = [dexConfigSecret configYaml bindPw₁] ∧
        (run settings (withSecret answers data₂)).created = [dexConfigSecret configYaml bindPw₂] ∧
        b64encode (settings.yamlDump config) = some configYaml ∧
        PasswordApart data₁ config bindPw₁ pw₁ ∧ PasswordApart data₂ config bindPw₂ pw₂ := by
  obtain ⟨body, g, hp, hc⟩ := run_ok_iff.mp hrun
  obtain ⟨config, g₁, hk₁, hb₁⟩ := of_bind_ok hp
  obtain ⟨configYaml, bindPw₁, hy, he₁, _⟩ := secretBody_ok hb₁
  -- the second run makes the same config and has printed the same
  obtain ⟨hr, hout⟩ := (agree_checkedConfig hs h₁ h₂).of_related {} {} rfl
  rcases hk₂ : checkedConfig settings (withSecret answers data₂) {} with ⟨r, g₂⟩
  rw [hk₁, hk₂] at hr hout
  simp only at hr
  subst hr
  have hout : g₁.output = g₂.output := hout
  obtain ⟨connector₁, hc₁, hbind₁⟩ := checkedConfig_bind hk₁
  obtain ⟨connector₂, hc₂, hbind₂⟩ := checkedConfig_bind hk₂
  obtain ⟨bindPw₂, he₂⟩ := hbind₂.encodes
  have hrun₁ := run_of_checkedConfig hk₁ hy he₁ hc
  have hrun₂ := run_of_checkedConfig hk₂ hy he₂ hc
  refine ⟨by rw [hrun₂], by rw [hrun₁, hrun₂, hout], config, configYaml, bindPw₁, bindPw₂,
    by rw [hrun₁], by rw [hrun₂], hy, ?_, ?_⟩
  · rw [hc₁]
    exact passwordApart_of_bind h₁ hbind₁ he₁
  · rw [hc₂]
    exact passwordApart_of_bind h₂ hbind₂ he₂

/-- A complete auth secret of an LDAP server, up to its password. -/
def ldapSecret (bindPwd : String) : List (String × String) :=
  [("type", "TERBUA=="), ("security_protocol", "bGRhcHM="), ("bind_type", "c2VhcmNoX2JpbmQ="),
    ("auth_service_locations", "aG9zdDo2MzY="), ("bind_dn", "Y249YWRtaW4="),
    ("bind_pwd", bindPwd), ("base_dn", "ZGM9ZXhhbXBsZQ=="), ("user_attr", "dWlk"),
    ("groups", "Y249YSxkYzo6OjpjbixkYw==")]

theorem sameBut_ldapSecret (bindPwd₁ bindPwd₂ : String) :
    SameBut (ldapSecret bindPwd₁) (ldapSecret bindPwd₂) := by
  intro key hk
  have hb : (key == "bind_pwd") = false := by simpa using hk
  simp [ldapSecret, List.lookup, hb]

theorem hasPassword_ldapSecret {bindPwd : String} (hp : present (some bindPwd) = some bindPwd)
    (h : b64encode pw = some bindPwd) : HasPassword (ldapSecret bindPwd) pw :=
  ⟨bindPwd, hp, decodes_of_b64encode h⟩

theorem bind_pwd_apart_ldap :
    (run dexSettings (withSecret freshAnswers (ldapSecret "aHVudGVyMg=="))).outcome = .ok () ∧
      (run dexSettings (withSecret freshAnswers (ldapSecret "c2VjcmV0"))).output =
        (run dexSettings (withSecret freshAnswers (ldapSecret "aHVudGVyMg=="))).output ∧
      ∃ config configYaml bindPw₁ bindPw₂,
        (run dexSettings (withSecret freshAnswers (ldapSecret "c2VjcmV0"))).created =
          [dexConfigSecret configYaml bindPw₁] ∧
        (run dexSettings (withSecret freshAnswers (ldapSecret "aHVudGVyMg=="))).created =
          [dexConfigSecret configYaml bindPw₂] ∧
        b64encode (dexSettings.yamlDump config) = some configYaml ∧
        PasswordApart (ldapSecret "c2VjcmV0") config bindPw₁ "secret" ∧
        PasswordApart (ldapSecret "aHVudGVyMg==") config bindPw₂ "hunter2" :=
  bind_pwd_apart dexSettings freshAnswers (ldapSecret "c2VjcmV0") (ldapSecret "aHVudGVyMg==")
    "secret" "hunter2" (sameBut_ldapSecret _ _) (hasPassword_ldapSecret rfl (by decide))
    (hasPassword_ldapSecret rfl (by decide)) (by decide +kernel)

end Manifests.DexSecret
