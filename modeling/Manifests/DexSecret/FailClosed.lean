import Manifests.DexSecret.Connector

/-! The job fails closed: whatever the secret holds and the cluster answers, a run creates
nothing or one dex config secret, and the static password only without an auth secret. -/
namespace Manifests.DexSecret
open Library Library.Script

variable {secret : Secret} {connector template config : Dict} {authTypeInfo : AuthTypeInfo}
  {key : String} {settings : Settings} {answers : Answers} {g g' : Globals}

theorem raises_getBindConfigured :
    Raises NotApi (getBindConfigured secret connector authTypeInfo) := by
  apply raises_bind (plain_print _).raises
  intro _
  split
  · exact (plain_sysExit _).raises
  · apply raises_bind plain_dataGet.raises
    intro value
    split
    · exact raises_pure _
    · apply raises_bind (plain_b64decode _).raises
      intro bindDn
      apply raises_bind plain_required.raises
      intro encodedPw
      apply raises_bind (plain_b64decode _).raises
      intro bindPw
      apply raises_bind plain_setConfig.raises
      intro connector
      apply raises_bind plain_setConfig.raises
      intro connector
      apply raises_bind (raises_modify _)
      intro _
      apply raises_bind (plain_print _).raises
      intro _
      exact raises_pure _

theorem raises_configureConnector :
    Raises NotApi (configureConnector secret connector authTypeInfo) := by
  apply raises_bind sets_getHostConfigured.raises
  intro connector
  apply raises_bind raises_getBindConfigured
  intro connector
  apply raises_bind sets_getSecurityConfigured.raises
  intro connector
  apply raises_bind sets_getUserSearchConfigured.raises
  intro connector
  exact sets_getGroupSearchConfigured.raises

theorem raises_getConnector : Raises NotApi (getConnector secret authTypeInfo) := by
  unfold getConnector
  split
  · exact raises_bind (plain_print _).raises fun _ => raises_configureConnector
  · split
    · exact raises_bind (plain_print _).raises fun _ => raises_configureConnector
    · exact raises_raise (by simp [NotApi])

/-- Once the auth secret is read, no failure looks like an API error. -/
theorem raises_configFromSecret : Raises NotApi (configFromSecret template (.ok secret)) := by
  apply raises_bind (raises_pure _)
  intro secret
  apply raises_bind plain_getAuthTypeInfo.raises
  intro authTypeInfo
  apply raises_bind plain_foundSettings.raises
  intro _
  apply raises_bind raises_getConnector
  intro connector
  exact raises_pure _

/-- The config with which the job offers the directory server's login. -/
def LdapConfig (template config : Dict) : Prop :=
  ∃ connector, config = template ++ [("connectors", .list [.dict connector])]

/-- The config with which the job offers the static admin's login. -/
def StaticConfig (template config : Dict) : Prop :=
  config = template ++ [("enablePasswordDB", .bool true),
    ("staticPasswords", .list [.dict staticPasswords])]

/-- A template that chooses neither login. -/
structure Neutral (template : Dict) : Prop where
  connectors : template.get "connectors" = none
  enablePasswordDB : template.get "enablePasswordDB" = none
  staticPasswords : template.get "staticPasswords" = none

theorem configFromSecret_ok (ht : Neutral template)
    (h : configFromSecret template (.ok secret) g = (.ok config, g')) : LdapConfig template config := by
  obtain ⟨_, _, _, h⟩ := of_bind_ok h
  obtain ⟨authTypeInfo, _, _, h⟩ := of_bind_ok h
  obtain ⟨_, _, _, h⟩ := of_bind_ok h
  obtain ⟨connector, _, _, h⟩ := of_bind_ok h
  cases h
  exact ⟨connector, Dict.set_of_get_none ht.connectors⟩

theorem configWithoutSecret_ok {status : Nat} {text : String} (ht : Neutral template)
    (h : configWithoutSecret template (.apiException status text) g = (.ok config, g')) :
    status = 404 ∧ StaticConfig template config := by
  unfold configWithoutSecret at h
  by_cases hs : status = 404
  · simp only [hs, ne_eq, not_true_eq_false, if_false, print_bind, pure_apply] at h
    cases h
    have hp : (template ++ [("enablePasswordDB", Value.bool true)]).get "staticPasswords" = none := by
      simp [Dict.get_append, ht.staticPasswords]
    refine ⟨hs, ?_⟩
    rw [StaticConfig, Dict.set_of_get_none ht.enablePasswordDB, Dict.set_of_get_none hp]
    simp
  · simp [hs] at h

/-- A config made after a read of the auth secret comes from that secret. -/
theorem makeConfig_found (h : makeConfig settings (.ok secret) g = (.ok config, g')) :
    ∃ g₁ g₂, configFromSecret settings.template (.ok secret) g₁ = (.ok config, g₂) ∧
      g₁.authSecretBindPw = g.authSecretBindPw ∧ g'.authSecretBindPw = g₂.authSecretBindPw := by
  obtain ⟨_, g₁, hp₁, h₁⟩ := of_bind_ok h
  obtain ⟨config', g₂, hc, h₂⟩ := of_bind_ok h₁
  obtain ⟨_, g₃, hp₂, h₃⟩ := of_bind_ok h₂
  cases h₃
  unfold catching at hc
  split at hc
  · next hm =>
    cases hc
    exact ⟨g₁, g₂, hm, (plain_print _).bindPw_eq hp₁, (plain_print _).bindPw_eq hp₂⟩
  · next e _ hm =>
    -- the handler only takes API errors, and none is raised after the read
    have he := raises_configFromSecret.of_error _ _ (congrArg Prod.fst hm)
    unfold configWithoutSecret at hc
    split at hc
    · exact (he _ _ rfl).elim
    · cases hc

/-- Everything a finished config can be, and the answer it takes. -/
theorem makeConfig_ok (ht : Neutral settings.template)
    (h : makeConfig settings answers.authSecret g = (.ok config, g')) :
    (LdapConfig settings.template config ∧ ∃ secret, answers.authSecret = .ok secret) ∨
      (StaticConfig settings.template config ∧
        ∃ text, answers.authSecret = .apiException 404 text) := by
  cases ha : answers.authSecret with
  | ok secret =>
    rw [ha] at h
    obtain ⟨_, _, hm, _⟩ := makeConfig_found h
    exact Or.inl ⟨configFromSecret_ok ht hm, secret, rfl⟩
  | apiException status text =>
    rw [ha] at h
    obtain ⟨_, g₁, _, h₁⟩ := of_bind_ok h
    obtain ⟨config', g₂, hc, h₂⟩ := of_bind_ok h₁
    cases h₂
    obtain ⟨rfl, hs⟩ := configWithoutSecret_ok ht hc
    exact Or.inr ⟨hs, text, rfl⟩

theorem checkAbsent_ok {dexSecret : Answer Secret} (h : checkAbsent dexSecret g = (.ok (), g')) :
    g' = g ∧ ∃ text, dexSecret = .apiException 404 text := by
  cases dexSecret with
  | ok secret => cases h
  | apiException status text =>
    by_cases hs : status = 404
    · subst hs
      cases h
      exact ⟨rfl, text, rfl⟩
    · simp [checkAbsent, catching, Answer.call, hs] at h

theorem secretBody_ok {body : SecretBody} (h : secretBody settings config g = (.ok body, g')) :
    ∃ configYaml bindPw, b64encode (settings.yamlDump config) = some configYaml ∧
      b64encode g.authSecretBindPw = some bindPw ∧
      body = dexConfigSecret configYaml bindPw := by
  obtain ⟨configYaml, g₁, hy, h₁⟩ := of_bind_ok h
  obtain ⟨globals, g₂, hg, h₂⟩ := of_bind_ok h₁
  obtain ⟨bindPw, g₃, hb, h₃⟩ := of_bind_ok h₂
  obtain ⟨hdump, rfl⟩ := ofOption_ok hy
  obtain ⟨rfl, rfl⟩ := get_ok hg
  obtain ⟨hpw, rfl⟩ := ofOption_ok hb
  cases h₃
  exact ⟨configYaml, bindPw, hdump, hpw, rfl⟩

/-- The stages of a run that gets as far as the create call. -/
theorem checkedConfig_ok (h : checkedConfig settings answers g = (.ok config, g')) :
    makeConfig settings answers.authSecret g = (.ok config, g') ∧
      ∃ text, answers.dexSecret = .apiException 404 text := by
  obtain ⟨_, g₀, hl, h₁⟩ := of_bind_ok h
  obtain ⟨config', g₁, hc, h₂⟩ := of_bind_ok h₁
  obtain ⟨_, g₂, ha, h₃⟩ := of_bind_ok h₂
  obtain rfl := loadConfig_ok hl
  obtain ⟨rfl, ht⟩ := checkAbsent_ok ha
  cases h₃
  exact ⟨hc, ht⟩

/-- Everything a run can do to the cluster. -/
theorem run_cases (settings : Settings) (answers : Answers) :
    ((run settings answers).created = [] ∧ (run settings answers).outcome ≠ .ok ()) ∨
      ∃ body g, prepare settings answers {} = (.ok body, g) ∧ answers.create = .ok () ∧
        (run settings answers).created = [body] ∧ (run settings answers).outcome = .ok () := by
  obtain hn | ⟨body, g, g', hp, hc, hr⟩ := Run.of_cases (prepare settings answers)
    (do answers.create.call; print ["Success!"])
  · exact Or.inl hn
  · obtain ⟨_, _, hcall, _⟩ := of_bind_ok hc
    refine Or.inr ⟨body, g, hp, (Answer.call_ok hcall).1, ?_, ?_⟩
    · rw [run, hr]
    · rw [run, hr]

theorem LdapConfig.get_none (h : LdapConfig template config) (hk : key ≠ "connectors") :
    config.get key = template.get key := by
  obtain ⟨connector, rfl⟩ := h
  simp [Dict.get_append, hk]

theorem StaticConfig.get_none (h : StaticConfig template config)
    (hd : key ≠ "enablePasswordDB") (hs : key ≠ "staticPasswords") :
    config.get key = template.get key := by
  subst h
  simp [Dict.get_append, hd, hs]

/-- One run either creates nothing, or succeeds and creates exactly the dex config secret:
with a connector and no static password after a read of the auth secret, or with the static
password and no connector after a 404. -/
theorem fail_closed (settings : Settings) (answers : Answers) (ht : Neutral settings.template) :
    (run settings answers).created = [] ∨
      ∃ configYaml bindPw config,
        (run settings answers).outcome = .ok () ∧
        (run settings answers).created = [dexConfigSecret configYaml bindPw] ∧
        b64encode (settings.yamlDump config) = some configYaml ∧
        ((LdapConfig settings.template config ∧ config.get "staticPasswords" = none ∧
            config.get "enablePasswordDB" = none ∧ ∃ secret, answers.authSecret = .ok secret) ∨
          (StaticConfig settings.template config ∧ config.get "connectors" = none ∧
            ∃ text, answers.authSecret = .apiException 404 text)) := by
  obtain ⟨hc, _⟩ | ⟨body, g, hp, _, hc, ho⟩ := run_cases settings answers
  · exact Or.inl hc
  · obtain ⟨config, g₁, hk, hb⟩ := of_bind_ok hp
    obtain ⟨hm, _⟩ := checkedConfig_ok hk
    obtain ⟨configYaml, bindPw, hy, _, rfl⟩ := secretBody_ok hb
    refine Or.inr ⟨configYaml, bindPw, config, ho, hc, hy, ?_⟩
    obtain ⟨hl, hs⟩ | ⟨hs, hn⟩ := makeConfig_ok ht hm
    · exact Or.inl ⟨hl, (hl.get_none (by decide)).trans ht.staticPasswords,
        (hl.get_none (by decide)).trans ht.enablePasswordDB, hs⟩
    · exact Or.inr ⟨hs, (hs.get_none (by decide) (by decide)).trans ht.connectors, hn⟩

theorem neutral_dexTemplate : Neutral dexTemplate := ⟨rfl, rfl, rfl⟩

/-- A cluster without the auth secret and without the dex secret. -/
def freshAnswers : Answers where
  loadKubeConfig := .error (.exception "no config")
  loadInclusterConfig := .ok ()
  authSecret := .apiException 404 "(404)"
  dexSecret := .apiException 404 "(404)"
  create := .ok ()

/-- The shipped template, with a stand-in for the YAML writer. -/
def dexSettings : Settings where
  authSecretName := none
  authSecretNamespace := none
  template := dexTemplate
  yamlDump := fun config => "keys: " ++ ", ".intercalate (config.map Prod.fst)

theorem fail_closed_fresh : ∃ configYaml bindPw config,
    (run dexSettings freshAnswers).outcome = .ok () ∧
    (run dexSettings freshAnswers).created = [dexConfigSecret configYaml bindPw] ∧
    b64encode (dexSettings.yamlDump config) = some configYaml ∧
    StaticConfig dexTemplate config ∧ config.get "connectors" = none := by
  rcases fail_closed dexSettings freshAnswers neutral_dexTemplate with
    hnone | ⟨configYaml, bindPw, config, hok, hcreated, hyaml, hldap | ⟨hstatic, hconnectors, _⟩⟩
  · have hcreates : (run dexSettings freshAnswers).created ≠ [] := by decide +kernel
    exact (hcreates hnone).elim
  · obtain ⟨_, _, _, secret, hsecret⟩ := hldap
    cases hsecret
  · exact ⟨configYaml, bindPw, config, hok, hcreated, hyaml, hstatic, hconnectors⟩

end Manifests.DexSecret
