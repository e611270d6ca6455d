import Manifests.DexSecret.TlsSettings

/-! What a YAML reader finds in the `config.yaml` that a run stores. -/
namespace Manifests.DexSecret
open Library Library.Script

/-- `yaml.safe_load`: the texts of a document, by the way that leads to each. -/
abbrev YamlReader := List Step → Option String

section
variable (read : String → YamlReader) (settings : Settings) (answers : Answers)
  (data : List (String × String))

/-- The reader finds in a dump the texts that the dumped config has. -/
def ReadsBack (config : Dict) : Prop :=
  ∀ path, read (settings.yamlDump config) path = (Value.dict config).textAt path

/-- The config of the secret, when it leads to one, is dumped as ASCII text and read back. -/
structure YamlLaws : Prop where
  ascii : ∀ connector, secretConnector data = some connector →
    IsAscii (settings.yamlDump (withConnector settings.template connector))
  reads : ∀ connector, secretConnector data = some connector →
    ReadsBack read settings (withConnector settings.template connector)

/-- The run creates the dex config secret, and the reader finds the text in its `config.yaml`. -/
def Stores (path : List Step) (text : String) : Prop :=
  ∃ configYaml bindPw yaml, (run settings (withSecret answers data)).created =
    [dexConfigSecret configYaml bindPw] ∧ decode? configYaml = some yaml ∧ read yaml path = some text

end

/-- The way to a setting of the connector. -/
def settingPath (keys : List String) : List Step :=
  [.key "connectors", .index 0, .key "config"] ++ keys.map .key

section
variable {read : String → YamlReader} {settings : Settings} {answers : Answers}
  {data : List (String × String)} {path : List Step} {keys : List String} {text id name : String}
  {template config connector : Dict}

theorem textAt_setting :
    (Value.dict (withConnector template (connectorWith id name config))).textAt (settingPath keys) =
      (Value.dict config).textAt (keys.map .key) := by
  simp [settingPath, Value.textAt, Value.get, Value.item, withConnector, connectorWith]

theorem decode?_of_b64encode {configYaml : String} (h : b64encode text = some configYaml) :
    decode? configYaml = some text := by
  obtain ⟨hencodes, hascii⟩ := encodes_of_b64encode h
  exact hencodes.decode?_iff.mpr ⟨rfl, hascii⟩

/-- A text that is found is one of the connector of the secret. -/
theorem Stores.found (hy : YamlLaws read settings data)
    (h : Stores read settings answers data path text) :
    ∃ connector, secretConnector data = some connector ∧
      (Value.dict (withConnector settings.template connector)).textAt path = some text := by
  obtain ⟨configYaml, bindPw, yaml, hcreated, hdecode, hread⟩ := h
  obtain ⟨connector, configYaml', bindPw', hc, hdump, hbody⟩ := run_created hcreated
  cases hbody
  rw [decode?_of_b64encode hdump] at hdecode
  cases hdecode
  refine ⟨connector, hc, ?_⟩
  rw [← hy.reads connector hc, hread]

/-- A connector leads to a stored config, with the password beside it. -/
theorem run_of_connector (hu : Undisturbed answers) (hy : YamlLaws read settings data)
    (hc : secretConnector data = some connector) : ∃ configYaml pw bindPw,
      b64encode (settings.yamlDump (withConnector settings.template connector)) = some configYaml ∧
        (run settings (withSecret answers data)).outcome = .ok () ∧
          (run settings (withSecret answers data)).created = [dexConfigSecret configYaml bindPw] ∧
            BindSettings data connector "" pw ∧ b64encode pw = some bindPw := by
  obtain ⟨configYaml, hdump⟩ := Option.isSome_iff_exists.mp
    (Manifests.b64encode_isSome.mpr (hy.ascii connector hc))
  obtain ⟨pw, bindPw, h⟩ := run_accepted hu hc hdump
  exact ⟨configYaml, pw, bindPw, hdump, h⟩

/-- An accepted secret leads to a stored config with the texts of its connector. -/
theorem stores_of_connector (hu : Undisturbed answers) (hy : YamlLaws read settings data)
    (hc : secretConnector data = some connector)
    (htext : (Value.dict (withConnector settings.template connector)).textAt path = some text) :
    Stores read settings answers data path text := by
  obtain ⟨configYaml, _, bindPw, hdump, _, hcreated, _⟩ := run_of_connector hu hy hc
  exact ⟨configYaml, bindPw, _, hcreated, decode?_of_b64encode hdump,
    (hy.reads connector hc path).trans htext⟩

theorem stores_setting (hu : Undisturbed answers) (hy : YamlLaws read settings data)
    (hc : secretConnector data = some (connectorWith id name config))
    (htext : (Value.dict config).textAt (keys.map .key) = some text) :
    Stores read settings answers data (settingPath keys) text :=
  stores_of_connector hu hy hc (textAt_setting.trans htext)

/-- The reader of one dump, of the shipped template with the connector of a secret. -/
def readerOf (yaml : String) (data : List (String × String)) : String → YamlReader := fun text path =>
  if text = yaml then
    (Value.dict (withConnector dexTemplate ((secretConnector data).getD []))).textAt path
  else none

theorem yamlLaws_readerOf (h : IsAscii text) : YamlLaws (readerOf text data) (dumping text) data where
  ascii _ _ := h
  reads connector hc path := by
    simp [readerOf, dumping, dexSettings, hc]

end

end Manifests.DexSecret
