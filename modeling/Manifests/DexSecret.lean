import Manifests.Cluster

/-! The dex-secret-ldap job: it reads the auth secret and creates the dex config secret. -/
namespace Manifests.DexSecret
open Library

def dexConfigSecretName : String := "dex-config-secret"
def dexConfigSecretNamespace : String := "auth"
def dexConfigSecretBindPw : String := "AUTH_SECRET_BIND_PW"

/-- `base64.b64decode(source.encode('ascii')).decode('ascii')`. -/
def b64decode (source : String) : Py String := do
  let raw ← .ofOption .unicodeError (Text.encodeAscii source)
  let bytes ← .ofOption .binasciiError (Base64.decode raw)
  .ofOption .unicodeError (Text.decodeAscii bytes)

/-- `secret.data.get(key)`, where a missing value ends the script. -/
def required (secret : Secret) (key : String) : Py String := do
  match present (← secret.dataGet key) with
  | some s => pure s
  | none => sysExit ("[ERROR]   '" ++ key ++ "' is not found in secret")

/-- `connector['config'][key] = v`. -/
def setConfig (connector : Dict) (key : String) (v : Value) : Py Dict := do
  let config ← getDict connector "config"
  return connector.set "config" (.dict (config.set key v))

/-- `connector['config'][search][key] = v`. -/
def setSearch (connector : Dict) (search key : String) (v : Value) : Py Dict := do
  let config ← getDict connector "config"
  let entries ← getDict config search
  return connector.set "config" (.dict (config.set search (.dict (entries.set key v))))

/-- `s[n]` of a list. -/
def item (words : List String) (n : Nat) : Py String := .ofOption .indexError words[n]?

/-- The loop over the groups that looks for the first base DN other than `none`. -/
def groupBaseDn : List String → Py String
  | [] => pure "none"
  | oneOfGroups :: groups => do
    let groupRootDn ← item (Text.split "," oneOfGroups) 1
    if groupRootDn ≠ "none" then pure groupRootDn else groupBaseDn groups

/-- The loop that appends one parenthesised filter for each group. -/
def groupFilters (groupFilter : String) : List String → Py String
  | [] => pure groupFilter
  | oneOfGroups :: groups => do
    let groupCn ← item (Text.split "," oneOfGroups) 0
    groupFilters (groupFilter ++ "(" ++ groupCn ++ ")") groups

/-- The base DN and the filter of a groups value. -/
def groupSearch (group : String) : Py (String × String) :=
  if Text.contains "::::" group then do
    let groups := Text.split "::::" group
    let groupBaseDn ← groupBaseDn groups
    let groupFilter ← groupFilters "\"(|" groups
    return (groupBaseDn, groupFilter ++ ")\"")
  else do
    let groupCn ← item (Text.split "," group) 0
    let groupBaseDn ← item (Text.split "," group) 1
    return (groupBaseDn, "\"(" ++ groupCn ++ ")\"")

def getGroupSearchConfigured (secret : Secret) (connector : Dict) : Py Dict := do
  print ["Preparing groups search settings..."]
  match present (← secret.dataGet "groups") with
  | none =>
    print ["Group search settings cofigured!"]
    -- the source returns the unrelated `config` here, and its callers drop it
    return connector
  | some encoded =>
    let connector ← setConfig connector "groupSearch" (.dict [])
    let group ← b64decode encoded
    let (groupBaseDn, groupFilter) ← groupSearch group
    let connector ← setSearch connector "groupSearch" "baseDN" (.str groupBaseDn)
    let connector ← setSearch connector "groupSearch" "filter" (.str groupFilter)
    let connector ← setSearch connector "groupSearch" "nameAttr" (.str "")
    print ["Group search settings cofigured!"]
    return connector

def getUserSearchConfigured (secret : Secret) (connector : Dict) : Py Dict := do
  print ["Preparing user search settings..."]
  let userBaseDn ← b64decode (← required secret "base_dn")
  let username ← b64decode (← required secret "user_attr")
  let connector ← setSearch connector "userSearch" "baseDN" (.str userBaseDn)
  let connector ← setSearch connector "userSearch" "username" (.str username)
  let connector ← setSearch connector "userSearch" "nameAttr" (.str username)
  print ["User search settings cofigured!"]
  return connector

structure AuthTypeInfo where
  directoryServer : String
  securityProtocol : String
  bindType : String
  deriving Repr, DecidableEq

/-- The certificate settings of a secured connection. -/
def setRootCa (secret : Secret) (connector : Dict) : Py Dict := do
  match present (← secret.dataGet "ca_cert") with
  | none => setConfig connector "insecureSkipVerify" (.bool true)
  | some rootCaData =>
    let connector ← setConfig connector "insecureSkipVerify" (.bool false)
    setConfig connector "rootCAData" (.str rootCaData)

/-- The `startTLS` flag of a secured connection. -/
def setStartTls (connector : Dict) (authTypeInfo : AuthTypeInfo) : Py Dict :=
  if authTypeInfo.securityProtocol = "ldaps" then setConfig connector "startTLS" (.bool false)
  else if authTypeInfo.securityProtocol = "starttls" then
    setConfig connector "startTLS" (.bool true)
  else pure connector

def getSecurityConfigured (secret : Secret) (connector : Dict) (authTypeInfo : AuthTypeInfo) :
    Py Dict := do
  print ["Preparing security settings..."]
  if authTypeInfo.securityProtocol = "none" then
    let connector ← setConfig connector "startTLS" (.bool false)
    let connector ← setConfig connector "insecureNoSSL" (.bool true)
    let connector ← setConfig connector "insecureSkipVerify" (.bool true)
    print ["Security settings cofigured!"]
    return connector
  else
    let connector ← setConfig connector "insecureNoSSL" (.bool false)
    let connector ← setRootCa secret connector
    let connector ← setStartTls connector authTypeInfo
    print ["Security settings cofigured!"]
    return connector

def getBindConfigured (secret : Secret) (connector : Dict) (authTypeInfo : AuthTypeInfo) :
    Py Dict := do
  print ["Preparing bind settings..."]
  if authTypeInfo.bindType ≠ "search_bind" then
    sysExit "[ERROR]    Bind type: '$bind_type' is not supported."
  else match present (← secret.dataGet "bind_dn") with
    | none => return connector
    | some encodedDn =>
      let bindDn ← b64decode encodedDn
      let bindPw ← b64decode (← required secret "bind_pwd")
      let connector ← setConfig connector "bindDN" (.str bindDn)
      let connector ← setConfig connector "bindPW" (.str ("$" ++ dexConfigSecretBindPw))
      .modify fun g => { g with authSecretBindPw := bindPw }
      print ["Bind settings cofigured!"]
      return connector

def getHostConfigured (secret : Secret) (connector : Dict) : Py Dict := do
  print ["Preparing host settings..."]
  let host ← required secret "auth_service_locations"
  let connector ← setConfig connector "host" (.str (← b64decode host))
  print ["Host settings cofigured!"]
  return connector

/-- The connector both builders start from. -/
def newConnector (id name idAttr emailAttr : String) : Dict :=
  [("id", .str id), ("name", .str name), ("type", .str "ldap"),
    ("config", .dict [("userSearch",
      .dict [("idAttr", .str idAttr), ("emailAttr", .str emailAttr)])])]

/-- The five steps both builders end with. -/
def configureConnector (secret : Secret) (connector : Dict) (authTypeInfo : AuthTypeInfo) :
    Py Dict := do
  let connector ← getHostConfigured secret connector
  let connector ← getBindConfigured secret connector authTypeInfo
  let connector ← getSecurityConfigured secret connector authTypeInfo
  let connector ← getUserSearchConfigured secret connector
  getGroupSearchConfigured secret connector

def getConnectorForLdap (secret : Secret) (authTypeInfo : AuthTypeInfo) : Py Dict := do
  print ["Preparing config for LDAP..."]
  configureConnector secret (newConnector "ldap" "LDAP" "uid" "uid") authTypeInfo

def getConnectorForAd (secret : Secret) (authTypeInfo : AuthTypeInfo) : Py Dict := do
  print ["Preparing config for Active Directory..."]
  configureConnector secret (newConnector "ad" "ActiveDirectory" "DN" "cn") authTypeInfo

def getAuthTypeInfo (secret : Secret) : Py AuthTypeInfo := do
  print ["Defining auth type..."]
  let directoryServer ← b64decode (← required secret "type")
  let securityProtocol ← b64decode (← required secret "security_protocol")
  let bindType ← b64decode (← required secret "bind_type")
  return { directoryServer, securityProtocol, bindType }

/-- What the job's pod and the template file give to a run. -/
structure Settings where
  authSecretName : Option String
  authSecretNamespace : Option String
  /-- `template.yaml`, as `yaml.safe_load` reads it. -/
  template : Dict
  /-- `yaml.dump`. -/
  yamlDump : Dict → String

/-- `template.yaml` as the repository ships it. -/
def dexTemplate : Dict :=
  [("issuer", .str "http://dex.auth.svc.cluster.local:5556/dex"),
    ("storage", .dict [("type", .str "kubernetes"), ("config", .dict [("inCluster", .bool true)])]),
    ("web", .dict [("http", .str "0.0.0.0:5556")]),
    ("logger", .dict [("level", .str "debug"), ("format", .str "text")]),
    ("oauth2", .dict [("skipApprovalScreen", .bool true)]),
    ("staticClients", .list [.dict [("id", .str "kubeflow-oidc-authservice"),
      ("redirectURIs", .list [.str "/login/oidc"]), ("name", .str "Dex Login Application"),
      ("secret", .str "pUBnBOY80SnXgjibTYM9ZWNzY2xreNGQok")]])]

def foundSettings (authTypeInfo : AuthTypeInfo) : Py Unit :=
  if authTypeInfo.securityProtocol = "none" then
    print ["Found settings for", authTypeInfo.directoryServer,
      "without security connection and bind type:", authTypeInfo.bindType]
  else
    print ["Found settings for", authTypeInfo.directoryServer, "with connection:",
      authTypeInfo.securityProtocol, "and bind type:", authTypeInfo.bindType]

/-- The connector of the directory server that the secret names. -/
def getConnector (secret : Secret) (authTypeInfo : AuthTypeInfo) : Py Dict :=
  if authTypeInfo.directoryServer = "LDAP" then getConnectorForLdap secret authTypeInfo
  else if authTypeInfo.directoryServer = "Active Directory" then
    getConnectorForAd secret authTypeInfo
  else .raise (.exception "Unsupported directory server")

/-- The body of the first `try`. -/
def configFromSecret (template : Dict) (authSecret : Answer Secret) : Py Dict := do
  let secret ← authSecret.call
  let authTypeInfo ← getAuthTypeInfo secret
  foundSettings authTypeInfo
  let connector ← getConnector secret authTypeInfo
  return template.set "connectors" (.list [.dict connector])

def staticPasswords : Dict :=
  [("email", .str "admin@kubeflow.org"),
    ("hash", .str "$2y$12$ruoM7FqXrpVgaol44eRZW.4HWS8SAvg6KYVVSCIwKQPBmTpCm.EeO"),
    ("username", .str "admin"), ("userID", .str "08a8684b-db88-4b73-90a9-3cd1661f5466")]

/-- The first `except client.exceptions.ApiException`; anything else passes through. -/
def configWithoutSecret (template : Dict) : PyError → Py Dict
  | .apiException status text =>
    if status ≠ 404 then do
      print ["Unexpected error while connecting to kubernetes"]
      sysExit text
    else do
      print ["Secret was not found. Kubeflow will be configured without authentication."]
      let config := template.set "enablePasswordDB" (.bool true)
      return config.set "staticPasswords" (.list [.dict staticPasswords])
  | e => .raise e

/-- From the read of the auth secret to the finished config. -/
def makeConfig (settings : Settings) (authSecret : Answer Secret) : Py Dict := do
  print ["Reading secret", environOr settings.authSecretName "hpecp-ext-auth-secret",
    "from namespace", environOr settings.authSecretNamespace "hpecp"]
  let config ← (configFromSecret settings.template authSecret).catching
    (configWithoutSecret settings.template)
  print ["Config created! Setting up it to config map..."]
  return config

/-- The second `try`: only a 404 for the dex secret lets the run go on. -/
def checkAbsent (dexSecret : Answer Secret) : Py Unit :=
  (do
    let _ ← dexSecret.call
    .raise (.exception "Dex config secret already exists!")).catching
  fun
    | .apiException status text =>
      if status ≠ 404 then do
        print ["Unexpected error while connecting to kubernetes"]
        sysExit text
      else pure ()
    | e => .raise e

def dexConfigSecret (configYaml bindPw : String) : SecretBody where
  ns := dexConfigSecretNamespace
  name := dexConfigSecretName
  type := "Opaque"
  data := [("config.yaml", configYaml), (dexConfigSecretBindPw, bindPw)]

/-- The body of the secret to create. -/
def secretBody (settings : Settings) (config : Dict) : Py SecretBody := do
  let configYaml ← .ofOption .unicodeError (b64encode (settings.yamlDump config))
  let bindPw ← .ofOption .unicodeError (b64encode (← .get).authSecretBindPw)
  return dexConfigSecret configYaml bindPw

/-- The answers of the cluster to the calls of one run, in the order of the calls. -/
structure Answers where
  loadKubeConfig : Except PyError Unit
  loadInclusterConfig : Except PyError Unit
  authSecret : Answer Secret
  dexSecret : Answer Secret
  create : Answer Unit

/-- The script up to the second read: the config of a run that may create the dex secret. -/
def checkedConfig (settings : Settings) (answers : Answers) : Py Dict := do
  loadConfig answers.loadKubeConfig answers.loadInclusterConfig
  let config ← makeConfig settings answers.authSecret
  checkAbsent answers.dexSecret
  return config

/-- The script up to its last call: what it asks the cluster to create. -/
def prepare (settings : Settings) (answers : Answers) : Py SecretBody := do
  let config ← checkedConfig settings answers
  secretBody settings config

/-- One run of the job. -/
def run (settings : Settings) (answers : Answers) : Run :=
  Run.of (prepare settings answers) do
    answers.create.call
    print ["Success!"]

end Manifests.DexSecret
