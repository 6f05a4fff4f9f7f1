import McpSshTool.Connector.Tools
import McpSshTool.Ssh.HostKeyPins

/-!
# The credentials of the connector

`connector-credentials.ts`: what an alias is resolved to for an inspection, and what
`buildAuthConfig` (`session.ts`) logs in with then.

* `commandCredentialResponseSchema` — the reply of the credential command;
* `resolveConnectorCredentials` — the parameters of the connection, by the provider;
* `buildAuthConfig` — the four strategies;
* `resolved_spec` — what all providers have in common;
* `connector_login` — a connection of the connector logs in through the agent of the server, or with
  the key file that the command names. It is never with a password, and nothing of it is in the
  call.
-/

open Library Ssh

namespace Connector

/-! ### Configuration and parameters -/

inductive CredentialProvider where
  | none | agent | command
deriving DecidableEq, Repr

/-- `config.connector`, of what the tools read. -/
structure ConnectorConfig where
  toolProfile : Http.ToolProfile := .full
  credentialProvider : CredentialProvider := .none
  credentialCommand : Option String := Option.none
  defaultUsername : Option String := Option.none

/-- `auth`. -/
inductive AuthStrategy where
  | auto | password | key | agent
deriving DecidableEq, Repr

/-- `ConnectionParams`, with what a connection is made with. -/
structure LoginParams extends HostKeyParams where
  auth : Option AuthStrategy := none
  password : Option String := none
  privateKey : Option String := none
  privateKeyPath : Option String := none
  passphrase : Option String := none
  useAgent : Option Bool := none
  readyTimeoutMs : Option ℕ := none

/-! ### The reply of the command -/

/-- `CommandCredentialResponseSchema`, parsed. -/
structure CommandCredentials where
  host : Option String := none
  username : Option String := none
  port : Option ℕ := none
  auth : AuthStrategy := .agent
  privateKeyPath : Option String := none
  knownHostsPath : Option String := none
  expectedHostKeySha256 : Option String := none
  hostKeyPolicy : HostKeyPolicy := .strict
  readyTimeoutMs : Option ℕ := none
  ttlMs : Option ℕ := none
  auth_eq : auth = .agent ∨ auth = .key := by decide
  hostKeyPolicy_ne : hostKeyPolicy ≠ .insecure := by decide

/-- The members of `CommandCredentialResponseSchema`. -/
def credentialMembers : List String :=
  ["host", "username", "port", "auth", "privateKeyPath", "knownHostsPath", "expectedHostKeySha256",
    "hostKeyPolicy", "readyTimeoutMs", "ttlMs"]

/-- `z.number().int().min(lo).max(hi)`, for `lo` that is positive. -/
def intBetween (lo hi : ℕ) : Schema ℕ := fun value =>
  (Schema.positiveIntMax hi value).bind fun n => if lo ≤ n then some n else none

/-- `z.enum(["agent", "key"]).optional().default("agent")`. -/
def authSchema : Schema { auth : AuthStrategy // auth = .agent ∨ auth = .key }
  | .undefined => some ⟨.agent, .inl rfl⟩
  | .str "agent" => some ⟨.agent, .inl rfl⟩
  | .str "key" => some ⟨.key, .inr rfl⟩
  | _ => none

/-- `z.enum(["strict", "accept-new"]).optional().default("strict")`. -/
def hostKeyPolicySchema : Schema { policy : HostKeyPolicy // policy ≠ .insecure }
  | .undefined => some ⟨.strict, by decide⟩
  | .str "strict" => some ⟨.strict, by decide⟩
  | .str "accept-new" => some ⟨.acceptNew, by decide⟩
  | _ => none

/-- `CommandCredentialResponseSchema.parse`, or what it throws. -/
def commandCredentialResponseSchema : Schema CommandCredentials := fun value => do
  let member ← Schema.strict credentialMembers value
  let host ← Schema.optional (Schema.stringMin 1) (member "host")
  let username ← Schema.optional (Schema.stringMin 1) (member "username")
  let port ← Schema.optional (intBetween 1 65535) (member "port")
  let auth ← authSchema (member "auth")
  let privateKeyPath ← Schema.optional (Schema.stringMin 1) (member "privateKeyPath")
  let knownHostsPath ← Schema.optional (Schema.stringMin 1) (member "knownHostsPath")
  let expectedHostKeySha256 ← Schema.optional (Schema.stringMin 1) (member "expectedHostKeySha256")
  let hostKeyPolicy ← hostKeyPolicySchema (member "hostKeyPolicy")
  let readyTimeoutMs ← Schema.optional (intBetween 1000 60000) (member "readyTimeoutMs")
  let ttlMs ← Schema.optional (intBetween 10000 900000) (member "ttlMs")
  some {
    host, username, port, privateKeyPath, knownHostsPath, expectedHostKeySha256, readyTimeoutMs,
    ttlMs
    auth := auth.1
    hostKeyPolicy := hostKeyPolicy.1
    auth_eq := auth.2
    hostKeyPolicy_ne := hostKeyPolicy.2 }

/-! ### Resolving -/

/-- A port of the SSH configuration. A number that is none is left out: no socket takes it. -/
def portOf (port : Option JsNumber) : Option ℕ :=
  (port.bind JsNumber.toSafeInt?).bind fun i => if 0 ≤ i then some i.toNat else none

def resolveAgentCredentials (config : ConnectorConfig) (hostAlias : String)
    (resolvedHost : Except Failure ResolvedHost) : Except Failure LoginParams := do
  let resolved ← resolvedHost
  match truthy (resolved.username.or config.defaultUsername) with
  | none =>
    .error (plainError ("Remote connector agent provider requires User in SSH config or " ++
      "SSH_MCP_CONNECTOR_DEFAULT_USERNAME."))
  | some username =>
    .ok {
      host := resolved.host
      policyHost := some hostAlias
      username
      port := portOf resolved.port
      auth := some .agent
      useAgent := some true
      hostKeyPolicy := some .strict
      policyMode := some .enforce }

/-- `resolveCommandCredentials`. The reply is what `runCredentialCommand` comes to. -/
def resolveCommandCredentials (config : ConnectorConfig) (hostAlias : String)
    (resolvedHost : Except Failure ResolvedHost) (reply : Except Failure CommandCredentials) :
    Except Failure LoginParams :=
  match truthy config.credentialCommand with
  | none =>
    .error (plainError ("Remote connector command provider requires " ++
      "SSH_MCP_CONNECTOR_CREDENTIAL_COMMAND."))
  | some _ => do
    let resolved ← resolvedHost
    let result ← reply
    match truthy ((result.username.or resolved.username).or config.defaultUsername) with
    | none =>
      .error (plainError
        "Credential command did not return a username and no default is configured.")
    | some username =>
      if result.auth = .key ∧ truthy result.privateKeyPath = none then
        .error (plainError "Credential command auth=key requires privateKeyPath.")
      else
        .ok {
          host := result.host.getD resolved.host
          policyHost := some hostAlias
          username
          port := (result.port.or (portOf resolved.port)).filter (· ≠ 0)
          auth := some result.auth
          useAgent := some (result.auth = .agent)
          hostKeyPolicy := some result.hostKeyPolicy
          policyMode := some .enforce
          readyTimeoutMs := some (result.readyTimeoutMs.getD 20000)
          ttlMs := some (result.ttlMs.getD 120000)
          privateKeyPath := truthy result.privateKeyPath
          knownHostsPath := truthy result.knownHostsPath
          expectedHostKeySha256 := truthy result.expectedHostKeySha256 }

def resolveConnectorCredentials (config : ConnectorConfig) (hostAlias : String)
    (resolvedHost : Except Failure ResolvedHost) (reply : Except Failure CommandCredentials) :
    Except Failure LoginParams :=
  match config.credentialProvider with
  | .agent => resolveAgentCredentials config hostAlias resolvedHost
  | .command => resolveCommandCredentials config hostAlias resolvedHost reply
  | .none =>
    .error (plainError ("Remote connector credential provider is not configured. Set " ++
      "SSH_MCP_CONNECTOR_CREDENTIAL_PROVIDER=agent or command."))

/-! ### Logging in -/

/-- What `buildAuthConfig` takes from the server's machine. -/
structure LoginEnvironment where
  /-- `process.env.SSH_AUTH_SOCK`. -/
  authSock : Option String
  /-- `process.env.SSH_DEFAULT_KEY_DIR`, or `.ssh` in the home directory. -/
  keyDir : String
  /-- `path.join`. -/
  pathJoin : String → String → String
  /-- The files that may be read. -/
  canAccess : String → Bool
  /-- `fs.promises.readFile(path, "utf8")`. -/
  readFile : String → Option String

/-- `SSHAuthConfig`. -/
inductive AuthConfig where
  | password (password : String)
  | privateKey (privateKey : String) (passphrase : Option String)
  | agent (authSock : String)
deriving DecidableEq

def loadPrivateKeyFromPath (env : LoginEnvironment) (keyPath : String)
    (passphrase : Option String) : Except Failure AuthConfig :=
  match env.readFile keyPath with
  | some privateKey => .ok (.privateKey privateKey passphrase)
  | none =>
    .error (createAuthError ("Failed to load private key from " ++ keyPath)
      (some "Check if the file exists and is readable"))

/-- The names that `discoverPrivateKeys` tries, in order. -/
def keyFiles : List String := ["id_ed25519", "id_ecdsa", "id_ed25519_sk", "id_ecdsa_sk", "id_rsa"]

def discoverPrivateKeys (env : LoginEnvironment) (passphrase : Option String) :
    Except Failure AuthConfig :=
  let found := keyFiles.findSome? fun keyFile =>
    let keyPath := env.pathJoin env.keyDir keyFile
    if env.canAccess keyPath then (loadPrivateKeyFromPath env keyPath passphrase).toOption else none
  match found with
  | some auth => .ok auth
  | none =>
    .error (createAuthError "No SSH private keys found in standard locations"
      (some ("Checked: " ++ ", ".intercalate (keyFiles.map (env.pathJoin env.keyDir)))))

def buildKeyAuth (env : LoginEnvironment) (params : LoginParams) : Except Failure AuthConfig :=
  match truthy params.privateKey, truthy params.privateKeyPath with
  | some privateKey, _ => .ok (.privateKey privateKey params.passphrase)
  | none, some keyPath => loadPrivateKeyFromPath env keyPath params.passphrase
  | none, none => discoverPrivateKeys env params.passphrase

def buildAgentAuth (env : LoginEnvironment) : Except Failure AuthConfig :=
  match truthy env.authSock with
  | some authSock => .ok (.agent authSock)
  | none =>
    .error (createAuthError "SSH agent not available"
      (some "Set SSH_AUTH_SOCK environment variable or use a different auth method"))

def buildAutoAuth (env : LoginEnvironment) (params : LoginParams) : Except Failure AuthConfig :=
  match truthy params.password with
  | some password => .ok (.password password)
  | none =>
    match buildKeyAuth env params with
    | .ok auth => .ok auth
    | .error _ =>
      match buildAgentAuth env with
      | .ok auth => .ok auth
      | .error _ =>
        .error (createAuthError "No suitable authentication method found"
          (some "Provide a password, private key, or ensure SSH agent is running"))

def buildAuthConfig (env : LoginEnvironment) (params : LoginParams) : Except Failure AuthConfig :=
  match params.auth.getD .auto with
  | .password =>
    match truthy params.password with
    | some password => .ok (.password password)
    | none => .error (createAuthError "Password required for password authentication")
  | .key => buildKeyAuth env params
  | .agent => buildAgentAuth env
  | .auto => buildAutoAuth env params

/-! ### What a connection is made with -/

/-- **What all providers have in common**: the parameters are for the alias, the policy is enforced
on them, the host key is verified, and they have no secret in them. -/
structure FromProvider (config : ConnectorConfig) (hostAlias : String) (params : LoginParams) :
    Prop where
  policyHost : params.policyHost = some hostAlias
  policyMode : params.policyMode = some .enforce
  username_ne : params.username ≠ ""
  hostKeyPolicy : params.hostKeyPolicy = some .strict ∨
    params.hostKeyPolicy = some .acceptNew ∧ config.credentialProvider = .command
  password : params.password = none
  privateKey : params.privateKey = none
  passphrase : params.passphrase = none

variable {config : ConnectorConfig} {hostAlias : String}
  {resolvedHost : Except Failure ResolvedHost}
  {reply : Except Failure CommandCredentials} {params : LoginParams}

theorem resolveAgentCredentials_ok
    (h : resolveAgentCredentials config hostAlias resolvedHost = .ok params) :
    FromProvider config hostAlias params ∧ params.auth = some .agent := by
  unfold resolveAgentCredentials at h
  cases resolvedHost with
  | error => cases h
  | ok resolved =>
    change (match truthy (resolved.username.or config.defaultUsername) with
      | none => _
      | some username => _) = _ at h
    split at h
    · cases h
    · next username husername =>
      obtain rfl := Except.ok.inj h
      exact ⟨⟨rfl, rfl, PolicyEngine.truthy_ne husername, .inl rfl, rfl, rfl, rfl⟩, rfl⟩

/-- What the provider `command` makes of a reply. -/
theorem resolveCommandCredentials_ok (hprovider : config.credentialProvider = .command)
    (h : resolveCommandCredentials config hostAlias resolvedHost reply = .ok params) :
    FromProvider config hostAlias params ∧
      ∃ result, reply = .ok result ∧ params.auth = some result.auth ∧
        params.privateKeyPath = truthy result.privateKeyPath ∧
        (result.auth = .key → params.privateKeyPath ≠ none) := by
  unfold resolveCommandCredentials at h
  split at h
  · cases h
  · cases resolvedHost with
    | error => cases h
    | ok resolved =>
      cases reply with
      | error => cases h
      | ok result =>
        change (match truthy ((result.username.or resolved.username).or config.defaultUsername) with
          | none => _
          | some username => _) = _ at h
        split at h
        · cases h
        · next username husername =>
          split at h
          · cases h
          · next hkey =>
            obtain rfl := Except.ok.inj h
            have hpolicy : some result.hostKeyPolicy = some HostKeyPolicy.strict ∨
                some result.hostKeyPolicy = some HostKeyPolicy.acceptNew ∧
                  config.credentialProvider = .command := by
              cases hcase : result.hostKeyPolicy with
              | strict => exact .inl rfl
              | acceptNew => exact .inr ⟨rfl, hprovider⟩
              | insecure => exact absurd hcase result.hostKeyPolicy_ne
            refine ⟨⟨rfl, rfl, PolicyEngine.truthy_ne husername, hpolicy, rfl, rfl, rfl⟩,
              result, rfl, rfl, rfl, ?_⟩
            exact fun hauth hnone => hkey ⟨hauth, hnone⟩

/-- **One spec for all providers.** -/
theorem resolved_spec
    (h : resolveConnectorCredentials config hostAlias resolvedHost reply = .ok params) :
    FromProvider config hostAlias params ∧
      (params.auth = some .agent ∨ ∃ result path, config.credentialProvider = .command ∧
        reply = .ok result ∧ result.privateKeyPath = some path ∧ params.auth = some .key ∧
        params.privateKeyPath = some path ∧ path ≠ "") := by
  unfold resolveConnectorCredentials at h
  split at h
  · obtain ⟨hfrom, hauth⟩ := resolveAgentCredentials_ok h
    exact ⟨hfrom, .inl hauth⟩
  · next hprovider =>
    obtain ⟨hfrom, result, hreply, hauth, hpath, hkey⟩ := resolveCommandCredentials_ok hprovider h
    refine ⟨hfrom, ?_⟩
    rcases result.auth_eq with hagent | hstrategy
    · exact .inl (hauth.trans (congrArg some hagent))
    · obtain ⟨path, hsome⟩ := Option.ne_none_iff_exists'.mp (hkey hstrategy)
      have htruthy : truthy result.privateKeyPath = some path := hpath.symm.trans hsome
      refine .inr ⟨result, path, hprovider, hreply, ?_, hauth.trans (congrArg some hstrategy),
        hsome,
        PolicyEngine.truthy_ne htruthy⟩
      exact (Option.filter_eq_some_iff.mp htruthy).1
  · cases h

/-- **How a connection of the connector logs in**: with the agent of the server, or with the key in
the file that the credential command has named, without a passphrase. -/
theorem connector_login (config : ConnectorConfig) (hostAlias : String)
    (resolvedHost : Except Failure ResolvedHost) (reply : Except Failure CommandCredentials)
    (env : LoginEnvironment) (params : LoginParams) (auth : AuthConfig)
    (hresolved : resolveConnectorCredentials config hostAlias resolvedHost reply = .ok params)
    (hauth : buildAuthConfig env params = .ok auth) :
    FromProvider config hostAlias params ∧
      ((∃ authSock, env.authSock = some authSock ∧ auth = .agent authSock) ∨
        ∃ result path privateKey, config.credentialProvider = .command ∧ reply = .ok result ∧
          result.privateKeyPath = some path ∧ env.readFile path = some privateKey ∧
          auth = .privateKey privateKey none) := by
  obtain ⟨hfrom, hstrategy⟩ := resolved_spec hresolved
  refine ⟨hfrom, ?_⟩
  unfold buildAuthConfig at hauth
  rcases hstrategy with hagent | ⟨result, path, hprovider, hreply, hnamed, hkey, hpath, hne⟩
  · rw [hagent] at hauth
    change buildAgentAuth env = .ok auth at hauth
    unfold buildAgentAuth at hauth
    split at hauth
    · next authSock hsock =>
      exact .inl ⟨authSock, (Option.filter_eq_some_iff.mp hsock).1, (Except.ok.inj hauth).symm⟩
    · cases hauth
  · rw [hkey] at hauth
    change buildKeyAuth env params = .ok auth at hauth
    unfold buildKeyAuth at hauth
    -- there is no key in the parameters, and there is a path
    rw [hfrom.privateKey, hpath, truthy_some hne] at hauth
    change loadPrivateKeyFromPath env path params.passphrase = .ok auth at hauth
    unfold loadPrivateKeyFromPath at hauth
    split at hauth
    · next privateKey hread =>
      refine .inr ⟨result, path, privateKey, hprovider, hreply, hnamed, hread, ?_⟩
      rw [← Except.ok.inj hauth, hfrom.passphrase]
    · cases hauth

/-- A machine with an agent, and one key file. -/
def sampleEnvironment : LoginEnvironment where
  authSock := some "/run/agent"
  keyDir := "/home/demo/.ssh"
  pathJoin directory name := directory ++ "/" ++ name
  canAccess _ := true
  readFile path := if path = "/keys/web" then some "KEY" else none

/-- The command has named the key file. -/
def keyReply : CommandCredentials where
  username := some "demo"
  auth := .key
  privateKeyPath := some "/keys/web"

theorem connector_login_key :
    ∃ params : LoginParams,
      buildAuthConfig sampleEnvironment params = .ok (.privateKey "KEY" none) ∧
      FromProvider { credentialProvider := .command, credentialCommand := some "credentials" } "web"
        params :=
  ⟨_, rfl, (connector_login
    { credentialProvider := .command, credentialCommand := some "credentials" }
    "web" (.ok { host := "10.0.0.1" }) (.ok keyReply) sampleEnvironment _ _ rfl rfl).1⟩

end Connector
