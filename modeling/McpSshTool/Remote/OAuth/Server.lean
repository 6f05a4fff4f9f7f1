import McpSshTool.Remote.ControlPlane.State
import McpSshTool.Remote.OAuth.Scopes

/-!
# The OAuth endpoints

The part of `control-plane.ts` that turns a login into an access token, with the tables `users`,
`oauth_clients` and `oauth_authorization_codes` of `store.ts`: `handleRegister`, `handleAuthorize`,
`handleGitHubCallback` and `handleToken`.

A step is what a handler does between two points where it waits: the callback waits for GitHub, the
token request waits for its signature. What waits is a list, and an event names the position of the
handler that goes on, so a list of events is an interleaving of any number of requests.

* `OAuthServer` — tables, memory, and waiting handlers;
* `UserRow.read`, `OAuthAuthorizationCode.read` — what is read of a row: its columns give back the
  texts of requests and of GitHub up to their first NUL;
* `OAuthServer.step` — one step;
* ghost data: `authorized` and `logins` record which authorize requests were validated and who
  logged in for them, and `request` numbers the authorize request that a transaction or a code comes
  from. No step looks at them.

Texts of pages and redirects are left out, and so are the row ids, which nothing reads.
-/

open Library

namespace Remote

/-! ### Data -/

/-- What `new URL(s)` gives. -/
structure Url where
  protocol : String
  hostname : String
deriving DecidableEq, Repr

/-- The configuration entries that the OAuth endpoints read. -/
structure OAuthConfig where
  publicBaseUrl : String
  mcpResourceUrl : String
  githubClientId : String
  githubClientSecret : String
  allowAllUsers : Bool
  allowedGitHubIds : List String
  allowedGitHubLogins : List String
  authCodeTtlSeconds : ℤ
  accessTokenTtlSeconds : ℤ
  maxOAuthClients : ℕ
deriving DecidableEq, Repr

structure GitHubUser where
  id : String
  login : String
deriving DecidableEq, Repr

/-- What the endpoints run with. -/
structure OAuthDeployment where
  platform : Platform
  config : OAuthConfig
  /-- `new URL(s)`; `none` where it throws. -/
  parseUrl : String → Option Url
  /-- `testGitHubUser()`, which reads the environment. -/
  testGitHubUser : Option GitHubUser

/-- A row of `users`. -/
structure UserRow where
  id : String
  githubId : String
  githubLogin : String
deriving DecidableEq, Repr

/-- The row, as `getUserByGitHubId` reads it. -/
def UserRow.read (row : UserRow) : UserRow where
  id := columnText row.id
  githubId := columnText row.githubId
  githubLogin := columnText row.githubLogin

/-- `OAuthClient`, in the fields that differ between clients. -/
structure OAuthClient where
  clientId : String
  clientName : String
  redirectUris : List String
  createdAt : String
deriving DecidableEq, Repr

structure PendingAuthorize where
  /-- Ghost: the number of the authorize request. -/
  request : ℕ
  clientId : String
  redirectUri : String
  codeChallenge : String
  resource : String
  scope : String
  state : String
  expiresAt : ℤ
deriving DecidableEq, Repr

structure OAuthAuthorizationCode where
  /-- Ghost: the number of the authorize request. -/
  request : ℕ
  codeHash : String
  clientId : String
  userId : String
  redirectUri : String
  codeChallenge : String
  resource : String
  scope : String
  expiresAt : String
  usedAt : Option String
  createdAt : String
deriving DecidableEq, Repr

/-- The row, as `getAuthorizationCodeByHash` reads it. The hash and the times are the server's own
texts, without NULs. -/
def OAuthAuthorizationCode.read (row : OAuthAuthorizationCode) : OAuthAuthorizationCode :=
  { row with
    clientId := columnText row.clientId
    userId := columnText row.userId
    redirectUri := columnText row.redirectUri
    codeChallenge := columnText row.codeChallenge
    resource := columnText row.resource
    scope := columnText row.scope }

@[simp] theorem OAuthAuthorizationCode.read_codeHash (row : OAuthAuthorizationCode) :
    row.read.codeHash = row.codeHash := rfl

@[simp] theorem OAuthAuthorizationCode.read_request (row : OAuthAuthorizationCode) :
    row.read.request = row.request := rfl

/-- The claims of an access token. -/
structure AccessToken where
  jti : String
  sub : String
  githubId : String
  githubLogin : String
  scope : String
  iss : String
  aud : String
  iat : ℤ
  exp : ℤ
deriving DecidableEq, Repr

/-- An access token with the token request it answers. -/
structure Grant where
  /-- `client_id`, `redirect_uri`, `code` and `code_verifier` of the token request. -/
  clientId : String
  redirectUri : String
  code : String
  verifier : String
  /-- When the expiry of the code was checked. -/
  checkedAt : ℤ
  /-- The row of the code, as the request read it. -/
  record : OAuthAuthorizationCode
  token : AccessToken
deriving DecidableEq, Repr

/-- The OAuth side of a `RemoteControlPlane`. -/
structure OAuthServer where
  /-- Whether the database is open. -/
  isOpen : Bool
  jwtKeyPair : Option PemKeyPair
  /-- The table `users`, by `github_id`. -/
  users : OrderedMap String UserRow
  /-- The table `oauth_clients`, by `client_id`. -/
  clients : OrderedMap String OAuthClient
  /-- The table `oauth_authorization_codes`, by `code_hash`. -/
  codes : OrderedMap String OAuthAuthorizationCode
  auditEvents : List AuditEvent
  authorizeTransactions : OrderedMap String PendingAuthorize
  /-- Callbacks that wait for `fetchGitHubUser`. -/
  callbacks : List PendingAuthorize
  /-- Token requests that wait for the signature of their token. -/
  signing : List Grant
  /-- The tokens that were sent, oldest first. -/
  issued : List Grant
  /-- Ghost: the authorize requests that passed `validateAuthorizeParams`, oldest first. -/
  authorized : List PendingAuthorize
  /-- Ghost: who logged in for which authorize request, oldest first. -/
  logins : List (ℕ × GitHubUser)

/-! ### Checks -/

def isSafeRedirectUri (d : OAuthDeployment) (uri : String) : Bool :=
  match d.parseUrl uri with
  | none => false
  | some parsed =>
    parsed.protocol = "https:" ||
      (parsed.protocol = "http:" && ["localhost", "127.0.0.1", "::1"].contains parsed.hostname)

def pkceChallenge (d : OAuthDeployment) (verifier : String) : String := d.platform.sha256 verifier

def isGitHubUserAllowed (d : OAuthDeployment) (user : GitHubUser) : Bool :=
  d.config.allowAllUsers || d.config.allowedGitHubIds.contains user.id ||
    d.config.allowedGitHubLogins.contains user.login

def asStringArray : Value → List String
  | .arr xs => xs.filterMap fun x => match x with
    | .str s => some s
    | _ => none
  | _ => []

/-- `asString` of a member, with the default that follows it. -/
def stringOr (default : String) : Value → String
  | .str s => s
  | _ => default

/-- The prefix of the ids of users. -/
def githubTag : String := "github:"

namespace OAuthServer

/-- A process that has just started on a database without rows. -/
def start : OAuthServer where
  isOpen := true
  jwtKeyPair := none
  users := .empty
  clients := .empty
  codes := .empty
  auditEvents := []
  authorizeTransactions := .empty
  callbacks := []
  signing := []
  issued := []
  authorized := []
  logins := []

variable (d : OAuthDeployment) (m : Moment)

/-! ### Writes -/

def nowIso : String := d.platform.toISOString m.later

/-- `this.audit(..)`. -/
def audit (userId : Option String) (eventType : String) (metadata : Fields) (s : OAuthServer) :
    OAuthServer :=
  { s with
    auditEvents := s.auditEvents ++ [{
      userId := userId
      agentId := none
      actionId := none
      eventType := eventType
      severity := .info
      metadata := (Value.obj metadata).transport
      createdAt := nowIso d m }] }

/-- `store.upsertUser`: ids and logins of users are unique, too. -/
def upsertUser (internalId : String) (user : GitHubUser) (s : OAuthServer) :
    Except Thrown OAuthServer :=
  let others := s.users.entries.filter fun e => e.1 ≠ user.id
  if others.any fun e => e.2.githubLogin = user.login then .error .sqlite
  else
    match s.users.get? user.id with
    | some row =>
      .ok { s with users := s.users.set user.id { row with githubLogin := user.login } }
    | none =>
      if others.any fun e => e.2.id = internalId then .error .sqlite
      else .ok { s with users := s.users.set user.id ⟨internalId, user.id, user.login⟩ }

/-- The id of a user who logs in: the one in the table, or one made of the GitHub id. -/
def internalId (user : GitHubUser) (s : OAuthServer) : String :=
  match s.users.get? user.id with
  | some existing => existing.read.id
  | none => githubTag ++ user.id

/-- `upsertGitHubUser`: the id of the user, and the state. -/
def upsertGitHubUser (user : GitHubUser) (s : OAuthServer) : Except Thrown (String × OAuthServer) :=
  if !isGitHubUserAllowed d user then
    .error (.safe .forbidden "GitHub user is not allowed" 400)
  else if !s.isOpen then .error .sqlite
  else
    let userId := s.internalId user
    (s.upsertUser userId user).map fun s =>
      (userId, s.audit d m (some userId) "user_login"
        [("github_id", .str user.id), ("github_login", .str user.login)])

/-- The record that `issueAuthorizationCode` inserts. -/
def codeRecord (pending : PendingAuthorize) (userId : String) : OAuthAuthorizationCode where
  request := pending.request
  codeHash := hashSecret d.platform m.token
  clientId := pending.clientId
  userId := userId
  redirectUri := pending.redirectUri
  codeChallenge := pending.codeChallenge
  resource := pending.resource
  scope := pending.scope
  expiresAt := d.platform.toISOString (m.later + d.config.authCodeTtlSeconds * 1000)
  usedAt := none
  createdAt := nowIso d m

/-- `issueAuthorizationCode`; the hash of a code is unique. -/
def issueAuthorizationCode (pending : PendingAuthorize) (userId : String) (s : OAuthServer) :
    Except Thrown OAuthServer :=
  let record := codeRecord d m pending userId
  if !s.isOpen || s.codes.contains record.codeHash then .error .sqlite
  else .ok { s with codes := s.codes.set record.codeHash record }

/-- A login for an authorize request, and the code for it. The user is stored even if the code is
not. -/
def logIn (pending : PendingAuthorize) (user : GitHubUser) (s : OAuthServer) : OAuthServer :=
  match s.upsertGitHubUser d m user with
  | .error _ => s
  | .ok (userId, s) =>
    let s := { s with logins := s.logins ++ [(pending.request, user)] }
    match s.issueAuthorizationCode d m pending userId with
    | .error _ => s
    | .ok s => s

/-! ### Registration -/

def handleRegister (body : Fields) (s : OAuthServer) : Except Thrown OAuthServer :=
  let redirectUris := asStringArray ((Value.obj body).member "redirect_uris")
  if redirectUris.length = 0 || redirectUris.any fun uri => !isSafeRedirectUri d uri then
    .error (.safe .invalidRedirectUri
      "redirect_uris must contain HTTPS URLs or localhost HTTP URLs" 400)
  else if !s.isOpen then .error .sqlite
  else if s.clients.size ≥ d.config.maxOAuthClients then
    .error (.safe .forbidden "OAuth client registration limit reached" 429)
  else
    let client : OAuthClient := {
      clientId := freshId m "cli"
      clientName := stringOr "ChatGPT Connector" ((Value.obj body).member "client_name")
      redirectUris := redirectUris
      createdAt := nowIso d m }
    if s.clients.contains client.clientId then .error .sqlite
    else
      .ok ({ s with clients := s.clients.set client.clientId client }.audit d m none
        "oauth_client_registered"
        [("client_id", .str client.clientId),
          ("redirect_uri_count", .num (.fin redirectUris.length))])

/-! ### Authorization -/

def validateAuthorizeParams (clientId redirectUri responseType codeChallenge codeChallengeMethod
    resource scope : String) (s : OAuthServer) : Except Thrown Unit :=
  if !s.isOpen then .error .sqlite
  else
    match s.clients.get? clientId with
    | none => .error (.safe .invalidClient "Unknown client_id" 400)
    | some client =>
      if !client.redirectUris.contains redirectUri || !isSafeRedirectUri d redirectUri then
        .error (.safe .invalidRedirectUri "redirect_uri is not registered" 400)
      else if responseType ≠ "code" then
        .error (.safe .invalidClient "response_type must be code" 400)
      else if codeChallenge = "" || codeChallengeMethod ≠ "S256" then
        .error (.safe .pkceValidationFailed "PKCE S256 is required" 400)
      else if resource ≠ d.config.mcpResourceUrl then
        .error (.safe .invalidToken "resource must match MCP resource URL" 400)
      else (scopeList scope).map fun _ => ()

/-- The pending authorization that `handleAuthorize` makes of its query. -/
def pendingOf (query : String → Option String) (s : OAuthServer) : PendingAuthorize where
  request := s.authorized.length
  clientId := (query "client_id").getD ""
  redirectUri := (query "redirect_uri").getD ""
  codeChallenge := (query "code_challenge").getD ""
  resource := (query "resource").getD d.config.mcpResourceUrl
  scope := (query "scope").getD "hosts:read agents:read status:read logs:read"
  state := (query "state").getD ""
  expiresAt := m.now + d.config.authCodeTtlSeconds * 1000

def handleAuthorize (query : String → Option String) (s : OAuthServer) : OAuthServer :=
  let pending := pendingOf d m query s
  match s.validateAuthorizeParams d pending.clientId pending.redirectUri
      ((query "response_type").getD "") pending.codeChallenge
      ((query "code_challenge_method").getD "") pending.resource pending.scope with
  | .error _ => s
  | .ok () =>
    let s := { s with authorized := s.authorized ++ [pending] }
    match d.testGitHubUser with
    | some user => s.logIn d m pending user
    | none =>
      -- `GitHub OAuth is not configured`
      if d.config.githubClientId = "" || d.config.githubClientSecret = "" then s
      else { s with
        authorizeTransactions := s.authorizeTransactions.set (freshId m "code") pending }

/-- `handleGitHubCallback`, up to `fetchGitHubUser`. -/
def handleGitHubCallback (query : String → Option String) (s : OAuthServer) : OAuthServer :=
  let code := (query "code").getD ""
  let state := (query "state").getD ""
  let transaction := s.authorizeTransactions.get? state
  let s := { s with authorizeTransactions := s.authorizeTransactions.delete state }
  match transaction with
  | none => s
  | some pending =>
    if code = "" || pending.expiresAt < m.now then s
    else { s with callbacks := s.callbacks ++ [pending] }

/-- The rest of `handleGitHubCallback`, for the callback that waits at a position; `none` is a user
that could not be fetched. -/
def finishCallback (i : ℕ) (user : Option GitHubUser) (s : OAuthServer) : OAuthServer :=
  match s.callbacks[i]? with
  | none => s
  | some pending =>
    let s := { s with callbacks := s.callbacks.eraseIdx i }
    match user with
    | none => s
    | some user => s.logIn d m pending user

/-! ### Tokens -/

def userFromId (userId : String) (s : OAuthServer) : Except Thrown UserRow :=
  let user := if githubTag.toList.isPrefixOf userId.toList then
      s.users.get? (String.ofList (userId.toList.drop githubTag.toList.length))
    else none
  match user with
  | some user => .ok user.read
  | none => .error (.safe .unauthorized "User no longer exists" 401)

/-- `issueAccessToken`, up to the signature. -/
def accessToken (user : UserRow) (scopes : List RemoteScope) : AccessToken where
  jti := freshId m "tok"
  sub := user.id
  githubId := user.githubId
  githubLogin := user.githubLogin
  scope := joinScopes scopes
  iss := d.config.publicBaseUrl
  aud := d.config.mcpResourceUrl
  iat := m.later / 1000
  exp := m.later / 1000 + d.config.accessTokenTtlSeconds

def markAuthorizationCodeUsed (codeHash usedAt : String) (s : OAuthServer) :
    Except Thrown OAuthServer :=
  match s.codes.get? codeHash with
  | none => .error .sqlite
  | some row =>
    if row.usedAt.isSome then .error .sqlite
    else .ok { s with codes := s.codes.set codeHash { row with usedAt := some usedAt } }

/-- The checks of `handleToken`, in their order: the record of the code that the request redeems,
the user and the scopes. -/
def redeemable (body : String → Option String) (s : OAuthServer) :
    Except Thrown (OAuthAuthorizationCode × UserRow × List RemoteScope) :=
  let clientId := (body "client_id").getD ""
  let verifier := (body "code_verifier").getD ""
  if body "grant_type" ≠ some "authorization_code" then
    .error (.safe .invalidClient "grant_type must be authorization_code" 400)
  else if !s.isOpen then .error .sqlite
  else if !s.clients.contains clientId then
    .error (.safe .invalidClient "Unknown client_id" 400)
  else
    match s.codes.get? (hashSecret d.platform ((body "code").getD "")) with
    | none => .error (.safe .invalidToken "Invalid authorization code" 400)
    | some row =>
      let record := row.read
      if record.clientId ≠ clientId || record.redirectUri ≠ (body "redirect_uri").getD "" then
        .error (.safe .invalidToken "Invalid authorization code" 400)
      else if (optionalText record.usedAt).isSome
          || d.platform.getTime record.expiresAt < m.now then
        .error (.safe .invalidToken "Authorization code is expired or already used" 400)
      else if verifier = "" || pkceChallenge d verifier ≠ record.codeChallenge then
        .error (.safe .pkceValidationFailed "Invalid PKCE code_verifier" 400)
      else if s.jwtKeyPair.isNone then
        .error .typeError
      else do
        let user ← s.userFromId record.userId
        let scopes ← scopeList record.scope
        return (record, user, scopes)

/-- The token that a request gets for a code, with what the request has presented. -/
def newGrant (body : String → Option String) (record : OAuthAuthorizationCode) (user : UserRow)
    (scopes : List RemoteScope) : Grant where
  clientId := (body "client_id").getD ""
  redirectUri := (body "redirect_uri").getD ""
  code := (body "code").getD ""
  verifier := (body "code_verifier").getD ""
  checkedAt := m.now
  record := record
  token := accessToken d m user scopes

/-- `handleToken`, up to the signature of the token. -/
def handleToken (body : String → Option String) (s : OAuthServer) : OAuthServer :=
  match s.redeemable d m body with
  | .error _ => s
  | .ok (record, user, scopes) =>
    match s.markAuthorizationCodeUsed record.codeHash (nowIso d m) with
    | .error _ => s
    | .ok s =>
      { s with signing := s.signing ++ [newGrant d m body record user scopes] }

/-- The rest of `handleToken`, for the request that waits at a position: the token is sent, if it
could be signed. -/
def finishToken (i : ℕ) (isSigned : Bool) (s : OAuthServer) : OAuthServer :=
  match s.signing[i]? with
  | none => s
  | some grant =>
    { s with
      signing := s.signing.eraseIdx i
      issued := if isSigned then s.issued ++ [grant] else s.issued }

/-! ### Steps -/

def cleanupEphemeralState (now : ℤ) (s : OAuthServer) : OAuthServer :=
  { s with
    authorizeTransactions := s.authorizeTransactions.filter fun _ pending => now <
      pending.expiresAt }

/-- `close()`. -/
def shutdown (s : OAuthServer) : OAuthServer :=
  { s with authorizeTransactions := .empty, isOpen := false }

/-- Another process on the same database. -/
def restart (s : OAuthServer) : OAuthServer :=
  { s with
    isOpen := true
    jwtKeyPair := none
    authorizeTransactions := .empty
    callbacks := []
    signing := [] }

end OAuthServer

/-- What can happen to the OAuth endpoints. -/
inductive OAuthEvent where
  | keyPairLoaded (keyPair : PemKeyPair)
  | register (body : Fields)
  | authorize (query : String → Option String)
  | callback (query : String → Option String)
  | gitHubUser (i : ℕ) (user : Option GitHubUser)
  | token (body : String → Option String)
  | signed (i : ℕ) (isSigned : Bool)
  | cleanup
  | shutdown
  | restart

/-- An event with what its step takes from the clock and the random source. -/
structure OAuthStep where
  moment : Moment
  event : OAuthEvent

namespace OAuthServer

/-- One step of the OAuth endpoints. A request that throws leaves what it has done so far. -/
def step (d : OAuthDeployment) (s : OAuthServer) (e : OAuthStep) : OAuthServer :=
  let m := e.moment
  match e.event with
  | .keyPairLoaded keyPair => { s with jwtKeyPair := some keyPair }
  | .register body =>
    match s.handleRegister d m body with
    | .ok s => s
    | .error _ => s
  | .authorize query => s.handleAuthorize d m query
  | .callback query => s.handleGitHubCallback m query
  | .gitHubUser i user => s.finishCallback d m i user
  | .token body => s.handleToken d m body
  | .signed i isSigned => s.finishToken i isSigned
  | .cleanup => s.cleanupEphemeralState m.now
  | .shutdown => s.shutdown
  | .restart => s.restart

end OAuthServer

end Remote
