import McpSshTool.Http.Security
import McpSshTool.Library.Run

/-!
# The HTTP server

`server-http.ts`: the requests that arrive, the sessions that they open, and what is handed to the
transports of the local MCP server.

* `Listening` — a process that got as far as `httpServer.listen`: its configuration, and the bearer
  token that it read;
* `HttpServer` — the sessions, the requests that wait at an `await`, and what the server has done;
* `HttpEvent`, `Listening.step` — one step: a request that arrives, or one that an `await` lets go
  on.

The clock and the identifiers of a step are those of its `Moment`. The URL of a request is what the
parser made of it.
-/

open Library

namespace Http

/-! ### Configuration -/

/-- `config.http`. -/
structure HttpConfig extends HttpStartupConfig where
  port : ℤ := 3000
  enableLegacySse : Bool := false
  maxSessions : ℤ := 20
  sessionIdleTtlMs : ℤ := 900000
  trustProxy : Bool := false

/-- `config.auth`. -/
structure AuthConfig where
  mode : AuthMode := .bearer
  oauthIssuer : Option String := none
  oauthAudience : Option String := none
  oauthJwksUrl : Option String := none
  oauthResource : Option String := none
  oauthRequiredScopes : List String := ["mcp-ssh-tool.read"]

/-- What the server reads of its configuration; `remoteEnabled` is `remoteConfig.enabled`. -/
structure HttpServerConfig where
  http : HttpConfig
  auth : AuthConfig := {}
  toolProfile : ToolProfile := .full
  allowedHosts : List String := []
  hostKeyPolicy : HostKeyPolicy := .strict
  remoteEnabled : Bool := false

/-- The bearer token of the server; `none` where its file cannot be read. -/
def readBearerToken (rt : Runtime) (config : HttpServerConfig) : Option (Option String) :=
  match Ssh.truthy config.http.bearerTokenFile with
  | none => some none
  | some file => (rt.readFileSync file).map fun text => some (JsText.trim text)

/-- The check before the server listens: none with the remote control plane. -/
def validateStartup (rt : Runtime) (config : HttpServerConfig) (bearerToken : Option String) :
    Except String Unit :=
  if !config.remoteEnabled then
    validateHttpStartupConfig rt config.http.toHttpStartupConfig bearerToken {
      toolProfile := config.toolProfile
      allowedHosts := config.allowedHosts
      hostKeyPolicy := some config.hostKeyPolicy
      authMode := some config.auth.mode
      oauthConfigured := some ((Ssh.truthy config.auth.oauthIssuer).isSome &&
        (Ssh.truthy config.auth.oauthJwksUrl).isSome) }
  else .ok ()

/-- **A server that listens.** -/
structure Listening (rt : Runtime) where
  config : HttpServerConfig
  bearerToken : Option String
  bearerToken_eq : readBearerToken rt config = some bearerToken
  started : validateStartup rt config bearerToken = .ok ()

/-! ### Requests and sessions -/

/-- A request, as the server reads it. -/
structure HttpRequest where
  method : String
  /-- `new URL(req.url, "http://localhost").pathname`; `none` where the parser throws. -/
  pathname : Option String
  /-- `searchParams.get("sessionId")` of the URL on the request's own host; `none` where the parser
  throws. -/
  sessionIdParameter : Option (Option String) := some none
  origin : Option String := none
  authorization : Option String := none
  mcpSessionId : Option String := none
  host : Option String := none
  forwardedProto : Option String := none
deriving DecidableEq

inductive Transport where
  | streamable | sse
deriving DecidableEq, Repr

structure HttpSession where
  transport : Transport
  lastSeenAt : ℤ
deriving DecidableEq

/-- A request at an `await`. -/
inductive Pending where
  /-- The access token is being verified. -/
  | verifying (request : HttpRequest)
  /-- The body of a `POST /mcp` is being read. -/
  | reading (request : HttpRequest)
  /-- A new transport is being connected to a new local server. -/
  | connecting (request : HttpRequest)
  /-- A new transport has the request and has not called `onsessioninitialized`. -/
  | initializing
deriving DecidableEq

/-- What the server does with a request. -/
inductive Output where
  /-- It answers with a status, and the `error` of the answer. -/
  | response (id : ℕ) (status : ℕ) (error : Option String)
  /-- It opens a stream of events for messages of the local server. -/
  | opened (id : ℕ) (request : HttpRequest)
  /-- It hands the request to a transport of the local server. -/
  | delivered (id : ℕ) (request : HttpRequest) (transport : Transport)
deriving DecidableEq

/-- **The state of the server.** -/
structure HttpServer where
  sessions : OrderedMap String HttpSession := OrderedMap.empty
  pending : OrderedMap ℕ Pending := OrderedMap.empty
  outputs : List Output := []

/-- The clock, and the identifier that `randomUUID` gives, at a step. -/
structure Moment where
  now : ℤ
  uuid : String

/-- How the reading of a body ends. -/
inductive BodyOutcome where
  | parsed (body : Option Value)
  | tooLarge
  | malformed

namespace HttpServer

/-- `sendJson` and its like. -/
def respond (s : HttpServer) (id status : ℕ) (error : Option String := none) : HttpServer :=
  { s with outputs := s.outputs ++ [.response id status error] }

/-- The transport's `handleRequest` or `handlePostMessage`. -/
def deliver (s : HttpServer) (id : ℕ) (request : HttpRequest) (transport : Transport) :
    HttpServer :=
  { s with outputs := s.outputs ++ [.delivered id request transport] }

/-- The request goes to an `await`. -/
def await (s : HttpServer) (id : ℕ) (p : Pending) : HttpServer :=
  { s with pending := s.pending.set id p }

/-- The request leaves its `await`. -/
def resume (s : HttpServer) (id : ℕ) : HttpServer := { s with pending := s.pending.delete id }

end HttpServer

namespace Listening

variable {rt : Runtime} (server : Listening rt)

/-! ### Sessions -/

def isHttpSessionExpired (session : HttpSession) (now : ℤ) : Bool :=
  now - session.lastSeenAt > server.config.http.sessionIdleTtlMs

def cleanupExpiredHttpSessions (now : ℤ) (s : HttpServer) : HttpServer :=
  { s with sessions := s.sessions.filter fun _ session => !server.isHttpSessionExpired session now }

def getHttpSession (sessionId : Option String) (now : ℤ) (s : HttpServer) :
    HttpServer × Option HttpSession :=
  match Ssh.truthy sessionId with
  | none => (s, none)
  | some sessionId =>
    match s.sessions.get? sessionId with
    | none => (s, none)
    | some session =>
      if server.isHttpSessionExpired session now then
        ({ s with sessions := s.sessions.delete sessionId }, none)
      else
        let session := { session with lastSeenAt := now }
        ({ s with sessions := s.sessions.set sessionId session }, some session)

/-- `canOpenHttpSession`, and the answer where it cannot. -/
def canOpenHttpSession (id : ℕ) (now : ℤ) (s : HttpServer) : HttpServer × Bool :=
  let s := server.cleanupExpiredHttpSessions now s
  if (s.sessions.size : ℤ) < server.config.http.maxSessions then (s, true)
  else (s.respond id 503 (some "HTTP MCP session limit reached"), false)

/-! ### Routes -/

/-- `handleStreamableRequest`, up to where it waits for the transport. -/
def handleStreamableRequest (id : ℕ) (request : HttpRequest) (parsedBody : Option Value)
    (m : Moment) (s : HttpServer) : HttpServer :=
  let s := server.cleanupExpiredHttpSessions m.now s
  let found := server.getHttpSession request.mcpSessionId m.now s
  match found.2 with
  | none =>
    if request.method = "POST" ∧ (parsedBody.map rt.isInitializeRequest).getD false then
      let opened := server.canOpenHttpSession id m.now found.1
      if opened.2 then opened.1.await id (.connecting request) else opened.1
    else found.1.respond id 400
      (some "Bad Request: initialize with POST /mcp or provide a valid MCP-Session-Id")
  | some session =>
    if session.transport ≠ .streamable then
      found.1.respond id 400 (some "Session exists but uses a different transport protocol")
    else found.1.deliver id request .streamable

def handleLegacySseConnection (id : ℕ) (request : HttpRequest) (m : Moment) (s : HttpServer) :
    HttpServer :=
  let opened := server.canOpenHttpSession id m.now s
  if opened.2 then
    { opened.1 with
      sessions := opened.1.sessions.set m.uuid ⟨.sse, m.now⟩
      outputs := opened.1.outputs ++ [.opened id request] }
  else opened.1

def handleLegacyMessage (id : ℕ) (request : HttpRequest) (m : Moment) (s : HttpServer) :
    HttpServer :=
  match request.sessionIdParameter with
  | none => s.respond id 500 (some "Internal server error")
  | some sessionId =>
    if (Ssh.truthy sessionId).isNone then
      s.respond id 400 (some "Missing sessionId query parameter")
    else
      let found := server.getHttpSession sessionId m.now s
      if found.2.map HttpSession.transport = some .sse then found.1.deliver id request .sse
      else found.1.respond id 404 (some "Legacy SSE session not found")

/-- The routes behind the guard. -/
def route (id : ℕ) (request : HttpRequest) (pathname : String) (m : Moment) (s : HttpServer) :
    HttpServer :=
  if pathname = "/mcp" then
    if request.method ≠ "GET" ∧ request.method ≠ "POST" ∧ request.method ≠ "DELETE" then
      s.respond id 405 (some "Method not allowed")
    else if request.method = "POST" then s.await id (.reading request)
    else server.handleStreamableRequest id request none m s
  else if server.config.http.enableLegacySse ∧ pathname = "/sse" then
    if request.method ≠ "GET" then s.respond id 405 (some "Method not allowed")
    else server.handleLegacySseConnection id request m s
  else if server.config.http.enableLegacySse ∧ pathname = "/messages" then
    if request.method ≠ "POST" then s.respond id 405 (some "Method not allowed")
    else server.handleLegacyMessage id request m s
  else s.respond id 404 (some "Not found")

/-! ### The guard -/

/-- `buildPublicMcpUrl`; `none` where the parser throws. -/
def buildPublicMcpUrl (request : HttpRequest) : Option String :=
  match Ssh.truthy server.config.http.publicUrl with
  | some publicUrl => (rt.url publicUrl).map fun url =>
    if url.pathname = "" ∨ url.pathname = "/" then rt.withPathname publicUrl "/mcp"
    else if !"/mcp".toList.isSuffixOf url.pathname.toList then
      let stripped := if url.pathname.toList.getLast? = some '/' then
        String.ofList url.pathname.toList.dropLast else url.pathname
      rt.withPathname publicUrl (stripped ++ "/mcp")
    else rt.withPathname publicUrl url.pathname
  | none =>
    let protocol :=
      if server.config.http.trustProxy ∧
          (request.forwardedProto = some "http" ∨ request.forwardedProto = some "https") then
        request.forwardedProto.getD ""
      else if isLoopbackHost server.config.http.host then "http"
      else "https"
    some (protocol ++ "://" ++
      request.host.getD ("localhost:" ++ toString server.config.http.port) ++ "/mcp")

/-- The configuration of the verification of access tokens; `none` where a URL does not parse. -/
def verificationConfig (request : HttpRequest) : Option OAuthVerificationConfig :=
  let auth := server.config.auth
  let audience := (auth.oauthAudience.or auth.oauthResource).or (server.buildPublicMcpUrl request)
  audience.map fun audience => {
    issuer := Ssh.truthy auth.oauthIssuer
    audience := some audience
    jwksUrl := Ssh.truthy auth.oauthJwksUrl
    requiredScopes := auth.oauthRequiredScopes }

/-- `rejectIfUnauthorized`, and the routes where it lets the request pass. An access token is
verified at an `await`. -/
def rejectIfUnauthorized (id : ℕ) (request : HttpRequest) (pathname : String) (m : Moment)
    (s : HttpServer) : HttpServer :=
  if !isOriginAllowed request.origin server.config.http.allowedOrigins then
    s.respond id 403 (some "Origin is not allowed")
  else if server.config.auth.mode = .oauth then
    if (server.verificationConfig request).isNone then
      s.respond id 500 (some "Internal server error")
    else s.await id (.verifying request)
  else
    match Ssh.truthy server.bearerToken with
    | none => server.route id request pathname m s
    | some bearerToken =>
      if !isBearerAuthorizationValid rt request.authorization bearerToken then
        s.respond id 401 (some "Missing or invalid bearer token")
      else server.route id request pathname m s

/-- The rest of `rejectIfUnauthorized`, and the routes, when the token has been verified. -/
def verified (id : ℕ) (request : HttpRequest) (m : Moment) (s : HttpServer) : HttpServer :=
  match server.verificationConfig request, request.pathname with
  | some verificationConfig, some pathname =>
    if !isOAuthAuthorizationValid rt m.now request.authorization verificationConfig then
      -- the challenge of the answer names the public URL of the server
      if (server.buildPublicMcpUrl request).isNone then
        s.respond id 500 (some "Internal server error")
      else s.respond id 401 (some "Missing or invalid OAuth bearer token")
    else server.route id request pathname m s
  | _, _ => s

/-! ### The server -/

/-- Whether `RemoteControlPlane.handleHttp` handles a request. -/
def handlesHttp (pathname method : String) : Bool :=
  (pathname = "/.well-known/oauth-protected-resource" && method = "GET") ||
  (pathname = "/.well-known/oauth-authorization-server" && method = "GET") ||
  (pathname = "/oauth/register" && method = "POST") ||
  (pathname = "/oauth/authorize" && method = "GET") ||
  (pathname = "/oauth/callback/github" && method = "GET") ||
  (pathname = "/oauth/token" && method = "POST") ||
  (pathname = "/oauth/jwks.json" && method = "GET") ||
  (pathname = "/readyz" && method = "GET") ||
  pathname = "/mcp" ||
  "/api/agents".toList.isPrefixOf pathname.toList || pathname = "/api/audit"

/-- The handler of `createServer`, up to the first `await` behind which it reads the state. What the
control plane handles is its own matter. -/
def handleRequest (id : ℕ) (request : HttpRequest) (m : Moment) (s : HttpServer) : HttpServer :=
  match request.pathname with
  | none => s.respond id 500 (some "Internal server error")
  | some pathname =>
    if server.config.remoteEnabled ∧ handlesHttp pathname request.method then s
    else if pathname = "/.well-known/oauth-protected-resource" ∧ request.method = "GET" then
      -- the page names the public URL of the server, unless a resource is configured
      if (server.config.auth.oauthResource.or (server.buildPublicMcpUrl request)).isNone then
        s.respond id 500 (some "Internal server error")
      else s.respond id 200
    else if pathname = "/healthz" ∧ request.method = "GET" then s.respond id 200
    else if pathname = "/mcp" ∧ request.method = "OPTIONS" then
      if !isOriginAllowed request.origin server.config.http.allowedOrigins then
        s.respond id 403 (some "Origin is not allowed")
      else s.respond id 204
    else server.rejectIfUnauthorized id request pathname m s

/-- The body of a `POST /mcp` has been read, or not. -/
def bodyRead (id : ℕ) (request : HttpRequest) (body : BodyOutcome) (m : Moment) (s : HttpServer) :
    HttpServer :=
  match body with
  | .parsed body => server.handleStreamableRequest id request body m s
  | .tooLarge => s.respond id 413 (some "Request body is too large")
  | .malformed => s.respond id 500 (some "Internal server error")

end Listening

/-- What happens to the server. -/
inductive HttpEvent where
  | request (id : ℕ) (request : HttpRequest) (m : Moment)
  | verified (id : ℕ) (m : Moment)
  | bodyRead (id : ℕ) (body : BodyOutcome) (m : Moment)
  /-- `server.connect(transport)` is done. -/
  | connected (id : ℕ)
  /-- A transport calls `onsessioninitialized`. -/
  | sessionInitialized (id : ℕ) (m : Moment)
  /-- A transport calls `onclose`. -/
  | transportClosed (sessionId : String)
  /-- The timer of `httpSessionCleanupInterval`. -/
  | cleanup (m : Moment)

/-- **One step of the server.** -/
def Listening.step {rt : Runtime} (server : Listening rt) (s : HttpServer) : HttpEvent → HttpServer
  | .request id request m => server.handleRequest id request m s
  | .verified id m =>
    match s.pending.get? id with
    | some (.verifying request) => server.verified id request m (s.resume id)
    | _ => s
  | .bodyRead id body m =>
    match s.pending.get? id with
    | some (.reading request) => server.bodyRead id request body m (s.resume id)
    | _ => s
  | .connected id =>
    match s.pending.get? id with
    | some (.connecting request) => (s.deliver id request .streamable).await id .initializing
    | _ => s
  | .sessionInitialized id m =>
    match s.pending.get? id with
    | some .initializing =>
      { s.resume id with sessions := s.sessions.set m.uuid ⟨.streamable, m.now⟩ }
    | _ => s
  | .transportClosed sessionId => { s with sessions := s.sessions.delete sessionId }
  | .cleanup m => server.cleanupExpiredHttpSessions m.now s

end Http
