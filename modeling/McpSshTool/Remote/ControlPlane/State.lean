import McpSshTool.Library.ExpiringMap
import McpSshTool.Remote.Policy
import McpSshTool.Remote.Store

/-!
# The state of the control plane

The memory of a `RemoteControlPlane` process (`control-plane.ts`) and of its websocket connections
(`websocket.ts`), and the small operations that the request handlers are made of: an audit row, a
message on a connection, the closing of a connection, the pruning of nonces.

A step of the process is what it does between two points where it waits. Inside a step the code
reads the clock more than once and draws random values; `Moment` holds what one step gets.

What the model leaves out: the OAuth tables and transactions, and the response bodies of requests
that only read.
-/

open Library

namespace Remote

/-- What a control plane runs with: its platform, its configuration and its signing key. -/
structure Deployment where
  platform : Platform
  config : RemoteConfig
  controlPlaneKeyPair : PemKeyPair

/-- What one step takes from the clock and the random source. -/
structure Moment where
  /-- The first reading of the clock. -/
  now : ℤ
  /-- The readings after it. -/
  later : ℤ
  /-- `randomUUID()`, without dashes. -/
  uuid : String
  /-- `randomToken(..)`. -/
  token : String
deriving DecidableEq, Repr

/-- `id(prefix)`. -/
def freshId (m : Moment) (kind : String) : String := kind ++ "_" ++ m.uuid

/-! ### Replay windows -/

/-- `AGENT_NONCE_TTL_MS`. -/
def agentNonceTtlMs : ℤ := 300000

/-- `MAX_AGENT_CONNECTION_NONCES`. -/
def maxAgentConnectionNonces : ℕ := 4096

/-- Nonces with the time until which they are remembered. -/
abbrev NonceWindow := ExpiringMap String ℤ

def pruneNonceWindow (nonces : NonceWindow) (now : ℤ) : NonceWindow := ExpiringMap.prune nonces now

def rememberNonce (nonces : NonceWindow) (nonce : String) (now : ℤ) : NonceWindow :=
  ExpiringMap.remember nonces now nonce (now + agentNonceTtlMs) maxAgentConnectionNonces
    fun _ => false

/-! ### Connections and messages -/

abbrev ConnectionId := ℕ

/-- The closure that an accepted hello registers with `onClose`. -/
structure CloseHandler where
  agentId : String
  userId : String
deriving DecidableEq, Repr

/-- `MinimalWebSocketConnection`, above its frames. -/
structure Connection where
  closed : Bool
  closeNotified : Bool
  closeHandlers : List CloseHandler
deriving DecidableEq, Repr

/-- `AgentConnection`: the connection an agent is registered on, with the record that its hello
found. -/
structure AgentConnection where
  agent : RemoteAgentRecord
  connection : ConnectionId
  seenNonces : NonceWindow

/-- What the control plane sends to agents. -/
inductive ServerMessage where
  | error (code : RemoteErrorCode) (message : String)
  | agentReady (agentId : String) (policy : Value)
  | policyUpdate (envelope : PolicyUpdateEnvelope Value)
  | actionRequest (envelope : ActionRequestEnvelope)

/-- The object that `sendJson` gets. -/
def ServerMessage.toValue : ServerMessage → Value
  | .error code message =>
    .obj [("type", .str "error"), ("code", .str code.text), ("message", .str message)]
  | .agentReady agentId policy =>
    .obj [("type", .str "agent.ready"), ("agent_id", .str agentId), ("policy", policy)]
  | .policyUpdate envelope => .obj (envelope.toFields id)
  | .actionRequest envelope => .obj envelope.toFields

/-- How the promise of a dispatched action settled. A rejection carries the code of its error, if
the error has one. -/
inductive ActionOutcome where
  | resolved (result : ActionResultEnvelope)
  | rejected (code : Option RemoteErrorCode)

/-- The memory of a `RemoteControlPlane` process. -/
structure RemoteControlPlane where
  store : RemoteStore
  connections : OrderedMap ConnectionId Connection
  agentConnections : OrderedMap String AgentConnection
  agentHelloNonces : OrderedMap String NonceWindow
  pendingActions : OrderedMap String ActionRecord
  /-- Dispatches whose promise has settled and whose continuation has not run yet. -/
  settled : List (ActionRecord × ActionOutcome)
  /-- PATCH requests that wait for their body, with the agent record they have read. -/
  patches : OrderedMap ℕ (RemotePrincipal × RemoteAgentRecord)
  /-- Connections on which a message handler has thrown and whose `catch` has not run yet. -/
  failing : List ConnectionId
  /-- Everything written to a connection, oldest first. -/
  sent : List (ConnectionId × ServerMessage)

/-- The result of a computation that may throw, and the state it leaves either way. -/
abbrev Outcome (α : Type) := Except Thrown α × RemoteControlPlane

namespace RemoteControlPlane

/-- A process that has just started on a store. -/
def start (store : RemoteStore) : RemoteControlPlane where
  store := store
  connections := .empty
  agentConnections := .empty
  agentHelloNonces := .empty
  pendingActions := .empty
  settled := []
  patches := .empty
  failing := []
  sent := []

variable (d : Deployment) (m : Moment)

/-! ### Small operations -/

/-- `nowIso()`, at the later reading. -/
def nowIso : String := d.platform.toISOString m.later

/-- `this.audit(..)`. -/
def audit (userId agentId actionId : Option String) (eventType : String) (severity : Severity)
    (metadata : Fields) (s : RemoteControlPlane) : RemoteControlPlane :=
  { s with
    store := s.store.insertAudit {
      userId := userId
      agentId := agentId
      actionId := actionId
      eventType := eventType
      severity := severity
      metadata := (Value.obj metadata).transport
      createdAt := nowIso d m } }

/-- An audit row about an agent. -/
def auditAgent (agent : RemoteAgentRecord) (eventType : String) (severity : Severity)
    (metadata : Fields) (s : RemoteControlPlane) : RemoteControlPlane :=
  s.audit d m (some agent.userId) (some agent.id) none eventType severity metadata

/-- `store.updateAgent` with a record that was read from the table, whose alias it keeps; that does
not throw. -/
def writeAgent (agent : RemoteAgentRecord) (s : RemoteControlPlane) : RemoteControlPlane :=
  match s.store.updateAgent d.platform agent with
  | .ok store => { s with store := store }
  | .error _ => s

/-- Whether writes on a connection are dropped. -/
def isClosed (c : ConnectionId) (s : RemoteControlPlane) : Bool :=
  match s.connections.get? c with
  | some connection => connection.closed
  | none => true

/-- `connection.sendJson(message)`. -/
def sendJson (c : ConnectionId) (message : ServerMessage) (s : RemoteControlPlane) :
    RemoteControlPlane :=
  if s.isClosed c then s else { s with sent := s.sent ++ [(c, message)] }

/-! ### Closing a connection -/

/-- Write the stored record of an agent back as offline, unless it is revoked. -/
def markOffline (agentId : String) (s : RemoteControlPlane) : RemoteControlPlane :=
  match s.store.getAgent agentId with
  | none => s
  | some latest =>
    if latest.status = .revoked then s
    else s.writeAgent d { latest with status := .offline, updatedAt := nowIso d m }

/-- The closure that an accepted hello registers: it acts only while the agent is still registered
on this connection. -/
def agentDisconnected (c : ConnectionId) (handler : CloseHandler) (s : RemoteControlPlane) :
    RemoteControlPlane :=
  match s.agentConnections.get? handler.agentId with
  | none => s
  | some live =>
    if live.connection ≠ c then s
    else
      let s := { s with agentConnections := s.agentConnections.delete handler.agentId }
      (s.markOffline d m handler.agentId).audit d m (some handler.userId)
        (some handler.agentId) none
        "agent_disconnected" .info []

/-- `notifyClose`, for a connection that has just been marked closed. -/
def notifyClose (c : ConnectionId) (connection : Connection) (s : RemoteControlPlane) :
    RemoteControlPlane :=
  if connection.closeNotified then
    { s with connections := s.connections.set c { connection with closed := true } }
  else
    connection.closeHandlers.foldl (fun s handler => s.agentDisconnected d m c handler)
      { s with
        connections :=
          s.connections.set c { connection with closed := true, closeNotified := true } }

/-- `connection.close()`. -/
def close (c : ConnectionId) (s : RemoteControlPlane) : RemoteControlPlane :=
  match s.connections.get? c with
  | none => s
  | some connection => if connection.closed then s else s.notifyClose d m c connection

/-- `handleClose`: the socket has closed, ended or failed. -/
def handleClose (c : ConnectionId) (s : RemoteControlPlane) : RemoteControlPlane :=
  match s.connections.get? c with
  | none => s
  | some connection => s.notifyClose d m c connection

/-- An error message, and then the end of the connection. -/
def reject (c : ConnectionId) (code : RemoteErrorCode) (message : String)
    (s : RemoteControlPlane) : RemoteControlPlane :=
  (s.sendJson c (.error code message)).close d m c

/-- `connection.onClose(handler)`. -/
def onClose (c : ConnectionId) (handler : CloseHandler) (s : RemoteControlPlane) :
    RemoteControlPlane :=
  { s with
    connections := s.connections.modify c fun connection =>
      { connection with closeHandlers := connection.closeHandlers ++ [handler] } }

def cleanupEphemeralState (now : ℤ) (s : RemoteControlPlane) : RemoteControlPlane :=
  { s with
    agentHelloNonces :=
      (s.agentHelloNonces.mapValues (pruneNonceWindow · now)).filter fun _ nonces => nonces.size ≠ 0
    agentConnections := s.agentConnections.mapValues fun live =>
      { live with seenNonces := pruneNonceWindow live.seenNonces now } }

/-! ### Finding agents -/

/-- `resolveAgent`: by id, if the agent is the user's, else by alias. -/
def resolveAgent (userId value : String) (s : RemoteControlPlane) : Option RemoteAgentRecord :=
  if value = "" then none
  else
    match s.store.getAgent value with
    | some agent =>
      if agent.userId = userId then some agent else s.store.getAgentByAlias userId value
    | none => s.store.getAgentByAlias userId value

theorem resolveAgent_eq_some {s : RemoteControlPlane} {userId value : String}
    {agent : RemoteAgentRecord} (h : s.resolveAgent userId value = some agent) :
    s.store.getAgent agent.id = some agent ∧ agent.userId = userId := by
  have hbyAlias : s.store.getAgentByAlias userId value = some agent →
      s.store.getAgent agent.id = some agent ∧ agent.userId = userId := by
    intro h
    obtain ⟨hget, huser, -⟩ := RemoteStore.getAgentByAlias_eq_some h
    exact ⟨hget, huser⟩
  unfold resolveAgent at h
  split at h
  · exact absurd h (by simp)
  · split at h
    · next byId hbyId =>
      split at h
      · next huser =>
        obtain rfl := Option.some.inj h
        rw [(RemoteStore.getAgent_rows hbyId).1]
        exact ⟨hbyId, huser⟩
      · exact hbyAlias h
    · exact hbyAlias h

end RemoteControlPlane

/-! ### A deployment to evaluate on -/

/-- A deployment on the sample platform, with the limits of the default configuration. -/
def sampleDeployment : Deployment where
  platform := samplePlatform
  config :=
    { publicBaseUrl := "https://example.test"
      agentWsPath := "/api/agents/connect"
      enrollmentTokenTtlSeconds := 600
      maxActionTimeoutSeconds := 120
      maxOutputBytes := 200000 }
  controlPlaneKeyPair := { publicKeyPem := "plane", privateKeyPem := "plane" }

/-- A moment at `n` milliseconds. -/
def sampleMoment (n : ℕ) : Moment where
  now := n
  later := n
  uuid := toString n
  token := "0123456789abcdef"

/-- The user whose agent `sampleAgent` is, with the scope to administer it. -/
def sampleOwner : RemotePrincipal where
  userId := "usr_1"
  capabilities := [.agentsAdmin, .systemRead]

/-- An enrolled agent that is not connected. -/
def sampleAgent : RemoteAgentRecord where
  id := "agt_1"
  userId := "usr_1"
  aliasName := "web"
  status := .offline
  publicKey := some "agent"
  profile := .str "operations"
  policy := .obj (createAgentPolicy (.str "operations"))
  policyVersion := 1
  hostMetadata := none
  lastSeenAt := none
  createdAt := "1970-01-01T00:00:00.000Z"
  updatedAt := "1970-01-01T00:00:00.000Z"

theorem isRow_sampleAgent : IsRow sampleAgent := ⟨⟨"operations", rfl⟩, rfl, rfl, rfl⟩

/-- A store that holds that agent. -/
def sampleStore : RemoteStore := RemoteStore.empty.setAgent sampleAgent isRow_sampleAgent

end Remote
