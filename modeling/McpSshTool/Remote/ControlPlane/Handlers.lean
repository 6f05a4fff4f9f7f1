import McpSshTool.Js.Double
import McpSshTool.Remote.ControlPlane.State

/-!
# The handlers of the control plane

The methods of `RemoteControlPlane` that agents and API callers reach, each as the state it leaves
and the value it returns or throws.

* agents: `handleAgentMessage`, `handleAgentHello`, `handleActionResult`, `handleAgentEnroll`;
* owners: `createEnrollmentToken`, `updateAgentPolicy`, `revokeAgent`;
* tools: `callRemoteTool` and `dispatchAction`, with the continuation of a dispatch
  (`finishDispatch`), which runs when the promise has settled.

A handler first reads the store, so on a closed database it throws before it changes anything.
-/

open Library

namespace Remote

namespace RemoteControlPlane

variable (d : Deployment) (m : Moment)

/-! ### Hello -/

/-- How a hello is judged. -/
inductive HelloVerdict where
  | notEnrolled
  | signatureInvalid (agent : RemoteAgentRecord)
  | expired (agent : RemoteAgentRecord)
  | duplicate (agent : RemoteAgentRecord)
  | replayed (agent : RemoteAgentRecord)
  | accepted (agent : RemoteAgentRecord)

/-- The checks of `handleAgentHello`, in the order they are made. The age of the timestamp is taken
at the first reading of the clock, everything after it at the second. -/
def helloVerdict (c : ConnectionId) (hello : AgentHelloEnvelope) (s : RemoteControlPlane) :
    HelloVerdict :=
  match s.store.getAgent hello.agent_id with
  | none => .notEnrolled
  | some agent =>
    match agent.publicKey with
    | none => .notEnrolled
    | some publicKey =>
      if agent.status = .revoked then .notEnrolled
      else if !verifyEnvelope d.platform hello.toFields publicKey then .signatureInvalid agent
      else if 300000 < |m.now - d.platform.getTime hello.timestamp| then .expired agent
      else
        let s := s.cleanupEphemeralState m.later
        if (s.agentConnections.get? agent.id).any fun live => live.connection = c then
          .duplicate agent
        else if ((s.agentHelloNonces.get? agent.id).getD .empty).contains hello.nonce then
          .replayed agent
        else .accepted agent

/-- The nonce is remembered, an earlier connection of the agent is closed, and the agent is
registered on this one. -/
def registerHello (c : ConnectionId) (hello : AgentHelloEnvelope) (agent : RemoteAgentRecord)
    (s : RemoteControlPlane) : RemoteControlPlane :=
  let s := s.cleanupEphemeralState m.later
  let helloNonces := (s.agentHelloNonces.get? agent.id).getD .empty
  let s' := { s with
    agentHelloNonces :=
      s.agentHelloNonces.set agent.id (helloNonces.set hello.nonce (m.later + agentNonceTtlMs)) }
  let s' := match s.agentConnections.get? agent.id with
    | some existing => s'.close d m existing.connection
    | none => s'
  { s' with
    agentConnections := s'.agentConnections.set agent.id
      { agent, connection := c, seenNonces := rememberNonce .empty hello.nonce m.later } }

/-- The record that an accepted hello writes. -/
def onlineRecord (hello : AgentHelloEnvelope) (agent : RemoteAgentRecord) : RemoteAgentRecord :=
  { agent with
    status := .online
    lastSeenAt := some (nowIso d m)
    hostMetadata := some hello.host
    updatedAt := nowIso d m }

/-- What an accepted hello does. -/
def acceptHello (c : ConnectionId) (hello : AgentHelloEnvelope) (agent : RemoteAgentRecord)
    (s : RemoteControlPlane) : RemoteControlPlane :=
  let s := s.registerHello d m c hello agent
  let s := s.writeAgent d (onlineRecord d m hello agent)
  let s := s.onClose c { agentId := agent.id, userId := agent.userId }
  let s := s.auditAgent d m agent "agent_connected" .info
    [("agent_version", .str hello.agent_version), ("host", .str hello.host.hostname)]
  s.sendJson c (.agentReady agent.id agent.policy)

def handleAgentHello (c : ConnectionId) (hello : AgentHelloEnvelope) (s : RemoteControlPlane) :
    Outcome Unit :=
  if !s.store.isOpen then (.error .sqlite, s)
  else
    (.ok (), match s.helloVerdict d m c hello with
    | .notEnrolled => s.reject d m c .agentNotFound "Agent is not enrolled"
    | .signatureInvalid agent =>
      (s.auditAgent d m agent "agent_signature_invalid" .warn
        [("message_type", .str "agent.hello")]).reject d m c .signatureInvalid
          "Agent signature is invalid"
    | .expired agent =>
      (s.auditAgent d m agent "agent_hello_expired" .warn []).reject d m c .actionExpired
        "Agent hello timestamp is stale"
    | .duplicate agent =>
      ((s.cleanupEphemeralState m.later).auditAgent d m agent "agent_duplicate_hello_rejected" .warn
        []).reject d m c .actionReplayDetected
          "Agent hello was already processed on this connection"
    | .replayed agent =>
      ((s.cleanupEphemeralState m.later).auditAgent d m agent "agent_hello_replay_detected" .warn
        []).reject d m c .actionReplayDetected "Agent hello nonce was already used"
    | .accepted agent => s.acceptHello d m c hello agent)

/-! ### Action results -/

/-- A pending action's promise settles, and its timer is cleared. -/
def settle (action : ActionRecord) (outcome : ActionOutcome) (s : RemoteControlPlane) :
    RemoteControlPlane :=
  { s with
    pendingActions := s.pendingActions.delete action.id
    settled := s.settled ++ [(action, outcome)] }

/-- A result is refused: the action fails. -/
def refuseResult (action : ActionRecord) (eventType : String) (code : Option RemoteErrorCode)
    (s : RemoteControlPlane) : RemoteControlPlane :=
  (s.audit d m (some action.userId) (some action.agentId) (some action.id) eventType
    .warn []).settle
    action (.rejected code)

def handleActionResult (c : ConnectionId) (result : ActionResultEnvelope)
    (s : RemoteControlPlane) : Outcome Unit :=
  match s.pendingActions.get? result.action_id with
  | none => (.ok (), s)
  | some action =>
    if !s.store.isOpen then (.error .sqlite, s)
    else
      let signer := (s.store.getAgent result.agent_id).bind (·.publicKey)
      if !signer.any fun publicKey => verifyEnvelope d.platform result.toFields publicKey then
        (.ok (), s.refuseResult d m action "agent_result_signature_invalid" none)
      else
        match s.agentConnections.get? result.agent_id with
        | none =>
          (.ok (), s.refuseResult d m action "agent_result_connection_invalid"
            (some .signatureInvalid))
        | some live =>
          if action.agentId ≠ result.agent_id || live.connection ≠ c then
            (.ok (), s.refuseResult d m action "agent_result_connection_invalid"
              (some .signatureInvalid))
          else
            -- `hasSeenNonce` prunes the window whether the nonce is in it or not
            let seen := pruneNonceWindow live.seenNonces m.now
            if seen.contains result.nonce then
              let s := { s with
                agentConnections :=
                  s.agentConnections.set result.agent_id { live with seenNonces := seen } }
              (.ok (), s.refuseResult d m action "agent_result_replay_detected"
                (some .actionReplayDetected))
            else
              let s := { s with
                agentConnections := s.agentConnections.set result.agent_id
                  { live with seenNonces := rememberNonce seen result.nonce m.now } }
              (.ok (), s.settle action (.resolved result))

/-! ### Messages -/

/-- `handleAgentMessage`; the payload is absent where the text is not JSON. -/
def handleAgentMessage (c : ConnectionId) (payload : Option Value) (s : RemoteControlPlane) :
    Outcome Unit :=
  match payload with
  | none => (.error .syntaxError, s)
  | some payload =>
    if !payload.isRecord then (.ok (), s.reject d m c .internalError "Invalid message")
    else if (payload.member "type").asString = some "agent.hello" then
      match agentHelloEnvelopeSchema d.platform payload with
      | none => (.error .zodError, s)
      | some hello => s.handleAgentHello d m c hello
    else if (payload.member "type").asString = some "action.result" then
      match actionResultEnvelopeSchema d.platform payload with
      | none => (.error .zodError, s)
      | some result => s.handleActionResult d m c result
    else (.ok (), s.reject d m c .internalError "Unknown message type")

/-! ### Agents, as their owners see them -/

def sanitizeAgent (agent : RemoteAgentRecord) : Value :=
  .obj [("id", .str agent.id), ("alias", .str agent.aliasName), ("status", .str agent.status.text),
    ("profile", agent.profile), ("policy_version", .int agent.policyVersion),
    ("host_metadata", optionalMember AgentHostMetadata.toValue agent.hostMetadata),
    ("last_seen_at", optionalMember Value.str agent.lastSeenAt),
    ("created_at", .str agent.createdAt), ("updated_at", .str agent.updatedAt)]

/-- The text in single quotes, with every single quote inside it replaced. -/
def quoteArg (replacement value : String) : String :=
  let quote := Char.ofNat 39
  String.singleton quote
    ++ String.ofList (value.toList.flatMap fun ch => if ch =
      quote then replacement.toList else [ch])
    ++ String.singleton quote

def quotePosixArg (value : String) : String := quoteArg "'\"'\"'" value

def quotePowerShellArg (value : String) : String := quoteArg "''" value

/-- The enrollment command, under the quoting of a shell. -/
def enrollCommand (quote : String → String) (agent : RemoteAgentRecord) (token : String) : String :=
  " ".intercalate
    ["npx --yes --package mcp-ssh-tool@latest mcp-ssh-agent enroll",
      "--server " ++ quote d.config.publicBaseUrl, "--token " ++ quote token,
      "--alias " ++ quote agent.aliasName]

def installCommand (agent : RemoteAgentRecord) (token : Option String) : Fields :=
  let tokenArgument := token.getD "<create-a-new-enrollment-token>"
  [("agent_id", .str agent.id), ("alias", .str agent.aliasName),
    ("token_recoverable", .bool token.isSome),
    ("commands", .obj
      [("npm", .str (enrollCommand d quotePosixArg agent tokenArgument)),
        ("run", .str "npx --yes --package mcp-ssh-tool@latest mcp-ssh-agent run"),
        ("windows", .str (enrollCommand d quotePowerShellArg agent tokenArgument))]),
    ("expires_in_seconds",
      if token.isSome then .int d.config.enrollmentTokenTtlSeconds else .undefined)]

/-- `seconds * 1000`. -/
def milliseconds (seconds : ℚ) : ℚ := Double.round (seconds * 1000)

/-- `new Date(now + seconds * 1000).toISOString()`; `none` where it throws a `RangeError`. -/
def deadlineText (platform : Platform) (now : ℤ) (seconds : JsNumber) : Option String :=
  match seconds with
  | .fin q =>
    let t := Double.round (now + milliseconds q)
    if |t| ≤ 8640000000000000 then
      some (platform.toISOString (if t < 0 then t.ceil else t.floor))
    else none
  | _ => none

/-- The error for a caller without the scope `agents:admin`. -/
def adminRequired : Thrown := .safe .invalidScope "agents:admin scope is required" 403

/-- The profile that an enrollment token is asked for; anything but the two larger profiles counts
as `read-only`. -/
def requestedProfile (args : Value) : AgentProfileName :=
  match (args.member "requested_profile").asString with
  | some "operations" => .operations
  | some "full-admin" => .fullAdmin
  | _ => .readOnly

/-- The record of an agent that is still to enroll. -/
def pendingRecord (principal : RemotePrincipal) (aliasName : String) (profile : AgentProfileName) :
    RemoteAgentRecord where
  id := freshId m "agt"
  userId := principal.userId
  aliasName := aliasName
  status := .pending
  publicKey := none
  profile := .str profile.text
  policy := .obj (createAgentPolicy (.str profile.text))
  policyVersion := 1
  hostMetadata := none
  lastSeenAt := none
  createdAt := d.platform.toISOString m.now
  updatedAt := d.platform.toISOString m.now

def createEnrollmentToken (principal : RemotePrincipal) (args : Value) (s : RemoteControlPlane) :
    Outcome Value :=
  if !hasCapability principal.capabilities .agentsAdmin then (.error adminRequired, s)
  else
    match ((args.member "alias").asString.map JsText.trim).filter fun a => a ≠ "" with
    | none => (.error (.safe .forbidden "alias is required" 400), s)
    | some aliasName =>
      if !s.store.isOpen then (.error .sqlite, s)
      else if (s.store.getAgentByAlias principal.userId aliasName).any fun existing =>
          existing.status ≠ .revoked then
        (.error (.safe .forbidden "Agent alias already exists" 400), s)
      else
        let agent := pendingRecord d m principal aliasName (requestedProfile args)
        match s.store.insertAgent d.platform agent with
        | .error e => (.error e, s)
        | .ok store =>
          let s := { s with store := store }
          -- the row stays where what follows throws
          match deadlineText d.platform m.later (.ofInt d.config.enrollmentTokenTtlSeconds) with
          | none => (.error .rangeError, s)
          | some expiresAt =>
            match s.store.insertEnrollmentToken
              { agentId := agent.id
                userId := principal.userId
                tokenHash := hashSecret d.platform m.token
                expiresAt := expiresAt
                usedAt := none
                createdAt := agent.createdAt } with
            | .error e => (.error e, s)
            | .ok store =>
              let s := { s with store := store }
              let s := s.auditAgent d m agent "enrollment_token_created" .info
                [("alias", .str aliasName), ("profile", agent.profile)]
              (.ok (.obj (installCommand d agent (some m.token)
                ++ [("enrollment_token", .str m.token)])), s)

/-- The address agents connect to: `publicBaseUrl` with `http` replaced by `ws`. -/
def websocketUrl : String :=
  let base := d.config.publicBaseUrl
  (if base.startsWith "http" then "ws" ++ (base.drop 4).toString else base) ++ d.config.agentWsPath

/-- The record that enrollment writes. -/
def enrolledRecord (publicKey : String) (host : AgentHostMetadata) (agent : RemoteAgentRecord) :
    RemoteAgentRecord :=
  { agent with
    status := .offline
    publicKey := some publicKey
    hostMetadata := some host
    updatedAt := nowIso d m }

/-- `handleAgentEnroll`, once the body is read. -/
def handleAgentEnroll (body : Value) (s : RemoteControlPlane) : Outcome Value :=
  let token := (body.member "token").asString.getD ""
  let publicKey := (body.member "public_key").asString.getD ""
  if (body.member "host").isRecord && (agentHostMetadataSchema (body.member "host")).isNone then
    (.error .zodError, s)
  else
    match agentHostMetadataSchema (body.member "host") with
    | none => (.error (.safe .forbidden "token, public_key, and host are required" 400), s)
    | some host =>
      if token = "" || publicKey = "" then
        (.error (.safe .forbidden "token, public_key, and host are required" 400), s)
      else if !d.platform.isValidEd25519PublicKey publicKey then
        (.error (.safe .forbidden "public_key must be an Ed25519 SPKI PEM public key" 400), s)
      else if !s.store.isOpen then (.error .sqlite, s)
      else
        match s.store.getEnrollmentTokenByHash (hashSecret d.platform token) with
        | none => (.error (.safe .invalidToken "Enrollment token is expired or invalid" 401), s)
        | some enrollment =>
          if enrollment.usedAt.isSome || d.platform.getTime enrollment.expiresAt < m.now then
            (.error (.safe .invalidToken "Enrollment token is expired or invalid" 401), s)
          else
            match s.store.getAgent enrollment.agentId with
            | none => (.error (.safe .agentNotFound "Pending agent not found" 404), s)
            | some agent =>
              if agent.status = .revoked then
                (.error (.safe .agentNotFound "Pending agent not found" 404), s)
              else
                match s.store.markEnrollmentTokenUsed enrollment.tokenHash (nowIso d m) with
                | .error _ =>
                  (.error (.safe .invalidToken "Enrollment token is expired or invalid" 401), s)
                | .ok store =>
                  let s := { s with store := store }
                  let s := s.writeAgent d (enrolledRecord d m publicKey host agent)
                  let s := s.auditAgent d m agent "agent_enrolled" .info
                    [("alias", .str agent.aliasName), ("host", .str host.hostname)]
                  (.ok (.obj
                    [("agent_id", .str agent.id), ("alias", .str agent.aliasName),
                      ("policy", agent.policy), ("websocket_url", .str (websocketUrl d)),
                      ("control_plane_public_key", .str d.controlPlaneKeyPair.publicKeyPem)]), s)

/-! ### Policy updates and revocation -/

/-- The policy that a patch leads to, with its limits clamped and its version set; `none` where
`Math.min` throws on a limit that is no number. -/
def updatedPolicy (agent : RemoteAgentRecord) (value : Value) : Option Fields := do
  let merged := mergeCustomPolicy (if value.isRecord then value.ownMembers else [])
  let timeout ← ((Value.obj merged).member "maxActionTimeoutSeconds").toNumber d.platform.numberText
  let bytes ← ((Value.obj merged).member "maxOutputBytes").toNumber d.platform.numberText
  return Value.spread merged (.obj
    [("maxActionTimeoutSeconds",
        .num (timeout.min (.ofInt d.config.maxActionTimeoutSeconds))),
      ("maxOutputBytes", .num (bytes.min (.ofInt d.config.maxOutputBytes))),
      ("version", .int (agent.policyVersion + 1 : ℕ))])

/-- The record that a policy update writes over the one it was given. -/
def policyRecord (agent : RemoteAgentRecord) (policy : Fields) : RemoteAgentRecord :=
  { agent with
    profile := (Value.obj policy).member "profile"
    policy := .obj policy
    policyVersion := agent.policyVersion + 1
    updatedAt := d.platform.toISOString m.now }

/-- The signed `policy.update` for a record that was just written. -/
def policyUpdateEnvelope (updated : RemoteAgentRecord) : PolicyUpdateEnvelope Value :=
  let envelope : PolicyUpdateEnvelope Value :=
    { agent_id := updated.id
      policy := updated.policy
      policy_version := updated.policyVersion
      issued_at := nowIso d m
      nonce := m.token
      signature := "" }
  { envelope with
    signature :=
      signEnvelope d.platform (envelope.toFields id) d.controlPlaneKeyPair.privateKeyPem }

def updateAgentPolicy (principal : RemotePrincipal) (agent : RemoteAgentRecord) (value : Value)
    (s : RemoteControlPlane) : Outcome RemoteAgentRecord :=
  if !hasCapability principal.capabilities .agentsAdmin then (.error adminRequired, s)
  else
    match updatedPolicy d agent value with
    | none => (.error .typeError, s)
    | some policy =>
      let updated := policyRecord d m agent policy
      match s.store.updateAgent d.platform updated with
      | .error e => (.error e, s)
      | .ok store =>
        let s := { s with store := store }
        let s := match s.agentConnections.get? agent.id with
          | none => s
          | some live =>
            s.sendJson live.connection (.policyUpdate (policyUpdateEnvelope d m updated))
        let s := s.audit d m (some principal.userId) (some agent.id) none "policy_updated" .warn
          [("profile", updated.profile), ("policy_version", .int updated.policyVersion)]
        (.ok updated, s)

/-- The record that revocation writes. -/
def revokedRecord (agent : RemoteAgentRecord) : RemoteAgentRecord :=
  { agent with status := .revoked, updatedAt := nowIso d m }

def revokeAgent (principal : RemotePrincipal) (agent : RemoteAgentRecord)
    (s : RemoteControlPlane) : Outcome RemoteAgentRecord :=
  if !hasCapability principal.capabilities .agentsAdmin then (.error adminRequired, s)
  else
    let s := s.writeAgent d (revokedRecord d m agent)
    let s := match s.agentConnections.get? agent.id with
      | none => s
      | some live => s.close d m live.connection
    let s := { s with agentConnections := s.agentConnections.delete agent.id }
    let s := s.audit d m (some principal.userId) (some agent.id) none "agent_revoked" .warn []
    (.ok (revokedRecord d m agent), s)

/-! ### Dispatching actions -/

/-- The seconds an action may take: the request's wish, the policy's limit, the configured limit.
`none` where the wish is no number. -/
def dispatchTimeout (agent : RemoteAgentRecord) (args : Fields) : Option JsNumber := do
  let limit := agent.policy.member "maxActionTimeoutSeconds"
  let wish ← (((Value.obj args).member "timeout_seconds").orElse limit).toNumber
    d.platform.numberText
  let limit ← limit.toNumber d.platform.numberText
  return (wish.min limit).min (.ofInt d.config.maxActionTimeoutSeconds)

/-- The signed `action.request` of a dispatch. -/
def actionRequestEnvelope (principal : RemotePrincipal) (agent : RemoteAgentRecord)
    (tool : RemoteToolName) (capability : RemoteCapability) (args : Fields) (deadline : String) :
    ActionRequestEnvelope :=
  let envelope : ActionRequestEnvelope :=
    { action_id := freshId m "act"
      agent_id := agent.id
      user_id := principal.userId
      tool := tool
      capability := capability
      args := args
      policy_version := agent.policyVersion
      issued_at := d.platform.toISOString m.now
      deadline := deadline
      nonce := m.token
      signature := "" }
  { envelope with
    signature := signEnvelope d.platform envelope.toFields d.controlPlaneKeyPair.privateKeyPem }

/-- `dispatchAction`, up to the point where it waits for the result. -/
def dispatchAction (principal : RemotePrincipal) (agent : RemoteAgentRecord)
    (tool : RemoteToolName) (capability : RemoteCapability) (args : Fields)
    (s : RemoteControlPlane) : Outcome String :=
  if agent.status = .revoked then (.error (.safe .agentRevoked "Agent is revoked" 410), s)
  else
    match s.agentConnections.get? agent.id with
    | none => (.error (.safe .agentOffline "Agent is offline" 503), s)
    | some live =>
      match dispatchTimeout d agent args with
      | none => (.error .typeError, s)
      | some timeoutSeconds =>
        match deadlineText d.platform m.later timeoutSeconds with
        | none => (.error .rangeError, s)
        | some deadline =>
          let envelope := actionRequestEnvelope d m principal agent tool capability args deadline
          let action : ActionRecord :=
            { id := envelope.action_id
              userId := principal.userId
              agentId := agent.id
              tool := tool
              capability := capability
              args := args
              status := .sent
              issuedAt := envelope.issued_at
              deadline := deadline
              completedAt := none
              result := none
              errorCode := none }
          match s.store.insertAction action with
          | .error e => (.error e, s)
          | .ok store =>
            let s := { s with store := store }
            let about : Fields :=
              [("tool", .str tool.text), ("capability", .str capability.text)]
            let s := s.audit d m (some principal.userId) (some agent.id) (some action.id)
              "action_requested" .info about
            let s := s.audit d m (some principal.userId) (some agent.id) (some action.id)
              "action_allowed" .info about
            let s := { s with pendingActions := s.pendingActions.set action.id action }
            (.ok action.id, s.sendJson live.connection (.actionRequest envelope))

/-- The row that the continuation of a dispatch writes. -/
def finishedAction (action : ActionRecord) : ActionOutcome → ActionRecord
  | .resolved result =>
    { action with
      status := if result.status = .ok then .completed else .error
      completedAt := some (nowIso d m)
      result := some result
      errorCode := result.error_code }
  | .rejected code =>
    let code := code.getD .internalError
    { action with
      status := if code = .agentTimeout then .timeout else .error
      completedAt := some (nowIso d m)
      errorCode := some code }

/-- The audit row that the continuation of a dispatch adds. -/
def auditFinished (action : ActionRecord) (outcome : ActionOutcome) (s : RemoteControlPlane) :
    RemoteControlPlane :=
  let auditAction := fun eventType severity metadata =>
    s.audit d m (some action.userId) (some action.agentId) (some action.id) eventType
      severity metadata
  match outcome with
  | .resolved result =>
    let metadata : Fields :=
      [("status", .str result.status.text),
        ("error_code", optionalMember (fun code => .str code.text) result.error_code)]
    if result.status = .ok then auditAction "action_completed" .info metadata
    else auditAction "action_denied_or_failed" .warn metadata
  | .rejected code =>
    auditAction "action_denied_or_failed" .warn
      [("status", .str "error"), ("error_code", .str (code.getD .internalError).text)]

/-- `dispatchAction`, after the promise has settled. -/
def finishDispatch (action : ActionRecord) (outcome : ActionOutcome) (s : RemoteControlPlane) :
    Outcome Unit :=
  match s.store.updateAction (finishedAction d m action outcome) with
  | .error e => (.error e, s)
  | .ok store => (.ok (), ({ s with store := store }).auditFinished d m action outcome)

/-! ### Tools -/

/-- The agents of a user, oldest first. -/
def listAgents (userId : String) (s : RemoteControlPlane) : List RemoteAgentRecord :=
  ((s.store.agents.entries.map Prod.snd).filter fun agent => agent.userId = userId).insertionSort
    fun a b => JsText.le a.createdAt b.createdAt

/-- An audit row, as a reply shows it. -/
def auditValue (event : AuditEvent) : Value :=
  .obj [("userId", optionalMember Value.str event.userId),
    ("agentId", optionalMember Value.str event.agentId),
    ("actionId", optionalMember Value.str event.actionId), ("eventType", .str event.eventType),
    ("severity", .str event.severity.text), ("metadata", event.metadata),
    ("createdAt", .str event.createdAt)]

/-- `listAudit`: the rows with the latest times first, rows of one time in the order in which they
were written. A limit that is no whole number is refused by the database. -/
def listAudit (userId : String) (agentId : Option String) (limit : JsNumber)
    (s : RemoteControlPlane) : Except Thrown (List AuditEvent) :=
  match (limit.max (.ofInt 1)).min (.ofInt 200) with
  | .fin q =>
    if q.den = 1 then
      .ok (((s.store.auditEvents.filter fun event =>
        event.userId = some userId && (agentId.all fun id => event.agentId = some id)).insertionSort
          fun a b => JsText.le b.createdAt a.createdAt).take q.num.toNat)
    else .error .sqlite
  | _ => .error .sqlite

/-- What a tool call leads to: a reply, or a dispatched action whose result it waits for. -/
inductive ToolReply where
  | reply (value : Value)
  | awaiting (actionId : String)

def requireAgent (userId : String) (args : Fields) (s : RemoteControlPlane) :
    Except Thrown RemoteAgentRecord :=
  match s.resolveAgent userId (((Value.obj args).member "agent_id_or_alias").asString.getD "") with
  | some agent => .ok agent
  | none => .error (.safe .agentNotFound "Agent not found" 404)

/-- The rest of a tool call about one agent. -/
def withAgent {α : Type} (userId : String) (args : Fields) (s : RemoteControlPlane)
    (rest : RemoteAgentRecord → Outcome α) : Outcome α :=
  if !s.store.isOpen then (.error .sqlite, s)
  else
    match s.requireAgent userId args with
    | .error e => (.error e, s)
    | .ok agent => rest agent

/-- Apply a function to what a computation returns. -/
def mapOutcome {α β : Type} (f : α → β) (outcome : Outcome α) : Outcome β :=
  (outcome.1.map f, outcome.2)

/-- The tools that run on an agent: the agent's stored policy is checked, and the action sent. -/
def callAgentTool (principal : RemotePrincipal) (tool : RemoteToolName) (args : Fields)
    (agent : RemoteAgentRecord) (s : RemoteControlPlane) : Outcome ToolReply :=
  let capability := toolCapabilityMap tool
  if !((agent.policy.member "capabilities").member capability.text).truthy then
    let s := s.audit d m (some principal.userId) (some agent.id) none "action_denied" .warn
      [("tool", .str tool.text), ("capability", .str capability.text),
        ("reason", .str "capability disabled by agent policy")]
    (.error (.safe .capabilityDenied ("Agent policy does not allow " ++ capability.text) 403), s)
  else mapOutcome .awaiting (s.dispatchAction d m principal agent tool capability args)

def callRemoteTool (principal : RemotePrincipal) (tool : RemoteToolName) (args : Fields)
    (s : RemoteControlPlane) : Outcome ToolReply :=
  let capability := toolCapabilityMap tool
  let argument := (Value.obj args).member
  if !hasCapability principal.capabilities capability then
    (.error (.safe .invalidScope ("Scope does not grant " ++ capability.text) 403), s)
  else
    match tool with
    | .list_hosts =>
      if !s.store.isOpen then (.error .sqlite, s)
      else
        (.ok (.reply (.obj [("hosts", .arr ((s.listAgents principal.userId).map fun agent =>
          .obj [("id", .str agent.id), ("alias", .str agent.aliasName),
            ("status", .str agent.status.text),
            ("host", optionalMember AgentHostMetadata.toValue agent.hostMetadata)]))])), s)
    | .list_agents =>
      if !s.store.isOpen then (.error .sqlite, s)
      else
        (.ok (.reply (.obj
          [("agents", .arr ((s.listAgents principal.userId).map sanitizeAgent))])), s)
    | .create_enrollment_token =>
      mapOutcome .reply (s.createEnrollmentToken d m principal (.obj args))
    | .get_agent_install_command =>
      s.withAgent principal.userId args fun agent =>
        (.ok (.reply (.obj (installCommand d agent none))), s)
    | .update_agent_policy =>
      s.withAgent principal.userId args fun agent =>
        mapOutcome (fun updated => .reply (.obj [("agent", sanitizeAgent updated)]))
          (s.updateAgentPolicy d m principal agent (argument "policy"))
    | .revoke_agent =>
      s.withAgent principal.userId args fun agent =>
        mapOutcome (fun updated => .reply (.obj [("agent", sanitizeAgent updated)]))
          (s.revokeAgent d m principal agent)
    | .get_audit_events =>
      if !s.store.isOpen then (.error .sqlite, s)
      else
        let agentId := ((argument "agent_id_or_alias").asString.filter fun a => a ≠ "").bind
          fun a => (s.resolveAgent principal.userId a).map (·.id)
        match ((argument "limit").orElse (.int 50)).toNumber d.platform.numberText with
        | none => (.error .typeError, s)
        | some limit =>
          ((s.listAudit principal.userId agentId limit).map fun events =>
            .reply (.obj [("events", .arr (events.map auditValue))]), s)
    | tool => s.withAgent principal.userId args fun agent =>
        s.callAgentTool d m principal tool args agent

end RemoteControlPlane
end Remote
