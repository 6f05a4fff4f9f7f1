import McpSshTool.Remote.ControlPlane.Handlers

/-!
# Steps of the control plane

The process as a state machine: an `Event` is something that makes it run until it waits again. A
PATCH request takes two events, for the handler reads the agent's record before it waits for the
body. Any order of events is an interleaving of requests, messages, timers and closing sockets.
-/

open Library

namespace Remote

/-- What makes the control plane take a step. -/
inductive Event where
  /-- A websocket upgrade is accepted. -/
  | connect (c : ConnectionId)
  /-- A text frame arrives; the payload is absent where the text is not JSON. -/
  | message (c : ConnectionId) (payload : Option Value)
  /-- The `catch` of a message handler that has thrown. -/
  | messageFailed (c : ConnectionId)
  /-- A socket closes, or its peer ends it. -/
  | socketClosed (c : ConnectionId)
  /-- `POST /api/agents/enroll`. -/
  | enroll (body : Value)
  /-- `POST /api/agents/enrollment-tokens`. -/
  | createEnrollmentToken (principal : RemotePrincipal) (body : Value)
  /-- `PATCH /api/agents/:agent`, before its body is read. -/
  | patchArrived (request : ℕ) (principal : RemotePrincipal) (agentRef : String)
  /-- The body of a PATCH request; absent where reading it throws. -/
  | patchBody (request : ℕ) (body : Option Value)
  /-- `POST /api/agents/:agent/revoke`. -/
  | revoke (principal : RemotePrincipal) (agentRef : String)
  /-- An MCP tool call. -/
  | callTool (principal : RemotePrincipal) (tool : RemoteToolName) (args : Fields)
  /-- A request without a valid token. -/
  | authenticationFailed
  /-- The timer of a dispatched action fires. -/
  | actionTimeout (actionId : String)
  /-- The continuation of a dispatched action runs. -/
  | actionSettled (actionId : String)
  /-- The cleanup timer fires. -/
  | cleanup
  /-- `close()`. -/
  | shutdown

/-- An event, with what the step it causes takes from the clock and the random source. -/
structure Step where
  event : Event
  moment : Moment

namespace RemoteControlPlane

variable (d : Deployment)

/-- A websocket upgrade is accepted. -/
def connect (c : ConnectionId) (s : RemoteControlPlane) : RemoteControlPlane :=
  if s.connections.contains c then s
  else { s with
    connections := s.connections.set c
      { closed := false, closeNotified := false, closeHandlers := [] } }

/-- A text frame is handled; a handler that throws leaves its `catch` to run. -/
def receive (m : Moment) (c : ConnectionId) (payload : Option Value) (s : RemoteControlPlane) :
    RemoteControlPlane :=
  match s.handleAgentMessage d m c payload with
  | (.ok _, s) => s
  | (.error _, s) => { s with failing := s.failing ++ [c] }

/-- The `catch` of a message handler. -/
def recover (m : Moment) (c : ConnectionId) (s : RemoteControlPlane) : RemoteControlPlane :=
  if c ∈ s.failing then
    ({ s with failing := s.failing.erase c }).reject d m c .internalError "Agent message failed"
  else s

/-- A PATCH request finds its agent and waits for its body. -/
def awaitPatch (request : ℕ) (principal : RemotePrincipal) (agentRef : String)
    (s : RemoteControlPlane) : RemoteControlPlane :=
  if !s.store.isOpen then s
  else
    match s.resolveAgent principal.userId agentRef with
    | none => s
    | some agent => { s with patches := s.patches.set request (principal, agent) }

/-- A PATCH request has its body and updates the policy of the agent it found before. -/
def applyPatch (m : Moment) (request : ℕ) (body : Option Value) (s : RemoteControlPlane) :
    RemoteControlPlane :=
  match s.patches.get? request with
  | none => s
  | some (principal, agent) =>
    let s := { s with patches := s.patches.delete request }
    match body with
    | none => s
    | some body => (s.updateAgentPolicy d m principal agent (body.member "policy")).2

/-- A revocation request finds its agent and revokes it. -/
def revokeByRef (m : Moment) (principal : RemotePrincipal) (agentRef : String)
    (s : RemoteControlPlane) : RemoteControlPlane :=
  if !s.store.isOpen then s
  else
    match s.resolveAgent principal.userId agentRef with
    | none => s
    | some agent => (s.revokeAgent d m principal agent).2

/-- The timer of a dispatched action fires, unless it was cleared. -/
def timeOut (actionId : String) (s : RemoteControlPlane) : RemoteControlPlane :=
  match s.pendingActions.get? actionId with
  | none => s
  | some action => s.settle action (.rejected (some .agentTimeout))

/-- The continuation of a dispatched action runs. -/
def resume (m : Moment) (actionId : String) (s : RemoteControlPlane) : RemoteControlPlane :=
  match s.settled.find? fun e => e.1.id = actionId with
  | none => s
  | some (action, outcome) =>
    (({ s with settled := s.settled.eraseP fun e => e.1.id = actionId }).finishDispatch d m action
      outcome).2

/-- `close()`. -/
def shutdown (m : Moment) (s : RemoteControlPlane) : RemoteControlPlane :=
  let s := s.pendingActions.entries.foldl (fun s e => s.settle e.2 (.rejected none)) s
  let s := s.agentConnections.entries.foldl (fun s e => s.close d m e.2.connection) s
  { s with
    agentConnections := .empty
    agentHelloNonces := .empty
    store := { s.store with isOpen := false } }

/-- One step of the control plane. -/
def step (s : RemoteControlPlane) (e : Step) : RemoteControlPlane :=
  let m := e.moment
  match e.event with
  | .connect c => s.connect c
  | .message c payload => s.receive d m c payload
  | .messageFailed c => s.recover d m c
  | .socketClosed c => s.handleClose d m c
  | .enroll body => (s.handleAgentEnroll d m body).2
  | .createEnrollmentToken principal body => (s.createEnrollmentToken d m principal body).2
  | .patchArrived request principal agentRef => s.awaitPatch request principal agentRef
  | .patchBody request body => s.applyPatch d m request body
  | .revoke principal agentRef => s.revokeByRef d m principal agentRef
  | .callTool principal tool args => (s.callRemoteTool d m principal tool args).2
  | .authenticationFailed =>
    if s.store.isOpen then s.audit d m none none none "token_validation_failure" .warn [] else s
  | .actionTimeout actionId => s.timeOut actionId
  | .actionSettled actionId => s.resume d m actionId
  | .cleanup => s.cleanupEphemeralState m.now
  | .shutdown => s.shutdown d m

end RemoteControlPlane
end Remote
