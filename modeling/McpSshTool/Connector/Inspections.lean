import McpSshTool.Connector.CredentialCommand
import McpSshTool.Ssh.DryRun
import McpSshTool.Ssh.SessionPool

/-!
# Inspections under way

The server behind a connector: calls of tools come in, and the inspections that they start wait for
their credentials, for their connection, for each of their checks and for the close of their
session, all of them side by side.

* `Inspection`, `ConnectorServer` — the state, with the session pool that all inspections work on;
* `ConnectorEvent`, `ConnectorServer.step` — one step: what an `await` has waited for has come, and
  the code goes on to the next. Any list of events is an interleaving;
* `perform_cases` — what performing an operation does to the pool and to what was performed.
-/

open Library Ssh

namespace Connector

/-! ### State -/

/-- What `inspectHost` waits for. -/
inductive Phase where
  /-- Its credentials. -/
  | resolving
  /-- The connection of a call of `openSession` with its credentials. -/
  | opening (credentials : LoginParams) (call : ℕ)
  /-- A check, in the session that was opened with its credentials; the rest of its checks is a
  program. -/
  | checking (credentials : LoginParams) (sessionId : String) (rest : Ssh.Task Unit)

/-- `inspectHost`, between two awaits. -/
structure Inspection where
  input : HostInspectInput
  phase : Phase

/-- The call of `openSession` that an inspection waits for. -/
def Inspection.call? (x : Inspection) : Option ℕ :=
  match x.phase with
  | .opening _ call => some call
  | _ => none

/-- The session of an inspection. -/
def Inspection.session? (x : Inspection) : Option String :=
  match x.phase with
  | .checking _ sessionId _ => some sessionId
  | _ => none

/-- Something that was performed in a session, the alias that the session is for, and what it was
opened with. -/
structure Performed where
  hostAlias : String
  credentials : LoginParams
  sessionId : String
  op : Operation

/-- **The server.** -/
structure ConnectorServer where
  pool : SessionPool
  inspections : Slots Inspection := .empty
  /-- What was performed on hosts. -/
  performed : List Performed := []
  /-- The calls that other providers were asked about. -/
  elsewhere : List (Option String) := []

/-- What a server is set up with. -/
structure Setting where
  rt : Runtime
  engine : PolicyEngine rt
  ids : Identifiers
  replies : ReplyRuntime
  config : ConnectorConfig

namespace ConnectorServer

/-- A server without sessions. -/
def fresh (manager : SessionManager) : ConnectorServer := { pool := SessionPool.fresh manager }

variable (d : Setting) (S : ConnectorServer)

/-! ### Calls -/

/-- A call of a tool. The tools that report start nothing. -/
def call (rawToolName : String) (args : Value) : ConnectorServer :=
  match dispatch d.config.toolProfile rawToolName with
  | .connector .hostInspect =>
    match hostInspectSchema args with
    | none => S
    | some input => { S with inspections := S.inspections.add ⟨input, .resolving⟩ }
  | .elsewhere toolName => { S with elsewhere := S.elsewhere ++ [toolName] }
  | _ => S

/-! ### Inspections -/

/-- The end of an inspection that has a session. What is left is the close of the session. -/
def finish (i : ℕ) (sessionId : String) : ConnectorServer :=
  { S with
    pool := S.pool.closeSession .inspection sessionId
    inspections := S.inspections.remove i }

/-- The checks that are left. When there are none, or one has failed, the session is closed. -/
def proceed (i : ℕ) (credentials : LoginParams) (sessionId : String) :
    Ssh.Task Unit → ConnectorServer
  | .done _ => S.finish i sessionId
  | .perform op rest =>
    { S with inspections := S.inspections.update i fun x =>
        { x with phase := .checking credentials sessionId (.perform op rest) } }

/-- The credentials of an inspection have come, or an error; it calls `openSession`. The provider
`command` gives none before its command has settled. -/
def resolved (i : ℕ) (resolvedHost : Except Failure ResolvedHost) (child : List ChildEvent)
    (now later : ℕ) : ConnectorServer :=
  match S.inspections.get? i with
  | some ⟨input, .resolving⟩ =>
    let reply := (Run.run (CredentialRun.step d.replies) {} child).settled
    if d.config.credentialProvider = .command ∧ (truthy d.config.credentialCommand).isSome ∧
        reply.isNone then S
    else
      match resolveConnectorCredentials d.config input.hostAlias resolvedHost
          (reply.getD (.error .unfinished)) with
      | .error _ => { S with inspections := S.inspections.remove i }
      | .ok credentials =>
        let call := S.pool.opening.next
        let pool := S.pool.openSession d.engine d.ids credentials.toConnectionParams now later
        if (pool.opening.get? call).isSome then
          { S with
            pool
            inspections := S.inspections.update i fun x =>
              { x with phase := .opening credentials call } }
        else
          -- the call was refused before it has awaited anything
          { S with pool, inspections := S.inspections.remove i }
  | _ => S

/-- The connection of an inspection has come, or an error. -/
def connected (i : ℕ) (connection : Except Failure Bool) : ConnectorServer :=
  match S.inspections.get? i with
  | some ⟨input, .opening credentials call⟩ =>
    match S.pool.opening.get? call, connection with
    | none, _ => S
    | some _, .error e =>
      { S with
        pool := S.pool.connected call (.error e)
        inspections := S.inspections.remove i }
    | some o, .ok sftp =>
      ({ S with pool := S.pool.connected call (.ok sftp) } : ConnectorServer).proceed i credentials
        o.sessionId (inspectHost o.sessionId input.checks)
  | _ => S

/-- An operation of an inspection is performed and answered. The server looks its sessions up
itself. -/
def perform (i : ℕ) (hostAlias : String) (credentials : LoginParams) (sessionId : String)
    (time : ℕ) (answer : (op : Operation) → Answer op) :
    (op : Operation) → (Answer op → Ssh.Task Unit) → ConnectorServer
  | .getSession k, rest =>
    ({ S with pool := (S.pool.getSession time k).2 } : ConnectorServer).proceed i credentials
      sessionId (rest ((S.pool.getSession time k).1.map SshSession.session))
  | .getOSInfo k, rest =>
    let looked : ConnectorServer := { S with pool := (S.pool.getSession time k).2 }
    match (S.pool.getSession time k).1 with
    | none =>
      looked.proceed i credentials sessionId
        (rest (.error (plainError ("Session " ++ k ++ " not found or expired"))))
    | some _ =>
      ({ looked with
        performed := S.performed ++ [⟨hostAlias, credentials, sessionId, .getOSInfo k⟩] } :
          ConnectorServer).proceed i credentials sessionId (rest (answer (.getOSInfo k)))
  | op, rest =>
    ({ S with performed := S.performed ++ [⟨hostAlias, credentials, sessionId, op⟩] } :
      ConnectorServer).proceed i credentials sessionId (rest (answer op))

/-- An inspection goes on with its checks. -/
def answered (i time : ℕ) (answer : (op : Operation) → Answer op) : ConnectorServer :=
  match S.inspections.get? i with
  | some ⟨input, .checking credentials sessionId (.perform op rest)⟩ =>
    S.perform i input.hostAlias credentials sessionId time answer op rest
  | _ => S

end ConnectorServer

/-! ### Steps -/

/-- What happens to the server. -/
inductive ConnectorEvent where
  | call (rawToolName : String) (args : Value)
  /-- What the SSH configuration has for the alias of an inspection, and what its credential command
  has done. -/
  | resolved (i : ℕ) (resolvedHost : Except Failure ResolvedHost) (child : List ChildEvent)
      (now later : ℕ)
  | connected (i : ℕ) (connection : Except Failure Bool)
  /-- The host answers a check as it will. -/
  | answered (i time : ℕ) (answer : (op : Operation) → Answer op)
  /-- The listeners of a call of `closeSession` have settled, or their time is over. -/
  | sessionClosed (n : ℕ)
  /-- The timer of `cleanupInterval`. -/
  | cleanup (time : ℕ)

/-- **One step.** -/
def ConnectorServer.step (d : Setting) (S : ConnectorServer) : ConnectorEvent → ConnectorServer
  | .call rawToolName args => S.call d rawToolName args
  | .resolved i resolvedHost child now later => S.resolved d i resolvedHost child now later
  | .connected i connection => S.connected i connection
  | .answered i time answer => S.answered i time answer
  | .sessionClosed n => { S with pool := S.pool.sessionClosed n }
  | .cleanup time => { S with pool := S.pool.cleanupExpiredSessions time }

namespace ConnectorServer

variable {S : ConnectorServer}

/-- **What performing an operation does**: the pool is as it was or has been looked up, the
operation was performed on the host unless it is a look-up or its session is gone, and the checks go
on with some answer. -/
theorem perform_cases (i : ℕ) (hostAlias : String) (credentials : LoginParams) (sessionId : String)
    (time : ℕ) (answer : (op : Operation) → Answer op) (op : Operation)
    (rest : Answer op → Ssh.Task Unit) :
    ∃ pool performed answered,
      S.perform i hostAlias credentials sessionId time answer op rest =
        ({ S with pool, performed } : ConnectorServer).proceed i credentials sessionId
          (rest answered) ∧
      (pool = S.pool ∨ ∃ k, pool = (S.pool.getSession time k).2) ∧
      (performed = S.performed ∨ (∀ k, op ≠ .getSession k) ∧
        performed = S.performed ++ [⟨hostAlias, credentials, sessionId, op⟩]) := by
  cases op with
  | getSession k => exact ⟨_, _, _, rfl, .inr ⟨k, rfl⟩, .inl rfl⟩
  | getOSInfo k =>
    cases hfound : (S.pool.getSession time k).1 with
    | none =>
      refine ⟨(S.pool.getSession time k).2, S.performed,
        .error (plainError ("Session " ++ k ++ " not found or expired")), ?_, .inr ⟨k, rfl⟩,
        .inl rfl⟩
      dsimp only [perform]
      rw [hfound]
    | some =>
      refine ⟨(S.pool.getSession time k).2, _, answer (.getOSInfo k), ?_, .inr ⟨k, rfl⟩,
        .inr ⟨nofun, rfl⟩⟩
      dsimp only [perform]
      rw [hfound]
  | _ => exact ⟨_, _, _, rfl, .inl rfl, .inr ⟨nofun, rfl⟩⟩

end ConnectorServer
end Connector
