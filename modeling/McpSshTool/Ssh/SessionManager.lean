import McpSshTool.Ssh.Process

/-!
# The session manager

`session.ts`: the table of open sessions.

* `ConnectionParamsSchema.parse` and `OpenSessionInput.params` — the arguments of
  `ssh_open_session`, with their defaults;
* `openSession` — a decision of the policy, room in the table, a connection, and the session that is
  stored. What the credentials, the connection and the request for an SFTP channel come to is a
  parameter;
* `getSession`, `closeSession`, `evictOldestSession`, `cleanupExpiredSessions`.

Each of them is taken in one piece: a session that is being closed is out of the table at once.
-/

open Library

namespace Ssh

inductive HostKeyPolicy where
  | strict | acceptNew | insecure
deriving DecidableEq, Repr

/-- What `openSession` reads of `ConnectionParams`, beside what the connection is made with. -/
structure ConnectionParams where
  host : String
  policyHost : Option String := none
  username : String
  port : Option ℕ := none
  ttlMs : Option ℕ := none
  strictHostKeyChecking : Option Bool := none
  hostKeyPolicy : Option HostKeyPolicy := none
  policyMode : Option PolicyMode := none
deriving DecidableEq

structure SessionInfo where
  host : String
  username : String
  port : ℕ
  createdAt : ℕ
  expiresAt : ℕ
  lastUsed : ℕ
  policyMode : PolicyMode
  hostKeyPolicy : HostKeyPolicy
deriving DecidableEq

structure SshSession where
  info : SessionInfo
  sftp : Bool
deriving DecidableEq

/-- What the services read of a session. -/
def SshSession.session (s : SshSession) : Session where
  policyMode := s.info.policyMode
  sftp := s.sftp

structure SessionResult where
  sessionId : String
  host : String
  username : String
  sftpAvailable : Bool
  expiresInMs : ℕ
  policyMode : PolicyMode
  hostKeyPolicy : HostKeyPolicy
  wouldConnect : Option Bool := none

structure SessionManager where
  sessions : OrderedMap String SshSession := .empty
  maxSessions : ℕ := 20
  defaultTtlMs : ℕ := 900000
  allowRootLogin : Bool := false
  hostKeyPolicy : HostKeyPolicy := .strict

/-! ### The arguments of `ssh_open_session` -/

/-- The arguments of `ssh_open_session`, beside what the connection is made with. -/
structure OpenSessionInput where
  host : String
  username : String
  port : Option ℕ := none
  readyTimeoutMs : Option ℕ := none
  ttlMs : Option ℕ := none
  strictHostKeyChecking : Option Bool := none
  hostKeyPolicy : Option HostKeyPolicy := none
  policyMode : Option PolicyMode := none

/-- `normalizeConnectionParams(ConnectionParamsSchema.parse(args))`, unless the schema refuses. -/
def OpenSessionInput.params (input : OpenSessionInput) : Option ConnectionParams :=
  if input.host = "" ∨ input.username = "" ∨
      (input.port.any fun port => port < 1 ∨ 65535 < port) ∨
      input.readyTimeoutMs.getD 20000 < 1000 ∨ input.ttlMs.getD 900000 < 10000 then none
  else some {
    host := input.host
    username := input.username
    port := input.port
    ttlMs := some (input.ttlMs.getD 900000)
    strictHostKeyChecking := input.strictHostKeyChecking
    hostKeyPolicy := some (input.hostKeyPolicy.getD .strict)
    policyMode := some (input.policyMode.getD .enforce) }

/-! ### Closing, lookups and eviction -/

namespace SessionManager

variable (m : SessionManager)

/-- The session that is stored under an id. -/
def stored (sessionId : String) : Option SshSession := m.sessions.get? sessionId

def closeSession (sessionId : String) : Bool × SessionManager :=
  match m.stored sessionId with
  | none => (false, m)
  | some _ => (true, { m with sessions := m.sessions.delete sessionId })

/-- `getSession`, at a time. -/
def getSession (time : ℕ) (sessionId : String) : Option SshSession × SessionManager :=
  match m.stored sessionId with
  | none => (none, m)
  | some session =>
    if time > session.info.expiresAt then (none, (m.closeSession sessionId).2)
    else
      let used := { session with info := { session.info with lastUsed := time } }
      (some used, { m with sessions := m.sessions.set sessionId used })

/-- The choice of `evictOldestSession`: the first of the sessions that were used least recently, if
that was before now. -/
def oldestSession (time : ℕ) : Option String :=
  (m.sessions.entries.foldl (fun (oldest : Option String × ℕ) entry =>
    if entry.2.info.lastUsed < oldest.2 then (some entry.1, entry.2.info.lastUsed) else oldest)
    (none, time)).1

def evictOldestSession (time : ℕ) : SessionManager :=
  match m.oldestSession time with
  | none => m
  | some sessionId => if sessionId = "" then m else (m.closeSession sessionId).2

def cleanupExpiredSessions (time : ℕ) : SessionManager :=
  { m with sessions := m.sessions.filter fun _ session => !decide (time > session.info.expiresAt) }

/-! ### Opening -/

def resolveHostKeyPolicy (params : ConnectionParams) : HostKeyPolicy :=
  match params.hostKeyPolicy, params.strictHostKeyChecking with
  | some policy, _ => policy
  | none, some true => .strict
  | none, some false => .insecure
  | none, none => m.hostKeyPolicy

/-- What `openSession` throws for an error on the way to a connection. -/
def connectionFailure (error : Failure) : Failure :=
  match error with
  | .sshMcp _ => error
  | _ =>
    let message := error.message
    if includes message "authentication" then
      createAuthError "SSH authentication failed"
        (some "Check your username, password, or SSH key configuration")
    else if includes message "timeout" || includes message "ETIMEDOUT" then
      createTimeoutError "SSH connection timeout"
        (some "Check if the host is reachable and the SSH service is running")
    else if includes message "ECONNREFUSED" then
      createConnectionError "SSH connection refused"
        (some "Check if the SSH service is running on the target port")
    else if includes (JsText.toLowerCase message) "host key" ||
        includes (JsText.toLowerCase message) "host denied" then
      createHostKeyError "SSH host key verification failed"
        (some "Check known_hosts, hostKeyPolicy, or expectedHostKeySha256")
    else createConnectionError ("Failed to establish SSH connection: " ++ message)
      (some "Verify the host, port, and network connectivity")

/-- The context of the decision on a connection. -/
def openContext (params : ConnectionParams) (mode : PolicyMode) : PolicyContext where
  action := .sshOpen
  host := some (params.policyHost.getD params.host)
  username := some params.username
  mode := some mode

/-- What `openSession` makes of a connection: its info and whether there is an SFTP channel. -/
def opened (params : ConnectionParams) (time : ℕ) (sftp : Bool) : SshSession where
  info := {
    host := params.host
    username := params.username
    port := params.port.getD 22
    createdAt := time
    expiresAt := time + params.ttlMs.getD m.defaultTtlMs
    lastUsed := time
    policyMode := params.policyMode.getD .enforce
    hostKeyPolicy := m.resolveHostKeyPolicy params }
  sftp

/-- What `openSession` returns. -/
def openResult (params : ConnectionParams) (sessionId : String) (sftp : Bool)
    (wouldConnect : Option Bool) : SessionResult where
  sessionId
  host := params.host
  username := params.username
  sftpAvailable := sftp
  expiresInMs := params.ttlMs.getD m.defaultTtlMs
  policyMode := params.policyMode.getD .enforce
  hostKeyPolicy := m.resolveHostKeyPolicy params
  wouldConnect

/-- `openSession`, for a fresh id at a time. The connection is an error, or tells whether there is
an SFTP channel. -/
def openSession {rt : Runtime} (engine : PolicyEngine rt) (params : ConnectionParams)
    (sessionId : String) (time : ℕ) (connection : Except Failure Bool) :
    Except Failure SessionResult × SessionManager :=
  let policyMode := params.policyMode.getD .enforce
  match engine.assertAllowed (openContext params policyMode) with
  | .error e => (.error e, m)
  | .ok policyDecision =>
    let rootDenied := params.username = "root" && !m.allowRootLogin
    if policyMode = .explain then
      (.ok (m.openResult params sessionId false (some (!rootDenied && policyDecision.allowed))), m)
    else if rootDenied then
      (.error (createPolicyError "Root SSH login is disabled by policy"
        (some ("Connect as an unprivileged user and use approved privilege escalation " ++
          "workflows."))), m)
    else
      -- room is made before it is known whether there will be a connection
      let m' := if m.sessions.size ≥ m.maxSessions then m.evictOldestSession time else m
      match connection with
      | .error e => (.error (connectionFailure e), m')
      | .ok sftp =>
        (.ok (m'.openResult params sessionId sftp none),
          { m' with sessions := m'.sessions.set sessionId (m'.opened params time sftp) })

/-! ### What is stored -/

variable {m} {sessionId k : String} {s : SshSession} {time : ℕ}

theorem stored_of_closeSession (h : (m.closeSession sessionId).2.stored k = some s) :
    m.stored k = some s := by
  unfold closeSession at h
  split at h
  · exact h
  · rw [stored, OrderedMap.get?_delete] at h
    split at h
    · cases h
    · exact h

theorem stored_of_evictOldestSession (h : (m.evictOldestSession time).stored k = some s) :
    m.stored k = some s := by
  unfold evictOldestSession at h
  split at h
  · exact h
  · split at h
    · exact h
    · exact stored_of_closeSession h

theorem stored_of_cleanupExpiredSessions (h : (m.cleanupExpiredSessions time).stored k = some s) :
    m.stored k = some s := by
  rw [stored, cleanupExpiredSessions, OrderedMap.get?_filter] at h
  exact (Option.filter_eq_some_iff.mp h).1

theorem stored_of_getSession (h : (m.getSession time sessionId).1 = some s) :
    ∃ s', m.stored sessionId = some s' ∧ s.session = s'.session := by
  unfold getSession at h
  split at h
  · cases h
  · next s' hs' =>
    split at h
    · cases h
    · obtain rfl := Option.some.inj h
      exact ⟨s', hs', rfl⟩

/-- A lookup leaves what was stored, but for the time of its last use. -/
theorem stored_after_getSession (h : (m.getSession time sessionId).2.stored k = some s) :
    ∃ s', m.stored k = some s' ∧ s.session = s'.session := by
  unfold getSession at h
  split at h
  · exact ⟨s, h, rfl⟩
  · next s' hs' =>
    split at h
    · exact ⟨s, stored_of_closeSession h, rfl⟩
    · rw [stored, OrderedMap.get?_set] at h
      split at h
      · next hk =>
        obtain rfl := Option.some.inj h
        exact ⟨s', hk ▸ hs', rfl⟩
      · exact ⟨s, h, rfl⟩

/-- **What a request for a session adds to the table** has the mode that it sets, or `enforce`. -/
theorem stored_of_openSession {rt : Runtime} {engine : PolicyEngine rt} {params : ConnectionParams}
    {connection : Except Failure Bool}
    (h : (m.openSession engine params sessionId time connection).2.stored k = some s) :
    m.stored k = some s ∨ s.info.policyMode = params.policyMode.getD .enforce := by
  unfold openSession at h
  dsimp only at h
  split at h
  · exact .inl h
  · split at h
    · exact .inl h
    · split at h
      · exact .inl h
      · have hroom : ∀ k s, (if m.sessions.size ≥ m.maxSessions then m.evictOldestSession time
            else m).stored k = some s → m.stored k = some s := by
          intro k s h
          split at h
          · exact stored_of_evictOldestSession h
          · exact h
        split at h
        · exact .inl (hroom k s h)
        · rw [stored, OrderedMap.get?_set] at h
          split at h
          · obtain rfl := Option.some.inj h
            exact .inr rfl
          · exact .inl (hroom k s h)

end SessionManager
end Ssh
