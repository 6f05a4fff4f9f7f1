import McpSshTool.Library.Run
import McpSshTool.Library.Slots
import McpSshTool.Ssh.SessionManager

/-!
# The session manager between its awaits

`session.ts` with what its calls wait for, and the two tools that open and close sessions
(`session.provider.ts`, `connector.provider.ts`) with the metric that they keep.

* `SessionPool` — the manager's table, the calls of `openSession` that wait for their connection,
  the calls of `closeSession` that wait for their listeners, and `metrics.sessions`;
* `SessionEvent`, `SessionPool.step` — one step: a call up to its `await`, or from there to its end.
  Any list of events is an interleaving, with any clock;
* `SessionPool.victim?` — the session that a call would evict.

A session that is being closed is in the table until its listeners have settled, or their time is
over. A tool that awaits a call goes on as soon as the call returns.
-/

open Library

namespace Ssh

/-- What `generateSessionId` gives, call by call: never the same twice. -/
structure Identifiers where
  draw : ℕ → String
  injective : Function.Injective draw

/-! ### The metric -/

/-- `metrics.sessions`. -/
structure SessionMetrics where
  created : ℕ := 0
  closed : ℕ := 0
  active : ℕ := 0
deriving DecidableEq, Repr

def SessionMetrics.recordSessionCreated (metrics : SessionMetrics) : SessionMetrics :=
  { metrics with created := metrics.created + 1, active := metrics.active + 1 }

/-- `recordSessionClosed`; the number of active sessions is never less than zero. -/
def SessionMetrics.recordSessionClosed (metrics : SessionMetrics) : SessionMetrics :=
  { metrics with closed := metrics.closed + 1, active := metrics.active - 1 }

/-! ### Calls in flight -/

/-- Who called `closeSession`. -/
inductive Closer where
  /-- `ssh_close_session`. -/
  | sessionTool
  /-- `ssh_host_inspect`, at its end. -/
  | inspection
  /-- `evictOldestSession`, for a call of `openSession`. -/
  | eviction (call : ℕ)
  /-- `getSession` or `cleanupExpiredSessions`. -/
  | expiry
deriving DecidableEq, Repr

/-- What a caller of `closeSession` records when it returns. -/
def SessionMetrics.closeReturned (metrics : SessionMetrics) (closer : Closer) (result : Bool) :
    SessionMetrics :=
  match closer with
  | .sessionTool => if result then metrics.recordSessionClosed else metrics
  | .inspection => metrics.recordSessionClosed
  | .eviction _ | .expiry => metrics

/-- A call of `openSession` that waits for its connection. -/
structure Opening where
  sessionId : String
  params : ConnectionParams
  now : ℕ
  /-- The session that it has evicted. -/
  victim : Option String
deriving DecidableEq

/-- A call of `closeSession` that has found its session. -/
structure Closing where
  sessionId : String
  closer : Closer
deriving DecidableEq

/-- **The sessions, and the calls about them.** -/
structure SessionPool where
  manager : SessionManager := {}
  opening : Slots Opening := .empty
  closing : Slots Closing := .empty
  /-- The listeners that `notifySessionClose` is about to call: the call of `closeSession`, and its
  session. -/
  notified : List (ℕ × String) := []
  metrics : SessionMetrics := {}
  /-- What the calls of `openSession` came to. -/
  opened : List (ℕ × Except Failure SessionResult) := []
  /-- The calls of `closeSession` that returned `true`. -/
  closed : List Closing := []

namespace SessionPool

/-- A manager without sessions. -/
def fresh (manager : SessionManager) : SessionPool :=
  { manager := { manager with sessions := .empty } }

variable (s : SessionPool)

/-- The session is in the table. -/
def Holds (sessionId : String) : Prop := (s.manager.stored sessionId).isSome

instance (sessionId : String) : Decidable (s.Holds sessionId) :=
  inferInstanceAs (Decidable (_ = true))

/-- The number of sessions in the table. -/
def held : ℕ := s.manager.sessions.size

/-! ### Closing -/

/-- `closeSession`, up to where it waits for its listeners. -/
def closeSession (closer : Closer) (sessionId : String) : SessionPool :=
  match s.manager.stored sessionId with
  | none => { s with metrics := s.metrics.closeReturned closer false }
  | some _ =>
    { s with
      closing := s.closing.add ⟨sessionId, closer⟩
      notified := s.notified ++ [(s.closing.next, sessionId)] }

/-- The rest of `closeSession`. -/
def sessionClosed (n : ℕ) : SessionPool :=
  match s.closing.get? n with
  | none => s
  | some closing =>
    { s with
      manager := { s.manager with sessions := s.manager.sessions.delete closing.sessionId }
      closing := s.closing.remove n
      metrics := s.metrics.closeReturned closing.closer true
      closed := s.closed ++ [closing] }

/-- `getSession`, at a time. -/
def getSession (time : ℕ) (sessionId : String) : Option SshSession × SessionPool :=
  match s.manager.stored sessionId with
  | none => (none, s)
  | some session =>
    if time > session.info.expiresAt then (none, s.closeSession .expiry sessionId)
    else
      let used := { session with info := { session.info with lastUsed := time } }
      (some used,
        { s with manager := { s.manager with sessions := s.manager.sessions.set sessionId used } })

/-- The sessions that `cleanupExpiredSessions` finds. -/
def expiredSessions (time : ℕ) : List String :=
  (s.manager.sessions.entries.filter fun entry => time > entry.2.info.expiresAt).map Prod.fst

def cleanupExpiredSessions (time : ℕ) : SessionPool :=
  (s.expiredSessions time).foldl (fun s sessionId => s.closeSession .expiry sessionId) s

/-! ### Opening -/

/-- The session that `openSession` evicts at a time, where the policy lets it get that far. -/
def victim? (time : ℕ) : Option String :=
  if s.held ≥ s.manager.maxSessions then truthy (s.manager.oldestSession time) else none

/-- `evictOldestSession`, where there is no room. -/
def makeRoom (time : ℕ) : SessionPool :=
  match s.victim? time with
  | none => s
  | some victim => s.closeSession (.eviction s.opening.next) victim

/-- What `openSession` comes to before it has awaited anything. -/
def openAnswer (call : ℕ) (result : Except Failure SessionResult) : SessionPool :=
  { s with opening := s.opening.skip, opened := s.opened ++ [(call, result)] }

variable {rt : Runtime} (engine : PolicyEngine rt) (ids : Identifiers)

/-- What `openSession` does where nothing forbids it: it makes room, and waits for its credentials
and the connection. -/
def awaitConnection (params : ConnectionParams) (now later : ℕ) : SessionPool :=
  { s.makeRoom later with
    opening := s.opening.add ⟨ids.draw s.opening.next, params, now, s.victim? later⟩ }

/-- `openSession`, up to where it waits. The clock is read twice, the second time for the
eviction. -/
def openSession (params : ConnectionParams) (now later : ℕ) : SessionPool :=
  let call := s.opening.next
  let sessionId := ids.draw call
  let policyMode := params.policyMode.getD .enforce
  match engine.assertAllowed (SessionManager.openContext params policyMode) with
  | .error e => s.openAnswer call (.error e)
  | .ok policyDecision =>
    let rootDenied := params.username = "root" && !s.manager.allowRootLogin
    if policyMode = .explain then
      -- the tool takes the explanation for a session
      { s.openAnswer call (.ok (s.manager.openResult params sessionId false
          (some (!rootDenied && policyDecision.allowed)))) with
        metrics := s.metrics.recordSessionCreated }
    else if rootDenied then
      s.openAnswer call (.error (createPolicyError "Root SSH login is disabled by policy"
        (some ("Connect as an unprivileged user and use approved privilege escalation " ++
          "workflows."))))
    else s.awaitConnection ids params now later

/-- The rest of `openSession`: an error on the way to the connection, or a connection and whether it
has an SFTP channel. -/
def connected (n : ℕ) (connection : Except Failure Bool) : SessionPool :=
  match s.opening.get? n with
  | none => s
  | some o =>
    match connection with
    | .error e =>
      { s with
        opening := s.opening.remove n
        opened := s.opened ++ [(n, .error (SessionManager.connectionFailure e))] }
    | .ok sftp =>
      { s with
        manager := { s.manager with
          sessions := s.manager.sessions.set o.sessionId (s.manager.opened o.params o.now sftp) }
        opening := s.opening.remove n
        metrics := s.metrics.recordSessionCreated
        opened := s.opened ++ [(n, .ok (s.manager.openResult o.params o.sessionId sftp none))] }

end SessionPool

/-! ### Steps -/

/-- What happens to the sessions. -/
inductive SessionEvent where
  /-- A tool calls `openSession`. -/
  | openSession (params : ConnectionParams) (now later : ℕ)
  /-- The credentials and the connection of a call have come, or an error. -/
  | connected (n : ℕ) (connection : Except Failure Bool)
  /-- `ssh_close_session`. -/
  | closeSession (sessionId : String)
  /-- `ssh_host_inspect` is done with its session. -/
  | inspected (sessionId : String)
  /-- The listeners of a call have settled, or their time is over. -/
  | sessionClosed (n : ℕ)
  /-- A service calls `getSession`. -/
  | getSession (time : ℕ) (sessionId : String)
  /-- The timer of `cleanupInterval`. -/
  | cleanup (time : ℕ)

/-- **One step.** What the manager closes by itself is part of its other steps. -/
def SessionPool.step {rt : Runtime} (engine : PolicyEngine rt) (ids : Identifiers)
    (s : SessionPool) : SessionEvent → SessionPool
  | .openSession params now later => s.openSession engine ids params now later
  | .connected n connection => s.connected n connection
  | .closeSession sessionId => s.closeSession .sessionTool sessionId
  | .inspected sessionId => s.closeSession .inspection sessionId
  | .sessionClosed n => s.sessionClosed n
  | .getSession time sessionId => (s.getSession time sessionId).2
  | .cleanup time => s.cleanupExpiredSessions time

/-! ### What the steps do -/

namespace SessionManager

/-- `openSession` gets as far as making room and connecting. -/
def Proceeds {rt : Runtime} (m : SessionManager) (engine : PolicyEngine rt)
    (params : ConnectionParams) : Prop :=
  (engine.assertAllowed (openContext params (params.policyMode.getD .enforce))).isOk = true ∧
    params.policyMode.getD .enforce ≠ .explain ∧ (params.username = "root" →
      m.allowRootLogin = true)

instance {rt : Runtime} (m : SessionManager) (engine : PolicyEngine rt)
    (params : ConnectionParams) : Decidable (m.Proceeds engine params) :=
  inferInstanceAs (Decidable (_ ∧ _ ∧ _))

theorem Proceeds.rootDenied_eq_false {rt : Runtime} {m : SessionManager}
    {engine : PolicyEngine rt} {params : ConnectionParams} (h : m.Proceeds engine params) :
    (decide (params.username = "root") && !m.allowRootLogin) = false := by
  by_cases husername : params.username = "root"
  · rw [h.2.2 husername, Bool.not_true, Bool.and_false]
  · rw [decide_eq_false husername, Bool.false_and]

private theorem foldl_oldest (entries : List (String × SshSession)) (oldest : Option String × ℕ)
    {k : String}
    (h : (entries.foldl (fun (oldest : Option String × ℕ) entry =>
      if entry.2.info.lastUsed < oldest.2 then (some entry.1, entry.2.info.lastUsed) else oldest)
      oldest).1 = some k) :
    oldest.1 = some k ∨ k ∈ entries.map Prod.fst := by
  induction entries generalizing oldest with
  | nil => exact .inl h
  | cons entry entries ih =>
    rw [List.foldl_cons] at h
    rcases ih _ h with hk | hk
    · split at hk
      · obtain rfl := Option.some.inj hk
        exact .inr List.mem_cons_self
      · exact .inl hk
    · exact .inr (List.mem_cons_of_mem _ hk)

theorem mem_keys_of_oldestSession {m : SessionManager} {time : ℕ} {k : String}
    (h : m.oldestSession time = some k) : k ∈ m.sessions.keys :=
  (foldl_oldest _ _ h).resolve_left nofun

end SessionManager

namespace SessionPool

variable {rt : Runtime} {engine : PolicyEngine rt} {ids : Identifiers} {s : SessionPool}
  {params : ConnectionParams} {closer : Closer} {sessionId k : String} {now later time n : ℕ}

theorem holds_iff : s.Holds k ↔ k ∈ s.manager.sessions.keys := OrderedMap.mem_keys.symm

theorem holds_of_stored {session : SshSession} (h : s.manager.stored k = some session) :
    s.Holds k :=
  Option.isSome_iff_exists.mpr ⟨session, h⟩

theorem holds_of_victim? (h : s.victim? time = some k) : s.Holds k := by
  unfold victim? at h
  split at h
  · exact holds_iff.mpr (SessionManager.mem_keys_of_oldestSession
      (Option.filter_eq_some_iff.mp h).1)
  · cases h

theorem closeSession_of_holds (h : s.Holds k) :
    s.closeSession closer k =
      { s with
        closing := s.closing.add ⟨k, closer⟩
        notified := s.notified ++ [(s.closing.next, k)] } := by
  obtain ⟨session, hsession⟩ := Option.isSome_iff_exists.mp h
  rw [closeSession, hsession]

theorem closeSession_of_not_holds (h : ¬ s.Holds k) :
    s.closeSession closer k = { s with metrics := s.metrics.closeReturned closer false } := by
  rw [closeSession, Option.not_isSome_iff_eq_none.mp h]

theorem makeRoom_of_none (h : s.victim? time = none) : s.makeRoom time = s := by
  rw [makeRoom, h]

theorem makeRoom_of_some (h : s.victim? time = some k) :
    s.makeRoom time =
      { s with
        closing := s.closing.add ⟨k, .eviction s.opening.next⟩
        notified := s.notified ++ [(s.closing.next, k)] } := by
  rw [makeRoom, h]
  exact closeSession_of_holds (holds_of_victim? h)

section Frames

variable (s closer k time n)

@[simp] theorem manager_closeSession : (s.closeSession closer k).manager = s.manager := by
  unfold closeSession
  split <;> rfl

@[simp] theorem opening_closeSession : (s.closeSession closer k).opening = s.opening := by
  unfold closeSession
  split <;> rfl

@[simp] theorem opened_closeSession : (s.closeSession closer k).opened = s.opened := by
  unfold closeSession
  split <;> rfl

@[simp] theorem closed_closeSession : (s.closeSession closer k).closed = s.closed := by
  unfold closeSession
  split <;> rfl

@[simp] theorem manager_makeRoom : (s.makeRoom time).manager = s.manager := by
  unfold makeRoom
  split
  · rfl
  · exact manager_closeSession s _ _

@[simp] theorem opened_makeRoom : (s.makeRoom time).opened = s.opened := by
  unfold makeRoom
  split
  · rfl
  · exact opened_closeSession s _ _

@[simp] theorem closed_makeRoom : (s.makeRoom time).closed = s.closed := by
  unfold makeRoom
  split
  · rfl
  · exact closed_closeSession s _ _

@[simp] theorem opening_sessionClosed : (s.sessionClosed n).opening = s.opening := by
  unfold sessionClosed
  split <;> rfl

@[simp] theorem opened_sessionClosed : (s.sessionClosed n).opened = s.opened := by
  unfold sessionClosed
  split <;> rfl

end Frames

/-- A call that gets as far makes room, and waits. -/
theorem openSession_of_proceeds (h : s.manager.Proceeds engine params) :
    s.openSession engine ids params now later = s.awaitConnection ids params now later := by
  obtain ⟨hallowed, hmode, -⟩ := id h
  unfold openSession
  dsimp only
  cases hdecision : engine.assertAllowed
      (SessionManager.openContext params (params.policyMode.getD .enforce)) with
  | error e =>
    rw [hdecision] at hallowed
    cases hallowed
  | ok decision =>
    dsimp only
    rw [if_neg hmode, h.rootDenied_eq_false, if_neg Bool.false_ne_true]

/-- Any other call is answered at once, and only an explanation is counted. -/
theorem openSession_of_not_proceeds (ids : Identifiers) (now later : ℕ)
    (h : ¬ s.manager.Proceeds engine params) :
    ∃ result metrics, s.openSession engine ids params now later =
        { s.openAnswer s.opening.next result with metrics := metrics } ∧
      (params.policyMode.getD .enforce ≠ .explain → metrics = s.metrics) ∧
      ∀ time connection, s.manager.openSession engine params (ids.draw s.opening.next) time
        connection = (result, s.manager) := by
  unfold openSession SessionManager.openSession
  dsimp only
  cases hdecision : engine.assertAllowed
      (SessionManager.openContext params (params.policyMode.getD .enforce)) with
  | error e => exact ⟨.error e, s.metrics, rfl, fun _ => rfl, fun _ _ => rfl⟩
  | ok decision =>
    dsimp only
    by_cases hmode : params.policyMode.getD .enforce = .explain
    · simp only [if_pos hmode]
      exact ⟨_, _, rfl, fun hne => absurd hmode hne, fun _ _ => rfl⟩
    · have hroot : (decide (params.username = "root") && !s.manager.allowRootLogin) = true := by
        refine Classical.byContradiction fun hroot => h ⟨by rw [hdecision]; rfl, hmode, ?_⟩
        intro husername
        rw [husername] at hroot
        simpa using hroot
      simp only [if_neg hmode, hroot, if_true]
      exact ⟨_, s.metrics, rfl, fun _ => rfl, fun _ _ => rfl⟩

theorem getSession_cases (s : SessionPool) (time : ℕ) (k : String) :
    (s.getSession time k).2 = s ∨ (s.getSession time k).2 = s.closeSession .expiry k ∨
      ∃ old used, s.manager.stored k = some old ∧ (s.getSession time k).2 =
        { s with manager := { s.manager with sessions := s.manager.sessions.set k used } } := by
  unfold getSession
  cases hsession : s.manager.stored k with
  | none => exact .inl rfl
  | some session =>
    dsimp only
    split
    · exact .inr (.inl rfl)
    · exact .inr (.inr ⟨session, _, rfl, rfl⟩)

theorem cleanup_rec {P : SessionPool → Prop} (hs : P s)
    (hclose : ∀ s' k, P s' → P (s'.closeSession .expiry k)) :
      P (s.cleanupExpiredSessions time) := by
  unfold cleanupExpiredSessions
  generalize s.expiredSessions time = expired
  induction expired generalizing s with
  | nil => exact hs
  | cons k expired ih => exact ih (hclose s k hs)

end SessionPool
end Ssh
