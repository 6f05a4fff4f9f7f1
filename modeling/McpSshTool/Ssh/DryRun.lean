import McpSshTool.Library.Run
import McpSshTool.Ssh.CallReaches
import McpSshTool.Ssh.SessionManager

/-!
# Explain mode, as the configuration sets it

Whether a server whose configured mode is `explain` leaves its hosts alone, as long as no request
sets a mode itself.

* `Request` — the requests that open, close and use sessions, with `SessionManager.handle`, what
  they leave of the table of sessions, and `Request.task`, what they do in a session;
* `SetsNoMode` — the request leaves the mode to the server;
* `Dry` — whatever the host answers, nothing acts; `Plans` — the condition on a call under which it
  is so;
* `enforces_of_run` — the defaults make `enforce` of a mode that is not set, so every session has
  it;
* `configured_explain_dry_iff` — a run is dry exactly when all its steps plan.

The tools that list, report or plan are no requests here, for they never reach a session, and
neither is the closing of a tunnel, which undoes what an earlier call has done.
-/

open Library

namespace Ssh

open Program

/-! ### Requests -/

/-- What the providers of credentials resolve an alias to. They set the mode themselves. -/
def ConnectorCredentials : Type :=
  { params : ConnectionParams // params.policyMode = some .enforce }

/-- A request. The uuid is that of the session that it opens, if it opens one; the connection is an
error, or tells whether there is an SFTP channel. -/
inductive Request where
  | openSession (input : OpenSessionInput) (uuid : String) (time : ℕ)
      (connection : Except Failure Bool)
  | closeSession (sessionId : String)
  /-- The timer of the session manager. -/
  | cleanupExpiredSessions (time : ℕ)
  | call (toolCall : ToolCall) (time : ℕ)
  /-- `ssh_host_inspect`. A check that is absent is that of the operating system. -/
  | inspectHost (credentials : ConnectorCredentials) (checks : List (Option InspectionCheck))
      (uuid : String) (time : ℕ) (connection : Except Failure Bool)

def generateSessionId (uuid : String) : String := "ssh-" ++ uuid

/-- The checks of `inspectHost`, in its session. -/
def inspectHost (sessionId : String) : List (Option InspectionCheck) → Task Unit
  | [] => pure ()
  | none :: checks => do
    let _ ← getOSInfo sessionId
    inspectHost sessionId checks
  | some check :: checks => do
    let _ ← sessionOr (plainError "Inspection session expired unexpectedly.") sessionId
    let _ ← (.perform (.exec (.inspect (commandForCheck check)) (commandForCheck check)) .done :
      Task CommandResult)
    inspectHost sessionId checks

namespace Request

/-- The request does not set a mode. -/
def SetsNoMode : Request → Prop
  | openSession input _ _ _ => input.policyMode = none
  | _ => True

/-- What a request does in a session. -/
def task {rt : Runtime} (engine : PolicyEngine rt) (config : ServerConfig) : Request → Task Unit
  | .call toolCall _ => toolCall.task engine config
  | .inspectHost _ checks uuid _ _ => Ssh.inspectHost (generateSessionId uuid) checks
  | _ => pure ()

end Request

namespace SessionManager

variable {rt : Runtime} (engine : PolicyEngine rt) (m : SessionManager)

/-- What a request leaves of the table of sessions. -/
def handle : Request → SessionManager
  | .openSession input uuid time connection =>
    match input.params with
    | none => m
    | some params => (m.openSession engine params (generateSessionId uuid) time connection).2
  | .closeSession sessionId => (m.closeSession sessionId).2
  | .cleanupExpiredSessions time => m.cleanupExpiredSessions time
  | .call toolCall time => (m.getSession time toolCall.sessionId).2
  | .inspectHost credentials _ uuid time connection =>
    match m.openSession engine credentials.1 (generateSessionId uuid) time connection with
    | (.error _, m') => m'
    | (.ok _, m') => (m'.closeSession (generateSessionId uuid)).2

/-- The session that a request works in, if there is one. -/
def worksIn : Request → Option Session
  | .call toolCall time => (m.getSession time toolCall.sessionId).1.map SshSession.session
  | .inspectHost credentials _ uuid time connection =>
    ((m.openSession engine credentials.1 (generateSessionId uuid) time connection).2.stored
      (generateSessionId uuid)).map SshSession.session
  | _ => none

end SessionManager

/-! ### Dry runs -/

/-- The answers while a request is served: its session may go away, and the host answers as it
will. -/
def AnswersIn (looked : Option Session) : Event → Prop
  | ⟨.getSession _, answer⟩ => answer = none ∨ answer = looked
  | _ => True

variable {rt : Runtime} (engine : PolicyEngine rt) (config : ServerConfig)

/-- **Nothing acts**, in any way in which the request may be served. -/
def Dry (m : SessionManager) (request : Request) : Prop :=
  Always (AnswersIn (m.worksIn engine request)) (fun op => ¬op.Acts) (request.task engine config)

/-- The call finds no session, or something stops it in mode `enforce`. -/
def Plans (m : SessionManager) : Request → Prop
  | .call toolCall time =>
    ∀ s, (m.getSession time toolCall.sessionId).1 = some s →
      ¬toolCall.MayAct engine config s.sftp
  | _ => True

/-- Every session is in mode `enforce`. -/
def Enforces (m : SessionManager) : Prop :=
  ∀ sessionId s, m.stored sessionId = some s → s.info.policyMode = .enforce

variable {m : SessionManager} {looked : Option Session}

theorem exists_answersIn (looked : Option Session) (op : Operation) :
    ∃ answer, AnswersIn looked ⟨op, answer⟩ := by
  cases op with
  | getSession => exact ⟨none, .inl rfl⟩
  | randomUUID => exact ⟨"", trivial⟩
  | now => exact ⟨(0 : ℕ), trivial⟩
  | localFiles => exact ⟨fun _ => none, trivial⟩
  | _ => exact ⟨.error .unfinished, trivial⟩

theorem looks_answersIn {session : Session} (h : ∀ s, looked = some s → s = session) :
    Looks (AnswersIn looked) session := by
  intro sessionId s hanswer
  rcases hanswer with hanswer | hanswer
  · cases hanswer
  · exact h s hanswer.symm

theorem alive_answersIn (session : Session) : Alive (AnswersIn (some session)) session where
  session := fun _ => .inr rfl
  gone := fun _ => .inl rfl
  answer := by
    intro op answer hop
    cases op with
    | getSession sessionId => exact absurd rfl (hop sessionId)
    | _ => trivial

/-- An inspection only looks. -/
theorem inspectHost_performs (sessionId : String) (checks : List (Option InspectionCheck)) :
    Performs (AnswersIn looked) (fun op => ¬op.Acts) (inspectHost sessionId checks) := by
  induction checks with
  | nil => trivial
  | cons check checks ih =>
    cases check with
    | none =>
      have hlook : Performs (AnswersIn looked) (fun op => ¬op.Acts) (getOSInfo sessionId) :=
        ⟨id, fun _ _ => trivial⟩
      exact hlook.bind fun _ => ih
    | some check =>
      refine ⟨id, fun answer _ => ?_⟩
      cases answer with
      | none => trivial
      | some =>
        have hlook : Performs (AnswersIn looked) (fun op => ¬op.Acts)
            (.perform (.exec (.inspect (commandForCheck check)) (commandForCheck check)) .done :
              Task CommandResult) := ⟨fun h => h trivial, fun _ _ => trivial⟩
        exact hlook.bind fun _ => ih

/-! ### The mode of the sessions -/

theorem SshSession.policyMode_of_session_eq {s s' : SshSession} (h : s.session = s'.session) :
    s.info.policyMode = s'.info.policyMode := congrArg Session.policyMode h

theorem policyMode_of_setsNoMode {input : OpenSessionInput} {params : ConnectionParams}
    (hset : input.policyMode = none) (hparams : input.params = some params) :
    params.policyMode.getD .enforce = .enforce := by
  unfold OpenSessionInput.params at hparams
  split at hparams
  · cases hparams
  · obtain rfl := Option.some.inj hparams
    change (some (input.policyMode.getD .enforce)).getD .enforce = _
    rw [hset]
    rfl

theorem Enforces.openSession (h : Enforces m) {params : ConnectionParams}
    (hmode : params.policyMode.getD .enforce = .enforce) (sessionId : String) (time : ℕ)
    (connection : Except Failure Bool) :
    Enforces (m.openSession engine params sessionId time connection).2 := by
  intro k s hs
  rcases SessionManager.stored_of_openSession hs with hs | hs
  · exact h k s hs
  · rw [hs, hmode]

theorem Enforces.closeSession (h : Enforces m) (sessionId : String) :
    Enforces (m.closeSession sessionId).2 :=
  fun k s hs => h k s (SessionManager.stored_of_closeSession hs)

/-- **The step lemma.** A request that sets no mode adds no session in another mode. -/
theorem Enforces.handle (h : Enforces m) {request : Request} (hset : request.SetsNoMode) :
    Enforces (m.handle engine request) := by
  cases request with
  | openSession input =>
    dsimp only [SessionManager.handle]
    cases hparams : input.params with
    | none => exact h
    | some => exact h.openSession engine (policyMode_of_setsNoMode hset hparams) _ _ _
  | closeSession sessionId => exact h.closeSession sessionId
  | cleanupExpiredSessions =>
    exact fun k s hs => h k s (SessionManager.stored_of_cleanupExpiredSessions hs)
  | call =>
    intro k s hs
    obtain ⟨s', hs', heq⟩ := SessionManager.stored_after_getSession hs
    rw [SshSession.policyMode_of_session_eq heq, h k s' hs']
  | inspectHost credentials checks uuid time connection =>
    have hmode : credentials.1.policyMode.getD .enforce = .enforce := by rw [credentials.2]; rfl
    have hopen := h.openSession engine hmode (generateSessionId uuid) time connection
    dsimp only [SessionManager.handle]
    cases hresult : m.openSession engine credentials.1 (generateSessionId uuid) time connection with
    | mk result =>
      rw [hresult] at hopen
      cases result with
      | error => exact hopen
      | ok => exact hopen.closeSession _

/-- **The run lemma.** In a run in which no request sets a mode, every session is in mode
`enforce`. -/
theorem enforces_of_run {requests : List Request} (h : Enforces m)
    (hset : ∀ request ∈ requests, request.SetsNoMode) :
    Run.Along (SessionManager.handle engine) Enforces m requests := by
  induction requests generalizing m with
  | nil => exact h
  | cons request requests ih =>
    refine ⟨h, ih (h.handle engine (hset _ List.mem_cons_self)) fun r hr => ?_⟩
    exact hset r (List.mem_cons_of_mem _ hr)

/-! ### Exactness -/

/-- Without a session nothing acts. -/
theorem dry_of_none {toolCall : ToolCall} {time : ℕ}
    (hnone : (m.getSession time toolCall.sessionId).1 = none) :
    Dry engine config m (.call toolCall time) := by
  have hworks : m.worksIn engine (.call toolCall time) = none := by
    rw [SessionManager.worksIn, hnone]
    rfl
  unfold Dry
  rw [hworks]
  -- no lookup finds a session, so they find one that only explains
  let session : Session := { policyMode := .explain, sftp := false }
  have hlooks : Looks (AnswersIn none) session := looks_answersIn fun s hs => nomatch hs
  refine Ensures.always ((task_acts hlooks toolCall).weaken fun op hop hacts => ?_)
  obtain ⟨hmode, -⟩ := hop hacts
  cases hmode

/-- In a session in mode `enforce` nothing acts exactly where the call may not. -/
theorem dry_call_iff (hlawful : rt.Lawful) {toolCall : ToolCall} {time : ℕ} {s : SshSession}
    (hs : (m.getSession time toolCall.sessionId).1 = some s)
    (henforce : s.info.policyMode = .enforce) :
    Dry engine config m (.call toolCall time) ↔ ¬toolCall.MayAct engine config s.sftp := by
  have hworks : m.worksIn engine (.call toolCall time) = some s.session := by
    rw [SessionManager.worksIn, hs]
    rfl
  unfold Dry
  rw [hworks]
  constructor
  · intro hdry hmay
    have hreaches := task_reaches_acts config (alive_answersIn s.session) henforce hlawful hmay
    refine Reaches.not_always (exists_answersIn _) ?_ hdry
    exact hreaches.mono fun op hacts => not_not_intro hacts
  · intro hnot
    have hlooks : Looks (AnswersIn (some s.session)) s.session :=
      looks_answersIn fun s' hs' => (Option.some.inj hs').symm
    refine Ensures.always ((task_acts hlooks toolCall).weaken fun op hop hacts => ?_)
    exact hnot (hop hacts).2

/-- **A step is dry exactly when it plans**, while every session is in mode `enforce`. -/
theorem dry_iff_plans (hlawful : rt.Lawful) (h : Enforces m) (request : Request) :
    Dry engine config m request ↔ Plans engine config m request := by
  cases request with
  | call toolCall time =>
    cases hs : (m.getSession time toolCall.sessionId).1 with
    | none =>
      refine iff_of_true (dry_of_none engine config hs) fun s hs' => ?_
      rw [hs] at hs'
      cases hs'
    | some s =>
      obtain ⟨s', hs', heq⟩ := SessionManager.stored_of_getSession hs
      have henforce : s.info.policyMode = .enforce := by
        rw [SshSession.policyMode_of_session_eq heq, h _ s' hs']
      rw [dry_call_iff engine config hlawful hs henforce]
      constructor
      · intro hnot s' hs'
        rw [hs] at hs'
        obtain rfl := Option.some.inj hs'
        exact hnot
      · exact fun hplans => hplans s hs
  | inspectHost credentials checks =>
    exact iff_of_true (inspectHost_performs _ checks).always trivial
  | openSession =>
    exact iff_of_true (Ensures.always (Q := fun _ => True) trivial) trivial
  | closeSession => exact iff_of_true (Ensures.always (Q := fun _ => True) trivial) trivial
  | cleanupExpiredSessions =>
    exact iff_of_true (Ensures.always (Q := fun _ => True) trivial) trivial

/-- **A run of a server that is configured to explain is dry exactly when all its steps plan**: the
configured mode has no part in it. -/
theorem configured_explain_dry_iff (engine : PolicyEngine rt) (config : ServerConfig)
    (hlawful : rt.Lawful) (_hexplain : engine.config.mode = .explain) {m : SessionManager}
    (hempty : m.sessions = .empty) {requests : List Request}
    (hset : ∀ request ∈ requests, request.SetsNoMode) :
    Run.AllSteps (SessionManager.handle engine) (Dry engine config) m requests ↔
      Run.AllSteps (SessionManager.handle engine) (Plans engine config) m requests := by
  have hstart : Enforces m := by
    intro sessionId s hs
    rw [SessionManager.stored, hempty, OrderedMap.get?_empty] at hs
    cases hs
  have henforces := enforces_of_run engine hstart hset
  constructor
  · exact Run.AllSteps.of_along (fun m request hm =>
      (dry_iff_plans engine config hlawful hm request).mp)
      henforces
  · exact Run.AllSteps.of_along (fun m request hm =>
      (dry_iff_plans engine config hlawful hm request).mpr)
      henforces

/-! ### A session that is opened without a mode -/

/-- A request for a session that sets no mode. -/
def openWithoutMode : Request :=
  .openSession { host := "host", username := "user" } "1" 0 (.ok true)

/-- A write in that session. -/
def writeInSession : ToolCall := .fsWrite "ssh-1" "/tmp/file" "" none

theorem configured_explain_dry_sample :
    ∃ engine : PolicyEngine decimalRuntime, engine.config.mode = .explain ∧ ∀ config,
      (Run.AllSteps (SessionManager.handle engine) (Dry engine config) {}
          [openWithoutMode, .call writeInSession 1] ↔
        Run.AllSteps (SessionManager.handle engine) (Plans engine config) {}
          [openWithoutMode, .call writeInSession 1]) := by
  obtain ⟨engine, hengine⟩ := PolicyEngine.exists_engine decimalRuntime { mode := .explain }
    (by decide) (by decide) ⟨rfl, rfl⟩
  have hset : ∀ request ∈ [openWithoutMode, .call writeInSession 1], request.SetsNoMode := by
    intro request hrequest
    rcases List.mem_pair.mp hrequest with rfl | rfl
    · rfl
    · trivial
  refine ⟨engine, by rw [hengine], fun config => ?_⟩
  exact configured_explain_dry_iff engine config decimalRuntime_lawful (by rw [hengine]) rfl hset

/-- In a server that is configured to explain, a session opened without a mode is written in. -/
theorem configured_explain_writes :
    ∃ engine : PolicyEngine decimalRuntime, engine.config.mode = .explain ∧
      (∀ request ∈ [openWithoutMode, .call writeInSession 1], request.SetsNoMode) ∧ ∀ config,
        ¬Run.AllSteps (SessionManager.handle engine) (Dry engine config) {}
          [openWithoutMode, .call writeInSession 1] := by
  obtain ⟨engine, hengine⟩ := PolicyEngine.exists_engine decimalRuntime { mode := .explain }
    (by decide) (by decide) ⟨rfl, rfl⟩
  refine ⟨engine, by rw [hengine], ?_, fun config hdry => ?_⟩
  · intro request hrequest
    rcases List.mem_pair.mp hrequest with rfl | rfl
    · rfl
    · trivial
  let params : ConnectionParams := {
    host := "host", username := "user", ttlMs := some 900000, hostKeyPolicy := some .strict
    policyMode := some .enforce }
  let s : SshSession := SessionManager.opened {} params 0 true
  -- the connection is permitted, so the session is stored, in mode `enforce`
  have hopen : engine.assertAllowed (SessionManager.openContext params .enforce) =
      .ok (engine.evaluate (SessionManager.openContext params .enforce)) := by
    rw [engine.assertAllowed_eq, if_neg]
    rintro ⟨hdenied, -⟩
    refine hdenied (engine.permits_iff.mpr ?_)
    simp [PolicyEngine.denialWith, PolicyEngine.hostDenial, PolicyEngine.tunnelDenial,
      PolicyEngine.rootDenial, PolicyEngine.rawSudoDenial, PolicyEngine.commandDenial,
      PolicyEngine.pathsDenial, PolicyContext.paths, truthy, SessionManager.openContext, hengine,
      params]
  have hstored : SessionManager.handle engine {} openWithoutMode =
      { ({} : SessionManager) with sessions := OrderedMap.empty.set "ssh-1" s } := by
    change (SessionManager.openSession {} engine params "ssh-1" 0 (.ok true)).2 = _
    unfold SessionManager.openSession
    dsimp only
    rw [show params.policyMode.getD .enforce = .enforce from rfl, hopen]
    rfl
  have hlooked : ((SessionManager.handle engine {} openWithoutMode).getSession 1 "ssh-1").1 =
      some { s with info := { s.info with lastUsed := 1 } } := by
    rw [hstored]
    rfl
  refine (dry_call_iff engine config decimalRuntime_lawful hlooked rfl).mp hdry.2.1 ⟨?_, ?_⟩
  · unfold pathContext
    rw [engine.permits_paths_iff (by decide)]
    intro p hp
    obtain rfl : p = "/tmp/file" := by simpa using hp
    refine engine.pathDenial_eq_none_iff.mpr ⟨by decide, ?_, fun h => by cases h⟩
    rw [PolicyEngine.DenyCovers, PolicyEngine.denyLocations, hengine]
    rintro ⟨d, hd, -⟩
    exact absurd hd List.not_mem_nil
  · exact Nat.zero_le _

end Ssh
