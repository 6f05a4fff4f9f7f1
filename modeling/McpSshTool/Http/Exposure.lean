import McpSshTool.Http.Server

/-!
# Exposure of the local tools

Whether a request that carries no credential can reach the local MCP server of a process that
listens beyond the loopback interface.

* `Listening.Unexposed` — none can, in any run;
* `Holds` — what every request that waits, and every request that was delivered, has passed;
* `unexposed_iff` — when none can. The check at startup is left out with the remote control plane,
  which has the endpoint `/mcp` to itself; the routes of the older transport stay with the local
  server, behind a guard that lets everything pass where no bearer token is configured.
-/

open Library

namespace Http

namespace Listening

variable {rt : Runtime} (server : Listening rt)

/-- **The request carries a credential of the server**: its bearer token, or an access token. -/
def Authorised (request : HttpRequest) : Prop :=
  (∃ token, Ssh.truthy server.bearerToken = some token ∧
    CarriesBearerToken rt request.authorization token) ∨
  ∃ config, server.verificationConfig request = some config ∧
    CarriesAccessToken rt request.authorization config

/-- **No unauthenticated exposure**: in every run of the server, whatever reaches the local tools
carries a credential. -/
def Unexposed : Prop :=
  ∀ events id request transport,
    Output.delivered id request transport ∈ (Run.run server.step {} events).outputs →
      server.Authorised request

/-- The server asks for no credential and has a route to the local tools. -/
def Exposed : Prop :=
  server.config.remoteEnabled = true ∧ server.config.auth.mode = .bearer ∧
    Ssh.truthy server.bearerToken = none ∧ server.config.http.enableLegacySse = true ∧
    0 < server.config.http.maxSessions

end Listening

/-! ### What has passed -/

/-- Every request at an `await` is in `Q`, and every request that was delivered is in `P`. -/
structure Holds (Q : Pending → Prop) (P : HttpRequest → Prop) (s : HttpServer) : Prop where
  pending : ∀ id p, s.pending.get? id = some p → Q p
  delivered : ∀ id request transport, .delivered id request transport ∈ s.outputs → P request

namespace Holds

variable {Q : Pending → Prop} {P : HttpRequest → Prop} {s : HttpServer}

theorem empty : Holds Q P {} := by
  constructor
  · intro id p hget
    cases hget
  · intro id request transport hmem
    cases hmem

theorem sessions (h : Holds Q P s) (sessions : OrderedMap String HttpSession) :
    Holds Q P { s with sessions } :=
  ⟨h.pending, h.delivered⟩

theorem respond (h : Holds Q P s) (id status : ℕ) (error : Option String) :
    Holds Q P (s.respond id status error) := by
  refine ⟨h.pending, fun id' request transport hmem => ?_⟩
  rcases List.mem_append.mp hmem with hmem | hmem
  · exact h.delivered id' request transport hmem
  · cases List.mem_singleton.mp hmem

theorem opened (h : Holds Q P s) (id : ℕ) (request : HttpRequest) :
    Holds Q P { s with outputs := s.outputs ++ [.opened id request] } := by
  refine ⟨h.pending, fun id' request' transport hmem => ?_⟩
  rcases List.mem_append.mp hmem with hmem | hmem
  · exact h.delivered id' request' transport hmem
  · cases List.mem_singleton.mp hmem

theorem deliver (h : Holds Q P s) (id : ℕ) {request : HttpRequest} (hrequest : P request)
    (transport : Transport) : Holds Q P (s.deliver id request transport) := by
  refine ⟨h.pending, fun id' request' transport' hmem => ?_⟩
  rcases List.mem_append.mp hmem with hmem | hmem
  · exact h.delivered id' request' transport' hmem
  · obtain ⟨-, rfl, -⟩ := Output.delivered.inj (List.mem_singleton.mp hmem)
    exact hrequest

theorem await (h : Holds Q P s) (id : ℕ) {p : Pending} (hp : Q p) : Holds Q P (s.await id p) := by
  refine ⟨fun id' p' hget => ?_, h.delivered⟩
  change (s.pending.set id p).get? id' = some p' at hget
  by_cases heq : id' = id
  · rw [heq, OrderedMap.get?_set_self] at hget
    rw [← Option.some.inj hget]
    exact hp
  · rw [OrderedMap.get?_set_of_ne _ heq] at hget
    exact h.pending id' p' hget

theorem resume (h : Holds Q P s) (id : ℕ) : Holds Q P (s.resume id) := by
  refine ⟨fun id' p' hget => ?_, h.delivered⟩
  change (s.pending.delete id).get? id' = some p' at hget
  by_cases heq : id' = id
  · rw [heq, OrderedMap.get?_delete_self] at hget
    cases hget
  · rw [OrderedMap.get?_delete_of_ne _ heq] at hget
    exact h.pending id' p' hget

variable {rt : Runtime} {server : Listening rt}

theorem cleanup (h : Holds Q P s) (now : ℤ) :
    Holds Q P (server.cleanupExpiredHttpSessions now s) :=
  h.sessions _

theorem getHttpSession (h : Holds Q P s) (sessionId : Option String) (now : ℤ) :
    Holds Q P (server.getHttpSession sessionId now s).1 := by
  unfold Listening.getHttpSession
  split
  · exact h
  split
  · exact h
  split
  · exact h.sessions _
  · exact h.sessions _

theorem canOpenHttpSession (h : Holds Q P s) (id : ℕ) (now : ℤ) :
    Holds Q P (server.canOpenHttpSession id now s).1 := by
  unfold Listening.canOpenHttpSession
  dsimp only
  split
  · exact h.cleanup now
  · exact (h.cleanup now).respond _ _ _

theorem handleLegacySseConnection (h : Holds Q P s) (id : ℕ) (request : HttpRequest) (m : Moment) :
    Holds Q P (server.handleLegacySseConnection id request m s) := by
  unfold Listening.handleLegacySseConnection
  dsimp only
  split
  · exact ((h.canOpenHttpSession id m.now).opened id request).sessions _
  · exact h.canOpenHttpSession id m.now

section Passed

variable {request : HttpRequest} (hrequest : P request)
include hrequest

theorem handleLegacyMessage (h : Holds Q P s) (id : ℕ) (m : Moment) :
    Holds Q P (server.handleLegacyMessage id request m s) := by
  unfold Listening.handleLegacyMessage
  split
  · exact h.respond _ _ _
  split
  · exact h.respond _ _ _
  dsimp only
  split
  · exact (h.getHttpSession _ _).deliver id hrequest _
  · exact (h.getHttpSession _ _).respond _ _ _

theorem handleStreamableRequest (h : Holds Q P s) (hconnecting : Q (.connecting request)) (id : ℕ)
    (parsedBody : Option Value) (m : Moment) :
    Holds Q P (server.handleStreamableRequest id request parsedBody m s) := by
  have hcleaned : Holds Q P (server.cleanupExpiredHttpSessions m.now s) := h.cleanup m.now
  have hfound : Holds Q P (server.getHttpSession request.mcpSessionId m.now
      (server.cleanupExpiredHttpSessions m.now s)).1 :=
    hcleaned.getHttpSession request.mcpSessionId m.now
  unfold Listening.handleStreamableRequest
  dsimp only
  split
  · split
    · split
      · exact (hfound.canOpenHttpSession id m.now).await id hconnecting
      · exact hfound.canOpenHttpSession id m.now
    · exact hfound.respond _ _ _
  · split
    · exact hfound.respond _ _ _
    · exact hfound.deliver id hrequest _

theorem route (h : Holds Q P s) (hreading : Q (.reading request))
    (hconnecting : Q (.connecting request)) (id : ℕ) (pathname : String) (m : Moment) :
    Holds Q P (server.route id request pathname m s) := by
  unfold Listening.route
  split
  · split
    · exact h.respond _ _ _
    split
    · exact h.await id hreading
    · exact h.handleStreamableRequest hrequest hconnecting id none m
  split
  · split
    · exact h.respond _ _ _
    · exact h.handleLegacySseConnection id request m
  split
  · split
    · exact h.respond _ _ _
    · exact h.handleLegacyMessage hrequest id m
  · exact h.respond _ _ _

end Passed

end Holds
namespace Listening

variable {rt : Runtime} (server : Listening rt)

/-! ### A guard that asks for a credential -/

/-- What waits behind the guard carries a credential. -/
def Guarded : Pending → Prop
  | .reading request => server.Authorised request
  | .connecting request => server.Authorised request
  | _ => True

variable {server} {s : HttpServer}

/-- What is answered before the guard is an answer and nothing else. -/
theorem handleRequest_preserves {I : HttpServer → Prop} (h : I s)
    (hrespond : ∀ id status error, I (s.respond id status error)) (id : ℕ) (request : HttpRequest)
    (m : Moment)
    (hguard : ∀ pathname, request.pathname = some pathname →
      (server.config.remoteEnabled = true → handlesHttp pathname request.method = false) →
      I (server.rejectIfUnauthorized id request pathname m s)) :
    I (server.handleRequest id request m s) := by
  unfold handleRequest
  split
  · exact hrespond _ _ _
  · next pathname hpathname =>
    split
    · exact h
    · next hhandled =>
      split
      · split
        · exact hrespond _ _ _
        · exact hrespond _ _ _
      split
      · exact hrespond _ _ _
      split
      · split
        · exact hrespond _ _ _
        · exact hrespond _ _ _
      · refine hguard pathname hpathname fun hremote => ?_
        exact Bool.eq_false_iff.mpr fun hhandles => hhandled ⟨hremote, hhandles⟩

theorem holds_rejectIfUnauthorized
    (hguard : server.config.auth.mode = .oauth ∨ (Ssh.truthy server.bearerToken).isSome = true)
    (h : Holds server.Guarded server.Authorised s) (id : ℕ) (request : HttpRequest)
    (pathname : String) (m : Moment) :
    Holds server.Guarded server.Authorised
      (server.rejectIfUnauthorized id request pathname m s) := by
  unfold rejectIfUnauthorized
  split
  · exact h.respond _ _ _
  split
  · split
    · exact h.respond _ _ _
    · exact h.await id trivial
  next hmode =>
  split
  · next hnone =>
    rw [hnone] at hguard
    exact absurd hguard (not_or_intro hmode Bool.false_ne_true)
  · next token htoken =>
    split
    · exact h.respond _ _ _
    · next hvalid =>
      rw [Bool.not_eq_true', Bool.not_eq_false] at hvalid
      have hauthorised : server.Authorised request :=
        .inl ⟨token, htoken, carriesBearerToken_of_valid hvalid⟩
      exact h.route hauthorised hauthorised hauthorised id pathname m

theorem holds_verified (h : Holds server.Guarded server.Authorised s) (id : ℕ)
    (request : HttpRequest) (m : Moment) :
    Holds server.Guarded server.Authorised (server.verified id request m s) := by
  unfold verified
  split
  · next config pathname hconfig hpathname =>
    split
    · split
      · exact h.respond _ _ _
      · exact h.respond _ _ _
    · next hvalid =>
      rw [Bool.not_eq_true', Bool.not_eq_false] at hvalid
      have hauthorised : server.Authorised request :=
        .inr ⟨config, hconfig, carriesAccessToken_of_valid hvalid⟩
      exact h.route hauthorised hauthorised hauthorised id pathname m
  · exact h

/-- **What a step of a guarded server keeps.** -/
theorem holds_step
    (hguard : server.config.auth.mode = .oauth ∨ (Ssh.truthy server.bearerToken).isSome = true)
    (h : Holds server.Guarded server.Authorised s) (e : HttpEvent) :
    Holds server.Guarded server.Authorised (server.step s e) := by
  cases e with
  | request id request m =>
    exact handleRequest_preserves h h.respond id request m fun pathname _ _ =>
      holds_rejectIfUnauthorized hguard h id request pathname m
  | verified id m =>
    simp only [step]
    split
    · exact holds_verified (h.resume id) id _ m
    · exact h
  | bodyRead id body m =>
    simp only [step]
    split
    · next request hget =>
      have hauthorised : server.Authorised request := h.pending id _ hget
      cases body with
      | parsed body =>
        exact (h.resume id).handleStreamableRequest hauthorised hauthorised id body m
      | tooLarge => exact (h.resume id).respond _ _ _
      | malformed => exact (h.resume id).respond _ _ _
    · exact h
  | connected id =>
    simp only [step]
    split
    · next request hget =>
      have hauthorised : server.Authorised request := h.pending id _ hget
      exact (h.deliver id hauthorised .streamable).await id trivial
    · exact h
  | sessionInitialized id =>
    simp only [step]
    split
    · exact (h.resume id).sessions _
    · exact h
  | transportClosed => exact h.sessions _
  | cleanup m => exact h.cleanup m.now

theorem unexposed_of_guarded
    (hguard : server.config.auth.mode = .oauth ∨ (Ssh.truthy server.bearerToken).isSome = true) :
    server.Unexposed := by
  intro events id request transport hmem
  have hrun : Holds server.Guarded server.Authorised (Run.run server.step {} events) :=
    Run.run_of_preserved (P := Holds server.Guarded server.Authorised)
      (fun s e h _ => holds_step hguard h e) Holds.empty
      (Run.allSteps_of_forall (fun _ _ => trivial) _ events)
  exact hrun.delivered id request transport hmem

/-! ### A server without a route -/

/-- Nothing waits, nothing was delivered, and there is no session. -/
structure Idle (s : HttpServer) : Prop where
  holds : Holds (fun _ => False) (fun _ => False) s
  sessions : ∀ sessionId, s.sessions.get? sessionId = none

theorem Idle.respond (h : Idle s) (id status : ℕ) (error : Option String) :
    Idle (s.respond id status error) :=
  ⟨h.holds.respond id status error, h.sessions⟩

theorem Idle.cleanup (h : Idle s) (now : ℤ) : Idle (server.cleanupExpiredHttpSessions now s) := by
  refine ⟨h.holds.cleanup now, fun sessionId => ?_⟩
  change (s.sessions.filter _).get? sessionId = none
  rw [OrderedMap.get?_filter, h.sessions]
  rfl

theorem Idle.pending (h : Idle s) (id : ℕ) : s.pending.get? id = none := by
  cases hget : s.pending.get? id with
  | none => rfl
  | some p => exact (h.holds.pending id p hget).elim

theorem Idle.getHttpSession (h : Idle s) (sessionId : Option String) (now : ℤ) :
    server.getHttpSession sessionId now s = (s, none) := by
  unfold Listening.getHttpSession
  split
  · rfl
  · rw [h.sessions]

theorem Idle.handleLegacySseConnection (hmax : ¬0 < server.config.http.maxSessions) (h : Idle s)
    (id : ℕ) (request : HttpRequest) (m : Moment) :
    Idle (server.handleLegacySseConnection id request m s) := by
  have hclosed : server.canOpenHttpSession id m.now s =
      ((server.cleanupExpiredHttpSessions m.now s).respond id 503
        (some "HTTP MCP session limit reached"), false) := by
    refine if_neg fun hroom => hmax ?_
    exact lt_of_le_of_lt (Int.natCast_nonneg _) hroom
  unfold Listening.handleLegacySseConnection
  rw [hclosed]
  exact (h.cleanup m.now).respond _ _ _

theorem Idle.handleLegacyMessage (h : Idle s) (id : ℕ) (request : HttpRequest) (m : Moment) :
    Idle (server.handleLegacyMessage id request m s) := by
  unfold Listening.handleLegacyMessage
  split
  · exact h.respond _ _ _
  split
  · exact h.respond _ _ _
  · rw [h.getHttpSession]
    exact h.respond _ _ _

/-- The routes that are left to the local server beside the control plane. -/
theorem Idle.route
    (hroutes : server.config.http.enableLegacySse = true → ¬0 < server.config.http.maxSessions)
    (h : Idle s) (id : ℕ) (request : HttpRequest) {pathname : String}
    (hpathname : pathname ≠ "/mcp")
    (m : Moment) : Idle (server.route id request pathname m s) := by
  unfold Listening.route
  rw [if_neg hpathname]
  split
  · next hsse =>
    split
    · exact h.respond _ _ _
    · exact h.handleLegacySseConnection (hroutes hsse.1) id request m
  split
  · split
    · exact h.respond _ _ _
    · exact h.handleLegacyMessage id request m
  · exact h.respond _ _ _

theorem Idle.rejectIfUnauthorized (hmode : server.config.auth.mode = .bearer)
    (htoken : Ssh.truthy server.bearerToken = none)
    (hroutes : server.config.http.enableLegacySse = true → ¬0 < server.config.http.maxSessions)
    (h : Idle s) (id : ℕ) (request : HttpRequest) {pathname : String}
    (hpathname : pathname ≠ "/mcp")
    (m : Moment) : Idle (server.rejectIfUnauthorized id request pathname m s) := by
  unfold Listening.rejectIfUnauthorized
  split
  · exact h.respond _ _ _
  · rw [if_neg (by rw [hmode]; decide), htoken]
    exact h.route hroutes id request hpathname m

/-- **What a step keeps of a server whose guard asks for nothing**, with the control plane. -/
theorem Idle.step (hremote : server.config.remoteEnabled = true)
    (hmode : server.config.auth.mode = .bearer) (htoken : Ssh.truthy server.bearerToken = none)
    (hroutes : server.config.http.enableLegacySse = true → ¬0 < server.config.http.maxSessions)
    (h : Idle s) (e : HttpEvent) : Idle (server.step s e) := by
  cases e with
  | request id request m =>
    refine handleRequest_preserves h h.respond id request m fun pathname _ hhandles => ?_
    refine h.rejectIfUnauthorized hmode htoken hroutes id request ?_ m
    -- the control plane has the endpoint to itself
    rintro rfl
    have := hhandles hremote
    simp [handlesHttp] at this
  | verified =>
    simp only [Listening.step, h.pending]
    exact h
  | bodyRead =>
    simp only [Listening.step, h.pending]
    exact h
  | connected =>
    simp only [Listening.step, h.pending]
    exact h
  | sessionInitialized =>
    simp only [Listening.step, h.pending]
    exact h
  | transportClosed sessionId =>
    refine ⟨h.holds.sessions _, fun sessionId' => ?_⟩
    change (s.sessions.delete sessionId).get? sessionId' = none
    rw [OrderedMap.get?_delete, h.sessions]
    exact ite_self none
  | cleanup m => exact h.cleanup m.now

theorem unexposed_of_idle (hremote : server.config.remoteEnabled = true)
    (hmode : server.config.auth.mode = .bearer) (htoken : Ssh.truthy server.bearerToken = none)
    (hroutes : server.config.http.enableLegacySse = true → ¬0 < server.config.http.maxSessions) :
    server.Unexposed := by
  intro events id request transport hmem
  have hrun : Idle (Run.run server.step {} events) :=
    Run.run_of_preserved (P := Idle)
      (fun s e h _ => Idle.step hremote hmode htoken hroutes h e)
      ⟨Holds.empty, fun _ => rfl⟩ (Run.allSteps_of_forall (fun _ _ => trivial) _ events)
  exact (hrun.holds.delivered id request transport hmem).elim

/-! ### A server with a route -/

/-- A request for a stream of the older transport, without a credential. -/
def streamRequest : HttpRequest := { method := "GET", pathname := some "/sse" }

/-- A message for the stream with this identifier, without a credential. -/
def messageRequest (sessionId : String) : HttpRequest where
  method := "POST"
  pathname := some "/messages"
  sessionIdParameter := some (some sessionId)

/-- The two requests, one after the other. -/
def intrusion (server : Listening rt) : List HttpEvent :=
  [.request 0 streamRequest ⟨0, "s"⟩,
    .request 1 (messageRequest "s") ⟨server.config.http.sessionIdleTtlMs, "t"⟩]

/-- What passes the guard without a credential goes to the routes. -/
theorem handleRequest_of_exposed (hexposed : server.Exposed) (id : ℕ) {request : HttpRequest}
    {pathname : String} (hpathname : request.pathname = some pathname)
    (hhandles : handlesHttp pathname request.method = false)
    (hpages : pathname ≠ "/.well-known/oauth-protected-resource" ∧ pathname ≠ "/healthz" ∧
      pathname ≠ "/mcp")
    (horigin : request.origin = none) (m : Moment) :
    server.handleRequest id request m s = server.route id request pathname m s := by
  obtain ⟨-, hmode, htoken, -, -⟩ := hexposed
  have hallowed : isOriginAllowed request.origin server.config.http.allowedOrigins = true := by
    rw [horigin]
    rfl
  have hguard : server.rejectIfUnauthorized id request pathname m s =
      server.route id request pathname m s := by
    unfold rejectIfUnauthorized
    rw [hallowed, if_neg (by decide), if_neg (by rw [hmode]; decide), htoken]
  unfold handleRequest
  rw [hpathname]
  dsimp only
  rw [if_neg fun h => Bool.false_ne_true (hhandles.symm.trans h.2), if_neg fun h => hpages.1 h.1,
    if_neg fun h => hpages.2.1 h.1, if_neg fun h => hpages.2.2 h.1, hguard]

theorem not_unexposed_of_exposed (hexposed : server.Exposed) : ¬server.Unexposed := by
  have hsse : server.config.http.enableLegacySse = true := hexposed.2.2.2.1
  have hroom : ((0 : ℕ) : ℤ) < server.config.http.maxSessions := hexposed.2.2.2.2
  -- the stream opens a session
  have hstream : server.step {} (.request 0 streamRequest ⟨0, "s"⟩) =
      { sessions := OrderedMap.empty.set "s" ⟨.sse, 0⟩, outputs := [.opened 0 streamRequest] } := by
    have hopen : server.canOpenHttpSession 0 0 {} = ({}, true) := if_pos hroom
    change server.handleRequest 0 streamRequest ⟨0, "s"⟩ {} = _
    rw [handleRequest_of_exposed hexposed 0 (show streamRequest.pathname = some "/sse" from rfl)
      (by decide) (by decide) rfl]
    unfold route
    rw [if_neg (by decide), if_pos ⟨hsse, rfl⟩, if_neg (by decide)]
    unfold handleLegacySseConnection
    rw [hopen]
    rfl
  -- the message finds it
  have hmessage : ∀ s : HttpServer, s.sessions.get? "s" = some ⟨.sse, 0⟩ →
      Output.delivered 1 (messageRequest "s") .sse ∈ (server.step s
        (.request 1 (messageRequest "s") ⟨server.config.http.sessionIdleTtlMs, "t"⟩)).outputs := by
    intro s hsession
    have hfound : (server.getHttpSession (some "s") server.config.http.sessionIdleTtlMs s).2 =
        some ⟨.sse, server.config.http.sessionIdleTtlMs⟩ := by
      have hlive : server.isHttpSessionExpired ⟨.sse, 0⟩ server.config.http.sessionIdleTtlMs =
          false := by
        simp [isHttpSessionExpired]
      unfold getHttpSession
      rw [Ssh.truthy_some (by decide)]
      dsimp only
      rw [hsession]
      dsimp only
      rw [hlive]
      rfl
    change _ ∈ (server.handleRequest 1 (messageRequest "s") _ s).outputs
    rw [handleRequest_of_exposed hexposed 1
      (show (messageRequest "s").pathname = some "/messages" from rfl) (by decide) (by decide) rfl]
    unfold route
    rw [if_neg (by decide), if_neg fun h => absurd h.2 (by decide), if_pos ⟨hsse, rfl⟩,
      if_neg (by decide)]
    unfold handleLegacyMessage
    rw [show (messageRequest "s").sessionIdParameter = some (some "s") from rfl]
    dsimp only
    rw [if_neg (by decide), if_pos (by rw [hfound]; rfl)]
    exact List.mem_append_right _ (List.mem_singleton.mpr rfl)
  have hrun : Output.delivered 1 (messageRequest "s") .sse ∈
      (Run.run server.step {} server.intrusion).outputs := by
    rw [intrusion, Run.run_cons, hstream]
    exact hmessage _ (OrderedMap.get?_set_self _ _ _)
  intro h
  have hauthorised := h _ _ _ _ hrun
  rcases hauthorised with ⟨token, htoken, -⟩ | ⟨config, -, -, token, -, -, -, -, htoken, -⟩
  · rw [hexposed.2.2.1] at htoken
    cases htoken
  · cases htoken

/-- **When nothing reaches the local tools without a credential**, on a host that is not loopback:
unless the control plane is on, the guard asks for no credential, and the older transport is
enabled with room for a session. -/
theorem unexposed_iff (server : Listening rt)
    (hhost : isLoopbackHost server.config.http.host = false) :
    server.Unexposed ↔ ¬server.Exposed := by
  refine ⟨fun h hexposed => not_unexposed_of_exposed hexposed h, fun h => ?_⟩
  by_cases hguard : server.config.auth.mode = .oauth ∨
      (Ssh.truthy server.bearerToken).isSome = true
  · exact unexposed_of_guarded hguard
  rw [not_or, Bool.not_eq_true, Option.isSome_eq_false_iff, Option.isNone_iff_eq_none] at hguard
  obtain ⟨hoauth, htoken⟩ := hguard
  have hmode : server.config.auth.mode = .bearer := by
    cases hmode : server.config.auth.mode with
    | bearer => rfl
    | oauth => exact absurd hmode hoauth
  cases hremote : server.config.remoteEnabled with
  | true =>
    refine unexposed_of_idle hremote hmode htoken fun hsse hroom => ?_
    exact h ⟨hremote, hmode, htoken, hsse, hroom⟩
  | false =>
    -- without the control plane, the server would not have started
    have hstarted := server.started
    unfold validateStartup at hstarted
    rw [hremote] at hstarted
    rcases hasAuth_of_validate hstarted hhost with hsome | hmode'
    · rw [htoken] at hsome
      cases hsome
    · exact absurd (Option.some.inj hmode') hoauth

end Listening

/-- A runtime whose parser reads nothing and whose verifier accepts nothing. -/
def sampleRuntime : Runtime where
  url _ := none
  withPathname publicUrl _ := publicUrl
  sha256 bytes := bytes
  readFileSync _ := none
  jwtVerify _ _ _ _ _ _ := none
  isInitializeRequest _ := false

/-- A control plane on all interfaces, without a credential of the local server. -/
def sampleServer (enableLegacySse : Bool) : Listening sampleRuntime where
  config := {
    http := { host := "0.0.0.0", allowedOrigins := ["https://example.com"], enableLegacySse }
    remoteEnabled := true }
  bearerToken := none
  bearerToken_eq := rfl
  started := rfl

/-- Without the older transport, its local tools are out of reach. -/
theorem Listening.unexposed_iff_control_plane : (sampleServer false).Unexposed :=
  (Listening.unexposed_iff (sampleServer false) (by decide +kernel)).mpr fun h =>
    Bool.false_ne_true h.2.2.2.1

/-- **With the older transport, a message that carries nothing reaches them.** -/
theorem legacy_transport_exposed :
    isLoopbackHost (sampleServer true).config.http.host = false ∧
      ¬(sampleServer true).Unexposed :=
  ⟨by decide +kernel, Listening.not_unexposed_of_exposed ⟨rfl, rfl, rfl, rfl, by decide⟩⟩

end Http
