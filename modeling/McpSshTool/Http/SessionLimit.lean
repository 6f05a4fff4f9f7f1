import McpSshTool.Http.Server

/-!
# The limit on HTTP sessions

Whether the server ever holds more MCP sessions than `maxSessions`, over every interleaving of
requests, closing transports and idle sessions. The limit is checked when a request asks for a
session; that of a streamable transport is stored only when the transport has been connected and has
read the request.

* `openings` — the transports that have been let in and whose session is not stored yet;
* `AsksToOpen`, `LeavesRoom` — the steps that check the limit, and those that would pass the check
  even if the openings were counted;
* `sessions_within_limit` — over every run whose steps all leave room;
* `burst_exceeds_limit` — two initialize requests at once.
-/

open Library

namespace Http

/-! ### Counting -/

/-- A transport that has been let in, and whose session is not stored yet. -/
def Pending.isOpening : Pending → Bool
  | .connecting _ => true
  | .initializing => true
  | .verifying _ => false
  | .reading _ => false

namespace HttpServer

/-- How many transports have been let in without a session. -/
def openings (s : HttpServer) : ℕ := (s.pending.values.filter Pending.isOpening).length

/-- The sessions, and those that are being opened. -/
def weight (s : HttpServer) : ℕ := s.sessions.size + s.openings

variable {s : HttpServer} {p : Pending} {id : ℕ}

theorem openings_await (s : HttpServer) (id : ℕ) (p : Pending) :
    (s.await id p).openings ≤ (if p.isOpening then 1 else 0) + s.openings := by
  have hperm : List.Subperm (s.pending.set id p).values (p :: s.pending.values) :=
    OrderedMap.values_set_subperm s.pending id p
  have hle := (hperm.filter Pending.isOpening).length_le
  rw [List.filter_cons] at hle
  split at hle
  · next hp =>
    rw [if_pos hp]
    rw [List.length_cons] at hle
    exact Nat.add_comm 1 _ ▸ hle
  · next hp =>
    rw [if_neg hp, Nat.zero_add]
    exact hle

theorem openings_resume_le (s : HttpServer) (id : ℕ) : (s.resume id).openings ≤ s.openings :=
  ((OrderedMap.values_delete_sublist s.pending id).filter _).length_le

theorem openings_resume (h : s.pending.get? id = some p) (hp : p.isOpening = true) :
    (s.resume id).openings + 1 = s.openings := by
  have hlength := ((OrderedMap.values_delete_perm h).filter Pending.isOpening).length_eq
  rw [List.filter_cons_of_pos hp] at hlength
  exact hlength

theorem size_set_of_some {sessions : OrderedMap String HttpSession} {k : String} {old : HttpSession}
    (h : sessions.get? k = some old) (v : HttpSession) : (sessions.set k v).size =
      sessions.size := by
  rw [← OrderedMap.length_keys, OrderedMap.keys_set_of_some h, OrderedMap.length_keys]

theorem size_delete_le (sessions : OrderedMap String HttpSession) (k : String) :
    (sessions.delete k).size ≤ sessions.size :=
  List.length_filter_le _ _

end HttpServer

/-! ### Who asks -/

/-- The moment of a step that may check the limit. -/
def HttpEvent.moment : HttpEvent → Option Moment
  | .request _ _ m => some m
  | .verified _ m => some m
  | .bodyRead _ _ m => some m
  | _ => none

namespace Listening

variable {rt : Runtime} (server : Listening rt)

/-- The guard lets the request through at once: no access token has to be verified for it. -/
def LetsThrough (request : HttpRequest) : Prop :=
  isOriginAllowed request.origin server.config.http.allowedOrigins = true ∧
    server.config.auth.mode ≠ .oauth ∧
    ∀ token, Ssh.truthy server.bearerToken = some token →
      isBearerAuthorizationValid rt request.authorization token = true

/-- The request is for the stream of the older transport. -/
def OpensSse (request : HttpRequest) : Prop :=
  server.config.http.enableLegacySse = true ∧ request.pathname = some "/sse" ∧
    request.method = "GET"

/-- The request initializes a session, and is for none that there is. -/
def Initializes (s : HttpServer) (request : HttpRequest) (body : Option Value) (now : ℤ) : Prop :=
  request.method = "POST" ∧ (body.map rt.isInitializeRequest).getD false = true ∧
    (server.getHttpSession request.mcpSessionId now (server.cleanupExpiredHttpSessions now s)).2 =
      none

/-- **The step checks the limit.** -/
def AsksToOpen (s : HttpServer) : HttpEvent → Prop
  | .request _ request _ => server.LetsThrough request ∧ server.OpensSse request
  | .verified id m =>
    ∃ request config, s.pending.get? id = some (.verifying request) ∧
      server.verificationConfig request = some config ∧
      isOAuthAuthorizationValid rt m.now request.authorization config = true ∧
      server.OpensSse request
  | .bodyRead id (.parsed body) m =>
    ∃ request, s.pending.get? id = some (.reading request) ∧ server.Initializes s request body m.now
  | _ => False

/-- The number of sessions that have not expired. -/
def live (now : ℤ) (s : HttpServer) : ℕ := (server.cleanupExpiredHttpSessions now s).sessions.size

/-- There is room at a time, if there is any, beside the sessions that are being opened too. -/
def Roomy (now : ℤ) (s : HttpServer) : Prop :=
  (server.live now s : ℤ) < server.config.http.maxSessions →
    (server.live now s : ℤ) + s.openings < server.config.http.maxSessions

/-- **A step leaves room**: where it passes the check of the limit, it would pass it with the
sessions counted that are being opened. -/
def LeavesRoom (s : HttpServer) (e : HttpEvent) : Prop :=
  server.AsksToOpen s e → ∀ m, e.moment = some m → server.Roomy m.now s

/-! ### What each part adds -/

variable {server} {s : HttpServer} {id : ℕ} {request : HttpRequest} {now : ℤ} {m : Moment}

theorem live_le (now : ℤ) (s : HttpServer) : server.live now s ≤ s.sessions.size :=
  List.length_filter_le _ _

theorem weight_cleanup (now : ℤ) (s : HttpServer) :
    (server.cleanupExpiredHttpSessions now s).weight ≤ s.weight :=
  Nat.add_le_add_right (live_le now s) _

theorem weight_getHttpSession (sessionId : Option String) (now : ℤ) (s : HttpServer) :
    (server.getHttpSession sessionId now s).1.weight ≤ s.weight := by
  unfold getHttpSession
  split
  · exact Nat.le_refl _
  · split
    · exact Nat.le_refl _
    · next session hsession =>
      split
      · exact Nat.add_le_add_right (HttpServer.size_delete_le _ _) _
      · exact Nat.add_le_add_right (HttpServer.size_set_of_some hsession _).le _

theorem getHttpSession_congr (s s' : HttpServer) (h : s.sessions = s'.sessions)
    (sessionId : Option String) (now : ℤ) :
    (server.getHttpSession sessionId now s).2 = (server.getHttpSession sessionId now s').2 := by
  unfold getHttpSession
  rw [h]
  split
  · rfl
  · split
    · rfl
    · split <;> rfl

/-- A lookup that finds nothing among the sessions that have not expired changes nothing. -/
theorem getHttpSession_fst {sessionId : Option String}
    (h : (server.getHttpSession sessionId now (server.cleanupExpiredHttpSessions now s)).2 = none) :
    (server.getHttpSession sessionId now (server.cleanupExpiredHttpSessions now s)).1 =
      server.cleanupExpiredHttpSessions now s := by
  unfold getHttpSession at h ⊢
  cases hid : Ssh.truthy sessionId with
  | none => rfl
  | some sessionId =>
    cases hsession : (server.cleanupExpiredHttpSessions now s).sessions.get? sessionId with
    | none =>
      dsimp only
      rw [hsession]
    | some session =>
      -- a session that is left has not expired, and would have been found
      have hfresh : server.isHttpSessionExpired session now = false := by
        rw [cleanupExpiredHttpSessions, OrderedMap.get?_filter] at hsession
        simpa using (Option.filter_eq_some_iff.mp hsession).2
      rw [hid] at h
      dsimp only at h
      rw [hsession] at h
      dsimp only at h
      rw [hfresh, if_neg Bool.false_ne_true] at h
      cases h

/-! ### What each part keeps -/

/-- The sessions and those that are being opened are within the limit. -/
def Within (server : Listening rt) (s : HttpServer) : Prop :=
  s.weight ≤ server.config.http.maxSessions.toNat

theorem Within.of_le {s' : HttpServer} (h : server.Within s) (hle : s'.weight ≤ s.weight) :
    server.Within s' :=
  Nat.le_trans hle h

theorem cleanup_cleanup (now : ℤ) (s : HttpServer) :
    server.cleanupExpiredHttpSessions now (server.cleanupExpiredHttpSessions now s) =
      server.cleanupExpiredHttpSessions now s := by
  unfold cleanupExpiredHttpSessions
  congr 1
  refine OrderedMap.ext ?_
  change ((s.sessions.entries.filter _).filter _) = _
  rw [List.filter_filter]
  simp only [Bool.and_self]
  rfl

theorem canOpenHttpSession_cases (server : Listening rt) (id : ℕ) (now : ℤ) (s : HttpServer) :
    ((server.live now s : ℤ) < server.config.http.maxSessions ∧
        server.canOpenHttpSession id now s = (server.cleanupExpiredHttpSessions now s, true)) ∨
      server.canOpenHttpSession id now s = ((server.cleanupExpiredHttpSessions now s).respond id 503
        (some "HTTP MCP session limit reached"), false) := by
  unfold canOpenHttpSession
  by_cases hroom : (server.live now s : ℤ) < server.config.http.maxSessions
  · exact .inl ⟨hroom, if_pos hroom⟩
  · exact .inr (if_neg hroom)

theorem within_of_roomy {s' : HttpServer} (hroomy : server.Roomy now s)
    (hroom : (server.live now s : ℤ) < server.config.http.maxSessions)
    (hle : s'.weight ≤ server.live now s + s.openings + 1) : server.Within s' := by
  have hlt := hroomy hroom
  unfold Within
  omega

theorem within_handleLegacySseConnection (h : server.Within s) (hroomy : server.Roomy m.now s) :
    server.Within (server.handleLegacySseConnection id request m s) := by
  unfold handleLegacySseConnection
  rcases canOpenHttpSession_cases server id m.now s with ⟨hroom, heq⟩ | heq
  · rw [heq]
    refine within_of_roomy hroomy hroom ?_
    have hle := OrderedMap.size_set_le (server.cleanupExpiredHttpSessions m.now s).sessions m.uuid
      ⟨.sse, m.now⟩
    calc ((server.cleanupExpiredHttpSessions m.now s).sessions.set m.uuid ⟨.sse, m.now⟩).size +
          s.openings ≤ server.live m.now s + 1 + s.openings := Nat.add_le_add_right hle _
      _ = server.live m.now s + s.openings + 1 := Nat.add_right_comm _ _ _
  · rw [heq]
    exact h.of_le (weight_cleanup m.now s)

theorem within_handleStreamableRequest {body : Option Value} (h : server.Within s)
    (hroomy : server.Initializes s request body m.now → server.Roomy m.now s) :
    server.Within (server.handleStreamableRequest id request body m s) := by
  have hcleaned : (server.cleanupExpiredHttpSessions m.now s).weight ≤ s.weight :=
    weight_cleanup m.now s
  unfold handleStreamableRequest
  dsimp only
  cases hfound : (server.getHttpSession request.mcpSessionId m.now
      (server.cleanupExpiredHttpSessions m.now s)).2 with
  | none =>
    rw [getHttpSession_fst hfound]
    dsimp only
    split
    · next hinit =>
      -- the sessions that have expired are gone already
      have hroomy := hroomy ⟨hinit.1, hinit.2, hfound⟩
      rcases canOpenHttpSession_cases server id m.now
        (server.cleanupExpiredHttpSessions m.now s) with ⟨hroom, heq⟩ | heq
      · rw [heq, cleanup_cleanup]
        rw [live, cleanup_cleanup] at hroom
        refine within_of_roomy hroomy hroom ?_
        have hle := HttpServer.openings_await (server.cleanupExpiredHttpSessions m.now s) id
          (.connecting request)
        calc server.live m.now s +
              ((server.cleanupExpiredHttpSessions m.now s).await id (.connecting request)).openings
            ≤ server.live m.now s + (1 + s.openings) := Nat.add_le_add_left hle _
          _ = server.live m.now s + s.openings + 1 := by omega
      · rw [heq, cleanup_cleanup]
        exact h.of_le hcleaned
    · exact h.of_le hcleaned
  | some session =>
    dsimp only
    have hle : (server.getHttpSession request.mcpSessionId m.now
        (server.cleanupExpiredHttpSessions m.now s)).1.weight ≤ _ :=
      weight_getHttpSession request.mcpSessionId m.now _
    split
    · exact h.of_le (Nat.le_trans hle hcleaned)
    · exact h.of_le (Nat.le_trans hle hcleaned)

theorem within_handleLegacyMessage (h : server.Within s) :
    server.Within (server.handleLegacyMessage id request m s) := by
  unfold handleLegacyMessage
  split
  · exact h
  · next sessionId _ =>
    have hle : (server.getHttpSession sessionId m.now s).1.weight ≤ s.weight :=
      weight_getHttpSession sessionId m.now s
    split
    · exact h
    · dsimp only
      split
      · exact h.of_le hle
      · exact h.of_le hle

theorem within_route {pathname : String} (h : server.Within s)
    (hpathname : request.pathname = some pathname)
    (hroomy : server.OpensSse request → server.Roomy m.now s) :
    server.Within (server.route id request pathname m s) := by
  unfold route
  split
  · split
    · exact h
    · split
      · refine h.of_le (Nat.add_le_add_left ?_ _)
        have hle := HttpServer.openings_await s id (.reading request)
        rwa [Pending.isOpening, if_neg Bool.false_ne_true, Nat.zero_add] at hle
      · exact within_handleStreamableRequest h fun hinit => absurd hinit.2.1 Bool.false_ne_true
  · split
    · next hsse =>
      split
      · exact h
      · next hget =>
        rw [not_not] at hget
        exact within_handleLegacySseConnection h
          (hroomy ⟨hsse.1, by rw [hpathname, hsse.2], hget⟩)
    · split
      · split
        · exact h
        · exact within_handleLegacyMessage h
      · exact h

theorem within_rejectIfUnauthorized {pathname : String} (h : server.Within s)
    (hpathname : request.pathname = some pathname)
    (hroomy : server.LetsThrough request ∧ server.OpensSse request → server.Roomy m.now s) :
    server.Within (server.rejectIfUnauthorized id request pathname m s) := by
  unfold rejectIfUnauthorized
  split
  · exact h
  · next horigin =>
    rw [Bool.not_eq_true', Bool.not_eq_false] at horigin
    split
    · split
      · exact h
      · refine h.of_le (Nat.add_le_add_left ?_ _)
        have hle := HttpServer.openings_await s id (.verifying request)
        rwa [Pending.isOpening, if_neg Bool.false_ne_true, Nat.zero_add] at hle
    · next hmode =>
      split
      · next hnone =>
        refine within_route h hpathname fun hsse => hroomy ⟨⟨horigin, hmode, ?_⟩, hsse⟩
        exact fun token htoken => absurd (hnone.symm.trans htoken) nofun
      · next token htoken =>
        split
        · exact h
        · next hvalid =>
          rw [Bool.not_eq_true', Bool.not_eq_false] at hvalid
          refine within_route h hpathname fun hsse => hroomy ⟨⟨horigin, hmode, ?_⟩, hsse⟩
          intro token' htoken'
          obtain rfl := Option.some.inj (htoken.symm.trans htoken')
          exact hvalid

theorem within_handleRequest (h : server.Within s)
    (hroomy : server.LetsThrough request ∧ server.OpensSse request → server.Roomy m.now s) :
    server.Within (server.handleRequest id request m s) := by
  unfold handleRequest
  split
  · exact h
  · next pathname hpathname =>
    split
    · exact h
    · split
      · split <;> exact h
      · split
        · exact h
        · split
          · split <;> exact h
          · exact within_rejectIfUnauthorized h hpathname hroomy

theorem within_verified (h : server.Within s)
    (hroomy : ∀ config, server.verificationConfig request = some config →
      isOAuthAuthorizationValid rt m.now request.authorization config = true →
        server.OpensSse request → server.Roomy m.now s) :
    server.Within (server.verified id request m s) := by
  unfold verified
  split
  · next config pathname hconfig hpathname =>
    split
    · split <;> exact h
    · next hvalid =>
      rw [Bool.not_eq_true', Bool.not_eq_false] at hvalid
      exact within_route h hpathname (hroomy config hconfig hvalid)
  · exact h

/-! ### One step -/

theorem Roomy.resume (h : server.Roomy now s) : server.Roomy now (s.resume id) := by
  intro hroom
  have hlt := h hroom
  have hle := HttpServer.openings_resume_le s id
  have hlive : server.live now (s.resume id) = server.live now s := rfl
  omega

theorem Within.resume (h : server.Within s) : server.Within (s.resume id) :=
  h.of_le (Nat.add_le_add_left (HttpServer.openings_resume_le s id) _)

theorem Within.step {e : HttpEvent} (h : server.Within s) (hroom : server.LeavesRoom s e) :
    server.Within (server.step s e) := by
  cases e with
  | request id request m => exact within_handleRequest h fun hasks => hroom hasks m rfl
  | verified id m =>
    simp only [Listening.step]
    split
    · next request hget =>
      refine within_verified h.resume fun config hconfig hvalid hsse => ?_
      exact (hroom ⟨request, config, hget, hconfig, hvalid, hsse⟩ m rfl).resume
    · exact h
  | bodyRead id body m =>
    simp only [Listening.step]
    split
    · next request hget =>
      cases body with
      | parsed =>
        refine within_handleStreamableRequest h.resume fun ⟨hpost, hinit, hfound⟩ => ?_
        refine (hroom ⟨request, hget, hpost, hinit, ?_⟩ m rfl).resume
        rw [← hfound]
        exact getHttpSession_congr (server.cleanupExpiredHttpSessions m.now s)
          (server.cleanupExpiredHttpSessions m.now (s.resume id)) rfl request.mcpSessionId m.now
      | tooLarge => exact h.resume
      | malformed => exact h.resume
    · exact h
  | connected =>
    simp only [Listening.step]
    split
    · next request hget =>
      -- the opening goes on to its next `await`
      have hsame := OrderedMap.forall₂_filter_values_set (p := Pending.isOpening)
        (R := fun _ _ => True) (v := .initializing) (fun _ => trivial) hget rfl fun _ => trivial
      refine h.of_le (Nat.add_le_add_left ?_ _)
      exact Nat.le_of_eq hsame.length_eq.symm
    · exact h
  | sessionInitialized id m =>
    simp only [Listening.step]
    split
    · next hget =>
      have hle := OrderedMap.size_set_le s.sessions m.uuid ⟨.streamable, m.now⟩
      have hopenings := HttpServer.openings_resume hget rfl
      have h : s.sessions.size + s.openings ≤ server.config.http.maxSessions.toNat := h
      change (s.sessions.set m.uuid ⟨.streamable, m.now⟩).size + (s.resume id).openings ≤ _
      omega
    · exact h
  | transportClosed =>
    exact h.of_le (Nat.add_le_add_right (HttpServer.size_delete_le _ _) _)
  | cleanup m => exact h.of_le (weight_cleanup m.now s)

/-! ### Every run -/

/-- **The limit on HTTP sessions**: in a run whose steps all leave room, the server never holds more
than `maxSessions`. -/
theorem sessions_within_limit {rt : Runtime} (server : Listening rt) (es : List HttpEvent)
    (h : Run.AllSteps server.step server.LeavesRoom {} es) :
    Run.Along server.step (fun s => s.sessions.size ≤ server.config.http.maxSessions.toNat) {} es :=
  (Run.along_of_preserved (P := server.Within) (fun _ _ hs hroom => Within.step hs hroom)
    (Nat.zero_le _) h).mono
    fun _ hs => Nat.le_trans (Nat.le_add_right _ _) hs

end Listening

/-! ### Samples -/

/-- A runtime to which every body is an initialize request. -/
def initializeRuntime : Runtime where
  url _ := none
  withPathname publicUrl _ := publicUrl
  sha256 bytes := bytes
  readFileSync _ := none
  jwtVerify _ _ _ _ _ _ := none
  isInitializeRequest _ := true

/-- A server on the loopback interface, for one session. -/
def smallServer : Listening initializeRuntime where
  config := { http := { host := "127.0.0.1", allowedOrigins := [], maxSessions := 1 } }
  bearerToken := none
  bearerToken_eq := rfl
  started := by decide +kernel

/-- A `POST /mcp`. -/
def initializeRequest : HttpRequest := { method := "POST", pathname := some "/mcp" }

/-- One session is opened, and the next is refused. -/
theorem sessions_within_limit_one :
    Run.Along smallServer.step
      (fun s => s.sessions.size ≤ smallServer.config.http.maxSessions.toNat) {}
      [.request 0 initializeRequest ⟨0, "a"⟩, .bodyRead 0 (.parsed (some .null)) ⟨0, "a"⟩,
        .connected 0, .sessionInitialized 0 ⟨0, "a"⟩, .request 1 initializeRequest ⟨1, "b"⟩,
        .bodyRead 1 (.parsed (some .null)) ⟨1, "b"⟩] := by
  refine Listening.sessions_within_limit smallServer _ ⟨?_, ?_, nofun, nofun, ?_, ?_, trivial⟩
  · exact fun h => absurd h.2.2.1 (by decide)
  · rintro - m hm
    obtain rfl := Option.some.inj hm
    exact fun _ => by decide +kernel
  · exact fun h => absurd h.2.2.1 (by decide)
  · rintro - m hm
    obtain rfl := Option.some.inj hm
    exact fun hroom => absurd hroom (by decide +kernel)

/-- **A burst exceeds the limit**: two initialize requests are let in before either has its
session. -/
theorem burst_exceeds_limit :
    ¬ Run.Along smallServer.step
      (fun s => s.sessions.size ≤ smallServer.config.http.maxSessions.toNat) {}
      [.request 0 initializeRequest ⟨0, "a"⟩, .request 1 initializeRequest ⟨0, "b"⟩,
        .bodyRead 0 (.parsed (some .null)) ⟨0, "a"⟩, .bodyRead 1 (.parsed (some .null)) ⟨0, "b"⟩,
        .connected 0, .connected 1, .sessionInitialized 0 ⟨0, "a"⟩,
        .sessionInitialized 1 ⟨0, "b"⟩] := by
  intro h
  have hend := Run.along_iff_prefix.mp h _ List.prefix_rfl
  exact absurd hend (by decide +kernel)

end Http
