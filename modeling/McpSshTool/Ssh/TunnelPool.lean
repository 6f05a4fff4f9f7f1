import McpSshTool.Ssh.SessionLifetimes
import McpSshTool.Ssh.SessionLimit
import McpSshTool.Ssh.Tunnel

/-!
# Tunnels and the sessions they belong to

`tunnel.ts` between its awaits, with the close listener that `container.ts` registers: when a
session is closed, its tunnels are closed.

* `TunnelPool` — the sessions, the tunnels, the calls that wait for a listener or a forward, and the
  loops that close tunnels;
* `TunnelEvent`, `TunnelPool.step` — one step; any list of events is an interleaving;
* `NoOrphans` — when all is done, every tunnel has its session;
* `noOrphans_of_leavesNone` — over every run in which a tunnel is registered while it is watched,
  and no handle that fails leaves tunnels behind;
* `forward_outlives_session` — a session that is closed while a port is being opened.

A tunnel is watched while its session is in the table and is not being closed, or a close of it has
its listener still to call. The listener looks at the tunnels once, when it is called.
-/

open Library

namespace Ssh

/-! ### The model -/

/-- A call of `createLocalTunnel` or `createRemoteTunnel` that waits for its port. -/
structure Creating where
  type : TunnelType
  config : TunnelConfig
  tunnelId : String

/-- A loop of `closeTunnel`: one tunnel for `tunnel_close`, and those of a session for the
listener. -/
structure TunnelCloser where
  /-- The tunnel whose handle is being closed. -/
  current : Option String
  remaining : List String

/-- The tunnels that a loop has before it. -/
def TunnelCloser.pending (closer : TunnelCloser) : List String :=
  closer.current.toList ++ closer.remaining

/-- **The tunnels and the sessions.** The handle of a tunnel is kept and forgotten with it. -/
structure TunnelPool where
  pool : SessionPool
  tunnels : OrderedMap String TunnelInfo := .empty
  tunnelCounter : ℕ := 0
  creating : Slots Creating := .empty
  closers : Slots TunnelCloser := .empty

namespace TunnelPool

variable (s : TunnelPool)

/-- `listTunnels`: all of them for the empty identifier. -/
def listTunnels (sessionId : String) : List String :=
  (s.tunnels.filter fun _ tunnel => sessionId = "" || tunnel.sessionId = sessionId).keys

/-- The tunnel is no longer active. -/
def deactivate (tunnelId : String) : TunnelPool :=
  { s with tunnels := s.tunnels.modify tunnelId fun tunnel => { tunnel with active := false } }

/-- `closeTunnel`, up to where it waits for the handle. -/
def closeTunnel (tunnelId : String) : TunnelPool :=
  match s.tunnels.get? tunnelId with
  | none => s
  | some _ => { s.deactivate tunnelId with closers := s.closers.add ⟨some tunnelId, []⟩ }

/-- The next tunnel of a loop that waits for no handle: it is closed, or is none any more. -/
def continueClosing (n : ℕ) : TunnelPool :=
  match s.closers.get? n with
  | some ⟨none, []⟩ => { s with closers := s.closers.remove n }
  | some ⟨none, tunnelId :: remaining⟩ =>
    match s.tunnels.get? tunnelId with
    | none => { s with closers := s.closers.update n fun _ => ⟨none, remaining⟩ }
    | some _ =>
      { s.deactivate tunnelId with
        closers := s.closers.update n fun _ => ⟨some tunnelId, remaining⟩ }
  | _ => s

/-- The close listener, `closeSessionTunnels`, is called. -/
def listenerCalled (i : ℕ) : TunnelPool :=
  match s.pool.notified[i]? with
  | none => s
  | some notified =>
    { s with
      pool := { s.pool with notified := s.pool.notified.eraseIdx i }
      closers := s.closers.add ⟨none, s.listTunnels notified.2⟩ }.continueClosing s.closers.next

/-- The rest of `closeTunnel`. A handle that fails to close ends the loop. -/
def handleClosed (n : ℕ) (succeeds : Bool) : TunnelPool :=
  match s.closers.get? n with
  | some ⟨some tunnelId, remaining⟩ =>
    if succeeds then
      { s with
        tunnels := s.tunnels.delete tunnelId
        closers := s.closers.update n fun _ => ⟨none, remaining⟩ }
    else { s with closers := s.closers.remove n }
  | _ => s

variable {rt : Runtime} (engine : PolicyEngine rt) (ids : Identifiers)

/-- `createLocalTunnel` or `createRemoteTunnel`, up to where it waits for its port. -/
def createTunnel (type : TunnelType) (config : TunnelConfig) (now : ℕ) : TunnelPool :=
  let found := s.pool.getSession now config.sessionId
  match found.1 with
  | none => { s with pool := found.2 }
  | some session =>
    match engine.assertAllowed (config.context type session.info.policyMode) with
    | .error _ => { s with pool := found.2 }
    | .ok decision =>
      if decision.mode = .explain then { s with pool := found.2 }
      else
        { s with
          pool := found.2
          tunnelCounter := s.tunnelCounter + 1
          creating := s.creating.add ⟨type, config,
            "tunnel-" ++ toString now ++ "-" ++ toString (s.tunnelCounter + 1)⟩ }

/-- The rest of it: the port is open, or not. -/
def forwarded (n : ℕ) (port : Except Failure ℕ) (now : ℕ) : TunnelPool :=
  match s.creating.get? n with
  | none => s
  | some creating =>
    match port with
    | .error _ => { s with creating := s.creating.remove n }
    | .ok port =>
      let remotePort :=
        match creating.type with
        | .local => creating.config.targetPort
        | .remote => port
      { s with
        creating := s.creating.remove n
        tunnels := s.tunnels.set creating.tunnelId
          (creating.config.info creating.type creating.tunnelId remotePort now true) }

end TunnelPool

/-- What happens to the tunnels and the sessions. -/
inductive TunnelEvent where
  /-- A step of the session manager. -/
  | sessions (e : SessionEvent)
  /-- The listener of a close is called. -/
  | listenerCalled (i : ℕ)
  /-- A tool creates a tunnel. -/
  | createTunnel (type : TunnelType) (config : TunnelConfig) (now : ℕ)
  /-- The port of a tunnel is open, or cannot be opened. -/
  | forwarded (n : ℕ) (port : Except Failure ℕ) (now : ℕ)
  /-- `tunnel_close`. -/
  | closeTunnel (tunnelId : String)
  /-- A loop goes on with its next tunnel. -/
  | continueClosing (n : ℕ)
  /-- The handle of a tunnel has closed, or has failed to. -/
  | handleClosed (n : ℕ) (succeeds : Bool)

/-- **One step.** A close of a session may end before its listener has: its time is limited. -/
def TunnelPool.step {rt : Runtime} (engine : PolicyEngine rt) (ids : Identifiers) (s : TunnelPool) :
    TunnelEvent → TunnelPool
  | .sessions e => { s with pool := s.pool.step engine ids e }
  | .listenerCalled i => s.listenerCalled i
  | .createTunnel type config now => s.createTunnel engine type config now
  | .forwarded n port now => s.forwarded n port now
  | .closeTunnel tunnelId => s.closeTunnel tunnelId
  | .continueClosing n => s.continueClosing n
  | .handleClosed n succeeds => s.handleClosed n succeeds

/-! ### What is asked of the tunnels -/

/-- A session whose tunnels will be closed with it: it is in the table and nobody closes it, or a
listener has still to be called for it. -/
def SessionPool.Watched (s : SessionPool) (sessionId : String) : Prop :=
  (s.Holds sessionId ∧ ∀ c ∈ s.closing.values, c.sessionId ≠ sessionId) ∨
    ∃ n, (n, sessionId) ∈ s.notified

namespace TunnelPool

/-- All that was started has ended. -/
def Done (s : TunnelPool) : Prop :=
  s.pool.opening.values = [] ∧ s.pool.closing.values = [] ∧ s.pool.notified = [] ∧
    s.creating.values = [] ∧ s.closers.values = []

/-- **No orphans**: when all is done, every tunnel belongs to a session that is in the table. -/
def NoOrphans (s : TunnelPool) : Prop :=
  s.Done → ∀ k tunnel, s.tunnels.get? k = some tunnel → s.pool.Holds tunnel.sessionId

/-- **A step leaves no tunnel alone**: a tunnel is registered while its session is watched, and
where a handle fails to close, each tunnel that its loop leaves is watched or has another loop. -/
def LeavesNone (s : TunnelPool) : TunnelEvent → Prop
  | .forwarded n (.ok _) _ =>
    ∀ creating, s.creating.get? n = some creating → s.pool.Watched creating.config.sessionId
  | .handleClosed n false =>
    ∀ closer, s.closers.get? n = some closer → ∀ k ∈ closer.pending,
      ∀ tunnel, s.tunnels.get? k = some tunnel → s.pool.Watched tunnel.sessionId ∨
        ∃ n' closer', n' ≠ n ∧ s.closers.get? n' = some closer' ∧ k ∈ closer'.pending
  | _ => True

/-- Every tunnel is watched, or a loop has it before it. -/
def Attended (s : TunnelPool) : Prop :=
  ∀ k tunnel, s.tunnels.get? k = some tunnel →
    s.pool.Watched tunnel.sessionId ∨ ∃ closer ∈ s.closers.values, k ∈ closer.pending

theorem Attended.noOrphans {s : TunnelPool} (h : s.Attended) : s.NoOrphans := by
  rintro ⟨-, -, hnotified, -, hclosers⟩ k tunnel htunnel
  rcases h k tunnel htunnel with (⟨hheld, -⟩ | ⟨n, hn⟩) | ⟨closer, hcloser, -⟩
  · exact hheld
  · rw [hnotified] at hn
    exact absurd hn List.not_mem_nil
  · rw [hclosers] at hcloser
    exact absurd hcloser List.not_mem_nil

end TunnelPool

/-! ### The sessions go on -/

namespace SessionPool

variable {s s' : SessionPool} {rt : Runtime} {engine : PolicyEngine rt} {ids : Identifiers}
  {closer : Closer} {k sessionId : String} {n time : ℕ}

theorem Watched.of_same (h : s.Watched sessionId) (hheld : s.Holds sessionId → s'.Holds sessionId)
    (hclosing : s'.closing = s.closing) (hnotified : s'.notified = s.notified) :
    s'.Watched sessionId := by
  unfold Watched
  rw [hclosing, hnotified]
  exact h.imp_left fun h => ⟨hheld h.1, h.2⟩

/-- A close that starts has its listener to call. -/
theorem Watched.closeSession (h : s.Watched sessionId) :
    (s.closeSession closer k).Watched sessionId := by
  by_cases hk : s.Holds k
  · rw [closeSession_of_holds hk]
    rcases h with ⟨hheld, hclosing⟩ | ⟨n, hn⟩
    · by_cases heq : k = sessionId
      · exact .inr ⟨s.closing.next, heq ▸ List.mem_append_right _ (List.mem_singleton_self _)⟩
      · refine .inl ⟨hheld, fun c hc => ?_⟩
        rcases Slots.mem_values_add.mp hc with hc | rfl
        · exact hclosing c hc
        · exact heq
    · exact .inr ⟨n, List.mem_append_left _ hn⟩
  · rw [closeSession_of_not_holds hk]
    exact h.of_same id rfl rfl

/-- A session that leaves the table was being closed. -/
theorem Watched.sessionClosed (h : s.Watched sessionId) :
    (s.sessionClosed n).Watched sessionId := by
  cases hclosing : s.closing.get? n with
  | none =>
    rw [SessionPool.sessionClosed, hclosing]
    exact h
  | some closing =>
    have hmem : closing ∈ s.closing.values := Slots.mem_values.mpr ⟨n, hclosing⟩
    rcases h with ⟨hheld, hnone⟩ | hdue
    · refine .inl ⟨(holds_sessionClosed hclosing).mpr ⟨(hnone closing hmem).symm, hheld⟩, ?_⟩
      intro c hc
      rw [SessionPool.sessionClosed, hclosing] at hc
      exact hnone c (Slots.mem_of_mem_values_remove hc)
    · refine .inr ?_
      rw [SessionPool.sessionClosed, hclosing]
      exact hdue

theorem Watched.getSession (h : s.Watched sessionId) :
    (s.getSession time k).2.Watched sessionId := by
  rcases getSession_cases s time k with heq | heq | ⟨old, used, -, heq⟩
  · rw [heq]
    exact h
  · rw [heq]
    exact h.closeSession
  · rw [heq]
    exact h.of_same (fun hheld => (holds_set rfl).mpr (.inr hheld)) rfl rfl

/-- **A session that is watched stays watched** until its listener is called. -/
theorem Watched.step {e : SessionEvent} (h : s.Watched sessionId) :
    (SessionPool.step engine ids s e).Watched sessionId := by
  cases e with
  | openSession params now later =>
    change (s.openSession engine ids params now later).Watched sessionId
    by_cases hproceeds : s.manager.Proceeds engine params
    · rw [openSession_of_proceeds hproceeds]
      have hroom : (s.makeRoom later).Watched sessionId := by
        unfold makeRoom
        split
        · exact h
        · exact h.closeSession
      exact hroom.of_same id rfl rfl
    · obtain ⟨result, metrics, heq, -, -⟩ := openSession_of_not_proceeds ids now later hproceeds
      rw [heq]
      exact h.of_same id rfl rfl
  | connected n connection =>
    change (s.connected n connection).Watched sessionId
    unfold connected
    split
    · exact h
    · cases connection with
      | error => exact h.of_same id rfl rfl
      | ok => exact h.of_same (fun hheld => (holds_set rfl).mpr (.inr hheld)) rfl rfl
  | closeSession => exact h.closeSession
  | inspected => exact h.closeSession
  | sessionClosed => exact h.sessionClosed
  | getSession => exact h.getSession
  | cleanup =>
    exact cleanup_rec (P := fun s => s.Watched sessionId) h fun _ _ h => h.closeSession

end SessionPool

/-! ### One step -/

namespace TunnelPool

variable {s s' : TunnelPool} {rt : Runtime} {engine : PolicyEngine rt} {ids : Identifiers}
  {tunnelId k : String} {tunnel : TunnelInfo} {n now : ℕ}

theorem get?_deactivate (h : (s.deactivate tunnelId).tunnels.get? k = some tunnel) :
    ∃ tunnel', s.tunnels.get? k = some tunnel' ∧ tunnel'.sessionId = tunnel.sessionId := by
  rw [deactivate, OrderedMap.get?_modify] at h
  split at h
  · next hk =>
    obtain ⟨tunnel', htunnel', rfl⟩ := Option.map_eq_some_iff.mp h
    exact ⟨tunnel', hk ▸ htunnel', rfl⟩
  · exact ⟨tunnel, h, rfl⟩

theorem Attended.of_same (h : s.Attended)
    (htunnels : ∀ k tunnel, s'.tunnels.get? k = some tunnel →
      ∃ tunnel', s.tunnels.get? k = some tunnel' ∧ tunnel'.sessionId = tunnel.sessionId)
    (hwatched : ∀ sessionId, s.pool.Watched sessionId → s'.pool.Watched sessionId)
    (hclosers : ∀ k tunnel, s'.tunnels.get? k = some tunnel → ∀ closer ∈ s.closers.values,
      k ∈ closer.pending → ∃ closer' ∈ s'.closers.values, k ∈ closer'.pending) : s'.Attended := by
  intro k tunnel htunnel
  obtain ⟨tunnel', htunnel', hsession⟩ := htunnels k tunnel htunnel
  refine (h k tunnel' htunnel').imp (fun hw => hsession ▸ hwatched _ hw) ?_
  rintro ⟨closer, hcloser, hk⟩
  exact hclosers k tunnel htunnel closer hcloser hk

theorem Attended.closeTunnel (h : s.Attended) : (s.closeTunnel tunnelId).Attended := by
  unfold TunnelPool.closeTunnel
  split
  · exact h
  · refine h.of_same (fun _ _ => get?_deactivate) (fun _ => id) fun k tunnel _ closer hcloser hk =>
      ?_
    exact ⟨closer, Slots.mem_values_add.mpr (.inl hcloser), hk⟩

/-- A loop that has gone on from its tunnels to others keeps each of them that is there. -/
theorem exists_pending_update {closer closer' : TunnelCloser} (hn : s.closers.get? n = some closer)
    (hkeeps : k ∈ closer.pending → k ∈ closer'.pending) {other : TunnelCloser}
    (hother : other ∈ s.closers.values) (hk : k ∈ other.pending) :
    ∃ c ∈ (s.closers.update n fun _ => closer').values, k ∈ c.pending := by
  obtain ⟨n', hn'⟩ := Slots.mem_values.mp hother
  by_cases heq : n' = n
  · rw [heq, hn] at hn'
    obtain rfl := Option.some.inj hn'
    refine ⟨closer', Slots.mem_values.mpr ⟨n, ?_⟩, hkeeps hk⟩
    rw [Slots.get?_update, if_pos rfl, hn]
    rfl
  · refine ⟨other, Slots.mem_values.mpr ⟨n', ?_⟩, hk⟩
    rw [Slots.get?_update, if_neg heq, hn']

theorem Attended.continueClosing (h : s.Attended) : (s.continueClosing n).Attended := by
  unfold TunnelPool.continueClosing
  split
  · next hn =>
    -- a loop without tunnels ends
    refine h.of_same (fun k tunnel hk => ⟨tunnel, hk, rfl⟩) (fun _ => id) ?_
    intro k tunnel _ closer hcloser hk
    rcases Slots.mem_values_remove_or hn hcloser with hcloser | rfl
    · exact ⟨closer, hcloser, hk⟩
    · exact absurd hk List.not_mem_nil
  · next tunnelId remaining hn =>
    split
    · next hnone =>
      refine h.of_same (fun k tunnel hk => ⟨tunnel, hk, rfl⟩) (fun _ => id) ?_
      intro k tunnel htunnel closer hcloser hk
      refine exists_pending_update hn (fun hpending => ?_) hcloser hk
      -- the tunnel that is passed over is none any more
      rcases List.mem_cons.mp hpending with rfl | hpending
      · exact absurd htunnel (by rw [hnone]; exact nofun)
      · exact hpending
    · exact h.of_same (fun _ _ => get?_deactivate) (fun _ => id) fun k tunnel _ closer hcloser hk =>
        exists_pending_update hn id hcloser hk
  · exact h

theorem mem_listTunnels (h : s.tunnels.get? k = some tunnel) :
    k ∈ s.listTunnels tunnel.sessionId := by
  rw [listTunnels, OrderedMap.mem_keys, OrderedMap.get?_filter, h]
  simp

theorem Attended.listenerCalled {i : ℕ} (h : s.Attended) : (s.listenerCalled i).Attended := by
  unfold TunnelPool.listenerCalled
  split
  · exact h
  · next notified hi =>
    refine Attended.continueClosing fun k tunnel htunnel => ?_
    rcases h k tunnel htunnel with (hheld | ⟨n, hn⟩) | ⟨closer, hcloser, hk⟩
    · exact .inl (.inl hheld)
    · by_cases heq : (n, tunnel.sessionId) = notified
      · refine .inr ⟨_, Slots.mem_values_add.mpr (.inr rfl), ?_⟩
        rw [← heq]
        exact mem_listTunnels htunnel
      · obtain ⟨j, hj⟩ := List.mem_iff_getElem?.mp hn
        refine .inl (.inr ⟨n, List.mem_eraseIdx_iff_getElem?.mpr ⟨j, fun hij => heq ?_, hj⟩⟩)
        rw [hij, hi] at hj
        exact (Option.some.inj hj).symm
    · exact .inr ⟨closer, Slots.mem_values_add.mpr (.inl hcloser), hk⟩

theorem Attended.handleClosed {succeeds : Bool} (h : s.Attended)
    (hleaves : s.LeavesNone (.handleClosed n succeeds)) : (s.handleClosed n succeeds).Attended := by
  unfold TunnelPool.handleClosed
  split
  · next tunnelId remaining hn =>
    cases succeeds with
    | true =>
      refine h.of_same (fun k tunnel hk => ?_)
        (fun _ => id) fun k tunnel htunnel closer hcloser hk => ?_
      · rw [if_pos rfl, OrderedMap.get?_delete] at hk
        split at hk
        · cases hk
        · exact ⟨tunnel, hk, rfl⟩
      · rw [if_pos rfl, OrderedMap.get?_delete] at htunnel
        split at htunnel
        · cases htunnel
        · next hne =>
          exact exists_pending_update hn (fun hp => (List.mem_cons.mp hp).resolve_left hne) hcloser
            hk
    | false =>
      rw [if_neg Bool.false_ne_true]
      intro k tunnel htunnel
      rcases h k tunnel htunnel with hw | ⟨closer, hcloser, hk⟩
      · exact .inl hw
      · rcases Slots.mem_values_remove_or hn hcloser with hcloser | rfl
        · exact .inr ⟨closer, hcloser, hk⟩
        · rcases hleaves _ hn k hk tunnel htunnel with hw | ⟨n', closer', hne, hn', hk'⟩
          · exact .inl hw
          · refine .inr ⟨closer', Slots.mem_values.mpr ⟨n', ?_⟩, hk'⟩
            rw [Slots.get?_remove, if_neg hne, hn']
  · exact h

theorem Attended.createTunnel {type : TunnelType} {config : TunnelConfig} (h : s.Attended) :
    (s.createTunnel engine type config now).Attended := by
  have hfound : ∀ (s' : TunnelPool), s'.tunnels = s.tunnels → s'.closers = s.closers →
      s'.pool = (s.pool.getSession now config.sessionId).2 → s'.Attended := by
    intro s' htunnels hclosers hpool
    refine h.of_same (fun k tunnel hk => ⟨tunnel, htunnels ▸ hk, rfl⟩)
      (fun _ hw => hpool ▸ hw.getSession) fun k tunnel _ closer hcloser hk => ?_
    exact ⟨closer, hclosers ▸ hcloser, hk⟩
  unfold TunnelPool.createTunnel
  dsimp only
  split
  · exact hfound _ rfl rfl rfl
  · split
    · exact hfound _ rfl rfl rfl
    · split
      · exact hfound _ rfl rfl rfl
      · exact hfound _ rfl rfl rfl

theorem Attended.forwarded {port : Except Failure ℕ} (h : s.Attended)
    (hleaves : s.LeavesNone (.forwarded n port now)) : (s.forwarded n port now).Attended := by
  unfold TunnelPool.forwarded
  split
  · exact h
  · next creating hn =>
    cases port with
    | error => exact h
    | ok =>
      intro k tunnel htunnel
      dsimp only at htunnel
      rw [OrderedMap.get?_set] at htunnel
      split at htunnel
      · obtain rfl := Option.some.inj htunnel
        exact .inl (hleaves creating hn)
      · exact h k tunnel htunnel

theorem Attended.step {e : TunnelEvent} (h : s.Attended) (hleaves : s.LeavesNone e) :
    (TunnelPool.step engine ids s e).Attended := by
  cases e with
  | sessions =>
    exact h.of_same (fun k tunnel hk => ⟨tunnel, hk, rfl⟩) (fun _ hw => hw.step)
      fun k tunnel _ closer hcloser hk => ⟨closer, hcloser, hk⟩
  | listenerCalled => exact h.listenerCalled
  | createTunnel => exact h.createTunnel
  | forwarded => exact h.forwarded hleaves
  | closeTunnel => exact h.closeTunnel
  | continueClosing => exact h.continueClosing
  | handleClosed => exact h.handleClosed hleaves

/-! ### Every run -/

/-- No tunnels, and no sessions. -/
def fresh (manager : SessionManager) : TunnelPool := { pool := .fresh manager }

theorem fresh_attended (manager : SessionManager) : (fresh manager).Attended := fun _ tunnel hk =>
  nomatch (show none = some tunnel from hk)

/-- **No forward outlives its session** in a run whose steps leave no tunnel alone. -/
theorem noOrphans_of_leavesNone {rt : Runtime} (engine : PolicyEngine rt) (ids : Identifiers)
    (manager : SessionManager) (es : List TunnelEvent)
    (h : Run.AllSteps (TunnelPool.step engine ids) LeavesNone (fresh manager) es) :
    Run.Along (TunnelPool.step engine ids) NoOrphans (fresh manager) es :=
  (Run.along_of_preserved (P := Attended) (fun _ _ hs hleaves => hs.step hleaves)
    (fresh_attended manager) h).mono fun _ hs => hs.noOrphans

/-! ### Samples -/

/-- A forward of a local port for the session of the samples. -/
def sampleForward : TunnelConfig := { sessionId := "x", localPort := 8080 }

/-- A session is open, and nothing else. -/
def sampleOpen : TunnelPool := { pool := SessionPool.sampleFull }

/-- By default, the login of the samples is allowed, and the forward of any port. -/
theorem exists_forwards (rt : Runtime) :
    ∃ engine : PolicyEngine rt, engine.config = {} ∧
      (∀ m : SessionManager, m.Proceeds engine SessionPool.sampleLogin) ∧
      ∀ port, engine.assertAllowed ({ sampleForward with localPort := port }.context
        .local .enforce) =
        .ok { allowed := true, mode := .enforce, action := .tunnelLocal } := by
  obtain ⟨engine, hengine, hproceeds⟩ := SessionPool.exists_proceeds rt
  refine ⟨engine, hengine, hproceeds, fun port => ?_⟩
  have hdenial : engine.denialWith rt.realpathSync
      ({ sampleForward with localPort := port }.context .local .enforce) = none := by
    rw [PolicyEngine.denialWith]
    unfold PolicyEngine.hostDenial PolicyEngine.tunnelDenial
    rw [hengine]
    rfl
  rw [engine.assertAllowed_eq, if_neg fun h => h.1 (engine.permits_iff.mpr hdenial)]
  unfold PolicyEngine.evaluate PolicyEngine.evaluateWith
  rw [hdenial]
  rfl

/-- The forward waits for its port. -/
def sampleCreating : TunnelPool :=
  { sampleOpen with
    pool := (sampleOpen.pool.getSession 1 "x").2
    tunnelCounter := 1
    creating := Slots.empty.add ⟨.local, sampleForward, "tunnel-1-1"⟩ }

theorem run_sampleCreating {engine : PolicyEngine rt}
    (hproceeds : ∀ m : SessionManager, m.Proceeds engine SessionPool.sampleLogin)
    (hforwards : engine.assertAllowed (sampleForward.context .local .enforce) =
      .ok { allowed := true, mode := .enforce, action := .tunnelLocal }) :
    Run.run (TunnelPool.step engine SessionPool.sampleIdentifiers) (fresh { maxSessions := 1 })
      [.sessions (.openSession SessionPool.sampleLogin 0 0), .sessions (.connected 0 (.ok true)),
        .createTunnel .local sampleForward 1] = sampleCreating := by
  have hopen : Run.run (TunnelPool.step engine SessionPool.sampleIdentifiers)
      (fresh { maxSessions := 1 })
      [.sessions (.openSession SessionPool.sampleLogin 0 0), .sessions (.connected 0 (.ok true))] =
        sampleOpen := by
    have hpool := SessionPool.run_sampleFull hproceeds
    exact congrArg (fun pool => ({ pool := pool } : TunnelPool)) hpool
  change (Run.run (TunnelPool.step engine SessionPool.sampleIdentifiers)
    (fresh { maxSessions := 1 }) [.sessions (.openSession SessionPool.sampleLogin 0 0),
      .sessions (.connected 0 (.ok true))]).createTunnel engine .local sampleForward 1 = _
  rw [hopen]
  have hfound : (sampleOpen.pool.getSession 1 sampleForward.sessionId).1 =
      some ⟨⟨"host", "demo", 22, 0, 900000, 1, .enforce, .strict⟩, true⟩ := by decide +kernel
  unfold createTunnel
  dsimp only
  rw [hfound]
  dsimp only
  rw [hforwards]
  rfl

/-- A forward is opened, and closed with its session. -/
theorem noOrphans_of_leavesNone_closed :
    ∃ engine : PolicyEngine sampleRuntime, engine.config = {} ∧
      Run.Along (TunnelPool.step engine SessionPool.sampleIdentifiers) NoOrphans
        (fresh { maxSessions := 1 })
        [.sessions (.openSession SessionPool.sampleLogin 0 0), .sessions (.connected 0 (.ok true)),
          .createTunnel .local sampleForward 1, .forwarded 0 (.ok 8080) 2,
          .sessions (.closeSession "x"), .listenerCalled 0, .handleClosed 0 true,
          .continueClosing 0, .sessions (.sessionClosed 0)] := by
  obtain ⟨engine, hengine, hproceeds, hforwards⟩ := exists_forwards sampleRuntime
  refine ⟨engine, hengine, noOrphans_of_leavesNone engine SessionPool.sampleIdentifiers
    { maxSessions := 1 } _ ?_⟩
  change Run.AllSteps _ _ _ ([_, _, _] ++ _)
  refine Run.allSteps_append.mpr ⟨⟨trivial, trivial, trivial, trivial⟩, ?_⟩
  rw [run_sampleCreating hproceeds (hforwards 8080)]
  refine ⟨fun creating hcreating => ?_, trivial, trivial, trivial, trivial, trivial, trivial⟩
  obtain rfl : (⟨_, _, _⟩ : Creating) = creating := Option.some.inj hcreating
  exact .inl ⟨by decide +kernel, by decide +kernel⟩

/-- The session has been closed, and then the port is open. -/
def sampleOrphan : TunnelPool :=
  let closing := { sampleCreating with pool := sampleCreating.pool.closeSession .sessionTool "x" }
  let listened := closing.listenerCalled 0
  { listened with pool := listened.pool.sessionClosed 0 }.forwarded 0 (.ok 8080) 2

/-- **A forward outlives its session**: the session is closed while the port is being opened. -/
theorem forward_outlives_session :
    ∃ engine : PolicyEngine sampleRuntime, engine.config = {} ∧
      ¬ Run.Along (TunnelPool.step engine SessionPool.sampleIdentifiers) NoOrphans
        (fresh { maxSessions := 1 })
        [.sessions (.openSession SessionPool.sampleLogin 0 0), .sessions (.connected 0 (.ok true)),
          .createTunnel .local sampleForward 1, .sessions (.closeSession "x"), .listenerCalled 0,
          .sessions (.sessionClosed 0), .forwarded 0 (.ok 8080) 2] := by
  obtain ⟨engine, hengine, hproceeds, hforwards⟩ := exists_forwards sampleRuntime
  refine ⟨engine, hengine, fun h => ?_⟩
  have hend := Run.along_iff_prefix.mp h ([_, _, _] ++ [_, _, _, _]) List.prefix_rfl
  rw [Run.run_append, run_sampleCreating hproceeds (hforwards 8080)] at hend
  have hend : sampleOrphan.NoOrphans := hend
  have hdone : sampleOrphan.Done :=
    ⟨by decide +kernel, by decide +kernel, by decide +kernel, rfl, rfl⟩
  have hheld := hend hdone "tunnel-1-1" (sampleForward.info .local "tunnel-1-1" 8080 2 true) rfl
  exact absurd hheld (by decide +kernel)

end TunnelPool
end Ssh
