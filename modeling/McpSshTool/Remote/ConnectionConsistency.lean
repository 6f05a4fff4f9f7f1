import McpSshTool.Remote.ConnectionTable
import McpSshTool.Remote.PolicyFrame

/-!
# When the table of connections is consistent

Hellos, requests, closing sockets and a shutdown write the table of connections, the stored status
of agents, or both. What keeps them together is checked step by step.

* `KeepsTable` — the condition on a step;
* `invariant_step` — a step that meets it keeps the invariant of the table;
* `table_consistent_iff` — a run stays consistent exactly when its steps meet the condition.
-/

open Library

namespace Remote
namespace RemoteControlPlane

variable (d : Deployment)

/-! ### The condition -/

/-- **An enrollment goes through**: the request is well formed, its token is stored, unused and not
expired, and the agent of the token is not revoked. -/
def Enrolls (s : RemoteControlPlane) (e : Step) (agent : RemoteAgentRecord) : Prop :=
  ∃ body host enrollment store,
    e.event = .enroll body ∧
    agentHostMetadataSchema (body.member "host") = some host ∧
    (body.member "token").asString.getD "" ≠ "" ∧
    (body.member "public_key").asString.getD "" ≠ "" ∧
    d.platform.isValidEd25519PublicKey ((body.member "public_key").asString.getD "") = true ∧
    s.store.isOpen = true ∧
    s.store.getEnrollmentTokenByHash
      (hashSecret d.platform ((body.member "token").asString.getD "")) = some enrollment ∧
    enrollment.usedAt = none ∧ e.moment.now ≤ d.platform.getTime enrollment.expiresAt ∧
    s.store.getAgent enrollment.agentId = some agent ∧ agent.status ≠ .revoked ∧
    s.store.markEnrollmentTokenUsed enrollment.tokenHash (nowIso d e.moment) = .ok store

/-- **The condition on a step**: a hello that is accepted has arrived on a connection that is not
closed, the record that a policy update was read as has a status that says what the table says, and
an agent that enrolls has no entry. -/
structure KeepsTable (s : RemoteControlPlane) (e : Step) : Prop where
  hello : ∀ c hello, helloOf d e = some (c, hello) → acceptedHello d s e = some hello →
    s.isClosed c = false
  policy : ∀ agent policy, UpdatesPolicy d s e agent policy →
    ∀ old, s.store.getAgent agent.id = some old → s.StatusAgrees agent.id agent.status
  enrollment : ∀ agent, Enrolls d s e agent → s.liveConnection agent.id = none

/-! ### A hello that is accepted -/

section Hello

variable {d} {m : Moment} {s : RemoteControlPlane} {c : ConnectionId}

/-- **The earlier connection of an agent has been closed**, and the agent is still to be registered
on the connection `c`. -/
structure EarlierClosed (c : ConnectionId) (a : String) (s s₁ : RemoteControlPlane) : Prop where
  invariant : s.TableInvariant → s₁.TableInvariant
  closed : s.isClosed c = true → s₁.isClosed c = true
  connection : (∀ live, s.agentConnections.get? a = some live → live.connection ≠ c) →
    s₁.connections.get? c = s.connections.get? c
  aliases : ∀ x, s₁.storedAlias x = s.storedAlias x
  isOpen : s₁.store.isOpen = s.store.isOpen

/-- **A registration**: the earlier connection is closed, and the entry is made. -/
theorem registerHello_table (hello : AgentHelloEnvelope) (agent : RemoteAgentRecord) :
    ∃ s₁ nonces, EarlierClosed c agent.id s s₁ ∧
      s.registerHello d m c hello agent =
        { s₁ with
          agentConnections :=
            s₁.agentConnections.set agent.id { agent, connection := c, seenNonces := nonces }
              } := by
  have hcleaned := sameTable_cleanupEphemeralState s m.later
  have hclose : ∀ s₀ live, SameTable s s₀ → s₀.store = s.store →
      s.agentConnections.get? agent.id = some live →
        EarlierClosed c agent.id s (s₀.close d m live.connection) := by
    intro s₀ live hsame hstore hlive
    refine ⟨fun hs => invariant_close (hsame.invariant hs) _, fun h => isClosed_close ?_ _,
      fun hother => ?_, fun x => ?_, (frame_close d m _ _).isOpen.trans hsame.isOpen⟩
    · unfold isClosed at h ⊢
      rw [hsame.connections]
      exact h
    · rw [(connections_close _).1 c (hother live hlive).symm, hsame.connections]
    · rw [storedAlias_close, storedAlias, storedAlias, hstore]
  unfold registerHello
  dsimp only
  split
  · next existing hexisting =>
    have hmapped : (s.agentConnections.mapValues _).get? agent.id = some existing := hexisting
    rw [OrderedMap.get?_mapValues] at hmapped
    obtain ⟨live, hlive, rfl⟩ := Option.map_eq_some_iff.mp hmapped
    refine ⟨_, _, ?_, rfl⟩
    exact hclose _ live ⟨hcleaned.live, fun _ => rfl, rfl, rfl⟩ rfl hlive
  · refine ⟨_, _, ?_, rfl⟩
    exact ⟨SameTable.invariant ⟨hcleaned.live, fun _ => rfl, rfl, rfl⟩, id, fun _ => rfl,
      fun _ => rfl, rfl⟩

/-- The state in which an agent has been registered and is stored as online. -/
def registeredOnline (s₁ : RemoteControlPlane) (c : ConnectionId) (agent : RemoteAgentRecord)
    (nonces : NonceWindow) (store : RemoteStore) : RemoteControlPlane :=
  ({ s₁ with
    store := store
    agentConnections :=
      s₁.agentConnections.set agent.id { agent, connection := c, seenNonces := nonces } }).onClose c
    { agentId := agent.id, userId := agent.userId }

/-- **What an accepted hello does** to the table: the row is written as well, for it is there and
keeps its alias. -/
theorem acceptHello_table (hello : AgentHelloEnvelope) {agent : RemoteAgentRecord}
    (hopen : s.store.isOpen = true) (hagent : s.store.getAgent agent.id = some agent) :
    ∃ s₁ nonces store, EarlierClosed c agent.id s s₁ ∧
      s₁.store.updateAgent d.platform (onlineRecord d m hello agent) = .ok store ∧
      SameTable (s₁.registeredOnline c agent nonces store) (s.acceptHello d m c hello agent) := by
  obtain ⟨s₁, nonces, hearlier, hregister⟩ :=
    registerHello_table (d := d) (m := m) (s := s) (c := c) hello agent
  obtain ⟨store, hstore⟩ := updateAgent_isOk (d := d) (s := s₁)
    (onlineRecord d m hello agent) (hearlier.isOpen.trans hopen)
    (by rw [hearlier.aliases, storedAlias, show (onlineRecord d m hello agent).id =
      agent.id from rfl,
          hagent, Option.map_some]; rfl)
    (RemoteStore.getAgent_rows hagent).2.profile_text
  refine ⟨s₁, nonces, store, hearlier, hstore, ?_⟩
  unfold acceptHello
  dsimp only
  rw [hregister]
  have hwritten : RemoteControlPlane.writeAgent d (onlineRecord d m hello agent) { s₁ with
      agentConnections := s₁.agentConnections.set agent.id
        { agent, connection := c, seenNonces := nonces } } =
        { s₁ with
          store := store
          agentConnections :=
            s₁.agentConnections.set agent.id { agent, connection := c, seenNonces := nonces }
              } := by
    unfold writeAgent
    dsimp only
    rw [hstore]
  rw [hwritten]
  exact (sameTable_audit d m _ _ _ _ _ _ _).trans (sameTable_sendJson _ _ _)

theorem liveConnection_registeredOnline (s₁ : RemoteControlPlane) (agent : RemoteAgentRecord)
    (nonces : NonceWindow) (store : RemoteStore) (a : String) :
    (s₁.registeredOnline c agent nonces store).liveConnection a =
      if a = agent.id then some c else s₁.liveConnection a := by
  change ((s₁.agentConnections.set agent.id _).get? a).map (·.connection) = _
  rw [OrderedMap.get?_set]
  split <;> rfl

theorem connections_registeredOnline (s₁ : RemoteControlPlane) (agent : RemoteAgentRecord)
    (nonces : NonceWindow) (store : RemoteStore) (c' : ConnectionId) :
    (s₁.registeredOnline c agent nonces store).connections.get? c' =
      if c' = c then (s₁.connections.get? c).map fun connection =>
        { connection with
          closeHandlers := connection.closeHandlers ++
            [{ agentId := agent.id, userId := agent.userId }] }
      else s₁.connections.get? c' :=
  OrderedMap.get?_modify _ _ _ _

/-- **A hello on an open connection** keeps the invariant. -/
theorem invariant_acceptHello (hs : s.TableInvariant) (hello : AgentHelloEnvelope)
    {agent : RemoteAgentRecord} (hopen : s.store.isOpen = true)
    (hagent : s.store.getAgent agent.id = some agent)
    (hother : ∀ live, s.agentConnections.get? agent.id = some live → live.connection ≠ c)
    (hc : s.isClosed c = false) : (s.acceptHello d m c hello agent).TableInvariant := by
  obtain ⟨s₁, nonces, store, hearlier, hstore, hsame⟩ :=
    acceptHello_table (d := d) (m := m) (c := c) hello hopen hagent
  have hs₁ := hearlier.invariant hs
  obtain ⟨connection, hget, hconnectionOpen⟩ := isClosed_eq_false.mp hc
  rw [← hearlier.connection hother] at hget
  have hlive := liveConnection_registeredOnline (c := c) s₁ agent nonces store
  have hconnections := connections_registeredOnline (c := c) s₁ agent nonces store
  have hstatus : ∀ a, (s₁.registeredOnline c agent nonces store).storedStatus a =
      if a = agent.id then (s₁.storedStatus a).map fun _ => .online else s₁.storedStatus a :=
    storedStatus_of_updateAgent hstore
  have hrow : s₁.storedStatus agent.id ≠ none := by
    have halias := hearlier.aliases agent.id
    rw [storedAlias, storedAlias, hagent] at halias
    obtain ⟨row, hrow, -⟩ := Option.map_eq_some_iff.mp halias
    rw [storedStatus, hrow]
    exact Option.some_ne_none _
  refine hsame.invariant ⟨fun a c' h => ?_, fun a status h => ?_, fun c' found hfound => ?_,
    fun a c' h => ?_, fun hclosed => ?_⟩
  · -- the new entry is on the open connection of the hello; others stay
    unfold Registered
    rw [hconnections]
    rw [hlive] at h
    split at h
    · next ha =>
      rw [← Option.some.inj h, if_pos rfl, hget, ha]
      exact ⟨_, rfl, hconnectionOpen, _, List.mem_append_right _ (List.mem_singleton_self _), rfl⟩
    · obtain ⟨found, hfound, hfoundOpen, handler, hmem, hagentId⟩ := hs₁.entries a c' h
      split
      · next hc' =>
        rw [← hc', hfound]
        exact ⟨_, rfl, hfoundOpen, handler, List.mem_append_left _ hmem, hagentId⟩
      · exact ⟨found, hfound, hfoundOpen, handler, hmem, hagentId⟩
  · -- the row of the agent is online now
    unfold StatusAgrees
    rw [hlive]
    rw [hstatus] at h
    split at h
    · next ha =>
      obtain ⟨_, -, rfl⟩ := Option.map_eq_some_iff.mp h
      rw [if_pos ha]
      exact fun _ => ⟨fun _ => rfl, fun _ => rfl⟩
    · next ha =>
      rw [if_neg ha]
      exact hs₁.online a status h
  · rw [hconnections] at hfound
    split at hfound
    · obtain ⟨old, hold, rfl⟩ := Option.map_eq_some_iff.mp hfound
      exact hs₁.notified c old hold
    · exact hs₁.notified c' found hfound
  · rw [hstatus]
    rw [hlive] at h
    split at h
    · next ha =>
      rw [if_pos ha, Ne, Option.map_eq_none_iff, ha]
      exact hrow
    · next ha =>
      rw [if_neg ha]
      exact hs₁.rows a c' h
  · -- an update needs an open database, so none has been shut
    have hstillOpen : store.isOpen = true :=
      (tables_updateAgent d hstore).1.trans (hearlier.isOpen.trans hopen)
    exact absurd (hstillOpen.symm.trans hclosed) (by decide)

/-- **A hello on a closed connection** makes an entry of it. -/
theorem entry_acceptHello (hello : AgentHelloEnvelope) {agent : RemoteAgentRecord}
    (hopen : s.store.isOpen = true) (hagent : s.store.getAgent agent.id = some agent)
    (hc : s.isClosed c = true) :
    (s.acceptHello d m c hello agent).liveConnection agent.id = some c ∧
      (s.acceptHello d m c hello agent).isClosed c = true := by
  obtain ⟨s₁, nonces, store, hearlier, -, hsame⟩ :=
    acceptHello_table (d := d) (m := m) (c := c) hello hopen hagent
  constructor
  · rw [hsame.live, liveConnection_registeredOnline, if_pos rfl]
  · have hclosed := hearlier.closed hc
    unfold isClosed at hclosed ⊢
    rw [hsame.connections, connections_registeredOnline, if_pos rfl]
    cases hget : s₁.connections.get? c with
    | none => rfl
    | some =>
      rw [hget] at hclosed
      exact hclosed

/-- **A hello**: refusals close its connection. -/
theorem invariant_handleAgentHello (hs : s.TableInvariant) (hello : AgentHelloEnvelope)
    (hc : ∀ agent, s.store.isOpen = true → s.helloVerdict d m c hello = .accepted agent →
      s.isClosed c = false) : (s.handleAgentHello d m c hello).2.TableInvariant := by
  cases handleAgentHello_inversion d m s c hello with
  | kept _ h =>
    rw [h]
    exact hs
  | refused s₁ s₂ code message _ hs₁ hs₂ h =>
    rw [h]
    have hs₁ : s₁.TableInvariant := by
      rcases hs₁ with rfl | rfl
      · exact hs
      · exact (sameTable_cleanupEphemeralState s m.later).invariant hs
    have hs₂ : s₂.TableInvariant := by
      rcases hs₂ with rfl | ⟨agent, eventType, metadata, rfl⟩
      · exact hs₁
      · exact (sameTable_audit d m s₁ _ _ _ _ _ _).invariant hs₁
    exact invariant_reject hs₂ c code message
  | accepted agent hopen hverdict h =>
    rw [h]
    obtain ⟨hagent, hid, -⟩ := helloVerdict_accepted d m s hverdict
    obtain ⟨⟨-, -, -, -, -, -, -, hother⟩, -⟩ :=
      (helloVerdict_accepted_iff d m s c hello).mp ⟨agent, hverdict⟩
    rw [← hid] at hother
    exact invariant_acceptHello hs hello hopen hagent hother (hc agent hopen hverdict)

end Hello

/-! ### Requests -/

section Requests

variable {d} {m : Moment} {s : RemoteControlPlane}

theorem connections_writeAgent (agent : RemoteAgentRecord) :
    (s.writeAgent d agent).connections = s.connections := by
  unfold writeAgent
  split <;> rfl

theorem liveConnection_writeAgent (agent : RemoteAgentRecord) (a : String) :
    (s.writeAgent d agent).liveConnection a = s.liveConnection a := by
  unfold writeAgent
  split <;> rfl

theorem invariant_writeAgent (hs : s.TableInvariant) {agent : RemoteAgentRecord}
    (hagrees : ∀ old, s.store.getAgent agent.id = some old → s.StatusAgrees agent.id agent.status) :
    (s.writeAgent d agent).TableInvariant := by
  refine (rules_writeAgent hs hagrees).mono fun a c _ h => ?_
  unfold Registered
  rw [connections_writeAgent]
  exact h

theorem sameTable_markEnrollmentTokenUsed {store : RemoteStore} {tokenHash usedAt : String}
    (h : s.store.markEnrollmentTokenUsed tokenHash usedAt = .ok store) :
    store.agents = s.store.agents ∧ SameTable s { s with store := store } := by
  obtain ⟨-, _, -, -, rfl⟩ := RemoteStore.markEnrollmentTokenUsed_eq_ok h
  exact ⟨rfl, fun _ => rfl, fun _ => rfl, rfl, rfl⟩

/-- The state in which an agent has enrolled. -/
def enrolled (d : Deployment) (m : Moment) (store : RemoteStore) (publicKey : String)
    (host : AgentHostMetadata) (agent : RemoteAgentRecord) (s : RemoteControlPlane) :
    RemoteControlPlane :=
  (({ s with store := store }).writeAgent d (enrolledRecord d m publicKey host agent)).auditAgent d
    m
    agent "agent_enrolled" .info [("alias", .str agent.aliasName), ("host", .str host.hostname)]

/-- **An enrollment** that does not go through changes nothing. -/
theorem handleAgentEnroll_cases (body : Value) :
    (∃ agent host publicKey tokenHash store, Enrolls d s ⟨.enroll body, m⟩ agent ∧
      s.store.markEnrollmentTokenUsed tokenHash (nowIso d m) = .ok store ∧
      (s.handleAgentEnroll d m body).2 = s.enrolled d m store publicKey host agent) ∨
    (s.handleAgentEnroll d m body).2 = s := by
  rcases handleAgentEnroll_inversion d m s body with
    heq | ⟨host, enrollment, agent, store, hhost, htoken, hpublicKey, hkey, hopen, henrollment,
      hunused, htime, hagent, hstatus, hstore, heq⟩
  · exact .inr heq
  · exact .inl ⟨agent, host, _, _, store,
      ⟨body, host, enrollment, store, rfl, hhost, htoken, hpublicKey, hkey, hopen, henrollment,
        hunused, htime, hagent, hstatus, hstore⟩, hstore, heq⟩

/-- **An enrollment that goes through** leaves its agent offline, and on the connection it is on. -/
theorem table_of_enrolls {e : Step} {agent : RemoteAgentRecord} (h : Enrolls d s e agent) :
    (s.step d e).storedStatus agent.id = some .offline ∧
      (s.step d e).liveConnection agent.id = s.liveConnection agent.id := by
  obtain ⟨body, host, enrollment, store, hevent, hhost, htoken, hpublicKey, hkey, hopen,
    henrollment, hunused, htime, hagent, hstatus, hstore⟩ := h
  -- no check refuses the request
  have hstep : s.step d e = s.enrolled d e.moment store
      ((body.member "public_key").asString.getD "") host agent := by
    unfold step
    rw [hevent]
    change (s.handleAgentEnroll d e.moment body).2 = _
    unfold handleAgentEnroll
    dsimp only
    rw [hhost, if_neg (by simp)]
    dsimp only
    rw [if_neg (by simp [htoken, hpublicKey]), if_neg (by simp [hkey]), if_neg (by simp [hopen]),
      henrollment]
    dsimp only
    rw [if_neg (by simp [hunused, htime]), hagent]
    dsimp only
    rw [if_neg hstatus, hstore]
    rfl
  obtain ⟨hagents, hsame⟩ := sameTable_markEnrollmentTokenUsed hstore
  have hid := (RemoteStore.getAgent_rows hagent).1
  have hrow : store.getAgent agent.id = some agent := by
    rw [RemoteStore.getAgent, hagents, hid]
    exact hagent
  obtain ⟨store', hwritten⟩ := updateAgent_isOk (d := d)
    (s := { s with store := store })
    (enrolledRecord d e.moment ((body.member "public_key").asString.getD "") host agent)
    (hsame.isOpen.trans hopen)
    (by rw [storedAlias, show (enrolledRecord d e.moment _ host agent).id =
      agent.id from rfl, hrow]; rfl)
    (RemoteStore.getAgent_rows hagent).2.profile_text
  rw [hstep]
  constructor
  · have hstatus' := storedStatus_of_updateAgent hwritten agent.id
    rw [if_pos (show agent.id = (enrolledRecord d e.moment _ host agent).id from rfl), storedStatus,
      hrow] at hstatus'
    change (RemoteControlPlane.writeAgent d _ { s with store := store }).storedStatus agent.id = _
    unfold writeAgent
    dsimp only at hwritten ⊢
    rw [hwritten]
    exact hstatus'
  · exact liveConnection_writeAgent (s := { s with store := store }) _ agent.id

theorem invariant_handleAgentEnroll (hs : s.TableInvariant) (body : Value)
    (hfree : ∀ agent, Enrolls d s ⟨.enroll body, m⟩ agent → s.liveConnection agent.id = none) :
    (s.handleAgentEnroll d m body).2.TableInvariant := by
  rcases handleAgentEnroll_cases (d := d) (m := m) (s := s) body with
    ⟨agent, host, publicKey, tokenHash, store, henrolls, hstore, heq⟩ | heq
  · rw [heq]
    refine (sameTable_audit d m _ _ _ _ _ _ _).invariant (invariant_writeAgent ?_ ?_)
    · exact (sameTable_markEnrollmentTokenUsed hstore).2.invariant hs
    · intro old _ _
      have hnone : ({ s with store := store } : RemoteControlPlane).liveConnection
          (enrolledRecord d m publicKey host agent).id = none := hfree agent henrolls
      rw [hnone]
      simp [enrolledRecord]
  · rw [heq]
    exact hs

theorem invariant_createEnrollmentToken (hs : s.TableInvariant) (principal : RemotePrincipal)
    (args : Value) : (s.createEnrollmentToken d m principal args).2.TableInvariant := by
  have hinserted : ∀ {aliasName : String} {store : RemoteStore},
      s.store.insertAgent d.platform
        (pendingRecord d m principal aliasName (requestedProfile args)) = .ok store →
      TableInvariant { s with store := store } := by
    intro aliasName store hstore
    obtain ⟨hopen, hfree, row, hrow, hagentRow, rfl⟩ := RemoteStore.insertAgent_eq_ok hstore
    obtain ⟨-, hid, -, -, hpending, -⟩ := RemoteStore.agentRow_eq_some hagentRow
    -- an agent without a row has no entry
    have hnone : s.liveConnection row.id = none := by
      cases hlive : s.liveConnection row.id with
      | none => rfl
      | some c =>
        have hrows := hs.rows row.id c hlive
        rw [storedStatus, hid, hfree] at hrows
        exact absurd rfl hrows
    have hstatus : ∀ a, ({ s with store := s.store.setAgent row hrow } :
        RemoteControlPlane).storedStatus a =
          if a = row.id then some row.status else s.storedStatus a := by
      intro a
      unfold storedStatus
      rw [RemoteStore.getAgent_setAgent]
      split <;> rfl
    refine ⟨hs.entries, fun a status h => ?_, hs.notified, fun a c hlive => ?_, ?_⟩
    · rw [hstatus] at h
      split at h
      · next ha =>
        obtain rfl := Option.some.inj h
        unfold StatusAgrees
        rw [ha, show ({ s with store := s.store.setAgent row hrow } :
          RemoteControlPlane).liveConnection row.id = none from hnone, hpending]
        exact fun _ => by simp [pendingRecord]
      · exact hs.online a status h
    · rw [hstatus]
      split
      · exact Option.some_ne_none _
      · exact hs.rows a c hlive
    · intro hclosed
      exact absurd (hopen.symm.trans hclosed) (by decide)
  cases createEnrollmentToken_inversion d m s principal args with
  | kept h =>
    rw [h]
    exact hs
  | pending _ store hstore h =>
    rw [h]
    exact hinserted hstore
  | created _ store token store' _ hstore _ hstore' h =>
    rw [h]
    obtain ⟨-, -, rfl⟩ := RemoteStore.insertEnrollmentToken_eq_ok hstore'
    refine (sameTable_audit d m _ _ _ _ _ _ _).invariant ?_
    exact SameTable.invariant (s := { s with store := store })
      ⟨fun _ => rfl, fun _ => rfl, rfl, rfl⟩ (hinserted hstore)

theorem invariant_updateAgentPolicy (hs : s.TableInvariant) (principal : RemotePrincipal)
    (agent : RemoteAgentRecord) (value : Value)
    (hagrees : ∀ policy, updatedPolicy d agent value = some policy →
      Stores d m s principal agent policy → ∀ old, s.store.getAgent agent.id = some old →
        s.StatusAgrees agent.id agent.status) :
    (s.updateAgentPolicy d m principal agent value).2.TableInvariant := by
  unfold updateAgentPolicy
  split
  · exact hs
  · next hcapability =>
    split
    · exact hs
    · next policy hpolicy =>
      dsimp only
      split
      · exact hs
      · next store hstore =>
        have hstored : TableInvariant { s with store := store } :=
          rules_of_updateAgent hs (policyRecord d m agent policy) hstore
            (hagrees policy hpolicy ⟨by simpa using hcapability, store, hstore⟩)
        refine (sameTable_audit d m _ _ _ _ _ _ _).invariant ?_
        split
        · exact hstored
        · exact (sameTable_sendJson _ _ _).invariant hstored

theorem liveConnection_close_self (hs : s.TableInvariant) {a : String} {c : ConnectionId}
    (h : s.liveConnection a = some c) : (s.close d m c).liveConnection a = none := by
  cases hlive : (s.close d m c).liveConnection a with
  | none => rfl
  | some =>
    obtain rfl := Option.some.inj (h.symm.trans (liveConnection_close hlive))
    have hopen := ((invariant_close (d := d) (m := m) hs c).entries a c hlive).isClosed
    rw [(connections_close c).2] at hopen
    cases hopen

theorem sameTable_delete {a : String} (h : s.liveConnection a = none) :
    SameTable s { s with agentConnections := s.agentConnections.delete a } := by
  refine ⟨fun x => ?_, fun _ => rfl, rfl, rfl⟩
  rw [liveConnection_delete]
  split
  · next hx => rw [hx, h]
  · rfl

theorem invariant_revokeAgent (hs : s.TableInvariant) (principal : RemotePrincipal)
    (agent : RemoteAgentRecord) : (s.revokeAgent d m principal agent).2.TableInvariant := by
  unfold revokeAgent
  split
  · exact hs
  · have hrevoked : (s.writeAgent d (revokedRecord d m agent)).TableInvariant :=
      invariant_writeAgent hs fun _ _ h => absurd rfl h
    refine (sameTable_audit d m _ _ _ _ _ _ _).invariant ?_
    split
    · next hnone =>
      refine (sameTable_delete ?_).invariant hrevoked
      rw [liveConnection, hnone]
      rfl
    · next live hlive =>
      refine (sameTable_delete (liveConnection_close_self hrevoked ?_)).invariant
        (invariant_close hrevoked _)
      rw [liveConnection, hlive]
      rfl

end Requests

/-! ### A shutdown -/

section Shutdown

variable {d} {m : Moment}

/-- **Closing the connections of entries**: the invariant is kept, and the connections are
closed. -/
theorem invariant_closeAll (entries : List (String × AgentConnection)) {s : RemoteControlPlane}
    (hs : s.TableInvariant) :
    (entries.foldl (fun s e => s.close d m e.2.connection) s).TableInvariant ∧
      (∀ a c, (entries.foldl (fun s e => s.close d m e.2.connection) s).liveConnection a = some c →
        s.liveConnection a = some c) ∧
      (∀ c, (s.isClosed c = true ∨ c ∈ entries.map (·.2.connection)) →
        (entries.foldl (fun s e => s.close d m e.2.connection) s).isClosed c = true) := by
  induction entries generalizing s with
  | nil => exact ⟨hs, fun _ _ h => h, fun c h => h.resolve_right List.not_mem_nil⟩
  | cons e entries ih =>
    obtain ⟨hinvariant, hlive, hclosed⟩ := ih (invariant_close (d := d) (m := m) hs e.2.connection)
    rw [List.foldl_cons]
    refine ⟨hinvariant, fun a c h => liveConnection_close (hlive a c h), fun c h => hclosed c ?_⟩
    rcases h with h | h
    · exact .inl (isClosed_close h _)
    · rcases List.mem_cons.mp h with rfl | h
      · exact .inl (connections_close _).2
      · exact .inr h

theorem sameTable_settleAll (l : List (String × ActionRecord)) (s : RemoteControlPlane) :
    SameTable s (l.foldl (fun s e => s.settle e.2 (.rejected none)) s) := by
  induction l generalizing s with
  | nil => exact .refl s
  | cons e l ih =>
    rw [List.foldl_cons]
    refine SameTable.trans ?_ (ih _)
    exact ⟨fun _ => rfl, fun _ => rfl, rfl, rfl⟩

/-- **A shutdown** leaves no entry, and no agent online. -/
theorem invariant_shutdown {s : RemoteControlPlane} (hs : s.TableInvariant) :
    (s.shutdown d m).TableInvariant := by
  unfold shutdown
  dsimp only
  have hs₁ := (sameTable_settleAll s.pendingActions.entries s).invariant hs
  generalize s.pendingActions.entries.foldl (fun s e => s.settle e.2 (.rejected none))
    s = s₁ at hs₁ ⊢
  obtain ⟨hs₂, hlive, hclosed⟩ :=
    invariant_closeAll (d := d) (m := m) s₁.agentConnections.entries hs₁
  generalize s₁.agentConnections.entries.foldl (fun s e => s.close d m e.2.connection) s₁ = s₂
    at hs₂ hlive hclosed ⊢
  have hnone : ∀ a, s₂.liveConnection a = none := by
    intro a
    cases h : s₂.liveConnection a with
    | none => rfl
    | some c =>
      -- its connection was the one of an entry, and all of these are closed
      obtain ⟨live, hget, hconnection⟩ := Option.map_eq_some_iff.mp (hlive a c h)
      have hmem := List.mem_map_of_mem (f := fun e : String × AgentConnection => e.2.connection)
        (OrderedMap.mem_entries_iff.mpr hget)
      have hshut := hclosed live.connection (.inr hmem)
      rw [hconnection, (hs₂.entries a c h).isClosed] at hshut
      cases hshut
  refine ⟨fun a c h => ?_, fun a status h => ?_, hs₂.notified, fun a c h => ?_, fun _ _ => rfl⟩
  · cases h
  · have honline := hs₂.online a status h
    unfold StatusAgrees at honline ⊢
    rw [hnone] at honline
    exact honline
  · cases h

end Shutdown

/-! ### Steps -/

section Steps

variable {d} {s : RemoteControlPlane}

theorem invariant_receive {m : Moment} {c : ConnectionId} {payload : Option Value}
    (hs : s.TableInvariant) (hc : KeepsTable d s ⟨.message c payload, m⟩) :
    (s.receive d m c payload).TableInvariant := by
  cases receive_inversion d m s c payload with
  | failed _ h =>
    rw [h]
    exact SameTable.invariant (s := s) ⟨fun _ => rfl, fun _ => rfl, rfl, rfl⟩ hs
  | rejected code message _ h =>
    rw [h]
    exact invariant_reject hs c code message
  | hello hello hhello _ h =>
    rw [h]
    obtain ⟨payload, rfl, hschema⟩ := Option.bind_eq_some_iff.mp hhello
    refine invariant_handleAgentHello hs hello fun agent hopen hverdict => ?_
    exact hc.hello c hello (by simp [helloOf, hschema])
      (by simp [acceptedHello, helloOf, hschema, hopen, hverdict])
  | result result _ _ h =>
    rw [h]
    exact (sameTable_handleActionResult d m s c result).invariant hs

theorem invariant_callRemoteTool (hs : s.TableInvariant) (m : Moment) (principal : RemotePrincipal)
    (tool : RemoteToolName) (args : Fields) :
    (s.callRemoteTool d m principal tool args).2.TableInvariant := by
  cases callRemoteTool_inversion d m s principal tool args with
  | kept h =>
    rw [h]
    exact hs
  | tokenCreated _ h =>
    rw [h]
    exact invariant_createEnrollmentToken hs principal _
  | policyUpdated agent _ _ _ hagent h =>
    rw [h]
    -- the record of a tool call has the status that is stored
    refine invariant_updateAgentPolicy hs principal agent _ fun _ _ _ _ _ => ?_
    refine hs.online agent.id agent.status ?_
    rw [storedStatus, (requireAgent_eq_ok hagent).1]
    rfl
  | revoked agent _ _ _ h =>
    rw [h]
    exact invariant_revokeAgent hs principal agent
  | denied _ _ _ h =>
    rw [h]
    exact (sameTable_audit d m s _ _ _ _ _ _).invariant hs
  | dispatched agent _ _ _ h =>
    rw [h]
    exact (sameTable_dispatchAction d m s principal agent tool _ args).invariant hs

/-- **One step keeps the invariant** if it meets the condition. -/
theorem invariant_step (hs : s.TableInvariant) {e : Step} (he : KeepsTable d s e) :
    (s.step d e).TableInvariant := by
  obtain ⟨event, m⟩ := e
  cases event with
  | connect c =>
    change (s.connect c).TableInvariant
    unfold connect
    split
    · exact hs
    · -- a new connection is in no entry yet
      next hnew =>
      have hfree := OrderedMap.contains_eq_false.mp (by simpa using hnew)
      refine ⟨fun a c' hlive => ?_, hs.online, fun c' found hfound => ?_, hs.rows, hs.shut⟩
      · obtain ⟨found, hfound, h⟩ := hs.entries a c' hlive
        refine ⟨found, ?_, h⟩
        change (s.connections.set c _).get? c' = some found
        rw [OrderedMap.get?_set_of_ne _ ?_, hfound]
        rintro rfl
        rw [hfree] at hfound
        cases hfound
      · change (s.connections.set c _).get? c' = some found at hfound
        rw [OrderedMap.get?_set] at hfound
        split at hfound
        · rw [← Option.some.inj hfound]
        · exact hs.notified c' found hfound
  | message => exact invariant_receive hs he
  | messageFailed c =>
    change (s.recover d m c).TableInvariant
    unfold recover
    split
    · refine invariant_reject ?_ c _ _
      exact SameTable.invariant (s := s) ⟨fun _ => rfl, fun _ => rfl, rfl, rfl⟩ hs
    · exact hs
  | socketClosed c => exact invariant_handleClose hs c
  | enroll body => exact invariant_handleAgentEnroll hs body he.enrollment
  | createEnrollmentToken principal body => exact invariant_createEnrollmentToken hs principal body
  | patchArrived request principal agentRef =>
    exact (sameTable_awaitPatch s request principal agentRef).invariant hs
  | patchBody request body =>
    change (s.applyPatch d m request body).TableInvariant
    unfold applyPatch
    cases hpatch : s.patches.get? request with
    | none => exact hs
    | some found =>
      obtain ⟨principal, agent⟩ := found
      -- the body is read, whatever comes of it
      have hread : TableInvariant { s with patches := s.patches.delete request } :=
        SameTable.invariant (s := s) ⟨fun _ => rfl, fun _ => rfl, rfl, rfl⟩ hs
      cases body with
      | none => exact hread
      | some body =>
        refine invariant_updateAgentPolicy hread principal agent _ fun policy hpolicy hstores => ?_
        -- the status a PATCH writes back is what the condition is about
        refine he.policy agent policy ⟨principal, body.member "policy", ?_, hpolicy, hstores⟩
        unfold updateRequest
        dsimp only
        rw [hpatch]
        rfl
  | revoke principal agentRef =>
    change (s.revokeByRef d m principal agentRef).TableInvariant
    unfold revokeByRef
    split
    · exact hs
    · split
      · exact hs
      · exact invariant_revokeAgent hs principal _
  | callTool principal tool args => exact invariant_callRemoteTool hs m principal tool args
  | authenticationFailed =>
    change (if s.store.isOpen then _ else s : RemoteControlPlane).TableInvariant
    split
    · exact (sameTable_audit d m s _ _ _ _ _ _).invariant hs
    · exact hs
  | actionTimeout id => exact (sameTable_timeOut s id).invariant hs
  | actionSettled id => exact (sameTable_resume d m s id).invariant hs
  | cleanup => exact (sameTable_cleanupEphemeralState s m.now).invariant hs
  | shutdown => exact invariant_shutdown hs

/-- The step of an accepted hello. -/
theorem step_of_acceptedHello {e : Step} {c : ConnectionId} {hello : AgentHelloEnvelope}
    (hhello : helloOf d e = some (c, hello)) (haccepted : acceptedHello d s e = some hello) :
    s.store.isOpen = true ∧ ∃ agent, s.helloVerdict d e.moment c hello = .accepted agent ∧
      s.step d e = s.acceptHello d e.moment c hello agent := by
  obtain ⟨event, m⟩ := e
  unfold helloOf at hhello
  split at hhello
  · next c' payload hevent =>
    obtain rfl : event = .message c' (some payload) := hevent
    obtain ⟨found, hfound, heq⟩ := Option.map_eq_some_iff.mp hhello
    obtain ⟨rfl, rfl⟩ := Prod.mk.inj heq
    simp only [acceptedHello, helloOf, hfound, Option.map_some] at haccepted
    split at haccepted
    · next agent hopen hverdict =>
      refine ⟨hopen, agent, hverdict, ?_⟩
      change s.receive d m c' (some payload) = _
      unfold receive
      rw [receive_hello d s m c' hfound]
      unfold handleAgentHello
      rw [hopen, if_neg (by decide), hverdict]
    · cases haccepted
  · cases hhello

/-- **A step out of the invariant into a consistent table** has met the condition. -/
theorem keepsTable_of_step {e : Step} (h : (s.step d e).TableConsistent) : KeepsTable d s e where
  hello c hello hhello haccepted := by
    obtain ⟨hopen, agent, hverdict, hstep⟩ := step_of_acceptedHello hhello haccepted
    -- a registration on a closed connection would be an entry of it
    by_contra hclosed
    obtain ⟨hlive, hstillClosed⟩ := entry_acceptHello (d := d) (m := e.moment) hello hopen
      (helloVerdict_accepted d e.moment s hverdict).1 (by simpa using hclosed)
    rw [← hstep] at hlive hstillClosed
    rw [h.live agent.id c hlive] at hstillClosed
    cases hstillClosed
  policy agent policy hupdate old hold := by
    obtain ⟨row, hrow, hstored⟩ := getAgent_of_updatesPolicy hupdate hold
    obtain ⟨-, -, -, -, hstatus, -⟩ := RemoteStore.agentRow_eq_some hrow
    -- the status is stored again, and the entries are what they were
    have hafter : (s.step d e).storedStatus agent.id = some agent.status := by
      rw [storedStatus, hstored, if_pos rfl, Option.map_some]
      exact congrArg some hstatus
    have hlive : (s.step d e).liveConnection agent.id = s.liveConnection agent.id := by
      obtain ⟨principal, value, hrequest, -⟩ := hupdate
      obtain ⟨patches, hstep⟩ := step_of_updateRequest (d := d) hrequest
      rw [hstep]
      unfold updateAgentPolicy
      split
      · rfl
      · split
        · rfl
        · dsimp only
          split
          · rfl
          · split
            · rfl
            · exact (sameTable_sendJson _ _ _).live agent.id
    have honline := h.online agent.id agent.status hafter
    unfold StatusAgrees at honline ⊢
    rwa [hlive] at honline
  enrollment agent henrolls := by
    obtain ⟨hstatus, hlive⟩ := table_of_enrolls henrolls
    -- an enrolment stores offline, whatever is connected
    have honline := h.online agent.id .offline hstatus (by decide)
    rw [hlive] at honline
    cases hnone : s.liveConnection agent.id with
    | none => rfl
    | some =>
      rw [hnone] at honline
      exact absurd (honline.mpr rfl) (by decide)

end Steps

/-! ### Every run -/

/-- **When the table of connections is consistent.** From a store without online agents, it is so in
every state of a run exactly when every accepted hello has arrived on a connection that is not
closed, every policy update is of a record whose status says what the table says, and no agent with
an entry enrolls. -/
theorem table_consistent_iff (store : RemoteStore) (es : List Step)
    (hoffline : ∀ a agent, store.getAgent a = some agent → agent.status ≠ .online) :
    Run.Along (step d) TableConsistent (start store) es ↔
      Run.AllSteps (step d) (KeepsTable d) (start store) es :=
  Run.along_iff_allSteps_of_invariant (J := TableInvariant) (fun _ => consistent_of_invariant)
    (fun _ _ hs he => invariant_step hs he) (fun _ _ _ h => keepsTable_of_step h)
    (invariant_start hoffline)

theorem offline_sampleStore {a : String} {agent : RemoteAgentRecord}
    (h : sampleStore.getAgent a = some agent) : agent.status ≠ .online := by
  unfold sampleStore at h
  rw [RemoteStore.getAgent_setAgent] at h
  split at h
  · rw [← Option.some.inj h]
    decide
  · cases h

/-- That theorem for a run that says hello. -/
theorem table_consistent_hello :
    Run.Along (step sampleDeployment) TableConsistent (start sampleStore)
        [⟨.connect 0, sampleMoment 0⟩,
          Monitored.arrives 0 (Monitored.helloOfAgent "agt_1" "0123456789abcdef").toFields 1] ↔
      Run.AllSteps (step sampleDeployment) (KeepsTable sampleDeployment) (start sampleStore)
        [⟨.connect 0, sampleMoment 0⟩,
          Monitored.arrives 0 (Monitored.helloOfAgent "agt_1" "0123456789abcdef").toFields 1] :=
  table_consistent_iff sampleDeployment sampleStore _ fun _ _ => offline_sampleStore

/-- A message of no known type, and then a hello in the same chunk. -/
def helloAfterClose : List Step :=
  [⟨.connect 0, sampleMoment 0⟩, ⟨.message 0 (some (.obj [])), sampleMoment 1⟩,
    Monitored.arrives 0 (Monitored.helloOfAgent "agt_1" "0123456789abcdef").toFields 2]

/-- **An entry of a closed connection**: the refusal of a message closes the connection, and the
hello that is decoded after it registers its agent there. -/
theorem closed_connection_registered :
    ¬Run.Along (step sampleDeployment) TableConsistent (start sampleStore) helloAfterClose := by
  intro h
  have hlast := (Run.along_iff_prefix.mp h) _ List.prefix_rfl
  have hentry : (Run.run (step sampleDeployment) (start sampleStore)
      helloAfterClose).liveConnection "agt_1" = some 0 := by
    decide +kernel
  have hclosed : (Run.run (step sampleDeployment) (start sampleStore) helloAfterClose).isClosed 0 =
      true := by
    decide +kernel
  rw [hlast.live "agt_1" 0 hentry] at hclosed
  cases hclosed

end RemoteControlPlane
end Remote
