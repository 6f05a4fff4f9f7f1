import McpSshTool.Remote.ActionSettlement

/-!
# The table of agent connections

The control plane keeps a table of the connections its agents are registered on, and stores with
each agent whether it is online.

* `TableConsistent` — every entry is of a connection that is not closed, and the agents with an
  entry are those that are online;
* `TableInvariant` — that, and what keeps it: the connection of an entry will tell its agent when it
  closes;
* `SameTable` — what leaves the table alone;
* `invariant_close` — a connection that closes takes its entries with it.
-/

open Library

namespace Remote
namespace RemoteControlPlane

/-! ### The property -/

/-- The connection that an agent is registered on. -/
def liveConnection (s : RemoteControlPlane) (a : String) : Option ConnectionId :=
  (s.agentConnections.get? a).map (·.connection)

/-- The stored status of an agent. -/
def storedStatus (s : RemoteControlPlane) (a : String) : Option AgentStatus :=
  (s.store.getAgent a).map (·.status)

/-- **A status says what the table says** of an agent: unless it is `revoked`, it is `online`
exactly when the agent has an entry. -/
def StatusAgrees (s : RemoteControlPlane) (a : String) (status : AgentStatus) : Prop :=
  status ≠ .revoked → (status = .online ↔ (s.liveConnection a).isSome = true)

/-- **The table is consistent.** -/
structure TableConsistent (s : RemoteControlPlane) : Prop where
  live : ∀ a c, s.liveConnection a = some c → s.isClosed c = false
  online : ∀ a status, s.storedStatus a = some status → s.StatusAgrees a status

/-! ### The invariant -/

/-- **The connection of an entry** is not closed, and has a handler that will end the entry. -/
def Registered (s : RemoteControlPlane) (a : String) (c : ConnectionId) : Prop :=
  ∃ connection, s.connections.get? c = some connection ∧ connection.closed = false ∧
    ∃ handler ∈ connection.closeHandlers, handler.agentId = a

/-- What holds of the table, with `R` of its entries. -/
structure TableRules (R : String → ConnectionId → Prop) (s : RemoteControlPlane) : Prop where
  entries : ∀ a c, s.liveConnection a = some c → R a c
  online : ∀ a status, s.storedStatus a = some status → s.StatusAgrees a status
  notified : ∀ c connection, s.connections.get? c = some connection →
    connection.closeNotified = connection.closed
  rows : ∀ a c, s.liveConnection a = some c → s.storedStatus a ≠ none
  shut : s.store.isOpen = false → ∀ a, s.liveConnection a = none

/-- **The invariant.** -/
abbrev TableInvariant (s : RemoteControlPlane) : Prop := TableRules s.Registered s

/-- The entries of the table while a connection closes: those of this connection are left to the
handlers that have not run yet. -/
def StillRegistered (c : ConnectionId) (handlers : List CloseHandler) (s : RemoteControlPlane)
    (a : String) (c' : ConnectionId) : Prop :=
  if c' = c then ∃ handler ∈ handlers, handler.agentId = a else s.Registered a c'

theorem isClosed_eq_false {s : RemoteControlPlane} {c : ConnectionId} :
    s.isClosed c = false ↔
      ∃ connection, s.connections.get? c = some connection ∧ connection.closed = false := by
  unfold isClosed
  cases s.connections.get? c with
  | none => simp
  | some => simp

theorem Registered.isClosed {s : RemoteControlPlane} {a : String} {c : ConnectionId}
    (h : s.Registered a c) : s.isClosed c = false := by
  obtain ⟨connection, hget, hopen, -⟩ := h
  exact isClosed_eq_false.mpr ⟨connection, hget, hopen⟩

theorem consistent_of_invariant {s : RemoteControlPlane} (h : s.TableInvariant) :
    s.TableConsistent :=
  ⟨fun a c hlive => (h.entries a c hlive).isClosed, h.online⟩

theorem invariant_start {store : RemoteStore}
    (h : ∀ a agent, store.getAgent a = some agent → agent.status ≠ .online) :
    (start store).TableInvariant where
  entries a c hlive := absurd hlive (by simp [liveConnection, start])
  online a status hstatus := by
    obtain ⟨agent, hagent, rfl⟩ := Option.map_eq_some_iff.mp hstatus
    intro _
    simp [liveConnection, start, h a agent hagent]
  notified c connection hget := absurd hget (by simp [start])
  rows a c hlive := absurd hlive (by simp [liveConnection, start])
  shut _ a := by simp [liveConnection, start]

/-! ### What leaves the table alone -/

/-- **Nothing happens to the table**, to the connections or to the stored status of agents. -/
structure SameTable (s s' : RemoteControlPlane) : Prop where
  live : ∀ a, s'.liveConnection a = s.liveConnection a
  status : ∀ a, s'.storedStatus a = s.storedStatus a
  connections : s'.connections = s.connections
  isOpen : s'.store.isOpen = s.store.isOpen

theorem SameTable.refl (s : RemoteControlPlane) : SameTable s s :=
  ⟨fun _ => rfl, fun _ => rfl, rfl, rfl⟩

theorem SameTable.trans {s s' s'' : RemoteControlPlane} (h : SameTable s s')
    (h' : SameTable s' s'') : SameTable s s'' where
  live a := (h'.live a).trans (h.live a)
  status a := (h'.status a).trans (h.status a)
  connections := h'.connections.trans h.connections
  isOpen := h'.isOpen.trans h.isOpen

theorem SameTable.registered {s s' : RemoteControlPlane} (h : SameTable s s') {a : String}
    {c : ConnectionId} (hr : s.Registered a c) : s'.Registered a c := by
  unfold Registered
  rw [h.connections]
  exact hr

theorem SameTable.rules {R : String → ConnectionId → Prop} {s s' : RemoteControlPlane}
    (h : SameTable s s') (hs : TableRules R s) : TableRules R s' where
  entries a c hlive := hs.entries a c (h.live a ▸ hlive)
  online a status hstatus := by
    unfold StatusAgrees
    rw [h.live]
    exact hs.online a status (h.status a ▸ hstatus)
  notified c connection hget := hs.notified c connection (h.connections ▸ hget)
  rows a c hlive := by
    rw [h.status]
    exact hs.rows a c (h.live a ▸ hlive)
  shut hopen a := by
    rw [h.live]
    exact hs.shut (h.isOpen ▸ hopen) a

theorem TableRules.mono {R R' : String → ConnectionId → Prop} {s : RemoteControlPlane}
    (hs : TableRules R s) (h : ∀ a c, s.liveConnection a = some c → R a c → R' a c) :
    TableRules R' s :=
  ⟨fun a c hlive => h a c hlive (hs.entries a c hlive), hs.online, hs.notified, hs.rows, hs.shut⟩

theorem SameTable.invariant {s s' : RemoteControlPlane} (h : SameTable s s')
    (hs : s.TableInvariant) : s'.TableInvariant :=
  (h.rules hs).mono fun _ _ _ => h.registered

section Quiet

variable (d : Deployment) (m : Moment) (s : RemoteControlPlane)

theorem sameTable_audit (userId agentId actionId : Option String) (eventType : String)
    (severity : Severity) (metadata : Fields) :
    SameTable s (s.audit d m userId agentId actionId eventType severity metadata) :=
  ⟨fun _ => rfl, fun _ => rfl, rfl, rfl⟩

theorem sameTable_sendJson (c : ConnectionId) (message : ServerMessage) :
    SameTable s (s.sendJson c message) := by
  unfold sendJson
  split
  · exact .refl s
  · exact ⟨fun _ => rfl, fun _ => rfl, rfl, rfl⟩

theorem sameTable_cleanupEphemeralState (now : ℤ) : SameTable s (s.cleanupEphemeralState now) := by
  refine ⟨fun a => ?_, fun _ => rfl, rfl, rfl⟩
  change ((s.agentConnections.mapValues _).get? a).map _ = (s.agentConnections.get? a).map _
  rw [OrderedMap.get?_mapValues, Option.map_map]
  rfl

theorem sameTable_awaitPatch (request : ℕ) (principal : RemotePrincipal) (agentRef : String) :
    SameTable s (s.awaitPatch request principal agentRef) := by
  unfold awaitPatch
  split
  · exact .refl s
  · split
    · exact .refl s
    · exact ⟨fun _ => rfl, fun _ => rfl, rfl, rfl⟩

theorem sameTable_timeOut (actionId : String) : SameTable s (s.timeOut actionId) := by
  unfold timeOut
  split
  · exact .refl s
  · exact ⟨fun _ => rfl, fun _ => rfl, rfl, rfl⟩

theorem sameTable_resume (actionId : String) : SameTable s (s.resume d m actionId) := by
  cases resume_inversion d m s actionId with
  | kept _ h =>
    rw [h]
    exact .refl s
  | dropped _ _ _ _ h =>
    rw [h]
    exact ⟨fun _ => rfl, fun _ => rfl, rfl, rfl⟩
  | finished _ _ _ _ _ _ _ h =>
    rw [h]
    exact ⟨fun _ => rfl, fun _ => rfl, rfl, rfl⟩

theorem sameTable_setWindow {a : String} {live : AgentConnection}
    (hlive : s.agentConnections.get? a = some live) (nonces : NonceWindow) :
    SameTable s { s with
      agentConnections := s.agentConnections.set a { live with seenNonces := nonces } } := by
  refine ⟨fun x => ?_, fun _ => rfl, rfl, rfl⟩
  change ((s.agentConnections.set a _).get? x).map _ = (s.agentConnections.get? x).map _
  rw [OrderedMap.get?_set]
  split
  · next hx =>
    rw [hx, hlive]
    rfl
  · rfl

theorem sameTable_handleActionResult (c : ConnectionId) (result : ActionResultEnvelope) :
    SameTable s (s.handleActionResult d m c result).2 := by
  rcases handleActionResult_inversion d m s c result with heq | ⟨action, s₁, -, hs₁, hcases⟩
  · rw [heq]
    exact .refl s
  · have hsame : SameTable s s₁ := by
      rcases hs₁ with rfl | ⟨live, window, hlive, rfl⟩
      · exact .refl _
      · exact sameTable_setWindow s hlive window
    refine hsame.trans ?_
    rcases hcases with ⟨eventType, code, heq⟩ | heq
    · rw [heq]
      exact ⟨fun _ => rfl, fun _ => rfl, rfl, rfl⟩
    · rw [heq]
      exact ⟨fun _ => rfl, fun _ => rfl, rfl, rfl⟩

theorem sameTable_dispatchAction (principal : RemotePrincipal) (agent : RemoteAgentRecord)
    (tool : RemoteToolName) (capability : RemoteCapability) (args : Fields) :
    SameTable s (s.dispatchAction d m principal agent tool capability args).2 := by
  cases dispatchAction_inversion d m s principal agent tool capability args with
  | refused _ h =>
    rw [h]
    exact .refl s
  | sent _ _ _ _ _ _ _ _ _ _ _ _ _ hstore h =>
    rw [h]
    obtain ⟨-, -, rfl⟩ := RemoteStore.insertAction_eq_ok hstore
    refine SameTable.trans ?_ (sameTable_sendJson _ _ _)
    exact ⟨fun _ => rfl, fun _ => rfl, rfl, rfl⟩

end Quiet

/-! ### Rows that are written -/

/-- The stored alias of an agent. -/
def storedAlias (s : RemoteControlPlane) (a : String) : Option String :=
  (s.store.getAgent a).map (·.aliasName)

/-- **What `updateAgent` writes** of the status and the alias. -/
theorem getAgent_updateAgent {platform : Platform} {store store' : RemoteStore}
    {agent : RemoteAgentRecord} (h : store.updateAgent platform agent = .ok store') (a : String) :
    (store'.getAgent a).map (fun row => (row.status, row.aliasName)) =
      if a = agent.id then (store.getAgent a).map fun _ => (agent.status, agent.aliasName)
      else (store.getAgent a).map fun row => (row.status, row.aliasName) := by
  obtain ⟨-, row, hrow, h⟩ := RemoteStore.updateAgent_eq_ok h
  obtain ⟨-, hid, -, halias, hstatus, -⟩ := RemoteStore.agentRow_eq_some hrow
  rcases h with ⟨hnone, rfl⟩ | ⟨old, hisRow, hold, rfl⟩
  · split
    · next ha =>
      rw [ha, hnone]
      rfl
    · rfl
  · rw [RemoteStore.getAgent_setAgent, show (RemoteStore.updatedRow row old).id = agent.id from hid]
    by_cases ha : a = agent.id
    · rw [if_pos ha, if_pos ha, ha, hold, Option.map_some, Option.map_some, ← hstatus, ← halias]
      rfl
    · rw [if_neg ha, if_neg ha]

section Rows

variable {d : Deployment} {m : Moment} {s : RemoteControlPlane}

theorem storedStatus_of_updateAgent {store : RemoteStore} {agent : RemoteAgentRecord}
    (h : s.store.updateAgent d.platform agent = .ok store) (a : String) :
    (store.getAgent a).map (·.status) =
      if a = agent.id then (s.storedStatus a).map fun _ => agent.status else s.storedStatus a := by
  have hboth := congrArg (Option.map Prod.fst) (getAgent_updateAgent h a)
  rw [apply_ite (Option.map Prod.fst), Option.map_map, Option.map_map, Option.map_map] at hboth
  unfold storedStatus
  rw [Option.map_map]
  exact hboth

theorem storedAlias_of_updateAgent {store : RemoteStore} {agent : RemoteAgentRecord}
    (h : s.store.updateAgent d.platform agent = .ok store) (a : String) :
    (store.getAgent a).map (·.aliasName) =
      if a = agent.id then (s.storedAlias a).map fun _ => agent.aliasName else s.storedAlias a := by
  have hboth := congrArg (Option.map Prod.snd) (getAgent_updateAgent h a)
  rw [apply_ite (Option.map Prod.snd), Option.map_map, Option.map_map, Option.map_map] at hboth
  unfold storedAlias
  rw [Option.map_map]
  exact hboth

/-- **A write goes through** when it keeps the alias and its profile is a text. -/
theorem updateAgent_isOk (agent : RemoteAgentRecord) (hopen : s.store.isOpen = true)
    (halias : s.storedAlias agent.id = some agent.aliasName)
    (hprofile : ∃ text, agent.profile = .str text) :
    ∃ store, s.store.updateAgent d.platform agent = .ok store := by
  obtain ⟨old, hold, hsame⟩ := Option.map_eq_some_iff.mp halias
  obtain ⟨text, htext⟩ := hprofile
  unfold RemoteStore.updateAgent
  split
  · next hnone =>
    rw [RemoteStore.agentRow, htext] at hnone
    cases hnone
  · rw [if_neg (by rw [hopen]; decide), show s.store.agents.get? agent.id = some old from hold]
    dsimp only
    rw [hsame, if_neg (by simp)]
    exact ⟨_, rfl⟩

/-- A write of one agent's status keeps the rules if the status says what the table says. -/
theorem rules_of_updateAgent {R : String → ConnectionId → Prop} (hs : TableRules R s)
    (agent : RemoteAgentRecord) {store : RemoteStore}
    (hstore : s.store.updateAgent d.platform agent = .ok store)
    (hagrees : ∀ old, s.store.getAgent agent.id = some old → s.StatusAgrees agent.id agent.status) :
    TableRules R { s with store := store } := by
  have hstatus : ∀ a, ({ s with store := store } : RemoteControlPlane).storedStatus a =
      if a = agent.id then (s.storedStatus a).map fun _ => agent.status else s.storedStatus a :=
    storedStatus_of_updateAgent hstore
  refine ⟨hs.entries, fun a status h => ?_, hs.notified, fun a c hlive => ?_, fun hclosed => ?_⟩
  · rw [hstatus] at h
    split at h
    · next ha =>
      obtain ⟨old, hold, rfl⟩ := Option.map_eq_some_iff.mp h
      obtain ⟨row, hrow, -⟩ := Option.map_eq_some_iff.mp hold
      rw [ha]
      exact hagrees row (ha ▸ hrow)
    · exact hs.online a status h
  · rw [hstatus]
    have hrow := hs.rows a c hlive
    split
    · rw [Ne, Option.map_eq_none_iff]
      exact hrow
    · exact hrow
  · have hopen := (RemoteStore.updateAgent_eq_ok hstore).1
    rw [← (tables_updateAgent d hstore).1] at hopen
    exact absurd (hopen.symm.trans hclosed) (by decide)

theorem rules_writeAgent {R : String → ConnectionId → Prop} (hs : TableRules R s)
    {agent : RemoteAgentRecord}
    (hagrees : ∀ old, s.store.getAgent agent.id = some old → s.StatusAgrees agent.id agent.status) :
    TableRules R (s.writeAgent d agent) := by
  unfold writeAgent
  split
  · next store hstore => exact rules_of_updateAgent hs agent hstore hagrees
  · exact hs

theorem storedAlias_writeAgent {agent : RemoteAgentRecord}
    (halias : ∀ old, s.store.getAgent agent.id = some old → agent.aliasName = old.aliasName)
    (a : String) : (s.writeAgent d agent).storedAlias a = s.storedAlias a := by
  unfold writeAgent
  split
  · next store hstore =>
    refine (storedAlias_of_updateAgent hstore a).trans ?_
    split
    · next ha =>
      rw [ha]
      cases hold : s.store.getAgent agent.id with
      | none => rw [storedAlias, hold, Option.map_none, Option.map_none]
      | some old => rw [storedAlias, hold, Option.map_some, Option.map_some, halias old hold]
    · rfl
  · rfl

theorem storedAlias_markOffline (a x : String) :
    (s.markOffline d m a).storedAlias x = s.storedAlias x := by
  unfold markOffline
  split
  · rfl
  · next latest hlatest =>
    split
    · rfl
    · refine storedAlias_writeAgent (fun old hold => ?_) x
      have hid := (RemoteStore.getAgent_rows hlatest).1
      have hsame : some latest = some old := by
        rw [← hlatest, ← hid]
        exact hold
      rw [← Option.some.inj hsame]

theorem connections_markOffline (a : String) :
    (s.markOffline d m a).connections = s.connections := by
  unfold markOffline writeAgent
  split
  · rfl
  · split
    · rfl
    · split <;> rfl

theorem liveConnection_markOffline (a x : String) :
    (s.markOffline d m a).liveConnection x = s.liveConnection x := by
  unfold markOffline writeAgent
  split
  · rfl
  · split
    · rfl
    · split <;> rfl

/-- **An agent without an entry is marked offline**: from a state in which all is well but for its
status. -/
theorem storedStatus_markOffline (hopen : s.store.isOpen = true) (a x : String) :
    (s.markOffline d m a).storedStatus x =
      if x = a then (s.storedStatus x).map fun status =>
        if status = .revoked then .revoked else .offline
      else s.storedStatus x := by
  unfold markOffline
  split
  · next hnone =>
    split
    · next hx =>
      rw [hx, storedStatus, hnone]
      rfl
    · rfl
  · next latest hlatest =>
    have hid := (RemoteStore.getAgent_rows hlatest).1
    obtain ⟨profile, hprofile⟩ := (RemoteStore.getAgent_rows hlatest).2.profile_text
    split
    · next hrevoked =>
      split
      · next hx =>
        rw [hx, storedStatus, hlatest, Option.map_some, Option.map_some, if_pos hrevoked, hrevoked]
      · rfl
    · next hrevoked =>
      obtain ⟨store, hstore⟩ := updateAgent_isOk (d := d)
        { latest with status := .offline, updatedAt := nowIso d m } hopen
        (by rw [storedAlias, show ({ latest with status := .offline, updatedAt := nowIso d m } :
              RemoteAgentRecord).id = a from hid, hlatest, Option.map_some]) ⟨profile, hprofile⟩
      unfold writeAgent
      rw [hstore]
      refine (storedStatus_of_updateAgent hstore x).trans ?_
      rw [show ({ latest with status := .offline, updatedAt := nowIso d m } :
        RemoteAgentRecord).id = a from hid]
      by_cases hx : x = a
      · rw [if_pos hx, if_pos hx, hx, storedStatus, hlatest, Option.map_some, Option.map_some,
          Option.map_some, if_neg hrevoked]
      · rw [if_neg hx, if_neg hx]

end Rows

/-! ### A connection that closes -/

section Closing

variable {d : Deployment} {m : Moment} {s : RemoteControlPlane} {c : ConnectionId}

theorem liveConnection_delete (a x : String) :
    ({ s with agentConnections := s.agentConnections.delete a } : RemoteControlPlane).liveConnection
      x =
      if x = a then none else s.liveConnection x := by
  unfold liveConnection
  rw [OrderedMap.get?_delete]
  split <;> rfl

theorem connections_agentDisconnected (handler : CloseHandler) :
    (s.agentDisconnected d m c handler).connections = s.connections := by
  unfold agentDisconnected
  split
  · rfl
  · split
    · rfl
    · exact connections_markOffline
        (s := { s with agentConnections := s.agentConnections.delete handler.agentId }) _

theorem storedAlias_agentDisconnected (handler : CloseHandler) (a : String) :
    (s.agentDisconnected d m c handler).storedAlias a = s.storedAlias a := by
  unfold agentDisconnected
  split
  · rfl
  · split
    · rfl
    · exact storedAlias_markOffline
        (s := { s with agentConnections := s.agentConnections.delete handler.agentId }) _ _

/-- **A handler has run**: it can be left out where there was no entry for it. -/
theorem StillRegistered.tail {handler : CloseHandler} {handlers : List CloseHandler} {a : String}
    {c' : ConnectionId} (h : s.StillRegistered c (handler :: handlers) a c')
    (hother : c' = c → a ≠ handler.agentId) : s.StillRegistered c handlers a c' := by
  unfold StillRegistered at h ⊢
  split
  · next hc =>
    rw [if_pos hc] at h
    obtain ⟨found, hmem, hagent⟩ := h
    rcases List.mem_cons.mp hmem with rfl | hmem
    · exact absurd hagent.symm (hother hc)
    · exact ⟨found, hmem, hagent⟩
  · next hc =>
    rw [if_neg hc] at h
    exact h

/-- **One close handler** ends the entry that was left to it. -/
theorem rules_agentDisconnected {handler : CloseHandler} {handlers : List CloseHandler}
    (hs : TableRules (s.StillRegistered c (handler :: handlers)) s) :
    TableRules ((s.agentDisconnected d m c handler).StillRegistered c handlers)
      (s.agentDisconnected d m c handler) := by
  have hkept : s.StillRegistered c handlers =
      (s.agentDisconnected d m c handler).StillRegistered c handlers := by
    funext a c'
    unfold StillRegistered Registered
    rw [connections_agentDisconnected]
  rw [← hkept]
  -- without an entry on this connection the handler does nothing
  have hquiet : s.liveConnection handler.agentId ≠ some c →
      TableRules (s.StillRegistered c handlers) s := by
    intro hne
    refine hs.mono fun a c' hlive h => h.tail ?_
    rintro rfl rfl
    exact hne hlive
  unfold agentDisconnected
  cases hget : s.agentConnections.get? handler.agentId with
  | none => exact hquiet (by rw [liveConnection, hget]; exact Option.some_ne_none _ ∘ Eq.symm)
  | some live =>
    dsimp only
    have hlive : s.liveConnection handler.agentId = some live.connection := by
      rw [liveConnection, hget, Option.map_some]
    split
    · next hne => exact hquiet (by rw [hlive]; exact fun h => hne (Option.some.inj h))
    · next heq =>
      have hopen : s.store.isOpen = true := by
        by_contra hclosed
        have hnone := hs.shut (by simpa using hclosed) handler.agentId
        rw [hlive] at hnone
        cases hnone
      refine (sameTable_audit d m _ _ _ _ _ _ _).rules ?_
      have hlive' : ∀ a, (RemoteControlPlane.markOffline d m handler.agentId { s with
          agentConnections := s.agentConnections.delete handler.agentId }).liveConnection a =
            if a = handler.agentId then none else s.liveConnection a :=
        fun a => (liveConnection_markOffline _ a).trans (liveConnection_delete _ a)
      have hstatus : ∀ a, (RemoteControlPlane.markOffline d m handler.agentId { s with
          agentConnections := s.agentConnections.delete handler.agentId }).storedStatus a =
            if a = handler.agentId then (s.storedStatus a).map fun status =>
              if status = .revoked then .revoked else .offline
            else s.storedStatus a :=
        fun a => storedStatus_markOffline (s := { s with
          agentConnections := s.agentConnections.delete handler.agentId }) hopen _ a
      refine ⟨fun a c' h => ?_, fun a status h => ?_, ?_, fun a c' h => ?_, fun h a => ?_⟩
      · rw [hlive'] at h
        split at h
        · cases h
        · next ha => exact (hs.entries a c' h).tail fun _ => ha
      · unfold StatusAgrees
        rw [hlive']
        rw [hstatus] at h
        split
        · next ha =>
          rw [if_pos ha] at h
          obtain ⟨old, -, rfl⟩ := Option.map_eq_some_iff.mp h
          by_cases hrevoked : old = .revoked
          · rw [if_pos hrevoked]
            exact fun h => absurd rfl h
          · rw [if_neg hrevoked]
            exact fun _ => by simp
        · next ha =>
          rw [if_neg ha] at h
          exact hs.online a status h
      · rw [connections_markOffline]
        exact hs.notified
      · rw [hlive'] at h
        rw [hstatus]
        split at h
        · cases h
        · next ha =>
          rw [if_neg ha]
          exact hs.rows a c' h
      · rw [hlive']
        have hsame := (frame_of_routine d m (routine_markOffline d m { s with
          agentConnections := s.agentConnections.delete handler.agentId } handler.agentId)).isOpen
        rw [hsame, hopen] at h
        cases h

/-- All close handlers of a connection. -/
theorem rules_closeHandlers (handlers : List CloseHandler) {s : RemoteControlPlane}
    (hs : TableRules (s.StillRegistered c handlers) s) :
    (handlers.foldl (fun s handler => s.agentDisconnected d m c handler) s).TableInvariant := by
  induction handlers generalizing s with
  | nil =>
    refine hs.mono fun a c' _ h => ?_
    unfold StillRegistered at h
    split at h
    · obtain ⟨_, hmem, -⟩ := h
      exact absurd hmem List.not_mem_nil
    · exact h
  | cons handler handlers ih =>
    rw [List.foldl_cons]
    exact ih (rules_agentDisconnected hs)

/-- **A connection that closes** takes its entries with it. -/
theorem invariant_notifyClose (hs : s.TableInvariant) {connection : Connection}
    (hget : s.connections.get? c = some connection) (hopen : connection.closed = false) :
    (s.notifyClose d m c connection).TableInvariant := by
  unfold notifyClose
  rw [hs.notified c connection hget, hopen, if_neg (by decide)]
  refine rules_closeHandlers connection.closeHandlers ⟨fun a c' hlive => ?_, hs.online, ?_,
    hs.rows, hs.shut⟩
  · obtain ⟨found, hfound, hfoundOpen, handler, hmem, hagent⟩ := hs.entries a c' hlive
    unfold StillRegistered
    split
    · next hc =>
      rw [hc, hget] at hfound
      rw [Option.some.inj hfound]
      exact ⟨handler, hmem, hagent⟩
    · next hc =>
      refine ⟨found, ?_, hfoundOpen, handler, hmem, hagent⟩
      change (s.connections.set c _).get? c' = some found
      rw [OrderedMap.get?_set_of_ne _ hc, hfound]
  · intro c' found hfound
    change (s.connections.set c _).get? c' = some found at hfound
    rw [OrderedMap.get?_set] at hfound
    split at hfound
    · rw [← Option.some.inj hfound]
    · exact hs.notified c' found hfound

theorem invariant_close (hs : s.TableInvariant) (c : ConnectionId) :
    (s.close d m c).TableInvariant := by
  unfold close
  split
  · exact hs
  · next connection hget =>
    split
    · exact hs
    · next hopen => exact invariant_notifyClose hs hget (by simpa using hopen)

theorem invariant_handleClose (hs : s.TableInvariant) (c : ConnectionId) :
    (s.handleClose d m c).TableInvariant := by
  unfold handleClose
  split
  · exact hs
  · next connection hget =>
    cases hclosed : connection.closed with
    | false => exact invariant_notifyClose hs hget hclosed
    | true =>
      -- a connection that has told its handlers is left as it is
      have hsame : ∀ c', (s.connections.set c { connection with closed := true }).get? c' =
          s.connections.get? c' := by
        intro c'
        rw [OrderedMap.get?_set]
        split
        · next hc =>
          rw [hc, hget, ← hclosed]
        · rfl
      unfold notifyClose
      rw [if_pos ((hs.notified c connection hget).trans hclosed)]
      refine ⟨fun a c' hlive => ?_, hs.online, fun c' found hfound => ?_, hs.rows, hs.shut⟩
      · obtain ⟨found, hfound, h⟩ := hs.entries a c' hlive
        exact ⟨found, (hsame c').trans hfound, h⟩
      · exact hs.notified c' found ((hsame c').symm.trans hfound)

theorem invariant_reject (hs : s.TableInvariant) (c : ConnectionId) (code : RemoteErrorCode)
    (message : String) : (s.reject d m c code message).TableInvariant :=
  invariant_close ((sameTable_sendJson s c _).invariant hs) c

/-! ### What closing a connection leaves -/

theorem connections_notifyClose (connection : Connection) :
    ∃ closed : Connection, closed.closed = true ∧
      (s.notifyClose d m c connection).connections = s.connections.set c closed := by
  have hfold : ∀ (handlers : List CloseHandler) (s : RemoteControlPlane),
      (handlers.foldl (fun s handler => s.agentDisconnected d m c handler) s).connections =
        s.connections := by
    intro handlers
    induction handlers with
    | nil => exact fun _ => rfl
    | cons handler handlers ih =>
      intro s
      rw [List.foldl_cons, ih, connections_agentDisconnected]
  unfold notifyClose
  split
  · exact ⟨_, rfl, rfl⟩
  · exact ⟨_, rfl, hfold _ _⟩

/-- What `close` does to the connections. -/
theorem connections_close (c : ConnectionId) :
    (∀ x, x ≠ c → (s.close d m c).connections.get? x = s.connections.get? x) ∧
      (s.close d m c).isClosed c = true := by
  unfold close
  cases hget : s.connections.get? c with
  | none => exact ⟨fun _ _ => rfl, by unfold isClosed; rw [hget]⟩
  | some connection =>
    dsimp only
    split
    · next hclosed => exact ⟨fun _ _ => rfl, by unfold isClosed; rw [hget]; exact hclosed⟩
    · obtain ⟨closed, hclosed, hconnections⟩ :=
        connections_notifyClose (d := d) (m := m) (s := s) (c := c) connection
      refine ⟨fun x hx => ?_, ?_⟩
      · rw [hconnections, OrderedMap.get?_set_of_ne _ hx]
      · unfold isClosed
        rw [hconnections, OrderedMap.get?_set_self]
        exact hclosed

theorem isClosed_close {x : ConnectionId} (h : s.isClosed x = true) (c : ConnectionId) :
    (s.close d m c).isClosed x = true := by
  by_cases hx : x = c
  · rw [hx]
    exact (connections_close c).2
  · unfold isClosed at h ⊢
    rw [(connections_close c).1 x hx]
    exact h

theorem storedAlias_close (c : ConnectionId) (a : String) :
    (s.close d m c).storedAlias a = s.storedAlias a := by
  have hfold : ∀ (handlers : List CloseHandler) (s : RemoteControlPlane),
      (handlers.foldl (fun s handler => s.agentDisconnected d m c handler) s).storedAlias a =
        s.storedAlias a := by
    intro handlers
    induction handlers with
    | nil => exact fun _ => rfl
    | cons handler handlers ih =>
      intro s
      rw [List.foldl_cons, ih, storedAlias_agentDisconnected]
  unfold close
  split
  · rfl
  · split
    · rfl
    · unfold notifyClose
      split
      · rfl
      · exact hfold _ _

theorem liveConnection_close {a : String} {c' : ConnectionId}
    (h : (s.close d m c).liveConnection a = some c') : s.liveConnection a = some c' := by
  obtain ⟨live, hlive, rfl⟩ := Option.map_eq_some_iff.mp h
  rw [liveConnection, (idle_of_routine (routine_close d m s c)).live a live hlive, Option.map_some]

end Closing

end RemoteControlPlane
end Remote
