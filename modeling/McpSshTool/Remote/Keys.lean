import McpSshTool.Remote.ControlPlane.Ownership
import McpSshTool.Remote.Enrollment

/-!
# The keys of agents

An agent proves who it is with a key pair, and the control plane holds the public half in the
agent's row. This file says what one step does to these keys:

* `Knows` — the keys the control plane knows of an agent: the one in its row, those in the records
  that PATCH requests have read and will write back, and the one in the record of its live
  connection;
* `LearnsNoKey` — the operations that add no key: every one but an enrollment;
* `EnrollEffect` — an enrollment throws and changes nothing, or uses up its token;
* `KeyEffect` and `step_keys` — what a step does to the keys and to the enrollment tokens.

A stale PATCH writes back the key that its record has, so an agent's key can return to an earlier
one. That is why `Knows` speaks of every key the control plane may come to store, and not of the row
alone.
-/

open Library

namespace Remote
namespace RemoteControlPlane

/-! ### The keys that are known -/

/-- **A key that is known** of an agent: its row has it, a PATCH that waits has read it, or the
record of its live connection has it. -/
def Knows (s : RemoteControlPlane) (agentId key : String) : Prop :=
  (∃ agent, s.store.getAgent agentId = some agent ∧ agent.publicKey = some key) ∨
    (∃ n principal agent, s.patches.get? n = some (principal, agent) ∧ agent.id = agentId ∧
      agent.publicKey = some key) ∨
    ∃ live, s.agentConnections.get? agentId = some live ∧ live.agent.publicKey = some key

/-- The registrations are earlier ones, as far as their records go. -/
def SameRecords (s s' : RemoteControlPlane) : Prop :=
  ∀ a live', s'.agentConnections.get? a = some live' →
    ∃ live, s.agentConnections.get? a = some live ∧ live.agent = live'.agent

theorem sameRecords_of_eq {s s' : RemoteControlPlane}
    (h : s'.agentConnections = s.agentConnections) : SameRecords s s' :=
  fun _ live hlive => ⟨live, h ▸ hlive, rfl⟩

theorem sameRecords_delete (s : RemoteControlPlane) (agentId : String) :
    SameRecords s { s with agentConnections := s.agentConnections.delete agentId } := by
  intro a live hlive
  change (s.agentConnections.delete agentId).get? a = some live at hlive
  rw [OrderedMap.get?_delete] at hlive
  split at hlive
  · cases hlive
  · exact ⟨live, hlive, rfl⟩

theorem sameRecords_setWindow {s : RemoteControlPlane} {agentId : String} {live : AgentConnection}
    (hlive : s.agentConnections.get? agentId = some live) (window : NonceWindow) :
    SameRecords s { s with
      agentConnections := s.agentConnections.set agentId { live with seenNonces := window } } := by
  intro a live' hlive'
  change (s.agentConnections.set agentId _).get? a = some live' at hlive'
  rw [OrderedMap.get?_set] at hlive'
  split at hlive'
  · next ha => exact ⟨live, ha ▸ hlive, by rw [← Option.some.inj hlive']⟩
  · exact ⟨live', hlive', rfl⟩

theorem sameRecords_cleanup (s : RemoteControlPlane) (now : ℤ) :
    SameRecords s (s.cleanupEphemeralState now) := by
  intro a live' hlive'
  change (s.agentConnections.mapValues _).get? a = some live' at hlive'
  rw [OrderedMap.get?_mapValues] at hlive'
  obtain ⟨live, hlive, rfl⟩ := Option.map_eq_some_iff.mp hlive'
  exact ⟨live, hlive, rfl⟩

/-- **Nothing is learnt**: no key is known that was not, and the tokens are as they were. -/
structure LearnsNoKey (s s' : RemoteControlPlane) : Prop where
  keys : ∀ a key, s'.Knows a key → s.Knows a key
  tokens : s'.store.enrollmentTokens = s.store.enrollmentTokens

namespace LearnsNoKey

theorem refl (s : RemoteControlPlane) : LearnsNoKey s s := ⟨fun _ _ h => h, rfl⟩

theorem trans {s s' s'' : RemoteControlPlane} (h : LearnsNoKey s s') (h' : LearnsNoKey s' s'') :
    LearnsNoKey s s'' :=
  ⟨fun a key hknows => h.keys a key (h'.keys a key hknows), h'.tokens.trans h.tokens⟩

theorem of_sameRecords {s s' : RemoteControlPlane} (hrecords : SameRecords s s')
    (hagents : s'.store.agents = s.store.agents)
    (htokens : s'.store.enrollmentTokens = s.store.enrollmentTokens)
    (hpatches : s'.patches = s.patches) : LearnsNoKey s s' := by
  refine ⟨fun a key hknows => ?_, htokens⟩
  unfold Knows RemoteStore.getAgent at hknows ⊢
  rw [hagents, hpatches] at hknows
  refine hknows.imp_right (Or.imp_right ?_)
  rintro ⟨live', hlive', hkey⟩
  obtain ⟨live, hlive, hagent⟩ := hrecords a live' hlive'
  exact ⟨live, hlive, hagent ▸ hkey⟩

theorem of_eq {s s' : RemoteControlPlane} (hagents : s'.store.agents = s.store.agents)
    (htokens : s'.store.enrollmentTokens = s.store.enrollmentTokens)
    (hpatches : s'.patches = s.patches) (hlive : s'.agentConnections = s.agentConnections) :
    LearnsNoKey s s' :=
  .of_sameRecords (sameRecords_of_eq hlive) hagents htokens hpatches

end LearnsNoKey

section Operations

variable (d : Deployment) (m : Moment) (s : RemoteControlPlane)

theorem agentRow_publicKey {platform : Platform} {agent row : RemoteAgentRecord} {key : String}
    (h : RemoteStore.agentRow platform agent = some row) (hkey : row.publicKey = some key) :
    agent.publicKey = some key := by
  obtain ⟨profile, -, rfl⟩ := Option.map_eq_some_iff.mp h
  exact (Option.filter_eq_some_iff.mp hkey).1

/-- **A write of a record**: its own agent gets its key, and that is all. -/
theorem knows_updateAgent {s : RemoteControlPlane} {store : RemoteStore} {agent : RemoteAgentRecord}
    (h : s.store.updateAgent d.platform agent = .ok store) {a key : String}
    (hknows : Knows { s with store := store } a key) :
    s.Knows a key ∨ (a = agent.id ∧ agent.publicKey = some key) := by
  obtain ⟨-, row, hrow, hcases⟩ := RemoteStore.updateAgent_eq_ok h
  rcases hcases with ⟨-, rfl⟩ | ⟨old, hisRow, -, rfl⟩
  · exact .inl hknows
  · rcases hknows with ⟨found, hfound, hfoundKey⟩ | hwaiting
    · rw [RemoteStore.getAgent_setAgent] at hfound
      split at hfound
      · next ha =>
        -- the row that was written
        obtain rfl := Option.some.inj hfound
        exact .inr ⟨ha.trans (RemoteStore.agentRow_eq_some hrow).2.1,
          agentRow_publicKey hrow hfoundKey⟩
      · exact .inl (.inl ⟨found, hfound, hfoundKey⟩)
    · exact .inl (.inr hwaiting)

theorem enrollmentTokens_updateAgent {store store' : RemoteStore} {agent : RemoteAgentRecord}
    (h : store.updateAgent d.platform agent = .ok store') :
    store'.enrollmentTokens = store.enrollmentTokens := by
  obtain ⟨-, row, -, ⟨-, rfl⟩ | ⟨old, hisRow, -, rfl⟩⟩ := RemoteStore.updateAgent_eq_ok h <;> rfl

/-- **A record whose key is known** can be written, also later. -/
theorem learnsNoKey_updateAgent {s s' : RemoteControlPlane} (hlater : LearnsNoKey s s')
    {store : RemoteStore} {agent : RemoteAgentRecord}
    (h : s'.store.updateAgent d.platform agent = .ok store)
    (hkey : ∀ key, agent.publicKey = some key → s.Knows agent.id key) :
    LearnsNoKey s { s' with store := store } := by
  refine ⟨fun a key hknows => ?_, (enrollmentTokens_updateAgent d h).trans hlater.tokens⟩
  rcases knows_updateAgent d h hknows with hbefore | ⟨rfl, hpublicKey⟩
  · exact hlater.keys a key hbefore
  · exact hkey key hpublicKey

theorem learnsNoKey_writeAgent {s s' : RemoteControlPlane} (hlater : LearnsNoKey s s')
    {agent : RemoteAgentRecord} (hkey : ∀ key, agent.publicKey = some key → s.Knows agent.id key) :
    LearnsNoKey s (s'.writeAgent d agent) := by
  unfold writeAgent
  split
  · next store hstore => exact learnsNoKey_updateAgent d hlater hstore hkey
  · exact hlater

theorem knows_of_getAgent {s : RemoteControlPlane} {a : String} {agent : RemoteAgentRecord}
    (h : s.store.getAgent a = some agent) {key : String} (hkey : agent.publicKey = some key) :
    s.Knows agent.id key := by
  rw [(RemoteStore.getAgent_rows h).1]
  exact .inl ⟨agent, h, hkey⟩

theorem learnsNoKey_audit (userId agentId actionId : Option String) (eventType : String)
    (severity : Severity) (metadata : Fields) :
    LearnsNoKey s (s.audit d m userId agentId actionId eventType severity metadata) :=
  .of_eq rfl rfl rfl rfl

theorem learnsNoKey_sendJson (c : ConnectionId) (message : ServerMessage) :
    LearnsNoKey s (s.sendJson c message) := by
  unfold sendJson
  split
  · exact .refl s
  · exact .of_eq rfl rfl rfl rfl

theorem learnsNoKey_markOffline (a : String) : LearnsNoKey s (s.markOffline d m a) := by
  unfold markOffline
  split
  · exact .refl s
  · next latest hlatest =>
    split
    · exact .refl s
    · exact learnsNoKey_writeAgent d (.refl s) fun key hkey => knows_of_getAgent hlatest hkey

theorem learnsNoKey_agentDisconnected (c : ConnectionId) (handler : CloseHandler) :
    LearnsNoKey s (s.agentDisconnected d m c handler) := by
  unfold agentDisconnected
  split
  · exact .refl s
  · split
    · exact .refl s
    · have hforget : LearnsNoKey s { s with
          agentConnections := s.agentConnections.delete handler.agentId } :=
        .of_sameRecords (sameRecords_delete s _) rfl rfl rfl
      exact hforget.trans
        ((learnsNoKey_markOffline d m _ _).trans (learnsNoKey_audit d m _ _ _ _ _ _ _))

theorem learnsNoKey_notifyClose (c : ConnectionId) (connection : Connection) :
    LearnsNoKey s (s.notifyClose d m c connection) := by
  have hfold : ∀ (handlers : List CloseHandler) (s' : RemoteControlPlane), LearnsNoKey s s' →
      LearnsNoKey s (handlers.foldl (fun s handler => s.agentDisconnected d m c handler) s') := by
    intro handlers
    induction handlers with
    | nil => exact fun _ h => h
    | cons handler handlers ih =>
      intro s' h
      rw [List.foldl_cons]
      exact ih _ (h.trans (learnsNoKey_agentDisconnected d m s' c handler))
  unfold notifyClose
  split
  · exact .of_eq rfl rfl rfl rfl
  · exact hfold _ _ (.of_eq rfl rfl rfl rfl)

theorem learnsNoKey_close (c : ConnectionId) : LearnsNoKey s (s.close d m c) := by
  unfold close
  split
  · exact .refl s
  · split
    · exact .refl s
    · exact learnsNoKey_notifyClose d m s c _

theorem learnsNoKey_handleClose (c : ConnectionId) : LearnsNoKey s (s.handleClose d m c) := by
  unfold handleClose
  split
  · exact .refl s
  · exact learnsNoKey_notifyClose d m s c _

theorem learnsNoKey_reject (c : ConnectionId) (code : RemoteErrorCode) (message : String) :
    LearnsNoKey s (s.reject d m c code message) :=
  (learnsNoKey_sendJson s c _).trans (learnsNoKey_close d m _ c)

/-- A registration keeps the record that the hello found. -/
theorem learnsNoKey_registerHello (c : ConnectionId) (hello : AgentHelloEnvelope)
    {agent : RemoteAgentRecord} (hagent : s.store.getAgent agent.id = some agent) :
    LearnsNoKey s (s.registerHello d m c hello agent) := by
  have hregister : ∀ (s' : RemoteControlPlane) (nonces : NonceWindow), LearnsNoKey s s' →
      LearnsNoKey s { s' with agentConnections :=
        s'.agentConnections.set agent.id { agent, connection := c, seenNonces := nonces } } := by
    refine fun s' nonces h => ⟨fun a key hknows => ?_, h.tokens⟩
    obtain hrow | hwaiting | ⟨live, hlive, hkey⟩ := hknows
    · exact h.keys a key (.inl hrow)
    · exact h.keys a key (.inr (.inl hwaiting))
    · change (s'.agentConnections.set agent.id _).get? a = some live at hlive
      rw [OrderedMap.get?_set] at hlive
      split at hlive
      · next ha =>
        obtain rfl := Option.some.inj hlive
        exact ha ▸ knows_of_getAgent hagent hkey
      · exact h.keys a key (.inr (.inr ⟨live, hlive, hkey⟩))
  have hcleaned : ∀ nonces, LearnsNoKey s { s.cleanupEphemeralState m.later with
      agentHelloNonces := nonces } := fun _ =>
    .of_sameRecords (sameRecords_cleanup s m.later) rfl rfl rfl
  unfold registerHello
  dsimp only
  split
  · next existing _ =>
    -- the earlier connection is closed on the way
    exact hregister _ _ ((hcleaned _).trans (learnsNoKey_close d m _ _))
  · exact hregister _ _ (hcleaned _)

/-- The record of an accepted hello was read before the registration, which may have written the
row. -/
theorem learnsNoKey_acceptHello (c : ConnectionId) (hello : AgentHelloEnvelope)
    {agent : RemoteAgentRecord} (hagent : s.store.getAgent agent.id = some agent) :
    LearnsNoKey s (s.acceptHello d m c hello agent) := by
  have hwritten : LearnsNoKey s ((s.registerHello d m c hello agent).writeAgent d
      (onlineRecord d m hello agent)) :=
    learnsNoKey_writeAgent d (learnsNoKey_registerHello d m s c hello hagent)
      fun key hkey => knows_of_getAgent hagent hkey
  unfold acceptHello
  refine hwritten.trans (LearnsNoKey.trans ?_ (learnsNoKey_sendJson _ c _))
  exact .of_eq rfl rfl rfl rfl

theorem learnsNoKey_handleAgentHello (c : ConnectionId) (hello : AgentHelloEnvelope) :
    LearnsNoKey s (s.handleAgentHello d m c hello).2 := by
  cases handleAgentHello_inversion d m s c hello with
  | kept _ h =>
    rw [h]
    exact .refl s
  | refused s₁ s₂ code message _ hs₁ hs₂ h =>
    have hcleaned : LearnsNoKey s s₁ := by
      rcases hs₁ with rfl | rfl
      · exact .refl s₁
      · exact .of_sameRecords (sameRecords_cleanup s m.later) rfl rfl rfl
    have hbefore : LearnsNoKey s₁ s₂ := by
      rcases hs₂ with rfl | ⟨_, _, _, rfl⟩ <;> exact .of_eq rfl rfl rfl rfl
    rw [h]
    exact (hcleaned.trans hbefore).trans (learnsNoKey_reject d m s₂ c code message)
  | accepted agent _ hverdict h =>
    rw [h]
    exact learnsNoKey_acceptHello d m s c hello (helloVerdict_accepted d m s hverdict).1

theorem learnsNoKey_handleActionResult (c : ConnectionId) (result : ActionResultEnvelope) :
    LearnsNoKey s (s.handleActionResult d m c result).2 := by
  rcases handleActionResult_inversion d m s c result with heq | ⟨action, s₁, -, hs₁, hcases⟩
  · rw [heq]
    exact .refl s
  · have hwindow : LearnsNoKey s s₁ := by
      rcases hs₁ with rfl | ⟨live, window, hlive, rfl⟩
      · exact .refl s₁
      · exact .of_sameRecords (sameRecords_setWindow hlive window) rfl rfl rfl
    refine hwindow.trans ?_
    rcases hcases with ⟨eventType, code, heq⟩ | heq <;> rw [heq] <;> exact .of_eq rfl rfl rfl rfl

theorem learnsNoKey_receive (c : ConnectionId) (payload : Option Value) :
    LearnsNoKey s (s.receive d m c payload) := by
  cases receive_inversion d m s c payload with
  | failed _ h =>
    rw [h]
    exact .of_eq rfl rfl rfl rfl
  | rejected code message _ h =>
    rw [h]
    exact learnsNoKey_reject d m s c code message
  | hello hello _ _ h =>
    rw [h]
    exact learnsNoKey_handleAgentHello d m s c hello
  | result result _ _ h =>
    rw [h]
    exact learnsNoKey_handleActionResult d m s c result

theorem learnsNoKey_recover (c : ConnectionId) : LearnsNoKey s (s.recover d m c) := by
  unfold recover
  split
  · refine LearnsNoKey.trans ?_ (learnsNoKey_reject d m _ c _ _)
    exact .of_eq rfl rfl rfl rfl
  · exact .refl s

/-- A PATCH that starts to wait keeps a record as it is stored. -/
theorem learnsNoKey_awaitPatch (request : ℕ) (principal : RemotePrincipal) (agentRef : String) :
    LearnsNoKey s (s.awaitPatch request principal agentRef) := by
  unfold awaitPatch
  split
  · exact .refl s
  · split
    · exact .refl s
    · next agent hagent =>
      refine ⟨fun a key hknows => ?_, rfl⟩
      rcases hknows with hstored | ⟨n, principal', agent', hget, hid, hkey⟩ | hlive
      · exact .inl hstored
      · rw [OrderedMap.get?_set] at hget
        split at hget
        · obtain ⟨rfl, rfl⟩ := Prod.mk.inj (Option.some.inj hget)
          rw [← hid]
          exact knows_of_getAgent (resolveAgent_eq_some hagent).1 hkey
        · exact .inr (.inl ⟨n, principal', agent', hget, hid, hkey⟩)
      · exact .inr (.inr hlive)

/-- **A policy update** writes back the record it was given, which may be stale. -/
theorem learnsNoKey_updateAgentPolicy {s s' : RemoteControlPlane} (hlater : LearnsNoKey s s')
    (principal : RemotePrincipal) {agent : RemoteAgentRecord} (value : Value)
    (hkey : ∀ key, agent.publicKey = some key → s.Knows agent.id key) :
    LearnsNoKey s (s'.updateAgentPolicy d m principal agent value).2 := by
  unfold updateAgentPolicy
  split
  · exact hlater
  · split
    · exact hlater
    · dsimp only
      split
      · exact hlater
      · next store hstore =>
        have hstored : LearnsNoKey s { s' with store := store } :=
          learnsNoKey_updateAgent d hlater hstore hkey
        refine LearnsNoKey.trans ?_ (learnsNoKey_audit d m _ _ _ _ _ _ _)
        split
        · exact hstored
        · exact hstored.trans (learnsNoKey_sendJson _ _ _)

theorem learnsNoKey_applyPatch (request : ℕ) (body : Option Value) :
    LearnsNoKey s (s.applyPatch d m request body) := by
  unfold applyPatch
  split
  · exact .refl s
  · next principal agent hpatch =>
    have hread : LearnsNoKey s { s with patches := s.patches.delete request } := by
      refine ⟨fun a key hknows => ?_, rfl⟩
      rcases hknows with hstored | ⟨n, principal', agent', hget, hid, hkey⟩ | hlive
      · exact .inl hstored
      · rw [OrderedMap.get?_delete] at hget
        split at hget
        · cases hget
        · exact .inr (.inl ⟨n, principal', agent', hget, hid, hkey⟩)
      · exact .inr (.inr hlive)
    cases body with
    | none => exact hread
    | some =>
      -- the record it waited with was known when the step began
      exact learnsNoKey_updateAgentPolicy d m hread principal _ fun key hkey =>
        .inr (.inl ⟨request, principal, agent, hpatch, rfl, hkey⟩)

theorem learnsNoKey_revokeAgent (principal : RemotePrincipal) {agent : RemoteAgentRecord}
    (hagent : s.store.getAgent agent.id = some agent) :
    LearnsNoKey s (s.revokeAgent d m principal agent).2 := by
  unfold revokeAgent
  split
  · exact .refl s
  · have hwritten : LearnsNoKey s (s.writeAgent d (revokedRecord d m agent)) :=
      learnsNoKey_writeAgent d (.refl s) fun key hkey => knows_of_getAgent hagent hkey
    have hforget : ∀ s' : RemoteControlPlane, LearnsNoKey s s' →
        LearnsNoKey s { s' with agentConnections := s'.agentConnections.delete agent.id } :=
      fun s' h => h.trans (.of_sameRecords (sameRecords_delete s' _) rfl rfl rfl)
    refine LearnsNoKey.trans (hforget _ ?_) (learnsNoKey_audit d m _ _ _ _ _ _ _)
    split
    · exact hwritten
    · exact hwritten.trans (learnsNoKey_close d m _ _)

theorem learnsNoKey_revokeByRef (principal : RemotePrincipal) (agentRef : String) :
    LearnsNoKey s (s.revokeByRef d m principal agentRef) := by
  unfold revokeByRef
  split
  · exact .refl s
  · split
    · exact .refl s
    · next agent hagent =>
      exact learnsNoKey_revokeAgent d m s principal (resolveAgent_eq_some hagent).1

theorem learnsNoKey_dispatchAction (principal : RemotePrincipal) (agent : RemoteAgentRecord)
    (tool : RemoteToolName) (capability : RemoteCapability) (args : Fields) :
    LearnsNoKey s (s.dispatchAction d m principal agent tool capability args).2 := by
  cases dispatchAction_inversion d m s principal agent tool capability args with
  | refused e h =>
    rw [h]
    exact .refl s
  | sent live _ _ action store _ _ _ _ _ _ _ _ hstore h =>
    rw [h]
    obtain ⟨-, -, rfl⟩ := RemoteStore.insertAction_eq_ok hstore
    refine LearnsNoKey.trans ?_ (learnsNoKey_sendJson _ _ _)
    exact .of_eq rfl rfl rfl rfl

theorem learnsNoKey_timeOut (id : String) : LearnsNoKey s (s.timeOut id) := by
  unfold timeOut
  split
  · exact .refl s
  · exact .of_eq rfl rfl rfl rfl

theorem learnsNoKey_resume (id : String) : LearnsNoKey s (s.resume d m id) := by
  cases resume_inversion d m s id with
  | kept _ h =>
    rw [h]
    exact .refl s
  | dropped _ _ _ _ h =>
    rw [h]
    exact .of_eq rfl rfl rfl rfl
  | finished _ _ _ _ _ _ _ h =>
    rw [h]
    exact .of_eq rfl rfl rfl rfl

theorem learnsNoKey_shutdown : LearnsNoKey s (s.shutdown d m) :=
  shutdown_keeps d m s (P := LearnsNoKey s) (.refl s)
    (fun _ _ _ h => h.trans (.of_eq rfl rfl rfl rfl))
    (fun s' c h => h.trans (learnsNoKey_close d m s' c))
    -- the registrations are forgotten
    fun _ h => h.trans (.of_sameRecords (fun _ _ hlive => nomatch hlive) rfl rfl rfl)

end Operations

/-! ### Enrollment -/

section Enrollment

variable (d : Deployment) (m : Moment) (s : RemoteControlPlane)

/-- The text of a member of a request body, empty where it is no text. -/
def bodyText (body : Value) (key : String) : String := (body.member key).asString.getD ""

/-- What an enrollment can do: throw and change nothing, or use up its token, write the record of
the token's agent and reply. -/
inductive EnrollEffect (body : Value) (outcome : Outcome Value) : Prop where
  | refused (e : Thrown) (h : outcome = (.error e, s))
  | enrolled (host : AgentHostMetadata) (token : AgentEnrollmentTokenRecord)
      (agent : RemoteAgentRecord) (store : RemoteStore)
      (hhost : agentHostMetadataSchema (body.member "host") = some host)
      (hkey : d.platform.isValidEd25519PublicKey (bodyText body "public_key") = true)
      (hfilled : bodyText body "public_key" ≠ "")
      (htoken : s.store.getEnrollmentTokenByHash (hashSecret d.platform (bodyText body "token")) =
        some token)
      (hunused : token.usedAt = none) (htime : m.now ≤ d.platform.getTime token.expiresAt)
      (hagent : s.store.getAgent token.agentId = some agent) (hstatus : agent.status ≠ .revoked)
      (hstore : s.store.markEnrollmentTokenUsed token.tokenHash (nowIso d m) = .ok store)
      (h : outcome = (.ok (.obj
          [("agent_id", .str agent.id), ("alias", .str agent.aliasName), ("policy", agent.policy),
            ("websocket_url", .str (websocketUrl d)),
            ("control_plane_public_key", .str d.controlPlaneKeyPair.publicKeyPem)]),
        (({ s with store := store }).writeAgent d
          (enrolledRecord d m (bodyText body "public_key") host agent)).auditAgent d m agent
            "agent_enrolled" .info
            [("alias", .str agent.aliasName), ("host", .str host.hostname)]))

/-- **An enrollment** throws, or all its checks have passed. -/
theorem handleAgentEnroll_effect (body : Value) :
    EnrollEffect d m s body (s.handleAgentEnroll d m body) := by
  unfold handleAgentEnroll
  dsimp only
  split
  · exact .refused _ rfl
  split
  · exact .refused _ rfl
  next host hhost =>
  split
  · exact .refused _ rfl
  next hfilled =>
  split
  · exact .refused _ rfl
  next hkey =>
  split
  · exact .refused _ rfl
  split
  · exact .refused _ rfl
  next token htoken =>
  split
  · exact .refused _ rfl
  next hvalid =>
  split
  · exact .refused _ rfl
  next agent hagent =>
  split
  · exact .refused _ rfl
  next hstatus =>
  split
  · exact .refused _ rfl
  next store hstore =>
  -- the token and the key are not empty, the token is unused and its time is not over
  obtain ⟨-, hpublicKey⟩ : bodyText body "token" ≠ "" ∧ bodyText body "public_key" ≠ "" := by
    simpa [bodyText] using hfilled
  obtain ⟨hunused, htime⟩ : token.usedAt = none ∧ m.now ≤ d.platform.getTime token.expiresAt := by
    simpa using hvalid
  exact .enrolled host token agent store hhost (by simpa [bodyText] using hkey) hpublicKey htoken
    hunused htime
    hagent hstatus hstore rfl

end Enrollment

/-- **A key that was installed**, and the token that was used for it, as it was before. -/
structure Installation where
  token : AgentEnrollmentTokenRecord
  publicKey : String
  installedAt : ℤ

variable (d : Deployment)

/-- What a step installs: an enrollment that succeeds installs the key it was sent. -/
def installation (s : RemoteControlPlane) (e : Step) : Option Installation :=
  match e.event with
  | .enroll body =>
    match (s.handleAgentEnroll d e.moment body).1 with
    | .ok _ =>
      (s.store.getEnrollmentTokenByHash (hashSecret d.platform (bodyText body "token"))).map
        fun token =>
          { token := token
            publicKey := bodyText body "public_key"
            installedAt := e.moment.now }
    | .error _ => none
  | _ => none

/-- **What a step does to the keys and the tokens.** -/
inductive KeyEffect (s : RemoteControlPlane) (e : Step) (s' : RemoteControlPlane) : Prop where
  | quiet (h : LearnsNoKey s s') (hnone : installation d s e = none)
  /-- A token is added, for a new agent of the administrator who asked for it. -/
  | issued (principal : RemotePrincipal) (args : Value) (expiresAt : String)
      (hrequest : enrollmentRequest e = some (principal, args))
      (hcapability : hasCapability principal.capabilities .agentsAdmin = true)
      (hfree : TokenFree d e.moment s)
      (hkeys : ∀ a key, s'.Knows a key → s.Knows a key)
      (htokens : s'.store.enrollmentTokens = s.store.enrollmentTokens.set
        (hashSecret d.platform e.moment.token) (enrollmentToken d e.moment principal expiresAt))
      (hagent : s'.OwnedBy (freshId e.moment "agt") principal.userId)
      (hnone : installation d s e = none)
  /-- A token is used up, and the key that came with it is known of the token's agent. -/
  | installed (tokenHash usedAt : String) (i : Installation) (hsome : installation d s e = some i)
      (htoken : s.store.getEnrollmentTokenByHash tokenHash = some i.token)
      (hunused : i.token.usedAt = none)
      (htime : i.installedAt ≤ d.platform.getTime i.token.expiresAt)
      (hvalid : d.platform.isValidEd25519PublicKey i.publicKey = true)
      (hkeys : ∀ a key, s'.Knows a key → s.Knows a key ∨ (a = i.token.agentId ∧ key = i.publicKey))
      (htokens : ∃ row, s.store.getEnrollmentTokenByHash i.token.tokenHash = some row ∧
        s'.store.enrollmentTokens = s.store.enrollmentTokens.set i.token.tokenHash
          { row with usedAt := some usedAt })

theorem handleAgentEnroll_keys (s : RemoteControlPlane) (m : Moment) (body : Value) :
    KeyEffect d s ⟨.enroll body, m⟩ (s.handleAgentEnroll d m body).2 := by
  cases handleAgentEnroll_effect d m s body with
  | refused e h =>
    rw [h]
    refine .quiet (.refl s) ?_
    unfold installation
    dsimp only
    rw [h]
  | enrolled host token agent store hhost hkey hfilled htoken hunused htime hagent
      hstatus hstore h =>
    have hinstalled : installation d s ⟨.enroll body, m⟩ =
        some { token := token, publicKey := bodyText body "public_key", installedAt := m.now } := by
      unfold installation
      dsimp only
      rw [h, htoken]
      rfl
    rw [h]
    obtain ⟨-, row, hrow, -, rfl⟩ := RemoteStore.markEnrollmentTokenUsed_eq_ok hstore
    refine .installed _ (nowIso d m) _ hinstalled htoken hunused htime hkey (fun a key hknows => ?_)
      ⟨row, hrow, ?_⟩
    · -- the row of the token's agent is written, with the key that was sent
      change Knows (writeAgent d _ _) a key at hknows
      unfold writeAgent at hknows
      split at hknows
      · next store' hstore' =>
        rcases knows_updateAgent d hstore' hknows with hbefore | ⟨rfl, hpublicKey⟩
        · exact .inl hbefore
        · exact .inr ⟨(RemoteStore.getAgent_rows hagent).1, (Option.some.inj hpublicKey).symm⟩
      · exact .inl hknows
    · change (writeAgent d _ _).store.enrollmentTokens = _
      unfold writeAgent
      split
      · next store' hstore' => exact enrollmentTokens_updateAgent d hstore'
      · rfl

theorem getAgent_withPending (s : RemoteControlPlane) (m : Moment) (principal : RemotePrincipal)
    (aliasName : String) (profile : AgentProfileName) (a : String) :
    (withPending d m principal aliasName profile s).store.getAgent a =
      if a = freshId m "agt" then some (pendingRow d m principal aliasName profile)
      else s.store.getAgent a :=
  RemoteStore.getAgent_setAgent s.store (isRow_pendingRow profile) a

/-- A request for a token adds it with its agent, or the agent alone, or changes nothing. -/
theorem createEnrollmentToken_keys (s : RemoteControlPlane) {e : Step} {principal : RemotePrincipal}
    {args : Value} (hrequest : enrollmentRequest e = some (principal, args))
    (hnone : installation d s e = none) :
    KeyEffect d s e (s.createEnrollmentToken d e.moment principal args).2 := by
  by_cases hcreates : CreatesAgent s e
  · obtain ⟨principal', args', aliasName, hrequest', halias, hinserts⟩ := hcreates
    obtain ⟨rfl, rfl⟩ := Prod.mk.inj (Option.some.inj (hrequest.symm.trans hrequest'))
    -- the new row has no key
    have hkeys : ∀ (s' : RemoteControlPlane), s'.patches = s.patches →
        s'.agentConnections = s.agentConnections → s'.store.agents =
          (withPending d e.moment principal aliasName (requestedProfile args) s).store.agents →
        ∀ a key, s'.Knows a key → s.Knows a key := by
      intro s' hpatches hlive hagents a key hknows
      rcases hknows with ⟨found, hfound, hfoundKey⟩ | hwaiting
      · rw [RemoteStore.getAgent, hagents] at hfound
        replace hfound := (getAgent_withPending d s _ _ _ _ a).symm.trans hfound
        split at hfound
        · obtain rfl := Option.some.inj hfound
          cases hfoundKey
        · exact .inl ⟨found, hfound, hfoundKey⟩
      · rw [hpatches, hlive] at hwaiting
        exact .inr hwaiting
    rcases createEnrollmentToken_inserts (d := d) halias hinserts with
      ⟨error, -, houtcome⟩ | ⟨expiresAt, reply, metadata, -, hfree, houtcome⟩
    · rw [houtcome]
      exact .quiet ⟨hkeys _ rfl rfl rfl, rfl⟩ hnone
    · rw [houtcome]
      refine .issued principal args expiresAt hrequest hinserts.capability hfree
        (hkeys _ rfl rfl rfl) rfl
        ⟨pendingRow d e.moment principal aliasName (requestedProfile args), ?_, rfl⟩ hnone
      exact (getAgent_withPending d s _ _ _ _ _).trans (if_pos rfl)
  · rw [← step_of_enrollmentRequest d hrequest, step_of_not_createsAgent d hrequest hcreates]
    exact .quiet (.refl s) hnone

/-- **What one step does** to the keys that are known and to the tokens. -/
theorem step_keys (s : RemoteControlPlane) (e : Step) : KeyEffect d s e (s.step d e) := by
  obtain ⟨event, m⟩ := e
  cases event with
  | connect c =>
    refine .quiet ?_ rfl
    show LearnsNoKey s (s.connect c)
    unfold connect
    split <;> exact .of_eq rfl rfl rfl rfl
  | message c payload => exact .quiet (learnsNoKey_receive d m s c payload) rfl
  | messageFailed c => exact .quiet (learnsNoKey_recover d m s c) rfl
  | socketClosed c => exact .quiet (learnsNoKey_handleClose d m s c) rfl
  | enroll body =>
    -- the key is the one that the token is sent with
    exact handleAgentEnroll_keys d s m body
  | createEnrollmentToken => exact createEnrollmentToken_keys d s rfl rfl
  | patchArrived request principal agentRef =>
    exact .quiet (learnsNoKey_awaitPatch s request principal agentRef) rfl
  | patchBody request body => exact .quiet (learnsNoKey_applyPatch d m s request body) rfl
  | revoke principal agentRef => exact .quiet (learnsNoKey_revokeByRef d m s principal agentRef) rfl
  | callTool principal tool args =>
    show KeyEffect d s _ (s.callRemoteTool d m principal tool args).2
    cases callRemoteTool_inversion d m s principal tool args with
    | kept h =>
      rw [h]
      exact .quiet (.refl s) rfl
    | tokenCreated htool h =>
      subst htool
      rw [h]
      exact createEnrollmentToken_keys d s rfl rfl
    | policyUpdated agent _ _ _ hagent h =>
      rw [h]
      exact .quiet (learnsNoKey_updateAgentPolicy d m (.refl s) principal _ fun key hkey =>
        knows_of_getAgent (requireAgent_eq_ok hagent).1 hkey) rfl
    | revoked agent _ _ hagent h =>
      rw [h]
      exact .quiet (learnsNoKey_revokeAgent d m s principal (requireAgent_eq_ok hagent).1) rfl
    | denied agent metadata _ h =>
      rw [h]
      exact .quiet (learnsNoKey_audit d m s _ _ _ _ _ _) rfl
    | dispatched agent _ _ _ h =>
      -- a dispatch reads the record and writes none
      rw [h]
      exact .quiet (learnsNoKey_dispatchAction d m s principal agent tool _ args) rfl
  | authenticationFailed =>
    refine .quiet ?_ rfl
    show LearnsNoKey s (if s.store.isOpen then _ else s)
    split
    · exact learnsNoKey_audit d m s _ _ _ _ _ _
    · exact .refl s
  | actionTimeout id => exact .quiet (learnsNoKey_timeOut s id) rfl
  | actionSettled id => exact .quiet (learnsNoKey_resume d m s id) rfl
  | cleanup => exact .quiet (.of_sameRecords (sameRecords_cleanup s m.now) rfl rfl rfl) rfl
  | shutdown => exact .quiet (learnsNoKey_shutdown d m s) rfl

/-! ### Users -/

/-- **The rows of agents keep their users**, whatever the step. -/
theorem keepsUsers_step (s : RemoteControlPlane) (e : Step) :
    KeepsUsers s.store (s.step d e).store := by
  rcases step_routine d s e with
    h | ⟨-, action, store, hstore, h⟩ | ⟨c, payload, h⟩ | ⟨id, h⟩ | ⟨id, h⟩ | h | h
  · exact keepsUsers_of_routine h
  · obtain ⟨-, -, rfl⟩ := RemoteStore.insertAction_eq_ok hstore
    have hrest := keepsUsers_of_routine h
    exact KeepsUsers.trans (.of_eq rfl) hrest
  all_goals
    obtain ⟨event, m⟩ := e
    dsimp only at h
    subst h
  · show KeepsUsers s.store (s.receive d m c payload).store
    cases receive_inversion d m s c payload with
    | failed _ h =>
      rw [h]
      exact .of_eq rfl
    | rejected code message _ h =>
      rw [h]
      exact keepsUsers_of_routine (routine_reject d m s c code message)
    | hello hello _ _ h =>
      rw [h]
      cases handleAgentHello_inversion d m s c hello with
      | kept _ h =>
        rw [h]
        exact .of_eq rfl
      | refused s₁ s₂ code message _ hs₁ hs₂ h =>
        -- what was done before the refusal writes no row
        have hbefore : KeepsUsers s.store s₂.store := by
          rcases hs₁ with rfl | rfl <;> rcases hs₂ with rfl | ⟨_, _, _, rfl⟩ <;> exact .of_eq rfl
        rw [h]
        exact hbefore.trans (keepsUsers_of_routine (routine_reject d m s₂ c code message))
      | accepted agent _ hverdict h =>
        rw [h]
        have hagent := (helloVerdict_accepted d m s hverdict).1
        exact (keepsUsers_registerHello d m s c hello agent).trans
          (keepsUsers_of_routine (routine_acceptHello d m s c hello hagent))
    | result result _ _ h =>
      rw [h]
      rcases handleActionResult_inversion d m s c result with heq | ⟨action, s₁, -, hs₁, hcases⟩
      · rw [heq]
        exact .of_eq rfl
      · -- a result touches the window of nonces at most
        have hwindow : s₁.store.agents = s.store.agents := by
          rcases hs₁ with rfl | ⟨live, window, -, rfl⟩ <;> rfl
        rcases hcases with ⟨eventType, code, heq⟩ | heq <;> rw [heq] <;> exact .of_eq hwindow
  · show KeepsUsers s.store (s.timeOut id).store
    unfold timeOut
    split <;> exact .of_eq rfl
  · show KeepsUsers s.store (s.resume d m id).store
    cases resume_inversion d m s id with
    | kept _ h =>
      rw [h]
      exact .of_eq rfl
    | dropped _ _ _ _ h =>
      rw [h]
      exact .of_eq rfl
    | finished _ _ _ _ _ _ _ h =>
      rw [h]
      exact .of_eq rfl
  · exact .of_eq rfl
  · -- a shutdown closes one connection after the other
    exact shutdown_keeps d m s (P := fun s' => KeepsUsers s.store s'.store) (.of_eq rfl)
      (fun _ _ _ h => h) (fun s' c h => h.trans (keepsUsers_of_routine (routine_close d m s' c)))
      fun _ h => h

end RemoteControlPlane
end Remote
