import McpSshTool.Remote.ControlPlane.Api
import McpSshTool.Remote.ControlPlane.Ownership
import McpSshTool.Remote.Tenancy.Rows

/-!
# Replies to a user

What a REST or MCP request answers depends on the rows of its user, on which of the user's agents
are connected, and on the user's requests that wait.

* `Request`, `respond` — the parts of REST and MCP requests, from one point where they wait to the
  next;
* `Agree` — two states look alike to a user;
* `Agree.respond` — alike states give alike answers.
-/

open Library

namespace Remote

namespace RemoteControlPlane

/-- A lookup by id or alias sees the rows of the user who asks, and no others. -/
theorem resolveAgent_eq (s : RemoteControlPlane) (userId value : String) :
    s.resolveAgent userId value =
      if value = "" then none
      else ((s.store.rowsOf userId).agents.find? fun agent => agent.id = value).or
        ((s.store.rowsOf userId).agents.find? fun agent => agent.aliasName = value) := by
  rw [resolveAgent, RemoteStore.find?_rowsOf_agents, ← RemoteStore.getAgentByAlias_eq]
  split
  · rfl
  · cases s.store.getAgent value with
    | none => rfl
    | some agent =>
      rw [Option.filter_some]
      by_cases huser : agent.userId = userId
      · simp [huser]
      · simp [huser]

/-! ### Requests -/

end RemoteControlPlane

/-- A part of a request: what its handler does from one point where it waits to the next. -/
inductive Request where
  /-- A REST request that has arrived; `n` is its number, should it have to wait. -/
  | api (n : ℕ) (principal : RemotePrincipal) (r : ApiRequest)
  /-- The body of a PATCH request. -/
  | patchBody (n : ℕ) (body : Except Thrown Value)
  /-- An MCP request with its body. -/
  | mcp (principal : RemotePrincipal) (body : Value)
  /-- A dispatched action has settled. -/
  | actionSettled (actionId : String)

/-- The tool that an MCP request calls, and the arguments. -/
def toolCall (body : Value) : Option (RemoteToolName × Fields) :=
  let params := if (body.member "params").isRecord then body.member "params" else .obj []
  if (body.member "method").asString.getD "" = "tools/call" then
    (ofText? remoteTools RemoteToolName.text ((params.member "name").asString.getD "")).map
      fun tool =>
      (tool, if (params.member "arguments").isRecord then (params.member "arguments").ownMembers
        else [])
  else none

/-- The event that a REST request is, if it can change anything. -/
def apiEvent (n : ℕ) (principal : RemotePrincipal) (r : ApiRequest) : Option Event :=
  if r.pathname = "/api/agents/enrollment-tokens" && r.method = "POST" then
    r.body.toOption.map fun body => .createEnrollmentToken principal body
  else if r.pathname = "/api/agents" && r.method = "GET" then none
  else
    match agentMatch r.pathname with
    | none => none
    | some (ref, part) =>
      if part = none && r.method = "GET" then none
      else if (part = none || part = some "policy") && r.method = "PATCH" then
        some (.patchArrived n principal ref)
      else if part = some "revoke" && r.method = "POST" then some (.revoke principal ref)
      else none

theorem apiEvent_eq_some {n : ℕ} {principal : RemotePrincipal} {r : ApiRequest} {event : Event}
    (h : apiEvent n principal r = some event) :
    (∃ body, event = .createEnrollmentToken principal body) ∨
      (∃ agentRef, event = .patchArrived n principal agentRef) ∨
      ∃ agentRef, event = .revoke principal agentRef := by
  unfold apiEvent at h
  split at h
  · obtain ⟨body, -, rfl⟩ := Option.map_eq_some_iff.mp h
    exact .inl ⟨body, rfl⟩
  · split at h
    · cases h
    · split at h
      · cases h
      · split at h
        · cases h
        · split at h
          · exact .inr (.inl ⟨_, (Option.some.inj h).symm⟩)
          · split at h
            · exact .inr (.inr ⟨_, (Option.some.inj h).symm⟩)
            · cases h

/-- **The event that a part of a request is**, if it can change anything. -/
def Request.event : Request → Option Event
  | .api n principal r => apiEvent n principal r
  | .patchBody n body => some (.patchBody n body.toOption)
  | .mcp principal body => (toolCall body).map fun call => .callTool principal call.1 call.2
  | .actionSettled actionId => some (.actionSettled actionId)

/-- What a part of a request leads to. -/
inductive Reply where
  | api (reply : ApiReply)
  | mcp (reply : McpReply)
  /-- The content of a response to a request that has waited. -/
  | content (value : Value)

namespace RemoteControlPlane

variable (d : Deployment) (m : Moment) (x : McpSurface)

/-- A PATCH request that has found its agent waits for its body. -/
def keepWaiting (n : ℕ) (principal : RemotePrincipal) (outcome : Outcome ApiReply) :
    RemoteControlPlane :=
  match outcome.1 with
  | .ok (.awaitBody agent) =>
    { outcome.2 with patches := outcome.2.patches.set n (principal, agent) }
  | _ => outcome.2

/-- A part of a request runs. There is no reply where nothing waits under the given number or id. -/
def respond (request : Request) (s : RemoteControlPlane) :
    Option (Except Thrown Reply) × RemoteControlPlane :=
  match request with
  | .api n principal r =>
    let outcome := s.handleApi d m principal r
    (some (outcome.1.map .api), keepWaiting n principal outcome)
  | .patchBody n body =>
    match s.patches.get? n with
    | none => (none, s)
    | some (principal, agent) =>
      let outcome := ({ s with patches := s.patches.delete n }).finishPatch d m principal agent body
      (some (outcome.1.map .content), outcome.2)
  | .mcp principal body =>
    let outcome := s.handleMcp d m x principal body
    (some (outcome.1.map .mcp), outcome.2)
  | .actionSettled actionId =>
    match s.settled.find? fun e => e.1.id = actionId with
    | none => (none, s)
    | some (action, result) =>
      let rest := { s with settled := s.settled.eraseP fun e => e.1.id = actionId }
      let outcome := rest.finishDispatch d m action result
      (some ((dispatchReply result outcome.1).map .content), outcome.2)

section State

variable {s : RemoteControlPlane} {n : ℕ} {principal : RemotePrincipal}

theorem keepWaiting_mapOutcome {α : Type} (f : α → Value) (status : ℕ) (outcome : Outcome α) :
    keepWaiting n principal (mapOutcome (fun a => ApiReply.respond status (f a)) outcome) =
      outcome.2 := by
  obtain ⟨result, after⟩ := outcome
  cases result <;> rfl

theorem keepWaiting_handleAuditRoute (r : ApiRequest) :
    keepWaiting n principal (s.handleAuditRoute d principal r) = s := by
  unfold handleAuditRoute
  split
  · split
    · rfl
    · cases s.listAudit principal.userId none (auditLimit d r) <;> rfl
  · rfl

/-- A REST request takes the step of its event. -/
theorem keepWaiting_handleApi (r : ApiRequest) :
    keepWaiting n principal (s.handleApi d m principal r) =
      match apiEvent n principal r with
      | none => s
      | some event => s.step d ⟨event, m⟩ := by
  unfold handleApi apiEvent
  split
  · cases r.body with
    | error => rfl
    | ok => exact keepWaiting_mapOutcome id 201 _
  · split
    · split <;> rfl
    · cases agentMatch r.pathname with
      | none => exact keepWaiting_handleAuditRoute d r
      | some found =>
        obtain ⟨ref, part⟩ := found
        dsimp only
        by_cases hget : (part = none && r.method = "GET") = true
        · rw [if_pos hget]
          split
          · rfl
          · split
            · rfl
            · rfl
        · rw [if_neg hget]
          by_cases hpatch : ((part = none || part = some "policy") && r.method = "PATCH") = true
          · rw [if_pos hpatch]
            show _ = s.awaitPatch n principal ref
            unfold awaitPatch
            split
            · rfl
            · cases s.resolveAgent principal.userId ref with
              | none => rfl
              | some => rfl
          · rw [if_neg hpatch]
            by_cases hrevoke : (part = some "revoke" && r.method = "POST") = true
            · rw [if_pos hrevoke]
              show _ = s.revokeByRef d m principal ref
              unfold revokeByRef
              split
              · rfl
              · cases s.resolveAgent principal.userId ref with
                | none => rfl
                | some => exact keepWaiting_mapOutcome _ 200 _
            · rw [if_neg hrevoke]
              split
              · rfl
              · split
                · rfl
                · exact keepWaiting_handleAuditRoute d r

theorem handleMcp_state (body : Value) :
    (s.handleMcp d m x principal body).2 =
      match toolCall body with
      | none => s
      | some (tool, args) => (s.callRemoteTool d m principal tool args).2 := by
  unfold handleMcp toolCall
  dsimp only
  split
  · next h => rw [h]; rfl
  · split
    · next h => rw [h]; rfl
    · split
      · unfold handleToolCall
        dsimp only
        split
        · next tool htool => rw [htool]; rfl
        · next hnone =>
          rw [hnone]
          split <;> rfl
      · rfl

/-- **A request takes the step of its event**, and a request that is no event changes nothing. -/
theorem respond_state (request : Request) :
    (s.respond d m x request).2 =
      match request.event with
      | none => s
      | some event => s.step d ⟨event, m⟩ := by
  cases request with
  | api n principal r => exact keepWaiting_handleApi d m r
  | patchBody n body =>
    show _ = s.applyPatch d m n body.toOption
    unfold respond applyPatch
    cases hget : s.patches.get? n with
    | none => simp only [hget]
    | some =>
      simp only [hget]
      cases body <;> rfl
  | mcp principal body =>
    show (s.handleMcp d m x principal body).2 = _
    rw [handleMcp_state]
    simp only [Request.event]
    cases toolCall body <;> rfl
  | actionSettled actionId =>
    show _ = s.resume d m actionId
    unfold respond resume
    cases hfind : s.settled.find? fun e => e.1.id = actionId with
    | none => simp only [hfind]
    | some => simp only [hfind]

end State

/-- The user on whose authority a part of a request runs. -/
def requestUser (request : Request) (s : RemoteControlPlane) : Option String :=
  match request with
  | .api _ principal _ => some principal.userId
  | .mcp principal _ => some principal.userId
  | .patchBody n _ => (s.patches.get? n).map fun waiting => waiting.1.userId
  | .actionSettled actionId =>
    (s.settled.find? fun e => e.1.id = actionId).map fun waiting => waiting.1.userId

/-! ### Alike states -/

/-- **Two states look alike to a user**: they agree on the user's rows, on which of the user's
agents are connected, and on the user's requests that wait, replies of agents included. -/
structure Agree (userId : String) (s₁ s₂ : RemoteControlPlane) : Prop where
  isOpen : s₁.store.isOpen = s₂.store.isOpen
  rows : s₁.store.rowsOf userId = s₂.store.rowsOf userId
  connected : ∀ agent ∈ (s₁.store.rowsOf userId).agents,
    (s₁.agentConnections.get? agent.id).isSome = (s₂.agentConnections.get? agent.id).isSome
  patches : ∀ n principal agent, principal.userId = userId →
    (s₁.patches.get? n = some (principal, agent) ↔ s₂.patches.get? n = some (principal, agent))
  settled : ∀ (id : String) (action : ActionRecord) (outcome : ActionOutcome),
    action.userId = userId →
    ((s₁.settled.find? fun e => e.1.id = id) = some (action, outcome) ↔
      (s₂.settled.find? fun e => e.1.id = id) = some (action, outcome))

/-- The ids that a step draws are not in use. -/
structure Fresh (s : RemoteControlPlane) : Prop where
  agent : s.store.getAgent (freshId m "agt") = none
  enrollmentToken : s.store.enrollmentTokens.get? (hashSecret d.platform m.token) = none
  action : s.store.actions.get? (freshId m "act") = none

/-! ### Alike lookups -/

section Replies

open RemoteStore (verdict)

variable {d : Deployment} {m : Moment} {userId : String} {s₁ s₂ : RemoteControlPlane}

theorem Agree.resolveAgent (h : Agree userId s₁ s₂) (value : String) :
    s₁.resolveAgent userId value = s₂.resolveAgent userId value := by
  rw [resolveAgent_eq, resolveAgent_eq, h.rows]

theorem Agree.getAgentByAlias (h : Agree userId s₁ s₂) (aliasName : String) :
    s₁.store.getAgentByAlias userId aliasName = s₂.store.getAgentByAlias userId aliasName := by
  rw [RemoteStore.getAgentByAlias_eq, RemoteStore.getAgentByAlias_eq, h.rows]

theorem Agree.listAgents (h : Agree userId s₁ s₂) :
    s₁.listAgents userId = s₂.listAgents userId := by
  have hrows : (s₁.store.rowsOf userId).agents = (s₂.store.rowsOf userId).agents := by rw [h.rows]
  simp only [RemoteStore.rowsOf, OrderedMap.values] at hrows
  unfold RemoteControlPlane.listAgents
  rw [hrows]

theorem Agree.listAudit (h : Agree userId s₁ s₂) (agentId : Option String) (limit : JsNumber) :
    s₁.listAudit userId agentId limit = s₂.listAudit userId agentId limit := by
  have hfilter : ∀ s : RemoteControlPlane,
      (s.store.auditEvents.filter fun event =>
        event.userId = some userId && (agentId.all fun id => event.agentId = some id)) =
      (s.store.rowsOf userId).auditEvents.filter fun event =>
        agentId.all fun id => event.agentId = some id := by
    intro s
    rw [RemoteStore.rowsOf, List.filter_filter]
    exact List.filter_congr fun event _ => Bool.and_comm _ _
  unfold RemoteControlPlane.listAudit
  rw [hfilter, hfilter, h.rows]

theorem Agree.getAgent (h : Agree userId s₁ s₂) {agentId : String} {agent : RemoteAgentRecord}
    (hget : s₁.store.getAgent agentId = some agent) (huser : agent.userId = userId) :
    s₂.store.getAgent agentId = some agent := by
  have hid := (RemoteStore.getAgent_rows hget).1
  have hmem : agent ∈ (s₁.store.rowsOf userId).agents :=
    RemoteStore.mem_rowsOf_agents.mpr ⟨by rw [hid]; exact hget, huser⟩
  rw [h.rows] at hmem
  rw [← hid]
  exact (RemoteStore.mem_rowsOf_agents.mp hmem).1

theorem Agree.updateAgent (h : Agree userId s₁ s₂) {agent : RemoteAgentRecord}
    (howned : s₁.OwnedBy agent.id userId) :
    verdict (s₁.store.updateAgent d.platform agent) =
      verdict (s₂.store.updateAgent d.platform agent) := by
  obtain ⟨old, hold, huser⟩ := howned
  rw [RemoteStore.verdict_updateAgent hold, RemoteStore.verdict_updateAgent (h.getAgent hold huser),
    huser, h.rows, h.isOpen]

/-! ### Alike answers -/

theorem Agree.createEnrollmentToken (h : Agree userId s₁ s₂) (hfresh₁ : Fresh d m s₁)
    (hfresh₂ : Fresh d m s₂) {principal : RemotePrincipal} (huser : principal.userId = userId)
    (args : Value) :
    (s₁.createEnrollmentToken d m principal args).1 =
      (s₂.createEnrollmentToken d m principal args).1 := by
  have hinsert : ∀ aliasName, verdict (s₁.store.insertAgent d.platform
      (pendingRecord d m principal aliasName (requestedProfile args))) =
      verdict (s₂.store.insertAgent d.platform
        (pendingRecord d m principal aliasName (requestedProfile args))) := by
    intro aliasName
    rw [RemoteStore.verdict_insertAgent hfresh₁.agent,
      RemoteStore.verdict_insertAgent hfresh₂.agent,
      show (pendingRecord d m principal aliasName (requestedProfile args)).userId =
        userId from huser,
      h.rows, h.isOpen]
  have htoken : ∀ (s : RemoteControlPlane), Fresh d m s → ∀ (agent : RemoteAgentRecord)
      (store : RemoteStore), s.store.insertAgent d.platform agent = .ok store →
      ∀ expiresAt, ∃ store', store.insertEnrollmentToken
        { agentId := agent.id
          userId := userId
          tokenHash := hashSecret d.platform m.token
          expiresAt := expiresAt
          usedAt := none
          createdAt := agent.createdAt } = .ok store' := by
    intro s hfresh agent store hstore expiresAt
    obtain ⟨hopen, -, row, hrow, -, rfl⟩ := RemoteStore.insertAgent_eq_ok hstore
    refine ⟨_, if_neg ?_⟩
    simp [RemoteStore.setAgent, hopen, OrderedMap.contains_eq_false.mpr hfresh.enrollmentToken]
  unfold RemoteControlPlane.createEnrollmentToken
  rw [huser, h.isOpen]
  split
  · rfl
  · split
    · rfl
    · next aliasName _ =>
      rw [h.getAgentByAlias]
      split
      · rfl
      · split
        · rfl
        · rcases RemoteStore.verdict_congr (hinsert aliasName) with ⟨e, h₁, h₂⟩ | ⟨store₁,
            store₂, h₁, h₂⟩
          · simp only [h₁, h₂]
          · simp only [h₁, h₂]
            split
            · rfl
            · next expiresAt _ =>
              obtain ⟨store₁', h₁'⟩ := htoken s₁ hfresh₁ _ _ h₁ expiresAt
              obtain ⟨store₂', h₂'⟩ := htoken s₂ hfresh₂ _ _ h₂ expiresAt
              rw [h₁', h₂']

theorem Agree.updateAgentPolicy (h : Agree userId s₁ s₂) {principal : RemotePrincipal}
    {agent : RemoteAgentRecord} (howned : s₁.OwnedBy agent.id userId) (value : Value) :
    (s₁.updateAgentPolicy d m principal agent value).1 =
      (s₂.updateAgentPolicy d m principal agent value).1 := by
  unfold RemoteControlPlane.updateAgentPolicy
  split
  · rfl
  · split
    · rfl
    · next policy _ =>
      have hverdict : verdict (s₁.store.updateAgent d.platform (policyRecord d m agent policy)) =
          verdict (s₂.store.updateAgent d.platform (policyRecord d m agent policy)) :=
        h.updateAgent howned
      rcases RemoteStore.verdict_congr hverdict with ⟨e, h₁, h₂⟩ | ⟨store₁, store₂, h₁, h₂⟩
      · simp only [h₁, h₂]
      · simp only [h₁, h₂]

theorem Agree.revokeAgent {principal : RemotePrincipal} (agent : RemoteAgentRecord) :
    (s₁.revokeAgent d m principal agent).1 = (s₂.revokeAgent d m principal agent).1 := by
  unfold RemoteControlPlane.revokeAgent
  split <;> rfl

theorem Agree.dispatchAction (h : Agree userId s₁ s₂) (hopen : s₁.store.isOpen = true)
    (hfresh₁ : Fresh d m s₁) (hfresh₂ : Fresh d m s₂) {principal : RemotePrincipal}
    {agent : RemoteAgentRecord} (hagent : agent ∈ (s₁.store.rowsOf userId).agents)
    (tool : RemoteToolName) (capability : RemoteCapability) (args : Fields) :
    (s₁.dispatchAction d m principal agent tool capability args).1 =
      (s₂.dispatchAction d m principal agent tool capability args).1 := by
  have hfree : ∀ s : RemoteControlPlane, s.store.isOpen = true → Fresh d m s →
      (!s.store.isOpen || s.store.actions.contains (freshId m "act")) = false := by
    intro s hopen hfresh
    rw [hopen, OrderedMap.contains_eq_false.mpr hfresh.action]
    rfl
  have hconnected := h.connected agent hagent
  unfold RemoteControlPlane.dispatchAction
  split
  · rfl
  · cases hlive₁ : s₁.agentConnections.get? agent.id with
    | none =>
      rw [hlive₁] at hconnected
      rw [Option.isSome_eq_false_iff.mp hconnected.symm |> Option.isNone_iff_eq_none.mp]
    | some =>
      rw [hlive₁] at hconnected
      obtain ⟨live₂, hlive₂⟩ := Option.isSome_iff_exists.mp hconnected.symm
      rw [hlive₂]
      dsimp only
      split
      · rfl
      · split
        · rfl
        · have hfree₁ := hfree s₁ hopen hfresh₁
          have hfree₂ := hfree s₂ (h.isOpen ▸ hopen) hfresh₂
          simp only [RemoteStore.insertAction, actionRequestEnvelope, hfree₁, hfree₂]
          rfl

theorem Agree.callAgentTool (h : Agree userId s₁ s₂) (hopen : s₁.store.isOpen = true)
    (hfresh₁ : Fresh d m s₁) (hfresh₂ : Fresh d m s₂) {principal : RemotePrincipal}
    {agent : RemoteAgentRecord} (hagent : agent ∈ (s₁.store.rowsOf userId).agents)
    (tool : RemoteToolName) (args : Fields) :
    (s₁.callAgentTool d m principal tool args agent).1 =
      (s₂.callAgentTool d m principal tool args agent).1 := by
  unfold RemoteControlPlane.callAgentTool
  dsimp only
  split
  · rfl
  · exact congrArg (Except.map ToolReply.awaiting)
      (h.dispatchAction hopen hfresh₁ hfresh₂ hagent tool (toolCapabilityMap tool) args)

/-- A tool call about one agent finds the same agent, or none. -/
theorem Agree.withAgent {α : Type} (h : Agree userId s₁ s₂) (args : Fields)
    {rest₁ rest₂ : RemoteAgentRecord → Outcome α}
    (hrest : s₁.store.isOpen = true → ∀ agent ∈ (s₁.store.rowsOf userId).agents,
      (rest₁ agent).1 = (rest₂ agent).1) :
    (s₁.withAgent userId args rest₁).1 = (s₂.withAgent userId args rest₂).1 := by
  unfold RemoteControlPlane.withAgent requireAgent
  rw [h.isOpen, h.resolveAgent]
  by_cases hopen : s₂.store.isOpen = true
  · rw [hopen]
    cases hresolve : s₂.resolveAgent userId
        (((Value.obj args).member "agent_id_or_alias").asString.getD "") with
    | none => rfl
    | some agent =>
      refine hrest (h.isOpen.trans hopen) agent ?_
      rw [h.rows]
      exact RemoteStore.mem_rowsOf_agents.mpr (resolveAgent_eq_some hresolve)
  · rw [Bool.not_eq_true] at hopen
    rw [hopen]
    rfl

theorem Agree.ownedBy {agent : RemoteAgentRecord}
    (hagent : agent ∈ (s₁.store.rowsOf userId).agents) : s₁.OwnedBy agent.id userId :=
  ⟨agent, RemoteStore.mem_rowsOf_agents.mp hagent⟩

/-- **Tools answer alike.** -/
theorem Agree.callRemoteTool (h : Agree userId s₁ s₂) (hfresh₁ : Fresh d m s₁)
    (hfresh₂ : Fresh d m s₂) {principal : RemotePrincipal} (huser : principal.userId = userId)
    (tool : RemoteToolName) (args : Fields) :
    (s₁.callRemoteTool d m principal tool args).1 =
      (s₂.callRemoteTool d m principal tool args).1 := by
  have hagentTool : ∀ tool, (s₁.withAgent principal.userId args fun agent =>
      s₁.callAgentTool d m principal tool args agent).1 =
      (s₂.withAgent principal.userId args fun agent =>
        s₂.callAgentTool d m principal tool args agent).1 := by
    intro tool
    rw [huser]
    exact h.withAgent args fun hopen agent hagent =>
      h.callAgentTool hopen hfresh₁ hfresh₂ hagent tool args
  unfold RemoteControlPlane.callRemoteTool
  dsimp only
  split
  · rfl
  · cases tool with
    | list_hosts =>
      dsimp only
      rw [h.isOpen, huser, h.listAgents]
      split <;> rfl
    | list_agents =>
      dsimp only
      rw [h.isOpen, huser, h.listAgents]
      split <;> rfl
    | create_enrollment_token =>
      exact congrArg (Except.map ToolReply.reply)
        (h.createEnrollmentToken hfresh₁ hfresh₂ huser (.obj args))
    | get_agent_install_command =>
      dsimp only
      rw [huser]
      exact h.withAgent args fun _ _ _ => rfl
    | update_agent_policy =>
      dsimp only
      rw [huser]
      exact h.withAgent args fun _ agent hagent =>
        congrArg (Except.map _) (h.updateAgentPolicy (ownedBy hagent) _)
    | revoke_agent =>
      dsimp only
      rw [huser]
      exact h.withAgent args fun _ agent _ => congrArg (Except.map _) (revokeAgent agent)
    | get_audit_events =>
      dsimp only
      rw [h.isOpen, huser]
      split
      · rfl
      · -- the filter names an agent of the user, and resolves alike
        rw [show (fun a => (s₁.resolveAgent userId a).map (·.id)) =
          fun a => (s₂.resolveAgent userId a).map (·.id) from
            funext fun a => by rw [h.resolveAgent]]
        split
        · rfl
        · rw [h.listAudit]
    | _ => exact hagentTool _

/-- **REST routes answer alike.** -/
theorem Agree.handleApi (h : Agree userId s₁ s₂) (hfresh₁ : Fresh d m s₁)
    (hfresh₂ : Fresh d m s₂) {principal : RemotePrincipal} (huser : principal.userId = userId)
    (r : ApiRequest) : (s₁.handleApi d m principal r).1 = (s₂.handleApi d m principal r).1 := by
  have haudit : (s₁.handleAuditRoute d principal r).1 = (s₂.handleAuditRoute d principal r).1 := by
    unfold RemoteControlPlane.handleAuditRoute
    rw [h.isOpen, huser, h.listAudit]
    split
    · split <;> rfl
    · rfl
  unfold RemoteControlPlane.handleApi
  split
  · split
    · rfl
    · exact congrArg (Except.map _) (h.createEnrollmentToken hfresh₁ hfresh₂ huser _)
  · split
    · rw [h.isOpen, huser, h.listAgents]
      split <;> rfl
    · split
      · exact haudit
      · next ref part _ =>
        rw [h.isOpen, huser, h.resolveAgent]
        split
        · rfl
        · split
          · rfl
          · next agent _ =>
            split
            · rfl
            · split
              · rfl
              · split
                · exact congrArg (Except.map _) (revokeAgent agent)
                · exact haudit

/-- **MCP methods answer alike.** -/
theorem Agree.handleMcp (h : Agree userId s₁ s₂) (hfresh₁ : Fresh d m s₁)
    (hfresh₂ : Fresh d m s₂) (x : McpSurface) {principal : RemotePrincipal}
    (huser : principal.userId = userId) (body : Value) :
    (s₁.handleMcp d m x principal body).1 = (s₂.handleMcp d m x principal body).1 := by
  unfold RemoteControlPlane.handleMcp
  dsimp only
  split
  · rfl
  · split
    · rfl
    · split
      · unfold RemoteControlPlane.handleToolCall
        dsimp only
        split
        · exact congrArg (Except.map _) (h.callRemoteTool hfresh₁ hfresh₂ huser _ _)
        · split <;> rfl
      · rfl

theorem Agree.finishPatch (h : Agree userId s₁ s₂) {principal : RemotePrincipal}
    {agent : RemoteAgentRecord} (howned : s₁.OwnedBy agent.id userId)
    (body : Except Thrown Value) :
    (s₁.finishPatch d m principal agent body).1 = (s₂.finishPatch d m principal agent body).1 := by
  unfold RemoteControlPlane.finishPatch
  split
  · rfl
  · exact congrArg (Except.map _) (h.updateAgentPolicy howned _)

/-- A request that goes on waits no longer. -/
theorem Agree.dropPatch (h : Agree userId s₁ s₂) (n : ℕ) :
    Agree userId { s₁ with patches := s₁.patches.delete n }
      { s₂ with patches := s₂.patches.delete n } where
  isOpen := h.isOpen
  rows := h.rows
  connected := h.connected
  patches := by
    intro n' principal agent huser
    rw [OrderedMap.get?_delete, OrderedMap.get?_delete]
    split
    · rfl
    · exact h.patches n' principal agent huser
  settled := h.settled

theorem finishDispatch_congr (hopen : s₁.store.isOpen = s₂.store.isOpen) (action : ActionRecord)
    (outcome : ActionOutcome) :
    (s₁.finishDispatch d m action outcome).1 = (s₂.finishDispatch d m action outcome).1 := by
  unfold RemoteControlPlane.finishDispatch RemoteStore.updateAction
  rw [hopen]
  cases s₂.store.isOpen <;> rfl

/-- **Alike states answer the requests of a user alike.** -/
theorem Agree.respond (h : Agree userId s₁ s₂) (hs : s₁.Owned) (hfresh₁ : Fresh d m s₁)
    (hfresh₂ : Fresh d m s₂) (x : McpSurface) {request : Request}
    (huser : requestUser request s₁ = some userId) :
    (s₁.respond d m x request).1 = (s₂.respond d m x request).1 := by
  cases request with
  | api n principal r =>
    exact congrArg (fun result => some (Except.map Reply.api result))
      (h.handleApi hfresh₁ hfresh₂ (Option.some.inj huser) r)
  | mcp principal body =>
    exact congrArg (fun result => some (Except.map Reply.mcp result))
      (h.handleMcp hfresh₁ hfresh₂ x (Option.some.inj huser) body)
  | patchBody n body =>
    obtain ⟨⟨principal, agent⟩, hget, huser⟩ := Option.map_eq_some_iff.mp huser
    have huser : principal.userId = userId := huser
    have hget' := (h.patches n principal agent huser).mp hget
    unfold RemoteControlPlane.respond
    simp only [hget, hget']
    have howned : s₁.OwnedBy agent.id userId := huser ▸ hs.patches n principal agent hget
    exact congrArg (fun result => some (Except.map Reply.content result))
      ((h.dropPatch n).finishPatch howned body)
  | actionSettled actionId =>
    obtain ⟨⟨action, outcome⟩, hfind, huser⟩ := Option.map_eq_some_iff.mp huser
    have hfind' := (h.settled actionId action outcome huser).mp hfind
    unfold RemoteControlPlane.respond
    simp only [hfind, hfind']
    refine congrArg
      (fun finished => some (Except.map Reply.content (dispatchReply outcome finished))) ?_
    have hopen : ({ s₁ with settled := s₁.settled.eraseP fun e => e.1.id = actionId } :
        RemoteControlPlane).store.isOpen =
        ({ s₂ with settled := s₂.settled.eraseP fun e => e.1.id = actionId } :
          RemoteControlPlane).store.isOpen := h.isOpen
    exact finishDispatch_congr hopen action outcome

end Replies

end RemoteControlPlane

end Remote
