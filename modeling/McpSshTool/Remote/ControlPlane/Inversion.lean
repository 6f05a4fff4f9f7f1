import McpSshTool.Remote.ControlPlane.Step

/-!
# The handlers of the control plane, read off their branches

The lemmas here unfold the handlers with many branches, once for all. Each lists what the handler
can leave behind, with the checks that have passed in that case:

* `handleAgentEnroll_inversion`, `handleAgentHello_inversion`, `handleActionResult_inversion` and,
  for a text frame, `receive_inversion`;
* `createEnrollmentToken_inversion`, `dispatchAction_inversion` and, for a tool call,
  `callRemoteTool_inversion`;
* `resume_inversion`, for the continuation of a dispatch, and `shutdown_keeps`.
-/

open Library

namespace Remote

namespace RemoteControlPlane

variable (d : Deployment) (m : Moment) (s : RemoteControlPlane)

/-! ### Agents -/

/-- **An enrollment** changes nothing, or all its checks pass: the token it names is used up and the
record of the token's agent is written. -/
theorem handleAgentEnroll_inversion (body : Value) :
    (s.handleAgentEnroll d m body).2 = s ∨
    ∃ host enrollment agent store,
      agentHostMetadataSchema (body.member "host") = some host ∧
      (body.member "token").asString.getD "" ≠ "" ∧
      (body.member "public_key").asString.getD "" ≠ "" ∧
      d.platform.isValidEd25519PublicKey ((body.member "public_key").asString.getD "") = true ∧
      s.store.isOpen = true ∧
      s.store.getEnrollmentTokenByHash
        (hashSecret d.platform ((body.member "token").asString.getD "")) = some enrollment ∧
      enrollment.usedAt = none ∧ m.now ≤ d.platform.getTime enrollment.expiresAt ∧
      s.store.getAgent enrollment.agentId = some agent ∧ agent.status ≠ .revoked ∧
      s.store.markEnrollmentTokenUsed enrollment.tokenHash (nowIso d m) = .ok store ∧
      (s.handleAgentEnroll d m body).2 =
        (({ s with store := store }).writeAgent d
          (enrolledRecord d m ((body.member "public_key").asString.getD "") host agent)).auditAgent
            d m
          agent "agent_enrolled" .info
          [("alias", .str agent.aliasName), ("host", .str host.hostname)] := by
  unfold handleAgentEnroll
  dsimp only
  split
  · exact .inl rfl
  split
  · exact .inl rfl
  next host hhost =>
  split
  · exact .inl rfl
  next hfilled =>
  split
  · exact .inl rfl
  next hkey =>
  split
  · exact .inl rfl
  next hopen =>
  split
  · exact .inl rfl
  next enrollment henrollment =>
  split
  · exact .inl rfl
  next hvalid =>
  split
  · exact .inl rfl
  next agent hagent =>
  split
  · exact .inl rfl
  next hstatus =>
  split
  · exact .inl rfl
  next store hstore =>
  -- every check has passed
  obtain ⟨htoken, hpublicKey⟩ : (body.member "token").asString.getD "" ≠ "" ∧
      (body.member "public_key").asString.getD "" ≠ "" := by
    simpa using hfilled
  obtain ⟨hunused, htime⟩ : enrollment.usedAt = none ∧
      m.now ≤ d.platform.getTime enrollment.expiresAt := by
    simpa using hvalid
  exact .inr ⟨host, enrollment, agent, store, hhost, htoken, hpublicKey, by simpa using hkey,
    by simpa using hopen, henrollment, hunused, htime, hagent, hstatus, hstore, rfl⟩

/-- What a hello can do. A refusal is audited where the agent is known, and then closes the
connection. -/
inductive HelloEffect (c : ConnectionId) (hello : AgentHelloEnvelope) (s' : RemoteControlPlane) :
    Prop where
  | kept (hclosed : s.store.isOpen = false) (h : s' = s)
  | refused (s₁ s₂ : RemoteControlPlane) (code : RemoteErrorCode) (message : String)
      (hverdict : ∀ agent, s.helloVerdict d m c hello ≠ .accepted agent)
      (hs₁ : s₁ = s ∨ s₁ = s.cleanupEphemeralState m.later)
      (hs₂ : s₂ = s₁ ∨ ∃ agent eventType metadata,
        s₂ = s₁.auditAgent d m agent eventType .warn metadata)
      (h : s' = s₂.reject d m c code message)
  | accepted (agent : RemoteAgentRecord) (hopen : s.store.isOpen = true)
      (hverdict : s.helloVerdict d m c hello = .accepted agent)
      (h : s' = s.acceptHello d m c hello agent)

theorem handleAgentHello_inversion (c : ConnectionId) (hello : AgentHelloEnvelope) :
    HelloEffect d m s c hello (s.handleAgentHello d m c hello).2 := by
  unfold handleAgentHello
  cases hopen : s.store.isOpen with
  | false => exact .kept hopen rfl
  | true =>
    rw [if_neg (by decide)]
    cases hverdict : s.helloVerdict d m c hello with
    | notEnrolled =>
      exact .refused s s _ _ (fun _ h => nomatch hverdict.symm.trans h) (.inl rfl) (.inl rfl) rfl
    | signatureInvalid agent =>
      exact .refused s _ _ _ (fun _ h => nomatch hverdict.symm.trans h) (.inl rfl)
        (.inr ⟨agent, _, _, rfl⟩) rfl
    | expired agent =>
      exact .refused s _ _ _ (fun _ h => nomatch hverdict.symm.trans h) (.inl rfl)
        (.inr ⟨agent, _, _, rfl⟩) rfl
    | duplicate agent =>
      exact .refused _ _ _ _ (fun _ h => nomatch hverdict.symm.trans h) (.inr rfl)
        (.inr ⟨agent, _, _, rfl⟩) rfl
    | replayed agent =>
      exact .refused _ _ _ _ (fun _ h => nomatch hverdict.symm.trans h) (.inr rfl)
        (.inr ⟨agent, _, _, rfl⟩) rfl
    | accepted agent => exact .accepted agent hopen hverdict rfl

/-- **A result** changes nothing, or the action it names settles; before that, the window of the
agent's registration may have changed. -/
theorem handleActionResult_inversion (c : ConnectionId) (result : ActionResultEnvelope) :
    (s.handleActionResult d m c result).2 = s ∨
    ∃ action s₁, s.pendingActions.get? result.action_id = some action ∧
      (s₁ = s ∨ ∃ live window, s.agentConnections.get? result.agent_id = some live ∧
        s₁ = { s with
          agentConnections :=
            s.agentConnections.set result.agent_id { live with seenNonces := window } }) ∧
      ((∃ eventType code,
          (s.handleActionResult d m c result).2 = s₁.refuseResult d m action eventType code) ∨
        (s.handleActionResult d m c result).2 = s₁.settle action (.resolved result)) := by
  unfold handleActionResult
  split
  · exact .inl rfl
  next action haction =>
  dsimp only
  split
  · exact .inl rfl
  refine .inr ⟨action, ?_⟩
  split
  · exact ⟨s, haction, .inl rfl, .inl ⟨_, _, rfl⟩⟩
  split
  · exact ⟨s, haction, .inl rfl, .inl ⟨_, _, rfl⟩⟩
  next live hlive =>
  split
  · exact ⟨s, haction, .inl rfl, .inl ⟨_, _, rfl⟩⟩
  split
  · exact ⟨_, haction, .inr ⟨live, _, hlive, rfl⟩, .inl ⟨_, _, rfl⟩⟩
  · exact ⟨_, haction, .inr ⟨live, _, hlive, rfl⟩, .inr rfl⟩

/-- The handler of results throws on a closed database only, which is before it changes anything. -/
theorem handleActionResult_error {c : ConnectionId} {result : ActionResultEnvelope} {e : Thrown}
    (h : (s.handleActionResult d m c result).1 = .error e) :
    (s.handleActionResult d m c result).2 = s := by
  unfold handleActionResult at h ⊢
  split
  · rfl
  dsimp only at h ⊢
  split
  · rfl
  · next haction hopen =>
    exfalso
    rw [haction] at h
    dsimp only at h
    rw [if_neg hopen] at h
    repeat' split at h
    all_goals cases h

theorem receive_hello (s : RemoteControlPlane) (m : Moment) (c : ConnectionId) {payload : Value}
    {hello : AgentHelloEnvelope}
    (h : agentHelloEnvelopeSchema d.platform payload = some hello) :
    s.handleAgentMessage d m c (some payload) = s.handleAgentHello d m c hello := by
  have hshape : payload.isRecord = true ∧ payload.member "type" = .str "agent.hello" := by
    have h' := h
    simp only [agentHelloEnvelopeSchema, Option.bind_eq_bind, Option.bind_eq_some_iff] at h'
    obtain ⟨o, ho, _, htype, -⟩ := h'
    obtain ⟨fs, rfl, rfl, -⟩ := Schema.strict_eq_some ho
    exact ⟨rfl, Schema.literal_eq_some htype⟩
  unfold handleAgentMessage
  simp [hshape.1, hshape.2, Value.asString, h]

/-- What a text frame can do. -/
inductive ReceiveEffect (c : ConnectionId) (payload : Option Value) (s' : RemoteControlPlane) :
    Prop where
  | failed
      (hhello : s.store.isOpen = true →
        payload.bind (agentHelloEnvelopeSchema d.platform) = none)
      (h : s' = { s with failing := s.failing ++ [c] })
  | rejected (code : RemoteErrorCode) (message : String)
      (hhello : payload.bind (agentHelloEnvelopeSchema d.platform) = none)
      (h : s' = s.reject d m c code message)
  | hello (hello : AgentHelloEnvelope)
      (hhello : payload.bind (agentHelloEnvelopeSchema d.platform) = some hello)
      (hopen : s.store.isOpen = true) (h : s' = (s.handleAgentHello d m c hello).2)
  | result (result : ActionResultEnvelope)
      (hhello : payload.bind (agentHelloEnvelopeSchema d.platform) = none)
      (hresult : payload.bind (actionResultEnvelopeSchema d.platform) = some result)
      (h : s' = (s.handleActionResult d m c result).2)

/-- **A text frame** is a hello, a result, refused, or leaves the `catch` of its handler to run. -/
theorem receive_inversion (c : ConnectionId) (payload : Option Value) :
    ReceiveEffect d m s c payload (s.receive d m c payload) := by
  unfold receive
  cases payload with
  | none => exact .failed (fun _ => rfl) rfl
  | some payload =>
    cases hhello : agentHelloEnvelopeSchema d.platform payload with
    | some hello =>
      rw [receive_hello d s m c hhello]
      cases hopen : s.store.isOpen with
      | false =>
        -- the handler throws on a closed database
        refine .failed (fun hopen' => absurd (hopen.symm.trans hopen') (by decide)) ?_
        unfold handleAgentHello
        rw [hopen]
        rfl
      | true =>
        refine .hello hello hhello hopen ?_
        unfold handleAgentHello
        rw [hopen]
        rfl
    | none =>
      unfold handleAgentMessage
      dsimp only
      rw [hhello]
      split
      · next heq =>
        split at heq
        · exact .rejected _ _ hhello (Prod.mk.inj heq).2.symm
        split at heq
        · cases heq
        split at heq
        · split at heq
          · cases heq
          · next result hresult => exact .result result hhello hresult (by rw [heq])
        · exact .rejected _ _ hhello (Prod.mk.inj heq).2.symm
      · next heq =>
        refine .failed (fun _ => hhello) ?_
        split at heq
        · cases heq
        split at heq
        · rw [(Prod.mk.inj heq).2]
        split at heq
        · split at heq
          · rw [(Prod.mk.inj heq).2]
          · rw [← handleActionResult_error d m s (congrArg Prod.fst heq), heq]
        · cases heq

/-! ### Owners -/

/-- What a request for an enrollment token can do: the row of the new agent stays where what follows
throws. -/
inductive TokenEffect (principal : RemotePrincipal) (args : Value) (s' : RemoteControlPlane) :
    Prop where
  | kept (h : s' = s)
  | pending (aliasName : String) (store : RemoteStore)
      (hstore : s.store.insertAgent d.platform
        (pendingRecord d m principal aliasName (requestedProfile args)) = .ok store)
      (h : s' = { s with store := store })
  | created (aliasName : String) (store : RemoteStore) (token : AgentEnrollmentTokenRecord)
      (store' : RemoteStore) (metadata : Fields)
      (hstore : s.store.insertAgent d.platform
        (pendingRecord d m principal aliasName (requestedProfile args)) = .ok store)
      (huser : token.userId = principal.userId)
      (hstore' : store.insertEnrollmentToken token = .ok store')
      (h : s' = ({ s with store := store' }).auditAgent d m
        (pendingRecord d m principal aliasName (requestedProfile args))
        "enrollment_token_created" .info metadata)

theorem createEnrollmentToken_inversion (principal : RemotePrincipal) (args : Value) :
    TokenEffect d m s principal args (s.createEnrollmentToken d m principal args).2 := by
  unfold createEnrollmentToken
  split
  · exact .kept rfl
  split
  · exact .kept rfl
  next aliasName _ =>
  split
  · exact .kept rfl
  split
  · exact .kept rfl
  dsimp only
  split
  · exact .kept rfl
  next store hstore =>
  split
  · exact .pending aliasName store hstore rfl
  split
  · exact .pending aliasName store hstore rfl
  · next store' hstore' => exact .created aliasName store _ store' _ hstore rfl hstore' rfl

/-! ### Actions -/

/-- What a dispatch can do. -/
inductive DispatchEffect (principal : RemotePrincipal) (agent : RemoteAgentRecord)
    (tool : RemoteToolName) (capability : RemoteCapability) (args : Fields)
    (outcome : Outcome String) : Prop where
  | refused (e : Thrown) (h : outcome = (.error e, s))
  | sent (live : AgentConnection) (seconds : JsNumber) (deadline : String) (action : ActionRecord)
      (store : RemoteStore) (about : Fields) (hstatus : agent.status ≠ .revoked)
      (hlive : s.agentConnections.get? agent.id = some live)
      (hseconds : dispatchTimeout d agent args = some seconds)
      (hdeadline : deadlineText d.platform m.later seconds = some deadline)
      (hid : action.id = freshId m "act") (hsent : action.status = .sent)
      (hactionDeadline : action.deadline = deadline)
      (hstore : s.store.insertAction action = .ok store)
      (h : outcome = (.ok action.id,
        ({ (({ s with store := store }).audit d m (some principal.userId) (some agent.id)
              (some action.id) "action_requested" .info about).audit d m (some principal.userId)
              (some agent.id) (some action.id) "action_allowed" .info about with
            pendingActions := s.pendingActions.set action.id action }).sendJson live.connection
          (.actionRequest
            (actionRequestEnvelope d m principal agent tool capability args deadline))))

/-- **A dispatch** is refused and changes nothing, or inserts its action and sends the request. -/
theorem dispatchAction_inversion (principal : RemotePrincipal) (agent : RemoteAgentRecord)
    (tool : RemoteToolName) (capability : RemoteCapability) (args : Fields) :
    DispatchEffect d m s principal agent tool capability args
      (s.dispatchAction d m principal agent tool capability args) := by
  unfold dispatchAction
  split
  · exact .refused _ rfl
  next hstatus =>
  split
  · exact .refused _ rfl
  next live hlive =>
  split
  · exact .refused _ rfl
  next seconds hseconds =>
  split
  · exact .refused _ rfl
  next deadline hdeadline =>
  dsimp only
  split
  · exact .refused _ rfl
  next store hstore =>
  exact .sent live seconds deadline _ store _ hstatus hlive hseconds hdeadline rfl rfl
    rfl hstore rfl

theorem withAgent_inversion {α : Type} (userId : String) (args : Fields)
    (rest : RemoteAgentRecord → Outcome α) :
    (s.withAgent userId args rest).2 = s ∨
    ∃ agent, s.store.isOpen = true ∧ s.requireAgent userId args = .ok agent ∧
      (s.withAgent userId args rest).2 = (rest agent).2 := by
  unfold withAgent
  split
  · exact .inl rfl
  next hopen =>
  split
  · exact .inl rfl
  · next agent hagent => exact .inr ⟨agent, by simpa using hopen, hagent, rfl⟩

/-- What a tool call can do. -/
inductive ToolEffect (principal : RemotePrincipal) (tool : RemoteToolName) (args : Fields)
    (s' : RemoteControlPlane) : Prop where
  | kept (h : s' = s)
  | tokenCreated (htool : tool = .create_enrollment_token)
      (h : s' = (s.createEnrollmentToken d m principal (.obj args)).2)
  | policyUpdated (agent : RemoteAgentRecord) (htool : tool = .update_agent_policy)
      (hscope : hasCapability principal.capabilities (toolCapabilityMap tool) = true)
      (hopen : s.store.isOpen = true) (hagent : s.requireAgent principal.userId args = .ok agent)
      (h : s' =
        (s.updateAgentPolicy d m principal agent ((Value.obj args).member "policy")).2)
  | revoked (agent : RemoteAgentRecord) (htool : tool = .revoke_agent)
      (hopen : s.store.isOpen = true) (hagent : s.requireAgent principal.userId args = .ok agent)
      (h : s' = (s.revokeAgent d m principal agent).2)
  | denied (agent : RemoteAgentRecord) (metadata : Fields)
      (hagent : s.requireAgent principal.userId args = .ok agent)
      (h : s' = s.audit d m (some principal.userId) (some agent.id) none "action_denied" .warn
        metadata)
  | dispatched (agent : RemoteAgentRecord)
      (hscope : hasCapability principal.capabilities (toolCapabilityMap tool) = true)
      (hagent : s.requireAgent principal.userId args = .ok agent)
      (henabled : ((agent.policy.member "capabilities").member
        (toolCapabilityMap tool).text).truthy = true)
      (h : s' = (s.dispatchAction d m principal agent tool (toolCapabilityMap tool) args).2)

/-- **A tool call** changes nothing, or does what its tool is for, to an agent of the caller. -/
theorem callRemoteTool_inversion (principal : RemotePrincipal) (tool : RemoteToolName)
    (args : Fields) :
    ToolEffect d m s principal tool args (s.callRemoteTool d m principal tool args).2 := by
  unfold callRemoteTool
  dsimp only
  split
  · exact .kept rfl
  next hscope =>
  have hscope : hasCapability principal.capabilities (toolCapabilityMap tool) = true := by
    simpa using hscope
  have hagentTool : ToolEffect d m s principal tool args
      (s.withAgent principal.userId args fun agent =>
        s.callAgentTool d m principal tool args agent).2 := by
    rcases s.withAgent_inversion principal.userId args fun agent =>
        s.callAgentTool d m principal tool args agent with heq | ⟨agent, hopen, hagent, heq⟩
    · exact .kept heq
    rw [heq]
    unfold callAgentTool
    dsimp only
    split
    · exact .denied agent _ hagent rfl
    · next henabled => exact .dispatched agent hscope hagent (by simpa using henabled) rfl
  cases tool with
  | list_hosts =>
    dsimp only
    split <;> exact .kept rfl
  | list_agents =>
    dsimp only
    split <;> exact .kept rfl
  | create_enrollment_token => exact .tokenCreated rfl rfl
  | get_agent_install_command =>
    rcases s.withAgent_inversion principal.userId args _ with heq | ⟨agent, -, -, heq⟩
    · exact .kept heq
    · exact .kept heq
  | update_agent_policy =>
    rcases s.withAgent_inversion principal.userId args _ with heq | ⟨agent, hopen, hagent, heq⟩
    · exact .kept heq
    · exact .policyUpdated agent rfl hscope hopen hagent heq
  | revoke_agent =>
    rcases s.withAgent_inversion principal.userId args _ with heq | ⟨agent, hopen, hagent, heq⟩
    · exact .kept heq
    · exact .revoked agent rfl hopen hagent heq
  | get_audit_events =>
    dsimp only
    split
    · exact .kept rfl
    · split <;> exact .kept rfl
  | _ => exact hagentTool

theorem auditFinished_eq_audit (action : ActionRecord) (outcome : ActionOutcome) :
    ∃ eventType severity metadata, ∀ s : RemoteControlPlane, s.auditFinished d m action outcome =
      s.audit d m (some action.userId) (some action.agentId) (some action.id) eventType severity
        metadata := by
  cases outcome with
  | resolved result =>
    by_cases hstatus : result.status = .ok
    · exact ⟨_, _, _, fun s => by rw [auditFinished, if_pos hstatus]⟩
    · exact ⟨_, _, _, fun s => by rw [auditFinished, if_neg hstatus]⟩
  | rejected => exact ⟨_, _, _, fun _ => rfl⟩

/-- What the continuation of a dispatch can do. -/
inductive ResumeEffect (id : String) (s' : RemoteControlPlane) : Prop where
  | kept (hnone : (s.settled.find? fun x => x.1.id = id) = none) (h : s' = s)
  | dropped (action : ActionRecord) (outcome : ActionOutcome)
      (hfind : (s.settled.find? fun x => x.1.id = id) = some (action, outcome))
      (hclosed : s.store.isOpen = false)
      (h : s' = { s with settled := s.settled.eraseP fun x => x.1.id = id })
  | finished (action : ActionRecord) (outcome : ActionOutcome) (eventType : String)
      (severity : Severity) (metadata : Fields)
      (hfind : (s.settled.find? fun x => x.1.id = id) = some (action, outcome))
      (hopen : s.store.isOpen = true)
      (h : s' = ({ s with
        settled := s.settled.eraseP fun x => x.1.id = id
        store := { s.store with
          actions := s.store.actions.modify action.id fun old =>
            { old with
              status := (finishedAction d m action outcome).status
              completedAt := (finishedAction d m action outcome).completedAt
              result := (finishedAction d m action outcome).result
              errorCode := (finishedAction d m action outcome).errorCode } } }).audit d m
        (some action.userId) (some action.agentId) (some action.id) eventType severity metadata)

/-- **A continuation** takes its promise, and writes the end of its action on an open database. -/
theorem resume_inversion (id : String) : ResumeEffect d m s id (s.resume d m id) := by
  unfold resume
  split
  · next hnone => exact .kept hnone rfl
  next action outcome hfind =>
  unfold finishDispatch
  split
  · next hstore =>
    refine .dropped action outcome hfind ?_ rfl
    unfold RemoteStore.updateAction at hstore
    split at hstore
    · cases hstore
    · next hclosed => exact Bool.eq_false_iff.mpr hclosed
  · next store hstore =>
    obtain ⟨hopen, rfl⟩ := RemoteStore.updateAction_eq_ok hstore
    have hid : (finishedAction d m action outcome).id = action.id := by
      cases outcome <;> rfl
    obtain ⟨eventType, severity, metadata, heq⟩ := auditFinished_eq_audit d m action outcome
    refine .finished action outcome eventType severity metadata hfind hopen ?_
    refine (heq _).trans ?_
    rw [hid]

/-! ### The end -/

/-- **What `shutdown` keeps**: it settles actions, closes connections, and forgets. -/
theorem shutdown_keeps {P : RemoteControlPlane → Prop} (hs : P s)
    (hsettle : ∀ s', ∀ e ∈ s.pendingActions.entries, P s' → P (s'.settle e.2 (.rejected none)))
    (hclose : ∀ s' c, P s' → P (s'.close d m c))
    (hforget : ∀ s', P s' → P { s' with
      agentConnections := .empty
      agentHelloNonces := .empty
      store := { s'.store with isOpen := false } }) : P (s.shutdown d m) := by
  unfold shutdown
  refine hforget _ (List.foldlRecOn _ _ (List.foldlRecOn _ _ hs ?_) ?_)
  · exact fun s' hs' e he => hsettle s' e he hs'
  · exact fun s' hs' e _ => hclose s' e.2.connection hs'

end RemoteControlPlane
end Remote
