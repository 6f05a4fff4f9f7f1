import McpSshTool.Library.Run
import McpSshTool.Remote.ControlPlane.Ledger
import McpSshTool.Remote.Tenancy.Rows

/-!
# Enrollment tokens

What a request for an enrollment token does to the tables, for every state of the control plane.

* `Holds` — an agent of a user has an alias, whatever the status of its row;
* `CreatesAgent` — a step inserts the row of a new agent, in terms of the state before it;
* `createEnrollmentToken_cases` — the outcomes of the handler: refused with nothing written, a row
  without its token, or a row with its token;
* `AtomicAndExact` — the handler succeeds unless an agent that is not revoked has the alias, and
  writes both rows or none;
* `atomic_exact_iff` — when that is so. The check of the handler looks past revoked agents; the
  uniqueness constraint of the table does not.
-/

open Library

namespace Remote

/-! ### Aliases -/

namespace RemoteStore

variable {store : RemoteStore} {userId aliasName : String}

/-- **An agent of the user has the alias.** -/
def Holds (store : RemoteStore) (userId aliasName : String) (agent : RemoteAgentRecord) : Prop :=
  store.getAgent agent.id = some agent ∧ agent.userId = userId ∧ agent.aliasName = aliasName

theorem holds_iff_mem {agent : RemoteAgentRecord} :
    store.Holds userId aliasName agent ↔
      (agent.id, agent) ∈ store.agents.entries ∧ agent.userId = userId ∧
        agent.aliasName = aliasName :=
  and_congr_left fun _ => OrderedMap.mem_entries_iff.symm

/-- The alias of a row whose id is free is taken exactly when some agent has it. -/
theorem aliasTaken_iff {id : String} (hfree : store.getAgent id = none) :
    store.aliasTaken id userId aliasName = true ↔ ∃ agent, store.Holds userId aliasName agent := by
  unfold aliasTaken
  rw [List.any_eq_true]
  simp only [Bool.and_eq_true, decide_eq_true_eq]
  constructor
  · rintro ⟨⟨k, agent⟩, he, -, huser, halias⟩
    have hk : agent.id = k := (store.agents_rows _ he).1
    rw [← hk] at he
    exact ⟨agent, holds_iff_mem.mpr ⟨he, huser, halias⟩⟩
  · rintro ⟨agent, h⟩
    obtain ⟨he, huser, halias⟩ := holds_iff_mem.mp h
    refine ⟨_, he, ?_, huser, halias⟩
    rintro rfl
    rw [h.1] at hfree
    cases hfree

theorem holds_of_getAgentByAlias {agent : RemoteAgentRecord}
    (h : store.getAgentByAlias userId aliasName = some agent) :
    store.Holds userId aliasName agent :=
  getAgentByAlias_eq_some h

/-- **A new row is inserted** into an open table that has neither its id nor its alias. -/
theorem insertAgent_isOk_iff {platform : Platform} {agent row : RemoteAgentRecord}
    (hrow : agentRow platform agent = some row) :
    (store.insertAgent platform agent).toOption.isSome = true ↔
      store.isOpen = true ∧ store.getAgent agent.id = none ∧
        ∀ held, ¬store.Holds agent.userId agent.aliasName held := by
  rw [insertAgent_of_some hrow]
  have hcontains : store.agents.contains agent.id = false ↔ store.getAgent agent.id = none :=
    OrderedMap.contains_eq_false
  cases hopen : store.isOpen with
  | false => simp [Except.toOption]
  | true =>
    cases hid : store.agents.contains agent.id with
    | true =>
      rw [hid] at hcontains
      simp [Except.toOption, ← hcontains]
    | false =>
      have hfree := hcontains.mp hid
      have htaken : store.aliasTaken agent.id agent.userId agent.aliasName = true ↔ _ :=
        aliasTaken_iff hfree
      rw [← not_exists, ← htaken]
      cases store.aliasTaken agent.id agent.userId agent.aliasName <;>
        simp [Except.toOption, hfree]

end RemoteStore

namespace RemoteControlPlane

open RemoteStore (Holds)

variable (d : Deployment)

/-! ### The request -/

/-- `asString(args.alias)?.trim()`, unless it is blank. -/
def requestedAlias (args : Value) : Option String :=
  ((args.member "alias").asString.map JsText.trim).filter fun a => a ≠ ""

/-- The request for an enrollment token that a step is: by whom, and with what arguments. -/
def enrollmentRequest (e : Step) : Option (RemotePrincipal × Value) :=
  match e.event with
  | .createEnrollmentToken principal body => some (principal, body)
  | .callTool principal .create_enrollment_token args => some (principal, .obj args)
  | _ => none

/-- What lets the row of a new agent into the table: an open database, a caller that administers
agents, and an id and an alias that no row has. -/
structure Inserts (m : Moment) (s : RemoteControlPlane) (principal : RemotePrincipal)
    (aliasName : String) : Prop where
  capability : hasCapability principal.capabilities .agentsAdmin = true
  isOpen : s.store.isOpen = true
  id_free : s.store.getAgent (freshId m "agt") = none
  alias_free : ∀ agent, ¬Holds s.store principal.userId aliasName agent

/-- **A step creates an agent**: it is a request for an enrollment token and its row can be
inserted. -/
def CreatesAgent (s : RemoteControlPlane) (e : Step) : Prop :=
  ∃ principal args aliasName, enrollmentRequest e = some (principal, args) ∧
    requestedAlias args = some aliasName ∧ Inserts e.moment s principal aliasName

variable {d} {m : Moment} {s : RemoteControlPlane} {principal : RemotePrincipal} {args : Value}
  {aliasName : String}

/-- The pending record, as its row reads back. -/
def pendingRow (d : Deployment) (m : Moment) (principal : RemotePrincipal) (aliasName : String)
    (profile : AgentProfileName) : RemoteAgentRecord :=
  { pendingRecord d m principal aliasName profile with
    policy := (Value.obj (createAgentPolicy (.str profile.text))).transport }

theorem agentRow_pendingRecord (profile : AgentProfileName) :
    RemoteStore.agentRow d.platform (pendingRecord d m principal aliasName profile) =
      some (pendingRow d m principal aliasName profile) := rfl

theorem isRow_pendingRow (profile : AgentProfileName) :
    IsRow (pendingRow d m principal aliasName profile) :=
  (RemoteStore.agentRow_eq_some (agentRow_pendingRecord profile)).1

/-- The token that the request inserts. -/
def enrollmentToken (d : Deployment) (m : Moment) (principal : RemotePrincipal)
    (expiresAt : String) : AgentEnrollmentTokenRecord where
  agentId := freshId m "agt"
  userId := principal.userId
  tokenHash := hashSecret d.platform m.token
  expiresAt := expiresAt
  usedAt := none
  createdAt := d.platform.toISOString m.now

/-- The time until which the token is good, if it is a time. -/
def expiryText (d : Deployment) (m : Moment) : Option String :=
  deadlineText d.platform m.later (.ofInt d.config.enrollmentTokenTtlSeconds)

/-- The table of tokens has no token of the hash that was drawn. -/
def TokenFree (d : Deployment) (m : Moment) (s : RemoteControlPlane) : Prop :=
  s.store.getEnrollmentTokenByHash (hashSecret d.platform m.token) = none

/-- The state with the row of the new agent. -/
def withPending (d : Deployment) (m : Moment) (principal : RemotePrincipal) (aliasName : String)
    (profile : AgentProfileName) (s : RemoteControlPlane) : RemoteControlPlane :=
  { s with store :=
      s.store.setAgent (pendingRow d m principal aliasName profile) (isRow_pendingRow profile) }

/-! ### What the handler does -/

/-- A request that cannot insert its row changes nothing. -/
theorem createEnrollmentToken_refused (halias : requestedAlias args = some aliasName)
    (h : ¬Inserts m s principal aliasName) :
    ∃ error, s.createEnrollmentToken d m principal args = (.error error, s) := by
  unfold createEnrollmentToken
  split
  · exact ⟨_, rfl⟩
  · next hcapability =>
    rw [show ((args.member "alias").asString.map JsText.trim).filter (fun a => a ≠ "") =
      some aliasName from halias]
    dsimp only
    split
    · exact ⟨_, rfl⟩
    · next hopen =>
      split
      · exact ⟨_, rfl⟩
      · split
        · next error _ => exact ⟨error, rfl⟩
        · next store hstore =>
          -- the insertion can only have gone through on a table that is free
          have hinserted := (RemoteStore.insertAgent_isOk_iff
            (agentRow_pendingRecord (requestedProfile args))).mp (by rw [hstore]; rfl)
          exact absurd ⟨by simpa using hcapability, hinserted.1, hinserted.2.1, hinserted.2.2⟩ h

/-- What a request does that can insert its row. -/
theorem createEnrollmentToken_eq (halias : requestedAlias args = some aliasName)
    (h : Inserts m s principal aliasName) :
    s.createEnrollmentToken d m principal args =
      match expiryText d m with
      | none => (.error .rangeError, withPending d m principal aliasName (requestedProfile args) s)
      | some expiresAt =>
        match (withPending d m principal aliasName (requestedProfile args)
          s).store.insertEnrollmentToken
          (enrollmentToken d m principal expiresAt) with
        | .error e => (.error e, withPending d m principal aliasName (requestedProfile args) s)
        | .ok store =>
          (.ok (.obj (installCommand d
              (pendingRecord d m principal aliasName (requestedProfile args)) (some m.token)
                ++ [("enrollment_token", .str m.token)])),
            { withPending d m principal aliasName (requestedProfile args) s with
              store := store }.auditAgent d m
                (pendingRecord d m principal aliasName (requestedProfile args))
                "enrollment_token_created" .info
                [("alias", .str aliasName),
                  ("profile", (pendingRecord d m principal aliasName
                    (requestedProfile args)).profile)]) := by
  have hnone : s.store.getAgentByAlias principal.userId aliasName = none := by
    cases hfound : s.store.getAgentByAlias principal.userId aliasName with
    | none => rfl
    | some agent => exact absurd (RemoteStore.holds_of_getAgentByAlias hfound) (h.alias_free agent)
  have hinsert : s.store.insertAgent d.platform
      (pendingRecord d m principal aliasName (requestedProfile args)) =
        .ok (s.store.setAgent (pendingRow d m principal aliasName (requestedProfile args))
          (isRow_pendingRow _)) := by
    -- the row is free to insert
    have hok : (s.store.insertAgent d.platform
        (pendingRecord d m principal aliasName (requestedProfile args))).toOption.isSome = true :=
      (RemoteStore.insertAgent_isOk_iff (agentRow_pendingRecord _)).mpr
        ⟨h.isOpen, h.id_free, h.alias_free⟩
    cases hstore : s.store.insertAgent d.platform
        (pendingRecord d m principal aliasName (requestedProfile args)) with
    | error error =>
      rw [hstore] at hok
      cases hok
    | ok store =>
      obtain ⟨-, -, row, hrow, hagent, rfl⟩ := RemoteStore.insertAgent_eq_ok hstore
      obtain rfl := Option.some.inj ((agentRow_pendingRecord _).symm.trans hagent)
      rfl
  unfold createEnrollmentToken
  rw [h.capability, if_neg (by decide),
    show ((args.member "alias").asString.map JsText.trim).filter (fun a => a ≠ "") =
      some aliasName from halias]
  dsimp only
  rw [h.isOpen, if_neg (by decide), hnone, if_neg (by simp), hinsert]
  rfl

/-- A request that can insert its row does so, and then inserts the token where that has a time and
a hash of its own. -/
theorem createEnrollmentToken_inserts (halias : requestedAlias args = some aliasName)
    (h : Inserts m s principal aliasName) :
    (∃ error, (expiryText d m = none ∨ ¬TokenFree d m s) ∧
      s.createEnrollmentToken d m principal args =
        (.error error, withPending d m principal aliasName (requestedProfile args) s)) ∨
    ∃ expiresAt reply metadata, expiryText d m = some expiresAt ∧ TokenFree d m s ∧
      s.createEnrollmentToken d m principal args = (.ok reply,
        { withPending d m principal aliasName (requestedProfile args) s with
          store := { (withPending d m principal aliasName (requestedProfile args) s).store with
            enrollmentTokens := s.store.enrollmentTokens.set (hashSecret d.platform m.token)
              (enrollmentToken d m principal expiresAt) } }.auditAgent d m
            (pendingRecord d m principal aliasName (requestedProfile args))
            "enrollment_token_created" .info metadata) := by
  have htoken : ∀ expiresAt,
      (withPending d m principal aliasName (requestedProfile args) s).store.insertEnrollmentToken
        (enrollmentToken d m principal expiresAt) =
      if s.store.enrollmentTokens.contains (hashSecret d.platform m.token) then .error .sqlite
      else .ok { (withPending d m principal aliasName (requestedProfile args) s).store with
        enrollmentTokens := s.store.enrollmentTokens.set (hashSecret d.platform m.token)
          (enrollmentToken d m principal expiresAt) } := by
    intro expiresAt
    have hopen : (withPending d m principal aliasName (requestedProfile args) s).store.isOpen =
      true :=
      h.isOpen
    unfold RemoteStore.insertEnrollmentToken
    refine if_congr ?_ rfl rfl
    rw [hopen]
    exact Iff.rfl
  rw [createEnrollmentToken_eq halias h]
  cases hexpiry : expiryText d m with
  | none => exact .inl ⟨_, .inl rfl, rfl⟩
  | some expiresAt =>
    dsimp only
    rw [htoken]
    cases hcontains : s.store.enrollmentTokens.contains (hashSecret d.platform m.token) with
    | true =>
      left
      refine ⟨_, .inr fun hfree => ?_, rfl⟩
      have hfree : s.store.enrollmentTokens.contains (hashSecret d.platform m.token) = false :=
        OrderedMap.contains_eq_false.mpr hfree
      rw [hcontains] at hfree
      cases hfree
    | false =>
      right
      exact ⟨expiresAt, _, _, rfl, OrderedMap.contains_eq_false.mp hcontains, rfl⟩

/-! ### Atomic and exact -/

variable (d m principal args aliasName s)

/-- **Exactly one pending agent and one unused token of it** are added, beside an audit event. -/
def AddsAgentAndToken (s' : RemoteControlPlane) : Prop :=
  ∃ agent token event,
    (agent.status = .pending ∧ agent.userId = principal.userId ∧ agent.aliasName = aliasName ∧
      s.store.getAgent agent.id = none ∧
      s'.store.agents = s.store.agents.set agent.id agent) ∧
    (token.usedAt = none ∧ token.agentId = agent.id ∧ token.userId = principal.userId ∧
      s.store.getEnrollmentTokenByHash token.tokenHash = none ∧
      s'.store.enrollmentTokens = s.store.enrollmentTokens.set token.tokenHash token) ∧
    s'.store.auditEvents = s.store.auditEvents ++ [event] ∧
    s'.store.isOpen = s.store.isOpen ∧ s'.store.actions = s.store.actions ∧
    { s' with store := s.store } = s

/-- **Atomic and exact**: the request succeeds unless an agent of the user that is not revoked has
the alias; success adds the agent and its token, failure leaves agents and tokens. -/
def AtomicAndExact : Prop :=
  let outcome := s.createEnrollmentToken d m principal args
  (outcome.1.toOption.isSome = true ↔
      ∀ agent, Holds s.store principal.userId aliasName agent → agent.status = .revoked) ∧
    (outcome.1.toOption.isSome = true → AddsAgentAndToken s principal aliasName outcome.2) ∧
    (outcome.1.toOption.isSome = false →
      outcome.2.store.agents = s.store.agents ∧
        outcome.2.store.enrollmentTokens = s.store.enrollmentTokens)

/-- An agent that is not revoked has the alias, or else no agent has it, a revoked one neither, and
nothing that both rows need is missing: the database is open, the id and the hash that were drawn
are new, and the token expires at a time. -/
def Decided : Prop :=
  (∃ agent, Holds s.store principal.userId aliasName agent ∧ agent.status ≠ .revoked) ∨
    ((∀ agent, ¬Holds s.store principal.userId aliasName agent) ∧ s.store.isOpen = true ∧
      s.store.getAgent (freshId m "agt") = none ∧ TokenFree d m s ∧ expiryText d m ≠ none)

variable {d m principal args aliasName s}

theorem addsAgentAndToken (hinserts : Inserts m s principal aliasName) {expiresAt : String}
    (htoken : TokenFree d m s) (metadata : Fields) :
    AddsAgentAndToken s principal aliasName
      ({ withPending d m principal aliasName (requestedProfile args) s with
          store := { (withPending d m principal aliasName (requestedProfile args) s).store with
            enrollmentTokens := s.store.enrollmentTokens.set (hashSecret d.platform m.token)
              (enrollmentToken d m principal expiresAt) } }.auditAgent d m
            (pendingRow d m principal aliasName (requestedProfile args))
            "enrollment_token_created" .info metadata) :=
  ⟨pendingRow d m principal aliasName (requestedProfile args),
    enrollmentToken d m principal expiresAt, _, ⟨rfl, rfl, rfl, hinserts.id_free, rfl⟩,
    ⟨rfl, rfl, rfl, htoken, rfl⟩, rfl, rfl, rfl, rfl⟩

/-- **When the creation of an enrollment token is atomic and exact**: in every state, for every
caller that administers agents and every alias that is not blank. -/
theorem atomic_exact_iff (d : Deployment) (m : Moment) (s : RemoteControlPlane)
    (principal : RemotePrincipal) (args : Value) (aliasName : String)
    (hcapability : hasCapability principal.capabilities .agentsAdmin = true)
    (halias : requestedAlias args = some aliasName) :
    AtomicAndExact d m s principal args aliasName ↔ Decided d m s principal aliasName := by
  by_cases hinserts : Inserts m s principal aliasName
  · -- no agent has the alias, so the request has to succeed
    have hnone := hinserts.alias_free
    have hall : ∀ agent, Holds s.store principal.userId aliasName agent → agent.status = .revoked :=
      fun agent h => absurd h (hnone agent)
    rcases createEnrollmentToken_inserts halias hinserts with
      ⟨error, hmissing, houtcome⟩ | ⟨expiresAt, reply, metadata, hexpiry, htoken, houtcome⟩
    · constructor
      · rintro ⟨hexact, -⟩
        rw [houtcome] at hexact
        exact absurd (hexact.mpr hall) (by simp [Except.toOption])
      · rintro (⟨agent, hholds, -⟩ | ⟨-, -, -, htoken, hexpiry⟩)
        · exact absurd hholds (hnone agent)
        · exact absurd hmissing (not_or.mpr ⟨hexpiry, not_not.mpr htoken⟩)
    · constructor
      · intro _
        exact .inr ⟨hnone, hinserts.isOpen, hinserts.id_free, htoken, by rw [hexpiry]; simp⟩
      · intro _
        unfold AtomicAndExact
        rw [houtcome]
        refine ⟨⟨fun _ => hall, fun _ => rfl⟩, fun _ => ?_, fun h => ?_⟩
        · exact addsAgentAndToken hinserts htoken metadata
        · cases h
  · -- nothing is written, so an agent that is not revoked has to have the alias
    obtain ⟨error, houtcome⟩ := createEnrollmentToken_refused halias hinserts
    constructor
    · rintro ⟨hexact, -⟩
      left
      by_contra hnone
      rw [houtcome] at hexact
      push Not at hnone
      exact absurd (hexact.mpr hnone) (by simp [Except.toOption])
    · rintro (⟨agent, hholds, hstatus⟩ | ⟨hnone, hopen, hid, -⟩)
      · unfold AtomicAndExact
        rw [houtcome]
        refine ⟨⟨fun h => ?_, fun h => absurd (h agent hholds) hstatus⟩, fun h => ?_,
          fun _ => ⟨rfl, rfl⟩⟩ <;> cases h
      · exact absurd ⟨hcapability, hopen, hid, hnone⟩ hinserts

/-- The arguments that ask for a token under the alias `web`. -/
def webArguments : Value := .obj [("alias", .str " web ")]

/-- A token is created under a new alias. -/
theorem atomic_exact_new_alias :
    AtomicAndExact sampleDeployment (sampleMoment 1) (start RemoteStore.empty) sampleOwner
      webArguments
      "web" := by
  refine (atomic_exact_iff sampleDeployment (sampleMoment 1) (start RemoteStore.empty) sampleOwner
    webArguments "web" rfl (by decide +kernel)).mpr (.inr ⟨?_, rfl, rfl, rfl, by decide +kernel⟩)
  rintro agent ⟨hagent, -⟩
  cases hagent

/-- The owner of a pending agent revokes it. -/
def enrolledAndRevoked : RemoteControlPlane :=
  Run.run (step sampleDeployment) (start RemoteStore.empty)
    [⟨.createEnrollmentToken sampleOwner webArguments, sampleMoment 1⟩,
      ⟨.revoke sampleOwner "web", sampleMoment 2⟩]

/-- **The alias of a revoked agent cannot be used again**: the handler looks past the revoked agent
and the table refuses the row. -/
theorem revoked_alias_not_exact :
    ¬AtomicAndExact sampleDeployment (sampleMoment 3) enrolledAndRevoked sampleOwner webArguments
      "web" := by
  have hrows : enrolledAndRevoked.store.agents.entries.all
      (fun e => e.2.status = .revoked) = true := by decide +kernel
  have hfails : (enrolledAndRevoked.createEnrollmentToken sampleDeployment
    (sampleMoment 3) sampleOwner
      webArguments).1.toOption.isSome = false := by decide +kernel
  rintro ⟨hexact, -⟩
  have hall : ∀ agent, Holds enrolledAndRevoked.store sampleOwner.userId "web" agent →
      agent.status = .revoked := by
    intro agent h
    have hmem := (RemoteStore.holds_iff_mem.mp h).1
    exact of_decide_eq_true (List.all_eq_true.mp hrows _ hmem)
  rw [hfails] at hexact
  exact absurd (hexact.mpr hall) (by decide)

/-! ### Steps -/

variable (d) in
/-- The step of a request for an enrollment token is its handler. -/
theorem step_of_enrollmentRequest {e : Step} (h : enrollmentRequest e = some (principal, args)) :
    s.step d e = (s.createEnrollmentToken d e.moment principal args).2 := by
  obtain ⟨event, m⟩ := e
  unfold enrollmentRequest at h
  split at h
  · next principal' body hevent =>
    obtain ⟨rfl, rfl⟩ := Prod.mk.inj (Option.some.inj h)
    cases hevent
    rfl
  · next principal' args' hevent =>
    obtain ⟨rfl, rfl⟩ := Prod.mk.inj (Option.some.inj h)
    cases hevent
    show (s.callRemoteTool d m _ .create_enrollment_token args').2 = _
    unfold callRemoteTool
    dsimp only
    split
    · next hcapability =>
      unfold createEnrollmentToken
      have hcapability : (!hasCapability principal'.capabilities .agentsAdmin) = true := hcapability
      rw [hcapability]
      rfl
    · cases hresult : s.createEnrollmentToken d m principal' (.obj args') with
      | mk result => cases result <;> rfl
  · cases h

/-- A handler that can insert no row changes nothing. -/
theorem createEnrollmentToken_unchanged
    (h : ∀ aliasName, requestedAlias args = some aliasName → ¬Inserts m s principal aliasName) :
    (s.createEnrollmentToken d m principal args).2 = s := by
  cases halias : requestedAlias args with
  | none =>
    unfold createEnrollmentToken
    split
    · rfl
    · rw [show ((args.member "alias").asString.map JsText.trim).filter (fun a => a ≠ "") = none
        from halias]
  | some aliasName =>
    obtain ⟨error, houtcome⟩ := createEnrollmentToken_refused halias (h aliasName halias)
    rw [houtcome]

variable (d) in
/-- **A step that creates an agent** adds a row under the policy of a profile. -/
theorem view_of_createsAgent {e : Step} (h : CreatesAgent s e) :
    ∃ (userId : String) (profile : AgentProfileName), ∀ a, (s.step d e).view a =
      if a = freshId e.moment "agt" then
        some
          { userId := userId
            revoked := false
            policy := (Value.obj (createAgentPolicy (.str profile.text))).transport
            policyVersion := 1 }
      else s.view a := by
  obtain ⟨principal, args, aliasName, hrequest, halias, hinserts⟩ := h
  refine ⟨principal.userId, requestedProfile args, fun a => ?_⟩
  have hpending : ∀ s' : RemoteControlPlane,
      s'.store.agents =
        (withPending d e.moment principal aliasName (requestedProfile args) s).store.agents →
      s'.view a = Option.map viewOf
        (if a = freshId e.moment "agt" then
          some (pendingRow d e.moment principal aliasName (requestedProfile args))
        else s.store.getAgent a) := by
    intro s' hs'
    unfold view RemoteStore.getAgent
    rw [hs']
    exact congrArg (Option.map viewOf) (RemoteStore.getAgent_setAgent _ (isRow_pendingRow _) a)
  rw [step_of_enrollmentRequest d hrequest]
  rcases createEnrollmentToken_inserts (d := d) halias hinserts with
    ⟨error, -, houtcome⟩ | ⟨expiresAt, reply, metadata, -, -, houtcome⟩ <;>
  · rw [houtcome]
    refine (hpending _ rfl).trans ?_
    rw [apply_ite (Option.map viewOf)]
    rfl

variable (d) in
theorem step_of_not_createsAgent {e : Step}
    (hrequest : enrollmentRequest e = some (principal, args))
    (h : ¬CreatesAgent s e) : s.step d e = s := by
  rw [step_of_enrollmentRequest d hrequest]
  exact createEnrollmentToken_unchanged fun aliasName halias hinserts =>
    h ⟨principal, args, aliasName, hrequest, halias, hinserts⟩

theorem view_updateAgentPolicy_eq_none (agent : RemoteAgentRecord) (value : Value) {a : String}
    (h : s.view a = none) : (s.updateAgentPolicy d m principal agent value).2.view a = none := by
  rcases updateAgentPolicy_cases d m principal agent value s with
    ⟨policy, -, -, -, hstored⟩ | ⟨-, hsame⟩
  · rw [hstored.view, h]
    exact ite_self none
  · rw [hsame, h]

theorem view_revokeAgent_eq_none {agent : RemoteAgentRecord}
    (hagent : s.store.getAgent agent.id = some agent) (hopen : s.store.isOpen = true) {a : String}
    (h : s.view a = none) : (s.revokeAgent d m principal agent).2.view a = none := by
  rcases revokeAgent_cases d m s principal hagent hopen with hsame | ⟨hview, -⟩
  · rw [hsame, h]
  · have hne : a ≠ agent.id := by
      rintro rfl
      rw [view_of_getAgent hagent] at h
      cases h
    rw [hview, if_neg hne, h]

/-- A tool call that asks for no enrollment token adds no row. -/
theorem view_callRemoteTool_eq_none {tool : RemoteToolName}
    (htool : tool ≠ .create_enrollment_token)
    (args : Fields) {a : String} (h : s.view a = none) :
    (s.callRemoteTool d m principal tool args).2.view a = none := by
  cases callRemoteTool_inversion d m s principal tool args with
  | kept heq => rw [heq, h]
  | tokenCreated hcreate => exact absurd hcreate htool
  | policyUpdated agent _ _ _ _ heq =>
    rw [heq]
    exact view_updateAgentPolicy_eq_none agent _ h
  | revoked agent _ hopen hagent heq =>
    rw [heq]
    exact view_revokeAgent_eq_none (requireAgent_eq_ok hagent).1 hopen h
  | denied _ _ _ heq =>
    rw [heq]
    exact h
  | dispatched agent _ _ _ heq =>
    rw [heq]
    rcases dispatchAction_cases d m s principal agent tool args with hsame | ⟨_, _, -, -, hview, -⟩
    · rw [view_eq_of_ledger hsame, h]
    · rw [hview, h]

variable (d) in
/-- **Only a request for an enrollment token adds a row.** -/
theorem view_step_eq_none {e : Step} (hrequest : enrollmentRequest e = none) {a : String}
    (h : s.view a = none) : (s.step d e).view a = none := by
  have hquiet : ∀ {s' : RemoteControlPlane}, s'.ledger = s.ledger → s'.view a = none :=
    fun hs' => (view_eq_of_ledger hs' a).trans h
  obtain ⟨event, m⟩ := e
  cases event with
  | connect c => exact hquiet (ledger_connect s c)
  | message c payload => exact hquiet (ledger_receive d m s c payload)
  | messageFailed c => exact hquiet (ledger_recover d m s c)
  | socketClosed c => exact hquiet (ledger_handleClose d m s c)
  | enroll body => exact hquiet (ledger_handleAgentEnroll d m s body)
  | createEnrollmentToken => cases hrequest
  | patchArrived request principal agentRef =>
    exact hquiet (ledger_awaitPatch s request principal agentRef)
  | patchBody request body =>
    show (s.applyPatch d m request body).view a = none
    unfold applyPatch
    split
    · exact h
    · cases body with
      | none => exact h
      | some => exact view_updateAgentPolicy_eq_none _ _ h
  | revoke principal agentRef =>
    show (s.revokeByRef d m principal agentRef).view a = none
    unfold revokeByRef
    split
    · exact h
    · next hopen =>
      split
      · exact h
      · next agent hagent =>
        exact view_revokeAgent_eq_none (resolveAgent_eq_some hagent).1 (by simpa using hopen) h
  | callTool principal tool args =>
    refine view_callRemoteTool_eq_none ?_ args h
    rintro rfl
    cases hrequest
  | authenticationFailed =>
    refine hquiet ?_
    show RemoteControlPlane.ledger (if s.store.isOpen then _ else s) = s.ledger
    split
    · exact ledger_audit d m s _ _ _ _ _ _
    · rfl
  | actionTimeout actionId => exact hquiet (ledger_timeOut s actionId)
  | actionSettled actionId => exact hquiet (ledger_resume d m s actionId)
  | cleanup => exact hquiet (ledger_cleanupEphemeralState s m.now)
  | shutdown => exact hquiet (ledger_shutdown d m s)

/-- **A new row is a created agent.** -/
theorem createsAgent_of_view {e : Step} {a : String} (hbefore : s.view a = none)
    (hafter : (s.step d e).view a ≠ none) : CreatesAgent s e := by
  by_contra h
  cases hrequest : enrollmentRequest e with
  | none => exact hafter (view_step_eq_none d hrequest hbefore)
  | some =>
    rw [step_of_not_createsAgent d hrequest h] at hafter
    exact hafter hbefore

end RemoteControlPlane
end Remote
