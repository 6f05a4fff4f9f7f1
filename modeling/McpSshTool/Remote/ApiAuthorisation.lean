import McpSshTool.Remote.ControlPlane.Api
import McpSshTool.Remote.OAuth.Scopes

/-!
# Authorisation on the REST API

Every MCP tool asks for the capability that `TOOL_CAPABILITY_MAP` gives it. The REST API has routes
for some of the same data and effects. Those that write ask for `agents.admin`; those that read ask
for nothing, so a caller whose scopes hide `list_agents` or `get_audit_events` reads agents and
audit rows there (`audit_served_without_scope`).

* `ApiRequest.tool` — the tool with the data or the effect of a route;
* `UnguardedRead` — a read that finds what it looks for;
* `rest_authorised_iff` — a request is served to holders of the tool's capability only, exactly if
  it is no unguarded read, or the caller holds the capability anyway.
-/

open Library

namespace Remote

/-- The MCP tool that exposes the data or the effect of a request. -/
def ApiRequest.tool (r : ApiRequest) : Option RemoteToolName :=
  if r.pathname = "/api/agents/enrollment-tokens" && r.method = "POST" then
    some .create_enrollment_token
  else if r.pathname = "/api/agents" && r.method = "GET" then some .list_agents
  else
    match agentMatch r.pathname with
    | none => if r.pathname = "/api/audit" && r.method = "GET" then some .get_audit_events else none
    | some (_, part) =>
      if part = none && r.method = "GET" then some .list_agents
      else if (part = none || part = some "policy") && r.method = "PATCH" then
        some .update_agent_policy
      else if part = some "revoke" && r.method = "POST" then some .revoke_agent
      else none

/-- A whole number, as `LIMIT` takes it. -/
def IsWhole : JsNumber → Prop
  | .fin q => q.den = 1
  | _ => False

namespace RemoteControlPlane

variable (d : Deployment)

/-- The answer to a whole request: `s` is the state in which it arrives, `t` the state in which the
body of a PATCH request arrives. -/
def answer (m m' : Moment) (principal : RemotePrincipal) (r : ApiRequest)
    (s t : RemoteControlPlane) : Except Thrown (ℕ × Value) :=
  match (s.handleApi d m principal r).1 with
  | .error e => .error e
  | .ok (.respond status body) => .ok (status, body)
  | .ok (.awaitBody agent) =>
    (t.finishPatch d m' principal agent r.body).1.map fun body => (200, body)

/-- **A request is served**: it is answered, and not with an error. -/
def Served (m m' : Moment) (principal : RemotePrincipal) (r : ApiRequest)
    (s t : RemoteControlPlane) : Prop :=
  ∃ status body, answer d m m' principal r s t = .ok (status, body) ∧ status < 400

/-- The caller holds what the tool of a request requires. -/
def HoldsCapability (principal : RemotePrincipal) (r : ApiRequest) : Prop :=
  ∀ tool, r.tool = some tool → hasCapability principal.capabilities (toolCapabilityMap tool) = true

/-- **A read that finds what it looks for**: the agents of the caller, one of them, or audit
rows. -/
def UnguardedRead (principal : RemotePrincipal) (r : ApiRequest) (s : RemoteControlPlane) : Prop :=
  s.store.isOpen = true ∧ r.method = "GET" ∧
    (r.pathname = "/api/agents" ∨
      (∃ ref, agentMatch r.pathname = some (ref, none) ∧
        (s.resolveAgent principal.userId ref).isSome) ∨
      (r.pathname = "/api/audit" ∧ IsWhole (((auditLimit d r).max (.ofInt 1)).min (.ofInt 200))))

/-! ### Writes are guarded -/

section Writes

variable {d} {m : Moment} {principal : RemotePrincipal} {s : RemoteControlPlane}

theorem admin_of_createEnrollmentToken {args value : Value}
    (h : (s.createEnrollmentToken d m principal args).1 = .ok value) :
    hasCapability principal.capabilities .agentsAdmin = true := by
  unfold createEnrollmentToken at h
  split at h
  · cases h
  · next hcap => simpa using hcap

theorem admin_of_updateAgentPolicy {agent updated : RemoteAgentRecord} {value : Value}
    (h : (s.updateAgentPolicy d m principal agent value).1 = .ok updated) :
    hasCapability principal.capabilities .agentsAdmin = true := by
  unfold updateAgentPolicy at h
  split at h
  · cases h
  · next hcap => simpa using hcap

theorem admin_of_revokeAgent {agent updated : RemoteAgentRecord}
    (h : (s.revokeAgent d m principal agent).1 = .ok updated) :
    hasCapability principal.capabilities .agentsAdmin = true := by
  unfold revokeAgent at h
  split at h
  · cases h
  · next hcap => simpa using hcap

theorem mapOutcome_eq_ok {α β : Type} {f : α → β} {outcome : Outcome α} {b : β}
    (h : (mapOutcome f outcome).1 = .ok b) : ∃ a, outcome.1 = .ok a ∧ f a = b := by
  obtain ⟨result, s⟩ := outcome
  cases result with
  | error => cases h
  | ok a => exact ⟨a, rfl, Except.ok.inj h⟩

theorem admin_of_finishPatch {agent : RemoteAgentRecord} {body : Except Thrown Value}
    {value : Value}
    (h : (s.finishPatch d m principal agent body).1 = .ok value) :
    hasCapability principal.capabilities .agentsAdmin = true := by
  unfold finishPatch at h
  split at h
  · cases h
  · obtain ⟨updated, hupdated, -⟩ := mapOutcome_eq_ok h
    exact admin_of_updateAgentPolicy hupdated

end Writes

/-! ### Reads are not -/

theorem listAudit_ok_iff {s : RemoteControlPlane} {userId : String} {agentId : Option String}
    {limit : JsNumber} :
    (∃ events, s.listAudit userId agentId limit = .ok events) ↔
      IsWhole ((limit.max (.ofInt 1)).min (.ofInt 200)) := by
  unfold listAudit
  generalize (limit.max (.ofInt 1)).min (.ofInt 200) = n
  cases n with
  | fin q =>
    show (∃ events, (if q.den = 1 then _ else _) = _) ↔ q.den = 1
    by_cases hq : q.den = 1
    · rw [if_pos hq]
      exact iff_of_true ⟨_, rfl⟩ hq
    · rw [if_neg hq]
      exact iff_of_false (fun ⟨_, h⟩ => nomatch h) hq
  | _ => exact iff_of_false (fun ⟨_, h⟩ => nomatch h) id

section Routes

variable {d} {m m' : Moment} {principal : RemotePrincipal} {r : ApiRequest}
  {s t : RemoteControlPlane}

theorem agentMatch_agents : agentMatch "/api/agents" = none := by decide +kernel

theorem agentMatch_audit : agentMatch "/api/audit" = none := by decide +kernel

theorem served_of_respond {body : Value}
    (h : (s.handleApi d m principal r).1 = .ok (.respond 200 body)) :
    Served d m m' principal r s t :=
  ⟨200, body, by rw [answer, h], by decide⟩

/-- A read that finds what it looks for is served to every caller. -/
theorem served_of_unguardedRead (h : UnguardedRead d principal r s) :
    Served d m m' principal r s t := by
  obtain ⟨hopen, hget, hread⟩ := h
  have hclosed : ¬ (!s.store.isOpen) = true := by simp [hopen]
  have hnotPost : ¬ (r.pathname = "/api/agents/enrollment-tokens" && r.method = "POST") = true := by
    simp [hget]
  rcases hread with hpath | ⟨ref, hmatch, hfound⟩ | ⟨hpath, hwhole⟩
  · apply served_of_respond
    · unfold handleApi
      rw [if_neg hnotPost, if_pos (by simp [hpath, hget]), if_neg hclosed]
  · obtain ⟨agent, hagent⟩ := Option.isSome_iff_exists.mp hfound
    have hpath : r.pathname ≠ "/api/agents" := by
      intro h
      rw [h, agentMatch_agents] at hmatch
      cases hmatch
    apply served_of_respond
    · unfold handleApi
      rw [if_neg hnotPost, if_neg (by simp [hpath]), hmatch]
      dsimp only
      rw [if_neg hclosed, hagent]
      dsimp only
      rw [if_pos (by simp [hget])]
  · obtain ⟨events, hevents⟩ := listAudit_ok_iff.mpr hwhole
    apply served_of_respond
    · unfold handleApi
      rw [if_neg hnotPost, if_neg (by simp [hpath]), hpath, agentMatch_audit]
      dsimp only
      unfold handleAuditRoute
      rw [if_pos (by simp [hpath, hget]), if_neg hclosed, hevents]
      rfl

theorem unguardedRead_of_auditRoute {reply : ApiReply}
    (h : (s.handleAuditRoute d principal r).1 = .ok reply) :
    UnguardedRead d principal r s ∨ ∃ body, reply = .respond 404 body := by
  unfold handleAuditRoute at h
  split at h
  · next hroute =>
    simp only [Bool.and_eq_true, decide_eq_true_eq] at hroute
    split at h
    · cases h
    · next hclosed =>
      left
      refine ⟨by simpa using hclosed, hroute.2, .inr (.inr ⟨hroute.1, ?_⟩)⟩
      cases hevents : s.listAudit principal.userId none (auditLimit d r) with
      | error => rw [hevents] at h; cases h
      | ok events => exact listAudit_ok_iff.mp ⟨events, hevents⟩
  · exact .inr ⟨_, (Except.ok.inj h).symm⟩

/-- **What the routes ask for.** A request that is answered is an unguarded read, or is not found,
or is a write, which asks its caller for `agents.admin`. -/
theorem cases_of_handleApi {reply : ApiReply} (h : (s.handleApi d m principal r).1 = .ok reply) :
    UnguardedRead d principal r s ∨ (∃ body, reply = .respond 404 body) ∨
      ((∀ tool, r.tool = some tool → toolCapabilityMap tool = .agentsAdmin) ∧
        (hasCapability principal.capabilities .agentsAdmin = true ∨
          ∃ agent, reply = .awaitBody agent)) := by
  unfold handleApi at h
  split at h
  · next hroute =>
    -- an enrollment token is only created for an administrator
    have htool : r.tool = some .create_enrollment_token := by
      unfold ApiRequest.tool
      rw [if_pos hroute]
    split at h
    · cases h
    · obtain ⟨value, hvalue, -⟩ := mapOutcome_eq_ok h
      refine .inr (.inr ⟨fun tool heq => ?_, .inl (admin_of_createEnrollmentToken hvalue)⟩)
      obtain rfl := Option.some.inj (htool.symm.trans heq)
      rfl
  next hnotPost =>
  split at h
  · next hroute =>
    split at h
    · cases h
    · next hclosed =>
      -- the list of agents, which needs no capability
      simp only [Bool.and_eq_true, decide_eq_true_eq] at hroute
      exact .inl ⟨by simpa using hclosed, hroute.2, .inl hroute.1⟩
  next hnotList =>
  split at h
  · exact (unguardedRead_of_auditRoute h).imp_right .inl
  next ref part hmatch =>
  split at h
  · cases h
  next hclosed =>
  split at h
  · cases h
  next agent hagent =>
  -- from here the path names an agent, and the rest of it the tool
  have htool : r.tool = if part = none && r.method = "GET" then some .list_agents
      else if (part = none || part = some "policy") && r.method = "PATCH" then
        some .update_agent_policy
      else if part = some "revoke" && r.method = "POST" then some .revoke_agent
      else none := by
    unfold ApiRequest.tool
    rw [if_neg hnotPost, if_neg hnotList, hmatch]
  split at h
  · next hroute =>
    simp only [Bool.and_eq_true, decide_eq_true_eq] at hroute
    refine .inl ⟨by simpa using hclosed, hroute.2, .inr (.inl ⟨ref, ?_, ?_⟩)⟩
    · rw [hmatch, hroute.1]
    · rw [hagent]
      rfl
  next hnotGet =>
  rw [if_neg hnotGet] at htool
  split at h
  · next hroute =>
    -- a PATCH waits for its body before anything is checked
    rw [if_pos hroute] at htool
    refine .inr (.inr ⟨fun tool heq => ?_, .inr ⟨agent, (Except.ok.inj h).symm⟩⟩)
    obtain rfl := Option.some.inj (htool.symm.trans heq)
    rfl
  next hnotPatch =>
  rw [if_neg hnotPatch] at htool
  split at h
  · next hroute =>
    rw [if_pos hroute] at htool
    -- a revocation checks the capability itself
    obtain ⟨updated, hupdated, -⟩ := mapOutcome_eq_ok h
    refine .inr (.inr ⟨fun tool heq => ?_, .inl (admin_of_revokeAgent hupdated)⟩)
    obtain rfl := Option.some.inj (htool.symm.trans heq)
    rfl
  · exact (unguardedRead_of_auditRoute h).imp_right .inl

/-- A request that is served is an unguarded read, or its caller may administer agents and its tool
asks for that. -/
theorem cases_of_served (h : Served d m m' principal r s t) :
    UnguardedRead d principal r s ∨
      (hasCapability principal.capabilities .agentsAdmin = true ∧
        ∀ tool, r.tool = some tool → toolCapabilityMap tool = .agentsAdmin) := by
  obtain ⟨status, body, hanswer, hstatus⟩ := h
  unfold answer at hanswer
  cases hreply : (s.handleApi d m principal r).1 with
  | error => rw [hreply] at hanswer; cases hanswer
  | ok =>
    rw [hreply] at hanswer
    rcases cases_of_handleApi hreply with hread | ⟨notFound, rfl⟩ | ⟨htool, hadmin | ⟨agent, rfl⟩⟩
    · exact .inl hread
    · obtain ⟨rfl, -⟩ := Prod.mk.inj (Except.ok.inj hanswer)
      exact absurd hstatus (by decide)
    · exact .inr ⟨hadmin, htool⟩
    · -- a PATCH request is served when its body has arrived
      dsimp only at hanswer
      cases hpatch : (t.finishPatch d m' principal agent r.body).1 with
      | error => rw [hpatch] at hanswer; cases hanswer
      | ok => exact .inr ⟨admin_of_finishPatch hpatch, htool⟩

/-- **When the two front ends agree.** A request is served to those only who hold the capability of
its tool, exactly if it is no unguarded read, or its caller holds that capability. -/
theorem rest_authorised_iff (d : Deployment) (m m' : Moment) (principal : RemotePrincipal)
    (r : ApiRequest) (s t : RemoteControlPlane) :
    (Served d m m' principal r s t → HoldsCapability principal r) ↔
      (¬ UnguardedRead d principal r s ∨ HoldsCapability principal r) := by
  constructor
  · intro h
    by_cases hread : UnguardedRead d principal r s
    · exact .inr (h (served_of_unguardedRead hread))
    · exact .inl hread
  · rintro (hread | hholds) hserved
    · obtain ⟨hadmin, htool⟩ := (cases_of_served hserved).resolve_left hread
      intro tool h
      rw [htool tool h]
      exact hadmin
    · exact hholds

end Routes

/-! ### A read of the audit log -/

/-- A request for the audit log. -/
def auditRequest : ApiRequest where
  method := "GET"
  pathname := "/api/audit"
  limit := none
  body := .ok (.obj [])

/-- A caller whose token has the scope `hosts:read` only. -/
def hostsReader : RemotePrincipal where
  userId := "usr_1"
  capabilities := capabilitiesFromScopes [.hostsRead]

/-- **The audit log is served without its scope.** -/
theorem audit_served_without_scope :
    ¬ ∀ (d : Deployment) (m m' : Moment) (principal : RemotePrincipal) (r : ApiRequest)
      (s t : RemoteControlPlane), Served d m m' principal r s t → HoldsCapability principal r := by
  intro h
  have hserved : Served sampleDeployment (sampleMoment 0) (sampleMoment 0) hostsReader auditRequest
      (start .empty) (start .empty) :=
    served_of_unguardedRead ⟨rfl, rfl, .inr (.inr ⟨rfl, rfl⟩)⟩
  exact absurd (h _ _ _ _ _ _ _ hserved .get_audit_events (by decide +kernel)) (by decide +kernel)

end RemoteControlPlane

end Remote
