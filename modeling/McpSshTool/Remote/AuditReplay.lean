import McpSshTool.Remote.AuditTrail
import McpSshTool.Remote.KeyProvenance

/-!
# What the audit trail tells

The trail is only appended to, and a reader who has nothing else can tell from it how far every
action has come, and, but for two kinds of step, which status every agent has.

* `staged_step` — every step adds to the trail what it does to actions;
* `trail_tells_stages` — so the trail tells the stage of every action, along every run;
* `TellsStatus` — the condition on a step: a policy update writes a record with the status of the
  row, and an agent is created together with its token;
* `traced_step` — a step that meets it adds to the trail what it does to agents;
* `trail_tells_statuses_iff` — a run stays told exactly when its steps meet the condition.

A PATCH that has waited writes back the status that it has read, and its event speaks of the policy
alone; an agent whose token could not be inserted has a row and no event.
-/

open Library

namespace Remote
namespace RemoteControlPlane

variable {d : Deployment} {s : RemoteControlPlane}

/-! ### Steps that the trail may not tell -/

/-- **What a policy update does** to the trail and to what it tells. -/
structure PolicyTraced (agent : RemoteAgentRecord) (s s' : RemoteControlPlane) : Prop where
  isOpen : s'.store.isOpen = s.store.isOpen
  actions : s'.store.actions = s.store.actions
  live : s'.agentConnections = s.agentConnections
  auditEvents : ∃ event : AuditEvent, event.eventType = "policy_updated" ∧ event.actionId = none ∧
    s'.store.auditEvents = s.store.auditEvents ++ [event]
  status : ∀ x, s'.storedStatus x =
    if x = agent.id then (s.storedStatus agent.id).map fun _ => agent.status else s.storedStatus x

theorem step_of_updatesPolicy {e : Step} {agent : RemoteAgentRecord} {policy : Fields}
    (h : UpdatesPolicy d s e agent policy) : PolicyTraced agent s (s.step d e) := by
  obtain ⟨principal, value, hrequest, hpolicy, hcapability, store, hstore⟩ := h
  obtain ⟨patches, hstep⟩ := step_of_updateRequest (d := d) hrequest
  obtain ⟨hopen, hactions, haudit, -⟩ := tables_updateAgent d hstore
  have hwritten := rowWritten_updateAgent d s hstore
  rw [hstep]
  unfold updateAgentPolicy
  rw [hcapability, if_neg (by decide), hpolicy]
  dsimp only
  rw [hstore]
  dsimp only
  -- a message on the agent's connection keeps the store and the registrations
  have hsent : ∀ s' : RemoteControlPlane, s'.store = store →
      s'.agentConnections = s.agentConnections →
      PolicyTraced agent s (s'.audit d e.moment (some principal.userId) (some agent.id) none
        "policy_updated" .warn [("profile", (policyRecord d e.moment agent policy).profile),
          ("policy_version", .int (policyRecord d e.moment agent policy).policyVersion)]) := by
    intro s' hs' hlive
    subst hs'
    refine ⟨hopen, hactions, hlive, ?_, hwritten.status⟩
    exact ⟨_, by rfl, by rfl, congrArg (· ++ [_]) haudit⟩
  split
  · exact hsent _ rfl rfl
  · refine hsent _ ?_ ?_
    · unfold sendJson
      split <;> rfl
    · unfold sendJson
      split <;> rfl

/-- **An agent whose token could not be inserted**: the step leaves its row, and nothing else. -/
theorem step_of_createsAgent {e : Step} {principal : RemotePrincipal} {args : Value}
    {aliasName : String} (hrequest : enrollmentRequest e = some (principal, args))
    (halias : requestedAlias args = some aliasName)
    (hinserts : Inserts e.moment s principal aliasName)
    (hfails : ¬(expiryText d e.moment ≠ none ∧ TokenFree d e.moment s)) :
    s.step d e = withPending d e.moment principal aliasName (requestedProfile args) s := by
  rw [step_of_enrollmentRequest d hrequest]
  rcases createEnrollmentToken_inserts (d := d) halias hinserts with
    ⟨error, -, houtcome⟩ | ⟨expiresAt, reply, metadata, hexpiry, hfree, -⟩
  · rw [houtcome]
  · exact absurd ⟨by rw [hexpiry]; exact Option.some_ne_none _, hfree⟩ hfails

/-- **The condition on a step**: a policy update writes a record with the status of the row, and an
agent is created together with its token. -/
structure TellsStatus (d : Deployment) (s : RemoteControlPlane) (e : Step) : Prop where
  policy : ∀ agent policy, UpdatesPolicy d s e agent policy →
    ∀ old, s.store.getAgent agent.id = some old → agent.status = old.status
  creation : CreatesAgent s e → expiryText d e.moment ≠ none ∧ TokenFree d e.moment s

/-! ### Steps -/

/-- **A step that meets the condition** is traced. -/
theorem traced_step (s : RemoteControlPlane) {e : Step} (h : TellsStatus d s e) :
    Traced anyEvent s (s.step d e) := by
  obtain ⟨event, m⟩ := e
  cases event with
  | connect c =>
    show Traced anyEvent s (s.connect c)
    unfold connect
    split
    · exact .refl s
    · exact .of_eq rfl rfl rfl rfl fun _ h => h
  | message c payload => exact traced_receive d m s c payload
  | messageFailed c => exact traced_recover d m s c
  | socketClosed c => exact (traced_handleClose d m s c).mono fun _ _ => trivial
  | enroll body => exact traced_handleAgentEnroll d m s body
  | createEnrollmentToken principal body =>
    exact traced_createEnrollmentToken d s (e := ⟨.createEnrollmentToken principal body, m⟩) rfl
      h.creation
  | patchArrived request principal agentRef => exact traced_awaitPatch s request principal agentRef
  | patchBody request body =>
    have hpolicy := h.policy
    unfold UpdatesPolicy updateRequest at hpolicy
    show Traced anyEvent s (s.applyPatch d m request body)
    unfold applyPatch
    split
    · exact .refl s
    · next principal agent hpatch =>
      have hread : Traced anyEvent s { s with patches := s.patches.delete request } :=
        .of_eq rfl rfl rfl rfl fun _ h => h
      cases body with
      | none => exact hread
      | some =>
        refine hread.trans (traced_updateAgentPolicy d m _ principal agent _
          fun policy hupdated hstores old hold => ?_)
        refine hpolicy agent policy ⟨principal, _, ?_, hupdated, hstores⟩ old hold
        dsimp only
        rw [hpatch]
        rfl
  | revoke principal agentRef => exact traced_revokeByRef d m s principal agentRef
  | callTool principal tool args =>
    show Traced anyEvent s (s.callRemoteTool d m principal tool args).2
    cases callRemoteTool_inversion d m s principal tool args with
    | kept h =>
      rw [h]
      exact .refl s
    | tokenCreated htool heq =>
      subst htool
      rw [heq]
      exact traced_createEnrollmentToken d s
        (e := ⟨.callTool principal .create_enrollment_token args, m⟩) rfl h.creation
    | policyUpdated agent _ _ _ hagent heq =>
      rw [heq]
      -- the record was read in this step
      refine traced_updateAgentPolicy d m s principal agent _ fun _ _ _ old hold => ?_
      rw [Option.some.inj ((requireAgent_eq_ok hagent).1.symm.trans hold)]
    | revoked agent _ hopen hagent heq =>
      rw [heq]
      exact traced_revokeAgent d m s principal hopen (requireAgent_eq_ok hagent).1
    | denied agent metadata _ heq =>
      rw [heq]
      exact traced_audit d m s _ _ _ _ _ (by decide) (by decide)
    | dispatched agent _ _ _ heq =>
      rw [heq]
      exact traced_dispatchAction d m s principal agent tool _ args
  | authenticationFailed =>
    show Traced anyEvent s (if s.store.isOpen then _ else s)
    split
    · exact traced_audit d m s _ _ _ _ _ (by decide) (by decide)
    · exact .refl s
  | actionTimeout id => exact traced_timeOut s id
  | actionSettled id => exact traced_resume d m s id
  | cleanup => exact traced_cleanupEphemeralState s m.now
  | shutdown => exact traced_shutdown d m s

/-- **Every step** adds to the trail what it does to actions. -/
theorem staged_step (hs : s.Quiescent) (e : Step) :
    (s.step d e).Quiescent ∧ ∀ id, (stageLog id).Accounts anyEvent s (s.step d e) := by
  by_cases hpolicy : ∃ agent policy, UpdatesPolicy d s e agent policy
  · obtain ⟨agent, policy, h⟩ := hpolicy
    obtain ⟨hopen, hactions, hlive, ⟨event, -, hnone, hlog⟩, -⟩ := step_of_updatesPolicy h
    refine ⟨fun hclosed => ?_, fun id => .single hlog trivial ?_⟩
    · rw [hlive]
      exact hs (hopen.symm.trans hclosed)
    · rw [stageLog_view, stageLog_apply, stageAfter_of_none hnone, storedStage, hactions]
      rfl
  by_cases hcreation : CreatesAgent s e → expiryText d e.moment ≠ none ∧ TokenFree d e.moment s
  · have htraced := traced_step s (d := d) (e := e)
      ⟨fun agent policy h => absurd ⟨agent, policy, h⟩ hpolicy, hcreation⟩ hs
    exact ⟨htraced.quiescent, htraced.stage⟩
  · obtain ⟨⟨principal, args, aliasName, hrequest, halias, hinserts⟩, hfails⟩ :=
      Classical.not_imp.mp hcreation
    rw [step_of_createsAgent hrequest halias hinserts hfails]
    exact ⟨hs, fun id => .of_eq rfl rfl⟩

/-- **Audit rows are only appended**, whatever the step. -/
theorem auditEvents_step (hs : s.Quiescent) (e : Step) :
    s.store.auditEvents <+: (s.step d e).store.auditEvents := by
  obtain ⟨new, hlog, -⟩ := (staged_step (d := d) hs e).2 ""
  exact ⟨new, hlog.symm⟩

/-! ### Every run -/

theorem quiescent_start (store : RemoteStore) : (start store).Quiescent := fun _ _ => rfl

theorem quiescent_run (store : RemoteStore) (es : List Step) :
    (Run.run (step d) (start store) es).Quiescent :=
  Run.run_of_preserved (C := fun _ _ => True) (P := Quiescent)
    (fun _ e hs _ => (staged_step hs e).1)
    (quiescent_start store) (Run.allSteps_of_forall (fun _ _ => trivial) _ _)

theorem auditEvents_run (hs : s.Quiescent) (es : List Step) :
    s.store.auditEvents <+: (Run.run (step d) s es).store.auditEvents := by
  induction es generalizing s with
  | nil => exact List.prefix_rfl
  | cons e es ih => exact (auditEvents_step hs e).trans (ih (staged_step hs e).1)

/-- **The trail tells the stage of every action**, along every run from a store where it does: a row
is there exactly if its action was requested, and its action has completed or failed exactly if the
last event that says so does. Rows of the trail are only appended. -/
theorem trail_tells_stages (d : Deployment) (store : RemoteStore)
    (hstart : ∀ id, (stageLog id).Tells none (start store)) (es es' : List Step) :
    (∀ id, (stageLog id).Tells none (Run.run (step d) (start store) es)) ∧
      (Run.run (step d) (start store) es).store.auditEvents <+:
        (Run.run (step d) (start store) (es ++ es')).store.auditEvents := by
  constructor
  · have hstep : ∀ s e, (s.Quiescent ∧ ∀ id, (stageLog id).Tells none s) → True →
        ((s.step d e).Quiescent ∧ ∀ id, (stageLog id).Tells none (s.step d e)) := by
      rintro s e ⟨hs, htells⟩ -
      obtain ⟨hquiescent, haccounts⟩ := staged_step (d := d) hs e
      exact ⟨hquiescent, fun id => (htells id).next (haccounts id)⟩
    exact (Run.run_of_preserved hstep ⟨quiescent_start store, hstart⟩
      (Run.allSteps_of_forall (fun _ _ => trivial) _ es)).2
  · rw [Run.run_append]
    exact auditEvents_run (quiescent_run store es) es'

/-- An agent connects and is asked for its status, and does not answer in time. -/
def unansweredSteps : List Step :=
  [⟨.connect 0, sampleMoment 0⟩, ⟨.message 0 (some (.obj sampleHello.toFields)), sampleMoment 0⟩,
    ⟨.callTool sampleOwner .get_system_status [("agent_id_or_alias", .str "web")], sampleMoment 1⟩,
    ⟨.actionTimeout "act_1", sampleMoment 2⟩, ⟨.actionSettled "act_1", sampleMoment 2⟩]

/-- That action has failed, and the trail says so. -/
theorem trail_tells_unanswered :
    (Run.run (step sampleDeployment) (start sampleStore) unansweredSteps).storedStage "act_1" =
        some .failed ∧
      (stageLog "act_1").Tells none
        (Run.run (step sampleDeployment) (start sampleStore) unansweredSteps) :=
  ⟨by decide +kernel,
    (trail_tells_stages sampleDeployment sampleStore (fun _ => rfl) unansweredSteps []).1 "act_1"⟩

/-- **When one step keeps the statuses told.** -/
theorem tells_step_iff (hs : s.Quiescent) (htells : ∀ a, (statusLog a).Tells none s) (e : Step) :
    (∀ a, (statusLog a).Tells none (s.step d e)) ↔ TellsStatus d s e := by
  constructor
  · intro hafter
    constructor
    · intro agent policy hupdates old hold
      obtain ⟨-, -, -, ⟨event, htype, -, hlog⟩, hstatus⟩ := step_of_updatesPolicy hupdates
      have hview := (EventLog.tells_iff (htells agent.id) hlog).mp (hafter agent.id)
      -- the event says nothing of the status, so the row has the status that it had
      have hsame : (s.step d e).storedStatus agent.id = s.storedStatus agent.id := by
        refine Eq.trans hview (EventLog.replay_of_fixed _ fun event' hmem => ?_)
        obtain rfl := List.mem_singleton.mp hmem
        rw [statusLog_apply]
        unfold statusAfter
        rw [htype]
        exact ite_self _
      rw [hstatus, if_pos rfl, storedStatus, hold] at hsame
      exact Option.some.inj hsame
    · rintro ⟨principal, args, aliasName, hrequest, halias, hinserts⟩
      by_contra hfails
      have hstep := step_of_createsAgent (d := d) hrequest halias hinserts hfails
      have hlog : (statusLog (freshId e.moment "agt")).log (s.step d e) =
          (statusLog (freshId e.moment "agt")).log s ++ [] := by
        rw [hstep, List.append_nil]
        rfl
      have hview := (EventLog.tells_iff (htells _) hlog).mp (hafter _)
      -- the new row is pending, and there was none
      rw [hstep, statusLog_view, storedStatus, getAgent_withPending, if_pos rfl] at hview
      refine absurd hview ?_
      show some _ ≠ s.storedStatus _
      rw [storedStatus, hinserts.id_free]
      exact Option.some_ne_none _
  · intro h a
    exact (htells a).next ((traced_step s h hs).status a)

/-- **When the trail tells the status of every agent.** Along a run from a store where it does,
every state is one where it does exactly when no policy update writes a status that its row no
longer has, and no agent is created without its token. -/
theorem trail_tells_statuses_iff (d : Deployment) (store : RemoteStore)
    (hstart : ∀ a, (statusLog a).Tells none (start store)) (es : List Step) :
    Run.Along (step d) (fun s => ∀ a, (statusLog a).Tells none s) (start store) es ↔
      Run.AllSteps (step d) (TellsStatus d) (start store) es :=
  Run.along_iff_allSteps_within (I := Quiescent) (D := fun _ _ => True)
    (fun _ e hs _ => (staged_step hs e).1) (fun _ e hs htells _ => tells_step_iff hs htells e)
    (quiescent_start store) hstart (Run.allSteps_of_forall (fun _ _ => trivial) _ _)

/-- The trail tells the statuses along the enrollment of a host. -/
theorem trail_tells_enrolling :
    Run.Along (step sampleDeployment) (fun s => ∀ a, (statusLog a).Tells none s)
      (start RemoteStore.empty) enrollingSteps := by
  refine (trail_tells_statuses_iff sampleDeployment RemoteStore.empty (fun _ => rfl)
    enrollingSteps).mpr ⟨⟨?_, fun _ => ⟨by decide +kernel, rfl⟩⟩, ⟨?_, ?_⟩, ⟨?_, ?_⟩, trivial⟩
  · rintro agent policy ⟨principal, value, hrequest, -⟩
    cases hrequest
  · rintro agent policy ⟨principal, value, hrequest, -⟩
    cases hrequest
  · rintro ⟨principal, args, aliasName, hrequest, -⟩
    cases hrequest
  · rintro agent policy ⟨principal, value, hrequest, -⟩
    cases hrequest
  · rintro ⟨principal, args, aliasName, hrequest, -⟩
    cases hrequest

end RemoteControlPlane
end Remote
