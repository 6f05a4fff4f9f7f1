import McpSshTool.Library.Run
import McpSshTool.Remote.ControlPlane.Ledger

/-!
# Revocation

Whether an agent that has been revoked stays revoked. Every write of an agent's row but one keeps a
revocation, for it is computed from the row it overwrites. The exception is a PATCH request that
read the record before the revocation and gets its body after it: `updateAgentPolicy` then writes
the whole record back, its old status included.

`revocation_permanent_iff` is exact: along a run a revoked agent stays revoked and is sent no action
if and only if no step of the run is such a `StalePatch`.
-/

open Library

namespace Remote

namespace RemoteControlPlane

variable (d : Deployment)

/-- The stored status of an agent is `revoked`. -/
def IsRevoked (a : String) (s : RemoteControlPlane) : Prop :=
  (s.store.getAgent a).map (·.status) = some .revoked

/-- Whether a message is an `action.request` for an agent. -/
def isRequestTo (a : String) : ServerMessage → Bool
  | .actionRequest envelope => envelope.agent_id = a
  | _ => false

/-- The action requests that were sent for an agent. -/
def requestsTo (a : String) (s : RemoteControlPlane) : List (ConnectionId × ServerMessage) :=
  s.sent.filter fun e => isRequestTo a e.2

/-- **An update that undoes a revocation**: it is made of a record of the agent from before the
revocation, and the policy it leads to is stored. Only a PATCH request can hold such a record. -/
def StalePatch (a : String) (s : RemoteControlPlane) (e : Step) : Prop :=
  ∃ principal agent value policy, s.updateRequest e = some (principal, agent, value) ∧
    agent.id = a ∧ agent.status ≠ .revoked ∧ updatedPolicy d agent value = some policy ∧
      Stores d e.moment s principal agent policy

/-! ### Reading the ledger -/

theorem isRevoked_iff_view {a : String} {s : RemoteControlPlane} :
    IsRevoked a s ↔ ∃ v, s.view a = some v ∧ v.revoked = true := by
  unfold IsRevoked view
  cases s.store.getAgent a with
  | none => simp
  | some => simp [viewOf]

theorem requestsTo_eq_commands (a : String) (s : RemoteControlPlane) :
    s.requestsTo a = s.commands.filter fun e => isRequestTo a e.2 := by
  unfold requestsTo commands
  rw [List.filter_filter]
  refine List.filter_congr fun e _ => ?_
  cases e.2 <;> simp [isRequestTo, isCommand]

theorem isRevoked_of_ledger {a : String} {s s' : RemoteControlPlane} (h : s'.ledger = s.ledger)
    (hs : IsRevoked a s) : IsRevoked a s' := by
  obtain ⟨v, hv, hrevoked⟩ := isRevoked_iff_view.mp hs
  exact isRevoked_iff_view.mpr ⟨v, (view_eq_of_ledger h a).trans hv, hrevoked⟩

theorem requestsTo_append_of_ne {a : String} {s s' : RemoteControlPlane}
    {new : List (ConnectionId × ServerMessage)} (h : s'.commands = s.commands ++ new)
    (hnew : ∀ e ∈ new, isRequestTo a e.2 = false) : s'.requestsTo a = s.requestsTo a := by
  rw [requestsTo_eq_commands, requestsTo_eq_commands, h, List.filter_append]
  have hnil : (new.filter fun e => isRequestTo a e.2) = [] :=
    List.filter_eq_nil_iff.mpr fun e he => by simp [hnew e he]
  rw [hnil, List.append_nil]

theorem requestsTo_of_commands {a : String} {s s' : RemoteControlPlane}
    (h : s'.commands = s.commands) : s'.requestsTo a = s.requestsTo a :=
  requestsTo_append_of_ne (h.trans (List.append_nil _).symm) fun _ he => absurd he List.not_mem_nil

/-! ### One step -/

/-- A stale PATCH leaves the agent with the status it had when the request arrived. -/
theorem not_isRevoked_of_stalePatch {a : String} {s : RemoteControlPlane} {e : Step}
    (hs : IsRevoked a s) (h : StalePatch d a s e) : ¬ IsRevoked a (s.step d e) := by
  obtain ⟨principal, agent, value, policy, hrequest, rfl, hstatus, hpolicy, hstores⟩ := h
  obtain ⟨v, hv, hrevoked⟩ := isRevoked_iff_view.mp hs
  have hnot : ∀ s₀ s' : RemoteControlPlane, PolicyStored d e.moment agent policy s₀ s' →
      ¬ IsRevoked agent.id s' := by
    intro s₀ s' hstored h
    obtain ⟨v', hv', hrevoked'⟩ := isRevoked_iff_view.mp h
    rw [hstored.view, if_pos rfl] at hv'
    obtain ⟨old, -, rfl⟩ := Option.map_eq_some_iff.mp hv'
    exact hstatus (of_decide_eq_true hrevoked')
  cases recordSource_of_updateRequest hrequest with
  | current hagent =>
    -- the stored record is revoked, so this is not it
    obtain rfl : viewOf agent = v := Option.some.inj ((view_of_getAgent hagent).symm.trans hv)
    exact absurd (of_decide_eq_true hrevoked) hstatus
  | waiting request body hevent hpatch =>
    obtain ⟨event, m⟩ := e
    obtain rfl : event = .patchBody request (some body) := hevent
    have hvalue : body.member "policy" = value := by
      unfold updateRequest at hrequest
      simp only [hpatch, Option.map_some] at hrequest
      exact (Prod.mk.inj (Prod.mk.inj (Option.some.inj hrequest)).2).2
    show ¬ IsRevoked agent.id (s.applyPatch d m request (some body))
    unfold applyPatch
    rw [hpatch]
    simp only
    rw [hvalue]
    rcases updateAgentPolicy_cases d m principal agent value
        { s with patches := s.patches.delete request } with
      ⟨policy', hpolicy', -, -, hstored⟩ | ⟨hnone, -⟩
    · obtain rfl := Option.some.inj (hpolicy.symm.trans hpolicy')
      exact hnot _ _ hstored
    · exact absurd hstores (hnone policy hpolicy)

/-- **One step keeps a revocation**, a stale PATCH apart, and sends the agent no action. -/
theorem revoked_step {a : String} {s : RemoteControlPlane} (hs : IsRevoked a s) {e : Step}
    (he : ¬ StalePatch d a s e) :
    IsRevoked a (s.step d e) ∧ (s.step d e).requestsTo a = s.requestsTo a := by
  obtain ⟨v, hv, hrevoked⟩ := isRevoked_iff_view.mp hs
  cases step_cases d s e with
  | quiet h => exact ⟨isRevoked_of_ledger h hs, requestsTo_of_commands (commands_eq_of_ledger h)⟩
  | created agent profile hid hfree hview hcommands =>
    refine ⟨isRevoked_iff_view.mpr ⟨v, ?_, hrevoked⟩, requestsTo_of_commands hcommands⟩
    -- the id of the new agent was free
    have hne : a ≠ agent.id := by
      rintro rfl
      exact absurd (hfree.symm.trans hv) (by simp)
    rw [hview, if_neg hne, hv]
  | policyStored principal agent value policy hrequest hpolicy hstores h =>
    have hrequests : (s.step d e).requestsTo a = s.requestsTo a := by
      refine requestsTo_append_of_ne h.commands fun c hc => ?_
      rw [mem_policyCommands d hc]
      rfl
    refine ⟨?_, hrequests⟩
    rw [isRevoked_iff_view]
    by_cases hid : a = agent.id
    · -- a record from before the revocation makes the PATCH a stale one
      have hstatus : agent.status = .revoked := by
        by_contra hne
        exact he ⟨principal, agent, value, policy, hrequest, hid.symm, hne, hpolicy, hstores⟩
      refine ⟨_, by rw [h.view, if_pos hid, hv, Option.map_some], ?_⟩
      exact decide_eq_true hstatus
    · exact ⟨v, by rw [h.view, if_neg hid, hv], hrevoked⟩
  | revoked agent hagent hview hcommands =>
    refine ⟨?_, requestsTo_of_commands hcommands⟩
    rw [isRevoked_iff_view, hview]
    split
    · exact ⟨_, rfl, rfl⟩
    · exact ⟨v, hv, hrevoked⟩
  | dispatched principal agent tool args live deadline hevent hagent huser hstatus hlive hview
      hcommands =>
    refine ⟨isRevoked_iff_view.mpr ⟨v, by rw [hview, hv], hrevoked⟩, ?_⟩
    refine requestsTo_append_of_ne hcommands fun c hc => ?_
    rw [mem_sentCommand hc]
    -- the agent that is sent to is not revoked
    have hne : agent.id ≠ a := by
      rintro rfl
      obtain rfl : viewOf agent = v := Option.some.inj ((view_of_getAgent hagent).symm.trans hv)
      exact hstatus (of_decide_eq_true hrevoked)
    exact decide_eq_false hne

/-! ### Every run -/

/-- **When revocation is permanent.** From a state in which an agent is revoked, a run keeps it
revoked and sends it no action, in every state, exactly when none of its steps is a stale PATCH. -/
theorem revocation_permanent_iff {a : String} {s : RemoteControlPlane} (hs : IsRevoked a s)
    (es : List Step) :
    Run.Along (step d) (fun s' => IsRevoked a s' ∧ s'.requestsTo a = s.requestsTo a) s es ↔
      Run.AllSteps (step d) (fun s' e => ¬ StalePatch d a s' e) s es := by
  refine Run.along_iff_allSteps ?_ ⟨hs, rfl⟩
  rintro s' e ⟨hrevoked, hrequests⟩
  constructor
  · exact fun h hstale => not_isRevoked_of_stalePatch d hrevoked hstale h.1
  · intro he
    obtain ⟨hkept, hsame⟩ := revoked_step d hrevoked he
    exact ⟨hkept, hsame.trans hrequests⟩

/-- Requests that arrive in this order: a PATCH request, and the revocation of the agent while the
PATCH request waits for its body. -/
def revokedWhileWaiting : List Step :=
  [⟨.patchArrived 0 sampleOwner "agt_1", sampleMoment 1⟩,
    ⟨.revoke sampleOwner "agt_1", sampleMoment 2⟩]

/-- **A revocation undone**: the body of the waiting request, with an empty patch, brings the agent
back. -/
theorem revocation_undone :
    IsRevoked "agt_1" (Run.run (step sampleDeployment) (start sampleStore) revokedWhileWaiting) ∧
      ¬ IsRevoked "agt_1" (Run.run (step sampleDeployment) (start sampleStore)
        (revokedWhileWaiting ++ [⟨.patchBody 0 (some (.obj [("policy", .obj [])])),
          sampleMoment 3⟩])) := by
  unfold IsRevoked
  decide

/-- A cleanup of a revoked agent's nonces is no PATCH. -/
theorem revocation_permanent_cleanup :
    Run.Along (step sampleDeployment)
      (fun s' => IsRevoked "agt_1" s' ∧ s'.requestsTo "agt_1" = [])
      (Run.run (step sampleDeployment) (start sampleStore) revokedWhileWaiting)
      [⟨.cleanup, sampleMoment 3⟩] := by
  have hrevoked : IsRevoked "agt_1"
      (Run.run (step sampleDeployment) (start sampleStore) revokedWhileWaiting) := by
    unfold IsRevoked
    decide
  refine (revocation_permanent_iff sampleDeployment hrevoked _).mpr ⟨?_, trivial⟩
  rintro ⟨_, _, _, _, hrequest, -⟩
  cases hrequest

end RemoteControlPlane
end Remote
