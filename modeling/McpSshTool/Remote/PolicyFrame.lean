import McpSshTool.Remote.PolicyVersions
import McpSshTool.Remote.Revocation

/-!
# What a policy update leaves alone

A policy update writes the whole row of its agent, from the record that the request has read. What
it changes beside the policy is what has changed since.

* `OnlyPolicyChanges` — a row differs from another in its policy only;
* `FrameKept` — a policy update leaves the other columns as they were stored just before it;
* `OnStoredColumns` — the condition: the record says of them what is stored;
* `policy_update_frame_iff` — one holds of all steps of a run exactly when the other does.
-/

open Library

namespace Remote
namespace RemoteControlPlane

variable (d : Deployment)

/-- **Only the policy changes**: the profile, the policy, its version, and the time of the
update. -/
def OnlyPolicyChanges (old new : RemoteAgentRecord) : Prop :=
  new = { old with
    profile := new.profile
    policy := new.policy
    policyVersion := new.policyVersion
    updatedAt := new.updatedAt }

/-- **A policy update keeps the frame**: relative to the row that is stored just before it, its
write changes the policy only, and it changes no other row. -/
def FrameKept (s : RemoteControlPlane) (e : Step) : Prop :=
  ∀ agent policy, UpdatesPolicy d s e agent policy → ∀ old, s.store.getAgent agent.id = some old →
    (∃ new, (s.step d e).store.getAgent agent.id = some new ∧ OnlyPolicyChanges old new) ∧
      ∀ a, a ≠ agent.id → (s.step d e).store.getAgent a = s.store.getAgent a

/-- What a policy update writes of a record beside the policy, as its columns keep it. -/
def otherColumns (agent : RemoteAgentRecord) :
    String × AgentStatus × Option String × Option AgentHostMetadata × Option String :=
  (agent.aliasName, agent.status, optionalText agent.publicKey, agent.hostMetadata,
    optionalText agent.lastSeenAt)

/-- **The record of a policy update is up to date**: its alias, status, public key, host metadata
and last time seen, which a PATCH request has read before it waited for its body, are those stored
when the update is written. -/
def OnStoredColumns (s : RemoteControlPlane) (e : Step) : Prop :=
  ∀ agent policy, UpdatesPolicy d s e agent policy → ∀ old, s.store.getAgent agent.id = some old →
    otherColumns agent = otherColumns old

/-! ### The write -/

variable {d}

/-- The tables that `updateAgentPolicy` leaves are those that its write leaves. -/
theorem getAgent_updateAgentPolicy {s : RemoteControlPlane} {m : Moment}
    {principal : RemotePrincipal} {agent : RemoteAgentRecord} {value : Value} {policy : Fields}
    (hcapability : hasCapability principal.capabilities .agentsAdmin = true)
    (hpolicy : updatedPolicy d agent value = some policy) {store : RemoteStore}
    (hstore : s.store.updateAgent d.platform (policyRecord d m agent policy) = .ok store)
    (a : String) :
    (s.updateAgentPolicy d m principal agent value).2.store.getAgent a = store.getAgent a := by
  unfold updateAgentPolicy
  rw [hcapability, if_neg (by decide), hpolicy]
  dsimp only
  rw [hstore]
  dsimp only
  -- neither the message nor the audit row touches the table of agents
  cases s.agentConnections.get? agent.id with
  | none => rfl
  | some =>
    dsimp only
    unfold sendJson
    split
    · rfl
    · rfl

/-- **What a policy update writes**: the row of its record, with the user and the time of creation
of the row that was there. -/
theorem getAgent_of_updatesPolicy {s : RemoteControlPlane} {e : Step} {agent : RemoteAgentRecord}
    {policy : Fields} (h : UpdatesPolicy d s e agent policy) {old : RemoteAgentRecord}
    (hold : s.store.getAgent agent.id = some old) :
    ∃ row, RemoteStore.agentRow d.platform (policyRecord d e.moment agent policy) = some row ∧
      ∀ a, (s.step d e).store.getAgent a =
        if a = agent.id then some (RemoteStore.updatedRow row old) else s.store.getAgent a := by
  obtain ⟨principal, value, hrequest, hpolicy, hcapability, store, hstore⟩ := h
  obtain ⟨patches, hstep⟩ := step_of_updateRequest (d := d) hrequest
  obtain ⟨-, row, hrow, hwrite⟩ := RemoteStore.updateAgent_eq_ok hstore
  have hid : row.id = agent.id := (RemoteStore.agentRow_eq_some hrow).2.1
  refine ⟨row, hrow, fun a => ?_⟩
  rw [hstep,
    getAgent_updateAgentPolicy (s := { s with patches := patches }) hcapability hpolicy hstore]
  rcases hwrite with ⟨hnone, -⟩ | ⟨old', hisRow, hold', rfl⟩
  · rw [show (policyRecord d e.moment agent policy).id = agent.id from rfl, hold] at hnone
    cases hnone
  · obtain rfl : old = old' := Option.some.inj (hold.symm.trans hold')
    rw [RemoteStore.getAgent_setAgent, show (RemoteStore.updatedRow row old).id = agent.id from hid]

/-- The row that is written differs from the one that was there in the policy only exactly when the
record says of the other columns what was there. -/
theorem onlyPolicyChanges_iff {m : Moment} {agent row old : RemoteAgentRecord} {policy : Fields}
    (hrow : RemoteStore.agentRow d.platform (policyRecord d m agent policy) = some row)
    (hold : IsRow old)
    (hid : old.id = agent.id) :
    OnlyPolicyChanges old (RemoteStore.updatedRow row old) ↔
      otherColumns agent = otherColumns old := by
  obtain ⟨profile, -, rfl⟩ := Option.map_eq_some_iff.mp hrow
  unfold OnlyPolicyChanges otherColumns
  rw [hold.publicKey_read, hold.lastSeenAt_read]
  obtain ⟨id, userId, aliasName, status, publicKey, oldProfile, oldPolicy, policyVersion,
    hostMetadata,
    lastSeenAt, createdAt, updatedAt⟩ := old
  subst hid
  simp only [RemoteStore.updatedRow, policyRecord, RemoteAgentRecord.mk.injEq, Prod.mk.injEq,
    true_and, and_true]

/-! ### Steps and runs -/

/-- **One step.** -/
theorem frameKept_iff (s : RemoteControlPlane) (e : Step) :
    FrameKept d s e ↔ OnStoredColumns d s e := by
  constructor
  · intro h agent policy hupdate old hold
    obtain ⟨row, hrow, hstored⟩ := getAgent_of_updatesPolicy hupdate hold
    obtain ⟨⟨new, hnew, hchanges⟩, -⟩ := h agent policy hupdate old hold
    rw [hstored, if_pos rfl] at hnew
    obtain rfl := Option.some.inj hnew
    obtain ⟨hid, hisRow⟩ := RemoteStore.getAgent_rows hold
    exact (onlyPolicyChanges_iff hrow hisRow hid).mp hchanges
  · intro h agent policy hupdate old hold
    obtain ⟨row, hrow, hstored⟩ := getAgent_of_updatesPolicy hupdate hold
    obtain ⟨hid, hisRow⟩ := RemoteStore.getAgent_rows hold
    refine ⟨⟨_, by rw [hstored, if_pos rfl], ?_⟩, fun a ha => by rw [hstored, if_neg ha]⟩
    exact (onlyPolicyChanges_iff hrow hisRow hid).mpr (h agent policy hupdate old hold)

variable (d)

/-- **When no policy update loses what was written in between.** In every run, from every state, all
policy updates keep the frame exactly when each is made of a record that is up to date. -/
theorem policy_update_frame_iff (s : RemoteControlPlane) (es : List Step) :
    Run.AllSteps (step d) (FrameKept d) s es ↔ Run.AllSteps (step d) (OnStoredColumns d) s es :=
  ⟨Run.AllSteps.mono fun s e => (frameKept_iff s e).mp,
    Run.AllSteps.mono fun s e => (frameKept_iff s e).mpr⟩

/-- The step that brings an empty patch to the PATCH request that waits. -/
def emptyPatchArrives : Step :=
  ⟨.patchBody 0 (some (.obj [("policy", .obj [])])), sampleMoment 3⟩

/-- The sample agent's record is written with the policy of an empty patch, if its row is there. -/
theorem updatesPolicy_emptyPatch {s : RemoteControlPlane}
    (hpatch : s.patches.get? 0 = some (sampleOwner, sampleAgent))
    (hstores : (s.store.updateAgent samplePlatform (policyRecord sampleDeployment (sampleMoment 3)
      sampleAgent ((updatedPolicy sampleDeployment sampleAgent (.obj [])).getD
        []))).toOption.isSome =
        true) :
    ∃ policy, UpdatesPolicy sampleDeployment s emptyPatchArrives sampleAgent policy := by
  have hpolicy : (updatedPolicy sampleDeployment sampleAgent (.obj [])).isSome = true := by
    decide +kernel
  obtain ⟨policy, hpolicy⟩ := Option.isSome_iff_exists.mp hpolicy
  refine ⟨policy, sampleOwner, .obj [], ?_, hpolicy, rfl, ?_⟩
  · unfold updateRequest emptyPatchArrives
    dsimp only
    rw [hpatch]
    rfl
  · rw [hpolicy, Option.getD_some] at hstores
    change ∃ store, s.store.updateAgent samplePlatform
      (policyRecord sampleDeployment (sampleMoment 3) sampleAgent policy) = .ok store
    cases hstore : s.store.updateAgent samplePlatform
        (policyRecord sampleDeployment (sampleMoment 3) sampleAgent policy) with
    | ok store => exact ⟨store, rfl⟩
    | error e =>
      rw [hstore] at hstores
      cases hstores

/-- **A status written in between is lost**: the revocation of an agent whose PATCH request waits
for its body. -/
theorem status_written_in_between_lost :
    ¬Run.AllSteps (step sampleDeployment) (FrameKept sampleDeployment) (start sampleStore)
      (revokedWhileWaiting ++ [emptyPatchArrives]) := by
  intro h
  have hlast := (Run.allSteps_append.mp h).2.1
  rw [frameKept_iff] at hlast
  obtain ⟨policy, hupdate⟩ := updatesPolicy_emptyPatch
    (s := Run.run (step sampleDeployment) (start sampleStore) revokedWhileWaiting) rfl
    (by decide +kernel)
  have hrow : ((Run.run (step sampleDeployment) (start sampleStore)
      revokedWhileWaiting).store.getAgent "agt_1").map (·.status) = some .revoked := by
    decide +kernel
  obtain ⟨old, hold, hstatus⟩ := Option.map_eq_some_iff.mp hrow
  have hcolumns := hlast sampleAgent policy hupdate old hold
  have hsame : sampleAgent.status = old.status := congrArg (·.2.1) hcolumns
  rw [hstatus] at hsame
  exact absurd hsame (by decide)

end RemoteControlPlane
end Remote
