import McpSshTool.Remote.System

/-!
# Policy agreement

Under which policy the agent executes an action. The agent takes an action whose policy version is
its own or one ahead of its own, so it may run an action under the policy before the one it was
dispatched under. Where the versions are equal, the policies are: as long as no update is computed
from a record that was replaced in the meantime, a version of the agent's policy is given out once.

* `Agrees` — what holds of every execution;
* `Recorded` — the invariant: a record of the policy under each version, from which everything in
  flight and the installed policy were taken;
* `policy_agreement` — every execution of every run agrees.
-/

open Library

namespace Remote
namespace System

variable (d : Deployment)

/-! ### Agreement -/

/-- **An execution agrees with its dispatch**: the action carries the version stored at dispatch,
the agent is at that version or one behind, and where it is at that version its policy is the stored
one. -/
def Agrees (x : SystemExecution) : Prop :=
  ∃ v, x.stored = some v ∧ v.policyVersion = x.execution.action.policy_version ∧
    (x.execution.action.policy_version = x.execution.policy.version ∨
      x.execution.action.policy_version = x.execution.policy.version + 1) ∧
    (x.execution.policy.version = x.execution.action.policy_version →
      agentPolicySchema v.policy = some x.execution.policy)

/-- The policy of a control plane's agent was handed to the agent: nothing is in flight, and nothing
has been executed. -/
structure Enrolled (S : System) : Prop where
  stored : ∃ v, S.plane.view S.agentId = some v ∧
    agentPolicySchema v.policy = some S.agent.config.policy ∧
      S.agent.config.policy.version = v.policyVersion
  channel : S.channel = []
  executions : S.executions = []

/-- An update of the agent's policy is computed from a record of the version that is stored. -/
def WritesFresh (S : System) : SystemEvent → Prop
  | .plane e => ∀ principal agent value,
      S.plane.updateRequest e = some (principal, agent, value) → agent.id = S.agentId →
        (S.plane.view agent.id).map (·.policyVersion) = some agent.policyVersion
  | _ => True

theorem writesFresh_of_ne {S : System} {e : Step}
    (h : ∀ request body, e.event ≠ .patchBody request (some body)) : S.WritesFresh (.plane e) := by
  intro principal agent value hrequest _
  cases RemoteControlPlane.recordSource_of_updateRequest hrequest with
  | current hagent =>
    rw [RemoteControlPlane.view_of_getAgent hagent]
    rfl
  | waiting request body hevent => exact absurd hevent (h request body)

/-! ### The record of policies -/

/-- **The invariant.** `H` records the policy that was stored under each version; the control plane
is at its last entry, and what is in flight or installed was taken from it. -/
structure Recorded (S : System) (H : ℕ → Option Value) : Prop where
  versioned : ∀ n policy, H n = some policy → policy.member "version" = .int n
  stored : ∃ v, S.plane.view S.agentId = some v ∧ H v.policyVersion = some v.policy ∧
    ∀ n, v.policyVersion < n → H n = none
  updates : ∀ x ∈ S.channel, ∀ e, x.message = .policyUpdate e → e.agent_id = S.agentId →
    H e.policy_version = some e.policy.transport
  requests : ∀ x ∈ S.channel, ∀ e, x.message = .actionRequest e → e.agent_id = S.agentId →
    ∃ v, x.stored = some v ∧ v.policyVersion = e.policy_version ∧ H v.policyVersion = some v.policy
  installed : ∃ policy, H S.agent.config.policy.version = some policy ∧
    agentPolicySchema policy = some S.agent.config.policy
  executed : ∀ x ∈ S.executions, Agrees x

theorem version_of_agentPolicySchema {v : Value} {policy : AgentPolicy} {n : ℕ}
    (h : agentPolicySchema v = some policy) (hn : v.member "version" = .int n) :
    policy.version = n := by
  obtain ⟨fs, -, -, -, -, -, -, -, -, -, -, hversion⟩ := agentPolicySchema_eq_some h
  have hint : Value.int n = .int policy.version := hn.symm.trans hversion
  have hcast : n = policy.version := by simpa [Value.int, JsNumber.ofInt] using hint
  exact hcast.symm

theorem member_version_updatedPolicy {agent : RemoteAgentRecord} {value : Value} {policy : Fields}
    (h : RemoteControlPlane.updatedPolicy d agent value = some policy) :
    (Value.obj policy).transport.member "version" = .int (agent.policyVersion + 1 : ℕ) := by
  unfold RemoteControlPlane.updatedPolicy at h
  simp only [Option.bind_eq_bind, Option.bind_eq_some_iff] at h
  obtain ⟨timeout, -, bytes, -, hpolicy⟩ := h
  obtain rfl := Option.some.inj hpolicy
  rw [Value.member_transport_of_nodup (Value.nodup_spread (nodup_mergeCustomPolicy _) _)]
  have hversion : (Value.obj (clampedPolicy d agent (patchOf value) timeout bytes)).member
      "version" = .int (agent.policyVersion + 1 : ℕ) :=
    member_clampedPolicy_of_clamped rfl
  exact congrArg Value.transport hversion

/-- A system that has just enrolled its agent. -/
theorem recorded_of_enrolled {S : System} (h : S.Enrolled) : ∃ H, S.Recorded H := by
  obtain ⟨v, hview, hpolicy, hversion⟩ := h.stored
  obtain ⟨fs, -, -, -, -, -, -, -, -, -, -, hmember⟩ := agentPolicySchema_eq_some hpolicy
  refine ⟨fun n => if n = v.policyVersion then some v.policy else none, ?_, ?_, ?_, ?_, ?_, ?_⟩
  · intro n policy hn
    split at hn
    · next heq =>
      obtain rfl := Option.some.inj hn
      rw [hmember, hversion, heq]
    · exact absurd hn (by simp)
  · exact ⟨v, hview, if_pos rfl, fun n hn => if_neg (by omega)⟩
  · rw [h.channel]
    exact fun x hx => absurd hx List.not_mem_nil
  · rw [h.channel]
    exact fun x hx => absurd hx List.not_mem_nil
  · exact ⟨v.policy, if_pos hversion, hpolicy⟩
  · rw [h.executions]
    exact fun x hx => absurd hx List.not_mem_nil

/-! ### A step of the control plane -/

section Plane

variable {d} {S : System} {H : ℕ → Option Value} {e : Step}

/-- **A step that keeps the agent's policy** and its version, and writes nothing for the agent but
actions of that version. -/
structure KeepsPolicy (d : Deployment) (S : System) (e : Step)
    (v : RemoteControlPlane.AgentView) : Prop where
  view : ∃ v', (S.plane.step d e).view S.agentId = some v' ∧ v'.policy = v.policy ∧
    v'.policyVersion = v.policyVersion
  commands : ∃ added, (S.plane.step d e).commands = S.plane.commands ++ added ∧
    (∀ m ∈ added, ∀ u, m.2 = .policyUpdate u → u.agent_id ≠ S.agentId) ∧
    ∀ m ∈ added, ∀ a, m.2 = .actionRequest a → a.agent_id = S.agentId →
      a.policy_version = v.policyVersion

/-- **A step that stores a policy of the agent**, and writes the update or nothing. -/
structure StoresPolicy (d : Deployment) (S : System) (e : Step) (v : RemoteControlPlane.AgentView)
    (principal : RemotePrincipal) (agent : RemoteAgentRecord) (value : Value) (policy : Fields) :
    Prop where
  own : agent.id = S.agentId
  request : S.plane.updateRequest e = some (principal, agent, value)
  updated : RemoteControlPlane.updatedPolicy d agent value = some policy
  stores : RemoteControlPlane.Stores d e.moment S.plane principal agent policy
  commands : (S.plane.step d e).commands = S.plane.commands ++
    RemoteControlPlane.policyCommands d e.moment S.plane
      (RemoteControlPlane.policyRecord d e.moment agent policy)
  view : (S.plane.step d e).view S.agentId = some
    { userId := v.userId
      revoked := agent.status = .revoked
      policy := (Value.obj policy).transport
      policyVersion := agent.policyVersion + 1 }

/-- **What a step of the control plane does to the agent's policy.** -/
theorem plane_cases {v : RemoteControlPlane.AgentView} (hv : S.plane.view S.agentId = some v) :
    KeepsPolicy d S e v ∨
      ∃ principal agent value policy, StoresPolicy d S e v principal agent value policy := by
  have hkept : ∀ v', (S.plane.step d e).view S.agentId = some v' → v'.policy = v.policy →
      v'.policyVersion = v.policyVersion → (S.plane.step d e).commands = S.plane.commands →
        KeepsPolicy d S e v := by
    intro v' hv' hpolicy hversion hcommands
    exact ⟨⟨v', hv', hpolicy, hversion⟩, [], hcommands.trans (List.append_nil _).symm,
      fun m hm => absurd hm List.not_mem_nil, fun m hm => absurd hm List.not_mem_nil⟩
  cases RemoteControlPlane.step_cases d S.plane e with
  | quiet h =>
    exact .inl (hkept v ((RemoteControlPlane.view_eq_of_ledger h S.agentId).trans hv) rfl rfl
      (RemoteControlPlane.commands_eq_of_ledger h))
  | created agent profile _ hfree hview hcommands =>
    -- the id of a new agent is free
    have hne : S.agentId ≠ agent.id := by
      intro heq
      rw [← heq, hv] at hfree
      exact absurd hfree (by simp)
    exact .inl (hkept v (by rw [hview, if_neg hne, hv]) rfl rfl hcommands)
  | policyStored principal agent value policy hrequest hpolicy hstores h =>
    by_cases ha : agent.id = S.agentId
    · refine .inr ⟨principal, agent, value, policy, ha, hrequest, hpolicy, hstores, h.commands, ?_⟩
      rw [h.view, if_pos ha.symm, hv, Option.map_some]
    · -- what is written, if anything, is the update of another agent
      refine .inl ⟨⟨v, ?_, rfl, rfl⟩, _, h.commands, ?_, ?_⟩
      · rw [h.view, if_neg (fun heq => ha heq.symm), hv]
      · intro m hm u hu
        obtain rfl := ServerMessage.policyUpdate.inj
          (hu.symm.trans (RemoteControlPlane.mem_policyCommands d hm))
        exact ha
      · intro m hm a hreq
        cases hreq.symm.trans (RemoteControlPlane.mem_policyCommands d hm)
  | revoked agent hagent hview hcommands =>
    by_cases ha : S.agentId = agent.id
    · -- the row that is revoked is the stored one, and keeps its policy
      have hstored := RemoteControlPlane.view_of_getAgent hagent
      rw [← ha, hv] at hstored
      obtain rfl := Option.some.inj hstored
      exact .inl (hkept { RemoteControlPlane.viewOf agent with revoked := true }
        (by rw [hview, if_pos ha]) rfl rfl hcommands)
    · exact .inl (hkept v (by rw [hview, if_neg ha, hv]) rfl rfl hcommands)
  | dispatched principal agent tool args live deadline _ hagent _ _ _ hview hcommands =>
    refine .inl ⟨⟨v, (congrFun hview _).trans hv, rfl, rfl⟩, _, hcommands, ?_, ?_⟩
    · intro m hm u hu
      rw [RemoteControlPlane.mem_sentCommand hm] at hu
      cases hu
    · intro m hm a hreq hid
      rw [RemoteControlPlane.mem_sentCommand hm] at hreq
      obtain rfl := ServerMessage.actionRequest.inj hreq
      -- the action carries the version of the stored row
      have hrow := RemoteControlPlane.view_of_getAgent hagent
      rw [show agent.id = S.agentId from hid, hv] at hrow
      rw [Option.some.inj hrow]
      rfl

/-- **A step of the control plane keeps a record**, possibly with a new entry, if what it stores and
what it writes are recorded. -/
theorem recorded_plane {H' : ℕ → Option Value} (hS : S.Recorded H)
    (hmono : ∀ n policy, H n = some policy → H' n = some policy)
    (hversioned : ∀ n policy, H' n = some policy → policy.member "version" = .int n)
    (hstored : ∃ v, (S.plane.step d e).view S.agentId = some v ∧ H' v.policyVersion =
      some v.policy ∧
      ∀ n, v.policyVersion < n → H' n = none)
    (hupdates : ∀ x ∈ S.written (S.plane.step d e), ∀ u, x.message = .policyUpdate u →
      u.agent_id = S.agentId → H' u.policy_version = some u.policy.transport)
    (hrequests : ∀ x ∈ S.written (S.plane.step d e), ∀ a, x.message = .actionRequest a →
      a.agent_id = S.agentId → ∃ v, x.stored = some v ∧ v.policyVersion = a.policy_version ∧
        H' v.policyVersion = some v.policy) :
    (S.step d (.plane e)).Recorded H' where
  versioned := hversioned
  stored := hstored
  updates x hx u hu hagent := by
    rcases List.mem_append.mp hx with hx | hx
    · exact hmono _ _ (hS.updates x hx u hu hagent)
    · exact hupdates x hx u hu hagent
  requests x hx a ha hagent := by
    rcases List.mem_append.mp hx with hx | hx
    · obtain ⟨v, hv, hversion, hpolicy⟩ := hS.requests x hx a ha hagent
      exact ⟨v, hv, hversion, hmono _ _ hpolicy⟩
    · exact hrequests x hx a ha hagent
  installed := by
    obtain ⟨policy, hH, hpolicy⟩ := hS.installed
    exact ⟨policy, hmono _ _ hH, hpolicy⟩
  executed := hS.executed

theorem recorded_of_keeps (hS : S.Recorded H) {v : RemoteControlPlane.AgentView}
    (hv : S.plane.view S.agentId = some v) (h : KeepsPolicy d S e v) :
    (S.step d (.plane e)).Recorded H := by
  obtain ⟨v', hv', hpolicy, hversion⟩ := h.view
  obtain ⟨added, hcommands, hupdates, hrequests⟩ := h.commands
  obtain ⟨v₀, hv₀, hcurrent, hlast⟩ := hS.stored
  obtain rfl : v₀ = v := Option.some.inj (hv₀.symm.trans hv)
  have hcurrent' : H v'.policyVersion = some v'.policy := by
    rw [hpolicy, hversion]
    exact hcurrent
  refine recorded_plane hS (fun _ _ h => h) hS.versioned ⟨v', hv', hcurrent', ?_⟩ ?_ ?_
  · rw [hversion]
    exact hlast
  · intro x hx u hu hagent
    obtain ⟨c, -, hmem, -⟩ := mem_written d hx (by rw [hu]; rfl) hcommands
    exact absurd hagent (hupdates _ hmem u hu)
  · intro x hx a ha hagent
    obtain ⟨c, -, hmem, hstored⟩ := mem_written d hx (by rw [ha]; rfl) hcommands
    refine ⟨v', hstored.trans hv', ?_, hcurrent'⟩
    rw [hversion, hrequests _ hmem a ha hagent]

/-- An update of the agent's policy that is computed from the stored version gives out the next
one. -/
theorem recorded_of_stores (hS : S.Recorded H) {v : RemoteControlPlane.AgentView}
    (hv : S.plane.view S.agentId = some v) {principal : RemotePrincipal}
    {agent : RemoteAgentRecord} {value : Value} {policy : Fields}
    (h : StoresPolicy d S e v principal agent value policy) (hfresh : S.WritesFresh (.plane e)) :
    ∃ H', (S.step d (.plane e)).Recorded H' := by
  obtain ⟨v₀, hv₀, hcurrent, hlast⟩ := hS.stored
  obtain rfl : v₀ = v := Option.some.inj (hv₀.symm.trans hv)
  have hnext : v₀.policyVersion = agent.policyVersion := by
    have hversion := hfresh principal agent value h.request h.own
    rw [h.own, hv] at hversion
    exact Option.some.inj hversion
  -- a new entry after the last
  refine ⟨fun n => if n = agent.policyVersion + 1 then some (Value.obj policy).transport else H n,
    recorded_plane hS ?_ ?_ ⟨_, h.view, if_pos rfl, ?_⟩ ?_ ?_⟩
  · intro n old hold
    have hne : n ≠ agent.policyVersion + 1 := by
      rintro rfl
      rw [hlast _ (by omega)] at hold
      exact absurd hold (by simp)
    rw [if_neg hne, hold]
  · intro n new hnew
    split at hnew
    · next heq =>
      obtain rfl := Option.some.inj hnew
      rw [heq]
      exact member_version_updatedPolicy d h.updated
    · exact hS.versioned n new hnew
  · intro n hn
    have hn : agent.policyVersion + 1 < n := hn
    rw [if_neg (Nat.ne_of_gt hn)]
    exact hlast n (by omega)
  · intro x hx u hu _
    obtain ⟨c, -, hmem, -⟩ := mem_written d hx (by rw [hu]; rfl) h.commands
    obtain rfl := ServerMessage.policyUpdate.inj
      (hu.symm.trans (RemoteControlPlane.mem_policyCommands d hmem))
    exact if_pos rfl
  · intro x hx a hreq _
    obtain ⟨c, -, hmem, -⟩ := mem_written d hx (by rw [hreq]; rfl) h.commands
    cases hreq.symm.trans (RemoteControlPlane.mem_policyCommands d hmem)

/-- **One step of the control plane.** -/
theorem recorded_step_plane (hS : S.Recorded H) (hfresh : S.WritesFresh (.plane e)) :
    ∃ H', (S.step d (.plane e)).Recorded H' := by
  obtain ⟨v, hv, -⟩ := id hS.stored
  rcases plane_cases hv with hkeeps | ⟨principal, agent, value, policy, hstores⟩
  · exact ⟨H, recorded_of_keeps hS hv hkeeps⟩
  · exact recorded_of_stores hS hv hstores hfresh

end Plane

/-! ### A message at the agent -/

section Deliver

variable {d} {S : System} {H : ℕ → Option Value}

/-- **One message at the agent.** -/
theorem recorded_deliver (hS : S.Recorded H) (now later : ℤ) :
    (S.deliver d now later).Recorded H := by
  unfold deliver
  split
  · exact hS
  · next x rest hchannel =>
    have hx : x ∈ S.channel := by
      rw [hchannel]
      exact List.mem_cons_self
    have hrest : ∀ y ∈ rest, y ∈ S.channel := by
      intro y hy
      rw [hchannel]
      exact List.mem_cons_of_mem x hy
    have hid : (S.agent.onmessage d.platform (arrival x now later)).config.agentId = S.agentId := by
      rw [AgentProcess.onmessage_identity]
      rfl
    -- what is in flight stays recorded; the installed policy and the executions are the agent's
    -- doing
    have hkeep : ∀ agent : AgentProcess, agent.config.agentId = S.agentId →
        ∀ new : List SystemExecution, (∃ policy, H agent.config.policy.version = some policy ∧
          agentPolicySchema policy = some agent.config.policy) → (∀ y ∈ new, Agrees y) →
        Recorded { S with agent := agent, channel := rest, executions := S.executions ++ new }
          H := by
      intro agent hagent new hinstalled hnew
      refine ⟨hS.versioned, ?_, ?_, ?_, hinstalled, ?_⟩
      · show ∃ v, S.plane.view agent.config.agentId = some v ∧ _
        rw [hagent]
        exact hS.stored
      · intro y hy u hu hagent'
        exact hS.updates y (hrest y hy) u hu (hagent'.trans hagent)
      · intro y hy a ha hagent'
        exact hS.requests y (hrest y hy) a ha (hagent'.trans hagent)
      · intro y hy
        rcases List.mem_append.mp hy with hy | hy
        · exact hS.executed y hy
        · exact hnew y hy
    rcases AgentProcess.onmessage_cases d.platform S.agent (arrival x now later) with
      ⟨update, ⟨hread, hagent, -⟩, hstep⟩ | ⟨action, h, hstep⟩ | ⟨-, -, hstep⟩
    · -- an update from the channel is recorded under the version it installs
      obtain ⟨u, hu, hagentId, hschema⟩ := updateOf_transport hread
      have hrecorded := hS.updates x hx u hu (hagentId.symm.trans hagent)
      have hversion := version_of_agentPolicySchema hschema (hS.versioned _ _ hrecorded)
      refine hkeep _ hid _ ?_ ?_
      · rw [hstep]
        refine ⟨u.policy.transport, ?_, hschema⟩
        show H update.policy.version = _
        rw [hversion, hrecorded]
      · intro y hy
        rw [hstep] at hy
        have hnone : (S.agent.install update.policy).executed.drop S.agent.executed.length = [] :=
          List.drop_length
        rw [hnone] at hy
        exact absurd hy List.not_mem_nil
    · -- an action from the channel carries the version that was stored when it was written
      obtain ⟨a, ha, -, hagentId, hversion⟩ := requestOf_transport h.request
      obtain ⟨v, hv, hstored, hcurrent⟩ :=
        hS.requests x hx a ha (hagentId.symm.trans h.genuine.1)
      refine hkeep _ hid _ ?_ ?_
      · rw [hstep]
        exact hS.installed
      · intro y hy
        rw [hstep] at hy
        have hone : (S.agent.perform d.platform later action).executed.drop
            S.agent.executed.length = [⟨action, S.agent.config.policy⟩] :=
          List.drop_left
        rw [show (arrival x now later).later = later from rfl, hone] at hy
        rw [List.mem_singleton.mp hy]
        refine ⟨v, hv, hstored.trans hversion.symm, h.version, fun hsame => ?_⟩
        obtain ⟨policy, hinstalled, hschema⟩ := hS.installed
        have hsame : S.agent.config.policy.version = action.policy_version := hsame
        rw [hsame, hversion, ← hstored, hcurrent] at hinstalled
        rw [Option.some.inj hinstalled]
        exact hschema
    · refine hkeep _ hid _ ?_ ?_
      · rw [hstep]
        exact hS.installed
      · intro y hy
        rw [hstep, List.drop_length] at hy
        exact absurd hy List.not_mem_nil

end Deliver

/-! ### Every run -/

variable {d}

/-- **One step of the system.** -/
theorem recorded_step {S : System} {H : ℕ → Option Value} (hS : S.Recorded H) {e : SystemEvent}
    (hfresh : S.WritesFresh e) : ∃ H', (S.step d e).Recorded H' := by
  cases e with
  | plane => exact recorded_step_plane hS hfresh
  | deliver now later => exact ⟨H, recorded_deliver hS now later⟩
  | connect c =>
    refine ⟨H, hS.versioned, ?_, ?_, ?_, hS.installed, hS.executed⟩
    · have hview := RemoteControlPlane.view_eq_of_ledger
        (RemoteControlPlane.ledger_connect S.plane c) S.agentId
      show ∃ v, (S.plane.connect c).view S.agentId = some v ∧ _
      rw [hview]
      exact hS.stored
    · exact fun x hx => absurd hx List.not_mem_nil
    · exact fun x hx => absurd hx List.not_mem_nil
  | disconnect =>
    refine ⟨H, hS.versioned, hS.stored, ?_, ?_, hS.installed, hS.executed⟩
    · exact fun x hx => absurd hx List.not_mem_nil
    · exact fun x hx => absurd hx List.not_mem_nil

variable (d)

/-- **Policy agreement.** In every run of a control plane and an agent that start with the same
policy, in which no update of the agent's policy is computed from a replaced record, every execution
agrees with its dispatch. -/
theorem policy_agreement (S : System) (es : List SystemEvent) (hS : S.Enrolled)
    (hfresh : Run.AllSteps (step d) WritesFresh S es) :
    Run.Along (step d) (fun S => ∀ x ∈ S.executions, Agrees x) S es := by
  have hrecorded : Run.Along (step d) (fun S => ∃ H, S.Recorded H) S es :=
    Run.along_of_preserved (fun S e hS he => hS.elim fun H hH => recorded_step hH he)
      (recorded_of_enrolled hS) hfresh
  exact hrecorded.mono fun S hS => hS.elim fun H hH => hH.executed

/-! ### One version behind -/

/-- The policy is updated while the agent is away; the agent connects, says hello, and gets an
action that was dispatched under the new policy. -/
def actsBehind : List SystemEvent :=
  [ownerUpdates 1, .connect 0, helloArrives 0 2, ownerAsks 3, .deliver 4 4, .deliver 5 5]

theorem enrolled_sampleSystem : sampleSystem.Enrolled where
  stored := by
    refine ⟨RemoteControlPlane.viewOf sampleAgent, rfl, ?_, rfl⟩
    have hrange : (profilePolicy .operations).InRange :=
      ⟨⟨by decide, by decide⟩, ⟨by decide, by decide⟩, ⟨by decide, by decide⟩⟩
    show agentPolicySchema (.obj (createAgentPolicy (.str AgentProfileName.operations.text))) = _
    rw [createAgentPolicy_eq_toFields]
    exact agentPolicySchema_toFields hrange
  channel := rfl
  executions := rfl

/-- Policy agreement of that run. -/
theorem policy_agreement_actsBehind :
    Run.Along (step sampleDeployment) (fun S => ∀ x ∈ S.executions, Agrees x) sampleSystem
      actsBehind := by
  refine policy_agreement sampleDeployment sampleSystem actsBehind enrolled_sampleSystem ?_
  exact ⟨writesFresh_of_ne (by simp), trivial, writesFresh_of_ne (by simp),
    writesFresh_of_ne (by simp), trivial, trivial, trivial⟩

/-- **An execution under the policy before**: the agent is at version 1, the action at version 2. -/
theorem acts_one_version_behind :
    (Run.run (step sampleDeployment) sampleSystem actsBehind).executions.map (fun x =>
        (x.execution.action.policy_version, x.execution.policy.version,
          x.stored.map (·.policyVersion))) = [(2, 1, some 2)] := by
  decide +kernel

end System
end Remote
