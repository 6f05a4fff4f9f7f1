import McpSshTool.Remote.ControlPlane.Messages
import McpSshTool.Remote.PolicyAgreement

/-!
# What a policy version says

Whether the version of an agent's policy identifies the policy, over a whole run of the control
plane. A policy update gives out the version after that of the record it was computed from; that is
a new version as long as the record has the version that is stored.

* `Shows` — a state shows a policy under an agent and a version: stored, pushed, or in an
  `agent.ready`;
* `VersionsIdentify` — versions increase with every update, and no two policies share one;
* `OnStoredVersion` — the condition on a step;
* `Versioned` — the invariant: a history of the policies given out, of which the states show parts.
-/

open Library

namespace Remote
namespace RemoteControlPlane

variable (d : Deployment)

/-! ### The property -/

/-- **A state shows a policy** under an agent id and a version. The policies are those that are read
back from JSON. -/
inductive Shows (s : RemoteControlPlane) (a : String) (n : ℕ) (policy : Value) : Prop where
  | stored (v : AgentView) (h : s.view a = some v) (hversion : v.policyVersion = n)
      (hpolicy : v.policy = policy)
  | pushed (c : ConnectionId) (envelope : PolicyUpdateEnvelope Value)
      (h : (c, .policyUpdate envelope) ∈ s.sent) (hagent : envelope.agent_id = a)
      (hversion : envelope.policy_version = n) (hpolicy : envelope.policy.transport = policy)
  | ready (c : ConnectionId) (sent : Value) (h : (c, .agentReady a sent) ∈ s.sent)
      (hversion : sent.member "version" = .int n) (hpolicy : sent.transport = policy)

/-- **The step is a policy update** of an agent: it has a record of the agent and writes a
policy. -/
def UpdatesPolicy (s : RemoteControlPlane) (e : Step) (agent : RemoteAgentRecord)
    (policy : Fields) : Prop :=
  ∃ principal value, s.updateRequest e = some (principal, agent, value) ∧
    updatedPolicy d agent value = some policy ∧ Stores d e.moment s principal agent policy

/-- **Versions identify policies** in the run from `s`: every update increases the stored version of
its agent, and whatever the states of the run show under one agent and one version is one policy. -/
structure VersionsIdentify (s : RemoteControlPlane) (es : List Step) : Prop where
  increase : ∀ es' e, es' ++ [e] <+: es → ∀ agent policy,
    UpdatesPolicy d (Run.run (step d) s es') e agent policy →
      ∃ v v', (Run.run (step d) s es').view agent.id = some v ∧
        (Run.run (step d) s (es' ++ [e])).view agent.id = some v' ∧
          v.policyVersion < v'.policyVersion
  identify : ∀ es₁ es₂, es₁ <+: es → es₂ <+: es → ∀ a n policy₁ policy₂,
    Shows (Run.run (step d) s es₁) a n policy₁ → Shows (Run.run (step d) s es₂) a n policy₂ →
      policy₁ = policy₂

/-- **A policy update is computed from the stored version**: its record, which a PATCH request has
read before it waited for its body, has the version that is stored when the update is written. -/
def OnStoredVersion (s : RemoteControlPlane) (e : Step) : Prop :=
  ∀ agent policy, UpdatesPolicy d s e agent policy →
    (s.view agent.id).map (·.policyVersion) = some agent.policyVersion

/-- The policies of a store say the versions they are stored under. -/
def Coherent (store : RemoteStore) : Prop :=
  ∀ a agent, store.getAgent a = some agent → agent.policy.member "version" =
    .int agent.policyVersion

/-! ### What an update does -/

variable {d}

/-- **An update stores its policy** under the version after that of its record. -/
theorem view_of_updatesPolicy {s : RemoteControlPlane} {e : Step} {agent : RemoteAgentRecord}
    {policy : Fields} (h : UpdatesPolicy d s e agent policy) {v : AgentView}
    (hv : s.view agent.id = some v) :
    ∃ v', (s.step d e).view agent.id = some v' ∧ v'.policyVersion = agent.policyVersion + 1 := by
  obtain ⟨principal, value, hrequest, hpolicy, hstores⟩ := h
  obtain ⟨patches, hstep⟩ := step_of_updateRequest (d := d) hrequest
  have hv₀ : ({ s with patches := patches } : RemoteControlPlane).view agent.id = some v := hv
  rcases updateAgentPolicy_cases d e.moment principal agent value { s with patches := patches } with
    ⟨policy', -, -, -, hstored⟩ | ⟨hnone, -⟩
  · rw [hstep, hstored.view, if_pos rfl, hv₀]
    exact ⟨_, rfl, rfl⟩
  · exact absurd hstores (hnone policy hpolicy)

/-! ### The history -/

/-- **The invariant.** `H` is the history of the policies given out, by agent and version; the
stored version of an agent is its last, and what was sent is in the history. -/
structure Versioned (s : RemoteControlPlane) (H : String → ℕ → Option Value) : Prop where
  versions : ∀ a n policy, H a n = some policy → policy.member "version" = .int n
  stored : ∀ a v, s.view a = some v →
    H a v.policyVersion = some v.policy ∧ ∀ n, v.policyVersion < n → H a n = none
  absent : ∀ a, s.view a = none → ∀ n, H a n = none
  pushed : ∀ c u, (c, .policyUpdate u) ∈ s.sent →
    H u.agent_id u.policy_version = some u.policy.transport
  ready : ∀ c a policy, (c, .agentReady a policy) ∈ s.sent →
    ∃ n, policy.member "version" = .int n ∧ H a n = some policy.transport

/-- The later history has what the earlier has. -/
def Extends (H H' : String → ℕ → Option Value) : Prop :=
  ∀ a n policy, H a n = some policy → H' a n = some policy

theorem int_injective {n n' : ℕ} (h : Value.int n = Value.int n') : n = n' := by
  simpa [Value.int, JsNumber.ofInt] using h

/-- What a state shows is in its history. -/
theorem Versioned.of_shows {s : RemoteControlPlane} {H : String → ℕ → Option Value}
    (hs : s.Versioned H) {a : String} {n : ℕ} {policy : Value} (h : s.Shows a n policy) :
    H a n = some policy := by
  cases h with
  | stored v h hversion hpolicy =>
    rw [← hversion, ← hpolicy]
    exact (hs.stored a v h).1
  | pushed c envelope h hagent hversion hpolicy =>
    rw [← hagent, ← hversion, ← hpolicy]
    exact hs.pushed c envelope h
  | ready c sent h hversion hpolicy =>
    obtain ⟨n', hversion', hH⟩ := hs.ready c a sent h
    rw [int_injective (hversion.symm.trans hversion'), ← hpolicy]
    exact hH

/-- A process that has just started on a coherent store. -/
theorem exists_versioned_start {store : RemoteStore} (h : Coherent store) :
    ∃ H, (start store).Versioned H := by
  refine ⟨fun a n => ((store.getAgent a).filter fun agent => agent.policyVersion =
    n).map (·.policy),
    ?_, ?_, ?_, ?_, ?_⟩
  · intro a n policy hH
    obtain ⟨agent, hagent, rfl⟩ := Option.map_eq_some_iff.mp hH
    obtain ⟨hget, hversion⟩ := Option.filter_eq_some_iff.mp hagent
    rw [h a agent hget, of_decide_eq_true hversion]
  · intro a v hv
    obtain ⟨agent, hagent, rfl⟩ := Option.map_eq_some_iff.mp hv
    have hagent : store.getAgent a = some agent := hagent
    rw [hagent]
    refine ⟨by simp [viewOf], fun n hn => ?_⟩
    have hne : agent.policyVersion ≠ n := Nat.ne_of_lt hn
    simp [hne]
  · intro a hnone n
    have hnone : store.getAgent a = none := Option.map_eq_none_iff.mp hnone
    rw [hnone]
    rfl
  · exact fun c u hmem => absurd hmem List.not_mem_nil
  · exact fun c a policy hmem => absurd hmem List.not_mem_nil

/-! ### One step -/

section Step

variable {s : RemoteControlPlane} {e : Step} {H : String → ℕ → Option Value}

theorem mem_commands {s : RemoteControlPlane} {x : ConnectionId × ServerMessage}
    (h : isCommand x.2 = true) : x ∈ s.commands ↔ x ∈ s.sent := by
  unfold commands
  rw [List.mem_filter, and_iff_left h]

/-- **A step keeps a history**, possibly with a new entry, if what it stores and what it pushes are
in it. -/
theorem versioned_of_step {H' : String → ℕ → Option Value} (hs : s.Versioned H)
    (hextends : Extends H H')
    (hversions : ∀ a n policy, H' a n = some policy → policy.member "version" = .int n)
    (hstored : ∀ a v, (s.step d e).view a = some v →
      H' a v.policyVersion = some v.policy ∧ ∀ n, v.policyVersion < n → H' a n = none)
    (habsent : ∀ a, (s.step d e).view a = none → ∀ n, H' a n = none)
    {added : List (ConnectionId × ServerMessage)}
    (hcommands : (s.step d e).commands = s.commands ++ added)
    (hadded : ∀ x ∈ added, ∀ u, x.2 = .policyUpdate u →
      H' u.agent_id u.policy_version = some u.policy.transport) :
    (s.step d e).Versioned H' := by
  refine ⟨hversions, hstored, habsent, fun c u hmem => ?_, fun c a policy hmem => ?_⟩
  · rw [← mem_commands (x := (c, .policyUpdate u)) rfl, hcommands] at hmem
    rcases List.mem_append.mp hmem with hmem | hmem
    · exact hextends _ _ _ (hs.pushed c u ((mem_commands rfl).mp hmem))
    · exact hadded _ hmem u rfl
  · -- an `agent.ready` carries what was stored before the step
    obtain ⟨new, hnew, hready⟩ := sends_step d s e
    rw [hnew] at hmem
    rcases List.mem_append.mp hmem with hmem | hmem
    · obtain ⟨n, hn, hH⟩ := hs.ready c a policy hmem
      exact ⟨n, hn, hextends _ _ _ hH⟩
    · obtain ⟨agent, hagent, hpolicy⟩ := hready _ hmem
      have hH := (hs.stored a (viewOf agent) (view_of_getAgent hagent)).1
      have hread := (RemoteStore.getAgent_rows hagent).2.policy_read
      refine ⟨agent.policyVersion, ?_, ?_⟩
      · rw [← hpolicy]
        exact hs.versions _ _ _ hH
      · rw [← hpolicy, hread]
        exact hextends _ _ _ hH

/-- A step that keeps the policies stored and pushes none. -/
theorem versioned_of_views (hs : s.Versioned H)
    (hview : ∀ a, ((s.step d e).view a).map (fun v => (v.policyVersion, v.policy)) =
      (s.view a).map fun v => (v.policyVersion, v.policy))
    {added : List (ConnectionId × ServerMessage)}
    (hcommands : (s.step d e).commands = s.commands ++ added)
    (hadded : ∀ x ∈ added, ∀ u, x.2 ≠ .policyUpdate u) : (s.step d e).Versioned H := by
  refine versioned_of_step hs (fun _ _ _ h => h) hs.versions (fun a v hv => ?_) (fun a hnone => ?_)
    hcommands (fun x hx u hu => absurd hu (hadded x hx u))
  · have hsame := hview a
    rw [hv, Option.map_some] at hsame
    obtain ⟨v₀, hv₀, heq⟩ := Option.map_eq_some_iff.mp hsame.symm
    obtain ⟨hversion, hpolicy⟩ := Prod.mk.inj heq
    rw [← hversion, ← hpolicy]
    exact hs.stored a v₀ hv₀
  · have hsame := hview a
    rw [hnone] at hsame
    exact hs.absent a (Option.map_eq_none_iff.mp hsame.symm)

/-- The history with one more policy. -/
def extend (H : String → ℕ → Option Value) (a : String) (n : ℕ) (policy : Value) :
    String → ℕ → Option Value :=
  fun a' n' => if a' = a ∧ n' = n then some policy else H a' n'

theorem extends_extend {a : String} {n : ℕ} {policy : Value} (h : H a n = none) :
    Extends H (extend H a n policy) := by
  intro a' n' policy' hH
  unfold extend
  split
  · next heq =>
    rw [heq.1, heq.2, h] at hH
    cases hH
  · exact hH

/-- A step that gives out one policy, of a version after all that the agent has had. -/
theorem versioned_of_new (hs : s.Versioned H) (a₀ : String) (n₀ : ℕ) {policy : Value}
    (hlater : ∀ n, n₀ ≤ n → H a₀ n = none) (hmember : policy.member "version" = .int n₀)
    (hview : ∀ a, a ≠ a₀ → (s.step d e).view a = s.view a)
    (hnew : ∃ v, (s.step d e).view a₀ = some v ∧ v.policyVersion = n₀ ∧ v.policy = policy)
    {added : List (ConnectionId × ServerMessage)}
    (hcommands : (s.step d e).commands = s.commands ++ added)
    (hadded : ∀ x ∈ added, ∀ u, x.2 = .policyUpdate u →
      u.agent_id = a₀ ∧ u.policy_version = n₀ ∧ u.policy.transport = policy) :
    Extends H (extend H a₀ n₀ policy) ∧ (s.step d e).Versioned (extend H a₀ n₀ policy) := by
  have hextends : Extends H (extend H a₀ n₀ policy) := extends_extend (hlater n₀ (le_refl n₀))
  obtain ⟨v₀, hv₀, hn₀, hpolicy₀⟩ := hnew
  have hother : ∀ a, a ≠ a₀ → ∀ n, extend H a₀ n₀ policy a n = H a n :=
    fun a ha n => if_neg fun h => ha h.1
  refine ⟨hextends, versioned_of_step hs hextends ?_ (fun a v hv => ?_) (fun a hnone =>
    ?_) hcommands
    (fun x hx u hu => ?_)⟩
  · intro a n policy' hH
    unfold extend at hH
    split at hH
    · next heq =>
      rw [← Option.some.inj hH, heq.2]
      exact hmember
    · exact hs.versions a n policy' hH
  · by_cases ha : a = a₀
    · subst ha
      obtain rfl := Option.some.inj (hv₀.symm.trans hv)
      rw [hn₀, hpolicy₀]
      refine ⟨if_pos ⟨rfl, rfl⟩, fun n hn => ?_⟩
      unfold extend
      rw [if_neg fun h => absurd h.2 (Nat.ne_of_gt hn)]
      exact hlater n (Nat.le_of_lt hn)
    · rw [hview a ha] at hv
      simp only [hother a ha]
      exact hs.stored a v hv
  · have ha : a ≠ a₀ := by
      rintro rfl
      rw [hv₀] at hnone
      cases hnone
    rw [hview a ha] at hnone
    simp only [hother a ha]
    exact hs.absent a hnone
  · obtain ⟨hagent, hversion, hpolicy⟩ := hadded x hx u hu
    rw [hagent, hversion, hpolicy]
    exact if_pos ⟨rfl, rfl⟩

theorem member_version_createAgentPolicy (profile : AgentProfileName) :
    (Value.obj (createAgentPolicy (.str profile.text))).transport.member "version" = .int 1 := by
  cases profile <;> rfl

/-- **One step keeps a history**, if an update is computed from the stored version. -/
theorem versioned_step (hs : s.Versioned H) (he : OnStoredVersion d s e) :
    ∃ H', Extends H H' ∧ (s.step d e).Versioned H' := by
  have hsame : Extends H H := fun _ _ _ h => h
  cases step_cases d s e with
  | quiet h =>
    refine ⟨H, hsame, versioned_of_views hs (fun a => ?_)
      ((commands_eq_of_ledger h).trans (List.append_nil _).symm)
      fun x hx => absurd hx List.not_mem_nil⟩
    rw [view_eq_of_ledger h]
  | created agent profile _ hfree hview hcommands =>
    obtain ⟨hextends, hversioned⟩ := versioned_of_new hs (e := e) agent.id 1
      (fun n _ => hs.absent agent.id hfree n) (member_version_createAgentPolicy profile)
      (fun a ha => by rw [hview, if_neg ha]) ⟨_, by rw [hview, if_pos rfl], rfl, rfl⟩
      (hcommands.trans (List.append_nil _).symm) fun x hx => absurd hx List.not_mem_nil
    exact ⟨_, hextends, hversioned⟩
  | policyStored principal agent value policy hrequest hpolicy hstores h =>
    -- the record has the stored version, so the next one is new
    have hcurrent := he agent policy ⟨principal, value, hrequest, hpolicy, hstores⟩
    obtain ⟨v, hv, hversion⟩ := Option.map_eq_some_iff.mp hcurrent
    obtain ⟨hextends, hversioned⟩ := versioned_of_new hs (e := e) agent.id
      (agent.policyVersion + 1)
      (fun n hn => (hs.stored agent.id v hv).2 n (by omega))
      (System.member_version_updatedPolicy d hpolicy)
      (fun a ha => by rw [h.view, if_neg ha])
      ⟨_, by rw [h.view, if_pos rfl, hv, Option.map_some], rfl, rfl⟩ h.commands fun x hx u hu => by
        obtain rfl := ServerMessage.policyUpdate.inj (hu.symm.trans (mem_policyCommands d hx))
        exact ⟨rfl, rfl, rfl⟩
    exact ⟨_, hextends, hversioned⟩
  | revoked agent hagent hview hcommands =>
    refine ⟨H, hsame, versioned_of_views hs (fun a => ?_)
      (hcommands.trans (List.append_nil _).symm) fun x hx => absurd hx List.not_mem_nil⟩
    rw [hview]
    split
    · next ha =>
      rw [ha, view_of_getAgent hagent]
      rfl
    · rfl
  | dispatched principal agent tool args live deadline _ _ _ _ _ hview hcommands =>
    refine ⟨H, hsame, versioned_of_views hs (fun a => by rw [hview]) hcommands fun x hx u hu => ?_⟩
    rw [mem_sentCommand hx] at hu
    cases hu

end Step

/-! ### Every run -/

/-- One history holds what all states of a run show. -/
theorem exists_history (es : List Step) {s : RemoteControlPlane} {H : String → ℕ → Option Value}
    (hs : s.Versioned H) (hC : Run.AllSteps (step d) (OnStoredVersion d) s es) :
    ∃ H', Extends H H' ∧ ∀ es', es' <+: es → ∀ a n policy,
      Shows (Run.run (step d) s es') a n policy → H' a n = some policy := by
  induction es generalizing s H with
  | nil =>
    refine ⟨H, fun _ _ _ h => h, fun es' hes' a n policy h => ?_⟩
    rw [List.prefix_nil.mp hes'] at h
    exact hs.of_shows h
  | cons e es ih =>
    obtain ⟨H₁, hextends, hversioned⟩ := versioned_step hs hC.1
    obtain ⟨H₂, hextends', hshows⟩ := ih hversioned hC.2
    refine ⟨H₂, fun a n policy h => hextends' a n policy (hextends a n policy h), ?_⟩
    intro es' hes' a n policy h
    cases es' with
    | nil => exact hextends' a n policy (hextends a n policy (hs.of_shows h))
    | cons e' es' =>
      obtain ⟨rfl, hrest⟩ := List.cons_prefix_cons.mp hes'
      exact hshows es' hrest a n policy h

variable (d)

/-- **Versions identify policies** in every run from a coherent store in which every policy update
is computed from the stored version. -/
theorem versions_identify_policies (store : RemoteStore) (es : List Step) (hstore : Coherent store)
    (hC : Run.AllSteps (step d) (OnStoredVersion d) (start store) es) :
    VersionsIdentify d (start store) es := by
  obtain ⟨H, hH⟩ := exists_versioned_start hstore
  obtain ⟨H', -, hshows⟩ := exists_history es hH hC
  refine ⟨fun es' e hes' agent policy hupdate => ?_, ?_⟩
  · obtain ⟨rest, rfl⟩ := hes'
    have hstep := (Run.allSteps_append.mp hC).1
    have hlast := (Run.allSteps_append.mp hstep).2.1
    obtain ⟨v, hv, hversion⟩ := Option.map_eq_some_iff.mp (hlast agent policy hupdate)
    obtain ⟨v', hv', hversion'⟩ := view_of_updatesPolicy hupdate hv
    refine ⟨v, v', hv, ?_, by omega⟩
    rw [Run.run_append]
    exact hv'
  · intro es₁ es₂ h₁ h₂ a n policy₁ policy₂ hshows₁ hshows₂
    have heq := (hshows es₁ h₁ a n policy₁ hshows₁).symm.trans (hshows es₂ h₂ a n policy₂ hshows₂)
    exact Option.some.inj heq

/-! ### Coherent stores -/

theorem coherent_empty : Coherent RemoteStore.empty := by
  intro a agent hagent
  cases hagent

theorem coherent_iff_view {s : RemoteControlPlane} :
    Coherent s.store ↔
      ∀ a v, s.view a = some v → v.policy.member "version" = .int v.policyVersion := by
  constructor
  · intro h a v hv
    obtain ⟨agent, hagent, rfl⟩ := Option.map_eq_some_iff.mp hv
    exact h a agent hagent
  · exact fun h a agent hagent => h a (viewOf agent) (view_of_getAgent hagent)

/-- Every step keeps a store coherent, an update on a replaced version, too. -/
theorem coherent_step {s : RemoteControlPlane} (hs : Coherent s.store) (e : Step) :
    Coherent (s.step d e).store := by
  rw [coherent_iff_view] at hs ⊢
  intro a v hv
  cases step_cases d s e with
  | quiet h => exact hs a v ((view_eq_of_ledger h a).symm.trans hv)
  | created agent profile _ _ hview =>
    rw [hview] at hv
    split at hv
    · obtain rfl := Option.some.inj hv
      exact member_version_createAgentPolicy profile
    · exact hs a v hv
  | policyStored principal agent value policy _ hpolicy _ h =>
    rw [h.view] at hv
    split at hv
    · obtain ⟨old, -, rfl⟩ := Option.map_eq_some_iff.mp hv
      exact System.member_version_updatedPolicy d hpolicy
    · exact hs a v hv
  | revoked agent hagent hview =>
    rw [hview] at hv
    split at hv
    · obtain rfl := Option.some.inj hv
      exact hs agent.id (viewOf agent) (view_of_getAgent hagent)
    · exact hs a v hv
  | dispatched principal agent tool args live deadline _ _ _ _ _ hview =>
    rw [hview] at hv
    exact hs a v hv

theorem coherent_run (store : RemoteStore) (es : List Step) (h : Coherent store) :
    Coherent (Run.run (step d) (start store) es).store :=
  Run.run_of_preserved (P := fun s : RemoteControlPlane => Coherent s.store)
    (fun _ e hs (_ : True) => coherent_step d hs e) h
    (Run.allSteps_of_forall (fun _ _ => trivial) _ es)

/-! ### Two policies under one version -/

/-- Two PATCH requests read the agent before either has its body; then the bodies come. -/
def concurrentPatches : List Step :=
  [⟨.patchArrived 0 sampleOwner "agt_1", sampleMoment 1⟩,
    ⟨.patchArrived 1 sampleOwner "agt_1", sampleMoment 2⟩,
    ⟨.patchBody 0 (some (.obj [("policy", .obj [("profile", .str "read-only")])])), sampleMoment 3⟩,
    ⟨.patchBody 1 (some (.obj [("policy", .obj [("profile", .str "full-admin")])])),
      sampleMoment 4⟩]

/-- **Two policies are stored under version 2.** -/
theorem concurrent_patches_collide :
    ¬VersionsIdentify sampleDeployment (start sampleStore) concurrentPatches := by
  intro h
  have hfirst : ((Run.run (step sampleDeployment) (start sampleStore)
      (concurrentPatches.take 3)).view "agt_1").isSome = true := by decide +kernel
  have hsecond : ((Run.run (step sampleDeployment) (start sampleStore)
      concurrentPatches).view "agt_1").isSome = true := by decide +kernel
  obtain ⟨v₁, hv₁⟩ := Option.isSome_iff_exists.mp hfirst
  obtain ⟨v₂, hv₂⟩ := Option.isSome_iff_exists.mp hsecond
  have hread₁ : (some v₁).map (fun v => (v.policyVersion, (v.policy.member "profile").asString)) =
      some (2, some "read-only") := by
    rw [← hv₁]
    decide +kernel
  have hread₂ : (some v₂).map (fun v => (v.policyVersion, (v.policy.member "profile").asString)) =
      some (2, some "full-admin") := by
    rw [← hv₂]
    decide +kernel
  obtain ⟨hversion₁, hprofile₁⟩ := Prod.mk.inj (Option.some.inj hread₁)
  obtain ⟨hversion₂, hprofile₂⟩ := Prod.mk.inj (Option.some.inj hread₂)
  have hsame := h.identify (concurrentPatches.take 3) concurrentPatches (List.take_prefix 3 _)
    List.prefix_rfl "agt_1" 2 v₁.policy v₂.policy (.stored v₁ hv₁ hversion₁ rfl)
    (.stored v₂ hv₂ hversion₂ rfl)
  rw [hsame, hprofile₂] at hprofile₁
  exact absurd hprofile₁ (by decide)

/-- One PATCH request after the other keeps versions apart. -/
theorem versions_identify_policies_one_patch :
    VersionsIdentify sampleDeployment (start sampleStore)
      [⟨.patchArrived 0 sampleOwner "agt_1", sampleMoment 1⟩,
        ⟨.patchBody 0 (some (.obj [("policy", .obj [])])), sampleMoment 2⟩] := by
  refine versions_identify_policies sampleDeployment sampleStore _ ?_ ⟨?_, ?_, trivial⟩
  · intro a agent hagent
    change (OrderedMap.empty.set sampleAgent.id sampleAgent).get? a = some agent at hagent
    rw [OrderedMap.get?_set] at hagent
    split at hagent
    · obtain rfl := Option.some.inj hagent
      rfl
    · cases hagent
  · rintro agent policy ⟨principal, value, hrequest, -⟩
    cases hrequest
  · rintro agent policy ⟨principal, value, hrequest, -⟩
    obtain ⟨-, hrest⟩ := Prod.mk.inj (Option.some.inj hrequest)
    obtain ⟨rfl, -⟩ := Prod.mk.inj hrest
    rfl

end RemoteControlPlane
end Remote
