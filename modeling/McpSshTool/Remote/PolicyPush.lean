import McpSshTool.Remote.System

/-!
# A pushed update at the agent

What the agent makes of a policy update that the control plane has pushed. The policy travels as the
object that the patch led to and is rebuilt by the agent's schema, members in another order; its
canonical text, and with it the signature, survives (`updateOf_pushed`).
-/

open Library

namespace Remote

open Schema

/-! ### Policies are JSON -/

theorem isJson_str (s : String) : (Value.str s).IsJson := ⟨trivial, trivial⟩

theorem isJson_num (n : JsNumber) : (Value.num n).IsJson := ⟨trivial, trivial⟩

theorem isJson_strings (ss : List String) : (strings ss).IsJson := by
  have hall : ∀ x ∈ ss.map Value.str, x.WellKeyed ∧ x.Defined := by
    intro x hx
    obtain ⟨s, -, rfl⟩ := List.mem_map.mp hx
    exact ⟨trivial, trivial⟩
  refine ⟨?_, ?_⟩
  · rw [strings, Value.WellKeyed]
    exact Value.wellKeyedElements_iff.mpr fun x hx => (hall x hx).1
  · rw [strings, Value.Defined]
    exact Value.definedElements_iff.mpr fun x hx => (hall x hx).2

theorem isJson_capabilityPolicy (p : CapabilityPolicy) :
    (Value.obj (CapabilityPolicy.toFields p)).IsJson := by
  refine Value.isJson_obj.mpr ⟨nodup_capabilityPolicy_toFields p, fun e he => ?_⟩
  obtain ⟨c, -, rfl⟩ := List.mem_map.mp he
  exact ⟨trivial, trivial⟩

theorem isJson_createAgentPolicy {profile : Value} (hprofile : profile.IsJson) :
    (Value.obj (createAgentPolicy profile)).IsJson := by
  refine Value.isJson_obj.mpr ⟨?_, fun e he => ?_⟩
  · rw [keys_createAgentPolicy]
    exact nodup_agentPolicyKeys
  · simp only [createAgentPolicy, List.mem_cons, List.not_mem_nil, or_false] at he
    rcases he with rfl | rfl | rfl | rfl | rfl | rfl | rfl | rfl | rfl
    · exact hprofile
    · exact isJson_capabilityPolicy _
    · exact isJson_strings _
    · exact isJson_strings _
    · exact isJson_strings _
    · exact isJson_strings _
    · exact isJson_num _
    · exact isJson_num _
    · exact isJson_num _

section Patch

variable {patch : Fields} (hpatch : (Value.obj patch).IsJson)

include hpatch

theorem isJson_patchProfile : (patchProfile patch).IsJson :=
  isJson_orElse_member hpatch "profile" (isJson_str _)

theorem isJson_patchField {key : String} (hkey : key ∈ agentPolicyKeys) :
    (patchField patch key).IsJson := by
  have hbase := isJson_createAgentPolicy (isJson_patchProfile hpatch)
  refine isJson_orElse_member hpatch key ?_
  -- the default is a member of a policy, which has all the keys
  have hsome : OrderedMap.find? (createAgentPolicy (patchProfile patch)) key ≠ none := by
    rw [Ne, OrderedMap.find?_eq_none, keys_createAgentPolicy]
    exact fun h => h hkey
  obtain ⟨v, hv⟩ := Option.ne_none_iff_exists'.mp hsome
  rw [Value.member_obj, hv, Option.getD_some]
  exact (Value.isJson_obj.mp hbase).2 _ (OrderedMap.mem_of_find?_eq_some hv)

theorem isJson_patchCapabilities : (Value.obj (patchCapabilities patch)).IsJson := by
  have hcapabilities : (((Value.obj patch).member "capabilities").orElse (.obj [])).IsJson :=
    isJson_orElse_member hpatch "capabilities" (Value.isJson_obj.mpr ⟨List.nodup_nil, by simp⟩)
  exact Value.isJson_spread (isJson_capabilityPolicy _) hcapabilities.ownMembers

/-- **A merged policy is JSON.** -/
theorem isJson_mergeCustomPolicy : (Value.obj (mergeCustomPolicy patch)).IsJson := by
  have hbase := isJson_createAgentPolicy (isJson_patchProfile hpatch)
  refine Value.isJson_spread (Value.isJson_spread hbase hpatch.ownMembers) ?_
  intro e he
  simp only [Value.ownMembers, mergedFields, List.mem_cons, List.not_mem_nil, or_false] at he
  rcases he with rfl | rfl | rfl | rfl | rfl | rfl | rfl | rfl | rfl
  · exact isJson_patchProfile hpatch
  · exact isJson_patchCapabilities hpatch
  all_goals exact isJson_patchField hpatch (by decide)

end Patch

namespace RemoteControlPlane

variable {d : Deployment} {agent : RemoteAgentRecord} {value : Value} {policy : Fields}

/-- **A policy that a patch leads to is JSON.** -/
theorem isJson_updatedPolicy (hvalue : value.IsJson)
    (h : updatedPolicy d agent value = some policy) : (Value.obj policy).IsJson := by
  obtain ⟨timeout, bytes, -, -, hclamped⟩ := updatedPolicy_eq_some d hvalue h
  rw [hclamped, clampedPolicy]
  refine Value.isJson_spread (isJson_mergeCustomPolicy (isJson_patchOf hvalue)) ?_
  intro e he
  simp only [Value.ownMembers, clampedFields, List.mem_cons, List.not_mem_nil, or_false] at he
  rcases he with rfl | rfl | rfl
  all_goals exact isJson_num _

theorem canonicalJson_pushed (hvalue : value.IsJson)
    (h : updatedPolicy d agent value = some policy) {read : AgentPolicy}
    (hread : agentPolicySchema (Value.obj policy).transport = some read) :
    canonicalJson d.platform.numberText (.obj read.toFields) =
      canonicalJson d.platform.numberText (.obj policy) := by
  have hjson := isJson_updatedPolicy hvalue h
  rw [canonicalJson_of_agentPolicySchema d.platform.numberText
    (Value.wellKeyed_transport hjson.wellKeyed) hread,
    canonicalJson_transport d.platform.numberText hjson.defined]

/-- **A pushed update is read and verifies**, and carries the policy that was stored. -/
theorem updateOf_pushed {m : Moment} (hvalue : value.IsJson) (hid : agent.id ≠ "")
    (hkeys : KeyPair d.platform d.controlPlaneKeyPair.publicKeyPem
      d.controlPlaneKeyPair.privateKeyPem)
    (hdate : d.platform.isDatetime (nowIso d m) = true) (htoken : 16 ≤ JsText.length m.token)
    (h : updatedPolicy d agent value = some policy)
    (hpatch : WellFormedPatch d agent (patchOf value)) :
    ∃ update, AgentProcess.updateOf d.platform
        (some (ServerMessage.policyUpdate
          (policyUpdateEnvelope d m (policyRecord d m agent policy))).toValue.transport) =
          some update ∧
      update.agent_id = agent.id ∧
      agentPolicySchema (Value.obj policy).transport = some update.policy ∧
      verifyEnvelope d.platform (update.toFields fun policy => .obj policy.toFields)
        d.controlPlaneKeyPair.publicKeyPem = true := by
  set envelope := policyUpdateEnvelope d m (policyRecord d m agent policy) with henvelope
  have hpolicy : envelope.policy = .obj policy := rfl
  have hversion : (positiveInt (.int envelope.policy_version)).isSome := by
    show (positiveInt (.int (agent.policyVersion + 1 : ℕ))).isSome
    rw [positiveInt_int_isSome]
    push_cast
    exact ⟨Nat.succ_pos _, hpatch.version⟩
  have haccepted : (policyUpdateEnvelopeSchema d.platform
      (ServerMessage.policyUpdate envelope).toValue.transport).isSome :=
    (policyUpdateEnvelope_accepted_iff d.platform hpolicy hid hdate htoken (hkeys.sign_ne _)).mpr
      ⟨(policy_accepted_iff d hvalue h).mpr hpatch, hversion⟩
  obtain ⟨update, hupdate⟩ := Option.isSome_iff_exists.mp haccepted
  have hread : AgentProcess.updateOf d.platform
      (some (ServerMessage.policyUpdate envelope).toValue.transport) = some update := by
    have htype := System.member_type_transport (.policyUpdate envelope)
    have hrecord : (ServerMessage.policyUpdate envelope).toValue.transport.isRecord = true := by
      rw [ServerMessage.toValue, Value.transport]
      rfl
    unfold AgentProcess.updateOf AgentProcess.envelopeOf
    rw [Option.bind_some, htype, if_pos ⟨hrecord, rfl⟩, hupdate]
  obtain ⟨-, hagentId, hschema, hnumber, hissued, hnonce, hsignature⟩ :=
    policyUpdateEnvelopeSchema_eq_some hupdate
  have hmember : ∀ k, (ServerMessage.policyUpdate envelope).toValue.transport.member k =
      ((Value.obj (envelope.toFields id)).member k).transport :=
    Value.member_transport_of_nodup (System.nodup_policyUpdate_toFields id envelope)
  rw [hmember] at hagentId hschema hnumber hissued hnonce hsignature
  have hschema : agentPolicySchema (Value.obj policy).transport = some update.policy := hschema
  refine ⟨update, hread, (Value.str.inj hagentId).symm, hschema, ?_⟩
  have htext := canonicalJson_pushed hvalue h hschema
  have hsent := System.nodup_policyUpdate_toFields id envelope
  have hreceived := System.nodup_policyUpdate_toFields
    (fun policy : AgentPolicy => .obj policy.toFields) update
  refine verifyEnvelope_of_signed hkeys hsent hreceived (fun k _ => ?_) hsignature.symm
  have hkeysOf : ∀ {Policy : Type} (policyValue : Policy → Value)
      (u : PolicyUpdateEnvelope Policy), ∀ e ∈ u.toFields policyValue, e.1 ∈ policyUpdateKeys :=
    fun _ _ e he => List.mem_map_of_mem (f := Prod.fst) he
  refine memberText_congr_of_keys _ policyUpdateKeys (hkeysOf _ _) (hkeysOf _ _) ?_ k
  -- the policy has the text that was signed, every other member its value
  intro k hk
  simp only [policyUpdateKeys, List.mem_cons, List.not_mem_nil, or_false] at hk
  rcases hk with rfl | rfl | rfl | rfl | rfl | rfl | rfl
  · rfl
  · exact memberText_congr _ hagentId.symm
  · exact congrArg some htext
  · exact memberText_congr _ hnumber.symm
  · exact memberText_congr _ hissued.symm
  · exact memberText_congr _ hnonce.symm
  · exact memberText_congr _ hsignature.symm

end RemoteControlPlane
end Remote
