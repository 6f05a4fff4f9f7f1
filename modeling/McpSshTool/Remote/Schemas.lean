import McpSshTool.Js.Schema
import McpSshTool.Remote.Crypto
import McpSshTool.Remote.Types

/-!
# Envelope schemas

`schemas.ts`: the strict schemas of policies and envelopes, and the objects that envelopes are on
the wire. A schema keeps what it accepts: the object rebuilt from the typed result has the signed
text of the object received (`canonicalJson_of_agentPolicySchema`), which is what `verifyEnvelope`
is applied to.
-/

open Library

namespace Remote

open Schema

/-- `z.enum(..)` over a listed enumeration. -/
def enumSchema {α : Type} (all : List α) (text : α → String) : Schema α
  | .str s => ofText? all text s
  | _ => none

theorem enumSchema_eq_some {α : Type} {all : List α} {text : α → String} {v : Value} {a : α}
    (h : enumSchema all text v = some a) : v = .str (text a) := by
  cases v with
  | str => rw [ofText?_eq_some h]
  | _ => simp [enumSchema] at h

def capabilitySchema : Schema RemoteCapability := enumSchema remoteCapabilities (·.text)
def toolSchema : Schema RemoteToolName := enumSchema remoteTools (·.text)
def errorCodeSchema : Schema RemoteErrorCode := enumSchema remoteErrorCodes (·.text)

/-! ### The schemas -/

def agentHostMetadataSchema : Schema AgentHostMetadata := fun v => do
  let o ← strict ["hostname", "os", "arch", "platform"] v
  return {
    hostname := ← stringRange 1 255 (o "hostname")
    os := ← stringRange 1 128 (o "os")
    arch := ← stringRange 1 64 (o "arch")
    platform := ← stringRange 1 128 (o "platform") }

def capabilityPolicySchema : Schema CapabilityPolicy := fun v => do
  let o ← strict (remoteCapabilities.map (·.text)) v
  let _ ← remoteCapabilities.mapM fun c => boolean (o c.text)
  return fun c => (boolean (o c.text)).getD false

/-- The members of a policy. -/
def agentPolicyKeys : List String :=
  ["profile", "capabilities", "allowPaths", "denyPaths", "allowServices", "allowContainers",
    "maxOutputBytes", "maxActionTimeoutSeconds", "version"]

def agentPolicySchema : Schema AgentPolicy := fun v => do
  let o ← strict agentPolicyKeys v
  return {
    profile := ← enumSchema agentProfileNames (·.text) (o "profile")
    capabilities := ← capabilityPolicySchema (o "capabilities")
    allowPaths := ← array string (o "allowPaths")
    denyPaths := ← array string (o "denyPaths")
    allowServices := ← array string (o "allowServices")
    allowContainers := ← array string (o "allowContainers")
    maxOutputBytes := ← positiveIntMax 10000000 (o "maxOutputBytes")
    maxActionTimeoutSeconds := ← positiveIntMax 3600 (o "maxActionTimeoutSeconds")
    version := ← positiveInt (o "version") }

def agentHelloEnvelopeSchema (platform : Platform) : Schema AgentHelloEnvelope := fun v => do
  let o ← strict ["type", "agent_id", "timestamp", "nonce", "capabilities", "agent_version",
    "host", "signature"] v
  let _ ← literal "agent.hello" (o "type")
  return {
    agent_id := ← stringMin 1 (o "agent_id")
    timestamp := ← stringWhere platform.isDatetime (o "timestamp")
    nonce := ← stringMin 16 (o "nonce")
    capabilities := ← array capabilitySchema (o "capabilities")
    agent_version := ← stringRange 1 128 (o "agent_version")
    host := ← agentHostMetadataSchema (o "host")
    signature := ← stringMin 1 (o "signature") }

def actionRequestEnvelopeSchema (platform : Platform) : Schema ActionRequestEnvelope := fun v => do
  let o ← strict ["type", "action_id", "agent_id", "user_id", "tool", "capability", "args",
    "policy_version", "issued_at", "deadline", "nonce", "signature"] v
  let _ ← literal "action.request" (o "type")
  return {
    action_id := ← stringMin 1 (o "action_id")
    agent_id := ← stringMin 1 (o "agent_id")
    user_id := ← stringMin 1 (o "user_id")
    tool := ← toolSchema (o "tool")
    capability := ← capabilitySchema (o "capability")
    args := ← record (o "args")
    policy_version := ← positiveInt (o "policy_version")
    issued_at := ← stringWhere platform.isDatetime (o "issued_at")
    deadline := ← stringWhere platform.isDatetime (o "deadline")
    nonce := ← stringMin 16 (o "nonce")
    signature := ← stringMin 1 (o "signature") }

/-- The members of an action result. -/
def actionResultKeys : List String :=
  ["type", "action_id", "agent_id", "nonce", "status", "exit_code", "stdout", "stderr",
    "started_at", "finished_at", "truncated", "error_code", "message", "signature"]

def actionResultEnvelopeSchema (platform : Platform) : Schema ActionResultEnvelope := fun v => do
  let o ← strict actionResultKeys v
  let _ ← literal "action.result" (o "type")
  return {
    action_id := ← stringMin 1 (o "action_id")
    agent_id := ← stringMin 1 (o "agent_id")
    nonce := ← stringMin 16 (o "nonce")
    status := ← enumSchema [ResultStatus.ok, ResultStatus.error] (·.text) (o "status")
    exit_code := ← optional int (o "exit_code")
    stdout := ← optional string (o "stdout")
    stderr := ← optional string (o "stderr")
    started_at := ← stringWhere platform.isDatetime (o "started_at")
    finished_at := ← stringWhere platform.isDatetime (o "finished_at")
    truncated := ← boolean (o "truncated")
    error_code := ← optional errorCodeSchema (o "error_code")
    message := ← optional string (o "message")
    signature := ← stringMin 1 (o "signature") }

/-- The members of a policy update. -/
def policyUpdateKeys : List String :=
  ["type", "agent_id", "policy", "policy_version", "issued_at", "nonce", "signature"]

def policyUpdateEnvelopeSchema (platform : Platform) : Schema (PolicyUpdateEnvelope AgentPolicy) :=
  fun v => do
  let o ← strict policyUpdateKeys v
  let _ ← literal "policy.update" (o "type")
  return {
    agent_id := ← stringMin 1 (o "agent_id")
    policy := ← agentPolicySchema (o "policy")
    policy_version := ← positiveInt (o "policy_version")
    issued_at := ← stringWhere platform.isDatetime (o "issued_at")
    nonce := ← stringMin 16 (o "nonce")
    signature := ← stringMin 1 (o "signature") }

/-! ### Envelopes as objects -/

def AgentHostMetadata.toValue (h : AgentHostMetadata) : Value :=
  .obj [("hostname", .str h.hostname), ("os", .str h.os), ("arch", .str h.arch),
    ("platform", .str h.platform)]

def CapabilityPolicy.toFields (p : CapabilityPolicy) : Fields :=
  remoteCapabilities.map fun c => (c.text, .bool (p c))

/-- An array of strings as a value. -/
def strings (ss : List String) : Value := .arr (ss.map Value.str)

def AgentPolicy.toFields (p : AgentPolicy) : Fields :=
  [("profile", .str p.profile.text),
    ("capabilities", .obj (CapabilityPolicy.toFields p.capabilities)),
    ("allowPaths", strings p.allowPaths), ("denyPaths", strings p.denyPaths),
    ("allowServices", strings p.allowServices), ("allowContainers", strings p.allowContainers),
    ("maxOutputBytes", .int p.maxOutputBytes),
    ("maxActionTimeoutSeconds", .int p.maxActionTimeoutSeconds), ("version", .int p.version)]

def AgentHelloEnvelope.toFields (e : AgentHelloEnvelope) : Fields :=
  [("type", .str "agent.hello"), ("agent_id", .str e.agent_id), ("timestamp", .str e.timestamp),
    ("nonce", .str e.nonce), ("capabilities", strings (e.capabilities.map (·.text))),
    ("agent_version", .str e.agent_version), ("host", e.host.toValue),
    ("signature", .str e.signature)]

def ActionRequestEnvelope.toFields (e : ActionRequestEnvelope) : Fields :=
  [("type", .str "action.request"), ("action_id", .str e.action_id), ("agent_id", .str e.agent_id),
    ("user_id", .str e.user_id), ("tool", .str e.tool.text),
    ("capability", .str e.capability.text), ("args", .obj e.args),
    ("policy_version", .int e.policy_version), ("issued_at", .str e.issued_at),
    ("deadline", .str e.deadline), ("nonce", .str e.nonce), ("signature", .str e.signature)]

/-- An optional member: absent members are `undefined`. -/
def optionalMember {α : Type} (f : α → Value) : Option α → Value
  | some a => f a
  | none => .undefined

def ActionResultEnvelope.toFields (e : ActionResultEnvelope) : Fields :=
  [("type", .str "action.result"), ("action_id", .str e.action_id), ("agent_id", .str e.agent_id),
    ("nonce", .str e.nonce), ("status", .str e.status.text),
    ("exit_code", optionalMember Value.int e.exit_code),
    ("stdout", optionalMember Value.str e.stdout), ("stderr", optionalMember Value.str e.stderr),
    ("started_at", .str e.started_at), ("finished_at", .str e.finished_at),
    ("truncated", .bool e.truncated),
    ("error_code", optionalMember (fun c => .str c.text) e.error_code),
    ("message", optionalMember Value.str e.message), ("signature", .str e.signature)]

/-- A policy update as an object, over the object the policy is. -/
def PolicyUpdateEnvelope.toFields {Policy : Type} (policyValue : Policy → Value)
    (e : PolicyUpdateEnvelope Policy) : Fields :=
  [("type", .str "policy.update"), ("agent_id", .str e.agent_id), ("policy", policyValue e.policy),
    ("policy_version", .int e.policy_version), ("issued_at", .str e.issued_at),
    ("nonce", .str e.nonce), ("signature", .str e.signature)]

/-! ### What an accepted object is -/

theorem capabilityPolicySchema_isSome_iff {v : Value} :
    (capabilityPolicySchema v).isSome ↔
      ∃ fs, v = .obj fs ∧ (∀ e ∈ fs, e.1 ∈ remoteCapabilities.map (·.text)) ∧
        ∀ c : RemoteCapability, (boolean ((Value.obj fs).member c.text)).isSome := by
  refine ⟨fun h => ?_, ?_⟩
  · obtain ⟨p, hp⟩ := Option.isSome_iff_exists.mp h
    simp only [capabilityPolicySchema, Option.bind_eq_bind, Option.bind_eq_some_iff] at hp
    obtain ⟨o, ho, bs, hbs, -⟩ := hp
    obtain ⟨fs, rfl, rfl, hkeys⟩ := strict_eq_some ho
    have hall := (mapM_isSome_iff _ _).mp (Option.isSome_of_eq_some hbs)
    exact ⟨fs, rfl, hkeys, fun c => hall c c.mem_all⟩
  · rintro ⟨fs, rfl, hkeys, hall⟩
    have hbs := (mapM_isSome_iff (fun c : RemoteCapability =>
      boolean ((Value.obj fs).member c.text)) remoteCapabilities).mpr fun c _ => hall c
    obtain ⟨bs, hbs⟩ := Option.isSome_iff_exists.mp hbs
    simp [capabilityPolicySchema, strict_obj hkeys, hbs]

theorem capabilityPolicySchema_eq_some {v : Value} {p : CapabilityPolicy}
    (h : capabilityPolicySchema v = some p) :
    ∃ fs, v = .obj fs ∧ (∀ e ∈ fs, e.1 ∈ remoteCapabilities.map (·.text)) ∧
      ∀ c : RemoteCapability, (Value.obj fs).member c.text = .bool (p c) := by
  obtain ⟨fs, rfl, hkeys, hall⟩ :=
    capabilityPolicySchema_isSome_iff.mp (Option.isSome_of_eq_some h)
  refine ⟨fs, rfl, hkeys, fun c => ?_⟩
  obtain ⟨b, hb⟩ := Option.isSome_iff_exists.mp (hall c)
  simp only [capabilityPolicySchema, Option.bind_eq_bind, Option.bind_eq_some_iff] at h
  obtain ⟨o, ho, bs, -, h⟩ := h
  obtain ⟨gs, hgs, rfl, -⟩ := strict_eq_some ho
  obtain rfl := Value.obj.inj hgs
  obtain rfl := Option.some.inj h
  rw [boolean_eq_some hb]
  simp only [hb, Option.getD_some]

theorem agentPolicySchema_isSome_iff {v : Value} :
    (agentPolicySchema v).isSome ↔
      ∃ fs, v = .obj fs ∧ (∀ e ∈ fs, e.1 ∈ agentPolicyKeys) ∧
        (enumSchema agentProfileNames (·.text) (v.member "profile")).isSome ∧
        (capabilityPolicySchema (v.member "capabilities")).isSome ∧
        (array string (v.member "allowPaths")).isSome ∧
        (array string (v.member "denyPaths")).isSome ∧
        (array string (v.member "allowServices")).isSome ∧
        (array string (v.member "allowContainers")).isSome ∧
        (positiveIntMax 10000000 (v.member "maxOutputBytes")).isSome ∧
        (positiveIntMax 3600 (v.member "maxActionTimeoutSeconds")).isSome ∧
        (positiveInt (v.member "version")).isSome := by
  refine ⟨fun h => ?_, ?_⟩
  · obtain ⟨p, hp⟩ := Option.isSome_iff_exists.mp h
    simp only [agentPolicySchema, Option.bind_eq_bind, Option.bind_eq_some_iff] at hp
    obtain ⟨o, ho, a, ha, b, hb, c, hc, d, hd, e, he, f, hf, g, hg, i, hi, j, hj, -⟩ := hp
    obtain ⟨fs, rfl, rfl, hkeys⟩ := strict_eq_some ho
    exact ⟨fs, rfl, hkeys, Option.isSome_of_eq_some ha, Option.isSome_of_eq_some hb,
      Option.isSome_of_eq_some hc, Option.isSome_of_eq_some hd, Option.isSome_of_eq_some he,
      Option.isSome_of_eq_some hf, Option.isSome_of_eq_some hg, Option.isSome_of_eq_some hi,
      Option.isSome_of_eq_some hj⟩
  · rintro ⟨fs, rfl, hkeys, ha, hb, hc, hd, he, hf, hg, hi, hj⟩
    obtain ⟨a, ha⟩ := Option.isSome_iff_exists.mp ha
    obtain ⟨b, hb⟩ := Option.isSome_iff_exists.mp hb
    obtain ⟨c, hc⟩ := Option.isSome_iff_exists.mp hc
    obtain ⟨d, hd⟩ := Option.isSome_iff_exists.mp hd
    obtain ⟨e, he⟩ := Option.isSome_iff_exists.mp he
    obtain ⟨f, hf⟩ := Option.isSome_iff_exists.mp hf
    obtain ⟨g, hg⟩ := Option.isSome_iff_exists.mp hg
    obtain ⟨i, hi⟩ := Option.isSome_iff_exists.mp hi
    obtain ⟨j, hj⟩ := Option.isSome_iff_exists.mp hj
    simp [agentPolicySchema, strict_obj hkeys, ha, hb, hc, hd, he, hf, hg, hi, hj]

theorem agentPolicySchema_eq_some {v : Value} {p : AgentPolicy} (h : agentPolicySchema v = some p) :
    ∃ fs, v = .obj fs ∧ (∀ e ∈ fs, e.1 ∈ agentPolicyKeys) ∧
      v.member "profile" = .str p.profile.text ∧
      capabilityPolicySchema (v.member "capabilities") = some p.capabilities ∧
      v.member "allowPaths" = strings p.allowPaths ∧ v.member "denyPaths" = strings p.denyPaths ∧
      v.member "allowServices" = strings p.allowServices ∧
      v.member "allowContainers" = strings p.allowContainers ∧
      v.member "maxOutputBytes" = .int p.maxOutputBytes ∧
      v.member "maxActionTimeoutSeconds" = .int p.maxActionTimeoutSeconds ∧
      v.member "version" = .int p.version := by
  simp only [agentPolicySchema, Option.bind_eq_bind, Option.bind_eq_some_iff] at h
  obtain ⟨o, ho, a, ha, b, hb, c, hc, d, hd, e, he, f, hf, g, hg, i, hi, j, hj, h⟩ := h
  obtain ⟨fs, rfl, rfl, hkeys⟩ := strict_eq_some ho
  obtain rfl := Option.some.inj h
  exact ⟨fs, rfl, hkeys, enumSchema_eq_some ha, hb, array_string_eq_some hc,
    array_string_eq_some hd, array_string_eq_some he, array_string_eq_some hf,
    (positiveIntMax_eq_some hg).1, (positiveIntMax_eq_some hi).1, (positiveInt_eq_some hj).1⟩

/-- **What an accepted update is.** -/
theorem policyUpdateEnvelopeSchema_eq_some {platform : Platform} {v : Value}
    {e : PolicyUpdateEnvelope AgentPolicy} (h : policyUpdateEnvelopeSchema platform v = some e) :
    v.member "type" = .str "policy.update" ∧ v.member "agent_id" = .str e.agent_id ∧
      agentPolicySchema (v.member "policy") = some e.policy ∧
      v.member "policy_version" = .int e.policy_version ∧
      v.member "issued_at" = .str e.issued_at ∧ v.member "nonce" = .str e.nonce ∧
      v.member "signature" = .str e.signature := by
  simp only [policyUpdateEnvelopeSchema, Option.bind_eq_bind, Option.bind_eq_some_iff] at h
  obtain ⟨o, ho, u, htype, agent_id, hagent, policy, hpolicy, version, hversion, issued, hissued,
    nonce, hnonce, signature, hsignature, h⟩ := h
  obtain ⟨fs, rfl, rfl, -⟩ := strict_eq_some ho
  obtain rfl := Option.some.inj h
  exact ⟨literal_eq_some htype, (stringMin_eq_some hagent).1, hpolicy,
    (positiveInt_eq_some hversion).1, stringWhere_eq_some hissued, (stringMin_eq_some hnonce).1,
    (stringMin_eq_some hsignature).1⟩

/-- **What an accepted request is.** -/
theorem actionRequestEnvelopeSchema_eq_some {platform : Platform} {v : Value}
    {e : ActionRequestEnvelope} (h : actionRequestEnvelopeSchema platform v = some e) :
    v.member "type" = .str "action.request" ∧ v.member "action_id" = .str e.action_id ∧
      v.member "agent_id" = .str e.agent_id ∧ v.member "user_id" = .str e.user_id ∧
      v.member "tool" = .str e.tool.text ∧ v.member "capability" = .str e.capability.text ∧
      v.member "args" = .obj e.args ∧ v.member "policy_version" = .int e.policy_version ∧
      v.member "issued_at" = .str e.issued_at ∧ v.member "deadline" = .str e.deadline ∧
      v.member "nonce" = .str e.nonce ∧ v.member "signature" = .str e.signature := by
  simp only [actionRequestEnvelopeSchema, Option.bind_eq_bind, Option.bind_eq_some_iff] at h
  obtain ⟨o, ho, u, htype, action_id, haction, agent_id, hagent, user_id, huser, tool, htool,
    capability, hcapability, args, hargs, version, hversion, issued, hissued, deadline, hdeadline,
    nonce, hnonce, signature, hsignature, h⟩ := h
  obtain ⟨fs, rfl, rfl, -⟩ := strict_eq_some ho
  obtain rfl := Option.some.inj h
  exact ⟨literal_eq_some htype, (stringMin_eq_some haction).1, (stringMin_eq_some hagent).1,
    (stringMin_eq_some huser).1, enumSchema_eq_some htool, enumSchema_eq_some hcapability,
    record_eq_some hargs, (positiveInt_eq_some hversion).1, stringWhere_eq_some hissued,
    stringWhere_eq_some hdeadline, (stringMin_eq_some hnonce).1, (stringMin_eq_some hsignature).1⟩

/-! ### Schemas keep the signed text -/

theorem nodup_capabilityPolicy_toFields (p : CapabilityPolicy) :
    ((CapabilityPolicy.toFields p).map Prod.fst).Nodup := by
  rw [CapabilityPolicy.toFields, List.map_map]
  show (remoteCapabilities.map (·.text)).Nodup
  decide

theorem member_capabilityPolicy_toFields (p : CapabilityPolicy) (c : RemoteCapability) :
    (Value.obj (CapabilityPolicy.toFields p)).member c.text = .bool (p c) := by
  have hmem : (c.text, Value.bool (p c)) ∈ CapabilityPolicy.toFields p :=
    List.mem_map.mpr ⟨c, c.mem_all, rfl⟩
  rw [Value.member_obj, OrderedMap.find?_eq_some_of_mem (nodup_capabilityPolicy_toFields p) hmem,
    Option.getD_some]

theorem canonicalJson_of_capabilityPolicySchema (nt : NumberText) {v : Value}
    {p : CapabilityPolicy} (hv : v.WellKeyed) (h : capabilityPolicySchema v = some p) :
    canonicalJson nt (.obj (CapabilityPolicy.toFields p)) = canonicalJson nt v := by
  obtain ⟨fs, rfl, hkeys, hmembers⟩ := capabilityPolicySchema_eq_some h
  rw [Value.WellKeyed] at hv
  refine canonicalJson_obj_congr nt (nodup_capabilityPolicy_toFields p) hv.1 ?_
  refine memberText_congr_of_keys nt (remoteCapabilities.map (·.text)) ?_ hkeys ?_
  · intro e he
    obtain ⟨c, hc, rfl⟩ := List.mem_map.mp he
    exact List.mem_map_of_mem hc
  · intro k hk
    obtain ⟨c, -, rfl⟩ := List.mem_map.mp hk
    refine memberText_congr nt ?_
    rw [member_capabilityPolicy_toFields, hmembers c]

theorem nodup_agentPolicy_toFields (p : AgentPolicy) : (p.toFields.map Prod.fst).Nodup := by
  show agentPolicyKeys.Nodup
  decide

/-- **The policy schema keeps the signed text** of the policy it accepts. -/
theorem canonicalJson_of_agentPolicySchema (nt : NumberText) {v : Value} {p : AgentPolicy}
    (hv : v.WellKeyed) (h : agentPolicySchema v = some p) :
    canonicalJson nt (.obj p.toFields) = canonicalJson nt v := by
  obtain ⟨fs, rfl, hkeys, hprofile, hcaps, hallowPaths, hdenyPaths, hservices, hcontainers, hbytes,
    htimeout, hversion⟩ := agentPolicySchema_eq_some h
  have hcapsText := canonicalJson_of_capabilityPolicySchema nt (hv.member "capabilities") hcaps
  obtain ⟨cs, hcs, -, -⟩ := capabilityPolicySchema_eq_some hcaps
  rw [Value.WellKeyed] at hv
  refine canonicalJson_obj_congr nt (nodup_agentPolicy_toFields p) hv.1 ?_
  refine memberText_congr_of_keys nt agentPolicyKeys ?_ hkeys ?_
  · intro e he
    exact List.mem_map_of_mem (f := Prod.fst) he
  · intro k hk
    simp only [agentPolicyKeys, List.mem_cons, List.not_mem_nil, or_false] at hk
    rcases hk with rfl | rfl | rfl | rfl | rfl | rfl | rfl | rfl | rfl
    · exact memberText_congr nt hprofile.symm
    · -- the capabilities are rebuilt in schema order, so only their text is the same
      rw [memberText_eq_member, memberText_eq_member, hcs, ← hcs, ← hcapsText]
      rw [hcs]
      rfl
    · exact memberText_congr nt hallowPaths.symm
    · exact memberText_congr nt hdenyPaths.symm
    · exact memberText_congr nt hservices.symm
    · exact memberText_congr nt hcontainers.symm
    · exact memberText_congr nt hbytes.symm
    · exact memberText_congr nt htimeout.symm
    · exact memberText_congr nt hversion.symm

/-! ### Policies and updates are read back -/

theorem capabilityPolicySchema_toFields (p : CapabilityPolicy) :
    capabilityPolicySchema (.obj (CapabilityPolicy.toFields p)) = some p := by
  have hkeys : ∀ e ∈ CapabilityPolicy.toFields p, e.1 ∈ remoteCapabilities.map (·.text) := by
    intro e he
    obtain ⟨c, hc, rfl⟩ := List.mem_map.mp he
    exact List.mem_map_of_mem hc
  have hsome : (capabilityPolicySchema (.obj (CapabilityPolicy.toFields p))).isSome := by
    refine capabilityPolicySchema_isSome_iff.mpr ⟨_, rfl, hkeys, fun c => ?_⟩
    rw [member_capabilityPolicy_toFields]
    rfl
  obtain ⟨p', hp'⟩ := Option.isSome_iff_exists.mp hsome
  obtain ⟨fs, hfs, -, hmembers⟩ := capabilityPolicySchema_eq_some hp'
  have hsame : p' = p := by
    funext c
    have hc := hmembers c
    rw [← hfs, member_capabilityPolicy_toFields] at hc
    exact (Value.bool.inj hc).symm
  rw [hp', hsame]

/-- The numbers of a policy are in the ranges that its schema asks for. -/
structure AgentPolicy.InRange (p : AgentPolicy) : Prop where
  maxOutputBytes : 0 < p.maxOutputBytes ∧ p.maxOutputBytes ≤ 10000000
  maxActionTimeoutSeconds : 0 < p.maxActionTimeoutSeconds ∧ p.maxActionTimeoutSeconds ≤ 3600
  version : 0 < p.version ∧ (p.version : ℤ) ≤ JsNumber.maxSafeInteger

/-- **A policy is read back** from the object it is on the wire. -/
theorem agentPolicySchema_toFields {p : AgentPolicy} (h : p.InRange) :
    agentPolicySchema (.obj p.toFields) = some p := by
  have hmax : ∀ {hi n : ℕ}, 0 < n ∧ n ≤ hi → (hi : ℤ) ≤ JsNumber.maxSafeInteger →
      (positiveIntMax hi (.int n)).isSome := by
    intro hi n hn hhi
    refine (positiveIntMax_transport_isSome (n := .ofInt n) hhi).mpr ⟨n, rfl, hn.1, hn.2⟩
  have hstrings : ∀ ss : List String, (array string (strings ss)).isSome :=
    fun ss => Option.isSome_of_eq_some (mapM_string_map ss)
  have hprofile : enumSchema agentProfileNames (·.text) (.str p.profile.text) = some p.profile :=
    ofText?_text AgentProfileName.text_injective p.profile.mem_all
  have hsome : (agentPolicySchema (.obj p.toFields)).isSome := by
    refine agentPolicySchema_isSome_iff.mpr ⟨p.toFields, rfl, ?_, ?_⟩
    · intro e he
      exact List.mem_map_of_mem (f := Prod.fst) he
    · exact ⟨Option.isSome_of_eq_some hprofile,
        Option.isSome_of_eq_some (capabilityPolicySchema_toFields p.capabilities),
        hstrings _, hstrings _, hstrings _, hstrings _,
        hmax h.maxOutputBytes (by decide), hmax h.maxActionTimeoutSeconds (by decide),
        positiveInt_int_isSome.mpr h.version⟩
  obtain ⟨p', hp'⟩ := Option.isSome_iff_exists.mp hsome
  obtain ⟨fs, hfs, -, h₁, h₂, h₃, h₄, h₅, h₆, h₇, h₈, h₉⟩ := agentPolicySchema_eq_some hp'
  -- every field of the policy read is the field of the policy written
  have hstring : ∀ {ss ss' : List String}, strings ss = strings ss' → ss' = ss := fun h =>
    (List.map_injective_iff.mpr (fun _ _ => Value.str.inj) (Value.arr.inj h)).symm
  have hnat : ∀ {n n' : ℕ}, Value.int n = .int n' → n' = n := by
    intro n n' h
    simpa [Value.int, JsNumber.ofInt] using h.symm
  obtain ⟨profile, capabilities, allowPaths, denyPaths, allowServices, allowContainers,
    maxOutputBytes, maxActionTimeoutSeconds, version⟩ := p'
  have hcapabilities : capabilities = p.capabilities :=
    Option.some.inj (h₂.symm.trans (capabilityPolicySchema_toFields p.capabilities))
  obtain rfl : profile = p.profile :=
    (AgentProfileName.text_injective (Value.str.inj h₁)).symm
  obtain rfl := hcapabilities
  obtain rfl : allowPaths = p.allowPaths := hstring h₃
  obtain rfl : denyPaths = p.denyPaths := hstring h₄
  obtain rfl : allowServices = p.allowServices := hstring h₅
  obtain rfl : allowContainers = p.allowContainers := hstring h₆
  obtain rfl : maxOutputBytes = p.maxOutputBytes := hnat h₇
  obtain rfl : maxActionTimeoutSeconds = p.maxActionTimeoutSeconds := hnat h₈
  obtain rfl : version = p.version := hnat h₉
  exact hp'

/-- **An update is read back** from the object it is on the wire. -/
theorem policyUpdateEnvelopeSchema_toFields {platform : Platform}
    {e : PolicyUpdateEnvelope AgentPolicy} (hagent : e.agent_id ≠ "") (hpolicy : e.policy.InRange)
    (hversion : 0 < e.policy_version ∧ (e.policy_version : ℤ) ≤ JsNumber.maxSafeInteger)
    (hissued : platform.isDatetime e.issued_at = true) (hnonce : 16 ≤ JsText.length e.nonce)
    (hsignature : e.signature ≠ "") :
    policyUpdateEnvelopeSchema platform (.obj (e.toFields fun policy => .obj policy.toFields)) =
      some e := by
  have hpositive : positiveInt (.int e.policy_version) = some e.policy_version := by
    have hpos : (0 : ℤ) < e.policy_version := by exact_mod_cast hversion.1
    exact positiveInt_int hpos hversion.2
  have hstrict : strict policyUpdateKeys (.obj (e.toFields fun policy => .obj policy.toFields)) =
      some (Value.obj (e.toFields fun policy => .obj policy.toFields)).member :=
    strict_obj fun e' he' => List.mem_map_of_mem (f := Prod.fst) he'
  have h₁ : stringMin 1 (.str e.agent_id) = some e.agent_id :=
    if_pos (JsText.one_le_length hagent)
  have h₂ : stringWhere platform.isDatetime (.str e.issued_at) = some e.issued_at := if_pos hissued
  have h₃ : stringMin 16 (.str e.nonce) = some e.nonce := if_pos hnonce
  have h₄ : stringMin 1 (.str e.signature) = some e.signature :=
    if_pos (JsText.one_le_length hsignature)
  have h₅ := agentPolicySchema_toFields hpolicy
  unfold policyUpdateEnvelopeSchema
  rw [hstrict]
  show (do
    let _ ← literal "policy.update" (.str "policy.update")
    let agent_id ← stringMin 1 (.str e.agent_id)
    let policy ← agentPolicySchema (.obj e.policy.toFields)
    let policy_version ← positiveInt (.int e.policy_version)
    let issued_at ← stringWhere platform.isDatetime (.str e.issued_at)
    let nonce ← stringMin 16 (.str e.nonce)
    let signature ← stringMin 1 (.str e.signature)
    some { agent_id, policy, policy_version, issued_at, nonce, signature }) = some e
  rw [h₁, h₂, h₃, h₄, h₅, hpositive]
  rfl

/-- **A request is read back** from the object it is on the wire. -/
theorem actionRequestEnvelopeSchema_toFields {platform : Platform} {e : ActionRequestEnvelope}
    (haction : e.action_id ≠ "") (hagent : e.agent_id ≠ "") (huser : e.user_id ≠ "")
    (hversion : 0 < e.policy_version ∧ (e.policy_version : ℤ) ≤ JsNumber.maxSafeInteger)
    (hissued : platform.isDatetime e.issued_at = true)
    (hdeadline : platform.isDatetime e.deadline = true) (hnonce : 16 ≤ JsText.length e.nonce)
    (hsignature : e.signature ≠ "") :
    actionRequestEnvelopeSchema platform (.obj e.toFields) = some e := by
  have hpositive : positiveInt (.int e.policy_version) = some e.policy_version := by
    have hpos : (0 : ℤ) < e.policy_version := by exact_mod_cast hversion.1
    exact positiveInt_int hpos hversion.2
  have hstrict : strict ["type", "action_id", "agent_id", "user_id", "tool", "capability", "args",
      "policy_version", "issued_at", "deadline", "nonce", "signature"] (.obj e.toFields) =
        some (Value.obj e.toFields).member :=
    strict_obj fun e' he' => List.mem_map_of_mem (f := Prod.fst) he'
  have hmin : ∀ {s : String}, s ≠ "" → stringMin 1 (.str s) = some s :=
    fun hs => if_pos (JsText.one_le_length hs)
  have hnonce' : stringMin 16 (.str e.nonce) = some e.nonce := if_pos hnonce
  have hissued' : stringWhere platform.isDatetime (.str e.issued_at) = some e.issued_at :=
    if_pos hissued
  have hdeadline' : stringWhere platform.isDatetime (.str e.deadline) = some e.deadline :=
    if_pos hdeadline
  have htool : toolSchema (.str e.tool.text) = some e.tool :=
    ofText?_text RemoteToolName.text_injective e.tool.mem_all
  have hcapability : capabilitySchema (.str e.capability.text) = some e.capability :=
    ofText?_text RemoteCapability.text_injective e.capability.mem_all
  unfold actionRequestEnvelopeSchema
  rw [hstrict]
  show (do
    let _ ← literal "action.request" (.str "action.request")
    let action_id ← stringMin 1 (.str e.action_id)
    let agent_id ← stringMin 1 (.str e.agent_id)
    let user_id ← stringMin 1 (.str e.user_id)
    let tool ← toolSchema (.str e.tool.text)
    let capability ← capabilitySchema (.str e.capability.text)
    let args ← record (.obj e.args)
    let policy_version ← positiveInt (.int e.policy_version)
    let issued_at ← stringWhere platform.isDatetime (.str e.issued_at)
    let deadline ← stringWhere platform.isDatetime (.str e.deadline)
    let nonce ← stringMin 16 (.str e.nonce)
    let signature ← stringMin 1 (.str e.signature)
    some { action_id, agent_id, user_id, tool, capability, args, policy_version, issued_at,
           deadline, nonce, signature }) = some e
  rw [hmin haction, hmin hagent, hmin huser, htool, hcapability, hpositive, hissued', hdeadline',
    hnonce', hmin hsignature]
  rfl

end Remote
