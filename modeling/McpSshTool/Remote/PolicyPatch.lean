import McpSshTool.Remote.ControlPlane.Ledger

/-!
# Policy patches and the agent's schema

The control plane merges whatever JSON a PATCH request carries into a policy and stores it; the
agent installs a policy only if its strict schema accepts it. `policy_update_installable_iff` says
for which patches the two agree: those that are well formed on their own (`WellFormedPatch`). Any
other patch that is stored leaves the control plane with a policy that its agent refuses.

A patch passes through three stages, and the proof follows them:

* `mergeCustomPolicy` — a member that is absent or `null` takes its default, any other is the
  patch's own, unknown ones included;
* the clamping of the two limits, which turns them into numbers;
* the trip through JSON, which turns a number that is not finite into `null`.
-/

open Library

namespace Remote

open Schema

/-! ### Well-formed patches -/

/-- The value stands for a member that was left out. -/
def Nullish (v : Value) : Prop := v = .undefined ∨ v = .null

/-- A limit that is a whole number from one to `hi` after it was converted and cut at `cap`. -/
def LimitWithin (nt : NumberText) (cap : ℤ) (hi : ℕ) (v : Value) : Prop :=
  ∃ n, v.toNumber nt = some n ∧ ∃ k : ℕ, n.min (.ofInt cap) = .ofInt k ∧ 0 < k ∧ k ≤ hi

/-- **A patch that is a policy patch**: it has no member that a policy has not, every member it has
is of the type the policy wants, and its limits come out as whole numbers in range. -/
structure WellFormedPatch (d : Deployment) (agent : RemoteAgentRecord) (patch : Fields) : Prop where
  keys : ∀ e ∈ patch, e.1 ∈ agentPolicyKeys
  profile : Nullish ((Value.obj patch).member "profile") ∨
    ∃ p : AgentProfileName, (Value.obj patch).member "profile" = .str p.text
  capabilities : ∀ e ∈ (((Value.obj patch).member "capabilities").orElse (.obj [])).ownMembers,
    e.1 ∈ remoteCapabilities.map (·.text) ∧ ∃ b, e.2 = .bool b
  lists : ∀ k ∈ ["allowPaths", "denyPaths", "allowServices", "allowContainers"],
    Nullish ((Value.obj patch).member k) ∨ ∃ ss, (Value.obj patch).member k = strings ss
  outputLimit : LimitWithin d.platform.numberText d.config.maxOutputBytes 10000000
    (((Value.obj patch).member "maxOutputBytes").orElse (.int 200000))
  timeLimit : LimitWithin d.platform.numberText d.config.maxActionTimeoutSeconds 3600
    (((Value.obj patch).member "maxActionTimeoutSeconds").orElse (.int 120))
  version : (agent.policyVersion + 1 : ℤ) ≤ JsNumber.maxSafeInteger

/-- The patch that a value stands for; a value that is no object is an empty patch. -/
def patchOf (value : Value) : Fields := if value.isRecord then value.ownMembers else []

theorem isJson_patchOf {value : Value} (h : value.IsJson) : (Value.obj (patchOf value)).IsJson := by
  cases value with
  | obj => exact h
  | _ => exact ⟨⟨List.nodup_nil, trivial⟩, trivial⟩

theorem nodup_of_isJson {fs : Fields} (h : (Value.obj fs).IsJson) : (fs.map Prod.fst).Nodup := by
  have hkeyed := h.wellKeyed
  rw [Value.WellKeyed] at hkeyed
  exact hkeyed.1

theorem isUndefined_of_isJson {fs : Fields} (h : (Value.obj fs).IsJson) :
    ∀ e ∈ fs, e.2.isUndefined = false := by
  intro e he
  have hdefined := h.defined
  rw [Value.Defined] at hdefined
  exact Value.isUndefined_eq_false_of_defined (Value.definedMembers_iff.mp hdefined e he)

/-! ### Defaults -/

theorem orElse_of_nullish {v : Value} (h : Nullish v) (w : Value) : v.orElse w = w := by
  rcases h with rfl | rfl <;> rfl

theorem orElse_of_not_nullish {v : Value} (h : ¬ Nullish v) (w : Value) : v.orElse w = v := by
  cases v with
  | undefined => exact absurd (.inl rfl) h
  | null => exact absurd (.inr rfl) h
  | _ => rfl

theorem isUndefined_orElse {v w : Value} (h : w.isUndefined = false) :
    (v.orElse w).isUndefined = false := by
  cases v with
  | undefined => exact h
  | null => exact h
  | _ => rfl

theorem orElse_iff {P : Value → Prop} {w : Value} (hw : P w) (v : Value) :
    P (v.orElse w) ↔ Nullish v ∨ P v := by
  by_cases hv : Nullish v
  · rw [orElse_of_nullish hv]
    exact ⟨fun _ => .inl hv, fun _ => hw⟩
  · rw [orElse_of_not_nullish hv]
    exact ⟨.inr, fun h => h.resolve_left hv⟩

/-- A member of a JSON object, or a default in its place. -/
theorem isJson_orElse_member {fs : Fields} (hfs : (Value.obj fs).IsJson) (k : String) {w : Value}
    (hw : w.IsJson) : (((Value.obj fs).member k).orElse w).IsJson := by
  by_cases hv : Nullish ((Value.obj fs).member k)
  · rw [orElse_of_nullish hv]
    exact hw
  · rw [orElse_of_not_nullish hv]
    refine ⟨hfs.wellKeyed.member k, ?_⟩
    rw [Value.member_obj] at hv ⊢
    cases hfind : OrderedMap.find? fs k with
    | none =>
      rw [hfind] at hv
      exact absurd (.inl rfl) hv
    | some =>
      have hdefined := hfs.defined
      rw [Value.Defined] at hdefined
      exact Value.definedMembers_iff.mp hdefined _ (OrderedMap.mem_of_find?_eq_some hfind)

/-! ### One member -/

theorem enumSchema_transport_isSome {α : Type} {all : List α} {text : α → String}
    (hall : ∀ a, a ∈ all) (hinj : Function.Injective text) {v : Value} :
    (enumSchema all text v.transport).isSome ↔ ∃ a, v = .str (text a) := by
  constructor
  · intro h
    obtain ⟨a, ha⟩ := Option.isSome_iff_exists.mp h
    have htransport := enumSchema_eq_some ha
    refine ⟨a, ?_⟩
    cases v with
    | str => exact htransport
    | num n => cases n <;> simp [Value.transport] at htransport
    | _ => simp [Value.transport] at htransport
  · rintro ⟨a, rfl⟩
    show (ofText? all text (text a)).isSome
    rw [ofText?_text hinj (hall a)]
    rfl

/-- An array or a string has a member `0`, unless it is empty. -/
theorem nodup_ownMembers {v : Value} (hv : v.IsJson)
    (hknown : ∀ e ∈ v.ownMembers, e.1 ∈ remoteCapabilities.map (·.text)) :
    (v.ownMembers.map Prod.fst).Nodup := by
  have hzero : toString (0 : ℕ) ∉ remoteCapabilities.map (·.text) := by decide
  cases v with
  | obj => exact nodup_of_isJson hv
  | arr xs =>
    cases xs with
    | nil => exact List.nodup_nil
    | cons x => exact absurd (hknown (toString 0, x) List.mem_cons_self) hzero
  | str s =>
    show ((s.toList.zipIdx.map fun x => (toString x.2, Value.str (String.singleton x.1))).map
      Prod.fst).Nodup
    have hmembers : ∀ e ∈ s.toList.zipIdx.map fun x =>
        (toString x.2, Value.str (String.singleton x.1)),
        e.1 ∈ remoteCapabilities.map (·.text) := hknown
    cases hs : s.toList with
    | nil => exact List.nodup_nil
    | cons c =>
      rw [hs] at hmembers
      exact absurd (hmembers (toString 0, .str (String.singleton c)) List.mem_cons_self) hzero
  | _ => exact List.nodup_nil

theorem isUndefined_ownMembers {v : Value} (hv : v.IsJson) :
    ∀ e ∈ v.ownMembers, e.2.isUndefined = false := by
  cases v with
  | obj => exact isUndefined_of_isJson hv
  | arr xs =>
    have hxs : Value.DefinedElements xs := by
      have := hv.defined
      rwa [Value.Defined] at this
    have hall : ∀ x ∈ xs, x.isUndefined = false := by
      clear hv
      induction xs with
      | nil => exact fun x hx => absurd hx List.not_mem_nil
      | cons x xs ih =>
        rw [List.forall_mem_cons]
        exact ⟨Value.isUndefined_eq_false_of_defined hxs.1, ih hxs.2⟩
    intro e he
    obtain ⟨p, hp, rfl⟩ := List.mem_map.mp he
    exact hall _ (List.fst_mem_of_mem_zipIdx hp)
  | str =>
    intro e he
    obtain ⟨p, -, rfl⟩ := List.mem_map.mp he
    rfl
  | _ => exact fun e he => absurd he List.not_mem_nil

/-- **Capabilities spread over a profile's** are accepted exactly when each of them is a capability
with a truth value. -/
theorem capabilities_accepted_iff (base : CapabilityPolicy) {cs : Value} (hcs : cs.IsJson) :
    (capabilityPolicySchema
      (Value.obj (Value.spread (CapabilityPolicy.toFields base) cs)).transport).isSome ↔
      ∀ e ∈ cs.ownMembers, e.1 ∈ remoteCapabilities.map (·.text) ∧ ∃ b, e.2 = .bool b := by
  set fs := Value.spread (CapabilityPolicy.toFields base) cs with hfs
  have hbase : ∀ e ∈ CapabilityPolicy.toFields base, e.1 ∈ remoteCapabilities.map (·.text) ∧
      e.2.isUndefined = false := by
    intro e he
    obtain ⟨c, hc, rfl⟩ := List.mem_map.mp he
    exact ⟨List.mem_map_of_mem hc, rfl⟩
  have hdefined : ∀ e ∈ fs, e.2.isUndefined = false := by
    intro e he
    rcases Value.mem_spread he with h | h
    · exact (hbase e h).2
    · exact isUndefined_ownMembers hcs e h
  have hkeys : (∀ e ∈ Value.transportMembers fs, e.1 ∈ remoteCapabilities.map (·.text)) ↔
      ∀ e ∈ cs.ownMembers, e.1 ∈ remoteCapabilities.map (·.text) := by
    have hfst : ∀ {l : Fields}, (∀ e ∈ l, e.1 ∈ remoteCapabilities.map (·.text)) ↔
        ∀ k ∈ l.map Prod.fst, k ∈ remoteCapabilities.map (·.text) :=
      fun {l} => (List.forall_mem_map).symm
    rw [hfst, Value.keys_transportMembers hdefined, hfst]
    constructor
    · exact fun h k hk => h k (Value.mem_keys_spread.mpr (.inr hk))
    · intro h k hk
      rcases Value.mem_keys_spread.mp hk with hk | hk
      · obtain ⟨e, he, rfl⟩ := List.mem_map.mp hk
        exact (hbase e he).1
      · exact h k hk
  rw [capabilityPolicySchema_isSome_iff, Value.transport]
  constructor
  · rintro ⟨gs, hgs, hknown, hbool⟩ e he
    obtain rfl := Value.obj.inj hgs
    have hown := hkeys.mp hknown
    obtain ⟨c, -, hc⟩ := List.mem_map.mp (hown e he)
    refine ⟨hown e he, ?_⟩
    -- a member of the patch stands over that of the profile
    have hmember : (Value.obj fs).member c.text = e.2 := by
      rw [Value.member_obj, hfs, show Value.spread (CapabilityPolicy.toFields base) cs =
        Value.spread (CapabilityPolicy.toFields base) (.obj cs.ownMembers) from rfl,
        Value.find?_spread_obj _ (nodup_ownMembers hcs hown),
        OrderedMap.find?_eq_some_of_mem (nodup_ownMembers hcs hown) (k := c.text) (v := e.2)
          (by rw [hc]; exact he)]
      rfl
    have := hbool c
    rwa [← Value.transport, Value.member_transport hdefined, hmember, boolean_transport_isSome]
      at this
  · intro hown
    refine ⟨_, rfl, hkeys.mpr fun e he => (hown e he).1, fun c => ?_⟩
    rw [← Value.transport, Value.member_transport hdefined, boolean_transport_isSome,
      Value.member_obj,
      hfs, show Value.spread (CapabilityPolicy.toFields base) cs =
        Value.spread (CapabilityPolicy.toFields base) (.obj cs.ownMembers) from rfl,
      Value.find?_spread_obj _ (nodup_ownMembers hcs fun e he => (hown e he).1)]
    cases hfind : OrderedMap.find? cs.ownMembers c.text with
    | some =>
      obtain ⟨-, b, hb⟩ := hown _ (OrderedMap.mem_of_find?_eq_some hfind)
      exact ⟨b, hb⟩
    | none =>
      -- the patch leaves the capability to the profile
      exact ⟨base c, member_capabilityPolicy_toFields base c⟩

/-! ### The merged policy -/

section Merged

variable {patch : Fields} (hpatch : (Value.obj patch).IsJson)

include hpatch

theorem isUndefined_mergeCustomPolicy : ∀ e ∈ mergeCustomPolicy patch, e.2.isUndefined = false := by
  have hprofile : (patchProfile patch).isUndefined = false := isUndefined_orElse rfl
  have hdefault : ∀ e ∈ createAgentPolicy (patchProfile patch), e.2.isUndefined = false := by
    intro e he
    simp only [createAgentPolicy, List.mem_cons, List.not_mem_nil, or_false] at he
    rcases he with rfl | rfl | rfl | rfl | rfl | rfl | rfl | rfl | rfl
    · exact hprofile
    all_goals rfl
  have hmerged : ∀ e ∈ mergedFields patch, e.2.isUndefined = false := by
    intro e he
    simp only [mergedFields, List.mem_cons, List.not_mem_nil, or_false] at he
    rcases he with rfl | rfl | rfl | rfl | rfl | rfl | rfl | rfl | rfl
    · exact hprofile
    · rfl
    all_goals exact isUndefined_orElse rfl
  intro e he
  rcases Value.mem_spread he with h | h
  · rcases Value.mem_spread h with h | h
    · exact hdefault e h
    · exact isUndefined_of_isJson hpatch e h
  · exact hmerged e h

theorem member_mergeCustomPolicy {k : String} (hk : k ∈ agentPolicyKeys) :
    (Value.obj (mergeCustomPolicy patch)).member k = (Value.obj (mergedFields patch)).member k := by
  have hsome : OrderedMap.find? (mergedFields patch) k ≠ none := by
    rw [Ne, OrderedMap.find?_eq_none, keys_mergedFields]
    exact fun h => h hk
  obtain ⟨v, hv⟩ := Option.ne_none_iff_exists'.mp hsome
  rw [Value.member_obj, Value.member_obj, find?_mergeCustomPolicy (nodup_of_isJson hpatch), hv,
    Option.some_or]

end Merged

/-! ### The clamped policy -/

/-- The members that `updateAgentPolicy` puts over the merged policy. -/
def clampedFields (d : Deployment) (agent : RemoteAgentRecord) (timeout bytes : JsNumber) :
    Fields :=
  [("maxActionTimeoutSeconds", .num (timeout.min (.ofInt d.config.maxActionTimeoutSeconds))),
    ("maxOutputBytes", .num (bytes.min (.ofInt d.config.maxOutputBytes))),
    ("version", .int (agent.policyVersion + 1 : ℕ))]

def clampedKeys : List String := ["maxActionTimeoutSeconds", "maxOutputBytes", "version"]

/-- The policy that a patch leads to, once its limits are converted. -/
def clampedPolicy (d : Deployment) (agent : RemoteAgentRecord) (patch : Fields)
    (timeout bytes : JsNumber) : Fields :=
  Value.spread (mergeCustomPolicy patch) (.obj (clampedFields d agent timeout bytes))

section Clamped

variable {d : Deployment} {agent : RemoteAgentRecord} {patch : Fields} {timeout bytes : JsNumber}

theorem keys_clampedFields (d : Deployment) (agent : RemoteAgentRecord) (timeout bytes : JsNumber) :
    (clampedFields d agent timeout bytes).map Prod.fst = clampedKeys := rfl

theorem nodup_clampedFields : ((clampedFields d agent timeout bytes).map Prod.fst).Nodup := by
  rw [keys_clampedFields]
  decide

theorem isUndefined_clampedPolicy (hpatch : (Value.obj patch).IsJson) :
    ∀ e ∈ clampedPolicy d agent patch timeout bytes, e.2.isUndefined = false := by
  intro e he
  rcases Value.mem_spread he with h | h
  · exact isUndefined_mergeCustomPolicy hpatch e h
  · simp only [Value.ownMembers, clampedFields, List.mem_cons, List.not_mem_nil, or_false] at h
    rcases h with rfl | rfl | rfl <;> rfl

theorem member_clampedPolicy_of_merged (hpatch : (Value.obj patch).IsJson) {k : String}
    (hk : k ∈ agentPolicyKeys) (hout : k ∉ clampedKeys) :
    (Value.obj (clampedPolicy d agent patch timeout bytes)).member k =
      (Value.obj (mergedFields patch)).member k := by
  rw [← keys_clampedFields d agent timeout bytes, ← OrderedMap.find?_eq_none] at hout
  rw [← member_mergeCustomPolicy hpatch hk, Value.member_obj, clampedPolicy,
    Value.find?_spread_obj _ nodup_clampedFields, hout, Option.none_or]
  rfl

theorem member_clampedPolicy_of_clamped {k : String} {v : Value}
    (hv : OrderedMap.find? (clampedFields d agent timeout bytes) k = some v) :
    (Value.obj (clampedPolicy d agent patch timeout bytes)).member k = v := by
  rw [Value.member_obj, clampedPolicy, Value.find?_spread_obj _ nodup_clampedFields, hv,
    Option.some_or, Option.getD_some]

/-- The members of the policy are known exactly when those of the patch are. -/
theorem keys_clampedPolicy_iff (d : Deployment) (agent : RemoteAgentRecord)
    (timeout bytes : JsNumber) (hpatch : (Value.obj patch).IsJson) :
    (∀ e ∈ Value.transportMembers (clampedPolicy d agent patch timeout bytes),
      e.1 ∈ agentPolicyKeys) ↔ ∀ e ∈ patch, e.1 ∈ agentPolicyKeys := by
  have hfst : ∀ {l : Fields}, (∀ e ∈ l, e.1 ∈ agentPolicyKeys) ↔
      ∀ k ∈ l.map Prod.fst, k ∈ agentPolicyKeys := fun {l} => (List.forall_mem_map).symm
  rw [hfst, Value.keys_transportMembers (isUndefined_clampedPolicy hpatch), hfst]
  constructor
  · intro h k hk
    refine h k (Value.mem_keys_spread.mpr (.inl ?_))
    exact mem_keys_mergeCustomPolicy.mpr (.inr hk)
  · intro h k hk
    rcases Value.mem_keys_spread.mp hk with hk | hk
    · exact (mem_keys_mergeCustomPolicy.mp hk).elim id (h k)
    · have hsub : ∀ k ∈ clampedKeys, k ∈ agentPolicyKeys := by decide
      exact hsub k hk

end Clamped

namespace RemoteControlPlane

theorem updatedPolicy_eq_some (d : Deployment) {agent : RemoteAgentRecord} {value : Value}
    (hvalue : value.IsJson) {policy : Fields} (h : updatedPolicy d agent value = some policy) :
    ∃ timeout bytes,
      (((Value.obj (patchOf value)).member "maxActionTimeoutSeconds").orElse (.int 120)).toNumber
        d.platform.numberText = some timeout ∧
      (((Value.obj (patchOf value)).member "maxOutputBytes").orElse (.int 200000)).toNumber
        d.platform.numberText = some bytes ∧
      policy = clampedPolicy d agent (patchOf value) timeout bytes := by
  have hpatch := isJson_patchOf hvalue
  unfold updatedPolicy at h
  simp only [Option.bind_eq_bind, Option.bind_eq_some_iff] at h
  obtain ⟨timeout, htimeout, bytes, hbytes, h⟩ := h
  change ((Value.obj (mergeCustomPolicy (patchOf value))).member _).toNumber _ =
    _ at htimeout hbytes
  rw [member_mergeCustomPolicy hpatch (by decide)] at htimeout hbytes
  exact ⟨timeout, bytes, htimeout, hbytes, (Option.some.inj h).symm⟩

/-- **Which policies the agent accepts**, of those that a patch leads to. -/
theorem policy_accepted_iff (d : Deployment) {agent : RemoteAgentRecord} {value : Value}
    (hvalue : value.IsJson) {policy : Fields} (h : updatedPolicy d agent value = some policy) :
    (agentPolicySchema (Value.obj policy).transport).isSome ↔
      WellFormedPatch d agent (patchOf value) := by
  have hpatch := isJson_patchOf hvalue
  obtain ⟨timeout, bytes, htimeout, hbytes, hclamped⟩ := updatedPolicy_eq_some d hvalue h
  rw [hclamped]
  have hkeys := keys_clampedPolicy_iff d agent timeout bytes hpatch
  set patch := patchOf value with hpatchOf
  set policy := clampedPolicy d agent patch timeout bytes with hpolicy
  have hmember : ∀ k, (Value.obj policy).transport.member k =
      ((Value.obj policy).member k).transport :=
    Value.member_transport (isUndefined_clampedPolicy hpatch)
  -- the members that come from the merge
  have hprofile : (enumSchema agentProfileNames (·.text)
      ((Value.obj policy).transport.member "profile")).isSome ↔
        (Nullish ((Value.obj patch).member "profile") ∨
          ∃ p : AgentProfileName, (Value.obj patch).member "profile" = .str p.text) := by
    rw [hmember, member_clampedPolicy_of_merged hpatch (by decide) (by decide),
      enumSchema_transport_isSome AgentProfileName.mem_all AgentProfileName.text_injective]
    exact orElse_iff (P := fun v => ∃ p : AgentProfileName, v = .str p.text) ⟨.custom, rfl⟩ _
  have hcapabilities : (capabilityPolicySchema
      ((Value.obj policy).transport.member "capabilities")).isSome ↔
        ∀ e ∈ (((Value.obj patch).member "capabilities").orElse (.obj [])).ownMembers,
          e.1 ∈ remoteCapabilities.map (·.text) ∧ ∃ b, e.2 = .bool b := by
    rw [hmember, member_clampedPolicy_of_merged hpatch (by decide) (by decide)]
    exact capabilities_accepted_iff _
      (isJson_orElse_member hpatch "capabilities" ⟨⟨List.nodup_nil, trivial⟩, trivial⟩)
  have hlist : ∀ k ∈ ["allowPaths", "denyPaths", "allowServices", "allowContainers"],
      ((array string ((Value.obj policy).transport.member k)).isSome ↔
        (Nullish ((Value.obj patch).member k) ∨ ∃ ss, (Value.obj patch).member k =
          strings ss)) := by
    intro k hk
    have hin : k ∈ agentPolicyKeys ∧ k ∉ clampedKeys ∧
        ∃ ss, (Value.obj (mergedFields patch)).member k =
          ((Value.obj patch).member k).orElse (strings ss) := by
      simp only [List.mem_cons, List.not_mem_nil, or_false] at hk
      rcases hk with rfl | rfl | rfl | rfl <;> exact ⟨by decide, by decide, _, rfl⟩
    obtain ⟨hkey, hout, ss, hss⟩ := hin
    rw [hmember, member_clampedPolicy_of_merged hpatch hkey hout, hss,
      array_string_transport_isSome]
    exact orElse_iff (P := fun v => ∃ ss, v = strings ss) ⟨ss, rfl⟩ _
  -- the members that are clamped
  have hlimit : ∀ (k : String) (hi : ℕ) {n : JsNumber} {cap : ℤ} {v : Value},
      OrderedMap.find? (clampedFields d agent timeout bytes) k = some (.num (n.min (.ofInt cap))) →
      v.toNumber d.platform.numberText = some n → (hi : ℤ) ≤ JsNumber.maxSafeInteger →
      ((positiveIntMax hi ((Value.obj policy).transport.member k)).isSome ↔
        LimitWithin d.platform.numberText cap hi v) := by
    intro k hi n cap v hfind hv hhi
    rw [hmember, member_clampedPolicy_of_clamped hfind, positiveIntMax_transport_isSome hhi]
    constructor
    · exact fun hk => ⟨n, hv, hk⟩
    · rintro ⟨n', hn', hk⟩
      obtain rfl := Option.some.inj (hv.symm.trans hn')
      exact hk
  have houtput := hlimit "maxOutputBytes" 10000000 rfl hbytes (by decide)
  have htime := hlimit "maxActionTimeoutSeconds" 3600 rfl htimeout (by decide)
  have hversion : (positiveInt ((Value.obj policy).transport.member "version")).isSome ↔
      (agent.policyVersion + 1 : ℤ) ≤ JsNumber.maxSafeInteger := by
    rw [hmember, member_clampedPolicy_of_clamped (k := "version") rfl]
    show (positiveInt (.int (agent.policyVersion + 1 : ℕ))).isSome ↔ _
    rw [positiveInt_int_isSome]
    push_cast
    exact ⟨fun h => h.2, fun h => ⟨Nat.succ_pos _, h⟩⟩
  rw [agentPolicySchema_isSome_iff]
  constructor
  · rintro ⟨fs, hfs, hk, h₁, h₂, h₃, h₄, h₅, h₆, h₇, h₈, h₉⟩
    obtain rfl : Value.transportMembers policy = fs := Value.obj.inj hfs
    refine ⟨hkeys.mp hk, hprofile.mp h₁, hcapabilities.mp h₂, fun k hin => (hlist k hin).mp ?_,
      houtput.mp h₇, htime.mp h₈, hversion.mp h₉⟩
    simp only [List.mem_cons, List.not_mem_nil, or_false] at hin
    rcases hin with rfl | rfl | rfl | rfl
    · exact h₃
    · exact h₄
    · exact h₅
    · exact h₆
  · intro h
    exact ⟨_, rfl, hkeys.mpr h.keys, hprofile.mpr h.profile, hcapabilities.mpr h.capabilities,
      (hlist _ (by decide)).mpr (h.lists _ (by decide)),
      (hlist _ (by decide)).mpr (h.lists _ (by decide)),
      (hlist _ (by decide)).mpr (h.lists _ (by decide)),
      (hlist _ (by decide)).mpr (h.lists _ (by decide)), houtput.mpr h.outputLimit,
      htime.mpr h.timeLimit, hversion.mpr h.version⟩

/-- A policy update on the wire is accepted when its policy and its version are. -/
theorem policyUpdateEnvelope_accepted_iff (platform : Platform) {e : PolicyUpdateEnvelope Value}
    {fs : Fields} (hpolicy : e.policy = .obj fs) (hid : e.agent_id ≠ "")
    (hdate : platform.isDatetime e.issued_at = true) (hnonce : 16 ≤ JsText.length e.nonce)
    (hsignature : e.signature ≠ "") :
    (policyUpdateEnvelopeSchema platform (Value.obj (e.toFields id)).transport).isSome ↔
      (agentPolicySchema e.policy.transport).isSome ∧
        (positiveInt (.int e.policy_version)).isSome := by
  have htransport : (Value.obj (e.toFields id)).transport =
      .obj [("type", .str "policy.update"), ("agent_id", .str e.agent_id),
        ("policy", e.policy.transport), ("policy_version", .int e.policy_version),
        ("issued_at", .str e.issued_at), ("nonce", .str e.nonce),
        ("signature", .str e.signature)] := by
    rw [PolicyUpdateEnvelope.toFields, hpolicy]
    rfl
  have hid' := JsText.one_le_length hid
  have hsignature' := JsText.one_le_length hsignature
  rw [htransport]
  set ms : Fields := [("type", .str "policy.update"), ("agent_id", .str e.agent_id),
    ("policy", e.policy.transport), ("policy_version", .int e.policy_version),
    ("issued_at", .str e.issued_at), ("nonce", .str e.nonce), ("signature", .str e.signature)]
    with hms
  have hkeys : ∀ f ∈ ms, f.1 ∈ policyUpdateKeys := by
    intro f hf
    exact List.mem_map_of_mem (f := Prod.fst) hf
  have htype : literal "policy.update" ((Value.obj ms).member "type") = some () := rfl
  have hagent : stringMin 1 ((Value.obj ms).member "agent_id") = some e.agent_id := if_pos hid'
  have hissued : stringWhere platform.isDatetime ((Value.obj ms).member "issued_at") =
      some e.issued_at := if_pos hdate
  have hnonce' : stringMin 16 ((Value.obj ms).member "nonce") = some e.nonce := if_pos hnonce
  have hsigned : stringMin 1 ((Value.obj ms).member "signature") = some e.signature :=
    if_pos hsignature'
  have hmpolicy : (Value.obj ms).member "policy" = e.policy.transport := rfl
  have hmversion : (Value.obj ms).member "policy_version" = .int e.policy_version := rfl
  constructor
  · intro h
    obtain ⟨u, hu⟩ := Option.isSome_iff_exists.mp h
    simp only [policyUpdateEnvelopeSchema, strict_obj hkeys, Option.bind_eq_bind,
      Option.bind_eq_some_iff] at hu
    obtain ⟨o, ho, -, -, -, -, policy, hpol, version, hver, -⟩ := hu
    obtain rfl := Option.some.inj ho
    rw [hmpolicy] at hpol
    rw [hmversion] at hver
    exact ⟨Option.isSome_of_eq_some hpol, Option.isSome_of_eq_some hver⟩
  · rintro ⟨hpol, hver⟩
    obtain ⟨policy, hpol⟩ := Option.isSome_iff_exists.mp hpol
    obtain ⟨version, hver⟩ := Option.isSome_iff_exists.mp hver
    simp only [policyUpdateEnvelopeSchema, strict_obj hkeys, htype, hagent, hmpolicy, hpol,
      hmversion, hver, hissued, hnonce', hsigned, Option.bind_eq_bind, Option.bind_some]
    rfl

/-- What `updateAgentPolicy` returns is the record it has written. -/
theorem updateAgentPolicy_eq_ok {d : Deployment} {m : Moment} {s : RemoteControlPlane}
    {principal : RemotePrincipal} {agent updated : RemoteAgentRecord} {value : Value}
    (h : (s.updateAgentPolicy d m principal agent value).1 = .ok updated) :
    ∃ policy, updatedPolicy d agent value = some policy ∧
      policyRecord d m agent policy = updated := by
  unfold updateAgentPolicy at h
  split at h
  · exact absurd h (by simp)
  · split at h
    · exact absurd h (by simp)
    · next policy hpolicy =>
      simp only at h
      split at h
      · exact absurd h (by simp)
      · exact ⟨policy, hpolicy, Except.ok.inj h⟩

/-- **When a stored update can be installed.** The policy that an update stores and the envelope
that carries it are accepted by the agent's schemas exactly when the patch is well formed. The
hypotheses about the platform are that a token has sixteen characters, that the text of a time is a
time, and that signatures are not empty; an agent's id never is either. -/
theorem policy_update_installable_iff (d : Deployment) (m : Moment) (s : RemoteControlPlane)
    (principal : RemotePrincipal) (agent updated : RemoteAgentRecord) (value : Value)
    (hvalue : value.IsJson) (hid : agent.id ≠ "")
    (hkeys : KeyPair d.platform d.controlPlaneKeyPair.publicKeyPem
      d.controlPlaneKeyPair.privateKeyPem)
    (hdate : d.platform.isDatetime (nowIso d m) = true) (htoken : 16 ≤ JsText.length m.token)
    (hstored : (s.updateAgentPolicy d m principal agent value).1 = .ok updated) :
    ((agentPolicySchema updated.policy.transport).isSome ∧
      (policyUpdateEnvelopeSchema d.platform
        (Value.obj ((policyUpdateEnvelope d m updated).toFields id)).transport).isSome) ↔
      WellFormedPatch d agent (patchOf value) := by
  obtain ⟨policy, hpolicy, rfl⟩ := updateAgentPolicy_eq_ok hstored
  have hpolicyIff := policy_accepted_iff d hvalue hpolicy
  rw [policyUpdateEnvelope_accepted_iff d.platform rfl hid hdate htoken (hkeys.sign_ne _)]
  constructor
  · rintro ⟨h, -⟩
    exact hpolicyIff.mp h
  · intro h
    refine ⟨hpolicyIff.mpr h, hpolicyIff.mpr h, ?_⟩
    show (positiveInt (.int (agent.policyVersion + 1 : ℕ))).isSome
    rw [positiveInt_int_isSome]
    push_cast
    exact ⟨Nat.succ_pos _, h.version⟩

/-- **A stored policy that its agent refuses**: the patch has a member that a policy has not. -/
theorem unknown_member_stored :
    ((start sampleStore).updateAgentPolicy sampleDeployment (sampleMoment 1) sampleOwner sampleAgent
      (.obj [("note", .null)])).1.toOption.map
        (fun updated => (agentPolicySchema updated.policy.transport).isSome) = some false := by
  decide +kernel

/-- A patch that takes a capability and a path away, and gives actions less time. -/
def narrowingPatch : Fields :=
  [("capabilities", .obj [("shell.exec", .bool false)]), ("denyPaths", strings ["/etc"]),
    ("maxActionTimeoutSeconds", .int 30)]

def narrowedRecord : RemoteAgentRecord :=
  policyRecord sampleDeployment (sampleMoment 1) sampleAgent
    (clampedPolicy sampleDeployment sampleAgent narrowingPatch (.fin 30) (.fin 200000))

/-- The criterion for a patch that narrows a policy. -/
theorem policy_update_installable_iff_narrowing :
    ((agentPolicySchema narrowedRecord.policy.transport).isSome ∧
      (policyUpdateEnvelopeSchema samplePlatform
        (Value.obj ((policyUpdateEnvelope sampleDeployment (sampleMoment 1) narrowedRecord).toFields
          id)).transport).isSome) ↔ WellFormedPatch sampleDeployment sampleAgent
            narrowingPatch := by
  have hjson : (Value.obj narrowingPatch).IsJson := by
    refine ⟨?_, ?_⟩
    · simp [narrowingPatch, strings, Value.int, Value.WellKeyed, Value.WellKeyedMembers,
        Value.WellKeyedElements]
    · simp [narrowingPatch, strings, Value.int, Value.Defined, Value.DefinedMembers,
        Value.DefinedElements]
  exact policy_update_installable_iff sampleDeployment (sampleMoment 1)
    (start sampleStore) sampleOwner
    sampleAgent narrowedRecord (.obj narrowingPatch) hjson (by decide)
    (keyPair_samplePlatform "plane") (by decide) (by decide) rfl

end RemoteControlPlane
end Remote
