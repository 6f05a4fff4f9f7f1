import McpSshTool.Remote.Enrollment
import McpSshTool.Remote.PolicyPatch

/-!
# The limits of stored policies

Whether the policies that a control plane stores stay within the limits it is configured with.

* `WithinLimits` — the two limits of a stored policy are numbers, none above the configured one;
* `Limited` — every stored policy is within the limits;
* `KeepsLimits` — the condition on a step: a created agent takes the defaults of the policy as they
  are, so the configuration must allow them; an update cuts its limits down, if they are numbers
  that can be compared;
* `policies_within_limits_iff` — one holds all along a run exactly when all its steps meet the
  other.
-/

open Library

namespace Remote

/-! ### Limits -/

/-- The value is a number of at most `cap`. -/
def AtMost (cap : ℤ) (v : Value) : Prop := ∃ q : ℚ, v = .num (.fin q) ∧ q ≤ cap

/-- The number that the value converts to can be cut down: it is neither `NaN` nor `-Infinity`,
which JSON has no number for. -/
def Comparable (nt : NumberText) (v : Value) : Prop :=
  ∃ n, v.toNumber nt = some n ∧ n ≠ .nan ∧ n ≠ .negInf

/-- **A policy within the limits** of a configuration. -/
def WithinLimits (config : RemoteConfig) (policy : Value) : Prop :=
  AtMost config.maxOutputBytes (policy.member "maxOutputBytes") ∧
    AtMost config.maxActionTimeoutSeconds (policy.member "maxActionTimeoutSeconds")

theorem atMost_int {cap n : ℤ} : AtMost cap (.int n) ↔ n ≤ cap := by
  constructor
  · rintro ⟨q, hq, hle⟩
    obtain rfl : (n : ℚ) = q := JsNumber.fin.inj (Value.num.inj hq)
    exact_mod_cast hle
  · intro h
    exact ⟨n, rfl, by exact_mod_cast h⟩

/-- **A number cut down** is stored as one of at most the cap, unless it is `NaN` or `-Infinity`. -/
theorem atMost_min {cap : ℤ} {n : JsNumber} :
    AtMost cap (Value.num (n.min (.ofInt cap))).transport ↔ n ≠ .nan ∧ n ≠ .negInf := by
  cases n with
  | nan =>
    refine iff_of_false ?_ fun h => h.1 rfl
    rintro ⟨q, hq, -⟩
    cases hq
  | negInf =>
    refine iff_of_false ?_ fun h => h.2 rfl
    rintro ⟨q, hq, -⟩
    cases hq
  | posInf => exact iff_of_true ⟨cap, rfl, le_refl _⟩ ⟨nofun, nofun⟩
  | fin p =>
    refine iff_of_true ⟨if p ≤ cap then p else cap, rfl, ?_⟩ ⟨nofun, nofun⟩
    split
    · next h => exact h
    · exact le_refl _

theorem comparable_iff {nt : NumberText} {v : Value} {n : JsNumber} (h : v.toNumber nt = some n) :
    Comparable nt v ↔ n ≠ .nan ∧ n ≠ .negInf := by
  unfold Comparable
  rw [h]
  constructor
  · rintro ⟨n', hn', hfinite⟩
    obtain rfl := Option.some.inj hn'
    exact hfinite
  · exact fun hfinite => ⟨n, rfl, hfinite⟩

/-! ### The two ways into the store -/

/-- **The policy of a profile** is within the limits of a configuration that allows the defaults. -/
theorem withinLimits_createAgentPolicy {config : RemoteConfig} (profile : AgentProfileName) :
    WithinLimits config (Value.obj (createAgentPolicy (.str profile.text))).transport ↔
      200000 ≤ config.maxOutputBytes ∧ 120 ≤ config.maxActionTimeoutSeconds := by
  have hbytes : (Value.obj (createAgentPolicy (.str profile.text))).transport.member
      "maxOutputBytes" = .int 200000 := by
    cases profile <;> rfl
  have hseconds : (Value.obj (createAgentPolicy (.str profile.text))).transport.member
      "maxActionTimeoutSeconds" = .int 120 := by
    cases profile <;> rfl
  unfold WithinLimits
  rw [hbytes, hseconds, atMost_int, atMost_int]

theorem member_mergeCustomPolicy_limit (patch : Fields) {k : String}
    (hk : k = "maxOutputBytes" ∨ k = "maxActionTimeoutSeconds") :
    (Value.obj (mergeCustomPolicy patch)).member k = patchField patch k := by
  rw [mergeCustomPolicy, Value.member_obj, Value.find?_spread_obj _ (nodup_mergedFields patch)]
  rcases hk with rfl | rfl <;> rfl

namespace RemoteControlPlane

variable {d : Deployment} {agent : RemoteAgentRecord} {value : Value} {policy : Fields}

/-- **The policy of an update** is within the limits exactly when the limits of its patch can be
compared with them. -/
theorem withinLimits_updatedPolicy (h : updatedPolicy d agent value = some policy) :
    WithinLimits d.config (Value.obj policy).transport ↔
      Comparable d.platform.numberText (patchField (patchOf value) "maxOutputBytes") ∧
        Comparable d.platform.numberText
          (patchField (patchOf value) "maxActionTimeoutSeconds") := by
  unfold updatedPolicy at h
  simp only [Option.bind_eq_bind, Option.bind_eq_some_iff] at h
  obtain ⟨seconds, hseconds, bytes, hbytes, h⟩ := h
  change ((Value.obj (mergeCustomPolicy (patchOf value))).member _).toNumber _ =
    _ at hseconds hbytes
  rw [member_mergeCustomPolicy_limit _ (.inr rfl)] at hseconds
  rw [member_mergeCustomPolicy_limit _ (.inl rfl)] at hbytes
  have hclamped : policy = clampedPolicy d agent (patchOf value) seconds bytes :=
    (Option.some.inj h).symm
  have hnodup : (policy.map Prod.fst).Nodup := by
    rw [hclamped]
    exact Value.nodup_spread (nodup_mergeCustomPolicy _) _
  unfold WithinLimits
  rw [Value.member_transport_of_nodup hnodup, Value.member_transport_of_nodup hnodup, hclamped,
    member_clampedPolicy_of_clamped (v := .num (bytes.min (.ofInt d.config.maxOutputBytes))) rfl,
    member_clampedPolicy_of_clamped
      (v := .num (seconds.min (.ofInt d.config.maxActionTimeoutSeconds))) rfl,
    atMost_min, atMost_min, comparable_iff hbytes, comparable_iff hseconds]

/-! ### Steps and runs -/

variable (d)

/-- **Every stored policy is within the limits.** -/
def Limited (s : RemoteControlPlane) : Prop :=
  ∀ a v, s.view a = some v → WithinLimits d.config v.policy

/-- **A step keeps the limits**: if it creates an agent the configuration allows the defaults of a
policy, and if it stores a policy of a patch the patch has limits that can be compared. -/
def KeepsLimits (s : RemoteControlPlane) (e : Step) : Prop :=
  (CreatesAgent s e → 200000 ≤ d.config.maxOutputBytes ∧ 120 ≤ d.config.maxActionTimeoutSeconds) ∧
    ∀ principal agent value policy, s.updateRequest e = some (principal, agent, value) →
      updatedPolicy d agent value = some policy → Stores d e.moment s principal agent policy →
        s.view agent.id ≠ none →
          Comparable d.platform.numberText (patchField (patchOf value) "maxOutputBytes") ∧
            Comparable d.platform.numberText
              (patchField (patchOf value) "maxActionTimeoutSeconds")

variable {d} {s : RemoteControlPlane} {e : Step}

/-- An update that goes through leaves its policy in the view of its agent. -/
theorem view_of_stores {principal : RemotePrincipal}
    (hrequest : s.updateRequest e = some (principal, agent, value))
    (hpolicy : updatedPolicy d agent value = some policy)
    (hstores : Stores d e.moment s principal agent policy) (hstored : s.view agent.id ≠ none) :
    ∃ v, (s.step d e).view agent.id = some v ∧ v.policy = (Value.obj policy).transport := by
  obtain ⟨old, hold⟩ := Option.ne_none_iff_exists'.mp hstored
  obtain ⟨patches, hstep⟩ := step_of_updateRequest (d := d) hrequest
  rcases updateAgentPolicy_cases d e.moment principal agent value { s with patches := patches } with
    ⟨policy', hpolicy', -, -, h⟩ | ⟨hnone, -⟩
  · obtain rfl := Option.some.inj (hpolicy.symm.trans hpolicy')
    have hold : ({ s with patches := patches } : RemoteControlPlane).view agent.id = some old :=
      hold
    rw [hstep, h.view, if_pos rfl, hold]
    exact ⟨_, rfl, rfl⟩
  · exact absurd hstores (hnone policy hpolicy)

/-- **One step.** From limited policies a step leads to limited policies exactly when it keeps the
limits. -/
theorem limited_step_iff (hs : Limited d s) : Limited d (s.step d e) ↔ KeepsLimits d s e := by
  constructor
  · intro h
    refine ⟨fun hcreates => ?_, fun principal agent value policy hrequest hpolicy hstores hstored =>
      ?_⟩
    · obtain ⟨userId, profile, hview⟩ := view_of_createsAgent d hcreates
      exact (withinLimits_createAgentPolicy profile).mp
        (h (freshId e.moment "agt") _ (by rw [hview, if_pos rfl]))
    · obtain ⟨v, hv, hvpolicy⟩ := view_of_stores hrequest hpolicy hstores hstored
      rw [← withinLimits_updatedPolicy hpolicy, ← hvpolicy]
      exact h agent.id v hv
  · rintro ⟨hcreates, hupdates⟩ a v hv
    cases step_cases d s e with
    | quiet h => exact hs a v ((view_eq_of_ledger h a).symm.trans hv)
    | created agent profile _ hfree hview =>
      have hcreated : CreatesAgent s e :=
        createsAgent_of_view (d := d) hfree (by rw [hview, if_pos rfl]; exact Option.some_ne_none _)
      rw [hview] at hv
      split at hv
      · obtain rfl := Option.some.inj hv
        exact (withinLimits_createAgentPolicy profile).mpr (hcreates hcreated)
      · exact hs a v hv
    | policyStored principal agent value policy hrequest hpolicy hstores h =>
      rw [h.view] at hv
      split at hv
      · next ha =>
        obtain ⟨old, hold, rfl⟩ := Option.map_eq_some_iff.mp hv
        subst ha
        exact (withinLimits_updatedPolicy hpolicy).mpr
          (hupdates principal agent value policy hrequest hpolicy hstores
            (by rw [hold]; exact Option.some_ne_none _))
      · exact hs a v hv
    | revoked agent hagent hview =>
      rw [hview] at hv
      split at hv
      · obtain rfl := Option.some.inj hv
        -- a revocation writes the policy that is there
        exact hs agent.id (viewOf agent) (view_of_getAgent hagent)
      · exact hs a v hv
    | dispatched _ _ _ _ _ _ _ _ _ _ _ hview =>
      rw [hview] at hv
      exact hs a v hv

theorem limited_start_empty : Limited d (start RemoteStore.empty) := by
  intro a v hv
  cases hv

variable (d)

/-- **When stored policies stay within the configured limits.** Under every configuration, from
every state whose policies are within the limits, all policies stay within them exactly when all
steps keep them. -/
theorem policies_within_limits_iff (s : RemoteControlPlane) (es : List Step) (hs : Limited d s) :
    Run.Along (step d) (Limited d) s es ↔ Run.AllSteps (step d) (KeepsLimits d) s es :=
  Run.along_iff_allSteps (fun _ _ => limited_step_iff) hs

/-- From an empty store. -/
theorem policies_within_limits_iff_empty :
    Run.Along (step sampleDeployment) (Limited sampleDeployment) (start RemoteStore.empty)
        [⟨.createEnrollmentToken sampleOwner webArguments, sampleMoment 1⟩] ↔
      Run.AllSteps (step sampleDeployment) (KeepsLimits sampleDeployment) (start RemoteStore.empty)
        [⟨.createEnrollmentToken sampleOwner webArguments, sampleMoment 1⟩] :=
  policies_within_limits_iff sampleDeployment _ _ limited_start_empty

/-- The sample deployment, with less output allowed than the policy of a profile has. -/
def strictDeployment : Deployment :=
  { sampleDeployment with config := { sampleDeployment.config with maxOutputBytes := 1000 } }

/-- **A created agent stores 200000 bytes** under a configuration that allows 1000. -/
theorem created_agent_exceeds_limits :
    ¬Run.Along (step strictDeployment) (Limited strictDeployment) (start RemoteStore.empty)
      [⟨.createEnrollmentToken sampleOwner webArguments, sampleMoment 1⟩] := by
  rintro ⟨-, hlimited⟩
  have hcreates : CreatesAgent (start RemoteStore.empty)
      ⟨.createEnrollmentToken sampleOwner webArguments, sampleMoment 1⟩ := by
    refine ⟨sampleOwner, webArguments, "web", rfl, by decide +kernel, rfl, rfl, rfl, ?_⟩
    rintro agent ⟨hagent, -⟩
    cases hagent
  have hallows := ((limited_step_iff limited_start_empty).mp hlimited).1 hcreates
  exact absurd hallows.1 (by decide)

end RemoteControlPlane
end Remote
