import McpSshTool.Library.Run
import McpSshTool.Remote.Agent

/-!
# Policy rollback

Whether the version of the installed policy can decrease. An agent installs every update that names
it and that the control plane has signed; it looks neither at the version nor at the age of an
update.

* `genuineVersions` — the versions of the genuine updates among some messages, in their order;
* `version_never_decreases_iff` — the installed version never decreases exactly when the genuine
  updates are delivered in the order of their versions.
-/

open Library

namespace Remote
namespace AgentProcess

variable (platform : Platform)

/-- The version of the policy that an agent has installed. -/
def installedVersion (p : AgentProcess) : ℕ := p.config.policy.version

/-- The version of the policy in a message, if the message is a genuine update. -/
def genuineVersion (config : AgentConfig) (d : Delivery) : Option ℕ :=
  ((updateOf platform d.payload).filter fun update =>
    decide (GenuineUpdate platform config update)).map fun update => update.policy.version

/-- The versions of the genuine updates among some messages, in the order of delivery. -/
def genuineVersions (config : AgentConfig) (ds : List Delivery) : List ℕ :=
  ds.filterMap (genuineVersion platform config)

variable {platform} {p : AgentProcess} {d : Delivery}

theorem genuineVersion_eq_some_iff {config : AgentConfig} {version : ℕ} :
    genuineVersion platform config d = some version ↔
      ∃ update, updateOf platform d.payload = some update ∧
        GenuineUpdate platform config update ∧ update.policy.version = version := by
  unfold genuineVersion
  rw [Option.map_eq_some_iff]
  constructor
  · rintro ⟨update, hupdate, hversion⟩
    obtain ⟨hread, hgenuine⟩ := Option.filter_eq_some_iff.mp hupdate
    exact ⟨update, hread, of_decide_eq_true hgenuine, hversion⟩
  · rintro ⟨update, hread, hgenuine, hversion⟩
    exact ⟨update, Option.filter_eq_some_iff.mpr ⟨hread, decide_eq_true hgenuine⟩, hversion⟩

theorem genuineVersion_onmessage (d' : Delivery) :
    genuineVersion platform (p.onmessage platform d).config d' =
      genuineVersion platform p.config d' := by
  have hgenuine : ∀ update, GenuineUpdate platform (p.onmessage platform d).config update ↔
      GenuineUpdate platform p.config update := by
    intro update
    rw [onmessage_identity]
    rfl
  unfold genuineVersion
  simp only [hgenuine]

/-- **One message installs the version it carries**, if it is a genuine update. -/
theorem installedVersion_onmessage :
    (p.onmessage platform d).installedVersion =
      (genuineVersion platform p.config d).getD p.installedVersion := by
  rcases onmessage_cases platform p d with ⟨update, h, hstep⟩ | ⟨action, h, hstep⟩ |
    ⟨hinstalls, -, hstep⟩
  · rw [hstep, genuineVersion_eq_some_iff.mpr ⟨update, h.1, h.2, rfl⟩]
    rfl
  · have hnone : genuineVersion platform p.config d = none := by
      refine Option.eq_none_iff_forall_ne_some.mpr fun version hversion => ?_
      obtain ⟨update, hread, -⟩ := genuineVersion_eq_some_iff.mp hversion
      exact absurd (h.request.symm.trans (requestOf_of_updateOf hread)) (by simp)
    rw [hstep, hnone]
    rfl
  · have hnone : genuineVersion platform p.config d = none := by
      refine Option.eq_none_iff_forall_ne_some.mpr fun version hversion => ?_
      obtain ⟨update, hread, hgenuine, -⟩ := genuineVersion_eq_some_iff.mp hversion
      exact hinstalls update ⟨hread, hgenuine⟩
    rw [hstep, hnone]
    rfl

theorem genuineVersions_onmessage (ds : List Delivery) :
    genuineVersions platform (p.onmessage platform d).config ds =
      genuineVersions platform p.config ds :=
  List.filterMap_congr fun d' _ => genuineVersion_onmessage d'

theorem genuineVersions_cons (config : AgentConfig) (ds : List Delivery) :
    genuineVersions platform config (d :: ds) =
      (genuineVersion platform config d).toList ++ genuineVersions platform config ds := by
  unfold genuineVersions
  rw [List.filterMap_cons]
  cases genuineVersion platform config d <;> rfl

/-- **A run installs the last version it carries.** -/
theorem installedVersion_run (p : AgentProcess) (ds : List Delivery) :
    (Run.run (onmessage platform) p ds).installedVersion =
      (genuineVersions platform p.config ds).getLastD p.installedVersion := by
  induction ds generalizing p with
  | nil => rfl
  | cons d ds ih =>
    rw [Run.run_cons, ih, genuineVersions_onmessage, genuineVersions_cons,
      installedVersion_onmessage]
    cases genuineVersion platform p.config d with
    | none => rfl
    | some version =>
      show _ = (version :: genuineVersions platform p.config ds).getLastD _
      rw [List.getLastD_cons]
      rfl

/-- Along a run every step keeps the version or raises it exactly when the versions delivered are in
order, from the installed one on. -/
theorem allSteps_installedVersion_iff (p : AgentProcess) (ds : List Delivery) :
    Run.AllSteps (onmessage platform)
        (fun p d => p.installedVersion ≤ (p.onmessage platform d).installedVersion) p ds ↔
      (p.installedVersion :: genuineVersions platform p.config ds).IsChain (· ≤ ·) := by
  induction ds generalizing p with
  | nil => exact ⟨fun _ => List.IsChain.singleton _, fun _ => trivial⟩
  | cons d ds ih =>
    have hstep : (p.onmessage platform d).installedVersion =
        (genuineVersion platform p.config d).getD p.installedVersion :=
      installedVersion_onmessage
    rw [Run.AllSteps, ih, genuineVersions_onmessage, genuineVersions_cons]
    cases hversion : genuineVersion platform p.config d with
    | none =>
      rw [hversion, Option.getD_none] at hstep
      rw [hstep]
      exact ⟨fun h => h.2, fun h => ⟨le_refl _, h⟩⟩
    | some =>
      rw [hversion, Option.getD_some] at hstep
      rw [hstep]
      exact List.isChain_cons_cons.symm

/-- **When there is no rollback.** The version of the installed policy never decreases along a run
of messages exactly when the genuine updates among them come in the order of their versions, the
first no older than the policy installed at the start. -/
theorem version_never_decreases_iff (p : AgentProcess) (ds : List Delivery) :
    Run.NeverDecreases installedVersion (onmessage platform) p ds ↔
      (p.installedVersion :: genuineVersions platform p.config ds).Pairwise (· ≤ ·) := by
  rw [Run.neverDecreases_iff_allSteps, allSteps_installedVersion_iff, List.isChain_iff_pairwise]

/-! ### A replayed update -/

/-- An update of the sample agent to the profile `read-only`, as the control plane signs it. -/
def sampleUpdate (version : ℕ) : PolicyUpdateEnvelope AgentPolicy :=
  let update : PolicyUpdateEnvelope AgentPolicy :=
    { agent_id := "agt_1"
      policy := { profilePolicy .readOnly with version := version }
      policy_version := version
      issued_at := "1970-01-01T00:00:00.000Z"
      nonce := "0123456789abcdef"
      signature := "" }
  { update with
    signature :=
      signEnvelope samplePlatform (update.toFields fun policy => .obj policy.toFields) "plane" }

/-- The object that an update is on the wire. -/
def updateFields (update : PolicyUpdateEnvelope AgentPolicy) : Fields :=
  update.toFields fun policy => .obj policy.toFields

theorem genuineVersion_sampleUpdate {version : ℕ} (hpos : 0 < version)
    (hmax : (version : ℤ) ≤ JsNumber.maxSafeInteger) (t : ℤ) :
    genuineVersion samplePlatform sampleConfig
      (arriving (updateFields (sampleUpdate version)) t) = some version := by
  have hprofile : (profilePolicy .readOnly).InRange :=
    ⟨⟨by decide, by decide⟩, ⟨by decide, by decide⟩, ⟨by decide, by decide⟩⟩
  have hissued : samplePlatform.isDatetime "1970-01-01T00:00:00.000Z" = true := by decide +kernel
  have hnonce : 16 ≤ JsText.length "0123456789abcdef" := by decide
  have hread : policyUpdateEnvelopeSchema samplePlatform
      (.obj (updateFields (sampleUpdate version))) = some (sampleUpdate version) :=
    policyUpdateEnvelopeSchema_toFields (show "agt_1" ≠ "" by decide)
      ⟨hprofile.maxOutputBytes, hprofile.maxActionTimeoutSeconds, hpos, hmax⟩ ⟨hpos, hmax⟩
      hissued hnonce ((keyPair_samplePlatform "plane").sign_ne _)
  refine genuineVersion_eq_some_iff.mpr ⟨sampleUpdate version, ?_, ⟨rfl, ?_⟩, rfl⟩
  · exact hread
  · have hnodup : ((updateFields (sampleUpdate version)).map Prod.fst).Nodup := by
      show policyUpdateKeys.Nodup
      decide
    exact verifyEnvelope_of_signed (keyPair_samplePlatform "plane") hnodup hnodup
      (fun _ _ => rfl) rfl

/-- **A rollback**: the update to version 2 is delivered once more after the update to version 3. -/
theorem version_decreases :
    ¬ Run.NeverDecreases installedVersion (onmessage samplePlatform) (start sampleConfig)
      [arriving (updateFields (sampleUpdate 2)) 0, arriving (updateFields (sampleUpdate 3)) 1,
        arriving (updateFields (sampleUpdate 2)) 2] := by
  intro h
  have hrollback := h [arriving (updateFields (sampleUpdate 2)) 0,
    arriving (updateFields (sampleUpdate 3)) 1] [arriving (updateFields (sampleUpdate 2)) 2]
    List.prefix_rfl
  have hversion : ∀ {version : ℕ} {t : ℤ}, 0 < version → (version : ℤ) ≤ 3 →
      genuineVersion samplePlatform (start sampleConfig).config
        (arriving (updateFields (sampleUpdate version)) t) = some version := by
    intro version t hpos hmax
    exact genuineVersion_sampleUpdate hpos (hmax.trans (by decide)) t
  rw [installedVersion_run, installedVersion_run, List.cons_append, List.cons_append,
    List.nil_append, genuineVersions_cons, genuineVersions_cons, genuineVersions_cons,
    genuineVersions_cons, genuineVersions_cons, hversion (by decide) (by decide),
    hversion (by decide) (by decide), hversion (by decide) (by decide)] at hrollback
  exact absurd hrollback (by decide)

end AgentProcess
end Remote
