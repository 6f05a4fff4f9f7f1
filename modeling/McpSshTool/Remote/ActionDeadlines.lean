import McpSshTool.Remote.ActionLifecycle

/-!
# The deadlines of actions

Whether a dispatched action has time: its deadline comes after the clock, and no later than the
limits of the policy and of the configuration allow.

* `deadlineTime` — the time that `new Date(now + seconds * 1000)` stands for, `le_deadlineTime_iff`;
* `policyLimit`, `requestedSeconds` — the numbers that the timeout is the least of, with the limit
  of the configuration;
* `Sane` — a deadline that lies in between;
* `deadline_sane_iff` — a dispatched action has a sane deadline exactly when its timeout `HasTime`.

The arguments of a call are not checked against the input schema of the tool, which asks for one
second at least. The product and the sum are doubles, so that a deadline may be a millisecond late.
-/

open Library

namespace Remote

open RemoteControlPlane (milliseconds)

/-! ### Times -/

/-- The time of `new Date(now + seconds * 1000)`; `none` where it is none. -/
def deadlineTime (now : ℤ) : JsNumber → Option ℤ
  | .fin q =>
    let t := Double.round (now + milliseconds q)
    if |t| ≤ 8640000000000000 then some (if t < 0 then t.ceil else t.floor) else none
  | _ => none

theorem deadlineText_eq_map (platform : Platform) (now : ℤ) (seconds : JsNumber) :
    RemoteControlPlane.deadlineText platform now seconds =
      (deadlineTime now seconds).map platform.toISOString := by
  unfold RemoteControlPlane.deadlineText deadlineTime
  cases seconds with
  | fin =>
    dsimp only
    split <;> rfl
  | _ => rfl

/-- The time is at most so many seconds after the clock. -/
def NotAfter (now time : ℤ) : JsNumber → Prop
  | .fin q => (time : ℚ) ≤ now + q * 1000
  | _ => False

/-- **A sane deadline**: strictly after the clock, and no later than the limit. -/
def Sane (now time : ℤ) (limit : JsNumber) : Prop := now < time ∧ NotAfter now time limit

/-- **The timeout has time**: added to the clock, its milliseconds come so near to the next one that
no double is nearer, and not so near to the first one that is past the limit. -/
def HasTime (now : ℤ) : JsNumber → JsNumber → Prop
  | .fin q, .fin limit =>
    Double.Reaches (now + milliseconds q) (now + 1) ∧
      ¬Double.Reaches (now + milliseconds q) (now + ⌊limit * 1000⌋ + 1)
  | _, _ => False

/-- **Where a deadline lies**: it is not before a millisecond that the sum comes near to. -/
theorem le_deadlineTime_iff {now time n : ℤ} {q : ℚ} (h : deadlineTime now (.fin q) = some time)
    (hn : 1 ≤ n) : n ≤ time ↔ Double.Reaches (now + milliseconds q) n := by
  unfold deadlineTime at h
  dsimp only at h
  have hone : (1 : ℚ) ≤ n := by exact_mod_cast hn
  split at h
  · next habs =>
    have hle : Double.round (now + milliseconds q) < 2 ^ 53 :=
      ((le_abs_self _).trans habs).trans_lt (by norm_num)
    obtain rfl := Option.some.inj h
    have hround : (n : ℚ) ≤ Double.round (now + milliseconds q) ↔
        Double.Reaches (now + milliseconds q) n := by
      rcases le_or_gt (n : ℚ) (2 ^ 53) with hsmall | hlarge
      · exact Double.le_round_iff hn hsmall
      · -- no date is that late
        refine iff_of_false (by linarith) fun hreaches => ?_
        exact absurd (Double.le_round_of_reaches hreaches hlarge) (not_le_of_gt hle)
    rw [← hround]
    split
    · next hneg =>
      -- a time before 1970
      refine iff_of_false (not_le_of_gt ?_) (by linarith)
      have hceil : (Double.round (now + milliseconds q)).ceil ≤ 0 :=
        Rat.ceil_le_iff.mpr (by exact_mod_cast hneg.le)
      omega
    · show n ≤ ⌊Double.round (now + milliseconds q)⌋ ↔ _
      exact Int.le_floor
  · cases h

/-- A number below zero takes no time off the clock. -/
theorem deadlineTime_le {now time : ℤ} {q : ℚ} (hnow : 0 ≤ now) (hq : q < 0)
    (h : deadlineTime now (.fin q) = some time) : time ≤ now := by
  refine Int.not_lt.mp fun hlt => ?_
  have hreaches := (le_deadlineTime_iff h (Int.add_le_add_right hnow 1)).mp hlt
  have hround : milliseconds q ≤ 0 := Double.round_nonpos (by linarith)
  rcases le_or_gt ((now + 1 : ℤ) : ℚ) (2 ^ 53) with hsmall | hlarge
  · refine Double.not_reaches_of_le ?_ (Int.add_le_add_right hnow 1) hsmall hreaches
    push_cast
    linarith
  · -- the deadline is a date, and the clock is past all of them
    unfold deadlineTime at h
    dsimp only at h
    split at h
    · next habs =>
      have hlarge' := Double.le_round_of_reaches hreaches hlarge
      have hle := (le_abs_self _).trans habs
      norm_num at hlarge'
      linarith
    · cases h

/-- **When a deadline is sane**, for a timeout that is not above the limit. -/
theorem sane_iff {now time : ℤ} {q limit : ℚ} (hnow : 0 ≤ now) (hq : q ≤ limit)
    (h : deadlineTime now (.fin q) = some time) :
    Sane now time (.fin limit) ↔ HasTime now (.fin q) (.fin limit) := by
  have hlower : now < time ↔ Double.Reaches (now + milliseconds q) (now + 1) :=
    le_deadlineTime_iff h (Int.add_le_add_right hnow 1)
  have hupper : NotAfter now time (.fin limit) ↔ ¬now + ⌊limit * 1000⌋ + 1 ≤ time := by
    have hfloor : time - now ≤ ⌊limit * 1000⌋ ↔ (time : ℚ) ≤ now + limit * 1000 := by
      rw [Int.le_floor]
      push_cast
      exact sub_le_iff_le_add'
    exact hfloor.symm.trans (by omega)
  show now < time ∧ NotAfter now time (.fin limit) ↔
    Double.Reaches (now + milliseconds q) (now + 1) ∧
      ¬Double.Reaches (now + milliseconds q) (now + ⌊limit * 1000⌋ + 1)
  rw [← hlower, hupper]
  refine and_congr_right fun hlt => not_congr (le_deadlineTime_iff h ?_)
  -- a deadline after the clock has a limit that is not below zero
  have hpos : 0 ≤ q := not_lt.mp fun hneg => absurd hlt (not_lt_of_ge (deadlineTime_le hnow hneg h))
  have hfloor : 0 ≤ ⌊limit * 1000⌋ := Int.floor_nonneg.mpr (by linarith)
  omega

theorem js_min_assoc (a b c : JsNumber) : (a.min b).min c = a.min (b.min c) := by
  cases a <;> cases b <;> cases c <;> simp only [JsNumber.min]
  simp only [← min_def, min_assoc]

/-- A least number that is finite is not above a limit that is. -/
theorem le_of_js_min {a limit : JsNumber} {q : ℚ} (hlimit : limit ≠ .posInf)
    (h : a.min limit = .fin q) : ∃ l, limit = .fin l ∧ q ≤ l := by
  cases limit with
  | posInf => exact absurd rfl hlimit
  | fin l =>
    refine ⟨l, rfl, ?_⟩
    cases a with
    | fin =>
      obtain rfl := JsNumber.fin.inj h
      split
      · next hle => exact hle
      · exact le_rfl
    | posInf => exact (JsNumber.fin.inj h).ge
    | _ => cases h
  | _ => cases a <;> cases h

namespace RemoteControlPlane

/-! ### The timeout of an action -/

section Timeout

variable (d : Deployment) (agent : RemoteAgentRecord) (args : Fields)

/-- The number of seconds that the policy allows. -/
def policyLimit : Option JsNumber :=
  (agent.policy.member "maxActionTimeoutSeconds").toNumber d.platform.numberText

/-- The number of seconds that is asked for: the argument, or the limit of the policy. -/
def requestedSeconds : Option JsNumber :=
  (((Value.obj args).member "timeout_seconds").orElse
    (agent.policy.member "maxActionTimeoutSeconds")).toNumber d.platform.numberText

/-- The smaller of the limits of the policy and of the configuration. -/
def actionLimit (policy : JsNumber) : JsNumber :=
  policy.min (.ofInt d.config.maxActionTimeoutSeconds)

theorem dispatchTimeout_eq_some {seconds : JsNumber}
    (h : dispatchTimeout d agent args = some seconds) :
    ∃ wish policy, requestedSeconds d agent args = some wish ∧ policyLimit d agent = some policy ∧
      seconds = (wish.min policy).min (.ofInt d.config.maxActionTimeoutSeconds) := by
  unfold dispatchTimeout at h
  simp only [Option.bind_eq_bind, Option.bind_eq_some_iff] at h
  obtain ⟨wish, hwish, policy, hpolicy, h⟩ := h
  exact ⟨wish, policy, hwish, hpolicy, (Option.some.inj h).symm⟩

end Timeout

theorem actionLimit_ne_posInf (d : Deployment) (policy : JsNumber) :
    actionLimit d policy ≠ .posInf := by
  unfold actionLimit JsNumber.ofInt
  cases policy <;> exact nofun

/-! ### Dispatched actions -/

variable (d : Deployment) (m : Moment)

/-- **What a dispatch stores**: an action whose deadline is the text of a time. -/
theorem exists_action_of_dispatched {s : RemoteControlPlane} {principal : RemotePrincipal}
    {agent : RemoteAgentRecord} {tool : RemoteToolName} {capability : RemoteCapability}
    {args : Fields}
    {id : String} (h : (s.dispatchAction d m principal agent tool capability args).1 = .ok id) :
    ∃ action seconds time,
      (s.dispatchAction d m principal agent tool capability args).2.store.actions.get? id =
        some action ∧
      dispatchTimeout d agent args = some seconds ∧ deadlineTime m.later seconds = some time ∧
      action.deadline = d.platform.toISOString time := by
  cases dispatchAction_inversion d m s principal agent tool capability args with
  | refused _ heq =>
    rw [heq] at h
    cases h
  | sent live seconds deadline action store _ _ _ hseconds hdeadline _ _ hactionDeadline
      hstore heq =>
    rw [heq] at h ⊢
    obtain rfl : action.id = id := Except.ok.inj h
    rw [deadlineText_eq_map, Option.map_eq_some_iff] at hdeadline
    obtain ⟨time, htime, rfl⟩ := hdeadline
    obtain ⟨-, -, rfl⟩ := RemoteStore.insertAction_eq_ok hstore
    refine ⟨action, seconds, time, ?_, hseconds, htime, hactionDeadline⟩
    -- sending the request leaves the stored actions alone
    rw [(sameActions_of_routine (routine_sendJson d m _ _ _)).actions]
    exact OrderedMap.get?_set_self _ _ _

/-- **When the deadline of an action is sane.** Whatever the arguments, the policy and the limit of
the configuration: an action that is dispatched has a deadline after the clock and within the limits
exactly when the least of what is asked for and of the limits has time. -/
theorem deadline_sane_iff (hclock : 0 ≤ m.later)
    (s : RemoteControlPlane) (principal : RemotePrincipal) (agent : RemoteAgentRecord)
    (tool : RemoteToolName) (capability : RemoteCapability) (args : Fields) (id : String)
    (h : (s.dispatchAction d m principal agent tool capability args).1 = .ok id) :
    ∃ action seconds time wish policy,
      (s.dispatchAction d m principal agent tool capability args).2.store.actions.get? id =
        some action ∧
      dispatchTimeout d agent args = some seconds ∧ deadlineTime m.later seconds = some time ∧
      action.deadline = d.platform.toISOString time ∧
      requestedSeconds d agent args = some wish ∧ policyLimit d agent = some policy ∧
      (Sane m.later time (actionLimit d policy) ↔
        HasTime m.later (wish.min (actionLimit d policy)) (actionLimit d policy)) := by
  obtain ⟨action, seconds, time, hstored, hseconds, htime, hdeadline⟩ :=
    exists_action_of_dispatched d m h
  obtain ⟨wish, policy, hwish, hpolicy, hleast⟩ := dispatchTimeout_eq_some d agent args hseconds
  refine ⟨action, seconds, time, wish, policy, hstored, hseconds, htime, hdeadline, hwish,
    hpolicy, ?_⟩
  rw [js_min_assoc] at hleast
  change seconds = wish.min (actionLimit d policy) at hleast
  -- only a finite number of seconds gives a date
  cases seconds with
  | fin =>
    obtain ⟨limit, hlimit, hq⟩ := le_of_js_min (actionLimit_ne_posInf d policy) hleast.symm
    rw [← hleast, hlimit]
    exact sane_iff hclock hq htime
  | _ => cases htime

/-- The agent has connected and said hello. -/
def agentLive : RemoteControlPlane :=
  Run.run (step sampleDeployment) (start sampleStore)
    [⟨.connect 0, sampleMoment 0⟩, ⟨.message 0 (some (.obj sampleHello.toFields)), sampleMoment 0⟩]

/-- The agent is asked for the system status within so many seconds. -/
def statusWithin (seconds : ℚ) : Outcome String :=
  agentLive.dispatchAction sampleDeployment (sampleMoment 1) sampleOwner sampleAgent
    .get_system_status .systemRead [("timeout_seconds", .num (.fin seconds))]

theorem statusWithin_half : (statusWithin (1 / 2)).1 = .ok "act_1" := by decide +kernel

/-- The criterion where half a second is asked for. -/
theorem deadline_sane_iff_half :
    ∃ action seconds time wish policy,
      (statusWithin (1 / 2)).2.store.actions.get? "act_1" = some action ∧
      dispatchTimeout sampleDeployment sampleAgent [("timeout_seconds", .num (.fin (1 / 2)))] =
        some seconds ∧
      deadlineTime (sampleMoment 1).later seconds = some time ∧
      action.deadline = sampleDeployment.platform.toISOString time ∧
      requestedSeconds sampleDeployment sampleAgent
        [("timeout_seconds", .num (.fin (1 / 2)))] = some wish ∧
      policyLimit sampleDeployment sampleAgent = some policy ∧
      (Sane (sampleMoment 1).later time (actionLimit sampleDeployment policy) ↔
        HasTime (sampleMoment 1).later (wish.min (actionLimit sampleDeployment policy))
          (actionLimit sampleDeployment policy)) := by
  unfold statusWithin
  exact deadline_sane_iff sampleDeployment (sampleMoment 1) (by decide) agentLive
    sampleOwner sampleAgent .get_system_status .systemRead _ "act_1" statusWithin_half

/-- **A deadline that is over when the action is sent**: no time is asked for. -/
theorem deadline_of_no_time :
    (statusWithin 0).1 = .ok "act_1" ∧
      ((statusWithin 0).2.store.actions.get? "act_1").map (·.deadline) =
        some (samplePlatform.toISOString (sampleMoment 1).later) ∧
      ∀ limit, ¬Sane (sampleMoment 1).later (sampleMoment 1).later limit := by
  rw [← and_assoc]
  exact ⟨by decide +kernel, fun _ h => lt_irrefl _ h.1⟩

end RemoteControlPlane
end Remote
