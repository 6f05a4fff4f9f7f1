import McpSshTool.Library.ReplayGuard
import McpSshTool.Library.Run
import McpSshTool.Remote.Agent

/-!
# Replayed actions

Whether an agent process invokes its executor twice for one action. A process remembers an action
until its deadline, and refuses it after its deadline; the two overlap in one millisecond, in which
the action may be forgotten (`expiresAt <= now`) and is not yet late (`deadline < now`). A process
that remembers ten thousand actions forgets the oldest one early.

* `MemoryHolds` — executing an action makes the process forget nothing that is not late;
* `Guarded` — the remembered actions are those executed that are not late; `guarded_step` keeps it;
* `executes_at_most_once` — along a run whose steps hold their memory no action is executed twice.
-/

open Library

namespace Remote
namespace AgentProcess

variable (platform : Platform)

/-! ### Remembering -/

/-- The actions that were executed, with their deadlines. -/
def actionLog (p : AgentProcess) : List (String × ℤ) :=
  p.executed.map fun x => (x.action.action_id, platform.getTime x.action.deadline)

theorem get?_prune_of_forall_ne {seenActions : ExpiringMap String ℤ} {now : ℤ}
    (h : ∀ id, seenActions.get? id ≠ some now) :
    (seenActions.prune now).get? = ReplayGuard.forget seenActions.get? (now - 1) := by
  funext id
  refine Option.ext fun t => ?_
  rw [ReplayGuard.forget_eq_some]
  refine ExpiringMap.get?_prune_eq_some.trans (and_congr_right fun ht => ?_)
  have hne : t ≠ now := by
    rintro rfl
    exact h id ht
  omega

/-- **What is remembered** after an action that was not remembered before. -/
theorem get?_rememberAction {seenActions : ExpiringMap String ℤ} {now : ℤ} {actionId : String}
    (deadline : String) (hunseen : seenActions.get? actionId = none)
    (hroom : (seenActions.prune now).size < maxSeenActions) (id : String) :
    (rememberAction platform now actionId deadline seenActions).2.get? id =
      if id = actionId then some (platform.getTime deadline) else (seenActions.prune now).get?
        id := by
  have hpruned : (seenActions.prune now).contains actionId = false := by
    refine OrderedMap.contains_eq_false.mpr (Option.eq_none_iff_forall_ne_some.mpr fun t ht => ?_)
    rw [(ExpiringMap.get?_prune_eq_some.mp ht).1] at hunseen
    exact absurd hunseen (by simp)
  unfold rememberAction
  rw [hpruned]
  exact ExpiringMap.get?_remember_of_size_lt hroom actionId id (platform.getTime deadline)

/-! ### A process under a clock -/

/-- A process and the last reading of its clock. -/
structure Timed where
  agent : AgentProcess
  clock : ℤ

/-- A process that has just connected. -/
def Timed.start (config : AgentConfig) (clock : ℤ) : Timed where
  agent := AgentProcess.start config
  clock := clock

/-- A message to a process under a clock. -/
def Timed.step (w : Timed) (d : Delivery) : Timed where
  agent := w.agent.onmessage platform d
  clock := d.later

/-- The clock does not go back. -/
def Timed.OnTime (w : Timed) (d : Delivery) : Prop := w.clock ≤ d.now ∧ d.now ≤ d.later

/-- A genuine request carries the deadline that its action was issued with. -/
def Timed.Issued (deadlineOf : String → String) (w : Timed) (d : Delivery) : Prop :=
  ∀ action, requestOf platform d.payload = some action →
    GenuineRequest platform w.agent.config action → action.deadline = deadlineOf action.action_id

/-- **Memory holds**: an action is executed in no millisecond in which a remembered action has its
deadline, and while fewer than ten thousand remembered actions have theirs to come. -/
def Timed.MemoryHolds (w : Timed) (d : Delivery) : Prop :=
  ∀ action, Executes platform w.agent d action →
    (∀ id, w.agent.seenActions.get? id ≠ some d.later) ∧
      (w.agent.seenActions.prune d.later).size < maxSeenActions

/-- No action was executed twice. -/
def Timed.ExecutedOnce (w : Timed) : Prop :=
  (w.agent.executed.map fun x => x.action.action_id).Nodup

/-- The process remembers what it has executed until it is late. -/
structure Timed.Guarded (deadlineOf : String → String) (w : Timed) : Prop where
  faithful : ReplayGuard.Faithful w.agent.seenActions.get? (w.agent.actionLog platform)
    (w.clock - 1)
  issued : ∀ x ∈ w.agent.executed, x.action.deadline = deadlineOf x.action.action_id
  once : w.ExecutedOnce

variable {platform} {deadlineOf : String → String}

theorem guarded_start (config : AgentConfig) (clock : ℤ) :
    (Timed.start config clock).Guarded platform deadlineOf where
  faithful := ReplayGuard.Faithful.nil (clock - 1)
  issued _ hx := absurd hx List.not_mem_nil
  once := List.nodup_nil

/-- An action that is executed was not executed before: it is not late, so it would be
remembered. -/
theorem not_mem_executed {w : Timed} (hw : w.Guarded platform deadlineOf) {d : Delivery}
    (htime : w.OnTime d) (hissued : w.Issued platform deadlineOf d) {action : ActionRequestEnvelope}
    (h : Executes platform w.agent d action) :
    action.action_id ∉ w.agent.executed.map fun x => x.action.action_id := by
  intro hmem
  obtain ⟨x, hx, hid⟩ := List.mem_map.mp hmem
  have hdeadline : x.action.deadline = action.deadline := by
    rw [hw.issued x hx, hid, hissued action h.request h.genuine]
  have hlogged : (action.action_id, platform.getTime action.deadline) ∈
    w.agent.actionLog platform :=
    List.mem_map.mpr ⟨x, hx, by rw [hid, hdeadline]⟩
  rcases hw.faithful.covers _ hlogged with hlate | ⟨t, ht, -⟩
  · have := htime.1.trans h.inTime
    simp only at hlate
    omega
  · exact absurd (h.unseen.symm.trans ht) (by simp)

/-- **One message keeps the guard.** -/
theorem guarded_step {w : Timed} (hw : w.Guarded platform deadlineOf) {d : Delivery}
    (htime : w.OnTime d) (hissued : w.Issued platform deadlineOf d)
    (hmemory : w.MemoryHolds platform d) : (w.step platform d).Guarded platform deadlineOf := by
  have hclock : w.clock - 1 ≤ d.later - 1 := by
    have := htime.1.trans htime.2
    omega
  rcases onmessage_cases platform w.agent d with ⟨update, -, hstep⟩ | ⟨action, h, hstep⟩ |
    ⟨-, -, hstep⟩
  · have : w.step platform d = ⟨w.agent.install update.policy, d.later⟩ := by
      rw [Timed.step, hstep]
    rw [this]
    exact ⟨hw.faithful.later hclock, hw.issued, hw.once⟩
  · have : w.step platform d = ⟨w.agent.perform platform d.later action, d.later⟩ := by
      rw [Timed.step, hstep]
    rw [this]
    obtain ⟨hexpires, hroom⟩ := hmemory action h
    refine ⟨?_, ?_, ?_⟩
    · -- what is not late stays, and the action is added
      have hget : (w.agent.perform platform d.later action).seenActions.get? = fun id =>
          if id = action.action_id then some (platform.getTime action.deadline)
          else ReplayGuard.forget w.agent.seenActions.get? (d.later - 1) id := by
        rw [← get?_prune_of_forall_ne hexpires]
        exact funext (get?_rememberAction platform action.deadline h.unseen hroom)
      have hforgotten :
          ReplayGuard.forget w.agent.seenActions.get? (d.later - 1) action.action_id = none := by
        rw [ReplayGuard.forget, h.unseen]
        rfl
      have hlog : (w.agent.perform platform d.later action).actionLog platform =
          w.agent.actionLog platform ++
            [(action.action_id, platform.getTime action.deadline)] := by
        rw [actionLog, perform, List.map_append]
        rfl
      show ReplayGuard.Faithful (w.agent.perform platform d.later action).seenActions.get? _ _
      rw [hget, hlog]
      exact (hw.faithful.forget hclock).record hforgotten _
    · intro x hx
      rcases List.mem_append.mp hx with hx | hx
      · exact hw.issued x hx
      · obtain rfl := List.mem_singleton.mp hx
        exact hissued action h.request h.genuine
    · show ((w.agent.executed ++ [_]).map _).Nodup
      rw [List.map_append, List.nodup_append]
      refine ⟨hw.once, List.nodup_singleton _, ?_⟩
      -- what has been executed would have been refused
      rintro id hid id' hid' rfl
      rw [List.mem_singleton.mp hid'] at hid
      exact not_mem_executed hw htime hissued h hid
  · have : w.step platform d = ⟨w.agent, d.later⟩ := by
      rw [Timed.step, hstep]
    rw [this]
    exact ⟨hw.faithful.later hclock, hw.issued, hw.once⟩

/-! ### Every run -/

/-- **When an action is executed at most once.** Along a run of a process with a clock that does not
go back, on requests whose actions have one deadline each, no action is executed twice as long as
the memory of the process holds. -/
theorem executes_at_most_once (deadlineOf : String → String) (config : AgentConfig) (clock : ℤ)
    (ds : List Delivery)
    (htime : Run.AllSteps (Timed.step platform) Timed.OnTime (Timed.start config clock) ds)
    (hissued : Run.AllSteps (Timed.step platform) (Timed.Issued platform deadlineOf)
      (Timed.start config clock) ds)
    (hmemory : Run.AllSteps (Timed.step platform) (Timed.MemoryHolds platform)
      (Timed.start config clock) ds) :
    Run.Along (Timed.step platform) Timed.ExecutedOnce (Timed.start config clock) ds := by
  have hguarded : Run.Along (Timed.step platform) (Timed.Guarded platform deadlineOf)
      (Timed.start config clock) ds :=
    Run.along_of_preserved (fun w d hw h => guarded_step hw h.1 h.2.1 h.2.2)
      (guarded_start config clock) (htime.and (hissued.and hmemory))
  exact hguarded.mono fun w hw => hw.once

/-! ### The millisecond of a deadline -/

theorem requestOf_sampleAction {actionId : String} (hid : actionId ≠ "") (t : ℤ) :
    requestOf samplePlatform (arriving (sampleAction actionId).toFields t).payload =
      some (sampleAction actionId) := by
  have hissued : samplePlatform.isDatetime "1970-01-01T00:00:00.000Z" = true := by decide +kernel
  have hdeadline : samplePlatform.isDatetime "1970-01-01T00:00:00.900Z" = true := by decide +kernel
  have hnonce : 16 ≤ JsText.length "0123456789abcdef" := by decide
  exact actionRequestEnvelopeSchema_toFields hid (show "agt_1" ≠ "" by decide)
    (show "usr_1" ≠ "" by decide) (show 0 < 1 ∧ ((1 : ℕ) : ℤ) ≤ _ by decide) hissued hdeadline
    hnonce ((keyPair_samplePlatform "plane").sign_ne _)

theorem genuineRequest_sampleAction (actionId : String) :
    GenuineRequest samplePlatform sampleConfig (sampleAction actionId) := by
  have hnodup : ((sampleAction actionId).toFields.map Prod.fst).Nodup := by
    show ["type", "action_id", "agent_id", "user_id", "tool", "capability", "args",
      "policy_version", "issued_at", "deadline", "nonce", "signature"].Nodup
    decide
  refine ⟨rfl, ?_⟩
  exact verifyEnvelope_of_signed (keyPair_samplePlatform "plane") hnodup hnodup
    (fun _ _ => rfl) rfl

/-- A sample action arrives at the sample agent in time, and is not remembered. -/
theorem executes_sampleAction {p : AgentProcess} (hp : p.config = sampleConfig) {actionId : String}
    (hid : actionId ≠ "") (hunseen : p.seenActions.get? actionId = none) {t : ℤ} (ht : t ≤ 900) :
    Executes samplePlatform p (arriving (sampleAction actionId).toFields t)
      (sampleAction actionId) where
  request := requestOf_sampleAction hid t
  genuine := by
    rw [hp]
    exact genuineRequest_sampleAction actionId
  unseen := hunseen
  inTime := by
    have hdeadline : samplePlatform.getTime "1970-01-01T00:00:00.900Z" = 900 := by decide +kernel
    exact ht.trans hdeadline.ge
  version := by
    rw [hp]
    exact .inl rfl

/-- An action that arrives twice in its time. -/
def replayedInTime : List Delivery :=
  [arriving (sampleAction "act_1").toFields 100, arriving (sampleAction "act_1").toFields 500]

/-- The guarantee at that run: the replay is refused. -/
theorem executes_at_most_once_in_time :
    Run.Along (Timed.step samplePlatform) Timed.ExecutedOnce (Timed.start sampleConfig 0)
      replayedInTime := by
  have hread : ∀ {t action}, requestOf samplePlatform
      (arriving (sampleAction "act_1").toFields t).payload = some action →
        action = sampleAction "act_1" := by
    intro t action h
    exact Option.some.inj (h.symm.trans (requestOf_sampleAction (by decide) t))
  have hissued : ∀ w t, Timed.Issued samplePlatform (fun _ => "1970-01-01T00:00:00.900Z") w
      (arriving (sampleAction "act_1").toFields t) := by
    intro w t action h _
    rw [hread h]
    rfl
  have hfirst := executes_sampleAction (p := start sampleConfig) rfl (show "act_1" ≠ "" by decide)
    rfl (show (100 : ℤ) ≤ 900 by decide)
  refine executes_at_most_once (fun _ => "1970-01-01T00:00:00.900Z") sampleConfig 0 replayedInTime
    ?_ ⟨hissued _ _, hissued _ _, trivial⟩ ?_
  · refine ⟨?_, ?_, trivial⟩ <;> unfold Timed.OnTime <;> decide
  · refine ⟨fun action _ => ⟨fun id => by simp [Timed.start, start], by decide⟩, ?_, trivial⟩
    intro action h
    -- the action is remembered, so it is not executed again
    have hunseen := h.unseen
    rw [Timed.step, show (Timed.start sampleConfig 0).agent = start sampleConfig from rfl,
      onmessage_of_executes hfirst, hread h.request] at hunseen
    exact absurd hunseen (by decide +kernel)

/-- Two actions arrive in the last millisecond of their time, and the first of them once more. -/
def replayedAtDeadline : List Delivery :=
  [arriving (sampleAction "act_1").toFields 900, arriving (sampleAction "act_2").toFields 900,
    arriving (sampleAction "act_1").toFields 900]

/-- **An action that is executed twice**: executing the second action forgets the first, which is
not late yet. -/
theorem executes_twice_at_deadline :
    Run.AllSteps (Timed.step samplePlatform) Timed.OnTime (Timed.start sampleConfig 0)
        replayedAtDeadline ∧
      (Run.run (Timed.step samplePlatform) (Timed.start sampleConfig 0)
        replayedAtDeadline).agent.executed.map (fun x => x.action.action_id) =
          ["act_1", "act_2", "act_1"] := by
  constructor
  · refine ⟨?_, ?_, ?_, trivial⟩ <;> unfold Timed.OnTime <;> decide
  · -- each of the three messages passes the checks of the state it finds
    have hstep : ∀ (p : AgentProcess) (t : ℤ) (actionId : String), p.config = sampleConfig →
        actionId ≠ "" → p.seenActions.get? actionId = none →
        Timed.step samplePlatform ⟨p, t⟩ (arriving (sampleAction actionId).toFields 900) =
          ⟨p.perform samplePlatform 900 (sampleAction actionId), 900⟩ := by
      intro p t actionId hconfig hid hunseen
      have hexecutes := executes_sampleAction hconfig hid hunseen (le_refl 900)
      have hlater : (arriving (sampleAction actionId).toFields 900).later = 900 := rfl
      rw [Timed.step, onmessage_of_executes hexecutes, hlater]
    obtain ⟨p₁, hp₁⟩ : ∃ p, p = (start sampleConfig).perform samplePlatform 900
        (sampleAction "act_1") := ⟨_, rfl⟩
    obtain ⟨p₂, hp₂⟩ : ∃ p, p = p₁.perform samplePlatform 900 (sampleAction "act_2") := ⟨_, rfl⟩
    have hconfig₁ : p₁.config = sampleConfig := by rw [hp₁]; rfl
    have hconfig₂ : p₂.config = sampleConfig := by rw [hp₂]; exact hconfig₁
    have hunseen₁ : p₁.seenActions.get? "act_2" = none := by rw [hp₁]; decide +kernel
    have hunseen₂ : p₂.seenActions.get? "act_1" = none := by rw [hp₂, hp₁]; decide +kernel
    rw [replayedAtDeadline, Run.run_cons, Run.run_cons, Run.run_cons, Run.run_nil, Timed.start,
      hstep (start sampleConfig) 0 "act_1" rfl (by decide) rfl, ← hp₁,
      hstep p₁ 900 "act_2" hconfig₁ (by decide) hunseen₁, ← hp₂,
      hstep p₂ 900 "act_1" hconfig₂ (by decide) hunseen₂, hp₂, hp₁]
    rfl

end AgentProcess
end Remote
