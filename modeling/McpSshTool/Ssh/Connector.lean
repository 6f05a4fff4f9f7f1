import McpSshTool.Ssh.Performs

/-!
# The policy explainer

`connector.provider.ts`: what `ssh_policy_explain` reports, beside what `proc_exec` decides.

* `explainPolicy` — the tool; `mapPolicyAction` and `PolicyExplainInput.context` — the context that
  it asks the engine about;
* `procExecDecision` — the decision of `execCommand`;
* `ExplainsTruly` — the two agree; `explains_truly_iff`: when they do. The explainer classifies a
  command that begins with `sudo ` as raw sudo, and the executor never does.
-/

open Library

namespace Ssh

/-! ### The explainer -/

/-- The `action` of `PolicyExplainSchema`. -/
inductive ExplainAction where
  | inspect | mutation | destructiveMutation
deriving DecidableEq, Repr

/-- `PolicyExplainSchema`, parsed. -/
structure PolicyExplainInput where
  hostAlias : Option String := none
  action : ExplainAction := .inspect
  command : Option String := none
  path : Option String := none
  /-- `z.string().min(1)`. -/
  hostAlias_ne : hostAlias ≠ some "" := by decide

def mapPolicyAction (action : ExplainAction) (path : Option String) : PolicyAction :=
  if action = .inspect then if (truthy path).isSome then .fsRead else .sshOpen
  else if (truthy path).isSome then .fsWrite else .procExec

/-- The command begins with `sudo `, after the white space before it. -/
def startsWithSudo (command : String) : Bool :=
  "sudo ".toList.isPrefixOf (JsText.trimStart command).toList

/-- The context that `explainPolicy` builds. -/
def PolicyExplainInput.context (input : PolicyExplainInput) : PolicyContext where
  action := mapPolicyAction input.action input.path
  destructive := input.action = .destructiveMutation
  rawSudo := (input.command.map startsWithSudo).getD false
  host := truthy input.hostAlias
  command := truthy input.command
  path := truthy input.path

/-- What `explainPolicy` returns. -/
structure PolicyExplanation where
  executed : Bool
  toolProfile : String
  decision : PolicyDecision
  requiresExplicitUserConfirmation : Bool

section Explainer

variable {rt : Runtime} (engine : PolicyEngine rt)

def explainPolicy (toolProfile : String) (input : PolicyExplainInput) : PolicyExplanation where
  executed := false
  toolProfile := toolProfile
  decision := engine.explain input.context
  requiresExplicitUserConfirmation := input.action ≠ .inspect

/-! ### The executor -/

/-- The decision of `execCommand` on a command. -/
def procExecDecision (command : String) (mode : PolicyMode) : PolicyDecision :=
  engine.evaluate (commandContext (.command command) mode)

/-! ### Agreement -/

/-- A decision with its allowed flag and its reason as this denial, or none, makes them. -/
def PolicyDecision.Reports (decision : PolicyDecision) (denial : Option Denial) : Prop :=
  decision.allowed = denial.isNone ∧ decision.reason = denial.map Denial.reason

theorem evaluate_reports (context : PolicyContext) :
    (engine.evaluate context).Reports (engine.denialWith rt.realpathSync context) := by
  unfold PolicyEngine.evaluate PolicyEngine.evaluateWith
  cases engine.denialWith rt.realpathSync context with
  | none => exact ⟨rfl, rfl⟩
  | some => exact ⟨rfl, rfl⟩

/-- Two decisions have the same allowed flag and the same reason. -/
def PolicyDecision.SameVerdict (decision decision' : PolicyDecision) : Prop :=
  decision.allowed = decision'.allowed ∧ decision.reason = decision'.reason

/-- **The explainer tells the truth** about a command: its allowed flag and its reason are those of
the decision that the executor reaches. -/
def ExplainsTruly (input : PolicyExplainInput) (command : String) : Prop :=
  ∀ toolProfile, (explainPolicy engine toolProfile input).decision.SameVerdict
    (procExecDecision engine command .enforce)

/-- The host of a query passes `allowedHosts`. -/
def HostPasses (input : PolicyExplainInput) : Prop :=
  ∀ host, input.hostAlias = some host → engine.config.allowedHosts ≠ [] →
    ∃ h ∈ engine.config.allowedHosts, h = host ∨ matchesAny rt host [h] = true

theorem hostDenial_eq_none_iff (input : PolicyExplainInput) :
    engine.hostDenial input.context = none ↔ HostPasses engine input := by
  unfold PolicyEngine.hostDenial HostPasses PolicyExplainInput.context
  cases hhost : input.hostAlias with
  | none => simp
  | some host =>
    have hne : host ≠ "" := fun h => input.hostAlias_ne (by rw [hhost, h])
    have htwice : truthy (truthy (some host)) = some host := by
      rw [truthy_some hne, truthy_some hne]
    rw [htwice, Option.bind_eq_bind, Option.bind_some]
    simp only [ite_eq_right_iff, reduceCtorEq, imp_false, Option.some.injEq, forall_eq']
    rw [not_and, Bool.not_eq_true', Bool.not_eq_false, List.any_eq_true]
    simp only [Bool.or_eq_true, decide_eq_true_eq]

/-- The reasons of the checks of a command. -/
def commandReasons : List String :=
  ["Command matched commandDeny policy", "Command does not match commandAllow policy"] ++
    dangerousPatterns.map DangerousPattern.warning

theorem reason_mem_commandReasons {context : PolicyContext} {denial : Denial}
    (h : engine.commandDenial context = some denial) : denial.reason ∈ commandReasons := by
  unfold PolicyEngine.commandDenial at h
  obtain ⟨command, -, h⟩ := Option.bind_eq_some_iff.mp h
  dsimp only at h
  split at h
  · obtain rfl := Option.some.inj h
    exact List.mem_append_left _ List.mem_cons_self
  split at h
  · obtain rfl := Option.some.inj h
    exact List.mem_append_left _ (List.mem_cons_of_mem _ List.mem_cons_self)
  · obtain ⟨danger, hdanger, h⟩ := Option.bind_eq_some_iff.mp h
    split at h
    · cases h
    · obtain rfl := Option.some.inj h
      refine List.mem_append_right _ (List.mem_map_of_mem ?_)
      unfold checkCommandSafety at hdanger
      split at hdanger
      · cases hdanger
      · exact List.mem_of_find?_eq_some hdanger

theorem head_commandReasons : ∀ reason ∈ commandReasons,
    reason.toList.head? ≠ some 'H' ∧ reason.toList.head? ≠ some 'R' := by
  decide +kernel

theorem ne_map_reason_commandDenial {context : PolicyContext} {denial : Denial}
    (h : denial.reason.toList.head? = some 'H' ∨ denial.reason.toList.head? = some 'R') :
    some denial.reason ≠ (engine.commandDenial context).map Denial.reason := by
  intro heq
  obtain ⟨denial', hdenial', hreason⟩ := Option.map_eq_some_iff.mp heq.symm
  obtain ⟨hH, hR⟩ := head_commandReasons _ (reason_mem_commandReasons engine hdenial')
  rw [hreason] at hH hR
  exact h.elim hH hR

/-- The explainer's denial of a command: its host first, then raw sudo, then the command. -/
theorem denialWith_explain {input : PolicyExplainInput} (haction : input.action ≠ .inspect)
    (hpath : truthy input.path = none) (files : String → Option String) :
    engine.denialWith files { input.context with mode := some .explain } =
      ((engine.hostDenial input.context).or (engine.rawSudoDenial input.context)).or
        (engine.commandDenial input.context) := by
  have hexec : mapPolicyAction input.action input.path = .procExec := by
    unfold mapPolicyAction
    rw [if_neg haction, hpath]
    rfl
  have htunnel : engine.tunnelDenial { input.context with mode := some .explain } = none :=
    if_neg (by rw [show input.context.action = .procExec from hexec]; decide)
  have hpaths : engine.pathsDenial files { input.context with mode := some .explain } = none := by
    have hnil : ({ input.context with mode := some .explain } : PolicyContext).paths = [] := by
      simp [PolicyContext.paths, PolicyExplainInput.context, hpath]
    unfold PolicyEngine.pathsDenial
    rw [hnil]
    exact ite_self none
  have hroot : engine.rootDenial { input.context with mode := some .explain } = none :=
    if_neg fun h => absurd h.1 (by simp [PolicyExplainInput.context])
  unfold PolicyEngine.denialWith
  rw [htunnel, hpaths, hroot, Option.or_none, Option.or_none, Option.or_none]
  rfl

theorem denialWith_procExec (files : String → Option String) (command : String) :
    engine.denialWith files (commandContext (.command command) .enforce) =
      engine.commandDenial (commandContext (.command command) .enforce) := by
  have hpaths : engine.pathsDenial files (commandContext (.command command) .enforce) = none :=
    rfl
  unfold PolicyEngine.denialWith
  rw [hpaths, Option.or_none]
  rfl

/-- Both check the command alike. -/
theorem commandDenial_explain {input : PolicyExplainInput} {command : String}
    (hcommand : input.command = some command) :
    engine.commandDenial input.context =
      engine.commandDenial (commandContext (.command command) .enforce) := by
  have htwice : truthy (truthy (some command)) = truthy (some command) := by
    by_cases hempty : command = ""
    · rw [hempty]
      rfl
    · rw [truthy_some hempty, truthy_some hempty]
  unfold PolicyEngine.commandDenial
  rw [show input.context.command = truthy (some command) by
    rw [← hcommand]; rfl, htwice]
  rfl

theorem rawSudoDenial_explain {input : PolicyExplainInput} {command : String}
    (hcommand : input.command = some command) :
    engine.rawSudoDenial input.context = none ↔
      (startsWithSudo command = true → engine.config.allowRawSudo = true) := by
  have hraw : input.context.rawSudo = startsWithSudo command := by
    rw [PolicyExplainInput.context, hcommand]
    rfl
  unfold PolicyEngine.rawSudoDenial
  rw [hraw]
  cases startsWithSudo command with
  | false => simp
  | true =>
    cases engine.config.allowRawSudo with
    | false => simp
    | true => simp

/-- The denials for the host and for raw sudo begin with their letters. -/
theorem head_reason_of_or {context : PolicyContext} {denial : Denial}
    (h : (engine.hostDenial context).or (engine.rawSudoDenial context) = some denial) :
    denial.reason.toList.head? = some 'H' ∨ denial.reason.toList.head? = some 'R' := by
  rcases Option.or_eq_some_iff.mp h with hhost | ⟨-, hraw⟩
  · obtain ⟨host, -, hhost⟩ := Option.bind_eq_some_iff.mp hhost
    dsimp only at hhost
    split at hhost
    · obtain rfl := Option.some.inj hhost
      rw [String.toList_append, String.toList_append]
      exact .inl rfl
    · cases hhost
  · unfold PolicyEngine.rawSudoDenial at hraw
    split at hraw
    · obtain rfl := Option.some.inj hraw
      exact .inr rfl
    · cases hraw

/-- **When the explainer tells the truth**: exactly when the host of the query passes and the
command does not begin with `sudo ` unless raw sudo is allowed. -/
theorem explains_truly_iff (input : PolicyExplainInput) (command : String)
    (haction : input.action ≠ .inspect) (hcommand : input.command = some command)
    (hpath : truthy input.path = none) :
    ExplainsTruly engine input command ↔
      HostPasses engine input ∧
        (startsWithSudo command = true → engine.config.allowRawSudo = true) := by
  have hexplain := evaluate_reports engine { input.context with mode := some .explain }
  have hexec := evaluate_reports engine (commandContext (.command command) .enforce)
  rw [denialWith_explain engine haction hpath, commandDenial_explain engine hcommand] at hexplain
  rw [denialWith_procExec] at hexec
  rw [← hostDenial_eq_none_iff, ← rawSudoDenial_explain engine hcommand, ← Option.or_eq_none_iff]
  -- the two denials differ in what the explainer checks before the command
  cases hfirst : (engine.hostDenial input.context).or (engine.rawSudoDenial input.context) with
  | none =>
    rw [hfirst, Option.none_or] at hexplain
    exact iff_of_true (fun _ => ⟨hexplain.1.trans hexec.1.symm, hexplain.2.trans hexec.2.symm⟩) rfl
  | some denial =>
    rw [hfirst, Option.some_or] at hexplain
    refine iff_of_false (fun htruly => ?_) (Option.some_ne_none denial)
    have hreason := (htruly "").2
    exact ne_map_reason_commandDenial engine (head_reason_of_or engine hfirst)
      (hexplain.2.symm.trans (hreason.trans hexec.2))

end Explainer

/-- The query of a mutation by a command. -/
def mutationQuery (command : String) : PolicyExplainInput where
  action := .mutation
  command := some command

/-- By default, the explainer tells the truth about a command that lists files. -/
theorem explains_truly_iff_list :
    ∃ engine : PolicyEngine sampleRuntime, engine.config = {} ∧
      ExplainsTruly engine (mutationQuery "ls -la") "ls -la" := by
  obtain ⟨engine, hengine⟩ := PolicyEngine.exists_engine sampleRuntime {} (by decide) (by decide)
    ⟨rfl, rfl⟩
  refine ⟨engine, hengine, ?_⟩
  refine (explains_truly_iff engine (mutationQuery "ls -la") "ls -la" (by decide) rfl rfl).mpr ?_
  refine ⟨fun host hhost => ?_, fun hsudo => ?_⟩
  · cases hhost
  · exact absurd hsudo (by decide)

/-- **The explainer denies what the executor allows**: by default `sudo ls` is raw sudo to the one,
and a command like any other to the other. -/
theorem explainer_denies_sudo :
    ∃ engine : PolicyEngine sampleRuntime, engine.config = {} ∧
      (explainPolicy engine "full" (mutationQuery "sudo ls")).decision.allowed = false ∧
      (explainPolicy engine "full" (mutationQuery "sudo ls")).decision.reason =
        some "Raw sudo command execution is disabled by policy" ∧
      (procExecDecision engine "sudo ls" .enforce).allowed = true ∧
      (procExecDecision engine "sudo ls" .enforce).reason = none ∧
      ¬ExplainsTruly engine (mutationQuery "sudo ls") "sudo ls" := by
  obtain ⟨engine, hengine⟩ := PolicyEngine.exists_engine sampleRuntime {} (by decide) (by decide)
    ⟨rfl, rfl⟩
  have hexplain := evaluate_reports engine
    { (mutationQuery "sudo ls").context with mode := some .explain }
  have hexec := evaluate_reports engine (commandContext (.command "sudo ls") .enforce)
  have hhost : engine.hostDenial (mutationQuery "sudo ls").context = none := rfl
  have hraw : engine.rawSudoDenial (mutationQuery "sudo ls").context =
      some ⟨"Raw sudo command execution is disabled by policy",
        "Use an idempotent ensure_* tool or enable allowRawSudo explicitly.", none⟩ :=
    if_pos ⟨by decide, by rw [hengine]; rfl⟩
  have hcommand : engine.commandDenial (commandContext (.command "sudo ls") .enforce) = none := by
    unfold PolicyEngine.commandDenial
    rw [hengine]
    rfl
  rw [denialWith_explain engine (by decide) rfl, hhost, hraw] at hexplain
  rw [denialWith_procExec, hcommand] at hexec
  refine ⟨engine, hengine, hexplain.1, hexplain.2, hexec.1, hexec.2, fun htruly => ?_⟩
  exact Bool.noConfusion (hexec.1.symm.trans ((htruly "").1.symm.trans hexplain.1))

end Ssh
