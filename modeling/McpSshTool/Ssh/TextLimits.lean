import Mathlib.Data.String.Basic
import McpSshTool.Ssh.LinesInFile
import McpSshTool.Ssh.RunInversion

/-!
# Text that is cut to a number of bytes

`takeBytes` is the loop over the characters of a text that stops before the limit; `truncateText`
cuts with it, and puts a marker behind what is left.

* `takeBytes_isPrefix`, `utf8Len_takeBytes_le` — what is taken is the beginning, and fits;
* `truncates_iff` — a text that is too long comes to fit exactly where the marker does;
* `command_output_within_iff`, `sudo_output_within_iff` — what `execCommand` and `execSudo` return
  is within the limit exactly when each output of the host fits, or the marker does. A dry run
  returns its explanation as it is.
-/

open Library Program

namespace Ssh

/-! ### Taking characters -/

theorem takeBytes_isPrefix (budget : ℕ) (cs : List Char) : takeBytes budget cs <+: cs := by
  induction cs generalizing budget with
  | nil => exact List.prefix_rfl
  | cons c cs ih =>
    rw [takeBytes]
    split
    · exact List.nil_prefix
    · exact List.cons_prefix_cons.mpr ⟨rfl, ih _⟩

theorem utf8Len_takeBytes_le (budget : ℕ) (cs : List Char) :
    String.utf8Len (takeBytes budget cs) ≤ budget := by
  induction cs generalizing budget with
  | nil => exact Nat.zero_le budget
  | cons c cs ih =>
    rw [takeBytes]
    split
    · exact Nat.zero_le budget
    · have hrest := ih (budget - c.utf8Size)
      rw [String.utf8Len_cons]
      omega

theorem takeBytes_eq_self_iff {budget : ℕ} {cs : List Char} :
    takeBytes budget cs = cs ↔ String.utf8Len cs ≤ budget := by
  constructor
  · intro h
    rw [← h]
    exact utf8Len_takeBytes_le budget cs
  · intro h
    induction cs generalizing budget with
    | nil => rfl
    | cons c cs ih =>
      rw [String.utf8Len_cons] at h
      rw [takeBytes, if_neg (by omega), ih (by omega)]

theorem takeBytes_eq_nil_iff {budget : ℕ} {cs : List Char} :
    takeBytes budget cs = [] ↔ ∀ c ∈ cs.head?, budget < c.utf8Size := by
  cases cs with
  | nil => exact ⟨fun _ _ => nofun, fun _ => rfl⟩
  | cons c =>
    rw [takeBytes, List.head?_cons]
    split
    · next hlarge => exact ⟨fun _ _ h => Option.some.inj h ▸ hlarge, fun _ => rfl⟩
    · next hfits => exact ⟨nofun, fun h => absurd (h c rfl) hfits⟩

/-- What follows what is taken does not fit any more. -/
theorem takeBytes_stops {budget : ℕ} {cs : List Char} (h : budget < String.utf8Len cs) :
    ∃ c rest, cs = takeBytes budget cs ++ c :: rest ∧
      budget < String.utf8Len (takeBytes budget cs) + c.utf8Size := by
  induction cs generalizing budget with
  | nil => exact absurd h (Nat.not_lt_zero budget)
  | cons c cs ih =>
    rw [takeBytes]
    split
    · next hlarge => exact ⟨c, cs, rfl, by rw [String.utf8Len_nil]; omega⟩
    · next hfits =>
      rw [String.utf8Len_cons] at h
      obtain ⟨c', rest, heq, hlt⟩ := ih (show budget - c.utf8Size < _ by omega)
      refine ⟨c', rest, by rw [List.cons_append, ← heq], ?_⟩
      rw [String.utf8Len_cons]
      omega

theorem takeBytes_append_of_fits {budget : ℕ} {cs : List Char} (h : String.utf8Len cs ≤ budget)
    (ds : List Char) :
    takeBytes budget (cs ++ ds) = cs ++ takeBytes (budget - String.utf8Len cs) ds := by
  induction cs generalizing budget with
  | nil => rfl
  | cons c cs ih =>
    rw [String.utf8Len_cons] at h ⊢
    rw [List.cons_append, takeBytes, if_neg (by omega), ih (by omega), Nat.sub_sub, Nat.add_comm,
      List.cons_append]

theorem takeBytes_append_of_not_fits {budget : ℕ} {cs : List Char} (h : budget < String.utf8Len cs)
    (ds : List Char) : takeBytes budget (cs ++ ds) = takeBytes budget cs := by
  induction cs generalizing budget with
  | nil => exact absurd h (Nat.not_lt_zero budget)
  | cons c cs ih =>
    rw [String.utf8Len_cons] at h
    rw [List.cons_append, takeBytes, takeBytes]
    split
    · rfl
    · rw [ih (by omega)]

theorem utf8ByteSize_eq (s : String) : s.utf8ByteSize = String.utf8Len s.toList := by
  rw [← String.utf8ByteSize_ofList, String.ofList_toList]

/-! ### Truncating -/

/-- The marker behind a text that has been cut. -/
def truncationMarker (maxBytes : ℕ) : String :=
  "\n[ssh-mcp-tool: output truncated after " ++ toString maxBytes ++ " bytes]\n"

/-- **A text as a limit leaves it**: itself where it fits, and otherwise no more than the limit of
its beginning and the beginning of the marker. -/
def TruncatesTo (value : String) (maxBytes : ℕ) (result : String) : Prop :=
  if value.utf8ByteSize ≤ maxBytes then result = value
  else result.utf8ByteSize ≤ maxBytes ∧ ∃ kept marker, kept <+: value.toList ∧
    marker <+: (truncationMarker maxBytes).toList ∧ result = String.ofList (kept ++ marker)

/-- The text fits into the limit, or the marker does. -/
def LimitHolds (value : String) (maxBytes : ℕ) : Prop :=
  value.utf8ByteSize ≤ maxBytes ∨ (truncationMarker maxBytes).utf8ByteSize ≤ maxBytes

instance (value : String) (maxBytes : ℕ) : Decidable (LimitHolds value maxBytes) :=
  inferInstanceAs (Decidable (_ ∨ _))

theorem truncateText_of_fits {value : String} {maxBytes : ℕ} (h : value.utf8ByteSize ≤ maxBytes) :
    truncateText value maxBytes = value :=
  if_pos h

theorem truncateText_of_not_fits {value : String} {maxBytes : ℕ}
    (h : ¬value.utf8ByteSize ≤ maxBytes) :
    truncateText value maxBytes =
      String.ofList (takeBytes (maxBytes - (truncationMarker maxBytes).utf8ByteSize)
        value.toList) ++
        truncationMarker maxBytes :=
  if_neg h

/-- **What a text is cut to fits** exactly when the text does, or the marker. -/
theorem utf8ByteSize_truncateText_le_iff (value : String) (maxBytes : ℕ) :
    (truncateText value maxBytes).utf8ByteSize ≤ maxBytes ↔ LimitHolds value maxBytes := by
  by_cases hfits : value.utf8ByteSize ≤ maxBytes
  · rw [truncateText_of_fits hfits]
    exact ⟨.inl, fun _ => hfits⟩
  · have hkept := utf8Len_takeBytes_le (maxBytes - (truncationMarker maxBytes).utf8ByteSize)
      value.toList
    rw [truncateText_of_not_fits hfits, String.utf8ByteSize_append, String.utf8ByteSize_ofList]
    -- the marker is there in full, whatever is left of the limit
    constructor
    · exact fun h => .inr (by omega)
    · intro h
      have hmarker := h.resolve_left hfits
      omega

/-- **When a text is cut as the limit asks for.** -/
theorem truncatesTo_truncateText_iff (value : String) (maxBytes : ℕ) :
    TruncatesTo value maxBytes (truncateText value maxBytes) ↔ LimitHolds value maxBytes := by
  rw [TruncatesTo]
  split
  · next hfits => exact ⟨fun _ => .inl hfits, fun _ => truncateText_of_fits hfits⟩
  · next hfits =>
    rw [utf8ByteSize_truncateText_le_iff]
    let budget := maxBytes - (truncationMarker maxBytes).utf8ByteSize
    refine ⟨And.left, fun h => ⟨h, takeBytes budget value.toList,
      (truncationMarker maxBytes).toList,
      takeBytes_isPrefix budget value.toList, List.prefix_rfl, ?_⟩⟩
    rw [truncateText_of_not_fits hfits, String.ofList_append, String.ofList_toList]

/-! ### The outputs of a run -/

/-- What the host has answered a command that was run, plainly or under sudo. -/
def hostResult? : Event → Option CommandResult
  | ⟨.execWithin _ _ _, .ok (some result)⟩ => some result
  | ⟨.execSudo _ _ _, .ok (some result)⟩ => some result
  | _ => none

/-- **The limit holds in a run**: for both outputs that the host answers with, or for the
explanation where the run is dry. -/
structure RunLimitHolds {rt : Runtime} (engine : PolicyEngine rt) (maxBytes : ℕ)
    (sessionId : String)
    (context : PolicyMode → PolicyContext) (explain : PolicyDecision → String) (log : List Event) :
    Prop where
  outputs : ∀ result ∈ log.filterMap hostResult?,
    LimitHolds result.stdout maxBytes ∧ LimitHolds result.stderr maxBytes
  explained : ∀ session decision, ⟨.getSession sessionId, some session⟩ ∈ log →
    engine.assertAllowed (context session.policyMode) = .ok decision → decision.mode = .explain →
      (explain decision).utf8ByteSize ≤ maxBytes

/-- What is returned of both outputs is within the limit. -/
def ExecResult.Within (result : ExecResult) (maxBytes : ℕ) : Prop :=
  result.stdout.utf8ByteSize ≤ maxBytes ∧ result.stderr.utf8ByteSize ≤ maxBytes

section Commands

variable {rt : Runtime} {engine : PolicyEngine rt} {config : ServerConfig}
variable {sessionId : String} {script : Script} {log : List Event} {result : ExecResult}

/-- **How a command ends that is run**: with an explanation, or with what the host has answered,
cut. -/
inductive Returns (engine : PolicyEngine rt) (maxBytes : ℕ) (sessionId : String)
    (context : PolicyMode → PolicyContext) (explain : PolicyDecision → String) :
    List Event → ExecResult → Prop
  | explained (session : Session) {decision : PolicyDecision} {result : ExecResult}
      (hdecision : engine.assertAllowed (context session.policyMode) = .ok decision)
      (hmode : decision.mode = .explain) (hstdout : result.stdout = explain decision)
      (hstderr : result.stderr = "") :
      Returns engine maxBytes sessionId context explain [⟨.getSession sessionId, some session⟩]
        result
  | run (session : Session) (answer : CommandResult) {decision : PolicyDecision} {log : List Event}
      {result : ExecResult}
      (hdecision : engine.assertAllowed (context session.policyMode) = .ok decision)
      (hmode : decision.mode ≠ .explain) (hanswer : log.filterMap hostResult? = [answer])
      (hsession : ∀ session', ⟨.getSession sessionId, some session'⟩ ∉ log)
      (hstdout : result.stdout = truncateText answer.stdout maxBytes)
      (hstderr : result.stderr = truncateText answer.stderr maxBytes) :
      Returns engine maxBytes sessionId context explain
        (⟨.getSession sessionId, some session⟩ :: log) result

/-- What such a run returns is within the limit exactly when the limit holds in it. -/
theorem Returns.within_iff {maxBytes : ℕ} {context : PolicyMode → PolicyContext}
    {explain : PolicyDecision → String}
    (h : Returns engine maxBytes sessionId context explain log result) :
    result.Within maxBytes ↔ RunLimitHolds engine maxBytes sessionId context explain log := by
  cases h with
  | explained session hdecision hmode hstdout hstderr =>
    rw [ExecResult.Within, hstdout, hstderr]
    constructor
    · rintro ⟨hfits, -⟩
      refine ⟨fun _ => nofun, fun session' decision' hmem hdecision' _ => ?_⟩
      obtain ⟨-, heq⟩ := Sigma.mk.inj (List.mem_singleton.mp hmem)
      obtain rfl := Option.some.inj (eq_of_heq heq)
      rwa [← Except.ok.inj (hdecision.symm.trans hdecision')]
    · exact fun h => ⟨h.explained _ _ List.mem_cons_self hdecision hmode, Nat.zero_le _⟩
  | run session answer hdecision hmode hanswer hsession hstdout hstderr =>
    rw [ExecResult.Within, hstdout, hstderr, utf8ByteSize_truncateText_le_iff,
      utf8ByteSize_truncateText_le_iff]
    constructor
    · intro hlimits
      refine ⟨fun result hmem => ?_, fun session' decision' hmem hdecision' hmode' => ?_⟩
      · rw [List.filterMap_cons_none (by rfl), hanswer, List.mem_singleton] at hmem
        exact hmem ▸ hlimits
      · -- the run asks for its session once
        obtain heq | hmem := List.mem_cons.mp hmem
        · obtain rfl := Option.some.inj (eq_of_heq (Sigma.mk.inj heq).2)
          exact absurd (Except.ok.inj (hdecision.symm.trans hdecision') ▸ hmode') hmode
        · exact absurd hmem (hsession session')
    · intro h
      refine h.outputs _ ?_
      rw [List.filterMap_cons_none (by rfl), hanswer]
      exact List.mem_cons_self

/-- How `execCommand` ends. -/
theorem returns_execCommand {cwd : Option String} {env : Environment} {timeoutMs : Option ℕ}
    (h : Runs (execCommand engine config sessionId script cwd env timeoutMs) log (.ok result)) :
    Returns engine config.maxCommandOutputBytes sessionId (commandContext script)
      (explanation script.text false) log result := by
  replace h := runs_getSession_ok h
  obtain ⟨session, log, rfl, h⟩ := h
  replace h := runs_ofExcept_ok h
  obtain ⟨decision, hdecision, h⟩ := h
  split at h
  · next hmode =>
    obtain ⟨rfl, heq⟩ := runs_done_iff.mp h
    obtain rfl := Except.ok.inj heq
    exact .explained session hdecision hmode rfl rfl
  · next hmode =>
    replace h := runs_getOSInfo_ok h
    obtain ⟨osInfo, log, rfl, h⟩ := h
    replace h := runs_now h
    obtain ⟨started, log, rfl, h⟩ := h
    replace h := runs_rethrown_ok (fun e => by split <;> exact ⟨_, rfl⟩) h
    replace h := runs_ofExcept_ok h
    obtain ⟨sent, -, h⟩ := h
    replace h := runs_perform_ok (.execWithin script sent (timeoutMs.getD config.commandTimeoutMs))
      id h
    obtain ⟨_, outcome, log, rfl, rfl, h⟩ := h
    cases outcome with
    | none => exact absurd (runs_done_iff.mp h).2 nofun
    | some answer =>
      replace h := runs_now h
      obtain ⟨finished, log, rfl, h⟩ := h
      split at h
      · exact absurd (runs_done_iff.mp h).2 nofun
      · obtain ⟨rfl, heq⟩ := runs_done_iff.mp h
        obtain rfl := Except.ok.inj heq
        exact .run session answer hdecision hmode rfl (fun _ => by simp) rfl rfl

/-- How `execSudo` ends. -/
theorem returns_execSudo {password cwd : Option String} {timeoutMs : Option ℕ}
    {options : SudoPolicyOptions}
    (h : Runs (execSudo engine config sessionId script password cwd timeoutMs options) log
      (.ok result)) :
    Returns engine config.maxCommandOutputBytes sessionId (sudoContext script · options)
      (explanation script.text true) log result := by
  replace h := runs_getSession_ok h
  obtain ⟨session, log, rfl, h⟩ := h
  replace h := runs_ofExcept_ok h
  obtain ⟨decision, hdecision, h⟩ := h
  split at h
  · next hmode =>
    obtain ⟨rfl, heq⟩ := runs_done_iff.mp h
    obtain rfl := Except.ok.inj heq
    exact .explained session hdecision hmode rfl rfl
  · next hmode =>
    replace h := runs_getOSInfo_ok h
    obtain ⟨osInfo, log, rfl, h⟩ := h
    split at h
    · exact absurd (runs_done_iff.mp h).2 nofun
    · replace h := runs_now h
      obtain ⟨started, log, rfl, h⟩ := h
      replace h := runs_rethrown_ok
        (fun e => by split; exacts [⟨_, rfl⟩, by split <;> exact ⟨_, rfl⟩]) h
      -- a password is refused
      split at h
      · exact absurd (runs_done_iff.mp h).2 nofun
      · replace h := runs_ofExcept_ok h
        obtain ⟨sent, -, h⟩ := h
        replace h := runs_perform_ok (.execSudo script sent
          (timeoutMs.getD config.commandTimeoutMs)) id h
        obtain ⟨_, outcome, log, rfl, rfl, h⟩ := h
        cases outcome with
        | none => exact absurd (runs_done_iff.mp h).2 nofun
        | some answer =>
          dsimp only at h
          split at h
          · exact absurd (runs_done_iff.mp h).2 nofun
          · replace h := runs_now h
            obtain ⟨finished, log, rfl, h⟩ := h
            obtain ⟨rfl, heq⟩ := runs_done_iff.mp h
            obtain rfl := Except.ok.inj heq
            exact .run session answer hdecision hmode rfl (fun _ => by simp) rfl rfl

variable (config sessionId) in
/-- A command that the host runs to its end. -/
theorem runs_execCommand {session : Session} (henforce : session.policyMode = .enforce)
    (hpermits : engine.Permits (commandContext script .enforce)) {timeoutMs : Option ℕ}
    {sent : String}
    (hline : buildRemoteCommandWithTimeout script.text linuxHost
      (timeoutMs.getD config.commandTimeoutMs) none [] = .ok sent)
    {answer : CommandResult} (hcode : answer.code.getD 0 ∉ terminationCodes) (time : ℕ) :
    Runs (execCommand engine config sessionId script none [] timeoutMs)
      [⟨.getSession sessionId, some session⟩, ⟨.getOSInfo sessionId, .ok linuxHost⟩, ⟨.now, time⟩,
        ⟨.execWithin script sent (timeoutMs.getD config.commandTimeoutMs), .ok (some answer)⟩,
        ⟨.now, time⟩]
      (.ok {
        code := answer.code.getD 0
        stdout := truncateText answer.stdout config.maxCommandOutputBytes
        stderr := truncateText answer.stderr config.maxCommandOutputBytes
        durationMs := time - time }) := by
  refine runs_getSession ?_
  rw [henforce]
  refine runs_guarded rfl hpermits ?_
  change Runs (.perform (Operation.getOSInfo sessionId) _) _ _
  refine .perform _ ?_
  change Runs (.perform Operation.now _) _ _
  refine .perform _ (Runs.tryCatch_ok ?_)
  rw [hline]
  change Runs (.perform (Operation.execWithin script sent (timeoutMs.getD _)) _) _ _
  refine .perform _ ?_
  change Runs (.perform Operation.now _) _ _
  refine .perform _ ?_
  change Runs (if _ then _ else _) _ _
  rw [if_neg hcode]
  exact .done _

end Commands

/-- **When cut text fits its limit**: a text that is cut exactly where it fits anyway or the marker
does, and the outputs that `execCommand` and `execSudo` return exactly where this is so of those of
the host, or the explanation of a dry run fits. -/
theorem truncation_within_iff (value : String) (maxBytes : ℕ) :
    (TruncatesTo value maxBytes (truncateText value maxBytes) ↔ LimitHolds value maxBytes) ∧
    ∀ {rt : Runtime} (engine : PolicyEngine rt) (config : ServerConfig) (sessionId : String)
      (script : Script) (cwd : Option String) (timeoutMs : Option ℕ) (log : List Event)
      (result : ExecResult),
      (∀ env : Environment,
        Runs (execCommand engine config sessionId script cwd env timeoutMs) log (.ok result) →
          (result.Within config.maxCommandOutputBytes ↔
            RunLimitHolds engine config.maxCommandOutputBytes sessionId (commandContext script)
              (explanation script.text false) log)) ∧
      ∀ (password : Option String) (options : SudoPolicyOptions),
        Runs (execSudo engine config sessionId script password cwd timeoutMs options) log
          (.ok result) →
          (result.Within config.maxCommandOutputBytes ↔
            RunLimitHolds engine config.maxCommandOutputBytes sessionId
              (sudoContext script · options)
              (explanation script.text true) log) := by
  refine ⟨truncatesTo_truncateText_iff value maxBytes, ?_⟩
  intro rt engine config sessionId script cwd timeoutMs log result
  exact ⟨fun _ h => (returns_execCommand h).within_iff, fun _ _ h =>
    (returns_execSudo h).within_iff⟩

theorem exists_permitting_commands : ∃ engine : PolicyEngine decimalRuntime,
    ∀ script, engine.Permits (commandContext script .enforce) := by
  obtain ⟨engine, hengine⟩ :=
    PolicyEngine.exists_engine decimalRuntime {} (by decide) (by decide) ⟨rfl, rfl⟩
  refine ⟨engine, fun script => ?_⟩
  exact permits_command (fun _ _ _ => rfl) (by rw [hengine]) (by rw [hengine]) script .enforce

/-- A host may write anything on the outputs of a command. -/
theorem exists_runs_execCommand (config : ServerConfig) (command : String) (answer : CommandResult)
    (hcode : answer.code.getD 0 ∉ terminationCodes) :
    ∃ (engine : PolicyEngine decimalRuntime) (log : List Event) (result : ExecResult),
      Runs (execCommand engine config "ssh-1" (.command command)) log (.ok result) ∧
        log.filterMap hostResult? = [answer] ∧
        (∀ session, ⟨.getSession "ssh-1", some session⟩ ∈ log → session.policyMode = .enforce) ∧
        result.stdout = truncateText answer.stdout config.maxCommandOutputBytes := by
  obtain ⟨engine, hpermits⟩ := exists_permitting_commands
  obtain ⟨sent, hline⟩ := buildRemoteCommandWithTimeout_linux command
    ((none : Option ℕ).getD config.commandTimeoutMs) none assertValidEnvironment_nil
  have hrun := runs_execCommand config "ssh-1"
    (show (⟨.enforce, true⟩ : Session).policyMode = .enforce from rfl) (hpermits (.command command))
    hline hcode 0
  refine ⟨engine, _, _, hrun, rfl, fun session hmem => ?_, rfl⟩
  obtain heq | hmem := List.mem_cons.mp hmem
  · obtain rfl := Option.some.inj (eq_of_heq (Sigma.mk.inj heq).2)
    rfl
  · simp at hmem

/-- A command whose output is cut, and then fits. -/
theorem truncation_within_iff_alphabet :
    ∃ (engine : PolicyEngine decimalRuntime) (log : List Event) (result : ExecResult),
      Runs (execCommand engine { sampleConfig with maxCommandOutputBytes := 52 } "ssh-1"
        (.command "cat alphabet")) log (.ok result) ∧
      result.stdout = "abc\n[ssh-mcp-tool: output truncated after 52 bytes]\n" ∧
        result.Within 52 := by
  obtain ⟨engine, log, result, hrun, hanswer, hmode, hstdout⟩ :=
    exists_runs_execCommand { sampleConfig with maxCommandOutputBytes := 52 } "cat alphabet"
      ⟨some 0, "abcdefghijklmnopqrstuvwxyz ABCDEFGHIJKLMNOPQRSTUVWXYZ", ""⟩ (by decide)
  have hiff := (truncation_within_iff "abc" 52).2 engine
    { sampleConfig with maxCommandOutputBytes := 52 } "ssh-1" (.command "cat alphabet")
      none none log
    result
  refine ⟨engine, log, result, hrun, hstdout.trans (by decide +kernel),
    (hiff.1 [] hrun).mpr ⟨fun answer hmem => ?_, ?_⟩⟩
  · rw [hanswer, List.mem_singleton] at hmem
    subst hmem
    exact ⟨.inr (by decide +kernel), .inl (by decide)⟩
  · intro session decision hmem hdecision hexplain
    -- the mode of a decision is that of the session
    have hasserted := (engine.assertAllowedWith_ok hdecision).1
    rw [hasserted, engine.evaluateWith_mode, commandContext, hmode session hmem] at hexplain
    cases hexplain

/-- **The marker exceeds the limit**: six bytes are cut to a limit of five, and 48 are returned. -/
theorem marker_over_limit :
    (truncateText "abcdef" 5).utf8ByteSize = 48 ∧
      ¬TruncatesTo "abcdef" 5 (truncateText "abcdef" 5) ∧
      ∃ (engine : PolicyEngine decimalRuntime) (log : List Event) (result : ExecResult),
        Runs (execCommand engine { sampleConfig with maxCommandOutputBytes := 5 } "ssh-1"
          (.command "printf abcdef")) log (.ok result) ∧ ¬result.Within 5 := by
  have hsize : (truncateText "abcdef" 5).utf8ByteSize = 48 := by decide +kernel
  refine ⟨hsize, fun h => ?_, ?_⟩
  · rw [TruncatesTo, if_neg (by decide), hsize] at h
    exact absurd h.1 (by decide)
  · obtain ⟨engine, log, result, hrun, -, -, hstdout⟩ :=
      exists_runs_execCommand { sampleConfig with maxCommandOutputBytes := 5 } "printf abcdef"
        ⟨some 0, "abcdef", ""⟩ (by decide)
    refine ⟨engine, log, result, hrun, fun h => ?_⟩
    have hle := h.1
    rw [hstdout] at hle
    exact absurd (hsize.symm.trans_le hle) (by decide)

end Ssh
