import McpSshTool.Js.IllFormed
import McpSshTool.Remote.BoundedOutput
import McpSshTool.Remote.ExecutorCapability

/-!
# The cap on output

How long the output strings of a result are. Output is cut as bytes and then read as text, and what
is ill-formed in it becomes U+FFFD, which is longer than the bytes it stands for.

* `AnsweredByLast` — an execution ends with what its last call was answered, however it came there;
* `FitsDecoded` — the bytes that are kept leave room for the replacements in them;
* `output_within_iff` — the output strings of a result are within the cap exactly when both outputs
  leave that room.

The cut itself never costs anything but a character that it splits: the marker is plain text.
-/

open Library

namespace Remote

/-! ### What an execution ends with -/

section Answers

variable (os : Os) (policy : AgentPolicy)

/-- What a call that an execution ends with makes of it. -/
def AnswersWith : OsCall → Except Failure ExecResult → Prop
  | .spawn command args cwd timeoutSeconds, result =>
    result = ((os.spawn command args cwd timeoutSeconds).mapError .system).map
      (childResult policy.maxOutputBytes)
  | .readFile path n, result =>
    result = ((os.readFile path n).mapError .system).map fun content =>
      { exitCode := 0, stdout := Utf8.decode (truncateBuffer content policy.maxOutputBytes).1,
        stderr := "", truncated := (truncateBuffer content policy.maxOutputBytes).2 }
  | _, _ => True

/-- **The execution ends with what its last call was answered.** -/
def AnsweredByLast (x : Exec ExecResult) : Prop :=
  ∀ call, x.calls.getLast? = some call → AnswersWith os policy call x.result

variable {os policy}

theorem answered_of_no_calls {x : Exec ExecResult} (h : x.calls = []) :
    AnsweredByLast os policy x := by
  intro call hlast
  rw [h] at hlast
  cases hlast

theorem answered_perform {call : OsCall} {answer : Except Failure ExecResult}
    (h : AnswersWith os policy call answer) : AnsweredByLast os policy (.perform call answer) := by
  intro call' hlast
  obtain rfl := Option.some.inj hlast
  exact h

theorem answered_runCommand (command : Command) (cwd : Option String) (timeoutSeconds : JsNumber) :
    AnsweredByLast os policy (runCommand os command cwd timeoutSeconds policy.maxOutputBytes) :=
  answered_perform rfl

/-- What comes before a part of an execution does not show, if it has no effect. -/
theorem answered_bind {α : Type} {x : Exec α} {f : α → Exec ExecResult}
    (hx : ∀ call ∈ x.calls, call.isEffect = false) (hf : ∀ a, AnsweredByLast os policy (f a)) :
    AnsweredByLast os policy (x >>= f) := by
  -- of the calls without an effect none is said to answer anything
  have hquiet : ∀ {call : OsCall} {result : Except Failure ExecResult}, call ∈ x.calls →
      AnswersWith os policy call result := by
    intro call result hcall
    have heffect := hx call hcall
    cases call with
    | access => trivial
    | _ => cases heffect
  intro call hlast
  cases hresult : x.result with
  | error =>
    rw [Traced.bind_of_error hresult] at hlast ⊢
    exact hquiet (List.mem_of_getLast? hlast)
  | ok a =>
    rw [Traced.bind_of_ok hresult] at hlast ⊢
    dsimp only at hlast ⊢
    rw [List.getLast?_append] at hlast
    cases hrest : (f a).calls.getLast? with
    -- the second part makes no call, so the last one is of the first part
    | none =>
      rw [hrest, Option.none_or] at hlast
      exact hquiet (List.mem_of_getLast? hlast)
    | some call' =>
      rw [hrest, Option.some_or] at hlast
      obtain rfl := Option.some.inj hlast
      exact hf a _ hrest

theorem answered_require {α : Type} (a : Option α) {f : α → Exec ExecResult}
    (hf : ∀ a, AnsweredByLast os policy (f a)) :
    AnsweredByLast os policy (Traced.require Failure.typeError a >>= f) := by
  refine answered_bind (fun call hcall => ?_) hf
  cases a <;> exact absurd hcall List.not_mem_nil

theorem answered_assertSafeIdentifier (value label : String) {f : Unit → Exec ExecResult}
    (hf : ∀ a, AnsweredByLast os policy (f a)) :
    AnsweredByLast os policy (assertSafeIdentifier value label >>= f) := by
  refine answered_bind (fun call hcall => ?_) hf
  unfold assertSafeIdentifier at hcall
  split at hcall <;> exact absurd hcall List.not_mem_nil

variable (host : Host)

theorem answered_tailLogs (target : String) (timeoutSeconds : JsNumber) :
    AnsweredByLast os policy (tailLogs host os policy target timeoutSeconds) := by
  unfold tailLogs
  split
  · exact answered_of_no_calls rfl
  · split
    · exact answered_of_no_calls rfl
    · split
      · split
        · exact answered_runCommand _ _ _
        · exact answered_assertSafeIdentifier _ _ fun _ => answered_runCommand _ _ _
      · split
        · exact answered_runCommand _ _ _
        · exact answered_assertSafeIdentifier _ _ fun _ => answered_runCommand _ _ _

theorem answered_restartService (service : String) (timeoutSeconds : JsNumber) :
    AnsweredByLast os policy (restartService host os policy service timeoutSeconds) := by
  unfold restartService
  split
  · exact answered_of_no_calls rfl
  · exact answered_assertSafeIdentifier _ _ fun _ => answered_runCommand _ _ _

theorem answered_onContainer (container : String) (args : List String) (timeoutSeconds : JsNumber) :
    AnsweredByLast os policy (onContainer os policy container args timeoutSeconds) := by
  unfold onContainer
  split
  · exact answered_of_no_calls rfl
  · exact answered_assertSafeIdentifier _ _ fun _ => answered_runCommand _ _ _

theorem answered_fileRead (path : String) : AnsweredByLast os policy (fileRead os policy path) := by
  unfold fileRead
  split
  · exact answered_of_no_calls rfl
  · refine answered_perform ?_
    unfold AnswersWith
    simp only [truncateBuffer_take]

theorem answered_fileWrite (path content : String) :
    AnsweredByLast os policy (fileWrite os policy path content) := by
  unfold fileWrite
  split
  · exact answered_of_no_calls rfl
  · exact answered_perform trivial

theorem answered_runShell (command : String) (cwd : Option String) (timeoutSeconds : JsNumber) :
    AnsweredByLast os policy (runShell host os policy command cwd timeoutSeconds) := by
  refine answered_bind (fun call hcall => ?_) fun _ => answered_runCommand _ _ _
  unfold checkCwd at hcall
  split at hcall
  · exact absurd hcall List.not_mem_nil
  · rw [List.mem_singleton.mp hcall]
    rfl

theorem answered_runShellAsRoot (command : String) (cwd : Option String)
    (timeoutSeconds : JsNumber) :
    AnsweredByLast os policy (runShellAsRoot host os policy command cwd timeoutSeconds) := by
  unfold runShellAsRoot
  split
  · exact answered_of_no_calls rfl
  · split
    · exact answered_runCommand _ _ _
    · exact answered_runShell host command cwd timeoutSeconds

/-- **Every execution** ends with what its last call was answered. -/
theorem answered_executeAllowed (nt : NumberText) (action : ActionRequestEnvelope) :
    AnsweredByLast os policy (executeAllowed host os policy nt action) := by
  unfold executeAllowed
  split
  · exact answered_of_no_calls rfl
  · refine answered_require _ fun wish => ?_
    -- the directory is an argument that may be left out
    have hcwd : ∀ {f : Option String → Exec ExecResult}, (∀ cwd, AnsweredByLast os policy (f cwd)) →
        AnsweredByLast os policy (cwdArg nt action >>= f) := by
      intro f hf
      unfold cwdArg
      dsimp only
      split
      · exact answered_require _ hf
      · exact hf none
    cases action.tool with
    | get_system_status => exact answered_runCommand _ _ _
    | docker_ps => exact answered_runCommand _ _ _
    | tail_logs => exact answered_require _ fun _ => answered_tailLogs host _ _
    | restart_service => exact answered_require _ fun _ => answered_restartService host _ _
    | docker_logs =>
      exact answered_require _ fun _ => answered_require _ fun _ => answered_onContainer _ _ _
    | docker_restart => exact answered_require _ fun _ => answered_onContainer _ _ _
    | file_read => exact answered_require _ fun _ => answered_fileRead _
    | file_write =>
      exact answered_require _ fun _ => answered_require _ fun _ => answered_fileWrite _ _
    | run_shell => exact answered_require _ fun _ => hcwd fun _ => answered_runShell host _ _ _
    | run_shell_as_root =>
      exact answered_require _ fun _ => hcwd fun _ => answered_runShellAsRoot host _ _ _
    -- the executor does not know the other tools
    | _ => exact answered_of_no_calls rfl

end Answers

/-! ### The length of what is kept -/

/-- **Room for the replacements**: three bytes for each ill-formed sequence in the bytes that are
kept, all of them where they are within the cap, else those before the marker. -/
def FitsDecoded (maxBytes : ℕ) (content : List UInt8) : Prop :=
  if content.length ≤ maxBytes then content.length + Utf8.growth content ≤ maxBytes
  else maxBytes ≤ (truncationMarker maxBytes).length ∨
    Utf8.growth (content.take (maxBytes - (truncationMarker maxBytes).length)) = 0

/-- The marker is plain text. -/
theorem lt_of_mem_truncationMarker {maxBytes : ℕ} :
    ∀ b ∈ truncationMarker maxBytes, b.toNat < 0x80 := by
  refine Utf8.lt_of_mem_encode fun c hc => ?_
  rw [String.toList_append, String.toList_append, List.mem_append, List.mem_append] at hc
  obtain (hc | hc) | hc := hc
  · have hplain : "\n[truncated after ".toList.all (·.toNat < 0x80) = true := by decide
    exact of_decide_eq_true (List.all_eq_true.mp hplain c hc)
  · -- the number is in decimal digits
    have hdigit := JsText.digits_of_nat maxBytes c hc
    simp only [Char.isDigit, Bool.and_eq_true, decide_eq_true_eq] at hdigit
    have hle : c.val ≤ 57 := hdigit.2
    exact Nat.lt_of_le_of_lt hle (by decide)
  · have hplain : " bytes]\n".toList.all (·.toNat < 0x80) = true := by decide
    exact of_decide_eq_true (List.all_eq_true.mp hplain c hc)

/-- **What is kept is within the cap as text** exactly when it has room for the replacements. -/
theorem decode_truncateBuffer_le_iff (content : List UInt8) (maxBytes : ℕ) :
    (Utf8.encode (Utf8.decode (truncateBuffer content maxBytes).1)).length ≤ maxBytes ↔
      FitsDecoded maxBytes content := by
  rw [Utf8.length_encode_decode]
  unfold FitsDecoded truncateBuffer
  by_cases hfits : content.length ≤ maxBytes
  · rw [if_pos hfits, if_pos hfits]
  · rw [if_neg hfits, if_neg hfits]
    unfold appendTruncationMarker
    by_cases hzero : maxBytes ≤ 0
    · rw [if_pos hzero]
      exact iff_of_true (Nat.zero_le _) (.inl (Nat.le_trans hzero (Nat.zero_le _)))
    · rw [if_neg hzero]
      dsimp only
      by_cases hmarker : maxBytes ≤ (truncationMarker maxBytes).length
      · -- nothing but the beginning of the marker is kept
        rw [if_pos hmarker]
        refine iff_of_true ?_ (.inl hmarker)
        have hplain : Utf8.growth ((truncationMarker maxBytes).take maxBytes) = 0 :=
          Utf8.growth_append_ascii [] fun b hb => lt_of_mem_truncationMarker b
            (List.mem_of_mem_take hb)
        rw [hplain]
        exact List.length_take_le _ _
      · rw [if_neg hmarker]
        have hlength : (content.take (maxBytes - (truncationMarker maxBytes).length) ++
            truncationMarker maxBytes).length = maxBytes := by
          rw [List.length_append, List.length_take]
          omega
        have hconcat : concatBytes [content.take (maxBytes - (truncationMarker maxBytes).length),
            truncationMarker maxBytes] maxBytes =
              content.take (maxBytes - (truncationMarker maxBytes).length) ++
                truncationMarker maxBytes := by
          have hflatten := concatBytes_flatten
            [content.take (maxBytes - (truncationMarker maxBytes).length),
              truncationMarker maxBytes]
          rw [List.flatten_cons, List.flatten_singleton, hlength] at hflatten
          exact hflatten
        rw [hconcat, hlength, Utf8.growth_append_ascii _ lt_of_mem_truncationMarker,
          or_iff_right hmarker]
        omega

/-! ### Results -/

/-- **What a call produces**: the output of a command, in chunks none of which is empty, or the
content of a file. -/
inductive Produces (os : Os) : OsCall → List UInt8 → List UInt8 → Prop
  | ran {command : String} {args : List String} {cwd : Option String} {timeoutSeconds : JsNumber}
      {code : Option UInt32} {timedOut : Bool} {stdout stderr : List (List UInt8)}
      (h : os.spawn command args cwd timeoutSeconds = .ok (.closed code timedOut stdout stderr))
      (hstdout : ∀ chunk ∈ stdout, chunk ≠ []) (hstderr : ∀ chunk ∈ stderr, chunk ≠ []) :
      Produces os (.spawn command args cwd timeoutSeconds) stdout.flatten stderr.flatten
  | read {path : String} {n : ℕ} {content : List UInt8} (h : os.readFile path n = .ok content) :
      Produces os (.readFile path n) content []

/-- The output strings are what is kept of the bytes. -/
theorem answersWith_of_produces {os : Os} {policy : AgentPolicy} {call : OsCall}
    {stdout stderr : List UInt8} {result : Except Failure ExecResult}
    (h : Produces os call stdout stderr) (hresult : AnswersWith os policy call result) :
    ∃ r, result = .ok r ∧
      r.stdout = Utf8.decode (truncateBuffer stdout policy.maxOutputBytes).1 ∧
      r.stderr = Utf8.decode (truncateBuffer stderr policy.maxOutputBytes).1 := by
  cases h with
  -- both streams of a command are bounded chunk by chunk, and a file in one piece
  | ran h hstdout hstderr =>
    dsimp only [AnswersWith] at hresult
    rw [h] at hresult
    refine ⟨_, hresult, ?_, ?_⟩
    · rw [← boundedOutput_eq hstdout]
      rfl
    · rw [← boundedOutput_eq hstderr]
      rfl
  | read h =>
    dsimp only [AnswersWith] at hresult
    rw [h] at hresult
    exact ⟨_, hresult, rfl, rfl⟩

/-- **When output is within the cap.** Whatever is asked of the agent, and whatever bytes a command
writes or a file holds: the output strings of the result are within the policy's cap exactly when
both outputs have room for the replacements in them. -/
theorem output_within_iff (platform : Platform) (host : Host) (os : Os) (policy : AgentPolicy)
    (privateKeyPem : String) (t : ExecMoment) (action : ActionRequestEnvelope) {call : OsCall}
    {stdout stderr : List UInt8}
    (hlast : (executeAllowed host os policy platform.numberText action).calls.getLast? = some call)
    (hproduced : Produces os call stdout stderr) :
    ∃ out err, (execute platform host os policy privateKeyPem t action).stdout = some out ∧
      (execute platform host os policy privateKeyPem t action).stderr = some err ∧
      (((Utf8.encode out).length ≤ policy.maxOutputBytes ∧
          (Utf8.encode err).length ≤ policy.maxOutputBytes) ↔
        FitsDecoded policy.maxOutputBytes stdout ∧ FitsDecoded policy.maxOutputBytes stderr) := by
  obtain ⟨r, hresult, hout, herr⟩ :=
    answersWith_of_produces hproduced (answered_executeAllowed host platform.numberText
      action _ hlast)
  refine ⟨r.stdout, r.stderr, ?_, ?_, ?_⟩
  · show (executeAllowed host os policy platform.numberText action).result.toOption.map _ = _
    rw [hresult]
    rfl
  · show (executeAllowed host os policy platform.numberText action).result.toOption.map _ = _
    rw [hresult]
    rfl
  · rw [hout, herr, decode_truncateBuffer_le_iff, decode_truncateBuffer_le_iff]

/-- The disk of a host on which every file has the same content. -/
def diskOf (content : List UInt8) : Os :=
  { quietOs with readFile := fun _ n => .ok (content.take n) }

/-- The agent is asked for a file, and may return so many bytes of output. -/
def readsWithin (maxBytes : ℕ) (content : List UInt8) : AgentResult :=
  execute samplePlatform { windows := false, uid := some 0 } (diskOf content)
    { profilePolicy .fullAdmin with maxOutputBytes := maxBytes } "agent"
    { startedAt := 10, finishedAt := 20, nonce := "0123456789abcdef" }
    (sampleRequest .file_read .filesRead)

/-- The criterion for a file with a byte that is no text. -/
theorem output_within_iff_byte :
    ∃ out err, (readsWithin 5 [0x61, 0xFF, 0x62]).stdout = some out ∧
      (readsWithin 5 [0x61, 0xFF, 0x62]).stderr = some err ∧
      (((Utf8.encode out).length ≤ 5 ∧ (Utf8.encode err).length ≤ 5) ↔
        FitsDecoded 5 [0x61, 0xFF, 0x62] ∧ FitsDecoded 5 []) := by
  have hlast : (executeAllowed { windows := false, uid := some 0 } (diskOf [0x61, 0xFF, 0x62])
      { profilePolicy .fullAdmin with maxOutputBytes := 5 } samplePlatform.numberText
      (sampleRequest .file_read .filesRead)).calls.getLast? = some (.readFile "/tmp/a" 6) := by
    decide +kernel
  exact output_within_iff samplePlatform { windows := false, uid := some 0 }
    (diskOf [0x61, 0xFF, 0x62]) { profilePolicy .fullAdmin with maxOutputBytes := 5 } "agent" _
    (sampleRequest .file_read .filesRead) hlast (.read rfl)

/-- **A character that the limit splits**: 32 bytes are allowed, of which the marker takes 28, and
the byte that is left of a euro sign is read as U+FFFD. -/
theorem split_character_over_cap :
    (readsWithin 32 (Utf8.encode "abc€€€€€€€€€€")).stdout.any
      (fun out => decide (32 < (Utf8.encode out).length)) = true := by
  decide +kernel

end Remote
