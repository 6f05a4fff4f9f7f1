import McpSshTool.Remote.ExecutorCapability

/-!
# Results at the control plane

Whether the control plane can read the result of an execution. A result carries the code of the
error that ended the execution. The codes of the executor's own errors are in `REMOTE_ERROR_CODES`;
those of the operating system, such as `ENOENT`, are not, and the control plane's strict schema
refuses a result with any other code (`result_readable_iff`).

The executor is transparent for the errors of the operating system (`transparent_executeAllowed`):
one of them ends an execution as soon as a call is answered with it, and comes out unchanged.
-/

open Library

namespace Remote

open Schema

/-! ### Errors come out of an execution unchanged -/

/-- A failure of the executor's own making. -/
def Failure.IsOwn : Failure → Prop
  | .system _ => False
  | _ => True

section Transparency

variable {os : Os}

abbrev Clear {α : Type} (os : Os) (x : Exec α) : Prop :=
  Traced.Transparent os.raises Failure.IsOwn x

theorem clear_refuse {α : Type} (code : RemoteErrorCode) (message : String) :
    Clear os (refuse code message : Exec α) :=
  Traced.transparent_fail trivial

theorem clear_require {α : Type} (a : Option α) :
    Clear os (Traced.require Failure.typeError a : Exec α) :=
  Traced.transparent_require trivial a

theorem raised_eq_some_iff {α : Type} {answer : Except SystemError α} {e : Failure} :
    raised answer = some e ↔ answer.mapError Failure.system = .error e := by
  cases answer with
  | error e' =>
    show some (Failure.system e') = some e ↔ (Except.error (Failure.system e') : Except _ α) = _
    simp
  | ok a =>
    show none = some e ↔ (Except.ok a : Except Failure α) = .error e
    simp

theorem map_eq_error_iff {α β : Type} {x : Except Failure α} {f : α → β} {e : Failure} :
    x.map f = .error e ↔ x = .error e := by
  cases x with
  | error e' =>
    show (Except.error e' : Except Failure β) = .error e ↔ _
    simp
  | ok a =>
    show (Except.ok (f a) : Except Failure β) = .error e ↔ _
    simp

theorem clear_perform {α : Type} {call : OsCall} {answer : Except SystemError α}
    (hraises : os.raises call = raised answer) :
    Clear os (.perform call (answer.mapError Failure.system)) := by
  refine Traced.transparent_perform fun e => ?_
  rw [hraises]
  exact raised_eq_some_iff

theorem clear_perform_map {α β : Type} {call : OsCall} {answer : Except SystemError α} (f : α → β)
    (hraises : os.raises call = raised answer) :
    Clear os (.perform call ((answer.mapError Failure.system).map f)) := by
  refine Traced.transparent_perform fun e => ?_
  rw [hraises, raised_eq_some_iff, map_eq_error_iff]

theorem clear_runCommand (command : Command) (cwd : Option String) (timeoutSeconds : JsNumber)
    (maxOutputBytes : ℕ) : Clear os (runCommand os command cwd timeoutSeconds maxOutputBytes) :=
  clear_perform_map _ rfl

theorem clear_assertSafeIdentifier (value label : String) :
    Clear os (assertSafeIdentifier value label) := by
  unfold assertSafeIdentifier
  split
  · exact Traced.transparent_pure ()
  · exact clear_refuse _ _

theorem clear_checkCwd (cwd : Option String) : Clear os (checkCwd os cwd) := by
  unfold checkCwd
  split
  · exact Traced.transparent_pure ()
  · exact clear_perform rfl

variable (host : Host) (policy : AgentPolicy)

theorem clear_tailLogs (target : String) (timeoutSeconds : JsNumber) :
    Clear os (tailLogs host os policy target timeoutSeconds) := by
  unfold tailLogs
  split
  · exact clear_refuse _ _
  · split
    · exact clear_refuse _ _
    · split
      · split
        · exact clear_runCommand _ _ _ _
        · exact Traced.transparent_bind (clear_assertSafeIdentifier _ _) fun _ =>
            clear_runCommand _ _ _ _
      · split
        · exact clear_runCommand _ _ _ _
        · exact Traced.transparent_bind (clear_assertSafeIdentifier _ _) fun _ =>
            clear_runCommand _ _ _ _

theorem clear_restartService (service : String) (timeoutSeconds : JsNumber) :
    Clear os (restartService host os policy service timeoutSeconds) := by
  unfold restartService
  split
  · exact clear_refuse _ _
  · exact Traced.transparent_bind (clear_assertSafeIdentifier _ _) fun _ => clear_runCommand _ _ _ _

theorem clear_onContainer (container : String) (args : List String) (timeoutSeconds : JsNumber) :
    Clear os (onContainer os policy container args timeoutSeconds) := by
  unfold onContainer
  split
  · exact clear_refuse _ _
  · exact Traced.transparent_bind (clear_assertSafeIdentifier _ _) fun _ => clear_runCommand _ _ _ _

theorem clear_fileRead (path : String) : Clear os (fileRead os policy path) := by
  unfold fileRead
  split
  · exact clear_refuse _ _
  · exact clear_perform_map _ rfl

theorem clear_fileWrite (path content : String) : Clear os (fileWrite os policy path content) := by
  unfold fileWrite
  split
  · exact clear_refuse _ _
  · exact clear_perform_map _ rfl

theorem clear_runShell (command : String) (cwd : Option String) (timeoutSeconds : JsNumber) :
    Clear os (runShell host os policy command cwd timeoutSeconds) :=
  Traced.transparent_bind (clear_checkCwd cwd) fun _ => clear_runCommand _ _ _ _

theorem clear_runShellAsRoot (command : String) (cwd : Option String) (timeoutSeconds : JsNumber) :
    Clear os (runShellAsRoot host os policy command cwd timeoutSeconds) := by
  unfold runShellAsRoot
  split
  · exact clear_refuse _ _
  · split
    · exact clear_runCommand _ _ _ _
    · exact clear_runShell _ _ _ _ _

theorem clear_cwdArg (nt : NumberText) (action : ActionRequestEnvelope) :
    Clear os (cwdArg nt action) := by
  unfold cwdArg
  simp only
  split
  · exact clear_require _
  · exact Traced.transparent_pure none

/-- **An execution is transparent** for the errors of the operating system. -/
theorem clear_executeAllowed (nt : NumberText) (action : ActionRequestEnvelope) :
    Clear os (executeAllowed host os policy nt action) := by
  unfold executeAllowed
  split
  · exact clear_refuse _ _
  · refine Traced.transparent_bind (clear_require _) fun wish => ?_
    have htext : ∀ key, Clear os (textArg nt action key) := fun key => clear_require _
    cases action.tool with
    | get_system_status => exact clear_runCommand _ _ _ _
    | docker_ps => exact clear_runCommand _ _ _ _
    | tail_logs =>
      exact Traced.transparent_bind (htext _) fun _ => clear_tailLogs host policy _ _
    | restart_service =>
      exact Traced.transparent_bind (htext _) fun _ => clear_restartService host policy _ _
    | docker_logs =>
      refine Traced.transparent_bind (htext _) fun _ => ?_
      exact Traced.transparent_bind (clear_require _) fun _ => clear_onContainer policy _ _ _
    | docker_restart =>
      exact Traced.transparent_bind (htext _) fun _ => clear_onContainer policy _ _ _
    | file_read => exact Traced.transparent_bind (htext _) fun _ => clear_fileRead policy _
    | file_write =>
      refine Traced.transparent_bind (htext _) fun _ => ?_
      exact Traced.transparent_bind (htext _) fun _ => clear_fileWrite policy _ _
    | run_shell =>
      refine Traced.transparent_bind (htext _) fun _ => ?_
      exact Traced.transparent_bind (clear_cwdArg nt action) fun _ => clear_runShell host
        policy _ _ _
    | run_shell_as_root =>
      refine Traced.transparent_bind (htext _) fun _ => ?_
      exact Traced.transparent_bind (clear_cwdArg nt action) fun _ =>
        clear_runShellAsRoot host policy _ _ _
    | _ => exact clear_refuse _ _

end Transparency

/-! ### What the schema accepts of a result -/

/-- The envelope that a result is read as. -/
def AgentResult.toEnvelope (r : AgentResult) (code : Option RemoteErrorCode) :
    ActionResultEnvelope where
  action_id := r.action_id
  agent_id := r.agent_id
  nonce := r.nonce
  status := r.status
  exit_code := r.exit_code.map fun n => (n.toNat : ℤ)
  stdout := r.stdout
  stderr := r.stderr
  started_at := r.started_at
  finished_at := r.finished_at
  truncated := r.truncated
  error_code := code
  message := r.message
  signature := r.signature

theorem toFields_toEnvelope (r : AgentResult) {code : Option RemoteErrorCode}
    (hcode : r.error_code = code.map (·.text)) :
    (r.toEnvelope code).toFields = r.toFields := by
  obtain ⟨action_id, agent_id, nonce, status, exit_code, stdout, stderr, started_at, finished_at,
    truncated, error_code, message, signature⟩ := r
  obtain rfl : error_code = code.map (·.text) := hcode
  cases exit_code <;> cases code <;> rfl

/-- What the schema asks of a result besides its error code. -/
structure AgentResult.Plain (platform : Platform) (r : AgentResult) : Prop where
  action_id : r.action_id ≠ ""
  agent_id : r.agent_id ≠ ""
  nonce : 16 ≤ JsText.length r.nonce
  started_at : platform.isDatetime r.started_at = true
  finished_at : platform.isDatetime r.finished_at = true
  signature : r.signature ≠ ""

theorem member_transport_toFields (r : AgentResult) (k : String) :
    (Value.obj r.toFields).transport.member k = ((Value.obj r.toFields).member k).transport := by
  refine Value.member_transport_of_nodup ?_ k
  show actionResultKeys.Nodup
  decide

theorem keys_transport_toFields (r : AgentResult) :
    ∀ e ∈ Value.transportMembers r.toFields, e.1 ∈ actionResultKeys := by
  intro e he
  exact (Value.keys_transportMembers_sublist r.toFields).subset (List.mem_map_of_mem he)

/-- **Which results the control plane accepts**: those whose error code, if they have one, is one it
knows. -/
theorem actionResultEnvelopeSchema_result (platform : Platform) {r : AgentResult}
    (hr : r.Plain platform) :
    actionResultEnvelopeSchema platform (Value.obj r.toFields).transport =
      (optional errorCodeSchema (optionalMember Value.str r.error_code)).map r.toEnvelope := by
  have hmember := member_transport_toFields r
  have hstrict := strict_obj (keys_transport_toFields r)
  rw [← Value.transport] at hstrict
  set v := (Value.obj r.toFields).transport with hv
  have htype : literal "action.result" (v.member "type") = some () := by
    rw [hmember]
    rfl
  have haction : stringMin 1 (v.member "action_id") = some r.action_id := by
    rw [hmember]
    exact if_pos (JsText.one_le_length hr.action_id)
  have hagent : stringMin 1 (v.member "agent_id") = some r.agent_id := by
    rw [hmember]
    exact if_pos (JsText.one_le_length hr.agent_id)
  have hnonce : stringMin 16 (v.member "nonce") = some r.nonce := by
    rw [hmember]
    exact if_pos hr.nonce
  have hstatus : enumSchema [ResultStatus.ok, ResultStatus.error] (·.text) (v.member "status") =
      some r.status := by
    rw [hmember]
    show ofText? _ _ r.status.text = _
    cases r.status <;> rfl
  have hstring : ∀ k (s : Option String),
      (Value.obj r.toFields).member k = optionalMember Value.str s →
      optional string (v.member k) = some s := by
    intro k s hk
    rw [hmember, hk]
    cases s <;> rfl
  have hexit : optional int (v.member "exit_code") =
      some (r.exit_code.map fun n => (n.toNat : ℤ)) := by
    rw [hmember]
    show optional int (optionalMember (fun n : UInt32 => Value.int n.toNat) r.exit_code).transport =
      _
    cases r.exit_code with
    | none => rfl
    | some n =>
      -- an exit code of 32 bits is a safe integer
      have hmax : (n.toNat : ℤ) ≤ JsNumber.maxSafeInteger := by
        have := n.toNat_lt
        unfold JsNumber.maxSafeInteger
        omega
      have hmin : -JsNumber.maxSafeInteger ≤ (n.toNat : ℤ) := by
        unfold JsNumber.maxSafeInteger
        omega
      show (int (Value.int n.toNat)).map some = _
      rw [show int (Value.int n.toNat) = some (n.toNat : ℤ) from JsNumber.toSafeInt?_ofInt hmin
        hmax]
      rfl
  have hstarted : stringWhere platform.isDatetime (v.member "started_at") = some r.started_at := by
    rw [hmember]
    exact if_pos hr.started_at
  have hfinished : stringWhere platform.isDatetime (v.member "finished_at") =
    some r.finished_at := by
    rw [hmember]
    exact if_pos hr.finished_at
  have htruncated : boolean (v.member "truncated") = some r.truncated := by
    rw [hmember]
    rfl
  have hcode : v.member "error_code" = optionalMember Value.str r.error_code := by
    rw [hmember]
    show (optionalMember Value.str r.error_code).transport = _
    cases r.error_code <;> rfl
  have hsignature : stringMin 1 (v.member "signature") = some r.signature := by
    rw [hmember]
    exact if_pos (JsText.one_le_length hr.signature)
  have hstdout := hstring "stdout" r.stdout rfl
  have hstderr := hstring "stderr" r.stderr rfl
  have hmessage := hstring "message" r.message rfl
  clear_value v
  unfold actionResultEnvelopeSchema
  rw [hstrict, Option.bind_eq_bind, Option.bind_some, htype, Option.bind_eq_bind, Option.bind_some,
    haction, hagent, hnonce, hstatus, hexit, hstdout, hstderr, hstarted, hfinished, htruncated,
    hcode, hmessage, hsignature]
  cases optional errorCodeSchema (optionalMember Value.str r.error_code) <;> rfl

theorem errorCode_accepted_iff (code : Option String) :
    (optional errorCodeSchema (optionalMember Value.str code)).isSome ↔
      ∀ text, code = some text → text ∈ remoteErrorCodes.map (·.text) := by
  cases code with
  | none => exact ⟨fun _ text h => absurd h (by simp), fun _ => rfl⟩
  | some text =>
    show ((ofText? remoteErrorCodes (·.text) text).map some).isSome ↔ _
    rw [Option.isSome_map]
    constructor
    · intro h text' htext
      obtain rfl := Option.some.inj htext
      obtain ⟨c, hc⟩ := Option.isSome_iff_exists.mp h
      exact List.mem_map.mpr ⟨c, c.mem_all, ofText?_eq_some hc⟩
    · intro h
      obtain ⟨c, -, hc⟩ := List.mem_map.mp (h text rfl)
      rw [← hc, ofText?_text RemoteErrorCode.text_injective c.mem_all]
      rfl

theorem errorCode_eq_some {code : Option String} {c : Option RemoteErrorCode}
    (h : optional errorCodeSchema (optionalMember Value.str code) = some c) :
    code = c.map (·.text) := by
  cases code with
  | none =>
    obtain rfl : none = c := Option.some.inj h
    rfl
  | some =>
    obtain ⟨c', hc', rfl⟩ := Option.map_eq_some_iff.mp h
    rw [Option.map_some, ofText?_eq_some hc']

/-! ### Results that the control plane can read -/

/-- The codes that the control plane knows. -/
def IsKnownCode (code : String) : Prop := code ∈ remoteErrorCodes.map (·.text)

theorem RemoteErrorCode.isKnownCode (c : RemoteErrorCode) : IsKnownCode c.text :=
  List.mem_map_of_mem c.mem_all

theorem Failure.IsOwn.isKnownCode {e : Failure} (h : e.IsOwn) : IsKnownCode e.code := by
  cases e with
  | refused code => exact code.isKnownCode
  | typeError => exact RemoteErrorCode.internalError.isKnownCode
  | system => exact h.elim

/-- An error of the operating system is reported under a known code, unless it carries another. -/
theorem Failure.isKnownCode_system_iff (e : SystemError) :
    IsKnownCode (Failure.system e).code ↔ ∀ code, e.code = some code → IsKnownCode code := by
  show IsKnownCode (e.code.getD RemoteErrorCode.internalError.text) ↔ _
  cases e.code with
  | none => exact ⟨fun _ code h => absurd h (by simp), fun _ =>
      RemoteErrorCode.internalError.isKnownCode⟩
  | some code =>
    constructor
    · intro h code' hcode
      obtain rfl := Option.some.inj hcode
      exact h
    · intro h
      exact h code rfl

theorem Os.raises_eq_some {os : Os} {call : OsCall} {f : Failure} (h : os.raises call = some f) :
    ∃ e, f = .system e := by
  have hraised : ∀ {α : Type} {answer : Except SystemError α}, raised answer = some f →
      ∃ e, f = .system e := by
    intro α answer h
    cases answer with
    | error e => exact ⟨e, (Option.some.inj h).symm⟩
    | ok => exact absurd h (by simp [raised])
  cases call <;> exact hraised h

/-- The calls of a computation are answered with errors that the control plane knows, if any. -/
def AnswersKnown (os : Os) (calls : List OsCall) : Prop :=
  ∀ call ∈ calls, ∀ e code, os.raises call = some (.system e) → e.code = some code →
    IsKnownCode code

/-- **The failure of a transparent computation has a known code** exactly when its calls have been
answered with known ones. -/
theorem failure_isKnownCode_iff {α : Type} {os : Os} {x : Exec α} (hx : Clear os x) :
    (∀ f, x.result = .error f → IsKnownCode f.code) ↔ AnswersKnown os x.calls := by
  constructor
  · intro h call hcall e code he hcode
    exact (Failure.isKnownCode_system_iff e).mp (h _ (hx.passesOn call hcall _ he)) code hcode
  · intro h f hf
    rcases hx.failsBy f hf with hown | ⟨call, hcall, hraised⟩
    · exact hown.isKnownCode
    · obtain ⟨e, rfl⟩ := Os.raises_eq_some hraised
      exact (Failure.isKnownCode_system_iff e).mpr fun code => h call hcall e code hraised

section Readable

variable {platform : Platform} {publicKeyPem privateKeyPem : String}

/-- A signed result verifies at the control plane, for reading it has changed nothing. -/
theorem verifyEnvelope_signResult (hkeys : KeyPair platform publicKeyPem privateKeyPem)
    (r : AgentResult) {code : Option RemoteErrorCode} (hcode : r.error_code = code.map (·.text)) :
    verifyEnvelope platform ((signResult platform privateKeyPem r).toEnvelope code).toFields
      publicKeyPem = true := by
  rw [toFields_toEnvelope (signResult platform privateKeyPem r) hcode]
  have hnodup : ((signResult platform privateKeyPem r).toFields.map Prod.fst).Nodup := by
    show actionResultKeys.Nodup
    decide
  -- the signature itself is not part of the signed text
  have hsame : unsigned r.toFields = unsigned (signResult platform privateKeyPem r).toFields := rfl
  refine verifyEnvelope_of_signed hkeys hnodup hnodup (fun _ _ => rfl) ?_
  show Value.str (signEnvelope platform r.toFields privateKeyPem) = _
  rw [signEnvelope, hsame, ← signEnvelope]

theorem signResult_readable_iff (hkeys : KeyPair platform publicKeyPem privateKeyPem)
    {r : AgentResult} (hr : (signResult platform privateKeyPem r).Plain platform) :
    (∃ e, actionResultEnvelopeSchema platform
        (Value.obj (signResult platform privateKeyPem r).toFields).transport = some e ∧
          verifyEnvelope platform e.toFields publicKeyPem = true) ↔
      ∀ code, r.error_code = some code → IsKnownCode code := by
  rw [actionResultEnvelopeSchema_result platform hr]
  refine Iff.trans ?_ (errorCode_accepted_iff r.error_code)
  constructor
  · rintro ⟨e, he, -⟩
    obtain ⟨c, hc, -⟩ := Option.map_eq_some_iff.mp he
    exact Option.isSome_of_eq_some hc
  · intro h
    obtain ⟨c, hc⟩ := Option.isSome_iff_exists.mp h
    refine ⟨(signResult platform privateKeyPem r).toEnvelope c, ?_, ?_⟩
    · exact Option.map_eq_some_iff.mpr ⟨c, hc, rfl⟩
    · exact verifyEnvelope_signResult hkeys r (errorCode_eq_some hc)

/-- **When a result is readable**: after its trip through JSON the control plane accepts it and
finds that the agent has signed it, exactly when no call of the execution was answered with an error
whose code is outside `REMOTE_ERROR_CODES`. -/
theorem result_readable_iff (host : Host) (os : Os) (policy : AgentPolicy) (t : ExecMoment)
    (action : ActionRequestEnvelope) (hkeys : KeyPair platform publicKeyPem privateKeyPem)
    (haction : action.action_id ≠ "") (hagent : action.agent_id ≠ "")
    (hnonce : 16 ≤ JsText.length t.nonce)
    (hstarted : platform.isDatetime (platform.toISOString t.startedAt) = true)
    (hfinished : platform.isDatetime (platform.toISOString t.finishedAt) = true) :
    (∃ e, actionResultEnvelopeSchema platform
        (Value.obj (execute platform host os policy privateKeyPem t action).toFields).transport =
          some e ∧ verifyEnvelope platform e.toFields publicKeyPem = true) ↔
      AnswersKnown os (executeAllowed host os policy platform.numberText action).calls := by
  have hclear : Clear os (executeAllowed host os policy platform.numberText action) :=
    clear_executeAllowed host policy platform.numberText action
  have hplain : (execute platform host os policy privateKeyPem t action).Plain platform :=
    ⟨haction, hagent, hnonce, hstarted, hfinished, hkeys.sign_ne _⟩
  rw [← failure_isKnownCode_iff hclear]
  refine (signResult_readable_iff hkeys hplain).trans ?_
  -- the error code of the result is that of the failure
  show (∀ code, (unsignedResult platform t action _).error_code = some code → _) ↔ _
  cases (executeAllowed host os policy platform.numberText action).result with
  | ok =>
    constructor
    · intro _ f hf
      exact absurd hf (by simp)
    · intro _ code hcode
      exact absurd hcode (by simp [unsignedResult])
  | error f =>
    constructor
    · intro h f' hf
      obtain rfl := Except.error.inj hf
      exact h _ rfl
    · intro h code hcode
      obtain rfl := Option.some.inj hcode
      exact h f rfl

end Readable

/-! ### A missing file -/

/-- An operating system without files. -/
def emptyDisk : Os :=
  { quietOs with
    readFile := fun path _ =>
      .error
        { code := some "ENOENT", message := "ENOENT: no such file or directory, open " ++ path } }

def sampleExecMoment : ExecMoment where
  startedAt := 10
  finishedAt := 20
  nonce := "0123456789abcdef"

/-- The result of a shell command is readable. -/
theorem result_readable_iff_shell :
    (∃ e, actionResultEnvelopeSchema samplePlatform
        (Value.obj (execute samplePlatform { windows := false, uid := some 0 } emptyDisk
          (profilePolicy .fullAdmin) "agent" sampleExecMoment
          (sampleRequest .run_shell .shellExec)).toFields).transport = some e ∧
        verifyEnvelope samplePlatform e.toFields "agent" = true) ↔
      AnswersKnown emptyDisk (executeAllowed { windows := false, uid := some 0 } emptyDisk
        (profilePolicy .fullAdmin) samplePlatform.numberText
        (sampleRequest .run_shell .shellExec)).calls :=
  result_readable_iff { windows := false, uid := some 0 } emptyDisk (profilePolicy .fullAdmin)
    sampleExecMoment (sampleRequest .run_shell .shellExec) (keyPair_samplePlatform "agent")
    (by decide) (by decide) (by decide) (by decide +kernel) (by decide +kernel)

/-- **A missing file makes the result unreadable**: reading it fails with `ENOENT`, the result
carries that code, and the control plane refuses the message. -/
theorem missing_file_unreadable :
    let result := execute samplePlatform { windows := false, uid := some 0 } emptyDisk
      (profilePolicy .fullAdmin) "agent" sampleExecMoment (sampleRequest .file_read .filesRead)
    result.error_code = some "ENOENT" ∧
      (actionResultEnvelopeSchema samplePlatform (Value.obj result.toFields).transport).isSome
        = false := by
  decide +kernel

end Remote
