import McpSshTool.Connector.Credentials
import McpSshTool.Library.Run

/-!
# The credential command

`runCredentialCommand` (`connector-credentials.ts`): a promise that a child process, a timer and a
limit on its output race for.

* `ChildEvent`, `CredentialRun.step` — what happens to the child, in any order, and what the
  handlers do about it;
* `settled_run` — whatever settles the promise first has settled it for good;
* `reply_iff` — **when the command has given credentials**: nothing but output has come before it
  closed with the code zero, the output fits the limit, and it is a text that the schema accepts.
-/

open Library Ssh

namespace Connector

/-- What the promise takes from the language and the `zod` package. -/
structure ReplyRuntime where
  /-- `JSON.parse`, or what it throws. -/
  parseJson : String → Except Failure Value
  /-- What `CommandCredentialResponseSchema.parse` throws. -/
  zodError : Value → Failure

/-- What happens to the child process. -/
inductive ChildEvent where
  /-- A piece of its output, decoded. -/
  | data (chunk : String)
  | error (error : Failure)
  /-- It is closed; there is no code if it was killed. -/
  | close (code : Option ℕ)
  | timeout

/-- The promise, with the variables of its handlers. -/
structure CredentialRun where
  stdout : String := ""
  stdoutBytes : ℕ := 0
  timer : Bool := true
  killed : Bool := false
  settled : Option (Except Failure CommandCredentials) := none

/-- The limit on the output, in bytes. -/
def maxReplyBytes : ℕ := 32 * 1024

/-- The reply that an output is. -/
def parseReply (rt : ReplyRuntime) (stdout : String) : Except Failure CommandCredentials :=
  match rt.parseJson stdout with
  | .error e => .error e
  | .ok value =>
    match commandCredentialResponseSchema value with
    | none => .error (rt.zodError value)
    | some credentials => .ok credentials

namespace CredentialRun

/-- `resolve` and `reject`: the first call counts. -/
def settle (s : CredentialRun) (result : Except Failure CommandCredentials) : CredentialRun :=
  { s with settled := s.settled.or (some result) }

/-- `child.stdout.on("data")`. -/
def onData (s : CredentialRun) (chunk : String) : CredentialRun :=
  let stdoutBytes := s.stdoutBytes + chunk.utf8ByteSize
  if stdoutBytes > maxReplyBytes then
    { s with stdoutBytes, killed := true }.settle
      (.error (plainError "Credential command output exceeded 32 KiB."))
  else { s with stdoutBytes, stdout := s.stdout ++ chunk }

/-- `child.on("close")`. -/
def onClose (rt : ReplyRuntime) (s : CredentialRun) (code : Option ℕ) : CredentialRun :=
  let s := { s with timer := false }
  if code ≠ some 0 then s.settle (.error (plainError "Credential command failed."))
  else s.settle (parseReply rt s.stdout)

/-- One event. -/
def step (rt : ReplyRuntime) (s : CredentialRun) : ChildEvent → CredentialRun
  | .data chunk => s.onData chunk
  | .error e => { s with timer := false }.settle (.error e)
  | .close code => s.onClose rt code
  | .timeout =>
    if s.timer then
      { s with timer := false, killed := true }.settle
        (.error (plainError "Credential command timed out."))
    else s

variable {rt : ReplyRuntime} {s : CredentialRun} {result : Except Failure CommandCredentials}

/-! ### Settling -/

theorem settled_settle_of_some (h : s.settled = some result)
    (result' : Except Failure CommandCredentials) : (s.settle result').settled = some result := by
  rw [settle, h, Option.some_or]

theorem settled_settle_of_none (h : s.settled = none) :
    (s.settle result).settled = some result := by
  rw [settle, h, Option.none_or]

theorem settled_step (h : s.settled = some result) (e : ChildEvent) :
    (s.step rt e).settled = some result := by
  cases e with
  | data =>
    unfold step onData
    dsimp only
    split
    · exact settled_settle_of_some h _
    · exact h
  | error => exact settled_settle_of_some h _
  | close =>
    unfold step onClose
    dsimp only
    split
    · exact settled_settle_of_some h _
    · exact settled_settle_of_some h _
  | timeout =>
    change (if s.timer then _ else s : CredentialRun).settled = some result
    split
    · exact settled_settle_of_some h _
    · exact h

/-- **A promise is settled once.** -/
theorem settled_run (h : s.settled = some result) (es : List ChildEvent) :
    (Run.run (step rt) s es).settled = some result :=
  Run.run_of_preserved (C := fun _ _ => True)
    (P := fun s : CredentialRun => s.settled = some result) (fun _ e h _ => settled_step h e) h
    (Run.allSteps_of_forall (fun _ _ => trivial) _ _)

theorem settled_run_cons (es : List ChildEvent) {e : ChildEvent}
    (h : (s.step rt e).settled = some result) :
    (Run.run (step rt) s (e :: es)).settled = some result := by
  rw [Run.run_cons]
  exact settled_run h es

/-! ### The events while the promise is open -/

theorem step_data_over {chunk : String}
    (hover : s.stdoutBytes + chunk.utf8ByteSize > maxReplyBytes) (hopen : s.settled = none) :
    (s.step rt (.data chunk)).settled =
      some (.error (plainError "Credential command output exceeded 32 KiB.")) := by
  unfold step onData
  dsimp only
  rw [if_pos hover]
  exact settled_settle_of_none hopen

theorem step_data_fits {chunk : String}
    (hfits : ¬s.stdoutBytes + chunk.utf8ByteSize > maxReplyBytes) :
    s.step rt (.data chunk) = { s with
      stdoutBytes := s.stdoutBytes + chunk.utf8ByteSize, stdout := s.stdout ++ chunk } := by
  unfold step onData
  dsimp only
  rw [if_neg hfits]

theorem step_error (hopen : s.settled = none) (e : Failure) :
    (s.step rt (.error e)).settled = some (.error e) :=
  settled_settle_of_none (s := { s with timer := false }) hopen

theorem step_timeout (hopen : s.settled = none) (htimer : s.timer = true) :
    (s.step rt .timeout).settled =
      some (.error (plainError "Credential command timed out.")) := by
  unfold step
  dsimp only
  rw [if_pos htimer]
  exact settled_settle_of_none (s := { s with timer := false, killed := true }) hopen

theorem step_close (hopen : s.settled = none) (code : Option ℕ) :
    (s.step rt (.close code)).settled =
      some (if code ≠ some 0 then .error (plainError "Credential command failed.")
        else parseReply rt s.stdout) := by
  unfold step onClose
  dsimp only
  split
  · exact settled_settle_of_none (s := { s with timer := false }) hopen
  · exact settled_settle_of_none (s := { s with timer := false }) hopen

/-! ### Credentials -/

/-- The events of a command that succeeds: its output, and its end. -/
def Succeeds (es : List ChildEvent) (chunks : List String) : Prop :=
  ∃ rest, es = chunks.map .data ++ .close (some 0) :: rest

theorem not_succeeds_nil (chunks : List String) : ¬Succeeds [] chunks := by
  rintro ⟨rest, h⟩
  exact absurd h.symm (List.append_ne_nil_of_right_ne_nil _ (List.cons_ne_nil _ _))

theorem succeeds_data_iff {chunk : String} {es : List ChildEvent} {chunks : List String} :
    Succeeds (.data chunk :: es) chunks ↔ ∃ chunks', chunks = chunk :: chunks' ∧
      Succeeds es chunks' := by
  unfold Succeeds
  cases chunks with
  | nil => simp
  | cons => simp [eq_comm, and_comm]

theorem succeeds_close_iff {code : Option ℕ} {es : List ChildEvent} {chunks : List String} :
    Succeeds (.close code :: es) chunks ↔ chunks = [] ∧ code = some 0 := by
  unfold Succeeds
  cases chunks with
  | nil => simp
  | cons => simp

/-- An error or the end of the time comes into no command that succeeds. -/
theorem not_succeeds_cons (e : ChildEvent) (hdata : ∀ chunk, e ≠ .data chunk)
    (hclose : ∀ code, e ≠ .close code) (es : List ChildEvent) (chunks : List String) :
    ¬Succeeds (e :: es) chunks := by
  rintro ⟨rest, h⟩
  cases chunks with
  | nil => exact hclose _ (List.cons.inj h).1
  | cons chunk => exact hdata chunk (List.cons.inj h).1

/-- **The credentials that the rest of the events gives**, behind what has come already. -/
def Gives (rt : ReplyRuntime) (s : CredentialRun) (es : List ChildEvent)
    (credentials : CommandCredentials) : Prop :=
  ∃ chunks, Succeeds es chunks ∧
    s.stdoutBytes + (String.join chunks).utf8ByteSize ≤ maxReplyBytes ∧
    parseReply rt (s.stdout ++ String.join chunks) = .ok credentials

variable {es : List ChildEvent} {credentials : CommandCredentials}

theorem not_gives (h : ∀ chunks, ¬Succeeds es chunks) : ¬Gives rt s es credentials := by
  rintro ⟨chunks, hsucceeds, -⟩
  exact h chunks hsucceeds

theorem not_gives_over {chunk : String}
    (hover : s.stdoutBytes + chunk.utf8ByteSize > maxReplyBytes) :
    ¬Gives rt s (.data chunk :: es) credentials := by
  rintro ⟨chunks, hsucceeds, hsize, -⟩
  obtain ⟨chunks', rfl, -⟩ := succeeds_data_iff.mp hsucceeds
  -- what comes after the piece does not make it smaller
  rw [String.join_cons, String.utf8ByteSize_append] at hsize
  omega

theorem gives_data_iff {chunk : String} :
    Gives rt s (.data chunk :: es) credentials ↔
      Gives rt { s with
        stdoutBytes := s.stdoutBytes + chunk.utf8ByteSize, stdout := s.stdout ++ chunk } es
          credentials := by
  constructor
  · rintro ⟨chunks, hsucceeds, hsize, hparse⟩
    obtain ⟨chunks', rfl, hrest⟩ := succeeds_data_iff.mp hsucceeds
    rw [String.join_cons, String.utf8ByteSize_append, ← Nat.add_assoc] at hsize
    rw [String.join_cons, ← String.append_assoc] at hparse
    exact ⟨chunks', hrest, hsize, hparse⟩
  · rintro ⟨chunks, hsucceeds, hsize, hparse⟩
    refine ⟨chunk :: chunks, succeeds_data_iff.mpr ⟨chunks, rfl, hsucceeds⟩, ?_, ?_⟩
    · rw [String.join_cons, String.utf8ByteSize_append, ← Nat.add_assoc]
      exact hsize
    · rw [String.join_cons, ← String.append_assoc]
      exact hparse

theorem gives_close_iff (hbytes : s.stdoutBytes ≤ maxReplyBytes) {code : Option ℕ} :
    Gives rt s (.close code :: es) credentials ↔
      code = some 0 ∧ parseReply rt s.stdout = .ok credentials := by
  constructor
  · rintro ⟨chunks, hsucceeds, -, hparse⟩
    obtain ⟨rfl, hcode⟩ := succeeds_close_iff.mp hsucceeds
    rw [String.join_nil, String.append_empty] at hparse
    exact ⟨hcode, hparse⟩
  · rintro ⟨hcode, hparse⟩
    refine ⟨[], succeeds_close_iff.mpr ⟨rfl, hcode⟩, ?_, ?_⟩
    · rw [String.join_nil]
      exact hbytes
    · rw [String.join_nil, String.append_empty]
      exact hparse

/-- **The promise from any point on**, as long as it is open. -/
theorem run_open_iff (rt : ReplyRuntime) (hopen : s.settled = none) (htimer : s.timer = true)
    (hbytes : s.stdoutBytes ≤ maxReplyBytes) (es : List ChildEvent)
    (credentials : CommandCredentials) :
    (Run.run (step rt) s es).settled = some (.ok credentials) ↔ Gives rt s es credentials := by
  induction es generalizing s with
  | nil =>
    rw [Run.run_nil, hopen]
    exact iff_of_false nofun (not_gives not_succeeds_nil)
  | cons e es ih =>
    cases e with
    | data chunk =>
      by_cases hover : s.stdoutBytes + chunk.utf8ByteSize > maxReplyBytes
      · -- the limit is passed with this piece, and the promise is rejected
        rw [settled_run_cons es (step_data_over hover hopen)]
        exact iff_of_false nofun (not_gives_over hover)
      · -- the promise stays open, with the piece taken
        rw [gives_data_iff, Run.run_cons, step_data_fits hover]
        exact ih hopen htimer (Nat.not_lt.mp hover)
    | error e =>
      rw [settled_run_cons es (step_error hopen e)]
      exact iff_of_false nofun (not_gives (not_succeeds_cons (.error e) nofun nofun es))
    | timeout =>
      -- the timer is on as long as the promise is open
      rw [settled_run_cons es (step_timeout hopen htimer)]
      exact iff_of_false nofun (not_gives (not_succeeds_cons .timeout nofun nofun es))
    | close code =>
      -- nothing can come before the end any more
      rw [settled_run_cons es (step_close hopen code), gives_close_iff hbytes]
      split
      · next hcode => exact iff_of_false nofun fun h => hcode h.1
      · next hcode =>
        rw [Option.some_inj, and_iff_right (not_not.mp hcode)]

/-- A promise whose timer is off is settled. -/
theorem settled_of_timer (h : s.timer = false → s.settled ≠ none) (e : ChildEvent) :
    (s.step rt e).timer = false → (s.step rt e).settled ≠ none := by
  cases hsettled : s.settled with
  | some =>
    intro _
    rw [settled_step hsettled e]
    exact Option.some_ne_none _
  | none =>
    have htimer : s.timer = true := by
      cases hcase : s.timer with
      | true => rfl
      | false => exact absurd hsettled (h hcase)
    cases e with
    | data chunk =>
      -- output leaves the timer as it is
      intro hoff
      have hsame : (s.onData chunk).timer = s.timer := by
        unfold onData
        dsimp only
        split <;> rfl
      change (s.onData chunk).timer = false at hoff
      rw [hsame, htimer] at hoff
      cases hoff
    | error e =>
      rw [step_error hsettled e]
      exact fun _ => Option.some_ne_none _
    | close code =>
      rw [step_close hsettled code]
      exact fun _ => Option.some_ne_none _
    | timeout =>
      rw [step_timeout hsettled htimer]
      exact fun _ => Option.some_ne_none _

/-- **When the credential command has given credentials**, whatever happens to it in whatever order:
its output has come, then it has closed with the code zero, and nothing else has happened before;
the output fits the limit, and is a text that the schema accepts. The first result stays. And once
the time is over there is a result. -/
theorem reply_iff (rt : ReplyRuntime) (es : List ChildEvent) :
    (∀ credentials, (Run.run (step rt) {} es).settled = some (.ok credentials) ↔
      ∃ chunks, Succeeds es chunks ∧ (String.join chunks).utf8ByteSize ≤ maxReplyBytes ∧
        parseReply rt (String.join chunks) = .ok credentials) ∧
    (∀ result es', (Run.run (step rt) {} es).settled = some result →
      (Run.run (step rt) {} (es ++ es')).settled = some result) ∧
    (.timeout ∈ es → (Run.run (step rt) {} es).settled ≠ none) := by
  refine ⟨fun credentials => ?_, fun result es' h => ?_, fun htimeout => ?_⟩
  · have h := run_open_iff rt (s := {}) rfl rfl (Nat.zero_le _) es credentials
    simpa [Gives] using h
  · rw [Run.run_append]
    exact settled_run h es'
  · obtain ⟨before, after, rfl⟩ := List.append_of_mem htimeout
    have hoff : (Run.run (step rt) {} before).timer = false →
        (Run.run (step rt) {} before).settled ≠ none :=
      Run.run_of_preserved (C := fun _ _ => True)
        (P := fun s : CredentialRun => s.timer = false → s.settled ≠ none)
        (fun _ e h _ => settled_of_timer h e) (by exact nofun)
        (Run.allSteps_of_forall (fun _ _ => trivial) _ _)
    have hsettled : ((Run.run (step rt) {} before).step rt .timeout).settled ≠ none := by
      refine settled_of_timer hoff .timeout ?_
      unfold step
      dsimp only
      split
      · rfl
      · next hnot => exact Bool.eq_false_iff.mpr hnot
    obtain ⟨result, hresult⟩ := Option.ne_none_iff_exists'.mp hsettled
    rw [Run.run_append, settled_run_cons after hresult]
    exact Option.some_ne_none _

end CredentialRun
end Connector
