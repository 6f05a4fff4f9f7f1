import McpSshTool.Ssh.StreamedOutput

/-!
# Streaming output and its chunks

Each data event of a streaming command is decoded for itself. What is returned, and what is handed
on meanwhile, is the decoding of all the bytes of a stream only where no event ends inside a
character.

* `gatheredAll`, `foldl_onData` — where all that is received fits, all of it is kept and handed on;
* `faithful_iff_of_fits` — there, faithful output means clean cuts;
* `streaming_faithful_iff` — over all limits that the bytes of the streams are within.

The limit counts the bytes of the decoded text, which is longer than the bytes received where these
are ill-formed: a stream within the limit may still be cut.
-/

open Library Program

namespace Ssh

/-! ### What is handed on -/

/-- The texts handed to the callback for a stream, one after another. -/
def handedOn (stream : OutputStream) (chunks : List StreamChunk) : String :=
  String.join (((chunks.filterMap StreamChunk.datum?).filter (·.1 = stream)).map Prod.snd)

/-- **Faithful output**: what is returned of each stream, and what is handed on, is the decoding of
all its bytes. -/
structure Faithful (events : List StreamEvent) (result : StreamResult) : Prop where
  stdout : result.stdout = Utf8.decode (bytesOn .stdout events)
  stderr : result.stderr = Utf8.decode (bytesOn .stderr events)
  handedOn : ∀ stream, handedOn stream result.chunks = Utf8.decode (bytesOn stream events)

/-- What the handlers keep of events that all fit. -/
def gatheredAll (events : List StreamEvent) : StreamState where
  fullStdout := receivedText .stdout events
  fullStderr := receivedText .stderr events
  truncated := false
  chunks := events.map fun event => .output event.stream (Utf8.decode event.data) event.timestamp

theorem gathered_gatheredAll (events : List StreamEvent) (stream : OutputStream) :
    (gatheredAll events).gathered stream = receivedText stream events := by
  cases stream <;> rfl

theorem datum_gatheredAll (events : List StreamEvent) :
    (gatheredAll events).chunks.filterMap StreamChunk.datum? = events.map StreamEvent.datum := by
  rw [gatheredAll, List.filterMap_map, ← List.filterMap_eq_map]
  rfl

theorem handedOn_gatheredAll (events : List StreamEvent) (stream : OutputStream) :
    handedOn stream (gatheredAll events).chunks = receivedText stream events := by
  rw [handedOn, datum_gatheredAll, List.filter_map, List.map_map, receivedText, piecesOn,
    List.map_map]
  rfl

theorem StreamState.eq_of_gathered {state state' : StreamState}
    (hgathered : ∀ stream, state.gathered stream = state'.gathered stream)
    (htruncated : state.truncated = state'.truncated) (hchunks : state.chunks = state'.chunks) :
    state = state' := by
  have hstdout : state.fullStdout = state'.fullStdout := hgathered .stdout
  have hstderr : state.fullStderr = state'.fullStderr := hgathered .stderr
  cases state
  cases state'
  congr

section Fitting

variable {rt : Runtime} {config : ServerConfig} {events : List StreamEvent} {result : StreamResult}

/-- All that is received fits. -/
def ReceivedFits (config : ServerConfig) (events : List StreamEvent) : Prop :=
  ∀ stream, (receivedText stream events).utf8ByteSize ≤ config.maxCommandOutputBytes

/-- **Where all fits**, the handlers keep and hand on all of it. -/
theorem foldl_onData (hdecodes : rt.DecodesUtf8) (hfits : ReceivedFits config events)
    (hcount : events.length ≤ config.maxStreamChunks) :
    events.foldl (onData rt config) {} = gatheredAll events := by
  induction events using List.reverseRecOn with
  | nil => rfl
  | append_singleton events event ih =>
    have hbefore : ReceivedFits config events := fun stream =>
      (Nat.le_add_right _ _).trans ((size_received_append stream events event).symm.trans_le
        (hfits stream))
    rw [List.length_append, List.length_singleton] at hcount
    have hroom : (gatheredAll events).Fits config := fun stream => by
      rw [gathered_gatheredAll]
      exact hbefore stream
    -- the last chunk fits too, so nothing is cut
    have hshort : ¬config.maxCommandOutputBytes <
        ((gatheredAll events).gathered event.stream).utf8ByteSize +
          (Utf8.decode event.data).utf8ByteSize := by
      have hsize := size_received_append event.stream events event
      rw [if_pos rfl] at hsize
      rw [gathered_gatheredAll, ← hsize]
      exact not_lt.mpr (hfits event.stream)
    have hlength : (gatheredAll events).chunks.length = events.length := List.length_map _
    obtain ⟨hflag, hchunks⟩ := truncated_onData hdecodes event hroom
    rw [List.foldl_append, List.foldl_cons, List.foldl_nil, ih hbefore (by omega)]
    refine StreamState.eq_of_gathered (fun stream => ?_) (hflag.trans ?_) (hchunks.trans ?_)
    · rw [gathered_onData hdecodes event hroom, gathered_gatheredAll, gathered_gatheredAll,
        receivedText_append]
      split
      · next hstream =>
        subst hstream
        rw [gathered_gatheredAll] at hshort
        have hall : takeBytes (config.maxCommandOutputBytes -
            (receivedText event.stream events).utf8ByteSize) (Utf8.decode event.data).toList =
              (Utf8.decode event.data).toList :=
          takeBytes_eq_self_iff.mpr (by rw [← utf8ByteSize_eq]; omega)
        rw [hall, String.ofList_toList]
      · rfl
    · rw [decide_eq_false hshort, decide_eq_false (by omega)]
      rfl
    · rw [if_pos ⟨by omega, decide_eq_false hshort⟩, gatheredAll, gatheredAll, List.map_append]
      rfl

theorem receivedText_eq_iff (stream : OutputStream) (events : List StreamEvent) :
    receivedText stream events = Utf8.decode (bytesOn stream events) ↔
      Utf8.CutsBetween (piecesOn stream events) :=
  Utf8.decode_pieces_iff (piecesOn stream events)

/-- **Where all fits, faithful output means clean cuts.** -/
theorem faithful_iff_of_fits (hdecodes : rt.DecodesUtf8) (hfits : ReceivedFits config events)
    (hcount : events.length ≤ config.maxStreamChunks) (hgives : Gives rt config events result) :
    Faithful events result ↔ ∀ stream, Utf8.CutsBetween (piecesOn stream events) := by
  have hkept := foldl_onData hdecodes hfits hcount
  have hstdout : result.stdout = receivedText .stdout events := by
    rw [hgives.stdout, hkept, gathered_gatheredAll]
  have hstderr : result.stderr = receivedText .stderr events := by
    rw [hgives.stderr, hkept, gathered_gatheredAll]
  have hhanded : ∀ stream, handedOn stream result.chunks = receivedText stream events := by
    intro stream
    rw [← handedOn_gatheredAll, handedOn, hgives.chunks, hkept]
    rfl
  constructor
  · intro h stream
    rw [← receivedText_eq_iff, ← hhanded]
    exact h.handedOn stream
  · intro h
    refine ⟨hstdout.trans ?_, hstderr.trans ?_, fun stream => (hhanded stream).trans ?_⟩
    · exact (receivedText_eq_iff _ _).mpr (h .stdout)
    · exact (receivedText_eq_iff _ _).mpr (h .stderr)
    · exact (receivedText_eq_iff _ _).mpr (h stream)

theorem fits_foldl (hdecodes : rt.DecodesUtf8) (events : List StreamEvent) :
    (events.foldl (onData rt config) {}).Fits config := by
  induction events using List.reverseRecOn with
  | nil => exact fun stream => by cases stream <;> exact Nat.zero_le _
  | append_singleton events event ih =>
    rw [List.foldl_append]
    exact fits_onData hdecodes ih

end Fitting

/-! ### A sample run -/

/-- A streaming command may have any data events. -/
theorem exists_runs_execWithStreaming (config : ServerConfig) (events : List StreamEvent) :
    ∃ (engine : PolicyEngine decimalRuntime) (log : List Event) (result : StreamResult),
      Runs (execWithStreaming engine config "ssh-1" "cat") log (.ok result) ∧
        RanWith log events := by
  obtain ⟨engine, hpermits⟩ := exists_permitting_commands
  obtain ⟨sent, hline⟩ : ∃ sent, buildRemoteCommand "cat" linuxHost none [] = .ok sent := ⟨_, rfl⟩
  let outcome : StreamOutcome := ⟨events, some 0⟩
  let state := events.foldl (onData decimalRuntime config) {}
  let result : StreamResult := {
    code := 0
    chunks := (if state.truncated then state.chunks ++ [.truncated 0] else state.chunks) ++
      [.exit 0 0]
    stdout := state.fullStdout, stderr := state.fullStderr
    durationMs := 0, truncated := state.truncated }
  have hrun : Runs (execWithStreaming engine config "ssh-1" "cat")
      [⟨.getSession "ssh-1", some ⟨.enforce, true⟩⟩, ⟨.getOSInfo "ssh-1", .ok linuxHost⟩,
        ⟨.now, (0 : ℕ)⟩,
        ⟨.execStreaming (.command "cat") sent config.commandTimeoutMs, .ok (some outcome)⟩,
        ⟨.now, (0 : ℕ)⟩, ⟨.now, (0 : ℕ)⟩, ⟨.now, (0 : ℕ)⟩] (.ok result) := by
    refine runs_getSession (runs_guarded rfl (hpermits (.command "cat")) ?_)
    change Runs (.perform (Operation.getOSInfo "ssh-1") _) _ _
    refine .perform _ ?_
    change Runs (.perform Operation.now _) _ _
    refine .perform _ ?_
    rw [hline]
    change Runs (.perform (Operation.execStreaming (.command "cat") sent config.commandTimeoutMs) _)
      _ _
    refine .perform _ ?_
    change Runs (.perform Operation.now _) _ _
    refine .perform _ ?_
    change Runs (.perform Operation.now _) _ _
    refine .perform _ ?_
    change Runs (.perform Operation.now _) _ _
    exact .perform _ (.done _)
  exact ⟨engine, _, result, hrun, .command "cat", sent, config.commandTimeoutMs, some 0,
    .tail _ (.tail _ (.tail _ (.head _)))⟩

/-! ### Every splitting -/

/-- The bytes and the events are within the limits. -/
def WithinLimits (config : ServerConfig) (events : List StreamEvent) : Prop :=
  (∀ stream, (bytesOn stream events).length ≤ config.maxCommandOutputBytes) ∧
    events.length ≤ config.maxStreamChunks

/-- The bytes of the longer stream. -/
def longest (events : List StreamEvent) : ℕ :=
  max (bytesOn .stdout events).length (bytesOn .stderr events).length

theorem length_bytesOn_le (stream : OutputStream) (events : List StreamEvent) :
    (bytesOn stream events).length ≤ longest events := by
  cases stream with
  | stdout => exact le_max_left _ _
  | stderr => exact le_max_right _ _

/-- **When streaming output does not depend on chunking.** Whatever limits the output is within, it
is faithful exactly if every cut is clean and no stream is longer in text than the longer one is in
bytes. In a run where all that is received fits as text, it is faithful exactly if every cut is
clean. -/
theorem streaming_faithful_iff (events : List StreamEvent) :
    ((∀ (rt : Runtime), rt.DecodesUtf8 → ∀ (engine : PolicyEngine rt) (config : ServerConfig)
        (sessionId command : String) (cwd : Option String) (env : Environment)
          (timeoutMs : Option ℕ)
        (log : List Event) (result : StreamResult),
        Runs (execWithStreaming engine config sessionId command cwd env timeoutMs) log
          (.ok result) →
          RanWith log events → WithinLimits config events → Faithful events result) ↔
      ∀ stream, Utf8.CutsBetween (piecesOn stream events) ∧
        (Utf8.decode (bytesOn stream events)).utf8ByteSize ≤ longest events) ∧
    ∀ (rt : Runtime), rt.DecodesUtf8 → ∀ (engine : PolicyEngine rt) (config : ServerConfig)
      (sessionId command : String) (cwd : Option String) (env : Environment) (timeoutMs : Option ℕ)
      (log : List Event) (result : StreamResult),
      Runs (execWithStreaming engine config sessionId command cwd env timeoutMs) log (.ok result) →
        RanWith log events → ReceivedFits config events → events.length ≤ config.maxStreamChunks →
          (Faithful events result ↔ ∀ stream, Utf8.CutsBetween (piecesOn stream events)) := by
  refine ⟨⟨fun h => ?_, fun h => ?_⟩, ?_⟩
  · -- limits that everything fits into tell the cuts, and the tightest ones the sizes
    have hcuts : ∀ stream, Utf8.CutsBetween (piecesOn stream events) := by
      let config : ServerConfig := { sampleConfig with
        maxCommandOutputBytes := longest events + ((receivedText .stdout events).utf8ByteSize +
          (receivedText .stderr events).utf8ByteSize)
        maxStreamChunks := events.length }
      obtain ⟨engine, log, result, hrun, hran⟩ := exists_runs_execWithStreaming config events
      have hbytes : WithinLimits config events :=
        ⟨fun stream => (length_bytesOn_le stream events).trans (Nat.le_add_right _ _), le_refl _⟩
      have hfits : ReceivedFits config events := by
        intro stream
        cases stream
        · show _ ≤ longest events + (_ + _)
          omega
        · show _ ≤ longest events + (_ + _)
          omega
      exact (faithful_iff_of_fits decimalRuntime_decodesUtf8 hfits (le_refl _)
        (gives_execWithStreaming hrun hran)).mp
          (h _ decimalRuntime_decodesUtf8 _ config _ _ _ _ _ log result hrun hran hbytes)
    let config : ServerConfig := { sampleConfig with
      maxCommandOutputBytes := longest events, maxStreamChunks := events.length }
    obtain ⟨engine, log, result, hrun, hran⟩ := exists_runs_execWithStreaming config events
    have hbytes : WithinLimits config events :=
      ⟨fun stream => length_bytesOn_le stream events, le_refl _⟩
    have hfaithful := h _ decimalRuntime_decodesUtf8 _ config _ _ _ _ _ log result hrun hran hbytes
    have hgives := gives_execWithStreaming hrun hran
    have hkept : (events.foldl (onData decimalRuntime config) {}).Fits config :=
      fits_foldl decimalRuntime_decodesUtf8 events
    refine fun stream => ⟨hcuts stream, ?_⟩
    cases stream with
    | stdout =>
      -- what is kept is within the limit, and it is the whole stream
      rw [← hfaithful.stdout, hgives.stdout]
      exact hkept .stdout
    | stderr =>
      rw [← hfaithful.stderr, hgives.stderr]
      exact hkept .stderr
  · intro rt hdecodes engine config sessionId command cwd env timeoutMs log result hrun hran hwithin
    have hlongest : longest events ≤ config.maxCommandOutputBytes :=
      max_le (hwithin.1 .stdout) (hwithin.1 .stderr)
    have hfits : ReceivedFits config events := by
      intro stream
      -- where the cuts are clean, what is received is the stream itself
      rw [(receivedText_eq_iff stream events).mpr (h stream).1]
      exact (h stream).2.trans hlongest
    exact (faithful_iff_of_fits hdecodes hfits hwithin.2 (gives_execWithStreaming hrun hran)).mpr
      fun stream => (h stream).1
  · intro rt hdecodes engine config sessionId command cwd env timeoutMs log result hrun hran
      hfits hcount
    exact faithful_iff_of_fits hdecodes hfits hcount (gives_execWithStreaming hrun hran)

/-- A euro sign that comes in one piece. -/
theorem streaming_faithful_iff_euro :
    ∃ (engine : PolicyEngine decimalRuntime) (log : List Event) (result : StreamResult),
      Runs (execWithStreaming engine sampleConfig "ssh-1" "cat") log (.ok result) ∧
        Faithful [⟨.stdout, [0x41], 0⟩, ⟨.stdout, [0xE2, 0x82, 0xAC], 1⟩] result := by
  obtain ⟨engine, log, result, hrun, hran⟩ := exists_runs_execWithStreaming sampleConfig
    [⟨.stdout, [0x41], 0⟩, ⟨.stdout, [0xE2, 0x82, 0xAC], 1⟩]
  refine ⟨engine, log, result, hrun, ?_⟩
  refine ((streaming_faithful_iff _).2 decimalRuntime decimalRuntime_decodesUtf8 engine sampleConfig
    "ssh-1" "cat" none [] none log result hrun hran ?_ (by decide)).mpr ?_
  · intro stream
    cases stream <;> decide +kernel
  · intro stream
    cases stream <;> decide +kernel

/-- **A character that is cut** is lost: the two bytes of "\u00e9" in two events are read as two
U+FFFD. -/
theorem cut_character_lost :
    ∃ (engine : PolicyEngine decimalRuntime) (log : List Event) (result : StreamResult),
      Runs (execWithStreaming engine sampleConfig "ssh-1" "cat") log (.ok result) ∧
        RanWith log [⟨.stdout, [0xC3], 0⟩, ⟨.stdout, [0xA9], 1⟩] ∧
        WithinLimits sampleConfig [⟨.stdout, [0xC3], 0⟩, ⟨.stdout, [0xA9], 1⟩] ∧
        result.stdout = "\uFFFD\uFFFD" ∧ Utf8.decode [0xC3, 0xA9] = "\u00e9" ∧
        ¬Faithful [⟨.stdout, [0xC3], 0⟩, ⟨.stdout, [0xA9], 1⟩] result := by
  obtain ⟨engine, log, result, hrun, hran⟩ := exists_runs_execWithStreaming sampleConfig
    [⟨.stdout, [0xC3], 0⟩, ⟨.stdout, [0xA9], 1⟩]
  have hstdout : result.stdout = "\uFFFD\uFFFD" := by
    rw [(gives_execWithStreaming hrun hran).stdout]
    decide +kernel
  refine ⟨engine, log, result, hrun, hran, ⟨?_, by decide⟩, hstdout, by decide +kernel, fun h => ?_⟩
  · intro stream
    cases stream <;> decide
  · have hwhole := hstdout.symm.trans h.stdout
    exact absurd hwhole (by decide +kernel)

end Ssh
