import McpSshTool.Library.Run
import McpSshTool.Ssh.TextLimits

/-!
# The output of a streaming command

What the handlers of a streaming command gather of its data events, against what the events bring.

* `receivedText` — what the events of a stream bring, each decoded for itself;
* `gathered_onData` — one event, on the text of either stream;
* `Honest`, `honest_along_iff` — what is kept is a beginning of what has been received, and the flag
  says whether something is missing, exactly as long as no event puts a smaller character where a
  larger one has not found room;
* `faithful_iff` — what is returned and handed on is the decoding of all the bytes exactly where no
  event ends inside a character.
-/

open Library Program Run

namespace Ssh

/-! ### What the events bring -/

/-- The data of the events of a stream. -/
def piecesOn (stream : OutputStream) (events : List StreamEvent) : List (List UInt8) :=
  (events.filter (·.stream = stream)).map (·.data)

/-- All the bytes of a stream. -/
def bytesOn (stream : OutputStream) (events : List StreamEvent) : List UInt8 :=
  (piecesOn stream events).flatten

/-- What the events of a stream bring, each decoded for itself. -/
def receivedText (stream : OutputStream) (events : List StreamEvent) : String :=
  String.join ((piecesOn stream events).map Utf8.decode)

/-- What an event brings, with its stream. -/
def StreamEvent.datum (event : StreamEvent) : OutputStream × String :=
  (event.stream, Utf8.decode event.data)

/-- What a chunk hands on, with its stream. -/
def StreamChunk.datum? : StreamChunk → Option (OutputStream × String)
  | .output stream data _ => some (stream, data)
  | _ => none

/-- What the handlers keep of a stream. -/
def StreamState.gathered (state : StreamState) : OutputStream → String
  | .stdout => state.fullStdout
  | .stderr => state.fullStderr

theorem receivedText_append (stream : OutputStream) (events : List StreamEvent)
    (event : StreamEvent) :
    receivedText stream (events ++ [event]) =
      if event.stream = stream then receivedText stream events ++ Utf8.decode event.data
      else receivedText stream events := by
  unfold receivedText piecesOn
  rw [List.filter_append]
  by_cases h : event.stream = stream
  · rw [if_pos h, List.filter_cons_of_pos (by simpa using h), List.filter_nil, List.map_append,
      List.map_append, ← String.toList_inj, String.toList_append, String.toList_join,
      String.toList_join, List.flatMap_append]
    exact congrArg _ (List.append_nil _)
  · rw [if_neg h, List.filter_cons_of_neg (by simpa using h), List.filter_nil, List.append_nil]

/-! ### One event -/

/-- **What is appended**: as many characters as there is room for, and whether that is all. -/
theorem appendBounded_eq {current : String} {maxBytes : ℕ} (h : current.utf8ByteSize ≤ maxBytes)
    (data : String) :
    appendBounded current data maxBytes =
      (current ++ String.ofList (takeBytes (maxBytes - current.utf8ByteSize) data.toList),
        decide (maxBytes < current.utf8ByteSize + data.utf8ByteSize)) := by
  have hsize := utf8ByteSize_eq data
  unfold appendBounded
  dsimp only
  split
  · -- no room is left, and every character takes some
    next hfull =>
    have hroom : maxBytes - current.utf8ByteSize = 0 := by omega
    have hnothing : takeBytes (maxBytes - current.utf8ByteSize) data.toList = [] :=
      takeBytes_eq_nil_iff.mpr fun c _ => hroom ▸ c.utf8Size_pos
    rw [hnothing, String.ofList_nil, String.append_empty]
    refine congrArg (current, ·) (decide_eq_decide.mpr ?_)
    rw [← not_iff_not, not_not, ← String.utf8ByteSize_eq_zero_iff]
    omega
  · split
    · next hfits =>
      have hall : takeBytes (maxBytes - current.utf8ByteSize) data.toList = data.toList :=
        takeBytes_eq_self_iff.mpr (by omega)
      rw [hall, String.ofList_toList, decide_eq_false (by omega)]
    · next hfits =>
      have htoNat : ((maxBytes : ℤ) - current.utf8ByteSize).toNat =
        maxBytes - current.utf8ByteSize := by
        omega
      rw [htoNat, decide_eq_true (by omega)]

section Events

variable {rt : Runtime} {config : ServerConfig} {state : StreamState} {events : List StreamEvent}
variable {event : StreamEvent}

/-- The texts of both streams are within the limit. -/
def StreamState.Fits (config : ServerConfig) (state : StreamState) : Prop :=
  ∀ stream, (state.gathered stream).utf8ByteSize ≤ config.maxCommandOutputBytes

/-- The runtime reads bytes as UTF-8. -/
def Runtime.DecodesUtf8 (rt : Runtime) : Prop :=
  ∀ bytes, rt.bufferText "utf8" bytes = Utf8.decode bytes

variable (hdecodes : rt.DecodesUtf8)
include hdecodes

/-- **One event**, on the text of either stream. -/
theorem gathered_onData (event : StreamEvent) (hfits : state.Fits config) (stream : OutputStream) :
    (onData rt config state event).gathered stream =
      if event.stream = stream then
        state.gathered stream ++ String.ofList (takeBytes
          (config.maxCommandOutputBytes - (state.gathered stream).utf8ByteSize)
          (Utf8.decode event.data).toList)
      else state.gathered stream := by
  have happend := appendBounded_eq (hfits event.stream) (Utf8.decode event.data)
  unfold onData
  rw [hdecodes]
  cases hevent : event.stream with
  | stdout =>
    rw [hevent] at happend
    cases stream with
    | stdout => exact congrArg Prod.fst happend
    | stderr => rfl
  | stderr =>
    rw [hevent] at happend
    cases stream with
    | stdout => rfl
    | stderr => exact congrArg Prod.fst happend

/-- The flag and the chunks after one event. -/
theorem truncated_onData (event : StreamEvent) (hfits : state.Fits config) :
    let short := decide (config.maxCommandOutputBytes <
      (state.gathered event.stream).utf8ByteSize + (Utf8.decode event.data).utf8ByteSize)
    (onData rt config state event).truncated =
        (state.truncated || short || decide (state.chunks.length ≥ config.maxStreamChunks)) ∧
      (onData rt config state event).chunks =
        if state.chunks.length < config.maxStreamChunks ∧ short = false then
          state.chunks ++ [.output event.stream (Utf8.decode event.data) event.timestamp]
        else state.chunks := by
  have happend := congrArg Prod.snd (appendBounded_eq (hfits event.stream) (Utf8.decode event.data))
  unfold onData
  rw [hdecodes]
  cases hevent : event.stream with
  | stdout =>
    rw [hevent] at happend
    dsimp only [StreamState.gathered] at happend ⊢
    rw [happend]
    simp
  | stderr =>
    rw [hevent] at happend
    dsimp only [StreamState.gathered] at happend ⊢
    rw [happend]
    simp

theorem fits_onData (hfits : state.Fits config) : (onData rt config state event).Fits config := by
  intro stream
  have hstream := hfits stream
  rw [gathered_onData hdecodes event hfits]
  split
  · have htaken := utf8Len_takeBytes_le
      (config.maxCommandOutputBytes - (state.gathered stream).utf8ByteSize)
      (Utf8.decode event.data).toList
    rw [String.utf8ByteSize_append, String.utf8ByteSize_ofList]
    omega
  · exact hstream

end Events

/-! ### Honest beginnings -/

section Honest

/-- One event of a command, on what the handlers keep and what has been received. -/
def receive (rt : Runtime) (config : ServerConfig) (state : StreamState × List StreamEvent)
    (event : StreamEvent) : StreamState × List StreamEvent :=
  (onData rt config state.1 event, state.2 ++ [event])

/-- **What is kept is an honest beginning** of what has been received: it is within the limit, and
the flag is set exactly when something is missing in the texts or in the chunks. -/
structure Honest (config : ServerConfig) (state : StreamState × List StreamEvent) : Prop where
  beginning : ∀ stream, (state.1.gathered stream).toList <+: (receivedText stream state.2).toList
  fits : state.1.Fits config
  truncated : state.1.truncated = true ↔
    (∃ stream, state.1.gathered stream ≠ receivedText stream state.2) ∨
      state.1.chunks.filterMap StreamChunk.datum? ≠ state.2.map StreamEvent.datum

/-- The characters of a stream that an honest beginning keeps. -/
def keptChars (config : ServerConfig) (stream : OutputStream) (events : List StreamEvent) :
    List Char :=
  takeBytes config.maxCommandOutputBytes (receivedText stream events).toList

/-- **The event leaves no gap**: where its stream has been cut already, it does not begin with a
character that there is room for. -/
def LeavesNoGap (config : ServerConfig) (state : StreamState × List StreamEvent)
    (event : StreamEvent) :
    Prop :=
  config.maxCommandOutputBytes < (receivedText event.stream state.2).utf8ByteSize →
    ∀ c ∈ (Utf8.decode event.data).toList.head?, config.maxCommandOutputBytes <
      String.utf8Len (keptChars config event.stream state.2) + c.utf8Size

instance (config : ServerConfig) (state : StreamState × List StreamEvent) (event : StreamEvent) :
    Decidable (LeavesNoGap config state event) :=
  have : Decidable (∀ c ∈ (Utf8.decode event.data).toList.head?, config.maxCommandOutputBytes <
      String.utf8Len (keptChars config event.stream state.2) + c.utf8Size) :=
    Option.decidableForallMem _
  inferInstanceAs (Decidable (_ → _))

/-- What the handlers keep as long as no event leaves a gap. -/
structure Gathers (config : ServerConfig) (state : StreamState × List StreamEvent) : Prop where
  kept : ∀ stream, (state.1.gathered stream).toList = keptChars config stream state.2
  chunks : (state.1.chunks.filterMap StreamChunk.datum?).Sublist (state.2.map StreamEvent.datum)
  truncated : state.1.truncated = true ↔
    (∃ stream, config.maxCommandOutputBytes < (receivedText stream state.2).utf8ByteSize) ∨
      (state.1.chunks.filterMap StreamChunk.datum?).length < state.2.length

variable {rt : Runtime} {config : ServerConfig} {state : StreamState × List StreamEvent}
variable {event : StreamEvent}

theorem Gathers.size_eq (h : Gathers config state) (stream : OutputStream) :
    (state.1.gathered stream).utf8ByteSize = String.utf8Len (keptChars config stream state.2) := by
  rw [utf8ByteSize_eq, h.kept]

theorem Gathers.fits (h : Gathers config state) : state.1.Fits config := by
  intro stream
  rw [h.size_eq]
  exact utf8Len_takeBytes_le _ _

theorem keptChars_eq_iff {stream : OutputStream} {events : List StreamEvent} :
    keptChars config stream events = (receivedText stream events).toList ↔
      (receivedText stream events).utf8ByteSize ≤ config.maxCommandOutputBytes := by
  rw [utf8ByteSize_eq]
  exact takeBytes_eq_self_iff

theorem Gathers.honest (h : Gathers config state) : Honest config state := by
  refine ⟨fun stream => ?_, h.fits, h.truncated.trans ?_⟩
  · rw [h.kept]
    exact takeBytes_isPrefix _ _
  · refine or_congr (exists_congr fun stream => ?_) ?_
    · rw [Ne, ← String.toList_inj, h.kept, keptChars_eq_iff, not_le]
    · -- a sublist is the whole list where it is as long
      have hlength : (state.2.map StreamEvent.datum).length = state.2.length := List.length_map _
      constructor
      · intro hlt heq
        rw [heq, hlength] at hlt
        exact absurd hlt (lt_irrefl _)
      · intro hne
        by_contra hnot
        exact hne (h.chunks.eq_of_length (le_antisymm h.chunks.length_le (by omega)))

theorem gathers_start (config : ServerConfig) : Gathers config ({}, []) := by
  refine ⟨fun stream => ?_, List.Sublist.refl [], ?_⟩
  · cases stream <;> rfl
  · have hsize : ∀ stream, (receivedText stream []).utf8ByteSize = 0 := fun stream => rfl
    simp [hsize]

/-- What is kept of an event that leaves no gap. -/
theorem keptChars_append (hgap : LeavesNoGap config state event) :
    keptChars config event.stream (state.2 ++ [event]) =
      keptChars config event.stream state.2 ++ takeBytes (config.maxCommandOutputBytes -
        String.utf8Len (keptChars config event.stream state.2))
          (Utf8.decode event.data).toList := by
  unfold LeavesNoGap at hgap
  rw [utf8ByteSize_eq] at hgap
  rw [keptChars, receivedText_append, if_pos rfl, String.toList_append]
  by_cases hfits : String.utf8Len (receivedText event.stream state.2).toList ≤
      config.maxCommandOutputBytes
  · have hkept : keptChars config event.stream state.2 =
      (receivedText event.stream state.2).toList :=
      takeBytes_eq_self_iff.mpr hfits
    rw [hkept, takeBytes_append_of_fits hfits]
  · have hnothing : takeBytes (config.maxCommandOutputBytes -
        String.utf8Len (keptChars config event.stream state.2))
          (Utf8.decode event.data).toList = [] := by
      refine takeBytes_eq_nil_iff.mpr fun c hc => ?_
      have hlarge := hgap (not_le.mp hfits) c hc
      have hroom : String.utf8Len (keptChars config event.stream state.2) ≤
          config.maxCommandOutputBytes := utf8Len_takeBytes_le _ _
      omega
    rw [takeBytes_append_of_not_fits (not_le.mp hfits), hnothing, List.append_nil]
    rfl

theorem size_received_append (stream : OutputStream) (events : List StreamEvent)
    (event : StreamEvent) :
    (receivedText stream (events ++ [event])).utf8ByteSize =
      (receivedText stream events).utf8ByteSize +
      if event.stream = stream then (Utf8.decode event.data).utf8ByteSize else 0 := by
  rw [receivedText_append]
  split
  · rw [String.utf8ByteSize_append]
  · rw [Nat.add_zero]

/-- A stream gets too long where it was, or where the event does not fit behind what is kept. -/
theorem Gathers.exceeds_append_iff (h : Gathers config state) (event : StreamEvent) :
    (∃ stream, config.maxCommandOutputBytes <
        (receivedText stream (state.2 ++ [event])).utf8ByteSize) ↔
      (∃ stream, config.maxCommandOutputBytes < (receivedText stream state.2).utf8ByteSize) ∨
        config.maxCommandOutputBytes <
          (state.1.gathered event.stream).utf8ByteSize + (Utf8.decode event.data).utf8ByteSize := by
  have hle : String.utf8Len (keptChars config event.stream state.2) ≤
      (receivedText event.stream state.2).utf8ByteSize := by
    rw [utf8ByteSize_eq]
    exact String.utf8Len_le_of_sublist (takeBytes_isPrefix _ _).sublist
  rw [h.size_eq]
  constructor
  · rintro ⟨stream, hlt⟩
    rw [size_received_append] at hlt
    by_cases hstream : event.stream = stream
    · subst hstream
      rw [if_pos rfl] at hlt
      by_cases hfits : (receivedText event.stream state.2).utf8ByteSize ≤
        config.maxCommandOutputBytes
      · rw [keptChars_eq_iff.mpr hfits, ← utf8ByteSize_eq]
        exact .inr hlt
      · exact .inl ⟨event.stream, not_le.mp hfits⟩
    · rw [if_neg hstream] at hlt
      exact .inl ⟨stream, hlt⟩
  · rintro (⟨stream, hlt⟩ | hlt)
    · refine ⟨stream, ?_⟩
      rw [size_received_append]
      exact Nat.lt_add_right _ hlt
    · refine ⟨event.stream, ?_⟩
      rw [size_received_append, if_pos rfl]
      omega

variable (hdecodes : rt.DecodesUtf8)
include hdecodes

theorem gathers_receive (h : Gathers config state) (hgap : LeavesNoGap config state event) :
    Gathers config (receive rt config state event) := by
  have hgathered := gathered_onData hdecodes event h.fits
  obtain ⟨hflag, hchunks⟩ := truncated_onData hdecodes event h.fits
  have hlength := h.chunks.length_le
  rw [List.length_map] at hlength
  refine ⟨fun stream => ?_, ?_, ?_⟩
  · show ((onData rt config state.1 event).gathered stream).toList =
      keptChars config stream (state.2 ++ [event])
    rw [hgathered stream]
    by_cases hstream : event.stream = stream
    · subst hstream
      rw [if_pos rfl, keptChars_append hgap, String.toList_append, String.toList_ofList, h.kept,
        h.size_eq]
    · rw [if_neg hstream, h.kept, keptChars, keptChars, receivedText_append, if_neg hstream]
  · show List.Sublist (List.filterMap _ (onData rt config state.1 event).chunks) _
    rw [hchunks, receive, List.map_append]
    split
    · rw [List.filterMap_append]
      exact h.chunks.append (List.Sublist.refl _)
    · exact h.chunks.trans (List.sublist_append_left _ _)
  · show (onData rt config state.1 event).truncated = true ↔
      (∃ stream, config.maxCommandOutputBytes <
        (receivedText stream (state.2 ++ [event])).utf8ByteSize) ∨
      (List.filterMap _ (onData rt config state.1 event).chunks).length <
        (state.2 ++ [event]).length
    rw [h.exceeds_append_iff, hflag, hchunks, Bool.or_eq_true, Bool.or_eq_true, h.truncated,
      decide_eq_true_iff, decide_eq_true_iff, List.length_append, List.length_singleton]
    -- a chunk is left out where something is cut, or where there are enough
    split
    · next hpushed =>
      have hshort := of_decide_eq_false hpushed.2
      rw [List.filterMap_append, List.length_append]
      show _ ↔ _ ∨ _ + 1 < _
      constructor
      · rintro ((hor | hlt) | hfull)
        · exact hor.imp .inl (Nat.succ_lt_succ ·)
        · exact absurd hlt hshort
        · exact absurd hpushed.1 (not_lt.mpr hfull)
      · rintro ((hlong | hlt) | hlt)
        · exact .inl (.inl (.inl hlong))
        · exact absurd hlt hshort
        · exact .inl (.inl (.inr (by omega)))
    · next hpushed =>
      have hleft : config.maxCommandOutputBytes < (state.1.gathered event.stream).utf8ByteSize +
            (Utf8.decode event.data).utf8ByteSize ∨
              state.1.chunks.length ≥ config.maxStreamChunks := by
        by_contra hnot
        obtain ⟨hshort, hroom⟩ := not_or.mp hnot
        exact hpushed ⟨not_le.mp hroom, decide_eq_false hshort⟩
      exact iff_of_true (hleft.elim (fun h => .inl (.inr h)) .inr) (.inr (by omega))

/-- An event that leaves a gap puts something behind it. -/
theorem leavesNoGap_of_honest (h : Gathers config state)
    (hhonest : Honest config (receive rt config state event)) : LeavesNoGap config state event := by
  intro hlong c hc
  by_contra hfits
  rw [utf8ByteSize_eq] at hlong
  have hkept : (state.1.gathered event.stream).toList = keptChars config event.stream state.2 :=
    h.kept event.stream
  -- the character that was left out does not fit, and the one that is put in its place does
  obtain ⟨c', rest, hreceived, hlarge⟩ := takeBytes_stops hlong
  have hbeginning := hhonest.beginning event.stream
  rw [receive, gathered_onData hdecodes event h.fits, if_pos rfl, receivedText_append, if_pos rfl,
    String.toList_append, String.toList_append, String.toList_ofList, hkept, h.size_eq, hreceived,
    List.append_assoc] at hbeginning
  obtain ⟨cs, hcs⟩ : ∃ cs, (Utf8.decode event.data).toList = c :: cs := by
    cases hdata : (Utf8.decode event.data).toList with
    | nil => rw [hdata] at hc; cases hc
    | cons d ds => rw [hdata] at hc; exact ⟨ds, by rw [Option.some.inj hc]⟩
  rw [hcs, takeBytes, if_neg (by omega)] at hbeginning
  obtain ⟨rfl, -⟩ := List.cons_prefix_cons.mp ((List.prefix_append_right_inj _).mp hbeginning)
  exact hfits hlarge

omit hdecodes in
theorem run_receive (events : List StreamEvent) (state : StreamState × List StreamEvent) :
    run (receive rt config) state events =
      (events.foldl (onData rt config) state.1, state.2 ++ events) := by
  induction events generalizing state with
  | nil => exact Prod.ext rfl (List.append_nil _).symm
  | cons event events ih =>
    rw [run_cons, ih, receive, List.append_assoc]
    rfl

end Honest

/-! ### What is returned -/

section Returned

variable {rt : Runtime} {engine : PolicyEngine rt} {config : ServerConfig}
  {sessionId command : String}
variable {cwd : Option String} {env : Environment} {timeoutMs : Option ℕ} {log : List Event}
variable {result : StreamResult}

/-- The command has run with these events. -/
def RanWith (log : List Event) (events : List StreamEvent) : Prop :=
  ∃ script sent ms code, ⟨.execStreaming script sent ms, .ok (some ⟨events, code⟩)⟩ ∈ log

/-- **What is returned** is what the handlers have gathered, and so is what has been handed on. -/
structure Gives (rt : Runtime) (config : ServerConfig) (events : List StreamEvent)
    (result : StreamResult) : Prop where
  stdout : result.stdout = (events.foldl (onData rt config) {}).gathered .stdout
  stderr : result.stderr = (events.foldl (onData rt config) {}).gathered .stderr
  truncated : result.truncated = (events.foldl (onData rt config) {}).truncated
  chunks : result.chunks.filterMap StreamChunk.datum? =
    (events.foldl (onData rt config) {}).chunks.filterMap StreamChunk.datum?

theorem gives_execWithStreaming
    (h : Runs (execWithStreaming engine config sessionId command cwd env timeoutMs) log
      (.ok result))
    {events : List StreamEvent} (hran : RanWith log events) : Gives rt config events result := by
  obtain ⟨script, sent, ms, code, hmem⟩ := hran
  replace h := runs_getSession_ok h
  obtain ⟨session, log, rfl, h⟩ := h
  replace h := runs_ofExcept_ok h
  obtain ⟨decision, -, h⟩ := h
  split at h
  · obtain ⟨rfl, -⟩ := runs_done_iff.mp h
    simp at hmem
  · replace h := runs_getOSInfo_ok h
    obtain ⟨osInfo, log, rfl, h⟩ := h
    replace h := runs_now h
    obtain ⟨started, log, rfl, h⟩ := h
    replace h := runs_ofExcept_ok h
    obtain ⟨line, -, h⟩ := h
    replace h := runs_perform_ok
      (.execStreaming (.command command) line (timeoutMs.getD config.commandTimeoutMs)) id h
    obtain ⟨_, outcome, log, rfl, rfl, h⟩ := h
    cases outcome with
    | none => exact absurd (runs_done_iff.mp h).2 nofun
    | some outcome =>
      replace h := runs_now h
      obtain ⟨time, log, rfl, h⟩ := h
      replace h := runs_now h
      obtain ⟨exitTime, log, rfl, h⟩ := h
      replace h := runs_now h
      obtain ⟨endTime, log, rfl, h⟩ := h
      obtain ⟨rfl, heq⟩ := runs_done_iff.mp h
      obtain rfl := Except.ok.inj heq
      -- the only command of the run is the one with these events
      obtain rfl : outcome = ⟨events, code⟩ := by
        simp at hmem
        exact hmem.2.symm
      refine ⟨rfl, rfl, rfl, ?_⟩
      dsimp only
      rw [List.filterMap_append]
      split
      · rw [List.filterMap_append]
        exact (List.append_nil _).trans (List.append_nil _)
      · exact List.append_nil _

end Returned

/-- **When what is kept is an honest beginning** at all times: when no event leaves a gap. What is
returned is what is kept at the end. -/
theorem honest_along_iff {rt : Runtime} (hdecodes : rt.DecodesUtf8) (config : ServerConfig)
    (events : List StreamEvent) :
    (Along (receive rt config) (Honest config) ({}, []) events ↔
      AllSteps (receive rt config) (LeavesNoGap config) ({}, []) events) ∧
    ∀ (engine : PolicyEngine rt) (sessionId command : String) (cwd : Option String)
      (env : Environment)
      (timeoutMs : Option ℕ) (log : List Event) (result : StreamResult),
      Runs (execWithStreaming engine config sessionId command cwd env timeoutMs) log (.ok result) →
        RanWith log events →
          let kept := (run (receive rt config) ({}, []) events).1
          (∀ stream, kept.gathered stream =
            match stream with
            | .stdout => result.stdout
            | .stderr => result.stderr) ∧
          kept.truncated = result.truncated ∧
          kept.chunks.filterMap StreamChunk.datum? = result.chunks.filterMap
            StreamChunk.datum? := by
  refine ⟨?_, fun engine sessionId command cwd env timeoutMs log result h hran => ?_⟩
  · exact along_iff_allSteps_of_invariant (fun _ h => h.honest)
      (fun _ _ h hgap => gathers_receive hdecodes h hgap)
      (fun _ _ h hhonest => leavesNoGap_of_honest hdecodes h hhonest) (gathers_start config)
  · have hgives := gives_execWithStreaming h hran
    rw [run_receive]
    refine ⟨fun stream => ?_, hgives.truncated.symm, hgives.chunks.symm⟩
    cases stream with
    | stdout => exact hgives.stdout.symm
    | stderr => exact hgives.stderr.symm

theorem decimalRuntime_decodesUtf8 : decimalRuntime.DecodesUtf8 := fun _ => rfl

/-- An event on the standard output. -/
def stdoutEvent (text : String) : StreamEvent := ⟨.stdout, Utf8.encode text, 0⟩

/-- A limit of two bytes. -/
def twoBytes : ServerConfig := { sampleConfig with maxCommandOutputBytes := 2 }

/-- A character of two bytes that is left out, and another of as many bytes. -/
theorem honest_along_iff_wide :
    Along (receive decimalRuntime twoBytes) (Honest twoBytes) ({}, [])
      [stdoutEvent "aé", stdoutEvent "éb"] :=
  (honest_along_iff decimalRuntime_decodesUtf8 twoBytes _).1.mpr
    ⟨by decide +kernel, by decide +kernel, trivial⟩

/-- **A character takes the place of another**: of "aé" the second character is left out, and of the
"b" that comes next the first is kept. -/
theorem narrow_character_kept :
    (∀ event ∈ [stdoutEvent "aé", stdoutEvent "b"], event.data ≠ []) ∧
      ¬Along (receive decimalRuntime twoBytes) (Honest twoBytes) ({}, [])
        [stdoutEvent "aé", stdoutEvent "b"] := by
  refine ⟨by decide +kernel, fun h => ?_⟩
  have hbeginning := h.2.2.beginning .stdout
  have hkept : ((receive decimalRuntime twoBytes (receive decimalRuntime twoBytes ({}, [])
      (stdoutEvent "aé")) (stdoutEvent "b")).1.gathered .stdout).toList = ['a', 'b'] := by
    decide +kernel
  rw [hkept] at hbeginning
  exact absurd hbeginning (by decide +kernel)

end Ssh
