import McpSshTool.Js.Stringify
import McpSshTool.Remote.ExecutorResult
import McpSshTool.Remote.WebSocketRoundTrip

/-!
# Results on the wire

Whether the result of a shell command fits into a frame that the control plane accepts. The executor
bounds each stream by its raw bytes; the frame is bounded by its bytes after decoding and escaping.

* `FitsTheWire` — a text fits into one masked text frame;
* `FitsTheWire.delivered` — the connection delivers it then, however the frame arrives;
* `result_fits_iff` — a result fits exactly when its two outputs, decoded and escaped, leave room
  for the rest of it.
-/

open Library

namespace Remote

/-! ### Frames -/

/-- The bytes of a masked frame beside its payload: two, those of a long length, and the mask. -/
def maskedOverhead : LengthForm → ℕ
  | .short => 6
  | .medium => 8
  | .long => 14

/-- **A text fits into one masked frame** of at most `MAX_FRAME_BYTES`. -/
def FitsTheWire (text : String) : Prop :=
  ∃ f : WireFrame, f.first = 0x81 ∧ f.mask.isSome = true ∧ f.payload = Utf8.encode text ∧
    f.encode.length ≤ maxFrameBytes

theorem length_encode_masked {f : WireFrame} (hmask : f.mask.isSome = true) :
    f.encode.length = f.payload.length + maskedOverhead f.form := by
  obtain ⟨⟨key, hkey⟩, hmask⟩ := Option.isSome_iff_exists.mp hmask
  have hbody : f.body.length = f.payload.length + 4 := by
    rw [WireFrame.body, hmask, List.length_append, length_unmask, hkey]
    exact Nat.add_comm _ _
  have hlength : f.lengthBytes.length + 6 = maskedOverhead f.form := by
    unfold WireFrame.lengthBytes maskedOverhead
    cases f.form <;> rfl
  rw [WireFrame.encode, List.length_cons, List.length_cons, List.length_append, hbody]
  omega

/-- **A text fits** with fourteen bytes to spare: the header of a long frame and the mask. -/
theorem fitsTheWire_iff (text : String) :
    FitsTheWire text ↔ Utf8.size text + 14 ≤ maxFrameBytes := by
  have hmax : maxFrameBytes = 1048576 := rfl
  constructor
  · rintro ⟨f, -, hmask, hpayload, hsize⟩
    rw [length_encode_masked hmask, hpayload] at hsize
    have hfits := f.fits
    rw [hpayload] at hfits
    change (Utf8.encode text).length + 14 ≤ maxFrameBytes
    cases hform : f.form with
    | long =>
      rw [hform] at hsize
      exact hsize
    | short =>
      rw [hform, LengthForm.bound] at hfits
      omega
    | medium =>
      rw [hform, LengthForm.bound] at hfits
      omega
  · intro hsize
    have hbound : (Utf8.encode text).length < LengthForm.long.bound := by
      change (Utf8.encode text).length + 14 ≤ maxFrameBytes at hsize
      rw [LengthForm.bound]
      omega
    let f : WireFrame := ⟨0x81, .long, some ⟨[0, 0, 0, 0], rfl⟩, Utf8.encode text, by
      decide, hbound⟩
    refine ⟨f, rfl, rfl, rfl, ?_⟩
    rw [length_encode_masked rfl]
    exact hsize

open MinimalWebSocketConnection in
/-- **What fits is delivered**, to a connection that waits for it, in whatever chunks it arrives. -/
theorem FitsTheWire.delivered {text : String} (h : FitsTheWire text) :
    ∃ f : WireFrame, f.payload = Utf8.encode text ∧
      ∀ {σ : Type} {onMessage : TextHandler σ}, Quiet onMessage →
        ∀ (start : σ) (chunks : List (List UInt8)), chunks.flatten = f.encode →
          (receive onMessage start [] chunks).messages = [text] ∧
            (receive onMessage start [] chunks).closed = false := by
  obtain ⟨f, hfirst, -, hpayload, hsize⟩ := h
  refine ⟨f, hpayload, fun hquiet start chunks hchunks => ?_⟩
  have hread : Encodes readFrame f.encode f.read :=
    encodes_encode (Nat.le_trans (length_payload_le f) hsize)
  have hdecodes : Decodes readFrame ([] ++ chunks.flatten) [f.read] [] := by
    rw [List.nil_append, hchunks]
    exact .item hread (.done stable_readFrame.nil)
  have hclose : ∀ g ∈ [f.read], g.opcode ≠ 0x8 := by
    intro g hg
    rw [List.mem_singleton.mp hg]
    exact f.notClose
  obtain ⟨hmessages, -, hopen, -⟩ := receive_of_decodes hquiet start hdecodes hclose
    (by rw [List.nil_append, hchunks]; exact hsize)
  refine ⟨?_, hopen⟩
  have hopcode : f.read.opcode = 0x1 := by
    rw [WireFrame.read, hfirst]
    rfl
  rw [hmessages, textsOf, List.filter_cons_of_pos (by simpa using hopcode), List.filter_nil,
    List.map_cons, List.map_nil, WireFrame.read, hpayload, Utf8.decode_encode]

/-! ### Results -/

/-- `JSON.stringify(result)`. -/
def resultJson (nt : NumberText) (r : AgentResult) : String :=
  ((Value.obj r.toFields).stringify nt).getD ""

/-- The result without its output. -/
def withoutOutput (r : AgentResult) : AgentResult := { r with stdout := some "", stderr := some "" }

/-- The members before the output of a result. -/
def membersBefore (r : AgentResult) : Fields :=
  [("action_id", .str r.action_id), ("agent_id", .str r.agent_id), ("nonce", .str r.nonce),
    ("status", .str r.status.text), ("exit_code", optionalMember (fun n => .int n.toNat)
      r.exit_code)]

/-- The members after it. -/
def membersAfter (r : AgentResult) : Fields :=
  [("started_at", .str r.started_at), ("finished_at", .str r.finished_at),
    ("truncated", .bool r.truncated), ("error_code", optionalMember Value.str r.error_code),
    ("message", optionalMember Value.str r.message), ("signature", .str r.signature)]

theorem resultJson_eq (nt : NumberText) {r : AgentResult} {out err : String}
    (hout : r.stdout = some out) (herr : r.stderr = some err) :
    resultJson nt r = "\x7b" ++ ",".intercalate ((JsText.quote "type" ++ ":" ++
      JsText.quote "action.result") :: (Value.stringifyMembers nt (membersBefore r) ++
        [JsText.quote "stdout" ++ ":" ++ JsText.quote out,
          JsText.quote "stderr" ++ ":" ++ JsText.quote err] ++
        Value.stringifyMembers nt (membersAfter r))) ++ "\x7d" := by
  have hfields : r.toFields = ("type", .str "action.result") :: (membersBefore r ++
      [("stdout", .str out), ("stderr", .str err)] ++ membersAfter r) := by
    unfold AgentResult.toFields
    rw [hout, herr]
    rfl
  unfold resultJson
  rw [hfields, Value.stringify, Option.getD_some, Value.stringifyMembers, Value.stringify,
    Value.stringifyMembers_append, Value.stringifyMembers_append]
  simp only [Value.stringifyMembers, Value.stringify]

/-- **The size of a result** is that of the result without its output, and the escaped output. -/
theorem size_resultJson (nt : NumberText) {r : AgentResult} {out err : String}
    (hout : r.stdout = some out) (herr : r.stderr = some err) :
    Utf8.size (resultJson nt r) = Utf8.size (resultJson nt (withoutOutput r)) +
      JsText.escapedSize out + JsText.escapedSize err := by
  rw [resultJson_eq nt hout herr, resultJson_eq nt (r := withoutOutput r) rfl rfl]
  simp only [Utf8.size_append, Utf8.size_intercalate, List.map_append, List.map_cons, List.map_nil,
    List.sum_append, List.sum_cons, List.sum_nil, JsText.size_quote, JsText.escapedSize_empty]
  rw [show membersBefore (withoutOutput r) = membersBefore r from rfl,
    show membersAfter (withoutOutput r) = membersAfter r from rfl]
  omega

/-! ### Bounded output -/

theorem boundedOutput_singleton {chunk : List UInt8} {maxBytes : ℕ} (hpos : 0 < maxBytes)
    (h : chunk.length ≤ maxBytes) : boundedOutput [chunk] maxBytes = (chunk, false) := by
  have happend : appendBoundedOutput { bytes := 0, chunks := [], truncated := false }
    chunk maxBytes =
      { bytes := chunk.length, chunks := [chunk], truncated := false } := by
    unfold appendBoundedOutput
    rw [if_neg (by omega), if_neg (by dsimp only; omega)]
    simp only [Nat.sub_zero, List.take_of_length_le h, Nat.zero_add, List.nil_append]
    simp
  unfold boundedOutput finalizeBoundedOutput
  rw [List.foldl_cons, List.foldl_nil, happend]
  simp [concatBytes]

/-! ### Shell commands -/

section Shell

variable (host : Host) (os : Os) (policy : AgentPolicy) (platform : Platform)
  (privateKeyPem : String)
  (t : ExecMoment) (action : ActionRequestEnvelope)

/-- What is kept of a stream, escaped: its raw bytes cut at the bound of the policy, decoded, and
escaped for JSON. -/
def wireSize (policy : AgentPolicy) (chunks : List (List UInt8)) : ℕ :=
  JsText.escapedSize (Utf8.decode (boundedOutput chunks policy.maxOutputBytes).1)

/-- The bytes of the frame of a result that are no output. -/
def frameOverhead (nt : NumberText) (r : AgentResult) : ℕ :=
  Utf8.size (resultJson nt (withoutOutput r)) + 14

variable {host os policy platform privateKeyPem t action}

/-- **When the result of a shell command fits**: for all output, under every policy, exactly when
the output that is kept leaves room for the rest of the frame. -/
theorem result_fits_iff {code : Option UInt32} {timedOut : Bool} {stdout stderr : List (List UInt8)}
    (h : (executeAllowed host os policy platform.numberText action).result =
      .ok (childResult policy.maxOutputBytes (.closed code timedOut stdout stderr))) :
    FitsTheWire (resultJson platform.numberText
        (execute platform host os policy privateKeyPem t action)) ↔
      wireSize policy stdout + wireSize policy stderr +
        frameOverhead platform.numberText (execute platform host os policy privateKeyPem t action) ≤
          maxFrameBytes := by
  have hout : (execute platform host os policy privateKeyPem t action).stdout =
      some (Utf8.decode (boundedOutput stdout policy.maxOutputBytes).1) := by
    unfold execute signResult unsignedResult
    rw [h]
    rfl
  have herr : (execute platform host os policy privateKeyPem t action).stderr =
      some (Utf8.decode (boundedOutput stderr policy.maxOutputBytes).1) := by
    unfold execute signResult unsignedResult
    rw [h]
    rfl
  rw [fitsTheWire_iff, size_resultJson _ hout herr]
  unfold wireSize frameOverhead
  omega

end Shell

/-! ### Two results -/

/-- The sample platform, with signatures of the length that Ed25519 signatures have. -/
def wirePlatform : Platform :=
  { samplePlatform with
    sign := fun _ _ => String.ofList (List.replicate 86 'A')
    verify := fun _ _ signature => signature = String.ofList (List.replicate 86 'A') }

/-- An operating system whose processes write chunks to their standard output and exit. -/
def printing (stdout : List (List UInt8)) : Os :=
  { quietOs with spawn := fun _ _ _ _ => .ok (.closed (some 0) false stdout []) }

/-- The result of a shell command that writes them. -/
def printedResult (stdout : List (List UInt8)) : AgentResult :=
  execute wirePlatform { windows := false, uid := some 0 } (printing stdout)
    (profilePolicy .fullAdmin) "agent" sampleExecMoment (sampleRequest .run_shell .shellExec)

theorem executeAllowed_printing (stdout : List (List UInt8)) :
    (executeAllowed { windows := false, uid := some 0 } (printing stdout) (profilePolicy .fullAdmin)
      wirePlatform.numberText (sampleRequest .run_shell .shellExec)).result =
        .ok (childResult (profilePolicy .fullAdmin).maxOutputBytes
          (.closed (some 0) false stdout [])) := rfl

/-- The result of `echo ok` fits. -/
theorem result_fits_ok :
    FitsTheWire (resultJson wirePlatform.numberText (printedResult [[0x6f, 0x6b, 0x0a]])) :=
  (result_fits_iff (executeAllowed_printing [[0x6f, 0x6b, 0x0a]])).mpr (by decide +kernel)

/-- **Null bytes do not fit**: 200000 of them, within the bound of the policy, take 1200000
bytes. -/
theorem nulls_do_not_fit :
    (profilePolicy .fullAdmin).maxOutputBytes = 200000 ∧
      ¬FitsTheWire (resultJson wirePlatform.numberText
        (printedResult [Utf8.encode (String.ofList (List.replicate 200000 (Char.ofNat 0)))])) := by
  refine ⟨rfl, fun h => ?_⟩
  have hlength : ∀ n : ℕ,
      (Utf8.encode (String.ofList (List.replicate n (Char.ofNat 0)))).length = n := by
    intro n
    change Utf8.size _ = n
    rw [Utf8.size_eq, String.toList_ofList]
    induction n with
    | zero => rfl
    | succ n ih =>
      rw [List.replicate_succ, List.map_cons, List.sum_cons, ih]
      exact Nat.add_comm 1 n
  have hkept : ∀ n : ℕ, n ≤ 200000 → (printedResult
      [Utf8.encode (String.ofList (List.replicate n (Char.ofNat 0)))]).stdout =
        some (String.ofList (List.replicate n (Char.ofNat 0))) := by
    intro n hn
    unfold printedResult execute signResult unsignedResult
    rw [executeAllowed_printing]
    change some (Utf8.decode (boundedOutput _ 200000).1) = _
    rw [boundedOutput_singleton (by decide) (by rw [hlength]; exact hn), Utf8.decode_encode]
  have herr : ∀ stdout, ∃ err, (printedResult stdout).stderr = some err := by
    intro stdout
    unfold printedResult execute signResult unsignedResult
    rw [executeAllowed_printing]
    exact ⟨_, rfl⟩
  obtain ⟨err, herr⟩ := herr [Utf8.encode (String.ofList (List.replicate 200000 (Char.ofNat 0)))]
  rw [fitsTheWire_iff, size_resultJson _ (hkept 200000 (le_refl _)) herr,
    JsText.escapedSize_nulls] at h
  have hmax : maxFrameBytes = 1048576 := rfl
  omega

end Remote
