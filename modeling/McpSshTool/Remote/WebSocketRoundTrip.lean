import McpSshTool.Remote.WebSocket

/-!
# The websocket connection reads what was written

Frames that arrive in parts, cut anywhere, are read once each and in order, as long as none of them
closes the connection and they do not exceed the limit together.

* `stable_readFrame` — more bytes change nothing about a frame that was read.
* `encodes_encode` — a frame in any of the three length encodings, masked or not, is read back.
* `receive_of_decodes` — what a connection does with a stream, whatever the chunks.
-/

open Library

namespace Remote

/-! ### More bytes change nothing -/

theorem readPayload_append {first second : UInt8} {length : ℕ} {body : List UInt8}
    (q : List UInt8) :
    (∀ f r, readPayload first second length body = .item f r →
      readPayload first second length (body ++ q) = .item f (r ++ q)) ∧
    (readPayload first second length body = .refused →
      readPayload first second length (body ++ q) = .refused) := by
  unfold readPayload
  by_cases hsize : maxFrameBytes < length
  · simp only [if_pos hsize]
    exact ⟨fun _ _ h => absurd h nofun, fun _ => trivial⟩
  simp only [if_neg hsize]
  generalize hmask : (if second &&& 0x80 ≠ 0 then 4 else 0) = maskLength
  by_cases hshort : body.length < maskLength + length
  · simp only [if_pos hshort]
    exact ⟨fun _ _ h => absurd h nofun, fun h => absurd h nofun⟩
  have hlong : ¬(body ++ q).length < maskLength + length := by
    rw [List.length_append]
    omega
  simp only [if_neg hshort, if_neg hlong]
  refine ⟨fun f r h => ?_, fun h => absurd h nofun⟩
  rw [Reading.item.injEq] at h ⊢
  obtain ⟨rfl, rfl⟩ := h
  have hdrop : (body ++ q).drop maskLength = body.drop maskLength ++ q :=
    List.drop_append_of_le_length (by omega)
  have hpayload : ((body ++ q).drop maskLength).take length = (body.drop maskLength).take
    length := by
    rw [hdrop, List.take_append_of_le_length]
    rw [List.length_drop]
    omega
  refine ⟨?_, List.drop_append_of_le_length (by omega)⟩
  rw [hpayload]
  by_cases hmasked : second &&& 0x80 ≠ 0
  · rw [if_pos hmasked] at hmask
    rw [if_pos hmasked, if_pos hmasked, List.take_append_of_le_length (by omega)]
  · rw [if_neg hmasked, if_neg hmasked]

theorem readPayload_length {first second : UInt8} {length : ℕ} {body r : List UInt8} {f : ReadFrame}
    (h : readPayload first second length body = .item f r) : r.length ≤ body.length := by
  unfold readPayload at h
  split at h
  · cases h
  · dsimp only at h
    generalize (if second &&& 0x80 ≠ 0 then 4 else 0) = maskLength at h
    split at h
    · cases h
    · rw [Reading.item.injEq] at h
      rw [← h.2, List.length_drop]
      omega

/-- **More bytes change nothing** about a frame that was read or refused. -/
theorem stable_readFrame : Stable readFrame where
  nil := rfl
  item {p f r} h q := by
    match p with
    | [] => cases h
    | [_] => cases h
    | first :: second :: body =>
      rw [List.cons_append, List.cons_append]
      unfold readFrame at h ⊢
      dsimp only at h ⊢
      split_ifs at h with h126 h2 h127 h8 hsafe
      · -- the length is in two bytes, which are there
        rw [if_pos h126, if_neg (by rw [List.length_append]; omega),
          List.take_append_of_le_length (by omega), List.drop_append_of_le_length (by omega)]
        exact (readPayload_append q).1 _ _ h
      · -- the length is in eight bytes
        rw [if_neg h126, if_pos h127, if_neg (by rw [List.length_append]; omega),
          List.take_append_of_le_length (by omega), List.drop_append_of_le_length (by omega),
          if_neg hsafe]
        exact (readPayload_append q).1 _ _ h
      · -- the length is in the second byte
        rw [if_neg h126, if_neg h127]
        exact (readPayload_append q).1 _ _ h
  refused {p} h q := by
    match p with
    | [] => cases h
    | [_] => cases h
    | first :: second :: body =>
      rw [List.cons_append, List.cons_append]
      unfold readFrame at h ⊢
      dsimp only at h ⊢
      split_ifs at h with h126 h2 h127 h8 hsafe
      · rw [if_pos h126, if_neg (by rw [List.length_append]; omega),
          List.take_append_of_le_length (by omega), List.drop_append_of_le_length (by omega)]
        exact (readPayload_append q).2 h
      · rw [if_neg h126, if_pos h127, if_neg (by rw [List.length_append]; omega),
          List.take_append_of_le_length (by omega), if_pos hsafe]
      · rw [if_neg h126, if_pos h127, if_neg (by rw [List.length_append]; omega),
          List.take_append_of_le_length (by omega), List.drop_append_of_le_length (by omega),
          if_neg hsafe]
        exact (readPayload_append q).2 h
      · rw [if_neg h126, if_neg h127]
        exact (readPayload_append q).2 h
  shorter {p f r} h := by
    match p with
    | [] => cases h
    | [_] => cases h
    | first :: second :: body =>
      rw [List.length_cons, List.length_cons]
      unfold readFrame at h
      dsimp only at h
      split_ifs at h with h126 h2 h127 h8 hsafe
      · -- what is left is shorter than what stood behind the length
        have hle := readPayload_length h
        rw [List.length_drop] at hle
        omega
      · have hle := readPayload_length h
        rw [List.length_drop] at hle
        omega
      · have hle := readPayload_length h
        omega

/-! ### Frames as they are written -/

/-- How the length of a payload is written. -/
inductive LengthForm where
  | short
  | medium
  | long
deriving DecidableEq

/-- The lengths that a form can write, all below this. -/
def LengthForm.bound : LengthForm → ℕ
  | .short => 126
  | .medium => 256 ^ 2
  | .long => 256 ^ 8

/-- **A frame on the wire** that does not close the connection: its first byte, the form of its
length, the key of its mask if it has one, and its payload. -/
structure WireFrame where
  first : UInt8
  form : LengthForm
  mask : Option { key : List UInt8 // key.length = 4 }
  payload : List UInt8
  notClose : first &&& 0x0f ≠ 0x8
  fits : payload.length < form.bound

namespace WireFrame

theorem text_ne_close : (0x81 : UInt8) &&& 0x0f ≠ 0x8 := by decide

/-- The seven bits of the second byte that tell the form of the length. -/
def lengthCode (f : WireFrame) : UInt8 :=
  match f.form with
  | .short => UInt8.ofNat f.payload.length
  | .medium => 126
  | .long => 127

def lengthBytes (f : WireFrame) : List UInt8 :=
  match f.form with
  | .short => []
  | .medium => Buffer.uintBE 2 f.payload.length
  | .long => Buffer.uintBE 8 f.payload.length

/-- The mask key, and the payload under it. -/
def body (f : WireFrame) : List UInt8 :=
  match f.mask with
  | none => f.payload
  | some key => key.1 ++ unmask key.1 f.payload

/-- The bytes of the frame. -/
def encode (f : WireFrame) : List UInt8 :=
  f.first :: ((if f.mask.isSome then 0x80 else 0) ||| f.lengthCode) :: (f.lengthBytes ++ f.body)

/-- What is read off them. -/
def read (f : WireFrame) : ReadFrame := ⟨f.first &&& 0x0f, f.payload⟩

end WireFrame

theorem length_unmask (mask payload : List UInt8) :
    (unmask mask payload).length = payload.length := by
  rw [unmask, List.length_map, List.length_zipIdx]

theorem unmask_unmask (mask payload : List UInt8) :
    unmask mask (unmask mask payload) = payload := by
  refine List.ext_getElem (by rw [length_unmask, length_unmask]) fun i h₁ h₂ => ?_
  simp only [unmask, List.getElem_map, List.getElem_zipIdx, Nat.zero_add]
  rw [UInt8.xor_assoc, UInt8.xor_self, UInt8.xor_zero]

theorem second_byte {n : ℕ} (h : n < 128) (masked : Bool) :
    (((if masked then 0x80 else 0) ||| UInt8.ofNat n) &&& (0x7f : UInt8)).toNat = n ∧
    (((if masked then 0x80 else 0) ||| UInt8.ofNat n) &&& (0x80 : UInt8) ≠ 0 ↔ masked = true) := by
  have hall : ∀ m < 128, ∀ b : Bool,
      (((if b then 0x80 else 0) ||| UInt8.ofNat m) &&& (0x7f : UInt8)).toNat = m ∧
      (((if b then 0x80 else 0) ||| UInt8.ofNat m) &&& (0x80 : UInt8) ≠ 0 ↔ b = true) := by
    decide +kernel
  exact hall n h masked

/-- The mask and the payload are read back when their length is known. -/
theorem readPayload_body {f : WireFrame} {second : UInt8}
    (hmasked : second &&& 0x80 ≠ 0 ↔ f.mask.isSome = true)
    (hsize : f.payload.length ≤ maxFrameBytes) :
    readPayload f.first second f.payload.length f.body = .item f.read [] := by
  rw [readPayload, if_neg (by omega)]
  cases hmask : f.mask with
  | none =>
    have hplain : ¬second &&& 0x80 ≠ 0 := fun h => by
      have := hmasked.mp h
      rw [hmask] at this
      cases this
    have hbody : f.body = f.payload := by rw [WireFrame.body, hmask]
    simp only [if_neg hplain, Nat.zero_add, List.drop_zero, hbody]
    rw [if_neg (by omega), List.take_length, List.drop_length]
    rfl
  | some key =>
    have hkey : second &&& 0x80 ≠ 0 := hmasked.mpr (by rw [hmask]; rfl)
    have hbody : f.body = key.1 ++ unmask key.1 f.payload := by rw [WireFrame.body, hmask]
    have hlength : f.body.length = 4 + f.payload.length := by
      rw [hbody, List.length_append, key.2, length_unmask]
    have hdrop : f.body.drop 4 = unmask key.1 f.payload := by
      rw [hbody, List.drop_left' key.2]
    have htake : f.body.take 4 = key.1 := by rw [hbody, List.take_left' key.2]
    simp only [if_pos hkey]
    rw [if_neg (by omega), hdrop, htake, ← length_unmask key.1 f.payload, List.take_length,
      unmask_unmask, length_unmask, ← hlength, List.drop_length]
    rfl

/-- **A frame is read back from its bytes**, in each form of the length. -/
theorem encodes_encode {f : WireFrame} (hsize : f.payload.length ≤ maxFrameBytes) :
    Encodes readFrame f.encode f.read := by
  have hfits := f.fits
  unfold Encodes WireFrame.encode readFrame
  cases hform : f.form with
  | short =>
    rw [hform, LengthForm.bound] at hfits
    have hcode : f.lengthCode = UInt8.ofNat f.payload.length := by rw [WireFrame.lengthCode, hform]
    have hbytes : f.lengthBytes = [] := by rw [WireFrame.lengthBytes, hform]
    obtain ⟨hlength, hmasked⟩ := second_byte (n := f.payload.length) (by omega) f.mask.isSome
    simp only [hcode, hbytes, List.nil_append, hlength]
    rw [if_neg (by omega), if_neg (by omega)]
    exact readPayload_body hmasked hsize
  | medium =>
    rw [hform, LengthForm.bound] at hfits
    have hcode : f.lengthCode = UInt8.ofNat 126 := by rw [WireFrame.lengthCode, hform]; rfl
    have hbytes : f.lengthBytes = Buffer.uintBE 2 f.payload.length := by
      rw [WireFrame.lengthBytes, hform]
    have hlen : (Buffer.uintBE 2 f.payload.length).length = 2 := Buffer.length_uintBE _ _
    obtain ⟨hlength, hmasked⟩ := second_byte (n := 126) (by omega) f.mask.isSome
    simp only [hcode, hbytes, hlength, if_true]
    rw [if_neg (by rw [List.length_append]; omega), List.take_left' hlen, List.drop_left' hlen,
      Buffer.readUIntBE_uintBE hfits]
    exact readPayload_body hmasked hsize
  | long =>
    rw [hform, LengthForm.bound] at hfits
    have hcode : f.lengthCode = UInt8.ofNat 127 := by rw [WireFrame.lengthCode, hform]; rfl
    have hbytes : f.lengthBytes = Buffer.uintBE 8 f.payload.length := by
      rw [WireFrame.lengthBytes, hform]
    have hlen : (Buffer.uintBE 8 f.payload.length).length = 8 := Buffer.length_uintBE _ _
    obtain ⟨hlength, hmasked⟩ := second_byte (n := 127) (by omega) f.mask.isSome
    -- a payload within the limit has a safe length
    have hsafe : ¬maxSafeLength < f.payload.length := by
      unfold maxSafeLength
      unfold maxFrameBytes at hsize
      omega
    simp only [hcode, hbytes, hlength, if_true]
    rw [if_neg (by decide), if_neg (by rw [List.length_append]; omega), List.take_left' hlen,
      List.drop_left' hlen, Buffer.readUIntBE_uintBE hfits, if_neg hsafe]
    exact readPayload_body hmasked hsize

namespace MinimalWebSocketConnection

variable {σ : Type*} {onMessage : TextHandler σ}

/-! ### The loop, when no frame closes the connection -/

def setBuffer (c : MinimalWebSocketConnection σ) (buffer : List UInt8) :
    MinimalWebSocketConnection σ :=
  { c with buffer := buffer }

/-- What the loop does with frames, one after the other. -/
def process (onMessage : TextHandler σ) (frames : List ReadFrame)
    (c : MinimalWebSocketConnection σ) : MinimalWebSocketConnection σ :=
  frames.foldl (handleFrame onMessage) c

theorem perform_setBuffer (c : MinimalWebSocketConnection σ) (buffer : List UInt8) (call : Call) :
    (c.setBuffer buffer).perform call = (c.perform call).setBuffer buffer := by
  obtain ⟨_, closed, notified, _, _⟩ := c
  cases call with
  | sendText => cases closed <;> rfl
  | close => cases closed <;> cases notified <;> rfl

theorem handleFrame_setBuffer (c : MinimalWebSocketConnection σ) (buffer : List UInt8)
    (frame : ReadFrame) :
    handleFrame onMessage (c.setBuffer buffer) frame =
      (handleFrame onMessage c frame).setBuffer buffer := by
  have hcalls : ∀ (calls : List Call) (c : MinimalWebSocketConnection σ),
      calls.foldl perform (c.setBuffer buffer) = (calls.foldl perform c).setBuffer buffer := by
    intro calls
    induction calls with
    | nil => exact fun c => rfl
    | cons call calls ih =>
      intro c
      rw [List.foldl_cons, List.foldl_cons, perform_setBuffer, ih]
  unfold handleFrame
  split
  · rfl
  · split
    · obtain ⟨before, closed, notified, handlers, log⟩ := c
      cases handlers with
      | none => rfl
      | some s =>
        set message := Utf8.decode frame.payload
        exact hcalls (onMessage s message).2
          ⟨before, closed, notified, some (onMessage s message).1, log ++ [.message message]⟩
    · rfl

theorem process_setBuffer (frames : List ReadFrame) (c : MinimalWebSocketConnection σ)
    (buffer : List UInt8) :
    process onMessage frames (c.setBuffer buffer) = (process onMessage frames c).setBuffer
      buffer := by
  induction frames generalizing c with
  | nil => rfl
  | cons frame frames ih =>
    rw [process, List.foldl_cons, handleFrame_setBuffer]
    exact ih _

/-- **The loop takes the frames of the buffer one after the other** and leaves what holds none. -/
theorem drain_of_decodes {buffer rest : List UInt8} {frames : List ReadFrame}
    (h : Decodes readFrame buffer frames rest) (hclose : ∀ f ∈ frames, f.opcode ≠ 0x8) {turns : ℕ}
    (hturns : buffer.length ≤ turns) (c : MinimalWebSocketConnection σ) :
    drain onMessage turns (c.setBuffer buffer) = (process onMessage frames c).setBuffer rest := by
  induction h generalizing turns c with
  | @done p hread =>
    cases turns with
    | zero => rfl
    | succ =>
      rw [drain, show (c.setBuffer p).buffer = p from rfl, hread]
      rfl
  | @item p r f frames rest hread _ ih =>
    have hshorter := stable_readFrame.shorter hread
    cases turns with
    | zero => omega
    | succ turns =>
      rw [drain, show (c.setBuffer p).buffer = p from rfl, hread]
      dsimp only
      rw [if_neg (hclose f List.mem_cons_self)]
      have hframe : handleFrame onMessage (c.setBuffer r) f =
          (handleFrame onMessage c f).setBuffer r := handleFrame_setBuffer c r f
      exact (congrArg (drain onMessage turns) hframe).trans
        (ih (fun f' hf' => hclose f' (List.mem_cons_of_mem _ hf')) (by omega) _)

theorem incomplete_of_decodes {buffer rest : List UInt8} {frames : List ReadFrame}
    (h : Decodes readFrame buffer frames rest) : readFrame rest = .incomplete := by
  induction h with
  | done hread => exact hread
  | item _ _ ih => exact ih

theorem length_of_decodes {buffer rest : List UInt8} {frames : List ReadFrame}
    (h : Decodes readFrame buffer frames rest) : rest.length ≤ buffer.length := by
  induction h with
  | done => exact le_refl _
  | item hread _ ih => exact le_trans ih (le_of_lt (stable_readFrame.shorter hread))

theorem eq_nil_of_incomplete {buffer : List UInt8} {frames : List ReadFrame}
    (hincomplete : readFrame buffer = .incomplete) (h : Decodes readFrame buffer frames []) :
    frames = [] ∧ buffer = [] := by
  cases h with
  | done => exact ⟨rfl, rfl⟩
  | item hread => exact absurd (hincomplete.symm.trans hread) nofun

/-- **The chunks may be cut anywhere.** -/
theorem handleData_of_decodes {chunks : List (List UInt8)} {buffer : List UInt8}
    {frames : List ReadFrame} (hincomplete : readFrame buffer = .incomplete)
    (h : Decodes readFrame (buffer ++ chunks.flatten) frames [])
    (hclose : ∀ f ∈ frames, f.opcode ≠ 0x8)
    (hsize : (buffer ++ chunks.flatten).length ≤ maxFrameBytes)
    (c : MinimalWebSocketConnection σ) :
    chunks.foldl (handleData onMessage) (c.setBuffer buffer) =
      (process onMessage frames c).setBuffer [] := by
  induction chunks generalizing buffer frames c with
  | nil =>
    rw [List.flatten_nil, List.append_nil] at h
    obtain ⟨rfl, rfl⟩ := eq_nil_of_incomplete hincomplete h
    rfl
  | cons chunk chunks ih =>
    rw [List.flatten_cons, ← List.append_assoc] at h hsize
    obtain ⟨first, second, rest, rfl, hfirst, hsecond⟩ := h.split stable_readFrame
    have hshort := length_of_decodes hfirst
    rw [List.length_append] at hsize
    have hdata : handleData onMessage (c.setBuffer buffer) chunk =
        (process onMessage first c).setBuffer rest := by
      rw [handleData, if_neg (by
        rw [← List.length_append, show (c.setBuffer buffer).buffer = buffer from rfl]
        omega)]
      exact drain_of_decodes hfirst (fun f hf => hclose f (List.mem_append_left _ hf))
        (le_refl _) c
    rw [List.foldl_cons, hdata, ih (incomplete_of_decodes hfirst) hsecond
      (fun f hf => hclose f (List.mem_append_right _ hf))
      (by rw [List.length_append]; omega) (process onMessage first c)]
    rw [process, process, process, List.foldl_append]

/-- A connection processes the frames of a stream in order, and its buffer is empty at the end. -/
theorem receive_eq {start : σ} {initialBuffer : List UInt8} {chunks : List (List UInt8)}
    {frames : List ReadFrame} (h : Decodes readFrame (initialBuffer ++ chunks.flatten) frames [])
    (hclose : ∀ f ∈ frames, f.opcode ≠ 0x8)
    (hsize : (initialBuffer ++ chunks.flatten).length ≤ maxFrameBytes) :
    receive onMessage start initialBuffer chunks =
      process onMessage frames ⟨[], false, false, some start, []⟩ := by
  set c : MinimalWebSocketConnection σ := ⟨[], false, false, some start, []⟩ with hc
  obtain ⟨first, second, rest, rfl, hfirst, hsecond⟩ := h.split stable_readFrame
  have hshort := length_of_decodes hfirst
  rw [List.length_append] at hsize
  have hopened : (create initialBuffer : MinimalWebSocketConnection σ).onText onMessage start =
      (process onMessage first c).setBuffer rest := by
    rw [create, if_neg (by omega)]
    exact drain_of_decodes hfirst (fun f hf => hclose f (List.mem_append_left _ hf)) (le_refl _) c
  have hbuffer : ∀ c : MinimalWebSocketConnection σ, ∀ frames,
      (process onMessage frames (c.setBuffer [])) = (process onMessage frames c).setBuffer [] :=
    fun c frames => process_setBuffer frames c []
  rw [receive, hopened, handleData_of_decodes (incomplete_of_decodes hfirst) hsecond
    (fun f hf => hclose f (List.mem_append_right _ hf)) (by rw [List.length_append]; omega),
    process, process, process, ← List.foldl_append]
  exact (hbuffer c (first ++ second)).symm

/-! ### What processing does -/

/-- The handlers never close the connection. -/
def Quiet (onMessage : TextHandler σ) : Prop := ∀ s message, Call.close ∉ (onMessage s message).2

/-- The texts among the frames. -/
def textsOf (frames : List ReadFrame) : List String :=
  (frames.filter fun f => f.opcode = 0x1).map fun f => Utf8.decode f.payload

/-- The answers to the pings among the frames. -/
def pongsOf (frames : List ReadFrame) : List (List UInt8) :=
  (frames.filter fun f => f.opcode = 0x9).map fun f =>
    createFrameHeader f.payload.length 0xa ++ f.payload

theorem messages_emit (c : MinimalWebSocketConnection σ) (output : Output) :
    (c.emit output).messages = c.messages ++ (match output with
      | .message text => [text]
      | _ => []) := by
  rw [messages, emit, List.filterMap_append]
  cases output <;> rfl

theorem pongs_emit (c : MinimalWebSocketConnection σ) (output : Output) :
    (c.emit output).pongs = c.pongs ++ (match output with
      | .write bytes => if bytes.headD 0 &&& 0x0f = 0xa then [bytes] else []
      | _ => []) := by
  rw [pongs, writes, emit, List.filterMap_append, List.filter_append]
  cases output with
  | write bytes =>
    refine congrArg (c.pongs ++ ·) ?_
    show List.filter _ [bytes] = _
    rw [List.filter_cons, List.filter_nil]
    simp only [decide_eq_true_eq]
  | _ => rfl

theorem headD_createFrameHeader (length : ℕ) (opcode : UInt8) (payload : List UInt8) :
    (createFrameHeader length opcode ++ payload).headD 0 = 0x80 ||| opcode := by
  unfold createFrameHeader
  split_ifs <;> rfl

/-- What an open connection keeps, and what it adds, while it processes frames. -/
structure Adds (c c' : MinimalWebSocketConnection σ) (texts : List String)
    (answers : List (List UInt8)) : Prop where
  closed : c'.closed = false
  textHandlers : c'.textHandlers.isSome
  buffer : c'.buffer = c.buffer
  messages : c'.messages = c.messages ++ texts
  pongs : c'.pongs = c.pongs ++ answers

theorem adds_sendText {c : MinimalWebSocketConnection σ} (hopen : c.closed = false)
    (hhandlers : c.textHandlers.isSome) (value : String) : Adds c (c.sendText value) [] [] := by
  have hsend : c.sendText value =
      c.emit (.write (createFrameHeader (Utf8.encode value).length 0x1 ++ Utf8.encode value)) := by
    rw [sendText, hopen]
    rfl
  rw [hsend]
  refine ⟨hopen, hhandlers, rfl, messages_emit _ _, ?_⟩
  rw [pongs_emit]
  dsimp only
  rw [headD_createFrameHeader, if_neg (by decide)]

theorem Adds.trans {c c' c'' : MinimalWebSocketConnection σ} {texts texts' : List String}
    {answers answers' : List (List UInt8)} (h : Adds c c' texts answers)
    (h' : Adds c' c'' texts' answers') : Adds c c'' (texts ++ texts') (answers ++ answers') :=
  ⟨h'.closed, h'.textHandlers, h'.buffer.trans h.buffer,
    by rw [h'.messages, h.messages, List.append_assoc],
    by rw [h'.pongs, h.pongs, List.append_assoc]⟩

theorem adds_calls {calls : List Call} (hquiet : Call.close ∉ calls)
    {c : MinimalWebSocketConnection σ} (hopen : c.closed = false)
    (hhandlers : c.textHandlers.isSome) : Adds c (calls.foldl perform c) [] [] := by
  induction calls generalizing c with
  | nil => exact ⟨hopen, hhandlers, rfl, (List.append_nil _).symm, (List.append_nil _).symm⟩
  | cons call calls ih =>
    rw [List.mem_cons, not_or] at hquiet
    cases call with
    | close => exact absurd rfl hquiet.1
    | sendText value =>
      have hsent := adds_sendText hopen hhandlers value
      exact hsent.trans (ih hquiet.2 hsent.closed hsent.textHandlers)

/-- **One frame**: a text is delivered once, a ping is answered once, and nothing else happens. -/
theorem adds_handleFrame (hquiet : Quiet onMessage) {c : MinimalWebSocketConnection σ}
    (hopen : c.closed = false) (hhandlers : c.textHandlers.isSome) (f : ReadFrame) :
    Adds c (handleFrame onMessage c f) (textsOf [f]) (pongsOf [f]) := by
  unfold handleFrame
  split
  · next hping =>
    have htext : textsOf [f] = [] := by simp [textsOf, hping]
    have hpong : pongsOf [f] = [createFrameHeader f.payload.length 0xa ++ f.payload] := by
      simp [pongsOf, hping]
    rw [htext, hpong]
    refine ⟨hopen, hhandlers, rfl, messages_emit _ _, ?_⟩
    rw [pongs_emit]
    dsimp only
    rw [headD_createFrameHeader, if_pos (by decide)]
  · next hping =>
    have hpong : pongsOf [f] = [] := by simp [pongsOf, hping]
    rw [hpong]
    split
    · next htext =>
      have htexts : textsOf [f] = [Utf8.decode f.payload] := by simp [textsOf, htext]
      obtain ⟨s, hs⟩ := Option.isSome_iff_exists.mp hhandlers
      rw [htexts]
      unfold deliver
      rw [hs]
      dsimp only
      have hemit : Adds c
          ({ c with textHandlers := some (onMessage s (Utf8.decode f.payload)).1 }.emit
            (.message (Utf8.decode f.payload))) [Utf8.decode f.payload] [] :=
        ⟨hopen, rfl, rfl, messages_emit _ _, pongs_emit _ _⟩
      have hcalls := adds_calls (hquiet s (Utf8.decode f.payload)) hemit.closed hemit.textHandlers
      exact hemit.trans hcalls
    · next htext =>
      have htexts : textsOf [f] = [] := by simp [textsOf, htext]
      rw [htexts]
      exact ⟨hopen, hhandlers, rfl, (List.append_nil _).symm, (List.append_nil _).symm⟩

theorem adds_process (hquiet : Quiet onMessage) (frames : List ReadFrame)
    {c : MinimalWebSocketConnection σ} (hopen : c.closed = false)
    (hhandlers : c.textHandlers.isSome) :
    Adds c (process onMessage frames c) (textsOf frames) (pongsOf frames) := by
  induction frames generalizing c with
  | nil => exact ⟨hopen, hhandlers, rfl, (List.append_nil _).symm, (List.append_nil _).symm⟩
  | cons f frames ih =>
    have hframe := adds_handleFrame hquiet hopen hhandlers f
    have hrest := ih hframe.closed hframe.textHandlers
    have hboth := hframe.trans hrest
    rw [textsOf, textsOf, ← List.map_append, ← List.filter_append, pongsOf, pongsOf,
      ← List.map_append, ← List.filter_append] at hboth
    exact hboth

/-- **What a connection does with a stream**, whatever the chunks. -/
theorem receive_of_decodes (hquiet : Quiet onMessage) (start : σ) {initialBuffer : List UInt8}
    {chunks : List (List UInt8)} {frames : List ReadFrame}
    (h : Decodes readFrame (initialBuffer ++ chunks.flatten) frames [])
    (hclose : ∀ f ∈ frames, f.opcode ≠ 0x8)
    (hsize : (initialBuffer ++ chunks.flatten).length ≤ maxFrameBytes) :
    (receive onMessage start initialBuffer chunks).messages = textsOf frames ∧
    (receive onMessage start initialBuffer chunks).pongs = pongsOf frames ∧
    (receive onMessage start initialBuffer chunks).closed = false ∧
    (receive onMessage start initialBuffer chunks).buffer = [] := by
  rw [receive_eq h hclose hsize]
  have hadds := adds_process hquiet frames (c := ⟨[], false, false, some start, []⟩) rfl rfl
  exact ⟨hadds.messages, hadds.pongs, hadds.closed, hadds.buffer⟩

/-! ### Frames that the connection writes -/

/-- **What is written with `createFrameHeader` is read back.** -/
theorem readFrame_written {opcode : UInt8} (hfinal : (0x80 ||| opcode) &&& 0x0f = opcode)
    (hclose : opcode ≠ 0x8) {payload : List UInt8} (hsize : payload.length ≤ maxFrameBytes) :
    Encodes readFrame (createFrameHeader payload.length opcode ++ payload) ⟨opcode, payload⟩ := by
  have hnotClose : (0x80 ||| opcode) &&& 0x0f ≠ 0x8 := by rwa [hfinal]
  -- an unmasked frame in the shortest form of its length
  have hframe : ∀ (form : LengthForm) (hfits : payload.length < form.bound),
      (⟨0x80 ||| opcode, form, none, payload, hnotClose, hfits⟩ : WireFrame).encode =
        createFrameHeader payload.length opcode ++ payload →
      Encodes readFrame (createFrameHeader payload.length opcode ++ payload) ⟨opcode, payload⟩ := by
    intro form hfits hencode
    have hread := encodes_encode
      (f := (⟨0x80 ||| opcode, form, none, payload, hnotClose, hfits⟩ : WireFrame)) hsize
    rw [hencode, WireFrame.read, hfinal] at hread
    exact hread
  unfold maxFrameBytes at hsize
  by_cases hshort : payload.length < 126
  · refine hframe .short hshort ?_
    rw [createFrameHeader, if_pos hshort]
    exact congrArg (fun b => (0x80 ||| opcode) :: b :: payload) UInt8.zero_or
  by_cases hmedium : payload.length ≤ 0xffff
  · refine hframe .medium (show payload.length < 256 ^ 2 by omega) ?_
    rw [createFrameHeader, if_neg hshort, if_pos hmedium, List.append_assoc]
    exact congrArg (fun b => (0x80 ||| opcode) :: b :: (Buffer.uintBE 2 payload.length ++ payload))
      UInt8.zero_or
  · refine hframe .long (show payload.length < 256 ^ 8 by omega) ?_
    rw [createFrameHeader, if_neg hshort, if_neg hmedium, List.append_assoc]
    exact congrArg (fun b => (0x80 ||| opcode) :: b :: (Buffer.uintBE 8 payload.length ++ payload))
      UInt8.zero_or

/-- What an open connection writes for texts. -/
theorem writes_sendText (texts : List String) {c : MinimalWebSocketConnection σ}
    (hopen : c.closed = false) :
    (texts.foldl sendText c).writes = c.writes ++
      texts.map fun t => createFrameHeader (Utf8.encode t).length 0x1 ++ Utf8.encode t := by
  induction texts generalizing c with
  | nil => exact (List.append_nil _).symm
  | cons t texts ih =>
    have hsend : c.sendText t =
        c.emit (.write (createFrameHeader (Utf8.encode t).length 0x1 ++ Utf8.encode t)) := by
      rw [sendText, hopen]
      rfl
    have hwritten : (c.sendText t).writes = c.writes ++
        [createFrameHeader (Utf8.encode t).length 0x1 ++ Utf8.encode t] := by
      rw [hsend, writes, emit, List.filterMap_append]
      rfl
    have hstill : (c.sendText t).closed = false := by
      rw [hsend]
      exact hopen
    rw [List.foldl_cons, ih hstill, hwritten, List.map_cons, List.append_assoc]
    rfl

/-! ### The round trip -/

theorem length_le_flatMap {φ : Type*} {frames : List φ} {encode : φ → List UInt8} {f : φ}
    (h : f ∈ frames) : (encode f).length ≤ (frames.flatMap encode).length :=
  (List.sublist_flatten_of_mem (List.mem_map_of_mem h)).length_le

theorem length_payload_le (f : WireFrame) : f.payload.length ≤ f.encode.length := by
  have hbody : f.payload.length ≤ f.body.length := by
    unfold WireFrame.body
    split
    · exact le_refl _
    · rw [List.length_append, length_unmask]
      omega
  rw [WireFrame.encode, List.length_cons, List.length_cons, List.length_append]
  omega

/-- **The round trip of the framing.** Frames that close nothing, cut into any chunks, are read in
order: each text is delivered once and each ping answered once, with its payload; and the texts one
connection sends are those another delivers. -/
theorem framing_round_trip (hquiet : Quiet onMessage) (start : σ) :
    (∀ (frames : List WireFrame) (initialBuffer : List UInt8) (chunks : List (List UInt8)),
      (frames.flatMap WireFrame.encode).length ≤ maxFrameBytes →
      initialBuffer ++ chunks.flatten = frames.flatMap WireFrame.encode →
      (receive onMessage start initialBuffer chunks).messages =
        (frames.filter fun f => f.first &&& 0x0f = 0x1).map (fun f => Utf8.decode f.payload) ∧
      (receive onMessage start initialBuffer chunks).pongs.map readFrame =
        (frames.filter fun f => f.first &&& 0x0f = 0x9).map (fun f => .item ⟨0xa, f.payload⟩ []) ∧
      (receive onMessage start initialBuffer chunks).closed = false ∧
      (receive onMessage start initialBuffer chunks).buffer = []) ∧
    ∀ (texts : List String) (initialBuffer : List UInt8) (chunks : List (List UInt8)),
      (texts.foldl sendText (create [] : MinimalWebSocketConnection σ)).writes.flatten.length ≤
        maxFrameBytes →
      initialBuffer ++ chunks.flatten =
        (texts.foldl sendText (create [] : MinimalWebSocketConnection σ)).writes.flatten →
      (receive onMessage start initialBuffer chunks).messages = texts := by
  constructor
  · intro frames initialBuffer chunks hsize hsplit
    -- a frame that is in the limit has its payload in it
    have hpayload : ∀ f ∈ frames, f.payload.length ≤ maxFrameBytes := fun f hf =>
      Nat.le_trans (length_payload_le f) (Nat.le_trans (length_le_flatMap hf) hsize)
    have hdecodes : Decodes readFrame (initialBuffer ++ chunks.flatten) (frames.map WireFrame.read)
        [] := by
      rw [hsplit]
      exact decodes_flatMap stable_readFrame fun f hf => encodes_encode (hpayload f hf)
    have hclose : ∀ f ∈ frames.map WireFrame.read, f.opcode ≠ 0x8 := by
      intro f hf
      obtain ⟨f, -, rfl⟩ := List.mem_map.mp hf
      exact f.notClose
    obtain ⟨hmessages, hpongs, hopen, hempty⟩ :=
      receive_of_decodes hquiet start hdecodes hclose (by rw [hsplit]; exact hsize)
    refine ⟨?_, ?_, hopen, hempty⟩
    · rw [hmessages, textsOf, List.filter_map, List.map_map]
      rfl
    · rw [hpongs, pongsOf, List.filter_map, List.map_map, List.map_map]
      -- each pong is a frame with the payload of its ping
      refine List.map_congr_left fun f hf => ?_
      have hread : Encodes readFrame (createFrameHeader f.payload.length 0xa ++ f.payload)
          ⟨0xa, f.payload⟩ :=
        readFrame_written (by decide) (by decide) (hpayload f (List.mem_of_mem_filter hf))
      exact hread
  · intro texts initialBuffer chunks hsize hsplit
    -- what is written is one text frame after the other
    have hwrites : (texts.foldl sendText (create [] : MinimalWebSocketConnection
      σ)).writes.flatten =
        texts.flatMap fun t =>
          createFrameHeader (Utf8.encode t).length 0x1 ++ Utf8.encode t := by
      rw [writes_sendText texts rfl]
      rfl
    rw [hwrites] at hsize hsplit
    have hpayload : ∀ t ∈ texts, (Utf8.encode t).length ≤ maxFrameBytes := by
      intro t ht
      refine Nat.le_trans ?_ (Nat.le_trans (length_le_flatMap ht) hsize)
      rw [List.length_append]
      omega
    have hdecodes : Decodes readFrame (initialBuffer ++ chunks.flatten)
        (texts.map fun t => ⟨0x1, Utf8.encode t⟩) [] := by
      rw [hsplit]
      exact decodes_flatMap stable_readFrame fun t ht =>
        readFrame_written (by decide) (by decide) (hpayload t ht)
    -- text frames close nothing
    have hclose : ∀ f ∈ texts.map fun t => (⟨0x1, Utf8.encode t⟩ : ReadFrame), f.opcode ≠ 0x8 := by
      intro f hf
      obtain ⟨t, -, rfl⟩ := List.mem_map.mp hf
      show (0x1 : UInt8) ≠ 0x8
      decide
    obtain ⟨hmessages, -⟩ :=
      receive_of_decodes hquiet start hdecodes hclose (by rw [hsplit]; exact hsize)
    have htexts : textsOf (texts.map fun t => (⟨0x1, Utf8.encode t⟩ : ReadFrame)) = texts := by
      rw [textsOf, List.filter_map, List.map_map]
      have hall : texts.filter ((fun f : ReadFrame => decide (f.opcode = 0x1)) ∘
          fun t => ⟨0x1, Utf8.encode t⟩) = texts := List.filter_eq_self.mpr fun t _ => rfl
      rw [hall]
      calc texts.map _ = texts.map id := List.map_congr_left fun t _ => Utf8.decode_encode t
        _ = texts := List.map_id texts
    rw [hmessages, htexts]

/-- A handler that sends every text back. -/
def echo : TextHandler Unit := fun _ message => ((), [.sendText message])

theorem quiet_echo : Quiet echo := by
  intro s message hclose
  cases List.mem_singleton.mp hclose

/-- A key for masks. -/
def sampleKey : { key : List UInt8 // key.length = 4 } := ⟨[1, 2, 3, 4], rfl⟩

/-- A masked ping, and a text whose length is written in sixteen bits. -/
def sampleFrames : List WireFrame :=
  [⟨0x89, .short, some sampleKey, [7], by decide, by decide⟩,
    ⟨0x81, .medium, none, [0x6f, 0x6b], WireFrame.text_ne_close, by decide⟩]

theorem framing_round_trip_sampleFrames :
    (receive echo () [0x89] [[0x81, 1, 2], [3, 4, 6, 0x81, 126, 0], [2, 0x6f, 0x6b]]).messages =
      ["ok"] ∧
    (receive echo () [0x89] [[0x81, 1, 2], [3, 4, 6, 0x81, 126, 0], [2, 0x6f, 0x6b]]).pongs.map
      readFrame = [.item ⟨0xa, [7]⟩ []] := by
  obtain ⟨hframes, -⟩ := framing_round_trip quiet_echo ()
  obtain ⟨hmessages, hpongs, -⟩ := hframes sampleFrames [0x89]
    [[0x81, 1, 2], [3, 4, 6, 0x81, 126, 0], [2, 0x6f, 0x6b]] (by decide) (by decide)
  exact ⟨hmessages.trans (by decide +kernel), hpongs.trans rfl⟩

end MinimalWebSocketConnection

end Remote
