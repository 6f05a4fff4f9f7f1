import McpSshTool.Remote.WebSocketRoundTrip

/-!
# Messages in fragments

What a websocket connection delivers of the messages of a client, which may split each of them into
fragments and send control frames in between.

* `ClientFrame` — a masked frame of the protocol, and `WellOrdered` — the order of the frames;
* `completeTexts` — the texts of the messages that are complete;
* `WithinLimit` — the bytes arrive in chunks that the connection takes;
* `delivers_text_frames` — each frame with the opcode of a text is delivered as a message of its
  own, so the complete messages are delivered where each text is sent in one frame.

The loop of `drainFrames` looks at the opcode of a frame and not at its bit FIN, and passes over
continuation frames.
-/

open Library

namespace Remote

/-! ### The frames of a client -/

inductive Opcode where
  | continuation | text | binary | close | ping | pong
deriving DecidableEq

namespace Opcode

def code : Opcode → UInt8
  | continuation => 0x0
  | text => 0x1
  | binary => 0x2
  | close => 0x8
  | ping => 0x9
  | pong => 0xa

def isControl : Opcode → Bool
  | close => true
  | ping => true
  | pong => true
  | _ => false

end Opcode

/-- **A masked frame.** Control frames are short and are not split. -/
structure ClientFrame where
  isFinal : Bool
  opcode : Opcode
  key : { key : List UInt8 // key.length = 4 }
  payload : List UInt8
  control : opcode.isControl = true → isFinal = true ∧ payload.length < 126
  fits : payload.length < 2 ^ 63

namespace ClientFrame

/-- The bit FIN and the opcode. -/
def first (f : ClientFrame) : UInt8 := (if f.isFinal then 0x80 else 0) ||| f.opcode.code

/-- The shortest form of the length. -/
def form (f : ClientFrame) : LengthForm :=
  if f.payload.length < 126 then .short
  else if f.payload.length < 65536 then .medium
  else .long

/-- The bytes of the frame. -/
def bytes (f : ClientFrame) : List UInt8 :=
  match f.form with
  | .short =>
    [f.first, 0x80 ||| UInt8.ofNat f.payload.length] ++ f.key.1 ++ unmask f.key.1 f.payload
  | .medium =>
    [f.first, 0x80 ||| 126] ++ Buffer.uintBE 2 f.payload.length ++ f.key.1 ++
      unmask f.key.1 f.payload
  | .long =>
    [f.first, 0x80 ||| 127] ++ Buffer.uintBE 8 f.payload.length ++ f.key.1 ++
      unmask f.key.1 f.payload

/-- What is read off them. -/
def read (f : ClientFrame) : ReadFrame := ⟨f.opcode.code, f.payload⟩

theorem first_and (f : ClientFrame) : f.first &&& 0x0f = f.opcode.code := by
  unfold first
  cases f.isFinal <;> cases f.opcode <;> rfl

/-- A frame like any other, but for the first byte. -/
def wire (f : ClientFrame) : WireFrame where
  first := 0x81
  form := f.form
  mask := some f.key
  payload := f.payload
  notClose := WireFrame.text_ne_close
  fits := by
    have hfits := f.fits
    unfold form
    split
    · next h => exact h
    · split
      · next h => exact h
      · exact Nat.lt_trans hfits (by decide)

theorem bytes_eq (f : ClientFrame) : f.bytes = f.first :: f.wire.encode.tail := by
  have hmask : f.wire.mask = some f.key := rfl
  have hpayload : f.wire.payload = f.payload := rfl
  unfold bytes WireFrame.encode WireFrame.lengthCode WireFrame.lengthBytes WireFrame.body
  rw [show f.wire.form = f.form from rfl, hmask, hpayload]
  cases f.form with
  | short => rfl
  | medium =>
    dsimp only
    rw [List.append_assoc, List.append_assoc]
    rfl
  | long =>
    dsimp only
    rw [List.append_assoc, List.append_assoc]
    rfl

end ClientFrame

/-- The first byte tells the opcode, and nothing else. -/
theorem readFrame_first {a b : UInt8} {rest r : List UInt8} {g : ReadFrame}
    (h : readFrame (a :: rest) = .item g r) :
    readFrame (b :: rest) = .item ⟨b &&& 0x0f, g.payload⟩ r := by
  -- the first byte is looked at for the opcode only, in each of the three forms of the length
  have hpayload : ∀ second length body, readPayload a second length body = .item g r →
      readPayload b second length body = .item ⟨b &&& 0x0f, g.payload⟩ r := by
    intro second length body h
    unfold readPayload at h ⊢
    by_cases hsize : maxFrameBytes < length
    · rw [if_pos hsize] at h
      cases h
    · rw [if_neg hsize] at h ⊢
      dsimp only at h ⊢
      by_cases hshort : body.length < (if second &&& 0x80 ≠ 0 then 4 else 0) + length
      · rw [if_pos hshort] at h
        cases h
      · rw [if_neg hshort] at h ⊢
        obtain ⟨rfl, rfl⟩ := Reading.item.inj h
        rfl
  cases rest with
  | nil => cases h
  | cons =>
    unfold readFrame at h ⊢
    dsimp only at h ⊢
    split_ifs at h ⊢
    · exact hpayload _ _ _ h
    · exact hpayload _ _ _ h
    · exact hpayload _ _ _ h

/-- **A client's frame is read back from its bytes.** -/
theorem encodes_bytes {f : ClientFrame} (hsize : f.payload.length ≤ maxFrameBytes) :
    Encodes readFrame f.bytes f.read := by
  have hread : readFrame (0x81 :: f.wire.encode.tail) = .item f.wire.read [] :=
    encodes_encode (f := f.wire) hsize
  have hfirst := readFrame_first (b := f.first) hread
  rw [f.first_and, ← f.bytes_eq] at hfirst
  exact hfirst

/-! ### Messages -/

/-- **The order of the frames**: a message goes on, by continuation frames, up to its final frame,
and nothing follows a close frame. Control frames may stand anywhere. -/
def WellOrdered : Bool → List ClientFrame → Prop
  | _, [] => True
  | inMessage, f :: fs =>
    match f.opcode with
    | .continuation => inMessage = true ∧ WellOrdered (!f.isFinal) fs
    | .text => inMessage = false ∧ WellOrdered (!f.isFinal) fs
    | .binary => inMessage = false ∧ WellOrdered (!f.isFinal) fs
    | .close => fs = []
    | .ping => WellOrdered inMessage fs
    | .pong => WellOrdered inMessage fs

/-- The message that a data frame begins or goes on with: whether it is a text, and its bytes so
far. -/
def extended (pending : Option (Bool × List UInt8)) (f : ClientFrame) :
    Option (Bool × List UInt8) :=
  match f.opcode, pending with
  | .text, _ => some (true, f.payload)
  | .binary, _ => some (false, f.payload)
  | .continuation, some (isText, bytes) => some (isText, bytes ++ f.payload)
  | _, _ => none

/-- **The texts of the complete messages**, behind the part of a message that has arrived. -/
def completeTexts : Option (Bool × List UInt8) → List ClientFrame → List String
  | _, [] => []
  | pending, f :: fs =>
    match extended pending f with
    | none => completeTexts pending fs
    | some (isText, bytes) =>
      if f.isFinal then
        (if isText then [Utf8.decode bytes] else []) ++ completeTexts none fs
      else completeTexts (some (isText, bytes)) fs

/-- The texts of the frames with the opcode of a text, each by itself. -/
def frameTexts (frames : List ClientFrame) : List String :=
  (frames.filter fun f => f.opcode = .text).map fun f => Utf8.decode f.payload

theorem frameTexts_cons (f : ClientFrame) (fs : List ClientFrame) :
    frameTexts (f :: fs) =
      (if f.opcode = .text then [Utf8.decode f.payload] else []) ++ frameTexts fs := by
  unfold frameTexts
  by_cases h : f.opcode = .text
  · rw [List.filter_cons_of_pos (by simpa using h), List.map_cons, if_pos h]
    rfl
  · rw [List.filter_cons_of_neg (by simpa using h), if_neg h]
    rfl

theorem extended_text {f : ClientFrame} (h : f.opcode = .text)
    (pending : Option (Bool × List UInt8)) : extended pending f = some (true, f.payload) := by
  unfold extended
  rw [h]

/-- **Texts in one frame each**: behind no part of a text, the complete messages are those of the
frames. -/
theorem completeTexts_of_final {frames : List ClientFrame}
    (hfinal : ∀ f ∈ frames, f.opcode = .text → f.isFinal = true)
    {pending : Option (Bool × List UInt8)} (hpending : ∀ m ∈ pending, m.1 = false) :
    completeTexts pending frames = frameTexts frames := by
  induction frames generalizing pending with
  | nil => rfl
  | cons f fs ih =>
    rw [List.forall_mem_cons] at hfinal
    have hgo : ∀ {pending : Option (Bool × List UInt8)}, (∀ m ∈ pending, m.1 = false) →
        completeTexts pending fs = frameTexts fs := fun h => ih hfinal.2 h
    have hnone : completeTexts none fs = frameTexts fs := hgo fun m hm => nomatch hm
    rw [frameTexts_cons, completeTexts]
    -- a frame may extend the message that is pending, which is no text
    cases hextended : extended pending f with
    | none =>
      have hnotText : f.opcode ≠ .text := by
        intro htext
        rw [extended_text htext] at hextended
        cases hextended
      rw [if_neg hnotText]
      exact hgo hpending
    | some m =>
      obtain ⟨isText, bytes⟩ := m
      dsimp only
      by_cases htext : f.opcode = .text
      · rw [extended_text htext] at hextended
        obtain ⟨rfl, rfl⟩ := Prod.mk.inj (Option.some.inj hextended)
        rw [hfinal.1 htext, if_pos rfl, if_pos rfl, if_pos htext, hnone]
      · -- only a text frame starts a text
        have hbinary : isText = false := by
          unfold extended at hextended
          split at hextended
          · next hopcode => exact absurd hopcode htext
          · exact (Prod.mk.inj (Option.some.inj hextended)).1.symm
          · next isText' bytes' _ =>
            rw [← (Prod.mk.inj (Option.some.inj hextended)).1]
            exact hpending (isText', bytes') rfl
          · cases hextended
        rw [if_neg htext, hbinary, if_neg Bool.false_ne_true, hnone,
          hgo fun m hm => by rw [← Option.some.inj hm]]
        split <;> rfl

namespace MinimalWebSocketConnection

variable {σ : Type*} {onMessage : TextHandler σ} {c : MinimalWebSocketConnection σ}

/-! ### What is delivered -/

/-- What a connection with handlers has delivered, whether or not it was closed. -/
structure Heard (c c' : MinimalWebSocketConnection σ) (texts : List String) : Prop where
  textHandlers : c'.textHandlers.isSome
  messages : c'.messages = c.messages ++ texts

theorem Heard.trans {c' c'' : MinimalWebSocketConnection σ} {texts texts' : List String}
    (h : Heard c c' texts) (h' : Heard c' c'' texts') : Heard c c'' (texts ++ texts') :=
  ⟨h'.textHandlers, by rw [h'.messages, h.messages, List.append_assoc]⟩

theorem heard_notifyClose (h : c.textHandlers.isSome) : Heard c c.notifyClose [] := by
  unfold notifyClose
  split
  · exact ⟨h, (List.append_nil _).symm⟩
  · exact ⟨h, messages_emit c .closeNotified⟩

theorem heard_close (h : c.textHandlers.isSome) : Heard c c.close [] := by
  unfold close
  split
  · exact ⟨h, (List.append_nil _).symm⟩
  · set ended := ({ c with closed := true } : MinimalWebSocketConnection σ).emit
      (.ended [0x88, 0x00])
    have hended : Heard c ended [] := ⟨h, messages_emit { c with closed := true } _⟩
    exact hended.trans (heard_notifyClose h)

theorem heard_calls (calls : List Call) (h : c.textHandlers.isSome) :
    Heard c (calls.foldl perform c) [] := by
  induction calls generalizing c with
  | nil => exact ⟨h, (List.append_nil _).symm⟩
  | cons call calls ih =>
    have hcall : Heard c (c.perform call) [] := by
      cases call with
      | close => exact heard_close h
      | sendText value =>
        show Heard c (c.sendText value) []
        unfold sendText
        split
        · exact ⟨h, (List.append_nil _).symm⟩
        · exact ⟨h, messages_emit c _⟩
    exact hcall.trans (ih hcall.textHandlers)

/-- **A frame with the opcode of a text is delivered**, and no other. -/
theorem heard_handleFrame (h : c.textHandlers.isSome) (f : ReadFrame) :
    Heard c (handleFrame onMessage c f) (textsOf [f]) := by
  unfold handleFrame textsOf
  split
  · next hping =>
    have htexts : [f].filter (fun f => f.opcode = 0x1) = [] := by simp [hping]
    rw [htexts]
    exact ⟨h, messages_emit c _⟩
  · split
    · next htext =>
      have htexts : [f].filter (fun f => f.opcode = 0x1) = [f] := by simp [htext]
      obtain ⟨s, hs⟩ := Option.isSome_iff_exists.mp h
      rw [htexts]
      unfold deliver
      rw [hs]
      set message := Utf8.decode f.payload
      set emitted := ({ c with textHandlers := some (onMessage s message).1 } :
        MinimalWebSocketConnection σ).emit (.message message)
      -- the handler may call for more, which adds no messages
      have hemitted : Heard c emitted [message] := ⟨rfl, messages_emit _ _⟩
      exact hemitted.trans (heard_calls (onMessage s message).2 rfl)
    · next htext =>
      have htexts : [f].filter (fun f => f.opcode = 0x1) = [] := by simp [htext]
      rw [htexts]
      exact ⟨h, (List.append_nil _).symm⟩

/-! ### The stream -/

/-- No frame follows one that closes. -/
def ClosesLast (frames : List ReadFrame) : Prop :=
  ∀ before f after, frames = before ++ f :: after → f.opcode = 0x8 → after = []

theorem ClosesLast.tail {f : ReadFrame} {fs : List ReadFrame} (h : ClosesLast (f :: fs)) :
    ClosesLast fs := fun before g after hsplit =>
  h (f :: before) g after (by rw [hsplit, List.cons_append])

theorem ClosesLast.split {first second : List ReadFrame} (h : ClosesLast (first ++ second)) :
    ClosesLast first ∧ ClosesLast second := by
  constructor
  · intro before f after hsplit hclose
    have hafter := h before f (after ++ second) (by rw [hsplit, List.append_assoc]; rfl) hclose
    exact (List.append_eq_nil_iff.mp hafter).1
  · intro before f after hsplit
    exact h (first ++ before) f after (by rw [hsplit, List.append_assoc])

theorem buffer_close (c : MinimalWebSocketConnection σ) : c.close.buffer = c.buffer := by
  unfold close notifyClose
  split
  · rfl
  · dsimp only
    split <;> rfl

theorem textsOf_cons (f : ReadFrame) (fs : List ReadFrame) :
    textsOf (f :: fs) = textsOf [f] ++ textsOf fs := by
  rw [textsOf, textsOf, textsOf, ← List.map_append, ← List.filter_append]
  rfl

variable (onMessage) in
/-- **The loop delivers the texts of the frames of the buffer**, the closing one included. -/
theorem heard_drain {buffer rest : List UInt8} {frames : List ReadFrame}
    (h : Decodes readFrame buffer frames rest) (hlast : ClosesLast frames) (turns : ℕ)
    (hturns : buffer.length ≤ turns) (hbuffer : c.buffer = buffer)
    (hhandlers : c.textHandlers.isSome) :
    Heard c (drain onMessage turns c) (textsOf frames) ∧
      (drain onMessage turns c).buffer = rest := by
  induction h generalizing turns c with
  -- by induction on the frames that the buffer decodes to, one turn for each
  | done hread =>
    subst hbuffer
    have hstay : drain onMessage turns c = c := by
      cases turns with
      | zero => rfl
      | succ => rw [drain, hread]
    rw [hstay]
    exact ⟨⟨hhandlers, (List.append_nil _).symm⟩, rfl⟩
  | @item p r f fs rest hread hrest ih =>
    subst hbuffer
    have hshorter := stable_readFrame.shorter hread
    obtain ⟨turns, rfl⟩ : ∃ n, turns = n + 1 := ⟨turns - 1, by omega⟩
    rw [drain, hread]
    dsimp only
    set c₀ : MinimalWebSocketConnection σ := { c with buffer := r }
    by_cases hclose : f.opcode = 0x8
    · rw [if_pos hclose]
      -- a close frame is the last one
      obtain rfl := hlast [] f fs rfl hclose
      cases hrest
      have htexts : textsOf [f] = [] := by simp [textsOf, hclose]
      rw [htexts]
      have hheard : Heard c₀ c₀.close [] := heard_close hhandlers
      exact ⟨⟨hheard.textHandlers, hheard.messages⟩, buffer_close c₀⟩
    · rw [if_neg hclose]
      have hframe : Heard c₀ (handleFrame onMessage c₀ f) (textsOf [f]) :=
        heard_handleFrame (c := c₀) hhandlers f
      have hbuffer : (handleFrame onMessage c₀ f).buffer = r :=
        congrArg MinimalWebSocketConnection.buffer (handleFrame_setBuffer c₀ r f)
      obtain ⟨hheard, hleft⟩ := ih hlast.tail turns (by omega) hbuffer hframe.textHandlers
      rw [textsOf_cons]
      have hboth := hframe.trans hheard
      exact ⟨⟨hboth.textHandlers, hboth.messages⟩, hleft⟩

/-- **The bytes arrive within the limit**: a frame is within it, and so is what has arrived of a
frame together with the next chunk. -/
structure WithinLimit (frames : List ClientFrame) (initialBuffer : List UInt8)
    (chunks : List (List UInt8)) : Prop where
  payload : ∀ f ∈ frames, f.payload.length ≤ maxFrameBytes
  initial : initialBuffer.length ≤ maxFrameBytes
  arriving : ∀ before chunk after, chunks = before ++ chunk :: after → ∀ items rest,
    Decodes readFrame (initialBuffer ++ before.flatten) items rest →
      rest.length + chunk.length ≤ maxFrameBytes

variable (onMessage) in
/-- Chunk by chunk. -/
theorem heard_chunks {chunks : List (List UInt8)} {frames : List ReadFrame}
    (hincomplete : readFrame c.buffer = .incomplete)
    (h : Decodes readFrame (c.buffer ++ chunks.flatten) frames []) (hlast : ClosesLast frames)
    (hlimit : ∀ before chunk after, chunks = before ++ chunk :: after → ∀ items rest,
      Decodes readFrame (c.buffer ++ before.flatten) items rest →
        rest.length + chunk.length ≤ maxFrameBytes) (hhandlers : c.textHandlers.isSome) :
    Heard c (chunks.foldl (handleData onMessage) c) (textsOf frames) := by
  induction chunks generalizing c frames with
  | nil =>
    rw [List.flatten_nil, List.append_nil] at h
    obtain ⟨rfl, -⟩ := eq_nil_of_incomplete hincomplete h
    exact ⟨hhandlers, (List.append_nil _).symm⟩
  | cons chunk chunks ih =>
    rw [List.flatten_cons, ← List.append_assoc] at h
    -- the frames that are complete with this chunk, and those that are not
    obtain ⟨first, second, rest, rfl, hfirst, hsecond⟩ := h.split stable_readFrame
    obtain ⟨hlastFirst, hlastSecond⟩ := hlast.split
    -- so that the connection is not closed for a buffer that is too long
    have hfits : c.buffer.length + chunk.length ≤ maxFrameBytes :=
      hlimit [] chunk chunks rfl [] c.buffer (by
        rw [List.flatten_nil, List.append_nil]
        exact .done hincomplete)
    set c₀ : MinimalWebSocketConnection σ := { c with buffer := c.buffer ++ chunk }
    have hdata : handleData onMessage c chunk = drain onMessage c₀.buffer.length c₀ := by
      rw [handleData, if_neg (by omega)]
      rfl
    obtain ⟨hheard, hleft⟩ :=
      heard_drain onMessage (c := c₀) hfirst hlastFirst _ (le_refl _) rfl hhandlers
    rw [List.foldl_cons, hdata]
    have hrest := ih (c := drain onMessage c₀.buffer.length c₀)
      (by rw [hleft]; exact incomplete_of_decodes hfirst) (by rw [hleft]; exact hsecond) hlastSecond
      (fun before chunk' after hsplit items r hdecodes => by
        rw [hleft] at hdecodes
        refine hlimit (chunk :: before) chunk' after (by rw [hsplit]; rfl) (first ++ items) r ?_
        rw [List.flatten_cons, ← List.append_assoc]
        exact hfirst.join stable_readFrame hdecodes)
      hheard.textHandlers
    have htexts : textsOf (first ++ second) = textsOf first ++ textsOf second := by
      rw [textsOf, textsOf, textsOf, ← List.map_append, ← List.filter_append]
    rw [htexts]
    have hboth := hheard.trans hrest
    exact ⟨hboth.textHandlers, hboth.messages⟩

theorem closesLast_read {inMessage : Bool} {frames : List ClientFrame}
    (h : WellOrdered inMessage frames) : ClosesLast (frames.map ClientFrame.read) := by
  induction frames generalizing inMessage with
  | nil =>
    intro before f after hsplit
    cases before <;> cases hsplit
  | cons f fs ih =>
    intro before g after hsplit hclose
    rw [WellOrdered] at h
    cases before with
    | nil =>
      obtain ⟨rfl, rfl⟩ := List.cons.inj hsplit
      -- of all opcodes only that of a close frame is `0x8`
      cases hopcode : f.opcode with
      | close =>
        rw [hopcode] at h
        rw [show fs = [] from h]
        rfl
      | _ =>
        have hcode : f.opcode.code = 0x8 := hclose
        rw [hopcode] at hcode
        exact absurd hcode (by decide)
    | cons g' before =>
      have htail := (List.cons.inj hsplit).2
      cases hopcode : f.opcode with
      | continuation => rw [hopcode] at h; exact ih h.2 before g after htail hclose
      | text => rw [hopcode] at h; exact ih h.2 before g after htail hclose
      | binary => rw [hopcode] at h; exact ih h.2 before g after htail hclose
      | ping => rw [hopcode] at h; exact ih h before g after htail hclose
      | pong => rw [hopcode] at h; exact ih h before g after htail hclose
      | close =>
        rw [hopcode] at h
        rw [show fs = [] from h] at htail
        cases before <;> cases htail

/-- **What is delivered of messages in fragments.** Whatever the handlers do, and wherever the bytes
are cut: each frame with the opcode of a text is delivered once, in order and by itself, and no
other frame is; so the complete messages are delivered where every text is sent in one frame. -/
theorem delivers_text_frames (onMessage : TextHandler σ) (start : σ) (frames : List ClientFrame)
    {initialBuffer : List UInt8} {chunks : List (List UInt8)} (hordered : WellOrdered false frames)
    (hlimit : WithinLimit frames initialBuffer chunks)
    (hstream : initialBuffer ++ chunks.flatten = frames.flatMap ClientFrame.bytes) :
    (receive onMessage start initialBuffer chunks).messages = frameTexts frames ∧
      ((∀ f ∈ frames, f.opcode = .text → f.isFinal = true) →
        (receive onMessage start initialBuffer chunks).messages = completeTexts none frames) := by
  have hdecodes : Decodes readFrame (initialBuffer ++ chunks.flatten)
      (frames.map ClientFrame.read) [] := by
    rw [hstream]
    exact decodes_flatMap stable_readFrame fun f hf => encodes_bytes (hlimit.payload f hf)
  have hmessages : (receive onMessage start initialBuffer chunks).messages = frameTexts frames := by
    obtain ⟨first, second, rest, hframes, hfirst, hsecond⟩ := hdecodes.split stable_readFrame
    have hlast := closesLast_read hordered
    rw [hframes] at hlast
    obtain ⟨hlastFirst, hlastSecond⟩ := hlast.split
    -- the frames that came with the upgrade, once there are handlers
    set c : MinimalWebSocketConnection σ := ⟨initialBuffer, false, false, some start, []⟩ with hc
    obtain ⟨hopened, hleft⟩ := heard_drain onMessage (c := c) hfirst hlastFirst
      initialBuffer.length (le_refl _) rfl rfl
    have hreceive : receive onMessage start initialBuffer chunks =
        chunks.foldl (handleData onMessage) (drain onMessage initialBuffer.length c) := by
      rw [receive, create, if_neg (Nat.not_lt_of_le hlimit.initial)]
      rfl
    have hchunks := heard_chunks onMessage
      (c := drain onMessage initialBuffer.length c)
      (by rw [hleft]; exact incomplete_of_decodes hfirst) (by rw [hleft]; exact hsecond) hlastSecond
      (fun before chunk after hsplit items r hdecodes => by
        rw [hleft] at hdecodes
        exact hlimit.arriving before chunk after hsplit (first ++ items) r
          (hfirst.join stable_readFrame hdecodes))
      hopened.textHandlers
    have hall := (hopened.trans hchunks).messages
    rw [hreceive, hall, show c.messages = [] from rfl, List.nil_append]
    calc textsOf first ++ textsOf second = textsOf (frames.map ClientFrame.read) := by
          rw [hframes, textsOf, textsOf, textsOf, ← List.map_append, ← List.filter_append]
      _ = frameTexts frames := by
          rw [textsOf, frameTexts, List.filter_map, List.map_map]
          refine congrArg (List.map _) (List.filter_congr fun f _ => ?_)
          cases hopcode : f.opcode <;> simp [ClientFrame.read, hopcode, Opcode.code]
  refine ⟨hmessages, fun hfinal => ?_⟩
  rw [hmessages, completeTexts_of_final hfinal fun m hm => by cases hm]

/-- A text in two fragments, with a ping in between. -/
def splitText : List ClientFrame :=
  [⟨false, .text, ⟨[0, 0, 0, 0], rfl⟩, [0x61], by decide, by decide⟩,
    ⟨true, .ping, ⟨[0, 0, 0, 0], rfl⟩, [], by decide, by decide⟩,
    ⟨true, .continuation, ⟨[0, 0, 0, 0], rfl⟩, [0x62], by decide, by decide⟩]

theorem withinLimit_initial {frames : List ClientFrame} {initialBuffer : List UInt8}
    (hpayload : ∀ f ∈ frames, f.payload.length ≤ maxFrameBytes)
    (hinitial : initialBuffer.length ≤ maxFrameBytes) : WithinLimit frames initialBuffer [] :=
  ⟨hpayload, hinitial, fun before chunk after hsplit => by cases before <;> cases hsplit⟩

/-- The frames of one text message, sent whole. -/
def wholeText : List ClientFrame :=
  [⟨true, .text, sampleKey, [0x61, 0x62], by decide, by decide⟩]

theorem delivers_text_frames_wholeText :
    (receive echo () (wholeText.flatMap ClientFrame.bytes) []).messages = ["ab"] :=
  ((delivers_text_frames echo () wholeText ⟨rfl, trivial⟩
    (withinLimit_initial (by decide) (by decide)) (List.append_nil _)).2 (by decide)).trans
    (by decide +kernel)

/-- **A fragment is delivered as a message of its own**: the text `ab` in two fragments arrives as
`a`. -/
theorem fragment_delivered :
    ¬∀ (frames : List ClientFrame) (initialBuffer : List UInt8) (chunks : List (List UInt8)),
      WellOrdered false frames → WithinLimit frames initialBuffer chunks →
      initialBuffer ++ chunks.flatten = frames.flatMap ClientFrame.bytes →
      (receive echo () initialBuffer chunks).messages = completeTexts none frames := by
  intro h
  have hsame := h splitText (splitText.flatMap ClientFrame.bytes) [] ⟨rfl, rfl, trivial⟩
    (withinLimit_initial (by decide) (by decide)) (List.append_nil _)
  have hdelivered : (receive echo () (splitText.flatMap ClientFrame.bytes) []).messages =
    ["a"] := by
    decide +kernel
  have hcomplete : completeTexts none splitText = ["ab"] := by decide +kernel
  rw [hdelivered, hcomplete] at hsame
  exact absurd hsame (by decide)

end MinimalWebSocketConnection

end Remote
