import McpSshTool.Js.Buffer
import McpSshTool.Library.Framing

/-!
# The websocket connection of the control plane

`websocket.ts`: `MinimalWebSocketConnection`, the server's end of a websocket. Bytes that arrive are
kept in a buffer, and whole frames are taken off its front; a text frame goes to the text handler, a
ping is answered and a close frame ends the connection.

* `readFrame` — one turn of the loop in `drainFrames`, up to the point where the frame is known.
* `MinimalWebSocketConnection` — the connection, with a log of what it did to its socket and
  handlers.
* `TextHandler` — what the handler of a text does: it may write to the connection and close it.
-/

open Library

namespace Remote

/-- `MAX_FRAME_BYTES`. -/
def maxFrameBytes : ℕ := 1048576

/-- `Number.MAX_SAFE_INTEGER`. -/
def maxSafeLength : ℕ := 9007199254740991

/-! ### Frames -/

/-- A frame as the loop sees it: the opcode, and the payload without its mask. -/
structure ReadFrame where
  opcode : UInt8
  payload : List UInt8
deriving DecidableEq

/-- `payload[index] ^ mask[index % 4]`, for each index. -/
def unmask (mask payload : List UInt8) : List UInt8 :=
  payload.zipIdx.map fun b => b.1 ^^^ mask.getD (b.2 % 4) 0

/-- The mask and the payload, when the length is known. -/
def readPayload (first second : UInt8) (length : ℕ) (body : List UInt8) : Reading UInt8 ReadFrame :=
  if maxFrameBytes < length then .refused
  else
    let maskLength := if second &&& 0x80 ≠ 0 then 4 else 0
    if body.length < maskLength + length then .incomplete
    else
      let payload := (body.drop maskLength).take length
      .item
        { opcode := first &&& 0x0f
          payload := if second &&& 0x80 ≠ 0 then unmask (body.take 4) payload else payload }
        (body.drop (maskLength + length))

/-- The next frame of the buffer. -/
def readFrame : List UInt8 → Reading UInt8 ReadFrame
  | first :: second :: body =>
    let length := (second &&& 0x7f).toNat
    if length = 126 then
      if body.length < 2 then .incomplete
      else readPayload first second (Buffer.readUIntBE (body.take 2)) (body.drop 2)
    else if length = 127 then
      if body.length < 8 then .incomplete
      else if maxSafeLength < Buffer.readUIntBE (body.take 8) then .refused
      else readPayload first second (Buffer.readUIntBE (body.take 8)) (body.drop 8)
    else readPayload first second length body
  | _ => .incomplete

def createFrameHeader (length : ℕ) (opcode : UInt8) : List UInt8 :=
  if length < 126 then [0x80 ||| opcode, UInt8.ofNat length]
  else if length ≤ 0xffff then [0x80 ||| opcode, 126] ++ Buffer.uintBE 2 length
  else [0x80 ||| opcode, 127] ++ Buffer.uintBE 8 length

/-! ### The connection -/

/-- What a handler does with the connection it is called by. -/
inductive Call where
  | sendText (value : String)
  | close
deriving DecidableEq

/-- What the connection does to its socket and its handlers. -/
inductive Output where
  /-- The text handlers are called. -/
  | message (text : String)
  /-- `socket.write`. -/
  | write (bytes : List UInt8)
  /-- `socket.end`. -/
  | ended (bytes : List UInt8)
  /-- `socket.destroy`. -/
  | destroyed
  /-- The close handlers are called. -/
  | closeNotified
deriving DecidableEq

/-- The text handlers, taken as one: what they do when a text arrives, by the state they keep. -/
def TextHandler (σ : Type*) := σ → String → σ × List Call

/-- The private fields of the connection, the state of its text handlers (once there are any) and
what was done so far. -/
structure MinimalWebSocketConnection (σ : Type*) where
  buffer : List UInt8
  closed : Bool
  wasCloseNotified : Bool
  textHandlers : Option σ
  log : List Output

namespace MinimalWebSocketConnection

variable {σ : Type*}

def emit (c : MinimalWebSocketConnection σ) (output : Output) : MinimalWebSocketConnection σ :=
  { c with log := c.log ++ [output] }

/-- The constructor. -/
def create (initialBuffer : List UInt8) : MinimalWebSocketConnection σ :=
  if maxFrameBytes < initialBuffer.length then ⟨[], false, false, none, [.destroyed]⟩
  else ⟨initialBuffer, false, false, none, []⟩

def sendText (c : MinimalWebSocketConnection σ) (value : String) : MinimalWebSocketConnection σ :=
  if c.closed then c
  else
    let payload := Utf8.encode value
    c.emit (.write (createFrameHeader payload.length 0x1 ++ payload))

def notifyClose (c : MinimalWebSocketConnection σ) : MinimalWebSocketConnection σ :=
  if c.wasCloseNotified then c else { c.emit .closeNotified with wasCloseNotified := true }

def close (c : MinimalWebSocketConnection σ) : MinimalWebSocketConnection σ :=
  if c.closed then c
  else (({ c with closed := true } : MinimalWebSocketConnection σ).emit
    (.ended [0x88, 0x00])).notifyClose

/-- `handleClose`, for the socket's `close`, `end` and `error`. -/
def handleClose (c : MinimalWebSocketConnection σ) : MinimalWebSocketConnection σ :=
  ({ c with closed := true } : MinimalWebSocketConnection σ).notifyClose

def perform (c : MinimalWebSocketConnection σ) : Call → MinimalWebSocketConnection σ
  | .sendText value => c.sendText value
  | .close => c.close

/-- The text handlers are called; a text without a handler is lost. -/
def deliver (onMessage : TextHandler σ) (c : MinimalWebSocketConnection σ) (message : String) :
    MinimalWebSocketConnection σ :=
  match c.textHandlers with
  | none => c
  | some s =>
    let reaction := onMessage s message
    reaction.2.foldl perform ({ c with textHandlers := some reaction.1 }.emit (.message message))

/-- What the loop does with a frame, when it goes on after it. -/
def handleFrame (onMessage : TextHandler σ) (c : MinimalWebSocketConnection σ) (frame : ReadFrame) :
    MinimalWebSocketConnection σ :=
  if frame.opcode = 0x9 then
    c.emit (.write (createFrameHeader frame.payload.length 0x0a ++ frame.payload))
  else if frame.opcode = 0x1 then c.deliver onMessage (Utf8.decode frame.payload)
  else c

/-- The loop of `drainFrames`, for at most so many turns. -/
def drain (onMessage : TextHandler σ) :
    ℕ → MinimalWebSocketConnection σ → MinimalWebSocketConnection σ
  | 0, c => c
  | turns + 1, c =>
    match readFrame c.buffer with
    | .incomplete => c
    | .refused => c.close
    | .item frame rest =>
      let c := { c with buffer := rest }
      if frame.opcode = 0x8 then c.close else drain onMessage turns (c.handleFrame onMessage frame)

/-- `drainFrames`. A frame is two bytes or more, so the buffer bounds the turns of the loop. -/
def drainFrames (onMessage : TextHandler σ) (c : MinimalWebSocketConnection σ) :
    MinimalWebSocketConnection σ :=
  drain onMessage c.buffer.length c

/-- `onText`, for handlers that start in the given state. -/
def onText (onMessage : TextHandler σ) (start : σ) (c : MinimalWebSocketConnection σ) :
    MinimalWebSocketConnection σ :=
  drainFrames onMessage { c with textHandlers := some start }

def handleData (onMessage : TextHandler σ) (c : MinimalWebSocketConnection σ) (chunk : List UInt8) :
    MinimalWebSocketConnection σ :=
  if maxFrameBytes < c.buffer.length + chunk.length then c.close
  else drainFrames onMessage { c with buffer := c.buffer ++ chunk }

/-- A connection with its text handlers, after the chunks. -/
def receive (onMessage : TextHandler σ) (start : σ) (initialBuffer : List UInt8)
    (chunks : List (List UInt8)) : MinimalWebSocketConnection σ :=
  chunks.foldl (handleData onMessage) ((create initialBuffer).onText onMessage start)

/-! ### What was done -/

/-- The texts that were delivered. -/
def messages (c : MinimalWebSocketConnection σ) : List String :=
  c.log.filterMap fun output => match output with
    | .message text => some text
    | _ => none

/-- The frames that were written. -/
def writes (c : MinimalWebSocketConnection σ) : List (List UInt8) :=
  c.log.filterMap fun output => match output with
    | .write bytes => some bytes
    | _ => none

/-- The pongs that were written: the frames with opcode `0xa`. -/
def pongs (c : MinimalWebSocketConnection σ) : List (List UInt8) :=
  c.writes.filter fun bytes => bytes.headD 0 &&& 0x0f = 0xa

end MinimalWebSocketConnection

end Remote
