import McpSshTool.Library.Run
import McpSshTool.Remote.WebSocketRoundTrip

/-!
# Silence after close

Whether a websocket connection is silent once it was closed: it delivers no text and writes no frame
after `close` was called, from outside, by a handler or for a frame that closes.

* `SocketEvent`, `step` — bytes arrive, or a method is called;
* `Silent` — a log in which nothing is delivered or written after the connection was ended;
* `taken` — the frames that one call of `drainFrames` goes on after;
* `HearsNothing` — the condition on a step: it takes no text and no ping once the connection is
  closed;
* `silence_after_close_iff` — a run is silent all along exactly when all its steps meet the
  condition.

`sendText` looks at the flag `closed`, and the loop does not.
-/

open Library

namespace Remote

/-- What happens to a connection. -/
inductive SocketEvent (σ : Type) where
  | data (chunk : List UInt8)
  | onText (start : σ)
  | sendText (value : String)
  | close

/-- Whether a text is delivered, or a frame is written. -/
def Output.speaks : Output → Bool
  | .message _ => true
  | .write _ => true
  | _ => false

/-- **Silence after close.** Nothing is delivered or written after the connection was ended. -/
def Silent (log : List Output) : Prop :=
  ∀ before bytes after, log = before ++ .ended bytes :: after → ∀ o ∈ after, o.speaks = false

/-- A log of a connection that has ended. -/
def HasEnded (log : List Output) : Prop := ∃ bytes, Output.ended bytes ∈ log

theorem silent_of_not_hasEnded {log : List Output} (h : ¬HasEnded log) : Silent log := by
  intro before bytes after hlog
  refine absurd ⟨bytes, ?_⟩ h
  rw [hlog]
  exact List.mem_append_right _ List.mem_cons_self

/-- **One more output**: after the end it must be none that speaks. -/
theorem silent_append_singleton {log : List Output} {o : Output} :
    Silent (log ++ [o]) ↔ Silent log ∧ (HasEnded log → o.speaks = false) := by
  constructor
  · intro h
    refine ⟨fun before bytes after hlog o' ho' => ?_, ?_⟩
    · refine h before bytes (after ++ [o]) ?_ o' (List.mem_append_left _ ho')
      rw [hlog, List.append_assoc, List.cons_append]
    · rintro ⟨bytes, hbytes⟩
      obtain ⟨before, after, rfl⟩ := List.append_of_mem hbytes
      refine h before bytes (after ++ [o]) ?_ o (List.mem_append_right _ List.mem_cons_self)
      rw [List.append_assoc, List.cons_append]
  · rintro ⟨hsilent, ho⟩ before bytes after hlog o' ho'
    rcases List.eq_nil_or_concat after with rfl | ⟨after, last, rfl⟩
    · exact absurd ho' List.not_mem_nil
    · -- the last output is the one that was added
      rw [List.concat_eq_append, ← List.cons_append, ← List.append_assoc] at hlog
      obtain ⟨rfl, hlast⟩ := List.append_inj' hlog rfl
      obtain rfl := List.head_eq_of_cons_eq hlast
      rw [List.concat_eq_append, List.mem_append, List.mem_singleton] at ho'
      rcases ho' with ho' | rfl
      · exact hsilent before bytes after rfl o' ho'
      · exact ho ⟨bytes, List.mem_append_right _ List.mem_cons_self⟩

namespace MinimalWebSocketConnection

section Log

variable {σ : Type} {onMessage : TextHandler σ} {c : MinimalWebSocketConnection σ}

/-! ### The flag and the log -/

/-- The flag `closed` says whether the connection was ended. -/
def Tracks (c : MinimalWebSocketConnection σ) : Prop := c.closed = true ↔ HasEnded c.log

theorem hasEnded_append_singleton {log : List Output} {o : Output} :
    HasEnded (log ++ [o]) ↔ HasEnded log ∨ ∃ bytes, o = .ended bytes := by
  unfold HasEnded
  simp only [List.mem_append, List.mem_singleton, exists_or, eq_comm]

theorem Tracks.emit (h : c.Tracks) {o : Output} (ho : ∀ bytes, o ≠ .ended bytes) :
    (c.emit o).Tracks := by
  have hended : HasEnded (c.log ++ [o]) ↔ HasEnded c.log :=
    hasEnded_append_singleton.trans (or_iff_left fun ⟨bytes, hbytes⟩ => ho bytes hbytes)
  exact Iff.trans h hended.symm

/-- A step that keeps the flag in line with the log, and the log silent. -/
structure Quietly (c c' : MinimalWebSocketConnection σ) : Prop where
  tracks : c'.Tracks
  silent : Silent c'.log ↔ Silent c.log

theorem Quietly.trans {c' c'' : MinimalWebSocketConnection σ} (h : Quietly c c')
    (h' : Quietly c' c'') : Quietly c c'' :=
  ⟨h'.tracks, h'.silent.trans h.silent⟩

theorem quietly_notifyClose (h : c.Tracks) : Quietly c c.notifyClose := by
  unfold notifyClose
  split
  · exact ⟨h, Iff.rfl⟩
  · refine ⟨h.emit nofun, ?_⟩
    exact silent_append_singleton.trans (and_iff_left fun _ => rfl)

theorem quietly_close (h : c.Tracks) : Quietly c c.close := by
  unfold close
  split
  · exact ⟨h, Iff.rfl⟩
  · refine Quietly.trans ⟨?_, ?_⟩ (quietly_notifyClose ?_)
    · exact iff_of_true rfl (hasEnded_append_singleton.mpr (.inr ⟨_, rfl⟩))
    · exact silent_append_singleton.trans (and_iff_left fun _ => rfl)
    · exact iff_of_true rfl (hasEnded_append_singleton.mpr (.inr ⟨_, rfl⟩))

theorem closed_close (c : MinimalWebSocketConnection σ) : c.close.closed = true := by
  unfold close notifyClose
  split
  · assumption
  · dsimp only
    split <;> rfl

/-- **`sendText` looks at the flag**: once the connection is closed it writes nothing. -/
theorem quietly_sendText (h : c.Tracks) (value : String) : Quietly c (c.sendText value) := by
  unfold sendText
  split
  · exact ⟨h, Iff.rfl⟩
  · next hopen =>
    refine ⟨h.emit nofun, silent_append_singleton.trans (and_iff_left fun hended => ?_)⟩
    exact absurd (h.mpr hended) hopen

theorem quietly_calls (h : c.Tracks) (calls : List Call) : Quietly c (calls.foldl perform c) := by
  induction calls generalizing c with
  | nil => exact ⟨h, Iff.rfl⟩
  | cons call calls ih =>
    have hcall : Quietly c (c.perform call) := by
      cases call with
      | sendText value => exact quietly_sendText h value
      | close => exact quietly_close h
    exact hcall.trans (ih hcall.tracks)

/-- Calls close the connection if `close` is among them, and never open it again. -/
theorem closed_calls (calls : List Call) (c : MinimalWebSocketConnection σ) :
    (calls.foldl perform c).closed = true ↔ c.closed = true ∨ Call.close ∈ calls := by
  induction calls generalizing c with
  | nil => exact (or_iff_left List.not_mem_nil).symm
  | cons call calls ih =>
    rw [List.foldl_cons, ih, List.mem_cons]
    cases call with
    | close => exact iff_of_true (.inl (closed_close c)) (.inr (.inl rfl))
    | sendText value =>
      have hsame : (c.perform (.sendText value)).closed = c.closed := by
        show (c.sendText value).closed = c.closed
        unfold sendText
        split <;> rfl
      rw [hsame]
      exact or_congr_right (or_iff_right nofun).symm

theorem textHandlers_calls (calls : List Call) (c : MinimalWebSocketConnection σ) :
    (calls.foldl perform c).textHandlers = c.textHandlers := by
  induction calls generalizing c with
  | nil => rfl
  | cons call calls ih =>
    rw [List.foldl_cons, ih]
    cases call with
    | sendText value =>
      show (c.sendText value).textHandlers = _
      unfold sendText
      split <;> rfl
    | close =>
      show c.close.textHandlers = _
      unfold close notifyClose
      split
      · rfl
      · dsimp only
        split <;> rfl

/-! ### Frames -/

/-- The text of a frame is delivered, or its ping is answered. -/
def Speaks (handlers : Option σ) (f : ReadFrame) : Prop :=
  f.opcode = 0x9 ∨ f.opcode = 0x1 ∧ handlers.isSome

/-- The state of the handlers after a frame, and what they do for it. -/
def react (onMessage : TextHandler σ) (handlers : Option σ) (f : ReadFrame) :
    Option σ × List Call :=
  match handlers with
  | none => (none, [])
  | some s =>
    if f.opcode = 0x1 then
      (some (onMessage s (Utf8.decode f.payload)).1, (onMessage s (Utf8.decode f.payload)).2)
    else (some s, [])

/-- What the handlers do for frames, one after the other. -/
def reactions (onMessage : TextHandler σ) : Option σ → List ReadFrame → List Call
  | _, [] => []
  | handlers, f :: fs =>
    (react onMessage handlers f).2 ++ reactions onMessage (react onMessage handlers f).1 fs

variable (onMessage) in
/-- **What one frame does**: it is heard if it speaks, and the connection is closed after it if it
was before, or a handler closes it. -/
theorem handleFrame_spec (h : c.Tracks) (f : ReadFrame) :
    (handleFrame onMessage c f).Tracks ∧
      (Silent (handleFrame onMessage c f).log ↔
        Silent c.log ∧ (Speaks c.textHandlers f → c.closed = false)) ∧
      (handleFrame onMessage c f).textHandlers = (react onMessage c.textHandlers f).1 ∧
      ((handleFrame onMessage c f).closed = true ↔
        c.closed = true ∨ Call.close ∈ (react onMessage c.textHandlers f).2) := by
  -- what speaks breaks the silence exactly where the end has been told of, and that is where it is
  -- closed
  have hheard : ∀ o : Output, o.speaks = true →
      (Silent (c.log ++ [o]) ↔ Silent c.log ∧ c.closed = false) := by
    intro o ho
    refine silent_append_singleton.trans (and_congr_right fun _ => ?_)
    rw [ho]
    constructor
    · intro hnot
      exact Bool.eq_false_iff.mpr fun hclosed => absurd (hnot (h.mp hclosed)) nofun
    · intro hopen hended
      exact absurd (h.mpr hended) (Bool.eq_false_iff.mp hopen)
  unfold handleFrame
  split
  · next hping =>
    -- a ping is answered with a pong, and no handler hears of it
    have hreact : react onMessage c.textHandlers f = (c.textHandlers, []) := by
      unfold react
      split
      · next hnone => rw [hnone]
      · next s hs => rw [if_neg (by rw [hping]; decide), hs]
    rw [hreact]
    refine ⟨h.emit nofun, ?_, rfl, (or_iff_left List.not_mem_nil).symm⟩
    exact (hheard _ rfl).trans (and_congr_right fun _ => ⟨fun h _ => h, fun h => h (.inl hping)⟩)
  · next hping =>
    split
    · next htext =>
      unfold deliver react
      cases hhandlers : c.textHandlers with
      | none =>
        -- nobody listens for texts
        refine ⟨h, (and_iff_left fun hspeaks => ?_).symm, hhandlers,
          (or_iff_left List.not_mem_nil).symm⟩
        exact absurd (hspeaks.resolve_left hping).2 Bool.false_ne_true
      | some s =>
        dsimp only
        rw [if_pos htext]
        set message := Utf8.decode f.payload
        set emitted := ({ c with textHandlers := some (onMessage s message).1 } :
          MinimalWebSocketConnection σ).emit (.message message)
        have htracks : emitted.Tracks := Tracks.emit
          (c := { c with textHandlers := some (onMessage s message).1 }) h nofun
        -- the message comes first, and what the handler calls makes no sound of this kind
        have hcalls := quietly_calls htracks (onMessage s message).2
        refine ⟨hcalls.tracks, ?_, textHandlers_calls _ _, closed_calls _ _⟩
        refine hcalls.silent.trans ((hheard (.message message) rfl).trans ?_)
        exact and_congr_right fun _ => ⟨fun h _ => h, fun h => h (.inr ⟨htext, rfl⟩)⟩
    · next htext =>
      have hreact : react onMessage c.textHandlers f = (c.textHandlers, []) := by
        unfold react
        split
        · next hnone => rw [hnone]
        · next s hs => rw [if_neg htext, hs]
      rw [hreact]
      refine ⟨h, (and_iff_left fun hspeaks => ?_).symm, rfl, (or_iff_left List.not_mem_nil).symm⟩
      exact absurd (hspeaks.resolve_left hping).1 htext

/-! ### What one call of the loop takes -/

/-- The frames that the loop goes on after, in at most so many turns: none from a frame on that
closes, is refused or has not arrived as a whole. -/
def taken : ℕ → List UInt8 → List ReadFrame
  | 0, _ => []
  | turns + 1, buffer =>
    match readFrame buffer with
    | .item frame rest => if frame.opcode = 0x8 then [] else frame :: taken turns rest
    | _ => []

/-- **A connection hears nothing in frames once it is closed**: where a frame speaks, the connection
was open, and no handler has closed it at the frames before. -/
def HearsNothing (onMessage : TextHandler σ) (c : MinimalWebSocketConnection σ)
    (frames : List ReadFrame) : Prop :=
  ∀ before f after, frames = before ++ f :: after → Speaks c.textHandlers f →
    c.closed = false ∧ Call.close ∉ reactions onMessage c.textHandlers before

theorem hearsNothing_nil (c : MinimalWebSocketConnection σ) : HearsNothing onMessage c [] := by
  intro before f after hsplit
  cases before <;> cases hsplit

theorem speaks_react {handlers : Option σ} {f g : ReadFrame} :
    Speaks (react onMessage handlers f).1 g ↔ Speaks handlers g := by
  unfold Speaks react
  cases handlers with
  | none => rfl
  | some =>
    dsimp only
    split <;> rfl

/-- The first frame, and then the others in the state that it leads to. -/
theorem hearsNothing_cons (h : c.Tracks) {f : ReadFrame} {fs : List ReadFrame} :
    HearsNothing onMessage c (f :: fs) ↔
      (Speaks c.textHandlers f → c.closed = false) ∧
        HearsNothing onMessage (handleFrame onMessage c f) fs := by
  obtain ⟨-, -, hhandlers, hclosed⟩ := handleFrame_spec onMessage h f
  have hopen : (handleFrame onMessage c f).closed = false ↔
      c.closed = false ∧ Call.close ∉ (react onMessage c.textHandlers f).2 := by
    rw [← Bool.not_eq_true, ← Bool.not_eq_true, hclosed, not_or]
  have hreactions : ∀ before, reactions onMessage c.textHandlers (f :: before) =
      (react onMessage c.textHandlers f).2 ++
        reactions onMessage (handleFrame onMessage c f).textHandlers before := by
    intro before
    rw [hhandlers]
    rfl
  constructor
  · intro hnothing
    refine ⟨fun hspeaks => (hnothing [] f fs rfl hspeaks).1, ?_⟩
    -- of the later frames, the first one counts as one that comes before
    rintro before g after rfl hspeaks
    rw [hhandlers, speaks_react] at hspeaks
    obtain ⟨hstart, hcalls⟩ := hnothing (f :: before) g after rfl hspeaks
    rw [hreactions, List.mem_append, not_or] at hcalls
    exact ⟨hopen.mpr ⟨hstart, hcalls.1⟩, hcalls.2⟩
  · rintro ⟨hfirst, hrest⟩ before g after hsplit hspeaks
    cases before with
    | nil =>
      obtain ⟨rfl, rfl⟩ := List.cons.inj hsplit
      exact ⟨hfirst hspeaks, List.not_mem_nil⟩
    | cons f' before =>
      obtain ⟨rfl, rfl⟩ := List.cons.inj hsplit
      obtain ⟨hstill, hcalls⟩ :=
        hrest before g after rfl (by rw [hhandlers, speaks_react]; exact hspeaks)
      obtain ⟨hstart, hcall⟩ := hopen.mp hstill
      rw [hreactions, List.mem_append, not_or]
      exact ⟨hstart, hcall, hcalls⟩

variable (onMessage) in
/-- **One call of the loop** keeps a log silent if it hears nothing in the frames that it takes. -/
theorem drain_spec (turns : ℕ) (h : c.Tracks) :
    (drain onMessage turns c).Tracks ∧
      (Silent (drain onMessage turns c).log ↔
        Silent c.log ∧ HearsNothing onMessage c (taken turns c.buffer)) := by
  induction turns generalizing c with
  | zero => exact ⟨h, (and_iff_left (hearsNothing_nil c)).symm⟩
  | succ turns ih =>
    have hstop {c' : MinimalWebSocketConnection σ} (htracks : c'.Tracks)
        (hsilent : Silent c'.log ↔ Silent c.log) (htaken : taken (turns + 1) c.buffer = []) :
        c'.Tracks ∧ (Silent c'.log ↔
          Silent c.log ∧ HearsNothing onMessage c (taken (turns + 1) c.buffer)) := by
      rw [htaken]
      exact ⟨htracks, hsilent.trans (and_iff_left (hearsNothing_nil c)).symm⟩
    unfold drain
    cases hread : readFrame c.buffer with
    -- the loop ends where no frame can be read, and behind a close frame
    | incomplete => exact hstop h Iff.rfl (by rw [taken, hread])
    | refused =>
      exact hstop (quietly_close h).tracks (quietly_close h).silent (by rw [taken, hread])
    | item f rest =>
      dsimp only
      by_cases hclose : f.opcode = 0x8
      · rw [if_pos hclose]
        have hquiet := quietly_close (c := { c with buffer := rest }) h
        exact hstop hquiet.tracks hquiet.silent (by rw [taken, hread]; exact if_pos hclose)
      · rw [if_neg hclose]
        have htaken : taken (turns + 1) c.buffer = f :: taken turns rest := by
          rw [taken, hread]
          exact if_neg hclose
        -- a frame is handled, and the loop goes on with what that has left
        set c₀ : MinimalWebSocketConnection σ := { c with buffer := rest } with hc₀
        have hbuffer : (handleFrame onMessage c₀ f).buffer = rest :=
          congrArg MinimalWebSocketConnection.buffer (handleFrame_setBuffer c₀ rest f)
        obtain ⟨htracks, hsilent, -⟩ := handleFrame_spec onMessage (c := c₀) h f
        obtain ⟨htracks', hsilent'⟩ := ih htracks
        refine ⟨htracks', hsilent'.trans ?_⟩
        rw [htaken, hbuffer, hsilent, and_assoc]
        exact and_congr_right fun _ => (hearsNothing_cons (c := c₀) h).symm

/-! ### Runs -/

variable (onMessage)

/-- One step of a connection. -/
def step (c : MinimalWebSocketConnection σ) : SocketEvent σ → MinimalWebSocketConnection σ
  | .data chunk => handleData onMessage c chunk
  | .onText start => onText onMessage start c
  | .sendText value => c.sendText value
  | .close => c.close

/-- **A step stays silent**: among the frames that the loop takes from the bytes that have arrived,
it hears nothing once the connection is closed. -/
def StaysSilent (c : MinimalWebSocketConnection σ) : SocketEvent σ → Prop
  | .data chunk => c.buffer.length + chunk.length ≤ maxFrameBytes →
      HearsNothing onMessage c (taken (c.buffer.length + chunk.length) (c.buffer ++ chunk))
  | .onText start =>
      HearsNothing onMessage { c with textHandlers := some start } (taken c.buffer.length c.buffer)
  | _ => True

theorem step_spec (h : c.Tracks) (e : SocketEvent σ) :
    (step onMessage c e).Tracks ∧
      (Silent (step onMessage c e).log ↔ Silent c.log ∧ StaysSilent onMessage c e) := by
  cases e with
  | data chunk =>
    change (handleData onMessage c chunk).Tracks ∧ (Silent (handleData onMessage c chunk).log ↔ _)
    unfold handleData StaysSilent
    split
    · next hlong =>
      -- too long a buffer closes the connection before any frame is read
      have hquiet := quietly_close h
      refine ⟨hquiet.tracks, hquiet.silent.trans (and_iff_left fun hshort => ?_).symm⟩
      exact absurd hshort (Nat.not_le_of_lt hlong)
    · next hshort =>
      obtain ⟨htracks, hsilent⟩ := drain_spec onMessage
        (c := { c with buffer := c.buffer ++ chunk }) (c.buffer ++ chunk).length h
      rw [List.length_append] at htracks hsilent
      refine ⟨?_, ?_⟩
      · unfold drainFrames
        rw [List.length_append]
        exact htracks
      · unfold drainFrames
        rw [List.length_append]
        refine hsilent.trans (and_congr_right fun _ => ?_)
        exact ⟨fun hnothing _ => hnothing, fun hnothing => hnothing (Nat.le_of_not_lt hshort)⟩
  | onText start =>
    exact drain_spec onMessage (c := { c with textHandlers := some start })
      c.buffer.length h
  | sendText value =>
    have hquiet := quietly_sendText h value
    exact ⟨hquiet.tracks, hquiet.silent.trans (and_iff_left trivial).symm⟩
  | close =>
    have hquiet := quietly_close h
    exact ⟨hquiet.tracks, hquiet.silent.trans (and_iff_left trivial).symm⟩

theorem tracks_create (initialBuffer : List UInt8) :
    (create initialBuffer : MinimalWebSocketConnection σ).Tracks ∧
      Silent (create initialBuffer : MinimalWebSocketConnection σ).log := by
  have hnot : ¬HasEnded (create initialBuffer : MinimalWebSocketConnection σ).log := by
    rintro ⟨bytes, hbytes⟩
    unfold create at hbytes
    split at hbytes
    · cases List.mem_singleton.mp hbytes
    · exact absurd hbytes List.not_mem_nil
  refine ⟨iff_of_false ?_ hnot, silent_of_not_hasEnded hnot⟩
  unfold create
  split <;> exact Bool.false_ne_true

end Log

variable {σ : Type} (onMessage : TextHandler σ)

/-- **When a connection is silent after close.** Whatever arrives and is called, in any order, and
whatever the handlers do, the log of a connection is silent all along exactly when no step hears a
text or a ping once the connection is closed. -/
theorem silence_after_close_iff (initialBuffer : List UInt8) (events : List (SocketEvent σ)) :
    Run.Along (step onMessage) (fun c => Silent c.log) (create initialBuffer) events ↔
      Run.AllSteps (step onMessage) (StaysSilent onMessage) (create initialBuffer) events := by
  obtain ⟨htracks, hsilent⟩ := tracks_create (σ := σ) initialBuffer
  refine Run.along_iff_allSteps_of_invariant
    (J := fun c : MinimalWebSocketConnection σ => c.Tracks ∧ Silent c.log) (fun _ h => h.2)
    (fun c e h hC => ?_) (fun c e h hP => ?_) ⟨htracks, hsilent⟩
  · obtain ⟨htracks, hsilent⟩ := step_spec onMessage h.1 e
    exact ⟨htracks, hsilent.mpr ⟨h.2, hC⟩⟩
  · exact ((step_spec onMessage h.1 e).2.mp hP).2

/-- Handlers that close the connection at every text. -/
def hangUp : TextHandler Unit := fun _ _ => ((), [.close])

/-- **A text is delivered after the connection was closed**: two texts arrive in one chunk, and the
handler closes the connection at the first. -/
theorem text_after_close :
    ¬Run.Along (step hangUp) (fun c => Silent c.log) (create [])
      [.onText (), .data [0x81, 1, 0x61, 0x81, 1, 0x62]] := by
  intro h
  have hlog : (Run.run (step hangUp) (create []) [.onText (),
      .data [0x81, 1, 0x61, 0x81, 1, 0x62]]).log =
        [.message "a", .ended [0x88, 0x00], .closeNotified, .message "b"] := by
    decide +kernel
  have hsilent := h.2.2 [.message "a"] [0x88, 0x00] [.closeNotified, .message "b"] hlog
  exact absurd (hsilent (.message "b") (List.mem_cons_of_mem _ List.mem_cons_self)) nofun

end MinimalWebSocketConnection

end Remote
