import McpSshTool.Remote.ControlPlane.Ledger
import McpSshTool.Remote.ControlPlane.Routine

/-!
# What most operations leave alone

The frame of the control plane: the nonces of hellos, whether the database is open, and what has
been sent so far. An operation that is in the `Frame` keeps the first two and only appends to the
third. A routine operation is (`frame_of_routine`), and so are all steps but three: an accepted
hello and a cleanup change the nonces, and a shutdown closes the database. `step_frame` lists them.
-/

open Library

namespace Remote

namespace RemoteControlPlane

variable (d : Deployment)

/-- **The frame**: the nonces and the database are as before, and what was sent stays sent. -/
structure Frame (s s' : RemoteControlPlane) : Prop where
  nonces : s'.agentHelloNonces = s.agentHelloNonces
  isOpen : s'.store.isOpen = s.store.isOpen
  sent : s.sent <+: s'.sent

theorem Frame.refl (s : RemoteControlPlane) : Frame s s := ⟨rfl, rfl, List.prefix_rfl⟩

theorem Frame.trans {s s' s'' : RemoteControlPlane} (h : Frame s s') (h' : Frame s' s'') :
    Frame s s'' :=
  ⟨h'.nonces.trans h.nonces, h'.isOpen.trans h.isOpen, h.sent.trans h'.sent⟩

section Operations

variable (m : Moment) (s : RemoteControlPlane)

theorem frame_sendJson (c : ConnectionId) (message : ServerMessage) :
    Frame s (s.sendJson c message) := by
  unfold sendJson
  split
  · exact .refl s
  · exact ⟨rfl, rfl, List.prefix_append _ _⟩

theorem frame_change {s s' : RemoteControlPlane} (h : Change d m s s') : Frame s s' := by
  cases h with
  | audit =>
    exact ⟨rfl, rfl, List.prefix_rfl⟩
  | sendJson c message => exact frame_sendJson s c message
  | tables store hopen => exact ⟨rfl, hopen, List.prefix_rfl⟩
  | connections => exact ⟨rfl, rfl, List.prefix_rfl⟩
  | onClose => exact ⟨rfl, rfl, List.prefix_rfl⟩
  | unregister => exact ⟨rfl, rfl, List.prefix_rfl⟩
  | failing => exact ⟨rfl, rfl, List.prefix_rfl⟩
  | patches => exact ⟨rfl, rfl, List.prefix_rfl⟩

/-- **A routine operation is in the frame.** -/
theorem frame_of_routine {s s' : RemoteControlPlane} (h : Routine d m s s') : Frame s s' :=
  h.lift Frame.refl (fun _ _ _ => Frame.trans) fun _ _ => frame_change d m

theorem frame_audit (userId agentId actionId : Option String) (eventType : String)
    (severity : Severity) (metadata : Fields) :
    Frame s (s.audit d m userId agentId actionId eventType severity metadata) :=
  ⟨rfl, rfl, List.prefix_rfl⟩

theorem frame_writeAgent (agent : RemoteAgentRecord) : Frame s (s.writeAgent d agent) := by
  unfold writeAgent
  split
  · next store hstore => exact ⟨rfl, (tables_updateAgent d hstore).1, List.prefix_rfl⟩
  · exact .refl s

theorem frame_close (c : ConnectionId) : Frame s (s.close d m c) :=
  frame_of_routine d m (routine_close d m s c)

theorem frame_reject (c : ConnectionId) (code : RemoteErrorCode) (message : String) :
    Frame s (s.reject d m c code message) :=
  frame_of_routine d m (routine_reject d m s c code message)

theorem frame_of_dispatches {s s' : RemoteControlPlane} (h : Dispatches d m s s') : Frame s s' := by
  obtain ⟨action, store, hstore, hroutine⟩ := h
  obtain ⟨-, -, rfl⟩ := RemoteStore.insertAction_eq_ok hstore
  refine Frame.trans ?_ (frame_of_routine d m hroutine)
  exact ⟨rfl, rfl, List.prefix_rfl⟩

theorem frame_handleActionResult (c : ConnectionId) (result : ActionResultEnvelope) :
    Frame s (s.handleActionResult d m c result).2 := by
  rcases handleActionResult_inversion d m s c result with heq | ⟨action, s₁, -, hs₁, hcases⟩
  · rw [heq]
    exact .refl s
  · have hframe : Frame s s₁ := by
      rcases hs₁ with rfl | ⟨live, window, -, rfl⟩
      · exact .refl _
      · exact ⟨rfl, rfl, List.prefix_rfl⟩
    rcases hcases with ⟨eventType, code, heq⟩ | heq
    · rw [heq]
      exact hframe.trans ⟨rfl, rfl, List.prefix_rfl⟩
    · rw [heq]
      exact hframe.trans ⟨rfl, rfl, List.prefix_rfl⟩

theorem frame_resume (actionId : String) : Frame s (s.resume d m actionId) := by
  cases resume_inversion d m s actionId with
  | kept _ h =>
    rw [h]
    exact .refl s
  | dropped _ _ _ _ h =>
    rw [h]
    exact ⟨rfl, rfl, List.prefix_rfl⟩
  | finished _ _ _ _ _ _ _ h =>
    rw [h]
    exact ⟨rfl, rfl, List.prefix_rfl⟩

/-- Registering a connection sends nothing. -/
theorem sent_registerHello (c : ConnectionId) (hello : AgentHelloEnvelope)
    (agent : RemoteAgentRecord) : s.sent <+: (s.registerHello d m c hello agent).sent := by
  unfold registerHello
  simp only
  split
  · next existing _ =>
    have hclose : ∀ s' : RemoteControlPlane, s'.sent = s.sent →
        s.sent <+: (s'.close d m existing.connection).sent := by
      intro s' h
      rw [← h]
      exact (frame_close d m s' _).sent
    exact hclose _ rfl
  · exact List.prefix_rfl

theorem sent_handleAgentHello (c : ConnectionId) (hello : AgentHelloEnvelope) :
    s.sent <+: (s.handleAgentHello d m c hello).2.sent := by
  cases handleAgentHello_inversion d m s c hello with
  | kept _ h => rw [h]
  | refused s₁ s₂ code message _ hs₁ hs₂ h =>
    rw [h]
    -- the audit row before a refusal is not sent
    have hsent : s₂.sent = s.sent := by
      rcases hs₁ with rfl | rfl <;> rcases hs₂ with rfl | ⟨_, _, _, rfl⟩ <;> rfl
    rw [← hsent]
    exact (frame_reject d m s₂ c code message).sent
  | accepted agent _ _ h =>
    rw [h]
    have hregistered := sent_registerHello d m s c hello agent
    have hwritten := hregistered.trans (frame_writeAgent d _ (onlineRecord d m hello agent)).sent
    have hsent : ∀ s' : RemoteControlPlane, s.sent <+: s'.sent →
        s.sent <+: (s'.sendJson c (.agentReady agent.id agent.policy)).sent :=
      fun s' h => h.trans (frame_sendJson s' c _).sent
    exact hsent _ hwritten

theorem sent_shutdown : s.sent <+: (s.shutdown d m).sent :=
  shutdown_keeps d m s (P := fun s' => s.sent <+: s'.sent) List.prefix_rfl (fun _ _ _ h => h)
    (fun s' c h => h.trans (frame_close d m s' c).sent) fun _ h => h

end Operations

/-- **What a step leaves alone.** A step is in the frame, unless it handles a message, cleans up or
shuts down. -/
theorem step_frame (s : RemoteControlPlane) (e : Step) :
    Frame s (s.step d e) ∨ (∃ c payload, e.event = .message c payload) ∨ e.event = .cleanup ∨
      e.event = .shutdown := by
  rcases step_routine d s e with h | ⟨-, h⟩ | h | ⟨id, h⟩ | ⟨id, h⟩ | h | h
  · exact .inl (frame_of_routine d e.moment h)
  · exact .inl (frame_of_dispatches d e.moment h)
  · exact .inr (.inl h)
  · left
    unfold step
    rw [h]
    show Frame s (s.timeOut id)
    unfold timeOut
    split <;> exact ⟨rfl, rfl, List.prefix_rfl⟩
  · left
    unfold step
    rw [h]
    exact frame_resume d e.moment s id
  · exact .inr (.inr (.inl h))
  · exact .inr (.inr (.inr h))

/-- A text frame that is handled only adds to what was sent. -/
theorem sent_receive (s : RemoteControlPlane) (m : Moment) (c : ConnectionId)
    (payload : Option Value) : s.sent <+: (s.receive d m c payload).sent := by
  cases receive_inversion d m s c payload with
  | failed _ h =>
    rw [h]
  | rejected code message _ h =>
    rw [h]
    exact (frame_reject d m s c code message).sent
  | hello hello _ _ h =>
    rw [h]
    exact sent_handleAgentHello d m s c hello
  | result result _ _ h =>
    rw [h]
    exact (frame_handleActionResult d m s c result).sent

/-- **What was sent stays sent.** -/
theorem sent_step (s : RemoteControlPlane) (e : Step) : s.sent <+: (s.step d e).sent := by
  rcases step_frame d s e with h | ⟨c, payload, h⟩ | h | h
  · exact h.sent
  · obtain ⟨event, m⟩ := e
    obtain rfl : event = .message c payload := h
    exact sent_receive d s m c payload
  · obtain ⟨event, m⟩ := e
    obtain rfl : event = .cleanup := h
    exact List.prefix_rfl
  · obtain ⟨event, m⟩ := e
    obtain rfl : event = .shutdown := h
    exact sent_shutdown d m s

theorem commands_of_sent {s s' : RemoteControlPlane} (hsent : s.sent <+: s'.sent)
    {added : List (ConnectionId × ServerMessage)} (h : s'.commands = s.commands ++ added) :
    (s'.sent.drop s.sent.length).filter (fun e => isCommand e.2) = added := by
  obtain ⟨rest, hrest⟩ := hsent
  have hcommands : s'.commands = s.commands ++
      rest.filter fun e => isCommand e.2 := by
    unfold commands
    rw [← hrest, List.filter_append]
  rw [← hrest, List.drop_left]
  exact List.append_cancel_left (hcommands.symm.trans h)

end RemoteControlPlane
end Remote
