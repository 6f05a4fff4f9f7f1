import McpSshTool.Remote.PolicyAgreement
import McpSshTool.Remote.PolicyPush

/-!
# Policy convergence

Whether an agent ends up with the policy that the control plane has stored for it. Updates reach the
agent only as pushed messages: the agent does not look at the policy of its `agent.ready`. So an
update that is stored while the agent is away, or that is lost with its connection, or that the
agent's schema refuses, never arrives.

* `Converged` — a registered agent to which nothing is in flight has the stored policy, and the next
  action it gets carries the version it has;
* `Delivers` — the condition on a step: an update of the agent's policy goes out on the open
  connection the agent is registered on, with a well-formed patch, and no update is lost with a
  connection;
* `Converging` — the invariant: once what is in flight has arrived, the agent has the stored policy.
-/

open Library

namespace Remote
namespace System

variable (d : Deployment)

/-! ### Convergence -/

/-- A hello of the agent was accepted on the connection that it has. -/
def Registered (S : System) : Prop :=
  ∃ c, S.connection = some c ∧
    (S.plane.agentConnections.get? S.agentId).map (·.connection) = some c

/-- The policy of a configuration is the stored one, and so is its version. -/
def InSync (v : RemoteControlPlane.AgentView) (config : AgentConfig) : Prop :=
  agentPolicySchema v.policy = some config.policy ∧ config.policy.version = v.policyVersion

/-- **Convergence**: a registered agent to which nothing is in flight has the stored policy, and the
next action that arrives carries the version the agent has. -/
structure Converged (S : System) : Prop where
  installed : S.Registered → S.channel = [] →
    ∃ v, S.plane.view S.agentId = some v ∧ InSync v S.agent.config
  current : ∀ x rest a, S.channel = x :: rest → x.message = .actionRequest a →
    a.agent_id = S.agentId → a.policy_version = S.agent.config.policy.version

/-- What the agent relies on of an update that the control plane computes: the patch is JSON, the
text of the time is a time, and the random token has sixteen characters. -/
structure SoundRequest (S : System) (e : Step) (value : Value) : Prop where
  isJson : value.IsJson
  date : d.platform.isDatetime (RemoteControlPlane.nowIso d e.moment) = true
  token : 16 ≤ JsText.length e.moment.token

/-- The updates that a step asks for are sound requests. -/
def Sound (S : System) : SystemEvent → Prop
  | .plane e => ∀ principal agent value,
      S.plane.updateRequest e = some (principal, agent, value) → agent.id = S.agentId →
        SoundRequest d S e value
  | _ => True

/-- **The condition**: an update of the agent's policy that is stored goes out on the open
connection that the agent is registered on, and its patch is well formed; a connection begins or
ends only when no update of the agent's policy is in flight. -/
def Delivers (S : System) : SystemEvent → Prop
  | .plane e => ∀ principal agent value policy,
      S.plane.updateRequest e = some (principal, agent, value) → agent.id = S.agentId →
        RemoteControlPlane.updatedPolicy d agent value = some policy →
        RemoteControlPlane.Stores d e.moment S.plane principal agent policy →
          (S.Registered ∧ ∀ c, S.connection = some c → S.plane.isClosed c = false) ∧
            WellFormedPatch d agent (patchOf value)
  | .deliver _ _ => True
  | .connect _ | .disconnect =>
    ∀ x ∈ S.channel, ∀ e, x.message = .policyUpdate e → e.agent_id ≠ S.agentId

/-! ### The configuration after a message -/

/-- The configuration of the agent after a message. -/
def after (config : AgentConfig) (message : ServerMessage) : AgentConfig :=
  match AgentProcess.updateOf d.platform (some message.toValue.transport) with
  | some update =>
    if AgentProcess.GenuineUpdate d.platform config update then
      { config with policy := update.policy }
    else config
  | none => config

/-- An action that names the agent carries the version of the configuration. -/
def CarriesVersion (config : AgentConfig) (message : ServerMessage) : Prop :=
  ∀ a, message = .actionRequest a → a.agent_id = config.agentId →
    a.policy_version = config.policy.version

section After

variable {d}

/-- A message at the agent does to its configuration what `after` says. -/
theorem config_onmessage (p : AgentProcess) (x : InFlight) (now later : ℤ) :
    (p.onmessage d.platform (arrival x now later)).config = after d p.config x.message := by
  have hpayload : (arrival x now later).payload = some x.message.toValue.transport := rfl
  unfold after
  rcases AgentProcess.onmessage_cases d.platform p (arrival x now later) with
    ⟨update, hinstalls, hstep⟩ | ⟨action, hexecutes, hstep⟩ | ⟨hno, -, hstep⟩
  · rw [hstep, ← hpayload, hinstalls.1]
    exact (if_pos hinstalls.2).symm
  · rw [hstep, ← hpayload]
    cases hu : AgentProcess.updateOf d.platform (arrival x now later).payload with
    | none => rfl
    | some =>
      have hnone := AgentProcess.requestOf_of_updateOf hu
      rw [hexecutes.request] at hnone
      exact absurd hnone (by simp)
  · rw [hstep, ← hpayload]
    cases hu : AgentProcess.updateOf d.platform (arrival x now later).payload with
    | none => rfl
    | some update => exact (if_neg fun hgenuine => hno update ⟨hu, hgenuine⟩).symm

theorem after_eq_self {config : AgentConfig} {message : ServerMessage}
    (h : ∀ e, message = .policyUpdate e → e.agent_id ≠ config.agentId) :
    after d config message = config := by
  unfold after
  cases hu : AgentProcess.updateOf d.platform (some message.toValue.transport) with
  | none => rfl
  | some =>
    obtain ⟨e, he, hagent, -⟩ := updateOf_transport hu
    refine if_neg fun hgenuine => h e he ?_
    rw [← hagent]
    exact hgenuine.1

theorem after_eq_self_of_not_command (config : AgentConfig) (message : ServerMessage)
    (h : RemoteControlPlane.isCommand message = false) : after d config message = config := by
  refine after_eq_self fun e he => ?_
  rw [he] at h
  exact absurd h (by simp [RemoteControlPlane.isCommand])

theorem carriesVersion_of_not_command (config : AgentConfig) (message : ServerMessage)
    (h : RemoteControlPlane.isCommand message = false) : CarriesVersion config message := by
  intro a ha
  rw [ha] at h
  exact absurd h (by simp [RemoteControlPlane.isCommand])

theorem after_identity (config : AgentConfig) (message : ServerMessage) :
    after d config message = { config with policy := (after d config message).policy } := by
  unfold after
  split
  · split <;> rfl
  · rfl

theorem run_after_identity (config : AgentConfig) (messages : List ServerMessage) :
    Run.run (after d) config messages =
      { config with policy := (Run.run (after d) config messages).policy } := by
  induction messages generalizing config with
  | nil => rfl
  | cons message messages ih =>
    rw [Run.run_cons, ih, after_identity]

theorem run_after_eq_self {config : AgentConfig} {messages : List ServerMessage}
    (h : ∀ message ∈ messages, ∀ e, message = .policyUpdate e → e.agent_id ≠ config.agentId) :
    Run.run (after d) config messages = config := by
  induction messages with
  | nil => rfl
  | cons message messages ih =>
    rw [Run.run_cons, after_eq_self (h message List.mem_cons_self)]
    exact ih fun m hm => h m (List.mem_cons_of_mem message hm)

end After

/-! ### The invariant -/

/-- The messages in flight. -/
def messages (S : System) : List ServerMessage := S.channel.map (·.message)

/-- **The invariant.** When everything in flight has arrived the agent has the stored policy, and on
the way every action that names it carries the version the agent has by then. -/
structure Converging (S : System) : Prop where
  key : S.agent.config.controlPlanePublicKeyPem = d.controlPlaneKeyPair.publicKeyPem
  stored : ∃ v, S.plane.view S.agentId = some v ∧
    InSync v (Run.run (after d) S.agent.config S.messages)
  current : Run.AllSteps (after d) CarriesVersion S.agent.config S.messages

variable {d}

theorem converging_of_enrolled {S : System} (h : S.Enrolled)
    (hkey : S.agent.config.controlPlanePublicKeyPem = d.controlPlaneKeyPair.publicKeyPem) :
    S.Converging d := by
  obtain ⟨v, hview, hpolicy, hversion⟩ := h.stored
  have hmessages : S.messages = [] := by
    rw [messages, h.channel, List.map_nil]
  refine ⟨hkey, ⟨v, hview, ?_⟩, ?_⟩
  · rw [hmessages]
    exact ⟨hpolicy, hversion⟩
  · rw [hmessages]
    trivial

theorem Converging.converged {S : System} (h : S.Converging d) : S.Converged where
  installed _ hchannel := by
    obtain ⟨v, hview, hsync⟩ := h.stored
    refine ⟨v, hview, ?_⟩
    rwa [messages, hchannel] at hsync
  current x rest a hchannel ha hid := by
    have hcurrent := h.current
    rw [messages, hchannel] at hcurrent
    exact hcurrent.1 a ha hid

/-! ### A step of the control plane -/

section Plane

variable {S : System} {e : Step}

theorem commands_written {added : List (ConnectionId × ServerMessage)}
    (h : (S.plane.step d e).commands = S.plane.commands ++ added) :
    ((S.written (S.plane.step d e)).map (·.message)).filter RemoteControlPlane.isCommand =
      (added.filter fun m => S.connection = some m.1).map Prod.snd := by
  rw [← RemoteControlPlane.commands_of_sent (RemoteControlPlane.sent_step d S.plane e) h, written,
    List.map_map, List.filter_filter, List.filter_map, List.filter_filter]
  congr 1
  refine List.filter_congr fun m _ => ?_
  exact Bool.and_comm _ _

/-- A step of the control plane, in terms of the commands it adds. -/
theorem converging_plane (hS : S.Converging d) {added : List (ConnectionId × ServerMessage)}
    (hcommands : (S.plane.step d e).commands = S.plane.commands ++ added)
    (hstored : ∃ v, (S.plane.step d e).view S.agentId = some v ∧
      InSync v (Run.run (after d) (Run.run (after d) S.agent.config S.messages)
        ((added.filter fun m => S.connection = some m.1).map Prod.snd)))
    (hcurrent : Run.AllSteps (after d) CarriesVersion
      (Run.run (after d) S.agent.config S.messages)
        ((added.filter fun m => S.connection = some m.1).map Prod.snd)) :
    (S.step d (.plane e)).Converging d := by
  have hmessages : (S.step d (.plane e)).messages =
      S.messages ++ (S.written (S.plane.step d e)).map (·.message) := List.map_append
  refine ⟨hS.key, ?_, ?_⟩
  · rw [hmessages]
    show ∃ v, (S.plane.step d e).view S.agentId = some v ∧
      InSync v (Run.run (after d) S.agent.config _)
    rw [Run.run_append, ← Run.run_filter after_eq_self_of_not_command _
      ((S.written (S.plane.step d e)).map (·.message)), commands_written hcommands]
    exact hstored
  · rw [hmessages]
    refine Run.allSteps_append.mpr ⟨hS.current, ?_⟩
    refine (Run.allSteps_filter after_eq_self_of_not_command carriesVersion_of_not_command).mp ?_
    rw [commands_written hcommands]
    exact hcurrent

theorem converging_of_keeps (hS : S.Converging d) {v : RemoteControlPlane.AgentView}
    (hv : S.plane.view S.agentId = some v) (h : KeepsPolicy d S e v) :
    (S.step d (.plane e)).Converging d := by
  obtain ⟨v', hv', hpolicy, hversion⟩ := h.view
  obtain ⟨added, hcommands, hupdates, hrequests⟩ := h.commands
  obtain ⟨v₀, hv₀, hsync⟩ := hS.stored
  obtain rfl : v₀ = v := Option.some.inj (hv₀.symm.trans hv)
  set config := Run.run (after d) S.agent.config S.messages with hconfig
  have hid : config.agentId = S.agentId := by
    rw [hconfig, run_after_identity]
    rfl
  have hmem : ∀ message ∈ (added.filter fun m => S.connection = some m.1).map Prod.snd,
      ∃ m ∈ added, m.2 = message := by
    intro message hmessage
    obtain ⟨m, hm, rfl⟩ := List.mem_map.mp hmessage
    exact ⟨m, (List.mem_filter.mp hm).1, rfl⟩
  have hforeign : ∀ message ∈ (added.filter fun m => S.connection = some m.1).map Prod.snd,
      ∀ u, message = .policyUpdate u → u.agent_id ≠ config.agentId := by
    intro message hmessage u hu
    obtain ⟨m, hm, rfl⟩ := hmem message hmessage
    rw [hid]
    exact hupdates m hm u hu
  refine converging_plane hS hcommands ⟨v', hv', ?_⟩ ?_
  · rw [run_after_eq_self hforeign]
    exact ⟨hpolicy.symm ▸ hsync.1, hsync.2.trans hversion.symm⟩
  · -- no message changes the version on the way
    have hall : ∀ messages : List ServerMessage,
        (∀ message ∈ messages, ∃ m ∈ added, m.2 = message) →
        Run.AllSteps (after d) CarriesVersion config messages := by
      intro messages
      induction messages with
      | nil => exact fun _ => trivial
      | cons message messages ih =>
        intro hin
        obtain ⟨m, hm, rfl⟩ := hin message List.mem_cons_self
        have hself : after d config m.2 = config :=
          after_eq_self fun u hu => by
            rw [hid]
            exact hupdates m hm u hu
        refine ⟨fun a ha hagent => ?_, ?_⟩
        · rw [hrequests m hm a ha (hagent.trans hid), hsync.2]
        · rw [hself]
          exact ih fun message' h => hin message' (List.mem_cons_of_mem _ h)
    exact hall _ hmem

/-- An update of the agent's policy that goes out to the agent. -/
theorem converging_of_stores (hS : S.Converging d) (hid : S.agentId ≠ "")
    (hkeys : KeyPair d.platform d.controlPlaneKeyPair.publicKeyPem
      d.controlPlaneKeyPair.privateKeyPem) {v : RemoteControlPlane.AgentView}
    {principal : RemotePrincipal} {agent : RemoteAgentRecord} {value : Value} {policy : Fields}
    (h : StoresPolicy d S e v principal agent value policy)
    (hsound : S.Sound d (.plane e)) (hdelivers : S.Delivers d (.plane e)) :
    (S.step d (.plane e)).Converging d := by
  set envelope := RemoteControlPlane.policyUpdateEnvelope d e.moment
    (RemoteControlPlane.policyRecord d e.moment agent policy) with henvelope
  obtain ⟨⟨⟨c, hc, hlive⟩, hopen⟩, hpatch⟩ :=
    hdelivers principal agent value policy h.request h.own h.updated h.stores
  obtain ⟨hjson, hdate, htoken⟩ := hsound principal agent value h.request h.own
  -- the update is written on the agent's connection, and nothing else is
  have hadded : (RemoteControlPlane.policyCommands d e.moment S.plane
      (RemoteControlPlane.policyRecord d e.moment agent policy)) =
        [(c, .policyUpdate envelope)] := by
    obtain ⟨live, hget, hconnection⟩ := Option.map_eq_some_iff.mp hlive
    unfold RemoteControlPlane.policyCommands RemoteControlPlane.sentCommand
    rw [show (RemoteControlPlane.policyRecord d e.moment agent policy).id = S.agentId from h.own,
      hget]
    simp only [hconnection, hopen c hc]
    rfl
  have hwritten : ([(c, ServerMessage.policyUpdate envelope)].filter fun m =>
      S.connection = some m.1).map Prod.snd = [.policyUpdate envelope] := by
    rw [List.filter_cons_of_pos (by rw [hc]; exact decide_eq_true rfl), List.filter_nil,
      List.map_singleton]
  obtain ⟨update, hread, hagent, hschema, hverify⟩ :=
    RemoteControlPlane.updateOf_pushed hjson (fun hempty => hid (h.own.symm.trans hempty)) hkeys
      hdate htoken h.updated hpatch
  have hversion := version_of_agentPolicySchema hschema (member_version_updatedPolicy d h.updated)
  set config := Run.run (after d) S.agent.config S.messages with hconfig
  -- what is in flight before it leaves the agent its id and its key
  have hidentity : config.agentId = S.agentId ∧
      config.controlPlanePublicKeyPem = d.controlPlaneKeyPair.publicKeyPem := by
    rw [hconfig, run_after_identity]
    exact ⟨rfl, hS.key⟩
  have hafter : after d config (.policyUpdate envelope) =
    { config with policy := update.policy } := by
    unfold after
    rw [hread]
    refine if_pos ⟨?_, ?_⟩
    · rw [hagent, h.own, hidentity.1]
    · rw [hidentity.2]
      exact hverify
  refine converging_plane hS h.commands ⟨_, h.view, ?_⟩ ?_
  · rw [hadded, hwritten, Run.run_cons, Run.run_nil, hafter]
    exact ⟨hschema, hversion⟩
  · rw [hadded, hwritten]
    refine ⟨fun a hreq => ?_, trivial⟩
    cases hreq

/-- **One step of the control plane.** -/
theorem converging_step_plane (hS : S.Converging d) (hid : S.agentId ≠ "")
    (hkeys : KeyPair d.platform d.controlPlaneKeyPair.publicKeyPem
      d.controlPlaneKeyPair.privateKeyPem)
    (hsound : S.Sound d (.plane e)) (hdelivers : S.Delivers d (.plane e)) :
    (S.step d (.plane e)).Converging d := by
  obtain ⟨v, hv, -⟩ := id hS.stored
  rcases plane_cases hv with hkeeps | ⟨principal, agent, value, policy, hstores⟩
  · exact converging_of_keeps hS hv hkeeps
  · exact converging_of_stores hS hid hkeys hstores hsound hdelivers

end Plane

/-! ### Every run -/

/-- A message that arrives takes the agent on its way. -/
theorem converging_deliver {S : System} (hS : S.Converging d) (now later : ℤ) :
    (S.deliver d now later).Converging d := by
  unfold deliver
  split
  · exact hS
  · next x rest hchannel =>
    have hmessages : S.messages = x.message :: rest.map (·.message) := by
      rw [messages, hchannel, List.map_cons]
    have hconfig := config_onmessage (d := d) S.agent x now later
    have hidentity := after_identity (d := d) S.agent.config x.message
    obtain ⟨v, hv, hsync⟩ := hS.stored
    have hcurrent := hS.current
    rw [hmessages] at hsync hcurrent
    refine ⟨?_, ⟨v, ?_, ?_⟩, ?_⟩
    · show (S.agent.onmessage d.platform (arrival x now later)).config.controlPlanePublicKeyPem = _
      rw [hconfig, hidentity]
      exact hS.key
    · show S.plane.view (S.agent.onmessage d.platform (arrival x now later)).config.agentId = _
      rw [hconfig, hidentity]
      exact hv
    · show InSync v (Run.run (after d)
        (S.agent.onmessage d.platform (arrival x now later)).config (rest.map (·.message)))
      rw [hconfig]
      exact hsync
    · show Run.AllSteps (after d) CarriesVersion
        (S.agent.onmessage d.platform (arrival x now later)).config (rest.map (·.message))
      rw [hconfig]
      exact hcurrent.2

/-- A connection that begins or ends while no update is in flight. -/
theorem converging_empty {S S' : System} (hS : S.Converging d)
    (hlost : ∀ x ∈ S.channel, ∀ e, x.message = .policyUpdate e → e.agent_id ≠ S.agentId)
    (hconfig : S'.agent.config = S.agent.config) (hview : S'.plane.view = S.plane.view)
    (hchannel : S'.channel = []) : S'.Converging d := by
  have hmessages : S'.messages = [] := by
    rw [messages, hchannel, List.map_nil]
  have hself : Run.run (after d) S.agent.config S.messages = S.agent.config := by
    refine run_after_eq_self fun message hmessage => ?_
    obtain ⟨x, hx, rfl⟩ := List.mem_map.mp hmessage
    exact hlost x hx
  obtain ⟨v, hv, hsync⟩ := hS.stored
  rw [hself] at hsync
  refine ⟨?_, ⟨v, ?_, ?_⟩, ?_⟩
  · rw [hconfig]
    exact hS.key
  · rw [agentId, hconfig, hview]
    exact hv
  · rw [hmessages, hconfig]
    exact hsync
  · rw [hmessages]
    trivial

/-- **One step of the system.** -/
theorem converging_step {S : System} (hS : S.Converging d) (hid : S.agentId ≠ "")
    (hkeys : KeyPair d.platform d.controlPlaneKeyPair.publicKeyPem
      d.controlPlaneKeyPair.privateKeyPem) {e : SystemEvent}
    (hsound : S.Sound d e) (hdelivers : S.Delivers d e) : (S.step d e).Converging d := by
  cases e with
  | plane => exact converging_step_plane hS hid hkeys hsound hdelivers
  | deliver now later => exact converging_deliver hS now later
  | connect c =>
    refine converging_empty hS hdelivers rfl ?_ rfl
    exact funext fun a => RemoteControlPlane.view_eq_of_ledger
      (RemoteControlPlane.ledger_connect S.plane c) a
  | disconnect => exact converging_empty hS hdelivers rfl rfl rfl

variable (d)

/-- **Policy convergence.** In every run of a control plane and an agent that start with the same
policy, in which every update of the agent's policy goes out to the agent, is well formed and is not
lost with a connection, the agent converges. -/
theorem policy_convergence (S : System) (es : List SystemEvent) (hS : S.Enrolled)
    (hid : S.agentId ≠ "")
    (hkey : S.agent.config.controlPlanePublicKeyPem = d.controlPlaneKeyPair.publicKeyPem)
    (hkeys : KeyPair d.platform d.controlPlaneKeyPair.publicKeyPem
      d.controlPlaneKeyPair.privateKeyPem)
    (hsound : Run.AllSteps (step d) (Sound d) S es)
    (hdelivers : Run.AllSteps (step d) (Delivers d) S es) :
    Run.Along (step d) Converged S es := by
  have hconverging : Run.Along (step d) (fun S => S.Converging d ∧ S.agentId ≠ "") S es := by
    refine Run.along_of_preserved (fun S e hS he => ?_) ⟨converging_of_enrolled hS hkey, hid⟩
      (hsound.and hdelivers)
    refine ⟨converging_step hS.1 hS.2 hkeys he.1 he.2, ?_⟩
    rw [agentId_step]
    exact hS.2
  exact hconverging.mono fun S hS => hS.1.converged

/-! ### An update that reaches the agent, and updates that do not -/

/-- The agent connects and says hello; its policy is updated, and it gets an action. -/
def updatedOnline : List SystemEvent :=
  [.connect 0, helloArrives 0 1, ownerUpdates 2, .deliver 3 3, .deliver 4 4, ownerAsks 5,
    .deliver 6 6]

/-- The policy is updated twice while the agent is away; the agent connects and says hello, and gets
what the control plane sends it. -/
def updatedOffline : List SystemEvent :=
  [ownerUpdates 1, ownerUpdates 2, .connect 0, helloArrives 0 3, .deliver 4 4]

/-- The patch of `ownerUpdates` is well formed. -/
theorem wellFormedPatch_operations {agent : RemoteAgentRecord}
    (hversion : agent.policyVersion = 1) :
    WellFormedPatch sampleDeployment agent [("profile", .str "operations")] where
  keys := by
    intro e he
    rw [List.mem_singleton.mp he]
    decide
  profile := .inr ⟨.operations, rfl⟩
  capabilities := fun e he => absurd he List.not_mem_nil
  lists := by
    intro k hk
    simp only [List.mem_cons, List.not_mem_nil, or_false] at hk
    rcases hk with rfl | rfl | rfl | rfl <;> exact .inl (.inl rfl)
  outputLimit := ⟨.fin 200000, rfl, 200000, rfl, by decide, by decide⟩
  timeLimit := ⟨.fin 120, rfl, 120, rfl, by decide, by decide⟩
  version := by
    rw [hversion]
    decide

theorem registered_updatedOnline :
    (Run.run (step sampleDeployment) sampleSystem [.connect 0, helloArrives 0 1]).connection =
        some 0 ∧
      ((Run.run (step sampleDeployment) sampleSystem
        [.connect 0, helloArrives 0 1]).plane.agentConnections.get? "agt_1").map (·.connection) =
          some 0 ∧
      (Run.run (step sampleDeployment) sampleSystem
        [.connect 0, helloArrives 0 1]).plane.isClosed 0 = false ∧
      ((Run.run (step sampleDeployment) sampleSystem
        [.connect 0, helloArrives 0 1]).plane.view "agt_1").map (·.policyVersion) = some 1 := by
  decide +kernel

theorem delivers_of_updateRequest {S : System} {e : Step} (h : S.plane.updateRequest e = none) :
    S.Sound d (.plane e) ∧ S.Delivers d (.plane e) := by
  constructor
  · intro principal agent value hrequest
    exact absurd (h.symm.trans hrequest) (by simp)
  · intro principal agent value policy hrequest
    exact absurd (h.symm.trans hrequest) (by simp)

/-- The update of `updatedOnline` reaches the agent. -/
theorem delivers_ownerUpdates {S : System} (hid : S.agentId = "agt_1") (hc : S.connection = some 0)
    (hlive : (S.plane.agentConnections.get? "agt_1").map (·.connection) = some 0)
    (hopen : S.plane.isClosed 0 = false)
    (hversion : (S.plane.view "agt_1").map (·.policyVersion) = some 1) :
    S.Sound sampleDeployment (ownerUpdates 2) ∧ S.Delivers sampleDeployment (ownerUpdates 2) := by
  -- the one update asks for the profile operations
  have hvalue : ∀ principal agent value,
      S.plane.updateRequest
        { event := .callTool sampleOwner .update_agent_policy
            [("agent_id_or_alias", .str "agt_1"),
              ("policy", .obj [("profile", .str "operations")])]
          moment := sampleMoment 2 } = some (principal, agent, value) →
      value = .obj [("profile", .str "operations")] ∧ S.plane.store.getAgent agent.id =
        some agent := by
    intro principal agent value hrequest
    constructor
    · unfold RemoteControlPlane.updateRequest at hrequest
      simp only at hrequest
      split at hrequest
      · obtain ⟨found, -, heq⟩ := Option.map_eq_some_iff.mp hrequest
        exact ((Prod.mk.inj (Prod.mk.inj heq).2).2).symm
      · exact absurd hrequest (by simp)
    · cases RemoteControlPlane.recordSource_of_updateRequest hrequest with
      | current h => exact h
      | waiting request body hevent => exact absurd hevent (by simp)
  constructor
  · intro principal agent value hrequest _
    rw [(hvalue principal agent value hrequest).1]
    refine ⟨Value.isJson_obj.mpr ⟨by decide, ?_⟩, by decide, by decide⟩
    intro e he
    rw [List.mem_singleton.mp he]
    exact isJson_str _
  · intro principal agent value policy hrequest hagent _ _
    obtain ⟨rfl, hstored⟩ := hvalue principal agent value hrequest
    have hview := RemoteControlPlane.view_of_getAgent hstored
    rw [hagent, hid] at hview
    rw [hview] at hversion
    refine ⟨⟨⟨0, hc, by rw [hid]; exact hlive⟩, ?_⟩, ?_⟩
    · intro c hc'
      obtain rfl := Option.some.inj (hc.symm.trans hc')
      exact hopen
    · exact wellFormedPatch_operations (Option.some.inj hversion)

/-- Convergence in the run with the update that reaches the agent. -/
theorem policy_convergence_updatedOnline :
    Run.Along (step sampleDeployment) Converged sampleSystem updatedOnline := by
  have hpast := registered_updatedOnline
  have hupdate : ∀ S : System, S = Run.run (step sampleDeployment) sampleSystem
      [.connect 0, helloArrives 0 1] →
      S.Sound sampleDeployment (ownerUpdates 2) ∧ S.Delivers sampleDeployment (ownerUpdates 2) := by
    intro S hS
    rw [← hS] at hpast
    refine delivers_ownerUpdates ?_ hpast.1 hpast.2.1 hpast.2.2.1 hpast.2.2.2
    rw [hS]
    rfl
  refine policy_convergence sampleDeployment sampleSystem updatedOnline ?_ (by decide) rfl
    (keyPair_samplePlatform "plane") ?_ ?_
  · exact enrolled_sampleSystem
  · exact ⟨trivial, (delivers_of_updateRequest _ rfl).1, (hupdate _ rfl).1, trivial, trivial,
      (delivers_of_updateRequest _ rfl).1, trivial, trivial⟩
  · exact ⟨fun x hx => absurd hx List.not_mem_nil, (delivers_of_updateRequest _ rfl).2,
      (hupdate _ rfl).2, trivial, trivial, (delivers_of_updateRequest _ rfl).2, trivial, trivial⟩

/-- **An agent that never gets its policy**: it is registered and nothing is in flight, and it has
version 1 where version 3 is stored. -/
theorem offline_updates_never_installed :
    let S := Run.run (step sampleDeployment) sampleSystem updatedOffline
    ((S.plane.agentConnections.get? S.agentId).map (·.connection) = S.connection ∧
      S.connection = some 0 ∧ S.channel.length = 0) ∧
      (S.plane.view S.agentId).map (·.policyVersion) = some 3 ∧
        S.agent.config.policy.version = 1 := by
  decide +kernel

end System
end Remote
