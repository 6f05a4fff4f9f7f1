import McpSshTool.Remote.ConnectionConsistency
import McpSshTool.Remote.Keys

/-!
# Enrollment, from both sides

`enroll` of `agent-cli.ts` posts a token and a public key, and keeps what the control plane replies
in the configuration file of the agent.

* `enroll` — the exchange: the request as it arrives, `handleAgentEnroll`, and the reply as it is
  read;
* `enrollment_agrees` — an agent that has its configuration file agrees with its row at the control
  plane: on its id, its alias, its key, its policy and the key of the control plane;
* `agentHelloEnvelopeSchema_hello` — a hello that an agent sends is read as it was sent;
* `enrolled_agent_connects` — so the hello of that agent is accepted, as long as its row keeps the
  key and is not revoked: the agent is registered on the connection it has opened, and online.
-/

open Library

namespace Remote

/-! ### The side of the agent -/

structure AgentConfigFile where
  server : String
  agentId : String
  aliasName : String
  publicKeyPem : String
  privateKeyPem : String
  controlPlanePublicKeyPem : String
  policy : AgentPolicy
  websocketUrl : String
  enrolledAt : String

/-- What a running agent reads of it. -/
def AgentConfigFile.toAgentConfig (config : AgentConfigFile) : AgentConfig where
  agentId := config.agentId
  privateKeyPem := config.privateKeyPem
  controlPlanePublicKeyPem := config.controlPlanePublicKeyPem
  policy := config.policy

/-- What the host of an agent provides: its name, its key pair, the version of its package and what
`defaultHostMetadata` says of it. -/
structure EnrollingHost where
  hostname : String
  keyPair : PemKeyPair
  agentVersion : String
  metadata : AgentHostMetadata

/-- What `enroll` throws. -/
inductive EnrollFailure where
  | usage
  /-- The control plane has answered with an error. -/
  | http (e : Thrown)
  | response (message : String)

def parseFlag (argv : List String) (name : String) : Option String :=
  (argv.idxOf? name).bind fun i => argv[i + 1]?

/-- `server.replace(/\/+$/u, "")`. -/
def withoutTrailingSlashes (server : String) : String :=
  String.ofList (server.toList.reverse.dropWhile fun ch => ch = '/').reverse

/-- The server, the token and the alias that `enroll` is called with. -/
def enrollArguments (host : EnrollingHost) (argv : List String) :
    Except EnrollFailure (String × String × String) :=
  let server := ((parseFlag argv "--server").map withoutTrailingSlashes).getD ""
  let token := (parseFlag argv "--token").getD ""
  let aliasName := (parseFlag argv "--alias").getD host.hostname
  if server = "" || token = "" then .error .usage else .ok (server, token, aliasName)

/-- The payload of the request. -/
def enrollRequest (host : EnrollingHost) (token aliasName : String) : Fields :=
  [("token", .str token), ("public_key", .str host.keyPair.publicKeyPem), ("alias", .str aliasName),
    ("agent_version", .str host.agentVersion), ("host", host.metadata.toValue)]

def requireString (value : Value) (name : String) : Except EnrollFailure String :=
  match value with
  | .str s => if s = "" then .error (.response (name ++ " is required")) else .ok s
  | _ => .error (.response (name ++ " is required"))

def requirePolicy (value : Value) : Except EnrollFailure AgentPolicy :=
  match agentPolicySchema value with
  | some policy => .ok policy
  | none => .error (.response "Agent policy is missing from enrollment response")

/-- The configuration that a reply is read as. -/
def readEnrollment (platform : Platform) (host : EnrollingHost) (server : String) (now : ℤ)
    (response : Value) : Except EnrollFailure AgentConfigFile := do
  if !response.isRecord then .error (.response "Expected JSON object response")
  let agentId ← requireString (response.member "agent_id") "agent_id"
  let aliasName ← requireString (response.member "alias") "alias"
  let controlPlanePublicKeyPem ←
    requireString (response.member "control_plane_public_key") "control_plane_public_key"
  let policy ← requirePolicy (response.member "policy")
  let websocketUrl ← requireString (response.member "websocket_url") "websocket_url"
  return {
    server := server
    agentId := agentId
    aliasName := aliasName
    publicKeyPem := host.keyPair.publicKeyPem
    privateKeyPem := host.keyPair.privateKeyPem
    controlPlanePublicKeyPem := controlPlanePublicKeyPem
    policy := policy
    websocketUrl := websocketUrl
    enrolledAt := platform.toISOString now }

theorem requireString_eq_ok {value : Value} {name s : String}
    (h : requireString value name = .ok s) :
    value = .str s ∧ s ≠ "" := by
  unfold requireString at h
  split at h
  · split at h
    · cases h
    · next hfilled =>
      obtain rfl := Except.ok.inj h
      exact ⟨rfl, hfilled⟩
  · cases h

theorem requirePolicy_eq_ok {value : Value} {policy : AgentPolicy}
    (h : requirePolicy value = .ok policy) : agentPolicySchema value = some policy := by
  unfold requirePolicy at h
  split at h
  · next hread => rw [hread, Except.ok.inj h]
  · cases h

/-- **What a reply has to hold** to be read. -/
theorem readEnrollment_eq_ok {platform : Platform} {host : EnrollingHost}
    {server : String} {now : ℤ}
    {response : Value} {config : AgentConfigFile}
    (h : readEnrollment platform host server now response = .ok config) :
    response.member "agent_id" = .str config.agentId ∧ config.agentId ≠ "" ∧
      response.member "alias" = .str config.aliasName ∧
      response.member "control_plane_public_key" = .str config.controlPlanePublicKeyPem ∧
      agentPolicySchema (response.member "policy") = some config.policy ∧
      response.member "websocket_url" = .str config.websocketUrl ∧
      config.publicKeyPem = host.keyPair.publicKeyPem ∧
      config.privateKeyPem = host.keyPair.privateKeyPem := by
  unfold readEnrollment at h
  split at h
  · cases h
  cases hagent : requireString (response.member "agent_id") "agent_id" with
  | error =>
    rw [hagent] at h
    cases h
  | ok agentId =>
  cases halias : requireString (response.member "alias") "alias" with
  | error =>
    rw [hagent, halias] at h
    cases h
  | ok aliasName =>
  cases hkey : requireString (response.member "control_plane_public_key")
      "control_plane_public_key" with
  | error e =>
    rw [hagent, halias, hkey] at h
    cases h
  | ok controlPlanePublicKeyPem =>
  cases hpolicy : requirePolicy (response.member "policy") with
  | error =>
    rw [hagent, halias, hkey, hpolicy] at h
    cases h
  | ok policy =>
  cases hurl : requireString (response.member "websocket_url") "websocket_url" with
  | error =>
    rw [hagent, halias, hkey, hpolicy, hurl] at h
    cases h
  | ok =>
    rw [hagent, halias, hkey, hpolicy, hurl] at h
    obtain rfl := Except.ok.inj h
    obtain ⟨hagent, hfilled⟩ := requireString_eq_ok hagent
    exact ⟨hagent, hfilled, (requireString_eq_ok halias).1, (requireString_eq_ok hkey).1,
      requirePolicy_eq_ok hpolicy, (requireString_eq_ok hurl).1, rfl, rfl⟩

namespace RemoteControlPlane

variable (d : Deployment)

/-- **The exchange**: the agent posts its request, the control plane handles it, and the agent reads
the reply at the time `now` of its own clock. -/
def enroll (m : Moment) (host : EnrollingHost) (argv : List String) (now : ℤ)
    (s : RemoteControlPlane) : Except EnrollFailure AgentConfigFile × RemoteControlPlane :=
  match enrollArguments host argv with
  | .error e => (.error e, s)
  | .ok (server, token, aliasName) =>
    match s.handleAgentEnroll d m (Value.obj (enrollRequest host token aliasName)).transport with
    | (.error e, s) => (.error (.http e), s)
    | (.ok reply, s) => (readEnrollment d.platform host server now reply.transport, s)

theorem bodyText_enrollRequest (host : EnrollingHost) (token aliasName : String) :
    bodyText (Value.obj (enrollRequest host token aliasName)).transport "token" = token ∧
      bodyText (Value.obj (enrollRequest host token aliasName)).transport "public_key" =
        host.keyPair.publicKeyPem := by
  have hnodup : ((enrollRequest host token aliasName).map Prod.fst).Nodup := by
    show ["token", "public_key", "alias", "agent_version", "host"].Nodup
    decide
  unfold bodyText
  rw [Value.member_transport_of_nodup hnodup, Value.member_transport_of_nodup hnodup]
  exact ⟨rfl, rfl⟩

/-- **The row of an agent that has enrolled** is the record that was written. -/
theorem getAgent_enrolledRecord {m : Moment} {s : RemoteControlPlane} {publicKey : String}
    {host : AgentHostMetadata} {agent : RemoteAgentRecord} (hopen : s.store.isOpen = true)
    (hagent : s.store.getAgent agent.id = some agent) (hfilled : publicKey ≠ "") :
    (s.writeAgent d (enrolledRecord d m publicKey host agent)).store.getAgent agent.id =
      some (enrolledRecord d m publicKey host agent) := by
  have hrow := (RemoteStore.getAgent_rows hagent).2
  obtain ⟨store, hwritten⟩ := updateAgent_isOk (d := d)
    (enrolledRecord d m publicKey host agent) hopen
    (show s.storedAlias agent.id = some agent.aliasName by
      rw [storedAlias, hagent, Option.map_some])
    hrow.profile_text
  have hread : optionalText (some publicKey) = some publicKey := by
    simp [optionalText, Option.filter, hfilled]
  have hsame : RemoteStore.agentRow d.platform (enrolledRecord d m publicKey host agent) =
      some (enrolledRecord d m publicKey host agent) :=
    RemoteStore.agentRow_of_isRow d.platform
      ⟨hrow.profile_text, hrow.policy_read, hread, hrow.lastSeenAt_read⟩
  obtain ⟨-, row, hrow', hcases⟩ := RemoteStore.updateAgent_eq_ok hwritten
  obtain rfl := Option.some.inj (hsame.symm.trans hrow')
  unfold writeAgent
  rw [hwritten]
  rcases hcases with ⟨hnone, -⟩ | ⟨old, hold, hget, rfl⟩
  · exact absurd (hagent.symm.trans hnone) (by simp)
  · obtain rfl : agent = old := Option.some.inj (hagent.symm.trans hget)
    exact (RemoteStore.getAgent_setAgent _ hold _).trans (if_pos rfl)

theorem enrollmentTokens_writeAgent (agent : RemoteAgentRecord) (s : RemoteControlPlane) :
    (s.writeAgent d agent).store.enrollmentTokens = s.store.enrollmentTokens := by
  unfold writeAgent
  split
  · next store hstore =>
    obtain ⟨-, row, -, ⟨-, rfl⟩ | ⟨old, hold, -, rfl⟩⟩ := RemoteStore.updateAgent_eq_ok hstore
    · rfl
    · rfl
  · rfl

/-- **Both sides agree** once an agent has its configuration: the token was that of a row, unused
and in time, and is used now; the row has the id, the alias, the key and the policy of the
configuration, and is offline; the configuration has the key that the control plane signs with, and
the key pair of the host. -/
theorem enrollment_agrees (m : Moment) (host : EnrollingHost) (argv : List String) (now : ℤ)
    (s s' : RemoteControlPlane) (config : AgentConfigFile)
    (h : s.enroll d m host argv now = (.ok config, s')) :
    (∃ row, s'.store.getAgent config.agentId = some row ∧ row.aliasName = config.aliasName ∧
      row.publicKey = some config.publicKeyPem ∧ row.status = .offline ∧
      agentPolicySchema row.policy = some config.policy) ∧
    config.controlPlanePublicKeyPem = d.controlPlaneKeyPair.publicKeyPem ∧
    config.websocketUrl = websocketUrl d ∧
    config.publicKeyPem = host.keyPair.publicKeyPem ∧
    config.privateKeyPem = host.keyPair.privateKeyPem ∧
    ∃ server secret aliasName token, enrollArguments host argv = .ok (server, secret, aliasName) ∧
      s.store.getEnrollmentTokenByHash (hashSecret d.platform secret) = some token ∧
      token.agentId = config.agentId ∧ token.usedAt = none ∧
      m.now ≤ d.platform.getTime token.expiresAt ∧
      ∃ used, s'.store.getEnrollmentTokenByHash token.tokenHash = some used ∧
        used.usedAt = some (nowIso d m) := by
  unfold enroll at h
  cases harguments : enrollArguments host argv with
  | error =>
    rw [harguments] at h
    cases h
  | ok arguments =>
  obtain ⟨server, secret, aliasName⟩ := arguments
  rw [harguments] at h
  dsimp only at h
  obtain ⟨hsecret, hpublicKey⟩ := bodyText_enrollRequest host secret aliasName
  cases handleAgentEnroll_effect d m s
    (Value.obj (enrollRequest host secret aliasName)).transport with
  | refused e hrefused =>
    rw [hrefused] at h
    cases h
  | enrolled metadata token agent store hhost hkey hfilled htoken hunused htime hagent
      hstatus hstore
      houtcome =>
    rw [houtcome] at h
    obtain ⟨hread, rfl⟩ := Prod.mk.inj h
    rw [hpublicKey] at hfilled
    rw [hsecret] at htoken
    obtain ⟨hopen, marked, hmarked, -, rfl⟩ := RemoteStore.markEnrollmentTokenUsed_eq_ok hstore
    have hid := (RemoteStore.getAgent_rows hagent).1
    -- what the agent reads is what the control plane has written
    have hmember : ∀ k, (Value.obj [("agent_id", .str agent.id), ("alias", .str agent.aliasName),
          ("policy", agent.policy), ("websocket_url", .str (websocketUrl d)),
          ("control_plane_public_key", .str d.controlPlaneKeyPair.publicKeyPem)]).transport.member
            k =
        Value.transport ((Value.obj [("agent_id", .str agent.id), ("alias", .str agent.aliasName),
          ("policy", agent.policy), ("websocket_url", .str (websocketUrl d)),
          ("control_plane_public_key", .str d.controlPlaneKeyPair.publicKeyPem)]).member k) :=
      Value.member_transport_of_nodup
        (show ["agent_id", "alias", "policy", "websocket_url", "control_plane_public_key"].Nodup by
          decide)
    obtain ⟨hagentId, -, halias, hcontrolKey, hpolicy, hurl, hconfigKey, hprivate⟩ :=
      readEnrollment_eq_ok hread
    rw [hmember] at hagentId halias hcontrolKey hpolicy hurl
    have hsameId : agent.id = config.agentId := Value.str.inj hagentId
    have hsameAlias : agent.aliasName = config.aliasName := Value.str.inj halias
    have hsameKey : d.controlPlaneKeyPair.publicKeyPem = config.controlPlanePublicKeyPem :=
      Value.str.inj hcontrolKey
    have hsameUrl : websocketUrl d = config.websocketUrl := Value.str.inj hurl
    have hpolicyRead : agentPolicySchema agent.policy = some config.policy := by
      rw [← (RemoteStore.getAgent_rows hagent).2.policy_read]
      exact hpolicy
    refine ⟨⟨enrolledRecord d m host.keyPair.publicKeyPem metadata agent, ?_, hsameAlias, ?_, rfl,
      hpolicyRead⟩, hsameKey.symm, hsameUrl.symm, hconfigKey, hprivate, server, secret, aliasName,
        token, rfl, htoken,
      hid.symm.trans hsameId, hunused, htime, { marked with usedAt := some (nowIso d m) }, ?_, rfl⟩
    · rw [hpublicKey, ← hsameId]
      refine getAgent_enrolledRecord d hopen ?_ hfilled
      show s.store.getAgent agent.id = some agent
      rw [hid]
      exact hagent
    · rw [hconfigKey]
      rfl
    · show OrderedMap.get? (RemoteControlPlane.writeAgent d _ _).store.enrollmentTokens _ = _
      rw [enrollmentTokens_writeAgent]
      exact (OrderedMap.get?_set _ _ _ _).trans (if_pos rfl)

/-- A host with the key of the sample agent. -/
def webHost : EnrollingHost where
  hostname := "web"
  keyPair := { publicKeyPem := "agent", privateKeyPem := "agent" }
  agentVersion := "1"
  metadata := { hostname := "h", os := "linux", arch := "x64", platform := "linux" }

/-- That host enrolls with the token that an owner has asked for. -/
def webEnrollment : Except EnrollFailure AgentConfigFile × RemoteControlPlane :=
  enroll sampleDeployment (sampleMoment 1) webHost
    ["--server", "https://example.test/", "--token", "0123456789abcdef"] 1
    (step sampleDeployment (start RemoteStore.empty)
      ⟨.createEnrollmentToken sampleOwner webArguments, sampleMoment 1⟩)

/-- It gets its configuration, and the row of its agent has its key. -/
theorem enrollment_agrees_web :
    ∃ config, webEnrollment.1 = .ok config ∧
      ∃ row, webEnrollment.2.store.getAgent config.agentId = some row ∧
        row.publicKey = some "agent" ∧ agentPolicySchema row.policy = some config.policy := by
  have hsome : webEnrollment.1.toOption.isSome = true := by decide +kernel
  cases hresult : webEnrollment.1 with
  | error =>
    rw [hresult] at hsome
    cases hsome
  | ok config =>
    obtain ⟨⟨row, hrow, -, hkey, -, hpolicy⟩, -, -, hhost, -⟩ :=
      enrollment_agrees sampleDeployment (sampleMoment 1) webHost _ 1 _ webEnrollment.2 config
        (Prod.ext hresult rfl)
    rw [hhost] at hkey
    exact ⟨config, rfl, row, hrow, hkey, hpolicy⟩

/-! ### The first hello -/

end RemoteControlPlane

section Hello

open Schema

variable (platform : Platform)

/-- The members of a hello. -/
def agentHelloKeys : List String :=
  ["type", "agent_id", "timestamp", "nonce", "capabilities", "agent_version", "host", "signature"]

/-- What the schema asks of the metadata of a host. -/
structure AgentHostMetadata.Plain (host : AgentHostMetadata) : Prop where
  hostname : 1 ≤ JsText.length host.hostname ∧ JsText.length host.hostname ≤ 255
  os : 1 ≤ JsText.length host.os ∧ JsText.length host.os ≤ 128
  arch : 1 ≤ JsText.length host.arch ∧ JsText.length host.arch ≤ 64
  platform : 1 ≤ JsText.length host.platform ∧ JsText.length host.platform ≤ 128

/-- What the schema asks of a hello. -/
structure AgentHelloEnvelope.Plain (hello : AgentHelloEnvelope) : Prop where
  agent_id : hello.agent_id ≠ ""
  timestamp : platform.isDatetime hello.timestamp = true
  nonce : 16 ≤ JsText.length hello.nonce
  agent_version : 1 ≤ JsText.length hello.agent_version ∧ JsText.length hello.agent_version ≤ 128
  host : hello.host.Plain
  signature : hello.signature ≠ ""

theorem nodup_agentHello_toFields (hello : AgentHelloEnvelope) :
    (hello.toFields.map Prod.fst).Nodup := by
  show agentHelloKeys.Nodup
  decide

theorem agentHostMetadataSchema_host {host : AgentHostMetadata} (h : host.Plain) :
    agentHostMetadataSchema host.toValue.transport = some host := by
  have hmember : ∀ k, host.toValue.transport.member k = (host.toValue.member k).transport := by
    refine Value.member_transport_of_nodup ?_
    show ["hostname", "os", "arch", "platform"].Nodup
    decide
  have hkeys : ∀ e ∈ Value.transportMembers [("hostname", Value.str host.hostname),
      ("os", .str host.os), ("arch", .str host.arch), ("platform", .str host.platform)],
      e.1 ∈ ["hostname", "os", "arch", "platform"] := by
    intro e he
    exact (Value.keys_transportMembers_sublist _).subset (List.mem_map_of_mem he)
  have hstrict := strict_obj hkeys
  rw [← Value.transport] at hstrict
  have hhostname : stringRange 1 255 (host.toValue.transport.member "hostname") =
      some host.hostname := by
    rw [hmember]
    exact if_pos h.hostname
  have hos : stringRange 1 128 (host.toValue.transport.member "os") = some host.os := by
    rw [hmember]
    exact if_pos h.os
  have harch : stringRange 1 64 (host.toValue.transport.member "arch") = some host.arch := by
    rw [hmember]
    exact if_pos h.arch
  have hplatform : stringRange 1 128 (host.toValue.transport.member "platform") =
      some host.platform := by
    rw [hmember]
    exact if_pos h.platform
  unfold agentHostMetadataSchema
  change (strict _ host.toValue.transport).bind _ = _
  rw [show strict ["hostname", "os", "arch", "platform"] host.toValue.transport =
    some host.toValue.transport.member from hstrict, Option.bind_some, hhostname, hos,
      harch, hplatform]
  rfl

theorem transport_strings (ss : List String) : (strings ss).transport = strings ss := by
  unfold strings
  rw [Value.transport]
  congr 1
  induction ss with
  | nil => rfl
  | cons s ss ih =>
    rw [List.map_cons, Value.transportElements_cons, ih]
    rfl

theorem array_capabilitySchema (capabilities : List RemoteCapability) :
    array capabilitySchema (strings (capabilities.map (·.text))) = some capabilities := by
  show ((capabilities.map (·.text)).map Value.str).mapM capabilitySchema = some capabilities
  rw [List.map_map]
  induction capabilities with
  | nil => rfl
  | cons c capabilities ih =>
    rw [List.map_cons, List.mapM_cons, ih]
    cases c <;> rfl

/-- **A hello is read as it was sent.** -/
theorem agentHelloEnvelopeSchema_hello {hello : AgentHelloEnvelope} (h : hello.Plain platform) :
    agentHelloEnvelopeSchema platform (Value.obj hello.toFields).transport = some hello := by
  have hmember : ∀ k, (Value.obj hello.toFields).transport.member k =
      ((Value.obj hello.toFields).member k).transport :=
    Value.member_transport_of_nodup (nodup_agentHello_toFields hello)
  have hkeys : ∀ e ∈ Value.transportMembers hello.toFields, e.1 ∈ agentHelloKeys := by
    intro e he
    exact (Value.keys_transportMembers_sublist hello.toFields).subset (List.mem_map_of_mem he)
  have hstrict := strict_obj hkeys
  rw [← Value.transport] at hstrict
  set v := (Value.obj hello.toFields).transport with hv
  have htype : literal "agent.hello" (v.member "type") = some () := by
    rw [hmember]
    rfl
  have hagent : stringMin 1 (v.member "agent_id") = some hello.agent_id := by
    rw [hmember]
    exact if_pos (JsText.one_le_length h.agent_id)
  have htimestamp : stringWhere platform.isDatetime (v.member "timestamp") =
    some hello.timestamp := by
    rw [hmember]
    exact if_pos h.timestamp
  have hnonce : stringMin 16 (v.member "nonce") = some hello.nonce := by
    rw [hmember]
    exact if_pos h.nonce
  have hcapabilities : array capabilitySchema (v.member "capabilities") =
    some hello.capabilities := by
    rw [hmember]
    show array capabilitySchema (strings (hello.capabilities.map (·.text))).transport = _
    rw [transport_strings]
    exact array_capabilitySchema hello.capabilities
  have hversion : stringRange 1 128 (v.member "agent_version") = some hello.agent_version := by
    rw [hmember]
    exact if_pos h.agent_version
  have hhost : agentHostMetadataSchema (v.member "host") = some hello.host := by
    rw [hmember]
    exact agentHostMetadataSchema_host h.host
  have hsignature : stringMin 1 (v.member "signature") = some hello.signature := by
    rw [hmember]
    exact if_pos (JsText.one_le_length h.signature)
  clear_value v
  unfold agentHelloEnvelopeSchema
  rw [show strict ["type", "agent_id", "timestamp", "nonce", "capabilities", "agent_version",
    "host", "signature"] v = some v.member from hstrict, Option.bind_eq_bind,
      Option.bind_some, htype,
    Option.bind_eq_bind, Option.bind_some, hagent, htimestamp, hnonce, hcapabilities,
      hversion, hhost,
    hsignature]
  rfl

theorem verifyEnvelope_hello {publicKeyPem : String} (config : AgentConfig)
    (hkeys : KeyPair platform publicKeyPem config.privateKeyPem) (now : ℤ)
    (nonce agentVersion : String) (host : AgentHostMetadata) :
    verifyEnvelope platform
      (AgentProcess.hello platform config now nonce agentVersion host).toFields publicKeyPem =
        true :=
  -- the signature itself is not part of the signed text
  verifyEnvelope_of_signed hkeys (nodup_agentHello_toFields _) (nodup_agentHello_toFields _)
    (fun _ _ => rfl) rfl

end Hello

namespace RemoteControlPlane

variable (d : Deployment)

/-- **A configuration is recognised**: the row of its agent has its key and is not revoked. -/
def Recognises (s : RemoteControlPlane) (config : AgentConfigFile) : Prop :=
  ∃ row, s.store.getAgent config.agentId = some row ∧ row.publicKey = some config.publicKeyPem ∧
    row.status ≠ .revoked

/-- **When an agent connects.** The hello that it sends with a configuration that is recognised is
accepted exactly when it arrives within five minutes of its timestamp, on a connection the agent is
not registered on, and with a nonce that is not remembered; and then the agent is registered on that
connection and online. -/
theorem enrolled_agent_connects_iff (config : AgentConfigFile)
    (hkeys : KeyPair d.platform config.publicKeyPem config.privateKeyPem)
    (hid : config.agentId ≠ "") (s : RemoteControlPlane) (hopen : s.store.isOpen = true)
    (hrecognised : s.Recognises config) (sentAt : ℤ) (nonce agentVersion : String)
    (host : AgentHostMetadata) (hdate : d.platform.isDatetime (d.platform.toISOString sentAt) =
      true)
    (hnonce : 16 ≤ JsText.length nonce)
    (hversion : 1 ≤ JsText.length agentVersion ∧ JsText.length agentVersion ≤ 128)
    (hhost : host.Plain) (c : ConnectionId) (m : Moment) :
    let hello := AgentProcess.hello d.platform config.toAgentConfig sentAt nonce agentVersion host
    let e : Step := ⟨.message c (some (Value.obj hello.toFields).transport), m⟩
    (acceptedHello d s e = some hello ↔
      |m.now - d.platform.getTime (d.platform.toISOString sentAt)| ≤ 300000 ∧
        (∀ live, s.agentConnections.get? config.agentId = some live → live.connection ≠ c) ∧
        ReplayGuard.forget s.nonceExpiry m.later (config.agentId, nonce) = none) ∧
      (acceptedHello d s e = some hello →
        (s.step d e).storedStatus config.agentId = some .online ∧
          (s.step d e).liveConnection config.agentId = some c) := by
  intro hello e
  have hplain : hello.Plain d.platform :=
    ⟨hid, hdate, hnonce, hversion, hhost, hkeys.sign_ne _⟩
  have hhello : helloOf d e = some (c, hello) := by
    show (agentHelloEnvelopeSchema d.platform (Value.obj hello.toFields).transport).map _ = _
    rw [agentHelloEnvelopeSchema_hello d.platform hplain, Option.map_some]
  obtain ⟨row, hrow, hkey, hstatus⟩ := hrecognised
  constructor
  · rw [acceptedHello_eq_some]
    constructor
    · rintro ⟨c', hhello', -, ⟨-, -, -, -, -, -, hage, hother⟩, hforgotten⟩
      obtain ⟨rfl, -⟩ := Prod.mk.inj (Option.some.inj (hhello.symm.trans hhello'))
      exact ⟨hage, hother, hforgotten⟩
    · rintro ⟨hage, hother, hforgotten⟩
      have hverified := verifyEnvelope_hello d.platform config.toAgentConfig hkeys sentAt nonce
        agentVersion host
      exact ⟨c, hhello, hopen, ⟨row, config.publicKeyPem, hrow, hkey, hstatus, hverified,
        hage, hother⟩,
        hforgotten⟩
  · intro haccepted
    obtain ⟨-, agent, hverdict, hstep⟩ := step_of_acceptedHello hhello haccepted
    obtain ⟨hagent, hagentId, -⟩ := helloVerdict_accepted d m s hverdict
    have hagentId : agent.id = config.agentId := hagentId
    obtain ⟨s₁, nonces, store, hearlier, hwritten, hsame⟩ :=
      acceptHello_table (d := d) (m := m) (c := c) hello hopen hagent
    -- the earlier connection has been closed, and the row is still there
    have hrow₁ : s₁.storedAlias agent.id = some agent.aliasName := by
      rw [hearlier.aliases, storedAlias, hagent, Option.map_some]
    obtain ⟨row₁, hget₁, -⟩ := Option.map_eq_some_iff.mp hrow₁
    have hstored := storedStatus_of_updateAgent hwritten agent.id
    rw [if_pos (show agent.id = (onlineRecord d m hello agent).id from rfl), storedStatus, hget₁]
      at hstored
    rw [hstep, ← hagentId]
    constructor
    · rw [hsame.status]
      exact hstored
    · rw [hsame.live, liveConnection_registeredOnline, if_pos rfl]

/-- The configuration of the sample agent. -/
def webConfig : AgentConfigFile where
  server := "https://example.test"
  agentId := "agt_1"
  aliasName := "web"
  publicKeyPem := "agent"
  privateKeyPem := "agent"
  controlPlanePublicKeyPem := "plane"
  policy := AgentProcess.sampleConfig.policy
  websocketUrl := websocketUrl sampleDeployment
  enrolledAt := samplePlatform.toISOString 1

/-- It says hello on a connection, and is online there. -/
theorem enrolled_agent_connects_web :
    let hello := AgentProcess.hello samplePlatform webConfig.toAgentConfig 2 "0123456789abcdef" "1"
      webHost.metadata
    let e : Step := ⟨.message 0 (some (Value.obj hello.toFields).transport), sampleMoment 3⟩
    acceptedHello sampleDeployment (start sampleStore) e = some hello ∧
      ((start sampleStore).step sampleDeployment e).storedStatus "agt_1" = some .online ∧
      ((start sampleStore).step sampleDeployment e).liveConnection "agt_1" = some 0 := by
  intro hello e
  have h := enrolled_agent_connects_iff sampleDeployment webConfig (keyPair_samplePlatform "agent")
    (by decide) (start sampleStore) rfl ⟨sampleAgent, rfl, rfl, by decide⟩ 2
    "0123456789abcdef" "1" webHost.metadata (by decide +kernel) (by decide) (by decide)
    ⟨by decide, by decide, by decide, by decide⟩ 0 (sampleMoment 3)
  have haccepted : acceptedHello sampleDeployment (start sampleStore) e = some hello := by
    refine h.1.mpr ⟨by decide +kernel, ?_, by decide +kernel⟩
    intro live hlive
    cases hlive
  exact ⟨haccepted, h.2 haccepted⟩

end RemoteControlPlane
end Remote
