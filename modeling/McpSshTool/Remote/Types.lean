import McpSshTool.Js.Value

/-!
# Shared protocol types

The types that the control plane and the agent share (`types.ts`): capabilities, scopes, tools,
error codes, the agent policy, the stored records and the signed envelopes. Closed string unions
are enumerations with their text; `ofText?` reads a text back, as `z.enum` does.

A policy has two forms. The agent holds an `AgentPolicy`, which its schema has validated. The
control plane stores whatever `mergeCustomPolicy` made of a patch, so a record's `policy` is a
`Value`.
-/

namespace Remote

/-- The member of an enumeration with a given text. -/
def ofText? {α : Type} (all : List α) (text : α → String) (s : String) : Option α :=
  all.find? fun a => text a = s

theorem ofText?_eq_some {α : Type} {all : List α} {text : α → String} {s : String} {a : α}
    (h : ofText? all text s = some a) : text a = s := by
  simpa using List.find?_some h

theorem injective_of_nodup_texts {α : Type} {text : α → String} (all : List α)
    (hall : ∀ a, a ∈ all) (hnodup : (all.map text).Nodup) : Function.Injective text :=
  fun a b h => List.inj_on_of_nodup_map hnodup (hall a) (hall b) h

theorem ofText?_text {α : Type} {text : α → String} (hinj : Function.Injective text)
    {all : List α} {a : α} (ha : a ∈ all) : ofText? all text (text a) = some a := by
  unfold ofText?
  cases h : all.find? fun b => decide (text b = text a) with
  | none => exact absurd (List.find?_eq_none.mp h a ha) (by simp)
  | some b => rw [hinj (show text b = text a by simpa using List.find?_some h)]

/-! ### Capabilities, scopes and tools -/

inductive RemoteCapability where
  | hostsRead | agentsRead | agentsAdmin | systemRead | logsRead | serviceManage | dockerManage
  | filesRead | filesWrite | shellExec | sudoExec | agentAdmin | auditRead
deriving DecidableEq, Repr, Inhabited

/-- `REMOTE_CAPABILITIES`. -/
def remoteCapabilities : List RemoteCapability :=
  [.hostsRead, .agentsRead, .agentsAdmin, .systemRead, .logsRead, .serviceManage, .dockerManage,
    .filesRead, .filesWrite, .shellExec, .sudoExec, .agentAdmin, .auditRead]

def RemoteCapability.text : RemoteCapability → String
  | .hostsRead => "hosts.read"
  | .agentsRead => "agents.read"
  | .agentsAdmin => "agents.admin"
  | .systemRead => "system.read"
  | .logsRead => "logs.read"
  | .serviceManage => "service.manage"
  | .dockerManage => "docker.manage"
  | .filesRead => "files.read"
  | .filesWrite => "files.write"
  | .shellExec => "shell.exec"
  | .sudoExec => "sudo.exec"
  | .agentAdmin => "agent.admin"
  | .auditRead => "audit.read"

theorem RemoteCapability.mem_all (c : RemoteCapability) : c ∈ remoteCapabilities := by
  cases c <;> decide

theorem RemoteCapability.text_injective : Function.Injective RemoteCapability.text :=
  injective_of_nodup_texts remoteCapabilities mem_all (by decide)

inductive RemoteScope where
  | hostsRead | agentsRead | agentsAdmin | statusRead | logsRead | serviceManage | dockerManage
  | filesRead | filesWrite | shellExec | sudoExec
deriving DecidableEq, Repr, Inhabited

/-- `SCOPE_CAPABILITY_MAP`. -/
def scopeCapabilityMap : RemoteScope → List RemoteCapability
  | .hostsRead => [.hostsRead]
  | .agentsRead => [.agentsRead]
  | .agentsAdmin => [.agentsAdmin, .agentAdmin, .auditRead]
  | .statusRead => [.systemRead]
  | .logsRead => [.logsRead]
  | .serviceManage => [.serviceManage]
  | .dockerManage => [.dockerManage]
  | .filesRead => [.filesRead]
  | .filesWrite => [.filesWrite]
  | .shellExec => [.shellExec]
  | .sudoExec => [.sudoExec]

/-- `hasCapability` (`scopes.ts`). -/
def hasCapability (capabilities : List RemoteCapability) (capability : RemoteCapability) : Bool :=
  capabilities.contains capability

inductive RemoteToolName where
  | list_hosts | list_agents | create_enrollment_token | get_agent_install_command
  | get_system_status | tail_logs | restart_service | docker_ps | docker_logs | docker_restart
  | file_read | file_write | run_shell | run_shell_as_root | update_agent_policy | revoke_agent
  | get_audit_events
deriving DecidableEq, Repr, Inhabited

/-- `REMOTE_TOOLS`. -/
def remoteTools : List RemoteToolName :=
  [.list_hosts, .list_agents, .create_enrollment_token, .get_agent_install_command,
    .get_system_status, .tail_logs, .restart_service, .docker_ps, .docker_logs, .docker_restart,
    .file_read, .file_write, .run_shell, .run_shell_as_root, .update_agent_policy, .revoke_agent,
    .get_audit_events]

def RemoteToolName.text : RemoteToolName → String
  | .list_hosts => "list_hosts"
  | .list_agents => "list_agents"
  | .create_enrollment_token => "create_enrollment_token"
  | .get_agent_install_command => "get_agent_install_command"
  | .get_system_status => "get_system_status"
  | .tail_logs => "tail_logs"
  | .restart_service => "restart_service"
  | .docker_ps => "docker_ps"
  | .docker_logs => "docker_logs"
  | .docker_restart => "docker_restart"
  | .file_read => "file_read"
  | .file_write => "file_write"
  | .run_shell => "run_shell"
  | .run_shell_as_root => "run_shell_as_root"
  | .update_agent_policy => "update_agent_policy"
  | .revoke_agent => "revoke_agent"
  | .get_audit_events => "get_audit_events"

theorem RemoteToolName.mem_all (t : RemoteToolName) : t ∈ remoteTools := by
  cases t <;> decide

theorem RemoteToolName.text_injective : Function.Injective RemoteToolName.text :=
  injective_of_nodup_texts remoteTools mem_all (by decide)

/-- `TOOL_CAPABILITY_MAP`. -/
def toolCapabilityMap : RemoteToolName → RemoteCapability
  | .list_hosts => .hostsRead
  | .list_agents => .agentsRead
  | .create_enrollment_token => .agentsAdmin
  | .get_agent_install_command => .agentsAdmin
  | .get_system_status => .systemRead
  | .tail_logs => .logsRead
  | .restart_service => .serviceManage
  | .docker_ps => .dockerManage
  | .docker_logs => .dockerManage
  | .docker_restart => .dockerManage
  | .file_read => .filesRead
  | .file_write => .filesWrite
  | .run_shell => .shellExec
  | .run_shell_as_root => .sudoExec
  | .update_agent_policy => .agentsAdmin
  | .revoke_agent => .agentsAdmin
  | .get_audit_events => .auditRead

/-! ### Error codes -/

inductive RemoteErrorCode where
  | unauthorized | forbidden | invalidToken | invalidScope | invalidClient | invalidRedirectUri
  | pkceValidationFailed | agentNotFound | agentOffline | agentRevoked | agentTimeout | policyDenied
  | capabilityDenied | actionExpired | actionReplayDetected | signatureInvalid | commandTimeout
  | outputTruncated | unsupportedPlatform | unsupportedPlatformOrPrivilege | internalError
deriving DecidableEq, Repr, Inhabited

/-- `REMOTE_ERROR_CODES`. -/
def remoteErrorCodes : List RemoteErrorCode :=
  [.unauthorized, .forbidden, .invalidToken, .invalidScope, .invalidClient, .invalidRedirectUri,
    .pkceValidationFailed, .agentNotFound, .agentOffline, .agentRevoked, .agentTimeout,
    .policyDenied, .capabilityDenied, .actionExpired, .actionReplayDetected, .signatureInvalid,
    .commandTimeout, .outputTruncated, .unsupportedPlatform, .unsupportedPlatformOrPrivilege,
    .internalError]

def RemoteErrorCode.text : RemoteErrorCode → String
  | .unauthorized => "UNAUTHORIZED"
  | .forbidden => "FORBIDDEN"
  | .invalidToken => "INVALID_TOKEN"
  | .invalidScope => "INVALID_SCOPE"
  | .invalidClient => "INVALID_CLIENT"
  | .invalidRedirectUri => "INVALID_REDIRECT_URI"
  | .pkceValidationFailed => "PKCE_VALIDATION_FAILED"
  | .agentNotFound => "AGENT_NOT_FOUND"
  | .agentOffline => "AGENT_OFFLINE"
  | .agentRevoked => "AGENT_REVOKED"
  | .agentTimeout => "AGENT_TIMEOUT"
  | .policyDenied => "POLICY_DENIED"
  | .capabilityDenied => "CAPABILITY_DENIED"
  | .actionExpired => "ACTION_EXPIRED"
  | .actionReplayDetected => "ACTION_REPLAY_DETECTED"
  | .signatureInvalid => "SIGNATURE_INVALID"
  | .commandTimeout => "COMMAND_TIMEOUT"
  | .outputTruncated => "OUTPUT_TRUNCATED"
  | .unsupportedPlatform => "UNSUPPORTED_PLATFORM"
  | .unsupportedPlatformOrPrivilege => "UNSUPPORTED_PLATFORM_OR_PRIVILEGE"
  | .internalError => "INTERNAL_ERROR"

theorem RemoteErrorCode.mem_all (c : RemoteErrorCode) : c ∈ remoteErrorCodes := by
  cases c <;> decide

theorem RemoteErrorCode.text_injective : Function.Injective RemoteErrorCode.text :=
  injective_of_nodup_texts remoteErrorCodes mem_all (by decide)

/-! ### Policies -/

inductive AgentProfileName where
  | readOnly | operations | fullAdmin | custom
deriving DecidableEq, Repr, Inhabited

def agentProfileNames : List AgentProfileName := [.readOnly, .operations, .fullAdmin, .custom]

def AgentProfileName.text : AgentProfileName → String
  | .readOnly => "read-only"
  | .operations => "operations"
  | .fullAdmin => "full-admin"
  | .custom => "custom"

theorem AgentProfileName.mem_all (p : AgentProfileName) : p ∈ agentProfileNames := by
  cases p <;> decide

theorem AgentProfileName.text_injective : Function.Injective AgentProfileName.text :=
  injective_of_nodup_texts agentProfileNames mem_all (by decide)

/-- `CapabilityPolicy`: which capabilities a policy enables. -/
abbrev CapabilityPolicy := RemoteCapability → Bool

/-- A policy as the agent holds it. -/
structure AgentPolicy where
  profile : AgentProfileName
  capabilities : CapabilityPolicy
  allowPaths : List String
  denyPaths : List String
  allowServices : List String
  allowContainers : List String
  maxOutputBytes : ℕ
  maxActionTimeoutSeconds : ℕ
  version : ℕ

/-! ### Stored records -/

inductive AgentStatus where
  | pending | online | offline | revoked
deriving DecidableEq, Repr, Inhabited

def AgentStatus.text : AgentStatus → String
  | .pending => "pending"
  | .online => "online"
  | .offline => "offline"
  | .revoked => "revoked"

structure AgentHostMetadata where
  hostname : String
  os : String
  arch : String
  platform : String
deriving DecidableEq, Repr, Inhabited

/-- `RemoteAgentRecord`. The profile and the policy are values: an update writes what the patch
says. `aliasName` is the source's `alias`, a Lean keyword. -/
structure RemoteAgentRecord where
  id : String
  userId : String
  aliasName : String
  status : AgentStatus
  publicKey : Option String
  profile : Value
  policy : Value
  policyVersion : ℕ
  hostMetadata : Option AgentHostMetadata
  lastSeenAt : Option String
  createdAt : String
  updatedAt : String

structure AgentEnrollmentTokenRecord where
  agentId : String
  userId : String
  tokenHash : String
  expiresAt : String
  usedAt : Option String
  createdAt : String
deriving DecidableEq, Repr

inductive Severity where
  | info | warn | error
deriving DecidableEq, Repr

def Severity.text : Severity → String
  | .info => "info"
  | .warn => "warn"
  | .error => "error"

/-- `AuditEvent`, without its generated id. -/
structure AuditEvent where
  userId : Option String
  agentId : Option String
  actionId : Option String
  eventType : String
  severity : Severity
  metadata : Value
  createdAt : String

/-! ### Envelopes -/

structure AgentHelloEnvelope where
  agent_id : String
  timestamp : String
  nonce : String
  capabilities : List RemoteCapability
  agent_version : String
  host : AgentHostMetadata
  signature : String
deriving DecidableEq, Repr

structure ActionRequestEnvelope where
  action_id : String
  agent_id : String
  user_id : String
  tool : RemoteToolName
  capability : RemoteCapability
  args : Fields
  policy_version : ℕ
  issued_at : String
  deadline : String
  nonce : String
  signature : String

inductive ResultStatus where
  | ok | error
deriving DecidableEq, Repr, Inhabited

def ResultStatus.text : ResultStatus → String
  | .ok => "ok"
  | .error => "error"

structure ActionResultEnvelope where
  action_id : String
  agent_id : String
  nonce : String
  status : ResultStatus
  exit_code : Option ℤ
  stdout : Option String
  stderr : Option String
  started_at : String
  finished_at : String
  truncated : Bool
  error_code : Option RemoteErrorCode
  message : Option String
  signature : String
deriving DecidableEq, Repr

/-- `PolicyUpdateEnvelope`, over the form the policy has on the side that holds it. -/
structure PolicyUpdateEnvelope (Policy : Type) where
  agent_id : String
  policy : Policy
  policy_version : ℕ
  issued_at : String
  nonce : String
  signature : String

inductive ActionStatus where
  | pending | sent | completed | denied | timeout | error
deriving DecidableEq, Repr, Inhabited

structure ActionRecord where
  id : String
  userId : String
  agentId : String
  tool : RemoteToolName
  capability : RemoteCapability
  args : Fields
  status : ActionStatus
  issuedAt : String
  deadline : String
  completedAt : Option String
  result : Option ActionResultEnvelope
  errorCode : Option RemoteErrorCode

/-- The caller a verified access token stands for. -/
structure RemotePrincipal where
  userId : String
  capabilities : List RemoteCapability
deriving DecidableEq, Repr

/-- The configuration entries that the agent side of the control plane reads. -/
structure RemoteConfig where
  publicBaseUrl : String
  agentWsPath : String
  enrollmentTokenTtlSeconds : ℤ
  maxActionTimeoutSeconds : ℤ
  maxOutputBytes : ℤ
deriving DecidableEq, Repr

structure PemKeyPair where
  publicKeyPem : String
  privateKeyPem : String
deriving DecidableEq, Repr

end Remote
