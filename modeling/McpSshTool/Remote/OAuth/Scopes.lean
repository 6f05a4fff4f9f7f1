import Mathlib.Data.List.Dedup
import McpSshTool.Remote.Store

/-!
# Scopes

`scopes.ts`, and `scopeList` of `control-plane.ts`: how the text of a `scope` parameter names
scopes, and what a list of scopes lets its holder do.
-/

namespace Remote

/-- `REMOTE_SCOPES`. -/
def remoteScopes : List RemoteScope :=
  [.hostsRead, .agentsRead, .agentsAdmin, .statusRead, .logsRead, .serviceManage, .dockerManage,
    .filesRead, .filesWrite, .shellExec, .sudoExec]

def RemoteScope.text : RemoteScope → String
  | .hostsRead => "hosts:read"
  | .agentsRead => "agents:read"
  | .agentsAdmin => "agents:admin"
  | .statusRead => "status:read"
  | .logsRead => "logs:read"
  | .serviceManage => "service:manage"
  | .dockerManage => "docker:manage"
  | .filesRead => "files:read"
  | .filesWrite => "files:write"
  | .shellExec => "shell:exec"
  | .sudoExec => "sudo:exec"

theorem RemoteScope.mem_all (s : RemoteScope) : s ∈ remoteScopes := by
  cases s <;> decide

theorem RemoteScope.text_injective : Function.Injective RemoteScope.text :=
  injective_of_nodup_texts remoteScopes mem_all (by decide)

/-- `parseScopes`: the words of the text that name scopes. -/
def parseScopes (scope : String) : List RemoteScope :=
  (JsText.words scope).filterMap (ofText? remoteScopes RemoteScope.text)

/-- `scopeList`: the scopes of a text all of whose words name scopes; a text without words stands
for the four scopes that read. -/
def scopeList (scope : String) : Except Thrown (List RemoteScope) :=
  if (JsText.words scope).any fun word => (ofText? remoteScopes RemoteScope.text word).isNone then
    .error (.safe .invalidScope "Requested scope is not supported" 400)
  else
    let scopes := parseScopes scope
    .ok (if scopes.length > 0 then scopes
      else [.hostsRead, .agentsRead, .statusRead, .logsRead])

/-- `scopes.join(" ")`. -/
def joinScopes (scopes : List RemoteScope) : String := " ".intercalate (scopes.map RemoteScope.text)

/-- `capabilitiesFromScopes`, in the order in which the set was filled. -/
def capabilitiesFromScopes (scopes : List RemoteScope) : List RemoteCapability :=
  (scopes.flatMap scopeCapabilityMap).reverse.dedup.reverse

end Remote
