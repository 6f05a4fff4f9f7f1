import McpSshTool.Ssh.FsTools

/-!
# The tunnel service

`tunnel.ts`: forwards of local ports to the remote side and of remote ports to the local side. The
counter of the tunnel manager is an argument of the operations that draw a number from it.
-/

open Library

namespace Ssh

inductive TunnelType where
  | local | remote
deriving DecidableEq, Repr

structure TunnelConfig where
  sessionId : String
  localHost : Option String := none
  localPort : ℕ
  remoteHost : Option String := none
  remotePort : Option ℕ := none

structure TunnelInfo where
  id : String
  sessionId : String
  type : TunnelType
  localHost : String
  localPort : ℕ
  remoteHost : String
  remotePort : ℕ
  createdAt : ℕ
  active : Bool

/-- The tunnel that a configuration asks for, on a port of the remote side. -/
def TunnelConfig.info (config : TunnelConfig) (type : TunnelType) (id : String)
    (remotePort createdAt : ℕ) (active : Bool) : TunnelInfo where
  id := id
  sessionId := config.sessionId
  type := type
  localHost := config.localHost.getD "localhost"
  localPort := config.localPort
  remoteHost := config.remoteHost.getD "localhost"
  remotePort := remotePort
  createdAt := createdAt
  active := active

/-- The port of the remote side. -/
def TunnelConfig.targetPort (config : TunnelConfig) : ℕ := config.remotePort.getD config.localPort

/-- The context that is asserted for a tunnel. -/
def TunnelConfig.context (config : TunnelConfig) (type : TunnelType) (mode : PolicyMode) :
    PolicyContext where
  action :=
    match type with
    | .local => .tunnelLocal
    | .remote => .tunnelRemote
  host := config.remoteHost.getD "localhost"
  localBindHost := config.localHost.getD "localhost"
  localPort := config.localPort
  remoteHost := config.remoteHost.getD "localhost"
  remotePort := config.targetPort
  mode := some mode

section Service

variable {rt : Runtime} (engine : PolicyEngine rt)

/-- What the two kinds of tunnels share: the forward itself answers with a port. -/
def createTunnel (type : TunnelType) (config : TunnelConfig) (tunnelCounter : ℕ)
    (forward : Task ℕ) : Task TunnelInfo := do
  let session ← sessionOr (createConnectionError "Session not found or expired") config.sessionId
  let decision ← Program.ofExcept
    (engine.assertAllowed (config.context type session.policyMode))
  if decision.mode = .explain then do
    let time ← now
    let createdAt ← now
    pure (config.info type ("tunnel-explain-" ++ toString time) config.targetPort createdAt false)
  else do
    let time ← now
    let tunnelId := "tunnel-" ++ toString time ++ "-" ++ toString (tunnelCounter + 1)
    let port ← forward
    let createdAt ← now
    pure (config.info type tunnelId port createdAt true)

def createLocalTunnel (config : TunnelConfig) (tunnelCounter : ℕ) : Task TunnelInfo :=
  createTunnel engine .local config tunnelCounter do
    (.perform (.listen config.localPort (config.localHost.getD "localhost")) .done : Task Unit)
    pure config.targetPort

def createRemoteTunnel (config : TunnelConfig) (tunnelCounter : ℕ) : Task TunnelInfo :=
  createTunnel engine .remote config tunnelCounter
    (.perform (.forwardIn (config.remoteHost.getD "localhost") config.targetPort) .done)

def createLocalForward (sessionId : String) (localPort : ℕ) (remoteHost : String) (remotePort : ℕ)
    (tunnelCounter : ℕ) : Task TunnelInfo :=
  createLocalTunnel engine
    { sessionId, localPort, remoteHost := some remoteHost, remotePort := some remotePort }
    tunnelCounter

def createRemoteForward (sessionId : String) (remotePort : ℕ) (localHost : String) (localPort : ℕ)
    (tunnelCounter : ℕ) : Task TunnelInfo :=
  createRemoteTunnel engine
    { sessionId, localPort, localHost := some localHost, remoteHost := some "localhost"
      remotePort := some remotePort }
    tunnelCounter

end Service
end Ssh
