import McpSshTool.Js.Utf8
import McpSshTool.Library.Traced
import McpSshTool.Remote.Policy

/-!
# The agent executor

`agent-executor.ts`: what the agent does with an action request. The operating system is a parameter
(`Os`): it answers the calls the executor makes, and an execution shows which calls those were.

* `executeAllowed` — the check of the capability that the envelope names, and the tool that it
  names;
* `execute` — the signed result. The code of an error is whatever the thrown value carries.

A `Host` is what the executor asks of its process: whether it runs on Windows, and as whom.
-/

open Library

namespace Remote

/-! ### The operating system -/

/-- An error of the operating system or of the runtime, with its `code` if it has one. -/
structure SystemError where
  code : Option String
  message : String
deriving DecidableEq, Repr

/-- How a child process ends. -/
inductive ChildOutcome where
  /-- The event `error`: it could not be started. -/
  | failed (message : String)
  /-- The event `close`, with the exit code, unless a signal ended it, and the chunks of output that
  arrived before it. -/
  | closed (code : Option UInt32) (timedOut : Bool) (stdout stderr : List (List UInt8))

/-- A call to the operating system. -/
inductive OsCall where
  | spawn (command : String) (args : List String) (cwd : Option String) (timeoutSeconds : JsNumber)
  | readFile (path : String) (bytesToRead : ℕ)
  | writeFile (path content : String)
  | access (path : String)
deriving DecidableEq

/-- The answers of the operating system. -/
structure Os where
  spawn : String → List String → Option String → JsNumber → Except SystemError ChildOutcome
  readFile : String → ℕ → Except SystemError (List UInt8)
  writeFile : String → String → Except SystemError Unit
  access : String → Except SystemError Unit

/-- What the executor throws. -/
inductive Failure where
  /-- An error that the executor makes itself. -/
  | refused (code : RemoteErrorCode) (message : String)
  /-- The conversion of an argument throws; the error has no code. -/
  | typeError
  | system (e : SystemError)
deriving DecidableEq, Repr

/-- The error that an answer is. -/
def raised {α : Type} : Except SystemError α → Option Failure
  | .error e => some (.system e)
  | .ok _ => none

/-- The error that a call is answered with. -/
def Os.raises (os : Os) : OsCall → Option Failure
  | .spawn command args cwd timeoutSeconds => raised (os.spawn command args cwd timeoutSeconds)
  | .readFile path bytesToRead => raised (os.readFile path bytesToRead)
  | .writeFile path content => raised (os.writeFile path content)
  | .access path => raised (os.access path)

/-- What the executor asks of its process. -/
structure Host where
  /-- `process.platform === "win32"`. -/
  windows : Bool
  /-- `process.getuid()`, where there is such a function. -/
  uid : Option ℕ

/-- A part of an execution. -/
abbrev Exec (α : Type) := Traced OsCall Failure α

/-- `throw Object.assign(new Error(message), { code })`. -/
def refuse {α : Type} (code : RemoteErrorCode) (message : String) : Exec α :=
  Traced.fail (.refused code message)

/-! ### Bounded output -/

/-- What a tool resolves with; exit codes have 32 bits. -/
structure ExecResult where
  exitCode : UInt32
  stdout : String
  stderr : String
  truncated : Bool
deriving DecidableEq, Repr

structure OutputAccumulator where
  bytes : ℕ
  chunks : List (List UInt8)
  truncated : Bool

/-- `Buffer.concat(chunks, total)`: cut to the total, and filled up with zeros. -/
def concatBytes (chunks : List (List UInt8)) (total : ℕ) : List UInt8 :=
  chunks.flatten.take total ++ List.replicate (total - chunks.flatten.length) 0

def truncationMarker (maxBytes : ℕ) : List UInt8 :=
  Utf8.encode ("\n[truncated after " ++ toString maxBytes ++ " bytes]\n")

def appendTruncationMarker (buffer : List UInt8) (maxBytes : ℕ) : List UInt8 × Bool :=
  if maxBytes ≤ 0 then ([], true)
  else
    let marker := truncationMarker maxBytes
    if maxBytes ≤ marker.length then (marker.take maxBytes, true)
    else
      let payloadBytes := maxBytes - marker.length
      (concatBytes [buffer.take payloadBytes, marker] maxBytes, true)

def truncateBuffer (buffer : List UInt8) (maxBytes : ℕ) : List UInt8 × Bool :=
  if buffer.length ≤ maxBytes then (buffer, false) else appendTruncationMarker buffer maxBytes

def appendBoundedOutput (accumulator : OutputAccumulator) (chunk : List UInt8) (maxBytes : ℕ) :
    OutputAccumulator :=
  if maxBytes ≤ 0 then
    { accumulator with truncated := accumulator.truncated || decide (0 < chunk.length) }
  else if maxBytes - accumulator.bytes ≤ 0 then { accumulator with truncated := true }
  else
    let slice := chunk.take (maxBytes - accumulator.bytes)
    { bytes := accumulator.bytes + slice.length
      chunks := accumulator.chunks ++ [slice]
      truncated := accumulator.truncated || decide (slice.length ≠ chunk.length) }

def finalizeBoundedOutput (accumulator : OutputAccumulator) (maxBytes : ℕ) : List UInt8 × Bool :=
  let value := concatBytes accumulator.chunks accumulator.bytes
  if !accumulator.truncated then (value, false) else appendTruncationMarker value maxBytes

/-- The output of a stream, once all its chunks have arrived. -/
def boundedOutput (chunks : List (List UInt8)) (maxBytes : ℕ) : List UInt8 × Bool :=
  finalizeBoundedOutput
    (chunks.foldl (fun accumulator chunk => appendBoundedOutput accumulator chunk maxBytes)
      { bytes := 0, chunks := [], truncated := false }) maxBytes

/-! ### Commands -/

/-- What `runCommand` resolves with. -/
def childResult (maxOutputBytes : ℕ) : ChildOutcome → ExecResult
  | .failed message => { exitCode := 127, stdout := "", stderr := message, truncated := false }
  | .closed code timedOut stdout stderr =>
    let out := boundedOutput stdout maxOutputBytes
    let err := boundedOutput stderr maxOutputBytes
    { exitCode := if timedOut then 124 else code.getD 0
      stdout := Utf8.decode out.1
      stderr := Utf8.decode err.1
      truncated := out.2 || err.2 }

/-- A program with its arguments. -/
structure Command where
  command : String
  args : List String

/-- `runCommand`. A `spawn` that throws rejects the promise. -/
def runCommand (os : Os) (command : Command) (cwd : Option String) (timeoutSeconds : JsNumber)
    (maxOutputBytes : ℕ) : Exec ExecResult :=
  .perform (.spawn command.command command.args cwd timeoutSeconds)
    (((os.spawn command.command command.args cwd timeoutSeconds).mapError .system).map
      (childResult maxOutputBytes))

def powerShell (command : String) (args : List String) : Command where
  command := "powershell.exe"
  args := ["-NoLogo", "-NoProfile", "-NonInteractive", "-Command", command] ++ args

def platformShell (host : Host) (command : String) : Command :=
  if host.windows then powerShell command []
  else { command := "/bin/sh", args := ["-lc", command] }

def posixSingleQuote (value : String) : String :=
  let quote := Char.ofNat 39
  String.singleton quote
    ++ String.ofList (value.toList.flatMap fun c =>
      if c = quote then [quote, '\\', quote, quote] else [c])
    ++ String.singleton quote

/-- `SAFE_IDENTIFIER_PATTERN`. -/
def isSafeIdentifier (value : String) : Bool :=
  decide (1 ≤ value.toList.length) && decide (value.toList.length ≤ 128) &&
    value.toList.all fun c => c.isAlphanum || "_.@:-".toList.contains c

def assertSafeIdentifier (value label : String) : Exec Unit :=
  if isSafeIdentifier value then pure ()
  else refuse .policyDenied (label ++ " contains unsupported characters")

def isLogFileTarget (target : String) : Bool :=
  target.toList.contains '/' || target.toList.contains '\\' ||
    match target.toList with
    | drive :: ':' :: sep :: _ => drive.isAlpha && (sep = '\\' || sep = '/')
    | _ => false

/-! ### Tools -/

section Tools

variable (host : Host) (os : Os) (policy : AgentPolicy)

def getSystemStatus (timeoutSeconds : JsNumber) : Exec ExecResult :=
  let command :=
    if host.windows then
      "Get-ComputerInfo | Select-Object CsName,OsName,OsVersion,CsTotalPhysicalMemory | " ++
        "ConvertTo-Json -Compress"
    else "uname -a && uptime && df -h /"
  runCommand os (platformShell host command) none timeoutSeconds policy.maxOutputBytes

def tailLogs (target : String) (timeoutSeconds : JsNumber) : Exec ExecResult :=
  if target = "" then refuse .policyDenied "unit_or_file is required"
  else if isLogFileTarget target && !isPathAllowed policy target then
    refuse .policyDenied "Log path is not allowed by local policy"
  else if host.windows then
    if isLogFileTarget target then
      runCommand os (powerShell "Get-Content -Path $args[0] -Tail 100" [target]) none timeoutSeconds
        policy.maxOutputBytes
    else do
      assertSafeIdentifier target "Log target"
      runCommand os
        (powerShell "Get-EventLog -LogName $args[0] -Newest 100 | ConvertTo-Json -Compress"
          [target])
        none timeoutSeconds policy.maxOutputBytes
  else if isLogFileTarget target then
    runCommand os { command := "tail", args := ["-n", "100", target] } none timeoutSeconds
      policy.maxOutputBytes
  else do
    assertSafeIdentifier target "Systemd unit"
    runCommand os
      { command := "journalctl", args := ["-u", target, "-n", "100", "--no-pager"] } none
      timeoutSeconds policy.maxOutputBytes

def restartService (service : String) (timeoutSeconds : JsNumber) : Exec ExecResult :=
  if service = "" || !isServiceAllowed policy service then
    refuse .policyDenied "Service is not allowed by local policy"
  else do
    assertSafeIdentifier service "Service name"
    runCommand os
      (if host.windows then powerShell "Restart-Service -Name $args[0]" [service]
        else { command := "systemctl", args := ["restart", service] })
      none timeoutSeconds policy.maxOutputBytes

/-- The check and the command of a tool that acts on a container. -/
def onContainer (container : String) (args : List String) (timeoutSeconds : JsNumber) :
    Exec ExecResult :=
  if container = "" || !isContainerAllowed policy container then
    refuse .policyDenied "Container is not allowed by local policy"
  else do
    assertSafeIdentifier container "Container name"
    runCommand os { command := "docker", args := args } none timeoutSeconds policy.maxOutputBytes

def dockerLogs (nt : NumberText) (container : String) (lines timeoutSeconds : JsNumber) :
    Exec ExecResult :=
  onContainer os policy container
    ["logs", "--tail", nt.render (lines.min (.ofInt 500)), container] timeoutSeconds

def dockerRestart (container : String) (timeoutSeconds : JsNumber) : Exec ExecResult :=
  onContainer os policy container ["restart", container] timeoutSeconds

/-- `fileRead`, with `readFileBounded`: one byte more than the limit is asked for. -/
def fileRead (filePath : String) : Exec ExecResult :=
  if !isPathAllowed policy filePath then
    refuse .policyDenied "Path is not allowed by local policy"
  else
    let bytesToRead := policy.maxOutputBytes + 1
    .perform (.readFile filePath bytesToRead)
      (((os.readFile filePath bytesToRead).mapError .system).map fun content =>
        let truncated := truncateBuffer (content.take bytesToRead) policy.maxOutputBytes
        { exitCode := 0, stdout := Utf8.decode truncated.1, stderr := ""
          truncated := truncated.2 })

def fileWrite (filePath content : String) : Exec ExecResult :=
  if !isPathAllowed policy filePath then
    refuse .policyDenied "Path is not allowed by local policy"
  else
    .perform (.writeFile filePath content)
      (((os.writeFile filePath content).mapError .system).map fun _ =>
        { exitCode := 0, stdout := "written", stderr := "", truncated := false })

/-- `await access(cwd)`, if there is a working directory. -/
def checkCwd (cwd : Option String) : Exec Unit :=
  match cwd.filter fun dir => dir ≠ "" with
  | none => pure ()
  | some dir => .perform (.access dir) ((os.access dir).mapError .system)

def runShell (command : String) (cwd : Option String) (timeoutSeconds : JsNumber) :
    Exec ExecResult := do
  checkCwd os cwd
  runCommand os (platformShell host command) cwd timeoutSeconds policy.maxOutputBytes

def runShellAsRoot (command : String) (cwd : Option String) (timeoutSeconds : JsNumber) :
    Exec ExecResult :=
  if host.windows then
    refuse .unsupportedPlatformOrPrivilege
      "Root execution requires an elevated Windows agent service"
  else if host.uid.any fun uid => uid ≠ 0 then
    runCommand os (platformShell host ("sudo -n /bin/sh -lc " ++ posixSingleQuote command)) cwd
      timeoutSeconds policy.maxOutputBytes
  else runShell host os policy command cwd timeoutSeconds

/-- An argument that is taken as a text. -/
def textArg (nt : NumberText) (action : ActionRequestEnvelope) (key : String) : Exec String :=
  .require .typeError ((((Value.obj action.args).member key).orElse (.str "")).toText nt)

/-- An argument that is taken as a number. -/
def numberArg (nt : NumberText) (action : ActionRequestEnvelope) (key : String) (default : ℕ) :
    Exec JsNumber :=
  .require .typeError ((((Value.obj action.args).member key).orElse (.int default)).toNumber nt)

/-- The argument `cwd`: a working directory, unless its value is falsy. -/
def cwdArg (nt : NumberText) (action : ActionRequestEnvelope) : Exec (Option String) :=
  let cwd := (Value.obj action.args).member "cwd"
  if cwd.truthy then .require .typeError ((cwd.toText nt).map some) else pure none

def executeAllowed (nt : NumberText) (action : ActionRequestEnvelope) : Exec ExecResult :=
  if !policy.capabilities action.capability then
    refuse .capabilityDenied ("Capability " ++ action.capability.text ++ " is not enabled")
  else do
    let wish ← numberArg nt action "timeout_seconds" policy.maxActionTimeoutSeconds
    let timeoutSeconds := wish.min (.ofInt policy.maxActionTimeoutSeconds)
    match action.tool with
    | .get_system_status => getSystemStatus host os policy timeoutSeconds
    | .tail_logs => do
      let target ← textArg nt action "unit_or_file"
      tailLogs host os policy target timeoutSeconds
    | .restart_service => do
      let service ← textArg nt action "service"
      restartService host os policy service timeoutSeconds
    | .docker_ps =>
      runCommand os { command := "docker", args := ["ps", "--format", "json"] } none timeoutSeconds
        policy.maxOutputBytes
    | .docker_logs => do
      let container ← textArg nt action "container"
      let lines ← numberArg nt action "lines" 100
      dockerLogs os policy nt container lines timeoutSeconds
    | .docker_restart => do
      let container ← textArg nt action "container"
      dockerRestart os policy container timeoutSeconds
    | .file_read => do
      let path ← textArg nt action "path"
      fileRead os policy path
    | .file_write => do
      let path ← textArg nt action "path"
      let content ← textArg nt action "content"
      fileWrite os policy path content
    | .run_shell => do
      let command ← textArg nt action "command"
      let cwd ← cwdArg nt action
      runShell host os policy command cwd timeoutSeconds
    | .run_shell_as_root => do
      let command ← textArg nt action "command"
      let cwd ← cwdArg nt action
      runShellAsRoot host os policy command cwd timeoutSeconds
    | tool => refuse .unsupportedPlatform ("Unsupported action " ++ tool.text)

end Tools

/-! ### Results -/

/-- The code that a result reports of a thrown value: the one it carries, or `INTERNAL_ERROR`. -/
def Failure.code : Failure → String
  | .refused code _ => code.text
  | .typeError => RemoteErrorCode.internalError.text
  | .system e => e.code.getD RemoteErrorCode.internalError.text

def Failure.message : Failure → String
  | .refused _ message => message
  | .typeError => "Cannot convert object to primitive value"
  | .system e => e.message

/-- A result as the agent builds it: its error code is a text that nothing has checked. -/
structure AgentResult where
  action_id : String
  agent_id : String
  nonce : String
  status : ResultStatus
  exit_code : Option UInt32
  stdout : Option String
  stderr : Option String
  started_at : String
  finished_at : String
  truncated : Bool
  error_code : Option String
  message : Option String
  signature : String
deriving DecidableEq, Repr

def AgentResult.toFields (r : AgentResult) : Fields :=
  [("type", .str "action.result"), ("action_id", .str r.action_id), ("agent_id", .str r.agent_id),
    ("nonce", .str r.nonce), ("status", .str r.status.text),
    ("exit_code", optionalMember (fun n => .int n.toNat) r.exit_code),
    ("stdout", optionalMember Value.str r.stdout), ("stderr", optionalMember Value.str r.stderr),
    ("started_at", .str r.started_at), ("finished_at", .str r.finished_at),
    ("truncated", .bool r.truncated), ("error_code", optionalMember Value.str r.error_code),
    ("message", optionalMember Value.str r.message), ("signature", .str r.signature)]

/-- What an execution takes from the clock and the random source. -/
structure ExecMoment where
  startedAt : ℤ
  finishedAt : ℤ
  /-- `randomToken(16)`. -/
  nonce : String

/-- The result of an execution, before it is signed. -/
def unsignedResult (platform : Platform) (t : ExecMoment) (action : ActionRequestEnvelope)
    (result : Except Failure ExecResult) : AgentResult :=
  { action_id := action.action_id
    agent_id := action.agent_id
    nonce := t.nonce
    status := match result with
      | .ok _ => .ok
      | .error _ => .error
    exit_code := result.toOption.map (·.exitCode)
    stdout := result.toOption.map (·.stdout)
    stderr := result.toOption.map (·.stderr)
    started_at := platform.toISOString t.startedAt
    finished_at := platform.toISOString t.finishedAt
    truncated := match result with
      | .ok r => r.truncated
      | .error _ => false
    error_code := match result with
      | .ok _ => none
      | .error e => some e.code
    message := match result with
      | .ok _ => none
      | .error e => some e.message
    signature := "" }

def signResult (platform : Platform) (privateKeyPem : String) (result : AgentResult) :
    AgentResult :=
  { result with signature := signEnvelope platform result.toFields privateKeyPem }

def execute (platform : Platform) (host : Host) (os : Os) (policy : AgentPolicy)
    (privateKeyPem : String) (t : ExecMoment) (action : ActionRequestEnvelope) : AgentResult :=
  signResult platform privateKeyPem
    (unsignedResult platform t action
      (executeAllowed host os policy platform.numberText action).result)

end Remote
