import McpSshTool.Ssh.FsTools

/-!
# The process and streaming services

`process.ts` and `streaming.ts`: commands of a request, run plainly, under sudo, through a shell
that the host has, or with their output as it comes.
-/

open Library

namespace Ssh

structure ExecResult where
  code : ℕ
  stdout : String
  stderr : String
  durationMs : ℕ

structure SudoPolicyOptions where
  policyAction : Option PolicyAction := none
  rawSudo : Option Bool := none
  path : Option String := none
  destructive : Option Bool := none

/-! ### Output -/

/-- As many leading characters as fit into a number of bytes. -/
def takeBytes (budget : ℕ) : List Char → List Char
  | [] => []
  | c :: cs => if c.utf8Size > budget then [] else c :: takeBytes (budget - c.utf8Size) cs

def truncateText (value : String) (maxBytes : ℕ) : String :=
  if value.utf8ByteSize ≤ maxBytes then value
  else
    let marker := "\n[ssh-mcp-tool: output truncated after " ++ toString maxBytes ++ " bytes]\n"
    String.ofList (takeBytes (maxBytes - marker.utf8ByteSize) value.toList) ++ marker

/-- The text of a mode. -/
def PolicyMode.text : PolicyMode → String
  | enforce => "enforce"
  | explain => "explain"

/-- A line of an indented object, without the comma. -/
def jsonLine (indent key value : String) : String := indent ++ JsText.quote key ++ ": " ++ value

/-- `JSON.stringify({ wouldExecute: true, command, sudo?, policy: decision }, null, 2)`. -/
def explanation (command : String) (underSudo : Bool) (decision : PolicyDecision) : String :=
  let optional (key : String) (value : Option String) : List String :=
    value.toList.map fun value => jsonLine "    " key (JsText.quote value)
  let policy :=
    [jsonLine "    " "mode" (JsText.quote decision.mode.text),
      jsonLine "    " "action" (JsText.quote decision.action.text)] ++
    optional "reason" decision.reason ++ optional "hint" decision.hint ++
    optional "riskLevel" decision.riskLevel ++
    [jsonLine "    " "allowed" (toString decision.allowed)]
  "\x7b\n" ++ String.intercalate ",\n"
    ([jsonLine "  " "wouldExecute" "true", jsonLine "  " "command" (JsText.quote command)] ++
      (if underSudo then [jsonLine "  " "sudo" "true"] else []) ++
      [jsonLine "  " "policy" ("\x7b\n" ++ String.intercalate ",\n" policy ++ "\n  \x7d")]) ++
        "\n\x7d"

/-- `value.includes(part)`. -/
def includes (value part : String) : Bool := decide (part.toList <:+: value.toList)

/-- The exit codes of a command that was ended for its time. -/
def terminationCodes : List ℕ := [124, 137, 143]

/-! ### The process service -/

section Process

variable {rt : Runtime} (engine : PolicyEngine rt) (config : ServerConfig)

def execCommand (sessionId : String) (script : Script) (cwd : Option String := none)
    (env : Environment := []) (timeoutMs : Option ℕ := none) : Task ExecResult := do
  let session ← getSession sessionId
  let decision ← Program.ofExcept (engine.assertAllowed
    { action := .procExec, command := some script.text, mode := some session.policyMode })
  if decision.mode = .explain then
    pure
      { code := 0, stdout := explanation script.text false decision, stderr := "", durationMs := 0 }
  else do
    let osInfo ← getOSInfo sessionId
    let started ← now
    let effectiveTimeoutMs := timeoutMs.getD config.commandTimeoutMs
    let body : Task ExecResult := do
      let shellCommand ← Program.ofExcept
        (buildRemoteCommandWithTimeout script.text osInfo effectiveTimeoutMs cwd env)
      let outcome ← (.perform (.execWithin script shellCommand effectiveTimeoutMs) .done :
        Task (Option CommandResult))
      match outcome with
      | none =>
        Program.throw (createTimeoutError
          ("Command timed out after " ++ toString effectiveTimeoutMs ++ "ms")
          (some "Increase timeout or optimize the command"))
      | some result => do
        let finished ← now
        if result.code.getD 0 ∈ terminationCodes then
          Program.throw (createTimeoutError
            ("Command timed out after " ++ toString effectiveTimeoutMs ++
              "ms and remote termination was requested")
            (some "Increase timeout or optimize the command"))
        else pure {
          code := result.code.getD 0
          stdout := truncateText result.stdout config.maxCommandOutputBytes
          stderr := truncateText result.stderr config.maxCommandOutputBytes
          durationMs := finished - started }
    body.tryCatch fun error =>
      if error.code = some (.named ErrorCode.ETIMEOUT.text) then Program.throw error
      else Program.throw
        (wrapError error .ECONN (some "Failed to execute command on remote system"))

/-- The context that `execSudo` asserts. -/
def sudoContext (script : Script) (mode : PolicyMode) (options : SudoPolicyOptions) :
    PolicyContext where
  action := options.policyAction.getD .procSudo
  command := some script.text
  mode := some mode
  rawSudo := options.rawSudo.getD true
  path := truthy options.path
  destructive := options.destructive.getD false

/-- Whether the host refused to run sudo without a password. -/
def isSudoRefusal (result : CommandResult) : Bool :=
  result.code.getD 0 ≠ 0 && result.stderr ≠ "" &&
    ["password", "authentication", "sorry"].any fun word =>
      includes (JsText.toLowerCase result.stderr) word

def execSudo (sessionId : String) (script : Script) (password : Option String := none)
    (cwd : Option String := none) (timeoutMs : Option ℕ := none)
    (policyOptions : SudoPolicyOptions := {}) : Task ExecResult := do
  let session ← getSession sessionId
  let decision ← Program.ofExcept
    (engine.assertAllowed (sudoContext script session.policyMode policyOptions))
  if decision.mode = .explain then
    pure
      { code := 0, stdout := explanation script.text true decision, stderr := "", durationMs := 0 }
  else do
    let osInfo ← getOSInfo sessionId
    if osInfo.platform = .windows then
      Program.throw (createSudoError "Sudo is not supported on Windows hosts"
        (some "Use an elevated session instead of sudo commands"))
    else do
      let started ← now
      let effectiveTimeoutMs := timeoutMs.getD config.commandTimeoutMs
      let body : Task ExecResult :=
        -- a password is refused before any command is built
        if password.isSome then
          Program.throw (createSudoError "Password-based sudo through MCP inputs is disabled"
            (some "Configure a restricted NOPASSWD sudoers allowlist for approved commands."))
        else do
          let fullCommand ← Program.ofExcept (buildSudoCommand script.text osInfo cwd)
          let outcome ← (.perform (.execSudo script fullCommand effectiveTimeoutMs) .done :
            Task (Option CommandResult))
          match outcome with
          | none =>
            Program.throw (createTimeoutError
              ("Sudo command timed out after " ++ toString effectiveTimeoutMs ++ "ms")
              (some "Increase timeout or optimize the command"))
          | some result =>
            if isSudoRefusal result then
              Program.throw (createSudoError "Sudo authentication failed"
                (some "Configure a restricted NOPASSWD sudoers profile for approved commands."))
            else do
              let finished ← now
              pure {
                code := result.code.getD 0
                stdout := truncateText result.stdout config.maxCommandOutputBytes
                stderr := truncateText result.stderr config.maxCommandOutputBytes
                durationMs := finished - started }
      body.tryCatch fun error =>
        if error.code = some (.named ErrorCode.ETIMEOUT.text) then Program.throw error
        -- an error that speaks of sudo keeps its own code
        else if includes error.message "sudo" then Program.throw error
        else Program.throw
          (wrapError error .ENOSUDO (some "Failed to execute sudo command on remote system"))

def commandExists (sessionId command : String) : Task Bool :=
  let body : Task Bool := do
    let result ← execCommand engine config sessionId (.which command)
    pure (result.code = 0)
  body.tryCatch fun _ => pure false

/-- The loop of `getAvailableShell`. -/
def firstShell (sessionId : String) : List String → Task String
  | [] => pure "sh"
  | shell :: shells => do
    let found ← commandExists engine config sessionId shell
    if found then pure shell else firstShell sessionId shells

def getAvailableShell (sessionId : String) : Task String :=
  firstShell engine config sessionId ["bash", "zsh", "sh"]

def execWithShell (sessionId command : String) (cwd : Option String := none)
    (env : Environment := []) : Task ExecResult := do
  let shell ← getAvailableShell engine config sessionId
  let withEnv :=
    if env = [] then command
    else
      String.intercalate " " (env.map fun entry => entry.1 ++ "=" ++ JsText.quote entry.2) ++ " " ++
        command
  let fullCommand :=
    match workingDirectory cwd with
    | some cwd => "cd " ++ JsText.quote cwd ++ " && " ++ withEnv
    | none => withEnv
  execCommand engine config sessionId (.command (shell ++ " -lc " ++ JsText.quote fullCommand))

/-! ### The streaming service -/

inductive StreamChunk where
  | output (stream : OutputStream) (data : String) (timestamp : ℕ)
  | truncated (timestamp : ℕ)
  | exit (code : ℕ) (timestamp : ℕ)

structure StreamResult where
  code : ℕ
  chunks : List StreamChunk
  stdout : String
  stderr : String
  durationMs : ℕ
  truncated : Bool

def appendBounded (current data : String) (maxBytes : ℕ) : String × Bool :=
  let remaining : ℤ := maxBytes - current.utf8ByteSize
  if remaining ≤ 0 then (current, data ≠ "")
  else if data.utf8ByteSize ≤ remaining then (current ++ data, false)
  else (current ++ String.ofList (takeBytes remaining.toNat data.toList), true)

/-- What the event handlers of a stream have gathered. -/
structure StreamState where
  fullStdout : String := ""
  fullStderr : String := ""
  truncated : Bool := false
  chunks : List StreamChunk := []

/-- `onStdout` and `onStderr`. -/
def onData (rt : Runtime) (config : ServerConfig) (state : StreamState) (event : StreamEvent) :
    StreamState :=
  let data := rt.bufferText "utf8" event.data
  let current :=
    match event.stream with
    | .stdout => state.fullStdout
    | .stderr => state.fullStderr
  let bounded := appendBounded current data config.maxCommandOutputBytes
  { fullStdout := if event.stream = .stdout then bounded.1 else state.fullStdout
    fullStderr := if event.stream = .stderr then bounded.1 else state.fullStderr
    truncated := state.truncated || bounded.2 || state.chunks.length ≥ config.maxStreamChunks
    chunks :=
      if state.chunks.length < config.maxStreamChunks ∧ !bounded.2 then
        state.chunks ++ [.output event.stream data event.timestamp]
      else state.chunks }

def execWithStreaming (sessionId command : String) (cwd : Option String := none)
    (env : Environment := []) (timeoutMs : Option ℕ := none) : Task StreamResult := do
  let session ← getSession sessionId
  let decision ← Program.ofExcept (engine.assertAllowed
    { action := .procExec, command := some command, mode := some session.policyMode })
  if decision.mode = .explain then
    pure {
      code := 0, chunks := [], stdout := explanation command false decision, stderr := ""
      durationMs := 0, truncated := false }
  else do
    let osInfo ← getOSInfo sessionId
    let startTime ← now
    let shellCommand ← Program.ofExcept (buildRemoteCommand command osInfo cwd env)
    let effectiveTimeoutMs := timeoutMs.getD config.commandTimeoutMs
    let outcome ← (.perform
      (.execStreaming (.command command) shellCommand effectiveTimeoutMs) .done :
        Task (Option StreamOutcome))
    match outcome with
    | none =>
      Program.throw (createTimeoutError
        ("Streaming command timed out after " ++ toString effectiveTimeoutMs ++ "ms")
        (some "Increase timeout or use a shorter streaming command."))
    | some outcome => do
      let state := outcome.events.foldl (onData rt config) {}
      let time ← now
      let chunks := if state.truncated then state.chunks ++ [.truncated time] else state.chunks
      let exitTime ← now
      let endTime ← now
      pure {
        code := outcome.code.getD 0
        chunks := chunks ++ [.exit (outcome.code.getD 0) exitTime]
        stdout := state.fullStdout, stderr := state.fullStderr
        durationMs := endTime - startTime, truncated := state.truncated }

end Process
end Ssh
