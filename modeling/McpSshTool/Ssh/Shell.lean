import Mathlib.Data.Nat.Digits.Defs
import McpSshTool.Ssh.Errors

/-!
# Command lines

`shell.ts`: how a command becomes the text that the remote shell is given.

* `shellQuote`, `powerShellQuote` — a text as one word of the shell;
* `buildRemoteCommand`, `buildRemoteCommandWithTimeout`, `buildSudoCommand` — the command lines of
  the services. They fail on names that no environment variable can have.
-/

namespace Ssh

inductive Platform where
  | linux | darwin | windows | unknown
deriving DecidableEq, Repr

inductive ShellType where
  | bash | sh | powershell | cmd | unknown
deriving DecidableEq, Repr

inductive PackageManager where
  | apt | dnf | yum | pacman | apk | zypper | brew | choco | winget | unknown
deriving DecidableEq, Repr

inductive InitSystem where
  | systemd | service | launchd | windowsService | unknown
deriving DecidableEq, Repr

/-- What the services read of `OSInfo`. -/
structure OSInfo where
  platform : Platform
  packageManager : PackageManager
  init : InitSystem
  defaultShell : Option ShellType
  tempDir : Option String
deriving DecidableEq, Repr

/-- The environment of a command, in the order of its entries. -/
abbrev Environment := List (String × String)

/-- `value.replace(from, to)` for a regular expression that matches one character everywhere. -/
def replaceChar (value : String) (c : Char) (replacement : String) : String :=
  String.ofList (value.toList.flatMap fun d => if d = c then replacement.toList else [d])

/-- The apostrophe. -/
def apostrophe : Char := Char.ofNat 39

def shellQuote (value : String) : String :=
  "'" ++ replaceChar value apostrophe "'\"'\"'" ++ "'"

def powerShellQuote (value : String) : String := "'" ++ replaceChar value apostrophe "''" ++ "'"

/-- `POSIX_ENV_KEY_PATTERN.test(key)`. -/
def isPosixEnvKey (key : String) : Bool :=
  match key.toList with
  | [] => false
  | c :: cs => (c.isAlpha || c = '_') && cs.all fun d => d.isAlphanum || d = '_'

def assertValidEnvironment (env : Environment) : Except Failure Unit :=
  match env.find? fun entry => !isPosixEnvKey entry.1 with
  | some entry =>
    .error (plainError ("Invalid environment variable name: " ++
      (if entry.1 = "" then "<empty>" else entry.1) ++ ". Expected ^[A-Za-z_][A-Za-z0-9_]*$"))
  | none => .ok ()

/-- `cwd`, where it is neither absent nor empty. -/
def workingDirectory (cwd : Option String) : Option String := cwd.filter (· ≠ "")

def buildPosixCommand (command : String) (cwd : Option String) (env : Environment)
    (shellName : String) : Except Failure String := do
  assertValidEnvironment env
  let withEnv :=
    if env = [] then command
    else
      String.intercalate "; " (env.map fun entry =>
        "export " ++ entry.1 ++ "=" ++ shellQuote entry.2) ++ "; " ++ command
  let fullCommand :=
    match workingDirectory cwd with
    | some cwd => "cd " ++ shellQuote cwd ++ " && " ++ withEnv
    | none => withEnv
  pure (shellName ++ " -lc " ++ shellQuote fullCommand)

def buildPowerShellCommand (command : String) (cwd : Option String) (env : Environment) :
    Except Failure String := do
  assertValidEnvironment env
  let envPrefix :=
    if env = [] then ""
    else
      String.intercalate "; " (env.map fun entry =>
        "$env:" ++ entry.1 ++ " = " ++ powerShellQuote entry.2) ++ "; "
  let cwdPrefix :=
    match workingDirectory cwd with
    | some cwd => "Set-Location -Path " ++ powerShellQuote cwd ++ "; "
    | none => ""
  pure ("powershell -NoLogo -NoProfile -NonInteractive -ExecutionPolicy Bypass -Command " ++
    powerShellQuote (envPrefix ++ cwdPrefix ++ command))

/-- The name of the shell that a POSIX host is given commands for. -/
def OSInfo.shellName (osInfo : OSInfo) : String :=
  if osInfo.defaultShell = some .bash then "bash" else "sh"

def buildRemoteCommand (command : String) (osInfo : OSInfo) (cwd : Option String := none)
    (env : Environment := []) : Except Failure String :=
  if osInfo.platform = .windows then buildPowerShellCommand command cwd env
  else buildPosixCommand command cwd env osInfo.shellName

def buildRemoteCommandWithTimeout (command : String) (osInfo : OSInfo) (timeoutMs : ℕ)
    (cwd : Option String) (env : Environment) : Except Failure String := do
  let remoteCommand ← buildRemoteCommand command osInfo cwd env
  if osInfo.platform = .windows then pure remoteCommand
  else
    let timeoutSeconds := max 1 ((timeoutMs + 999) / 1000)
    pure (String.intercalate " "
      ["if command -v timeout >/dev/null 2>&1; then",
        "timeout -k 2s " ++ toString timeoutSeconds ++ "s " ++ remoteCommand ++ ";",
        "else", remoteCommand ++ ";", "fi"])

def buildSudoCommand (command : String) (osInfo : OSInfo) (cwd : Option String) :
    Except Failure String :=
  if osInfo.platform = .windows then .error (plainError "Sudo is not supported on Windows hosts")
  else
    let sudoCommand :=
      match workingDirectory cwd with
      | some cwd => "cd " ++ shellQuote cwd ++ " && " ++ command
      | none => command
    buildPosixCommand ("sudo -n " ++ sudoCommand) none [] osInfo.shellName

/-- `value.replace(/\\\\/g, "/").replace(/\\/g, "/")`: a pair of backslashes becomes one slash, and
so does a single one. -/
def slashBackslashes : List Char → List Char
  | '\\' :: '\\' :: cs => '/' :: slashBackslashes cs
  | '\\' :: cs => '/' :: slashBackslashes cs
  | c :: cs => c :: slashBackslashes cs
  | [] => []

def resolveRemoteTempDir (osInfo : OSInfo) : String :=
  match osInfo.tempDir.filter (· ≠ "") with
  | some tempDir => String.ofList (slashBackslashes tempDir.toList)
  | none => if osInfo.platform = .windows then "C:/Windows/Temp" else "/tmp"

/-! ### Without an environment -/

theorem buildRemoteCommand_ok (command : String) (osInfo : OSInfo) (cwd : Option String) :
    ∃ text, buildRemoteCommand command osInfo cwd = .ok text := by
  unfold buildRemoteCommand
  split
  · exact ⟨_, rfl⟩
  · exact ⟨_, rfl⟩

end Ssh
