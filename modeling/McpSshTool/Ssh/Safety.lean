import McpSshTool.Js.Text
import McpSshTool.Js.Utf8
import McpSshTool.Js.Value

/-!
# The runtime, and dangerous commands

* `Runtime` — what the server takes from its JavaScript engine and from its own machine;
* `checkCommandSafety` — the check of `safety.ts`.
-/

namespace Ssh

/-- What the server's code takes from its runtime. Regular expressions are the engine's: whatever a
pattern of the configuration matches, the model is about it. -/
structure Runtime where
  /-- `new RegExp(pattern, flags).test(value)`; `false` where the pattern does not compile. -/
  regExpTest : String → String → String → Bool
  /-- `Number(s)` and `String(n)`. -/
  numberText : NumberText
  /-- `buffer.toString(encoding)`. -/
  bufferText : String → List UInt8 → String
  /-- `createHash("sha256").update(data).digest("hex")`. -/
  sha256 : List UInt8 → String
  /-- `process.cwd()`. -/
  cwd : String
  /-- `fs.realpathSync.native(path)`, at the moment of the call; `none` where it throws. -/
  realpathSync : String → Option String

/-- A runtime in which no pattern matches and whose file system has no links. -/
def sampleRuntime : Runtime where
  regExpTest _ _ _ := false
  numberText := ⟨fun s => (s.toNat?).elim .nan fun n => .ofInt n, fun _ => ""⟩
  bufferText _ bytes := Utf8.decode bytes
  sha256 bytes := Utf8.decode bytes
  cwd := "/"
  realpathSync path := some path

/-- The sample runtime, with numbers in decimal digits. -/
def decimalRuntime : Runtime :=
  { sampleRuntime with
    numberText := ⟨fun text =>
      if text.toList ≠ [] ∧ text.toList.all Char.isDigit then
        .ofInt (text.toList.foldl (fun n c => 10 * n + (c.toNat - '0'.toNat)) 0 : ℕ)
      else .nan, fun _ => ""⟩ }

/-! ### Dangerous commands -/

/-- A member of `DANGEROUS_PATTERNS`. Each pattern has the flag `i`. -/
structure DangerousPattern where
  pattern : String
  riskLevel : String
  warning : String
  suggestion : String

/-- `DANGEROUS_PATTERNS`. -/
def dangerousPatterns : List DangerousPattern :=
  [⟨"rm\\s+(-rf?|--recursive)\\s+\\/\\s*$", "critical",
      "This command will delete the entire root filesystem!",
      "Double-check the path before executing"⟩,
    ⟨"rm\\s+(-rf?|--recursive)\\s+\\/\\*\\s*$", "critical",
      "This command will delete all files in the root directory!",
      "Double-check the path before executing"⟩,
    ⟨"mkfs\\.", "critical", "This command will format a filesystem, causing data loss!",
      "Verify the target device carefully"⟩,
    ⟨"dd\\s+.*of=\\/dev\\/(sd|hd|nvme|vd)", "critical",
      "This command writes directly to a disk device!",
      "Verify input and output devices before executing"⟩,
    ⟨"chmod\\s+(-R\\s+)?777\\s+\\/", "high", "Setting 777 permissions on root is a security risk!",
      "Use more restrictive permissions"⟩,
    ⟨"chown\\s+-R\\s+.*\\s+\\/\\s*$", "high", "Changing ownership of root directory recursively!",
      "Verify the target path"⟩,
    ⟨":\\(\\)\\\x7b\\s*:\\|:&\\s*\\\x7d;\\s*:", "critical",
      "Fork bomb detected! This will crash the system!", "Do not execute this command"⟩,
    ⟨">\\s*\\/dev\\/sd[a-z]$", "critical", "Writing directly to disk device!",
      "Verify the target device"⟩,
    ⟨"shutdown|reboot|init\\s+[0-6]|poweroff", "medium",
      "This command will shutdown or reboot the system",
      "Ensure you have physical or out-of-band access"⟩,
    ⟨"systemctl\\s+(stop|disable)\\s+(sshd|ssh|networking|network)", "high",
      "Stopping this service may disconnect your SSH session!",
      "Have alternative access method ready"⟩,
    ⟨"iptables\\s+-F", "medium", "Flushing firewall rules may expose the system",
      "Have a backup of current rules"⟩,
    ⟨"ufw\\s+disable", "medium", "Disabling firewall will expose all ports",
      "Consider using specific allow rules instead"⟩,
    ⟨"rm\\s+(-rf?|--recursive)\\s+\\.\\s*$", "low",
      "This will delete the current directory recursively",
      "Verify you are in the correct directory"⟩,
    ⟨">\\s*\\/etc\\/(passwd|shadow|sudoers)", "high", "Overwriting critical system file!",
      "Use proper editing tools like visudo"⟩,
    ⟨"curl\\s+.*\\|\\s*(sudo\\s+)?(bash|sh)", "medium", "Piping remote script directly to shell",
      "Review the script before executing"⟩,
    ⟨"wget\\s+.*\\|\\s*(sudo\\s+)?(bash|sh)", "medium", "Piping remote script directly to shell",
      "Review the script before executing"⟩]

/-- `checkCommandSafety`: the first dangerous pattern that the command matches. -/
def checkCommandSafety (rt : Runtime) (command : String) : Option DangerousPattern :=
  if command = "" then none
  else dangerousPatterns.find? fun p => rt.regExpTest p.pattern "i" (JsText.trim command)

end Ssh
