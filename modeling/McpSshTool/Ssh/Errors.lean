import Mathlib.Data.List.Basic

/-!
# Errors of the SSH server

`errors.ts`: the structured errors of the server, and what else its services see thrown.

* `SshMcpError` — an error of the server, with the texts that `errors.ts` gives each code;
* `Failure` — a thrown value: an error of the server, or one of a library with its `code`;
* `wrapError` — how a service turns the second into the first.
-/

namespace Ssh

inductive ErrorCode where
  | EAUTH | ECONN | ETIMEOUT | ENOSUDO | EPMGR | EFS | EPATCH | EBADREQ | EPOLICY | EHOSTKEY
  | ELIMIT
  | EUNSUPPORTED
deriving DecidableEq, Repr

/-- The value of the enumeration. -/
def ErrorCode.text : ErrorCode → String
  | EAUTH => "EAUTH"
  | ECONN => "ECONN"
  | ETIMEOUT => "ETIMEOUT"
  | ENOSUDO => "ENOSUDO"
  | EPMGR => "EPMGR"
  | EFS => "EFS"
  | EPATCH => "EPATCH"
  | EBADREQ => "EBADREQ"
  | EPOLICY => "EPOLICY"
  | EHOSTKEY => "EHOSTKEY"
  | ELIMIT => "ELIMIT"
  | EUNSUPPORTED => "EUNSUPPORTED"

structure SshMcpError where
  code : ErrorCode
  message : String
  hint : Option String
  userFriendlyMessage : String
  recoverable : Bool
  suggestedAction : String
deriving DecidableEq, Repr

/-- The `code` of an error of a library: a name, or the status of an SFTP answer. -/
inductive FailureCode where
  | named (name : String)
  | status (status : ℕ)
deriving DecidableEq, Repr

/-- A thrown value. -/
inductive Failure where
  | sshMcp (error : SshMcpError)
  /-- An error of a library or of the language. -/
  | other (code : Option FailureCode) (message : String)
  /-- The bound on the depth of a recursion was reached: this is how far the run was followed. -/
  | unfinished
deriving DecidableEq, Repr

/-- `new Error(message)`. -/
def plainError (message : String) : Failure := .other none message

def Failure.code : Failure → Option FailureCode
  | .sshMcp error => some (.named error.code.text)
  | .other code _ => code
  | .unfinished => none

def Failure.message : Failure → String
  | .sshMcp error => error.message
  | .other _ message => message
  | .unfinished => ""

/-- `${error}`, of an error that the server did not make. -/
def Failure.describe (e : Failure) : String :=
  if e.message = "" then "Error" else "Error: " ++ e.message

/-! ### The errors of the server -/

def createAuthError (message : String) (hint : Option String := none) : Failure :=
  .sshMcp {
    code := .EAUTH, message, hint
    userFriendlyMessage := "SSH authentication failed. Please check your credentials or SSH key."
    recoverable := true
    suggestedAction := "Use ssh_open_session with different auth method (password, key, or agent)" }

def createHostKeyError (message : String) (hint : Option String := none) : Failure :=
  .sshMcp {
    code := .EHOSTKEY, message, hint
    userFriendlyMessage := "SSH host key verification failed."
    recoverable := true
    suggestedAction := "Verify known_hosts or expectedHostKeySha256 before reconnecting" }

def createConnectionError (message : String) (hint : Option String := none) : Failure :=
  .sshMcp {
    code := .ECONN, message, hint
    userFriendlyMessage :=
      "Unable to connect to the SSH server. The server may be down or unreachable."
    recoverable := true
    suggestedAction := "Check network connectivity and verify host/port are correct" }

def createTimeoutError (message : String) (hint : Option String := none) : Failure :=
  .sshMcp {
    code := .ETIMEOUT, message, hint
    userFriendlyMessage := "The operation timed out. The server may be slow or unresponsive."
    recoverable := true
    suggestedAction := "Try increasing timeout or check server load" }

def createSudoError (message : String) (hint : Option String := none) : Failure :=
  .sshMcp {
    code := .ENOSUDO, message, hint
    userFriendlyMessage := "Root/sudo privileges are required but not available."
    recoverable := true
    suggestedAction := "Configure a restricted NOPASSWD sudoers profile for approved commands" }

def createPackageManagerError (message : String) (hint : Option String := none) : Failure :=
  .sshMcp {
    code := .EPMGR, message, hint
    userFriendlyMessage := "Package manager operation failed. Check if the package name is correct."
    recoverable := true
    suggestedAction := "Verify package name and try ensure_package with correct packageName" }

def createFilesystemError (message : String) (hint : Option String := none) : Failure :=
  .sshMcp {
    code := .EFS, message, hint
    userFriendlyMessage := "File system operation failed. Check path and permissions."
    recoverable := true
    suggestedAction := "Verify the path exists and you have proper permissions" }

def createPatchError (message : String) (hint : Option String := none) : Failure :=
  .sshMcp {
    code := .EPATCH, message, hint
    userFriendlyMessage := "Failed to apply text patch. The file content may have changed."
    recoverable := true
    suggestedAction := "Re-read the file with fs_read and try again with updated content" }

def createBadRequestError (message : String) (hint : Option String := none) : Failure :=
  .sshMcp {
    code := .EBADREQ, message, hint
    userFriendlyMessage := "Invalid request parameters."
    recoverable := false
    suggestedAction := "Check the parameter format and values" }

def createPolicyError (message : String) (hint : Option String := none) : Failure :=
  .sshMcp {
    code := .EPOLICY, message, hint
    userFriendlyMessage := "The operation was denied by the configured safety policy."
    recoverable := false
    suggestedAction :=
      "Review the policy or run the request in explain mode before changing guardrails" }

def createLimitError (message : String) (hint : Option String := none) : Failure :=
  .sshMcp {
    code := .ELIMIT, message, hint
    userFriendlyMessage := "The operation exceeded a configured safety limit."
    recoverable := false
    suggestedAction :=
      "Use a smaller request, transfer the file, or raise the configured limit intentionally" }

def wrapError (error : Failure) (code : ErrorCode) (hint : Option String) : Failure :=
  match error with
  | .other _ message =>
    .sshMcp {
      code, message, hint
      userFriendlyMessage := "An unexpected error occurred."
      recoverable := true
      suggestedAction := "Try the operation again or check server status" }
  | error => error

end Ssh
