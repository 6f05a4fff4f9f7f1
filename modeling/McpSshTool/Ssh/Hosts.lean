import McpSshTool.Library.Execution
import McpSshTool.Ssh.FsTools

/-!
# Hosts that answer

What the environments of the filesystem service have in common.

* `refused` — the answer to what a host does not know;
* `ends_wrapping` — the run of a part whose errors are wrapped.
-/

open Library

namespace Ssh

open Program

def noSuchFile : Failure := .other (some (.status 2)) "No such file"

def sftpFailure : Failure := .other (some (.status 4)) "Failure"

/-- The answer to what the host does not know. -/
def refused : (op : Operation) → Answer op
  | .getSession _ => none
  | .randomUUID => ""
  | .now => (0 : ℕ)
  | .localFiles _ => fun _ => none
  | .getOSInfo _ | .exec _ _ | .execSudo _ _ _ | .execWithin _ _ _ | .execStreaming _ _ _
  | .sftpReadFile _ | .sftpWriteFile _ _ | .sftpStat _ | .sftpReaddir _ | .sftpMkdir _
  | .sftpRmdir _ | .sftpUnlink _ | .sftpRename _ _ | .sftpChmod _ _ | .localRealpath _
  | .localStat _ | .localReadFile _ | .localCreateFile _ _ | .localRemove _ | .localRename _ _
  | .listen _ _ | .forwardIn _ _ => .error sftpFailure

theorem ends_wrapping {σ α : Type} {handle : σ → (op : Operation) → σ × Answer op} {hint : String}
    {body : Task α} {s : σ} {Q : σ → Except Failure α → Prop} :
    Ends handle (wrapping hint body) s Q ↔
      Ends handle body s fun s' result => Q s' (result.mapError fun e =>
        wrapError e .EFS hint) := by
  unfold Ends wrapping Program.tryCatch
  rw [execute_andThen]
  cases (execute handle body s).2 with
  | ok => exact Iff.rfl
  | error => exact Iff.rfl

theorem wrapError_eq_unfinished {e : Failure} {code : ErrorCode} {hint : Option String}
    (h : wrapError e code hint = .unfinished) : e = .unfinished := by
  cases e with
  | sshMcp => cases h
  | other => cases h
  | unfinished => rfl

end Ssh
