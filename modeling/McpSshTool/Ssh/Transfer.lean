import McpSshTool.Ssh.FsTools

/-!
# The transfer service

`transfer.ts`: whole files between the server's own machine and the remote host.

* `authorizeLocalReadPath`, `authorizeLocalWritePath` — local paths are resolved by the local file
  system, and the policy is asked about what they resolve to;
* `uploadFileWithProgress`, `downloadFileWithProgress` — the transfers, which compare digests.
-/

open Library LexicalPath

namespace Ssh

structure TransferResult where
  success : Bool
  filename : String
  size : ℕ
  durationMs : ℕ
  averageSpeed : ℚ
  sha256 : String
  verified : Bool

structure LocalWritePath where
  absolutePath : String
  canonicalPath : String
  parentCanonicalPath : String
  action : PolicyAction

/-! ### Local paths -/

/-- `path.resolve(value)`. -/
def resolveLocal (rt : Runtime) (value : String) : String :=
  locationText (resolve (walk [] rt.cwd.toList) value.toList)

/-- `path.basename(value)`. -/
def basename (value : String) : String :=
  String.ofList (((segments value.toList).filter (· ≠ [])).getLast?.getD [])

/-- `path.dirname(value)`, of a resolved path. -/
def dirname (value : String) : String := locationText (walk [] value.toList).dropLast

/-- `path.join(parent, name)`. -/
def joinPath (parent name : String) : String :=
  String.ofList (normalize (if name = "" then parent.toList else parent.toList ++ '/' ::
    name.toList))

def validateLocalPathInput (localPath : String) : Except Failure Unit :=
  if JsText.trim localPath = "" then .error (createFilesystemError "Local path must not be empty")
  else if Char.ofNat 0 ∈ localPath.toList then
    .error (createFilesystemError "Local path contains NUL byte")
  else .ok ()

def resolveAbsoluteLocalPath (rt : Runtime) (localPath : String) : Except Failure String := do
  validateLocalPathInput localPath
  pure (resolveLocal rt localPath)

def isMissingPathError (error : Failure) : Bool := error.code = some (.named "ENOENT")

/-- `fs.promises.realpath`. -/
def localRealpath (path : String) : Task String := .perform (.localRealpath path) .done

def resolveLocalReadPath (rt : Runtime) (localPath : String) : Task String := do
  let absolutePath ← Program.ofExcept (resolveAbsoluteLocalPath rt localPath)
  (localRealpath absolutePath).tryCatch fun error =>
    Program.throw (createFilesystemError
      ("Local path " ++ localPath ++ " could not be resolved for reading") (some error.message))

def resolveLocalWritePath (rt : Runtime) (localPath : String) : Task LocalWritePath := do
  let absolutePath ← Program.ofExcept (resolveAbsoluteLocalPath rt localPath)
  let parentPath := dirname absolutePath
  let parentCanonicalPath ← (localRealpath parentPath).tryCatch fun error =>
    Program.throw (createFilesystemError
      ("Local parent directory " ++ parentPath ++ " could not be resolved for writing")
      (some error.message))
  let overwrite : Task LocalWritePath := do
    let targetCanonicalPath ← localRealpath absolutePath
    pure {
      absolutePath, canonicalPath := targetCanonicalPath, parentCanonicalPath
      action := .transferLocalOverwrite }
  overwrite.tryCatch fun error =>
    if !isMissingPathError error then
      Program.throw (createFilesystemError
        ("Local path " ++ localPath ++ " could not be resolved for writing") (some error.message))
    else pure {
      absolutePath, canonicalPath := joinPath parentCanonicalPath (basename absolutePath)
      parentCanonicalPath, action := .transferLocalCreate }

section Service

variable {rt : Runtime} (engine : PolicyEngine rt) (config : ServerConfig)

/-- `policy.assertAllowed`, of an action on local paths: the local file system is read at that
moment. -/
def assertLocalAllowed (context : PolicyContext) : Task PolicyDecision :=
  .perform (.localFiles context) fun files => .done (engine.assertAllowedWith files context)

def authorizeLocalReadPath (localPath : String) (mode : PolicyMode) : Task String := do
  let canonicalPath ← resolveLocalReadPath rt localPath
  let _ ← assertLocalAllowed engine
    { action := .transferLocalRead, path := some canonicalPath, mode := some mode }
  pure canonicalPath

def authorizeLocalWritePath (localPath : String) (mode : PolicyMode) : Task LocalWritePath := do
  let resolved ← resolveLocalWritePath rt localPath
  let _ ← assertLocalAllowed engine {
    action := resolved.action, path := some resolved.canonicalPath
    secondaryPath := some resolved.parentCanonicalPath, mode := some mode }
  pure resolved

/-! ### Transfers -/

def localStat (path : String) : Task ℕ := .perform (.localStat path) .done

def localReadFile (path : String) : Task (List UInt8) := .perform (.localReadFile path) .done

def localCreateFile (path : String) (data : List UInt8) : Task Unit :=
  .perform (.localCreateFile path data) .done

def localRemove (path : String) : Task Unit := .perform (.localRemove path) .done

def localRename (source target : String) : Task Unit := .perform (.localRename source target) .done

/-- A session with an SFTP channel, or an error. -/
def transferSession (sessionId : String) : Task Session := do
  let session ← sessionOr (createFilesystemError "Session not found or expired") sessionId
  if !session.sftp then
    Program.throw (createFilesystemError "SFTP subsystem is unavailable for this session")
  else pure session

/-- What a transfer answers in mode `explain`. -/
def explainedTransfer (filename : String) : TransferResult where
  success := true
  filename := filename
  size := 0
  durationMs := 0
  averageSpeed := 0
  sha256 := ""
  verified := false

/-- The error of a file that is larger than a transfer may be. -/
def transferTooLarge (config : ServerConfig) : Failure :=
  createFilesystemError
    ("Transfer exceeds maxTransferBytes (" ++ toString config.maxTransferBytes ++ ")")
    (some "Use a smaller file or raise SSH_MCP_MAX_TRANSFER_BYTES intentionally.")

/-- The result of a transfer that was verified. -/
def verifiedTransfer (filename : String) (size startTime : ℕ) (sha256 : String) :
    Task TransferResult := do
  let endTime ← now
  let durationMs := endTime - startTime
  pure {
    success := true, filename, size, durationMs
    averageSpeed := (size : ℚ) / (((if durationMs = 0 then 1 else durationMs) : ℚ) / 1000)
    sha256, verified := true }

/-- A transfer whose errors are turned into those of the server. -/
def transferring (what : String) (body : Task TransferResult) : Task TransferResult :=
  body.tryCatch fun error =>
    match error with
    | .sshMcp _ => Program.throw error
    | error =>
      Program.throw (createFilesystemError ("Failed to " ++ what ++ ": " ++ error.describe))

def uploadFileWithProgress (localPath remotePath sessionId : String) : Task TransferResult := do
  let session ← transferSession sessionId
  let decision ← Program.ofExcept (engine.assertAllowed
    { action := .transferUpload, path := some remotePath, mode := some session.policyMode })
  if decision.mode = .explain then pure (explainedTransfer (basename localPath))
  else do
    let canonicalLocalPath ← authorizeLocalReadPath engine localPath session.policyMode
    let startTime ← now
    transferring ("upload " ++ localPath) do
      let totalSize ← localStat canonicalLocalPath
      if totalSize > config.maxTransferBytes then Program.throw (transferTooLarge config)
      else do
        let fileContent ← localReadFile canonicalLocalPath
        let localSha256 := rt.sha256 fileContent
        sftpWriteFile remotePath fileContent
        let remoteContent ← sftpReadFile remotePath
        if localSha256 ≠ rt.sha256 remoteContent then
          Program.throw (createFilesystemError ("Transfer verification failed for " ++ remotePath)
            (some "Remote SHA-256 does not match the local file after upload"))
        else verifiedTransfer (basename canonicalLocalPath) totalSize startTime localSha256

def downloadFileWithProgress (remotePath localPath sessionId : String) : Task TransferResult := do
  let session ← transferSession sessionId
  let decision ← Program.ofExcept (engine.assertAllowed
    { action := .transferDownload, path := some remotePath, mode := some session.policyMode })
  if decision.mode = .explain then pure (explainedTransfer (basename remotePath))
  else do
    let startTime ← now
    transferring ("download " ++ remotePath) do
      let targetPath ← authorizeLocalWritePath engine localPath session.policyMode
      let stats ← sftpStat remotePath
      let totalSize := stats.size.getD 0
      if totalSize > config.maxTransferBytes then Program.throw (transferTooLarge config)
      else do
        let data ← sftpReadFile remotePath
        let remoteSha256 := rt.sha256 data
        let time ← now
        let tempLocalPath := targetPath.absolutePath ++ ".tmp." ++ toString time
        let tempPath ← authorizeLocalWritePath engine tempLocalPath session.policyMode
        localCreateFile tempPath.absolutePath data
        let tempReadPath ← authorizeLocalReadPath engine tempPath.absolutePath session.policyMode
        let localData ← localReadFile tempReadPath
        if remoteSha256 ≠ rt.sha256 localData then do
          localRemove tempPath.absolutePath
          Program.throw (createFilesystemError ("Transfer verification failed for " ++ remotePath)
            (some "Local SHA-256 does not match the remote file after download"))
        else do
          let finalTargetPath ← authorizeLocalWritePath engine localPath session.policyMode
          localRename tempPath.absolutePath finalTargetPath.absolutePath
          verifiedTransfer (basename remotePath) totalSize startTime remoteSha256

end Service
end Ssh
