import McpSshTool.Ssh.Operations

/-!
# The filesystem service

`fs-tools.ts`: the structured filesystem operations, over SFTP where the session has it and through
the shell otherwise.

* the SFTP helpers, with the recursive creation and removal of directories. The recursion of a
  removal goes as deep as the host lists directories, so it is followed to a given depth;
* `readFile`, `writeFile`, `statFile`, `listDirectory`, `makeDirectories`, `removeRecursive`,
  `renameFile` and the probes over `statFile`.
-/

open Library

namespace Ssh

/-- What the services read of `ServerConfig`. -/
structure ServerConfig where
  maxFileSize : ℕ
  maxFileWriteBytes : ℕ
  maxTransferBytes : ℕ
  commandTimeoutMs : ℕ
  maxCommandOutputBytes : ℕ
  maxStreamChunks : ℕ

/-- The `shellQuote` of `fs-tools.ts`. -/
def FsTools.shellQuote (value : String) : String :=
  "'" ++ replaceChar value apostrophe "'\"'\"'" ++ "'"

structure FileStatInfo where
  size : JsNumber
  mtime : JsNumber
  mode : Option ℤ
  type : String

structure DirEntry where
  name : String
  type : String
  size : Option JsNumber
  mtime : JsNumber
  mode : Option ℕ

structure DirListResult where
  entries : List DirEntry
  nextToken : Option String

/-! ### Text of the remote host -/

/-- `value.split(c)`. -/
def splitText (value : String) (c : Char) : List String :=
  (value.toList.splitOn c).map String.ofList

/-- `value.split(/\r?\n/)`. -/
def splitLines (value : String) : List String :=
  let lines := value.toList.splitOn '\n'
  (lines.dropLast.map (fun line => if line.getLast? = some '\r' then line.dropLast else line) ++
    lines.getLast?.toList).map String.ofList

/-- `parseInt(value, 8)`; `none` is `NaN`. -/
def parseOctal (value : String) : Option ℤ :=
  let trimmed := value.toList.dropWhile JsText.isSpace
  let (sign, rest) : ℤ × List Char :=
    match trimmed with
    | '-' :: cs => (-1, cs)
    | '+' :: cs => (1, cs)
    | cs => (1, cs)
  match rest.takeWhile fun c => '0' ≤ c ∧ c ≤ '7' with
  | [] => none
  | digits => some (sign * digits.foldl (fun n c => 8 * n + (c.toNat - '0'.toNat : ℕ)) 0)

/-- `seconds * 1000`. -/
def toMilliseconds : JsNumber → JsNumber
  | .fin q => .fin (1000 * q)
  | n => n

/-- `size > limit`. -/
def exceeds (size : JsNumber) (limit : ℕ) : Bool :=
  match size with
  | .fin q => (limit : ℚ) < q
  | .posInf => true
  | _ => false

/-- The text of a file type. -/
def FileType.text : FileType → String
  | file => "file"
  | directory => "directory"
  | symlink => "symlink"
  | other => "other"

/-- The type in a mode, by its mask. -/
def modeType (mode : ℕ) : FileType :=
  if mode &&& 0o170000 = 0o100000 then .file
  else if mode &&& 0o170000 = 0o040000 then .directory
  else if mode &&& 0o170000 = 0o120000 then .symlink
  else .other

/-- Whether a mode is that of a directory. -/
def isDirectoryMode (mode : Option ℕ) : Bool := mode.getD 0 &&& 0o170000 = 0o040000

/-! ### Operations -/

/-- `sessionManager.getSession`, where no session is an error. -/
def sessionOr (missing : Failure) (sessionId : String) : Task Session :=
  .perform (.getSession sessionId) fun
    | some session => pure session
    | none => Program.throw missing

/-- The session, or the error that most services throw without one. -/
def getSession (sessionId : String) : Task Session :=
  sessionOr (plainError ("Session " ++ sessionId ++ " not found or expired")) sessionId

def getOSInfo (sessionId : String) : Task OSInfo := .perform (.getOSInfo sessionId) .done

def randomUUID : Task String := .perform .randomUUID fun uuid => pure uuid

def now : Task ℕ := .perform .now fun time => pure time

def sftpReadFile (path : String) : Task (List UInt8) := .perform (.sftpReadFile path) .done

def sftpWriteFile (path : String) (data : List UInt8) : Task Unit :=
  .perform (.sftpWriteFile path data) .done

def sftpStat (path : RemotePath) : Task Stats := .perform (.sftpStat path) .done

def sftpReaddir (path : RemotePath) : Task (List FileEntry) := .perform (.sftpReaddir path) .done

def sftpMkdir (path : String) : Task Unit := .perform (.sftpMkdir path) .done

def sftpRmdir (path : RemotePath) : Task Unit := .perform (.sftpRmdir path) .done

def sftpUnlink (path : RemotePath) : Task Unit := .perform (.sftpUnlink path) .done

def sftpRename (source target : String) : Task Unit := .perform (.sftpRename source target) .done

def sftpChmod (path : String) (mode : ℕ) : Task Unit := .perform (.sftpChmod path mode) .done

/-- The loop of `sftpMkdirRecursive`. -/
def sftpMkdirParts (currentPath : String) : List String → Task Unit
  | [] => pure ()
  | part :: parts => do
    let path := if currentPath = "" then "/" ++ part else currentPath ++ "/" ++ part
    let probe : Task Unit := do
      let _ ← sftpStat path
      pure ()
    probe.tryCatch fun _ =>
      (sftpMkdir path).tryCatch fun mkdirErr =>
        -- status 4: the directory may have come to exist in the meantime
        if mkdirErr.code = some (.status 4) then pure () else Program.throw mkdirErr
    sftpMkdirParts path parts

def sftpMkdirRecursive (dirPath : String) : Task Unit :=
  sftpMkdirParts (if LexicalPath.isAbsolute dirPath.toList then "" else ".")
    ((splitText dirPath '/').filter (· ≠ ""))

/-- `sftpRmdirRecursive`, to a depth. -/
def sftpRmdirRecursive : ℕ → RemotePath → Task Unit
  | 0, _ => Program.throw .unfinished
  | depth + 1, dirPath => do
    let entries ← sftpReaddir dirPath
    let _ ← Program.traverse (fun entry : FileEntry =>
      let entryPath := dirPath.child entry.filename
      if isDirectoryMode entry.attrs.mode then sftpRmdirRecursive depth entryPath
      else sftpUnlink entryPath) entries
    sftpRmdir dirPath

/-- `tempPathFor`, with its UUID. -/
def tempPathFor (targetPath uuid : String) : String :=
  let normalizedPath := unixSeparators targetPath.toList
  let baseName := (normalizedPath.reverse.takeWhile (· ≠ '/')).reverse
  let directory := normalizedPath.take (normalizedPath.length - baseName.length)
  let safeBaseName := if baseName.length > 0 then String.ofList baseName else "write"
  String.ofList directory ++ "." ++ safeBaseName ++ "." ++ uuid ++ ".tmp"

def execFallback (sessionId : String) (script : Script) : Task String := do
  let _ ← getSession sessionId
  let osInfo ← getOSInfo sessionId
  let shellCommand ← Program.ofExcept (buildRemoteCommand script.text osInfo)
  let result ← (.perform (.exec script shellCommand) .done : Task CommandResult)
  if result.code.getD 0 ≠ 0 then
    Program.throw (plainError
      (if result.stderr ≠ "" then result.stderr
      else if result.stdout ≠ "" then result.stdout
      else "Remote command failed with code " ++ toString (result.code.getD 0)))
  else pure result.stdout

/-- A part of a service whose errors are wrapped. -/
def wrapping {α : Type} (hint : String) (body : Task α) : Task α :=
  body.tryCatch fun error => Program.throw (wrapError error .EFS hint)

/-- `createDirListResult`, for a page of the entries if there is one. -/
def paginate (entries : List DirEntry) (page : Option ℕ) (limit : ℕ) : DirListResult :=
  match page with
  | some page =>
    let startIndex := page * limit
    let endIndex := startIndex + limit
    { entries := (entries.drop startIndex).take limit
      nextToken := if endIndex < entries.length then some (toString (page + 1)) else none }
  | none => { entries, nextToken := none }

/-! ### The service -/

section Service

variable {rt : Runtime} (engine : PolicyEngine rt) (config : ServerConfig)

/-- The modification time of SFTP attributes, in milliseconds. -/
def statTime (attrs : Stats) : Task JsNumber :=
  match attrs.mtime with
  | some seconds => pure (toMilliseconds (.ofInt seconds))
  | none => do
    let time ← now
    pure (.ofInt time)

def statFileInternal (rt : Runtime) (sessionId path : String) : Task FileStatInfo := do
  let session ← getSession sessionId
  if !session.sftp then do
    let output ← execFallback sessionId (.stat path)
    let fields := splitText (JsText.trim output) '\t'
    pure {
      size := rt.numberText.parse (fields.getD 1 "0")
      mtime := toMilliseconds (rt.numberText.parse (fields.getD 2 "0"))
      mode := parseOctal (fields.getD 3 "0")
      type := fields.getD 0 "other" }
  else do
    let stats ← sftpStat path
    let mode := stats.mode.getD 0
    let type := if modeType mode = .other then stats.reported else modeType mode
    let mtime ← statTime stats
    pure { size := .ofInt (stats.size.getD 0 : ℕ), mtime, mode := some mode, type := type.text }

def readFile (sessionId path : String) (encoding : String := "utf8") (maxBytes : Option ℕ := none) :
    Task String := do
  let session ← getSession sessionId
  wrapping ("Failed to read file " ++ path ++ ". Check if the file exists and is readable.") do
    let _ ← Program.ofExcept (engine.assertAllowed
      { action := .fsRead, path := some path, mode := some session.policyMode })
    let effectiveMaxBytes := maxBytes.getD config.maxFileSize
    let stats ← statFileInternal rt sessionId path
    if exceeds stats.size effectiveMaxBytes then
      Program.throw (createLimitError
        ("File " ++ path ++ " is " ++ rt.numberText.render stats.size ++
          " bytes, which exceeds the " ++ toString effectiveMaxBytes ++ " byte read limit")
        (some "Use file_download for large files or raise SSH_MCP_MAX_FILE_SIZE intentionally."))
    else if !session.sftp then execFallback sessionId (.cat path)
    else do
      let data ← sftpReadFile path
      pure (rt.bufferText encoding data)

/-- The part of `writeFile` that writes over SFTP. -/
def sftpReplaceFile (path tempPath : String) (data : List UInt8) (mode : Option ℕ) : Task Bool :=
  let replace : Task Bool := do
    sftpWriteFile tempPath data
    match mode with
    | some mode => sftpChmod tempPath mode
    | none => pure ()
    sftpRename tempPath path
    pure true
  replace.tryCatch fun writeError => do
    (sftpUnlink tempPath).tryCatch fun _ => pure ()
    Program.throw writeError

def writeFile (sessionId path data : String) (mode : Option ℕ := none) : Task Bool := do
  let session ← getSession sessionId
  wrapping ("Failed to write file " ++ path ++ ". Check directory permissions and disk space.") do
    let decision ← Program.ofExcept (engine.assertAllowed
      { action := .fsWrite, path := some path, mode := some session.policyMode })
    if decision.mode = .explain then pure true
    else if data.utf8ByteSize > config.maxFileWriteBytes then
      Program.throw (createLimitError
        ("Write payload is " ++ toString data.utf8ByteSize ++ " bytes, which exceeds the " ++
          toString config.maxFileWriteBytes ++ " byte write limit")
        (some ("Use file_upload for large files or raise SSH_MCP_MAX_FILE_WRITE_BYTES " ++
          "intentionally.")))
    else do
      let uuid ← randomUUID
      let tempPath := tempPathFor path uuid
      if !session.sftp then do
        let _ ← execFallback sessionId (.write data tempPath path mode)
        pure true
      else sftpReplaceFile path tempPath (Utf8.encode data) mode

def statFile (sessionId path : String) : Task FileStatInfo := do
  let session ← getSession sessionId
  wrapping ("Failed to get stats for " ++ path ++ ". Check if the path exists.") do
    let _ ← Program.ofExcept (engine.assertAllowed
      { action := .fsStat, path := some path, mode := some session.policyMode })
    statFileInternal rt sessionId path

/-- An entry of the listing that the shell prints. -/
def parseDirEntry (rt : Runtime) (line : String) : DirEntry :=
  let fields := splitText line '\t'
  { name := fields.getD 0 ""
    type := fields.getD 1 "other"
    size := some (rt.numberText.parse (fields.getD 2 "0"))
    mtime := toMilliseconds (rt.numberText.parse (fields.getD 3 "0"))
    mode := none }

/-- An entry of an SFTP listing. -/
def dirEntry (item : FileEntry) : Task DirEntry := do
  let mtime ← statTime item.attrs
  pure {
    name := item.filename
    type := (modeType (item.attrs.mode.getD 0)).text
    size := item.attrs.size.map fun size => .ofInt size
    mtime
    mode := item.attrs.mode }

def listDirectory (sessionId path : String) (page : Option ℕ := none) (limit : ℕ := 100) :
    Task DirListResult := do
  let session ← getSession sessionId
  wrapping ("Failed to list directory " ++ path ++
      ". Check if the directory exists and is readable.") do
    let _ ← Program.ofExcept (engine.assertAllowed
      { action := .fsList, path := some path, mode := some session.policyMode })
    if !session.sftp then do
      let output ← execFallback sessionId (.list path)
      let entries := ((splitLines output).filter (· ≠ "")).map (parseDirEntry rt)
      pure (paginate entries page limit)
    else do
      let fileList ← sftpReaddir path
      let entries ← Program.traverse dirEntry fileList
      pure (paginate entries page limit)

def makeDirectories (sessionId path : String) : Task Bool := do
  let session ← getSession sessionId
  wrapping ("Failed to create directories " ++ path ++ ". Check parent directory permissions.") do
    let decision ← Program.ofExcept (engine.assertAllowed
      { action := .fsMkdir, path := some path, mode := some session.policyMode })
    if decision.mode = .explain then pure true
    else if !session.sftp then do
      let _ ← execFallback sessionId (.mkdir path)
      pure true
    else do
      sftpMkdirRecursive path
      pure true

/-- `removeRecursive`, to a depth. -/
def removeRecursive (depth : ℕ) (sessionId path : String) : Task Bool := do
  let session ← getSession sessionId
  wrapping ("Failed to remove " ++ path ++
      ". Check if the path exists and you have write permissions.") do
    let decision ← Program.ofExcept (engine.assertAllowed
      { action := .fsRemove, path := some path, mode := some session.policyMode,
        destructive := true })
    if decision.mode = .explain then pure true
    else if !session.sftp then do
      let _ ← execFallback sessionId (.remove path)
      pure true
    else do
      let stats ← sftpStat path
      if isDirectoryMode stats.mode then sftpRmdirRecursive depth path else sftpUnlink path
      pure true

def renameFile (sessionId source target : String) : Task Bool := do
  let session ← getSession sessionId
  wrapping ("Failed to rename " ++ source ++ " to " ++ target ++
      ". Check if the source exists and destination is writable.") do
    let decision ← Program.ofExcept (engine.assertAllowed
      { action := .fsRename, path := some source, secondaryPath := some target,
        mode := some session.policyMode })
    if decision.mode = .explain then pure true
    else if !session.sftp then do
      let _ ← execFallback sessionId (.move source target)
      pure true
    else do
      sftpRename source target
      pure true

/-- A probe over `statFile`: whatever goes wrong, the answer is no. -/
def probe (test : FileStatInfo → Bool) (sessionId path : String) : Task Bool :=
  let body : Task Bool := do
    let stats ← statFile engine sessionId path
    pure (test stats)
  body.tryCatch fun _ => pure false

def pathExists (sessionId path : String) : Task Bool := probe engine (fun _ => true) sessionId path

def isDirectory (sessionId path : String) : Task Bool :=
  probe engine (fun stats => stats.type = "directory") sessionId path

def isFile (sessionId path : String) : Task Bool :=
  probe engine (fun stats => stats.type = "file") sessionId path

def getFileSize (sessionId path : String) : Task JsNumber := do
  let stats ← statFile engine sessionId path
  pure stats.size

end Service
end Ssh
