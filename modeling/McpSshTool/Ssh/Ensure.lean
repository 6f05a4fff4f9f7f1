import McpSshTool.Ssh.Process

/-!
# The ensure service

`ensure.ts`: packages, system services, the lines of a file and patches, over the process and the
filesystem services.

* `ensurePackage`, `ensureService` — a check of the name, and one command line of the host's package
  manager or init system;
* `editLines` — what becomes of the content of a file, and `ensureLinesInFile` — how it is written:
  directly, or where that fails for lack of permission into a temporary file that is moved under
  sudo;
* `applyPatch` — a patch that is tried, applied directly and, where that fails, under sudo.
-/

open Library

namespace Ssh

/-- The `shellQuote` of `ensure.ts`. -/
def Ensure.shellQuote (value : String) : String :=
  "'" ++ replaceChar value apostrophe "'\"'\"'" ++ "'"

structure PackageResult where
  ok : Bool
  pm : PackageManager
  code : ℕ
  stdout : String
  stderr : String

structure LinesInFileResult where
  ok : Bool
  added : ℤ
deriving DecidableEq

structure PatchResult where
  ok : Bool
  changed : Bool

/-- The `state` of a package or of lines. -/
inductive Presence where
  | present | absent
deriving DecidableEq, Repr

/-- The `state` of a system service. -/
inductive ServiceState where
  | started | stopped | restarted | enabled | disabled
deriving DecidableEq, Repr

/-! ### Names -/

def sanitizePackageName (name : String) : Except Failure String :=
  let isValid :=
    match name.toList with
    | [] => false
    | c :: cs => c.isAlphanum && cs.all fun d => d.isAlphanum || d ∈ "._+-".toList
  let dangerousChars :=
    [';', '&', '|', Char.ofNat 96, '$', '(', ')', Char.ofNat 123, Char.ofNat 125,
      '[', ']', '<', '>',
      '\\', Char.ofNat 34, apostrophe, '\n', '\r']
  if !isValid then
    .error (createBadRequestError ("Invalid package name: " ++ name)
      (some ("Package names must start with alphanumeric and contain only letters, numbers, " ++
        "dots, dashes, underscores, or plus signs")))
  else if name.toList.any (· ∈ dangerousChars) then
    .error (createBadRequestError "Package name contains potentially dangerous characters"
      (some "Remove any shell special characters from the package name"))
  else .ok name

def sanitizeServiceName (name : String) : Except Failure String :=
  let isValid :=
    match name.toList with
    | [] => false
    | c :: cs => c.isAlphanum && cs.all fun d => d.isAlphanum || d ∈ "_.@:-".toList
  if !isValid then
    .error (createBadRequestError ("Invalid service name: " ++ name)
      (some ("Service names must contain only letters, numbers, dots, dashes, underscores, " ++
        "colons, @, or path-safe instance names")))
  else .ok name

/-! ### Errors that are about permissions -/

def describeError (error : Failure) : String :=
  if error.message ≠ "" then error.message
  else
    match error.code with
    | some (.named name) => if name = "" then "unknown error" else name
    | some (.status status) => if status = 0 then "unknown error" else toString status
    | none => "unknown error"

/-- A character without its case, as a regular expression with the flags `iu` compares it. Beside
the letters themselves, the long s and the Kelvin sign fold to letters. -/
def foldCase (c : Char) : Char :=
  if c = Char.ofNat 0x17F then 's' else if c = Char.ofNat 0x212A then 'k' else c.toLower

/-- `\w`, with the flags `iu`. -/
def isWordChar (c : Char) : Bool := (foldCase c).isAlphanum || foldCase c = '_'

/-- `\bword\b`, somewhere in a text. Whether the character before is one of a word comes first. -/
def containsWord (word : List Char) : Bool → List Char → Bool
  | _, [] => false
  | afterWord, c :: cs =>
    !afterWord && word.isPrefixOf ((c :: cs).map foldCase) &&
        !((c :: cs).drop word.length).head?.any isWordChar ||
      containsWord word (isWordChar c) cs

/-- The words of an error about permissions, without case. -/
def permissionWords : List String :=
  ["eacces", "eperm", "permission", "permission denied", "access denied", "operation not permitted"]

def isPermissionError (error : Failure) : Bool :=
  error.code ∈ [some (.named "EACCES"), some (.named "EPERM"), some (.status 13),
    some (.status 1)] ||
    permissionWords.any fun word => containsWord word.toList false (describeError error).toList

/-! ### Command lines -/

/-- The name of a package manager. -/
def PackageManager.text : PackageManager → String
  | apt => "apt"
  | dnf => "dnf"
  | yum => "yum"
  | pacman => "pacman"
  | apk => "apk"
  | zypper => "zypper"
  | brew => "brew"
  | choco => "choco"
  | winget => "winget"
  | unknown => "unknown"

def getRemoveCommand (pm : PackageManager) (packageName : String) : Except Failure String :=
  match pm with
  | .apt => .ok ("apt-get remove -y " ++ packageName)
  | .dnf => .ok ("dnf remove -y " ++ packageName)
  | .yum => .ok ("yum remove -y " ++ packageName)
  | .pacman => .ok ("pacman -R --noconfirm " ++ packageName)
  | .apk => .ok ("apk del " ++ packageName)
  | .zypper => .ok ("zypper remove -y " ++ packageName)
  | .brew => .ok ("brew uninstall " ++ packageName)
  | pm => .error (createPackageManagerError ("Unsupported package manager: " ++ pm.text))

def getInstallCommand (pm : PackageManager) (packageName : String) : Except Failure String :=
  match pm with
  | .apt => .ok ("apt-get update && apt-get install -y " ++ packageName)
  | .dnf => .ok ("dnf install -y " ++ packageName)
  | .yum => .ok ("yum install -y " ++ packageName)
  | .pacman => .ok ("pacman -S --noconfirm " ++ packageName)
  | .apk => .ok ("apk add " ++ packageName)
  | .zypper => .ok ("zypper install -y " ++ packageName)
  | .brew => .ok ("brew install " ++ packageName)
  | pm => .error (createPackageManagerError ("Unsupported package manager: " ++ pm.text))

/-- The command of `checkPackageInstalled`. -/
def checkCommand (pm : PackageManager) (packageName : String) : Option String :=
  match pm with
  | .apt => some ("dpkg -l " ++ packageName ++ " | grep -q '^ii'")
  | .dnf => some ("dnf list installed " ++ packageName)
  | .yum => some ("yum list installed " ++ packageName)
  | .pacman => some ("pacman -Q " ++ packageName)
  | .apk => some ("apk info -e " ++ packageName)
  | .zypper => some ("zypper se -i " ++ packageName)
  | .brew => some ("brew list --versions " ++ packageName)
  | _ => none

/-- The command of `ensureService`. -/
def serviceCommand (initSystem : InitSystem) (serviceName : String) (state : ServiceState) :
    String :=
  match initSystem, state with
  | .systemd, .started => "systemctl start " ++ serviceName
  | .systemd, .stopped => "systemctl stop " ++ serviceName
  | .systemd, .restarted => "systemctl restart " ++ serviceName
  | .systemd, .enabled => "systemctl enable " ++ serviceName
  | .systemd, .disabled => "systemctl disable " ++ serviceName
  | _, .started => "service " ++ serviceName ++ " start"
  | _, .stopped => "service " ++ serviceName ++ " stop"
  | _, .restarted => "service " ++ serviceName ++ " restart"
  | _, .enabled => "chkconfig " ++ serviceName ++ " on || update-rc.d " ++ serviceName ++ " enable"
  | _, .disabled =>
    "chkconfig " ++ serviceName ++ " off || update-rc.d " ++ serviceName ++ " disable"

/-! ### Lines -/

/-- **What `ensureLinesInFile` makes of a file**: the content that it writes, if any, and the number
of lines that it reports as added. -/
def editLines (state : Presence) (lines : List String) (fileExists : Bool) (fileContent : String) :
    Option String × ℤ :=
  let existingLines := splitText fileContent '\n'
  match state with
  | .absent =>
    let filteredLines := existingLines.filter fun line => line ∉ lines
    if filteredLines.length = existingLines.length then (none, 0)
    else
      (some (String.intercalate "\n" filteredLines),
        -((existingLines.length - filteredLines.length : ℕ) : ℤ))
  | .present =>
    let missingLines := lines.filter fun line => line ∉ existingLines
    if missingLines.length = 0 then (none, 0)
    else
      (some (if fileExists then fileContent ++ "\n" ++ String.intercalate "\n" missingLines
        else String.intercalate "\n" missingLines), missingLines.length)

/-- `tempDir.replace(/\/+$/, "")`. -/
def trimSlashes (path : String) : String :=
  String.ofList (path.toList.reverse.dropWhile (· = '/')).reverse

/-- The temporary file of a write under sudo. -/
def linesTempFile (osInfo : OSInfo) (time : ℕ) : String :=
  trimSlashes (resolveRemoteTempDir osInfo) ++ "/ssh-mcp-" ++ toString time ++ ".tmp"

/-- The temporary file of a patch. -/
def patchTempFile (osInfo : OSInfo) (time : ℕ) : String :=
  trimSlashes (resolveRemoteTempDir osInfo) ++ "/ssh-mcp-patch-" ++ toString time ++ ".patch"

/-! ### The service -/

section EnsureService

variable {rt : Runtime} (engine : PolicyEngine rt) (config : ServerConfig)

def checkPackageInstalled (sessionId packageName : String) (pm : PackageManager) : Task Bool :=
  match checkCommand pm packageName with
  | none => pure false
  | some text =>
    let body : Task Bool := do
      let result ← execCommand engine config sessionId (.checkPackage text)
      pure (result.code = 0)
    body.tryCatch fun _ => pure false

/-- The command of `ensurePackage` that changes the host: without sudo for `brew`. -/
def setPackage (sessionId command : String) (pm : PackageManager) (options : SudoPolicyOptions) :
    Task PackageResult := do
  let result ←
    if pm = .brew then execCommand engine config sessionId (.setPackage command)
    else execSudo engine config sessionId (.setPackage command) none none none options
  pure { ok := result.code = 0, pm, code := result.code, stdout := result.stdout
         stderr := result.stderr }

def ensurePackage (sessionId packageName : String) (state : Presence := .present) :
    Task PackageResult := do
  let safePackageName ← Program.ofExcept (sanitizePackageName packageName)
  let _ ← getSession sessionId
  let osInfo ← getOSInfo sessionId
  let pm := osInfo.packageManager
  if pm = .unknown then
    Program.throw (createPackageManagerError "No supported package manager found"
      (some "Supported package managers: apt, dnf, yum, pacman, apk, zypper, brew"))
  else if osInfo.platform = .windows then
    Program.throw (createPackageManagerError
      "Package management on Windows hosts is not supported by this tool yet"
      (some "Use winget/choco manually or install via other Windows package workflows"))
  else do
    let isInstalled ← checkPackageInstalled engine config sessionId safePackageName pm
    match state, isInstalled with
    | .absent, false =>
      pure { ok := true, pm, code := 0, stderr := ""
             stdout := "Package " ++ safePackageName ++ " is not installed" }
    | .absent, true => do
      let command ← Program.ofExcept (getRemoveCommand pm safePackageName)
      setPackage engine config sessionId command pm
        { policyAction := some .ensurePackage, rawSudo := some false, destructive := some true }
    | .present, true =>
      pure { ok := true, pm, code := 0
             stdout := "Package " ++ safePackageName ++ " is already installed", stderr := "" }
    | .present, false => do
      let command ← Program.ofExcept (getInstallCommand pm safePackageName)
      setPackage engine config sessionId command pm
        { policyAction := some .ensurePackage, rawSudo := some false }

/-- `ensureService`: whether the command succeeded. -/
def ensureService (sessionId serviceName : String) (state : ServiceState) : Task Bool := do
  let safeServiceName ← Program.ofExcept (sanitizeServiceName serviceName)
  let _ ← getSession sessionId
  let osInfo ← getOSInfo sessionId
  let initSystem := osInfo.init
  if initSystem = .launchd then
    Program.throw (createSudoError "launchd services are not managed by this tool"
      (some "Use launchctl directly on macOS hosts"))
  else if initSystem = .windowsService then
    Program.throw (createSudoError "Windows services are not managed by this tool"
      (some "Use sc.exe or PowerShell to manage Windows services"))
  else if initSystem = .unknown then
    Program.throw (createSudoError "No supported init system found"
      (some "Supported init systems: systemd, service"))
  else do
    let result ← execSudo engine config sessionId
      (.setService (serviceCommand initSystem safeServiceName state)) none none none
      { policyAction := some .ensureService, rawSudo := some false
        destructive := some (decide (state ∈ [.stopped, .restarted, .disabled])) }
    pure (result.code = 0)

/-- The options of a privileged modification of a file. -/
def privilegedOptions (action : PolicyAction) (filePath : String) (destructive : Bool) :
    SudoPolicyOptions where
  policyAction := some action
  rawSudo := some false
  path := some filePath
  destructive := some destructive

def writeFileWithPrivilegeFallback (osInfo : OSInfo) (sessionId filePath content : String)
    (destructive : Bool) : Task Unit :=
  let write (path : String) : Task Unit := do
    let _ ← writeFile engine config sessionId path content
    pure ()
  (write filePath).tryCatch fun directWriteError =>
    if !isPermissionError directWriteError then Program.throw directWriteError
    else do
      -- staged in a temporary file, which sudo moves into place
      let time ← now
      let tempFile := linesTempFile osInfo time
      (write tempFile).tryCatch fun tempWriteError =>
        Program.throw (createFilesystemError ("Failed to stage temporary file for " ++ filePath)
          (some ("Direct write failed with " ++ describeError directWriteError ++
            "; temporary write failed with " ++ describeError tempWriteError)))
      let moveResult ← execSudo engine config sessionId (.move tempFile filePath) none none none
        (privilegedOptions .ensureLines filePath destructive)
      if moveResult.code ≠ 0 then
        Program.throw (createFilesystemError ("Failed to move temporary file to " ++ filePath)
          (some "Check file permissions and sudo access"))
      else pure ()

/-- The part of `ensureLinesInFile` past the content of the file. -/
def writeEdited (osInfo : OSInfo) (sessionId filePath : String) :
    Option String × ℤ → Task LinesInFileResult
  | (none, _) => pure { ok := true, added := 0 }
  | (some newContent, added) => do
    writeFileWithPrivilegeFallback engine config osInfo sessionId filePath newContent true
    pure { ok := true, added }

def ensureLinesInFile (sessionId filePath : String) (lines : List String)
    (createIfMissing : Bool := true) (state : Presence := .present) : Task LinesInFileResult := do
  let osInfo ← getOSInfo sessionId
  let fileExists ← pathExists engine sessionId filePath
  if fileExists then do
    let fileContent ← readFile engine config sessionId filePath
    writeEdited engine config osInfo sessionId filePath (editLines state lines true fileContent)
  -- lines are absent from a file that does not exist
  else if state = .absent then pure { ok := true, added := 0 }
  else if !createIfMissing then
    Program.throw (createFilesystemError
      ("File " ++ filePath ++ " does not exist and createIfMissing is false"))
  else writeEdited engine config osInfo sessionId filePath (editLines state lines false "")

/-- The part of `applyPatch` that tries the patch and applies it. -/
def runPatch (sessionId filePath tempPatchFile : String) : Task PatchResult := do
  let testResult ← execCommand engine config sessionId (.patchDryRun filePath tempPatchFile)
  if testResult.code ≠ 0 then
    Program.throw (createPatchError "Patch would fail to apply"
      (some ("Patch test failed: " ++ testResult.stderr)))
  else do
    let directResult ← execCommand engine config sessionId (.patch filePath tempPatchFile)
    let result ←
      if directResult.code = 0 then pure directResult
      else
        execSudo engine config sessionId (.patch filePath tempPatchFile) none none none
          (privilegedOptions .patchApply filePath true)
    pure { ok := result.code = 0, changed := result.code = 0 }

/-- The cleanup of `applyPatch`, whose errors are ignored. -/
def discardPatchFile (osInfo : OSInfo) (sessionId tempPatchFile : String) : Task Unit :=
  let cleanup : Task Unit := do
    let _ ← execCommand engine config sessionId
      (.discard tempPatchFile (osInfo.platform = .windows))
    pure ()
  cleanup.tryCatch fun _ => pure ()

def applyPatch (sessionId filePath diff : String) : Task PatchResult := do
  let osInfo ← getOSInfo sessionId
  let hasPatch ← commandExists engine config sessionId "patch"
  if !hasPatch then
    Program.throw (createPatchError "patch command not found on remote system"
      (some "Install patch utility or apply changes manually"))
  else do
    let time ← now
    let tempPatchFile := patchTempFile osInfo time
    let _ ← writeFile engine config sessionId tempPatchFile diff
    (runPatch engine config sessionId filePath tempPatchFile).tryFinally
      (discardPatchFile engine config osInfo sessionId tempPatchFile)

end EnsureService
end Ssh
