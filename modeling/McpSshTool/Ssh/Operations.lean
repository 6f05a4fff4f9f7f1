import McpSshTool.Library.Program
import McpSshTool.Ssh.Policy
import McpSshTool.Ssh.Shell

/-!
# What the services do

The services of the SSH server as programs: what they ask of the session manager, the remote host
and the server's own machine, one operation after another.

* `RemotePath` — a path as a service sends it, which may end with names that the host listed;
* `Script` — the command lines that the services make, with their text;
* `Operation`, `Answer`, `Task` — the operations, and programs over them.
-/

open Library LexicalPath

namespace Ssh

/-! ### Paths and scripts -/

/-- A path on the remote host: a text, and the names of listed entries below it. -/
structure RemotePath where
  base : String
  names : List String := []
deriving DecidableEq, Repr

instance : Coe String RemotePath := ⟨fun base => { base }⟩

/-- `${dirPath}/${filename}`. -/
def RemotePath.child (path : RemotePath) (filename : String) : RemotePath :=
  { path with names := path.names ++ [filename] }

/-- The path as it is sent. -/
def RemotePath.text (path : RemotePath) : String :=
  path.names.foldl (fun text name => text ++ "/" ++ name) path.base

@[simp] theorem RemotePath.text_child (path : RemotePath) (filename : String) :
    (path.child filename).text = path.text ++ "/" ++ filename := by
  rw [RemotePath.child, RemotePath.text, List.foldl_append]
  rfl

/-- The scripts that the services run. -/
inductive Script where
  /-- A command of the request. -/
  | command (text : String)
  | which (program : String)
  | cat (path : String)
  | write (data tempPath path : String) (mode : Option ℕ)
  | stat (path : String)
  | list (path : String)
  | mkdir (path : String)
  | remove (path : String)
  | move (source target : String)
  | patchDryRun (path patchFile : String)
  | patch (path patchFile : String)
  | discard (file : String) (windows : Bool)
  /-- Whether a package is installed. -/
  | checkPackage (text : String)
  | setPackage (text : String)
  | setService (text : String)
  /-- A fixed command of the server's that tells how the host is. -/
  | inspect (text : String)
deriving DecidableEq, Repr

/-- `PORTABLE_STAT_FIELDS_COMMAND`. -/
def portableStatFieldsCommand : String :=
  "type=other; if [ -L \"$target\" ]; then type=symlink; elif [ -d \"$target\" ]; then " ++
  "type=directory; elif [ -f \"$target\" ]; then type=file; fi; " ++
  "size=$( (stat -c %s \"$target\" 2>/dev/null || stat -f %z \"$target\" 2>/dev/null || " ++
  "wc -c < \"$target\" 2>/dev/null) | tr -d \" \" | head -n 1); " ++
  "mtime=$( (stat -c %Y \"$target\" 2>/dev/null || stat -f %m \"$target\" 2>/dev/null || " ++
  "echo 0) | head -n 1); mode=$( (stat -c %a \"$target\" 2>/dev/null || " ++
  "stat -f %Lp \"$target\" 2>/dev/null || echo 0) | head -n 1)"

/-- `PORTABLE_STAT_COMMAND`. -/
def portableStatCommand : String :=
  portableStatFieldsCommand ++ "; printf \"%s\\t%s\\t%s\\t%s\" \"$type\" \"$\x7bsize:-0\x7d\" " ++
  "\"$\x7bmtime:-0\x7d\" \"$\x7bmode:-0\x7d\""

/-- `mode.toString(8)`. -/
def octal (mode : ℕ) : String := String.ofList (Nat.toDigits 8 mode)

/-- The text of a script. -/
def Script.text : Script → String
  | command text => text
  | which program => "which " ++ program
  | cat path => "cat " ++ shellQuote path
  | write data tempPath path mode =>
    "printf %s " ++ shellQuote data ++ " > " ++ shellQuote tempPath ++ "\n" ++
      (match mode with
        | some mode => "chmod " ++ octal mode ++ " " ++ shellQuote tempPath ++ "\n"
        | none => "") ++
      "mv " ++ shellQuote tempPath ++ " " ++ shellQuote path
  | stat path => "target=" ++ shellQuote path ++ "; " ++ portableStatCommand
  | list path =>
    "dir=" ++ shellQuote path ++ "; for item in \"$dir\"/* \"$dir\"/.[!.]* \"$dir\"/..?*; do " ++
    "[ -e \"$item\" ] || continue; name=$(basename \"$item\"); target=\"$item\"; " ++
    portableStatFieldsCommand ++ "; printf \"%s\\t%s\\t%s\\t%s\\n\" \"$name\" \"$type\" " ++
    "\"$\x7bsize:-0\x7d\" \"$\x7bmtime:-0\x7d\"; done"
  | mkdir path => "mkdir -p " ++ shellQuote path
  | remove path => "rm -rf " ++ shellQuote path
  | move source target => "mv " ++ shellQuote source ++ " " ++ shellQuote target
  | patchDryRun path patchFile =>
    "patch --dry-run -p0 " ++ shellQuote path ++ " < " ++ shellQuote patchFile
  | patch path patchFile => "patch -p0 " ++ shellQuote path ++ " < " ++ shellQuote patchFile
  | discard file windows =>
    if windows then "Remove-Item -Path " ++ shellQuote file ++
      " -Force -ErrorAction SilentlyContinue"
    else "rm -f " ++ shellQuote file
  | checkPackage text => text
  | setPackage text => text
  | setService text => text
  | inspect text => text

/-! ### Operations -/

/-- What the services read of a session: the mode of its policy, and whether it has an SFTP
channel. -/
structure Session where
  policyMode : PolicyMode
  sftp : Bool
deriving DecidableEq, Repr

/-- The result of a remote command. -/
structure CommandResult where
  code : Option ℕ
  stdout : String
  stderr : String
deriving DecidableEq, Repr

inductive FileType where
  | file | directory | symlink | other
deriving DecidableEq, Repr

/-- `Stats` of an SFTP answer. -/
structure Stats where
  mode : Option ℕ
  size : Option ℕ
  mtime : Option ℕ
  /-- What `isFile`, `isDirectory` and `isSymbolicLink` tell, where there are such methods. -/
  reported : FileType := .other
deriving DecidableEq, Repr

structure FileEntry where
  filename : String
  attrs : Stats
deriving DecidableEq, Repr

inductive OutputStream where
  | stdout | stderr
deriving DecidableEq, Repr

/-- A data event of a streaming command, with its time. -/
structure StreamEvent where
  stream : OutputStream
  data : List UInt8
  timestamp : ℕ

/-- How a streaming command goes: its data events, and its code at the end. -/
structure StreamOutcome where
  events : List StreamEvent
  code : Option ℕ

inductive Operation where
  | getSession (sessionId : String)
  | getOSInfo (sessionId : String)
  | randomUUID
  | now
  /-- `ssh.execCommand(sent)`, for a script that is wrapped into the text that is sent. -/
  | exec (script : Script) (sent : String)
  /-- The same under sudo. -/
  | execSudo (script : Script) (sent : String) (timeoutMs : ℕ)
  | execWithin (script : Script) (sent : String) (timeoutMs : ℕ)
  | execStreaming (script : Script) (sent : String) (timeoutMs : ℕ)
  | sftpReadFile (path : String)
  | sftpWriteFile (path : String) (data : List UInt8)
  | sftpStat (path : RemotePath)
  | sftpReaddir (path : RemotePath)
  | sftpMkdir (path : String)
  | sftpRmdir (path : RemotePath)
  | sftpUnlink (path : RemotePath)
  | sftpRename (source target : String)
  | sftpChmod (path : String) (mode : ℕ)
  /-- The server's own file system as `fs.realpathSync.native` sees it at the moment when the policy
  is asked about local paths. -/
  | localFiles (context : PolicyContext)
  | localRealpath (path : String)
  | localStat (path : String)
  | localReadFile (path : String)
  | localCreateFile (path : String) (data : List UInt8)
  | localRemove (path : String)
  | localRename (source target : String)
  | listen (port : ℕ) (host : String)
  | forwardIn (host : String) (port : ℕ)
deriving DecidableEq

/-- The operations that reach neither the remote host nor a file: lookups of the server's own
state. -/
def Operation.IsLookup : Operation → Prop
  | .getSession _ => True
  | .randomUUID => True
  | .now => True
  | _ => False

/-- The script that an operation runs. -/
def Operation.script? : Operation → Option Script
  | .exec script _ => some script
  | .execSudo script _ _ => some script
  | .execWithin script _ _ => some script
  | .execStreaming script _ _ => some script
  | _ => none

/-- What an operation is answered. Where a timer runs, `none` is its firing first. -/
abbrev Answer : Operation → Type
  | .getSession _ => Option Session
  | .getOSInfo _ => Except Failure OSInfo
  | .randomUUID => String
  | .now => ℕ
  | .exec _ _ => Except Failure CommandResult
  | .execSudo _ _ _ => Except Failure (Option CommandResult)
  | .execWithin _ _ _ => Except Failure (Option CommandResult)
  | .execStreaming _ _ _ => Except Failure (Option StreamOutcome)
  | .sftpReadFile _ => Except Failure (List UInt8)
  | .sftpStat _ => Except Failure Stats
  | .sftpReaddir _ => Except Failure (List FileEntry)
  | .localFiles _ => String → Option String
  | .localRealpath _ => Except Failure String
  | .localStat _ => Except Failure ℕ
  | .localReadFile _ => Except Failure (List UInt8)
  | .forwardIn _ _ => Except Failure ℕ
  | _ => Except Failure Unit

/-- A program of a service. -/
abbrev Task (α : Type) : Type := Program Operation Answer Failure α

/-- A service's operation with its answer. -/
abbrev Event : Type := Program.Event Operation Answer

end Ssh
