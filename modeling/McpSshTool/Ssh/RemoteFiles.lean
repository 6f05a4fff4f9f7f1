import McpSshTool.Js.Utf8Chunks
import McpSshTool.Library.CommandLists
import McpSshTool.Ssh.CommandLines
import McpSshTool.Ssh.Hosts

/-!
# Hosts that keep files

A host of the filesystem service on which single steps fail.

* `Files`, `Host`, `Faults` — what the host stores, what it is like, and the steps that go wrong;
* `Host.write`, `Host.chmod`, `Host.rename`, `Host.unlink` — what a step does, on either transport;
* `Command`, `Host.runLines` — the commands of a script, read off its text. The status of a script
  is that of its last command, whatever became of the others;
* `Host.optioned` — what utilities do where a file name is read as options;
* `Host.deliver` — what the SSH library makes of the chunks in which an output arrives;
* `fileHost` — the answers of the host;
* `ends_execFallback` — the run of `execFallback`;
* `readLines_write` — **the script of a write** is a `printf`, a `chmod` if there is a mode, and a
  `mv`.
-/

open Library ShellWords

namespace Ssh

open Program

/-! ### Files -/

/-- What stands at a path. -/
inductive Stored where
  | file (content : List UInt8) (mode : ℕ)
  | directory
deriving DecidableEq, Repr

/-- The files of a host, by the texts of their paths. -/
abbrev Files := String → Option Stored

/-- How the writing of a file goes. Where it fails, a part of the file may be left. -/
inductive Writing where
  | works
  | fails (left : Option (List UInt8))
deriving DecidableEq, Repr

/-- **The steps that fail.** Nothing else comes of a step that fails. -/
structure Faults where
  write : Writing := .works
  chmod : Bool := false
  /-- RENAME, or `mv`. -/
  move : Bool := false
  unlink : Bool := false
  /-- The shell is not reached. -/
  shell : Bool := false
deriving DecidableEq, Repr

/-- The commands that the scripts of the service consist of. -/
inductive Command where
  /-- `printf %s text > file`. -/
  | print (text file : String)
  | chmod (mode file : String)
  | mv (source target : String)
  | cat (file : String)
deriving DecidableEq, Repr

/-- The file names that a utility is given as words of its command. -/
def Command.names : Command → List String
  | print _ _ => []
  | chmod _ file | cat file => [file]
  | mv source target => [source, target]

/-- A word that a utility takes for options. -/
def isOption (text : String) : Bool := text.toList.head? = some '-' ∧ text ≠ "-"

/-- What has become of a command, or of some. -/
structure Outcome where
  files : Files
  output : List UInt8
  ok : Bool

/-- **A host** with a POSIX shell. -/
structure Host where
  osInfo : Except Failure OSInfo
  /-- What `randomUUID` yields. -/
  uuid : String
  /-- Whether a file can be made at a path: its directory is there and can be written in, and its
  name is one that the host takes. -/
  makeable : String → Bool
  /-- Whether RENAME replaces a file that is there. -/
  overwrites : Bool
  /-- The mode of a new file. -/
  defaultMode : ℕ
  /-- The bytes that a command line may have. -/
  lineLimit : ℕ
  /-- The chunks in which the bytes arrive that a command prints. -/
  chunks : List UInt8 → List (List UInt8)
  chunks_flatten : ∀ bytes, (chunks bytes).flatten = bytes
  /-- What `mv` and `cat` do where a word is read as options: they refuse it, or tell of themselves,
  or do as they are told. -/
  optioned : Command → Files → Outcome
  /-- The word is then no file name to them. -/
  optioned_keeps : ∀ command files name, name ∈ command.names → isOption name = true →
    (optioned command files).files name = files name
  /-- What the script of `statFileInternal` prints of a path that `stat` reads as options. -/
  optionedStat : String → Files → List UInt8

/-- The name at the end of a path. -/
def fileName (path : String) : String :=
  String.ofList (path.toList.reverse.takeWhile (· ≠ '/')).reverse

/-- Whether the owner of a file of the mode may read it. -/
def readable (mode : ℕ) : Bool := mode.testBit 8

namespace Host

variable (host : Host) (faults : Faults) (files : Files)

/-- The mode that a file has after it is written. -/
def modeAt (path : String) : ℕ :=
  match files path with
  | some (.file _ mode) => mode
  | _ => host.defaultMode

/-- A file is written. -/
def write (path : String) (data : List UInt8) : Files × Bool :=
  match faults.write with
  | .fails none => (files, false)
  | .fails (some part) =>
    (Function.update files path (some (.file part (host.modeAt files path))), false)
  | .works =>
    if host.makeable path ∧ files path ≠ some .directory then
      (Function.update files path (some (.file data (host.modeAt files path))), true)
    else (files, false)

/-- A file is given a mode. -/
def chmod (path : String) (mode : ℕ) : Files × Bool :=
  match files path with
  | some (.file content _) =>
    if faults.chmod then (files, false)
    else (Function.update files path (some (.file content mode)), true)
  | _ => (files, false)

/-- Whether a file can be moved to a path. -/
def receives (overwrites : Bool) (target : String) : Bool :=
  match files target with
  | none => host.makeable target
  | some (.file _ _) => overwrites
  | some .directory => false

/-- A file is renamed, possibly over another. -/
def rename (overwrites : Bool) (source target : String) : Files × Bool :=
  match files source with
  | some (.file _ _) =>
    if faults.move = false ∧ host.receives files overwrites target then
      (Function.update (Function.update files source none) target (files source), true)
    else (files, false)
  | _ => (files, false)

def unlink (path : String) : Files × Bool :=
  match files path with
  | some (.file _ _) =>
    if faults.unlink then (files, false) else (Function.update files path none, true)
  | _ => (files, false)

def content (path : String) : Option (List UInt8) :=
  match files path with
  | some (.file content mode) => if readable mode then some content else none
  | _ => none

end Host

/-! ### The shell -/

/-- The word is quoted from end to end, so that the shell changes nothing in it. -/
def IsQuoted (word : Word) : Prop := word = quotedWord word.text

instance (word : Word) : Decidable (IsQuoted word) :=
  inferInstanceAs (Decidable (word = quotedWord word.text))

theorem isQuoted_quotedWord (text : String) : IsQuoted (quotedWord text) := by
  rw [IsQuoted, text_quotedWord]

/-- What a simple command is. -/
def Command.read : Simple → Option Command
  | [.word program, .word file] =>
    if program = plainWord "cat" ∧ IsQuoted file then some (.cat file.text) else none
  | [.word program, .word first, .word second] =>
    if program = plainWord "chmod" ∧ IsQuoted second then some (.chmod first.text second.text)
    else if program = plainWord "mv" ∧ IsQuoted first ∧ IsQuoted second then
      some (.mv first.text second.text)
    else none
  | [.word program, .word format, .word text, .redirection none ['>'] file] =>
    if program = plainWord "printf" ∧ format = plainWord "%s" ∧ IsQuoted text ∧ IsQuoted file then
      some (.print text.text file.text)
    else none
  | _ => none

/-- The mode that octal digits stand for, where it is one of a file. -/
def octalMode (text : String) : Option ℕ :=
  have : Decidable (∀ c ∈ text.toList, '0' ≤ c ∧ c ≤ '7') := List.decidableBAll _ _
  if text.toList ≠ [] ∧ ∀ c ∈ text.toList, '0' ≤ c ∧ c ≤ '7' then
    some (Nat.ofDigitChars 8 text.toList 0)
  else none

namespace Host

variable (host : Host) (faults : Faults) (files : Files)

/-- Where `mv` moves a file to: a directory takes it in. -/
def landing (source target : String) : String :=
  if files target = some .directory then target ++ "/" ++ fileName source else target

def mv (source target : String) : Files × Bool :=
  if isOption source ∨ isOption target then
    let result := host.optioned (.mv source target) files
    (result.files, result.ok)
  else host.rename faults files true source (landing files source target)

/-- What a command does. The dash alone is the standard input to `cat`, and empty. A file that is
read as options is none that `chmod` gives the mode. -/
def runCommand : Command → Outcome
  | .print text file =>
    let result := host.write faults files file (Utf8.encode text)
    ⟨result.1, [], result.2⟩
  | .chmod mode file =>
    match octalMode mode with
    | some mode =>
      if mode < 0o10000 ∧ isOption file = false then
        let result := chmod faults files file mode
        ⟨result.1, [], result.2⟩
      else ⟨files, [], false⟩
    | none => ⟨files, [], false⟩
  | .mv source target =>
    let result := host.mv faults files source target
    ⟨result.1, [], result.2⟩
  | .cat file =>
    if isOption file then host.optioned (.cat file) files
    else if file = "-" then ⟨files, [], true⟩
    else
      match content files file with
      | some bytes => ⟨files, bytes, true⟩
      | none => ⟨files, [], false⟩

/-- A line of a script. What is no command fails. -/
def runLine (line : Option Simple) : Outcome :=
  match line.bind Command.read with
  | some command => host.runCommand faults files command
  | none => ⟨files, [], false⟩

/-- **The lines of a script**, one after the other: the status is that of the last one. -/
def runLines (lines : List (Option Simple)) : Outcome :=
  lines.foldl (fun before line =>
    let next := host.runLine faults before.files line
    { next with output := before.output ++ next.output }) ⟨files, [], true⟩

/-- What the script of `statFileInternal` prints. The host keeps no times. -/
def portableStat (path : String) : String :=
  match files path with
  | some (.file content mode) => "file\t" ++ toString content.length ++ "\t0\t" ++ octal mode
  | some .directory => "directory\t0\t0\t0"
  | none => "other\t0\t0\t0"

/-- What a script does. -/
def runScript (script : Script) : Outcome :=
  match script with
  | .stat path =>
    ⟨files, if isOption path then host.optionedStat path files
      else Utf8.encode (portableStat files path), true⟩
  | script =>
    match readLines script.text with
    | some lines => host.runLines faults files lines
    | none => ⟨files, [], false⟩

/-- What the SSH library hands over of the bytes that a command prints: every chunk is decoded for
itself, and the text loses the white space at its ends. -/
def deliver (bytes : List UInt8) : String :=
  JsText.trim (String.join ((host.chunks bytes).map Utf8.decode))

/-- **When a text is handed over as it is.** -/
theorem deliver_encode_iff {host : Host} {text : String} : host.deliver (Utf8.encode text) = text ↔
    Utf8.CutsBetween (host.chunks (Utf8.encode text)) ∧ JsText.trim text = text :=
  Utf8.trim_pieces_iff (host.chunks_flatten _)

theorem deliver_ascii {host : Host} {text : String} (h : ∀ c ∈ text.toList, c.toNat < 0x80) :
    host.deliver (Utf8.encode text) = JsText.trim text := by
  have hflatten := host.chunks_flatten (Utf8.encode text)
  have hcuts : Utf8.CutsBetween (host.chunks (Utf8.encode text)) :=
    Utf8.cutsBetween_of_ascii (hflatten.symm ▸ Utf8.ascii_encode h)
  rw [deliver, (Utf8.decode_pieces_iff _).mpr hcuts, hflatten, Utf8.decode_encode]

/-- The host hands the line to its shell. -/
def takes (line : String) : Bool :=
  line.utf8ByteSize ≤ host.lineLimit ∧ Char.ofNat 0 ∉ line.toList

/-- `execCommand`. A line that hands no script to a POSIX shell is not found to be a command. -/
def exec (script : Script) (sent : String) : Files × Except Failure CommandResult :=
  if faults.shell = false ∧ host.takes sent then
    let outcome :=
      if handed sent = some script.text then host.runScript faults files script
      else ⟨files, [], false⟩
    (outcome.files, .ok {
      code := some (if outcome.ok then 0 else 1)
      stdout := host.deliver outcome.output
      stderr := "" })
  else (files, .error (plainError "Unable to exec"))

end Host

/-! ### The answers -/

/-- The answer to an SFTP request. -/
def answered (result : Files × Bool) : Files × Except Failure Unit :=
  (result.1, if result.2 then .ok () else .error sftpFailure)

/-- The attributes of what stands somewhere. -/
def Stored.attributes : Stored → Stats
  | .file content mode =>
    { mode := some (0o100000 ||| mode), size := some content.length, mtime := none }
  | .directory => { mode := some 0o040000, size := none, mtime := none }

/-- **The host**, in a session. -/
def fileHost (session : Session) (host : Host) (faults : Faults) (files : Files) :
    (op : Operation) → Files × Answer op
  | .getSession _ => (files, some session)
  | .getOSInfo _ => (files, host.osInfo)
  | .randomUUID => (files, host.uuid)
  | .exec script sent => host.exec faults files script sent
  | .sftpWriteFile path data => answered (host.write faults files path data)
  | .sftpChmod path mode => answered (Host.chmod faults files path (mode &&& 0o7777))
  | .sftpRename source target => answered (host.rename faults files host.overwrites source target)
  | .sftpUnlink path => answered (Host.unlink faults files path.text)
  | .sftpStat path =>
    (files, match files path.text with
      | some stored => .ok stored.attributes
      | none => .error noSuchFile)
  | .sftpReadFile path =>
    (files, match Host.content files path with
      | some bytes => .ok bytes
      | none => .error sftpFailure)
  | op => (files, refused op)

/-! ### Scripts on their way -/

/-- The line that a POSIX host is sent. -/
def commandLine (osInfo : OSInfo) (script : Script) : String :=
  osInfo.shellName ++ " -lc " ++ shellQuote script.text

/-- The script is one that reads or writes a file. -/
def Script.IsFileScript : Script → Prop
  | .stat _ | .cat _ | .write _ _ _ _ => True
  | _ => False

theorem handed_commandLine (osInfo : OSInfo) {script : Script} (h : script.IsFileScript) :
    handed (commandLine osInfo script) = some script.text := by
  have hbehind : ∀ {name : List Char} {first second : String}, name <+: first.toList →
      name <+: (first ++ second).toList := fun h => by
    rw [String.toList_append]
    exact h.trans (List.prefix_append _ _)
  have hnamed : ∃ name ∈ ["target=", "cat ", "printf %s "], name.toList <+: script.text.toList := by
    cases script with
    | stat => exact ⟨"target=", by simp, hbehind (hbehind (hbehind (List.prefix_refl _)))⟩
    | cat => exact ⟨"cat ", by simp, hbehind (List.prefix_refl _)⟩
    | write =>
      refine ⟨"printf %s ", by simp, ?_⟩
      iterate 9 refine hbehind ?_
      exact List.prefix_refl _
    | _ => exact h.elim
  obtain ⟨name, hname, rest, htext⟩ := hnamed
  refine handed_line (shellName_osInfo osInfo) ?_
  rw [← htext]
  simp only [List.mem_cons, List.not_mem_nil, or_false] at hname
  obtain rfl | rfl | rfl := hname
  · exact fun h => h.elim nofun nofun
  · exact fun h => h.elim nofun nofun
  · exact fun h => h.elim nofun nofun

theorem buildRemoteCommand_posix {osInfo : OSInfo} (h : osInfo.platform ≠ .windows)
    (script : Script) :
    buildRemoteCommand script.text osInfo = .ok (commandLine osInfo script) := by
  unfold buildRemoteCommand
  rw [if_neg h, buildPosixCommand_eq (fun _ hentry => absurd hentry List.not_mem_nil)]
  rfl

set_option maxRecDepth 2000 in
theorem handed_powershell (rest : String) :
    handed ("powershell -NoLogo -NoProfile -NonInteractive -ExecutionPolicy Bypass -Command " ++
      rest) = none := by
  have hopens : Opens
      "powershell -NoLogo -NoProfile -NonInteractive -ExecutionPolicy Bypass -Command "
      (["powershell", "-NoLogo", "-NoProfile", "-NonInteractive", "-ExecutionPolicy", "Bypass",
        "-Command"].map fun text => .word (plainWord text)) := rfl
  unfold handed
  rw [tokens_append hopens]
  cases tokens rest with
  | none => rfl
  | some => rfl

theorem buildRemoteCommand_windows {osInfo : OSInfo} (h : osInfo.platform = .windows)
    (script : Script) :
    ∃ line, buildRemoteCommand script.text osInfo = .ok line ∧ handed line = none := by
  unfold buildRemoteCommand
  rw [if_pos h]
  exact ⟨_, rfl, handed_powershell _⟩

/-- What `execFallback` throws after a script that has failed. -/
def scriptError (stdout : String) : Failure :=
  plainError (if stdout ≠ "" then stdout else "Remote command failed with code " ++ toString 1)

section Fallback

variable {host : Host} {faults : Faults} {files : Files} {session : Session} {script : Script}
  {sessionId : String} {Q : Files → Except Failure String → Prop}

/-- **The shell of the host is given the script.** -/
def Host.ShellTakes (host : Host) (faults : Faults) (script : Script) : Prop :=
  ∃ osInfo, host.osInfo = .ok osInfo ∧ osInfo.platform ≠ .windows ∧ faults.shell = false ∧
    host.takes (commandLine osInfo script) = true

/-- What `execFallback` does with the result of a command. -/
def fallbackResult (result : CommandResult) : Except Failure String :=
  if result.code.getD 0 ≠ 0 then
    .error (plainError
      (if result.stderr ≠ "" then result.stderr
      else if result.stdout ≠ "" then result.stdout
      else "Remote command failed with code " ++ toString (result.code.getD 0)))
  else .ok result.stdout

theorem execute_execFallback {osInfo : OSInfo} {line : String} (hos : host.osInfo = .ok osInfo)
    (hline : buildRemoteCommand script.text osInfo = .ok line) :
    execute (fileHost session host faults) (execFallback sessionId script) files =
      ((host.exec faults files script line).1,
        (host.exec faults files script line).2.bind fallbackResult) := by
  change execute _ (andThen (.done host.osInfo) _) files = _
  rw [hos, done_andThen]
  dsimp only
  rw [hline]
  change execute _ (andThen (.done (host.exec faults files script line).2) _)
    (host.exec faults files script line).1 = _
  rw [done_andThen]
  cases (host.exec faults files script line).2 with
  | error => rfl
  | ok result =>
    change execute _ (if result.code.getD 0 ≠ 0 then _ else _) _ = (_, fallbackResult result)
    unfold fallbackResult
    split
    · rfl
    · rfl

/-- **The run of `execFallback`**: it is the run of the script, and fails where the script does. -/
theorem ends_execFallback (htakes : host.ShellTakes faults script) (hscript : script.IsFileScript) :
    Ends (fileHost session host faults) (execFallback sessionId script) files Q ↔
      Q (host.runScript faults files script).files
        (if (host.runScript faults files script).ok then
          .ok (host.deliver (host.runScript faults files script).output)
        else .error (scriptError (host.deliver (host.runScript faults files script).output))) := by
  obtain ⟨osInfo, hos, hplatform, hshell, hline⟩ := htakes
  have hexec : host.exec faults files script (commandLine osInfo script) =
      ((host.runScript faults files script).files, .ok {
        code := some (if (host.runScript faults files script).ok then 0 else 1)
        stdout := host.deliver (host.runScript faults files script).output
        stderr := "" }) := by
    unfold Host.exec
    rw [if_pos ⟨hshell, hline⟩, if_pos (handed_commandLine osInfo hscript)]
  unfold Ends
  rw [execute_execFallback hos (buildRemoteCommand_posix hplatform script), hexec]
  cases (host.runScript faults files script).ok with
  | true => exact Iff.rfl
  | false => exact Iff.rfl

/-- Where the shell is not given the script, nothing is done. -/
theorem ends_execFallback_of_not_takes (htakes : ¬host.ShellTakes faults script)
    (hQ : ∀ e, Q files (.error e)) :
    Ends (fileHost session host faults) (execFallback sessionId script) files Q := by
  cases hos : host.osInfo with
  | error e =>
    change Ends _ (andThen (.done host.osInfo) _) files Q
    rw [hos, done_andThen]
    exact hQ e
  | ok osInfo =>
  have hline : ∃ line, buildRemoteCommand script.text osInfo = .ok line ∧
      (faults.shell = false ∧ host.takes line = true → handed line ≠ some script.text) := by
    by_cases hplatform : osInfo.platform = .windows
    · obtain ⟨line, hline, hnone⟩ := buildRemoteCommand_windows hplatform script
      exact ⟨line, hline, fun _ h => nomatch hnone.symm.trans h⟩
    · exact ⟨_, buildRemoteCommand_posix hplatform script,
        fun h => absurd ⟨osInfo, hos, hplatform, h.1, h.2⟩ htakes⟩
  obtain ⟨line, hline, hnot⟩ := hline
  unfold Ends
  rw [execute_execFallback hos hline]
  unfold Host.exec
  split
  · next h =>
    rw [if_neg (hnot h)]
    exact hQ _
  · exact hQ _

end Fallback

/-! ### The script of a write -/

/-- The digits of an octal number. -/
theorem octal_digits {mode : ℕ} : ∀ c ∈ Nat.toDigits 8 mode, '0' ≤ c ∧ c ≤ '7' := by
  have hdigit : ∀ d < 8, '0' ≤ Nat.digitChar d ∧ Nat.digitChar d ≤ '7' := by decide
  induction mode using Nat.strong_induction_on with
  | _ mode ih =>
    by_cases hlt : mode < 8
    · rw [Nat.toDigits_of_lt_base hlt]
      intro c hc
      rw [List.mem_singleton.mp hc]
      exact hdigit mode hlt
    · rw [Nat.toDigits_of_base_le (by decide) (Nat.le_of_not_lt hlt)]
      intro c hc
      obtain hc | hc := List.mem_append.mp hc
      · exact ih _ (Nat.div_lt_self (by omega) (by decide)) c hc
      · rw [List.mem_singleton.mp hc]
        exact hdigit _ (Nat.mod_lt _ (by decide))

theorem octalMode_octal (mode : ℕ) : octalMode (octal mode) = some mode := by
  unfold octalMode octal
  rw [String.toList_ofList, if_pos ⟨Nat.toDigits_ne_nil, octal_digits⟩,
    Nat.ofDigitChars_toDigits (by decide) (by decide)]

/-- An octal number is a word. -/
theorem read_octal (mode : ℕ) (before : List Token) :
    read { tokens := before } (octal mode).toList =
      { word := some (plainWord (octal mode)), tokens := before } := by
  have hname : ∀ c ∈ Nat.toDigits 8 mode, (c.isAlphanum || c = '_') = true := by
    intro c hc
    rw [Char.isAlphanum, Nat.isDigit_of_mem_toDigits (by decide) (by decide) hc, Bool.or_true,
      Bool.true_or]
  unfold octal plainWord
  rw [String.toList_ofList]
  cases hdigits : Nat.toDigits 8 mode with
  | nil => exact absurd hdigits Nat.toDigits_ne_nil
  | cons c =>
    rw [hdigits] at hname
    have hstep : Reader.step { tokens := before } c =
        { word := some [.plain c], tokens := before } :=
      readPlain_of_nameChar (hname c List.mem_cons_self) _
    rw [read_cons, hstep, read_nameChars fun c hc => hname c (List.mem_cons_of_mem _ hc)]
    rfl

/-- The tokens of the three lines. -/
def printTokens (text file : String) : List Token :=
  [.word (plainWord "printf"), .word (plainWord "%s"), .word (quotedWord text), .operator ['>'],
    .word (quotedWord file)]

def chmodTokens (mode : ℕ) (file : String) : List Token :=
  [.word (plainWord "chmod"), .word (plainWord (octal mode)), .word (quotedWord file)]

def mvTokens (source target : String) : List Token :=
  [.word (plainWord "mv"), .word (quotedWord source), .word (quotedWord target)]

theorem opens_print (text file : String) :
    Opens ("printf %s " ++ shellQuote text ++ " > " ++ shellQuote file ++ "\n")
      (printTokens text file ++ [.newline]) := by
  have hprintf : read {} "printf %s ".toList =
      { tokens := [.word (plainWord "printf"), .word (plainWord "%s")] } := rfl
  have hto : ∀ (word : Word) (before : List Token),
      read { word := some word, tokens := before } " > ".toList =
        { tokens := before ++ [.word word] ++ [.operator ['>']] } := by
    intro word before
    rfl
  unfold Opens
  simp only [String.toList_append, read_append]
  rw [hprintf, read_shellQuote, hto, read_shellQuote]
  rfl

theorem opens_chmod (mode : ℕ) (file : String) :
    Opens ("chmod " ++ octal mode ++ " " ++ shellQuote file ++ "\n")
      (chmodTokens mode file ++ [.newline]) := by
  have hchmod : read {} "chmod ".toList = { tokens := [.word (plainWord "chmod")] } := rfl
  have hblank : ∀ (word : Word) (before : List Token),
      read { word := some word, tokens := before } " ".toList =
        { tokens := before ++ [.word word] } := fun _ _ => rfl
  unfold Opens
  simp only [String.toList_append, read_append]
  rw [hchmod, read_octal, hblank, read_shellQuote]
  rfl

theorem tokens_mv (source target : String) :
    tokens ("mv " ++ shellQuote source ++ " " ++ shellQuote target) =
      some (mvTokens source target) := by
  have hmv : read {} "mv ".toList = { tokens := [.word (plainWord "mv")] } := rfl
  have hblank : ∀ (word : Word) (before : List Token),
      read { word := some word, tokens := before } " ".toList =
        { tokens := before ++ [.word word] } := fun _ _ => rfl
  unfold tokens
  simp only [String.toList_append, read_append]
  rw [hmv, read_shellQuote, hblank, read_shellQuote]
  rfl

/-- **The script of a write**, line by line. -/
theorem readLines_write (data tempPath path : String) (mode : Option ℕ) :
    readLines (Script.write data tempPath path mode).text =
      some (lineCommand (printTokens data tempPath) ::
        (mode.toList.map (fun mode => lineCommand (chmodTokens mode tempPath)) ++
          [lineCommand (mvTokens tempPath path)])) := by
  have hprint : Token.newline ∉ printTokens data tempPath := by simp [printTokens]
  have hchmod : ∀ mode, Token.newline ∉ chmodTokens mode tempPath := by simp [chmodTokens]
  have hmv : Token.newline ∉ mvTokens tempPath path := by simp [mvTokens]
  have hlast := readLines_line hmv (tokens_mv tempPath path)
  cases mode with
  | none =>
    have htext : (Script.write data tempPath path none).text =
        ("printf %s " ++ shellQuote data ++ " > " ++ shellQuote tempPath ++ "\n") ++
          ("mv " ++ shellQuote tempPath ++ " " ++ shellQuote path) := by
      change "printf %s " ++ shellQuote data ++ " > " ++ shellQuote tempPath ++ "\n" ++
        "" ++ "mv " ++
        shellQuote tempPath ++ " " ++ shellQuote path = _
      rw [String.append_empty]
      simp only [String.append_assoc]
    rw [htext, readLines_append hprint (opens_print data tempPath), hlast]
    rfl
  | some mode =>
    have htext : (Script.write data tempPath path (some mode)).text =
        ("printf %s " ++ shellQuote data ++ " > " ++ shellQuote tempPath ++ "\n") ++
          (("chmod " ++ octal mode ++ " " ++ shellQuote tempPath ++ "\n") ++
            ("mv " ++ shellQuote tempPath ++ " " ++ shellQuote path)) := by
      change "printf %s " ++ shellQuote data ++ " > " ++ shellQuote tempPath ++ "\n" ++
        ("chmod " ++ octal mode ++ " " ++ shellQuote tempPath ++ "\n") ++ "mv " ++
        shellQuote tempPath ++ " " ++ shellQuote path = _
      simp only [String.append_assoc]
    rw [htext, readLines_append hprint (opens_print data tempPath),
      readLines_append (hchmod mode) (opens_chmod mode tempPath), hlast]
    rfl

theorem read_print (text file : String) :
    (lineCommand (printTokens text file)).bind Command.read = some (.print text file) := by
  have hline : lineCommand (printTokens text file) = some
      [.word (plainWord "printf"), .word (plainWord "%s"), .word (quotedWord text),
        .redirection none ['>'] (quotedWord file)] := rfl
  rw [hline, Option.bind_some, Command.read,
    if_pos ⟨rfl, rfl, isQuoted_quotedWord text, isQuoted_quotedWord file⟩, text_quotedWord,
    text_quotedWord]

theorem read_chmod (mode : ℕ) (file : String) :
    (lineCommand (chmodTokens mode file)).bind Command.read = some (.chmod (octal mode) file) := by
  have hline : lineCommand (chmodTokens mode file) = some
      [.word (plainWord "chmod"), .word (plainWord (octal mode)), .word (quotedWord file)] := rfl
  rw [hline, Option.bind_some, Command.read, if_pos ⟨rfl, isQuoted_quotedWord file⟩,
    text_quotedWord, text_plainWord]

theorem read_mv (source target : String) :
    (lineCommand (mvTokens source target)).bind Command.read = some (.mv source target) := by
  have hline : lineCommand (mvTokens source target) = some
      [.word (plainWord "mv"), .word (quotedWord source), .word (quotedWord target)] := rfl
  have hne : plainWord "mv" ≠ plainWord "chmod" := by decide
  rw [hline, Option.bind_some, Command.read, if_neg fun h => hne h.1,
    if_pos ⟨rfl, isQuoted_quotedWord source, isQuoted_quotedWord target⟩, text_quotedWord,
    text_quotedWord]

/-- The files after the script has printed the data. -/
def Host.printed (host : Host) (faults : Faults) (files : Files) (data tempPath : String) : Files :=
  (host.write faults files tempPath (Utf8.encode data)).1

/-- The files after the mode has been set, if there is one. -/
def Host.staged (host : Host) (faults : Faults) (files : Files) (data tempPath : String)
    (mode : Option ℕ) : Files :=
  match mode with
  | some mode =>
    (host.runCommand faults (host.printed faults files data tempPath)
      (.chmod (octal mode) tempPath)).files
  | none => host.printed faults files data tempPath

/-- A command of a script that prints nothing. -/
theorem runCommand_output (host : Host) (faults : Faults) (files : Files) {command : Command}
    (h : ∀ file, command ≠ .cat file) : (host.runCommand faults files command).output = [] := by
  cases command with
  | print => rfl
  | chmod =>
    unfold Host.runCommand
    dsimp only
    split
    · split
      · rfl
      · rfl
    · rfl
  | mv => rfl
  | cat file => exact absurd rfl (h file)

/-- **What the script of a write does**: whatever becomes of the first lines, it goes on, and its
status is that of the `mv`. -/
theorem runScript_write (host : Host) (faults : Faults) (files : Files)
    (data tempPath path : String)
    (mode : Option ℕ) :
    host.runScript faults files (.write data tempPath path mode) =
      ⟨(host.mv faults (host.staged faults files data tempPath mode) tempPath path).1, [],
        (host.mv faults (host.staged faults files data tempPath mode) tempPath path).2⟩ := by
  have hprint : ∀ files, host.runLine faults files (lineCommand (printTokens data tempPath)) =
      host.runCommand faults files (.print data tempPath) := by
    intro files
    rw [Host.runLine, read_print]
  have hchmod : ∀ files mode, host.runLine faults files (lineCommand (chmodTokens mode tempPath)) =
      host.runCommand faults files (.chmod (octal mode) tempPath) := by
    intro files mode
    rw [Host.runLine, read_chmod]
  have hmv : ∀ files, host.runLine faults files (lineCommand (mvTokens tempPath path)) =
      host.runCommand faults files (.mv tempPath path) := by
    intro files
    rw [Host.runLine, read_mv]
  unfold Host.runScript
  dsimp only
  rw [readLines_write]
  dsimp only
  unfold Host.runLines
  cases mode with
  | none =>
    simp only [Option.toList_none, List.map_nil, List.nil_append, List.foldl_cons, List.foldl_nil,
      hprint, hmv]
    rfl
  | some mode =>
    have houtput := runCommand_output host faults
      (host.runCommand faults files (.print data tempPath)).files
      (show ∀ file, Command.chmod (octal mode) tempPath ≠ .cat file from nofun)
    simp only [Option.toList_some, List.map_cons, List.map_nil, List.singleton_append,
      List.foldl_cons, List.foldl_nil, hprint, hchmod, hmv]
    rw [houtput]
    rfl

/-! ### The script of a read -/

/-- **The script of a read** is one `cat`. -/
theorem runScript_cat (host : Host) (faults : Faults) (files : Files) (path : String) :
    host.runScript faults files (.cat path) = host.runCommand faults files (.cat path) := by
  have hcat : read {} "cat ".toList = { tokens := [.word (plainWord "cat")] } := rfl
  have htokens : tokens ("cat " ++ shellQuote path) =
      some [.word (plainWord "cat"), .word (quotedWord path)] := by
    unfold tokens
    rw [String.toList_append, read_append, hcat, read_shellQuote]
    rfl
  have hline : lineCommand [.word (plainWord "cat"), .word (quotedWord path)] = some
      [.word (plainWord "cat"), .word (quotedWord path)] := rfl
  have hread : (lineCommand [.word (plainWord "cat"), .word (quotedWord path)]).bind Command.read =
      some (.cat path) := by
    rw [hline, Option.bind_some, Command.read, if_pos ⟨rfl, isQuoted_quotedWord path⟩,
      text_quotedWord]
  have hlines : readLines (Script.cat path).text =
      some [lineCommand [.word (plainWord "cat"), .word (quotedWord path)]] :=
    readLines_line (by simp) htokens
  unfold Host.runScript
  dsimp only
  rw [hlines]
  dsimp only
  rw [Host.runLines, List.foldl_cons, List.foldl_nil, Host.runLine, hread]
  dsimp only
  rw [List.nil_append]

end Ssh
