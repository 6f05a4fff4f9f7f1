import McpSshTool.Library.DoubledQuotes
import McpSshTool.Ssh.Quoting

/-!
# Quoting for PowerShell

PowerShell takes five characters for single quotes: the apostrophe and the typographic ones from
U+2018 to U+201B. The quoters double the apostrophe alone.

* `readPowerShellLiteral` — a literal as PowerShell reads it;
* `powerShellQuoters` — the copies of the quoter; `readLiteral_iff` — when a value is read back;
* `ReadsScript`, `readsScript_iff` — the line of `buildPowerShellCommand`: the script is read from
  its literal, and in it the values and the directory from theirs;
* `readsInstall_iff` — the enrollment command.
-/

open DoubledQuotes

namespace Ssh

/-! ### Literals -/

/-- What PowerShell takes for a single quote. -/
def isSingleQuote (c : Char) : Bool := c = apostrophe || (0x2018 ≤ c.toNat && c.toNat ≤ 0x201B)

/-- What the quoters double. -/
def isApostrophe (c : Char) : Bool := c = apostrophe

/-- The value of the literal that a text starts with, and what follows it, as PowerShell reads
them. -/
def readPowerShellLiteral (text : String) : Option (List Char × List Char) :=
  readLiteral isSingleQuote text.toList

/-- The text has none of U+2018, U+2019, U+201A and U+201B. -/
def NoTypographicQuote (text : String) : Prop :=
  ∀ c ∈ text.toList, ¬(0x2018 ≤ c.toNat ∧ c.toNat ≤ 0x201B)

instance (text : String) : Decidable (NoTypographicQuote text) :=
  List.decidableBAll _ text.toList

theorem isSingleQuote_of_isApostrophe (c : Char) (h : isApostrophe c = true) :
    isSingleQuote c = true := by
  unfold isSingleQuote
  rw [show decide (c = apostrophe) = true from h, Bool.true_or]

theorem doubles_iff {text : String} :
    Doubles isSingleQuote isApostrophe text.toList ↔ NoTypographicQuote text := by
  refine forall₂_congr fun c _ => ?_
  have hapostrophe : apostrophe.toNat = 39 := rfl
  simp only [isSingleQuote, isApostrophe, Bool.or_eq_true, Bool.and_eq_true, decide_eq_true_eq]
  constructor
  · rintro h htypographic
    obtain rfl := h (.inr htypographic)
    omega
  · rintro h (hc | hc)
    · exact hc
    · exact absurd hc h

/-- The copies of the quoter: of the command lines and of the control plane. -/
def powerShellQuoters : List (String → String) :=
  [powerShellQuote, Remote.RemoteControlPlane.quotePowerShellArg]

/-- The quoters write a literal in which the apostrophes are doubled. -/
theorem toList_powerShellQuoter {quoter : String → String} (h : quoter ∈ powerShellQuoters)
    (value : String) :
    (quoter value).toList = DoubledQuotes.Part.write isApostrophe apostrophe
      (.literal value.toList) := by
  have hchars : (value.toList.flatMap fun c => if c = apostrophe then "''".toList else [c]) =
      value.toList.flatMap fun c => if isApostrophe c then [c, c] else [c] := by
    refine congrArg (List.flatMap · value.toList) (funext fun c => ?_)
    by_cases hc : c = apostrophe
    · subst hc
      rfl
    · rw [if_neg hc, if_neg (by simpa [isApostrophe] using hc)]
  simp only [powerShellQuoters, List.mem_cons, List.not_mem_nil, or_false] at h
  obtain rfl | rfl := h
  · simp only [powerShellQuote, replaceChar, String.toList_append, String.toList_ofList]
    exact congrArg (apostrophe :: · ++ [apostrophe]) hchars
  · unfold Remote.RemoteControlPlane.quotePowerShellArg Remote.RemoteControlPlane.quoteArg
    simp only [String.toList_append, String.toList_ofList]
    exact congrArg (apostrophe :: · ++ [apostrophe]) hchars

theorem reads_singleton_iff {value cs : List Char} :
    Reads isSingleQuote [.literal value] cs ↔ readLiteral isSingleQuote cs = some (value, []) := by
  constructor
  · intro h
    cases h with
    | literal hread h =>
      cases h
      exact hread
  · exact fun h => .literal h .nil

/-- **When a value is read back** as one literal. -/
theorem readPowerShellLiteral_iff {quoter : String → String} (h : quoter ∈ powerShellQuoters)
    (value : String) :
    readPowerShellLiteral (quoter value) = some (value.toList, []) ↔ NoTypographicQuote value := by
  have hwrite : (quoter value).toList =
      write isApostrophe apostrophe [.literal value.toList] := by
    rw [toList_powerShellQuoter h, write, List.flatMap_singleton]
  have hseparated : Separated isSingleQuote [.literal value.toList] := ⟨.inl rfl, trivial⟩
  rw [readPowerShellLiteral, ← reads_singleton_iff, hwrite,
    reads_write_iff isSingleQuote_of_isApostrophe rfl hseparated, ← doubles_iff]
  simp

/-! ### Command lines -/

/-- How the entries of the environment are set, taken apart. -/
def settingParts (env : Environment) : List (DoubledQuotes.Part Char) :=
  env.flatMap fun entry =>
    [.text ("$env:" ++ entry.1 ++ " = ").toList, .literal entry.2.toList, .text "; ".toList]

/-- How the directory is changed. -/
def directoryParts (cwd : Option String) : List (DoubledQuotes.Part Char) :=
  match workingDirectory cwd with
  | some cwd => [.text "Set-Location -Path ".toList, .literal cwd.toList, .text "; ".toList]
  | none => []

/-- The script that `buildPowerShellCommand` writes, taken apart. -/
def scriptParts (command : String) (cwd : Option String) (env : Environment) :
    List (DoubledQuotes.Part Char) :=
  settingParts env ++ directoryParts cwd ++ [.text command.toList]

/-- What stands before the script. -/
def powerShellHead : String :=
  "powershell -NoLogo -NoProfile -NonInteractive -ExecutionPolicy Bypass -Command "

/-- **What PowerShell reads of a line**: one literal behind the options, and in the script that is
its value the values of the environment and the directory, each as one literal, and the command. -/
def ReadsScript (command : String) (cwd : Option String) (env : Environment)
    (line : String) : Prop :=
  ∃ script, Reads isSingleQuote [.text powerShellHead.toList, .literal script] line.toList ∧
    Reads isSingleQuote (scriptParts command cwd env) script

theorem separated_scriptParts (command : String) (cwd : Option String) (env : Environment) :
    Separated isSingleQuote (scriptParts command cwd env) := by
  unfold scriptParts settingParts
  induction env with
  | nil =>
    unfold directoryParts
    cases workingDirectory cwd with
    | none => trivial
    | some => exact ⟨.inr ⟨_, _, _, rfl, rfl⟩, trivial⟩
  | cons entry env ih => exact ⟨.inr ⟨_, _, _, rfl, rfl⟩, ih⟩

theorem toList_powerShellQuote (value : String) :
    (powerShellQuote value).toList =
      DoubledQuotes.Part.write isApostrophe apostrophe (.literal value.toList) :=
  toList_powerShellQuoter List.mem_cons_self value

theorem toList_settings (env : Environment) :
    (if env = [] then ""
      else String.intercalate "; " (env.map fun entry =>
        "$env:" ++ entry.1 ++ " = " ++ powerShellQuote entry.2) ++ "; ").toList =
      write isApostrophe apostrophe (settingParts env) := by
  by_cases hnil : env = []
  · subst hnil
    rfl
  · rw [if_neg hnil, toList_intercalate_ended "; " (by simpa using hnil), List.flatMap_map,
      settingParts, write, List.flatMap_assoc]
    refine congrArg (List.flatMap · env) (funext fun entry => ?_)
    rw [String.toList_append, toList_powerShellQuote, List.append_assoc]
    rfl

theorem toList_directory (cwd : Option String) :
    (match workingDirectory cwd with
      | some cwd => "Set-Location -Path " ++ powerShellQuote cwd ++ "; "
      | none => "").toList = write isApostrophe apostrophe (directoryParts cwd) := by
  unfold directoryParts
  cases workingDirectory cwd with
  | none => rfl
  | some =>
    dsimp only
    rw [String.toList_append, String.toList_append, toList_powerShellQuote, List.append_assoc]
    rfl

/-- The line that is written. -/
theorem toList_buildPowerShellCommand {command line : String} {cwd : Option String}
    {env : Environment}
    (h : buildPowerShellCommand command cwd env = .ok line) :
    ValidNames env ∧ line.toList = write isApostrophe apostrophe
      [.text powerShellHead.toList,
        .literal (write isApostrophe apostrophe (scriptParts command cwd env))] := by
  unfold buildPowerShellCommand at h
  cases hvalid : assertValidEnvironment env with
  | error =>
    rw [hvalid] at h
    cases h
  | ok =>
    rw [hvalid] at h
    obtain rfl := Except.ok.inj h
    refine ⟨assertValidEnvironment_eq_ok_iff.mp hvalid, ?_⟩
    have hscript : ∀ settings directory : String,
        settings.toList = write isApostrophe apostrophe (settingParts env) →
        directory.toList = write isApostrophe apostrophe (directoryParts cwd) →
        (settings ++ directory ++ command).toList =
          write isApostrophe apostrophe (scriptParts command cwd env) := by
      intro settings directory hsettings hdirectory
      rw [String.toList_append, String.toList_append, hsettings, hdirectory, scriptParts, write,
        write, write, List.flatMap_append, List.flatMap_append]
      exact congrArg _ (List.append_nil _).symm
    have hwritten := hscript _ _ (toList_settings env) (toList_directory cwd)
    rw [String.toList_append, toList_powerShellQuote]
    refine (congrArg (fun script => powerShellHead.toList ++
      DoubledQuotes.Part.write isApostrophe apostrophe (.literal script)) hwritten).trans ?_
    exact congrArg _ (List.append_nil _).symm

theorem NoTypographicQuote.append {a b : String} (ha : NoTypographicQuote a)
    (hb : NoTypographicQuote b) :
    NoTypographicQuote (a ++ b) := by
  unfold NoTypographicQuote
  rw [String.toList_append, List.forall_mem_append]
  exact ⟨ha, hb⟩

/-- The name of a variable has letters, digits and underscores. -/
theorem noTypographicQuote_of_key {key : String} (h : isPosixEnvKey key = true) :
    NoTypographicQuote key := by
  intro c hc htypographic
  have hname := nameChars_of_envKey h c hc
  -- the ranges of the capital letters, the small ones and the digits
  change (((decide (65 ≤ c.val ∧ c.val ≤ 90) || (decide (97 ≤ c.val) && decide (c.val ≤ 122))) ||
    (decide (48 ≤ c.val) && decide (c.val ≤ 57))) || decide (c = '_')) = true at hname
  simp only [Bool.or_eq_true, Bool.and_eq_true, decide_eq_true_eq] at hname
  have hval : c.toNat = c.val.toNat := rfl
  obtain (((hupper | hlower) | hdigit) | rfl) := hname
  · have hle : c.val.toNat ≤ 90 := hupper.2
    omega
  · have hle : c.val.toNat ≤ 122 := hlower.2
    omega
  · have hle : c.val.toNat ≤ 57 := hdigit.2
    omega
  · exact absurd htypographic.1 (by decide)

theorem doubles_between {before value behind : String} (hbefore : NoTypographicQuote before)
    (hbehind : NoTypographicQuote behind) :
    (∀ part ∈ ([.text before.toList, .literal value.toList, .text behind.toList] :
        List (DoubledQuotes.Part Char)),
      Doubles isSingleQuote isApostrophe part.chars) ↔ NoTypographicQuote value := by
  rw [List.forall_mem_cons, List.forall_mem_cons, List.forall_mem_singleton,
    DoubledQuotes.Part.chars, DoubledQuotes.Part.chars, DoubledQuotes.Part.chars, doubles_iff,
    doubles_iff, doubles_iff]
  exact ⟨fun h => h.2.1, fun h => ⟨hbefore, h, hbehind⟩⟩

/-- **When PowerShell reads the line as it is meant.** -/
theorem readsScript_iff {command line : String} {cwd : Option String} {env : Environment}
    (h : buildPowerShellCommand command cwd env = .ok line) :
    ReadsScript command cwd env line ↔
      NoTypographicQuote command ∧ (∀ directory ∈ workingDirectory cwd,
        NoTypographicQuote directory) ∧
        ∀ entry ∈ env, NoTypographicQuote entry.2 := by
  obtain ⟨hvalid, hline⟩ := toList_buildPowerShellCommand h
  have hsettings : (∀ part ∈ settingParts env, Doubles isSingleQuote isApostrophe part.chars) ↔
      ∀ entry ∈ env, NoTypographicQuote entry.2 := by
    unfold settingParts
    rw [List.forall_mem_flatMap]
    refine forall₂_congr fun entry hentry => ?_
    exact doubles_between ((NoTypographicQuote.append (by decide)
      (noTypographicQuote_of_key (hvalid entry hentry))).append (by decide)) (by decide)
  have hdirectory : (∀ part ∈ directoryParts cwd, Doubles isSingleQuote isApostrophe part.chars) ↔
      ∀ directory ∈ workingDirectory cwd, NoTypographicQuote directory := by
    unfold directoryParts
    cases workingDirectory cwd with
    | none => simp
    | some directory =>
      refine (doubles_between (by decide) (by decide)).trans ?_
      exact ⟨fun h _ hmem => Option.some.inj hmem ▸ h, fun h => h directory rfl⟩
  unfold ReadsScript
  rw [hline, nested_iff isSingleQuote_of_isApostrophe rfl powerShellHead.toList
    (separated_scriptParts command cwd env), scriptParts, List.forall_mem_append,
      List.forall_mem_append,
    hsettings, hdirectory, List.forall_mem_singleton, DoubledQuotes.Part.chars, doubles_iff]
  tauto

/-! ### The enrollment command -/

open Remote RemoteControlPlane

/-- The enrollment command for Windows that an owner is shown. -/
def windowsCommand (d : Deployment) (agent : RemoteAgentRecord) (token : Option String) : Value :=
  ((Value.obj (installCommand d agent token)).member "commands").member "windows"

/-- The command, taken apart. -/
def installParts (url token name : String) : List (DoubledQuotes.Part Char) :=
  [.text "npx --yes --package mcp-ssh-tool@latest mcp-ssh-agent enroll --server ".toList,
    .literal url.toList,
    .text " --token ".toList, .literal token.toList, .text " --alias ".toList, .literal name.toList]

/-- **When PowerShell reads the enrollment command as it is meant.** -/
theorem readsInstall_iff (d : Deployment) (agent : RemoteAgentRecord) (token : Option String) :
    ∃ command, windowsCommand d agent token = .str command ∧
      (Reads isSingleQuote (installParts d.config.publicBaseUrl
          (token.getD "<create-a-new-enrollment-token>") agent.aliasName) command.toList ↔
        NoTypographicQuote d.config.publicBaseUrl ∧
          NoTypographicQuote (token.getD "<create-a-new-enrollment-token>") ∧
          NoTypographicQuote agent.aliasName) := by
  refine ⟨_, rfl, ?_⟩
  generalize token.getD "<create-a-new-enrollment-token>" = tokenArgument
  have hquote : ∀ value, (quotePowerShellArg value).toList =
      DoubledQuotes.Part.write isApostrophe apostrophe (.literal value.toList) :=
    toList_powerShellQuoter (List.mem_cons_of_mem _ List.mem_cons_self)
  have hcommand : (enrollCommand d quotePowerShellArg agent tokenArgument).toList =
      write isApostrophe apostrophe (installParts d.config.publicBaseUrl tokenArgument
        agent.aliasName) := by
    have hserver : "npx --yes --package mcp-ssh-tool@latest mcp-ssh-agent enroll --server ".toList =
        "npx --yes --package mcp-ssh-tool@latest mcp-ssh-agent enroll".toList ++
          (" ".toList ++ "--server ".toList) := rfl
    have htoken : " --token ".toList = " ".toList ++ "--token ".toList := rfl
    have halias : " --alias ".toList = " ".toList ++ "--alias ".toList := rfl
    unfold enrollCommand
    rw [String.intercalate_cons_cons, String.intercalate_cons_cons, String.intercalate_cons_cons,
      String.intercalate_singleton]
    simp only [String.toList_append, hquote, hserver, htoken, halias, write, installParts,
      List.flatMap_cons, List.flatMap_nil, List.append_nil, DoubledQuotes.Part.write,
      List.append_assoc]
  have hseparated : Separated isSingleQuote
      (installParts d.config.publicBaseUrl tokenArgument agent.aliasName) :=
    ⟨.inr ⟨_, _, _, rfl, rfl⟩, .inr ⟨_, _, _, rfl, rfl⟩, .inl rfl, trivial⟩
  rw [hcommand, reads_write_iff isSingleQuote_of_isApostrophe rfl hseparated]
  simp [installParts, doubles_iff]

/-! ### All of them -/

/-- **When quoting for PowerShell is exact.** A quoter writes one literal with its value, a command
line is read as it is meant on both levels, and so is the enrollment command, exactly where there is
none of the typographic quotes in what is quoted. -/
theorem power_shell_quoting_iff (value : String) :
    (∀ quoter ∈ powerShellQuoters,
      readPowerShellLiteral (quoter value) = some (value.toList, []) ↔ NoTypographicQuote value) ∧
    (∀ command cwd env line, buildPowerShellCommand command cwd env = .ok line →
      (ReadsScript command cwd env line ↔
        NoTypographicQuote command ∧ (∀ directory ∈ workingDirectory cwd,
          NoTypographicQuote directory) ∧
          ∀ entry ∈ env, NoTypographicQuote entry.2)) ∧
    ∀ d agent token, ∃ command, windowsCommand d agent token = .str command ∧
      (Reads isSingleQuote (installParts d.config.publicBaseUrl
          (token.getD "<create-a-new-enrollment-token>") agent.aliasName) command.toList ↔
        NoTypographicQuote d.config.publicBaseUrl ∧
          NoTypographicQuote (token.getD "<create-a-new-enrollment-token>") ∧
          NoTypographicQuote agent.aliasName) :=
  ⟨fun _ hquoter => readPowerShellLiteral_iff hquoter value, fun _ _ _ _ => readsScript_iff,
    readsInstall_iff⟩

/-- A directory with an apostrophe in its name. -/
theorem power_shell_quoting_iff_apostrophe :
    readPowerShellLiteral (powerShellQuote "it's") = some ("it's".toList, []) ∧
      ∃ line, buildPowerShellCommand "Get-Date" (some "C:/it's") [("NAME", "don't")] = .ok line ∧
        ReadsScript "Get-Date" (some "C:/it's") [("NAME", "don't")] line := by
  obtain ⟨hquoters, hlines, -⟩ := power_shell_quoting_iff "it's"
  exact ⟨(hquoters powerShellQuote List.mem_cons_self).mpr (by decide), _, rfl,
    (hlines _ _ _ _ rfl).mpr (by decide)⟩

/-- The directory that opens a literal of its own, and closes it. -/
def openingDirectory : String := "\u2018; calc #"

/-- **A value breaks out of its literal**: the literal is empty, and what follows the quote in the
value is read behind it. -/
theorem literal_ends_early :
    (¬∀ quoter ∈ powerShellQuoters, ∀ value,
      readPowerShellLiteral (quoter value) = some (value.toList, [])) ∧
    readPowerShellLiteral (powerShellQuote openingDirectory) = some ([], "; calc #'".toList) := by
  have hread : readPowerShellLiteral (powerShellQuote openingDirectory) =
    some ([], "; calc #'".toList) := by
    decide
  refine ⟨fun h => ?_, hread⟩
  have hvalue := h powerShellQuote List.mem_cons_self openingDirectory
  rw [hread] at hvalue
  exact absurd hvalue (by decide)

end Ssh
