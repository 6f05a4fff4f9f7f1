import McpSshTool.Library.ShellWords
import McpSshTool.Ssh.Shell

/-!
# What a command line says to the shell

The lines that `buildPosixCommand` builds, read with the word rules of the shell.

* `handed` — the script that a line `sh -lc …` hands to the shell it names, unless the shell takes
  it for options (`TakenForOptions`);
* `scriptOf`, `buildPosixCommand_eq` — the script of `buildPosixCommand`, its exports one by one;
* `opens_cd`, `opens_export` — the change of directory and an export, each read as the words that
  the caller gave, whatever stands after them.
-/

open ShellWords

namespace Ssh

/-- The spelling of an apostrophe between two quotation marks. -/
def betweenMarks : List Char := [ShellWords.apostrophe, quotation, ShellWords.apostrophe, quotation,
  ShellWords.apostrophe]

/-- The spelling of an apostrophe behind a backslash. -/
def behindBackslash : List Char := [ShellWords.apostrophe, '\\', ShellWords.apostrophe,
  ShellWords.apostrophe]

theorem spells_betweenMarks : SpellsApostrophe betweenMarks := fun _ _ => rfl

theorem spells_behindBackslash : SpellsApostrophe behindBackslash := fun _ _ => rfl

theorem shellQuote_eq (value : String) :
    shellQuote value = String.ofList (singleQuoted betweenMarks value.toList) := by
  unfold shellQuote replaceChar
  rw [← String.toList_inj]
  simp only [String.toList_append, String.toList_ofList]
  rfl

theorem tokens_shellQuote (value : String) :
    tokens (shellQuote value) = some [.word (quotedWord value)] := by
  rw [shellQuote_eq]
  exact tokens_singleQuoted spells_betweenMarks value.toList

theorem read_shellQuote (value : String) (word : Option Word) (before : List Token) :
    read { word := word, tokens := before } (shellQuote value).toList =
      { word := some (word.getD [] ++ quotedWord value), tokens := before } := by
  rw [shellQuote_eq, String.toList_ofList]
  exact read_singleQuoted spells_betweenMarks value.toList word before

/-! ### The environment -/

/-- The names are names of environment variables. -/
def ValidNames (env : Environment) : Prop := ∀ entry ∈ env, isPosixEnvKey entry.1 = true

theorem assertValidEnvironment_eq_ok_iff {env : Environment} :
    assertValidEnvironment env = .ok () ↔ ValidNames env := by
  unfold assertValidEnvironment ValidNames
  cases hfind : env.find? fun entry => !isPosixEnvKey entry.1 with
  | none => simpa using hfind
  | some entry =>
    have hbad := List.find?_some hfind
    refine iff_of_false nofun fun h => ?_
    rw [h entry (List.mem_of_find?_eq_some hfind)] at hbad
    cases hbad

/-- One export of a script. -/
def exportCommand (entry : String × String) : String :=
  "export " ++ entry.1 ++ "=" ++ shellQuote entry.2 ++ "; "

/-- The exports, one after the other, and what stands after them. -/
def exportsBefore (env : Environment) (command : String) : String :=
  env.foldr (fun entry text => exportCommand entry ++ text) command

@[simp] theorem exportsBefore_nil (command : String) : exportsBefore [] command = command := rfl

@[simp] theorem exportsBefore_cons (entry : String × String) (env : Environment)
    (command : String) :
    exportsBefore (entry :: env) command = exportCommand entry ++ exportsBefore env command := rfl

theorem intercalate_exports (entry : String × String) (env : Environment) (command : String) :
    String.intercalate "; " ((entry :: env).map fun entry =>
        "export " ++ entry.1 ++ "=" ++ shellQuote entry.2) ++ "; " ++ command =
      exportsBefore (entry :: env) command := by
  induction env generalizing entry with
  | nil => simp [exportCommand, String.append_assoc]
  | cons next env ih =>
    rw [exportsBefore_cons, ← ih next, List.map_cons, List.map_cons, String.intercalate_cons_cons]
    simp only [exportCommand, String.append_assoc]

theorem toList_intercalate_ended (separator : String) {parts : List String} (h : parts ≠ []) :
    (String.intercalate separator parts ++ separator).toList =
      parts.flatMap fun part => part.toList ++ separator.toList := by
  obtain ⟨part, parts, rfl⟩ := List.exists_cons_of_ne_nil h
  induction parts generalizing part with
  | nil => simp
  | cons next parts ih =>
    rw [String.intercalate_cons_cons, String.append_assoc, String.append_assoc, List.flatMap_cons,
      ← ih next (List.cons_ne_nil _ _)]
    simp only [String.toList_append, List.append_assoc]

/-- The script that `buildPosixCommand` hands to the shell. -/
def scriptOf (command : String) (cwd : Option String) (env : Environment) : String :=
  match workingDirectory cwd with
  | some cwd => "cd " ++ shellQuote cwd ++ " && " ++ exportsBefore env command
  | none => exportsBefore env command

/-- **The line of `buildPosixCommand`**, which is built where the names are valid. -/
theorem buildPosixCommand_eq {env : Environment} (henv : ValidNames env) (command : String)
    (cwd : Option String) (shellName : String) :
    buildPosixCommand command cwd env shellName =
      .ok (shellName ++ " -lc " ++ shellQuote (scriptOf command cwd env)) := by
  have hexports : (if env = [] then command
      else String.intercalate "; " (env.map fun entry =>
        "export " ++ entry.1 ++ "=" ++ shellQuote entry.2) ++ "; " ++ command) =
        exportsBefore env command := by
    cases env with
    | nil => rfl
    | cons entry env =>
      rw [if_neg (List.cons_ne_nil _ _)]
      exact intercalate_exports entry env command
  unfold buildPosixCommand
  rw [assertValidEnvironment_eq_ok_iff.mpr henv, hexports]
  rfl

/-! ### Reading the script -/

/-- A name has letters, digits and underscores. -/
theorem nameChars_of_envKey {key : String} (hkey : isPosixEnvKey key = true) :
    ∀ c ∈ key.toList, (c.isAlphanum || c = '_') = true := by
  unfold isPosixEnvKey at hkey
  cases hchars : key.toList with
  | nil =>
    rw [hchars] at hkey
    cases hkey
  | cons =>
    rw [hchars, Bool.and_eq_true, List.all_eq_true] at hkey
    refine List.forall_mem_cons.mpr ⟨?_, hkey.2⟩
    have hfirst := hkey.1
    simp only [Char.isAlphanum, Bool.or_eq_true] at hfirst ⊢
    tauto

theorem nameChar_ne {c : Char} (hc : (c.isAlphanum || c = '_') = true) (d : Char)
    (hd : (d.isAlphanum || d = '_') = false) : c ≠ d := by
  rintro rfl
  rw [hd] at hc
  cases hc

/-- A letter, a digit or an underscore is a character like any other to the shell. -/
theorem readPlain_of_nameChar {c : Char} (hc : (c.isAlphanum || c = '_') = true) (r : Reader) :
    r.readPlain c = r.push (.plain c) := by
  have hne := nameChar_ne hc
  have hoperator : [c] ∉ operators := by
    have hsingle : [c] ∈ operators → c ∈ ['&', '|', ';', '<', '>', '(', ')'] := by
      simp [operators]
    have hspecial : ['&', '|', ';', '<', '>', '(', ')'].all
        (fun d => !(d.isAlphanum || d = '_')) = true := by decide
    have hnot (h : [c] ∈ operators) : (!(c.isAlphanum || c = '_')) = true :=
      List.all_eq_true.mp hspecial c (hsingle h)
    exact fun h => hne c (by simpa using hnot h) rfl
  unfold Reader.readPlain
  rw [if_neg (hne _ rfl), if_neg (hne _ rfl), if_neg (hne _ rfl), if_neg (hne _ rfl),
    if_neg fun h => h.1.elim (hne _ rfl) (hne _ rfl), if_neg (hne _ rfl),
    if_neg fun h => h.elim (hne _ rfl) (hne _ rfl), if_neg (hne _ rfl), if_neg hoperator,
    if_neg fun h => hne _ rfl h.1]

theorem read_nameChars {cs : List Char} (hcs : ∀ c ∈ cs, (c.isAlphanum || c = '_') = true)
    (word : Word) (before : List Token) :
    read { word := some word, tokens := before } cs =
      { word := some (word ++ cs.map .plain), tokens := before } := by
  induction cs generalizing word with
  | nil => simp
  | cons c cs ih =>
    have hstep : Reader.step { word := some word, tokens := before } c =
        { word := some (word ++ [.plain c]), tokens := before } :=
      readPlain_of_nameChar (hcs c List.mem_cons_self) _
    rw [read_cons, hstep, ih fun c hc => hcs c (List.mem_cons_of_mem _ hc), List.map_cons,
      List.append_assoc, List.singleton_append]

/-- A name begins a word of its own. -/
theorem read_envKey {key : String} (hkey : isPosixEnvKey key = true) (before : List Token) :
    read { tokens := before } key.toList =
      { word := some (plainWord key), tokens := before } := by
  have hname := nameChars_of_envKey hkey
  unfold isPosixEnvKey at hkey
  unfold plainWord
  cases hchars : key.toList with
  | nil =>
    rw [hchars] at hkey
    cases hkey
  | cons c =>
    rw [hchars, List.forall_mem_cons] at hname
    have hstep : Reader.step { tokens := before } c =
        { word := some [.plain c], tokens := before } := readPlain_of_nameChar hname.1 _
    rw [read_cons, hstep, read_nameChars hname.2]
    rfl

/-- What the change of directory reads as. -/
def cdTokens (cwd : String) : List Token :=
  [.word (plainWord "cd"), .word (quotedWord cwd), .operator ['&', '&']]

/-- **The change of directory** is `cd` with one word, the directory, before a `&&`. -/
theorem opens_cd (cwd : String) : Opens ("cd " ++ shellQuote cwd ++ " && ") (cdTokens cwd) := by
  have hcd : read {} "cd ".toList = { tokens := [.word (plainWord "cd")] } := rfl
  unfold Opens
  rw [String.toList_append, String.toList_append, read_append, read_append, hcd, read_shellQuote]
  rfl

/-- The word of an assignment. -/
def assignment (entry : String × String) : Word :=
  plainWord entry.1 ++ .plain '=' :: quotedWord entry.2

/-- What an export reads as. -/
def exportTokens (entry : String × String) : List Token :=
  [.word (plainWord "export"), .word (assignment entry), .operator [';']]

/-- **An export** is `export` with one word, the assignment of the value to the name. -/
theorem opens_export {entry : String × String} (hkey : isPosixEnvKey entry.1 = true) :
    Opens (exportCommand entry) (exportTokens entry) := by
  have hexport : read {} "export ".toList = { tokens := [.word (plainWord "export")] } := rfl
  have hequals : ∀ (word : Word) (before : List Token),
      read { word := some word, tokens := before } "=".toList =
        { word := some (word ++ [.plain '=']), tokens := before } := fun _ _ => rfl
  unfold Opens exportCommand
  simp only [String.toList_append, read_append]
  rw [hexport, read_envKey hkey, hequals, read_shellQuote, Option.getD_some, List.append_assoc]
  rfl

/-- What the exports of an environment read as. -/
def exportsTokens (env : Environment) : List Token := env.flatMap exportTokens

theorem exportsBefore_append (env : Environment) (command : String) :
    exportsBefore env command = exportsBefore env "" ++ command := by
  induction env with
  | nil => simp
  | cons entry env ih => rw [exportsBefore_cons, exportsBefore_cons, ih, String.append_assoc]

theorem opens_exports {env : Environment} (henv : ValidNames env) :
    Opens (exportsBefore env "") (exportsTokens env) := by
  induction env with
  | nil => rfl
  | cons entry env ih =>
    exact (opens_export (henv entry List.mem_cons_self)).append
      (ih fun entry hentry => henv entry (List.mem_cons_of_mem _ hentry))

/-! ### The line -/

/-- What a shell takes for more options where it looks for the script of its `-c`. -/
def TakenForOptions (script : List Char) : Prop := script.head? = some '-' ∨ script.head? = some '+'

instance (script : List Char) : Decidable (TakenForOptions script) :=
  inferInstanceAs (Decidable (_ ∨ _))

/-- **The script that a line hands to a shell**: the line names the shell and gives it one quoted
word to run. -/
def handed (line : String) : Option String :=
  match tokens line with
  | some [.word shell, .word option, .word script] =>
    if (shell = plainWord "sh" ∨ shell = plainWord "bash") ∧ option = plainWord "-lc" ∧
        script = quotedWord script.text ∧ ¬TakenForOptions script.text.toList then some script.text
    else none
  | _ => none

/-- The names that the callers of `buildPosixCommand` give. -/
def ShellName (shellName : String) : Prop := shellName = "sh" ∨ shellName = "bash"

theorem shellName_osInfo (osInfo : OSInfo) : ShellName osInfo.shellName := by
  unfold OSInfo.shellName ShellName
  split
  · exact .inr rfl
  · exact .inl rfl

theorem handed_line_eq {shellName : String} (hname : ShellName shellName) (script : String) :
    handed (shellName ++ " -lc " ++ shellQuote script) =
      if TakenForOptions script.toList then none else some script := by
  have hopens : Opens (shellName ++ " -lc ")
      [.word (plainWord shellName), .word (plainWord "-lc")] := by
    obtain rfl | rfl := hname
    · rfl
    · rfl
  have hshell : plainWord shellName = plainWord "sh" ∨ plainWord shellName = plainWord "bash" :=
    hname.imp (congrArg plainWord) (congrArg plainWord)
  unfold handed
  rw [tokens_append hopens, tokens_shellQuote]
  simp [hshell]

theorem handed_line {shellName script : String} (hname : ShellName shellName)
    (hscript : ¬TakenForOptions script.toList) :
    handed (shellName ++ " -lc " ++ shellQuote script) = some script := by
  rw [handed_line_eq hname, if_neg hscript]

theorem takenForOptions_scriptOf {command : String} {cwd : Option String} {env : Environment} :
    TakenForOptions (scriptOf command cwd env).toList ↔
      workingDirectory cwd = none ∧ env = [] ∧ TakenForOptions command.toList := by
  unfold scriptOf
  cases workingDirectory cwd with
  | some => exact iff_of_false (by simp [TakenForOptions]) nofun
  | none =>
    cases env with
    | nil => simp
    | cons =>
      refine iff_of_false ?_ nofun
      simp [TakenForOptions, exportCommand]

end Ssh
