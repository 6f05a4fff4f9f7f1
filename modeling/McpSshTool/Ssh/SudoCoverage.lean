import McpSshTool.Library.CommandLists
import McpSshTool.Ssh.CommandLines
import McpSshTool.Ssh.Ensure

/-!
# What sudo covers

`buildSudoCommand` writes `sudo -n ` before a text, which the shell takes apart afterwards.

* `Effect`, `runPipeline` — what a script of simple commands does: the programs that are started and
  the files that are redirected to, each as root or as the login user, and in which directory;
* `UnderSudo` — the commands that do everything as root, by their own words;
* `SudoCovers` — every part of the given command runs as root and in the requested directory;
* `sudo_covers_iff` — when the line of `buildSudoCommand` does that.
-/

open ShellWords

namespace Ssh

/-! ### Words -/

/-- A word that stands for itself: nothing in it is expanded. -/
def isLiteral (word : Word) : Bool :=
  word.head? ≠ some (.plain '~') && word.all fun piece =>
    match piece with
    | .quoted _ => true
    | .plain c => c ∉ ['*', '?', '[', Char.ofNat 123]
    | .active _ => false

/-- What the other words are expanded to: any words at all. -/
structure Expansion where
  expand : Word → List String
  literal : ∀ word, isLiteral word = true → expand word = [word.text]

/-- An assignment before a command. -/
def isAssignment (word : Word) : Bool :=
  let name := word.takeWhile (· ≠ .plain '=')
  name.length < word.length && name = plainWord (Word.text name) && isPosixEnvKey (Word.text name)

def startsWithDash (word : String) : Bool := word.toList.head? = some '-'

/-- What `sudo` takes for a variable to set. -/
def isSudoAssignment (word : String) : Bool :=
  word.toList.contains '=' && word.toList.head? ≠ some '='

/-- Whether `sudo` finds a program to run as root: behind `-n` and variables, and behind no option
that could name another user or another mode. -/
def namesProgram : List String → Bool
  | [] => false
  | word :: words =>
    if word = "-n" then namesProgram words
    else if startsWithDash word then false
    else if isSudoAssignment word then namesProgram words
    else true

/-- The same of words before their expansion: they are to be literal, up to the program. -/
def leadsToProgram : List Word → Bool
  | [] => false
  | word :: words =>
    isLiteral word &&
      if word.text = "-n" then leadsToProgram words
      else if startsWithDash word.text then false
      else if isSudoAssignment word.text then leadsToProgram words
      else true

/-! ### What a script does -/

/-- The changes of directory since the login, each with its arguments. -/
abbrev Directory := List (List String)

/-- What a part of a command does. -/
inductive Deed where
  | runs (words : List String)
  | redirects (operator : List Char) (target : List String)
deriving DecidableEq, Repr

/-- A deed, as root or as the login user, and where. -/
structure Effect where
  asRoot : Bool
  directory : Directory
  deed : Deed
deriving DecidableEq, Repr

/-- The login shell as a script goes on. -/
structure ShellState where
  effects : List Effect := []
  directory : Directory := []

/-- The words of a command. -/
def wordsOf (command : Simple) : List Word :=
  command.filterMap fun part =>
    match part with
    | .word word => some word
    | .redirection .. => none

def isWord : Part → Bool
  | .word _ => true
  | .redirection .. => false

section Run

variable (x : Expansion)

/-- The program of a command and its arguments: what is left without the assignments. -/
def argv (command : Simple) : List String :=
  ((wordsOf command).dropWhile isAssignment).flatMap x.expand

/-- Whether the words start a program as root. -/
def underSudo : List String → Bool
  | [] => false
  | word :: words => word = "sudo" && namesProgram words

/-- What a command does: the shell itself opens the files, then it starts the program. -/
def effectsOf (directory : Directory) (command : Simple) : List Effect :=
  (command.filterMap fun part =>
    match part with
    | .word _ => none
    | .redirection _ operator target =>
      some ⟨false, directory, .redirects operator (x.expand target)⟩) ++
  if wordsOf command = [] then []
  else [⟨underSudo (argv x command), directory, .runs (argv x command)⟩]

/-- The directory after a command of that status. -/
def directoryAfter (directory : Directory) (ok : Bool) : List String → Directory
  | [] => directory
  | word :: words => if word = "cd" ∧ ok = true then directory ++ [words] else directory

/-- **A pipeline.** Each command of a longer one has a shell of its own, whose directory is lost. -/
def runPipeline (s : ShellState) (p : Pipeline) (ok : Bool) : ShellState where
  effects := s.effects ++ p.flatMap (effectsOf x s.directory)
  directory :=
    match p with
    | [command] => directoryAfter s.directory ok (argv x command)
    | _ => s.directory

/-- A step of a script: the status may be any. -/
def Step (s : ShellState) (p : Pipeline) (ok : Bool) (s' : ShellState) : Prop :=
  s' = runPipeline x s p ok

end Run

/-- The directory that is asked for. -/
def requested (cwd : Option String) : Directory :=
  match workingDirectory cwd with
  | some d => [[d]]
  | none => []

/-- What a run does for the given command, the change of directory before it left out. -/
def own (cwd : Option String) (effects : List Effect) : List Effect :=
  match workingDirectory cwd with
  | some _ => effects.drop 1
  | none => effects

/-- A deed of root, in the directory. -/
def Covered (directory : Directory) (e : Effect) : Prop :=
  e.asRoot = true ∧ e.directory = directory

/-- **Sudo covers the command** of a line: whatever words are expanded to and whatever fails, each
part of the command is done as root and in the requested directory. -/
def SudoCovers (cwd : Option String) (line : String) : Prop :=
  ∃ script, handed line = some script ∧
    ∀ x s, RunsLists (Step x) {} (readLists script) s →
      ∀ e ∈ own cwd s.effects, Covered (requested cwd) e

/-! ### Commands that are root's by their own words -/

/-- The command redirects nothing and starts a program with `sudo`. -/
def isUnderSudo (command : Simple) : Bool :=
  command.all isWord &&
    match (wordsOf command).dropWhile isAssignment with
    | [] => false
    | word :: words => isLiteral word && word.text = "sudo" && leadsToProgram words

/-- The first command needs only lead to a program; the others are to be under sudo themselves. -/
def coveredCommands : List Simple → Bool
  | [] => false
  | first :: others =>
    first.all isWord && leadsToProgram (wordsOf first) && others.all isUnderSudo

/-- The expansion that does the most harm: whatever is not literal becomes an option. -/
def hostile : Expansion where
  expand word := if isLiteral word = true then [word.text] else ["-"]
  literal word hword := by rw [if_pos hword]

theorem namesProgram_expand (x : Expansion) {words : List Word}
    (h : leadsToProgram words = true) : namesProgram (words.flatMap x.expand) = true := by
  induction words with
  | nil => cases h
  | cons word words ih =>
    rw [leadsToProgram, Bool.and_eq_true] at h
    obtain ⟨hliteral, h⟩ := h
    rw [List.flatMap_cons, x.literal word hliteral, List.singleton_append, namesProgram]
    split
    · next hn =>
      rw [if_pos hn] at h
      exact ih h
    · next hn =>
      rw [if_neg hn] at h
      split
      · next hdash =>
        rw [if_pos hdash] at h
        cases h
      · next hdash =>
        rw [if_neg hdash] at h
        split
        · next hset =>
          rw [if_pos hset] at h
          exact ih h
        · rfl

/-- Under the hostile expansion nothing but literal words leads to a program. -/
theorem namesProgram_hostile (words : List Word) :
    namesProgram (words.flatMap hostile.expand) = leadsToProgram words := by
  induction words with
  | nil => rfl
  | cons word words ih =>
    rw [List.flatMap_cons, leadsToProgram]
    cases hliteral : isLiteral word with
    | true =>
      rw [hostile.literal word hliteral, List.singleton_append, namesProgram, ih, Bool.true_and]
    | false =>
      have hdash : hostile.expand word = ["-"] := by
        simp [hostile, hliteral]
      rw [hdash]
      rfl

theorem directory_of_mem_effectsOf {x : Expansion} {directory : Directory} {command : Simple}
    {e : Effect} (he : e ∈ effectsOf x directory command) : e.directory = directory := by
  unfold effectsOf at he
  rw [List.mem_append, List.mem_filterMap] at he
  obtain ⟨part, _, he⟩ | he := he
  · cases part with
    | word => cases he
    | redirection => exact (Option.some.inj he) ▸ rfl
  · split at he
    · cases he
    · exact (List.mem_singleton.mp he) ▸ rfl

theorem exists_mem_effectsOf (x : Expansion) (directory : Directory) {command : Simple}
    (hne : command ≠ []) : ∃ e, e ∈ effectsOf x directory command := by
  obtain ⟨part, rest, rfl⟩ := List.exists_cons_of_ne_nil hne
  unfold effectsOf
  cases part with
  | word word =>
    have hwords : wordsOf (.word word :: rest) ≠ [] := List.cons_ne_nil _ _
    rw [if_neg hwords]
    exact ⟨_, List.mem_append_right _ (List.mem_singleton_self _)⟩
  | redirection => exact ⟨_, List.mem_append_left _ List.mem_cons_self⟩

/-- **A command under sudo** does nothing but as root, however its other words are expanded. -/
theorem covered_of_isUnderSudo {command : Simple} (h : isUnderSudo command = true) (x : Expansion)
    (directory : Directory) : ∀ e ∈ effectsOf x directory command, Covered directory e := by
  unfold isUnderSudo at h
  rw [Bool.and_eq_true] at h
  obtain ⟨hwords, h⟩ := h
  have hargv : underSudo (argv x command) = true := by
    unfold argv
    cases hprogram : (wordsOf command).dropWhile isAssignment with
    | nil =>
      rw [hprogram] at h
      cases h
    | cons word =>
      rw [hprogram] at h
      simp only [Bool.and_eq_true, decide_eq_true_eq] at h
      obtain ⟨⟨hliteral, hsudo⟩, hleads⟩ := h
      rw [List.flatMap_cons, x.literal word hliteral, List.singleton_append, underSudo,
        namesProgram_expand x hleads, hsudo]
      rfl
  intro e he
  refine ⟨?_, directory_of_mem_effectsOf he⟩
  unfold effectsOf at he
  rw [List.mem_append, List.mem_filterMap] at he
  obtain ⟨part, hpart, he⟩ | he := he
  · -- there is no redirection
    have hword := List.all_eq_true.mp hwords part hpart
    cases part with
    | word => cases he
    | redirection => cases hword
  · split at he
    · cases he
    · obtain rfl := List.mem_singleton.mp he
      exact hargv

/-- **Any other command** does something as the login user, under the hostile expansion. -/
theorem exists_not_asRoot {command : Simple} (hne : command ≠ [])
    (h : isUnderSudo command = false) (directory : Directory) :
    ∃ e ∈ effectsOf hostile directory command, e.asRoot = false := by
  by_cases hwords : command.all isWord = true
  · have hargv : underSudo (argv hostile command) = false := by
      unfold isUnderSudo at h
      rw [hwords, Bool.true_and] at h
      unfold argv
      cases hprogram : (wordsOf command).dropWhile isAssignment with
      | nil => rfl
      | cons word =>
        rw [hprogram] at h
        dsimp only at h
        rw [List.flatMap_cons]
        cases hliteral : isLiteral word with
        | false =>
          have hdash : hostile.expand word = ["-"] := by simp [hostile, hliteral]
          rw [hdash]
          rfl
        | true =>
          rw [hliteral, Bool.true_and] at h
          rw [hostile.literal word hliteral, List.singleton_append, underSudo, namesProgram_hostile]
          exact h
    have hwordsOf : wordsOf command ≠ [] := by
      obtain ⟨part, rest, rfl⟩ := List.exists_cons_of_ne_nil hne
      cases part with
      | word => exact List.cons_ne_nil _ _
      | redirection => cases hwords
    refine ⟨⟨underSudo (argv hostile command), directory, .runs (argv hostile command)⟩, ?_, hargv⟩
    unfold effectsOf
    rw [if_neg hwordsOf]
    exact List.mem_append_right _ (List.mem_singleton_self _)
  · -- a file is opened by the login shell
    rw [List.all_eq_true] at hwords
    push Not at hwords
    obtain ⟨part, hpart, hpartWord⟩ := hwords
    cases part with
    | word => exact absurd rfl hpartWord
    | redirection digits operator target =>
      refine ⟨⟨false, directory, .redirects operator (hostile.expand target)⟩, ?_, rfl⟩
      exact List.mem_append_left _ (List.mem_filterMap.mpr ⟨_, hpart, rfl⟩)

/-! ### Runs -/

theorem step_total (x : Expansion) (s : ShellState) (p : Pipeline) (ok : Bool) :
    ∃ s', Step x s p ok s' := ⟨_, rfl⟩

theorem mem_effects_of_step {x : Expansion} {s s' : ShellState} {p : Pipeline} {ok : Bool}
    (h : Step x s p ok s') {e : Effect} :
    e ∈ s'.effects ↔ e ∈ s.effects ∨ ∃ command ∈ p, e ∈ effectsOf x s.directory command := by
  rw [show s' = runPipeline x s p ok from h]
  change e ∈ s.effects ++ p.flatMap (effectsOf x s.directory) ↔ _
  rw [List.mem_append, List.mem_flatMap]

/-- A pipeline whose commands are all under sudo leaves the directory as it is. -/
theorem directory_of_step {x : Expansion} {s s' : ShellState} {p : Pipeline} {ok : Bool}
    (h : Step x s p ok s') (hp : ∀ command ∈ p, isUnderSudo command = true) :
    s'.directory = s.directory := by
  rw [show s' = runPipeline x s p ok from h]
  unfold runPipeline
  dsimp only
  split
  · next command =>
    have hcommand := hp command (List.mem_singleton_self _)
    unfold isUnderSudo at hcommand
    rw [Bool.and_eq_true] at hcommand
    obtain ⟨_, hcommand⟩ := hcommand
    unfold argv
    cases hprogram : (wordsOf command).dropWhile isAssignment with
    | nil => rfl
    | cons word =>
      rw [hprogram] at hcommand
      simp only [Bool.and_eq_true, decide_eq_true_eq] at hcommand
      obtain ⟨⟨hliteral, hsudo⟩, _⟩ := hcommand
      rw [List.flatMap_cons, x.literal word hliteral, hsudo, List.singleton_append, directoryAfter]
      exact if_neg fun h => absurd h.1 (by decide)
  · rfl

/-- **A script under sudo.** Everything is done as root, in the directory of the login. -/
theorem covered_of_run {ls : List (AndOr Pipeline)}
    (h : ∀ command ∈ commands ls, isUnderSudo command = true) (x : Expansion) {s : ShellState}
    (hrun : RunsLists (Step x) {} ls s) : ∀ e ∈ s.effects, Covered [] e := by
  have hinv : s.directory = [] ∧ ∀ e ∈ s.effects, Covered [] e := by
    refine hrun.preserves_of_mem (Q := fun s => s.directory = [] ∧ ∀ e ∈ s.effects, Covered [] e)
      ?_ ⟨rfl, nofun⟩
    rintro l hl p hp s ok s' hstep ⟨hdirectory, hcovered⟩
    have hsudo : ∀ command ∈ p, isUnderSudo command = true := fun command hcommand =>
      h command (List.mem_flatMap.mpr ⟨l, hl, List.mem_flatten.mpr ⟨p, hp, hcommand⟩⟩)
    refine ⟨(directory_of_step hstep hsudo).trans hdirectory, fun e he => ?_⟩
    obtain he | ⟨command, hcommand, he⟩ := (mem_effects_of_step hstep).mp he
    · exact hcovered e he
    · rw [hdirectory] at he
      exact covered_of_isUnderSudo (hsudo command hcommand) x [] e he
  exact hinv.2

/-- **A command that is not under sudo** is reached by some run, and does something as the login
user. -/
theorem exists_run_not_asRoot {ls : List (AndOr Pipeline)} (hls : WellFormed ls)
    {command : Simple} (hmem : command ∈ commands ls) (h : isUnderSudo command = false) :
    ∃ s, RunsLists (Step hostile) {} ls s ∧ ∃ e ∈ s.effects, e.asRoot = false := by
  obtain ⟨l, hl, hmem⟩ := List.mem_flatMap.mp hmem
  obtain ⟨p, hp, hmem⟩ := List.mem_flatten.mp hmem
  have hne : command ≠ [] := (hls l hl p hp).2 command hmem
  refine exists_run_through (Q := fun s => ∃ e ∈ s.effects, e.asRoot = false) (step_total hostile)
    ?_ ⟨l, hl, hp⟩ ?_ {}
  · rintro s q ok s' hstep ⟨e, he, hroot⟩
    exact ⟨e, (mem_effects_of_step hstep).mpr (.inl he), hroot⟩
  · intro s ok
    obtain ⟨e, he, hroot⟩ := exists_not_asRoot hne h s.directory
    exact ⟨_, rfl, e, (mem_effects_of_step rfl).mpr (.inr ⟨command, hmem, he⟩), hroot⟩

/-! ### The line of `buildSudoCommand` -/

/-- The words that are written before the command. -/
def sudoWords : List Word := [plainWord "sudo", plainWord "-n"]

theorem opens_sudo : Opens "sudo -n " (sudoWords.map .word) := rfl

/-- The script of a line of `buildSudoCommand`. -/
theorem handed_buildSudoCommand {command line : String} {osInfo : OSInfo} {cwd : Option String}
    (hline : buildSudoCommand command osInfo cwd = .ok line) :
    handed line = some ("sudo -n " ++
      match workingDirectory cwd with
      | some d => "cd " ++ shellQuote d ++ " && " ++ command
      | none => command) := by
  unfold buildSudoCommand at hline
  split at hline
  · cases hline
  · have hnone : ValidNames [] := nofun
    rw [buildPosixCommand_eq hnone] at hline
    obtain rfl := Except.ok.inj hline
    rw [handed_line (shellName_osInfo osInfo) (by simp [scriptOf, workingDirectory,
      TakenForOptions])]
    rfl

theorem readLists_sudo {command : String} {l : AndOr Pipeline} {ls : List (AndOr Pipeline)}
    (h : readLists command = l :: ls) :
    readLists ("sudo -n " ++ command) = withWords sudoWords l :: ls := by
  obtain ⟨ts, hts, hparse⟩ := parse_of_readLists h
  have hwords := @parse_words (plainWord "sudo") [plainWord "-n"] (by decide) ts l ls hparse
  rw [readLists_append opens_sudo, hts, Option.bind_some]
  rw [show parse (sudoWords.map .word ++ ts) = _ from hwords]
  rfl

/-- The `cd` that is handed to sudo. -/
def sudoCd (d : String) : Pipeline := [simple (sudoWords ++ [plainWord "cd", quotedWord d])]

/-- With a directory, `sudo -n` belongs to the `cd`. -/
theorem readLists_sudo_cd {command : String} {l : AndOr Pipeline} {ls : List (AndOr Pipeline)}
    (h : readLists command = l :: ls) (d : String) :
    readLists ("sudo -n " ++ ("cd " ++ shellQuote d ++ " && " ++ command)) =
      l.after (sudoCd d) :: ls := by
  obtain ⟨ts, hts, hparse⟩ := parse_of_readLists h
  have hand := @parse_and (plainWord "sudo") [plainWord "-n", plainWord "cd", quotedWord d]
    (by decide) ts
  have htext : "sudo -n " ++ ("cd " ++ shellQuote d ++ " && " ++ command) =
      ("sudo -n " ++ ("cd " ++ shellQuote d ++ " && ")) ++ command := by
    simp only [String.append_assoc]
  rw [htext, readLists_append (opens_sudo.append (opens_cd d)), hts, Option.bind_some]
  rw [show parse (sudoWords.map .word ++ cdTokens d ++ ts) = _ from hand, hparse]
  rfl

theorem commands_withWords {l : AndOr Pipeline} {ls : List (AndOr Pipeline)}
    (h : WellFormed (l :: ls)) :
    ∃ first others, commands (l :: ls) = first :: others ∧
      commands (withWords sudoWords l :: ls) = (simple sudoWords ++ first) :: others := by
  have hhead := (h l List.mem_cons_self l.head List.mem_cons_self).1
  obtain ⟨first, others, hfirst⟩ := List.exists_cons_of_ne_nil hhead
  refine ⟨first, others ++ (l.tail.map Prod.snd).flatten ++ commands ls, ?_, ?_⟩
  · simp [commands, AndOr.pipelines, hfirst]
  · simp [commands, AndOr.pipelines, withWords, hfirst]

theorem isUnderSudo_behind (first : Simple) :
    isUnderSudo (simple sudoWords ++ first) =
      (first.all isWord && leadsToProgram (wordsOf first)) := rfl

/-- With a directory, some run reaches the command, in the directory of the login. -/
theorem exists_run_elsewhere {l : AndOr Pipeline} {ls : List (AndOr Pipeline)}
    (h : WellFormed (l :: ls)) (d : String) :
    ∃ s, RunsLists (Step hostile) {} (l.after (sudoCd d) :: ls) s ∧
      ∃ e ∈ s.effects.drop 1, e.directory = [] := by
  obtain ⟨hne, hcommands⟩ := h l List.mem_cons_self l.head List.mem_cons_self
  obtain ⟨first, others, hfirst⟩ := List.exists_cons_of_ne_nil hne
  have hmem : first ∈ l.head := hfirst ▸ List.mem_cons_self
  obtain ⟨e, he⟩ := exists_mem_effectsOf hostile [] (hcommands first hmem)
  have hkeeps : ∀ s p ok s', Step hostile s p ok s' →
      (∃ e ∈ s.effects.drop 1, e.directory = []) → ∃ e ∈ s'.effects.drop 1, e.directory = [] := by
    rintro s p ok s' hstep ⟨e, he, hdirectory⟩
    refine ⟨e, ?_, hdirectory⟩
    rw [show s' = runPipeline hostile s p ok from hstep]
    change e ∈ (s.effects ++ p.flatMap (effectsOf hostile s.directory)).drop 1
    rw [List.drop_append]
    exact List.mem_append_left _ he
  -- the `cd` under sudo succeeds, and leaves the shell where it is
  have hcd : Step hostile {} (sudoCd d) true (runPipeline hostile {} (sudoCd d) true) := rfl
  have hone : (runPipeline hostile {} (sudoCd d) true).effects.length = 1 := rfl
  have hthere : (runPipeline hostile {} (sudoCd d) true).directory = [] := by
    rfl
  generalize runPipeline hostile {} (sudoCd d) true = s₀ at hcd hone hthere
  have hreach : ∃ e ∈ (runPipeline hostile s₀ l.head true).effects.drop 1, e.directory = [] := by
    refine ⟨e, ?_, directory_of_mem_effectsOf he⟩
    change e ∈ (s₀.effects ++ l.head.flatMap (effectsOf hostile s₀.directory)).drop 1
    rw [List.drop_append, hone, hthere]
    exact List.mem_append_right _ (List.mem_flatMap.mpr ⟨first, hmem, he⟩)
  obtain ⟨s₂, htail, hs₂⟩ := exists_runsTail_of (step_total hostile) hkeeps _ true l.tail hreach
  obtain ⟨s₃, hrest, hs₃⟩ := exists_runsLists_of (step_total hostile) hkeeps s₂ ls hs₂
  exact ⟨s₃, .runs hcd (.runs rfl rfl htail) hrest, hs₃⟩

/-- A host with `apt`. -/
def aptHost : OSInfo where
  platform := .linux
  packageManager := .apt
  init := .systemd
  defaultShell := none
  tempDir := none

end Ssh
