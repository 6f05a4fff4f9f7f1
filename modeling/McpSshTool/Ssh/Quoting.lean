import McpSshTool.Remote.ControlPlane.Handlers
import McpSshTool.Remote.Executor
import McpSshTool.Ssh.CommandLines
import McpSshTool.Ssh.Ensure

/-!
# Quoting

The hand-made quoters of the repository, and texts that pass through several shells.

* `posixQuoters` — the copies of the quoter; `tokens_of_posixQuoter` — each of them writes one word,
  whose text is the value;
* `Layer`, `nest` — command lines within command lines, as `buildPosixCommand` builds them;
* `Receives` — what each shell of the nest is given: the change of directory and the exports with
  the caller's words, and after them the next line, down to the command;
* `ReadAsScript`, `quoting_exact_iff` — all of this is so but where the innermost shell takes the
  command for options.
-/

open ShellWords

namespace Ssh

/-! ### The quoters -/

theorem quotePosixArg_eq (value : String) :
    Remote.RemoteControlPlane.quotePosixArg value =
      String.ofList (singleQuoted betweenMarks value.toList) := by
  unfold Remote.RemoteControlPlane.quotePosixArg Remote.RemoteControlPlane.quoteArg
  rw [← String.toList_inj]
  simp only [String.toList_append, String.toList_ofList]
  rfl

theorem posixSingleQuote_eq (value : String) :
    Remote.posixSingleQuote value =
      String.ofList (singleQuoted behindBackslash value.toList) := by
  unfold Remote.posixSingleQuote
  rw [← String.toList_inj]
  simp only [String.toList_append, String.toList_ofList]
  rfl

/-- The copies of the quoter: of the command lines, of the filesystem and the ensure service, of the
control plane and of the agent. -/
def posixQuoters : List (String → String) :=
  [shellQuote, FsTools.shellQuote, Ensure.shellQuote, Remote.RemoteControlPlane.quotePosixArg,
    Remote.posixSingleQuote]

/-- **Every quoter writes one word**, whose characters are all quoted and make up the value. -/
theorem tokens_of_posixQuoter {quoter : String → String} (h : quoter ∈ posixQuoters)
    (value : String) : tokens (quoter value) = some [.word (quotedWord value)] := by
  simp only [posixQuoters, List.mem_cons, List.not_mem_nil, or_false] at h
  obtain rfl | rfl | rfl | rfl | rfl := h
  · exact tokens_shellQuote value
  · exact tokens_shellQuote value
  · exact tokens_shellQuote value
  · rw [quotePosixArg_eq]
    exact tokens_singleQuoted spells_betweenMarks value.toList
  · rw [posixSingleQuote_eq]
    exact tokens_singleQuoted spells_behindBackslash value.toList

/-! ### Lines within lines -/

/-- The options of one `buildPosixCommand`, its names being valid. -/
structure Layer where
  cwd : Option String
  env : Environment
  shellName : String
  valid : ValidNames env
  known : ShellName shellName

/-- The line of the first layer, whose command is the line of the second, and so on. -/
def nest : List Layer → String → Except Failure String
  | [], command => .ok command
  | layer :: layers, command => do
    buildPosixCommand (← nest layers command) layer.cwd layer.env layer.shellName

/-- What a layer puts before its command. -/
def Layer.openingTokens (layer : Layer) : List Token :=
  (match workingDirectory layer.cwd with
    | some cwd => cdTokens cwd
    | none => []) ++ exportsTokens layer.env

/-- **What the shells of a nest are given.** Each reads its directory and its exports as the words
that the caller gave, and then stands at the beginning of the line of the next; the innermost one
stands at the beginning of the command. -/
def Receives : List Layer → String → String → Prop
  | [], line, command => line = command
  | layer :: layers, line, command =>
    ∃ opening rest, handed line = some (opening ++ rest) ∧ Opens opening layer.openingTokens ∧
      Receives layers rest command

/-- The script of a layer is its opening and its command. -/
theorem scriptOf_layer (layer : Layer) (command : String) :
    ∃ opening, scriptOf command layer.cwd layer.env = opening ++ command ∧
      Opens opening layer.openingTokens := by
  have hexports := opens_exports layer.valid
  unfold scriptOf Layer.openingTokens
  cases workingDirectory layer.cwd with
  | none => exact ⟨exportsBefore layer.env "", exportsBefore_append _ _, hexports⟩
  | some cwd =>
    refine ⟨"cd " ++ shellQuote cwd ++ " && " ++ exportsBefore layer.env "", ?_,
      (opens_cd cwd).append hexports⟩
    dsimp only
    rw [exportsBefore_append]
    simp only [String.append_assoc]

/-- **The innermost shell takes the command for its script**: there is no shell, or the command does
not stand at the beginning of the script, or it is nothing that is taken for options. -/
def ReadAsScript (layers : List Layer) (command : String) : Prop :=
  ∀ layer ∈ layers.getLast?, workingDirectory layer.cwd = none → layer.env = [] →
    ¬TakenForOptions command.toList

theorem exists_nest (layers : List Layer) (command : String) :
    ∃ line, nest layers command = .ok line := by
  induction layers with
  | nil => exact ⟨command, rfl⟩
  | cons layer layers ih =>
    obtain ⟨inner, hinner⟩ := ih
    have hline := buildPosixCommand_eq layer.valid inner layer.cwd layer.shellName
    refine ⟨_, Eq.trans ?_ hline⟩
    rw [nest, hinner]
    rfl

/-- The line of a layer hands over the line of the next one behind its opening, unless it is taken
for options. -/
theorem handed_nest {layer : Layer} {layers : List Layer} {command inner line : String}
    (hinner : nest layers command = .ok inner) (hline : nest (layer :: layers) command = .ok line) :
    line = layer.shellName ++ " -lc " ++ shellQuote (scriptOf inner layer.cwd layer.env) ∧
      handed line = if TakenForOptions (scriptOf inner layer.cwd layer.env).toList then none
        else some (scriptOf inner layer.cwd layer.env) := by
  rw [nest, hinner] at hline
  obtain rfl := Except.ok.inj ((buildPosixCommand_eq layer.valid _ _ _).symm.trans hline)
  exact ⟨rfl, handed_line_eq layer.known _⟩

theorem not_takenForOptions_nest {layer : Layer} {layers : List Layer} {command line : String}
    (hline : nest (layer :: layers) command = .ok line) : ¬TakenForOptions line.toList := by
  obtain ⟨inner, hinner⟩ := exists_nest layers command
  rw [(handed_nest hinner hline).1]
  obtain hname | hname := layer.known
  · simp [TakenForOptions, hname]
  · simp [TakenForOptions, hname]

/-- Every shell of a nest is given what it should be, if the innermost one takes the command for its
script. -/
theorem receives_nest {layers : List Layer} {command line : String}
    (h : ReadAsScript layers command) (hline : nest layers command = .ok line) :
    Receives layers line command := by
  induction layers generalizing line with
  | nil => exact (Except.ok.inj hline).symm
  | cons layer layers ih =>
    obtain ⟨inner, hinner⟩ := exists_nest layers command
    obtain ⟨opening, hscript, hopens⟩ := scriptOf_layer layer inner
    have hoptions : ¬TakenForOptions (scriptOf inner layer.cwd layer.env).toList := by
      rw [takenForOptions_scriptOf]
      rintro ⟨hcwd, henv, hoptions⟩
      cases layers with
      | nil =>
        -- the innermost shell, whose script is the command
        obtain rfl := Except.ok.inj hinner
        exact h layer rfl hcwd henv hoptions
      | cons => exact not_takenForOptions_nest hinner hoptions
    have hhanded := (handed_nest hinner hline).2
    rw [if_neg hoptions, hscript] at hhanded
    refine ⟨opening, inner, hhanded, hopens, ih ?_ hinner⟩
    cases layers with
    | nil => exact nofun
    | cons => exact h

/-- What the shells of a nest are given is a matter of the tokens of the line, and tells that the
innermost one takes the command for its script. -/
theorem readAsScript_of_receives {layers : List Layer} {command line line' : String}
    (hline : nest layers command = .ok line) (htokens : tokens line' = tokens line)
    (h : Receives layers line' command) : ReadAsScript layers command := by
  induction layers generalizing line line' with
  | nil => exact nofun
  | cons layer layers ih =>
    obtain ⟨inner, hinner⟩ := exists_nest layers command
    obtain ⟨opening', rest, hhanded, hopens', hreceives⟩ := h
    have hsame : handed line' = handed line := by
      unfold handed
      rw [htokens]
    rw [hsame, (handed_nest hinner hline).2] at hhanded
    split at hhanded
    · cases hhanded
    next hoptions =>
    cases layers with
    | nil =>
      obtain rfl := Except.ok.inj hinner
      rintro _ ⟨⟩ hcwd henv hcommand
      exact hoptions (takenForOptions_scriptOf.mpr ⟨hcwd, henv, hcommand⟩)
    | cons =>
      -- both openings have the same tokens, and so have the lines behind them
      obtain ⟨opening, hscript, hopens⟩ := scriptOf_layer layer inner
      refine ih hinner ?_ hreceives
      have heq := congrArg tokens (hscript.symm.trans (Option.some.inj hhanded))
      rw [tokens_append hopens, tokens_append hopens'] at heq
      exact (Option.map_injective (List.append_right_injective _) heq).symm

/-- **Quoting is exact.** Every quoter writes one word that is the value, so all of them write the
same word; and through any nest of shells every directory, every value and the command arrive
verbatim exactly where the innermost shell takes the command for its script. -/
theorem quoting_exact_iff (layers : List Layer) (command : String) :
    (∀ quoter ∈ posixQuoters, ∀ value,
      tokens (quoter value) = some [.word (quotedWord value)] ∧
        (quotedWord value).text = value) ∧
    (∀ quoter ∈ posixQuoters, ∀ quoter' ∈ posixQuoters, ∀ value,
      tokens (quoter value) = tokens (quoter' value)) ∧
    ((∃ line, nest layers command = .ok line ∧ Receives layers line command) ↔
      ReadAsScript layers command) := by
  refine ⟨?_, ?_, ?_⟩
  · intro quoter hquoter value
    exact ⟨tokens_of_posixQuoter hquoter value, text_quotedWord value⟩
  · intro quoter hquoter quoter' hquoter' value
    rw [tokens_of_posixQuoter hquoter, tokens_of_posixQuoter hquoter']
  · constructor
    · rintro ⟨line, hline, h⟩
      exact readAsScript_of_receives hline rfl h
    · intro h
      obtain ⟨line, hline⟩ := exists_nest layers command
      exact ⟨line, hline, receives_nest h hline⟩

/-- A shell without a directory and an environment. -/
def bareLayer : Layer where
  cwd := none
  env := []
  shellName := "sh"
  valid _ hentry := absurd hentry List.not_mem_nil
  known := .inl rfl

/-- **A command that the shell takes for options** is not given to it. -/
theorem dashed_command_not_received :
    ¬∃ line, nest [bareLayer] "-x" = .ok line ∧ Receives [bareLayer] line "-x" := by
  rintro ⟨line, hline, hreceives⟩
  exact readAsScript_of_receives hline rfl hreceives bareLayer rfl rfl rfl (by decide)

end Ssh
