import McpSshTool.Library.CommandLists
import McpSshTool.Ssh.CommandLines

/-!
# The working directory as a precondition

`buildPosixCommand` writes `cd … && ` before the exports and the command, the exports being joined
by `; `. What the `&&` guards is decided by the shell that reads the whole text.

* `ReadsScripts` — what is relied on of that shell: how it reads a text with the code's own `cd` or
  `export` before it;
* `GoesThere` — a `cd` that succeeds has gone to the directory of its word;
* `CdGuards` — nothing runs unless the change to that directory succeeded before it;
* `cdGuards_iff_of_after` — **what a `cd` guards**: the rest of its own and-or list, as far as
  nothing in it waits for a failure;
* `cwd_precondition_iff` — when the line of `buildPosixCommand` keeps to that.
-/

open ShellWords

namespace Ssh

variable {π : Type} {reads : String → List (AndOr π)} {cd : String → π}
  {exportOf : String × String → π}

/-- **What a POSIX shell makes of the code's own commands** before any text. A `cd` before `&&` goes
before the first list of the text; an export before `;` is a list of its own. Where the text is
nothing to run, the `&&` has nothing after it, and the export is run or refused with the text. -/
structure ReadsScripts (reads : String → List (AndOr π)) (cd : String → π)
    (exportOf : String × String → π) : Prop where
  after_cd : ∀ d text, reads ("cd " ++ shellQuote d ++ " && " ++ text) =
    match reads text with
    | [] => []
    | first :: rest => first.after (cd d) :: rest
  after_export : ∀ entry text, isPosixEnvKey entry.1 = true → reads text ≠ [] →
    reads (exportCommand entry ++ text) = .single (exportOf entry) :: reads text
  before_nothing : ∀ entry text, isPosixEnvKey entry.1 = true → reads text = [] →
    reads (exportCommand entry ++ text) = [] ∨
      reads (exportCommand entry ++ text) = [.single (exportOf entry)]

/-- A run writes down every pipeline with its status, which may be any. -/
def Logs (log : List (π × Bool)) (p : π) (ok : Bool) (log' : List (π × Bool)) : Prop :=
  log' = log ++ [(p, ok)]

/-- **A `cd` with this word that succeeds has gone to the directory of that name**, with no
`CDPATH`. The dash is the directory before to it, and a word of option letters, as `--`, the home
directory; any other word behind a dash makes it fail. -/
def GoesThere (options : List Char) (d : String) : Prop :=
  d ≠ "--" ∧ ∀ cs, d.toList = '-' :: cs → ∃ c ∈ cs, c ∉ options

/-- Nothing has run but the change of directory, and more only if that succeeded and has gone
there. -/
def CdGuards (there : Prop) (cd : π) (log : List (π × Bool)) : Prop :=
  log = [] ∨ ∃ ok rest, log = (cd, ok) :: rest ∧ (ok = false ∨ ¬there → rest = [])

/-! ### What a `cd` guards -/

theorem logs_total (log : List (π × Bool)) (p : π) (ok : Bool) : ∃ log', Logs log p ok log' :=
  ⟨_, rfl⟩

theorem logs_keeps (before : List (π × Bool)) (log : List (π × Bool)) (p : π) (ok : Bool)
    (log' : List (π × Bool)) (h : Logs log p ok log') (hlog : before <+: log) :
      before <+: log' := by
  rw [show log' = log ++ [(p, ok)] from h]
  exact hlog.trans (List.prefix_append _ _)

/-- A log that goes on after a failed change of directory. -/
def RunsOn (cd : π) (log : List (π × Bool)) : Prop := ∃ part, [(cd, false), part] <+: log

theorem runsOn_keeps (cd : π) (log : List (π × Bool)) (p : π) (ok : Bool) (log' : List (π × Bool))
    (h : Logs log p ok log') (hlog : RunsOn cd log) : RunsOn cd log' := by
  obtain ⟨part, hpart⟩ := hlog
  exact ⟨part, logs_keeps _ log p ok log' h hpart⟩

theorem not_cdGuards_of_runsOn {there : Prop} {cd : π} {log : List (π × Bool)} (h : RunsOn cd log) :
    ¬CdGuards there cd log := by
  obtain ⟨part, more, rfl⟩ := h
  rintro (hnil | ⟨ok, rest, heq, hrest⟩)
  · cases hnil
  · obtain ⟨hcd, hmore⟩ := List.cons.inj heq
    obtain rfl : false = ok := congrArg Prod.snd hcd
    rw [hrest (.inl rfl)] at hmore
    cases hmore

/-- **After a failed `cd`** something runs that the `&&` does not hold back: a pipeline after `||`,
or the next list. -/
theorem exists_run_on (cd : π) {first : AndOr π} {rest : List (AndOr π)}
    (h : ¬(first.OnlyAnd ∧ rest = [])) :
    ∃ log, RunsLists Logs [] (first.after cd :: rest) log ∧ RunsOn cd log := by
  have hcd : Logs [] cd false [(cd, false)] := rfl
  have hhead : Connective.proceeds .and false = false := rfl
  by_cases hand : first.OnlyAnd
  · -- the next list begins, whatever came before it
    obtain ⟨next, others, rfl⟩ := List.exists_cons_of_ne_nil fun hrest => h ⟨hand, hrest⟩
    obtain ⟨log₁, htail, hlog₁⟩ := exists_runsTail_of logs_total (logs_keeps [(cd, false)])
      [(cd, false)] false first.tail (List.prefix_refl _)
    obtain ⟨more, rfl⟩ := hlog₁
    have hon : RunsOn cd ([(cd, false)] ++ more ++ [(next.head, true)]) := by
      cases more with
      | nil => exact ⟨(next.head, true), List.prefix_refl _⟩
      | cons part more => exact ⟨part, more ++ [(next.head, true)], rfl⟩
    obtain ⟨log₂, hnext, hlog₂⟩ :=
      exists_runsTail_of logs_total (runsOn_keeps cd) _ true next.tail hon
    obtain ⟨log₃, hothers, hlog₃⟩ :=
      exists_runsLists_of logs_total (runsOn_keeps cd) log₂ others hlog₂
    exact ⟨log₃, .runs hcd (.skips hhead htail) (.runs rfl hnext hothers), hlog₃⟩
  · -- a pipeline of the first list waits for a failure
    have hor : ∃ part ∈ first.tail, part.1 = Connective.or := by
      unfold AndOr.OnlyAnd at hand
      push Not at hand
      obtain ⟨part, hpart, hne⟩ := hand
      refine ⟨part, hpart, ?_⟩
      cases hc : part.1 with
      | and => exact absurd hc hne
      | or => rfl
    obtain ⟨log₁, htail, hlog₁⟩ := exists_runsTail_or logs_total (runsOn_keeps cd) hor
      (s := [(cd, false)]) fun p => ⟨true, _, rfl, (p, true), List.prefix_refl _⟩
    obtain ⟨log₂, hrest, hlog₂⟩ :=
      exists_runsLists_of logs_total (runsOn_keeps cd) log₁ rest hlog₁
    exact ⟨log₂, .runs hcd (.skips hhead htail) hrest, hlog₂⟩

theorem exists_run_behind (cd : π) (first : AndOr π) (rest : List (AndOr π)) :
    ∃ log, RunsLists Logs [] (first.after cd :: rest) log ∧
      [(cd, true), (first.head, true)] <+: log := by
  have hkeeps := logs_keeps [(cd, true), (first.head, true)]
  obtain ⟨log₁, htail, hlog₁⟩ := exists_runsTail_of logs_total hkeeps _ true first.tail
    (List.prefix_refl _)
  obtain ⟨log₂, hrest, hlog₂⟩ := exists_runsLists_of logs_total hkeeps log₁ rest hlog₁
  have hcd : Logs [] cd true [(cd, true)] := rfl
  have hfirst : Logs [(cd, true)] first.head true [(cd, true), (first.head, true)] := rfl
  exact ⟨log₂, .runs hcd (.runs rfl hfirst htail) hrest, hlog₂⟩

/-- **What a `cd` guards**: one list, in which nothing waits for a failure, if it has gone there. -/
theorem cdGuards_iff_of_after (there : Prop) (cd : π) (first : AndOr π) (rest : List (AndOr π)) :
    (∀ log, RunsLists Logs [] (first.after cd :: rest) log → CdGuards there cd log) ↔
      there ∧ first.OnlyAnd ∧ rest = [] := by
  constructor
  · intro h
    have hthere : there := by
      by_contra hnot
      obtain ⟨log, hrun, more, rfl⟩ := exists_run_behind cd first rest
      obtain hnil | ⟨ok, rest', heq, hrest⟩ := h _ hrun
      · cases hnil
      · have hmore := (List.cons.inj heq).2
        rw [hrest (.inr hnot)] at hmore
        cases hmore
    refine ⟨hthere, ?_⟩
    by_contra hcond
    obtain ⟨log, hrun, hon⟩ := exists_run_on cd hcond
    exact not_cdGuards_of_runsOn hon (h log hrun)
  · rintro ⟨hthere, hand, rfl⟩ log hrun
    obtain _ | @⟨_, log₁, _, _, ok, _, _, hcd, htail, hrest⟩ := hrun
    cases hrest
    obtain rfl : log₁ = [(cd, ok)] := hcd
    right
    cases ok with
    | false =>
      have hall : ∀ part ∈ (first.after cd).tail, part.1 = Connective.and := by
        intro part hpart
        obtain rfl | hpart := List.mem_cons.mp hpart
        · rfl
        · exact hand part hpart
      exact ⟨false, [], htail.eq_of_failed hall, fun _ => rfl⟩
    | true =>
      obtain ⟨more, rfl⟩ := htail.preserves (logs_keeps [(cd, true)]) (List.prefix_refl _)
      exact ⟨true, more, rfl, fun h => h.elim nofun fun h => absurd hthere h⟩

/-! ### The scripts of `buildPosixCommand` -/

section Scripts

variable (h : ReadsScripts reads cd exportOf)

include h

/-- A script that begins with a `cd` guards what it should where the text after it is one list in
which nothing waits for a failure, or nothing to run. -/
theorem cdGuards_iff_of_cd (there : Prop) (d text : String) :
    (∀ log, RunsLists Logs [] (reads ("cd " ++ shellQuote d ++ " && " ++ text)) log →
        CdGuards there (cd d) log) ↔
      reads text = [] ∨ there ∧ ∃ first, reads text = [first] ∧ first.OnlyAnd := by
  rw [h.after_cd]
  cases htext : reads text with
  | nil =>
    refine iff_of_true (fun log hrun => ?_) (.inl rfl)
    cases hrun
    exact .inl rfl
  | cons first =>
    dsimp only
    rw [cdGuards_iff_of_after]
    constructor
    · rintro ⟨hthere, hand, rfl⟩
      exact .inr ⟨hthere, first, rfl, hand⟩
    · rintro (hnil | ⟨hthere, first', heq, hand⟩)
      · cases hnil
      · obtain ⟨rfl, rfl⟩ := List.cons.inj heq
        exact ⟨hthere, hand, rfl⟩

/-- Exports before a text that has something to run are lists of their own. -/
theorem reads_exportsBefore {env : Environment} (henv : ValidNames env) {command : String}
    (hcommand : reads command ≠ []) :
    reads (exportsBefore env command) =
      env.map (fun entry => .single (exportOf entry)) ++ reads command := by
  induction env with
  | nil => rfl
  | cons entry env ih =>
    have ih := ih fun entry hentry => henv entry (List.mem_cons_of_mem _ hentry)
    have hne : reads (exportsBefore env command) ≠ [] := by
      rw [ih]
      exact List.append_ne_nil_of_right_ne_nil _ hcommand
    rw [exportsBefore_cons, h.after_export entry _ (henv entry List.mem_cons_self) hne, ih]
    rfl

/-- With exports, the text is one list only where the command is nothing to run. -/
theorem oneList_of_exports {there : Prop} {entry : String × String} {env : Environment}
    (henv : ValidNames (entry :: env)) (command : String) :
    (reads (exportsBefore (entry :: env) command) = [] ∨
        there ∧ ∃ first, reads (exportsBefore (entry :: env) command) = [first] ∧ first.OnlyAnd) ↔
      reads command = [] ∧ (reads (exportsBefore (entry :: env) command)).length ≤ 1 ∧
        (reads (exportsBefore (entry :: env) command) = [] ∨ there) := by
  have hkey := henv entry List.mem_cons_self
  constructor
  · intro hone
    have hlength : (reads (exportsBefore (entry :: env) command)).length ≤ 1 := by
      obtain hnil | ⟨_, first, hfirst, _⟩ := hone
      · rw [hnil]
        exact Nat.zero_le 1
      · rw [hfirst]
        exact Nat.le_refl 1
    refine ⟨?_, hlength, hone.imp_right And.left⟩
    by_contra hcommand
    rw [reads_exportsBefore h henv hcommand, List.map_cons, List.cons_append, List.length_cons,
      List.length_append] at hlength
    have hpos := List.length_pos_iff.mpr hcommand
    omega
  · rintro ⟨_, hlength, hthere⟩
    rw [exportsBefore_cons] at hlength hthere ⊢
    by_cases hrest : reads (exportsBefore env command) = []
    · obtain hnil | hsingle := h.before_nothing entry _ hkey hrest
      · exact .inl hnil
      · exact hthere.imp_right fun hthere => ⟨hthere, _, hsingle, nofun⟩
    · rw [h.after_export entry _ hkey hrest] at hlength ⊢
      have hpos := List.length_pos_iff.mpr hrest
      rw [List.length_cons] at hlength
      omega

/-- **The working directory is a precondition** of what `buildPosixCommand` builds exactly where the
shell reads the command as one list without `||`, or as nothing, and there are no exports; with
exports, only where there is no command to run. Where something runs, the directory is none that
`cd` reads as something else. -/
theorem cwd_precondition_iff {command d shellName line : String} {env : Environment}
    (options : List Char) (hd : d ≠ "") (hname : ShellName shellName)
    (hline : buildPosixCommand command (some d) env shellName = .ok line) :
    (∃ script, handed line = some script ∧
        ∀ log, RunsLists Logs [] (reads script) log → CdGuards (GoesThere options d) (cd d) log) ↔
      (env = [] ∧ (reads command = [] ∨
        GoesThere options d ∧ ∃ first, reads command = [first] ∧ first.OnlyAnd)) ∨
      (env ≠ [] ∧ reads command = [] ∧ (reads (exportsBefore env command)).length ≤ 1 ∧
        (reads (exportsBefore env command) = [] ∨ GoesThere options d)) := by
  have henv : ValidNames env := by
    rw [← assertValidEnvironment_eq_ok_iff]
    unfold buildPosixCommand at hline
    cases hvalid : assertValidEnvironment env with
    | error =>
      rw [hvalid] at hline
      cases hline
    | ok => rfl
  have hscript : handed line = some ("cd " ++ shellQuote d ++ " && " ++
    exportsBefore env command) := by
    rw [buildPosixCommand_eq henv] at hline
    obtain rfl := Except.ok.inj hline
    have hcwd : workingDirectory (some d) = some d := Option.filter_some_pos (by simpa using hd)
    have hoptions : ¬TakenForOptions (scriptOf command (some d) env).toList := fun htaken =>
      Option.some_ne_none d (hcwd.symm.trans (takenForOptions_scriptOf.mp htaken).1)
    rw [handed_line hname hoptions, scriptOf, hcwd]
  have hguards : (∃ script, handed line = some script ∧
      ∀ log, RunsLists Logs [] (reads script) log → CdGuards (GoesThere options d) (cd d) log) ↔
        reads (exportsBefore env command) = [] ∨ GoesThere options d ∧
          ∃ first, reads (exportsBefore env command) = [first] ∧ first.OnlyAnd := by
    rw [← cdGuards_iff_of_cd h _ d (exportsBefore env command), hscript]
    simp
  rw [hguards]
  cases env with
  | nil => simp
  | cons =>
    rw [oneList_of_exports h henv]
    simp

end Scripts

/-! ### Scripts of simple commands -/

/-- The `cd` of a script of simple commands. -/
def cdPipeline (d : String) : Pipeline := [simple [plainWord "cd", quotedWord d]]

/-- An export of a script of simple commands. -/
def exportPipeline (entry : String × String) : Pipeline :=
  [simple [plainWord "export", assignment entry]]

/-- **Scripts of simple commands** are read as the shell reads the code's own commands. -/
theorem readsScripts_readLists : ReadsScripts readLists cdPipeline exportPipeline where
  after_cd d text := by
    have hparse : ∀ ts, parse (cdTokens d ++ ts) = _ :=
      @parse_and (plainWord "cd") [quotedWord d] (by decide)
    rw [readLists_append (opens_cd d), readLists]
    simp only [hparse]
    cases tokens text with
    | none => rfl
    | some ts =>
      dsimp only [Option.bind_some]
      cases parse ts with
      | none => rfl
      | some => rfl
  after_export entry text hkey htext := by
    have hparse := @parse_seq (plainWord "export") [assignment entry] (by decide)
    rw [readLists_append (opens_export hkey)]
    unfold readLists at htext ⊢
    cases htokens : tokens text with
    | none =>
      rw [htokens] at htext
      exact absurd rfl htext
    | some ts =>
      rw [htokens] at htext
      dsimp only [Option.bind_some] at htext ⊢
      rw [show parse (exportTokens entry ++ ts) = _ from hparse ts]
      cases hts : parse ts with
      | none =>
        rw [hts] at htext
        exact absurd rfl htext
      | some =>
        -- a text that is nothing to run is read as no list
        have hsplit : split ts ≠ some ([], []) := by
          intro hsplit
          rw [parse, hsplit] at hts
          cases hts
        rw [if_neg hsplit]
        rfl
  before_nothing entry text hkey htext := by
    have hparse := @parse_seq (plainWord "export") [assignment entry] (by decide)
    rw [readLists_append (opens_export hkey)]
    unfold readLists at htext
    cases htokens : tokens text with
    | none => exact .inl rfl
    | some ts =>
      rw [htokens] at htext
      dsimp only [Option.bind_some] at htext ⊢
      rw [show parse (exportTokens entry ++ ts) = _ from hparse ts]
      cases hts : parse ts with
      | some =>
        rw [hts] at htext
        cases htext
      | none =>
        by_cases hsplit : split ts = some ([], [])
        · -- nothing stands behind the export; otherwise it is refused with the text
          rw [if_pos hsplit]
          exact .inr rfl
        · rw [if_neg hsplit]
          exact .inl rfl

theorem cwd_precondition_iff_make :
    ∃ line, buildPosixCommand "make && make test" (some "/srv") [] "sh" = .ok line ∧
      ∃ script, handed line = some script ∧
        ∀ log, RunsLists Logs [] (readLists script) log →
          CdGuards (GoesThere ['L', 'P'] "/srv") (cdPipeline "/srv") log :=
  ⟨_, rfl, (cwd_precondition_iff readsScripts_readLists _ (by decide) (.inl rfl) rfl).mpr
    (.inl ⟨rfl, .inr ⟨⟨by decide, nofun⟩, _, rfl, by unfold AndOr.OnlyAnd; decide⟩⟩)⟩

/-- With a variable to export, the command runs where it stands when there is no such directory. -/
theorem command_runs_outside_cwd :
    ¬∀ line, buildPosixCommand "rm -r build" (some "/srv") [("CI", "1")] "sh" = .ok line →
      ∃ script, handed line = some script ∧
        ∀ log, RunsLists Logs [] (readLists script) log →
          CdGuards (GoesThere ['L', 'P'] "/srv") (cdPipeline "/srv") log := by
  intro hguarded
  have henv : ValidNames [("CI", "1")] := by unfold ValidNames; decide
  obtain ⟨script, hscript, hguards⟩ := hguarded _ (buildPosixCommand_eq henv _ _ _)
  rw [handed_line (.inl rfl) (by decide +kernel)] at hscript
  obtain rfl := Option.some.inj hscript
  have hreads : readLists (scriptOf "rm -r build" (some "/srv") [("CI", "1")]) =
      [⟨cdPipeline "/srv", [(.and, exportPipeline ("CI", "1"))]⟩,
        .single [simple [plainWord "rm", plainWord "-r", plainWord "build"]]] := by
    decide +kernel
  rw [hreads] at hguards
  -- the `cd` fails, and the command runs
  have hcd : Logs [] (cdPipeline "/srv") false [(cdPipeline "/srv", false)] := rfl
  have hcommand : ∀ log p, Logs (π := Pipeline) log p true (log ++ [(p, true)]) := fun _ _ => rfl
  have hrun := hguards _ (.runs hcd (.skips rfl (.done _ _))
    (.runs (hcommand _ _) (.done _ _) (.done _)))
  obtain hnil | ⟨ok, rest, heq, hrest⟩ := hrun
  · cases hnil
  · obtain ⟨hcd, hmore⟩ := List.cons.inj heq
    rw [hrest (.inl (congrArg Prod.snd hcd).symm)] at hmore
    cases hmore

end Ssh
