import McpSshTool.Ssh.CallReaches
import McpSshTool.Ssh.SharedHost
import McpSshTool.Ssh.WriteAtomic

/-!
# Direct and privileged edits

An edit of a file goes through the services of the login user first, and through sudo where that
fails. Only what goes through sudo is put before the policy as a destructive operation on the file.

* `PermitsPrivileged` — what the policy says of the privileged edit of a file;
* `Operation.Installs` — the operation puts content in place at a path;
* `Goes` — the request may get to its file without sudo;
* `equally_guarded_iff` — **when the direct edit is held to what the privileged one is held to**.
-/

open Library

namespace Ssh

open Program

/-! ### What is compared -/

/-- **The policy would let the privileged edit of the file pass**, as far as the file is
concerned. -/
def PolicyEngine.PermitsPrivileged {rt : Runtime} (engine : PolicyEngine rt)
    (path : String) : Prop :=
  ∀ p ∈ truthy (some path), engine.pathDenial true p = none

/-- The file is under no deny prefix, and under an allow prefix unless destructive operations are
allowed anywhere. -/
theorem PolicyEngine.permitsPrivileged_iff {rt : Runtime} {engine : PolicyEngine rt} {path : String}
    (hpath : path ≠ "") :
    engine.PermitsPrivileged path ↔ Char.ofNat 0 ∉ path.toList ∧
      ¬engine.DenyCovers (policyLocation path) ∧
      (engine.config.allowDestructiveFs = false → engine.AllowCovers (policyLocation path)) := by
  have htruthy : truthy (some path) = some path := by
    unfold truthy
    simp [hpath]
  unfold PolicyEngine.PermitsPrivileged
  rw [htruthy]
  constructor
  · intro h
    obtain ⟨hnul, hdeny, hallow⟩ := engine.pathDenial_eq_none_iff.mp (h path rfl)
    exact ⟨hnul, hdeny, hallow rfl⟩
  · rintro ⟨hnul, hdeny, hallow⟩ p hp
    obtain rfl := Option.some.inj hp
    exact engine.pathDenial_eq_none_iff.mpr ⟨hnul, hdeny, fun _ => hallow⟩

/-- The script puts content in place at the path. -/
def Script.Installs (path : String) : Script → Prop
  | .write _ _ target _ => target = path
  | .move _ target => target = path
  | .patch target _ => target = path
  | _ => False

/-- **The operation puts content in place at the path.** -/
def Operation.Installs (path : String) (op : Operation) : Prop :=
  (∃ source, op = .sftpRename source path) ∨ ∃ script, op.script? = some script ∧
    script.Installs path

variable {rt : Runtime} (engine : PolicyEngine rt) (config : ServerConfig) (session : Session)

/-- **Direct and privileged edits are equally guarded**: whatever way an edit goes, it is one that
the policy would permit under sudo. -/
def EquallyGuarded (request : EditRequest) : Prop :=
  Always (SessionIs session)
    (fun op => op.Installs request.target → engine.PermitsPrivileged request.target)
    (request.run engine config)

/-- **A request that may get to its file without sudo.** Lines: the file may be written, and there
is something to write. A patch: it may be staged, and the commands that try and apply it are
permitted. -/
def EditRequest.Goes : EditRequest → Prop
  | .lines _ path wanted createIfMissing state =>
    engine.Permits (pathContext .fsWrite path .enforce) ∧
      ∃ content, EditsTo engine .enforce path wanted createIfMissing state content ∧
        content.utf8ByteSize ≤ config.maxFileWriteBytes
  | .patch _ path diff =>
    engine.Permits (commandContext (.which "patch") .enforce) ∧
      diff.utf8ByteSize ≤ config.maxFileWriteBytes ∧
      ∃ osInfo time, engine.Permits (pathContext .fsWrite (patchTempFile osInfo time) .enforce) ∧
        (patchTempFile osInfo time = path ∨
          engine.Permits (commandContext (.patchDryRun path (patchTempFile osInfo time)) .enforce) ∧
          engine.Permits (commandContext (.patch path (patchTempFile osInfo time)) .enforce))

/-! ### What gets to a file -/

section Sound

variable {engine} {config} {session} {Assume : Event → Prop} {sessionId path target data : String}

theorem permitsPrivileged_of_permits {script : Script} {action : PolicyAction}
    (haction : action ∉ localTransferActions)
    (h : engine.Permits (sudoContext script .enforce (privilegedOptions action path true))) :
    engine.PermitsPrivileged path := by
  intro p hp
  have hpath : path ≠ "" := by
    rintro rfl
    cases hp
  rw [truthy_some hpath] at hp
  obtain rfl := Option.some.inj hp
  refine h.pathDenial haction ?_
  change path ∈ [truthy (some path), none].filterMap truthy
  rw [truthy_some hpath]
  refine List.mem_filterMap.mpr ⟨some path, List.mem_cons_self, truthy_some hpath⟩

theorem installs_of_script {op : Operation} {script : Script} (hscript : op.script? = some script)
    (h : op.Installs path) : script.Installs path := by
  obtain ⟨source, rfl⟩ | ⟨script', hscript', hinstalls⟩ := h
  · cases hscript
  · rw [hscript] at hscript'
    obtain rfl := Option.some.inj hscript'
    exact hinstalls

theorem not_installs {op : Operation} (hscript : op.script? = none)
    (hrename : ∀ source target, op ≠ .sftpRename source target) : ¬op.Installs path := by
  rintro (⟨source, rfl⟩ | ⟨script, hsome, -⟩)
  · exact hrename _ _ rfl
  · rw [hscript] at hsome
    cases hsome

theorem not_installs_of_isLookup {op : Operation} (h : op.IsLookup) : ¬op.Installs path := by
  cases op with
  | getSession => exact not_installs rfl nofun
  | randomUUID => exact not_installs rfl nofun
  | now => exact not_installs rfl nofun
  | _ => exact h.elim

theorem not_installs_of_shell {op : Operation} {script : Script} (hscript : ¬script.Installs path)
    (hop : ShellOperation sessionId script op) : ¬op.Installs path := by
  cases hop with
  | getSession => exact not_installs rfl nofun
  | getOSInfo => exact not_installs rfl nofun
  | exec => exact fun h => hscript (installs_of_script rfl h)

theorem not_installs_of_read {op : Operation} (hop : ReadOperation sessionId target op) :
    ¬op.Installs path := by
  cases hop with
  | shell hscript hop =>
    refine not_installs_of_shell ?_ hop
    rcases hscript with rfl | rfl | rfl
    · exact not_false
    · exact not_false
    · exact not_false
  | getSession => exact not_installs rfl nofun
  | now => exact not_installs rfl nofun
  | stat => exact not_installs rfl nofun
  | read => exact not_installs rfl nofun
  | readdir => exact not_installs rfl nofun

theorem installs_of_command {op : Operation} {script : Script}
    (hop : CommandOperation sessionId script op) (h : op.Installs path) : script.Installs path := by
  cases hop with
  | getOSInfo => exact absurd h (not_installs rfl nofun)
  | now => exact absurd h (not_installs rfl nofun)
  | exec => exact installs_of_script rfl h
  | stream => exact installs_of_script rfl h
  | underSudo => exact installs_of_script rfl h

/-- A write installs its own file. -/
theorem installs_of_write {sftp : Bool} {op : Operation}
    (hop : WriteOperation Assume sftp sessionId target data op) (h : op.Installs path) :
    target = path := by
  cases hop with
  | randomUUID => exact absurd h (not_installs rfl nofun)
  | shell _ _ hop =>
    by_contra hne
    refine not_installs_of_shell ?_ hop h
    exact hne
  | write => exact absurd h (not_installs rfl nofun)
  | chmod => exact absurd h (not_installs rfl nofun)
  | rename =>
    obtain ⟨source, hop⟩ | ⟨script, hscript, -⟩ := h
    · exact (Operation.sftpRename.inj hop).2
    · cases hscript
  | unlink => exact absurd h (not_installs rfl nofun)

/-- **What an ensure operation installs** is behind a decision on its command, or is a permitted
write. -/
theorem EnsureOperation.installs {Commands : PolicyContext → Script → Prop}
    {Writes : String → String → Prop} {op : Operation}
    (hop : EnsureOperation engine config Assume session sessionId Commands Writes op)
    (h : op.Installs path) :
    session.policyMode = .enforce ∧
      ((∃ context script, Commands context script ∧ engine.Permits context ∧ script.Installs path) ∨
        ∃ data, Writes path data ∧ engine.Permits (pathContext .fsWrite path .enforce) ∧
          data.utf8ByteSize ≤ config.maxFileWriteBytes) := by
  cases hop with
  | lookup hlookup => exact absurd h (not_installs_of_isLookup hlookup)
  | getOSInfo => exact absurd h (not_installs rfl nofun)
  | read hread => exact absurd h (not_installs_of_read hread)
  | command hcommand hpermits henforce hop =>
    exact ⟨henforce, .inl ⟨_, _, hcommand, hpermits, installs_of_command hop h⟩⟩
  | write hwrite hpermits henforce hfits hop =>
    obtain rfl := installs_of_write hop h
    exact ⟨henforce, .inr ⟨_, hwrite, hpermits, hfits⟩⟩

end Sound

section Exact

variable {engine} {config} {session}

/-- **What a request installs at its file** is permitted as privileged, or the request gets there
without sudo. -/
theorem installs_cases {Assume : Event → Prop} (hsession : Looks Assume session)
    (request : EditRequest) :
    Performs Assume (fun op => op.Installs request.target → session.policyMode = .enforce ∧
        (engine.PermitsPrivileged request.target ∨ request.Goes engine config))
      (request.run engine config) := by
  cases request with
  | lines =>
    refine Performs.bind ?_ fun _ => trivial
    refine (ensureLinesInFile_performs engine config hsession).weaken fun op hop h => ?_
    obtain ⟨henforce, ⟨context, script, hcommand, hpermits, -⟩ | ⟨content, hwrite,
      hpermits, hfits⟩⟩ :=
      hop.installs h
    · refine ⟨henforce, ?_⟩
      rw [henforce] at hcommand
      cases hcommand with
      | move => exact .inl (permitsPrivileged_of_permits (by decide) hpermits)
    · refine ⟨henforce, .inr ⟨hpermits, content, ?_, hfits⟩⟩
      rw [henforce] at hwrite
      cases hwrite with
      | direct hedits => exact hedits
      | staged hedits => exact hedits
  | patch sessionId path diff =>
    refine Performs.bind ?_ fun _ => trivial
    refine (applyPatch_performs engine config hsession sessionId path diff).weaken fun op hop h =>
      ?_
    obtain ⟨henforce, ⟨context, script, hcommand, hpermits, hinstalls⟩ |
      ⟨content, hwrite, hpermits, hfits⟩⟩ := hop.installs h
    · refine ⟨henforce, ?_⟩
      rw [henforce] at hcommand
      cases hcommand with
      | find => exact hinstalls.elim
      | @staged osInfo time hfound hstaged _ _ hcases =>
        obtain ⟨-, rfl⟩ | ⟨htested, rfl, rfl⟩ | ⟨rfl, rfl⟩ | ⟨windows, -, rfl⟩ := hcases
        · exact hinstalls.elim
        · obtain ⟨hwrite, hfits⟩ := hstaged rfl
          exact .inr ⟨hfound rfl, hfits, osInfo, time, hwrite, .inr ⟨htested rfl, hpermits⟩⟩
        · exact .inl (permitsPrivileged_of_permits (by decide) hpermits)
        · exact hinstalls.elim
    · refine ⟨henforce, ?_⟩
      rw [henforce] at hwrite
      cases hwrite with
      | temp hfound osInfo time => exact .inr ⟨hfound rfl, hfits, osInfo, time, hpermits, .inl rfl⟩

/-- **A request that goes** installs something at its file. -/
theorem goes_reaches {Assume : Event → Prop} {P : Operation → Prop} (halive : Alive Assume session)
    (henforce : session.policyMode = .enforce) (hlawful : rt.Lawful) {request : EditRequest}
    (hP : ∀ op : Operation, op.Installs request.target → P op) (h : request.Goes engine config) :
    Reaches Assume P (request.run engine config) := by
  have hwrite : ∀ {sessionId data : String},
      engine.Permits (pathContext .fsWrite request.target .enforce) →
      data.utf8ByteSize ≤ config.maxFileWriteBytes →
        Reaches Assume P (writeFile engine config sessionId request.target data) := by
    intro sessionId data hpermits hfits
    refine writeFile_reaches config henforce hpermits hfits halive.lively sessionId none ?_
    refine sendWrite_reaches halive.lively sessionId request.target data none
      (halive.answer .randomUUID "" fun _ => nofun) (fun _ sent => ?_) fun _ => .inr ?_
    · exact hP _ (.inr ⟨_, rfl, rfl⟩)
    · exact hP _ (.inl ⟨_, rfl⟩)
  cases request with
  | lines sessionId =>
    obtain ⟨hpermits, content, hedits, hfits⟩ := h
    refine Reaches.bind (ensureLinesInFile_reaches config halive henforce hlawful sessionId hedits
      linuxHost ?_)
    exact fallback_reaches_direct config linuxHost (hwrite hpermits hfits)
  | patch sessionId path diff =>
    obtain ⟨hfound, hfits, osInfo, time, hpermits, htemp⟩ := h
    refine Reaches.bind (applyPatch_reaches config halive henforce sessionId path diff hfound osInfo
      time ?_)
    rcases htemp with rfl | ⟨htested, happly⟩
    · exact .inl (hwrite hpermits hfits)
    · refine .inr ⟨writeFile_yields config halive henforce hpermits hfits sessionId, ?_⟩
      exact runPatch_reaches config halive henforce sessionId htested happly
        fun op hscript => hP op (.inr ⟨_, hscript, rfl⟩)

end Exact

theorem alive_sessionIs (session : Session) : Alive (SessionIs session) session where
  session _ := .inr rfl
  gone _ := .inl rfl
  answer op answer hop := by
    cases op with
    | getSession sessionId => exact absurd rfl (hop sessionId)
    | _ => trivial

/-- **When direct and privileged edits are equally guarded**: in mode `explain`, where the
privileged edit is permitted, and where the request does not get to its file without sudo. -/
theorem equally_guarded_iff {rt : Runtime} (hlawful : rt.Lawful) (engine : PolicyEngine rt)
    (config : ServerConfig) (session : Session) (request : EditRequest) :
    EquallyGuarded engine config session request ↔
      session.policyMode = .explain ∨ engine.PermitsPrivileged request.target ∨
        ¬request.Goes engine config := by
  constructor
  · intro hguarded
    by_contra hnot
    simp only [not_or, not_not] at hnot
    obtain ⟨hmode, hdenied, hgoes⟩ := hnot
    have henforce : session.policyMode = .enforce := by
      cases h : session.policyMode with
      | enforce => rfl
      | explain => exact absurd h hmode
    refine Reaches.not_always (exists_answer session) ?_ hguarded
    exact goes_reaches (alive_sessionIs session) henforce hlawful
      (fun op hinstalls h => hdenied (h hinstalls)) hgoes
  · intro h
    refine Ensures.always ((installs_cases looks_sessionIs request).weaken fun op hop hinstalls =>
      ?_)
    obtain ⟨henforce, hpermitted | hgoes⟩ := hop hinstalls
    · exact hpermitted
    · rcases h with hexplain | hpermitted | hnot
      · rw [henforce] at hexplain
        cases hexplain
      · exact hpermitted
      · exact absurd hgoes hnot

/-- An edit within the allow prefixes is guarded in the same way as under sudo. -/
theorem equally_guarded_within :
    ∃ engine : PolicyEngine decimalRuntime, engine.config = { pathDenyPrefixes := ["/etc"] } ∧
      ∀ session, EquallyGuarded engine sampleConfig session
        (.lines "ssh-1" "/home/deploy/.profile" ["x"] true .present) := by
  obtain ⟨engine, hengine⟩ := PolicyEngine.exists_engine decimalRuntime
    { pathDenyPrefixes := ["/etc"] } (by decide) (by decide) ⟨rfl, rfl⟩
  refine ⟨engine, hengine, fun session => ?_⟩
  refine (equally_guarded_iff decimalRuntime_lawful engine sampleConfig session _).mpr
    (.inr (.inl ?_))
  refine (PolicyEngine.permitsPrivileged_iff (by decide)).mpr ⟨by decide, ?_, fun _ => ?_⟩
  · rw [PolicyEngine.DenyCovers, PolicyEngine.denyLocations, hengine]
    decide
  · rw [PolicyEngine.AllowCovers, PolicyEngine.allowLocations, hengine]
    decide

/-- **Direct edits get past the policy**: lines are written outside the allow prefixes, and a patch
is applied under a deny prefix. -/
theorem direct_edits_escape :
    ∃ engine : PolicyEngine decimalRuntime, engine.config = { pathDenyPrefixes := ["/etc"] } ∧
      (¬engine.PermitsPrivileged "/opt/app.conf" ∧
        ¬EquallyGuarded engine sampleConfig ⟨.enforce, true⟩
          (.lines "ssh-1" "/opt/app.conf" ["x"] true .present)) ∧
      ¬engine.PermitsPrivileged "/etc/hosts" ∧
        ¬EquallyGuarded engine sampleConfig ⟨.enforce, true⟩ (.patch "ssh-1" "/etc/hosts" "x") := by
  obtain ⟨engine, hengine⟩ := PolicyEngine.exists_engine decimalRuntime
    { pathDenyPrefixes := ["/etc"] } (by decide) (by decide) ⟨rfl, rfl⟩
  have hdeny : engine.denyLocations = [["etc".toList]] := by
    rw [PolicyEngine.denyLocations, hengine]
    decide
  have hescapes : ∀ request : EditRequest, ¬engine.PermitsPrivileged request.target →
      request.Goes engine sampleConfig → ¬EquallyGuarded engine sampleConfig ⟨.enforce, true⟩
        request := by
    intro request hdenied hgoes
    refine Reaches.not_always (exists_answer _) ?_
    exact goes_reaches (alive_sessionIs _) rfl decimalRuntime_lawful
      (fun op hinstalls h => hdenied (h hinstalls)) hgoes
  have hwrite : ∀ path : String, Char.ofNat 0 ∉ path.toList → ¬["etc".toList] <+:
    policyLocation path →
      engine.Permits (pathContext .fsWrite path .enforce) := by
    intro path hnul hout
    refine permits_of_not_covered (by decide) hnul ?_ .enforce
    rw [PolicyEngine.DenyCovers, hdeny]
    rintro ⟨d, hd, hcovers⟩
    rw [List.mem_singleton.mp hd] at hcovers
    exact hout hcovers
  have hcommand : ∀ script, engine.Permits (commandContext script .enforce) := fun script =>
    permits_command (fun _ _ _ => rfl) (by rw [hengine]) (by rw [hengine]) script .enforce
  have happ : ¬engine.PermitsPrivileged "/opt/app.conf" := by
    rw [PolicyEngine.permitsPrivileged_iff (by decide)]
    rintro ⟨-, -, hallow⟩
    have hcovers := hallow (by rw [hengine])
    rw [PolicyEngine.AllowCovers, PolicyEngine.allowLocations, hengine] at hcovers
    revert hcovers
    decide
  have hhosts : ¬engine.PermitsPrivileged "/etc/hosts" := by
    rw [PolicyEngine.permitsPrivileged_iff (by decide)]
    rintro ⟨-, hnot, -⟩
    refine hnot ?_
    rw [PolicyEngine.DenyCovers, hdeny]
    decide
  refine ⟨engine, hengine, ⟨happ, hescapes _ happ ?_⟩, hhosts, hescapes _ hhosts ?_⟩
  · exact ⟨hwrite _ (by decide) (by decide), "x", .inr ⟨rfl, rfl, by decide +kernel⟩, by decide⟩
  · refine ⟨hcommand _, by decide, linuxHost, 0,
      hwrite _ (by decide +kernel) (by decide +kernel), .inr ?_⟩
    exact ⟨hcommand _, hcommand _⟩

end Ssh
