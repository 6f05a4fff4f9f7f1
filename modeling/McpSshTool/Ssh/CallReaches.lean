import McpSshTool.Ssh.EnsureReaches
import McpSshTool.Ssh.ToolCalls

/-!
# Tool calls that get to act

The other side of `ToolCalls`: what it takes for a call to act is enough, in a live session in mode
`enforce`.

* `reaches_guardedFile`, `uploadFileWithProgress_reaches`, `downloadFileWithProgress_reaches` — how
  the services get past their checks;
* `task_reaches_acts` — a call that may act does so in some run.
-/

open Library

namespace Ssh

open Program

variable {rt : Runtime} {engine : PolicyEngine rt} {config : ServerConfig}
variable {Assume : Event → Prop} {P : Operation → Prop} {session : Session} {α : Type}

/-! ### Files -/

section Files

variable (hlively : Lively Assume session)
include hlively

theorem reaches_guardedFile {sessionId hint : String} (context : Session → PolicyContext)
    {explained : PolicyDecision → Task α} {body : Session → Task α}
    (hmode : (context session).mode = some .enforce) (hpermits : engine.Permits (context session))
    (hbody : Reaches Assume P (body session)) :
    Reaches Assume P
      (getSession sessionId >>= fun s => wrapping hint
        (ofExcept (engine.assertAllowed (context s)) >>= fun decision =>
          if decision.mode = .explain then explained decision else body s)) := by
  refine hlively.reaches_sessionOr (Reaches.andThen ?_)
  rw [guarded_eq hpermits hmode]
  exact hbody

/-- A write goes by a temporary file with any UUID that may be drawn. -/
theorem sendWrite_reaches (sessionId path data : String) (mode : Option ℕ) {uuid : String}
    (huuid : Assume ⟨.randomUUID, uuid⟩)
    (hshell : session.sftp = false →
      ∀ sent, P (.exec (.write data (tempPathFor path uuid) path mode) sent))
    (hsftp : session.sftp = true →
      P (.sftpWriteFile (tempPathFor path uuid) (Utf8.encode data)) ∨
        P (.sftpRename (tempPathFor path uuid) path)) :
    Reaches Assume P (sendWrite session sessionId path data mode) := by
  refine .inr ⟨uuid, huuid, ?_⟩
  change Reaches Assume _ (if _ then _ else _)
  split
  · next h => exact (execFallback_reaches hlively sessionId _ (hshell (by simpa using h))).bind
  · next h =>
    refine Reaches.andThen ?_
    rcases hsftp (by simpa using h) with hwrite | hrename
    · exact .inl hwrite
    · refine .inr ⟨.ok (), hlively.answer _ _ (fun _ => nofun) nofun, ?_⟩
      cases mode with
      | none => exact .inl hrename
      | some => exact .inr ⟨.ok (), hlively.answer _ _ (fun _ => nofun) nofun, .inl hrename⟩

variable (henforce : session.policyMode = .enforce)
include henforce

theorem makeDirectories_reaches (sessionId : String) {path : String}
    (hpermits : engine.Permits (pathContext .fsMkdir path .enforce))
    (hshell : session.sftp = false → ∀ sent, P (.exec (.mkdir path) sent))
    (hsftp : session.sftp = true → Reaches Assume P (sftpMkdirRecursive path)) :
    Reaches Assume P (makeDirectories engine sessionId path) := by
  rw [← henforce] at hpermits
  refine reaches_guardedFile hlively (fun s => pathContext .fsMkdir path s.policyMode)
    (congrArg some henforce) hpermits ?_
  split
  · next h => exact (execFallback_reaches hlively sessionId _ (hshell (by simpa using h))).bind
  · next h => exact (hsftp (by simpa using h)).bind

theorem removeRecursive_reaches (depth : ℕ) (sessionId : String) {path : String}
    (hpermits : engine.Permits (removeContext path .enforce))
    (hshell : session.sftp = false → ∀ sent, P (.exec (.remove path) sent))
    (hsftp : session.sftp = true →
      P (.sftpUnlink path) ∨ Reaches Assume P (sftpRmdirRecursive depth path)) :
    Reaches Assume P (removeRecursive engine depth sessionId path) := by
  rw [← henforce] at hpermits
  refine reaches_guardedFile hlively (fun s => removeContext path s.policyMode)
    (congrArg some henforce) hpermits ?_
  have hstat : ∀ stats : Stats, Yields Assume (sftpStat path) (.ok stats) := fun stats =>
    ⟨.ok stats, hlively.answer _ _ (fun _ => nofun) nofun, rfl⟩
  split
  · next h => exact (execFallback_reaches hlively sessionId _ (hshell (by simpa using h))).bind
  · next h =>
    rcases hsftp (by simpa using h) with hunlink | hrmdir
    · refine (hstat { mode := none, size := none, mtime := none }).reaches_bind ?_
      exact .inl hunlink
    · refine (hstat { mode := some 0o040000, size := none, mtime := none }).reaches_bind ?_
      exact hrmdir.bind

theorem renameFile_reaches (sessionId : String) {source target : String}
    (hpermits : engine.Permits (renameContext source target .enforce))
    (hshell : session.sftp = false → ∀ sent, P (.exec (.move source target) sent))
    (hsftp : session.sftp = true → P (.sftpRename source target)) :
    Reaches Assume P (renameFile engine sessionId source target) := by
  rw [← henforce] at hpermits
  refine reaches_guardedFile hlively (fun s => renameContext source target s.policyMode)
    (congrArg some henforce) hpermits ?_
  split
  · next h => exact (execFallback_reaches hlively sessionId _ (hshell (by simpa using h))).bind
  · next h => exact .inl (hsftp (by simpa using h))

end Files

/-! ### Commands and tunnels -/

variable (config) (halive : Alive Assume session) (henforce : session.policyMode = .enforce)
include halive henforce

theorem execWithStreaming_reaches (sessionId : String) {command : String} (cwd : Option String)
    (env : SchemaEnvironment) (timeoutMs : Option ℕ)
    (hpermits : engine.Permits (commandContext (.command command) .enforce))
    (hP : ∀ sent ms, P (.execStreaming (.command command) sent ms)) :
    Reaches Assume P (execWithStreaming engine config sessionId command cwd env.1 timeoutMs) := by
  have hsent : ∃ sent, buildRemoteCommand command linuxHost cwd env.1 = .ok sent := by
    unfold buildRemoteCommand buildPosixCommand
    rw [env.2]
    exact ⟨_, rfl⟩
  obtain ⟨sent, hsent⟩ := hsent
  refine halive.reaches_sessionOr ?_
  change Reaches Assume _ (ofExcept
    (engine.assertAllowed (commandContext (.command command) session.policyMode)) >>= _)
  rw [henforce, guarded_eq hpermits rfl]
  refine halive.reaches_getOSInfo linuxHost (halive.reaches_now 0 ?_)
  rw [hsent]
  exact .inl (hP sent _)

theorem createTunnel_reaches {type : TunnelType} {tunnel : TunnelConfig} {tunnelCounter : ℕ}
    {forward : Task ℕ} (hpermits : engine.Permits (tunnel.context type .enforce))
    (hforward : Reaches Assume P forward) :
    Reaches Assume P (createTunnel engine type tunnel tunnelCounter forward) := by
  refine halive.reaches_sessionOr ?_
  rw [henforce, guarded_eq hpermits rfl]
  exact halive.reaches_now 0 hforward.bind

/-! ### Transfers -/

/-- The operations on the server's own machine. -/
def Operation.IsLocal : Operation → Prop
  | .localFiles _ | .localRealpath _ | .localStat _ | .localReadFile _ | .localCreateFile _ _
  | .localRemove _ | .localRename _ _ => True
  | _ => False

/-- The server's own machine may answer anything. -/
def AnswersLocally (Assume : Event → Prop) : Prop :=
  ∀ (op : Operation) (answer : Answer op), op.IsLocal → Assume ⟨op, answer⟩

omit halive henforce in
theorem Lively.answersLocally (hlively : Lively Assume session) : AnswersLocally Assume := by
  intro op answer hlocal
  refine hlively.answer op answer ?_ ?_
  · rintro sessionId rfl
    exact hlocal
  · rintro rfl
    exact hlocal

omit halive henforce in
theorem transferSession_reaches (hlively : Lively Assume session) (sessionId : String)
    (hsftp : session.sftp = true) {f : Session → Task α} (hf : Reaches Assume P (f session)) :
    Reaches Assume P (transferSession sessionId >>= f) := by
  have hyields : Yields Assume (transferSession sessionId) (.ok session) := by
    refine ⟨some session, hlively.session sessionId, ?_⟩
    change Yields Assume (if _ then _ else _) _
    rw [if_neg (by simp [hsftp])]
    rfl
  exact hyields.reaches_bind hf

omit halive henforce in
theorem assertLocalAllowed_yields (hlocal : AnswersLocally Assume) {context : PolicyContext}
    {files : String → Option String} (hpermits : engine.PermitsWith files context) :
    Yields Assume (assertLocalAllowed engine context)
      (.ok (engine.evaluateWith files context)) := by
  refine ⟨files, hlocal (.localFiles context) _ trivial, ?_⟩
  change engine.assertAllowedWith files context = _
  unfold PolicyEngine.assertAllowedWith
  dsimp only
  rw [show (engine.evaluateWith files context).allowed = true from hpermits]
  rfl

omit halive henforce in
theorem authorizeLocalReadPath_yields (hlocal : AnswersLocally Assume) {localPath : String}
    (h : LocallyReadable engine (fun _ => True) localPath) :
    ∃ path, Yields Assume (authorizeLocalReadPath engine localPath .enforce) (.ok path) := by
  obtain ⟨hvalid, canonicalPath, files, -, -, hpermits⟩ := h
  refine ⟨canonicalPath, ?_⟩
  unfold authorizeLocalReadPath resolveLocalReadPath resolveAbsoluteLocalPath
  rw [hvalid]
  refine Yields.bind (a := canonicalPath) ?_ ((assertLocalAllowed_yields hlocal hpermits).bind rfl)
  exact ⟨.ok canonicalPath, hlocal (.localRealpath _) _ trivial, rfl⟩

omit halive in
/-- An upload of a local file that may be read overwrites the remote path. -/
theorem uploadFileWithProgress_reaches (hlively : Lively Assume session) (sessionId : String)
    {localPath remotePath : String}
    (hpermits : engine.Permits (pathContext .transferUpload remotePath .enforce))
    (hsftp : session.sftp = true) (hread : LocallyReadable engine (fun _ => True) localPath)
    (hP : ∀ data, P (.sftpWriteFile remotePath data)) :
    Reaches Assume P (uploadFileWithProgress engine config localPath remotePath sessionId) := by
  obtain ⟨canonicalPath, hread⟩ := authorizeLocalReadPath_yields hlively.answersLocally hread
  refine transferSession_reaches hlively sessionId hsftp ?_
  change Reaches Assume P (ofExcept
    (engine.assertAllowed (pathContext .transferUpload remotePath session.policyMode)) >>= _)
  rw [henforce, guarded_eq hpermits rfl]
  refine hread.reaches_bind (hlively.reaches_now 0 (Reaches.andThen ?_))
  -- the file is empty, so it is not too large
  have hstat : Yields Assume (localStat canonicalPath) (.ok 0) :=
    ⟨.ok 0, hlively.answer _ _ (fun _ => nofun) nofun, rfl⟩
  refine hstat.reaches_bind ?_
  rw [if_neg (Nat.not_lt_zero _)]
  have hcontent : Yields Assume (localReadFile canonicalPath) (.ok []) :=
    ⟨.ok [], hlively.answer _ _ (fun _ => nofun) nofun, rfl⟩
  exact hcontent.reaches_bind (.inl (hP []))

omit halive henforce in
/-- A local path that may be written is authorised, in some state of the files. -/
theorem authorizeLocalWritePath_yields (hlocal : AnswersLocally Assume)
    {localPath absolutePath : String}
    (habsolute : resolveAbsoluteLocalPath rt localPath = .ok absolutePath)
    (h : LocallyWritable engine absolutePath) :
    ∃ resolved : LocalWritePath, resolved.absolutePath = absolutePath ∧
      Yields Assume (authorizeLocalWritePath engine localPath .enforce) (.ok resolved) := by
  obtain ⟨action, canonicalPath, parentCanonicalPath, files, haction, hpermits⟩ := h
  let resolved : LocalWritePath := { absolutePath, canonicalPath, parentCanonicalPath, action }
  have hrealpath : ∀ path answer, Yields Assume (localRealpath path) answer := fun path answer =>
    ⟨answer, hlocal (.localRealpath path) _ trivial, rfl⟩
  have hresolve : Yields Assume (resolveLocalWritePath rt localPath) (.ok resolved) := by
    unfold resolveLocalWritePath
    rw [habsolute]
    change Yields Assume ((localRealpath (dirname absolutePath)).tryCatch _ >>= _) _
    refine Yields.bind (Yields.tryCatch_ok (hrealpath _ (.ok parentCanonicalPath))) ?_
    rcases haction with rfl | ⟨rfl, rfl⟩
    · exact Yields.tryCatch_ok (Yields.bind (hrealpath _ (.ok canonicalPath)) rfl)
    · -- the file itself does not exist
      let missing : Failure := .other (some (.named "ENOENT")) ""
      refine Yields.tryCatch_error (Yields.bind_error (hrealpath _ (.error missing))) ?_
      rfl
  refine ⟨resolved, rfl, hresolve.bind ?_⟩
  exact (assertLocalAllowed_yields hlocal hpermits).bind rfl

/-- A download to a local path that may be written creates a file beside it. -/
theorem downloadFileWithProgress_reaches (sessionId : String) {remotePath localPath : String}
    {absolutePath temp : String} (time : ℕ)
    (hpermits : engine.Permits (pathContext .transferDownload remotePath .enforce))
    (hsftp : session.sftp = true)
    (habsolute : resolveAbsoluteLocalPath rt localPath = .ok absolutePath)
    (hwritable : LocallyWritable engine absolutePath)
    (htemp : resolveAbsoluteLocalPath rt (absolutePath ++ ".tmp." ++ toString time) = .ok temp)
    (hwritable' : LocallyWritable engine temp) (hP : ∀ path data, P (.localCreateFile path data)) :
    Reaches Assume P (downloadFileWithProgress engine config remotePath localPath sessionId) := by
  obtain ⟨resolved, rfl, hfirst⟩ :=
    authorizeLocalWritePath_yields halive.lively.answersLocally habsolute hwritable
  obtain ⟨resolved', rfl, hsecond⟩ :=
    authorizeLocalWritePath_yields halive.lively.answersLocally htemp hwritable'
  have hstat : Yields Assume (sftpStat remotePath)
    (.ok { mode := none, size := none, mtime := none }) :=
    ⟨.ok _, halive.answer _ _ fun _ => nofun, rfl⟩
  have hread : Yields Assume (sftpReadFile remotePath) (.ok []) :=
    ⟨.ok [], halive.answer _ _ fun _ => nofun, rfl⟩
  unfold downloadFileWithProgress
  generalize authorizeLocalWritePath engine = authorize at hfirst hsecond ⊢
  generalize authorizeLocalReadPath engine = authorizeRead
  refine transferSession_reaches halive.lively sessionId hsftp ?_
  change Reaches Assume P (ofExcept
    (engine.assertAllowed (pathContext .transferDownload remotePath session.policyMode)) >>= _)
  rw [henforce, guarded_eq hpermits rfl]
  refine halive.reaches_now 0 (Reaches.andThen ?_)
  refine hfirst.reaches_bind (hstat.reaches_bind ?_)
  have hsmall : ¬(Option.getD (none : Option ℕ) 0 > config.maxTransferBytes) := Nat.not_lt_zero _
  rw [if_neg hsmall]
  refine hread.reaches_bind (halive.reaches_now time (hsecond.reaches_bind ?_))
  exact .inl (hP _ _)

/-! ### Calls -/

omit henforce in
theorem sendWrite_acts (sessionId path data : String) (mode : Option ℕ) :
    Reaches Assume Operation.Acts (sendWrite session sessionId path data mode) :=
  sendWrite_reaches halive.lively sessionId path data mode
    (halive.answer .randomUUID "" fun _ => nofun) (fun _ _ => id) fun _ => .inl trivial

theorem mkdir_reaches_acts (sessionId path : String)
    (hmay : ToolCall.MayAct engine config session.sftp (.fsMkdirp sessionId path)) :
    Reaches Assume Operation.Acts (makeDirectories engine sessionId path) := by
  refine makeDirectories_reaches halive.lively henforce sessionId hmay.1 (fun _ _ => id)
    fun hsftp => ?_
  -- the first directory is missing, and is created
  obtain ⟨part, parts, hcons⟩ := List.exists_cons_of_ne_nil (hmay.2 hsftp)
  unfold sftpMkdirRecursive
  rw [show (splitText path '/').filter (· ≠ "") = part :: parts from hcons]
  refine Reaches.bind (Yields.reaches (r := .error Failure.unfinished) ?_ (.inl trivial))
  exact ⟨.error Failure.unfinished, halive.answer _ _ fun _ => nofun, rfl⟩

/-- Lines that may be written get written, to the file or to the temporary file. -/
theorem lines_reaches_acts (hlawful : rt.Lawful) {sessionId path : String} {lines : List String}
    {createIfMissing : Bool} {state : Presence}
    (hmay : ToolCall.MayAct engine config session.sftp
      (.ensureLinesInFile sessionId path lines createIfMissing state)) :
    Reaches Assume Operation.Acts
      (ensureLinesInFile engine config sessionId path lines createIfMissing state) := by
  obtain ⟨content, hedits, hfits, hways⟩ := hmay
  have hsend : ∀ target, Reaches Assume Operation.Acts
      (sendWrite session sessionId target content none) := fun target =>
    sendWrite_acts halive sessionId target content none
  rcases hways with hpermits | ⟨hfails, osInfo, time, htemp⟩
  · refine ensureLinesInFile_reaches config halive henforce hlawful sessionId hedits linuxHost ?_
    exact fallback_reaches_direct config linuxHost
      (writeFile_reaches config henforce hpermits hfits halive.lively sessionId none (hsend path))
  · obtain ⟨e, he, hdirect⟩ := writeFile_fallsBack config halive henforce sessionId hfits hfails
    refine ensureLinesInFile_reaches config halive henforce hlawful sessionId hedits osInfo ?_
    exact fallback_reaches_staged config halive osInfo time he hdirect
      (.inl (writeFile_reaches config henforce htemp hfits halive.lively sessionId none (hsend _)))

/-- **A call that may act does so in some run.** -/
theorem task_reaches_acts (hlawful : rt.Lawful) {call : ToolCall}
    (hmay : call.MayAct engine config session.sftp) :
    Reaches Assume Operation.Acts (call.task engine config) := by
  cases call with
  | fsWrite sessionId path data mode =>
    exact (writeFile_reaches config henforce hmay.1 hmay.2 halive.lively sessionId mode
      (sendWrite_acts halive sessionId path data mode)).bind
  | fsMkdirp sessionId path =>
    exact (mkdir_reaches_acts config halive henforce sessionId path hmay).bind
  | fsRmrf depth sessionId =>
    exact (removeRecursive_reaches halive.lively henforce depth sessionId hmay (fun _ _ => id)
      fun _ => .inl trivial).bind
  | fsRename sessionId =>
    exact (renameFile_reaches halive.lively henforce sessionId hmay (fun _ _ => id) fun _ =>
      trivial).bind
  | procExec sessionId command cwd env timeoutMs =>
    exact (execCommand_reaches config halive henforce sessionId hmay cwd env.2 timeoutMs
      fun _ _ => id).bind
  | procSudo sessionId command cwd timeoutMs =>
    exact (execSudo_reaches config halive henforce sessionId hmay cwd timeoutMs fun _ _ => id).bind
  | procExecStream sessionId command cwd env timeoutMs =>
    exact (execWithStreaming_reaches config halive henforce sessionId cwd env timeoutMs hmay
      fun _ _ => id).bind
  | ensurePackage sessionId =>
    obtain ⟨hvalid, pm, command, hcommand, hfound, hpermits⟩ := hmay
    refine (ensurePackage_reaches config halive henforce sessionId hvalid hcommand hfound hpermits
      fun op hop => ?_).bind
    exact acts_of_script hop id
  | ensureService sessionId =>
    obtain ⟨hvalid, initSystem, hinit, hpermits⟩ := hmay
    refine (ensureService_reaches config halive henforce sessionId hvalid hinit hpermits
      fun op hop => ?_).bind
    exact acts_of_script hop id
  | ensureLinesInFile =>
    exact (lines_reaches_acts config halive henforce hlawful hmay).bind
  | patchApply sessionId path diff =>
    obtain ⟨hfound, hfits, osInfo, time, htemp⟩ := hmay
    refine (applyPatch_reaches config halive henforce sessionId path diff hfound osInfo time
      (.inl ?_)).bind
    -- the diff is written to its own file first, which acts already
    exact writeFile_reaches config henforce htemp hfits halive.lively sessionId none
      (sendWrite_acts halive sessionId _ diff none)
  | fileUpload sessionId =>
    exact (uploadFileWithProgress_reaches config henforce halive.lively sessionId hmay.1
      hmay.2.1 hmay.2.2
      fun _ => trivial).bind
  | fileDownload sessionId =>
    obtain ⟨hpermits, hsftp, absolutePath, habsolute, hwritable, time, temp, htemp, hwritable'⟩ :=
      hmay
    exact (downloadFileWithProgress_reaches config halive henforce sessionId time hpermits hsftp
      habsolute hwritable htemp hwritable' fun _ _ => trivial).bind
  | tunnelLocalForward sessionId localPort remoteHost remotePort tunnelCounter =>
    refine Reaches.bind (p := createLocalForward engine sessionId localPort remoteHost remotePort
      tunnelCounter) ?_
    refine createTunnel_reaches halive henforce hmay ?_
    exact Or.inl trivial
  | tunnelRemoteForward sessionId remotePort localHost localPort tunnelCounter =>
    refine Reaches.bind (p := createRemoteForward engine sessionId remotePort localHost localPort
      tunnelCounter) ?_
    refine createTunnel_reaches halive henforce hmay ?_
    exact Or.inl trivial
  | _ => exact hmay.elim

end Ssh
