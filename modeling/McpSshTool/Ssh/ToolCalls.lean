import McpSshTool.Ssh.DenialStops
import McpSshTool.Ssh.EnsurePerforms

/-!
# Tool calls that act

Which tool calls in a session do more than look.

* `Operation.Acts` — the operations that change something: on the remote host, on the server's own
  machine, or by opening a tunnel;
* `ToolCall` — the tools that work in a session, with the program that serves each;
* `ToolCall.MayAct` — what it takes in mode `enforce`: the decisions that have to permit, and what
  the host cannot make up for;
* `task_acts` — it is necessary.
-/

open Library

namespace Ssh

open Program

/-! ### Operations that act -/

/-- The scripts that only look at the host. -/
def Script.ReadsOnly : Script → Prop
  | which _ => True
  | cat _ => True
  | stat _ => True
  | list _ => True
  | patchDryRun _ _ => True
  | checkPackage _ => True
  | inspect _ => True
  | _ => False

/-- **The operations that act**: commands and scripts that are not known to look only, whatever
writes over SFTP or on the server's own machine, and tunnels. -/
def Operation.Acts : Operation → Prop
  | .exec script _ => ¬script.ReadsOnly
  | .execSudo script _ _ => ¬script.ReadsOnly
  | .execWithin script _ _ => ¬script.ReadsOnly
  | .execStreaming script _ _ => ¬script.ReadsOnly
  | .sftpWriteFile _ _ => True
  | .sftpMkdir _ => True
  | .sftpRmdir _ => True
  | .sftpUnlink _ => True
  | .sftpRename _ _ => True
  | .sftpChmod _ _ => True
  | .localCreateFile _ _ => True
  | .localRemove _ => True
  | .localRename _ _ => True
  | .listen _ _ => True
  | .forwardIn _ _ => True
  | _ => False

theorem Operation.IsLookup.not_acts {op : Operation} (h : op.IsLookup) : ¬op.Acts := by
  intro hacts
  cases op with
  | getSession => exact hacts
  | randomUUID => exact hacts
  | now => exact hacts
  | _ => exact h

theorem ReadOperation.not_acts {sessionId path : String} {op : Operation}
    (h : ReadOperation sessionId path op) : ¬op.Acts := by
  intro hacts
  cases h with
  | shell hscript hop =>
    cases hop with
    | getSession => exact hacts
    | getOSInfo => exact hacts
    | exec =>
      refine hacts ?_
      rcases hscript with rfl | rfl | rfl
      · trivial
      · trivial
      · trivial
  | getSession => exact hacts
  | now => exact hacts
  | stat => exact hacts
  | read => exact hacts
  | readdir => exact hacts

theorem acts_of_script {op : Operation} {script : Script} (hop : op.script? = some script)
    (hscript : ¬script.ReadsOnly) : op.Acts := by
  cases op with
  | exec => exact Option.some.inj hop ▸ hscript
  | execSudo => exact Option.some.inj hop ▸ hscript
  | execWithin => exact Option.some.inj hop ▸ hscript
  | execStreaming => exact Option.some.inj hop ▸ hscript
  | _ => cases hop

theorem CommandOperation.not_readsOnly {sessionId : String} {script : Script} {op : Operation}
    (h : CommandOperation sessionId script op) (hacts : op.Acts) : ¬script.ReadsOnly := by
  cases h with
  | getOSInfo => exact absurd hacts id
  | now => exact absurd hacts id
  | exec => exact hacts
  | stream => exact hacts
  | underSudo => exact hacts

/-! ### Tool calls -/

/-- An environment that the schema admits. -/
def SchemaEnvironment : Type := { env : Environment // assertValidEnvironment env = .ok () }

/-- The checks of `ssh_host_inspect`, beside that of the operating system. -/
inductive InspectionCheck where
  | uptime | disk | memory
deriving DecidableEq, Repr

def commandForCheck : InspectionCheck → String
  | .uptime => "uptime"
  | .disk => "df -h /"
  | .memory => "free -m || vm_stat || wmic OS get FreePhysicalMemory,TotalVisibleMemorySize /Value"

/-- The tools that work in a session, with their arguments as the schemas leave them. -/
inductive ToolCall where
  | fsRead (sessionId path encoding : String) (maxBytes : Option ℕ)
  | fsWrite (sessionId path data : String) (mode : Option ℕ)
  | fsStat (sessionId path : String)
  | fsList (sessionId path : String) (page : Option ℕ) (limit : ℕ)
  | fsMkdirp (sessionId path : String)
  | fsRmrf (depth : ℕ) (sessionId path : String)
  | fsRename (sessionId source target : String)
  | procExec (sessionId command : String) (cwd : Option String) (env : SchemaEnvironment)
      (timeoutMs : Option ℕ)
  | procSudo (sessionId command : String) (cwd : Option String) (timeoutMs : Option ℕ)
  | procExecStream (sessionId command : String) (cwd : Option String) (env : SchemaEnvironment)
      (timeoutMs : Option ℕ)
  | ensurePackage (sessionId name : String) (state : Presence)
  | ensureService (sessionId name : String) (state : ServiceState)
  | ensureLinesInFile (sessionId path : String) (lines : List String) (createIfMissing : Bool)
      (state : Presence)
  | patchApply (sessionId path diff : String)
  | fileUpload (sessionId localPath remotePath : String)
  | fileDownload (sessionId remotePath localPath : String)
  | tunnelLocalForward (sessionId : String) (localPort : ℕ) (remoteHost : String)
      (remotePort tunnelCounter : ℕ)
  | tunnelRemoteForward (sessionId : String) (remotePort : ℕ) (localHost : String)
      (localPort tunnelCounter : ℕ)
  | osDetect (sessionId : String)
  | ping (sessionId : String)

namespace ToolCall

/-- The session that a call names. -/
def sessionId : ToolCall → String
  | fsRead sessionId _ _ _ => sessionId
  | fsWrite sessionId _ _ _ => sessionId
  | fsStat sessionId _ => sessionId
  | fsList sessionId _ _ _ => sessionId
  | fsMkdirp sessionId _ => sessionId
  | fsRmrf _ sessionId _ => sessionId
  | fsRename sessionId _ _ => sessionId
  | procExec sessionId _ _ _ _ => sessionId
  | procSudo sessionId _ _ _ => sessionId
  | procExecStream sessionId _ _ _ _ => sessionId
  | ensurePackage sessionId _ _ => sessionId
  | ensureService sessionId _ _ => sessionId
  | ensureLinesInFile sessionId _ _ _ _ => sessionId
  | patchApply sessionId _ _ => sessionId
  | fileUpload sessionId _ _ => sessionId
  | fileDownload sessionId _ _ => sessionId
  | tunnelLocalForward sessionId _ _ _ _ => sessionId
  | tunnelRemoteForward sessionId _ _ _ _ => sessionId
  | osDetect sessionId => sessionId
  | ping sessionId => sessionId

/-- The tool `ssh_ping`. -/
def pingTask (sessionId : String) : Task Unit :=
  .perform (.getSession sessionId) fun
    | none => pure ()
    | some _ => do
      let body : Task Unit := do
        let _ ← now
        let _ ← (.perform (.exec (.inspect "echo pong") "echo pong") .done : Task CommandResult)
        let _ ← now
        pure ()
      body.tryCatch fun _ => pure ()

/-- The program that serves a call, whatever it returns. -/
def task {rt : Runtime} (engine : PolicyEngine rt) (config : ServerConfig) : ToolCall → Task Unit
  | fsRead sessionId path encoding maxBytes =>
    (ServiceRequest.readFile sessionId path encoding maxBytes).task engine config
  | fsWrite sessionId path data mode =>
    (ServiceRequest.writeFile sessionId path data mode).task engine config
  | fsStat sessionId path => (ServiceRequest.statFile sessionId path).task engine config
  | fsList sessionId path page limit =>
    (ServiceRequest.listDirectory sessionId path page limit).task engine config
  | fsMkdirp sessionId path => (ServiceRequest.makeDirectories sessionId path).task engine config
  | fsRmrf depth sessionId path =>
    (ServiceRequest.removeRecursive depth sessionId path).task engine config
  | fsRename sessionId source target =>
    (ServiceRequest.renameFile sessionId source target).task engine config
  | procExec sessionId command cwd env timeoutMs =>
    (ServiceRequest.execCommand sessionId command cwd env.1 timeoutMs).task engine config
  | procSudo sessionId command cwd timeoutMs =>
    (ServiceRequest.execSudo sessionId command none cwd timeoutMs {}).task engine config
  | procExecStream sessionId command cwd env timeoutMs =>
    (ServiceRequest.execWithStreaming sessionId command cwd env.1 timeoutMs).task engine config
  | ensurePackage sessionId name state =>
    ServiceRequest.ignoring (Ssh.ensurePackage engine config sessionId name state)
  | ensureService sessionId name state =>
    ServiceRequest.ignoring (Ssh.ensureService engine config sessionId name state)
  | ensureLinesInFile sessionId path lines createIfMissing state =>
    ServiceRequest.ignoring
      (Ssh.ensureLinesInFile engine config sessionId path lines createIfMissing state)
  | patchApply sessionId path diff =>
    ServiceRequest.ignoring (applyPatch engine config sessionId path diff)
  | fileUpload sessionId localPath remotePath =>
    (ServiceRequest.upload localPath remotePath sessionId).task engine config
  | fileDownload sessionId remotePath localPath =>
    (ServiceRequest.download remotePath localPath sessionId).task engine config
  | tunnelLocalForward sessionId localPort remoteHost remotePort tunnelCounter =>
    (ServiceRequest.localForward sessionId localPort remoteHost remotePort tunnelCounter).task
      engine config
  | tunnelRemoteForward sessionId remotePort localHost localPort tunnelCounter =>
    (ServiceRequest.remoteForward sessionId remotePort localHost localPort tunnelCounter).task
      engine config
  | osDetect sessionId => ServiceRequest.ignoring (getOSInfo sessionId)
  | ping sessionId => pingTask sessionId

end ToolCall

/-! ### What it takes to act -/

variable {rt : Runtime} (engine : PolicyEngine rt) (config : ServerConfig)

/-- The directories that `fs_mkdirp` creates over SFTP. -/
def mkdirParts (path : String) : List String := (splitText path '/').filter (· ≠ "")

/-- The context of writing a local file. -/
def localWriteContext (action : PolicyAction) (canonicalPath parentCanonicalPath : String) :
    PolicyContext :=
  { action, path := some canonicalPath, secondaryPath := some parentCanonicalPath
    mode := some .enforce }

/-- The local path is valid and may resolve to a place that the policy allows to be written. -/
def LocallyWritable (absolutePath : String) : Prop :=
  ∃ action canonicalPath parentCanonicalPath files,
    (action = .transferLocalOverwrite ∨
      action = .transferLocalCreate ∧
        canonicalPath = joinPath parentCanonicalPath (basename absolutePath)) ∧
    engine.PermitsWith files (localWriteContext action canonicalPath parentCanonicalPath)

/-- The content that `ensureLinesInFile` comes to can be written: to the file, or to a temporary
file after a failure that is about permissions. -/
def MayWriteLines (sessionId path content : String) : Prop :=
  content.utf8ByteSize ≤ config.maxFileWriteBytes ∧
    (engine.Permits (pathContext .fsWrite path .enforce) ∨
      MayFallBack engine sessionId path ∧ ∃ osInfo time,
        engine.Permits (pathContext .fsWrite (linesTempFile osInfo time) .enforce))

/-- **What it takes for a call to act**, in a session in mode `enforce`: every decision on the way
permits, and what the call brings along does not stop it. -/
def ToolCall.MayAct (sftp : Bool) : ToolCall → Prop
  | fsWrite _ path data _ =>
    engine.Permits (pathContext .fsWrite path .enforce) ∧
      data.utf8ByteSize ≤ config.maxFileWriteBytes
  | fsMkdirp _ path =>
    engine.Permits (pathContext .fsMkdir path .enforce) ∧ (sftp = true → mkdirParts path ≠ [])
  | fsRmrf _ _ path => engine.Permits (removeContext path .enforce)
  | fsRename _ source target => engine.Permits (renameContext source target .enforce)
  | procExec _ command _ _ _ => engine.Permits (commandContext (.command command) .enforce)
  | procSudo _ command _ _ => engine.Permits (sudoContext (.command command) .enforce {})
  | procExecStream _ command _ _ _ => engine.Permits (commandContext (.command command) .enforce)
  | ensurePackage _ name state =>
    sanitizePackageName name = .ok name ∧
      ∃ pm command, packageCommand state pm name = .ok command ∧
        (state = .absent → ∃ text, checkCommand pm name = some text ∧
          engine.Permits (commandContext (.checkPackage text) .enforce)) ∧
        engine.Permits (packageContext state pm command .enforce)
  | ensureService _ name state =>
    sanitizeServiceName name = .ok name ∧
      ∃ initSystem ∈ managedInitSystems, engine.Permits
        (sudoContext (.setService (serviceCommand initSystem name state)) .enforce
          (serviceOptions state))
  | ensureLinesInFile sessionId path lines createIfMissing state =>
    ∃ content, EditsTo engine .enforce path lines createIfMissing state content ∧
      MayWriteLines engine config sessionId path content
  | patchApply _ _ diff =>
    engine.Permits (commandContext (.which "patch") .enforce) ∧
      diff.utf8ByteSize ≤ config.maxFileWriteBytes ∧
      ∃ osInfo time, engine.Permits (pathContext .fsWrite (patchTempFile osInfo time) .enforce)
  | fileUpload _ localPath remotePath =>
    engine.Permits (pathContext .transferUpload remotePath .enforce) ∧ sftp = true ∧
      LocallyReadable engine (fun _ => True) localPath
  | fileDownload _ remotePath localPath =>
    engine.Permits (pathContext .transferDownload remotePath .enforce) ∧ sftp = true ∧
      ∃ absolutePath, resolveAbsoluteLocalPath rt localPath = .ok absolutePath ∧
        LocallyWritable engine absolutePath ∧ ∃ time : ℕ, ∃ temp,
          resolveAbsoluteLocalPath rt (absolutePath ++ ".tmp." ++ toString time) = .ok temp ∧
            LocallyWritable engine temp
  | tunnelLocalForward sessionId localPort remoteHost remotePort _ =>
    engine.Permits (TunnelConfig.context
      { sessionId, localPort, remoteHost := some remoteHost, remotePort := some remotePort }
      .local .enforce)
  | tunnelRemoteForward sessionId remotePort localHost localPort _ =>
    engine.Permits (TunnelConfig.context
      { sessionId, localPort, localHost := some localHost, remoteHost := some "localhost"
        remotePort := some remotePort }
      .remote .enforce)
  | _ => False

/-! ### It is necessary -/

section Necessary

variable {Assume : Event → Prop} {session : Session} {α : Type} {call : ToolCall}

/-- What acts in a session, for a call. -/
def ActsFor (session : Session) (call : ToolCall) (op : Operation) : Prop :=
  op.Acts → session.policyMode = .enforce ∧ call.MayAct engine config session.sftp

variable {engine} {config}

theorem actsFor_of_not_acts {op : Operation} (h : ¬op.Acts) :
    ActsFor engine config session call op :=
  fun hacts => absurd hacts h

theorem performs_ignoring {p : Task α}
    (h : Performs Assume (ActsFor engine config session call) p) :
    Performs Assume (ActsFor engine config session call) (ServiceRequest.ignoring p) :=
  Performs.bind h fun _ => trivial

theorem actsFor_of_guarded {context : PolicyContext} {Ops : Operation → Prop} {op : Operation}
    (hmay : session.policyMode = .enforce → engine.Permits context → Ops op → op.Acts →
      call.MayAct engine config session.sftp)
    (h : Guarded engine session context Ops op) : ActsFor engine config session call op := by
  intro hacts
  rcases h with hlookup | ⟨hpermits, henforce, hop⟩
  · exact absurd hacts hlookup.not_acts
  · exact ⟨henforce, hmay henforce hpermits hop hacts⟩

theorem actsFor_of_asserted {context : PolicyContext} {sessionId path : String} {op : Operation}
    (h : Asserted engine session context (ReadOperation sessionId path) op) :
    ActsFor engine config session call op := by
  rcases h with hlookup | ⟨-, hread⟩
  · exact actsFor_of_not_acts hlookup.not_acts
  · exact actsFor_of_not_acts hread.not_acts

/-- An ensure operation acts by a command or by a write. -/
theorem actsFor_of_ensure {sessionId : String} {Commands : PolicyContext → Script → Prop}
    {Writes : String → String → Prop}
    (hcommand : session.policyMode = .enforce → ∀ context script, Commands context script →
      engine.Permits context → ¬script.ReadsOnly → call.MayAct engine config session.sftp)
    (hwrite : session.policyMode = .enforce → ∀ path data, Writes path data →
      engine.Permits (pathContext .fsWrite path .enforce) →
      data.utf8ByteSize ≤ config.maxFileWriteBytes → call.MayAct engine config session.sftp)
    {op : Operation}
    (h : EnsureOperation engine config Assume session sessionId Commands Writes op) :
    ActsFor engine config session call op := by
  intro hacts
  cases h with
  | lookup h => exact absurd hacts h.not_acts
  | getOSInfo => exact absurd hacts id
  | read h => exact absurd hacts h.not_acts
  | command h hpermits henforce hop =>
    exact ⟨henforce, hcommand henforce _ _ h hpermits (hop.not_readsOnly hacts)⟩
  | write h hpermits henforce hfits => exact ⟨henforce, hwrite henforce _ _ h hpermits hfits⟩

theorem makeDirectories_acts (hsession : Looks Assume session) (sessionId path : String) :
    Performs Assume (ActsFor engine config session (.fsMkdirp sessionId path))
      (makeDirectories engine sessionId path) := by
  by_cases hroot : session.sftp = true ∧ mkdirParts path = []
  · -- over SFTP there is nothing to create
    refine Ensures.weaken (P := Guarded engine session
      (pathContext .fsMkdir path session.policyMode) fun _ => False) ?_ fun op hop =>
        actsFor_of_guarded (fun _ _ h => h.elim) hop
    refine performs_guardedFile engine (fun s => pathContext .fsMkdir path s.policyMode)
      hsession rfl
      (fun _ => trivial) ?_
    have hempty : sftpMkdirRecursive path = pure () := by
      unfold sftpMkdirRecursive
      rw [show (splitText path '/').filter (· ≠ "") = [] from hroot.2]
      rfl
    rw [if_neg (by simp [hroot.1]), hempty]
    trivial
  · refine (makeDirectories_performs engine hsession sessionId path).weaken fun op hop =>
      actsFor_of_guarded (fun henforce hpermits _ _ => ?_) hop
    rw [henforce] at hpermits
    exact ⟨hpermits, fun hsftp hparts => hroot ⟨hsftp, hparts⟩⟩

theorem LocallyReadable.mono {localPath : String} {Assume' : Event → Prop}
    (h : LocallyReadable engine Assume localPath) (hassume : ∀ e, Assume e → Assume' e) :
    LocallyReadable engine Assume' localPath := by
  obtain ⟨hvalid, canonicalPath, files, hpath, hfiles, hpermits⟩ := h
  exact ⟨hvalid, canonicalPath, files, hassume _ hpath, hassume _ hfiles, hpermits⟩

theorem upload_acts (hsession : Looks Assume session) (sessionId localPath remotePath : String) :
    Performs Assume (ActsFor engine config session (.fileUpload sessionId localPath remotePath))
      (uploadFileWithProgress engine config localPath remotePath sessionId) := by
  refine (uploadFileWithProgress_performs engine config hsession localPath remotePath
    sessionId).weaken fun op hop => actsFor_of_guarded (fun henforce hpermits hop hacts => ?_) hop
  obtain ⟨hsftp, hop⟩ := hop
  rw [henforce] at hpermits
  cases hop with
  | write h => exact ⟨hpermits, hsftp, h.mono fun _ _ => trivial⟩
  | now => exact absurd hacts id
  | realpath => exact absurd hacts id
  | files => exact absurd hacts id
  | stat => exact absurd hacts id
  | localRead => exact absurd hacts id
  | read => exact absurd hacts id

/-- What is authorised to be written may be written at that moment. -/
theorem authorizeLocalWritePath_ensures {P : Operation → Prop} (localPath : String)
    (hP : ∀ op, ¬op.Acts → P op) :
    Ensures Assume P
      (fun result => ∀ resolved, result = .ok resolved →
        resolveAbsoluteLocalPath rt localPath = .ok resolved.absolutePath ∧
          LocallyWritable engine resolved.absolutePath)
      (authorizeLocalWritePath engine localPath .enforce) := by
  have hresolve : Ensures Assume P
      (fun result => ∀ resolved : LocalWritePath, result = .ok resolved →
        resolveAbsoluteLocalPath rt localPath = .ok resolved.absolutePath ∧
          (resolved.action = .transferLocalOverwrite ∨
            resolved.action = .transferLocalCreate ∧ resolved.canonicalPath =
              joinPath resolved.parentCanonicalPath (basename resolved.absolutePath)))
      (resolveLocalWritePath rt localPath) := by
    unfold resolveLocalWritePath
    cases habsolute : resolveAbsoluteLocalPath rt localPath with
    | error => exact fun _ h => nomatch h
    | ok absolutePath =>
      change Ensures Assume P _ ((localRealpath (dirname absolutePath)).tryCatch _ >>= _)
      refine Ensures.bind (Q := fun _ => True) ?_ (fun parentCanonicalPath _ => ?_)
        fun _ _ _ h => nomatch h
      · exact Performs.tryCatch ⟨hP _ id, fun _ _ => trivial⟩ fun _ => trivial
      refine ⟨hP _ id, fun answer _ => ?_⟩
      cases answer with
      | ok =>
        intro resolved hresolved
        obtain rfl := Except.ok.inj hresolved
        exact ⟨rfl, .inl rfl⟩
      | error =>
        change Ensures Assume P _ (if _ then _ else _)
        split
        · exact fun _ h => nomatch h
        · intro resolved hresolved
          obtain rfl := Except.ok.inj hresolved
          exact ⟨rfl, .inr ⟨rfl, rfl⟩⟩
  refine hresolve.bind (fun resolved hresolved => ?_) fun _ _ _ h => nomatch h
  obtain ⟨habsolute, haction⟩ := hresolved resolved rfl
  refine Ensures.bind (assertLocalAllowed_ensures engine rfl (hP _ id))
    (fun decision hdecision => ?_)
    fun _ _ _ h => nomatch h
  intro resolved' hresolved'
  obtain rfl := Except.ok.inj hresolved'
  obtain ⟨files, -, hpermits⟩ := hdecision decision rfl
  exact ⟨habsolute, _, _, _, files, haction, hpermits⟩

/-- A download does anything but look only once both local paths were authorised. -/
theorem download_performs {P : Operation → Prop} (hsession : Looks Assume session)
    (sessionId remotePath localPath : String) (hlooks : ∀ op, ¬op.Acts → P op)
    (hacts : session.policyMode = .enforce → ∀ absolutePath : String, ∀ time : ℕ, ∀ temp : String,
      engine.Permits (pathContext .transferDownload remotePath .enforce) → session.sftp = true →
      resolveAbsoluteLocalPath rt localPath = .ok absolutePath →
        LocallyWritable engine absolutePath →
      resolveAbsoluteLocalPath rt (absolutePath ++ ".tmp." ++ toString time) = .ok temp →
      LocallyWritable engine temp → ∀ op, P op) :
    Performs Assume P (downloadFileWithProgress engine config remotePath localPath sessionId) := by
  have hnow : Performs Assume P now := ⟨hlooks _ id, fun _ _ => trivial⟩
  have hstat : Performs Assume P (sftpStat remotePath) := ⟨hlooks _ id, fun _ _ => trivial⟩
  have hread : Performs Assume P (sftpReadFile remotePath) := ⟨hlooks _ id, fun _ _ => trivial⟩
  have hwrite : ∀ path, Ensures Assume P _ (authorizeLocalWritePath engine path .enforce) :=
    fun path => authorizeLocalWritePath_ensures path hlooks
  unfold downloadFileWithProgress
  generalize authorizeLocalWritePath engine = authorize at hwrite ⊢
  refine Ensures.bind ((transferSession_ensures hsession sessionId).weaken
    fun op h => hlooks op h.not_acts) (fun s hs => ?_) fun _ _ => trivial
  obtain ⟨rfl, hsftp⟩ := hs s rfl
  have hmode : (pathContext .transferDownload remotePath s.policyMode).mode = some s.policyMode :=
    rfl
  refine performs_guarded engine hmode (fun _ => trivial) fun hpermits henforce => ?_
  rw [henforce] at hpermits ⊢
  refine Performs.bind hnow fun startTime => performs_transferring ?_
  refine Ensures.bind (hwrite localPath) (fun target htarget => ?_) fun _ _ => trivial
  obtain ⟨habsolute, hwritable⟩ := htarget target rfl
  refine Performs.bind hstat fun stats => ?_
  change Performs Assume P (if _ then _ else _)
  split
  · trivial
  refine Performs.bind hread fun data => Performs.bind hnow fun time => ?_
  refine Ensures.bind (hwrite _) (fun temp htemp => ?_) fun _ _ => trivial
  obtain ⟨habsolute', hwritable'⟩ := htemp temp rfl
  exact (performs_true _).weaken fun op _ => hacts henforce _ time _ hpermits hsftp habsolute
    hwritable habsolute' hwritable' op

theorem download_acts (hsession : Looks Assume session) (sessionId remotePath localPath : String) :
    Performs Assume (ActsFor engine config session (.fileDownload sessionId remotePath localPath))
      (downloadFileWithProgress engine config remotePath localPath sessionId) := by
  refine download_performs hsession sessionId remotePath localPath
    (fun op h => actsFor_of_not_acts h) ?_
  intro henforce absolutePath time temp hpermits hsftp habsolute hwritable htemp hwritable' op _
  exact ⟨henforce, hpermits, hsftp, absolutePath, habsolute, hwritable, time, temp,
    htemp, hwritable'⟩

theorem lines_acts (hsession : Looks Assume session) (sessionId path : String) (lines : List String)
    (createIfMissing : Bool) (state : Presence) :
    Performs Assume
      (ActsFor engine config session (.ensureLinesInFile sessionId path lines
        createIfMissing state))
      (ensureLinesInFile engine config sessionId path lines createIfMissing state) := by
  refine (ensureLinesInFile_performs engine config hsession).weaken fun op hop =>
    actsFor_of_ensure ?_ ?_ hop
  · rintro henforce _ _ ⟨hedits, hfails, osInfo, time, hstaged⟩ - -
    obtain ⟨htemp, hfits⟩ := hstaged henforce
    rw [henforce] at hedits
    exact ⟨_, hedits, hfits, .inr ⟨hfails henforce, osInfo, time, htemp⟩⟩
  · intro henforce target content hwrite hpermits hfits
    rw [henforce] at hwrite
    cases hwrite with
    | direct hedits => exact ⟨_, hedits, hfits, .inl hpermits⟩
    | staged hedits hfails osInfo time =>
      exact ⟨_, hedits, hfits, .inr ⟨hfails, osInfo, time, hpermits⟩⟩

theorem patch_acts (hsession : Looks Assume session) (sessionId path diff : String) :
    Performs Assume (ActsFor engine config session (.patchApply sessionId path diff))
      (applyPatch engine config sessionId path diff) := by
  refine (applyPatch_performs engine config hsession sessionId path diff).weaken fun op hop =>
    actsFor_of_ensure ?_ ?_ hop
  · intro henforce context script hcommand hpermits hreads
    cases hcommand with
    | find => exact absurd trivial hreads
    | staged hfound hstaged =>
      rw [henforce] at hfound hstaged
      obtain ⟨htemp, hfits⟩ := hstaged rfl
      exact ⟨hfound rfl, hfits, _, _, htemp⟩
  · rintro henforce _ _ ⟨hfound, osInfo, time⟩ hpermits hfits
    rw [henforce] at hfound
    exact ⟨hfound rfl, hfits, osInfo, time, hpermits⟩

theorem package_acts (hsession : Looks Assume session) (sessionId name : String)
    (state : Presence) :
    Performs Assume (ActsFor engine config session (.ensurePackage sessionId name state))
      (ensurePackage engine config sessionId name state) := by
  refine (ensurePackage_performs engine config hsession sessionId name state).weaken fun op hop =>
    actsFor_of_ensure ?_ (fun _ _ _ h => h.elim) hop
  intro henforce context script hcommand hpermits hreads
  rw [henforce] at hcommand
  cases hcommand with
  | check => exact absurd trivial hreads
  | set hvalid hcommand hfound =>
    exact ⟨hvalid, _, _, hcommand, fun habsent => (hfound habsent).resolve_left
      PolicyMode.noConfusion,
      hpermits⟩

theorem service_acts (hsession : Looks Assume session) (sessionId name : String)
    (state : ServiceState) :
    Performs Assume (ActsFor engine config session (.ensureService sessionId name state))
      (ensureService engine config sessionId name state) := by
  refine (ensureService_performs engine config hsession sessionId name state).weaken fun op hop =>
    actsFor_of_ensure ?_ (fun _ _ _ h => h.elim) hop
  intro henforce context script hcommand hpermits _
  rw [henforce] at hcommand
  obtain ⟨hvalid, hinit⟩ := hcommand
  exact ⟨hvalid, _, hinit, hpermits⟩

theorem ping_acts (sessionId : String) :
    Performs Assume (ActsFor engine config session (.ping sessionId))
      (ToolCall.pingTask sessionId) := by
  have hlooks : ∀ op : Operation, ¬op.Acts → ActsFor engine config session (.ping sessionId) op :=
    fun op h => actsFor_of_not_acts h
  refine ⟨hlooks _ id, fun answer _ => ?_⟩
  cases answer with
  | none => trivial
  | some =>
    refine Performs.tryCatch ⟨hlooks _ id, fun _ _ => ?_⟩ fun _ => trivial
    refine ⟨hlooks _ fun h => h trivial, fun answer _ => ?_⟩
    cases answer with
    | error => trivial
    | ok => exact ⟨hlooks _ id, fun _ _ => trivial⟩

/-- **What a call does in a session acts only as it takes.** -/
theorem task_acts (hsession : Looks Assume session) (call : ToolCall) :
    Performs Assume (ActsFor engine config session call) (call.task engine config) := by
  cases call with
  | fsRead =>
    exact performs_ignoring ((readFile_performs engine config hsession _ _ _ _).weaken
      fun op hop => actsFor_of_asserted hop)
  | fsWrite =>
    refine performs_ignoring ((writeFile_performs engine config hsession _ _ _ _).weaken
      fun op hop => actsFor_of_guarded (fun henforce hpermits hop _ => ?_) hop)
    rw [henforce] at hpermits
    exact ⟨hpermits, hop.1⟩
  | fsStat =>
    exact performs_ignoring ((statFile_performs engine hsession _ _).weaken
      fun op hop => actsFor_of_asserted hop)
  | fsList =>
    exact performs_ignoring ((listDirectory_performs engine hsession _ _ _ _).weaken
      fun op hop => actsFor_of_asserted hop)
  | fsMkdirp => exact performs_ignoring (makeDirectories_acts hsession _ _)
  | fsRmrf =>
    have hlists : Lists Assume fun _ => True := fun _ _ _ _ _ => trivial
    refine performs_ignoring ((removeRecursive_performs engine hsession hlists _ _ _).weaken
      fun op hop => actsFor_of_guarded (fun henforce hpermits _ _ => ?_) hop)
    rwa [henforce] at hpermits
  | fsRename =>
    refine performs_ignoring ((renameFile_performs engine hsession _ _ _).weaken
      fun op hop => actsFor_of_guarded (fun henforce hpermits _ _ => ?_) hop)
    rwa [henforce] at hpermits
  | procExec =>
    refine performs_ignoring ((execCommand_performs engine config hsession _ _ _ _ _).weaken
      fun op hop => actsFor_of_guarded (fun henforce hpermits _ _ => ?_) hop)
    rwa [henforce] at hpermits
  | procSudo =>
    refine performs_ignoring ((execSudo_performs engine config hsession _ _ _ _ _ _).weaken
      fun op hop => actsFor_of_guarded (fun henforce hpermits _ _ => ?_) hop)
    rwa [henforce] at hpermits
  | procExecStream =>
    refine performs_ignoring ((execWithStreaming_performs engine config hsession _ _ _ _ _).weaken
      fun op hop => actsFor_of_guarded (fun henforce hpermits _ _ => ?_) hop)
    rwa [henforce] at hpermits
  | ensurePackage => exact performs_ignoring (package_acts hsession _ _ _)
  | ensureService => exact performs_ignoring (service_acts hsession _ _ _)
  | ensureLinesInFile =>
    exact performs_ignoring (lines_acts hsession _ _ _ _ _)
  | patchApply => exact performs_ignoring (patch_acts hsession _ _ _)
  | fileUpload =>
    exact performs_ignoring (upload_acts hsession _ _ _)
  | fileDownload =>
    exact performs_ignoring (download_acts hsession _ _ _)
  | tunnelLocalForward =>
    refine performs_ignoring ((createLocalTunnel_performs engine hsession _ _).weaken
      fun op hop => actsFor_of_guarded (fun henforce hpermits _ _ => ?_) hop)
    rwa [henforce] at hpermits
  | tunnelRemoteForward =>
    refine performs_ignoring ((createRemoteTunnel_performs engine hsession _ _).weaken
      fun op hop => actsFor_of_guarded (fun henforce hpermits _ _ => ?_) hop)
    rwa [henforce] at hpermits
  | osDetect =>
    exact performs_ignoring ⟨actsFor_of_not_acts id, fun _ _ => trivial⟩
  | ping sessionId => exact ping_acts sessionId

end Necessary

end Ssh
