import McpSshTool.Ssh.Performs

/-!
# Denials stop operations

A denial is thrown in mode `enforce`, and in mode `explain` it is a value that the service has to
look at.

* `ServiceRequest` — the requests to the filesystem, process, streaming, transfer and tunnel
  services, with the program that serves each and the decision that is made on it;
* `DenialStops` — nothing that a decision is about is done if the decision is a denial;
* `denial_stops_iff` — when this holds: the operations that read files do not look at the decision.
-/

open Library

namespace Ssh

open Program

/-! ### Requests -/

/-- A request to one of the services. -/
inductive ServiceRequest where
  | readFile (sessionId path encoding : String) (maxBytes : Option ℕ)
  | writeFile (sessionId path data : String) (mode : Option ℕ)
  | statFile (sessionId path : String)
  | listDirectory (sessionId path : String) (page : Option ℕ) (limit : ℕ)
  | makeDirectories (sessionId path : String)
  | removeRecursive (depth : ℕ) (sessionId path : String)
  | renameFile (sessionId source target : String)
  | pathExists (sessionId path : String)
  | getFileSize (sessionId path : String)
  | isDirectory (sessionId path : String)
  | isFile (sessionId path : String)
  | execCommand (sessionId command : String) (cwd : Option String) (env : Environment)
      (timeoutMs : Option ℕ)
  | execSudo (sessionId command : String) (password cwd : Option String) (timeoutMs : Option ℕ)
      (options : SudoPolicyOptions)
  | commandExists (sessionId command : String)
  | getAvailableShell (sessionId : String)
  | execWithShell (sessionId command : String) (cwd : Option String) (env : Environment)
  | execWithStreaming (sessionId command : String) (cwd : Option String) (env : Environment)
      (timeoutMs : Option ℕ)
  | upload (localPath remotePath sessionId : String)
  | download (remotePath localPath sessionId : String)
  | localForward (sessionId : String) (localPort : ℕ) (remoteHost : String)
      (remotePort tunnelCounter : ℕ)
  | remoteForward (sessionId : String) (remotePort : ℕ) (localHost : String)
      (localPort tunnelCounter : ℕ)

namespace ServiceRequest

/-- A program, whatever it returns. -/
def ignoring {α : Type} (p : Task α) : Task Unit := p >>= fun _ => pure ()

/-- The program that serves a request. -/
def task {rt : Runtime} (engine : PolicyEngine rt) (config : ServerConfig) :
    ServiceRequest → Task Unit
  | readFile sessionId path encoding maxBytes =>
    ignoring (Ssh.readFile engine config sessionId path encoding maxBytes)
  | writeFile sessionId path data mode =>
    ignoring (Ssh.writeFile engine config sessionId path data mode)
  | statFile sessionId path => ignoring (Ssh.statFile engine sessionId path)
  | listDirectory sessionId path page limit =>
    ignoring (Ssh.listDirectory engine sessionId path page limit)
  | makeDirectories sessionId path => ignoring (Ssh.makeDirectories engine sessionId path)
  | removeRecursive depth sessionId path =>
    ignoring (Ssh.removeRecursive engine depth sessionId path)
  | renameFile sessionId source target => ignoring (Ssh.renameFile engine sessionId source target)
  | pathExists sessionId path => ignoring (Ssh.pathExists engine sessionId path)
  | getFileSize sessionId path => ignoring (Ssh.getFileSize engine sessionId path)
  | isDirectory sessionId path => ignoring (Ssh.isDirectory engine sessionId path)
  | isFile sessionId path => ignoring (Ssh.isFile engine sessionId path)
  | execCommand sessionId command cwd env timeoutMs =>
    ignoring (Ssh.execCommand engine config sessionId (.command command) cwd env timeoutMs)
  | execSudo sessionId command password cwd timeoutMs options =>
    ignoring (Ssh.execSudo engine config sessionId (.command command) password cwd
      timeoutMs options)
  | commandExists sessionId command => ignoring (Ssh.commandExists engine config sessionId command)
  | getAvailableShell sessionId => ignoring (Ssh.getAvailableShell engine config sessionId)
  | execWithShell sessionId command cwd env =>
    ignoring (Ssh.execWithShell engine config sessionId command cwd env)
  | execWithStreaming sessionId command cwd env timeoutMs =>
    ignoring (Ssh.execWithStreaming engine config sessionId command cwd env timeoutMs)
  | upload localPath remotePath sessionId =>
    ignoring (uploadFileWithProgress engine config localPath remotePath sessionId)
  | download remotePath localPath sessionId =>
    ignoring (downloadFileWithProgress engine config remotePath localPath sessionId)
  | localForward sessionId localPort remoteHost remotePort tunnelCounter =>
    ignoring (createLocalForward engine sessionId localPort remoteHost remotePort tunnelCounter)
  | remoteForward sessionId remotePort localHost localPort tunnelCounter =>
    ignoring (createRemoteForward engine sessionId remotePort localHost localPort tunnelCounter)

/-- The context of the decision on a request; a request that runs several commands has a decision on
each of them instead. -/
def context (mode : PolicyMode) : ServiceRequest → Option PolicyContext
  | readFile _ path _ _ => pathContext .fsRead path mode
  | writeFile _ path _ _ => pathContext .fsWrite path mode
  | statFile _ path => pathContext .fsStat path mode
  | listDirectory _ path _ _ => pathContext .fsList path mode
  | makeDirectories _ path => pathContext .fsMkdir path mode
  | removeRecursive _ _ path => removeContext path mode
  | renameFile _ source target => renameContext source target mode
  | pathExists _ path => pathContext .fsStat path mode
  | getFileSize _ path => pathContext .fsStat path mode
  | isDirectory _ path => pathContext .fsStat path mode
  | isFile _ path => pathContext .fsStat path mode
  | execCommand _ command _ _ _ => commandContext (.command command) mode
  | execSudo _ command _ _ _ options => sudoContext (.command command) mode options
  | commandExists _ command => commandContext (.which command) mode
  | getAvailableShell _ => none
  | execWithShell _ _ _ _ => none
  | execWithStreaming _ command _ _ _ => commandContext (.command command) mode
  | upload _ remotePath _ => pathContext .transferUpload remotePath mode
  | download remotePath _ _ => pathContext .transferDownload remotePath mode
  | localForward sessionId localPort remoteHost remotePort _ =>
    TunnelConfig.context
      { sessionId, localPort, remoteHost := some remoteHost, remotePort := some remotePort }
      .local mode
  | remoteForward sessionId remotePort localHost localPort _ =>
    TunnelConfig.context
      { sessionId, localPort, localHost := some localHost, remoteHost := some "localhost"
        remotePort := some remotePort }
      .remote mode

/-- The requests whose service does not look at the decision. -/
def IgnoresDecision : ServiceRequest → Prop
  | readFile _ _ _ _ => True
  | statFile _ _ => True
  | listDirectory _ _ _ _ => True
  | pathExists _ _ => True
  | getFileSize _ _ => True
  | isDirectory _ _ => True
  | isFile _ _ => True
  | _ => False

/-- The requests that move a file between the two machines: the policy is asked about local paths as
well. -/
def IsTransfer : ServiceRequest → Prop
  | upload _ _ _ => True
  | download _ _ _ => True
  | _ => False

/-- **What a decision is about**: all that is done for its request but lookups; or, of a request
that runs several commands, the command. -/
def Judges (request : ServiceRequest) (mode : PolicyMode) (context : PolicyContext)
    (op : Operation) : Prop :=
  request.context mode = some context ∧ ¬op.IsLookup ∨
    request.context mode = none ∧
      ∃ script, context = commandContext script mode ∧ op.script? = some script

end ServiceRequest

/-! ### The property -/

/-- The session of a request is this one, as long as there is one. -/
def SessionIs (session : Session) : Event → Prop
  | ⟨.getSession _, answer⟩ => answer = none ∨ answer = some session
  | _ => True

variable {rt : Runtime} (engine : PolicyEngine rt) (config : ServerConfig)

/-- After a denial of local paths nothing is done any more. -/
def LocalDenialStops {α : Type} (p : Task α) : Prop :=
  ∀ log result, Runs p log result → ∀ before context files after,
    log = before ++ ⟨.localFiles context, files⟩ :: after → ¬engine.PermitsWith files context →
      after = []

/-- **A denial stops the operation**: in no run of a request in the session is anything done that a
denial is about, be it of the request or, in a transfer, of local paths. -/
def DenialStops (session : Session) (request : ServiceRequest) : Prop :=
  (∀ context op, request.Judges session.policyMode context op → ¬engine.Permits context →
    Always (SessionIs session) (fun done => done ≠ op) (request.task engine config)) ∧
  (request.IsTransfer → LocalDenialStops engine (request.task engine config))

/-! ### What requests perform -/

variable {session : Session}

theorem looks_sessionIs : Looks (SessionIs session) session := by
  intro sessionId s h
  rcases h with h | h
  · cases h
  · exact Option.some.inj h

theorem exists_answer (session : Session) (op : Operation) :
    ∃ answer, SessionIs session ⟨op, answer⟩ := by
  cases op with
  | getSession => exact ⟨some session, .inr rfl⟩
  | randomUUID => exact ⟨"", trivial⟩
  | now => exact ⟨(0 : ℕ), trivial⟩
  | localFiles => exact ⟨fun _ => none, trivial⟩
  | _ => exact ⟨.error .unfinished, trivial⟩

/-- What a request may do: lookups, anything that a decision on it lets pass, and permitted commands
where it runs several. -/
def Lets (session : Session) (request : ServiceRequest) (op : Operation) : Prop :=
  op.IsLookup ∨
    (∃ context, request.context session.policyMode = some context ∧
      (engine.Permits context ∨ session.policyMode = .explain ∧ request.IgnoresDecision)) ∨
    request.context session.policyMode = none ∧
      ∀ script, op.script? = some script →
        engine.Permits (commandContext script session.policyMode)

variable {engine} {request : ServiceRequest} {context : PolicyContext} {Ops : Operation → Prop}
variable {α : Type} {Assume : Event → Prop}

theorem performs_of_guarded (hcontext : request.context session.policyMode = some context)
    {p : Task α} (h : Performs Assume (Guarded engine session context Ops) p) :
    Performs Assume (Lets engine session request) (ServiceRequest.ignoring p) := by
  refine Performs.bind (h.weaken fun op hop => ?_) fun _ => trivial
  rcases hop with hop | ⟨hpermits, -, -⟩
  · exact .inl hop
  · exact .inr (.inl ⟨context, hcontext, .inl hpermits⟩)

theorem performs_of_asserted (hcontext : request.context session.policyMode = some context)
    (hignores : request.IgnoresDecision) {p : Task α}
    (h : Performs Assume (Asserted engine session context Ops) p) :
    Performs Assume (Lets engine session request) (ServiceRequest.ignoring p) := by
  refine Performs.bind (h.weaken fun op hop => ?_) fun _ => trivial
  rcases hop with hop | ⟨hpass, -⟩
  · exact .inl hop
  · exact .inr (.inl ⟨context, hcontext, hpass.imp_right fun hexplain => ⟨hexplain, hignores⟩⟩)

theorem performs_of_permittedCommand (hcontext : request.context session.policyMode = none)
    {sessionId : String} {p : Task α}
    (h : Performs Assume (PermittedCommand engine session sessionId) p) :
    Performs Assume (Lets engine session request) (ServiceRequest.ignoring p) := by
  refine Performs.bind (h.weaken fun op hop => ?_) fun _ => trivial
  obtain ⟨script, hop | ⟨hpermits, -, hcommand⟩⟩ := hop
  · exact .inl hop
  · refine .inr (.inr ⟨hcontext, fun script' hscript => ?_⟩)
    cases hcommand with
    | getOSInfo => cases hscript
    | now => cases hscript
    | exec => exact Option.some.inj hscript ▸ hpermits
    | stream => exact Option.some.inj hscript ▸ hpermits
    | underSudo => exact Option.some.inj hscript ▸ hpermits

theorem downloadFileWithProgress_performs (hsession : Looks Assume session)
    (remotePath localPath sessionId : String) :
    Performs Assume
      (Guarded engine session (pathContext .transferDownload remotePath session.policyMode)
        fun _ => True)
      (downloadFileWithProgress engine config remotePath localPath sessionId) := by
  refine Ensures.bind ((transferSession_ensures hsession sessionId).weaken fun op h => .inl h)
    (fun s hs => ?_) fun _ _ => trivial
  obtain ⟨rfl, -⟩ := hs s rfl
  have hmode : (pathContext .transferDownload remotePath s.policyMode).mode = some s.policyMode :=
    rfl
  refine performs_guarded engine hmode (fun _ => trivial) fun hpermits henforce => ?_
  exact (performs_true _).weaken fun op _ => .inr ⟨hpermits, henforce, trivial⟩

/-- **Every request** does only what the decisions on it let pass. -/
theorem task_performs (request : ServiceRequest) :
    Performs (SessionIs session) (Lets engine session request) (request.task engine config) := by
  have hsession : Looks (SessionIs session) session := looks_sessionIs
  cases request with
  | readFile =>
    exact performs_of_asserted rfl (by trivial) (readFile_performs engine config hsession _ _ _ _)
  | writeFile =>
    exact performs_of_guarded rfl (writeFile_performs engine config hsession _ _ _ _)
  | statFile =>
    exact performs_of_asserted rfl (by trivial) (statFile_performs engine hsession _ _)
  | listDirectory =>
    exact performs_of_asserted rfl (by trivial) (listDirectory_performs engine hsession _ _ _ _)
  | makeDirectories =>
    exact performs_of_guarded rfl (makeDirectories_performs engine hsession _ _)
  | removeRecursive =>
    -- of what a listing names nothing is asked here
    have hlists : Lists (SessionIs session) fun _ => True := fun _ _ _ _ _ => trivial
    exact performs_of_guarded rfl (removeRecursive_performs engine hsession hlists _ _ _)
  | renameFile =>
    exact performs_of_guarded rfl (renameFile_performs engine hsession _ _ _)
  | pathExists | isDirectory | isFile =>
    exact performs_of_asserted rfl (by trivial) (probe_performs engine hsession _ _ _)
  | getFileSize =>
    exact performs_of_asserted rfl (by trivial) (getFileSize_performs engine hsession _ _)
  | execCommand =>
    exact performs_of_guarded rfl (execCommand_performs engine config hsession _ _ _ _ _)
  | execSudo =>
    exact performs_of_guarded rfl (execSudo_performs engine config hsession _ _ _ _ _ _)
  | commandExists =>
    exact performs_of_guarded rfl (commandExists_performs engine config hsession _ _)
  | getAvailableShell =>
    exact performs_of_permittedCommand rfl (getAvailableShell_performs engine config hsession _)
  | execWithShell =>
    exact performs_of_permittedCommand rfl (execWithShell_performs engine config hsession _ _ _ _)
  | execWithStreaming =>
    exact performs_of_guarded rfl (execWithStreaming_performs engine config hsession _ _ _ _ _)
  | upload =>
    exact performs_of_guarded rfl (uploadFileWithProgress_performs engine config hsession _ _ _)
  | download =>
    exact performs_of_guarded rfl (downloadFileWithProgress_performs config hsession _ _ _)
  | localForward =>
    exact performs_of_guarded rfl (createLocalTunnel_performs engine hsession _ _)
  | remoteForward =>
    exact performs_of_guarded rfl (createRemoteTunnel_performs engine hsession _ _)

/-- What is judged by a denial is not done, if a denial is looked at. -/
theorem always_ne_of_judges {op : Operation}
    (h : session.policyMode = .enforce ∨ ¬request.IgnoresDecision ∨
      ∃ context, request.context session.policyMode = some context ∧ engine.Permits context)
    (hjudges : request.Judges session.policyMode context op) (hdenied : ¬engine.Permits context) :
    Always (SessionIs session) (fun done => done ≠ op) (request.task engine config) := by
  refine ((task_performs config request).weaken fun done hlets => ?_).always
  rintro rfl
  rcases hjudges with ⟨hcontext, heffect⟩ | ⟨hnone, script, rfl, hscript⟩
  · rcases hlets with hlookup | ⟨context', hcontext', hpass⟩ | ⟨hnone, -⟩
    · exact heffect hlookup
    · obtain rfl := Option.some.inj (hcontext.symm.trans hcontext')
      rcases hpass with hpermits | ⟨hexplain, hignores⟩
      · exact hdenied hpermits
      · rcases h with henforce | hlooks | ⟨context', hcontext', hpermits⟩
        · rw [henforce] at hexplain
          cases hexplain
        · exact hlooks hignores
        · obtain rfl := Option.some.inj (hcontext.symm.trans hcontext')
          exact hdenied hpermits
    · rw [hnone] at hcontext
      cases hcontext
  · rcases hlets with hlookup | ⟨context', hcontext', -⟩ | ⟨-, hpermits⟩
    · cases done with
      | getSession => cases hscript
      | randomUUID => cases hscript
      | now => cases hscript
      | _ => exact hlookup
    · rw [hnone] at hcontext'
      cases hcontext'
    · exact hdenied (hpermits script hscript)

/-! ### Denials of local paths -/

/-- A denial of local paths ends a program, with an error. -/
def EndsWhenDenied (engine : PolicyEngine rt) (p : Task α) : Prop :=
  ∀ log result, Runs p log result → ∀ before context files after,
    log = before ++ ⟨.localFiles context, files⟩ :: after → ¬engine.PermitsWith files context →
      after = [] ∧ ∃ e, result = .error e

/-- No local path is asked about. -/
def Remote : Operation → Prop
  | .localFiles _ => False
  | _ => True

theorem EndsWhenDenied.of_performs {p : Task α} (h : Performs (fun _ => True) Remote p) :
    EndsWhenDenied engine p := by
  intro log result hrun before context files after hlog _
  have hmem : (⟨.localFiles context, files⟩ : Event) ∈ log := by rw [hlog]; simp
  exact ((Ensures.of_runs h hrun fun _ _ => trivial).1 _ hmem).elim

theorem EndsWhenDenied.bind {β : Type} {p : Task α} {f : α → Task β} (hp : EndsWhenDenied engine p)
    (hf : ∀ a, EndsWhenDenied engine (f a)) : EndsWhenDenied engine (p >>= f) := by
  intro log result hrun before context files after hlog hdenied
  obtain ⟨log₁, mid, log₂, h₁, h₂, rfl⟩ := runs_andThen_iff.mp hrun
  rcases List.append_eq_append_iff.mp hlog with ⟨as, rfl, hlog₂⟩ | ⟨bs, rfl, hbs⟩
  · -- the denial is in the second program
    cases mid with
    | ok a => exact hf a _ _ h₂ as context files after hlog₂ hdenied
    | error =>
      obtain ⟨rfl, -⟩ := runs_done_iff.mp h₂
      simp at hlog₂
  · cases bs with
    | nil =>
      rw [List.nil_append] at hbs
      cases mid with
      | ok a => exact hf a _ _ h₂ [] context files after hbs.symm hdenied
      | error =>
        obtain ⟨rfl, -⟩ := runs_done_iff.mp h₂
        cases hbs
    | cons b bs =>
      rw [List.cons_append, List.cons.injEq] at hbs
      obtain ⟨rfl, rfl⟩ := hbs
      obtain ⟨rfl, e, rfl⟩ := hp _ _ h₁ before context files bs rfl hdenied
      obtain ⟨rfl, rfl⟩ := runs_done_iff.mp h₂
      exact ⟨rfl, e, rfl⟩

theorem EndsWhenDenied.tryCatch {p : Task α} {handler : Failure → Task α}
    (hp : EndsWhenDenied engine p) (hhandler : ∀ e, ∃ e', handler e = Program.throw e') :
    EndsWhenDenied engine (p.tryCatch handler) := by
  intro log result hrun before context files after hlog hdenied
  obtain ⟨log₁, mid, log₂, h₁, h₂, rfl⟩ := runs_andThen_iff.mp hrun
  have hnil : log₂ = [] := by
    cases mid with
    | ok => exact (runs_done_iff.mp h₂).1
    | error e =>
      obtain ⟨e', he'⟩ := hhandler e
      have h₂ : Runs (handler e) log₂ result := h₂
      rw [he'] at h₂
      exact (runs_done_iff.mp h₂).1
  rw [hnil, List.append_nil] at hlog
  obtain ⟨hafter, e, rfl⟩ := hp _ _ h₁ before context files after hlog hdenied
  obtain ⟨e', he'⟩ := hhandler e
  have h₂ : Runs (handler e) log₂ result := h₂
  rw [he'] at h₂
  exact ⟨hafter, e', (runs_done_iff.mp h₂).2⟩

theorem endsWhenDenied_assertLocalAllowed {context : PolicyContext}
    (hmode : context.mode = some .enforce) :
    EndsWhenDenied engine (assertLocalAllowed engine context) := by
  intro log result hrun before context' files after hlog hdenied
  obtain ⟨answer, log', rfl, hrest⟩ := runs_perform_iff.mp hrun
  obtain ⟨rfl, rfl⟩ := runs_done_iff.mp hrest
  cases before with
  | cons => simp at hlog
  | nil =>
    rw [List.nil_append, List.cons.injEq] at hlog
    obtain ⟨hevent, rfl⟩ := hlog
    cases hevent
    refine ⟨rfl, ?_⟩
    cases hassert : engine.assertAllowedWith files context with
    | error e => exact ⟨e, rfl⟩
    | ok =>
      obtain ⟨rfl, hpass⟩ := engine.assertAllowedWith_ok hassert
      refine absurd (hpass.resolve_right ?_) hdenied
      rw [engine.evaluateWith_mode, hmode]
      exact PolicyMode.noConfusion

theorem endsWhenDenied_authorizeLocalReadPath (localPath : String) :
    EndsWhenDenied engine (authorizeLocalReadPath engine localPath .enforce) := by
  refine .bind (.of_performs ?_) fun path => ?_
  · refine performs_ofExcept_bind fun absolutePath _ => ?_
    exact Performs.tryCatch ⟨trivial, fun _ _ => trivial⟩ fun _ => trivial
  · exact .bind (endsWhenDenied_assertLocalAllowed rfl) fun _ => .of_performs trivial

theorem endsWhenDenied_authorizeLocalWritePath (localPath : String) :
    EndsWhenDenied engine (authorizeLocalWritePath engine localPath .enforce) := by
  refine .bind (.of_performs ?_) fun resolved => ?_
  · refine performs_ofExcept_bind fun absolutePath _ => ?_
    refine Performs.bind (Performs.tryCatch ⟨trivial, fun _ _ => trivial⟩ fun _ => trivial)
      fun parent => ?_
    refine Performs.tryCatch (Performs.bind ⟨trivial, fun _ _ => trivial⟩ fun _ => trivial) fun e =>
      ?_
    split
    · trivial
    · trivial
  · exact .bind (endsWhenDenied_assertLocalAllowed rfl) fun _ => .of_performs trivial

theorem endsWhenDenied_transferring {what : String} {body : Task TransferResult}
    (h : EndsWhenDenied engine body) : EndsWhenDenied engine (transferring what body) := by
  refine h.tryCatch fun e => ?_
  cases e with
  | sshMcp => exact ⟨_, rfl⟩
  | other => exact ⟨_, rfl⟩
  | unfinished => exact ⟨_, rfl⟩

/-- The shape of a transfer: past the decision, the mode is `enforce`. -/
theorem endsWhenDenied_transfer {sessionId : String} {action : PolicyAction} {path : String}
    {explained : TransferResult} {body : Session → Task TransferResult}
    (hbody : ∀ session : Session, session.policyMode = .enforce →
      EndsWhenDenied engine (body session)) :
    EndsWhenDenied engine (transferSession sessionId >>= fun session =>
      ofExcept (engine.assertAllowed (pathContext action path session.policyMode)) >>=
        fun decision =>
          if decision.mode = .explain then pure explained else body session) := by
  refine .bind (.of_performs ?_) fun session => ?_
  · refine Performs.bind ⟨trivial, fun answer _ => ?_⟩ fun s => ?_
    · cases answer with
      | none => trivial
      | some => trivial
    · split
      · trivial
      · trivial
  · cases hassert : engine.assertAllowed (pathContext action path session.policyMode) with
    | error => exact .of_performs trivial
    | ok =>
      obtain ⟨rfl, -⟩ := engine.assertAllowedWith_ok hassert
      show EndsWhenDenied engine (if _ then _ else _)
      rw [engine.evaluateWith_mode, pathContext, Option.getD_some]
      cases hmode : session.policyMode with
      | explain => exact .of_performs trivial
      | enforce => exact hbody session hmode

theorem endsWhenDenied_upload (localPath remotePath sessionId : String) :
    EndsWhenDenied engine (uploadFileWithProgress engine config localPath remotePath
      sessionId) := by
  refine endsWhenDenied_transfer fun session hmode => ?_
  rw [hmode]
  refine .bind (endsWhenDenied_authorizeLocalReadPath localPath) fun path => .of_performs ?_
  refine ⟨trivial, fun startTime _ => performs_transferring ?_⟩
  refine Performs.bind ⟨trivial, fun _ _ => trivial⟩ fun totalSize => ?_
  split
  · trivial
  · refine Performs.bind ⟨trivial, fun _ _ => trivial⟩ fun fileContent => ?_
    refine Performs.bind ⟨trivial, fun _ _ => trivial⟩ fun _ => ?_
    refine Performs.bind ⟨trivial, fun _ _ => trivial⟩ fun remoteContent => ?_
    split
    · trivial
    · exact ⟨trivial, fun _ _ => trivial⟩

theorem endsWhenDenied_download (remotePath localPath sessionId : String) :
    EndsWhenDenied engine
      (downloadFileWithProgress engine config remotePath localPath sessionId) := by
  have hwrite : ∀ path, EndsWhenDenied engine (authorizeLocalWritePath engine path .enforce) :=
    fun path => endsWhenDenied_authorizeLocalWritePath path
  have hread : ∀ path, EndsWhenDenied engine (authorizeLocalReadPath engine path .enforce) :=
    fun path => endsWhenDenied_authorizeLocalReadPath path
  have hone : ∀ {β : Type} {op : Operation} {rest : Answer op → Task β}, Remote op →
      (∀ answer, Performs (fun _ => True) Remote (rest answer)) →
      EndsWhenDenied engine (.perform op rest) := fun hop h =>
    .of_performs ⟨hop, fun answer _ => h answer⟩
  refine endsWhenDenied_transfer fun session hmode => ?_
  rw [hmode]
  refine .bind (hone trivial fun _ => trivial) fun startTime => endsWhenDenied_transferring ?_
  refine .bind (hwrite localPath) fun targetPath => ?_
  refine .bind (hone trivial fun _ => trivial) fun stats => ?_
  show EndsWhenDenied engine (if _ then _ else _)
  split
  · exact .of_performs trivial
  · refine .bind (hone trivial fun _ => trivial) fun data => ?_
    refine .bind (hone trivial fun _ => trivial) fun time => ?_
    refine .bind (hwrite _) fun tempPath => ?_
    refine .bind (hone trivial fun _ => trivial) fun _ => ?_
    refine .bind (hread _) fun tempReadPath => ?_
    refine .bind (hone trivial fun _ => trivial) fun localData => ?_
    split
    · exact .bind (hone trivial fun _ => trivial) fun _ => .of_performs trivial
    · refine .bind (hwrite localPath) fun finalTargetPath => ?_
      refine .bind (hone trivial fun _ => trivial) fun _ => .of_performs ?_
      exact ⟨trivial, fun _ _ => trivial⟩

theorem localDenialStops_task (htransfer : request.IsTransfer) :
    LocalDenialStops engine (request.task engine config) := by
  have hends : EndsWhenDenied engine (request.task engine config) := by
    cases request with
    | upload =>
      exact .bind (endsWhenDenied_upload config _ _ _) fun _ => .of_performs trivial
    | download =>
      exact .bind (endsWhenDenied_download config _ _ _) fun _ => .of_performs trivial
    | _ => exact htransfer.elim
  exact fun log result hrun before context files after hlog hdenied =>
    (hends log result hrun before context files after hlog hdenied).1

/-! ### Decisions that are not looked at -/

theorem assertAllowed_explain (engine : PolicyEngine rt) {context : PolicyContext}
    (hmode : context.mode = some .explain) :
    engine.assertAllowed context = .ok (engine.evaluate context) := by
  rw [engine.assertAllowed_eq, if_neg]
  rintro ⟨-, h⟩
  rw [hmode] at h
  cases h

theorem reaches_read (hmode : session.policyMode = .explain) {sessionId hint : String}
    {context : Session → PolicyContext} {body : Session → Task α}
    (hcontext : (context session).mode = some session.policyMode)
    (hbody : Reaches (SessionIs session) (fun op => ¬op.IsLookup) (body session)) :
    Reaches (SessionIs session) (fun op => ¬op.IsLookup)
      (getSession sessionId >>= fun s => wrapping hint
        (ofExcept (engine.assertAllowed (context s)) >>= fun _ => body s)) := by
  refine .inr ⟨some session, .inr rfl, ?_⟩
  refine Reaches.andThen (p := ofExcept (engine.assertAllowed (context session)) >>= _) ?_
  rw [assertAllowed_explain engine (hcontext.trans (by rw [hmode]))]
  exact hbody

theorem reaches_statFileInternal (rt : Runtime) (session : Session) (sessionId path : String) :
    Reaches (SessionIs session) (fun op => ¬op.IsLookup) (statFileInternal rt sessionId path) := by
  refine .inr ⟨some session, .inr rfl, ?_⟩
  show Reaches _ _ (if _ then _ else _)
  split
  · refine Reaches.bind (.inr ⟨some session, .inr rfl, .inl ?_⟩)
    exact id
  · exact .inl id

/-- **The operations that read files** reach the host in mode `explain`, whatever the decision. -/
theorem reaches_of_ignoresDecision (hmode : session.policyMode = .explain)
    (hignores : request.IgnoresDecision) :
    Reaches (SessionIs session) (fun op => ¬op.IsLookup) (request.task engine config) := by
  have hstat := fun sessionId path => reaches_statFileInternal rt session sessionId path
  cases request with
  | readFile sessionId path =>
    exact (reaches_read hmode rfl (hstat sessionId path).bind).bind
  | statFile sessionId path => exact (reaches_read hmode rfl (hstat sessionId path)).bind
  | listDirectory =>
    refine (reaches_read hmode rfl ?_).bind
    split
    · exact Reaches.bind (.inr ⟨some session, .inr rfl, .inl id⟩)
    · exact .inl id
  | pathExists sessionId path =>
    exact (reaches_read hmode rfl (hstat sessionId path)).bind.andThen.bind
  | getFileSize sessionId path => exact (reaches_read hmode rfl (hstat sessionId path)).bind.bind
  | isDirectory sessionId path =>
    exact (reaches_read hmode rfl (hstat sessionId path)).bind.andThen.bind
  | isFile sessionId path =>
    exact (reaches_read hmode rfl (hstat sessionId path)).bind.andThen.bind
  | _ => exact hignores.elim

theorem not_denialStops (hmode : session.policyMode = .explain) (hignores : request.IgnoresDecision)
    (hcontext : request.context session.policyMode = some context)
    (hdenied : ¬engine.Permits context) : ¬DenialStops engine config session request := by
  rintro ⟨hstops, -⟩
  have hreaches : Reaches (SessionIs session) (fun op => ¬op.IsLookup)
    (request.task engine config) :=
    reaches_of_ignoresDecision config hmode hignores
  obtain ⟨log, result, hrun, hlog, e, he, heffect⟩ := hreaches.exists_runs (exists_answer session)
  exact hstops context e.1 (.inl ⟨hcontext, heffect⟩) hdenied log result hrun hlog e he rfl

/-! ### Exactness -/

/-- **When a denial stops the operation**: in mode `enforce`, where the service looks at the
decision, and where there is no denial. -/
theorem denial_stops_iff (engine : PolicyEngine rt) (config : ServerConfig) (session : Session)
    (request : ServiceRequest) :
    DenialStops engine config session request ↔
      session.policyMode = .enforce ∨ ¬request.IgnoresDecision ∨
        ∃ context, request.context session.policyMode = some context ∧ engine.Permits context := by
  constructor
  · intro hstops
    by_contra hnot
    rw [not_or, not_or, not_not] at hnot
    obtain ⟨henforce, hignores, hdenied⟩ := hnot
    have hmode : session.policyMode = .explain := by
      cases h : session.policyMode with
      | enforce => exact absurd h henforce
      | explain => rfl
    obtain ⟨context, hcontext⟩ : ∃ context, request.context session.policyMode = some context := by
      cases request with
      | getAvailableShell => exact hignores.elim
      | execWithShell => exact hignores.elim
      | _ => exact ⟨_, rfl⟩
    exact not_denialStops config hmode hignores hcontext
      (fun hpermits => hdenied ⟨context, hcontext, hpermits⟩) hstops
  · intro h
    exact ⟨fun context op hjudges hdenied => always_ne_of_judges config h hjudges hdenied,
      localDenialStops_task config⟩

/-- In mode `explain` a denied file is read. -/
theorem explain_reads_denied_file :
    ∃ engine : PolicyEngine sampleRuntime, engine.config = { pathDenyPrefixes := ["/etc"] } ∧
      ¬engine.Permits (pathContext .fsRead "/etc/shadow" .explain) ∧
      ∀ config, ¬DenialStops engine config { policyMode := .explain, sftp := true }
        (.readFile "session" "/etc/shadow" "utf8" none) := by
  obtain ⟨engine, hengine⟩ := PolicyEngine.exists_engine sampleRuntime
    { pathDenyPrefixes := ["/etc"] } (by decide) (by decide) ⟨rfl, rfl⟩
  have hdenied : ¬engine.Permits (pathContext .fsRead "/etc/shadow" .explain) := by
    intro hpermits
    have hpass := hpermits.pathDenial (show PolicyAction.fsRead ∉ localTransferActions by decide)
      (show "/etc/shadow" ∈ PolicyContext.paths _ by decide)
    refine (engine.pathDenial_eq_none_iff.mp hpass).2.1 ?_
    rw [PolicyEngine.DenyCovers, PolicyEngine.denyLocations, hengine]
    decide
  exact ⟨engine, hengine, hdenied, fun config => not_denialStops config rfl trivial rfl hdenied⟩

end Ssh
