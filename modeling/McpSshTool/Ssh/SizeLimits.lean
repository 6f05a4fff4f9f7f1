import McpSshTool.Ssh.CallReaches
import McpSshTool.Ssh.WriteAtomic

/-!
# Limits on sizes

The limits on what `readFile` returns and on what a download writes, against servers that tell one
size and deliver another.

* `FileServer` — what a server tells of a file and what it delivers of it, on either transport;
* `SizedRequest`, `SizedRequest.bytes` — the requests with a limit, and the bytes that count;
* `WithinLimit` — no successful run returns, or writes, more than the limit;
* `size_limits_iff` — it is so where the request does not get to the file, and where the server does
  not deliver more than the limit after telling a size within it.

The size is looked at before the data are asked for, and not again.
-/

open Library

namespace Ssh

open Program

/-! ### Servers -/

/-- **A server**: how it answers about one file, over SFTP and through the shell. -/
structure FileServer where
  stat : Except Failure Stats
  read : Except Failure (List UInt8)
  statOutput : Except Failure CommandResult
  catOutput : Except Failure CommandResult

namespace FileServer

variable (server : FileServer)

/-- Every look at the file, in the session, is answered so. Anything else may be answered in any
way. -/
def Answers (session : Session) : Event → Prop
  | ⟨.getSession _, answer⟩ => answer = none ∨ answer = some session
  | ⟨.sftpStat _, answer⟩ => answer = server.stat
  | ⟨.sftpReadFile _, answer⟩ => answer = server.read
  | ⟨.exec (.stat _) _, answer⟩ => answer = server.statOutput
  | ⟨.exec (.cat _) _, answer⟩ => answer = server.catOutput
  | _ => True

/-- The size that the server tells, if it does. -/
def reported (rt : Runtime) (sftp : Bool) : Option JsNumber :=
  if sftp then server.stat.toOption.map fun stats => .ofInt (stats.size.getD 0 : ℕ)
  else (server.statOutput.bind fallbackResult).toOption.map fun output =>
    rt.numberText.parse ((splitText (JsText.trim output) '\t').getD 1 "0")

/-- How many bytes it delivers, if it does. -/
def delivered (sftp : Bool) : Option ℕ :=
  if sftp then server.read.toOption.map List.length
  else (server.catOutput.bind fallbackResult).toOption.map String.utf8ByteSize

/-- The server tells a size within a limit. -/
def TellsWithin (rt : Runtime) (sftp : Bool) (limit : ℕ) : Prop :=
  ∃ size, server.reported rt sftp = some size ∧ exceeds size limit = false

/-- **The server understates a file**: it tells a size within the limit, and delivers more. -/
def Understates (rt : Runtime) (sftp : Bool) (limit : ℕ) : Prop :=
  server.TellsWithin rt sftp limit ∧ ∃ n, server.delivered sftp = some n ∧ limit < n

end FileServer

/-! ### Requests -/

/-- The requests whose size is limited. -/
inductive SizedRequest where
  | readFile (sessionId path encoding : String) (maxBytes : Option ℕ)
  | download (remotePath localPath sessionId : String)

namespace SizedRequest

/-- The limit: `maxFileSize`, if the request sets no other, or `maxTransferBytes`. -/
def limit (config : ServerConfig) : SizedRequest → ℕ
  | readFile _ _ _ maxBytes => maxBytes.getD config.maxFileSize
  | download _ _ _ => config.maxTransferBytes

/-- The bytes that count: those that a read is given of the file, and those that a download
writes. -/
def bytes : SizedRequest → Event → ℕ
  | readFile _ _ _ _, ⟨.sftpReadFile _, .ok data⟩ => data.length
  | readFile _ _ _ _, ⟨.exec (.cat _) _, .ok result⟩ => result.stdout.utf8ByteSize
  | download _ _ _, ⟨.localCreateFile _ data, _⟩ => data.length
  | _, _ => 0

variable {rt : Runtime} (engine : PolicyEngine rt) (config : ServerConfig)

/-- The request, with its result left out. -/
def task : SizedRequest → Task Unit
  | readFile sessionId path encoding maxBytes =>
    ServiceRequest.ignoring (Ssh.readFile engine config sessionId path encoding maxBytes)
  | download remotePath localPath sessionId =>
    ServiceRequest.ignoring (downloadFileWithProgress engine config remotePath localPath sessionId)

/-- Whether the request can get to the file: what the policy says, and for a download whether the
local paths may be written and read. -/
def GetsThrough (session : Session) : SizedRequest → Prop
  | readFile _ path _ _ =>
    engine.Permits (pathContext .fsRead path session.policyMode) ∨ session.policyMode = .explain
  | download remotePath localPath _ =>
    session.sftp = true ∧ session.policyMode = .enforce ∧
      engine.Permits (pathContext .transferDownload remotePath .enforce) ∧
      ∃ absolutePath, resolveAbsoluteLocalPath rt localPath = .ok absolutePath ∧
        LocallyWritable engine absolutePath ∧ ∃ time : ℕ, ∃ temp,
          resolveAbsoluteLocalPath rt (absolutePath ++ ".tmp." ++ toString time) = .ok temp ∧
          LocallyWritable engine temp ∧ LocallyReadable engine (fun _ => True) temp

/-- **The limit holds**: in every run that succeeds, with the server's answers, no more bytes are
returned or written than the limit. -/
def WithinLimit (session : Session) (server : FileServer) (request : SizedRequest) : Prop :=
  ∀ log, Runs (request.task engine config) log (.ok ()) → (∀ e ∈ log, server.Answers session e) →
    ∀ e ∈ log, request.bytes e ≤ request.limit config

end SizedRequest

/-! ### What a read comes to -/

section Reading

variable {rt : Runtime} {engine : PolicyEngine rt} {config : ServerConfig}
variable {session : Session} {server : FileServer} {P : Operation → Prop} {α : Type}

theorem looks_answers : Looks (server.Answers session) session := by
  intro sessionId s h
  rcases h with h | h
  · cases h
  · exact Option.some.inj h

theorem answersLocally_answers : AnswersLocally (server.Answers session) := by
  intro op answer hlocal
  cases op with
  | localFiles _ | localRealpath _ | localStat _ | localReadFile _ | localCreateFile _ _
  | localRemove _ | localRename _ _ => trivial
  | _ => exact hlocal.elim

/-- A script that is answered in some way. -/
theorem execFallback_ensures {Assume : Event → Prop} {sessionId : String} {script : Script}
    (Answered : Except Failure CommandResult → Prop)
    (hanswer : ∀ sent a, Assume ⟨.exec script sent, a⟩ → Answered a)
    (hP : ∀ op, ShellOperation sessionId script op → P op) :
    Ensures Assume P (fun result => ∀ output, result = .ok output →
      ∃ answer, Answered answer ∧ answer.bind fallbackResult = .ok output)
      (execFallback sessionId script) := by
  refine ⟨hP _ .getSession, fun found _ => ?_⟩
  cases found with
  | none => exact nofun
  | some =>
    refine ⟨hP _ .getOSInfo, fun osInfo _ => ?_⟩
    cases osInfo with
    | error => exact nofun
    | ok osInfo =>
      change Ensures Assume P _ (ofExcept (buildRemoteCommand script.text osInfo) >>= _)
      cases buildRemoteCommand script.text osInfo with
      | error => exact nofun
      | ok sent =>
        refine ⟨hP _ (.exec sent), fun a ha => ?_⟩
        have hanswered := hanswer sent a ha
        cases a with
        | error => exact nofun
        | ok result =>
          -- the text is the one of the answer, where its status is 0
          refine Ensures.mono (Q := fun r => ∀ output, r = .ok output →
            fallbackResult result = .ok output) ?_ fun r hr output h => ⟨_, hanswered, hr output h⟩
          change Ensures Assume P _ (if _ then _ else _)
          unfold fallbackResult
          split
          · exact nofun
          · exact fun output h => h

/-- **What fetches a file** does so over the transport of the session, and after the file has
passed. -/
def FetchesOnce (sftp : Bool) (passed : Prop) : Operation → Prop
  | .sftpReadFile _ => sftp = true ∧ passed
  | .exec (.cat _) _ => sftp = false ∧ passed
  | _ => True

theorem statFileInternal_reported (sessionId path : String) (passed : Prop) :
    Ensures (server.Answers session) (FetchesOnce session.sftp passed)
      (fun result => ∀ stats, result = .ok stats →
        server.reported rt session.sftp = some stats.size)
      (statFileInternal rt sessionId path) := by
  refine ⟨trivial, fun found hfound => ?_⟩
  cases found with
  | none => exact nofun
  | some s =>
    obtain rfl := looks_answers sessionId s hfound
    change Ensures _ _ _ (if _ then _ else _)
    split
    · next hsftp =>
      have hshell : s.sftp = false := by simpa using hsftp
      refine Ensures.bind (execFallback_ensures (· = server.statOutput) (fun _ _ ha => ha) ?_)
        (fun output houtput => ?_) fun _ _ => nofun
      · rintro op (_ | _ | _)
        · trivial
        · trivial
        · trivial
      · intro stats hstats
        obtain rfl := Except.ok.inj hstats
        obtain ⟨_, rfl, htold⟩ := houtput output rfl
        unfold FileServer.reported
        rw [hshell, htold]
        rfl
    · next hsftp =>
      have hsftp : s.sftp = true := by simpa using hsftp
      refine ⟨trivial, fun answer hanswer => ?_⟩
      cases answer with
      | error => exact nofun
      | ok attrs =>
        change Ensures _ _ _ (statTime attrs >>= _)
        refine Ensures.bind (Q := fun _ => True) (statTime_performs trivial attrs)
          (fun mtime _ => ?_)
          fun _ _ => nofun
        intro stats hstats
        obtain rfl := Except.ok.inj hstats
        have hstat : server.stat = .ok attrs := hanswer.symm
        unfold FileServer.reported
        rw [hsftp, hstat]
        rfl

/-- **A read asks for a file that has passed**, and over the shell it succeeds only with it. -/
theorem readFile_fetches (engine : PolicyEngine rt) (config : ServerConfig)
    (sessionId path encoding : String) (maxBytes : Option ℕ) :
    Ensures (server.Answers session)
      (FetchesOnce session.sftp
        ((engine.Permits (pathContext .fsRead path session.policyMode) ∨
            session.policyMode = .explain) ∧
          server.TellsWithin rt session.sftp (maxBytes.getD config.maxFileSize)))
      (fun result => ∀ text, result = .ok text → session.sftp = false →
        ∃ output, server.catOutput.bind fallbackResult = .ok output)
      (readFile engine config sessionId path encoding maxBytes) := by
  refine ⟨trivial, fun found hfound => ?_⟩
  cases found with
  | none => exact nofun
  | some s =>
    obtain rfl := looks_answers sessionId s hfound
    have hmode : (pathContext .fsRead path s.policyMode).mode = some s.policyMode := rfl
    refine Ensures.tryCatch (Q := fun result => ∀ text, result = .ok text → s.sftp = false →
      ∃ output, server.catOutput.bind fallbackResult = .ok output) ?_ (fun _ h => h)
        fun _ _ => nofun
    refine ensures_asserted engine hmode nofun fun hpass => ?_
    refine Ensures.bind (statFileInternal_reported sessionId path _) (fun stats hstats => ?_)
      fun _ _ => nofun
    change Ensures _ _ _ (if _ then _ else _)
    split
    · exact nofun
    next hwithin =>
    have htells : server.TellsWithin rt s.sftp (maxBytes.getD config.maxFileSize) :=
      ⟨stats.size, hstats stats rfl, Bool.eq_false_of_not_eq_true hwithin⟩
    split
    · next hsftp =>
      have hshell : s.sftp = false := by simpa using hsftp
      refine (execFallback_ensures (· = server.catOutput) (fun _ _ ha => ha) ?_).mono
        fun result hresult text htext _ =>
          (hresult text htext).elim fun _ h => ⟨text, h.1 ▸ h.2⟩
      rintro op (_ | _ | _)
      · trivial
      · trivial
      · exact ⟨hshell, hpass, htells⟩
    · next hsftp =>
      have hsftp : s.sftp = true := by simpa using hsftp
      refine ⟨⟨hsftp, hpass, htells⟩, fun answer _ => ?_⟩
      cases answer with
      | error => exact nofun
      | ok => exact fun _ _ hshell => nomatch hsftp.symm.trans hshell

/-! ### What a download comes to -/

/-- What is created locally is what was read, and in mode `enforce`. -/
def CreatesRead (session : Session) (server : FileServer) (op : Operation) : Prop :=
  ∀ path data, op = .localCreateFile path data →
    session.policyMode = .enforce ∧ server.read = .ok data

theorem createsRead_of_not_acts {op : Operation} (h : ¬op.Acts) :
    CreatesRead session server op := by
  rintro path data rfl
  exact absurd trivial h

theorem exceeds_ofInt {n limit : ℕ} (h : ¬n > limit) : exceeds (.ofInt n) limit = false := by
  simpa [exceeds, JsNumber.ofInt] using h

theorem ensures_transferring {Assume : Event → Prop} {what : String} {body : Task TransferResult}
    {Q : TransferResult → Prop}
    (h : Ensures Assume P (fun result => ∀ t, result = .ok t → Q t) body) :
    Ensures Assume P (fun result => ∀ t, result = .ok t → Q t) (transferring what body) := by
  refine Ensures.tryCatch h (fun _ h => h) fun e _ => ?_
  cases e with
  | sshMcp => exact nofun
  | other => exact nofun
  | unfinished => exact nofun

/-- **A download creates what it has read**, and it succeeds only where it gets through. -/
theorem download_creates (engine : PolicyEngine rt) (config : ServerConfig)
    (remotePath localPath sessionId : String) :
    Ensures (server.Answers session) (CreatesRead session server)
      (fun result => ∀ t, result = .ok t → session.policyMode = .explain ∨
        SizedRequest.GetsThrough engine session (.download remotePath localPath sessionId) ∧
          server.TellsWithin rt session.sftp config.maxTransferBytes)
      (downloadFileWithProgress engine config remotePath localPath sessionId) := by
  have hquiet : ∀ op : Operation, ¬op.Acts → CreatesRead session server op :=
    fun _ => createsRead_of_not_acts
  have hnow : Performs (server.Answers session) (CreatesRead session server) now :=
    ⟨hquiet _ id, fun _ _ => trivial⟩
  have hwrite : ∀ path, Ensures (server.Answers session) (CreatesRead session server) _
      (authorizeLocalWritePath engine path .enforce) :=
    fun path => authorizeLocalWritePath_ensures path hquiet
  have hread : ∀ path, Ensures (server.Answers session) (CreatesRead session server)
      (fun result => ∀ p, result = .ok p → LocallyReadable engine (fun _ => True) path)
      (authorizeLocalReadPath engine path .enforce) := by
    intro path
    have h : Ensures _ (UploadOperation engine (server.Answers session) path remotePath) _ _ :=
      authorizeLocalReadPath_ensures engine path
    refine (h.weaken ?_).mono fun result hresult p hp => (hresult p hp).mono fun _ _ => trivial
    rintro op (_ | _ | _ | _ | _ | _ | _) path data heq
    all_goals cases heq
  unfold downloadFileWithProgress
  generalize authorizeLocalWritePath engine = authorize at hwrite ⊢
  generalize authorizeLocalReadPath engine = authorizeRead at hread ⊢
  refine Ensures.bind ((transferSession_ensures looks_answers sessionId).weaken
    fun op h => hquiet op h.not_acts) (fun s hs => ?_) fun _ _ => nofun
  obtain ⟨rfl, hsftp⟩ := hs s rfl
  have hmode : (pathContext .transferDownload remotePath s.policyMode).mode = some s.policyMode :=
    rfl
  refine ensures_guarded engine hmode nofun (fun _ hexplain _ _ => .inl hexplain) ?_
  intro hpermits henforce
  rw [henforce] at hpermits ⊢
  refine Ensures.bind hnow (fun startTime _ => ?_) fun _ _ => nofun
  refine ensures_transferring (Q := fun _ => _) ?_
  refine Ensures.bind (hwrite localPath) (fun target htarget => ?_) fun _ _ => nofun
  obtain ⟨habsolute, hwritable⟩ := htarget target rfl
  refine ⟨hquiet _ id, fun answer hstat => ?_⟩
  cases answer with
  | error => exact nofun
  | ok stats =>
  change Ensures _ _ _ (if _ then _ else _)
  split
  · exact nofun
  next hsmall =>
  have htells : server.TellsWithin rt s.sftp config.maxTransferBytes := by
    refine ⟨.ofInt (stats.size.getD 0 : ℕ), ?_, exceeds_ofInt hsmall⟩
    have hstat : server.stat = .ok stats := hstat.symm
    unfold FileServer.reported
    rw [hsftp, hstat]
    rfl
  refine ⟨hquiet _ id, fun answer hdata => ?_⟩
  cases answer with
  | error => exact nofun
  | ok data =>
  change Ensures _ _ _ (now >>= _)
  refine Ensures.bind hnow (fun time _ => ?_) fun _ _ => nofun
  refine Ensures.bind (hwrite _) (fun temp htemp => ?_) fun _ _ => nofun
  obtain ⟨habsolute', hwritable'⟩ := htemp temp rfl
  refine ⟨?_, fun created _ => ?_⟩
  · rintro path data' heq
    cases heq
    exact ⟨henforce, hdata.symm⟩
  cases created with
  | error => exact nofun
  | ok created =>
  change Ensures _ _ _ (authorizeRead _ _ >>= _)
  refine Ensures.bind (hread _) (fun tempRead htempRead => ?_) fun _ _ => nofun
  have hthrough : SizedRequest.GetsThrough engine s (.download remotePath localPath sessionId) :=
    ⟨hsftp, henforce, hpermits, _, habsolute, hwritable, time, _, habsolute', hwritable',
      htempRead tempRead rfl⟩
  -- whatever comes now creates nothing
  refine Ensures.mono (Q := fun _ => True) ?_ fun _ _ _ _ => .inr ⟨hthrough, htells⟩
  refine ⟨hquiet _ id, fun localData _ => performs_ofExcept_bind fun localData _ => ?_⟩
  change Performs _ _ (if _ then _ else _)
  split
  · exact Performs.bind ⟨fun _ _ h => (nomatch h), fun _ _ => trivial⟩ fun _ => trivial
  · refine Performs.bind ((hwrite _).mono fun _ _ => trivial) fun finalTarget => ?_
    refine Performs.bind ⟨fun _ _ h => (nomatch h), fun _ _ => trivial⟩ fun _ => ?_
    exact Performs.bind hnow fun _ => trivial

/-! ### Runs that go past the limit -/

section Past

variable {path : String} {result : CommandResult} {output : String}

theorem yields_getSession (sessionId : String) :
    Yields (server.Answers session) (getSession sessionId) (.ok session) :=
  ⟨some session, .inr rfl, rfl⟩

theorem fallbackResult_ok (h : fallbackResult result = .ok output) : result.stdout = output := by
  unfold fallbackResult at h
  split at h
  · cases h
  · exact Except.ok.inj h

/-- A script comes to its result. -/
theorem execFallback_past (script : Script)
    (hresult : ∀ sent, server.Answers session ⟨.exec script sent, .ok result⟩)
    (houtput : fallbackResult result = .ok output) (sessionId : String) :
    ∃ sent, YieldsPast (server.Answers session) ⟨.exec script sent, .ok result⟩
      (execFallback sessionId script) (.ok output) := by
  obtain ⟨sent, hsent⟩ := buildRemoteCommand_ok script.text linuxHost none
  have hos : Yields (server.Answers session) (getOSInfo sessionId) (.ok linuxHost) :=
    ⟨.ok linuxHost, trivial, rfl⟩
  refine ⟨sent, (yields_getSession sessionId).past_bind (hos.past_bind ?_)⟩
  rw [hsent]
  refine ⟨.ok result, hresult sent, .inl ⟨rfl, ?_⟩⟩
  change Yields _ (if _ then _ else _) _
  unfold fallbackResult at houtput
  split at houtput
  · cases houtput
  · next hcode =>
    rw [if_neg hcode]
    exact houtput

theorem exists_result {answer : Except Failure CommandResult}
    (h : answer.bind fallbackResult = .ok output) :
    ∃ result, answer = .ok result ∧ fallbackResult result = .ok output := by
  cases answer with
  | error => cases h
  | ok result => exact ⟨result, rfl, h⟩

theorem exists_of_toOption_map {β γ : Type} {answer : Except Failure β} {f : β → γ} {c : γ}
    (h : answer.toOption.map f = some c) : ∃ b, answer = .ok b ∧ f b = c := by
  cases answer with
  | error => cases h
  | ok b => exact ⟨b, rfl, Option.some.inj h⟩

/-- The size that the server tells is the one that is looked at. -/
theorem statFileInternal_tells {size : JsNumber}
    (h : server.reported rt session.sftp = some size) (sessionId path : String) :
    ∃ stats : FileStatInfo, stats.size = size ∧
      Yields (server.Answers session) (statFileInternal rt sessionId path) (.ok stats) := by
  unfold FileServer.reported at h
  cases hsftp : session.sftp with
  | true =>
    rw [hsftp, if_pos rfl] at h
    obtain ⟨attrs, hattrs, rfl⟩ := exists_of_toOption_map h
    have htime : ∃ mtime, Yields (server.Answers session) (statTime attrs) (.ok mtime) := by
      unfold statTime
      cases attrs.mtime with
      | some => exact ⟨_, rfl⟩
      | none => exact ⟨_, (0 : ℕ), trivial, rfl⟩
    obtain ⟨mtime, hmtime⟩ := htime
    let stats : FileStatInfo := {
      size := .ofInt (attrs.size.getD 0 : ℕ), mtime := mtime, mode := some (attrs.mode.getD 0)
      type := (if modeType (attrs.mode.getD 0) = .other then attrs.reported
        else modeType (attrs.mode.getD 0)).text }
    refine ⟨stats, rfl, (yields_getSession sessionId).bind ?_⟩
    rw [if_neg (by simp [hsftp])]
    exact ⟨.ok attrs, hattrs.symm, hmtime.bind rfl⟩
  | false =>
    rw [hsftp, if_neg Bool.false_ne_true] at h
    obtain ⟨output, houtput, rfl⟩ := exists_of_toOption_map h
    obtain ⟨result, hresult, htext⟩ := exists_result houtput
    obtain ⟨sent, hpast⟩ := execFallback_past (.stat path) (fun _ => hresult.symm) htext sessionId
    let fields := splitText (JsText.trim output) '\t'
    let stats : FileStatInfo := {
      size := rt.numberText.parse (fields.getD 1 "0")
      mtime := toMilliseconds (rt.numberText.parse (fields.getD 2 "0"))
      mode := parseOctal (fields.getD 3 "0"), type := fields.getD 0 "other" }
    refine ⟨stats, rfl, (yields_getSession sessionId).bind ?_⟩
    rw [if_pos (by simp [hsftp])]
    exact hpast.yields.bind rfl

theorem passes_eq {engine : PolicyEngine rt} {context : PolicyContext} {mode : PolicyMode}
    (hmode : context.mode = some mode) (hpass : engine.Permits context ∨ mode = .explain)
    {body : Task α} : (ofExcept (engine.assertAllowed context) >>= fun _ => body) = body := by
  rcases hpass with hpermits | rfl
  · exact asserted_eq hpermits
  · rw [assertAllowed_explain engine hmode]
    rfl

variable (session) in
/-- **A read of an understated file** returns more than the limit. -/
theorem readFile_past {engine : PolicyEngine rt} {limit : ℕ} (sessionId : String)
    (hpass : engine.Permits (pathContext .fsRead path session.policyMode) ∨
      session.policyMode = .explain) (config : ServerConfig) (encoding : String)
    (maxBytes : Option ℕ) (hlimit : maxBytes.getD config.maxFileSize = limit)
    (h : server.Understates rt session.sftp limit) :
    ∃ e text, YieldsPast (server.Answers session) e
        (readFile engine config sessionId path encoding maxBytes) (.ok text) ∧
      limit < SizedRequest.bytes (.readFile sessionId path encoding maxBytes) e := by
  subst hlimit
  obtain ⟨⟨size, hsize, hwithin⟩, n, hn, hlt⟩ := h
  obtain ⟨stats, rfl, hstats⟩ := statFileInternal_tells hsize sessionId path
  have hmode : (pathContext .fsRead path session.policyMode).mode = some session.policyMode := rfl
  -- past the check, the file is fetched
  have hshape : ∀ e text, YieldsPast (server.Answers session) e
      (if !session.sftp then execFallback sessionId (.cat path)
      else sftpReadFile path >>= fun data => pure (rt.bufferText encoding data)) (.ok text) →
      YieldsPast (server.Answers session) e
        (readFile engine config sessionId path encoding maxBytes) (.ok text) := by
    intro e text hfetch
    refine (yields_getSession sessionId).past_bind (YieldsPast.andThen (r := .ok text) ?_ rfl)
    change YieldsPast _ _ (ofExcept
      (engine.assertAllowed (pathContext .fsRead path session.policyMode)) >>= fun _ => _) _
    rw [passes_eq hmode hpass]
    refine hstats.past_bind ?_
    rw [if_neg (by rw [hwithin]; exact Bool.false_ne_true)]
    exact hfetch
  unfold FileServer.delivered at hn
  cases hsftp : session.sftp with
  | true =>
    rw [hsftp] at hn hshape
    obtain ⟨data, hdata, rfl⟩ := exists_of_toOption_map hn
    refine ⟨⟨.sftpReadFile path, .ok data⟩, rt.bufferText encoding data, hshape _ _ ?_, hlt⟩
    exact ⟨.ok data, hdata.symm, .inl ⟨rfl, rfl⟩⟩
  | false =>
    rw [hsftp] at hn hshape
    obtain ⟨output, houtput, rfl⟩ := exists_of_toOption_map hn
    obtain ⟨result, hresult, htext⟩ := exists_result houtput
    obtain ⟨sent, hpast⟩ := execFallback_past (.cat path) (fun _ => hresult.symm) htext sessionId
    refine ⟨_, output, hshape _ _ hpast, ?_⟩
    change _ < result.stdout.utf8ByteSize
    rw [fallbackResult_ok htext]
    exact hlt

/-- **A download of an understated file** writes more than the limit. -/
theorem download_past {engine : PolicyEngine rt} {remotePath localPath sessionId : String}
    (hthrough : SizedRequest.GetsThrough engine session (.download remotePath localPath sessionId))
    (config : ServerConfig) (h : server.Understates rt session.sftp config.maxTransferBytes) :
    ∃ e t, YieldsPast (server.Answers session) e
        (downloadFileWithProgress engine config remotePath localPath sessionId) (.ok t) ∧
      config.maxTransferBytes <
        SizedRequest.bytes (.download remotePath localPath sessionId) e := by
  obtain ⟨hsftp, henforce, hpermits, absolutePath, habsolute, hwritable, time, temp, htemp,
    hwritable', hreadable⟩ := hthrough
  obtain ⟨⟨size, hsize, hwithin⟩, n, hn, hlt⟩ := h
  have hlocal : AnswersLocally (server.Answers session) := answersLocally_answers
  obtain ⟨target, rfl, htarget⟩ := authorizeLocalWritePath_yields hlocal habsolute hwritable
  obtain ⟨resolved, rfl, hresolved⟩ := authorizeLocalWritePath_yields hlocal htemp hwritable'
  obtain ⟨tempRead, htempRead⟩ := authorizeLocalReadPath_yields hlocal hreadable
  rw [hsftp] at hsize hn
  obtain ⟨attrs, hattrs, rfl⟩ := exists_of_toOption_map hsize
  obtain ⟨data, hdata, rfl⟩ := exists_of_toOption_map hn
  have hsmall : ¬attrs.size.getD 0 > config.maxTransferBytes := by
    simpa [exceeds, JsNumber.ofInt] using hwithin
  have hsession : Yields (server.Answers session) (transferSession sessionId) (.ok session) := by
    refine Yields.bind (p := sessionOr _ sessionId) ⟨some session, .inr rfl, rfl⟩ ?_
    rw [if_neg (by simp [hsftp])]
    rfl
  have hstat : Yields (server.Answers session) (sftpStat remotePath) (.ok attrs) :=
    ⟨.ok attrs, hattrs.symm, rfl⟩
  have hread : Yields (server.Answers session) (sftpReadFile remotePath) (.ok data) :=
    ⟨.ok data, hdata.symm, rfl⟩
  have hnow : Yields (server.Answers session) now (.ok time) := ⟨time, trivial, rfl⟩
  have hcontent : Yields (server.Answers session) (localReadFile tempRead) (.ok data) :=
    ⟨.ok data, trivial, rfl⟩
  have hverified : ∃ t, Yields (server.Answers session)
      (verifiedTransfer (basename remotePath) (attrs.size.getD 0) time (rt.sha256 data)) (.ok t) :=
    ⟨_, hnow.bind rfl⟩
  obtain ⟨t, hverified⟩ := hverified
  refine ⟨⟨.localCreateFile resolved.absolutePath data, .ok ()⟩, t, ?_, hlt⟩
  unfold downloadFileWithProgress
  generalize authorizeLocalWritePath engine = authorize at htarget hresolved ⊢
  generalize authorizeLocalReadPath engine = authorizeRead at htempRead ⊢
  refine hsession.past_bind ?_
  change YieldsPast _ _ (ofExcept
    (engine.assertAllowed (pathContext .transferDownload remotePath session.policyMode)) >>= _) _
  rw [henforce, guarded_eq hpermits rfl]
  refine hnow.past_bind (YieldsPast.andThen (r := .ok _) ?_ rfl)
  refine htarget.past_bind (hstat.past_bind ?_)
  rw [if_neg hsmall]
  refine hread.past_bind (hnow.past_bind (hresolved.past_bind ?_))
  -- the file is created, and what comes after succeeds
  refine ⟨.ok (), trivial, .inl ⟨rfl, ?_⟩⟩
  refine htempRead.bind (hcontent.bind ?_)
  rw [if_neg (not_not.mpr rfl)]
  refine htarget.bind ?_
  exact ⟨.ok (), trivial, hverified⟩

end Past

end Reading

/-! ### The limits -/

section Limits

variable {rt : Runtime} {engine : PolicyEngine rt} {config : ServerConfig}
variable {session : Session} {server : FileServer} {α : Type}

theorem runs_ignoring {p : Task α} {log : List Event}
    (h : Runs (ServiceRequest.ignoring p) log (.ok ())) : ∃ a, Runs p log (.ok a) := by
  obtain ⟨log₁, mid, log₂, h₁, h₂, rfl⟩ := runs_andThen_iff.mp h
  cases mid with
  | ok a =>
    obtain ⟨rfl, -⟩ := runs_done_iff.mp h₂
    rw [List.append_nil]
    exact ⟨a, h₁⟩
  | error =>
    obtain ⟨-, hresult⟩ := runs_done_iff.mp h₂
    cases hresult

/-- More than the limit is only returned, or written, by a request that gets through to a file that
is understated. -/
theorem understates_of_bytes {request : SizedRequest} {log : List Event}
    (hrun : Runs (request.task engine config) log (.ok ()))
    (hlog : ∀ e ∈ log, server.Answers session e) {e : Event} (he : e ∈ log)
    (hlt : request.limit config < request.bytes e) :
    request.GetsThrough engine session ∧
      server.Understates rt session.sftp (request.limit config) := by
  cases request with
  | readFile sessionId path encoding maxBytes =>
    obtain ⟨text, hrun⟩ := runs_ignoring hrun
    obtain ⟨hops, hresult⟩ :=
      (readFile_fetches engine config sessionId path encoding maxBytes).of_runs hrun hlog
    have hop := hops e he
    have hanswer := hlog e he
    obtain ⟨op, answer⟩ := e
    cases op with
    | sftpReadFile =>
      -- over SFTP the data come in one answer
      cases answer with
      | error => exact absurd hlt (Nat.not_lt_zero _)
      | ok data =>
        obtain ⟨hsftp, hpass, htells⟩ := hop
        have hread : server.read = .ok data := hanswer.symm
        refine ⟨hpass, htells, data.length, ?_, hlt⟩
        unfold FileServer.delivered
        rw [hsftp, hread]
        rfl
    | exec script =>
      cases script with
      | cat =>
        cases answer with
        | error => exact absurd hlt (Nat.not_lt_zero _)
        | ok result =>
          obtain ⟨hshell, hpass, htells⟩ := hop
          -- over the shell they are the output of `cat`
          obtain ⟨output, houtput⟩ := hresult text rfl hshell
          have hcat : server.catOutput = .ok result := hanswer.symm
          have hstdout : result.stdout = output := fallbackResult_ok (by rw [← houtput, hcat]; rfl)
          refine ⟨hpass, htells, output.utf8ByteSize, ?_, hstdout ▸ hlt⟩
          unfold FileServer.delivered
          rw [hshell, houtput]
          rfl
      | _ => exact absurd hlt (Nat.not_lt_zero _)
    | _ => exact absurd hlt (Nat.not_lt_zero _)
  | download remotePath localPath sessionId =>
    obtain ⟨t, hrun⟩ := runs_ignoring hrun
    obtain ⟨hops, hresult⟩ :=
      (download_creates engine config remotePath localPath sessionId).of_runs hrun hlog
    have hop := hops e he
    obtain ⟨op, answer⟩ := e
    cases op with
    | localCreateFile path data =>
      obtain ⟨henforce, hread⟩ := hop path data rfl
      -- a dry run creates no file
      rcases hresult t rfl with hexplain | ⟨hthrough, htells⟩
      · cases henforce.symm.trans hexplain
      · refine ⟨hthrough, htells, data.length, ?_, hlt⟩
        unfold FileServer.delivered
        rw [hthrough.1, hread]
        rfl
    | _ => exact absurd hlt (Nat.not_lt_zero _)

theorem not_withinLimit (request : SizedRequest) {e : Event} {p : Task α} {a : α}
    (htask : request.task engine config = ServiceRequest.ignoring p)
    (hpast : YieldsPast (server.Answers session) e p (.ok a))
    (hlt : request.limit config < request.bytes e) :
    ¬request.WithinLimit engine config session server := by
  intro hwithin
  have htask' : YieldsPast (server.Answers session) e (request.task engine config) (.ok ()) := by
    rw [htask]
    exact hpast.andThen rfl
  obtain ⟨log, hrun, hlog, he⟩ := htask'.exists_runs
  exact absurd (hwithin log hrun hlog e he) (Nat.not_le.mpr hlt)

/-- A special file: its size is told as nothing, and there is one byte more than the limit. -/
def specialFile (limit : ℕ) : FileServer where
  stat := .ok { mode := some 0o100444, size := some 0, mtime := some 0 }
  read := .ok (List.replicate (limit + 1) 0)
  statOutput := .ok ⟨some 0, "file\t0\t0\t444", ""⟩
  catOutput := .ok ⟨some 0, String.ofList (List.replicate (limit + 1) 'a'), ""⟩

theorem understates_specialFile (sftp : Bool) :
    (specialFile 1000).Understates decimalRuntime sftp 1000 := by
  cases sftp with
  | true =>
    refine ⟨⟨.ofInt 0, rfl, by simp [exceeds, JsNumber.ofInt]⟩, 1001, ?_, Nat.lt_succ_self _⟩
    exact congrArg some List.length_replicate
  | false =>
    refine ⟨⟨.fin 0, ?_, by simp [exceeds]⟩, 1001, ?_, Nat.lt_succ_self _⟩
    · rfl
    · decide +kernel

end Limits

end Ssh
