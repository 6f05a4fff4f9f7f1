import McpSshTool.Ssh.Process
import McpSshTool.Ssh.Transfer
import McpSshTool.Ssh.Tunnel

/-!
# What the services perform

For each service operation, the operations that any of its runs may perform, with the decision that
lets it get there. The answers that may come are a parameter; the session is the one that every
lookup yields, unless it is gone.

* `Guarded` — lookups, and operations behind a decision in mode `enforce`;
* `writeFile_performs`, `makeDirectories_performs`, `removeRecursive_performs`,
  `renameFile_performs`, `uploadFileWithProgress_performs`, … — one lemma for each operation.
-/

open Library

namespace Ssh

open Program

variable {rt : Runtime} (engine : PolicyEngine rt) (config : ServerConfig)
variable {Assume : Event → Prop} {P : Operation → Prop} {session : Session} {α : Type}

/-! ### Rules for the parts of a service -/

/-- Every lookup of a session yields this one, or none. -/
def Looks (Assume : Event → Prop) (session : Session) : Prop :=
  ∀ sessionId s, Assume ⟨.getSession sessionId, some s⟩ → s = session

theorem performs_sessionOr {missing : Failure} {sessionId : String} {f : Session → Task α}
    (hsession : Looks Assume session) (hP : P (.getSession sessionId))
    (hf : Performs Assume P (f session)) :
    Performs Assume P (sessionOr missing sessionId >>= f) := by
  refine ⟨hP, fun answer ha => ?_⟩
  cases answer with
  | none => trivial
  | some s =>
    obtain rfl := hsession sessionId s ha
    exact hf

theorem performs_ofExcept_bind {β : Type} {result : Except Failure β} {f : β → Task α}
    (hf : ∀ b, result = .ok b → Performs Assume P (f b)) :
    Performs Assume P (ofExcept result >>= f) := by
  cases result with
  | ok b => exact hf b rfl
  | error => trivial

/-- The error of a decision that denies, in mode `enforce`. -/
def denialError (context : PolicyContext) : Failure :=
  createPolicyError ((engine.evaluate context).reason.getD "Operation denied by policy")
    (engine.evaluate context).hint

theorem assertAllowed_error {context : PolicyContext} {e : Failure}
    (h : engine.assertAllowed context = .error e) : e = denialError engine context := by
  rw [engine.assertAllowed_eq] at h
  split at h
  · exact (Except.error.inj h).symm
  · cases h

/-- **A decision** lets a service go on if it permits the action, and in mode `explain`. -/
theorem ensures_asserted {context : PolicyContext} {mode : PolicyMode}
    (hmode : context.mode = some mode) {Q : Except Failure α → Prop} {body : Task α}
    (hdenied : Q (.error (denialError engine context)))
    (hbody : engine.Permits context ∨ mode = .explain → Ensures Assume P Q body) :
    Ensures Assume P Q (ofExcept (engine.assertAllowed context) >>= fun _ => body) := by
  cases hassert : engine.assertAllowed context with
  | error =>
    obtain rfl := assertAllowed_error engine hassert
    exact hdenied
  | ok =>
    obtain ⟨rfl, hpass⟩ := engine.assertAllowedWith_ok hassert
    rw [engine.evaluateWith_mode, hmode, Option.getD_some] at hpass
    exact hbody hpass

/-- **A decision that is looked at**: a denial is thrown, mode `explain` explains, and what is
permitted goes on. -/
theorem ensures_guarded {context : PolicyContext} {mode : PolicyMode}
    (hmode : context.mode = some mode) {Q : Except Failure α → Prop}
    {explained : PolicyDecision → Task α} {body : Task α}
    (hdenied : Q (.error (denialError engine context)))
    (hexplained : ∀ decision, mode = .explain → Ensures Assume P Q (explained decision))
    (hbody : engine.Permits context → mode = .enforce → Ensures Assume P Q body) :
    Ensures Assume P Q (ofExcept (engine.assertAllowed context) >>= fun decision =>
      if decision.mode = .explain then explained decision else body) := by
  cases hassert : engine.assertAllowed context with
  | error =>
    obtain rfl := assertAllowed_error engine hassert
    exact hdenied
  | ok =>
    obtain ⟨rfl, hpass⟩ := engine.assertAllowedWith_ok hassert
    change Ensures Assume P Q (if _ then _ else _)
    rw [engine.evaluateWith_mode, hmode, Option.getD_some] at hpass ⊢
    cases mode with
    | explain =>
      rw [if_pos rfl]
      exact hexplained _ rfl
    | enforce =>
      rw [if_neg PolicyMode.noConfusion]
      exact hbody (hpass.resolve_right PolicyMode.noConfusion) rfl

/-- **A decision that is looked at** keeps a service from what is not permitted in both modes. -/
theorem performs_guarded {context : PolicyContext} {mode : PolicyMode}
    (hmode : context.mode = some mode) {explained : PolicyDecision → Task α} {body : Task α}
    (hexplained : ∀ decision, Performs Assume P (explained decision))
    (hbody : engine.Permits context → mode = .enforce → Performs Assume P body) :
    Performs Assume P (ofExcept (engine.assertAllowed context) >>= fun decision =>
      if decision.mode = .explain then explained decision else body) :=
  ensures_guarded engine hmode trivial (fun decision _ => hexplained decision) hbody

theorem performs_wrapping {hint : String} {body : Task α} (h : Performs Assume P body) :
    Performs Assume P (wrapping hint body) :=
  Performs.tryCatch h fun _ => trivial

/-! ### The shell -/

/-- What it takes to run a script. -/
inductive ShellOperation (sessionId : String) (script : Script) : Operation → Prop
  | getSession : ShellOperation sessionId script (.getSession sessionId)
  | getOSInfo : ShellOperation sessionId script (.getOSInfo sessionId)
  | exec (sent : String) : ShellOperation sessionId script (.exec script sent)

theorem execFallback_performs {sessionId : String} {script : Script}
    (h : ∀ op, ShellOperation sessionId script op → P op) :
    Performs Assume P (execFallback sessionId script) := by
  refine ⟨h _ .getSession, fun answer _ => ?_⟩
  cases answer with
  | none => trivial
  | some =>
    refine ⟨h _ .getOSInfo, fun answer _ => performs_ofExcept_bind fun osInfo _ => ?_⟩
    refine performs_ofExcept_bind fun sent _ => ?_
    refine ⟨h _ (.exec sent), fun answer _ => performs_ofExcept_bind fun result _ => ?_⟩
    split
    · trivial
    · trivial

/-! ### Guarded operations -/

/-- A lookup, or an operation behind a decision that permits it and is enforced. -/
def Guarded (session : Session) (context : PolicyContext) (Ops : Operation → Prop)
    (op : Operation) : Prop :=
  op.IsLookup ∨ engine.Permits context ∧ session.policyMode = .enforce ∧ Ops op

/-- A lookup, or an operation behind a decision that is asserted and then not looked at. -/
def Asserted (session : Session) (context : PolicyContext) (Ops : Operation → Prop)
    (op : Operation) : Prop :=
  op.IsLookup ∨ (engine.Permits context ∨ session.policyMode = .explain) ∧ Ops op

/-- A success is behind a decision that permits, or in mode `explain`. -/
def Passes (session : Session) (context : PolicyContext) (result : Except Failure α) : Prop :=
  ∀ a, result = .ok a → session.policyMode = .explain ∨ engine.Permits context

/-- The context of an action on one remote path. -/
def pathContext (action : PolicyAction) (path : String) (mode : PolicyMode) : PolicyContext :=
  { action, path := some path, mode := some mode }

/-- The shape of a guarded operation on files. -/
theorem performs_guardedFile {sessionId hint : String} (context : Session → PolicyContext)
    {explained : PolicyDecision → Task α} {body : Session → Task α} {Ops : Operation → Prop}
    (hsession : Looks Assume session)
    (hmode : (context session).mode = some session.policyMode)
    (hexplained : ∀ decision, Performs Assume Operation.IsLookup (explained decision))
    (hbody : Performs Assume Ops (body session)) :
    Performs Assume (Guarded engine session (context session) Ops)
      (getSession sessionId >>= fun s => wrapping hint
        (ofExcept (engine.assertAllowed (context s)) >>= fun decision =>
          if decision.mode = .explain then explained decision else body s)) := by
  refine performs_sessionOr hsession (.inl trivial) (performs_wrapping ?_)
  refine performs_guarded engine hmode (fun d => (hexplained d).weaken fun _ h => .inl h) ?_
  intro hpermits henforce
  exact hbody.weaken fun op hop => .inr ⟨hpermits, henforce, hop⟩

/-- What a write performs, with SFTP or without. -/
inductive WriteOperation (Assume : Event → Prop) (sftp : Bool) (sessionId path data : String) :
    Operation → Prop
  | randomUUID : WriteOperation Assume sftp sessionId path data .randomUUID
  | shell (hsftp : sftp = false) {uuid : String} (h : Assume ⟨.randomUUID, uuid⟩) {mode : Option ℕ}
      {op : Operation}
      (hop : ShellOperation sessionId (.write data (tempPathFor path uuid) path mode) op) :
      WriteOperation Assume sftp sessionId path data op
  | write {uuid : String} (h : Assume ⟨.randomUUID, uuid⟩) :
      WriteOperation Assume sftp sessionId path data
        (.sftpWriteFile (tempPathFor path uuid) (Utf8.encode data))
  | chmod {uuid : String} (h : Assume ⟨.randomUUID, uuid⟩) (mode : ℕ) :
      WriteOperation Assume sftp sessionId path data (.sftpChmod (tempPathFor path uuid) mode)
  | rename (hsftp : sftp = true) {uuid : String} (h : Assume ⟨.randomUUID, uuid⟩) :
      WriteOperation Assume sftp sessionId path data (.sftpRename (tempPathFor path uuid) path)
  | unlink {uuid : String} (h : Assume ⟨.randomUUID, uuid⟩) :
      WriteOperation Assume sftp sessionId path data (.sftpUnlink (tempPathFor path uuid))

theorem sftpReplaceFile_performs {sftp : Bool} (hsftp : sftp = true)
    {sessionId path data uuid : String} {mode : Option ℕ} (h : Assume ⟨.randomUUID, uuid⟩) :
    Performs Assume (WriteOperation Assume sftp sessionId path data)
      (sftpReplaceFile path (tempPathFor path uuid) (Utf8.encode data) mode) := by
  refine Performs.tryCatch ?_ fun e => ?_
  · refine Performs.bind ⟨.write h, fun _ _ => trivial⟩ fun _ => ?_
    have hrest : Performs Assume (WriteOperation Assume sftp sessionId path data)
        (sftpRename (tempPathFor path uuid) path >>= fun _ => (pure true : Task Bool)) :=
      Performs.bind ⟨.rename hsftp h, fun _ _ => trivial⟩ fun _ => trivial
    cases mode with
    | none => exact hrest
    | some mode => exact Performs.bind ⟨.chmod h mode, fun _ _ => trivial⟩ fun _ => hrest
  · refine Performs.bind (Performs.tryCatch ⟨.unlink h, fun _ _ => trivial⟩ fun _ => trivial) ?_
    exact fun _ => trivial

/-- The part of `writeFile` past its checks. -/
def sendWrite (session : Session) (sessionId path data : String) (mode : Option ℕ) : Task Bool := do
  let uuid ← randomUUID
  let tempPath := tempPathFor path uuid
  if !session.sftp then do
    let _ ← execFallback sessionId (.write data tempPath path mode)
    pure true
  else sftpReplaceFile path tempPath (Utf8.encode data) mode

theorem sendWrite_performs (s : Session) (sessionId path data : String) (mode : Option ℕ) :
    Performs Assume (WriteOperation Assume s.sftp sessionId path data)
      (sendWrite s sessionId path data mode) := by
  refine ⟨.randomUUID, fun uuid huuid => ?_⟩
  change Performs _ _ (if _ then _ else _)
  split
  · next h =>
    have hsftp : s.sftp = false := by simpa using h
    exact Performs.bind (execFallback_performs fun op hop => .shell hsftp huuid hop)
      fun _ => trivial
  · next h => exact sftpReplaceFile_performs (by simpa using h) huuid

/-- The error of a service that finds no session. -/
def noSession (sessionId : String) : Failure :=
  plainError ("Session " ++ sessionId ++ " not found or expired")

/-- How a write ends: it succeeds in mode `explain` and where it is permitted and fits, and it fails
with something else than the absence of the session or a denial only where it is permitted. -/
def WriteEnds (session : Session) (sessionId path data : String) : Except Failure Bool → Prop
  | .ok _ => session.policyMode = .explain ∨
      engine.Permits (pathContext .fsWrite path session.policyMode) ∧
        data.utf8ByteSize ≤ config.maxFileWriteBytes
  | .error e => engine.Permits (pathContext .fsWrite path session.policyMode) ∨
      e = noSession sessionId ∨
        e = denialError engine (pathContext .fsWrite path session.policyMode)

/-- **What `writeFile` performs, and how it ends.** -/
theorem writeFile_ensures (hsession : Looks Assume session) (sessionId path data : String)
    (mode : Option ℕ) :
    Ensures Assume
      (Guarded engine session (pathContext .fsWrite path session.policyMode) fun op =>
        data.utf8ByteSize ≤ config.maxFileWriteBytes ∧
          WriteOperation Assume session.sftp sessionId path data op)
      (WriteEnds engine config session sessionId path data)
      (writeFile engine config sessionId path data mode) := by
  refine ⟨.inl trivial, fun answer ha => ?_⟩
  cases answer with
  | none => exact .inr (.inl rfl)
  | some s =>
    obtain rfl := hsession sessionId s ha
    have hmode : (pathContext .fsWrite path s.policyMode).mode = some s.policyMode := rfl
    -- within the wrapping, the only error without a permission is the denial, which it passes on
    refine Ensures.tryCatch (Q := fun
      | .ok b => WriteEnds engine config s sessionId path data (.ok b)
      | .error e => engine.Permits (pathContext .fsWrite path s.policyMode) ∨
          e = denialError engine (pathContext .fsWrite path s.policyMode)) ?_ (fun _ h => h) ?_
    · refine ensures_guarded engine hmode (.inr rfl) (fun _ hexplain => .inl hexplain) ?_
      intro hpermits henforce
      split
      · exact .inl hpermits
      · next hsize =>
        have hfits := not_lt.mp hsize
        have hbody : Performs Assume _ _ := sendWrite_performs s sessionId path data mode
        refine (hbody.weaken fun op hop => .inr ⟨hpermits, henforce, hfits, hop⟩).mono ?_
        intro result _
        cases result with
        | ok => exact .inr ⟨hpermits, hfits⟩
        | error => exact .inl hpermits
    · rintro e (hpermits | rfl)
      · exact .inl hpermits
      · exact .inr (.inr rfl)

/-- **What `writeFile` performs.** -/
theorem writeFile_performs (hsession : Looks Assume session) (sessionId path data : String)
    (mode : Option ℕ) :
    Performs Assume
      (Guarded engine session (pathContext .fsWrite path session.policyMode) fun op =>
        data.utf8ByteSize ≤ config.maxFileWriteBytes ∧
          WriteOperation Assume session.sftp sessionId path data op)
      (writeFile engine config sessionId path data mode) :=
  (writeFile_ensures engine config hsession sessionId path data mode).mono fun _ _ => trivial

/-- What the creation of directories performs. -/
inductive MkdirOperation (sessionId path : String) : Operation → Prop
  | shell {op : Operation} (hop : ShellOperation sessionId (.mkdir path) op) :
      MkdirOperation sessionId path op
  | stat (current : RemotePath) : MkdirOperation sessionId path (.sftpStat current)
  | mkdir (current : String) : MkdirOperation sessionId path (.sftpMkdir current)

theorem sftpMkdirParts_performs {sessionId path : String} (parts : List String) :
    ∀ current, Performs Assume (MkdirOperation sessionId path) (sftpMkdirParts current parts) := by
  induction parts with
  | nil => exact fun _ => trivial
  | cons part parts ih =>
    intro current
    refine Performs.bind (Performs.tryCatch ?_ fun _ => ?_) fun _ => ih _
    · exact Performs.bind ⟨.stat _, fun _ _ => trivial⟩ fun _ => trivial
    · refine Performs.tryCatch ⟨.mkdir _, fun _ _ => trivial⟩ fun e => ?_
      split
      · trivial
      · trivial

/-- **What `makeDirectories` performs.** -/
theorem makeDirectories_performs (hsession : Looks Assume session) (sessionId path : String) :
    Performs Assume
      (Guarded engine session (pathContext .fsMkdir path session.policyMode)
        (MkdirOperation sessionId path))
      (makeDirectories engine sessionId path) := by
  refine performs_guardedFile engine (fun s => pathContext .fsMkdir path s.policyMode)
    hsession rfl (fun _ => trivial) ?_
  split
  · exact Performs.bind (execFallback_performs fun op hop => .shell hop) fun _ => trivial
  · exact Performs.bind (sftpMkdirParts_performs _ _) fun _ => trivial

/-- What a recursive removal performs: on the path, and on entries that were listed below it. -/
inductive RemoveOperation (Listed : String → Prop) (sftp : Bool) (sessionId path : String) :
    Operation → Prop
  | shell (hsftp : sftp = false) {op : Operation}
      (hop : ShellOperation sessionId (.remove path) op) :
      RemoveOperation Listed sftp sessionId path op
  | stat : RemoveOperation Listed sftp sessionId path (.sftpStat path)
  | readdir {names : List String} (h : ∀ n ∈ names, Listed n) :
      RemoveOperation Listed sftp sessionId path (.sftpReaddir ⟨path, names⟩)
  | unlink (hsftp : sftp = true) {names : List String} (h : ∀ n ∈ names, Listed n) :
      RemoveOperation Listed sftp sessionId path (.sftpUnlink ⟨path, names⟩)
  | rmdir (hsftp : sftp = true) {names : List String} (h : ∀ n ∈ names, Listed n) :
      RemoveOperation Listed sftp sessionId path (.sftpRmdir ⟨path, names⟩)

/-- The names that a listing may have. -/
def Lists (Assume : Event → Prop) (Listed : String → Prop) : Prop :=
  ∀ path entries, Assume ⟨.sftpReaddir path, .ok entries⟩ → ∀ e ∈ entries, Listed e.filename

theorem sftpRmdirRecursive_performs {Listed : String → Prop} (hlists : Lists Assume Listed)
    {sftp : Bool} (hsftp : sftp = true) {sessionId path : String} (depth : ℕ) :
    ∀ names, (∀ n ∈ names, Listed n) →
      Performs Assume (RemoveOperation Listed sftp sessionId path)
        (sftpRmdirRecursive depth ⟨path, names⟩) := by
  induction depth with
  | zero => exact fun _ _ => trivial
  | succ depth ih =>
    intro names hnames
    refine ⟨.readdir hnames, fun answer ha => performs_ofExcept_bind fun entries hentries => ?_⟩
    subst hentries
    refine Performs.bind (Performs.traverse fun e he => ?_) fun _ =>
      ⟨.rmdir hsftp hnames, fun _ _ => trivial⟩
    have hchild : ∀ n ∈ names ++ [e.filename], Listed n := by
      intro n hn
      rcases List.mem_append.mp hn with hn | hn
      · exact hnames n hn
      · rw [List.mem_singleton.mp hn]
        exact hlists _ entries ha e he
    split
    · exact ih _ hchild
    · exact ⟨.unlink hsftp hchild, fun _ _ => trivial⟩

/-- The context of a removal. -/
def removeContext (path : String) (mode : PolicyMode) : PolicyContext :=
  { action := .fsRemove, path := some path, mode := some mode, destructive := true }

/-- **What `removeRecursive` performs.** -/
theorem removeRecursive_performs {Listed : String → Prop} (hsession : Looks Assume session)
    (hlists : Lists Assume Listed) (depth : ℕ) (sessionId path : String) :
    Performs Assume
      (Guarded engine session (removeContext path session.policyMode)
        (RemoveOperation Listed session.sftp sessionId path))
      (removeRecursive engine depth sessionId path) := by
  refine performs_guardedFile engine (fun s => removeContext path s.policyMode)
    hsession rfl (fun _ => trivial) ?_
  have hnil : ∀ n ∈ ([] : List String), Listed n := fun n hn => absurd hn List.not_mem_nil
  split
  · next h =>
    have hsftp : session.sftp = false := by simpa using h
    exact Performs.bind (execFallback_performs fun op hop => .shell hsftp hop) fun _ => trivial
  · next h =>
    have hsftp : session.sftp = true := by simpa using h
    refine Performs.bind ⟨.stat, fun _ _ => trivial⟩ fun stats => ?_
    split
    · exact Performs.bind (sftpRmdirRecursive_performs hlists hsftp depth [] hnil) fun _ => trivial
    · exact Performs.bind ⟨.unlink hsftp hnil, fun _ _ => trivial⟩ fun _ => trivial

/-- What a renaming performs. -/
inductive RenameOperation (sessionId source target : String) : Operation → Prop
  | shell {op : Operation} (hop : ShellOperation sessionId (.move source target) op) :
      RenameOperation sessionId source target op
  | rename : RenameOperation sessionId source target (.sftpRename source target)

/-- The context of a renaming. -/
def renameContext (source target : String) (mode : PolicyMode) : PolicyContext :=
  { action := .fsRename, path := some source, secondaryPath := some target, mode := some mode }

/-- **What `renameFile` performs.** -/
theorem renameFile_performs (hsession : Looks Assume session) (sessionId source target : String) :
    Performs Assume
      (Guarded engine session (renameContext source target session.policyMode)
        (RenameOperation sessionId source target))
      (renameFile engine sessionId source target) := by
  refine performs_guardedFile engine (fun s => renameContext source target s.policyMode)
    hsession rfl (fun _ => trivial) ?_
  split
  · exact Performs.bind (execFallback_performs fun op hop => .shell hop) fun _ => trivial
  · exact Performs.bind ⟨.rename, fun _ _ => trivial⟩ fun _ => trivial

/-! ### Reads -/

/-- What the operations that read perform. -/
inductive ReadOperation (sessionId path : String) : Operation → Prop
  | shell {script : Script} (h : script = .stat path ∨ script = .cat path ∨ script = .list path)
      {op : Operation} (hop : ShellOperation sessionId script op) : ReadOperation sessionId path op
  | getSession : ReadOperation sessionId path (.getSession sessionId)
  | now : ReadOperation sessionId path .now
  | stat : ReadOperation sessionId path (.sftpStat path)
  | read : ReadOperation sessionId path (.sftpReadFile path)
  | readdir : ReadOperation sessionId path (.sftpReaddir path)

theorem statTime_performs (hnow : P .now) (attrs : Stats) : Performs Assume P (statTime attrs) := by
  unfold statTime
  split
  · trivial
  · exact ⟨hnow, fun _ _ => trivial⟩

theorem statFileInternal_performs (rt : Runtime) (sessionId path : String) :
    Performs Assume (ReadOperation sessionId path) (statFileInternal rt sessionId path) := by
  refine ⟨.getSession, fun answer _ => ?_⟩
  cases answer with
  | none => trivial
  | some =>
    show Performs _ _ (if _ then _ else _)
    split
    · exact Performs.bind (execFallback_performs fun op hop => .shell (.inl rfl) hop)
        fun _ => trivial
    · refine ⟨.stat, fun answer _ => performs_ofExcept_bind fun stats _ => ?_⟩
      exact Performs.bind (statTime_performs .now _) fun _ => trivial

/-- The shape of a read. -/
theorem ensures_assertedFile {sessionId hint : String} (context : Session → PolicyContext)
    {body : Session → Task α} {Ops : Operation → Prop} (hsession : Looks Assume session)
    (hmode : (context session).mode = some session.policyMode)
    (hbody : Performs Assume Ops (body session)) :
    Ensures Assume (Asserted engine session (context session) Ops)
      (Passes engine session (context session))
      (getSession sessionId >>= fun s => wrapping hint
        (ofExcept (engine.assertAllowed (context s)) >>= fun _ => body s)) := by
  refine ⟨.inl trivial, fun answer ha => ?_⟩
  cases answer with
  | none => exact fun _ h => nomatch h
  | some s =>
    obtain rfl := hsession sessionId s ha
    refine Ensures.tryCatch (Q := Passes engine s (context s)) ?_ (fun _ h => h) ?_
    · refine ensures_asserted engine hmode (fun _ h => nomatch h) fun hpass => ?_
      exact (hbody.weaken fun op hop => .inr ⟨hpass, hop⟩).mono fun _ _ _ _ => hpass.symm
    · exact fun _ _ _ h => nomatch h

/-- **What `readFile` performs**, and when it succeeds. -/
theorem readFile_ensures (hsession : Looks Assume session) (sessionId path encoding : String)
    (maxBytes : Option ℕ) :
    Ensures Assume
      (Asserted engine session (pathContext .fsRead path session.policyMode)
        (ReadOperation sessionId path))
      (Passes engine session (pathContext .fsRead path session.policyMode))
      (readFile engine config sessionId path encoding maxBytes) := by
  refine ensures_assertedFile engine (fun s => pathContext .fsRead path s.policyMode)
    hsession rfl ?_
  refine Performs.bind (statFileInternal_performs rt sessionId path) fun stats => ?_
  split
  · trivial
  · split
    · exact execFallback_performs fun op hop => .shell (.inr (.inl rfl)) hop
    · exact Performs.bind ⟨.read, fun _ _ => trivial⟩ fun _ => trivial

/-- **What `readFile` performs.** -/
theorem readFile_performs (hsession : Looks Assume session) (sessionId path encoding : String)
    (maxBytes : Option ℕ) :
    Performs Assume
      (Asserted engine session (pathContext .fsRead path session.policyMode)
        (ReadOperation sessionId path))
      (readFile engine config sessionId path encoding maxBytes) :=
  (readFile_ensures engine config hsession sessionId path encoding maxBytes).mono fun _ _ => trivial

/-- **What `statFile` performs.** -/
theorem statFile_performs (hsession : Looks Assume session) (sessionId path : String) :
    Performs Assume
      (Asserted engine session (pathContext .fsStat path session.policyMode)
        (ReadOperation sessionId path))
      (statFile engine sessionId path) :=
  (ensures_assertedFile engine (fun s => pathContext .fsStat path s.policyMode) hsession rfl
    (statFileInternal_performs rt sessionId path)).mono fun _ _ => trivial

/-- **What `listDirectory` performs.** -/
theorem listDirectory_performs (hsession : Looks Assume session) (sessionId path : String)
    (page : Option ℕ) (limit : ℕ) :
    Performs Assume
      (Asserted engine session (pathContext .fsList path session.policyMode)
        (ReadOperation sessionId path))
      (listDirectory engine sessionId path page limit) := by
  refine (ensures_assertedFile engine (fun s => pathContext .fsList path s.policyMode) hsession rfl
    ?_).mono fun _ _ => trivial
  split
  · exact Performs.bind (execFallback_performs fun op hop => .shell (.inr (.inr rfl)) hop)
      fun _ => trivial
  · refine Performs.bind ⟨.readdir, fun _ _ => trivial⟩ fun fileList => ?_
    refine Performs.bind (Performs.traverse fun item _ => ?_) fun _ => trivial
    exact Performs.bind (statTime_performs .now _) fun _ => trivial

theorem probe_performs (hsession : Looks Assume session) (test : FileStatInfo → Bool)
    (sessionId path : String) :
    Performs Assume
      (Asserted engine session (pathContext .fsStat path session.policyMode)
        (ReadOperation sessionId path))
      (probe engine test sessionId path) :=
  Performs.tryCatch (Performs.bind (statFile_performs engine hsession sessionId path) fun _ =>
    trivial)
    fun _ => trivial

theorem getFileSize_performs (hsession : Looks Assume session) (sessionId path : String) :
    Performs Assume
      (Asserted engine session (pathContext .fsStat path session.policyMode)
        (ReadOperation sessionId path))
      (getFileSize engine sessionId path) :=
  Performs.bind (statFile_performs engine hsession sessionId path) fun _ => trivial

/-! ### Commands -/

/-- What a command performs. -/
inductive CommandOperation (sessionId : String) (script : Script) : Operation → Prop
  | getOSInfo : CommandOperation sessionId script (.getOSInfo sessionId)
  | now : CommandOperation sessionId script .now
  | exec (sent : String) (timeoutMs : ℕ) :
      CommandOperation sessionId script (.execWithin script sent timeoutMs)
  | stream (sent : String) (timeoutMs : ℕ) :
      CommandOperation sessionId script (.execStreaming script sent timeoutMs)
  | underSudo (sent : String) (timeoutMs : ℕ) :
      CommandOperation sessionId script (.execSudo script sent timeoutMs)

/-- The context of a command. -/
def commandContext (script : Script) (mode : PolicyMode) : PolicyContext :=
  { action := .procExec, command := some script.text, mode := some mode }

/-- The shape of a guarded operation that is no operation on files. -/
theorem ensures_guardedCall {sessionId : String} {missing : Failure}
    (context : Session → PolicyContext) {explained : PolicyDecision → Task α}
    {body : Session → Task α} {Ops : Operation → Prop} (hsession : Looks Assume session)
    (hmode : (context session).mode = some session.policyMode)
    (hexplained : ∀ decision, Performs Assume Operation.IsLookup (explained decision))
    (hbody : Performs Assume Ops (body session)) :
    Ensures Assume (Guarded engine session (context session) Ops)
      (Passes engine session (context session))
      (sessionOr missing sessionId >>= fun s =>
        ofExcept (engine.assertAllowed (context s)) >>= fun decision =>
          if decision.mode = .explain then explained decision else body s) := by
  refine ⟨.inl trivial, fun answer ha => ?_⟩
  cases answer with
  | none => exact fun _ h => nomatch h
  | some s =>
    obtain rfl := hsession sessionId s ha
    refine ensures_guarded engine hmode (fun _ h => nomatch h) ?_ ?_
    · intro decision hexplain
      exact ((hexplained decision).weaken fun _ h => .inl h).mono fun _ _ _ _ => .inl hexplain
    · intro hpermits henforce
      refine (hbody.weaken fun op hop => .inr ⟨hpermits, henforce, hop⟩).mono ?_
      exact fun _ _ _ _ => .inr hpermits

/-- **What `execCommand` performs**, and when it succeeds. -/
theorem execCommand_ensures (hsession : Looks Assume session) (sessionId : String) (script : Script)
    (cwd : Option String) (env : Environment) (timeoutMs : Option ℕ) :
    Ensures Assume
      (Guarded engine session (commandContext script session.policyMode)
        (CommandOperation sessionId script))
      (Passes engine session (commandContext script session.policyMode))
      (execCommand engine config sessionId script cwd env timeoutMs) := by
  refine ensures_guardedCall engine (fun s => commandContext script s.policyMode) hsession rfl
    ?_ ?_
  · exact fun _ => trivial
  refine Performs.bind ⟨.getOSInfo, fun _ _ => trivial⟩ fun osInfo => ?_
  refine Performs.bind ⟨.now, fun _ _ => trivial⟩ fun started => ?_
  refine Performs.tryCatch (performs_ofExcept_bind fun sent _ => ?_) fun e => ?_
  · refine ⟨.exec _ _, fun answer _ => performs_ofExcept_bind fun outcome _ => ?_⟩
    cases outcome with
    | none => trivial
    | some =>
      refine ⟨.now, fun _ _ => ?_⟩
      show Performs _ _ (if _ then _ else _)
      split
      · trivial
      · trivial
  · split
    · trivial
    · trivial

/-- **What `execCommand` performs.** -/
theorem execCommand_performs (hsession : Looks Assume session) (sessionId : String)
    (script : Script)
    (cwd : Option String) (env : Environment) (timeoutMs : Option ℕ) :
    Performs Assume
      (Guarded engine session (commandContext script session.policyMode)
        (CommandOperation sessionId script))
      (execCommand engine config sessionId script cwd env timeoutMs) :=
  (execCommand_ensures engine config hsession sessionId script cwd env timeoutMs).mono
    fun _ _ => trivial

/-- **What `execSudo` performs**, and when it succeeds. -/
theorem execSudo_ensures (hsession : Looks Assume session) (sessionId : String) (script : Script)
    (password cwd : Option String) (timeoutMs : Option ℕ) (options : SudoPolicyOptions) :
    Ensures Assume
      (Guarded engine session (sudoContext script session.policyMode options)
        (CommandOperation sessionId script))
      (Passes engine session (sudoContext script session.policyMode options))
      (execSudo engine config sessionId script password cwd timeoutMs options) := by
  refine ensures_guardedCall engine (fun s => sudoContext script s.policyMode options) hsession rfl
    ?_ ?_
  · exact fun _ => trivial
  refine Performs.bind ⟨.getOSInfo, fun _ _ => trivial⟩ fun osInfo => ?_
  split
  · trivial
  · refine Performs.bind ⟨.now, fun _ _ => trivial⟩ fun started => ?_
    refine Performs.tryCatch ?_ fun e => ?_
    · split
      · trivial
      · refine performs_ofExcept_bind fun sent _ => ?_
        refine ⟨.underSudo _ _, fun answer _ => performs_ofExcept_bind fun outcome _ => ?_⟩
        cases outcome with
        | none => trivial
        | some =>
          show Performs _ _ (if _ then _ else _)
          split
          · trivial
          · exact ⟨.now, fun _ _ => trivial⟩
    · split
      · trivial
      · split
        · trivial
        · trivial

/-- **What `execSudo` performs.** -/
theorem execSudo_performs (hsession : Looks Assume session) (sessionId : String) (script : Script)
    (password cwd : Option String) (timeoutMs : Option ℕ) (options : SudoPolicyOptions) :
    Performs Assume
      (Guarded engine session (sudoContext script session.policyMode options)
        (CommandOperation sessionId script))
      (execSudo engine config sessionId script password cwd timeoutMs options) :=
  (execSudo_ensures engine config hsession sessionId script password cwd timeoutMs options).mono
    fun _ _ => trivial

/-- **What `commandExists` performs.** -/
theorem commandExists_performs (hsession : Looks Assume session) (sessionId command : String) :
    Performs Assume
      (Guarded engine session (commandContext (.which command) session.policyMode)
        (CommandOperation sessionId (.which command)))
      (commandExists engine config sessionId command) :=
  Performs.tryCatch
    (Performs.bind (execCommand_performs engine config hsession sessionId _ _ _ _) fun _ => trivial)
    fun _ => trivial

/-- **What `execWithStreaming` performs.** -/
theorem execWithStreaming_performs (hsession : Looks Assume session) (sessionId command : String)
    (cwd : Option String) (env : Environment) (timeoutMs : Option ℕ) :
    Performs Assume
      (Guarded engine session (commandContext (.command command) session.policyMode)
        (CommandOperation sessionId (.command command)))
      (execWithStreaming engine config sessionId command cwd env timeoutMs) := by
  refine (ensures_guardedCall engine (fun s => commandContext (.command command) s.policyMode)
    hsession rfl ?_ ?_).mono fun _ _ => trivial
  · exact fun _ => trivial
  refine Performs.bind ⟨.getOSInfo, fun _ _ => trivial⟩ fun osInfo => ?_
  refine Performs.bind ⟨.now, fun _ _ => trivial⟩ fun startTime => ?_
  refine performs_ofExcept_bind fun sent _ => ?_
  refine ⟨.stream _ _, fun answer _ => performs_ofExcept_bind fun outcome _ => ?_⟩
  cases outcome with
  | none => trivial
  | some =>
    exact ⟨.now, fun _ _ => ⟨.now, fun _ _ => ⟨.now, fun _ _ => trivial⟩⟩⟩

/-- A command that some decision permits. -/
def PermittedCommand (session : Session) (sessionId : String) (op : Operation) : Prop :=
  ∃ script, Guarded engine session (commandContext script session.policyMode)
    (CommandOperation sessionId script) op

/-- **What `getAvailableShell` performs**: each command that it runs is permitted. -/
theorem getAvailableShell_performs (hsession : Looks Assume session) (sessionId : String) :
    Performs Assume (PermittedCommand engine session sessionId)
      (getAvailableShell engine config sessionId) := by
  unfold getAvailableShell
  generalize ["bash", "zsh", "sh"] = shells
  induction shells with
  | nil => trivial
  | cons shell shells ih =>
    have hexists := (commandExists_performs engine config hsession sessionId shell).weaken
      fun op hop => (⟨_, hop⟩ : PermittedCommand engine session sessionId op)
    refine Performs.bind hexists fun found => ?_
    split
    · trivial
    · exact ih

/-- **What `execWithShell` performs.** -/
theorem execWithShell_performs (hsession : Looks Assume session) (sessionId command : String)
    (cwd : Option String) (env : Environment) :
    Performs Assume (PermittedCommand engine session sessionId)
      (execWithShell engine config sessionId command cwd env) := by
  refine Performs.bind (getAvailableShell_performs engine config hsession sessionId) fun shell => ?_
  exact (execCommand_performs engine config hsession sessionId _ none [] none).weaken
    fun op hop => ⟨_, hop⟩

/-! ### Tunnels -/

/-- What a tunnel performs. -/
inductive TunnelOperation (config : TunnelConfig) : TunnelType → Operation → Prop
  | now (type : TunnelType) : TunnelOperation config type .now
  | listen :
      TunnelOperation config .local (.listen config.localPort (config.localHost.getD "localhost"))
  | forwardIn :
      TunnelOperation config .remote
        (.forwardIn (config.remoteHost.getD "localhost") config.targetPort)

theorem createTunnel_performs {type : TunnelType} {tunnel : TunnelConfig} {tunnelCounter : ℕ}
    {forward : Task ℕ} (hsession : Looks Assume session)
    (hforward : Performs Assume (TunnelOperation tunnel type) forward) :
    Performs Assume
      (Guarded engine session (tunnel.context type session.policyMode)
        (TunnelOperation tunnel type))
      (createTunnel engine type tunnel tunnelCounter forward) := by
  refine (ensures_guardedCall engine (fun s => tunnel.context type s.policyMode) hsession rfl
    ?_ ?_).mono fun _ _ => trivial
  · exact fun _ => ⟨trivial, fun _ _ => ⟨trivial, fun _ _ => trivial⟩⟩
  · refine Performs.bind ⟨.now type, fun _ _ => trivial⟩ fun time => ?_
    exact Performs.bind hforward fun port => ⟨.now type, fun _ _ => trivial⟩

/-- **What `createLocalTunnel` performs.** -/
theorem createLocalTunnel_performs (hsession : Looks Assume session) (tunnel : TunnelConfig)
    (tunnelCounter : ℕ) :
    Performs Assume
      (Guarded engine session (tunnel.context .local session.policyMode)
        (TunnelOperation tunnel .local))
      (createLocalTunnel engine tunnel tunnelCounter) :=
  createTunnel_performs engine hsession
    (Performs.bind ⟨.listen, fun _ _ => trivial⟩ fun _ => trivial)

/-- **What `createRemoteTunnel` performs.** -/
theorem createRemoteTunnel_performs (hsession : Looks Assume session) (tunnel : TunnelConfig)
    (tunnelCounter : ℕ) :
    Performs Assume
      (Guarded engine session (tunnel.context .remote session.policyMode)
        (TunnelOperation tunnel .remote))
      (createRemoteTunnel engine tunnel tunnelCounter) :=
  createTunnel_performs engine hsession ⟨.forwardIn, fun _ _ => trivial⟩

/-! ### Transfers -/

/-- The context of reading a local file. -/
def localReadContext (canonicalPath : String) (mode : PolicyMode) : PolicyContext :=
  { action := .transferLocalRead, path := some canonicalPath, mode := some mode }

/-- The local path is valid and may resolve to a file that the policy allows to be read. -/
def LocallyReadable (Assume : Event → Prop) (localPath : String) : Prop :=
  validateLocalPathInput localPath = .ok () ∧
    ∃ canonicalPath files,
      Assume ⟨.localRealpath (resolveLocal rt localPath), .ok canonicalPath⟩ ∧
      Assume ⟨.localFiles (localReadContext canonicalPath .enforce), files⟩ ∧
      engine.PermitsWith files (localReadContext canonicalPath .enforce)

/-- What an upload performs. -/
inductive UploadOperation (Assume : Event → Prop) (localPath remotePath : String) : Operation → Prop
  | now : UploadOperation Assume localPath remotePath .now
  | realpath (path : String) : UploadOperation Assume localPath remotePath (.localRealpath path)
  | files (context : PolicyContext) : UploadOperation Assume localPath remotePath
      (.localFiles context)
  | stat (path : String) : UploadOperation Assume localPath remotePath (.localStat path)
  | localRead (path : String) : UploadOperation Assume localPath remotePath (.localReadFile path)
  | write (h : LocallyReadable engine Assume localPath) (data : List UInt8) :
      UploadOperation Assume localPath remotePath (.sftpWriteFile remotePath data)
  | read : UploadOperation Assume localPath remotePath (.sftpReadFile remotePath)

theorem transferSession_ensures (hsession : Looks Assume session) (sessionId : String) :
    Ensures Assume Operation.IsLookup
      (fun result => ∀ s, result = .ok s → s = session ∧ s.sftp = true)
      (transferSession sessionId) := by
  refine ⟨trivial, fun answer ha => ?_⟩
  cases answer with
  | none => exact fun s hs => by cases hs
  | some s =>
    obtain rfl := hsession sessionId s ha
    show Ensures _ _ _ (if _ then _ else _)
    split
    · exact fun s hs => by cases hs
    · next hsftp =>
      intro s' hs
      obtain rfl := Except.ok.inj hs
      exact ⟨rfl, by simpa using hsftp⟩

theorem assertLocalAllowed_ensures {context : PolicyContext} (hmode : context.mode = some .enforce)
    (hP : P (.localFiles context)) :
    Ensures Assume P
      (fun result => ∀ decision, result = .ok decision →
        ∃ files, Assume ⟨.localFiles context, files⟩ ∧ engine.PermitsWith files context)
      (assertLocalAllowed engine context) := by
  refine ⟨hP, fun files hfiles decision hdecision => ⟨files, hfiles, ?_⟩⟩
  obtain ⟨rfl, hpass⟩ := engine.assertAllowedWith_ok hdecision
  refine hpass.resolve_right ?_
  rw [engine.evaluateWith_mode, hmode]
  exact PolicyMode.noConfusion

theorem authorizeLocalReadPath_ensures {remotePath : String} (localPath : String) :
    Ensures Assume (UploadOperation engine Assume localPath remotePath)
      (fun result => ∀ path, result = .ok path → LocallyReadable engine Assume localPath)
      (authorizeLocalReadPath engine localPath .enforce) := by
  unfold authorizeLocalReadPath resolveLocalReadPath resolveAbsoluteLocalPath
  cases hvalid : validateLocalPathInput localPath with
  | error => exact fun path h => by cases h
  | ok =>
    refine ⟨.realpath _, fun answer hanswer => ?_⟩
    cases answer with
    | error => exact fun path h => by cases h
    | ok canonicalPath =>
      show Ensures _ _ _
        (assertLocalAllowed engine (localReadContext canonicalPath .enforce) >>= fun _ =>
          pure canonicalPath)
      refine Ensures.bind (assertLocalAllowed_ensures engine rfl (.files _))
        (fun decision hdecision path _ => ?_) fun _ _ path h => by cases h
      obtain ⟨files, hfiles, hpermits⟩ := hdecision decision rfl
      exact ⟨hvalid, canonicalPath, files, hanswer, hfiles, hpermits⟩

theorem performs_transferring {what : String} {body : Task TransferResult}
    (h : Performs Assume P body) : Performs Assume P (transferring what body) := by
  refine Performs.tryCatch h fun e => ?_
  cases e with
  | sshMcp => trivial
  | other => trivial
  | unfinished => trivial

/-- **What `uploadFileWithProgress` performs.** -/
theorem uploadFileWithProgress_performs (hsession : Looks Assume session)
    (localPath remotePath sessionId : String) :
    Performs Assume
      (Guarded engine session (pathContext .transferUpload remotePath session.policyMode) fun op =>
        session.sftp = true ∧ UploadOperation engine Assume localPath remotePath op)
      (uploadFileWithProgress engine config localPath remotePath sessionId) := by
  refine Ensures.bind ((transferSession_ensures hsession sessionId).weaken fun op h => .inl h)
    (fun s hs => ?_) fun _ _ => trivial
  obtain ⟨rfl, hsftp⟩ := hs s rfl
  have hmode : (pathContext .transferUpload remotePath s.policyMode).mode = some s.policyMode := rfl
  refine performs_guarded engine hmode (fun _ => trivial) fun hpermits henforce => ?_
  refine Ensures.weaken (P := UploadOperation engine Assume localPath remotePath) ?_
    fun op hop => .inr ⟨hpermits, henforce, hsftp, hop⟩
  rw [henforce]
  refine Ensures.bind (authorizeLocalReadPath_ensures engine localPath) (fun path hpath => ?_)
    fun _ _ => trivial
  refine ⟨.now, fun startTime _ => performs_transferring ?_⟩
  refine Performs.bind ⟨.stat _, fun _ _ => trivial⟩ fun totalSize => ?_
  split
  · trivial
  · refine Performs.bind ⟨.localRead _, fun _ _ => trivial⟩ fun fileContent => ?_
    refine Performs.bind ⟨.write (hpath path rfl) _, fun _ _ => trivial⟩ fun _ => ?_
    refine Performs.bind ⟨.read, fun _ _ => trivial⟩ fun remoteContent => ?_
    split
    · trivial
    · exact ⟨.now, fun _ _ => trivial⟩

end Ssh
