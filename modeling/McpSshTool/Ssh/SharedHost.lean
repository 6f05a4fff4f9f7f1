import McpSshTool.Library.Interleaving
import McpSshTool.Ssh.EnsurePerforms
import McpSshTool.Ssh.RemoteFiles

/-!
# A host that several requests work on

The remote host between requests that are under way at the same time: what an operation of one of
them may change, and what its answer tells.

* `SharedHost`, `Contents` — the host, and the contents of its files;
* `SharedHost.changes`, `SharedHost.Effect`, `SharedHost.shared` — what operations do. What goes
  wrong may leave anything in the files that an operation works on;
* `EditRequest` — the requests that edit a file, and what is run for them;
* `SharedHost.StagesWell` — what an operation has to meet for its own request;
* `comes_writeFile`, `comes_readFile`, `comes_execCommand`, `comes_execSudo` — what the services
  come to, whatever other requests do elsewhere.
-/

open Library

namespace Ssh

open Program

/-! ### The host -/

/-- The contents of the files of a host, by the texts of their paths. -/
abbrev Contents := String → Option (List UInt8)

/-- **A host** with its sessions. Its directories stay as they are. -/
structure SharedHost where
  sessions : String → Session
  isDirectory : String → Prop
  /-- What the SSH library hands over of the bytes that a command prints. -/
  deliver : List UInt8 → String
  /-- What `patch` may make of a file by the patch that it reads. -/
  patches : (diff : List UInt8) → (before after : Option (List UInt8)) → Prop

/-- The file names that the commands of a script are given as arguments. -/
def Script.arguments : Script → List String
  | cat path => [path]
  | write _ tempPath path _ => [tempPath, path]
  | move source target => [source, target]
  | patchDryRun path _ => [path]
  | patch path _ => [path]
  | discard file _ => [file]
  | _ => []

/-- No command takes a file name for an option, or for its standard input. -/
def Script.IsPlain (script : Script) : Prop :=
  ∀ name ∈ script.arguments, name.toList.head? ≠ some '-'

namespace SharedHost

variable (host : SharedHost)

/-- Where `mv` puts a file. -/
def places (source target : String) : Set String :=
  {path | path = target ∨ host.isDirectory target ∧ path = target ++ "/" ++ fileName source}

/-- The files that a script works on. Beside the file, `patch` may leave its old content and what it
could not apply. -/
def scriptFiles : Script → Set String
  | .which _ | .cat _ | .stat _ | .list _ | .patchDryRun _ _ | .inspect _ => ∅
  | .write _ tempPath path _ => {tempPath} ∪ host.places tempPath path
  | .move source target => {source} ∪ host.places source target
  | .patch path _ => {path, path ++ ".orig", path ++ ".rej"}
  | .discard file _ => {file}
  | _ => Set.univ

/-- The files that an operation works on. -/
def files : Operation → Set String
  | .exec script _ | .execWithin script _ _ | .execSudo script _ _ | .execStreaming script _ _ =>
    host.scriptFiles script
  | .sftpWriteFile path _ | .sftpMkdir path | .sftpChmod path _ => {path}
  | .sftpRmdir path | .sftpUnlink path => {path.text}
  | .sftpRename source target => {source, target}
  | _ => ∅

/-- **The files that an operation may change**: any, where an option is taken from a file name. -/
def changes (op : Operation) : Set String :=
  {path | (∃ script, op.script? = some script ∧ ¬script.IsPlain) ∨
    path ∈ host.files op ∧ ¬host.isDirectory path}

/-- What a script has done that has come to its end. -/
def ScriptEffect (s : Contents) (code : ℕ) (stdout : String) (s' : Contents) : Script → Prop
  | .cat path => code = 0 → ∃ content, s path = some content ∧ stdout = host.deliver content
  | .write data tempPath path _ => code = 0 → host.isDirectory path ∨
      ∃ content, (content <+: Utf8.encode data ∨ s tempPath = some content) ∧ s' path = some content
  | .move source target => code = 0 → host.isDirectory target ∨
      ∃ content, s source = some content ∧ s' target = some content
  | .patch path patchFile => code ≠ 0 ∧ s' path = s path ∨
      ¬host.isDirectory patchFile ∧
        ∃ diff, s patchFile = some diff ∧ host.patches diff (s path) (s' path)
  | _ => True

/-- The same of a command with its result. -/
def ResultEffect (s : Contents) (script : Script) (result : CommandResult) (s' : Contents) : Prop :=
  ∃ code, result.code = some code ∧
    (script.IsPlain → host.ScriptEffect s code result.stdout s' script)

/-- **What an operation has done that is answered so.** -/
def Effect : (op : Operation) → Contents → Answer op → Contents → Prop
  | .getSession sessionId, _, answer, _ => answer = none ∨ answer = some (host.sessions sessionId)
  | .exec script _, s, .ok result, s' => host.ResultEffect s script result s'
  | .execWithin script _ _, s, .ok (some result), s' => host.ResultEffect s script result s'
  | .execSudo script _ _, s, .ok (some result), s' => host.ResultEffect s script result s'
  | .sftpReadFile path, s, .ok bytes, _ => s path = some bytes
  | .sftpWriteFile path data, _, .ok (), s' => ¬host.isDirectory path ∧ s' path = some data
  | .sftpRename source target, s, .ok (), s' =>
    ¬host.isDirectory target ∧ ∃ content, s source = some content ∧ s' target = some content
  | .sftpChmod _ _, s, _, s' => s' = s
  | _, _, _, _ => True

/-- **The host** between the requests. -/
def shared : Shared Operation Answer String (Option (List UInt8)) where
  does op s answer s' := Set.EqOn s' s (host.changes op)ᶜ ∧ host.Effect op s answer s'
  changes := host.changes
  frame h := h.1

variable {host}

theorem notMem_changes_of_files {op : Operation} {path : String}
    (hplain : ∀ script, op.script? = some script → script.IsPlain) (h : path ∉ host.files op) :
    path ∉ host.changes op := by
  rintro (⟨script, hscript, hnot⟩ | ⟨hmem, -⟩)
  · exact hnot (hplain script hscript)
  · exact h hmem

theorem notMem_changes_of_directory {op : Operation} {path : String}
    (hplain : ∀ script, op.script? = some script → script.IsPlain) (h : host.isDirectory path) :
    path ∉ host.changes op := by
  rintro (⟨script, hscript, hnot⟩ | ⟨-, hfile⟩)
  · exact hnot (hplain script hscript)
  · exact hfile h

theorem mem_changes {op : Operation} {path : String} (h : path ∈ host.files op)
    (hfile : ¬host.isDirectory path) : path ∈ host.changes op := .inr ⟨h, hfile⟩

theorem eq_of_files_eq_empty {op : Operation} {s s' : Contents} {answer : Answer op}
    (hplain : ∀ script, op.script? = some script → script.IsPlain) (h : host.files op = ∅)
    (hdoes : host.shared.does op s answer s') : s' = s := by
  funext path
  refine host.shared.frame hdoes (notMem_changes_of_files hplain ?_)
  rw [h]
  exact Set.notMem_empty path

end SharedHost

/-! ### Requests -/

/-- A request that edits a file. -/
inductive EditRequest where
  | lines (sessionId path : String) (wanted : List String) (createIfMissing : Bool)
      (state : Presence)
  | patch (sessionId path diff : String)

namespace EditRequest

/-- The file that is edited. -/
def target : EditRequest → String
  | lines _ path _ _ _ => path
  | patch _ path _ => path

def sessionId : EditRequest → String
  | lines sessionId _ _ _ _ => sessionId
  | patch sessionId _ _ => sessionId

def IsPatch : EditRequest → Prop
  | lines _ _ _ _ _ => False
  | patch _ _ _ => True

/-- **What is run for a request**, and whether it reports success. -/
def run {rt : Runtime} (engine : PolicyEngine rt) (config : ServerConfig) : EditRequest → Task Bool
  | lines sessionId path wanted createIfMissing state => do
    let result ← ensureLinesInFile engine config sessionId path wanted createIfMissing state
    pure result.ok
  | patch sessionId path diff => do
    let result ← applyPatch engine config sessionId path diff
    pure result.ok

end EditRequest

/-- **An operation that stages well**: no file name is taken for an option, the temporary file of a
write through the shell is a new one, no directory is moved, and a patch keeps its own file and the
file that it is for apart. -/
structure SharedHost.StagesWell (host : SharedHost) (request : EditRequest) (s : Contents)
    (op : Operation) : Prop where
  plain : ∀ script, op.script? = some script → script.IsPlain
  fresh : ∀ data tempPath path mode, op.script? = some (.write data tempPath path mode) →
    s tempPath = none
  source : ∀ source target, op.script? = some (.move source target) → ¬host.isDirectory source
  target : request.IsPatch → request.target ∈ host.changes op →
    ∃ patchFile, op.script? = some (.patch request.target patchFile)
  patchFile : ∀ path patchFile, op.script? = some (.patch path patchFile) →
    patchFile ∉ host.changes op

/-! ### Services between other requests -/

/-- The property is about the files that are held. -/
def Supported (held : Set String) (I : Contents → Prop) : Prop :=
  ∀ t t', Set.EqOn t' t held → I t → I t'

section Services

variable {rt : Runtime} {engine : PolicyEngine rt} {config : ServerConfig} {host : SharedHost}
variable {request : EditRequest} {held : Set String} {s : Contents} {I : Contents → Prop}
variable {α : Type} {Q : Set String → Contents → Except Failure α → Prop}

theorem supported_at {path : String} (h : path ∈ held) (P : Option (List UInt8) → Prop) :
    Supported held fun t => P (t path) := by
  intro t t' heq ht
  rw [heq h]
  exact ht

theorem Supported.mono {held' : Set String} (h : Supported held I) (hheld : held ⊆ held') :
    Supported held' I := fun t t' heq => h t t' (heq.mono hheld)

theorem Supported.and {J : Contents → Prop} (h : Supported held I) (h' : Supported held J) :
    Supported held fun t => I t ∧ J t :=
  fun t t' heq ht => ⟨h t t' heq ht.1, h' t t' heq ht.2⟩

/-- What a request comes to on the host. -/
abbrev SharedHost.Comes (host : SharedHost) (request : EditRequest)
    (Q : Set String → Contents → Except Failure α → Prop) (p : Task α) (held : Set String)
    (s : Contents) : Prop :=
  host.shared.Rely (host.StagesWell request) Q p held s

/-- An operation that works on no file. -/
theorem comes_quiet {op : Operation} {rest : Answer op → Task α} (hfiles : host.files op = ∅)
    (hI : Supported held I) (hs : I s)
    (hrest : ∀ t answer, I t → host.StagesWell request t op → host.Effect op t answer t →
      host.Comes request Q (rest answer) held t) :
    host.Comes request Q (.perform op rest) held s := by
  intro t ht hallow answer t' hdoes
  obtain rfl := SharedHost.eq_of_files_eq_empty hallow.plain hfiles hdoes
  have hnone : host.changes op = ∅ := by
    refine Set.eq_empty_of_forall_notMem fun path => ?_
    refine SharedHost.notMem_changes_of_files hallow.plain ?_
    rw [hfiles]
    exact Set.notMem_empty path
  change host.shared.Rely _ _ _ (held ∪ host.changes op) _
  rw [hnone, Set.union_empty]
  exact hrest _ answer (hI s _ ht hs) hallow hdoes.2

theorem comes_of_performs {p : Task α}
    (hp : Performs (fun _ => True) (fun op => host.files op = ∅) p) (hI : Supported held I)
    (hs : I s) : host.Comes request (fun held' t _ => held ⊆ held' ∧ I t) p held s := by
  refine (Shared.rely_invariant hp (fun _ _ _ _ _ _ => trivial) hI ?_ hs).mono
    fun _ _ _ h => ⟨h.1, h.2.1⟩
  intro op t answer t' hfiles hallow hdoes ht
  rw [SharedHost.eq_of_files_eq_empty hallow.plain hfiles hdoes]
  exact ht

theorem comes_sessionOr {missing : Failure} {sessionId : String} {f : Session → Task α}
    (hI : Supported held I) (hs : I s) (hmissing : ∀ t, I t → Q held t (.error missing))
    (hf : ∀ t, I t → host.Comes request Q (f (host.sessions sessionId)) held t) :
    host.Comes request Q (sessionOr missing sessionId >>= f) held s := by
  refine comes_quiet rfl hI hs fun t answer ht _ heffect => ?_
  rcases heffect with rfl | rfl
  · exact hmissing t ht
  · exact hf t ht

theorem comes_ofExcept {β : Type} {result : Except Failure β} {f : β → Task α}
    (herror : ∀ e, Q held s (.error e)) (hok : ∀ b, host.Comes request Q (f b) held s) :
    host.Comes request Q (ofExcept result >>= f) held s := by
  cases result with
  | ok b => exact hok b
  | error e => exact herror e

/-- A script through the shell. -/
theorem comes_execFallback {sessionId : String} {script : Script} {J : String → Contents → Prop}
    (hI : Supported held I) (hs : I s)
    (hJ : ∀ t t' sent stdout, I t → host.StagesWell request t (.exec script sent) →
      Set.EqOn t' t (host.changes (.exec script sent))ᶜ → host.ScriptEffect t 0 stdout t' script →
        J stdout t') :
    host.Comes request (fun held' t result => held ⊆ held' ∧ ∀ output, result = .ok output →
      host.changes (.exec script "") ⊆ held' ∧ J output t) (execFallback sessionId script)
        held s := by
  have herror : ∀ t (e : Failure), held ⊆ held ∧ ∀ output : String, Except.error e = .ok output →
      host.changes (.exec script "") ⊆ held ∧ J output t :=
    fun _ _ => ⟨subset_rfl, fun _ h => nomatch h⟩
  refine comes_sessionOr hI hs (fun t _ => herror t _) fun t ht => ?_
  refine comes_quiet rfl hI ht fun t answer ht _ _ => ?_
  refine comes_ofExcept (herror t) fun osInfo => comes_ofExcept (herror t) fun sent => ?_
  intro u hu hallow answer u' hdoes
  have hheld : held ⊆ held ∪ host.shared.changes (.exec script sent) := Set.subset_union_left
  cases answer with
  | error => exact ⟨hheld, fun _ h => nomatch h⟩
  | ok result =>
    obtain ⟨hframe, code, hcode, heffect⟩ := hdoes
    change host.Comes request _ (if result.code.getD 0 ≠ 0 then _ else _) _ _
    rw [hcode, Option.getD_some]
    split
    · exact ⟨hheld, fun _ h => nomatch h⟩
    · next hzero =>
      obtain rfl := not_ne_iff.mp hzero
      refine ⟨hheld, fun output houtput => ⟨Set.subset_union_right, ?_⟩⟩
      obtain rfl := Except.ok.inj houtput
      exact hJ u u' sent _ (hI t u hu ht) hallow hframe (heffect (hallow.plain script rfl))

/-- A decision that is looked at. -/
theorem comes_guarded {context : PolicyContext} {mode : PolicyMode}
    (hmode : context.mode = some mode) {explained : PolicyDecision → Task α} {body : Task α}
    (hdenied : ∀ e, Q held s (.error e))
    (hexplained : mode = .explain → ∀ decision, host.Comes request Q (explained decision) held s)
    (hbody : mode = .enforce → host.Comes request Q body held s) :
    host.Comes request Q (ofExcept (engine.assertAllowed context) >>= fun decision =>
      if decision.mode = .explain then explained decision else body) held s := by
  cases hassert : engine.assertAllowed context with
  | error e => exact hdenied e
  | ok =>
    obtain ⟨rfl, -⟩ := engine.assertAllowedWith_ok hassert
    change host.Comes request Q (if _ then _ else _) held s
    rw [engine.evaluateWith_mode, hmode, Option.getD_some]
    cases mode with
    | explain =>
      rw [if_pos rfl]
      exact hexplained rfl _
    | enforce =>
      rw [if_neg PolicyMode.noConfusion]
      exact hbody rfl

/-! ### Writes -/

/-- The file has the data, or the first part of them. -/
def HasPart (data : String) (content : Option (List UInt8)) : Prop :=
  ∃ part, part <+: Utf8.encode data ∧ content = some part

/-- A write over SFTP. -/
theorem comes_sftpReplaceFile {path tempPath data : String} :
    host.Comes request (fun held' t result => held ⊆ held' ∧ ∀ b, result = .ok b →
        path ∈ held' ∧ HasPart data (t path))
      (sftpReplaceFile path tempPath (Utf8.encode data) none) held s := by
  refine Shared.Rely.tryCatch (Q := fun held' t result => held ⊆ held' ∧ ∀ b, result = .ok b →
    path ∈ held' ∧ HasPart data (t path)) ?_ (fun _ _ _ h => h) fun held' t e h => ?_
  · intro t _ _ answer t' hdoes
    have hheld : held ⊆ held ∪ host.changes (.sftpWriteFile tempPath (Utf8.encode data)) :=
      Set.subset_union_left
    cases answer with
    | error => exact ⟨hheld, fun _ h => nomatch h⟩
    | ok answer =>
      obtain ⟨-, hfile, hwritten⟩ := hdoes
      intro u hu _ answer u' hdoes
      cases answer with
      | error => exact ⟨hheld.trans Set.subset_union_left, fun _ h => nomatch h⟩
      | ok =>
        obtain ⟨-, hpath, content, hcontent, hmoved⟩ := hdoes
        -- the file that is moved is the one that was written
        rw [hu (.inr (SharedHost.mem_changes rfl hfile)), hwritten] at hcontent
        obtain rfl := Option.some.inj hcontent
        refine ⟨hheld.trans Set.subset_union_left, fun _ _ => ⟨.inr ?_, ?_⟩⟩
        · exact SharedHost.mem_changes (.inr rfl) hpath
        · exact ⟨_, List.prefix_rfl, hmoved⟩
  · -- what has failed is cleaned up, and thrown
    intro u _ _ answer u' _
    have hheld : held ⊆ held' ∪ host.changes (.sftpUnlink tempPath) :=
      h.1.trans Set.subset_union_left
    cases answer with
    | error => exact ⟨hheld, fun _ h => nomatch h⟩
    | ok => exact ⟨hheld, fun _ h => nomatch h⟩

/-- **A write**: in mode `explain` nothing is done, and else the file has what was written. -/
theorem comes_writeFile {sessionId path data : String} (hI : Supported held I) (hs : I s) :
    host.Comes request (fun held' t result => held ⊆ held' ∧
        ((host.sessions sessionId).policyMode = .explain → I t) ∧
        ((host.sessions sessionId).policyMode = .enforce → ∀ b, result = .ok b →
          host.isDirectory path ∨ path ∈ held' ∧ HasPart data (t path)))
      (writeFile engine config sessionId path data) held s := by
  have herror : ∀ held' t (e : Failure), held ⊆ held' → I t → held ⊆ held' ∧
      ((host.sessions sessionId).policyMode = .explain → I t) ∧
      ((host.sessions sessionId).policyMode = .enforce → ∀ b : Bool, Except.error e = .ok b →
        host.isDirectory path ∨ path ∈ held' ∧ HasPart data (t path)) :=
    fun _ _ _ hheld ht => ⟨hheld, fun _ => ht, fun _ _ h => nomatch h⟩
  refine comes_sessionOr hI hs (fun t ht => herror held t _ subset_rfl ht) fun t ht => ?_
  refine Shared.Rely.tryCatch (Q := fun held' t result => held ⊆ held' ∧
    ((host.sessions sessionId).policyMode = .explain → I t) ∧
    ((host.sessions sessionId).policyMode = .enforce → ∀ b, result = .ok b →
      host.isDirectory path ∨ path ∈ held' ∧ HasPart data (t path))) ?_ (fun _ _ _ h => h)
    fun _ _ _ h => ⟨h.1, h.2.1, fun _ _ h => nomatch h⟩
  refine comes_guarded rfl (fun e => herror held t e subset_rfl ht) (fun hexplain _ => ?_) ?_
  · refine ⟨subset_rfl, fun _ => ht, fun henforce => ?_⟩
    rw [hexplain] at henforce
    cases henforce
  intro henforce
  split
  · exact herror held t _ subset_rfl ht
  refine comes_quiet rfl hI ht fun t uuid ht _ _ => ?_
  -- past the checks, all that is left is the write in mode `enforce`
  have hdone : ∀ held' t' (result : Except Failure Bool), (held ⊆ held' ∧ ∀ b, result = .ok b →
      host.isDirectory path ∨ path ∈ held' ∧ HasPart data (t' path)) → held ⊆ held' ∧
        ((host.sessions sessionId).policyMode = .explain → I t') ∧
        ((host.sessions sessionId).policyMode = .enforce → ∀ b, result = .ok b →
          host.isDirectory path ∨ path ∈ held' ∧ HasPart data (t' path)) := by
    intro held' t' result h
    refine ⟨h.1, fun hexplain => ?_, fun _ => h.2⟩
    rw [henforce] at hexplain
    cases hexplain
  change host.Comes request _ (if _ then _ else _) held t
  split
  · refine Shared.Rely.bind (comes_execFallback (J := fun _ t =>
      host.isDirectory path ∨ HasPart data (t path)) hI ht ?_) ?_ ?_
    · intro t t' sent stdout _ hallow _ heffect
      rcases heffect rfl with hdirectory | ⟨content, hcontent, hmoved⟩
      · exact .inl hdirectory
      · refine .inr ⟨content, hcontent.resolve_right fun hstale => ?_, hmoved⟩
        rw [hallow.fresh _ _ _ _ rfl] at hstale
        cases hstale
    · intro held' t' output h
      refine hdone held' t' _ ⟨h.1, fun _ _ => ?_⟩
      obtain ⟨hheld, hdirectory | hpart⟩ := h.2 output rfl
      · exact .inl hdirectory
      · by_cases hdirectory : host.isDirectory path
        · exact .inl hdirectory
        · exact .inr ⟨hheld (SharedHost.mem_changes (.inr (.inl rfl)) hdirectory), hpart⟩
    · exact fun held' t' e h => hdone held' t' _ ⟨h.1, fun _ h => nomatch h⟩
  · refine comes_sftpReplaceFile.mono fun held' t' result h => ?_
    exact hdone held' t' result ⟨h.1, fun b hb => .inr (h.2 b hb)⟩

/-- The operation applies no patch. -/
def Operation.LeavesTarget (op : Operation) : Prop :=
  ∀ path patchFile, op.script? ≠ some (.patch path patchFile)

theorem comes_leavesTarget {p : Task α} (hp : Performs (fun _ => True) Operation.LeavesTarget p)
    (hpatch : request.IsPatch) (htarget : request.target ∈ held) :
    host.Comes request (fun held' t _ => held ⊆ held' ∧ t request.target = s request.target) p held
      s := by
  refine (Shared.rely_invariant hp (fun _ _ _ _ _ _ => trivial)
    (supported_at htarget (· = s request.target)) ?_ rfl).mono fun _ _ _ h => ⟨h.1, h.2.1⟩
  intro op t answer t' hleaves hallow hdoes ht
  refine (hdoes.1 fun hchanged => ?_).trans ht
  obtain ⟨patchFile, hscript⟩ := hallow.target hpatch hchanged
  exact hleaves _ _ hscript

theorem writeFile_leavesTarget {sessionId path data : String} :
    Performs (fun _ => True) Operation.LeavesTarget
      (writeFile engine config sessionId path data) := by
  refine ⟨nofun, fun answer _ => ?_⟩
  cases answer with
  | none => trivial
  | some session =>
    refine performs_wrapping (performs_guarded engine rfl (fun _ => trivial) fun _ _ => ?_)
    split
    · trivial
    have hsend : Performs (fun _ => True)
        (WriteOperation (fun _ => True) session.sftp sessionId path data)
        (sendWrite session sessionId path data none) :=
      sendWrite_performs session sessionId path data none
    refine Ensures.weaken hsend fun op hop => ?_
    cases hop with
    | randomUUID => exact nofun
    | shell _ _ hop =>
      cases hop with
      | getSession => exact nofun
      | getOSInfo => exact nofun
      | exec => exact nofun
    | write => exact nofun
    | chmod => exact nofun
    | rename => exact nofun
    | unlink => exact nofun

/-! ### Commands -/

/-- What a command has come to: nothing in mode `explain`, and else what its script has done. -/
def CommandComes (mode : PolicyMode) (script : Script) (host : SharedHost) (held : Set String)
    (I : Contents → Prop) (J : ℕ → Contents → Prop) (held' : Set String) (t : Contents)
    (result : Except Failure ExecResult) : Prop :=
  held ⊆ held' ∧ (mode = .explain → I t) ∧ (mode = .enforce → ∀ r, result = .ok r →
    host.changes (.exec script "") ⊆ held' ∧ J r.code t)

section Commands

variable {script : Script} {J : ℕ → Contents → Prop} {sessionId : String}

theorem commandComes_error {mode : PolicyMode} {held' : Set String} {t : Contents} (e : Failure)
    (hheld : held ⊆ held') (ht : mode = .explain → I t) :
    CommandComes mode script host held I J held' t (.error e) :=
  ⟨hheld, ht, fun _ _ h => nomatch h⟩

/-- What a command has to pass: the session is there, and the decision permits it and is
enforced. -/
theorem comes_guardedCommand {missing : Failure} {context : Session → PolicyContext}
    {explained : PolicyDecision → ExecResult} {body : Session → Task ExecResult}
    (hI : Supported held I) (hs : I s)
    (hmode : ∀ session, (context session).mode = some session.policyMode)
    (hbody : ∀ t, I t →
      (∀ t, (host.sessions sessionId).policyMode = .explain → I t) →
      host.Comes request (CommandComes (host.sessions sessionId).policyMode script host held I J)
        (body (host.sessions sessionId)) held t) :
    host.Comes request (CommandComes (host.sessions sessionId).policyMode script host held I J)
      (sessionOr missing sessionId >>= fun session =>
        ofExcept (engine.assertAllowed (context session)) >>= fun decision =>
          if decision.mode = .explain then pure (explained decision) else body session) held s := by
  refine comes_sessionOr hI hs (fun t ht => commandComes_error _ subset_rfl fun _ => ht)
    fun t ht => ?_
  refine comes_guarded (hmode _) (fun e => commandComes_error e subset_rfl fun _ => ht) ?_
    fun henforce => hbody t ht fun t h => ?_
  · intro hexplain _
    refine ⟨subset_rfl, fun _ => ht, fun henforce => ?_⟩
    rw [hexplain] at henforce
    cases henforce
  · rw [henforce] at h
    cases h

/-- **A command.** -/
theorem comes_execCommand (hI : Supported held I) (hs : I s)
    (hsupported : ∀ code, Supported (held ∪ host.changes (.exec script "")) (J code))
    (hJ : ∀ t t' op code stdout, op.script? = some script → I t → host.StagesWell request t op →
      Set.EqOn t' t (host.changes op)ᶜ → host.ScriptEffect t code stdout t' script → J code t') :
    host.Comes request
      (CommandComes (host.sessions sessionId).policyMode script host held I J)
      (execCommand engine config sessionId script) held s := by
  refine comes_guardedCommand hI hs (fun _ => rfl) fun t ht hexplain => ?_
  refine comes_quiet rfl hI ht fun t answer ht _ _ => ?_
  refine comes_ofExcept (fun e => commandComes_error e subset_rfl (hexplain t)) fun osInfo => ?_
  refine comes_quiet rfl hI ht fun t started ht _ _ => ?_
  refine Shared.Rely.tryCatch
    (Q := CommandComes (host.sessions sessionId).policyMode script host held I J) ?_
    (fun _ _ _ h => h) fun held' t e h => ?_
  · refine comes_ofExcept (fun e => commandComes_error e subset_rfl (hexplain t)) fun sent => ?_
    intro u hu hallow answer u' hdoes
    have hheld : held ⊆ held ∪ host.changes (.exec script "") := Set.subset_union_left
    cases answer with
    | error e => exact commandComes_error e hheld (hexplain _)
    | ok outcome =>
      cases outcome with
      | none => exact commandComes_error _ hheld (hexplain _)
      | some =>
        obtain ⟨hframe, code, hcode, heffect⟩ := hdoes
        have hdone := hJ u u' _ code _ rfl (hI t u hu ht) hallow hframe
          (heffect (hallow.plain script rfl))
        have hnow : host.files .now = ∅ := rfl
        refine comes_quiet hnow (hsupported code) hdone fun u' finished hu' _ _ => ?_
        change host.Comes request _ (if _ then _ else _) _ _
        rw [hcode, Option.getD_some]
        split
        · exact commandComes_error _ hheld (hexplain _)
        · refine ⟨hheld, hexplain _, fun _ r hr => ⟨Set.subset_union_right, ?_⟩⟩
          obtain rfl := Except.ok.inj hr
          exact hu'
  · change host.Comes request _ (if _ then _ else _) held' t
    split
    · exact commandComes_error _ h.1 h.2.1
    · exact commandComes_error _ h.1 h.2.1

/-- **A command under sudo.** -/
theorem comes_execSudo {options : SudoPolicyOptions} (hI : Supported held I) (hs : I s)
    (hsupported : ∀ code, Supported (held ∪ host.changes (.exec script "")) (J code))
    (hJ : ∀ t t' op code stdout, op.script? = some script → I t → host.StagesWell request t op →
      Set.EqOn t' t (host.changes op)ᶜ → host.ScriptEffect t code stdout t' script → J code t') :
    host.Comes request
      (CommandComes (host.sessions sessionId).policyMode script host held I J)
      (execSudo engine config sessionId script none none none options) held s := by
  refine comes_guardedCommand hI hs (fun _ => rfl) fun t ht hexplain => ?_
  refine comes_quiet rfl hI ht fun t answer ht _ _ => ?_
  refine comes_ofExcept (fun e => commandComes_error e subset_rfl (hexplain t)) fun osInfo => ?_
  split
  · exact commandComes_error _ subset_rfl (hexplain t)
  refine comes_quiet rfl hI ht fun t started ht _ _ => ?_
  refine Shared.Rely.tryCatch
    (Q := CommandComes (host.sessions sessionId).policyMode script host held I J) ?_
    (fun _ _ _ h => h) fun held' t e h => ?_
  · rw [if_neg (show ¬(none : Option String).isSome = true from nofun)]
    refine comes_ofExcept (fun e => commandComes_error e subset_rfl (hexplain t)) fun sent => ?_
    intro u hu hallow answer u' hdoes
    have hheld : held ⊆ held ∪ host.changes (.exec script "") := Set.subset_union_left
    cases answer with
    | error e => exact commandComes_error e hheld (hexplain _)
    | ok outcome =>
      cases outcome with
      | none => exact commandComes_error _ hheld (hexplain _)
      | some result =>
        obtain ⟨hframe, code, hcode, heffect⟩ := hdoes
        have hdone := hJ u u' _ code _ rfl (hI t u hu ht) hallow hframe
          (heffect (hallow.plain script rfl))
        change host.Comes request _ (if _ then _ else _) _ _
        split
        · exact commandComes_error _ hheld (hexplain _)
        have hnow : host.files .now = ∅ := rfl
        refine comes_quiet hnow (hsupported code) hdone fun u' finished hu' _ _ => ?_
        refine ⟨hheld, hexplain _, fun _ r hr => ⟨Set.subset_union_right, ?_⟩⟩
        obtain rfl := Except.ok.inj hr
        rw [show (result.code.getD 0) = code by rw [hcode, Option.getD_some]]
        exact hu'
  · change host.Comes request _ (if _ then _ else _) held' t
    split
    · exact commandComes_error _ h.1 h.2.1
    · split
      · exact commandComes_error _ h.1 h.2.1
      · exact commandComes_error _ h.1 h.2.1

/-- What a command performs, in any session. -/
theorem execCommand_performs_any {P : Operation → Prop}
    (hsession : P (.getSession sessionId)) (hos : P (.getOSInfo sessionId)) (hnow : P .now)
    (hexec : ∀ sent timeoutMs, P (.execWithin script sent timeoutMs)) :
    Performs (fun _ => True) P (execCommand engine config sessionId script) := by
  refine ⟨hsession, fun answer _ => ?_⟩
  cases answer with
  | none => trivial
  | some =>
    refine performs_guarded engine rfl (fun _ => trivial) fun _ _ => ?_
    refine ⟨hos, fun answer _ => performs_ofExcept_bind fun osInfo _ => ?_⟩
    refine ⟨hnow, fun started _ => ?_⟩
    refine Performs.tryCatch (performs_ofExcept_bind fun sent _ => ?_) fun e => ?_
    · refine ⟨hexec _ _, fun answer _ => performs_ofExcept_bind fun outcome _ => ?_⟩
      cases outcome with
      | none => trivial
      | some =>
        refine ⟨hnow, fun _ _ => ?_⟩
        change Performs _ _ (if _ then _ else _)
        split
        · trivial
        · trivial
    · split
      · trivial
      · trivial

theorem quiet_execCommand (hscript : host.scriptFiles script = ∅) :
    Performs (fun _ => True) (fun op => host.files op = ∅)
      (execCommand engine config sessionId script) :=
  execCommand_performs_any rfl rfl rfl fun _ _ => hscript

theorem quiet_commandExists {command : String} :
    Performs (fun _ => True) (fun op => host.files op = ∅)
      (commandExists engine config sessionId command) :=
  Performs.tryCatch (Performs.bind (quiet_execCommand rfl) fun _ => trivial) fun _ => trivial

end Commands

/-! ### Reads -/

/-- What the content of a file is read as. -/
def SharedHost.Reads (host : SharedHost) (rt : Runtime) (content : List UInt8)
    (text : String) : Prop :=
  text = rt.bufferText "utf8" content ∨ text = host.deliver content

theorem quiet_statFileInternal {sessionId path : String} :
    Performs (fun _ => True) (fun op => host.files op = ∅)
      (statFileInternal rt sessionId path) := by
  refine (statFileInternal_performs rt sessionId path).weaken fun op hop => ?_
  cases hop with
  | shell hscript hop =>
    cases hop with
    | getSession => rfl
    | getOSInfo => rfl
    | exec =>
      rcases hscript with rfl | rfl | rfl
      · rfl
      · rfl
      · rfl
  | getSession => rfl
  | now => rfl
  | stat => rfl
  | read => rfl
  | readdir => rfl

theorem quiet_pathExists {sessionId path : String} :
    Performs (fun _ => True) (fun op => host.files op = ∅) (pathExists engine sessionId path) := by
  refine Performs.tryCatch (Performs.bind ?_ fun _ => trivial) fun _ => trivial
  refine ⟨rfl, fun answer _ => ?_⟩
  cases answer with
  | none => trivial
  | some =>
    refine performs_wrapping (performs_ofExcept_bind fun _ _ => ?_)
    exact quiet_statFileInternal

/-- **A read** of a file that is held. -/
theorem comes_readFile {sessionId path : String} (hpath : path ∈ held) :
    host.Comes request (fun held' t result => held ⊆ held' ∧ ∀ text, result = .ok text →
        t path = s path ∧ ∃ content, s path = some content ∧ host.Reads rt content text)
      (readFile engine config sessionId path) held s := by
  have hI : ∀ held', held ⊆ held' → Supported held' fun t => t path = s path :=
    fun held' hheld => supported_at (hheld hpath) (· = s path)
  have herror : ∀ (held' : Set String) (t : Contents) (e : Failure), held ⊆ held' → held ⊆ held' ∧
      ∀ text : String, Except.error e = .ok text →
        t path = s path ∧ ∃ content, s path = some content ∧ host.Reads rt content text :=
    fun _ _ _ hheld => ⟨hheld, fun _ h => nomatch h⟩
  refine comes_sessionOr (hI held subset_rfl) rfl (fun t _ => herror held t _ subset_rfl)
    fun t ht => ?_
  refine Shared.Rely.tryCatch (Q := fun held' t result => held ⊆ held' ∧ ∀ text, result = .ok text →
    t path = s path ∧ ∃ content, s path = some content ∧ host.Reads rt content text) ?_
    (fun _ _ _ h => h) fun held' t e h => herror held' t _ h.1
  refine comes_ofExcept (fun e => herror held t e subset_rfl) fun _ => ?_
  refine Shared.Rely.bind (comes_of_performs quiet_statFileInternal (hI held subset_rfl) ht) ?_
    fun held' t e h => herror held' t e h.1
  rintro held' t stats ⟨hheld, ht⟩
  change host.Comes request _ (if _ then _ else _) held' t
  split
  · exact herror held' t _ hheld
  split
  · refine (comes_execFallback (J := fun text t => t path = s path ∧
      ∃ content, s path = some content ∧ host.Reads rt content text) (hI held' hheld) ht ?_).mono ?_
    · intro t t' sent stdout ht hallow hframe heffect
      obtain ⟨content, hcontent, htext⟩ := heffect rfl
      have hsame : t' path = t path :=
        hframe (SharedHost.notMem_changes_of_files hallow.plain (Set.notMem_empty path))
      exact ⟨hsame.trans ht, content, ht ▸ hcontent, .inr htext⟩
    · intro held'' t result h
      exact ⟨hheld.trans h.1, fun text htext => (h.2 text htext).2⟩
  · refine comes_quiet rfl (hI held' hheld) ht fun t answer ht _ heffect => ?_
    cases answer with
    | error e => exact herror held' t e hheld
    | ok bytes =>
      refine ⟨hheld, fun text htext => ⟨ht, bytes, ht ▸ heffect, .inl ?_⟩⟩
      exact (Except.ok.inj htext).symm

end Services

end Ssh
