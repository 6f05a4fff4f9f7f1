import McpSshTool.Ssh.CallReaches
import McpSshTool.Ssh.WriteAtomic

/-!
# Where files are changed

The structured requests that change the files of a host, and the prefixes that a policy allows for
it.

* `Operation.Displaces` — the locations where an operation overwrites, moves or deletes;
* `FileChange`, `StaysConfined` — the requests, and that all of it is under an allow prefix and
  under no deny prefix;
* `FileChange.Displaces` — the locations where a request does, with SFTP and without;
* `FileChange.CarriedOut`, `FileChange.Secure` — the request gets past the checks, and its paths are
  where they should be;
* `stays_confined_iff` — **when a request stays within the prefixes**.

The scripts have no `--`. What `mv` does that reads a word as options is a parameter.
-/

open Library LexicalPath

namespace Ssh

open Program

/-! ### What is displaced -/

/-- The location of a path, with the names of listed entries as they are. -/
def RemotePath.location (path : RemotePath) : List Segment :=
  policyLocation path.base ++ path.names.map String.toList

/-- The name under which `mv` puts something into a directory: the last one of its path. -/
def memberName (source : String) : Option Segment :=
  let name := ((source.toList.reverse.dropWhile (· = '/')).takeWhile (· ≠ '/')).reverse
  if name = [] ∨ name = ['.'] ∨ name = ['.', '.'] then none else some name

/-- Where `mv` puts something if the target is a directory. -/
def landing (source target : String) : List Segment :=
  policyLocation target ++ (memberName source).toList

section Displaced

-- The locations that `mv` displaces where it reads a word as options.
variable (optioned : String → String → List Segment → Prop) (l : List Segment)

/-- The locations where a script overwrites, moves or deletes. With a directory goes all that is
beneath it. Of a path that it reads as options, `rm` deletes nothing. -/
def Script.Displaces : Script → Prop
  | .write _ tempPath path _ => policyLocation tempPath <+: l ∨
      if isOption path then optioned tempPath path l else l = policyLocation path
  | .move source target =>
    if isOption source ∨ isOption target then optioned source target l
    else policyLocation source <+: l ∨ l = policyLocation target ∨ l = landing source target
  | .remove path => isOption path = false ∧ policyLocation path <+: l
  | .patch path _ => l = policyLocation path
  | .discard file _ => l = policyLocation file
  | .which _ | .cat _ | .stat _ | .list _ | .mkdir _ | .patchDryRun _ _ | .inspect _ => False
  | _ => True

/-- **The locations where an operation overwrites, moves or deletes.** -/
def Operation.Displaces : Operation → Prop
  | .exec script _ | .execSudo script _ _ | .execWithin script _ _ | .execStreaming script _ _ =>
    script.Displaces optioned l
  | .sftpWriteFile path _ => l = policyLocation path
  | .sftpRename source target => policyLocation source <+: l ∨ l = policyLocation target
  | .sftpUnlink path | .sftpRmdir path => l = path.location
  | _ => False

end Displaced

/-- A text as `randomUUID` makes them: hexadecimal digits in five groups. -/
def IsUuid (uuid : String) : Prop :=
  uuid.toList.map (fun c => if c ∈ "0123456789abcdef".toList then 'x' else c) =
    "xxxxxxxx-xxxx-xxxx-xxxx-xxxxxxxxxxxx".toList

theorem isUuid_zero : IsUuid "00000000-0000-4000-8000-000000000000" := by
  unfold IsUuid
  decide +kernel

/-- The session of a request is this one, as long as there is one, and UUIDs are such. -/
def Answers (session : Session) : Event → Prop
  | ⟨.getSession _, answer⟩ => answer = none ∨ answer = some session
  | ⟨.randomUUID, uuid⟩ => IsUuid uuid
  | _ => True

/-! ### Requests -/

/-- A structured request that changes files of the host. -/
inductive FileChange where
  | write (path data : String) (mode : Option ℕ)
  | mkdir (path : String)
  | rename (source target : String)
  | remove (path : String)
  | upload (localPath remotePath : String)

namespace FileChange

/-- The request to the service, where a removal goes to a depth. -/
def request (depth : ℕ) (sessionId : String) : FileChange → ServiceRequest
  | write path data mode => .writeFile sessionId path data mode
  | mkdir path => .makeDirectories sessionId path
  | rename source target => .renameFile sessionId source target
  | remove path => .removeRecursive depth sessionId path
  | upload localPath remotePath => .upload localPath remotePath sessionId

/-- The context of the decision. -/
def context (mode : PolicyMode) : FileChange → PolicyContext
  | write path _ _ => pathContext .fsWrite path mode
  | mkdir path => pathContext .fsMkdir path mode
  | rename source target => renameContext source target mode
  | remove path => removeContext path mode
  | upload _ remotePath => pathContext .transferUpload remotePath mode

end FileChange

section

variable {rt : Runtime} (engine : PolicyEngine rt) (config : ServerConfig) (session : Session)
variable (optioned : String → String → List Segment → Prop)

/-- **A request stays confined**: all that is overwritten, moved or deleted in any run is under an
allow prefix and under no deny prefix. -/
def StaysConfined (change : FileChange) : Prop :=
  ∀ depth sessionId, Always (Answers session) (fun op => ∀ l, op.Displaces optioned l →
    engine.Confines l)
    ((change.request depth sessionId).task engine config)

/-- **The locations that a request displaces** in a session, with any UUID. -/
def FileChange.Displaces (l : List Segment) : FileChange → Prop
  | .write path _ _ => (∃ uuid, IsUuid uuid ∧ policyLocation (tempPathFor path uuid) <+: l) ∨
      if session.sftp = false ∧ isOption path = true then
        ∃ uuid, IsUuid uuid ∧ optioned (tempPathFor path uuid) path l
      else l = policyLocation path
  | .mkdir _ => False
  | .rename source target =>
    if session.sftp = false ∧ (isOption source = true ∨ isOption target = true) then
      optioned source target l
    else policyLocation source <+: l ∨ l = policyLocation target ∨
      session.sftp = false ∧ l = landing source target
  | .remove path => ¬(session.sftp = false ∧ isOption path = true) ∧ policyLocation path <+: l
  | .upload _ remotePath => l = policyLocation remotePath

/-- **A request gets past the checks**: it is permitted and not only explained, a payload fits, and
an upload has a channel and a local file that may be read. -/
def FileChange.CarriedOut (change : FileChange) : Prop :=
  engine.Permits (change.context .enforce) ∧ session.policyMode = .enforce ∧
    match change with
    | .write _ data _ => data.utf8ByteSize ≤ config.maxFileWriteBytes
    | .upload localPath _ =>
      session.sftp = true ∧ LocallyReadable engine (fun _ => True) localPath
    | _ => True

/-- The location is under an allow prefix, and no deny prefix is at it, above it or beneath it. -/
def PolicyEngine.Clears (loc : List Segment) : Prop :=
  engine.AllowCovers loc ∧ ∀ d ∈ engine.denyLocations, ¬d <+: loc ∧ ¬loc <+: d

/-- **The paths of a request are where they should be**: what is overwritten under an allow prefix
and under no deny prefix, and what is moved or deleted without one beneath it. Where `mv` reads a
path as options, all that it displaces then has to be there; and `rm` deletes nothing then. -/
def FileChange.Secure : FileChange → Prop
  | .write path _ _ =>
    (∀ uuid, IsUuid uuid → engine.Clears (policyLocation (tempPathFor path uuid))) ∧
      if session.sftp = false ∧ isOption path = true then
        ∀ uuid l, IsUuid uuid → optioned (tempPathFor path uuid) path l → engine.Confines l
      else engine.Confines (policyLocation path)
  | .mkdir _ => True
  | .rename source target =>
    if session.sftp = false ∧ (isOption source = true ∨ isOption target = true) then
      ∀ l, optioned source target l → engine.Confines l
    else engine.Clears (policyLocation source) ∧ engine.Confines (policyLocation target) ∧
      (session.sftp = false → ¬engine.DenyCovers (landing source target))
  | .remove path =>
    session.sftp = false ∧ isOption path = true ∨ engine.Clears (policyLocation path)
  | .upload _ remotePath => engine.Confines (policyLocation remotePath)

end

/-! ### Locations -/

section Locations

variable {rt : Runtime} {engine : PolicyEngine rt} {loc l : List Segment}

theorem PolicyEngine.AllowCovers.mono (h : engine.AllowCovers loc) (hl : loc <+: l) :
    engine.AllowCovers l := by
  obtain ⟨a, ha, hcovers⟩ := h
  exact ⟨a, ha, hcovers.trans hl⟩

theorem PolicyEngine.clears_iff : engine.Clears loc ↔ ∀ l, loc <+: l → engine.Confines l := by
  constructor
  · rintro ⟨hallow, hdeny⟩ l hl
    refine ⟨hallow.mono hl, ?_⟩
    rintro ⟨d, hd, hcovers⟩
    rcases List.prefix_or_prefix_of_prefix hcovers hl with h | h
    · exact (hdeny d hd).1 h
    · exact (hdeny d hd).2 h
  · intro h
    refine ⟨(h loc List.prefix_rfl).1, fun d hd => ⟨fun hcovers => ?_, fun hbeneath => ?_⟩⟩
    · exact (h loc List.prefix_rfl).2 ⟨d, hd, hcovers⟩
    · exact (h d hbeneath).2 ⟨d, hd, List.prefix_rfl⟩

theorem target_above_landing (source target : String) :
    policyLocation target <+: landing source target :=
  List.prefix_append _ _

variable {session : Session} {optioned : String → String → List Segment → Prop}

/-- **The paths are where they should be** exactly where all that is displaced is confined. -/
theorem secure_iff {change : FileChange} : change.Secure engine session optioned ↔
    ∀ l, change.Displaces session optioned l → engine.Confines l := by
  cases change with
  | write =>
    simp only [FileChange.Secure, FileChange.Displaces, engine.clears_iff]
    split
    · exact ⟨fun h l hl => hl.elim (fun ⟨uuid, huuid, hl⟩ => h.1 uuid huuid l hl)
        fun ⟨uuid, huuid, hl⟩ => h.2 uuid l huuid hl,
        fun h => ⟨fun uuid huuid l hl => h l (.inl ⟨uuid, huuid, hl⟩),
          fun uuid l huuid hl => h l (.inr ⟨uuid, huuid, hl⟩)⟩⟩
    · exact ⟨fun h l hl => hl.elim (fun ⟨uuid, huuid, hl⟩ => h.1 uuid huuid l hl) fun hl => hl ▸
        h.2,
        fun h => ⟨fun uuid huuid l hl => h l (.inl ⟨uuid, huuid, hl⟩), h _ (.inr rfl)⟩⟩
  | mkdir => exact ⟨fun _ _ => False.elim, fun _ => trivial⟩
  | rename source target =>
    unfold FileChange.Secure FileChange.Displaces
    dsimp only
    split
    · exact Iff.rfl
    · rw [engine.clears_iff]
      constructor
      · rintro ⟨hsource, htarget, hlanding⟩ l (hl | rfl | ⟨hsftp, rfl⟩)
        · exact hsource l hl
        · exact htarget
        · -- the member is under the allow prefix of the directory
          exact ⟨htarget.1.mono (target_above_landing source target), hlanding hsftp⟩
      · intro h
        exact ⟨fun l hl => h l (.inl hl), h _ (.inr (.inl rfl)),
          fun hsftp => (h _ (.inr (.inr ⟨hsftp, rfl⟩))).2⟩
  | remove path =>
    unfold FileChange.Secure FileChange.Displaces
    dsimp only
    rw [engine.clears_iff]
    by_cases hoption : session.sftp = false ∧ isOption path = true
    · exact iff_of_true (.inl hoption) fun l hl => absurd hoption hl.1
    · rw [or_iff_right hoption]
      exact forall_congr' fun l => ⟨fun h hl => h hl.2, fun h hl => h ⟨hoption, hl⟩⟩
  | upload => exact ⟨fun h l hl => hl ▸ h, fun h => h _ rfl⟩

end Locations

/-! ### What requests displace -/

section Sound

variable {rt : Runtime} {engine : PolicyEngine rt} {config : ServerConfig} {session : Session}
variable {optioned : String → String → List Segment → Prop}
variable {l : List Segment} {sessionId path : String}

theorem looks_answers_uuid : Looks (Answers session) session := by
  intro sessionId s h
  rcases h with h | h
  · cases h
  · exact Option.some.inj h

theorem not_displaces_of_isLookup {op : Operation} (h : op.IsLookup) :
    ¬op.Displaces optioned l := by
  cases op with
  | getSession => exact not_false
  | randomUUID => exact not_false
  | now => exact not_false
  | _ => exact h.elim

theorem displaces_of_shell {op : Operation} {script : Script}
    (hop : ShellOperation sessionId script op) (h : op.Displaces optioned l) :
    script.Displaces optioned l := by
  cases hop with
  | getSession => exact h.elim
  | getOSInfo => exact h.elim
  | exec => exact h

theorem displaces_of_write {data : String} {mode : Option ℕ} {op : Operation}
    (hop : WriteOperation (Answers session) session.sftp sessionId path data op)
    (h : op.Displaces optioned l) :
    (FileChange.write path data mode).Displaces session optioned l := by
  have hpath : session.sftp = true → l = policyLocation path →
      if session.sftp = false ∧ isOption path = true then
        ∃ uuid, IsUuid uuid ∧ optioned (tempPathFor path uuid) path l
      else l = policyLocation path := fun hsftp hl => by
    rw [if_neg fun h => Bool.noConfusion (hsftp.symm.trans h.1)]
    exact hl
  cases hop with
  | randomUUID => exact h.elim
  | @shell hsftp uuid huuid mode _ hop =>
    refine (displaces_of_shell hop h).imp (fun htemp => ⟨uuid, huuid, htemp⟩) fun hl => ?_
    split at hl
    · next hoption =>
      rw [if_pos ⟨hsftp, hoption⟩]
      exact ⟨uuid, huuid, hl⟩
    · next hoption =>
      rw [if_neg fun h => hoption h.2]
      exact hl
  | @write uuid huuid => exact .inl ⟨uuid, huuid, by rw [show l = _ from h]⟩
  | chmod => exact h.elim
  | @rename hsftp uuid huuid => exact h.imp (fun htemp => ⟨uuid, huuid, htemp⟩) (hpath hsftp)
  | @unlink uuid huuid =>
    refine .inl ⟨uuid, huuid, ?_⟩
    rw [show l = _ from h]
    exact List.prefix_append _ _

theorem displaces_of_remove {Listed : String → Prop} {op : Operation}
    (hop : RemoveOperation Listed session.sftp sessionId path op) (h : op.Displaces optioned l) :
    (FileChange.remove path).Displaces session optioned l := by
  cases hop with
  | shell hsftp hop =>
    obtain ⟨hoption, hl⟩ := displaces_of_shell hop h
    exact ⟨fun h => Bool.noConfusion (hoption.symm.trans h.2), hl⟩
  | stat => exact h.elim
  | readdir => exact h.elim
  | unlink hsftp =>
    refine ⟨fun h => Bool.noConfusion (hsftp.symm.trans h.1), ?_⟩
    rw [show l = _ from h]
    exact List.prefix_append _ _
  | rmdir hsftp =>
    refine ⟨fun h => Bool.noConfusion (hsftp.symm.trans h.1), ?_⟩
    rw [show l = _ from h]
    exact List.prefix_append _ _

variable (optioned) in
/-- What a renaming displaces. Only without SFTP does it go through the shell. -/
theorem renameFile_displaces (source target : String) :
    Performs (Answers session) (fun op => ∀ l, op.Displaces optioned l →
        engine.Permits (renameContext source target .enforce) ∧ session.policyMode = .enforce ∧
          (FileChange.rename source target).Displaces session optioned l)
      (renameFile engine sessionId source target) := by
  refine performs_sessionOr looks_answers_uuid (fun _ h => h.elim) (performs_wrapping ?_)
  refine performs_guarded engine rfl (fun _ => trivial) fun hpermits henforce => ?_
  rw [henforce] at hpermits
  split
  · next h =>
    have hsftp : session.sftp = false := by simpa using h
    refine Performs.bind (execFallback_performs fun op hop l hl => ?_) fun _ => trivial
    refine ⟨hpermits, henforce, ?_⟩
    have hmoves := displaces_of_shell hop hl
    unfold Script.Displaces at hmoves
    unfold FileChange.Displaces
    dsimp only at hmoves ⊢
    split at hmoves
    · next hoption =>
      rw [if_pos ⟨hsftp, hoption⟩]
      exact hmoves
    · next hoption =>
      rw [if_neg fun h => hoption h.2]
      exact hmoves.imp_right fun h => h.imp_right fun h => ⟨hsftp, h⟩
  · next h =>
    have hsftp : session.sftp = true := by simpa using h
    refine Performs.bind ⟨fun l hl => ⟨hpermits, henforce, ?_⟩, fun _ _ => trivial⟩ fun _ => trivial
    unfold FileChange.Displaces
    dsimp only
    rw [if_neg fun h => Bool.noConfusion (hsftp.symm.trans h.1)]
    exact hl.imp_right .inl

theorem confines_of_guarded (context : PolicyMode → PolicyContext) {Ops : Operation → Prop}
    {op : Operation} (hop : Guarded engine session (context session.policyMode) Ops op)
    (h : engine.Permits (context .enforce) → session.policyMode = .enforce → Ops op →
      op.Displaces optioned l → engine.Confines l) (hl : op.Displaces optioned l) :
    engine.Confines l := by
  rcases hop with hlookup | ⟨hpermits, henforce, hop⟩
  · exact absurd hl (not_displaces_of_isLookup hlookup)
  · rw [henforce] at hpermits
    exact h hpermits henforce hop hl

/-- **A request stays confined** whose paths are where they should be, if it is carried out. -/
theorem stays_confined_of {change : FileChange}
    (hsecure : change.CarriedOut engine config session → change.Secure engine session optioned) :
    StaysConfined engine config session optioned change := by
  have hsession : Looks (Answers session) session := looks_answers_uuid
  intro depth sessionId
  cases change with
  | write path data mode =>
    have hwrite := writeFile_performs engine config hsession sessionId path data mode
    refine Ensures.always (Performs.bind (hwrite.weaken fun op hop l hl => ?_) fun _ => trivial)
    refine confines_of_guarded (pathContext .fsWrite path) hop ?_ hl
    rintro hpermits henforce ⟨hfits, hop⟩ hl
    exact secure_iff.mp (hsecure ⟨hpermits, henforce, hfits⟩) l (displaces_of_write hop hl)
  | mkdir path =>
    have hmkdir := makeDirectories_performs engine hsession sessionId path
    refine Ensures.always (Performs.bind (hmkdir.weaken fun op hop l hl => ?_) fun _ => trivial)
    refine confines_of_guarded (pathContext .fsMkdir path) hop ?_ hl
    rintro - - hop hl
    cases hop with
    | shell hop =>
      -- `mkdir` displaces no file
      exact (displaces_of_shell hop hl).elim
    | stat => exact hl.elim
    | mkdir => exact hl.elim
  | rename source target =>
    -- both paths of a rename are checked before it
    refine Ensures.always (Performs.bind ((renameFile_displaces optioned source target).weaken
      fun op hop l hl => ?_) fun _ => trivial)
    obtain ⟨hpermits, henforce, hwhere⟩ := hop l hl
    exact secure_iff.mp (hsecure ⟨hpermits, henforce, trivial⟩) l hwhere
  | remove path =>
    have hlists : Lists (Answers session) fun _ => True := fun _ _ _ _ _ => trivial
    have hremove := removeRecursive_performs engine hsession hlists depth sessionId path
    refine Ensures.always (Performs.bind (hremove.weaken fun op hop l hl => ?_) fun _ => trivial)
    refine confines_of_guarded (removeContext path) hop ?_ hl
    intro hpermits henforce hop hl
    exact secure_iff.mp (hsecure ⟨hpermits, henforce, trivial⟩) l (displaces_of_remove hop hl)
  | upload localPath remotePath =>
    have hupload := uploadFileWithProgress_performs engine config hsession localPath
      remotePath sessionId
    refine Ensures.always (Performs.bind (hupload.weaken fun op hop l hl => ?_) fun _ => trivial)
    refine confines_of_guarded (pathContext .transferUpload remotePath) hop ?_ hl
    rintro hpermits henforce ⟨hsftp, hop⟩ hl
    cases hop with
    | write hread =>
      -- of what an upload performs, only the write displaces a file
      rw [show l = _ from hl]
      exact hsecure ⟨hpermits, henforce, hsftp, hread.mono fun _ _ => trivial⟩
    | now => exact hl.elim
    | realpath => exact hl.elim
    | files => exact hl.elim
    | stat => exact hl.elim
    | localRead => exact hl.elim
    | read => exact hl.elim

end Sound

/-! ### Requests that stray -/

theorem lively_answers (session : Session) : Lively (Answers session) session where
  session _ := .inr rfl
  answer op answer hsession huuid := by
    cases op with
    | getSession sessionId => exact absurd rfl (hsession sessionId)
    | randomUUID => exact absurd rfl huuid
    | _ => trivial

theorem exists_answer_uuid (session : Session) (op : Operation) :
    ∃ answer, Answers session ⟨op, answer⟩ := by
  cases op with
  | getSession => exact ⟨some session, .inr rfl⟩
  | randomUUID => exact ⟨_, isUuid_zero⟩
  | now => exact ⟨(0 : ℕ), trivial⟩
  | localFiles => exact ⟨fun _ => none, trivial⟩
  | _ => exact ⟨.error .unfinished, trivial⟩

section Strays

variable {rt : Runtime} {engine : PolicyEngine rt} {config : ServerConfig} {session : Session}
variable {optioned : String → String → List Segment → Prop}

/-- An operation that displaces something outside the prefixes. -/
def Strays (engine : PolicyEngine rt) (optioned : String → String → List Segment → Prop)
    (op : Operation) : Prop :=
  ∃ l, op.Displaces optioned l ∧ ¬engine.Confines l

/-- **The recursion deletes by any names** that it finds beneath a path, if it goes deep enough. -/
theorem rmdirRecursive_reaches {P : Operation → Prop} (names : List String) (name : String) :
    ∀ path : RemotePath, P (.sftpUnlink { path with names := path.names ++ names ++ [name] }) →
      Reaches (Answers session) P (sftpRmdirRecursive (names.length + 1) path) := by
  -- each directory on the way lists the next one alone
  have hlist : ∀ (path : RemotePath) (entry : FileEntry),
      Yields (Answers session) (sftpReaddir path) (.ok [entry]) := fun path entry =>
    ⟨.ok [entry], trivial, rfl⟩
  induction names with
  | nil =>
    intro path hP
    refine (hlist path ⟨name, { mode := none, size := none, mtime := none }⟩).reaches_bind ?_
    refine Reaches.bind (Reaches.bind ?_)
    change Reaches _ P (if isDirectoryMode none then _ else _)
    rw [if_neg (by decide)]
    rw [List.append_nil] at hP
    exact .inl hP
  | cons next names ih =>
    intro path hP
    refine (hlist path ⟨next, { mode := some 0o040000, size := none, mtime := none }⟩).reaches_bind
      ?_
    refine Reaches.bind (Reaches.bind ?_)
    change Reaches _ P (if isDirectoryMode (some 0o040000) then _ else _)
    rw [if_pos (by decide)]
    refine ih (path.child next) ?_
    rw [RemotePath.child, List.append_assoc path.names [next] names]
    exact hP

/-- A removal reaches whatever is beneath its path. -/
theorem remove_strays {path : String} {l : List Segment}
    (hpermits : engine.Permits (removeContext path .enforce))
    (henforce : session.policyMode = .enforce)
    (hwhere : (FileChange.remove path).Displaces session optioned l) (hl : ¬engine.Confines l) :
    ∃ depth, Reaches (Answers session) (Strays engine optioned)
      (removeRecursive engine depth "" path) := by
  obtain ⟨hoption, rest, rfl⟩ := hwhere
  have hnames : (rest.map String.ofList).map String.toList = rest := by
    rw [List.map_map]
    conv_rhs => rw [← List.map_id rest]
    exact List.map_congr_left fun s _ => String.toList_ofList
  have hstrays : ∀ names : List String, names = rest.map String.ofList →
      Strays engine optioned (.sftpUnlink ⟨path, names⟩) := by
    rintro _ rfl
    exact ⟨_, congrArg (policyLocation path ++ ·) hnames.symm, hl⟩
  have hshell : session.sftp = false → ∀ sent, Strays engine optioned (.exec (.remove path) sent) :=
    fun hsftp _ => ⟨_, ⟨Bool.eq_false_of_not_eq_true fun h => hoption ⟨hsftp, h⟩,
      List.prefix_append _ rest⟩, hl⟩
  rcases List.eq_nil_or_concat (rest.map String.ofList) with hnil | ⟨names, name, hconcat⟩
  · exact ⟨0, removeRecursive_reaches (lively_answers session) henforce 0 "" hpermits hshell
      fun _ => .inl (hstrays [] hnil.symm)⟩
  · refine ⟨names.length + 1, removeRecursive_reaches (lively_answers session) henforce
      _ "" hpermits
      hshell fun _ => .inr (rmdirRecursive_reaches names name path ?_)⟩
    refine hstrays _ ?_
    rw [hconcat, List.concat_eq_append]
    rfl

/-- A write reaches whatever it displaces with some UUID. -/
theorem write_strays {path data : String} {mode : Option ℕ} {l : List Segment}
    (hwhere : (FileChange.write path data mode).Displaces session optioned l)
    (hl : ¬engine.Confines l) :
    Reaches (Answers session) (Strays engine optioned) (sendWrite session "" path data mode) := by
  have hlively := lively_answers session
  obtain ⟨uuid, huuid, htemp⟩ | hpath := hwhere
  · exact sendWrite_reaches hlively "" path data mode huuid (fun _ _ => ⟨l, .inl htemp, hl⟩)
      fun _ => .inr ⟨l, .inl htemp, hl⟩
  · split at hpath
    · next hoption =>
      obtain ⟨uuid, huuid, hmoved⟩ := hpath
      refine sendWrite_reaches hlively "" path data mode huuid (fun _ _ => ⟨l, .inr ?_, hl⟩)
        fun hsftp => Bool.noConfusion (hoption.1.symm.trans hsftp)
      rw [if_pos hoption.2]
      exact hmoved
    · next hoption =>
      refine sendWrite_reaches hlively "" path data mode isUuid_zero
        (fun hsftp _ => ⟨l, .inr ?_, hl⟩) fun _ => .inr ⟨l, .inr hpath, hl⟩
      rw [if_neg fun h => hoption ⟨hsftp, h⟩]
      exact hpath

/-- **A request strays** that is carried out while its paths are not where they should be. -/
theorem exists_strays {change : FileChange} (hout : change.CarriedOut engine config session)
    (hsecure : ¬change.Secure engine session optioned) :
    ∃ depth, Reaches (Answers session) (Strays engine optioned)
      ((change.request depth "").task engine config) := by
  have hlively := lively_answers session
  rw [secure_iff] at hsecure
  push Not at hsecure
  obtain ⟨l, hwhere, hl⟩ := hsecure
  obtain ⟨hpermits, henforce, hparts⟩ := hout
  cases change with
  | write path data mode =>
    exact ⟨0, Reaches.bind (writeFile_reaches config henforce hpermits hparts hlively "" mode
      (write_strays hwhere hl))⟩
  | mkdir => exact hwhere.elim
  | rename =>
    unfold FileChange.Displaces at hwhere
    dsimp only at hwhere
    refine ⟨0, Reaches.bind (renameFile_reaches hlively henforce "" hpermits (fun hsftp _ => ?_)
      fun hsftp => ?_)⟩
    · refine ⟨l, ?_, hl⟩
      change if _ then _ else _
      split at hwhere
      · next hoption =>
        rw [if_pos hoption.2]
        exact hwhere
      · next hoption =>
        rw [if_neg fun h => hoption ⟨hsftp, h⟩]
        exact hwhere.imp_right fun h => h.imp_right And.right
    · refine ⟨l, ?_, hl⟩
      rw [if_neg fun h => Bool.noConfusion (hsftp.symm.trans h.1)] at hwhere
      exact hwhere.imp_right fun h =>
        h.resolve_right fun h => Bool.noConfusion (hsftp.symm.trans h.1)
  | remove =>
    obtain ⟨depth, hreaches⟩ := remove_strays hpermits henforce hwhere hl
    exact ⟨depth, hreaches.bind⟩
  | upload =>
    obtain ⟨hsftp, hread⟩ := hparts
    exact ⟨0, Reaches.bind (uploadFileWithProgress_reaches config henforce hlively "" hpermits hsftp
      hread fun _ => ⟨l, hwhere, hl⟩)⟩

theorem not_stays_confined {change : FileChange} (hout : change.CarriedOut engine config session)
    (hsecure : ¬change.Secure engine session optioned) :
    ¬StaysConfined engine config session optioned change := by
  intro hconfined
  obtain ⟨depth, hreaches⟩ := exists_strays hout hsecure
  refine Reaches.not_always (exists_answer_uuid session) (hreaches.mono fun op hop hall => ?_)
    (hconfined depth "")
  obtain ⟨l, hdisplaces, hl⟩ := hop
  exact hl (hall l hdisplaces)

end Strays

/-- **When a request stays within the prefixes**: unless it is carried out while its paths are not
where they should be. -/
theorem stays_confined_iff {rt : Runtime} (engine : PolicyEngine rt) (config : ServerConfig)
    (session : Session) (optioned : String → String → List Segment → Prop) (change : FileChange) :
    StaysConfined engine config session optioned change ↔
      (change.CarriedOut engine config session → change.Secure engine session optioned) := by
  constructor
  · intro hconfined hout
    by_contra hsecure
    exact not_stays_confined hout hsecure hconfined
  · exact stays_confined_of

/-- **Writes and renamings are not held to the allow prefixes**, with and without SFTP. -/
theorem write_outside_prefixes :
    ∃ engine : PolicyEngine sampleRuntime, engine.config = {} ∧ ∀ sftp optioned,
      ¬StaysConfined engine sampleConfig ⟨.enforce, sftp⟩ optioned
        (.write "/opt/app.conf" "data" none) ∧
      ¬StaysConfined engine sampleConfig ⟨.enforce, sftp⟩ optioned
        (.rename "/opt/app.conf" "/tmp/app.conf") := by
  obtain ⟨engine, hengine⟩ := PolicyEngine.exists_engine sampleRuntime {} (by decide) (by decide)
    ⟨rfl, rfl⟩
  have hdeny : engine.denyLocations = [] := by
    rw [PolicyEngine.denyLocations, hengine]
    rfl
  have hout : ¬engine.AllowCovers (policyLocation "/opt/app.conf") := by
    rw [PolicyEngine.AllowCovers, PolicyEngine.allowLocations, hengine]
    decide
  have hcovers : ∀ loc, ¬engine.DenyCovers loc := by
    rintro loc ⟨d, hd, -⟩
    rw [hdeny] at hd
    exact absurd hd List.not_mem_nil
  have hwrite : engine.Permits (pathContext .fsWrite "/opt/app.conf" .enforce) :=
    permits_of_not_covered (by decide) (by decide) (hcovers _) .enforce
  have hrename : engine.Permits (renameContext "/opt/app.conf" "/tmp/app.conf" .enforce) := by
    rw [renameContext, engine.permits_paths_iff (by decide)]
    intro p hp
    refine engine.pathDenial_eq_none_iff.mpr ⟨?_, hcovers _, fun h => by cases h⟩
    have hpaths : [some "/opt/app.conf", some "/tmp/app.conf"].filterMap truthy =
        ["/opt/app.conf", "/tmp/app.conf"] := by decide
    rw [hpaths] at hp
    obtain rfl | rfl := List.mem_pair.mp hp
    · decide
    · decide
  have hoption : isOption "/opt/app.conf" = false := by decide
  have hoption' : isOption "/tmp/app.conf" = false := by decide
  refine ⟨engine, hengine, fun sftp optioned => ⟨?_, ?_⟩⟩
  · have hfits : "data".utf8ByteSize ≤ sampleConfig.maxFileWriteBytes := by decide
    refine not_stays_confined ⟨hwrite, rfl, hfits⟩ fun h => ?_
    have hconfined := h.2
    rw [hoption, if_neg fun h => Bool.false_ne_true h.2] at hconfined
    exact hout hconfined.1
  · refine not_stays_confined ⟨hrename, rfl, trivial⟩ fun h => ?_
    unfold FileChange.Secure at h
    dsimp only at h
    rw [hoption, hoption', if_neg fun h => h.2.elim Bool.false_ne_true Bool.false_ne_true] at h
    exact hout h.1.1

end Ssh
