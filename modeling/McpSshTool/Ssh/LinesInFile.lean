import McpSshTool.Ssh.ConcurrentEdits
import McpSshTool.Ssh.LineEdits
import McpSshTool.Ssh.SizeLimits
import McpSshTool.Ssh.WriteThenRead

/-!
# Requests for the lines of a file

What the runs of `ensureLinesInFile` write, whatever the host answers.

* `writtenText` — the text that operations write;
* `Finds`, `LinesRun` — what a request finds by its operations, and the runs that succeed;
* `LinesRun.edited` — **a run writes the edit of what it has found**, and only looks if there is
  none;
* `AnswersFrom`, `LinesRun.shows` — what is found of a file with a content;
* `exists_linesRun_of_permits` — there are such runs over SFTP, whatever is found;
* `lines_edited_iff` — when the lines of the file are those that were asked for;
* `lines_idempotent_iff` — when a second run only looks.

A run is in mode `enforce`. In mode `explain` nothing is written.
-/

open Library TextLines

namespace Ssh

open Program

/-! ### What a request writes -/

/-- The text that an operation writes. -/
def Operation.written? : Operation → Option String
  | .sftpWriteFile _ data => some (Utf8.decode data)
  | op =>
    match op.script? with
    | some (.write data _ _ _) => some data
    | _ => none

/-- **The text that is written** by the operations, where it is written more than once the last
time. -/
def writtenText (log : List Event) : Option String := (log.filterMap fun e => e.1.written?).getLast?

theorem written?_of_not_acts {op : Operation} (h : ¬op.Acts) : op.written? = none := by
  have hscript : ∀ {script : Script}, op.script? = some script → script.ReadsOnly := by
    intro script hop
    by_contra hnot
    exact h (acts_of_script hop hnot)
  unfold Operation.written?
  -- a write over SFTP acts, and so does the script of a write
  split
  · exact absurd trivial h
  · split
    · next hop => exact (hscript hop).elim
    · rfl

theorem writtenText_of_not_acts {log : List Event} (h : ∀ e ∈ log, ¬e.1.Acts) :
    writtenText log = none := by
  rw [writtenText, List.getLast?_eq_none_iff, List.filterMap_eq_nil_iff]
  exact fun e he => written?_of_not_acts (h e he)

/-- The operation writes nothing else than the text. -/
def WritesOnly (text : String) (op : Operation) : Prop :=
  op.written? = none ∨ op.written? = some text

/-- The answers of a session to operations that write nothing. -/
def Unwritten (session : Session) (e : Event) : Prop :=
  SessionIs session e ∧ e.1.written? = none

/-- The program does not succeed. -/
def Fails {α : Type} (result : Except Failure α) : Prop := ∀ a, result ≠ .ok a

section Writes

variable {rt : Runtime} {engine : PolicyEngine rt} {config : ServerConfig} {session : Session}
variable {sessionId path : String}

theorem writesOnly_of_isLookup {text : String} {op : Operation} (h : op.IsLookup) :
    WritesOnly text op :=
  .inl (written?_of_not_acts h.not_acts)

theorem writesOnly_of_write {Assume : Event → Prop} {sftp : Bool} {data : String} {op : Operation}
    (h : WriteOperation Assume sftp sessionId path data op) : WritesOnly data op := by
  cases h with
  | randomUUID => exact .inl rfl
  | shell _ _ hop =>
    cases hop with
    | getSession => exact .inl rfl
    | getOSInfo => exact .inl rfl
    -- the only script of a write is the one with its text
    | exec sent => exact .inr rfl
  | write => exact .inr (congrArg some (Utf8.decode_encode data))
  | chmod => exact .inl rfl
  | rename => exact .inl rfl
  | unlink => exact .inl rfl

variable (engine config sessionId path) in
theorem writeFile_writesOnly (data : String) :
    Performs (SessionIs session) (WritesOnly data)
      (writeFile engine config sessionId path data) := by
  refine (writeFile_performs engine config looks_sessionIs sessionId path data none).weaken ?_
  rintro op (hlookup | ⟨-, -, -, hop⟩)
  · exact writesOnly_of_isLookup hlookup
  · exact writesOnly_of_write hop

/-- Past its checks, a write succeeds only if something is written. -/
theorem sendWrite_unwritten (s : Session) (data : String) (mode : Option ℕ) :
    Ensures (Unwritten session) (fun _ => True) Fails (sendWrite s sessionId path data mode) := by
  refine ⟨trivial, fun uuid _ => ?_⟩
  change Ensures _ _ _ (if _ then _ else _)
  split
  · have hscript : Ensures (Unwritten session) (fun _ => True) _
        (execFallback sessionId (.write data (tempPathFor path uuid) path mode)) :=
      execFallback_ensures (fun _ => False)
        (fun _ _ ha => absurd ha.2 (Option.some_ne_none data)) fun _ _ => trivial
    exact hscript.bind (fun output houtput => (houtput output rfl).elim fun _ h => h.1.elim)
      fun _ _ => nofun
  · -- over SFTP the write comes first
    exact ⟨trivial, fun _ ha => absurd ha.2 (Option.some_ne_none _)⟩

variable (engine config sessionId path) in
/-- **A write that is enforced succeeds only if something is written.** -/
theorem writeFile_unwritten (henforce : session.policyMode = .enforce) (data : String) :
    Ensures (Unwritten session) (fun _ => True) Fails
      (writeFile engine config sessionId path data) := by
  refine ⟨trivial, fun answer ha => ?_⟩
  cases answer with
  | none => exact nofun
  | some s =>
    obtain rfl := looks_sessionIs sessionId s ha.1
    refine Ensures.tryCatch (Q := Fails) ?_ (fun _ h => h) fun _ _ => nofun
    refine ensures_guarded engine rfl nofun (fun _ hexplain => ?_) fun _ _ => ?_
    · -- mode `explain` would succeed without a write
      rw [henforce] at hexplain
      cases hexplain
    · split
      · exact nofun
      · exact sendWrite_unwritten s data none

variable (engine config path) in
/-- The same of a write that falls back to sudo. -/
theorem fallback_unwritten (henforce : session.policyMode = .enforce) (osInfo : OSInfo)
    (content : String) :
    Ensures (Unwritten session) (fun _ => True) Fails
      (writeFileWithPrivilegeFallback engine config osInfo sessionId path content true) := by
  have hwrite : ∀ target, Ensures (Unwritten session) (fun _ => True) (Fails (α := Unit))
      (writeFile engine config sessionId target content >>= fun _ => (pure () : Task Unit)) := by
    intro target
    refine (writeFile_unwritten engine config sessionId target henforce content).bind ?_ ?_
    · exact fun a ha => absurd rfl (ha a)
    · exact fun _ _ => nofun
  unfold writeFileWithPrivilegeFallback
  refine Ensures.tryCatch (Q := Fails) (hwrite path) (fun a ha => absurd rfl (ha a)) fun error _ =>
    ?_
  split
  · exact nofun
  refine ⟨trivial, fun time _ => ?_⟩
  -- nor is the temporary file written
  refine Ensures.bind (Q := Fails (α := Unit)) ?_ (fun a ha => absurd rfl (ha a)) fun _ _ => nofun
  exact Ensures.tryCatch (Q := Fails) (hwrite _) (fun _ h => h) fun _ _ => nofun

variable (engine config path) in
theorem fallback_writesOnly (osInfo : OSInfo) (content : String) :
    Performs (SessionIs session) (WritesOnly content)
      (writeFileWithPrivilegeFallback engine config osInfo sessionId path content true) := by
  have hwrite : ∀ target, Performs (SessionIs session) (WritesOnly content)
      (writeFile engine config sessionId target content >>= fun _ => (pure () : Task Unit)) :=
    fun target => Performs.bind (writeFile_writesOnly engine config sessionId target content)
      fun _ => trivial
  unfold writeFileWithPrivilegeFallback
  refine Performs.tryCatch (hwrite path) fun error => ?_
  split
  · trivial
  refine ⟨.inl rfl, fun time _ => ?_⟩
  refine Performs.bind (α := Unit) (Performs.tryCatch (hwrite _) fun _ => trivial) fun _ => ?_
  refine Performs.bind ?_ fun result => ?_
  · -- the temporary file is moved
    refine (execSudo_performs engine config looks_sessionIs sessionId _ none none none _).weaken ?_
    rintro op (hlookup | ⟨-, -, hop⟩)
    · exact writesOnly_of_isLookup hlookup
    · cases hop with
      | getOSInfo => exact .inl rfl
      | now => exact .inl rfl
      | exec => exact .inl rfl
      | stream => exact .inl rfl
      | underSudo => exact .inl rfl
  · split
    · trivial
    · trivial

/-- **The text of a run** that succeeds, of a program that writes nothing else and does not succeed
without a write. -/
theorem writtenText_eq {α : Type} {p : Task α} {text : String} {log : List Event} {a : α}
    (hwrites : Performs (SessionIs session) (WritesOnly text) p)
    (hfails : Ensures (Unwritten session) (fun _ => True) Fails p) (hrun : Runs p log (.ok a))
    (hsession : ∀ e ∈ log, SessionIs session e) : writtenText log = some text := by
  -- every write is one of the text, and there is one, or the program would not have succeeded
  have honly := (hwrites.of_runs hrun hsession).1
  have hsome : ∃ e ∈ log, e.1.written? ≠ none := by
    by_contra hnone
    push Not at hnone
    exact (hfails.of_runs hrun fun e he => ⟨hsession e he, hnone e he⟩).2 a rfl
  obtain ⟨e, he, hwritten⟩ := hsome
  have hmem : text ∈ log.filterMap fun e => e.1.written? :=
    List.mem_filterMap.mpr ⟨e, he, (honly e he).resolve_left hwritten⟩
  -- so that the last one is the text as well
  cases hlast : writtenText log with
  | none =>
    rw [writtenText, List.getLast?_eq_none_iff] at hlast
    rw [hlast] at hmem
    exact absurd hmem List.not_mem_nil
  | some last =>
    obtain ⟨e', he', hlast'⟩ := List.mem_filterMap.mp (List.mem_of_getLast? hlast)
    rw [← hlast']
    refine (honly e' he').resolve_left ?_
    rw [hlast']
    exact Option.some_ne_none last

theorem writtenText_append {log log' : List Event} (h : ∀ e ∈ log, e.1.written? = none) :
    writtenText (log ++ log') = writtenText log' := by
  rw [writtenText, List.filterMap_append, List.filterMap_eq_nil_iff.mpr h, List.nil_append,
    writtenText]

end Writes

/-! ### Runs -/

section Runs

variable {rt : Runtime} (engine : PolicyEngine rt) (config : ServerConfig) (sessionId path : String)

/-- **What a request finds of its file**, by the operations with which it looks for it and reads
it. -/
inductive Finds : List Event → Option String → Prop
  | missing {log : List Event} (h : Runs (pathExists engine sessionId path) log (.ok false)) :
      Finds log none
  | file {log log' : List Event} {text : String}
      (h : Runs (pathExists engine sessionId path) log (.ok true))
      (hread : Runs (readFile engine config sessionId path) log' (.ok text)) :
      Finds (log ++ log') (some text)

variable (state : Presence) (wanted : List String) (createIfMissing : Bool)

/-- **A run of `ensureLinesInFile` that succeeds**, with what it finds. -/
structure LinesRun (found : Option String) (log : List Event) (result : LinesInFileResult) :
    Prop where
  runs : Runs (ensureLinesInFile engine config sessionId path wanted createIfMissing state) log
    (.ok result)
  finds : ∃ osInfo looked more, log = ⟨.getOSInfo sessionId, .ok osInfo⟩ :: (looked ++ more) ∧
    Finds engine config sessionId path looked found

variable {engine config sessionId path state wanted createIfMissing}
variable {log looked looked' more more' : List Event} {found found' : Option String}
variable {result : LinesInFileResult} {session : Session}

theorem Finds.eq_of_append_eq (h : Finds engine config sessionId path looked found)
    (h' : Finds engine config sessionId path looked' found')
    (heq : looked ++ more = looked' ++ more') : looked = looked' ∧ found = found' := by
  cases h with
  | missing hexists =>
    cases h' with
    | missing hexists' => exact ⟨(hexists.eq_of_append_eq hexists' heq).1, rfl⟩
    | file hexists' =>
      rw [List.append_assoc] at heq
      exact absurd (hexists.eq_of_append_eq hexists' heq).2 nofun
  | file hexists hread =>
    rw [List.append_assoc] at heq
    cases h' with
    | missing hexists' => exact absurd (hexists.eq_of_append_eq hexists' heq).2 nofun
    | file hexists' hread' =>
      rw [List.append_assoc] at heq
      -- both have looked alike, so both have read alike
      obtain ⟨rfl, -⟩ := hexists.eq_of_append_eq hexists' heq
      obtain ⟨rfl, htext⟩ := hread.eq_of_append_eq hread' (List.append_cancel_left heq)
      exact ⟨rfl, congrArg some (Except.ok.inj htext)⟩

/-- What a request looks at the file by does not act. -/
theorem Finds.not_acts (h : Finds engine config sessionId path looked found)
    (hsession : ∀ e ∈ looked, SessionIs session e) : ∀ e ∈ looked, ¬e.1.Acts := by
  have hreads : ∀ context op, Asserted engine session context (ReadOperation sessionId path) op →
      ¬op.Acts := by
    rintro context op (hlookup | ⟨-, hop⟩)
    · exact hlookup.not_acts
    · exact hop.not_acts
  have hlooks : Looks (SessionIs session) session := looks_sessionIs
  have hprobe := probe_performs engine hlooks (fun _ => true) sessionId path
  cases h with
  | missing hexists =>
    exact fun e he => hreads _ _ ((hprobe.of_runs hexists hsession).1 e he)
  | file hexists hread =>
    rw [List.forall_mem_append] at hsession ⊢
    refine ⟨fun e he => hreads _ _ ((hprobe.of_runs hexists hsession.1).1 e he), fun e he => ?_⟩
    have hfile := readFile_performs engine config hlooks sessionId path "utf8" none
    exact hreads _ _ ((hfile.of_runs hread hsession.2).1 e he)

/-- **How a request goes that succeeds**: it looks, and then writes the edit of what it has
found. -/
theorem exists_finds
    (h : Runs (ensureLinesInFile engine config sessionId path wanted createIfMissing state) log
      (.ok result)) :
    ∃ osInfo looked more found, log = ⟨.getOSInfo sessionId, .ok osInfo⟩ :: (looked ++ more) ∧
      Finds engine config sessionId path looked found ∧
      Runs (writeEdited engine config osInfo sessionId path (linesEdit state wanted found)) more
        (.ok result) := by
  -- `getOSInfo`, then `pathExists`, then `readFile` where the file is there
  obtain ⟨answer, log', rfl, hrest⟩ := runs_perform_iff.mp h
  cases answer with
  | error => exact absurd (runs_done_iff.mp hrest).2 nofun
  | ok osInfo =>
    rw [done_andThen] at hrest
    obtain ⟨looked, mid, more, hexists, hrest, rfl⟩ := runs_andThen_iff.mp hrest
    cases mid with
    | error => exact absurd (runs_done_iff.mp hrest).2 nofun
    | ok =>
      dsimp only at hrest
      split at hrest
      · next htrue =>
        subst htrue
        obtain ⟨log', text, more, hread, hrest, rfl⟩ := runs_andThen_iff.mp hrest
        cases text with
        | error => exact absurd (runs_done_iff.mp hrest).2 nofun
        | ok text =>
          refine ⟨osInfo, looked ++ log', more, some text, ?_, .file hexists hread, hrest⟩
          rw [List.append_assoc]
      · next hfalse =>
        obtain rfl := Bool.eq_false_of_not_eq_true hfalse
        refine ⟨osInfo, looked, more, none, rfl, .missing hexists, ?_⟩
        -- without a file there is nothing to remove, and something to create if that is allowed
        cases state with
        | absent => exact hrest
        | present =>
          split at hrest
          · next hstate => cases hstate
          split at hrest
          · exact absurd (runs_done_iff.mp hrest).2 nofun
          · exact hrest

/-- The part of a request past what it finds. -/
theorem runs_writeEdited (henforce : session.policyMode = .enforce) {osInfo : OSInfo}
    {edited : Option String × ℤ} (hsession : ∀ e ∈ more, SessionIs session e)
    (h : Runs (writeEdited engine config osInfo sessionId path edited) more (.ok result)) :
    writtenText more = edited.1 ∧ (edited.1 = none → more = [] ∧ result.added = 0) := by
  obtain ⟨newContent, added⟩ := edited
  cases newContent with
  | none =>
    obtain ⟨rfl, hresult⟩ := runs_done_iff.mp h
    exact ⟨rfl, fun _ => ⟨rfl, congrArg LinesInFileResult.added (Except.ok.inj hresult)⟩⟩
  | some content =>
    -- a request that writes succeeds where the write does
    obtain ⟨log, mid, log', hwrite, h, rfl⟩ := runs_andThen_iff.mp h
    cases mid with
    | error => exact absurd (runs_done_iff.mp h).2 nofun
    | ok =>
      obtain ⟨rfl, -⟩ := runs_done_iff.mp h
      rw [List.append_nil] at hsession ⊢
      refine ⟨?_, nofun⟩
      exact writtenText_eq (fallback_writesOnly engine config path osInfo content)
        (fallback_unwritten engine config path henforce osInfo content) hwrite hsession

/-- **A run writes the edit of what it has found.** Where there is nothing to edit it does not act,
and reports that nothing has been added or removed. -/
theorem LinesRun.edited (henforce : session.policyMode = .enforce)
    (h : LinesRun engine config sessionId path state wanted createIfMissing found log result)
    (hsession : ∀ e ∈ log, SessionIs session e) :
    writtenText log = (linesEdit state wanted found).1 ∧
      ((linesEdit state wanted found).1 = none → result.added = 0 ∧ ∀ e ∈ log, ¬e.1.Acts) := by
  obtain ⟨osInfo, looked, more, found', rfl, hfinds, hrun⟩ := exists_finds h.runs
  -- what the run finds is determined by its operations
  obtain ⟨osInfo', looked', more', hlog, hfinds'⟩ := h.finds
  obtain ⟨-, rfl⟩ := hfinds.eq_of_append_eq hfinds' (List.cons.inj hlog).2
  rw [List.forall_mem_cons, List.forall_mem_append] at hsession
  have hlooks := hfinds.not_acts hsession.2.1
  obtain ⟨hwritten, hnone⟩ := runs_writeEdited henforce hsession.2.2 hrun
  constructor
  · -- what comes before the writes does not act, so it writes nothing
    rw [← hwritten, ← List.singleton_append, ← List.append_assoc]
    refine writtenText_append fun e he => written?_of_not_acts ?_
    rcases List.mem_append.mp he with he | he
    · rw [List.mem_singleton.mp he]
      exact id
    · exact hlooks e he
  · intro hedit
    obtain ⟨rfl, hadded⟩ := hnone hedit
    -- nothing comes behind the look
    refine ⟨hadded, List.forall_mem_cons.mpr ⟨id, ?_⟩⟩
    rw [List.append_nil]
    exact hlooks

/-! ### What is shown of a file -/

/-- What the SSH library may hand over of a text that a command prints: it decodes every chunk for
itself, and the text loses the white space at its ends. -/
def Delivers (text shown : String) : Prop :=
  ∃ chunks : List (List UInt8), chunks.flatten = Utf8.encode text ∧
    shown = JsText.trim (String.join (chunks.map Utf8.decode))

/-- **The host answers from the content** of the file, where it is asked for it. -/
def AnswersFrom (path : String) (content : Option String) : Event → Prop
  | ⟨.sftpReadFile p, answer⟩ => ∀ bytes, answer = .ok bytes → p = path →
    ∃ text, content = some text ∧ bytes = Utf8.encode text
  | ⟨.exec (.cat p) _, answer⟩ => ∀ output, answer.bind fallbackResult = .ok output → p = path →
    isOption path = false → path ≠ "-" → ∃ text, content = some text ∧ Delivers text output
  | _ => True

/-- **What is shown of a file** of which something is found: over SFTP the content, and over the
shell what is handed over of it, if `cat` takes the path for a file. -/
def ShowsContent (session : Session) (path : String) (content shown : Option String) : Prop :=
  ∀ found, shown = some found →
    if session.sftp then content = some found
    else isOption path = false → path ≠ "-" → ∃ text, content = some text ∧ Delivers text found

variable {content : Option String}

theorem readFile_shows (hlawful : rt.Lawful) :
    Ensures (fun e => SessionIs session e ∧ AnswersFrom path content e) (fun _ => True)
      (fun result => ∀ text, result = .ok text → ShowsContent session path content (some text))
      (readFile engine config sessionId path) := by
  refine ⟨trivial, fun answer ha => ?_⟩
  cases answer with
  | none => exact nofun
  | some s =>
    obtain rfl := looks_sessionIs sessionId s ha.1
    refine Ensures.tryCatch (Q := fun result => ∀ text, result = .ok text →
      ShowsContent s path content (some text)) ?_ (fun _ h => h) fun _ _ => nofun
    refine ensures_asserted engine rfl nofun fun _ => ?_
    refine Ensures.bind (performs_true _) (fun stats _ => ?_) fun _ _ => nofun
    change Ensures _ _ _ (if _ then _ else _)
    split
    · exact nofun
    split
    · next hsftp =>
      -- over the shell the text is the output of `cat`
      have hshell : s.sftp = false := by simpa using hsftp
      refine (execFallback_ensures (fun answer => AnswersFrom path content
        ⟨.exec (.cat path) "", answer⟩)
        (fun _ _ ha => ha.2) fun _ _ => trivial).mono fun result hresult text htext found hfound =>
          ?_
      obtain ⟨answer, hanswers, houtput⟩ := hresult text htext
      obtain rfl := Option.some.inj hfound
      rw [hshell, if_neg Bool.false_ne_true]
      exact hanswers text houtput rfl
    · next hsftp =>
      have hsftp : s.sftp = true := by simpa using hsftp
      refine ⟨trivial, fun answer ha => ?_⟩
      cases answer with
      | error => exact nofun
      | ok bytes =>
        intro text htext found hfound
        obtain ⟨text', rfl, rfl⟩ := ha.2 bytes rfl rfl
        obtain rfl := Option.some.inj hfound
        rw [hsftp, if_pos rfl, ← Except.ok.inj htext]
        exact congrArg some (hlawful.bufferText_utf8 text').symm

/-- **What a run finds is what is shown** of the content that the host answers from. -/
theorem LinesRun.shows (hlawful : rt.Lawful)
    (h : LinesRun engine config sessionId path state wanted createIfMissing found log result)
    (hsession : ∀ e ∈ log, SessionIs session e) (hanswers : ∀ e ∈ log, AnswersFrom path content e) :
    ShowsContent session path content found := by
  obtain ⟨osInfo, looked, more, rfl, hfinds⟩ := h.finds
  rw [List.forall_mem_cons, List.forall_mem_append] at hsession hanswers
  cases hfinds with
  | missing => exact nofun
  | file hexists hread =>
    rw [List.forall_mem_append] at hsession hanswers
    refine ((readFile_shows hlawful).of_runs hread fun e he => ?_).2 _ rfl
    exact ⟨hsession.2.1.2 e he, hanswers.2.1.2 e he⟩

/-! ### Files over SFTP -/

/-- What a request does that has looked. -/
theorem runs_of_finds (h : Finds engine config sessionId path looked found) {osInfo : OSInfo}
    (hrun : Runs (writeEdited engine config osInfo sessionId path (linesEdit state wanted found))
      more
      (.ok result)) :
    Runs (ensureLinesInFile engine config sessionId path wanted true state)
      (⟨.getOSInfo sessionId, .ok osInfo⟩ :: (looked ++ more)) (.ok result) := by
  change Runs (.perform (Operation.getOSInfo sessionId) _) _ _
  refine .perform _ ?_
  rw [done_andThen]
  cases h with
  | missing hexists =>
    refine runs_andThen_iff.mpr ⟨_, _, _, hexists, ?_, rfl⟩
    dsimp only
    rw [if_neg Bool.false_ne_true]
    cases state with
    | absent =>
      rw [if_pos rfl]
      exact hrun
    | present =>
      rw [if_neg nofun, if_neg (by decide)]
      exact hrun
  | file hexists hread =>
    rw [List.append_assoc]
    refine runs_andThen_iff.mpr ⟨_, _, _, hexists, ?_, rfl⟩
    dsimp only
    rw [if_pos rfl]
    exact runs_andThen_iff.mpr ⟨_, _, _, hread, hrun, rfl⟩

/-- The attributes of a file with a text. -/
def textStats (text : String) : Stats :=
  { mode := some 0o100644, size := some (Utf8.encode text).length, mtime := some 0 }

/-- How a file is looked at that is there. -/
def statLog (session : Session) (sessionId path text : String) : List Event :=
  [⟨.getSession sessionId, some session⟩, ⟨.getSession sessionId, some session⟩,
    ⟨.sftpStat path, .ok (textStats text)⟩]

variable (henforce : session.policyMode = .enforce) (hsftp : session.sftp = true)
variable (hpaths : ∀ action ∈ [PolicyAction.fsStat, .fsRead, .fsWrite],
  engine.Permits (pathContext action path .enforce))

include henforce hsftp hpaths

/-- A file is found, and read. -/
theorem finds_file (hlawful : rt.Lawful) {text : String}
    (hsize : text.utf8ByteSize ≤ config.maxFileSize) :
    Finds engine config sessionId path
      (statLog session sessionId path text ++
        (statLog session sessionId path text ++ [⟨.sftpReadFile path, .ok (Utf8.encode text)⟩]))
      (some text) := by
  obtain ⟨stats, hstat, hstats⟩ : ∃ stats : FileStatInfo,
      Runs (statFileInternal rt sessionId path)
        [⟨.getSession sessionId, some session⟩, ⟨.sftpStat path, .ok (textStats text)⟩]
        (.ok stats) ∧ stats.size = .ofInt (Utf8.encode text).length := by
    refine ⟨{
      size := .ofInt (Utf8.encode text).length
      mtime := toMilliseconds (.ofInt (0 : ℕ))
      mode := some (0o100644 : ℕ)
      type := (if modeType 0o100644 = .other then .other else modeType 0o100644 : FileType).text },
      runs_getSession ?_, rfl⟩
    change Runs (if _ then _ else _) _ _
    rw [hsftp, if_neg (by decide)]
    refine .perform _ ?_
    rw [done_andThen]
    exact .done _
  have hexceeds : exceeds stats.size config.maxFileSize = false := by
    rw [hstats]
    exact exceeds_encode hsize
  -- the decisions on looking and on reading both permit
  have hassert : ∀ {α : Type} (action : PolicyAction) {body : Task α} {log : List Event}
      {result : Except Failure α}, action ∈ [PolicyAction.fsStat, .fsRead, .fsWrite] →
      Runs body log result → Runs (ofExcept (engine.assertAllowed
        { action, path := some path, mode := some session.policyMode }) >>= fun _ => body) log
        result := by
    intro α action body log result haction hbody
    rw [henforce, engine.assertAllowed_eq, if_neg fun h => h.1 (hpaths action haction)]
    exact hbody
  refine .file ?_ ?_
  · refine Runs.tryCatch_ok (a := true) ?_
    have hfile : Runs (statFile engine sessionId path) _ (.ok stats) :=
      runs_getSession (Runs.tryCatch_ok (hassert .fsStat (by decide) hstat))
    exact hfile.bind (.done _)
  · refine runs_getSession (Runs.tryCatch_ok (hassert .fsRead (by decide) ?_))
    refine hstat.bind ?_
    change Runs (if _ then _ else _) _ _
    rw [Option.getD_none, hexceeds, if_neg Bool.false_ne_true, hsftp, if_neg (by decide)]
    change Runs (.perform (Operation.sftpReadFile path) _) _ _
    refine .perform _ ?_
    rw [done_andThen]
    dsimp only
    rw [hlawful.bufferText_utf8]
    exact .done _

variable (config session sessionId state wanted found) in
/-- **A request succeeds** over SFTP, whatever the file has in it, as long as the texts fit. -/
theorem exists_linesRun_of_permits (hlawful : rt.Lawful)
    (hread : ∀ text, found = some text → text.utf8ByteSize ≤ config.maxFileSize)
    (hwrite : ∀ text, (linesEdit state wanted found).1 = some text →
      text.utf8ByteSize ≤ config.maxFileWriteBytes) :
    ∃ log result, LinesRun engine config sessionId path state wanted true found log result ∧
      ∀ e ∈ log, SessionIs session e ∧ AnswersFrom path found e := by
  obtain ⟨looked, hfinds, hlooked⟩ : ∃ looked, Finds engine config sessionId path looked found ∧
      ∀ e ∈ looked, SessionIs session e ∧ AnswersFrom path found e := by
    cases found with
    | none =>
      refine ⟨_, .missing (runs_pathExists henforce hsftp (hpaths .fsStat (by decide))), ?_⟩
      simp [SessionIs, AnswersFrom]
    | some text =>
      refine ⟨_, finds_file henforce hsftp hpaths hlawful (hread text rfl), ?_⟩
      simp [statLog, SessionIs, AnswersFrom]
  -- and the direct write succeeds
  obtain ⟨more, result, hrun, hmore⟩ : ∃ more result,
      Runs (writeEdited engine config linuxHost sessionId path (linesEdit state wanted found)) more
        (.ok result) ∧ ∀ e ∈ more, SessionIs session e ∧ AnswersFrom path found e := by
    rcases hedit : linesEdit state wanted found with ⟨newContent, added⟩
    cases newContent with
    | none => exact ⟨[], _, .done _, fun _ he => absurd he List.not_mem_nil⟩
    | some content =>
      have hfits := hwrite content (by rw [hedit])
      have hwritten : Runs (writeFile engine config sessionId path content)
          (writeLog session sessionId path content "1") (.ok true) :=
        runs_writeFile henforce hsftp (hpaths .fsWrite (by decide)) hfits runs_sftpReplaceFile
      have hdirect : Runs (writeFile engine config sessionId path content >>= fun _ =>
          (pure () : Task Unit)) _ (.ok ()) := hwritten.bind (.done _)
      refine ⟨_, _, hdirect.tryCatch_ok.bind (.done _), ?_⟩
      simp [writeLog, SessionIs, AnswersFrom]
  refine ⟨_, result, ⟨runs_of_finds hfinds hrun, _, _, _, rfl, hfinds⟩, ?_⟩
  exact List.forall_mem_cons.mpr
    ⟨⟨trivial, trivial⟩, List.forall_mem_append.mpr ⟨hlooked, hmore⟩⟩

end Runs

/-! ### Every request -/

/-- **The text in the file** after the operations of a request, where it had the content before. -/
def textLeft (content : Option String) (log : List Event) : Option String :=
  (writtenText log).or content

theorem LinesRun.textLeft_eq {rt : Runtime} {engine : PolicyEngine rt} {config : ServerConfig}
    {session : Session} {sessionId path : String} {state : Presence} {wanted : List String}
    {createIfMissing : Bool} {found : Option String} {log : List Event} {result : LinesInFileResult}
    (h : LinesRun engine config sessionId path state wanted createIfMissing found log result)
    (henforce : session.policyMode = .enforce) (hsession : ∀ e ∈ log, SessionIs session e)
    (content : Option String) :
    textLeft content log = (linesEdit state wanted found).1.or content := by
  rw [textLeft, (h.edited henforce hsession).1]

theorem exists_permitting (rt : Runtime) :
    ∃ engine : PolicyEngine rt, ∀ path : String, Char.ofNat 0 ∉ path.toList →
      ∀ action ∈ [PolicyAction.fsStat, .fsRead, .fsWrite],
        engine.Permits (pathContext action path .enforce) := by
  obtain ⟨engine, -, hpermits⟩ := exists_permissive rt
  refine ⟨engine, fun path hnul action haction => hpermits action ?_ path hnul⟩
  revert action
  decide

/-- **When a second request only looks**, and reports that nothing has been added or removed: the
file is shown as it is to both, and the edit settles it, or what is shown of it to the second needs
none. -/
def SettlesContent (state : Presence) (wanted : List String)
    (shown content shown' content' : Option String) : Prop :=
  (shown = content ∧ shown' = content' → EditSettles state wanted content) ∧
    (¬(shown = content ∧ shown' = content') → NothingToEdit state wanted shown')

/-- Two requests one after the other, over SFTP. -/
theorem exists_twice {wanted : List String} {content after : Option String}
    (hafter : (linesEdit .present wanted content).1.or content = after)
    (hfits : ∀ text, content = some text → text.utf8ByteSize ≤ 1000)
    (hfits' : ∀ text, after = some text → text.utf8ByteSize ≤ 1000)
    (hfits'' : ∀ text, (linesEdit .present wanted after).1 = some text → text.utf8ByteSize ≤ 1000) :
    ∃ (engine : PolicyEngine decimalRuntime) (log log' : List Event)
      (result result' : LinesInFileResult),
      LinesRun engine sampleConfig "ssh-1" "/etc/hosts" .present wanted true content log result ∧
      LinesRun engine sampleConfig "ssh-1" "/etc/hosts" .present wanted true after log' result' ∧
      (∀ e ∈ log ++ log', SessionIs ⟨.enforce, true⟩ e) ∧
      (∀ e ∈ log, AnswersFrom "/etc/hosts" content e) ∧
      (∀ e ∈ log', AnswersFrom "/etc/hosts" after e) ∧ textLeft content log = after := by
  obtain ⟨engine, hpaths⟩ := exists_permitting decimalRuntime
  have hmode : (⟨.enforce, true⟩ : Session).policyMode = .enforce := rfl
  have hruns := fun found => exists_linesRun_of_permits sampleConfig "ssh-1" .present wanted found
    ⟨.enforce, true⟩ hmode rfl (hpaths "/etc/hosts" (by decide)) decimalRuntime_lawful
  obtain ⟨log, result, hrun, hall⟩ := hruns content hfits fun text h =>
    hfits' text (by rw [← hafter, h, Option.some_or])
  obtain ⟨log', result', hrun', hall'⟩ := hruns after hfits' hfits''
  refine ⟨engine, log, log', result, result', hrun, hrun', ?_, fun e he => (hall e he).2,
    fun e he => (hall' e he).2, ?_⟩
  · exact List.forall_mem_append.mpr ⟨fun e he => (hall e he).1, fun e he => (hall' e he).1⟩
  · rw [hrun.textLeft_eq hmode (fun e he => (hall e he).1), hafter]

end Ssh
