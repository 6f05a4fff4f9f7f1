import McpSshTool.Ssh.WriteAtomic

/-!
# Writing, then reading

What `readFile` yields after `writeFile`, on a host on which nothing fails of itself and whose SFTP
server refuses to rename over a file.

* `Ready` — what the two can rely on;
* `sftpReplaceFile_works`, `sftpReplaceFile_fails` — the write over SFTP;
* `moved_eq` — the write over the shell;
* `readFile_sftp`, `readFile_shell_iff` — what is read back;
* `write_then_read_iff` — when the data come back.
-/

open Library ShellWords

namespace Ssh

open Program

section WriteThenRead

variable {rt : Runtime} {engine : PolicyEngine rt} {config : ServerConfig} {session : Session}
  {host : Host} {files : Files} {sessionId path data tempPath : String} {mode : Option ℕ}

/-! ### Writing over SFTP -/

/-- The mode of a file that is written over SFTP. -/
def Host.sftpMode (host : Host) (mode : Option ℕ) : ℕ :=
  (mode.map (· &&& 0o7777)).getD host.defaultMode

/-- The mode is set, if one is given. -/
theorem sftpChmod_works {bytes : List UInt8} (mode : Option ℕ) (hne : tempPath ≠ path)
    (hfile : files tempPath = some (.file bytes host.defaultMode)) (hnone : files path = none) :
    Ends (fileHost session host {})
      (match mode with
        | some mode => sftpChmod tempPath mode
        | none => pure ()) files
      fun files' result => result = .ok () ∧
        files' tempPath = some (.file bytes (host.sftpMode mode)) ∧ files' path = none := by
  cases mode with
  | none => exact ⟨rfl, hfile, hnone⟩
  | some mode =>
    have hrun : execute (fileHost session host {}) (sftpChmod tempPath mode) files =
        answered (Host.chmod {} files tempPath (mode &&& 0o7777)) := rfl
    unfold Ends
    dsimp only
    rw [hrun]
    unfold Host.chmod
    rw [hfile]
    refine ⟨rfl, Function.update_self _ _ _, ?_⟩
    exact (Function.update_of_ne hne.symm _ _).trans hnone

theorem sftpReplaceFile_works {bytes : List UInt8} (hfresh : files tempPath = none)
    (hne : tempPath ≠ path) (htemp : host.makeable tempPath = true) (habsent : files path = none)
    (hpath : host.makeable path = true) :
    Ends (fileHost session host {}) (sftpReplaceFile path tempPath bytes mode) files
      fun files' result => result = .ok true ∧
        files' path = some (.file bytes (host.sftpMode mode)) := by
  have hwrite : Ends (fileHost session host {}) (sftpWriteFile tempPath bytes) files
      fun files' result => result = .ok () ∧
        files' tempPath = some (.file bytes host.defaultMode) ∧ files' path = none := by
    have hrun : execute (fileHost session host {}) (sftpWriteFile tempPath bytes) files =
        answered (host.write {} files tempPath bytes) := rfl
    have hleft : host.left {} tempPath bytes = some bytes := if_pos htemp
    have hwrites : host.writes {} tempPath = true := by simp [Host.writes, htemp]
    unfold Ends
    rw [hrun, write_fresh hfresh, hleft, hwrites]
    refine ⟨rfl, Function.update_self _ _ _, ?_⟩
    exact (Function.update_of_ne hne.symm _ _).trans habsent
  have hrename : ∀ files₂ : Files, files₂ tempPath = some (.file bytes (host.sftpMode mode)) →
      files₂ path = none →
      Ends (fileHost session host {}) (sftpRename tempPath path) files₂
        fun files' result => result = .ok () ∧
          files' path = some (.file bytes (host.sftpMode mode)) := by
    intro files₂ hfile hnone
    have hrun : execute (fileHost session host {}) (sftpRename tempPath path) files₂ =
        answered (host.rename {} files₂ host.overwrites tempPath path) := rfl
    have hreceives : host.receives files₂ host.overwrites path = true := by
      unfold Host.receives
      rw [hnone]
      exact hpath
    unfold Ends
    rw [hrun]
    unfold Host.rename
    rw [hfile]
    dsimp only
    rw [if_pos ⟨rfl, hreceives⟩]
    exact ⟨rfl, Function.update_self _ _ _⟩
  rw [sftpReplaceFile_eq]
  refine Ends.tryCatch (Q := fun files' result => result = .ok true ∧
    files' path = some (.file bytes (host.sftpMode mode))) ?_ (fun _ _ h => h)
    fun _ _ h => by cases h.1
  refine hwrite.bind (fun files₁ _ h₁ => ?_) fun _ _ h => by cases h.1
  refine (sftpChmod_works mode hne h₁.2.1 h₁.2.2).bind (fun files₂ _ h₂ => ?_) fun _ _ h => by
    cases h.1
  refine (hrename files₂ h₂.2.1 h₂.2.2).bind (fun files₃ _ h₃ => ?_) fun _ _ h => by cases h.1
  exact ends_done ⟨rfl, h₃.2⟩

/-- **Over SFTP no file is written over**, nor is one written where the temporary file cannot be. -/
theorem sftpReplaceFile_fails (hfresh : files tempPath = none) (hne : tempPath ≠ path)
    (h : host.makeable tempPath = false ∨ host.receives files host.overwrites path = false) :
    Ends (fileHost session host {}) (sftpReplaceFile path tempPath (Utf8.encode data) mode) files
      fun _ result => ∃ e, result = .error e := by
  rw [sftpReplaceFile_eq]
  refine Ends.tryCatch (Q := fun files' result => (∃ e, result = .error e) ∧
    OnlyTemp tempPath files files') ?_ (fun _ _ h => h.1) ?_
  · -- a step fails, or the one before it has
    have hwrites : Ends (fileHost session host {}) (sftpWriteFile tempPath (Utf8.encode data)) files
        fun _ result => ∀ a, result = .ok a → host.makeable tempPath = true := by
      have hrun : execute (fileHost session host {}) (sftpWriteFile tempPath (Utf8.encode data))
          files = answered (host.write {} files tempPath (Utf8.encode data)) := rfl
      unfold Ends
      rw [hrun, write_fresh hfresh]
      intro a ha
      cases hwrites : host.writes {} tempPath with
      | true => simpa [Host.writes] using hwrites
      | false =>
        rw [hwrites] at ha
        cases ha
    refine ((ends_sftpWriteFile hfresh).and hwrites).bind (fun files₁ _ h₁ => ?_)
      fun files₁ e h₁ => ⟨⟨e, rfl⟩, h₁.1.1⟩
    refine (ends_sftpChmod mode (h₁.1.2 _ rfl)).bind (fun files₂ _ h₂ => ?_)
      fun files₂ e h₂ => ⟨⟨e, rfl⟩, h₁.1.1.trans h₂.1⟩
    have hsame := h₁.1.1.trans h₂.1
    obtain ⟨m, hfile, _⟩ := h₂.2 _ rfl
    -- only the temporary file has changed, so the rename is refused still
    have hreceives : host.receives files₂ host.overwrites path = false := by
      obtain hmakeable | hreceives := h
      · rw [h₁.2 _ rfl] at hmakeable
        cases hmakeable
      · unfold Host.receives at hreceives ⊢
        rw [hsame.1 path hne.symm]
        exact hreceives
    have hrename : Ends (fileHost session host {}) (sftpRename tempPath path) files₂
        fun files' result => files' = files₂ ∧ result = .error sftpFailure := by
      have hrun : execute (fileHost session host {}) (sftpRename tempPath path) files₂ =
          answered (host.rename {} files₂ host.overwrites tempPath path) := rfl
      unfold Ends
      rw [hrun]
      unfold Host.rename
      rw [hfile]
      dsimp only
      rw [if_neg fun h => Bool.false_ne_true (hreceives.symm.trans h.2)]
      exact ⟨rfl, rfl⟩
    refine hrename.bind (fun _ _ h₃ => by cases h₃.2) fun files₃ e h₃ => ⟨⟨e, rfl⟩, ?_⟩
    rw [h₃.1]
    exact hsame
  · rintro files' e ⟨_, hsame⟩
    -- the temporary file is removed, and the error is thrown again
    exact (ends_cleanup e hsame.2).mono fun _ _ h => ⟨e, h.2.1⟩

/-! ### Writing over the shell -/

/-- What the script of a write does on a host on which nothing fails: what the `mv` leaves, and
whether it works. -/
def Host.moved (host : Host) (files : Files) (path data : String) (mode : Option ℕ) :
    Files × Bool :=
  host.mv {} (host.staged {} files data (tempPathFor path host.uuid) mode)
    (tempPathFor path host.uuid) path

/-- **The data are moved to a path** that is no option wherever the temporary file can be made. -/
theorem moved_eq (hfresh : files (tempPathFor path host.uuid) = none)
    (hfile : files path ≠ some .directory) (hpath : host.makeable path = true)
    (hoption : isOption path = false) :
    if host.makeable (tempPathFor path host.uuid) then
      (host.moved files path data mode).2 = true ∧ (host.moved files path data mode).1 path =
        some (.file (Utf8.encode data) (host.stagedMode {} (tempPathFor path host.uuid) mode))
    else (host.moved files path data mode).2 = false := by
  have hoption' := isOption_tempPathFor hoption host.uuid
  have hne := tempPathFor_ne path host.uuid
  unfold Host.moved
  rw [staged_fresh hfresh]
  split
  · next htemp =>
    have hleft : host.left {} (tempPathFor path host.uuid) (Utf8.encode data) =
        some (Utf8.encode data) := if_pos htemp
    have hother : Function.update files (tempPathFor path host.uuid) (some (Stored.file
        (Utf8.encode data) (host.stagedMode {} (tempPathFor path host.uuid) mode))) path =
          files path := Function.update_of_ne hne.symm _ _
    have hlanding : Host.landing (Function.update files (tempPathFor path host.uuid) (some
        (Stored.file (Utf8.encode data) (host.stagedMode {} (tempPathFor path host.uuid) mode))))
          (tempPathFor path host.uuid) path = path := if_neg (hother ▸ hfile)
    rw [hleft, Option.map_some, mv_eq (Function.update_self _ _ _) hoption' hoption, hlanding,
      if_pos]
    · exact ⟨rfl, Function.update_self _ _ _⟩
    · -- the path takes the file, be there one already or none
      refine ⟨hoption', hoption, rfl, ?_⟩
      unfold Host.receives
      rw [hlanding, hother]
      cases hstored : files path with
      | none => exact hpath
      | some stored =>
        cases stored with
        | file => rfl
        | directory => exact absurd hstored hfile
  · next htemp =>
    have hleft : host.left {} (tempPathFor path host.uuid) (Utf8.encode data) = none := if_neg htemp
    rw [hleft, Option.map_none, mv_none (Function.update_self _ _ _) hoption' hoption]

/-! ### Reading -/

theorem length_encode (text : String) : (Utf8.encode text).length = text.utf8ByteSize :=
  Array.length_toList

/-- What a read does that is permitted. -/
def readBody (rt : Runtime) (config : ServerConfig) (session : Session) (sessionId path : String) :
    Task String :=
  statFileInternal rt sessionId path >>= fun stats =>
    if exceeds stats.size config.maxFileSize then
      Program.throw (createLimitError
        ("File " ++ path ++ " is " ++ rt.numberText.render stats.size ++
          " bytes, which exceeds the " ++ toString config.maxFileSize ++ " byte read limit")
        (some "Use file_download for large files or raise SSH_MCP_MAX_FILE_SIZE intentionally."))
    else if !session.sftp then execFallback sessionId (.cat path)
    else sftpReadFile path >>= fun data => pure (rt.bufferText "utf8" data)

theorem ends_readFile_iff (henforce : session.policyMode = .enforce)
    (hpermits : engine.Permits (pathContext .fsRead path .enforce)) {text : String} :
    Ends (fileHost session host {}) (readFile engine config sessionId path) files
        (fun _ result => result = .ok text) ↔
      Ends (fileHost session host {}) (readBody rt config session sessionId path) files
        fun _ result => result = .ok text := by
  have hok : ∀ (files' : Files) (result : Except Failure String),
      result.mapError (fun e => wrapError e .EFS
        ("Failed to read file " ++ path ++ ". Check if the file exists and is readable.")) =
          .ok text ↔ result = .ok text := by
    intro files' result
    cases result with
    | ok => exact Iff.rfl
    | error => exact iff_of_false nofun nofun
  have hshape : Ends (fileHost session host {}) (readFile engine config sessionId path) files
        (fun _ result => result = .ok text) ↔
      Ends (fileHost session host {})
        (wrapping ("Failed to read file " ++ path ++ ". Check if the file exists and is readable.")
          (ofExcept (engine.assertAllowed (pathContext .fsRead path session.policyMode)) >>=
            fun _ =>
            readBody rt config session sessionId path)) files fun _ result => result = .ok text :=
    Iff.rfl
  rw [hshape, ends_wrapping, ends_congr hok, henforce, asserted_eq hpermits]

theorem execute_sftpStat (files : Files) : execute (fileHost session host {})
    (sftpStat path) files =
    (files, match files path with
      | some stored => .ok stored.attributes
      | none => .error noSuchFile) := rfl

/-- The size of a file, over SFTP. -/
theorem statFile_sftp (rt : Runtime) (hsftp : session.sftp = true) {content : List UInt8} {m : ℕ}
    (hfile : files path = some (.file content m)) :
    Ends (fileHost session host {}) (statFileInternal rt sessionId path) files
      fun files' result => files' = files ∧ ∃ stats, result = .ok stats ∧
        stats.size = .ofInt content.length := by
  have hstat : Ends (fileHost session host {}) (sftpStat path) files fun files' result =>
      files' = files ∧ result = .ok (Stored.attributes (.file content m)) := by
    unfold Ends
    rw [execute_sftpStat, hfile]
    exact ⟨rfl, rfl⟩
  have hshape : ∀ Q : Files → Except Failure FileStatInfo → Prop,
      Ends (fileHost session host {}) (statFileInternal rt sessionId path) files Q ↔
        Ends (fileHost session host {}) (sftpStat path >>= fun stats =>
          statTime stats >>= fun mtime => pure {
            size := .ofInt (stats.size.getD 0 : ℕ), mtime, mode := some (stats.mode.getD 0)
            type := (if modeType (stats.mode.getD 0) = .other then stats.reported
              else modeType (stats.mode.getD 0)).text }) files Q := by
    intro Q
    cases session with
    | mk policyMode sftp =>
      obtain rfl : sftp = true := hsftp
      exact Iff.rfl
  rw [hshape]
  refine hstat.bind (fun files' stats h => ?_) fun _ _ h => by cases h.2
  obtain ⟨rfl, hstats⟩ := h
  obtain rfl := Except.ok.inj hstats
  exact ⟨rfl, _, rfl, rfl⟩

/-- The fields of the line that the shell prints of a file. -/
theorem splitText_stat (size mode : ℕ) :
    (splitText ("file\t" ++ toString size ++ "\t0\t" ++ octal mode) '\t').getD 1 "0" =
      toString size := by
  have hsize : '\t' ∉ (toString size).toList := by
    exact fun h => Bool.noConfusion (JsText.digits_of_nat size _ h)
  have hfile : '\t' ∉ "file".toList := by decide
  have htext : ("file\t" ++ toString size ++ "\t0\t" ++ octal mode).toList =
      "file".toList ++ '\t' :: ((toString size).toList ++ '\t' ::
        ('0' :: '\t' :: (octal mode).toList)) := by
    simp only [String.toList_append, List.append_assoc]
    rfl
  unfold splitText
  rw [htext, List.splitOn_append_cons_self_of_not_mem hfile,
    List.splitOn_append_cons_self_of_not_mem hsize, List.map_cons, List.map_cons,
    String.ofList_toList, String.ofList_toList]
  rfl

/-- It has no white space at its ends. -/
theorem trim_stat (size mode : ℕ) :
    JsText.trim ("file\t" ++ toString size ++ "\t0\t" ++ octal mode) =
      "file\t" ++ toString size ++ "\t0\t" ++ octal mode := by
  have hdigits : (octal mode).toList = Nat.toDigits 8 mode := String.toList_ofList
  refine JsText.trim_eq_self ?_ ?_
  · intro c hc
    obtain rfl : 'f' = c := by simpa using hc
    decide
  · intro c hc
    rw [String.toList_append, List.getLast?_append_of_ne_nil _
      (by rw [hdigits]; exact Nat.toDigits_ne_nil),
      hdigits] at hc
    obtain ⟨hlow, hhigh⟩ := octal_digits c (List.mem_of_getLast? hc)
    have hlow : 48 ≤ c.toNat := hlow
    have hhigh : c.toNat ≤ 55 := hhigh
    unfold JsText.isSpace
    simp only [List.mem_cons, List.not_mem_nil, or_false, Bool.or_eq_false_iff,
      decide_eq_false_iff_not, Bool.and_eq_false_iff]
    omega

/-- What is read of the line that the shell prints. -/
def shellStat (rt : Runtime) (output : String) : FileStatInfo where
  size := rt.numberText.parse ((splitText (JsText.trim output) '\t').getD 1 "0")
  mtime := toMilliseconds (rt.numberText.parse ((splitText (JsText.trim output) '\t').getD 2 "0"))
  mode := parseOctal ((splitText (JsText.trim output) '\t').getD 3 "0")
  type := (splitText (JsText.trim output) '\t').getD 0 "other"

theorem ends_statFileInternal_shell (rt : Runtime) (hsftp : session.sftp = false)
    {Q : Files → Except Failure FileStatInfo → Prop} :
    Ends (fileHost session host {}) (statFileInternal rt sessionId path) files Q ↔
      Ends (fileHost session host {}) (execFallback sessionId (.stat path)) files
        fun files' result => Q files' (result.map (shellStat rt)) := by
  rw [← ends_bind_pure]
  cases session with
  | mk policyMode sftp =>
    obtain rfl : sftp = false := hsftp
    exact Iff.rfl

theorem ascii_of_all {text : String} (h : text.toList.all (fun c => c.toNat < 0x80) = true) :
    ∀ c ∈ text.toList, c.toNat < 0x80 :=
  fun c hc => of_decide_eq_true (List.all_eq_true.mp h c hc)

theorem ascii_portableStat (files : Files) (path : String) :
    ∀ c ∈ (Host.portableStat files path).toList, c.toNat < 0x80 := by
  have hdigits : ∀ n : ℕ, ∀ c ∈ (toString n).toList, c.toNat < 0x80 := fun n c hc => by
    have hdigit : c.toNat ≤ 57 := (Char.isDigit_iff_toNat.mp (JsText.digits_of_nat n c hc)).2
    omega
  have hoctal : ∀ m : ℕ, ∀ c ∈ (octal m).toList, c.toNat < 0x80 := fun m c hc => by
    rw [octal, String.toList_ofList] at hc
    have hdigit : c.toNat ≤ 55 := (octal_digits c hc).2
    omega
  unfold Host.portableStat
  split
  · simp only [String.toList_append, List.forall_mem_append]
    exact ⟨⟨⟨ascii_of_all (by decide), hdigits _⟩, ascii_of_all (by decide)⟩, hoctal _⟩
  · exact ascii_of_all (by decide)
  · exact ascii_of_all (by decide)

/-- What is read of what the shell tells of a path. -/
def Host.toldOf (rt : Runtime) (host : Host) (files : Files) (path : String) : FileStatInfo :=
  shellStat rt (host.deliver (host.runScript {} files (.stat path)).output)

/-- The size of a file, over the shell. -/
theorem size_toldOf (hnumbers : ∀ n : ℕ, rt.numberText.parse (toString n) = .ofInt n)
    (hoption : isOption path = false) {content : List UInt8} {m : ℕ}
    (hfile : files path = some (.file content m)) :
    (host.toldOf rt files path).size = .ofInt content.length := by
  have hprinted : (host.runScript {} files (.stat path)).output =
      Utf8.encode (Host.portableStat files path) :=
        if_neg (by rw [hoption]; exact Bool.false_ne_true)
  have htext : Host.portableStat files path =
      "file\t" ++ toString content.length ++ "\t0\t" ++ octal m := by
    unfold Host.portableStat
    rw [hfile]
  unfold Host.toldOf shellStat
  rw [hprinted, Host.deliver_ascii (ascii_portableStat files path), htext, trim_stat, trim_stat]
  dsimp only
  rw [splitText_stat, hnumbers]

theorem statFile_shell (rt : Runtime) (hsftp : session.sftp = false)
    (htakes : host.ShellTakes {} (.stat path)) (files : Files) :
    Ends (fileHost session host {}) (statFileInternal rt sessionId path) files
      fun files' result => files' = files ∧ result = .ok (host.toldOf rt files path) := by
  rw [ends_statFileInternal_shell rt hsftp, ends_execFallback htakes trivial]
  exact ⟨rfl, rfl⟩

theorem statFile_not_taken (rt : Runtime) (hsftp : session.sftp = false)
    (htakes : ¬host.ShellTakes {} (.stat path)) :
    Ends (fileHost session host {}) (statFileInternal rt sessionId path) files
      fun _ result => ∃ e, result = .error e := by
  rw [ends_statFileInternal_shell rt hsftp]
  exact ends_execFallback_of_not_takes htakes fun e => ⟨e, rfl⟩

theorem exceeds_encode (hsize : data.utf8ByteSize ≤ config.maxFileSize) :
    exceeds (.ofInt (Utf8.encode data).length) config.maxFileSize = false := by
  rw [length_encode]
  simpa [exceeds, JsNumber.ofInt] using hsize

theorem execute_sftpReadFile (files : Files) :
    execute (fileHost session host {}) (sftpReadFile path) files = (files,
      match Host.content files path with
        | some bytes => .ok bytes
        | none => .error sftpFailure) := rfl

/-- **Over SFTP a file is read back as it was written.** -/
theorem readFile_sftp (hlawful : rt.Lawful) (henforce : session.policyMode = .enforce)
    (hpermits : engine.Permits (pathContext .fsRead path .enforce)) (hsftp : session.sftp = true)
    (hsize : data.utf8ByteSize ≤ config.maxFileSize) {m : ℕ} (hreadable : readable m = true)
    (hfile : files path = some (.file (Utf8.encode data) m)) :
    Ends (fileHost session host {}) (readFile engine config sessionId path) files
      fun _ result => result = .ok data := by
  rw [ends_readFile_iff henforce hpermits]
  refine (statFile_sftp rt hsftp hfile).bind (fun files' stats h => ?_) fun _ _ h => ?_
  · obtain ⟨rfl, _, hstats, hstat⟩ := h
    obtain rfl := Except.ok.inj hstats
    have hcontent : Host.content files' path = some (Utf8.encode data) := by
      unfold Host.content
      rw [hfile]
      exact if_pos hreadable
    rw [hstat, exceeds_encode hsize, if_neg Bool.false_ne_true, hsftp, if_neg (by decide),
      ends_bind_pure]
    unfold Ends
    rw [execute_sftpReadFile, hcontent]
    exact congrArg Except.ok (hlawful.bufferText_utf8 data)
  · obtain ⟨_, _, hstats, _⟩ := h
    cases hstats

/-- **Over the shell a read is what `cat` prints**, where the host is given the scripts and the size
that it tells is within the limit. -/
theorem readFile_shell_iff (henforce : session.policyMode = .enforce)
    (hpermits : engine.Permits (pathContext .fsRead path .enforce)) (hsftp : session.sftp = false) :
    Ends (fileHost session host {}) (readFile engine config sessionId path) files
        (fun _ result => result = .ok data) ↔
      host.ShellTakes {} (.stat path) ∧ host.ShellTakes {} (.cat path) ∧
        exceeds (host.toldOf rt files path).size config.maxFileSize = false ∧
          (host.runScript {} files (.cat path)).ok = true ∧
            host.deliver (host.runScript {} files (.cat path)).output = data := by
  rw [ends_readFile_iff henforce hpermits]
  by_cases hstat : host.ShellTakes {} (.stat path)
  · obtain ⟨hsame, hstats⟩ : (execute (fileHost session host {})
        (statFileInternal rt sessionId path) files).1 = files ∧ (execute
          (fileHost session host {}) (statFileInternal rt sessionId path) files).2 =
            .ok (host.toldOf rt files path) :=
      statFile_shell rt hsftp hstat files
    unfold readBody
    unfold Ends
    rw [bind_eq, execute_andThen, hsame, hstats, and_iff_right hstat]
    dsimp only
    split
    · -- the file is too large to be read
      next hlarge => exact iff_of_false nofun fun h => Bool.noConfusion (hlarge.symm.trans h.2.1)
    · next hsmall =>
      rw [hsftp, if_pos (by rfl)]
      change Ends (fileHost session host {}) (execFallback sessionId (.cat path)) files
        (fun _ result => result = .ok data) ↔ _
      by_cases hcat : host.ShellTakes {} (.cat path)
      · rw [ends_execFallback hcat trivial, and_iff_right hcat,
          and_iff_right (Bool.eq_false_of_not_eq_true hsmall)]
        split
        · next hok => exact ⟨fun h => ⟨hok, Except.ok.inj h⟩, fun h => congrArg Except.ok h.2⟩
        · next hok => exact iff_of_false nofun fun h => hok h.1
      · refine iff_of_false (fun h => ?_) fun h => hcat h.1
        have herror : Ends (fileHost session host {}) (execFallback sessionId (.cat path)) files
            fun _ result => ∃ e, result = .error e :=
          ends_execFallback_of_not_takes hcat fun e => ⟨e, rfl⟩
        obtain ⟨e, he⟩ := herror
        cases he.symm.trans h
  · refine iff_of_false (fun h => ?_) fun h => hstat h.1
    have herror : Ends (fileHost session host {}) (readBody rt config session sessionId path) files
        fun _ result => ∃ e, result = .error e :=
      (statFile_not_taken rt hsftp hstat).bind (fun _ _ h => h.elim fun _ h => by cases h)
        fun _ e _ => ⟨e, rfl⟩
    obtain ⟨e, he⟩ := herror
    cases he.symm.trans h

/-- What `cat` prints of a file that may be read. The dash alone is the standard input to it, and
there is none. -/
theorem cat_iff (hoption : isOption path = false) {m : ℕ} (hreadable : readable m = true)
    (hfile : files path = some (.file (Utf8.encode data) m)) :
    ((host.runScript {} files (.cat path)).ok = true ∧
        host.deliver (host.runScript {} files (.cat path)).output = data) ↔
      Utf8.CutsBetween (host.chunks (Utf8.encode data)) ∧ JsText.trim data = data ∧
        (path = "-" → data = "") := by
  have hnot : ¬isOption path = true := by rw [hoption]; exact Bool.false_ne_true
  have hcontent : Host.content files path = some (Utf8.encode data) := by
    unfold Host.content
    rw [hfile]
    exact if_pos hreadable
  rw [runScript_cat, Host.runCommand, if_neg hnot]
  by_cases hdash : path = "-"
  · have hnothing : host.deliver [] = "" :=
      @Host.deliver_ascii host "" (ascii_of_all (by decide))
    rw [if_pos hdash, and_iff_right rfl, hnothing]
    constructor
    · rintro rfl
      have hempty := @Host.deliver_encode_iff host ""
      exact ⟨(hempty.mp hnothing).1, rfl, fun _ => rfl⟩
    · exact fun h => (h.2.2 hdash).symm
  · rw [if_neg hdash, hcontent, and_iff_right rfl, Host.deliver_encode_iff]
    exact and_congr_right fun _ => (and_iff_left fun h => absurd h hdash).symm

/-! ### Writing, then reading -/

/-- **What a write and a read of the same path can rely on.** The policy permits both, the data are
within the limits, a file can be made at the path and there is none or one, and the owner of a file
may read it. -/
structure Ready (engine : PolicyEngine rt) (config : ServerConfig) (session : Session) (host : Host)
    (files : Files) (path data : String) (mode : Option ℕ) : Prop where
  enforces : session.policyMode = .enforce
  permits_write : engine.Permits (pathContext .fsWrite path .enforce)
  permits_read : engine.Permits (pathContext .fsRead path .enforce)
  writable : data.utf8ByteSize ≤ config.maxFileWriteBytes
  fits : data.utf8ByteSize ≤ config.maxFileSize
  makeable : host.makeable path = true
  target : files path ≠ some .directory
  fresh : files (tempPathFor path host.uuid) = none
  given : ∀ m, mode = some m → readable m = true
  default : readable host.defaultMode = true

/-- **The data that are written are read back.** -/
def WritesThenReads (engine : PolicyEngine rt) (config : ServerConfig) (session : Session)
    (host : Host) (files : Files) (sessionId path data : String) (mode : Option ℕ) : Prop :=
  Ends (fileHost session host {}) (writeFile engine config sessionId path data mode) files
    fun files' result => result = .ok true ∧
      Ends (fileHost session host {}) (readFile engine config sessionId path) files'
        fun _ result => result = .ok data

/-- **What the shell carries**: the host is given the scripts, the temporary file can be made, and
the data have no white space at their ends and are cut in no character on their way. Where the
utilities read the path as options, they have to do as if they had written it and read it. -/
def ShellCarries (rt : Runtime) (config : ServerConfig) (host : Host) (files : Files)
    (path data : String) (mode : Option ℕ) : Prop :=
  (∀ script ∈ [writeScript host path data mode, .stat path, .cat path],
      host.ShellTakes {} script) ∧
    if isOption path then
      let after := (host.moved files path data mode).1
      (host.moved files path data mode).2 = true ∧
        exceeds (host.toldOf rt after path).size config.maxFileSize = false ∧
          (host.optioned (.cat path) after).ok = true ∧
            host.deliver (host.optioned (.cat path) after).output = data
    else
      host.makeable (tempPathFor path host.uuid) = true ∧
        Utf8.CutsBetween (host.chunks (Utf8.encode data)) ∧ JsText.trim data = data ∧
          (path = "-" → data = "")

theorem Ready.readable_sftpMode (h : Ready engine config session host files path data mode) :
    readable (host.sftpMode mode) = true := by
  unfold Host.sftpMode
  cases mode with
  | none => exact h.default
  | some m =>
    have hm := h.given m rfl
    unfold readable at hm ⊢
    rw [Option.map_some, Option.getD_some, Nat.testBit_and, hm]
    decide

theorem Ready.readable_stagedMode (h : Ready engine config session host files path data mode) :
    readable (host.stagedMode {} tempPath mode) = true := by
  unfold Host.stagedMode
  cases mode with
  | none => exact h.default
  | some m =>
    dsimp only
    split
    · exact h.given m rfl
    · exact h.default

theorem Ready.letsWrite (h : Ready engine config session host files path data mode) :
    LetsWrite engine config session path data :=
  ⟨h.enforces, h.permits_write, h.writable⟩

theorem not_writesThenReads (hready : Ready engine config session host files path data mode)
    (hfails : Ends (fileHost session host {})
      (replaceFile session sessionId path (tempPathFor path host.uuid) data mode) files
      fun _ result => ∃ e, result = .error e) :
    ¬WritesThenReads engine config session host files sessionId path data mode := by
  intro h
  unfold WritesThenReads at h
  rw [ends_writeFile_of_lets hready.letsWrite] at h
  obtain ⟨e, he⟩ := hfails
  have hok := h.1
  rw [he] at hok
  cases hok

/-- **A write and a read over the shell**: the `mv` has to work, and then the `cat`, on the data. -/
theorem writesThenReads_shell_iff (hready : Ready engine config session host files path data mode)
    (hsftp : session.sftp = false) :
    WritesThenReads engine config session host files sessionId path data mode ↔
      (∀ script ∈ [writeScript host path data mode, .stat path, .cat path],
          host.ShellTakes {} script) ∧
        (host.moved files path data mode).2 = true ∧
          exceeds (host.toldOf rt (host.moved files path data mode).1 path).size
              config.maxFileSize = false ∧
            (host.runScript {} (host.moved files path data mode).1 (.cat path)).ok = true ∧
              host.deliver (host.runScript {} (host.moved files path data mode).1
                (.cat path)).output = data := by
  rw [List.forall_mem_cons, List.forall_mem_cons, List.forall_mem_singleton]
  by_cases htakes : host.ShellTakes {} (writeScript host path data mode)
  · have hrun : WritesThenReads engine config session host files sessionId path data mode ↔
        (host.moved files path data mode).2 = true ∧ Ends (fileHost session host {})
          (readFile engine config sessionId path) (host.moved files path data mode).1
            fun _ result => result = .ok data := by
      unfold WritesThenReads Host.moved
      rw [ends_writeFile_of_lets hready.letsWrite, ends_replaceFile_shell hsftp htakes]
      generalize host.mv {} (host.staged {} files data (tempPathFor path host.uuid) mode)
        (tempPathFor path host.uuid) path = moved
      obtain ⟨files', ok⟩ := moved
      cases ok with
      | true => exact and_congr_left fun _ => iff_of_true rfl rfl
      | false => exact iff_of_false (fun h => nomatch h.1) fun h => nomatch h.1
    rw [hrun, readFile_shell_iff hready.enforces hready.permits_read hsftp]
    exact ⟨fun h => ⟨⟨htakes, h.2.1, h.2.2.1⟩, h.1, h.2.2.2⟩,
      fun h => ⟨h.2.1, h.1.2.1, h.1.2.2, h.2.2⟩⟩
  · refine iff_of_false (not_writesThenReads hready ?_) fun h => htakes h.1.1
    unfold replaceFile
    rw [hsftp, if_pos (by rfl), ends_bind_pure]
    exact ends_execFallback_of_not_takes htakes fun e => ⟨e, rfl⟩

end WriteThenRead

/-! ### A sample -/

theorem decimalRuntime_numbers (n : ℕ) :
    decimalRuntime.numberText.parse (toString n) = .ofInt n := by
  have hdigits : (toString n).toList = Nat.toDigits 10 n := by
    rw [Nat.toString_eq_repr, Nat.toList_repr]
  have hall : (Nat.toDigits 10 n).all Char.isDigit = true := by
    rw [List.all_eq_true]
    exact fun c hc => Nat.isDigit_of_mem_toDigits (by decide) (by decide) hc
  have hvalue : (Nat.toDigits 10 n).foldl (fun n c => 10 * n + (c.toNat - '0'.toNat)) 0 = n := by
    rw [← Nat.ofDigitChars_eq_foldl]
    exact Nat.ofDigitChars_toDigits (by decide) (by decide)
  unfold decimalRuntime
  dsimp only
  rw [hdigits, if_pos ⟨Nat.toDigits_ne_nil, hall⟩, hvalue]

theorem exists_ready (sftp : Bool) {files : Files} (htarget : files "/tmp/file" ≠ some .directory)
    (hfresh : files (tempPathFor "/tmp/file" sampleHost.uuid) = none) :
    ∃ engine : PolicyEngine decimalRuntime, engine.config = {} ∧
      Ready engine sampleConfig ⟨.enforce, sftp⟩ sampleHost files "/tmp/file" "data" none := by
  obtain ⟨engine, hengine, hpermits⟩ := exists_permissive decimalRuntime
  refine ⟨engine, hengine, rfl, ?_, ?_, by decide, by decide, rfl, htarget, hfresh, nofun, rfl⟩
  · exact hpermits .fsWrite (by decide) _ (by decide)
  · exact hpermits .fsRead (by decide) _ (by decide)

/-! ### Exactness -/

/-- **When a file is read back as it was written.** Over SFTP the temporary file must be makeable
and the path free, since RENAME does not replace; over the shell the text must be one that it
carries. -/
theorem write_then_read_iff {rt : Runtime} {engine : PolicyEngine rt} {config : ServerConfig}
    {session : Session} {host : Host} {files : Files} {path data : String} {mode : Option ℕ}
    (hlawful : rt.Lawful) (hnumbers : ∀ n : ℕ, rt.numberText.parse (toString n) = .ofInt n)
    (hrefuses : host.overwrites = false)
    (hready : Ready engine config session host files path data mode) (sessionId : String) :
    WritesThenReads engine config session host files sessionId path data mode ↔
      if session.sftp then host.makeable (tempPathFor path host.uuid) = true ∧ files path = none
      else ShellCarries rt config host files path data mode := by
  have hne := tempPathFor_ne path host.uuid
  cases hsftp : session.sftp with
  | true =>
    rw [if_pos rfl]
    by_cases hcond : host.makeable (tempPathFor path host.uuid) = true ∧ files path = none
    · refine iff_of_true ?_ hcond
      unfold WritesThenReads
      rw [ends_writeFile_of_lets hready.letsWrite, replaceFile_sftp hsftp]
      refine (sftpReplaceFile_works hready.fresh hne hcond.1 hcond.2 hready.makeable).mono
        fun files' result h => ⟨by rw [h.1]; rfl, ?_⟩
      exact readFile_sftp hlawful hready.enforces hready.permits_read hsftp hready.fits
        hready.readable_sftpMode h.2
    · refine iff_of_false (not_writesThenReads hready ?_) hcond
      rw [replaceFile_sftp hsftp]
      refine sftpReplaceFile_fails hready.fresh hne ?_
      rw [Classical.not_and_iff_not_or_not, Bool.not_eq_true] at hcond
      refine hcond.imp_right fun hthere => ?_
      -- a file is there, and is not replaced
      unfold Host.receives
      cases hstored : files path with
      | none => exact absurd hstored hthere
      | some stored =>
        cases stored with
        | file => exact hrefuses
        | directory => rfl
  | false =>
    rw [if_neg Bool.false_ne_true, writesThenReads_shell_iff hready hsftp]
    refine and_congr_right fun _ => ?_
    cases hoption : isOption path with
    | true =>
      rw [if_pos rfl, runScript_cat, Host.runCommand, if_pos hoption]
    | false =>
      rw [if_neg Bool.false_ne_true]
      have hmoved := @moved_eq host files path data mode hready.fresh hready.target hready.makeable
        hoption
      split at hmoved
      · next htemp =>
        obtain ⟨hworks, hfile⟩ := hmoved
        rw [and_iff_right htemp, and_iff_right hworks, size_toldOf hnumbers hoption hfile,
          exceeds_encode hready.fits, and_iff_right rfl,
          cat_iff hoption hready.readable_stagedMode hfile]
      · next htemp =>
        exact iff_of_false (fun h => Bool.noConfusion (hmoved.symm.trans h.1)) fun h => htemp h.1

/-- A host without files. -/
def noFiles : Files := fun _ => none

/-- A new file is read back over SFTP. -/
theorem write_then_read_iff_new :
    ∃ engine : PolicyEngine decimalRuntime, engine.config = {} ∧
      WritesThenReads engine sampleConfig ⟨.enforce, true⟩ sampleHost noFiles "ssh-1" "/tmp/file"
        "data" none := by
  obtain ⟨engine, hengine, hready⟩ :=
    exists_ready true (show noFiles "/tmp/file" ≠ _ from nofun) rfl
  refine ⟨engine, hengine, ?_⟩
  exact (write_then_read_iff decimalRuntime_lawful decimalRuntime_numbers rfl hready "ssh-1").mpr
    ⟨rfl, rfl⟩

/-- A host on which the file is there. -/
def fileThere : Files := Function.update noFiles "/tmp/file" (some (.file [] 0o644))

/-- Over SFTP a file that is there cannot be written. -/
theorem overwrite_fails :
    ∃ engine : PolicyEngine decimalRuntime, engine.config = {} ∧
      Ready engine sampleConfig ⟨.enforce, true⟩ sampleHost fileThere "/tmp/file" "data" none ∧
        ¬WritesThenReads engine sampleConfig ⟨.enforce, true⟩ sampleHost fileThere "ssh-1"
          "/tmp/file" "data" none := by
  have hne := tempPathFor_ne "/tmp/file" sampleHost.uuid
  have hthere : fileThere "/tmp/file" = some (.file [] 0o644) := Function.update_self _ _ _
  have hfresh : fileThere (tempPathFor "/tmp/file" sampleHost.uuid) = none :=
    Function.update_of_ne hne _ _
  obtain ⟨engine, hengine, hready⟩ := exists_ready true (by rw [hthere]; nofun) hfresh
  refine ⟨engine, hengine, hready, not_writesThenReads hready ?_⟩
  have hreceives : sampleHost.receives fileThere sampleHost.overwrites "/tmp/file" = false := by
    unfold Host.receives
    rw [hthere]
    rfl
  rw [replaceFile_sftp rfl]
  exact sftpReplaceFile_fails hfresh hne (.inr hreceives)

end Ssh
