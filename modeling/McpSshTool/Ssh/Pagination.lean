import Mathlib.Data.List.Forall2
import McpSshTool.Ssh.LinesInFile
import McpSshTool.Ssh.RunInversion

/-!
# Pages of a directory

A client asks for page 0 of a directory and follows `nextToken` from page to page. Where the
directory stays as it is, the pages make up its listing.

* `Listing` — what a directory tells, over SFTP or through the shell, with the entries it stands
  for;
* `PageRun`, `Walk` — one page, and pages that are followed by their tokens;
* `walk_entries` — the pages are successive parts of the listing;
* `pagination_lossless` — they come to an end, with the whole listing.

An SFTP server need not tell when an entry was modified. The time of the request stands for it then,
so what an entry of the listing stands for is a condition on entries.
-/

open Library Program

namespace Ssh

/-! ### Listings -/

/-- What a directory tells that does not change. -/
inductive Listing where
  /-- The output of the listing script. -/
  | shell (output : String)
  | sftp (fileList : List FileEntry)

/-- Whether an entry stands for an item of an SFTP listing, at some time. -/
def Shows (item : FileEntry) (entry : DirEntry) : Prop :=
  ∃ time : ℕ, entry = {
    name := item.filename
    type := (modeType (item.attrs.mode.getD 0)).text
    size := item.attrs.size.map fun size => .ofInt size
    mtime := item.attrs.mtime.elim (.ofInt time) fun seconds => toMilliseconds (.ofInt seconds)
    mode := item.attrs.mode }

/-- **The items of a listing**, by what their entries are. -/
def Listing.items (rt : Runtime) : Listing → List (DirEntry → Prop)
  | .shell output =>
    ((splitLines output).filter (· ≠ "")).map fun line entry => entry = parseDirEntry rt line
  | .sftp fileList => fileList.map Shows

/-- The entries are those of the items, one for each and in their order. -/
def Enumerates (items : List (DirEntry → Prop)) (entries : List DirEntry) : Prop :=
  List.Forall₂ (fun item entry => item entry) items entries

/-- The directory is told so, over its transport. -/
def Listing.Told (listing : Listing) : Event → Prop
  | ⟨.getSession _, some session⟩ =>
    match listing with
    | .shell _ => session.sftp = false
    | .sftp _ => session.sftp = true
  | ⟨.exec (.list _) _, .ok result⟩ =>
    match listing with
    | .shell output => result.stdout = output
    | .sftp _ => True
  | ⟨.sftpReaddir _, .ok fileList⟩ =>
    match listing with
    | .shell _ => True
    | .sftp fileList' => fileList = fileList'
  | _ => True

/-! ### One page -/

section Pages

variable {rt : Runtime} (engine : PolicyEngine rt) (sessionId path : String) (limit : ℕ)
variable (listing : Listing)

/-- **A page** that is asked for and returned. -/
def PageRun (page : ℕ) (result : DirListResult) : Prop :=
  ∃ log, Runs (listDirectory engine sessionId path (some page) limit) log (.ok result) ∧
    ∀ e ∈ log, listing.Told e

/-- **Pages that are followed by their tokens**, from a page on, with the token of the last one. -/
inductive Walk : ℕ → List DirListResult → Option String → Prop
  | one {page : ℕ} {result : DirListResult}
      (h : PageRun engine sessionId path limit listing page result) :
      Walk page [result] result.nextToken
  | more {page next : ℕ} {result : DirListResult} {results : List DirListResult}
      {token : Option String} (h : PageRun engine sessionId path limit listing page result)
      (htoken : result.nextToken = some (toString next)) (hrest : Walk next results token) :
      Walk page (result :: results) token

variable {engine sessionId path limit listing} {log : List Event}

/-- The entries of an SFTP listing. -/
theorem enumerates_of_runs {fileList : List FileEntry} {entries : List DirEntry}
    (h : Runs (Program.traverse dirEntry fileList) log (.ok entries)) :
    Enumerates (fileList.map Shows) entries := by
  induction fileList generalizing log entries with
  | nil =>
    obtain rfl := Except.ok.inj (runs_done_iff.mp h).2
    exact .nil
  | cons item fileList ih =>
    replace h := runs_bind_ok h
    obtain ⟨entry, log₁, log₂, rfl, hitem, h⟩ := h
    replace h := runs_bind_ok h
    obtain ⟨entries', log₃, log₄, rfl, hentries, h⟩ := h
    obtain rfl := Except.ok.inj (runs_done_iff.mp h).2
    refine .cons ?_ (ih hentries)
    -- the server tells the time, or the clock is asked
    replace hitem := runs_bind_ok hitem
    obtain ⟨mtime, log₅, log₆, rfl, htime, hitem⟩ := hitem
    obtain rfl := Except.ok.inj (runs_done_iff.mp hitem).2
    unfold statTime at htime
    cases hmtime : item.attrs.mtime with
    | some =>
      rw [hmtime] at htime
      obtain rfl := Except.ok.inj (runs_done_iff.mp htime).2
      exact ⟨0, by rw [hmtime]; rfl⟩
    | none =>
      rw [hmtime] at htime
      replace htime := runs_now htime
      obtain ⟨time, log', rfl, htime⟩ := htime
      obtain rfl := Except.ok.inj (runs_done_iff.mp htime).2
      exact ⟨time, by rw [hmtime]; rfl⟩

/-- The output of a script that has succeeded. -/
theorem runs_execFallback_ok {script : Script} {output : String}
    (h : Runs (execFallback sessionId script) log (.ok output)) :
    ∃ sent result, ⟨.exec script sent, .ok result⟩ ∈ log ∧ result.stdout = output := by
  replace h := runs_getSession_ok h
  obtain ⟨session, log, rfl, h⟩ := h
  replace h := runs_getOSInfo_ok h
  obtain ⟨osInfo, log, rfl, h⟩ := h
  replace h := runs_ofExcept_ok h
  obtain ⟨sent, -, h⟩ := h
  replace h := runs_perform_ok (.exec script sent) id h
  obtain ⟨_, result, log, rfl, rfl, h⟩ := h
  refine ⟨sent, result, .tail _ (.tail _ (.head _)), ?_⟩
  split at h
  · exact absurd (runs_done_iff.mp h).2 nofun
  · exact (Except.ok.inj (runs_done_iff.mp h).2).symm

/-- **What is returned**: a part of entries that are those of the listing, or all of them. -/
theorem exists_entries_of_runs {page : Option ℕ} {result : DirListResult}
    (h : Runs (listDirectory engine sessionId path page limit) log (.ok result))
    (htold : ∀ e ∈ log, listing.Told e) :
    ∃ entries, Enumerates (listing.items rt) entries ∧ result = paginate entries page limit := by
  replace h := runs_getSession_ok h
  obtain ⟨session, log, rfl, h⟩ := h
  rw [List.forall_mem_cons] at htold
  replace h := runs_ofExcept_ok (runs_wrapping_ok h)
  obtain ⟨-, -, h⟩ := h
  obtain ⟨hsession, htold⟩ := htold
  split at h
  · next hsftp =>
    replace h := runs_bind_ok h
    obtain ⟨output, log₁, log₂, rfl, hlist, h⟩ := h
    obtain rfl := Except.ok.inj (runs_done_iff.mp h).2
    obtain ⟨sent, answer, hmem, rfl⟩ := runs_execFallback_ok hlist
    have hanswer := htold _ (List.mem_append_left _ hmem)
    cases listing with
    | sftp =>
      have hsession : session.sftp = true := hsession
      simp [hsession] at hsftp
    | shell output =>
      obtain rfl : answer.stdout = output := hanswer
      refine ⟨_, ?_, rfl⟩
      rw [Enumerates, Listing.items, List.forall₂_map_left_iff, List.forall₂_map_right_iff,
        List.forall₂_same]
      exact fun _ _ => rfl
  · next hsftp =>
    replace h := runs_perform_ok (.sftpReaddir path) id h
    obtain ⟨_, fileList, log, rfl, rfl, h⟩ := h
    replace h := runs_bind_ok h
    obtain ⟨entries, log₁, log₂, rfl, hentries, h⟩ := h
    obtain rfl := Except.ok.inj (runs_done_iff.mp h).2
    have hanswer := htold _ List.mem_cons_self
    cases listing with
    | shell =>
      have hsession : session.sftp = false := hsession
      simp [hsession] at hsftp
    | sftp fileList' =>
      obtain rfl : fileList = fileList' := hanswer
      exact ⟨entries, enumerates_of_runs hentries, rfl⟩

theorem PageRun.exists_entries {page : ℕ} {result : DirListResult}
    (h : PageRun engine sessionId path limit listing page result) :
    ∃ entries, Enumerates (listing.items rt) entries ∧ result = paginate entries
      (some page) limit := by
  obtain ⟨log, h, htold⟩ := h
  exact exists_entries_of_runs h htold

theorem PageRun.entries {page : ℕ} {result : DirListResult}
    (h : PageRun engine sessionId path limit listing page result) :
    Enumerates (((listing.items rt).drop (page * limit)).take limit) result.entries := by
  obtain ⟨entries, henumerates, rfl⟩ := h.exists_entries
  exact List.forall₂_take limit (List.forall₂_drop (page * limit) henumerates)

theorem PageRun.nextToken {page : ℕ} {result : DirListResult}
    (h : PageRun engine sessionId path limit listing page result) :
    result.nextToken =
      if (page + 1) * limit < (listing.items rt).length then some
        (toString (page + 1)) else none := by
  obtain ⟨entries, henumerates, rfl⟩ := h.exists_entries
  rw [henumerates.length_eq, Nat.succ_mul]
  rfl

/-! ### Page after page -/

theorem PageRun.next_eq {page next : ℕ} {result : DirListResult}
    (h : PageRun engine sessionId path limit listing page result)
    (htoken : result.nextToken = some (toString next)) :
    next = page + 1 ∧ (page + 1) * limit < (listing.items rt).length := by
  rw [h.nextToken] at htoken
  split at htoken
  · next hmore => exact ⟨JsText.toString_nat_injective (Option.some.inj htoken).symm, hmore⟩
  · cases htoken

/-- **The pages are successive parts of the listing**, and the last one has no token exactly if they
reach its end. -/
theorem walk_entries {page : ℕ} {results : List DirListResult} {token : Option String}
    (h : Walk engine sessionId path limit listing page results token) :
    Enumerates (((listing.items rt).drop (page * limit)).take (results.length * limit))
        (results.flatMap (·.entries)) ∧
      (token = none ↔ (listing.items rt).length ≤ (page + results.length) * limit) ∧
      ∀ k, k + 1 < results.length → (page + k + 1) * limit < (listing.items rt).length := by
  induction h with
  | one h =>
    refine ⟨?_, ?_, fun k hk => absurd hk (by simp)⟩
    · rw [List.flatMap_singleton, List.length_singleton, Nat.one_mul]
      exact h.entries
    · rw [h.nextToken]
      split
      · next hmore => exact iff_of_false nofun (not_le.mpr hmore)
      · next hmore => exact iff_of_true rfl (not_lt.mp hmore)
  | @more page next result results token h htoken hrest ih =>
    obtain ⟨rfl, hmore⟩ := h.next_eq htoken
    obtain ⟨hentries, hend, hbefore⟩ := ih
    refine ⟨?_, ?_, fun k hk => ?_⟩
    · -- what the later pages are taken of is what this page leaves
      have hparts : ((listing.items rt).drop (page * limit)).take
        ((result :: results).length * limit) =
          ((listing.items rt).drop (page * limit)).take limit ++
            ((listing.items rt).drop ((page + 1) * limit)).take (results.length * limit) := by
        rw [List.length_cons, Nat.succ_mul, Nat.add_comm, List.take_add, List.drop_drop,
          Nat.succ_mul]
      rw [hparts, List.flatMap_cons]
      exact List.rel_append h.entries hentries
    · rw [hend, List.length_cons, Nat.add_right_comm, Nat.add_assoc]
    · cases k with
      | zero => exact hmore
      | succ k =>
        have hlater := hbefore k (Nat.lt_of_succ_lt_succ hk)
        rwa [show page + (k + 1) + 1 = page + 1 + k + 1 by omega]

/-- **A walk comes to its end** if every page is returned. -/
theorem exists_walk (hlimit : 0 < limit)
    (hanswers : ∀ page, ∃ result, PageRun engine sessionId path limit listing page result)
    (page : ℕ) :
    ∃ results, Walk engine sessionId path limit listing page results none := by
  -- the items behind the page are fewer from page to page
  induction hn : (listing.items rt).length - page * limit using Nat.strong_induction_on
    generalizing page with
  | _ n ih =>
    obtain ⟨result, h⟩ := hanswers page
    have htoken := h.nextToken
    by_cases hmore : (page + 1) * limit < (listing.items rt).length
    · rw [if_pos hmore] at htoken
      have hsucc : (page + 1) * limit = page * limit + limit := Nat.succ_mul page limit
      obtain ⟨results, hrest⟩ := ih _ (by omega) (page + 1) rfl
      exact ⟨result :: results, .more h htoken hrest⟩
    · rw [if_neg hmore] at htoken
      exact ⟨[result], htoken ▸ .one h⟩

end Pages

/-- **Pagination is lossless.** Whatever pages a client has followed from page 0 on, they are no
more than the listing has room for, their entries are the first of the listing, each once and in its
order, and the last page is without a token exactly if they are all of them. If every page is
returned, a walk ends with such a page. -/
theorem pagination_lossless {rt : Runtime} (engine : PolicyEngine rt) (sessionId path : String)
    (listing : Listing) {limit : ℕ} (hlimit : 0 < limit) :
    (∀ results token, Walk engine sessionId path limit listing 0 results token →
      results.length ≤ (listing.items rt).length / limit + 1 ∧
      Enumerates ((listing.items rt).take (results.length * limit)) (results.flatMap (·.entries)) ∧
      (token = none ↔ Enumerates (listing.items rt) (results.flatMap (·.entries)))) ∧
    ((∀ page, ∃ result, PageRun engine sessionId path limit listing page result) →
      ∃ results, Walk engine sessionId path limit listing 0 results none) := by
  refine ⟨fun results token h => ?_, fun hanswers => exists_walk hlimit hanswers 0⟩
  obtain ⟨hentries, hend, hbefore⟩ := walk_entries h
  rw [Nat.zero_mul, List.drop_zero] at hentries
  rw [Nat.zero_add] at hend
  refine ⟨?_, hentries, hend.trans ⟨fun hle => ?_, fun hall => ?_⟩⟩
  · by_contra hmany
    obtain ⟨k, hk⟩ : ∃ k, results.length = k + 2 := Nat.exists_eq_add_of_le' (by
      have hnonneg := Nat.zero_le ((listing.items rt).length / limit)
      generalize (listing.items rt).length / limit = pages at hmany hnonneg
      omega)
    have hlast := hbefore k (by omega)
    rw [Nat.zero_add] at hlast
    have hdiv := (Nat.le_div_iff_mul_le hlimit).mpr (le_of_lt hlast)
    exact hmany (by rw [hk]; exact Nat.succ_le_succ hdiv)
  · rwa [List.take_of_length_le hle] at hentries
  · have hlength := hentries.length_eq.trans hall.length_eq.symm
    rw [List.length_take] at hlength
    omega

/-- The entries of a listing whose items have their times. -/
theorem exists_runs_dirEntries {fileList : List FileEntry}
    (htimes : ∀ item ∈ fileList, item.attrs.mtime.isSome = true) :
    ∃ entries, Runs (Program.traverse dirEntry fileList) [] (.ok entries) := by
  induction fileList with
  | nil => exact ⟨[], .done _⟩
  | cons item fileList ih =>
    rw [List.forall_mem_cons] at htimes
    obtain ⟨entries, hentries⟩ := ih htimes.2
    obtain ⟨seconds, hmtime⟩ := Option.isSome_iff_exists.mp htimes.1
    have hitem : ∃ entry, Runs (dirEntry item) [] (.ok entry) := by
      unfold dirEntry statTime
      rw [hmtime]
      exact ⟨_, .done _⟩
    obtain ⟨entry, hitem⟩ := hitem
    exact ⟨entry :: entries, hitem.bind (hentries.bind (.done _))⟩

/-- A script that succeeds with an output. -/
def fallbackLog (script : Script) (sent output : String) : List Event :=
  [⟨.getSession "ssh-1", some ⟨.enforce, false⟩⟩, ⟨.getOSInfo "ssh-1", .ok linuxHost⟩,
    ⟨.exec script sent, .ok ⟨some 0, output, ""⟩⟩]

theorem exists_runs_execFallback (script : Script) (output : String) :
    ∃ sent, Runs (execFallback "ssh-1" script) (fallbackLog script sent output) (.ok output) := by
  obtain ⟨sent, hsent⟩ := buildRemoteCommand_ok script.text linuxHost none
  refine ⟨sent, runs_getSession ?_⟩
  change Runs (.perform (Operation.getOSInfo "ssh-1") _) _ _
  refine .perform _ ?_
  rw [done_andThen]
  dsimp only
  rw [hsent]
  exact runs_perform_iff.mpr ⟨.ok ⟨some 0, output, ""⟩, _, rfl, .done _⟩

section Permitted

variable {rt : Runtime} {engine : PolicyEngine rt} {path : String}
variable (hpermits : engine.Permits (pathContext .fsList path .enforce))
  (page : Option ℕ) (limit : ℕ)

include hpermits

theorem exists_runs_sftp {fileList : List FileEntry}
    (htimes : ∀ item ∈ fileList, item.attrs.mtime.isSome = true) :
    ∃ log result, Runs (listDirectory engine "ssh-1" path page limit) log (.ok result) ∧
      ∀ e ∈ log, (Listing.sftp fileList).Told e := by
  obtain ⟨entries, hentries⟩ := exists_runs_dirEntries htimes
  refine ⟨[⟨.getSession "ssh-1", some ⟨.enforce, true⟩⟩, ⟨.sftpReaddir path, .ok fileList⟩],
    paginate entries page limit, runs_getSession (Runs.tryCatch_ok ?_), ?_⟩
  · change Runs (ofExcept (engine.assertAllowed (pathContext .fsList path .enforce)) >>= _) _ _
    rw [engine.assertAllowed_eq, if_neg fun h => h.1 hpermits]
    change Runs (.perform (Operation.sftpReaddir path) _) _ _
    refine .perform _ ?_
    rw [done_andThen]
    exact hentries.bind (.done _)
  · exact List.forall_mem_cons.mpr ⟨rfl, List.forall_mem_singleton.mpr rfl⟩

theorem exists_runs_shell (output : String) :
    ∃ log result, Runs (listDirectory engine "ssh-1" path page limit) log (.ok result) ∧
      ∀ e ∈ log, (Listing.shell output).Told e := by
  obtain ⟨sent, hfallback⟩ := exists_runs_execFallback (.list path) output
  let entries := ((splitLines output).filter (· ≠ "")).map (parseDirEntry rt)
  refine ⟨⟨.getSession "ssh-1", some ⟨.enforce, false⟩⟩ :: fallbackLog (.list path) sent output,
    paginate entries page limit, runs_getSession (Runs.tryCatch_ok ?_), ?_⟩
  · change Runs (ofExcept (engine.assertAllowed (pathContext .fsList path .enforce)) >>= _) _ _
    rw [engine.assertAllowed_eq, if_neg fun h => h.1 hpermits,
      ← List.append_nil (fallbackLog (.list path) sent output)]
    exact hfallback.bind (.done _)
  · exact List.forall_mem_cons.mpr ⟨rfl, List.forall_mem_cons.mpr ⟨rfl, List.forall_mem_cons.mpr
      ⟨trivial, List.forall_mem_singleton.mpr rfl⟩⟩⟩

end Permitted

/-- A directory of three files. -/
def threeFiles : List FileEntry :=
  ["a", "b", "c"].map fun name => ⟨name, { mode := some 0o100644, size := some 1, mtime := some 0 }⟩

/-- Three files in pages of two. -/
theorem pagination_lossless_three :
    ∃ (engine : PolicyEngine decimalRuntime) (results : List DirListResult),
      Walk engine "ssh-1" "/srv" 2 (.sftp threeFiles) 0 results none ∧
        Enumerates ((Listing.sftp threeFiles).items decimalRuntime)
          (results.flatMap (·.entries)) := by
  obtain ⟨engine, -, hpermits⟩ := exists_permissive decimalRuntime
  have hpermits := hpermits .fsList (by decide) "/srv" (by decide)
  obtain ⟨hwalks, hends⟩ := pagination_lossless engine "ssh-1" "/srv" (.sftp threeFiles) two_pos
  obtain ⟨results, hwalk⟩ := hends fun page => by
    obtain ⟨log, result, hruns, htold⟩ := exists_runs_sftp hpermits (some page) 2
      (show ∀ item ∈ threeFiles, _ by decide)
    exact ⟨result, log, hruns, htold⟩
  exact ⟨engine, results, hwalk, (hwalks results none hwalk).2.2.mp rfl⟩

end Ssh
