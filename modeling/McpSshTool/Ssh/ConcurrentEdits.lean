import McpSshTool.Ssh.EnsureReaches
import McpSshTool.Ssh.SharedHost
import McpSshTool.Ssh.WriteAtomic

/-!
# Edits at the same time

Requests that edit files of one host, with their operations in any order.

* `ComesOf` — the content that a request may leave, by the content that it has found;
* `comes_lines`, `comes_patch` — a request leaves such a content, if others keep away from its
  files;
* `Apart` — an operation that stages well and disturbs no other request;
* `runs_lines`, `runs_lines_staged` — runs of a request for a line of a new file;
* `concurrent_edits` — **edits whose operations are apart do not mix**;
* `edits_mix` — within one millisecond, the staged content of one request is installed for another.
-/

open Library

namespace Ssh

open Program

/-! ### What a request may leave -/

section Outcomes

variable (host : SharedHost) (rt : Runtime)

/-- An edit of the lines of a file: of what is read from it, or of nothing where it is taken to be
missing. -/
def EditOf (wanted : List String) (state : Presence) (before : Option (List UInt8))
    (edit : Option String) : Prop :=
  (∃ content text, before = some content ∧ host.Reads rt content text ∧
    (editLines state wanted true text).1 = edit) ∨
  state = .present ∧ (editLines state wanted false "").1 = edit ∨
  state = .absent ∧ edit = none

/-- What the lines of a file may come to. -/
def LinesComeOf (wanted : List String) (state : Presence) (before after : Option (List UInt8)) :
    Prop :=
  EditOf host rt wanted state before none ∧ after = before ∨
  ∃ content, EditOf host rt wanted state before (some content) ∧ HasPart content after

/-- What `patch` may make of a file by a part of the patch. -/
def Patches (diff : String) (before after : Option (List UInt8)) : Prop :=
  ∃ part, part <+: Utf8.encode diff ∧ host.patches part before after

/-- **What a request may leave in its file**, computed from what it has found there: nothing new in
mode `explain` or in a directory, an edit of the lines, or the file as it is patched. -/
def ComesOf (request : EditRequest) (before after : Option (List UInt8)) : Prop :=
  ((host.sessions request.sessionId).policyMode = .explain ∨ host.isDirectory request.target) ∧
    after = before ∨
  match request with
  | .lines _ _ wanted _ state => LinesComeOf host rt wanted state before after
  | .patch _ _ diff => Relation.TransGen (Patches host diff) before after

end Outcomes

section Requests

variable {rt : Runtime} {engine : PolicyEngine rt} {config : ServerConfig} {host : SharedHost}
variable {request : EditRequest} {held : Set String} {s : Contents} {sessionId path : String}

/-! ### Lines -/

/-- **A write that falls back to sudo.** -/
theorem comes_writeFileWithPrivilegeFallback {osInfo : OSInfo} {content : String}
    {destructive : Bool} (hpath : path ∈ held) (hfile : ¬host.isDirectory path) :
    host.Comes request (fun _ t result =>
        ((host.sessions sessionId).policyMode = .explain → t path = s path) ∧
        ((host.sessions sessionId).policyMode = .enforce → result = .ok () →
          HasPart content (t path)))
      (writeFileWithPrivilegeFallback engine config osInfo sessionId path content destructive)
      held s := by
  generalize hmode : (host.sessions sessionId).policyMode = mode
  have hsame : ∀ held', held ⊆ held' → Supported held' fun t => mode = .explain → t path = s path :=
    fun held' hheld => supported_at (hheld hpath) (fun v => mode = .explain → v = s path)
  unfold writeFileWithPrivilegeFallback
  refine Shared.Rely.tryCatch (Q := fun held' t result => held ⊆ held' ∧
    (mode = .explain → t path = s path) ∧
    (mode = .enforce → result = .ok () → HasPart content (t path))) ?_ (fun _ _ _ h => h.2) ?_
  · refine Shared.Rely.bind (comes_writeFile (hsame held subset_rfl) fun _ => rfl) ?_ ?_
    · rintro held' t written ⟨hheld, hexplain, henforce⟩
      rw [hmode] at hexplain henforce
      refine ⟨hheld, fun h => hexplain h h, fun h _ => ?_⟩
      exact ((henforce h written rfl).resolve_left hfile).2
    · rintro held' t e ⟨hheld, hexplain, -⟩
      rw [hmode] at hexplain
      exact ⟨hheld, fun h => hexplain h h, fun _ h => nomatch h⟩
  rintro held' t directWriteError ⟨hheld, ht, -⟩
  have herror : ∀ (t : Contents) (e : Failure), (mode = .explain → t path = s path) →
      (mode = .explain → t path = s path) ∧
      (mode = .enforce → Except.error e = .ok () → HasPart content (t path)) :=
    fun _ _ ht => ⟨ht, fun _ h => nomatch h⟩
  split
  · exact herror t _ ht
  refine comes_quiet rfl (hsame held' hheld) ht fun t time ht _ _ => ?_
  obtain ⟨tempFile, htemp⟩ : ∃ tempFile, linesTempFile osInfo time = tempFile := ⟨_, rfl⟩
  refine Shared.Rely.bind (Q := fun held'' t result => held' ⊆ held'' ∧
    (mode = .explain → t path = s path) ∧ (mode = .enforce → result = .ok () →
      host.isDirectory tempFile ∨ tempFile ∈ held'' ∧ HasPart content (t tempFile))) ?_ ?_
    fun _ t e h => herror t e h.2.1
  · -- the content is staged
    refine Shared.Rely.tryCatch (Q := fun held'' t result => held' ⊆ held'' ∧
      (mode = .explain → t path = s path) ∧ (mode = .enforce → result = .ok () →
        host.isDirectory tempFile ∨ tempFile ∈ held'' ∧ HasPart content (t tempFile))) ?_
      (fun _ _ _ h => h) fun _ _ _ h => ⟨h.1, h.2.1, fun _ h => nomatch h⟩
    refine Shared.Rely.bind (comes_writeFile (hsame held' hheld) ht) ?_ ?_
    · rintro held'' t written ⟨hheld', hexplain, henforce⟩
      rw [hmode] at hexplain henforce
      rw [htemp] at henforce
      exact ⟨hheld', fun h => hexplain h h, fun h _ => henforce h written rfl⟩
    · rintro held'' t e ⟨hheld', hexplain, -⟩
      rw [hmode] at hexplain
      exact ⟨hheld', fun h => hexplain h h, fun _ h => nomatch h⟩
  rintro held'' t ⟨⟩ ⟨hheld', ht, hstaged⟩
  -- and moved
  let staged : Contents → Prop := fun t => (mode = .explain → t path = s path) ∧
    (mode = .enforce → host.isDirectory tempFile ∨ tempFile ∈ held'' ∧ HasPart content (t tempFile))
  have hsupported : Supported held'' staged := by
    refine (hsame held'' (hheld.trans hheld')).and fun t t' heq h henforce => ?_
    refine (h henforce).imp_right fun ⟨hmem, hpart⟩ => ⟨hmem, ?_⟩
    rw [heq hmem]
    exact hpart
  refine Shared.Rely.bind (comes_execSudo (I := staged)
    (J := fun code t => mode = .enforce → code = 0 → HasPart content (t path)) hsupported
    ⟨ht, fun h => hstaged h rfl⟩ ?_ ?_) ?_ ?_
  · exact fun code => supported_at (.inl (hheld' (hheld hpath)))
      fun v => mode = .enforce → code = 0 → HasPart content v
  · intro t t' op code stdout hscript ht hallow _ heffect henforce hcode
    obtain ⟨moved, hmoved, hinstalled⟩ := (heffect hcode).resolve_left hfile
    have hsource := hallow.source _ _ hscript
    rw [htemp] at hmoved hsource
    obtain ⟨-, part, hpart, hcontent⟩ := (ht.2 henforce).resolve_left hsource
    rw [hmoved] at hcontent
    exact ⟨part, hpart, hinstalled.trans hcontent⟩
  · rintro held''' t result ⟨-, hexplain, henforce⟩
    rw [hmode] at hexplain henforce
    change host.Comes request _ (if _ then _ else _) held''' t
    split
    · refine herror t _ fun h => (hexplain h).1 h
    · next hcode =>
      exact ⟨fun h => (hexplain h).1 h,
        fun h _ => (henforce h result rfl).2 h (not_ne_iff.mp hcode)⟩
  · rintro held''' t e ⟨-, hexplain, -⟩
    rw [hmode] at hexplain
    exact herror t e fun h => (hexplain h).1 h

/-- What a request has left in its file, where it succeeds. -/
def Leaves {α : Type} (host : SharedHost) (rt : Runtime) (request : EditRequest)
    (Success : α → Prop)
    (before : Option (List UInt8)) (t : Contents) (result : Except Failure α) : Prop :=
  ∀ a, result = .ok a → Success a → ComesOf host rt request before (t request.target)

theorem comes_directory {α : Type} {p : Task α} {Success : α → Prop} (hpath : request.target ∈ held)
    (hdirectory : host.isDirectory request.target) :
    host.Comes request (fun _ => Leaves host rt request Success (s request.target)) p held s := by
  have hany : Performs (fun _ => True) (fun _ => True) p := performs_true p
  refine (Shared.rely_invariant hany (fun _ _ _ _ _ _ => trivial)
    (supported_at hpath (· = s request.target)) ?_ rfl).mono ?_
  · intro op t answer t' _ hallow hdoes ht
    exact (hdoes.1 (SharedHost.notMem_changes_of_directory hallow.plain hdirectory)).trans ht
  · exact fun _ t result h a _ _ => .inl ⟨.inr hdirectory, h.2.1⟩

section Lines

variable {wanted : List String} {createIfMissing : Bool} {state : Presence}

theorem comes_writeEdited {osInfo : OSInfo} {edited : Option String × ℤ} (hpath : path ∈ held)
    (hfile : ¬host.isDirectory path) (hedit : EditOf host rt wanted state (s path) edited.1) :
    host.Comes request
      (fun _ => Leaves host rt (.lines sessionId path wanted createIfMissing state) (fun _ => True)
        (s path))
      (writeEdited engine config osInfo sessionId path edited) held s := by
  obtain ⟨newContent, added⟩ := edited
  cases newContent with
  | none => exact fun _ _ _ => .inr (.inl ⟨hedit, rfl⟩)
  | some content =>
    refine Shared.Rely.bind (comes_writeFileWithPrivilegeFallback hpath hfile) ?_
      fun _ _ _ _ _ h => nomatch h
    rintro held' t ⟨⟩ ⟨hexplain, henforce⟩ a - -
    cases hmode : (host.sessions sessionId).policyMode with
    | explain => exact .inl ⟨.inl hmode, hexplain hmode⟩
    | enforce => exact .inr (.inr ⟨content, hedit, henforce hmode rfl⟩)

/-- **The lines of a file.** -/
theorem comes_lines (hpath : path ∈ held) :
    host.Comes (.lines sessionId path wanted createIfMissing state)
      (fun _ => Leaves host rt (.lines sessionId path wanted createIfMissing state) (fun _ => True)
        (s path))
      (ensureLinesInFile engine config sessionId path wanted createIfMissing state) held s := by
  by_cases hfile : host.isDirectory path
  · exact comes_directory hpath hfile
  have hsame : ∀ held', held ⊆ held' → Supported held' fun t => t path = s path :=
    fun held' hheld => supported_at (hheld hpath) (· = s path)
  unfold ensureLinesInFile
  refine comes_quiet rfl (hsame held subset_rfl) rfl fun t answer ht _ _ => ?_
  refine comes_ofExcept (fun _ _ h => nomatch h) fun osInfo => ?_
  refine Shared.Rely.bind (comes_of_performs quiet_pathExists (hsame held subset_rfl) ht) ?_
    fun _ _ _ _ _ h => nomatch h
  rintro held' t fileExists ⟨hheld, ht⟩
  change host.Comes _ _ (if _ then _ else _) held' t
  split
  · refine Shared.Rely.bind (comes_readFile (hheld hpath)) ?_ fun _ _ _ _ _ h => nomatch h
    rintro held'' u fileContent ⟨hheld', hread⟩
    obtain ⟨hu, content, hcontent, hreads⟩ := hread fileContent rfl
    rw [← ht, ← hu]
    refine comes_writeEdited (hheld' (hheld hpath)) hfile (.inl ⟨content, fileContent, ?_,
      hreads, rfl⟩)
    rw [hu, hcontent]
  · split
    · next habsent =>
      exact fun _ _ _ => .inr (.inl ⟨.inr (.inr ⟨habsent, rfl⟩), ht⟩)
    · next hpresent =>
      split
      · exact fun _ h => nomatch h
      · rw [← ht]
        refine comes_writeEdited (hheld hpath) hfile (.inr (.inl ⟨?_, rfl⟩))
        cases state with
        | present => rfl
        | absent => exact absurd rfl hpresent

end Lines

/-! ### Patches -/

section Patch

variable {diff patchFile : String}

/-- The patch file has the patch, or the first part of it. -/
def Staged (host : SharedHost) (held : Set String) (diff patchFile : String)
    (t : Contents) : Prop :=
  host.isDirectory patchFile ∨ patchFile ∈ held ∧ HasPart diff (t patchFile)

theorem supported_staged : Supported held (Staged host held diff patchFile) := by
  intro t t' heq ht
  refine ht.imp_right fun ⟨hmem, hpart⟩ => ⟨hmem, ?_⟩
  rw [heq hmem]
  exact hpart

/-- One application of the staged patch. -/
theorem patches_of_effect {t t' : Contents} {op : Operation} {code : ℕ} {stdout : String}
    (hscript : op.script? = some (.patch path patchFile)) (hallow : host.StagesWell request t op)
    (hframe : Set.EqOn t' t (host.changes op)ᶜ)
    (heffect : host.ScriptEffect t code stdout t' (.patch path patchFile))
    (hstaged : Staged host held diff patchFile t) :
    Staged host held diff patchFile t' ∧
      (code ≠ 0 ∧ t' path = t path ∨ Patches host diff (t path) (t' path)) := by
  constructor
  · unfold Staged
    rw [hframe (hallow.patchFile _ _ hscript)]
    exact hstaged
  · refine heffect.imp_right fun ⟨hfile, read, hread, hpatched⟩ => ?_
    obtain ⟨-, part, hpart, hcontent⟩ := hstaged.resolve_left hfile
    rw [hread] at hcontent
    obtain rfl := Option.some.inj hcontent
    exact ⟨_, hpart, hpatched⟩

/-- **The patch is tried and applied.** -/
theorem comes_runPatch {before : Option (List UInt8)} (hpath : path ∈ held) (hs : s path = before)
    (hstaged : (host.sessions sessionId).policyMode = .enforce →
      Staged host held diff patchFile s) :
    host.Comes request (fun held' t result => held ⊆ held' ∧
        ((host.sessions sessionId).policyMode = .explain → t path = before) ∧
        ((host.sessions sessionId).policyMode = .enforce → ∀ r, result = .ok r → r.ok = true →
          Relation.TransGen (Patches host diff) before (t path)))
      (runPatch engine config sessionId path patchFile) held s := by
  generalize hmode : (host.sessions sessionId).policyMode = mode at hstaged ⊢
  -- what holds until the patch is applied, and what after each try
  let reached : Contents → Prop := fun t => (mode = .explain → t path = before) ∧
    (mode = .enforce → Staged host held diff patchFile t ∧
      Relation.ReflTransGen (Patches host diff) before (t path))
  let applied : ℕ → Contents → Prop := fun code t => reached t ∧
    (mode = .enforce → code = 0 → Relation.TransGen (Patches host diff) before (t path))
  have hreached : Supported held reached := by
    refine (supported_at hpath fun v => mode = .explain → v = before).and fun t t' heq h henforce =>
      ?_
    refine ⟨supported_staged t t' heq (h henforce).1, ?_⟩
    rw [heq hpath]
    exact (h henforce).2
  have happlied : ∀ held', held ⊆ held' → ∀ code, Supported held' (applied code) :=
    fun held' hheld code =>
    (hreached.mono hheld).and (supported_at (hheld hpath) fun v =>
      mode = .enforce → code = 0 → Relation.TransGen (Patches host diff) before v)
  have hstep : ∀ t t' (op : Operation) code stdout, op.script? = some (.patch path patchFile) →
      reached t → host.StagesWell request t op → Set.EqOn t' t (host.changes op)ᶜ →
        host.ScriptEffect t code stdout t' (.patch path patchFile) →
          mode = .enforce → applied code t' := by
    intro t t' op code stdout hscript ht hallow hframe heffect henforce
    obtain ⟨hfile, hbefore⟩ := ht.2 henforce
    obtain ⟨hfile', hunchanged | hpatched⟩ := patches_of_effect hscript hallow hframe heffect hfile
    · refine ⟨⟨fun hexplain => ?_, fun _ => ⟨hfile', ?_⟩⟩, fun _ hzero => absurd hzero hunchanged.1⟩
      · rw [henforce] at hexplain
        cases hexplain
      · rw [hunchanged.2]
        exact hbefore
    · have hafter := Relation.TransGen.tail' hbefore hpatched
      refine ⟨⟨fun hexplain => ?_, fun _ => ⟨hfile', hafter.to_reflTransGen⟩⟩, fun _ _ => hafter⟩
      rw [henforce] at hexplain
      cases hexplain
  have herror : ∀ (held' : Set String) (t : Contents) (e : Failure), held ⊆ held' →
      (mode = .explain → t path = before) → held ⊆ held' ∧ (mode = .explain → t path = before) ∧
        (mode = .enforce → ∀ r : PatchResult, Except.error e = .ok r → r.ok = true →
          Relation.TransGen (Patches host diff) before (t path)) :=
    fun _ _ _ hheld ht => ⟨hheld, ht, fun _ _ h => nomatch h⟩
  unfold runPatch
  refine Shared.Rely.bind (comes_of_performs (quiet_execCommand rfl) hreached
    ⟨fun _ => hs, fun h => ⟨hstaged h, hs ▸ .refl⟩⟩) ?_ fun held' t e h =>
      herror held' t e h.1 h.2.1
  rintro held' t testResult ⟨hheld, ht⟩
  change host.Comes request _ (if _ then _ else _) held' t
  split
  · exact herror held' t _ hheld ht.1
  refine Shared.Rely.bind (comes_execCommand (I := reached)
    (J := fun code t => mode = .enforce → applied code t) (hreached.mono hheld) ht ?_ hstep) ?_ ?_
  · intro code t t' heq h henforce
    exact happlied _ (hheld.trans Set.subset_union_left) code t t' heq (h henforce)
  · rintro held'' t directResult ⟨hheld', hexplain, henforce⟩
    rw [hmode] at hexplain henforce
    have hthen := hheld.trans hheld'
    have ht : reached t := by
      cases mode with
      | explain => exact hexplain rfl
      | enforce => exact ((henforce rfl _ rfl).2 rfl).1
    dsimp only
    split
    · next hcode =>
      exact ⟨hthen, ht.1, fun h _ _ _ => ((henforce h _ rfl).2 h).2 h hcode⟩
    · refine Shared.Rely.bind (comes_execSudo (I := reached)
        (J := fun code t => mode = .enforce → applied code t) (hreached.mono hthen) ht ?_
          hstep) ?_ ?_
      · intro code t t' heq h henforce
        exact happlied _ (hthen.trans Set.subset_union_left) code t t' heq (h henforce)
      · rintro held''' t result ⟨hheld'', hexplain, henforce⟩
        rw [hmode] at hexplain henforce
        refine ⟨hthen.trans hheld'', fun h => (hexplain h).1 h, fun h r hr hok => ?_⟩
        obtain rfl := Except.ok.inj hr
        exact ((henforce h result rfl).2 h).2 h (of_decide_eq_true hok)
      · rintro held''' t e ⟨hheld'', hexplain, -⟩
        rw [hmode] at hexplain
        exact herror held''' t e (hthen.trans hheld'') fun h => (hexplain h).1 h
  · rintro held'' t e ⟨hheld', hexplain, -⟩
    rw [hmode] at hexplain
    exact herror held'' t e (hheld.trans hheld') fun h => (hexplain h).1 h

theorem discardPatchFile_leavesTarget {osInfo : OSInfo} :
    Performs (fun _ => True) Operation.LeavesTarget
      (discardPatchFile engine config osInfo sessionId patchFile) := by
  refine Performs.tryCatch (Performs.bind ?_ fun _ => trivial) fun _ => trivial
  exact execCommand_performs_any nofun nofun nofun fun _ _ => nofun

/-- **A patch.** -/
theorem comes_patch (hpath : path ∈ held) :
    host.Comes (.patch sessionId path diff)
      (fun _ => Leaves host rt (.patch sessionId path diff) (fun r : PatchResult => r.ok = true)
        (s path))
      (applyPatch engine config sessionId path diff) held s := by
  by_cases hfile : host.isDirectory path
  · exact comes_directory hpath hfile
  have hsame : ∀ held', held ⊆ held' → Supported held' fun t => t path = s path :=
    fun held' hheld => supported_at (hheld hpath) (· = s path)
  unfold applyPatch
  refine comes_quiet rfl (hsame held subset_rfl) rfl fun t answer ht _ _ => ?_
  refine comes_ofExcept (fun _ _ h => nomatch h) fun osInfo => ?_
  refine Shared.Rely.bind (comes_of_performs quiet_commandExists (hsame held subset_rfl) ht) ?_
    fun _ _ _ _ _ h => nomatch h
  rintro held' t hasPatch ⟨hheld, ht⟩
  change host.Comes _ _ (if _ then _ else _) held' t
  split
  · exact fun _ h => nomatch h
  refine comes_quiet rfl (hsame held' hheld) ht fun t time ht _ _ => ?_
  -- the patch is staged, beside the target
  have hkept : host.Comes (.patch sessionId path diff) _
      (writeFile engine config sessionId (patchTempFile osInfo time) diff) held' t :=
    comes_leavesTarget writeFile_leavesTarget trivial (hheld hpath)
  change host.Comes _ _ (writeFile engine config sessionId (patchTempFile osInfo time) diff >>= _)
    held' t
  refine Shared.Rely.bind ((comes_writeFile (I := fun _ => True) (fun _ _ _ _ => trivial)
    trivial).and
    hkept) ?_ fun _ _ _ _ _ h => nomatch h
  rintro held'' u written ⟨⟨hheld', -, henforce⟩, -, hu⟩
  have hpath'' : path ∈ held'' := hheld' (hheld hpath)
  have hbefore : u path = s path := hu.trans ht
  refine Shared.Rely.andThen (comes_runPatch hpath'' hbefore fun h => henforce h written rfl) ?_
  rintro held''' v result ⟨hheld'', hexplain, hpatched⟩
  -- and discarded
  have hdiscarded : host.Comes (.patch sessionId path diff) _
      (discardPatchFile engine config osInfo sessionId (patchTempFile osInfo time)) held''' v :=
    comes_leavesTarget discardPatchFile_leavesTarget trivial (hheld'' hpath'')
  refine hdiscarded.andThen ?_
  rintro _ w discarded ⟨-, hw⟩
  have hw : w path = v path := hw
  cases discarded with
  | error => exact fun _ h => nomatch h
  | ok =>
    intro r hr hok
    change ComesOf host rt _ (s path) (w path)
    rw [hw]
    cases hmode : (host.sessions sessionId).policyMode with
    | explain => exact .inl ⟨.inl hmode, hexplain hmode⟩
    | enforce => exact .inr (hpatched hmode r hr hok)

end Patch

end Requests

/-! ### Side by side -/

section SideBySide

variable {rt : Runtime} {ι : Type}

/-- Requests that edit files of a host. -/
abbrev Edits (ι : Type) : Type :=
  Threads ι Operation Answer Failure Bool String (Option (List UInt8))

/-- The requests before their first operations. -/
def startEdits (engine : PolicyEngine rt) (config : ServerConfig) (requests : ι → EditRequest)
    (files : Contents) : Edits ι :=
  Threads.start files fun i => (requests i).run engine config

/-- **An operation apart**: it stages well, and changes neither the target of another request nor a
file that another one under way has changed. -/
structure Apart (host : SharedHost) (requests : ι → EditRequest) (c : Edits ι) (i : ι)
    (op : Operation) : Prop where
  undisturbed : host.shared.Undisturbed (fun j => {(requests j).target}) c i op
  stages : host.StagesWell (requests i) c.store op

/-- **Nothing is mixed**: what a request has edited comes of what it has found, and of itself. -/
def Unmixed (host : SharedHost) (rt : Runtime) (requests : ι → EditRequest) (files : Contents)
    (c : Edits ι) : Prop :=
  ∀ i, c.thread i = .done (.ok true) →
    ComesOf host rt (requests i) (files (requests i).target) (c.store (requests i).target)

/-- What a request comes to. -/
theorem comes_request (engine : PolicyEngine rt) (config : ServerConfig) (host : SharedHost)
    (request : EditRequest) (files : Contents) :
    host.Comes request
      (fun _ => Leaves host rt request (fun success => success = true) (files request.target))
      (request.run engine config) {request.target} files := by
  cases request with
  | lines sessionId path =>
    refine Shared.Rely.bind (comes_lines (Set.mem_singleton path)) ?_ fun _ _ _ _ _ h => nomatch h
    intro held t r h a _ _
    exact h r rfl trivial
  | patch sessionId path =>
    refine Shared.Rely.bind (comes_patch (Set.mem_singleton path)) ?_ fun _ _ _ _ _ h => nomatch h
    rintro held t r h a ha rfl
    exact h r rfl (Except.ok.inj ha)

end SideBySide

/-! ### Runs of two requests -/

section Sample

variable {rt : Runtime} {engine : PolicyEngine rt} {config : ServerConfig} {session : Session}
variable {sessionId path : String} {α : Type}

theorem runs_getSession {f : Session → Task α} {log : List Event} {result : Except Failure α}
    (h : Runs (f session) log result) :
    Runs (getSession sessionId >>= f) (⟨.getSession sessionId, some session⟩ :: log) result := by
  have hsession : Runs (getSession sessionId) [⟨.getSession sessionId, some session⟩]
      (.ok session) := by
    change Runs (.perform (Operation.getSession sessionId) _) _ _
    exact .perform _ (.done _)
  exact hsession.bind h

theorem runs_guarded {context : PolicyContext} (hmode : context.mode = some .enforce)
    (hpermits : engine.Permits context) {explained : PolicyDecision → Task α} {body : Task α}
    {log : List Event} {result : Except Failure α} (h : Runs body log result) :
    Runs (ofExcept (engine.assertAllowed context) >>= fun decision =>
      if decision.mode = .explain then explained decision else body) log result := by
  rw [engine.assertAllowed_eq, if_neg fun h => h.1 hpermits]
  change Runs (if (engine.evaluateWith rt.realpathSync context).mode = _ then _ else _) _ _
  rw [engine.evaluateWith_mode, hmode, Option.getD_some, if_neg PolicyMode.noConfusion]
  exact h

variable (henforce : session.policyMode = .enforce) (hsftp : session.sftp = true)

include henforce hsftp

/-- A file is not found. -/
theorem runs_pathExists (hpermits : engine.Permits (pathContext .fsStat path .enforce)) :
    Runs (pathExists engine sessionId path)
      [⟨.getSession sessionId, some session⟩, ⟨.getSession sessionId, some session⟩,
        ⟨.sftpStat path, .error noSuchFile⟩] (.ok false) := by
  have hstat : Runs (statFileInternal rt sessionId path)
      [⟨.getSession sessionId, some session⟩, ⟨.sftpStat path, .error noSuchFile⟩]
      (.error noSuchFile) := by
    refine runs_getSession ?_
    change Runs (if _ then _ else _) _ _
    rw [hsftp, if_neg (by decide)]
    exact .perform _ (.done _)
  have hfile : Runs (statFile engine sessionId path)
      [⟨.getSession sessionId, some session⟩, ⟨.getSession sessionId, some session⟩,
        ⟨.sftpStat path, .error noSuchFile⟩]
      (.error (wrapError noSuchFile .EFS
        ("Failed to get stats for " ++ path ++ ". Check if the path exists."))) := by
    refine runs_getSession (Runs.tryCatch_done (e := noSuchFile) ?_ rfl)
    rw [henforce, engine.assertAllowed_eq, if_neg fun h => h.1 hpermits]
    exact hstat
  exact Runs.tryCatch_done hfile.bind_error rfl

variable {data uuid : String} (hpermits : engine.Permits (pathContext .fsWrite path .enforce))
variable (hfits : data.utf8ByteSize ≤ config.maxFileWriteBytes)

include hpermits hfits

/-- The part of a write past its checks, over SFTP. -/
theorem runs_writeFile {log : List Event} {result : Except Failure Bool}
    (h : Runs (sftpReplaceFile path (tempPathFor path uuid) (Utf8.encode data) none) log result) :
    Runs (writeFile engine config sessionId path data)
      (⟨.getSession sessionId, some session⟩ :: ⟨.randomUUID, uuid⟩ :: log)
      (result.mapError fun error => wrapError error .EFS
        ("Failed to write file " ++ path ++ ". Check directory permissions and disk space.")) := by
  have hbody : Runs (ofExcept (engine.assertAllowed
      { action := .fsWrite, path := some path, mode := some session.policyMode }) >>=
        fun decision =>
        if decision.mode = .explain then pure true
        else if data.utf8ByteSize > config.maxFileWriteBytes then
          Program.throw (createLimitError
            ("Write payload is " ++ toString data.utf8ByteSize ++ " bytes, which exceeds the " ++
              toString config.maxFileWriteBytes ++ " byte write limit")
            (some ("Use file_upload for large files or raise SSH_MCP_MAX_FILE_WRITE_BYTES " ++
              "intentionally.")))
        else sendWrite session sessionId path data none)
      (⟨.randomUUID, uuid⟩ :: log) result := by
    rw [henforce]
    refine runs_guarded rfl hpermits ?_
    rw [if_neg (not_lt.mpr hfits)]
    change Runs (.perform Operation.randomUUID _) _ _
    refine .perform _ ?_
    change Runs (if _ then _ else _) _ _
    rw [hsftp, if_neg (by decide)]
    exact h
  refine runs_getSession ?_
  cases result with
  | ok => exact hbody.tryCatch_ok
  | error => exact hbody.tryCatch_done rfl

omit henforce hsftp hpermits hfits in
theorem runs_sftpReplaceFile_denied (e : Failure) {tempPath : String} {bytes : List UInt8} :
    Runs (sftpReplaceFile path tempPath bytes none)
      [⟨.sftpWriteFile tempPath bytes, .error e⟩, ⟨.sftpUnlink tempPath, .error e⟩] (.error e) := by
  change Runs (.perform (Operation.sftpWriteFile tempPath bytes) _) _ _
  refine .perform _ ?_
  change Runs (.perform (Operation.sftpUnlink tempPath) _) _ _
  exact .perform _ (.done _)

omit henforce hsftp hpermits hfits in
theorem runs_sftpReplaceFile {tempPath : String} {bytes : List UInt8} :
    Runs (sftpReplaceFile path tempPath bytes none)
      [⟨.sftpWriteFile tempPath bytes, .ok ()⟩, ⟨.sftpRename tempPath path, .ok ()⟩]
        (.ok true) := by
  change Runs (.perform (Operation.sftpWriteFile tempPath bytes) _) _ _
  refine .perform _ ?_
  change Runs (.perform (Operation.sftpRename tempPath path) _) _ _
  exact .perform _ (.done _)

omit hsftp hpermits hfits in
/-- A command under sudo that comes to its end. -/
theorem runs_execSudo {script : Script} {options : SudoPolicyOptions} {sent : String}
    (hsudo : engine.Permits (sudoContext script .enforce options))
    (hline : buildSudoCommand script.text linuxHost none = .ok sent) (code time : ℕ) :
    ∃ result : ExecResult, result.code = code ∧
      Runs (execSudo engine config sessionId script none none none options)
        [⟨.getSession sessionId, some session⟩, ⟨.getOSInfo sessionId, .ok linuxHost⟩, ⟨.now, time⟩,
          ⟨.execSudo script sent config.commandTimeoutMs, .ok (some ⟨some code, "", ""⟩)⟩,
          ⟨.now, time⟩] (.ok result) := by
  let result : ExecResult := {
    code := code
    stdout := truncateText "" config.maxCommandOutputBytes
    stderr := truncateText "" config.maxCommandOutputBytes
    durationMs := time - time }
  have hplatform : ¬linuxHost.platform = .windows := by decide
  refine ⟨result, rfl, runs_getSession ?_⟩
  rw [henforce]
  refine runs_guarded rfl hsudo ?_
  change Runs (.perform (Operation.getOSInfo sessionId) _) _ _
  refine .perform _ ?_
  rw [done_andThen]
  dsimp only
  rw [if_neg hplatform]
  change Runs (.perform Operation.now _) _ _
  refine .perform _ (Runs.tryCatch_ok ?_)
  rw [if_neg (show ¬(none : Option String).isSome = true from nofun), hline]
  change Runs (.perform (Operation.execSudo script sent config.commandTimeoutMs) _) _ _
  refine .perform _ ?_
  change Runs (if _ then _ else _) _ _
  have hrefusal : isSudoRefusal ⟨some code, "", ""⟩ = false := by
    unfold isSudoRefusal
    rw [Bool.and_assoc, decide_eq_false (not_not_intro rfl), Bool.false_and, Bool.and_false]
  rw [hrefusal, if_neg Bool.false_ne_true]
  change Runs (.perform Operation.now _) _ _
  exact .perform _ (.done _)

omit henforce hsftp hpermits hfits

/-- The answer of a host where the user may not write. -/
def permissionDenied : Failure := .other (some (.status 3)) "Permission denied"

theorem isPermissionError_denied (hint : Option String) :
    isPermissionError (wrapError permissionDenied .EFS hint) = true := by
  have h : isPermissionError (.other (some (.named "EFS")) "Permission denied") = true := by
    decide +kernel
  rw [← h]
  exact isPermissionError_congr rfl rfl

/-- A request for a line, as far as it finds that the file is not there. -/
def newFileLog (session : Session) (sessionId path : String) : List Event :=
  [⟨.getOSInfo sessionId, .ok linuxHost⟩,
    ⟨.getSession sessionId, some session⟩, ⟨.getSession sessionId, some session⟩,
    ⟨.sftpStat path, .error noSuchFile⟩]

/-- A write over SFTP. -/
def writeLog (session : Session) (sessionId path data uuid : String) : List Event :=
  [⟨.getSession sessionId, some session⟩, ⟨.randomUUID, uuid⟩,
    ⟨.sftpWriteFile (tempPathFor path uuid) (Utf8.encode data), .ok ()⟩,
    ⟨.sftpRename (tempPathFor path uuid) path, .ok ()⟩]

/-- A request as far as the content is staged: the direct write is denied. -/
def stagedLog (session : Session) (sessionId path data uuid uuid' : String) : List Event :=
  newFileLog session sessionId path ++
    [⟨.getSession sessionId, some session⟩, ⟨.randomUUID, uuid⟩,
      ⟨.sftpWriteFile (tempPathFor path uuid) (Utf8.encode data), .error permissionDenied⟩,
      ⟨.sftpUnlink (tempPathFor path uuid), .error permissionDenied⟩,
      ⟨.now, (0 : ℕ)⟩] ++
    writeLog session sessionId (linesTempFile linuxHost 0) data uuid'

/-- The same request, as it moves what is staged. -/
def movedLog (session : Session) (config : ServerConfig) (sessionId path sent : String) (code : ℕ) :
    List Event :=
  [⟨.getSession sessionId, some session⟩, ⟨.getOSInfo sessionId, .ok linuxHost⟩, ⟨.now, (0 : ℕ)⟩,
    ⟨.execSudo (.move (linesTempFile linuxHost 0) path) sent config.commandTimeoutMs,
      .ok (some ⟨some code, "", ""⟩)⟩,
    ⟨.now, (0 : ℕ)⟩]

/-- The request, past what it finds. -/
theorem runs_lines_of_fallback (henforce : session.policyMode = .enforce)
    (hsftp : session.sftp = true)
    (hstat : engine.Permits (pathContext .fsStat path .enforce))
    (hedit : editLines .present [data] false "" = (some data, 1)) {log : List Event}
    {result : Except Failure Unit}
    (h : Runs (writeFileWithPrivilegeFallback engine config linuxHost sessionId path data true) log
      result) :
    Runs ((EditRequest.lines sessionId path [data] true .present).run engine config)
      (newFileLog session sessionId path ++ log) (result.map fun _ => true) := by
  have hlines : Runs (ensureLinesInFile engine config sessionId path [data] true .present)
      (newFileLog session sessionId path ++ log) (result.map fun _ => ⟨true, 1⟩) := by
    change Runs (.perform (Operation.getOSInfo sessionId) _) _ _
    refine .perform _ ?_
    rw [done_andThen]
    refine runs_andThen_iff.mpr ⟨_, _, _, runs_pathExists henforce hsftp hstat, ?_, rfl⟩
    dsimp only
    rw [if_neg Bool.false_ne_true, if_neg (by decide), if_neg (by decide), hedit]
    refine runs_andThen_iff.mpr ⟨_, _, [], h, ?_, (List.append_nil _).symm⟩
    cases result with
    | ok => exact .done _
    | error => exact .done _
  refine runs_andThen_iff.mpr ⟨_, _, [], hlines, ?_, (List.append_nil _).symm⟩
  cases result with
  | ok => exact .done _
  | error => exact .done _

variable (session config sessionId path data uuid) in
/-- **A request whose direct write is denied**, within the first millisecond. -/
theorem runs_lines_staged (uuid' : String) (code : ℕ) (henforce : session.policyMode = .enforce)
    (hsftp : session.sftp = true)
    (hstat : engine.Permits (pathContext .fsStat path .enforce))
    (hwrite : engine.Permits (pathContext .fsWrite path .enforce))
    (hstage : engine.Permits (pathContext .fsWrite (linesTempFile linuxHost 0) .enforce))
    (hmove : engine.Permits (sudoContext (.move (linesTempFile linuxHost 0) path) .enforce
      (privilegedOptions .ensureLines path true)))
    (hfits : data.utf8ByteSize ≤ config.maxFileWriteBytes)
    (hedit : editLines .present [data] false "" = (some data, 1)) {sent : String}
    (hline : buildSudoCommand (Script.move (linesTempFile linuxHost 0) path).text linuxHost none =
      .ok sent) :
    ∃ result, (code = 0 → result = .ok true) ∧
      Runs ((EditRequest.lines sessionId path [data] true .present).run engine config)
        (stagedLog session sessionId path data uuid uuid' ++
          movedLog session config sessionId path sent code) result := by
  obtain ⟨moved, rfl, hmoved⟩ := runs_execSudo henforce hmove hline code 0
  let result : Except Failure Unit :=
    if moved.code ≠ 0 then
      .error (createFilesystemError ("Failed to move temporary file to " ++ path)
        (some "Check file permissions and sudo access"))
    else .ok ()
  have hdenied : Runs (writeFile engine config sessionId path data)
      (⟨.getSession sessionId, some session⟩ :: ⟨.randomUUID, uuid⟩ :: _) _ :=
    runs_writeFile henforce hsftp hwrite hfits (runs_sftpReplaceFile_denied permissionDenied)
  have hstaged : Runs (writeFile engine config sessionId (linesTempFile linuxHost 0) data)
      (writeLog session sessionId (linesTempFile linuxHost 0) data uuid') (.ok true) :=
    runs_writeFile henforce hsftp hstage hfits runs_sftpReplaceFile
  have hwritten : Runs
      (writeFile engine config sessionId (linesTempFile linuxHost 0) data >>= fun _ =>
        (pure () : Task Unit)) _ (.ok ()) := hstaged.bind (.done _)
  have hfallback : Runs
      (writeFileWithPrivilegeFallback engine config linuxHost sessionId path data true)
      ((stagedLog session sessionId path data uuid uuid').drop 4 ++
        movedLog session config sessionId path sent moved.code) result := by
    refine runs_andThen_iff.mpr ⟨_, _, _, hdenied.bind_error, ?_, rfl⟩
    change Runs (if _ then _ else _) _ _
    rw [isPermissionError_denied, if_neg (by decide)]
    change Runs (.perform Operation.now _) _ _
    refine .perform _ ?_
    change Runs (Program.andThen (Program.tryCatch _ _) _) _ _
    refine runs_andThen_iff.mpr ⟨_, _, _, Runs.tryCatch_ok hwritten, ?_, rfl⟩
    refine runs_andThen_iff.mpr ⟨_, _, [], hmoved, ?_, rfl⟩
    change Runs (if moved.code ≠ 0 then _ else _) _ _
    split
    · next hcode =>
      rw [show result = _ from if_pos hcode]
      exact .done _
    · next hcode =>
      rw [show result = _ from if_neg hcode]
      exact .done _
  refine ⟨result.map fun _ => true, fun hcode => ?_, ?_⟩
  · rw [show result = _ from if_neg (not_not_intro hcode)]
    rfl
  · exact runs_lines_of_fallback henforce hsftp hstat hedit hfallback

variable (session config sessionId path data uuid) in
/-- **A request whose direct write succeeds.** -/
theorem runs_lines (henforce : session.policyMode = .enforce) (hsftp : session.sftp = true)
    (hstat : engine.Permits (pathContext .fsStat path .enforce))
    (hwrite : engine.Permits (pathContext .fsWrite path .enforce))
    (hfits : data.utf8ByteSize ≤ config.maxFileWriteBytes)
    (hedit : editLines .present [data] false "" = (some data, 1)) :
    Runs ((EditRequest.lines sessionId path [data] true .present).run engine config)
      (newFileLog session sessionId path ++ writeLog session sessionId path data uuid)
        (.ok true) := by
  have hwritten : Runs (writeFile engine config sessionId path data)
      (writeLog session sessionId path data uuid) (.ok true) :=
    runs_writeFile henforce hsftp hwrite hfits runs_sftpReplaceFile
  have hdirect : Runs (writeFile engine config sessionId path data >>= fun _ =>
      (pure () : Task Unit)) _ (.ok ()) := hwritten.bind (.done _)
  exact runs_lines_of_fallback henforce hsftp hstat hedit hdirect.tryCatch_ok

end Sample

/-- A host with SFTP, where the policy is enforced. -/
def sampleShared : SharedHost where
  sessions _ := ⟨.enforce, true⟩
  isDirectory _ := False
  deliver bytes := JsText.trim (Utf8.decode bytes)
  patches _ _ _ := False

theorem eqOn_update {s t : Contents} {S : Set String} {path : String}
    {content : Option (List UInt8)}
    (h : Set.EqOn t s Sᶜ) (hpath : path ∈ S) : Set.EqOn (Function.update t path content) s Sᶜ := by
  intro other hother
  have hne : other ≠ path := fun heq => hother (by rw [heq]; exact hpath)
  rw [Function.update_of_ne hne]
  exact h hother

/-- What is left of a write. -/
def writtenFiles (s : Contents) (path uuid data : String) : Contents :=
  Function.update (Function.update (Function.update s (tempPathFor path uuid)
    (some (Utf8.encode data)))
    (tempPathFor path uuid) none) path (some (Utf8.encode data))

section Follows

variable {ι : Type} (i : ι) (s : Contents) (sessionId path data uuid : String)

theorem follows_newFileLog :
    sampleShared.shared.Follows s
      ((newFileLog ⟨.enforce, true⟩ sessionId path).map fun e => (i, e)) s := by
  have hsame : ∀ op, Set.EqOn s s (sampleShared.changes op)ᶜ := fun _ => Set.eqOn_refl s _
  exact .cons i ⟨hsame _, trivial⟩ <| .cons i ⟨hsame _, .inr rfl⟩ <| .cons i ⟨hsame _, .inr rfl⟩ <|
    .cons i ⟨hsame _, trivial⟩ <| .nil _

theorem follows_writeLog :
    sampleShared.shared.Follows s
      ((writeLog ⟨.enforce, true⟩ sessionId path data uuid).map fun e => (i, e))
      (writtenFiles s path uuid data) := by
  have hsame : ∀ op, Set.EqOn s s (sampleShared.changes op)ᶜ := fun _ => Set.eqOn_refl s _
  have hwrite : sampleShared.shared.does (.sftpWriteFile (tempPathFor path uuid) (Utf8.encode data))
    s
      (.ok ()) (Function.update s (tempPathFor path uuid) (some (Utf8.encode data))) :=
    ⟨eqOn_update (hsame _) (SharedHost.mem_changes rfl not_false), not_false,
      Function.update_self _ _ _⟩
  have hrename : sampleShared.shared.does (.sftpRename (tempPathFor path uuid) path)
      (Function.update s (tempPathFor path uuid) (some (Utf8.encode data))) (.ok ())
      (writtenFiles s path uuid data) :=
    ⟨eqOn_update (eqOn_update (Set.eqOn_refl _ _) (SharedHost.mem_changes (.inl rfl) not_false))
      (SharedHost.mem_changes (.inr rfl) not_false), not_false, _, Function.update_self _ _ _,
      Function.update_self _ _ _⟩
  exact .cons i ⟨hsame _, .inr rfl⟩ <| .cons i ⟨hsame _, trivial⟩ <|
    .cons i hwrite <| .cons i hrename <| .nil _

theorem follows_stagedLog (uuid' : String) :
    sampleShared.shared.Follows s
      ((stagedLog ⟨.enforce, true⟩ sessionId path data uuid uuid').map fun e => (i, e))
      (writtenFiles s (linesTempFile linuxHost 0) uuid' data) := by
  have hsame : ∀ op, Set.EqOn s s (sampleShared.changes op)ᶜ := fun _ => Set.eqOn_refl s _
  unfold stagedLog
  rw [List.map_append, List.map_append]
  refine ((follows_newFileLog i s sessionId path).append ?_).append
    (follows_writeLog i s sessionId _ data uuid')
  -- the direct write does nothing
  exact .cons i ⟨hsame _, .inr rfl⟩ <| .cons i ⟨hsame _, trivial⟩ <| .cons i ⟨hsame _, trivial⟩ <|
    .cons i ⟨hsame _, trivial⟩ <| .cons i ⟨hsame _, trivial⟩ <| .nil _

end Follows

theorem follows_movedLog {ι : Type} (i : ι) (s s' : Contents) (config : ServerConfig)
    (sessionId path sent : String) (code : ℕ)
    (hframe : Set.EqOn s' s
      (sampleShared.changes (.exec (.move (linesTempFile linuxHost 0) path) sent))ᶜ)
    (heffect : sampleShared.ScriptEffect s code "" s' (.move (linesTempFile linuxHost 0) path)) :
    sampleShared.shared.Follows s
      ((movedLog ⟨.enforce, true⟩ config sessionId path sent code).map fun e => (i, e)) s' := by
  have hsame : ∀ t : Contents, ∀ op, Set.EqOn t t (sampleShared.changes op)ᶜ :=
    fun t _ => Set.eqOn_refl t _
  have hmove : sampleShared.shared.does
      (.execSudo (.move (linesTempFile linuxHost 0) path) sent config.commandTimeoutMs) s
      (.ok (some ⟨some code, "", ""⟩)) s' := ⟨hframe, code, rfl, fun _ => heffect⟩
  exact .cons i ⟨hsame s _, .inr rfl⟩ <| .cons i ⟨hsame s _, trivial⟩ <|
    .cons i ⟨hsame s _, trivial⟩ <| .cons i hmove <| .cons i ⟨hsame s' _, trivial⟩ <| .nil _

/-- A policy that lets everything be done. -/
theorem exists_open (rt : Runtime)
    (hregexp : ∀ pattern flags text, rt.regExpTest pattern flags text = false) :
    ∃ engine : PolicyEngine rt,
      (∀ action ∈ [PolicyAction.fsStat, .fsWrite], ∀ path : String, Char.ofNat 0 ∉ path.toList →
        engine.Permits (pathContext action path .enforce)) ∧
      ∀ (script : Script) (path : String), Char.ofNat 0 ∉ path.toList →
        engine.Permits (sudoContext script .enforce (privilegedOptions .ensureLines path
          true)) := by
  obtain ⟨engine, hengine⟩ := PolicyEngine.exists_engine rt { allowDestructiveFs := true }
    (by decide) (by decide) ⟨rfl, rfl⟩
  refine ⟨engine, fun action haction path hnul => ?_, fun script path hnul => ?_⟩
  · obtain rfl | rfl := List.mem_pair.mp haction
    · exact permits_of_noDenies (by rw [hengine]) (by decide) hnul .enforce
    · exact permits_of_noDenies (by rw [hengine]) (by decide) hnul .enforce
  have hcommand : engine.commandDenial
      (sudoContext script .enforce (privilegedOptions .ensureLines path true)) = none :=
    commandDenial_eq_none hregexp (by rw [hengine]) (by rw [hengine]) _
  rw [engine.permits_iff, PolicyEngine.denialWith, hcommand, Option.or_none]
  have hlocal : PolicyAction.ensureLines ∉ localTransferActions := by decide
  refine Option.or_eq_none_iff.mpr ⟨rfl, (engine.pathsDenial_eq_none_iff hlocal).mpr ?_⟩
  intro p hp
  obtain rfl : path = p := by
    by_cases hne : path = ""
    · simp [PolicyContext.paths, sudoContext, privilegedOptions, truthy, hne] at hp
    · have h : path = p ∧ ¬p = "" := by
        simpa [PolicyContext.paths, sudoContext, privilegedOptions, truthy, hne] using hp
      exact h.1
  refine engine.pathDenial_eq_none_iff.mpr ⟨hnul, ?_, fun _ h => ?_⟩
  · rw [PolicyEngine.DenyCovers, PolicyEngine.denyLocations, hengine]
    rintro ⟨d, hd, -⟩
    exact absurd hd List.not_mem_nil
  · rw [hengine] at h
    cases h

theorem exists_sudoLine (command : String) :
    ∃ sent, buildSudoCommand command linuxHost none = .ok sent := by
  have hplatform : ¬linuxHost.platform = .windows := by decide
  unfold buildSudoCommand
  rw [if_neg hplatform, buildPosixCommand_eq fun _ hentry => absurd hentry List.not_mem_nil]
  exact ⟨_, rfl⟩

/-- Two lines for two files. -/
def sampleEdits (first : Bool) : EditRequest :=
  if first then .lines "ssh-1" "/etc/a" ["x"] true .present
  else .lines "ssh-1" "/etc/b" ["y"] true .present

/-- An operation of a request that keeps to files of its own. -/
theorem apart_of_footprint {host : SharedHost} {ι : Type} {requests : ι → EditRequest} {c : Edits ι}
    {i : ι} {op : Operation} {footprint : ι → Set String} (hscript : op.script? = none)
    (hchanges : host.changes op ⊆ footprint i) (hpatch : ¬(requests i).IsPatch)
    (htarget : ∀ j, (requests j).target ∈ footprint j) (hchanged : ∀ j, c.changed j ⊆ footprint j)
    (hdisjoint : ∀ j, j ≠ i → Disjoint (footprint i) (footprint j)) :
      Apart host requests c i op := by
  have hnone : ∀ script, op.script? ≠ some script := by
    rw [hscript]
    exact nofun
  refine ⟨fun j hj => ?_, ?_⟩
  · refine (hdisjoint j hj).mono hchanges ((Threads.held_subset _ c j).trans ?_)
    exact Set.union_subset (Set.singleton_subset_iff.mpr (htarget j)) (hchanged j)
  · exact {
      plain := fun _ h => absurd h (hnone _)
      fresh := fun _ _ _ _ h => absurd h (hnone _)
      source := fun _ _ h => absurd h (hnone _)
      target := fun h => absurd h hpatch
      patchFile := fun _ _ h => absurd h (hnone _) }

/-- What a request works on whose direct write succeeds. -/
theorem changes_newFile_write {session : Session} {sessionId path data uuid : String} :
    ∀ e ∈ newFileLog session sessionId path ++ writeLog session sessionId path data uuid,
      e.1.script? = none ∧ sampleShared.changes e.1 ⊆ {tempPathFor path uuid, path} := by
  intro e he
  have hchanges : ∀ op : Operation, op.script? = none →
      sampleShared.files op ⊆ {tempPathFor path uuid, path} →
      op.script? = none ∧ sampleShared.changes op ⊆ {tempPathFor path uuid, path} := by
    intro op hscript hfiles
    refine ⟨hscript, fun p hp => ?_⟩
    obtain ⟨script, hsome, -⟩ | ⟨hmem, -⟩ := hp
    · rw [hscript] at hsome
      cases hsome
    · exact hfiles hmem
  simp only [newFileLog, writeLog, List.cons_append, List.nil_append, List.mem_cons,
    List.not_mem_nil, or_false] at he
  rcases he with rfl | rfl | rfl | rfl | rfl | rfl | rfl | rfl
  · exact hchanges _ rfl (Set.empty_subset _)
  · exact hchanges _ rfl (Set.empty_subset _)
  · exact hchanges _ rfl (Set.empty_subset _)
  · exact hchanges _ rfl (Set.empty_subset _)
  · exact hchanges _ rfl (Set.empty_subset _)
  · exact hchanges _ rfl (Set.empty_subset _)
  · exact hchanges _ rfl fun p hp => .inl hp
  · exact hchanges _ rfl subset_rfl

/-- **Concurrent edits do not mix**, in any order of their operations, as long as each operation is
apart. -/
theorem concurrent_edits {rt : Runtime} {ι : Type} [DecidableEq ι] (engine : PolicyEngine rt)
    (config : ServerConfig) (host : SharedHost) (requests : ι → EditRequest) (files : Contents)
    {c : Edits ι}
    (hrun : host.shared.Run (Apart host requests) (startEdits engine config requests files) c) :
    Unmixed host rt requests files c := by
  intro i hdone
  refine Shared.run_rely (fun j => {(requests j).target}) (fun j => host.StagesWell (requests j))
    (fun j => Leaves host rt (requests j) (fun success => success = true)
      (files (requests j).target)) ?_ (fun c j op h => ⟨h.undisturbed, h.stages⟩) ?_ hrun hdone true
      rfl rfl
  · intro j result s t heq h a ha hsuccess
    rw [heq (Set.mem_singleton _)]
    exact h a ha hsuccess
  · exact Shared.relies_start fun j => comes_request engine config host (requests j) files

/-- Both requests write their files themselves, one after the other has looked for its file. -/
theorem concurrent_edits_direct :
    ∃ (engine : PolicyEngine sampleRuntime) (c : Edits Bool),
      sampleShared.shared.Run (Apart sampleShared sampleEdits)
        (startEdits engine sampleConfig sampleEdits fun _ => none) c ∧
      (∀ i, c.thread i = .done (.ok true)) ∧
      c.store "/etc/a" = some (Utf8.encode "x") ∧ c.store "/etc/b" = some (Utf8.encode "y") ∧
      Unmixed sampleShared sampleRuntime sampleEdits (fun _ => none) c := by
  obtain ⟨engine, hpaths, -⟩ := exists_open sampleRuntime fun _ _ _ => rfl
  have hrunA := runs_lines sampleConfig ⟨.enforce, true⟩ "ssh-1" "/etc/a" "x" "1" rfl rfl
    (hpaths .fsStat (by decide) "/etc/a" (by decide)) (hpaths .fsWrite (by decide) "/etc/a"
      (by decide))
    (by decide) (by decide +kernel)
  have hrunB := runs_lines sampleConfig ⟨.enforce, true⟩ "ssh-1" "/etc/b" "y" "2" rfl rfl
    (hpaths .fsStat (by decide) "/etc/b" (by decide)) (hpaths .fsWrite (by decide) "/etc/b"
      (by decide))
    (by decide) (by decide +kernel)
  -- both look first, then one writes after the other
  let schedule : List (Bool × Event) :=
    Shared.turns (newFileLog ⟨.enforce, true⟩ "ssh-1" "/etc/a")
      (newFileLog ⟨.enforce, true⟩ "ssh-1" "/etc/b")
      (writeLog ⟨.enforce, true⟩ "ssh-1" "/etc/a" "x" "1")
      (writeLog ⟨.enforce, true⟩ "ssh-1" "/etc/b" "y" "2")
  let footprint : Bool → Set String := fun i =>
    if i then {tempPathFor "/etc/a" "1", "/etc/a"} else {tempPathFor "/etc/b" "2", "/etc/b"}
  let written := writtenFiles (fun _ => none) "/etc/a" "1" "x"
  have hfollows : sampleShared.shared.Follows (fun _ => none) schedule
      (writtenFiles written "/etc/b" "2" "y") :=
    (follows_newFileLog true (fun _ => none) "ssh-1" "/etc/a").append
      ((follows_newFileLog false (fun _ => none) "ssh-1" "/etc/b").append
        ((follows_writeLog true (fun _ => none) "ssh-1" "/etc/a" "x" "1").append
          (follows_writeLog false written "ssh-1" "/etc/b" "y" "2")))
  have hentries : ∀ entry ∈ schedule, entry.2.1.script? = none ∧
      sampleShared.changes entry.2.1 ⊆ footprint entry.1 :=
    Shared.forall_mem_turns (P := fun i e => e.1.script? = none ∧
      sampleShared.changes e.1 ⊆ footprint i)
      changes_newFile_write changes_newFile_write
  -- the two edits touch no path in common
  have hdisjoint : ∀ i j, j ≠ i → Disjoint (footprint i) (footprint j) := by
    have h : Disjoint (footprint true) (footprint false) := by
      refine Set.disjoint_left.mpr ?_
      rintro p (rfl | rfl) (h | h)
      · exact absurd h (by decide +kernel)
      · exact absurd h (by decide +kernel)
      · exact absurd h (by decide +kernel)
      · exact absurd h (by decide +kernel)
    intro i j hj
    cases i with
    | true =>
      obtain rfl := Bool.eq_false_of_not_eq_true hj
      exact h
    | false =>
      obtain rfl := Bool.eq_true_of_not_eq_false hj
      exact h.symm
  -- so each may go on whenever the schedule says so
  have hmay : ∀ entry ∈ schedule, ∀ c : Edits Bool, (∀ j, c.changed j ⊆ footprint j) →
      Apart sampleShared sampleEdits c entry.1 entry.2.1 := by
    intro entry hentry c hchanged
    refine apart_of_footprint (hentries entry hentry).1 (hentries entry hentry).2 ?_ ?_ hchanged
      (hdisjoint entry.1)
    · cases entry.1 with
      | true => exact not_false
      | false => exact not_false
    · intro j
      cases j with
      | true => exact .inr rfl
      | false => exact .inr rfl
  have hruns : ∀ i, Runs ((sampleEdits i).run engine sampleConfig) (Shared.scheduled schedule i)
      (.ok true) := by
    intro i
    cases i with
    | true =>
      rw [Shared.scheduled_turns_true]
      exact hrunA
    | false =>
      rw [Shared.scheduled_turns_false]
      exact hrunB
  obtain ⟨changed, hrun⟩ := Shared.exists_run (Apart sampleShared sampleEdits) footprint hfollows
    (fun entry hentry => (hentries entry hentry).2) hmay (fun _ => Set.empty_subset _) hruns
  have hstore : writtenFiles written "/etc/b" "2" "y" "/etc/a" = some (Utf8.encode "x") ∧
      writtenFiles written "/etc/b" "2" "y" "/etc/b" = some (Utf8.encode "y") := by
    decide +kernel
  exact ⟨engine, _, hrun, fun _ => rfl, hstore.1, hstore.2,
    concurrent_edits engine sampleConfig sampleShared sampleEdits _ hrun⟩

/-- **Edits mix**: both requests stage their content under the name of the same millisecond, and the
first one installs what the second one has staged. -/
theorem edits_mix :
    ∃ (engine : PolicyEngine sampleRuntime) (c : Edits Bool),
      sampleShared.shared.Run (fun _ _ _ => True)
        (startEdits engine sampleConfig sampleEdits fun _ => none) c ∧
      (∀ i, ∃ result, c.thread i = .done result) ∧
      ¬Unmixed sampleShared sampleRuntime sampleEdits (fun _ => none) c := by
  obtain ⟨engine, hpaths, hsudo⟩ := exists_open sampleRuntime fun _ _ _ => rfl
  have htemp : Char.ofNat 0 ∉ (linesTempFile linuxHost 0).toList := by decide +kernel
  have hstage := hpaths .fsWrite (by decide) _ htemp
  obtain ⟨sentA, hlineA⟩ := exists_sudoLine (Script.move (linesTempFile linuxHost 0) "/etc/a").text
  obtain ⟨sentB, hlineB⟩ := exists_sudoLine (Script.move (linesTempFile linuxHost 0) "/etc/b").text
  obtain ⟨resultA, hokA, hrunA⟩ :=
    runs_lines_staged sampleConfig ⟨.enforce, true⟩ "ssh-1" "/etc/a" "x" "1"
    "2" 0 rfl rfl (hpaths .fsStat (by decide) "/etc/a" (by decide))
    (hpaths .fsWrite (by decide) "/etc/a" (by decide)) hstage (hsudo _ "/etc/a" (by decide))
    (by decide) (by decide +kernel) hlineA
  obtain ⟨resultB, -, hrunB⟩ :=
    runs_lines_staged sampleConfig ⟨.enforce, true⟩ "ssh-1" "/etc/b" "y" "3"
    "4" 1 rfl rfl (hpaths .fsStat (by decide) "/etc/b" (by decide))
    (hpaths .fsWrite (by decide) "/etc/b" (by decide)) hstage (hsudo _ "/etc/b" (by decide))
    (by decide) (by decide +kernel) hlineB
  obtain rfl := hokA rfl
  -- both stage, then the first one moves what the second one has left
  let stagedA := writtenFiles (fun _ => none) (linesTempFile linuxHost 0) "2" "x"
  let stagedB := writtenFiles stagedA (linesTempFile linuxHost 0) "4" "y"
  let installed : Contents := Function.update (Function.update stagedB
    (linesTempFile linuxHost 0) none)
    "/etc/a" (some (Utf8.encode "y"))
  have hframe : Set.EqOn installed stagedB
      (sampleShared.changes (.exec (.move (linesTempFile linuxHost 0) "/etc/a") sentA))ᶜ :=
    eqOn_update (eqOn_update (Set.eqOn_refl _ _) (SharedHost.mem_changes (.inl rfl) not_false))
      (SharedHost.mem_changes (.inr (.inl rfl)) not_false)
  have heffect : sampleShared.ScriptEffect stagedB 0 "" installed
      (.move (linesTempFile linuxHost 0) "/etc/a") :=
    fun _ => .inr ⟨Utf8.encode "y", Function.update_self _ _ _, Function.update_self _ _ _⟩
  let schedule : List (Bool × Event) :=
    Shared.turns (stagedLog ⟨.enforce, true⟩ "ssh-1" "/etc/a" "x" "1" "2")
      (stagedLog ⟨.enforce, true⟩ "ssh-1" "/etc/b" "y" "3" "4")
      (movedLog ⟨.enforce, true⟩ sampleConfig "ssh-1" "/etc/a" sentA 0)
      (movedLog ⟨.enforce, true⟩ sampleConfig "ssh-1" "/etc/b" sentB 1)
  have hfollows : sampleShared.shared.Follows (fun _ => none) schedule installed :=
    (follows_stagedLog true (fun _ => none) "ssh-1" "/etc/a" "x" "1" "2").append
      ((follows_stagedLog false stagedA "ssh-1" "/etc/b" "y" "3" "4").append
        ((follows_movedLog true stagedB installed sampleConfig "ssh-1" "/etc/a" sentA 0 hframe
            heffect).append
          (follows_movedLog false installed installed sampleConfig "ssh-1" "/etc/b" sentB 1
            (Set.eqOn_refl _ _) nofun)))
  let result : Bool → Except Failure Bool := fun i => if i then .ok true else resultB
  have hruns : ∀ i, Runs ((sampleEdits i).run engine sampleConfig) (Shared.scheduled schedule i)
      (result i) := by
    intro i
    cases i with
    | true =>
      rw [Shared.scheduled_turns_true]
      exact hrunA
    | false =>
      rw [Shared.scheduled_turns_false]
      exact hrunB
  obtain ⟨changed, hrun⟩ := Shared.exists_run (fun _ _ _ => True) (fun _ => Set.univ)
    hfollows (fun _ _ => Set.subset_univ _) (fun _ _ _ _ => trivial)
      (fun _ => Set.empty_subset _) hruns
  refine ⟨engine, _, hrun, fun i => ⟨_, rfl⟩, fun hunmixed => ?_⟩
  have hinstalled : installed "/etc/a" = some (Utf8.encode "y") := Function.update_self _ _ _
  have hcomes : ComesOf sampleShared sampleRuntime (.lines "ssh-1" "/etc/a" ["x"] true .present)
    none
      (installed "/etc/a") := hunmixed true rfl
  rw [hinstalled] at hcomes
  obtain ⟨hexplain | hdirectory, -⟩ | ⟨-, hsame⟩ | ⟨content, hedit, part, hpart, hcontent⟩ := hcomes
  · cases hexplain
  · exact hdirectory
  · cases hsame
  · obtain rfl : content = "x" := by
      obtain ⟨_, _, hbefore, -⟩ | ⟨-, hedit⟩ | ⟨hstate, -⟩ := hedit
      · cases hbefore
      · exact (Option.some.inj ((show _ = some "x" by decide +kernel).symm.trans hedit)).symm
      · cases hstate
    obtain rfl := Option.some.inj hcontent
    have hnot : ¬Utf8.encode "y" <+: Utf8.encode "x" := by decide +kernel
    exact hnot hpart

end Ssh
