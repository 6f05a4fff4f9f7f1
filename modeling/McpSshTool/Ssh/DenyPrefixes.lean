import McpSshTool.Ssh.DenialStops
import McpSshTool.Ssh.Reaches
import McpSshTool.Ssh.TreeHost

/-!
# Deny prefixes and what stands beneath a path

A removal and a renaming take away all that stands beneath a path. The policy checks the path
itself.

* `Protects` — nothing that is removed or moved along with the path is under a deny prefix;
* `Feasible` — what the host carries out in some tree;
* `deny_prefixes_protect_iff` — when deny prefixes protect what is under them.
-/

open Library FileTree

namespace Ssh

open Program

/-- A request that takes something away, by an absolute path. -/
inductive TreeRequest where
  | remove (path : String)
  | rename (source target : String)

namespace TreeRequest

/-- The path whose contents are taken away. -/
def path : TreeRequest → String
  | remove path => path
  | rename source _ => source

/-- The context of the decision on a request. -/
def context (mode : PolicyMode) : TreeRequest → PolicyContext
  | remove path => removeContext path mode
  | rename source target => renameContext source target mode

/-- The program that serves a request. -/
def task {rt : Runtime} (engine : PolicyEngine rt) (depth : ℕ) (sessionId : String) :
    TreeRequest → Task Bool
  | remove path => removeRecursive engine depth sessionId path
  | rename source target => renameFile engine sessionId source target

/-- **What the host carries out in some tree.** The shell does not remove the root, nor a path that
ends with dots. Neither is renamed, and nothing is moved beneath itself, or to where a directory is
that has members: over SFTP the target would be a directory that the source stands in, through the
shell the member of such a directory that has the name of the source. -/
def Feasible (sftp : Bool) : TreeRequest → Prop
  | remove path => sftp = true ∨ locate path ≠ [] ∧ ¬Dotted path
  | rename source target =>
    locate source ≠ [] ∧ ¬Dotted source ∧ ¬locate source <:+ locate target ∧
      (sftp = true → ¬Dotted target ∧ ¬locate target <:+ locate source) ∧
      (sftp = false → ¬(locate source).headD "" :: locate target <:+ locate source)

end TreeRequest

variable {rt : Runtime} (engine : PolicyEngine rt) (session : Session)

/-- A deny prefix is at the location, above it or beneath it. -/
def Touches (l : Location) : Prop := ∃ d ∈ engine.denyLocations, d <+: route l ∨ route l <+: d

/-- **Deny prefixes protect what is under them**: whatever stands at the path of the request or
beneath it, and is not there any more once the request is served, was under no deny prefix. -/
def Protects (request : TreeRequest) : Prop :=
  ∀ (host : TreeHost) (tree : Tree) (depth : ℕ) (sessionId : String),
    Ends (treeHost session host) (request.task engine depth sessionId) tree.entries fun fs _ =>
      ∀ e ∈ tree.entries, locate request.path <:+ e.location → e ∉ fs →
        ¬engine.DenyCovers (route e.location)

variable {engine session} {host : TreeHost} {sessionId : String} {K : List Entry → Prop}

/-! ### Runs of the two operations -/

/-- A request that is denied or only explained changes nothing. -/
theorem ends_of_not_permits {request : TreeRequest} {depth : ℕ} (fs : List Entry)
    (h : ¬(engine.Permits (request.context .enforce) ∧ session.policyMode = .enforce)) :
    Ends (treeHost session host) (request.task engine depth sessionId) fs fun fs' _ =>
      fs' = fs := by
  have hlookup : Performs (SessionIs session) Operation.IsLookup
      (request.task engine depth sessionId) := by
    have hsession : Looks (SessionIs session) session := looks_sessionIs
    have hguarded : ∀ {Ops : Operation → Prop} (op : Operation),
        Guarded engine session (request.context session.policyMode) Ops op → op.IsLookup := by
      rintro Ops op (hop | ⟨hpermits, henforce, -⟩)
      · exact hop
      · exact absurd ⟨henforce ▸ hpermits, henforce⟩ h
    cases request with
    | remove path =>
      have hlists : Lists (SessionIs session) fun _ => True := fun _ _ _ _ _ => trivial
      exact (removeRecursive_performs engine hsession hlists depth sessionId path).weaken hguarded
    | rename source target =>
      exact (renameFile_performs engine hsession sessionId source target).weaken hguarded
  refine (Ends.of_ensures (I := (· = fs)) hlookup ?_ rfl).mono fun _ _ h => h.1
  rintro _ rfl op hop
  cases op with
  | getSession => exact ⟨.inr rfl, rfl⟩
  | randomUUID => exact ⟨trivial, rfl⟩
  | now => exact ⟨trivial, rfl⟩
  | _ => exact hop.elim

/-- A permitted operation on files is carried out. -/
theorem ends_permitted {α : Type} {hint : String} (context : Session → PolicyContext)
    {explained : PolicyDecision → Task α} {body : Session → Task α} {fs : List Entry}
    (hpermits : engine.Permits (context session)) (hmode : (context session).mode = some .enforce)
    (h : Ends (treeHost session host) (body session) fs fun fs' _ => K fs') :
    Ends (treeHost session host)
      (getSession sessionId >>= fun s => wrapping hint
        (ofExcept (engine.assertAllowed (context s)) >>= fun decision =>
          if decision.mode = .explain then explained decision else body s))
      fs fun fs' _ => K fs' := by
  have hwrapped : Ends (treeHost session host)
      (wrapping hint (ofExcept (engine.assertAllowed (context session)) >>= fun decision =>
        if decision.mode = .explain then explained decision else body session))
      fs fun fs' _ => K fs' := by
    rw [ends_wrapping, guarded_eq hpermits hmode]
    exact h
  exact hwrapped

theorem ends_then_pure {α β : Type} {p : Task α} {b : β} {fs : List Entry}
    (h : Ends (treeHost session host) p fs fun fs' _ => K fs') :
    Ends (treeHost session host) (p >>= fun _ => pure b) fs fun fs' _ => K fs' :=
  ends_bind_pure.mpr h

section Permitted

variable (henforce : session.policyMode = .enforce) {fs : List Entry}
include henforce

/-- A removal over SFTP, of a directory. -/
theorem remove_ends_of_sftp {path : String} {depth : ℕ}
    (hpermits : engine.Permits (removeContext path .enforce)) (hsftp : session.sftp = true)
    (hdirectory : lookup fs (locate path) = some .directory)
    (h : Ends (treeHost session host) (sftpRmdirRecursive depth path) fs fun fs' _ => K fs') :
    Ends (treeHost session host) (removeRecursive engine depth sessionId path) fs
      fun fs' _ => K fs' := by
  refine ends_permitted (fun s => removeContext path s.policyMode)
    (by rwa [henforce]) (congrArg some henforce) ?_
  rw [if_neg (by simp [hsftp])]
  have hstat : TreeHost.stat fs path = .ok (attributes .directory) := by
    unfold TreeHost.stat
    rw [hdirectory]
  change Ends (treeHost session host) (removeBody depth path) fs fun fs' _ => K fs'
  refine Ends.bind (Q := fun fs' result => fs' = fs ∧ result = .ok (attributes .directory))
    ⟨rfl, hstat⟩ ?_ ?_
  · rintro _ stats ⟨rfl, hstats⟩
    obtain rfl := Except.ok.inj hstats
    exact ends_then_pure h
  · rintro _ e ⟨-, ⟨⟩⟩

theorem remove_ends_of_shell {path : String} {depth : ℕ}
    (hpermits : engine.Permits (removeContext path .enforce)) (hsftp : session.sftp = false)
    (h : K (host.run fs (.remove path)).1) :
    Ends (treeHost session host) (removeRecursive engine depth sessionId path) fs
      fun fs' _ => K fs' := by
  refine ends_permitted (fun s => removeContext path s.policyMode)
    (by rwa [henforce]) (congrArg some henforce) ?_
  rw [if_pos (by simp [hsftp])]
  exact ends_then_pure ((execFallback_state session host fs sessionId (.remove path)).mono
    fun _ _ hfs => hfs ▸ h)

/-- A renaming, over SFTP or through the shell. -/
theorem rename_ends {source target : String}
    (hpermits : engine.Permits (renameContext source target .enforce))
    (h : K (if session.sftp then (host.rename fs source target).1
      else (host.run fs (.move source target)).1)) :
    Ends (treeHost session host) (renameFile engine sessionId source target) fs
      fun fs' _ => K fs' := by
  refine ends_permitted (fun s => renameContext source target s.policyMode)
    (by rwa [henforce]) (congrArg some henforce) ?_
  split
  · next hsftp =>
    rw [if_neg (by simpa using hsftp)] at h
    exact ends_then_pure ((execFallback_state session host fs sessionId
      (.move source target)).mono fun _ _ hfs => hfs ▸ h)
  · next hsftp =>
    rw [if_pos (by simpa using hsftp)] at h
    exact ends_then_pure h

end Permitted

/-! ### What no host carries out -/

/-- Nothing is renamed to where it stands, beneath itself or above. -/
theorem renamed_of_comparable (tree : Tree) {source target : Location}
    (h : source <:+ target ∨ target <:+ source) :
    TreeHost.renamed tree.entries source target = none := by
  refine if_neg ?_
  rintro ⟨hroot, -, hexists, -, hbeneath, hreplace⟩
  have habove : target <:+ source := h.resolve_left hbeneath
  have hne : target ≠ source := fun heq => hbeneath (heq ▸ List.suffix_refl _)
  -- the target is a directory, and the way to the source leads through a member of it
  obtain ⟨node, hnode⟩ := Option.ne_none_iff_exists'.mp hexists
  have hdirectory := lookup_of_suffix tree hnode habove hne
  obtain ⟨e, he, rfl, -⟩ := exists_entry hnode hroot
  have hparent : target <:+ e.parent := (List.suffix_cons_iff.mp habove).resolve_left hne
  obtain ⟨m, hm, -⟩ := exists_member tree he hparent
  unfold TreeHost.mayReplace at hreplace
  rw [hdirectory] at hreplace
  have hempty := (of_decide_eq_true hreplace).2
  rw [hempty] at hm
  exact List.not_mem_nil hm

theorem renamed_root (fs : List Entry) (target : Location) :
    TreeHost.renamed fs [] target = none :=
  if_neg fun h => h.1 rfl

theorem renamed_missing {fs : List Entry} {source : Location} (h : lookup fs source = none)
    (target : Location) : TreeHost.renamed fs source target = none :=
  if_neg fun h' => h'.2.2.1 h

/-- A renaming over SFTP that is not feasible changes nothing. -/
theorem rename_of_not_feasible (tree : Tree) {source target : String}
    (h : ¬(TreeRequest.rename source target).Feasible true) :
    host.rename tree.entries source target = (tree.entries, .error sftpFailure) := by
  unfold TreeHost.rename
  by_cases hdots : Dotted source ∨ Dotted target
  · rw [if_pos (hdots.imp_right .inl)]
  · obtain ⟨hsource, htarget⟩ := not_or.mp hdots
    have hnone : TreeHost.renamed tree.entries (locate source) (locate target) = none := by
      by_cases hroot : locate source = []
      · rw [hroot]
        exact renamed_root _ _
      · refine renamed_of_comparable tree ?_
        by_contra hnot
        obtain ⟨hbeneath, habove⟩ := not_or.mp hnot
        exact h ⟨hroot, hsource, hbeneath, fun _ => ⟨htarget, habove⟩, nofun⟩
    rw [hnone]
    split
    · rfl
    · rfl

/-- A renaming through the shell that is not feasible changes nothing. -/
theorem mv_of_not_feasible (tree : Tree) {source target : String}
    (h : ¬(TreeRequest.rename source target).Feasible false) :
    TreeHost.mv tree.entries source target = (tree.entries, 1) := by
  unfold TreeHost.mv
  by_cases hdots : Dotted source
  · exact if_pos hdots
  · rw [if_neg hdots]
    suffices hnone : TreeHost.renamed tree.entries (locate source)
        (TreeHost.landing tree.entries (locate source) (locate target)) = none by
      rw [hnone]
    by_cases hroot : locate source = []
    · rw [hroot]
      exact renamed_root _ _
    by_cases hbeneath : locate source <:+ locate target
    · refine renamed_of_comparable tree (.inl ?_)
      unfold TreeHost.landing
      split
      · exact hbeneath.trans (List.suffix_cons _ _)
      · exact hbeneath
    have habove : (locate source).headD "" :: locate target <:+ locate source := by
      by_contra hnot
      exact h ⟨hroot, hdots, hbeneath, nofun, fun _ => hnot⟩
    cases hnode : lookup tree.entries (locate source) with
    | none => exact renamed_missing hnode _
    | some =>
      -- the source stands in the target, so the target is a directory
      have hdirectory : lookup tree.entries (locate target) = some .directory := by
        refine lookup_of_suffix tree hnode ((List.suffix_cons _ _).trans habove) fun heq => ?_
        have hlength := habove.length_le
        rw [heq, List.length_cons] at hlength
        exact Nat.not_succ_le_self _ hlength
      refine renamed_of_comparable tree (.inr ?_)
      unfold TreeHost.landing
      rw [if_pos hdirectory]
      exact habove

theorem rm_of_not_feasible (fs : List Entry) {path : String}
    (h : ¬(TreeRequest.remove path).Feasible false) : TreeHost.rm fs path = (fs, 1) := by
  refine if_pos ?_
  by_contra hnot
  exact h (.inr (not_or.mp hnot))

/-- **A request that is not feasible** changes nothing. -/
theorem ends_of_not_feasible (tree : Tree) {request : TreeRequest} {depth : ℕ}
    (h : ¬request.Feasible session.sftp) :
    Ends (treeHost session host) (request.task engine depth sessionId) tree.entries
      fun fs _ => fs = tree.entries := by
  by_cases hpermits : engine.Permits (request.context .enforce) ∧ session.policyMode = .enforce
  · obtain ⟨hpermits, henforce⟩ := hpermits
    cases request with
    | remove =>
      have hsftp : session.sftp = false := by
        by_contra hsftp
        exact h (.inl (Bool.eq_true_of_not_eq_false hsftp))
      refine remove_ends_of_shell henforce hpermits hsftp ?_
      unfold TreeHost.run
      split
      · rfl
      · exact congrArg Prod.fst (rm_of_not_feasible tree.entries (hsftp ▸ h))
    | rename =>
      refine rename_ends henforce hpermits ?_
      cases hsftp : session.sftp with
      | true =>
        rw [hsftp] at h
        exact congrArg Prod.fst (rename_of_not_feasible tree h)
      | false =>
        rw [hsftp] at h
        rw [if_neg Bool.false_ne_true]
        unfold TreeHost.run
        split
        · rfl
        · exact congrArg Prod.fst (mv_of_not_feasible tree h)
  · exact ends_of_not_permits tree.entries hpermits

/-! ### What is lost beneath a path -/

/-- What is touched by a deny prefix has a place beneath it, or is one, that is denied. -/
theorem exists_denied {l : Location} (hl : LexicalPath.IsLocation (route l))
    (h : Touches engine l) :
    ∃ base, l <:+ base ∧ engine.DenyCovers (route base) ∧ ∀ name ∈ base, IsName name := by
  obtain ⟨d, hd, habove | hbeneath⟩ := h
  · refine ⟨l, List.suffix_refl l, ⟨d, hd, habove⟩, ?_⟩
    rw [← unroute_route l]
    exact isName_of_mem_unroute hl
  · refine ⟨unroute d, ?_, ⟨d, hd, ?_⟩, isName_of_mem_unroute ?_⟩
    · rw [← route_prefix_iff, route_unroute]
      exact hbeneath
    · rw [route_unroute]
    · obtain ⟨value, -, rfl⟩ := List.mem_map.mp hd
      exact isLocation_policyLocation value

theorem isLocation_route_locate (path : String) : LexicalPath.IsLocation (route (locate path)) := by
  rw [route_locate]
  exact LexicalPath.isLocation_walk LexicalPath.isLocation_nil _

theorem isName_of_mem_locate (path : String) : ∀ name ∈ locate path, IsName name :=
  isName_of_mem_unroute (LexicalPath.isLocation_walk LexicalPath.isLocation_nil _)

theorem isName_x : IsName "x" := ⟨by decide, by decide, by decide, by decide⟩

variable (engine) in
/-- Something denied is lost from beneath a path. -/
def Loses (tree : Tree) (path : String) (fs : List Entry) : Prop :=
  ∃ e ∈ tree.entries, locate path <:+ e.location ∧ e ∉ fs ∧ engine.DenyCovers (route e.location)

/-- **A file in a denied directory**, and a directory elsewhere. -/
theorem exists_tree {path : String} (htouches : Touches engine (locate path)) (directory : Location)
    (hnames : ∀ name ∈ directory, IsName name)
    (houtside : directory = [] ∨ ¬locate path <:+ directory) :
    ∃ (tree : Tree) (e : Entry), e ∈ tree.entries ∧ locate path <:+ e.parent ∧
      engine.DenyCovers (route e.location) ∧
      (∀ l, l <:+ e.parent ∨ l <:+ directory → lookup tree.entries l = some .directory) ∧
      ∀ l, ¬l <:+ e.location → ¬l <:+ directory → lookup tree.entries l = none := by
  obtain ⟨base, hpath, ⟨d, hd, hcovers⟩, hbase⟩ :=
    exists_denied (isLocation_route_locate path) htouches
  have hfile : ¬"x" :: base <:+ directory := by
    intro h
    rcases houtside with rfl | houtside
    · exact List.cons_ne_nil _ _ (List.suffix_nil.mp h)
    · exact houtside ((hpath.trans (List.suffix_cons _ _)).trans h)
  have hall : ∀ name ∈ "x" :: base ++ directory, IsName name := by
    intro name hname
    rcases List.mem_append.mp hname with hname | hname
    · exact List.forall_mem_cons.mpr ⟨isName_x, hbase⟩ name hname
    · exact hnames name hname
  have hdirectory : ∀ l, l <:+ base ∨ l <:+ directory →
      lookup (branches hfile hall).entries l = some .directory := by
    intro l hl
    refine lookup_branchEntries (hl.imp_left fun h => h.trans (List.suffix_cons _ _)) ?_
    rintro rfl
    rcases hl with hl | hl
    · exact Nat.not_succ_le_self _ hl.length_le
    · exact hfile hl
  refine ⟨branches hfile hall, branchEntry ("x" :: base) ("x" :: base), ?_, hpath, ⟨d, hd, ?_⟩,
    hdirectory, fun l => lookup_branchEntries_none⟩
  · exact mem_branchEntries.mpr ⟨.inl (List.suffix_refl _), rfl⟩
  · exact hcovers.trans (route_prefix_iff.mpr (List.suffix_cons _ _))

/-- What is moved away is lost. -/
theorem lost_of_renamed {tree : Tree} {e : Entry} {source target : Location}
    (hbeneath : source <:+ e.location) (hparent : lookup tree.entries source = some .directory)
    (hroot : source ≠ []) (htarget : lookup tree.entries target = none)
    (hinto : lookup tree.entries target.tail = some .directory) (hself : ¬source <:+ target)
    (helsewhere : ¬target <:+ e.location) :
    ∃ fs, TreeHost.renamed tree.entries source target = some fs ∧ e ∉ fs := by
  have hne : target ≠ [] := fun h => helsewhere (h ▸ List.nil_suffix)
  refine ⟨relocate (erase tree.entries target) source target, if_pos ?_, fun hmem => ?_⟩
  · refine ⟨hroot, hne, ?_, hinto, hself, ?_⟩
    · rw [hparent]
      exact Option.some_ne_none _
    · unfold TreeHost.mayReplace
      rw [htarget]
  · obtain ⟨-, hnot⟩ | h := mem_relocate hne hmem
    · exact hnot hbeneath
    · exact helsewhere h

/-- A Linux host. -/
def linuxTreeHost : TreeHost where
  osInfo := linuxHost
  overwrites := false

section Lost

variable (henforce : session.policyMode = .enforce) (sessionId)
include henforce

/-- **A removal loses what is denied** beneath its path. -/
theorem remove_loses {path : String} (hpermits : engine.Permits (removeContext path .enforce))
    (hfeasible : (TreeRequest.remove path).Feasible session.sftp)
    (htouches : Touches engine (locate path)) :
    ∃ tree depth, Ends (treeHost session linuxTreeHost)
      (removeRecursive engine depth sessionId path) tree.entries
      fun fs _ => Loses engine tree path fs := by
  obtain ⟨tree, e, he, hbeneath, hcovers, hdirectory, -⟩ :=
    exists_tree htouches [] (fun _ h => absurd h List.not_mem_nil) (.inl rfl)
  have hlost : ∀ fs, e ∉ fs → Loses engine tree path fs := fun fs hfs =>
    ⟨e, he, hbeneath.trans (List.suffix_cons _ _), hfs, hcovers⟩
  have hroot := hdirectory _ (.inl hbeneath)
  refine ⟨tree, (within tree.entries (locate path)).length + 1, ?_⟩
  cases hsftp : session.sftp with
  | true =>
    refine remove_ends_of_sftp henforce hpermits hsftp hroot ?_
    refine (rmdirRecursive_empties tree path hroot (Nat.lt_succ_self _)).mono
      fun fs _ hfs => hlost fs fun hmem => ?_
    exact of_decide_eq_true (List.mem_filter.mp (hfs hmem)).2 hbeneath
  | false =>
    obtain ⟨hne, hdots⟩ : locate path ≠ [] ∧ ¬Dotted path := by
      rcases hfeasible with h | h
      · rw [hsftp] at h
        cases h
      · exact h
    refine remove_ends_of_shell henforce hpermits hsftp (hlost _ ?_)
    have hrun : linuxTreeHost.run tree.entries (.remove path) =
        (prune tree.entries (locate path), 0) := if_neg (not_or_intro hne hdots)
    rw [hrun]
    exact fun hmem => (mem_prune.mp hmem).2 (hbeneath.trans (List.suffix_cons _ _))

/-- **A renaming loses what is denied** beneath its source. -/
theorem rename_loses {source target : String}
    (hpermits : engine.Permits (renameContext source target .enforce))
    (hfeasible : (TreeRequest.rename source target).Feasible session.sftp)
    (htouches : Touches engine (locate source)) :
    ∃ tree, Ends (treeHost session linuxTreeHost) (renameFile engine sessionId source target)
      tree.entries fun fs _ => Loses engine tree source fs := by
  obtain ⟨hroot, hdots, hself, hover, hthrough⟩ := hfeasible
  cases hsftp : session.sftp with
  | true =>
    obtain ⟨htdots, habove⟩ := hover hsftp
    -- the target is new in its directory
    have hparent : (locate target).tail <:+ locate target := List.tail_suffix _
    obtain ⟨tree, e, he, hbeneath, hcovers, hdirectory, hnone⟩ :=
      exists_tree htouches (locate target).tail
        (fun name hname => isName_of_mem_locate target name (hparent.subset hname))
        (.inr fun h => hself (h.trans hparent))
    have hinside := hbeneath.trans (List.suffix_cons e.name _)
    have helsewhere : ¬locate target <:+ e.location := fun h =>
      (List.suffix_or_suffix_of_suffix h hinside).elim habove hself
    have hnew : ¬locate target <:+ (locate target).tail := by
      intro h
      have hlength := h.length_le
      rw [List.length_tail] at hlength
      have hpos : 0 < (locate target).length := List.length_pos_iff.mpr fun h =>
        habove (h ▸ List.nil_suffix)
      omega
    obtain ⟨fs, hfs, hlost⟩ := lost_of_renamed hinside (hdirectory _ (.inl hbeneath)) hroot
      (hnone _ helsewhere hnew) (hdirectory _ (.inr (List.suffix_refl _))) hself helsewhere
    refine ⟨tree, rename_ends henforce hpermits ?_⟩
    have hrename : linuxTreeHost.rename tree.entries source target = (fs, .ok ()) := by
      unfold TreeHost.rename
      rw [hnone _ helsewhere hnew, hfs]
      exact if_neg fun h => h.elim hdots fun h => h.elim htdots fun h => h.1 rfl
    rw [if_pos hsftp, hrename]
    exact ⟨e, he, hinside, hlost, hcovers⟩
  | false =>
    have habove := hthrough hsftp
    -- the target is a directory, and the source is new in it
    obtain ⟨tree, e, he, hbeneath, hcovers, hdirectory, hnone⟩ :=
      exists_tree htouches (locate target) (isName_of_mem_locate target) (.inr hself)
    set landing := (locate source).headD "" :: locate target with hlanding
    have hinside := hbeneath.trans (List.suffix_cons e.name _)
    have hself' : ¬locate source <:+ landing := by
      intro h
      rcases List.suffix_cons_iff.mp h with h | h
      · exact habove (h ▸ List.suffix_refl _)
      · exact hself h
    have helsewhere : ¬landing <:+ e.location := fun h =>
      (List.suffix_or_suffix_of_suffix h hinside).elim habove hself'
    have hnew : ¬landing <:+ locate target := fun h => Nat.not_succ_le_self _ h.length_le
    have htarget := hdirectory (locate target) (.inr (List.suffix_refl _))
    obtain ⟨fs, hfs, hlost⟩ := lost_of_renamed hinside (hdirectory _ (.inl hbeneath)) hroot
      (hnone _ helsewhere hnew) htarget hself' helsewhere
    refine ⟨tree, rename_ends henforce hpermits ?_⟩
    have hmv : linuxTreeHost.run tree.entries (.move source target) = (fs, 0) := by
      change TreeHost.mv tree.entries source target = _
      unfold TreeHost.mv TreeHost.landing
      rw [if_neg hdots, if_pos htarget, hfs]
    rw [if_neg (by simp [hsftp]), hmv]
    exact ⟨e, he, hinside, hlost, hcovers⟩

end Lost

/-! ### Exactness -/

/-- **When deny prefixes protect what is under them**: unless the policy lets a request happen that
a host can carry out, and a deny prefix is at its path, above it or beneath it. -/
theorem deny_prefixes_protect_iff (engine : PolicyEngine rt) (session : Session)
    (request : TreeRequest) :
    Protects engine session request ↔
      ¬(engine.Permits (request.context .enforce) ∧ session.policyMode = .enforce ∧
        request.Feasible session.sftp ∧ Touches engine (locate request.path)) := by
  constructor
  · rintro hprotects ⟨hpermits, henforce, hfeasible, htouches⟩
    have hloses : ∃ tree depth, Ends (treeHost session linuxTreeHost)
        (request.task engine depth "") tree.entries
        fun fs _ => Loses engine tree request.path fs := by
      cases request with
      | remove => exact remove_loses "" henforce hpermits hfeasible htouches
      | rename =>
        obtain ⟨tree, h⟩ := rename_loses "" henforce hpermits hfeasible htouches
        exact ⟨tree, 0, h⟩
    obtain ⟨tree, depth, e, he, hbeneath, hlost, hcovers⟩ := hloses
    exact hprotects linuxTreeHost tree depth "" e he hbeneath hlost hcovers
  · intro hcond host tree depth sessionId
    by_cases hserved : engine.Permits (request.context .enforce) ∧ session.policyMode = .enforce
    · by_cases hfeasible : request.Feasible session.sftp
      · intro e _ hbeneath _ hcovers
        obtain ⟨d, hd, hpre⟩ := hcovers
        refine hcond ⟨hserved.1, hserved.2, hfeasible, d, hd, ?_⟩
        exact List.prefix_or_prefix_of_prefix hpre (route_prefix_iff.mpr hbeneath)
      · refine (ends_of_not_feasible tree hfeasible).mono fun fs _ hfs e he _ hlost => ?_
        exact absurd (hfs ▸ he) hlost
    · refine (ends_of_not_permits tree.entries hserved).mono fun fs _ hfs e he _ hlost => ?_
      exact absurd (hfs ▸ he) hlost

/-- The keys in a directory are denied, and go with the directory. -/
theorem removal_takes_denied_files :
    ∃ engine : PolicyEngine sampleRuntime, engine.config = { pathDenyPrefixes := ["/home/keys"] } ∧
      engine.Permits (removeContext "/home" .enforce) ∧
      ∀ sftp, ¬Protects engine ⟨.enforce, sftp⟩ (.remove "/home") := by
  obtain ⟨engine, hengine⟩ := PolicyEngine.exists_engine sampleRuntime
    { pathDenyPrefixes := ["/home/keys"] } (by decide) (by decide) ⟨rfl, rfl⟩
  have hdeny : engine.denyLocations = [["home".toList, "keys".toList]] := by
    rw [PolicyEngine.denyLocations, hengine]
    decide
  have hallow : ["home".toList] ∈ engine.allowLocations := by
    rw [PolicyEngine.allowLocations, hengine]
    decide
  have hpermits : engine.Permits (removeContext "/home" .enforce) := by
    rw [removeContext, engine.permits_paths_iff (by decide)]
    intro p hp
    obtain ⟨rfl, -⟩ : "/home" = p ∧ ¬p = "" := by simpa [truthy] using hp
    refine engine.pathDenial_eq_none_iff.mpr ⟨by decide, ?_, fun _ _ => ⟨_, hallow, by decide⟩⟩
    rw [PolicyEngine.DenyCovers, hdeny]
    decide
  have htouches : Touches engine (locate "/home") := by
    refine ⟨_, hdeny ▸ List.mem_singleton_self _, .inr ?_⟩
    decide
  have hloses : ∀ sftp, ∃ tree depth, Ends (treeHost ⟨.enforce, sftp⟩ linuxTreeHost)
      (removeRecursive engine depth "" "/home") tree.entries
      fun fs _ => Loses engine tree "/home" fs := fun sftp =>
    remove_loses "" rfl hpermits (.inr (by decide)) htouches
  refine ⟨engine, hengine, hpermits, fun sftp hprotects => ?_⟩
  obtain ⟨tree, depth, e, he, hbeneath, hlost, hcovers⟩ :=
    hloses sftp
  exact hprotects linuxTreeHost tree depth "" e he hbeneath hlost hcovers

end Ssh
