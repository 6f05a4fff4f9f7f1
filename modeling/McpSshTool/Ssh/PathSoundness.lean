import McpSshTool.Ssh.Policy

/-!
# Soundness of the path policy

The policy judges a path by where it reads it to lead. The remote host reads the same text from the
working directory of the session, and a backslash as part of a name.

* `PathSound` — the judgement of an engine fits where the host is led;
* `ReadAlike` — the paths for which every engine's does (`policy_paths_sound_iff`).
-/

open Library LexicalPath

namespace Ssh

/-- A working directory on the remote host. -/
structure RemoteDirectory where
  path : String
  isAbsolute_path : isAbsolute path.toList = true
  nul_notMem_path : Char.ofNat 0 ∉ path.toList

/-- The location that the remote host reads, in a working directory. -/
def remoteLocation (cwd : RemoteDirectory) (path : String) : List Segment :=
  resolve (walk [] cwd.path.toList) path.toList

theorem isLocation_remoteLocation (cwd : RemoteDirectory) (path : String) :
    IsLocation (remoteLocation cwd path) :=
  isLocation_resolve (isLocation_walk isLocation_nil _) _

theorem nul_notMem_remoteLocation (cwd : RemoteDirectory) {path : String}
    (h : Char.ofNat 0 ∉ path.toList) : ∀ s ∈ remoteLocation cwd path, Char.ofNat 0 ∉ s := by
  intro s hs
  unfold remoteLocation resolve at hs
  have hnil : ∀ t ∈ ([] : List Segment), Char.ofNat 0 ∉ t := fun t ht => absurd ht List.not_mem_nil
  split at hs
  · exact notMem_of_mem_walk h hnil hs
  · exact notMem_of_mem_walk h (fun t ht => notMem_of_mem_walk cwd.nul_notMem_path hnil ht) hs

/-- The context is about the path. -/
def PolicyContext.Names (context : PolicyContext) (path : String) : Prop :=
  context.path = some path ∨ context.secondaryPath = some path

theorem PolicyContext.Names.mem_paths {context : PolicyContext} {path : String}
    (h : context.Names path) (hne : path ≠ "") : path ∈ context.paths := by
  rw [PolicyContext.paths, List.mem_filterMap]
  rcases h with h | h
  · exact ⟨_, List.mem_cons_self, by rw [h, truthy_some hne]⟩
  · exact ⟨_, List.mem_cons_of_mem _ List.mem_cons_self, by rw [h, truthy_some hne]⟩

/-- **The policy judges a path soundly**: a destructive operation that it allows is led under an
allow prefix, and every operation that is led under a deny prefix is denied. -/
def PathSound {rt : Runtime} (engine : PolicyEngine rt)
    (cwd : RemoteDirectory) (path : String) : Prop :=
  (engine.config.allowDestructiveFs = false →
    ∀ context : PolicyContext, context.Names path → context.action ∉ localTransferActions →
      context.isDestructiveFs = true → engine.Permits context →
        engine.AllowCovers (remoteLocation cwd path)) ∧
  (engine.DenyCovers (remoteLocation cwd path) →
    ∀ context : PolicyContext, context.Names path → context.action ∉ localTransferActions →
      ¬engine.Permits context)

/-- The two readings agree, or the host goes on from where the policy stops through a name with a
backslash in it, which no prefix can single out. -/
def SameReading (cwd : RemoteDirectory) (path : String) : Prop :=
  remoteLocation cwd path = policyLocation path ∨
    ∃ s t, remoteLocation cwd path = policyLocation path ++ s :: t ∧ '\\' ∈ s

/-- **The condition on a path.** It has a NUL byte, which every policy refuses; or it is not empty
and is read alike. -/
def ReadAlike (cwd : RemoteDirectory) (path : String) : Prop :=
  Char.ofNat 0 ∈ path.toList ∨ path ≠ "" ∧ SameReading cwd path

variable {rt : Runtime}

/-! ### Paths that are read alike -/

theorem SameReading.prefix_remoteLocation {cwd : RemoteDirectory} {path : String}
    (h : SameReading cwd path) :
    policyLocation path <+: remoteLocation cwd path := by
  rcases h with h | ⟨s, t, h, -⟩
  · rw [h]
  · rw [h]
    exact List.prefix_append _ _

/-- What leads to the host's location and has no backslash leads to the policy's. -/
theorem SameReading.prefix_policyLocation {cwd : RemoteDirectory} {path : String}
    (h : SameReading cwd path)
    {d : List Segment} (hd : ∀ s ∈ d, '\\' ∉ s) (hpre : d <+: remoteLocation cwd path) :
    d <+: policyLocation path := by
  rcases h with h | ⟨s, t, h, hs⟩
  · rwa [← h]
  · rw [h] at hpre
    rcases List.prefix_or_prefix_of_prefix hpre (List.prefix_append _ _) with hpre' | ⟨u, rfl⟩
    · exact hpre'
    · cases u with
      | nil => rw [List.append_nil]
      | cons r =>
        -- the next name of `d` would be the one with the backslash
        rw [List.prefix_append_right_inj, List.cons_prefix_cons] at hpre
        obtain ⟨rfl, -⟩ := hpre
        exact absurd hs (hd r (by simp))

theorem backslash_notMem_denyLocations (engine : PolicyEngine rt) :
    ∀ d ∈ engine.denyLocations, ∀ s ∈ d, '\\' ∉ s := by
  intro d hd
  obtain ⟨value, -, rfl⟩ := List.mem_map.mp hd
  exact backslash_notMem_policyLocation value

theorem pathSound_of_readAlike {cwd : RemoteDirectory} {path : String} (h : ReadAlike cwd path)
    (engine : PolicyEngine rt) : PathSound engine cwd path := by
  rcases h with hnul | ⟨hne, hsame⟩
  · -- no context with this path is permitted
    have hrefused : ∀ context : PolicyContext, context.Names path →
        context.action ∉ localTransferActions → ¬engine.Permits context := by
      intro context hnames haction hpermits
      have hne : path ≠ "" := fun h => by
        rw [h] at hnul
        exact absurd hnul List.not_mem_nil
      have hpass := hpermits.pathDenial haction (hnames.mem_paths hne)
      exact (engine.pathDenial_eq_none_iff.mp hpass).1 hnul
    exact ⟨fun _ context hnames haction _ hpermits => absurd hpermits
      (hrefused context hnames haction),
      fun _ => hrefused⟩
  · constructor
    · intro hdestructive context hnames haction hisDestructive hpermits
      have hpass := hpermits.pathDenial haction (hnames.mem_paths hne)
      obtain ⟨a, ha, hpre⟩ :=
        (engine.pathDenial_eq_none_iff.mp hpass).2.2 hisDestructive hdestructive
      exact ⟨a, ha, hpre.trans hsame.prefix_remoteLocation⟩
    · rintro ⟨d, hd, hpre⟩ context hnames haction hpermits
      have hpass := hpermits.pathDenial haction (hnames.mem_paths hne)
      have hb := backslash_notMem_denyLocations engine d hd
      exact (engine.pathDenial_eq_none_iff.mp hpass).2.1
        ⟨d, hd, hsame.prefix_policyLocation hb hpre⟩

/-! ### Paths that are not -/

/-- The context of a removal. -/
def removalContext (path : String) : PolicyContext :=
  { action := .fsRemove, path := some path, mode := some .enforce, destructive := true }

/-- The context of a read. -/
def readContext (path : String) : PolicyContext :=
  { action := .fsRead, path := some path, mode := some .enforce }

theorem permits_removalContext_iff (engine : PolicyEngine rt) (path : String) :
    engine.Permits (removalContext path) ↔ path = "" ∨ engine.pathDenial true path = none := by
  rw [removalContext, engine.permits_paths_iff (by decide)]
  by_cases hne : path = ""
  · simp [hne]
  · simp [hne]

theorem permits_readContext_iff (engine : PolicyEngine rt) (path : String) :
    engine.Permits (readContext path) ↔ path = "" ∨ engine.pathDenial false path = none := by
  rw [readContext, engine.permits_paths_iff (by decide)]
  by_cases hne : path = ""
  · simp [hne]
  · simp [hne]

/-- An engine with one allow prefix and the given deny prefixes, all texts of locations. -/
theorem exists_engine_at (rt : Runtime) (allow : List Segment) (deny : List (List Segment))
    (hloc : ∀ loc ∈ allow :: deny, IsLocation loc)
    (hb : ∀ loc ∈ allow :: deny, ∀ s ∈ loc, '\\' ∉ s)
    (hnul : ∀ loc ∈ allow :: deny, ∀ s ∈ loc, Char.ofNat 0 ∉ s) :
    ∃ engine : PolicyEngine rt, engine.config.allowDestructiveFs = false ∧
      engine.allowLocations = [allow] ∧ engine.denyLocations = deny := by
  have hread : ∀ loc ∈ allow :: deny, policyLocation (locationText loc) = loc := fun loc h =>
    policyLocation_locationText (hloc loc h) (hb loc h)
  obtain ⟨engine, hengine⟩ := PolicyEngine.exists_engine rt
    { pathAllowPrefixes := [locationText allow], pathDenyPrefixes := deny.map locationText }
    (by
      intro p hp
      rw [List.mem_singleton.mp hp]
      exact nul_notMem_locationText (hnul allow List.mem_cons_self))
    (by
      intro p hp
      obtain ⟨loc, hmem, rfl⟩ := List.mem_map.mp hp
      exact nul_notMem_locationText (hnul loc (List.mem_cons_of_mem _ hmem)))
    ⟨rfl, rfl⟩
  refine ⟨engine, by rw [hengine], ?_, ?_⟩
  · rw [PolicyEngine.allowLocations, hengine, if_neg (List.cons_ne_nil _ _), List.map_singleton,
      hread allow List.mem_cons_self]
  · rw [PolicyEngine.denyLocations, hengine, List.map_map]
    conv_rhs => rw [← List.map_id deny]
    exact List.map_congr_left fun loc h => hread loc (List.mem_cons_of_mem _ h)

/-- No engine checks the empty path, wherever it leads. -/
theorem not_pathSound_empty (rt : Runtime) (cwd : RemoteDirectory) :
    ∃ engine : PolicyEngine rt, ¬PathSound engine cwd "" := by
  set R := remoteLocation cwd "" with hR
  obtain ⟨engine, hdestructive, hallow, -⟩ := exists_engine_at rt
    (List.replicate (R.length + 1) ['x']) []
    (by
      intro loc hloc s hs
      rw [List.mem_singleton.mp hloc] at hs
      rw [List.eq_of_mem_replicate hs]
      exact ⟨by decide, by decide, by decide, by decide⟩)
    (by
      intro loc hloc s hs
      rw [List.mem_singleton.mp hloc] at hs
      rw [List.eq_of_mem_replicate hs]
      decide)
    (by
      intro loc hloc s hs
      rw [List.mem_singleton.mp hloc] at hs
      rw [List.eq_of_mem_replicate hs]
      decide)
  refine ⟨engine, fun hsound => ?_⟩
  obtain ⟨a, ha, hpre⟩ := hsound.1 hdestructive (removalContext "") (.inl rfl) (by decide) rfl
    ((permits_removalContext_iff engine "").mpr (.inl rfl))
  rw [hallow] at ha
  rw [List.mem_singleton.mp ha] at hpre
  have hlength := hpre.length_le
  rw [List.length_replicate, ← hR] at hlength
  omega

/-- Where every engine is sound, the path is read alike. -/
theorem readAlike_of_pathSound {cwd : RemoteDirectory} {path : String}
    (hsound : ∀ engine : PolicyEngine rt, PathSound engine cwd path) : ReadAlike cwd path := by
  by_cases hnul : Char.ofNat 0 ∈ path.toList
  · exact .inl hnul
  by_cases hempty : path = ""
  · obtain ⟨engine, hnot⟩ := not_pathSound_empty rt cwd
    rw [hempty] at hsound
    exact absurd (hsound engine) hnot
  refine .inr ⟨hempty, ?_⟩
  have hloc := isLocation_policyLocation path
  have hb := backslash_notMem_policyLocation path
  have hN := nul_notMem_policyLocation hnul
  -- allow the place that the policy sees: the place that the host sees is under it
  have hpre : policyLocation path <+: remoteLocation cwd path := by
    obtain ⟨engine, hdestructive, hallow, hdeny⟩ :=
      exists_engine_at rt (policyLocation path) []
        (by simpa using hloc) (by simpa using hb) (by simpa using hN)
    have hpermits : engine.Permits (removalContext path) := by
      refine (permits_removalContext_iff engine path).mpr (.inr ?_)
      refine engine.pathDenial_eq_none_iff.mpr ⟨hnul, ?_, fun _ _ => ?_⟩
      · rw [PolicyEngine.DenyCovers, hdeny]
        simp
      · rw [PolicyEngine.AllowCovers, hallow]
        exact ⟨_, List.mem_singleton_self _, List.prefix_rfl⟩
    obtain ⟨a, ha, hpre⟩ := (hsound engine).1 hdestructive _ (.inl rfl)
      (show PolicyAction.fsRemove ∉ localTransferActions by decide) rfl hpermits
    rw [hallow] at ha
    rwa [List.mem_singleton.mp ha] at hpre
  obtain ⟨u, hu⟩ := hpre
  cases u with
  | nil => exact .inl (by rw [← hu, List.append_nil])
  | cons s t =>
    refine .inr ⟨s, t, hu.symm, ?_⟩
    by_contra hs
    -- a name without a backslash can be denied, and the policy does not see the path go there
    set D : List Segment := policyLocation path ++ [s] with hD
    have hDpre : D <+: remoteLocation cwd path := by
      rw [← hu, hD, List.prefix_append_right_inj]
      exact List.cons_prefix_cons.mpr ⟨rfl, List.nil_prefix⟩
    have hDloc : IsLocation D := (isLocation_remoteLocation cwd path).of_isPrefix hDpre
    have hDb : ∀ r ∈ D, '\\' ∉ r := by
      intro r hr
      rcases List.mem_append.mp hr with hr | hr
      · exact hb r hr
      · rwa [List.mem_singleton.mp hr]
    have hDnul : ∀ r ∈ D, Char.ofNat 0 ∉ r := fun r hr =>
      nul_notMem_remoteLocation cwd hnul r (hDpre.subset hr)
    obtain ⟨engine, -, -, hdeny⟩ :=
      exists_engine_at rt (policyLocation path) [D]
        (by simpa using ⟨hloc, hDloc⟩) (by simpa using ⟨hb, hDb⟩) (by simpa using ⟨hN, hDnul⟩)
    have hcovers : engine.DenyCovers (remoteLocation cwd path) := by
      rw [PolicyEngine.DenyCovers, hdeny]
      exact ⟨D, List.mem_singleton_self D, hDpre⟩
    refine (hsound engine).2 hcovers (readContext path) (.inl rfl)
      (show PolicyAction.fsRead ∉ localTransferActions by decide) ?_
    refine (permits_readContext_iff engine path).mpr (.inr ?_)
    refine engine.pathDenial_eq_none_iff.mpr ⟨hnul, ?_, fun h => absurd h Bool.false_ne_true⟩
    rw [PolicyEngine.DenyCovers, hdeny]
    rintro ⟨d, hd, hpre⟩
    rw [List.mem_singleton.mp hd] at hpre
    have hlength := hpre.length_le
    rw [hD, List.length_append, List.length_singleton] at hlength
    omega

/-! ### Exactness -/

/-- **When the path policy is sound.** Every engine judges a path soundly exactly when the policy
and the host read it alike. -/
theorem policy_paths_sound_iff (rt : Runtime) (cwd : RemoteDirectory) (path : String) :
    (∀ engine : PolicyEngine rt, PathSound engine cwd path) ↔ ReadAlike cwd path :=
  ⟨readAlike_of_pathSound, pathSound_of_readAlike⟩

/-- In the working directory `/etc`, a relative path reads what is denied. -/
theorem policy_permits_relative_path :
    ∃ engine : PolicyEngine sampleRuntime, engine.config = { pathDenyPrefixes := ["/etc"] } ∧
      engine.Permits (readContext "passwd") ∧
      ¬PathSound engine ⟨"/etc", by decide, by decide⟩ "passwd" := by
  obtain ⟨engine, hengine⟩ := PolicyEngine.exists_engine sampleRuntime
    { pathDenyPrefixes := ["/etc"] } (by decide) (by decide) ⟨rfl, rfl⟩
  have hdeny : engine.denyLocations = [["etc".toList]] := by
    rw [PolicyEngine.denyLocations, hengine]
    decide
  have hpermits : engine.Permits (readContext "passwd") := by
    refine (permits_readContext_iff engine _).mpr (.inr (engine.pathDenial_eq_none_iff.mpr ?_))
    refine ⟨by decide, ?_, fun h => absurd h Bool.false_ne_true⟩
    rw [PolicyEngine.DenyCovers, hdeny]
    decide
  refine ⟨engine, hengine, hpermits, fun hsound => ?_⟩
  refine hsound.2 ?_ (readContext "passwd") (.inl rfl)
    (show PolicyAction.fsRead ∉ localTransferActions by decide) hpermits
  rw [PolicyEngine.DenyCovers, hdeny]
  decide

end Ssh
