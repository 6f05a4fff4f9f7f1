import McpSshTool.Remote.Policy

/-!
# What a path policy confines

`isPathAllowed` decides on a rewritten path, with every backslash turned into a separator. The file
operation gets the path as it was given, and a POSIX system takes a backslash for an ordinary
character. This file compares the two readings.

* `osLocation` — where the operating system finds the path;
* `policyLocation` — where the policy believes it to be;
* `PathSound` — an accepted path lies, as the operating system reads it, under an allow entry and
  under no deny entry.

On entries that read the same both ways, a path is judged soundly by every policy exactly when it is
`ReadAlike`; and only such entries are sound in both lists (`pathSound_iff_readAlike`).
-/

open Library LexicalPath

namespace Remote

/-! ### The two readings -/

/-- The location of a path for the agent's process, as the operating system resolves it. -/
def osLocation (cwd path : String) : List Segment := resolve (walk [] cwd.toList) path.toList

/-- The location the policy decides on: the rewritten path, taken from the root. -/
def policyLocation (path : String) : List Segment := walk [] (slashed path.toList)

/-- Lies at or under; nothing but the root lies under an entry for the root. -/
def Under (entry loc : List Segment) : Prop := if entry = [] then loc = [] else entry <+: loc

instance (entry loc : List Segment) : Decidable (Under entry loc) := by
  unfold Under
  exact inferInstance

/-- An entry of a path list covers a location, as the operating system reads the entry. -/
def Covers (entry : String) (loc : List Segment) : Prop := Under (walk [] entry.toList) loc

/-- **The confinement property.** A path that the policy accepts lies under an allow entry and under
no deny entry, all of them read as the operating system reads them. -/
def PathSound (policy : AgentPolicy) (cwd path : String) : Prop :=
  isPathAllowed policy path = true →
    (∃ entry ∈ policy.allowPaths, Covers entry (osLocation cwd path)) ∧
      ∀ entry ∈ policy.denyPaths, ¬ Covers entry (osLocation cwd path)

/-- An absolute path. -/
def IsAbsoluteEntry (entry : String) : Prop := isAbsolute entry.toList = true

/-- An absolute entry whose location does not change when backslashes are read as separators, as is
the case for every absolute entry without a backslash. -/
structure PlainEntry (entry : String) : Prop where
  absolute : IsAbsoluteEntry entry
  same : policyLocation entry = walk [] entry.toList

/-- A policy with plain entries only. -/
def PlainPolicy (policy : AgentPolicy) : Prop :=
  ∀ entry ∈ policy.allowPaths ++ policy.denyPaths, PlainEntry entry

/-- **The condition on a path.** The rewritten path is relative, so that every policy refuses it; or
the two readings agree; or the operating system goes on from where the policy stops, through a name
with a backslash in it, which no plain entry can single out. -/
def ReadAlike (cwd path : String) : Prop :=
  isAbsolute (slashed path.toList) = true →
    osLocation cwd path = policyLocation path ∨
      policyLocation path ≠ [] ∧
        ∃ s t, osLocation cwd path = policyLocation path ++ s :: t ∧ '\\' ∈ s

/-! ### Locations without backslashes -/

/-- No name has a backslash in it. -/
def NoBackslash (loc : List Segment) : Prop := ∀ s ∈ loc, '\\' ∉ s

theorem noBackslash_foldl_push {ss : List Segment} (hss : NoBackslash ss) {dir : List Segment}
    (hdir : NoBackslash dir) : NoBackslash (ss.foldl push dir) :=
  fun _ hs => notMem_of_mem_foldl_push hss hdir hs

theorem noBackslash_segments {p : List Char} (h : '\\' ∉ p) : NoBackslash (segments p) :=
  fun _ hs => notMem_of_mem_segments h hs

theorem backslash_notMem_slashed (p : List Char) : '\\' ∉ slashed p := by
  intro h
  obtain ⟨c, -, hc⟩ := List.mem_map.mp h
  split at hc
  · exact absurd hc (by decide)
  · next hne => exact hne hc

theorem slashed_of_notMem {p : List Char} (h : '\\' ∉ p) : slashed p = p := by
  unfold slashed
  conv_rhs => rw [← List.map_id p]
  refine List.map_congr_left fun c hc => ?_
  have hne : c ≠ '\\' := fun he => h (he ▸ hc)
  rw [if_neg hne, id]

theorem noBackslash_policyLocation (path : String) : NoBackslash (policyLocation path) :=
  noBackslash_foldl_push (noBackslash_segments (backslash_notMem_slashed _))
    (fun _ h => absurd h List.not_mem_nil)

theorem isLocation_policyLocation (path : String) : IsLocation (policyLocation path) :=
  isLocation_walk isLocation_nil _

theorem isLocation_osLocation (cwd path : String) : IsLocation (osLocation cwd path) :=
  isLocation_resolve (isLocation_walk isLocation_nil _) _

/-! ### The decision, on locations -/

theorem isAbsolute_slashed {p : List Char} (h : isAbsolute p = true) :
    isAbsolute (slashed p) = true := by
  cases p with
  | nil => exact h
  | cons c =>
    have hc : c = '/' := by simpa [isAbsolute] using h
    subst hc
    rfl

/-- **An entry matches** a path exactly when the location the policy reads lies under the location
it reads for the entry. -/
theorem matchesPrefix_iff {entry : String} (hentry : IsAbsoluteEntry entry) {path : String}
    (hpath : isAbsolute (slashed path.toList) = true) :
    matchesPrefix (normalizePolicyPath path.toList) entry = true ↔
      Under (policyLocation entry) (policyLocation path) := by
  have he := isLocation_policyLocation entry
  have hp := isLocation_policyLocation path
  unfold matchesPrefix Under
  rw [normalizePolicyPath_of_isAbsolute hpath,
    normalizePolicyPath_of_isAbsolute (isAbsolute_slashed hentry)]
  rw [show walk [] (slashed path.toList) = policyLocation path from rfl,
    show walk [] (slashed entry.toList) = policyLocation entry from rfl]
  by_cases hroot : policyLocation entry = []
  · rw [if_pos ((text_eq_root_iff he).mpr hroot), if_pos hroot, decide_eq_true_eq]
    exact text_eq_root_iff hp
  · rw [if_neg (mt (text_eq_root_iff he).mp hroot), if_neg hroot, Bool.or_eq_true,
      decide_eq_true_eq, List.isPrefixOf_iff_prefix]
    exact text_prefix_iff he hp hroot

/-- A path that is relative after rewriting matches no absolute entry. -/
theorem matchesPrefix_of_relative {entry : String} (hentry : IsAbsoluteEntry entry) {path : String}
    (hpath : isAbsolute (slashed path.toList) = false) :
    matchesPrefix (normalizePolicyPath path.toList) entry = false := by
  have hrel := isAbsolute_normalizePolicyPath_of_relative hpath
  have hentryText := normalizePolicyPath_of_isAbsolute (isAbsolute_slashed hentry)
  have habs : isAbsolute (normalizePolicyPath entry.toList) = true := by
    rw [hentryText]
    exact isAbsolute_text _
  unfold matchesPrefix
  generalize normalizePolicyPath path.toList = n at *
  generalize normalizePolicyPath entry.toList = e at *
  have hne : n ≠ e := by
    rintro rfl
    rw [hrel] at habs
    exact absurd habs (by simp)
  have hprefix : ¬ (e ++ ['/']) <+: n := by
    rintro ⟨r, rfl⟩
    cases e with
    | nil => exact absurd habs (by simp [isAbsolute])
    | cons =>
      rw [isAbsolute] at hrel habs
      rw [List.cons_append, List.cons_append, List.head?_cons] at hrel
      rw [List.head?_cons] at habs
      rw [habs] at hrel
      exact absurd hrel (by simp)
  simp only
  split
  · next hroot =>
    rw [decide_eq_false_iff_not]
    exact fun h => hne (h.trans hroot.symm)
  · rw [Bool.or_eq_false_iff, decide_eq_false_iff_not, ← Bool.not_eq_true,
      List.isPrefixOf_iff_prefix]
    exact ⟨hne, hprefix⟩

/-- The entries of a policy are absolute. -/
def AbsolutePolicy (policy : AgentPolicy) : Prop :=
  ∀ entry ∈ policy.allowPaths ++ policy.denyPaths, IsAbsoluteEntry entry

section Decision

variable {policy : AgentPolicy} {path : String}

theorem isPathAllowed_of_relative (hpolicy : AbsolutePolicy policy)
    (hpath : isAbsolute (slashed path.toList) = false) : isPathAllowed policy path = false := by
  unfold isPathAllowed
  simp only
  split
  · rfl
  · rw [List.any_eq_false]
    intro entry hentry
    have habs := hpolicy entry (List.mem_append_left _ hentry)
    rw [matchesPrefix_of_relative habs hpath]
    exact Bool.false_ne_true

/-- **The decision on an absolute path**, as a statement about the locations the policy reads. -/
theorem isPathAllowed_iff (hpolicy : AbsolutePolicy policy)
    (hpath : isAbsolute (slashed path.toList) = true) :
    isPathAllowed policy path = true ↔
      (∃ entry ∈ policy.allowPaths, Under (policyLocation entry) (policyLocation path)) ∧
        ∀ entry ∈ policy.denyPaths, ¬ Under (policyLocation entry) (policyLocation path) := by
  have hallow : policy.allowPaths.any (matchesPrefix (normalizePolicyPath path.toList)) = true ↔
      ∃ entry ∈ policy.allowPaths, Under (policyLocation entry) (policyLocation path) := by
    rw [List.any_eq_true]
    refine exists_congr fun entry => and_congr_right fun hentry => ?_
    exact matchesPrefix_iff (hpolicy entry (List.mem_append_left _ hentry)) hpath
  have hdeny : policy.denyPaths.any (matchesPrefix (normalizePolicyPath path.toList)) = true ↔
      ∃ entry ∈ policy.denyPaths, Under (policyLocation entry) (policyLocation path) := by
    rw [List.any_eq_true]
    refine exists_congr fun entry => and_congr_right fun hentry => ?_
    exact matchesPrefix_iff (hpolicy entry (List.mem_append_right _ hentry)) hpath
  unfold isPathAllowed
  simp only
  rw [← hallow]
  by_cases hd : policy.denyPaths.any (matchesPrefix (normalizePolicyPath path.toList)) = true
  · obtain ⟨entry, hentry, hunder⟩ := hdeny.mp hd
    rw [if_pos hd]
    exact ⟨fun h => absurd h Bool.false_ne_true, fun h => absurd hunder (h.2 entry hentry)⟩
  · rw [if_neg hd]
    refine ⟨fun h => ⟨h, fun entry hentry hunder => hd (hdeny.mpr ⟨entry, hentry, hunder⟩)⟩, ?_⟩
    exact fun h => h.1

end Decision

theorem PlainPolicy.absolute {policy : AgentPolicy} (h : PlainPolicy policy) :
    AbsolutePolicy policy :=
  fun entry hentry => (h entry hentry).absolute

theorem PlainEntry.covers_iff {entry : String} (h : PlainEntry entry) (loc : List Segment) :
    Covers entry loc ↔ Under (policyLocation entry) loc := by
  rw [Covers, h.same]

/-- The text of a location without backslashes is a plain entry for it. -/
theorem plainEntry_text {loc : List Segment} (hloc : IsLocation loc) (hb : NoBackslash loc) :
    PlainEntry (String.ofList (text loc)) ∧ policyLocation (String.ofList (text loc)) = loc := by
  have hmem : '\\' ∉ text loc := by
    unfold text
    split
    · decide
    · intro h
      obtain ⟨s, hs, hm⟩ := List.mem_flatMap.mp h
      rcases List.mem_cons.mp hm with hm | hm
      · exact absurd hm (by decide)
      · exact hb s hs hm
  have hwalk : walk [] (text loc) = loc := by
    have := resolve_text hloc []
    rwa [resolve, if_pos (isAbsolute_text loc)] at this
  refine ⟨⟨?_, ?_⟩, ?_⟩
  · rw [IsAbsoluteEntry, String.toList_ofList]
    exact isAbsolute_text loc
  · rw [policyLocation, String.toList_ofList, slashed_of_notMem hmem]
  · rw [policyLocation, String.toList_ofList, slashed_of_notMem hmem, hwalk]

theorem osLocation_of_absolute {entry : String} (h : IsAbsoluteEntry entry) (cwd : String) :
    osLocation cwd entry = walk [] entry.toList :=
  if_pos h

/-! ### Soundness -/

/-- **Soundness on plain entries.** A policy with plain entries judges a path soundly where the two
readings of the path are alike. -/
theorem pathSound_of_readAlike {policy : AgentPolicy} (hpolicy : PlainPolicy policy)
    {cwd path : String} (h : ReadAlike cwd path) : PathSound policy cwd path := by
  intro hallowed
  by_cases habs : isAbsolute (slashed path.toList) = true
  swap
  · rw [isPathAllowed_of_relative hpolicy.absolute (by simpa using habs)] at hallowed
    exact absurd hallowed Bool.false_ne_true
  obtain ⟨⟨entry, hentry, hunder⟩, hdeny⟩ := (isPathAllowed_iff hpolicy.absolute habs).mp hallowed
  rcases h habs with heq | ⟨hne, s, t, heq, hs⟩
  · -- both sides look at the same location
    rw [heq]
    refine ⟨⟨entry, hentry, ?_⟩, fun d hd => ?_⟩
    · exact ((hpolicy entry (List.mem_append_left _ hentry)).covers_iff _).mpr hunder
    · rw [(hpolicy d (List.mem_append_right _ hd)).covers_iff]
      exact hdeny d hd
  · rw [heq]
    refine ⟨⟨entry, hentry, ?_⟩, fun d hd => ?_⟩
    · rw [(hpolicy entry (List.mem_append_left _ hentry)).covers_iff]
      unfold Under at hunder ⊢
      split at hunder
      · exact absurd hunder hne
      · next hroot =>
        rw [if_neg hroot]
        exact hunder.trans (List.prefix_append _ _)
    · -- a plain entry above the longer location ends before the name with the backslash
      rw [(hpolicy d (List.mem_append_right _ hd)).covers_iff]
      intro hcov
      refine hdeny d hd ?_
      unfold Under at hcov ⊢
      split at hcov
      · exact absurd hcov (by simp)
      · next hroot =>
        rw [if_neg hroot]
        rcases List.prefix_or_prefix_of_prefix hcov (List.prefix_append _ _) with hpre | ⟨u, hu⟩
        · exact hpre
        · rw [← hu, List.prefix_append_right_inj] at hcov
          cases u with
          | nil =>
            rw [← hu, List.append_nil]
          | cons s' =>
            obtain ⟨rfl, -⟩ := List.cons_prefix_cons.mp hcov
            have hmem : s' ∈ policyLocation d := by
              rw [← hu]
              exact List.mem_append_right _ List.mem_cons_self
            exact absurd hs (noBackslash_policyLocation d s' hmem)

/-! ### Exactness -/

theorem under_refl (loc : List Segment) : Under loc loc := by
  unfold Under
  split
  · assumption
  · exact List.prefix_rfl

theorem Under.antisymm {d e : List Segment} (h : Under d e) (h' : Under e d) : d = e := by
  unfold Under at h h'
  split at h
  · next hd => rw [hd, h]
  · split at h'
    · next he => rw [he, h']
    · exact h.eq_of_length_le h'.length_le

/-- The policy that allows one place and denies another. -/
def allowDeny (allowPaths denyPaths : List String) : AgentPolicy :=
  { profilePolicy .custom with allowPaths := allowPaths, denyPaths := denyPaths }

/-- **What plain policies can tell apart.** A path is judged soundly by every policy with plain
entries exactly when its two readings are alike. -/
theorem pathSound_iff_readAlike (cwd path : String) :
    (∀ policy, PlainPolicy policy → PathSound policy cwd path) ↔ ReadAlike cwd path := by
  refine ⟨fun hsound habs => ?_, fun h policy hpolicy => pathSound_of_readAlike hpolicy h⟩
  have hloc := isLocation_policyLocation path
  have hosLoc := isLocation_osLocation cwd path
  obtain ⟨hplain, htext⟩ := plainEntry_text hloc (noBackslash_policyLocation path)
  -- allow the place the policy sees: the place the system sees is under it
  have hunder : Under (policyLocation path) (osLocation cwd path) := by
    have hpolicy : PlainPolicy (allowDeny [String.ofList (text (policyLocation path))] []) := by
      intro e he
      rw [List.mem_singleton.mp he]
      exact hplain
    have hallowed := (isPathAllowed_iff hpolicy.absolute habs).mpr
      ⟨⟨_, List.mem_singleton_self _, by rw [htext]; exact under_refl _⟩,
        fun e he => absurd he List.not_mem_nil⟩
    obtain ⟨⟨e, he, hcov⟩, -⟩ := hsound _ hpolicy hallowed
    rw [List.mem_singleton.mp he, hplain.covers_iff, htext] at hcov
    exact hcov
  unfold Under at hunder
  split at hunder
  · next hroot => exact .inl (hunder.trans hroot.symm)
  · next hne =>
    obtain ⟨u, hu⟩ := hunder
    cases u with
    | nil => exact .inl (by rw [← hu, List.append_nil])
    | cons s t =>
      refine .inr ⟨hne, s, t, hu.symm, ?_⟩
      by_contra hs
      -- a name without a backslash can be denied, and the policy does not see the path go there
      set D : List Segment := policyLocation path ++ [s] with hD
      have hDpre : D <+: osLocation cwd path := by
        rw [← hu, hD]
        exact (List.prefix_append_right_inj _).mpr (List.cons_prefix_cons.mpr ⟨rfl,
          List.nil_prefix⟩)
      have hDne : D ≠ [] := by simp [hD]
      have hDb : NoBackslash D := by
        intro r hr
        rcases List.mem_append.mp hr with hr | hr
        · exact noBackslash_policyLocation path r hr
        · rw [List.mem_singleton.mp hr]
          exact hs
      obtain ⟨hplainD, htextD⟩ := plainEntry_text (hosLoc.of_isPrefix hDpre) hDb
      have hpolicy : PlainPolicy (allowDeny [String.ofList (text (policyLocation path))]
          [String.ofList (text D)]) := by
        intro e he
        rcases List.mem_append.mp he with he | he
        · rw [List.mem_singleton.mp he]
          exact hplain
        · rw [List.mem_singleton.mp he]
          exact hplainD
      have hnot : ¬ Under D (policyLocation path) := by
        rw [Under, if_neg hDne]
        intro h
        have := h.length_le
        rw [hD, List.length_append, List.length_singleton] at this
        omega
      have hallowed := (isPathAllowed_iff hpolicy.absolute habs).mpr
        ⟨⟨_, List.mem_singleton_self _, by rw [htext]; exact under_refl _⟩, by
          intro e he
          rw [List.mem_singleton.mp he, htextD]
          exact hnot⟩
      have hdeny := (hsound _ hpolicy hallowed).2 _ (List.mem_singleton_self _)
      rw [hplainD.covers_iff, htextD, Under, if_neg hDne] at hdeny
      exact hdeny hDpre

/-- The policies whose entries, one excepted, are plain. -/
def PlainBut (entry : String) (policy : AgentPolicy) : Prop :=
  ∀ e ∈ policy.allowPaths ++ policy.denyPaths, e = entry ∨ PlainEntry e

/-- **Which entries are sound.** An absolute entry may stand in both lists, next to plain entries
and for every path that reads the same both ways, exactly when it is plain. -/
theorem pathSound_iff_plainEntry {entry : String} (hentry : IsAbsoluteEntry entry) :
    (∀ policy, PlainBut entry policy → ∀ cwd path, osLocation cwd path = policyLocation path →
      PathSound policy cwd path) ↔ PlainEntry entry := by
  constructor
  · intro hsound
    refine ⟨hentry, ?_⟩
    set W := policyLocation entry with hW
    set P := walk [] entry.toList with hP
    have hWloc : IsLocation W := isLocation_policyLocation entry
    -- in the allow list the entry lets the place the policy sees through
    obtain ⟨hplainW, htextW⟩ := plainEntry_text hWloc (noBackslash_policyLocation entry)
    have hPW : Under P W := by
      have hpolicy : PlainBut entry (allowDeny [entry] []) :=
        fun e he => .inl (List.mem_singleton.mp he)
      have habsolute : AbsolutePolicy (allowDeny [entry] []) := by
        intro e he
        rw [List.mem_singleton.mp he]
        exact hentry
      have hos : osLocation "/" (String.ofList (text W)) = W := by
        rw [osLocation_of_absolute hplainW.absolute, ← hplainW.same, htextW]
      have hallowed := (isPathAllowed_iff habsolute (isAbsolute_slashed hplainW.absolute)).mpr
        ⟨⟨entry, List.mem_singleton_self _, by rw [htextW]; exact under_refl W⟩,
          fun e he => absurd he List.not_mem_nil⟩
      obtain ⟨⟨e, he, hcov⟩, -⟩ := hsound _ hpolicy "/" _ (hos.trans htextW.symm) hallowed
      rw [List.mem_singleton.mp he, hos] at hcov
      exact hcov
    -- in the deny list it must stop the place the system sees
    have hPloc : IsLocation P := isLocation_walk isLocation_nil _
    have hPb : NoBackslash P := by
      unfold Under at hPW
      split at hPW
      · next h => rw [h]; exact fun _ hm => absurd hm List.not_mem_nil
      · exact fun s hs => noBackslash_policyLocation entry s (hPW.subset hs)
    obtain ⟨hplainP, htextP⟩ := plainEntry_text hPloc hPb
    have hWP : Under W P := by
      by_contra hnot
      have hpolicy : PlainBut entry (allowDeny [String.ofList (text P)] [entry]) := by
        intro e he
        rcases List.mem_append.mp he with he | he
        · exact .inr (by rw [List.mem_singleton.mp he]; exact hplainP)
        · exact .inl (List.mem_singleton.mp he)
      have habsolute : AbsolutePolicy (allowDeny [String.ofList (text P)] [entry]) := by
        intro e he
        rcases hpolicy e he with rfl | h
        · exact hentry
        · exact h.absolute
      have hos : osLocation "/" (String.ofList (text P)) = P := by
        rw [osLocation_of_absolute hplainP.absolute, ← hplainP.same, htextP]
      have hallowed := (isPathAllowed_iff habsolute (isAbsolute_slashed hplainP.absolute)).mpr
        ⟨⟨_, List.mem_singleton_self _, under_refl _⟩, by
          intro e he
          rw [List.mem_singleton.mp he, htextP]
          exact hnot⟩
      have hdeny := (hsound _ hpolicy "/" _ (hos.trans htextP.symm) hallowed).2 entry
        (List.mem_singleton_self _)
      rw [hos] at hdeny
      exact hdeny (under_refl P)
    exact hWP.antisymm hPW
  · intro hplain policy hpolicy cwd path heq
    refine pathSound_of_readAlike (fun e he => ?_) fun _ => .inl heq
    rcases hpolicy e he with rfl | h
    · exact hplain
    · exact h

/-- **When path policies confine.** Soundness holds of a path under all plain policies exactly when
the path is read alike, and entries that are not plain are not sound. -/
theorem isPathAllowed_sound_iff (cwd path entry : String) :
    ((∀ policy, PlainPolicy policy → PathSound policy cwd path) ↔ ReadAlike cwd path) ∧
    (IsAbsoluteEntry entry →
      ((∀ policy, PlainBut entry policy → ∀ cwd path, osLocation cwd path = policyLocation path →
        PathSound policy cwd path) ↔ PlainEntry entry)) :=
  ⟨pathSound_iff_readAlike cwd path, pathSound_iff_plainEntry⟩

/-- The criterion for an entry that the default policies have. -/
theorem isPathAllowed_sound_at_tmp :
    (∀ policy, PlainBut "/tmp" policy → ∀ cwd path, osLocation cwd path = policyLocation path →
      PathSound policy cwd path) ↔ PlainEntry "/tmp" := by
  refine (isPathAllowed_sound_iff "/" "/tmp" "/tmp").2 ?_
  unfold IsAbsoluteEntry
  decide

/-- Under the default policy of a profile, a path with backslashes writes to `/etc`. -/
theorem isPathAllowed_backslash_escapes :
    AbsolutePolicy (profilePolicy .operations) ∧
      isPathAllowed (profilePolicy .operations) "/etc/x\\..\\..\\tmp\\b" = true ∧
      ¬ PathSound (profilePolicy .operations) "/" "/etc/x\\..\\..\\tmp\\b" := by
  refine ⟨?_, by decide, ?_⟩
  · unfold AbsolutePolicy IsAbsoluteEntry
    decide
  · intro h
    have hdeny := (h (by decide)).2 "/etc" (by decide)
    unfold Covers at hdeny
    exact hdeny (by decide)

end Remote
