import McpSshTool.Library.LexicalPath

/-!
# Paths of the path policy

The path functions of `policy.ts`, for a server on a POSIX system.

* `normalizeRemotePosixPath` — the text the policy compares; it is the text of a location
  (`normalizeRemotePosixPath_eq`);
* `isPathUnder` — which on the texts of locations is "at or under" (`isPathUnder_text_iff`);
* `policyLocation` — the segments of a path, without its detours;
* `IsNormalized`, `pathSegments` — a normal form and its segments; `normalized_paths`.
-/

open Library LexicalPath

namespace Ssh

/-- `value.replace(/\\/g, "/")`. -/
def unixSeparators (value : List Char) : List Char := value.map fun c => if c = '\\' then '/' else c

/-- The loop of `stripTrailingSeparators`, on the reversed text. -/
def stripLeading (separator : Char) (rootLength : ℕ) : List Char → List Char
  | [] => []
  | c :: cs =>
    if rootLength < (c :: cs).length ∧ c = separator then stripLeading separator rootLength cs
    else c :: cs

def stripTrailingSeparators (value : List Char) (separator : Char) (root : List Char) : List Char :=
  (stripLeading separator root.length value.reverse).reverse

/-- `normalizeRemotePosixPath`; `none` where it throws. -/
def normalizeRemotePosixPath (pathValue : String) : Option String :=
  if Char.ofNat 0 ∈ pathValue.toList then none
  else
    let unix := unixSeparators pathValue.toList
    let absolute := if isAbsolute unix then unix else '/' :: unix
    some (String.ofList (stripTrailingSeparators (normalize absolute) '/' ['/']))

def isSegmentBoundaryPathMatch (candidate pathPrefix separator : String) : Bool :=
  candidate = pathPrefix || (pathPrefix.toList ++ separator.toList).isPrefixOf candidate.toList

/-- `path.parse(value).root`. -/
def pathRoot (value : String) : String := if isAbsolute value.toList then "/" else ""

def isPathUnder (pathValue pathPrefix separator : String) : Bool :=
  if pathPrefix = "/" ∨ pathPrefix = pathRoot pathPrefix then true
  else isSegmentBoundaryPathMatch pathValue pathPrefix separator

/-! ### Locations -/

/-- The text of a location. -/
def locationText (loc : List Segment) : String := String.ofList (text loc)

/-- **The location that the policy reads**: a backslash separates like a slash, and a relative path
starts at the root. -/
def policyLocation (pathValue : String) : List Segment := walk [] (unixSeparators pathValue.toList)

theorem isLocation_policyLocation (pathValue : String) : IsLocation (policyLocation pathValue) :=
  isLocation_walk isLocation_nil _

theorem backslash_notMem_unixSeparators (value : List Char) : '\\' ∉ unixSeparators value := by
  intro h
  obtain ⟨c, -, hc⟩ := List.mem_map.mp h
  split at hc
  · exact absurd hc (by decide)
  · next hne => exact hne hc

theorem unixSeparators_of_notMem {value : List Char} (h : '\\' ∉ value) :
    unixSeparators value = value := by
  unfold unixSeparators
  conv_rhs => rw [← List.map_id value]
  refine List.map_congr_left fun c hc => ?_
  have hne : c ≠ '\\' := fun he => h (he ▸ hc)
  rw [if_neg hne, id]

theorem backslash_notMem_policyLocation (pathValue : String) :
    ∀ s ∈ policyLocation pathValue, '\\' ∉ s := by
  intro s hs
  refine notMem_of_mem_walk (backslash_notMem_unixSeparators _) ?_ hs
  exact fun t ht => absurd ht List.not_mem_nil

theorem nul_notMem_policyLocation {path : String} (h : Char.ofNat 0 ∉ path.toList) :
    ∀ s ∈ policyLocation path, Char.ofNat 0 ∉ s := by
  intro s hs
  refine notMem_of_mem_walk (fun hmem => ?_) (fun t ht => absurd ht List.not_mem_nil) hs
  obtain ⟨c, hc, he⟩ := List.mem_map.mp hmem
  split at he
  · exact absurd he (by decide)
  · exact h (he ▸ hc)

/-- A location without backslashes is what the policy reads in its text. -/
theorem policyLocation_locationText {loc : List Segment} (hloc : IsLocation loc)
    (hb : ∀ s ∈ loc, '\\' ∉ s) : policyLocation (locationText loc) = loc := by
  have htext : '\\' ∉ text loc := by
    unfold text
    split
    · decide
    · intro h
      obtain ⟨s, hs, hmem⟩ := List.mem_flatMap.mp h
      rcases List.mem_cons.mp hmem with h | h
      · exact absurd h (by decide)
      · exact hb s hs h
  have hresolve := resolve_text hloc []
  rw [resolve, if_pos (isAbsolute_text loc)] at hresolve
  rw [policyLocation, locationText, String.toList_ofList, unixSeparators_of_notMem htext, hresolve]

theorem nul_notMem_locationText {loc : List Segment} (h : ∀ s ∈ loc, Char.ofNat 0 ∉ s) :
    Char.ofNat 0 ∉ (locationText loc).toList := by
  rw [locationText, String.toList_ofList]
  unfold text
  split
  · decide
  · intro hmem
    obtain ⟨s, hs, hmem⟩ := List.mem_flatMap.mp hmem
    rcases List.mem_cons.mp hmem with he | hmem
    · exact absurd he (by decide)
    · exact h s hs hmem

theorem stripTrailingSeparators_of_getLast? {value root : List Char} {separator : Char}
    (h : value.getLast? ≠ some separator) :
    stripTrailingSeparators value separator root = value := by
  unfold stripTrailingSeparators
  rw [List.getLast?_eq_head?_reverse] at h
  cases hrev : value.reverse with
  | nil => rw [← List.reverse_reverse value, hrev]; rfl
  | cons =>
    rw [hrev] at h
    rw [stripLeading, if_neg, ← hrev, List.reverse_reverse]
    rintro ⟨-, rfl⟩
    exact h rfl

theorem stripTrailingSeparators_append {value root : List Char} {separator : Char}
    (hlength : root.length ≤ value.length) (h : value.getLast? ≠ some separator) :
    stripTrailingSeparators (value ++ [separator]) separator root = value := by
  have hstrip : stripTrailingSeparators (value ++ [separator]) separator root =
      stripTrailingSeparators value separator root := by
    unfold stripTrailingSeparators
    rw [List.reverse_append, List.reverse_singleton, List.singleton_append, stripLeading, if_pos]
    exact ⟨by rw [List.length_cons, List.length_reverse]; omega, rfl⟩
  rw [hstrip, stripTrailingSeparators_of_getLast? h]

theorem getLast?_text {loc : List Segment} (hloc : IsLocation loc) (hne : loc ≠ []) :
    (text loc).getLast? ≠ some '/' := by
  obtain ⟨front, s, rfl⟩ := List.eq_nil_or_concat loc |>.resolve_left hne
  rw [List.concat_eq_append] at hne hloc ⊢
  have hs := hloc s (by simp)
  rw [text, if_neg hne, render_append]
  have hrender : render [s] = '/' :: s := by simp [render]
  obtain ⟨init, c, rfl⟩ := List.eq_nil_or_concat s |>.resolve_left hs.ne_nil
  rw [List.concat_eq_append] at hrender hs
  rw [List.concat_eq_append, hrender, ← List.cons_append, ← List.append_assoc, List.getLast?_append]
  intro h
  have hc : c = '/' := by simpa using h
  exact hs.slash_notMem (by simp [hc])

/-- **Normalisation yields the text of the policy's location.** -/
theorem normalizeRemotePosixPath_eq {pathValue : String} (h : Char.ofNat 0 ∉ pathValue.toList) :
    normalizeRemotePosixPath pathValue = some (locationText (policyLocation pathValue)) := by
  unfold normalizeRemotePosixPath
  rw [if_neg h]
  dsimp only
  set absolute := if isAbsolute (unixSeparators pathValue.toList) = true
    then unixSeparators pathValue.toList else '/' :: unixSeparators pathValue.toList with habs
  have hwalk : walk [] absolute = policyLocation pathValue := by
    rw [habs]
    split
    · rfl
    · exact walk_slash_cons [] _
  have habsolute : isAbsolute absolute = true := by
    rw [habs]
    split
    · assumption
    · rfl
  have hloc := isLocation_policyLocation pathValue
  rw [normalize_of_isAbsolute habsolute, hwalk, locationText]
  congr 2
  by_cases hroot : policyLocation pathValue = []
  · rw [hroot]
    simp [text, stripTrailingSeparators, stripLeading]
  · have hlast := getLast?_text hloc hroot
    split
    · refine stripTrailingSeparators_append ?_ hlast
      rw [List.length_singleton, Nat.one_le_iff_ne_zero]
      intro hzero
      rw [List.length_eq_zero_iff.mp hzero] at hlast
      obtain ⟨s, ss, hs⟩ := List.exists_cons_of_ne_nil hroot
      have htext : text (policyLocation pathValue) ≠ [] := by
        rw [text, if_neg hroot, hs, render_cons]
        exact List.cons_ne_nil _ _
      exact htext (List.length_eq_zero_iff.mp hzero)
    · rw [List.append_nil]
      exact stripTrailingSeparators_of_getLast? hlast

theorem normalizeRemotePosixPath_of_mem {pathValue : String}
    (h : Char.ofNat 0 ∈ pathValue.toList) : normalizeRemotePosixPath pathValue = none :=
  if_pos h

theorem normalizeRemotePosixPath_eq_some_iff {pathValue normalized : String} :
    normalizeRemotePosixPath pathValue = some normalized ↔
      Char.ofNat 0 ∉ pathValue.toList ∧ locationText (policyLocation pathValue) = normalized := by
  by_cases hnul : Char.ofNat 0 ∈ pathValue.toList
  · rw [normalizeRemotePosixPath_of_mem hnul]
    simp [hnul]
  · rw [normalizeRemotePosixPath_eq hnul, Option.some.injEq]
    exact (and_iff_right hnul).symm

theorem locationText_eq_root_iff {loc : List Segment} (h : IsLocation loc) :
    locationText loc = "/" ↔ loc = [] := by
  rw [locationText, show "/" = String.ofList ['/'] from rfl, String.ofList_inj]
  exact text_eq_root_iff h

/-- **Under, on locations.** -/
theorem isPathUnder_text_iff {d e : List Segment} (hd : IsLocation d) (he : IsLocation e) :
    isPathUnder (locationText e) (locationText d) "/" = true ↔ d <+: e := by
  have hroot := locationText_eq_root_iff hd
  have hparse : pathRoot (locationText d) = "/" := by
    rw [pathRoot, locationText, String.toList_ofList, if_pos (isAbsolute_text d)]
  unfold isPathUnder
  by_cases hnil : d = []
  · rw [if_pos (.inl (hroot.mpr hnil)), hnil]
    exact iff_of_true rfl List.nil_prefix
  · have hne : ¬(locationText d = "/" ∨ locationText d = pathRoot (locationText d)) := by
      rw [hparse, or_self, hroot]
      exact hnil
    rw [if_neg hne, isSegmentBoundaryPathMatch, Bool.or_eq_true, decide_eq_true_eq,
      List.isPrefixOf_iff_prefix, ← text_prefix_iff hd he hnil]
    simp [locationText, String.ofList_inj]

/-! ### Normal forms -/

/-- The segments of an absolute path. -/
def pathSegments (pathValue : String) : List Segment :=
  if pathValue = "/" then [] else (segments pathValue.toList).tail

/-- **A normal form**: absolute, without a slash at its end but for the root, and every segment is a
name. -/
structure IsNormalized (pathValue : String) : Prop where
  absolute : isAbsolute pathValue.toList = true
  no_trailing : pathValue ≠ "/" → pathValue.toList.getLast? ≠ some '/'
  names : IsLocation (pathSegments pathValue)

theorem pathSegments_locationText {loc : List Segment} (h : IsLocation loc) :
    pathSegments (locationText loc) = loc := by
  by_cases hroot : loc = []
  · subst hroot
    rfl
  · rw [pathSegments, if_neg (mt (locationText_eq_root_iff h).mp hroot), locationText,
      String.toList_ofList, text, if_neg hroot, segments_render h, List.tail_cons]

theorem isNormalized_locationText {loc : List Segment} (h : IsLocation loc) :
    IsNormalized (locationText loc) where
  absolute := by
    rw [locationText, String.toList_ofList]
    exact isAbsolute_text loc
  no_trailing := fun hroot => by
    rw [locationText, String.toList_ofList]
    exact getLast?_text h (mt (locationText_eq_root_iff h).mpr hroot)
  names := by
    rw [pathSegments_locationText h]
    exact h

theorem normalizeRemotePosixPath_idem {pathValue normalized : String}
    (h : normalizeRemotePosixPath pathValue = some normalized) :
    normalizeRemotePosixPath normalized = some normalized := by
  obtain ⟨hnul, rfl⟩ := normalizeRemotePosixPath_eq_some_iff.mp h
  have hloc := isLocation_policyLocation pathValue
  have hnul' := nul_notMem_locationText (nul_notMem_policyLocation hnul)
  rw [normalizeRemotePosixPath_eq hnul',
    policyLocation_locationText hloc (backslash_notMem_policyLocation pathValue)]

/-- **Normalised paths, and prefixes of them.** The segments of a path are those that are left when
the detours in it are followed, `policyLocation`. -/
theorem normalized_paths {pathValue : String} (h : Char.ofNat 0 ∉ pathValue.toList) :
    ∃ normalized, normalizeRemotePosixPath pathValue = some normalized ∧ IsNormalized normalized ∧
      pathSegments normalized = policyLocation pathValue ∧
      normalizeRemotePosixPath normalized = some normalized ∧
      ∀ pathPrefix : String, Char.ofNat 0 ∉ pathPrefix.toList →
        ∃ normalizedPrefix, normalizeRemotePosixPath pathPrefix = some normalizedPrefix ∧
          (isPathUnder normalized normalizedPrefix "/" = true ↔
            policyLocation pathPrefix <+: policyLocation pathValue) := by
  have hnormalized := normalizeRemotePosixPath_eq h
  have hloc := isLocation_policyLocation pathValue
  refine ⟨_, hnormalized, isNormalized_locationText hloc, pathSegments_locationText hloc,
    normalizeRemotePosixPath_idem hnormalized, fun pathPrefix hprefix => ?_⟩
  exact ⟨_, normalizeRemotePosixPath_eq hprefix,
    isPathUnder_text_iff (isLocation_policyLocation pathPrefix) hloc⟩

/-- A look-alike of `/etc`, with detours. -/
theorem normalized_paths_look_alike :
    ∃ normalized, normalizeRemotePosixPath "etc/..\\../etcetera//x/./" = some normalized ∧
      pathSegments normalized = ["etcetera".toList, "x".toList] ∧
      ∃ normalizedPrefix, normalizeRemotePosixPath "/etc/" = some normalizedPrefix ∧
        isPathUnder normalized normalizedPrefix "/" = false := by
  obtain ⟨normalized, hnormalized, -, hsegments, -, hunder⟩ :=
    @normalized_paths "etc/..\\../etcetera//x/./" (by decide)
  obtain ⟨normalizedPrefix, hprefix, hiff⟩ := hunder "/etc/" (by decide)
  refine ⟨normalized, hnormalized, hsegments.trans (by decide), normalizedPrefix, hprefix, ?_⟩
  -- `etc` is no first segment of `etcetera/x`
  exact Bool.eq_false_iff.mpr (mt hiff.mp (by decide))

end Ssh
