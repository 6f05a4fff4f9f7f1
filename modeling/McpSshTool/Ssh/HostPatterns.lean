import McpSshTool.Library.Glob
import McpSshTool.Ssh.KnownHosts

/-!
# The patterns of a `known_hosts` line

What the host field of a line means, and what `knownHostPatternMatches` makes of it.

* `recordedName` — the name under which the key of a host is recorded;
* `GlobsName`, `ListMatches` — a pattern, and a list of them, against that name;
* `wildcardMatches_iff`, `knownHostPatternMatches_iff` — what the matcher does: every pattern is
  tried against the bare host, and against the spelling with the port as it stands;
* `Misread` — the ways in which a list is misread for a host; `known_host_patterns_iff` — the
  matcher is right about the others.
-/

open Library

namespace Ssh

/-! ### The rules -/

/-- A host with its port. -/
def bracketedName (host : String) (port : ℕ) : String := "[" ++ host ++ "]:" ++ toString port

/-- The name under which a key is recorded. -/
def recordedName (host : String) (port : ℕ) : String :=
  if port = 22 then host else bracketedName host port

/-- A character of a pattern. -/
def patternToken (u : ℕ) : GlobToken ℕ :=
  if u = '*'.toNat then .many else if u = '?'.toNat then .one else .char u

/-- A pattern, part by part. -/
def patternTokens (pattern : String) : List (GlobToken ℕ) := (JsText.units pattern).map patternToken

/-- The pattern matches the name. -/
def GlobsName (pattern name : String) : Prop :=
  Globs (fun _ => True) (patternTokens pattern) (JsText.units name)

/-- The pattern begins with `!`. -/
def IsNegated (pattern : String) : Prop := pattern.toList.head? = some '!'

instance : DecidablePred IsNegated := fun pattern =>
  inferInstanceAs (Decidable (pattern.toList.head? = some '!'))

/-- What a negated pattern excludes. -/
def negand (pattern : String) : String := String.ofList (pattern.toList.drop 1)

/-- Some pattern that is not negated matches the name. -/
def SomeMatches (patterns : List String) (name : String) : Prop :=
  ∃ pattern ∈ patterns, ¬IsNegated pattern ∧ GlobsName pattern name

/-- Some negated pattern excludes the name. -/
def SomeExcludes (patterns : List String) (name : String) : Prop :=
  ∃ pattern ∈ patterns, IsNegated pattern ∧ GlobsName (negand pattern) name

/-- **The list matches the name.** -/
def ListMatches (patterns : List String) (name : String) : Prop :=
  SomeMatches patterns name ∧ ¬SomeExcludes patterns name

/-! ### The matcher -/

/-- What a wildcard of the matcher stands for. -/
def OnLine (u : ℕ) : Prop := isLineTerminator u = false

theorem mem_dotStarRests {us rest : List ℕ} :
    rest ∈ dotStarRests us ↔ ∃ taken, us = taken ++ rest ∧ ∀ u ∈ taken, OnLine u := by
  induction us with
  | nil =>
    rw [dotStarRests, List.mem_singleton]
    constructor
    · rintro rfl
      exact ⟨[], rfl, fun _ hu => absurd hu List.not_mem_nil⟩
    · rintro ⟨taken, h, -⟩
      exact (List.append_eq_nil_iff.mp h.symm).2
  | cons u us ih =>
    rw [dotStarRests, List.mem_cons]
    constructor
    · rintro (rfl | h)
      · exact ⟨[], rfl, fun _ hu => absurd hu List.not_mem_nil⟩
      · split at h
        · exact absurd h List.not_mem_nil
        · next hu =>
          obtain ⟨taken, rfl, htaken⟩ := ih.mp h
          exact ⟨u :: taken, rfl,
            List.forall_mem_cons.mpr ⟨Bool.eq_false_of_not_eq_true hu, htaken⟩⟩
    · rintro ⟨taken, h, htaken⟩
      cases taken with
      | nil => exact .inl h.symm
      | cons v taken =>
        obtain ⟨rfl, rfl⟩ := List.cons.inj h
        obtain ⟨hu, htaken⟩ := List.forall_mem_cons.mp htaken
        refine .inr ?_
        rw [if_neg (by rw [show isLineTerminator u = false from hu]; exact Bool.false_ne_true)]
        exact ih.mpr ⟨taken, rfl, htaken⟩

/-- **The expression of a pattern matches as the pattern does**, with wildcards that stay on their
line. -/
theorem wildcardMatches_iff {pattern us : List ℕ} :
    wildcardMatches pattern us = true ↔ Globs OnLine (pattern.map patternToken) us := by
  induction pattern generalizing us with
  | nil =>
    rw [wildcardMatches, List.map_nil, globs_nil_iff, List.isEmpty_iff]
  | cons p pattern ih =>
    rw [wildcardMatches.eq_def]
    dsimp only
    rw [List.map_cons, patternToken]
    split
    · -- any number of characters
      rw [globs_many_iff, List.any_eq_true]
      constructor
      · rintro ⟨rest, hrest, hmatches⟩
        obtain ⟨taken, rfl, htaken⟩ := mem_dotStarRests.mp hrest
        exact ⟨taken, rest, rfl, htaken, ih.mp hmatches⟩
      · rintro ⟨taken, rest, rfl, htaken, hglobs⟩
        exact ⟨rest, mem_dotStarRests.mpr ⟨taken, rfl, htaken⟩, ih.mpr hglobs⟩
    · cases us with
      | nil =>
        refine iff_of_false Bool.false_ne_true fun h => ?_
        split at h
        · obtain ⟨_, _, heq, -⟩ := globs_one_iff.mp h
          cases heq
        · obtain ⟨_, heq, -⟩ := globs_char_iff.mp h
          cases heq
      | cons u us =>
        dsimp only
        rw [Bool.and_eq_true, ih]
        split
        · rw [globs_one_iff]
          constructor
          · rintro ⟨hu, hglobs⟩
            exact ⟨u, us, rfl, by simpa [OnLine] using hu, hglobs⟩
          · rintro ⟨_, _, heq, hu, hglobs⟩
            obtain ⟨rfl, rfl⟩ := List.cons.inj heq
            exact ⟨by simpa [OnLine] using hu, hglobs⟩
        · rw [globs_char_iff, decide_eq_true_iff]
          constructor
          · rintro ⟨rfl, hglobs⟩
            exact ⟨us, rfl, hglobs⟩
          · rintro ⟨_, heq, hglobs⟩
            obtain ⟨rfl, rfl⟩ := List.cons.inj heq
            exact ⟨rfl, hglobs⟩

/-- A pattern matches the host, if no wildcard goes past a line. -/
def GlobsOnLine (pattern host : String) : Prop :=
  Globs OnLine (patternTokens pattern) (JsText.units host)

theorem globsOnLine_self (host : String) : GlobsOnLine host host := by
  refine globs_self (fun u => ?_) _
  unfold patternToken
  split
  · next h => exact .inr ⟨.inr rfl, h ▸ rfl⟩
  · split
    · next h => exact .inr ⟨.inl rfl, h ▸ rfl⟩
    · exact .inl rfl

theorem GlobsOnLine.globsName {pattern name : String} (h : GlobsOnLine pattern name) :
    GlobsName pattern name :=
  h.mono fun _ _ => trivial

theorem globsName_self (name : String) : GlobsName name name := (globsOnLine_self name).globsName

theorem globsName_iff {pattern name : String} (hline : ∀ u ∈ JsText.units name, OnLine u) :
    GlobsName pattern name ↔ GlobsOnLine pattern name :=
  globs_iff_of_all hline

/-- **What the matcher goes by**: some pattern matches the bare host, or is the host with its
port. -/
theorem knownHostPatternMatches_iff {hashes : KeyHashes} {hosts host : String} {port : ℕ}
    (hplain : ∀ pattern ∈ splitText hosts ',', pattern.toList.head? ≠ some '|') :
    knownHostPatternMatches hashes hosts host port = true ↔
      ∃ pattern ∈ splitText hosts ',',
        GlobsOnLine pattern host ∨ pattern = bracketedName host port := by
  unfold knownHostPatternMatches
  dsimp only
  rw [List.any_eq_true]
  refine exists_congr fun pattern => and_congr_right fun hpattern => ?_
  rw [if_neg (hplain pattern hpattern), Bool.or_eq_true, decide_eq_true_iff, List.mem_pair,
    wildcardMatches_iff]
  constructor
  · rintro ((rfl | hport) | hglobs)
    · exact .inl (globsOnLine_self _)
    · exact .inr hport
    · exact .inl hglobs
  · rintro (hglobs | hport)
    · exact .inr hglobs
    · exact .inl (.inr hport)

/-! ### When the matcher is right -/

/-- **The ways in which a list is misread** for a host and a port. -/
inductive Misread (patterns : List String) (host : String) (port : ℕ) : Prop
  /-- A negated pattern excludes the name, and is not heard. -/
  | negation (hexcludes : SomeExcludes patterns (recordedName host port))
      (htaken : (∃ pattern ∈ patterns, GlobsOnLine pattern host) ∨
        bracketedName host port ∈ patterns)
  /-- A pattern for the standard port is taken for another. -/
  | otherPort (hport : port ≠ 22) (hbare : ∃ pattern ∈ patterns, GlobsOnLine pattern host)
      (hname : ¬SomeMatches patterns (bracketedName host port))
  /-- The standard port is written out, as it never is in a name. -/
  | standardPort (hport : port = 22) (hlisted : bracketedName host port ∈ patterns)
      (hname : ¬SomeMatches patterns host)
  /-- Only wildcards match the host with its port, and they are not tried against it. -/
  | wildcardPort (hport : port ≠ 22) (hname : ListMatches patterns (bracketedName host port))
      (hlisted : bracketedName host port ∉ patterns)
      (hbare : ∀ pattern ∈ patterns, ¬GlobsOnLine pattern host)
  /-- The host begins with a `!`, and a negated pattern is taken for its name. -/
  | mark (hport : port = 22) (hbare : ∃ pattern ∈ patterns, IsNegated pattern ∧
      GlobsOnLine pattern host)
      (hname : ¬SomeMatches patterns host)
  /-- The host has more than one line, and wildcards do not go past the first. -/
  | lineEnd (hport : port = 22) (hname : ListMatches patterns host)
      (hlisted : bracketedName host port ∉ patterns)
      (hbare : ∀ pattern ∈ patterns, ¬GlobsOnLine pattern host)

section Reading

variable {patterns : List String} {host : String} {port : ℕ}

theorem recordedName_standard (hport : port = 22) : recordedName host port = host := if_pos hport

theorem recordedName_other (hport : port ≠ 22) : recordedName host port = bracketedName host port :=
  if_neg hport

theorem not_isNegated_bracketedName : ¬IsNegated (bracketedName host port) := by
  intro h
  rw [IsNegated, bracketedName, String.toList_append, String.toList_append,
    String.toList_append] at h
  exact absurd (Option.some.inj h) (by decide)

theorem someMatches_of_listed (h : bracketedName host port ∈ patterns) :
    SomeMatches patterns (bracketedName host port) :=
  ⟨_, h, not_isNegated_bracketedName, globsName_self _⟩

/-- A name that is taken, and that the list matches unless it is misread. -/
theorem listMatches_of_taken (hread : ¬Misread patterns host port)
    (htaken : ∃ pattern ∈ patterns, GlobsOnLine pattern host ∨ pattern = bracketedName host port) :
    ListMatches patterns (recordedName host port) := by
  have hbare : (∃ pattern ∈ patterns, GlobsOnLine pattern host) ∨
      bracketedName host port ∈ patterns := by
    obtain ⟨pattern, hpattern, hglobs | rfl⟩ := htaken
    · exact .inl ⟨pattern, hpattern, hglobs⟩
    · exact .inr hpattern
  refine ⟨?_, fun hexcludes => hread (.negation hexcludes hbare)⟩
  by_cases hport : port = 22
  · rw [recordedName_standard hport]
    by_contra hname
    rcases hbare with ⟨pattern, hpattern, hglobs⟩ | hlisted
    · by_cases hnegated : IsNegated pattern
      · exact hread (.mark hport ⟨pattern, hpattern, hnegated, hglobs⟩ hname)
      · exact hname ⟨pattern, hpattern, hnegated, hglobs.globsName⟩
    · exact hread (.standardPort hport hlisted hname)
  · rw [recordedName_other hport]
    rcases hbare with hbare | hlisted
    · by_contra hname
      exact hread (.otherPort hport hbare hname)
    · exact someMatches_of_listed hlisted

theorem taken_of_listMatches (hread : ¬Misread patterns host port)
    (hmatches : ListMatches patterns (recordedName host port)) :
    ∃ pattern ∈ patterns, GlobsOnLine pattern host ∨ pattern = bracketedName host port := by
  by_contra htaken
  have hlisted : bracketedName host port ∉ patterns := fun h => htaken ⟨_, h, .inr rfl⟩
  have hbare : ∀ pattern ∈ patterns, ¬GlobsOnLine pattern host :=
    fun pattern hpattern h => htaken ⟨pattern, hpattern, .inl h⟩
  by_cases hport : port = 22
  · rw [recordedName_standard hport] at hmatches
    exact hread (.lineEnd hport hmatches hlisted hbare)
  · rw [recordedName_other hport] at hmatches
    exact hread (.wildcardPort hport hmatches hlisted hbare)

end Reading

/-- **The matcher follows the rules** for the lists that it does not misread, and for no others. -/
theorem known_host_patterns_iff (hashes : KeyHashes) (hosts host : String) (port : ℕ)
    (hplain : ∀ pattern ∈ splitText hosts ',', pattern.toList.head? ≠ some '|') :
    (knownHostPatternMatches hashes hosts host port = true ↔
        ListMatches (splitText hosts ',') (recordedName host port)) ↔
      ¬Misread (splitText hosts ',') host port := by
  rw [knownHostPatternMatches_iff hplain]
  generalize splitText hosts ',' = patterns
  constructor
  · intro hright hmisread
    -- each misreading decides one way where the list says the other
    cases hmisread with
    | negation hexcludes htaken =>
      refine (hright.mp ?_).2 hexcludes
      rcases htaken with ⟨pattern, hpattern, hglobs⟩ | hlisted
      · exact ⟨pattern, hpattern, .inl hglobs⟩
      · exact ⟨_, hlisted, .inr rfl⟩
    | otherPort hport hbare hname =>
      obtain ⟨pattern, hpattern, hglobs⟩ := hbare
      refine hname ?_
      rw [← recordedName_other hport]
      exact (hright.mp ⟨pattern, hpattern, .inl hglobs⟩).1
    | standardPort hport hlisted hname =>
      have hmatches := (hright.mp ⟨_, hlisted, .inr rfl⟩).1
      rw [recordedName_standard hport] at hmatches
      exact hname hmatches
    | wildcardPort hport hname hlisted hbare =>
      rw [← recordedName_other hport] at hname
      obtain ⟨pattern, hpattern, hglobs | rfl⟩ := hright.mpr hname
      · exact hbare pattern hpattern hglobs
      · exact hlisted hpattern
    | mark hport hbare hname =>
      obtain ⟨pattern, hpattern, -, hglobs⟩ := hbare
      have hmatches := (hright.mp ⟨pattern, hpattern, .inl hglobs⟩).1
      rw [recordedName_standard hport] at hmatches
      exact hname hmatches
    | lineEnd hport hname hlisted hbare =>
      have hmatches : ListMatches patterns (recordedName host port) := by
        rw [recordedName_standard hport]
        exact hname
      obtain ⟨pattern, hpattern, hglobs | rfl⟩ := hright.mpr hmatches
      · exact hbare pattern hpattern hglobs
      · exact hlisted hpattern
  · intro hread
    exact ⟨listMatches_of_taken hread, taken_of_listMatches hread⟩

/-- A pattern with a wildcard, and a host at the standard port. -/
theorem known_host_patterns_wildcard :
    knownHostPatternMatches sampleHashes "*.example.com" "a.example.com" 22 = true ↔
      ListMatches (splitText "*.example.com" ',') (recordedName "a.example.com" 22) := by
  refine (known_host_patterns_iff sampleHashes "*.example.com" "a.example.com" 22
    (by decide +kernel)).mpr ?_
  have hpatterns : splitText "*.example.com" ',' = ["*.example.com"] := by decide +kernel
  have hkept : ¬IsNegated "*.example.com" := by decide +kernel
  have hglobs : GlobsOnLine "*.example.com" "a.example.com" :=
    wildcardMatches_iff.mp (by decide +kernel)
  have hmatches : SomeMatches ["*.example.com"] "a.example.com" :=
    ⟨_, List.mem_singleton_self _, hkept, hglobs.globsName⟩
  rw [hpatterns]
  intro hmisread
  cases hmisread with
  | negation hexcludes =>
    obtain ⟨pattern, hpattern, hnegated, -⟩ := hexcludes
    rw [List.mem_singleton.mp hpattern] at hnegated
    exact hkept hnegated
  | otherPort hport => exact hport rfl
  | standardPort _ _ hname => exact hname hmatches
  | wildcardPort hport => exact hport rfl
  | mark _ _ hname => exact hname hmatches
  | lineEnd _ _ _ hbare => exact hbare _ (List.mem_singleton_self _) hglobs

/-- **A host that its list excludes is found in it**, and a host at another port under the name for
the standard one. -/
theorem excluded_host_found :
    (knownHostPatternMatches sampleHashes "*.example.com,!bad.example.com" "bad.example.com" 22 =
      true ∧
      ¬ListMatches (splitText "*.example.com,!bad.example.com" ',')
        (recordedName "bad.example.com" 22)) ∧
    knownHostPatternMatches sampleHashes "h" "h" 2222 = true ∧
      ¬ListMatches (splitText "h" ',') (recordedName "h" 2222) := by
  refine ⟨⟨by decide +kernel, fun hmatches => ?_⟩, by decide +kernel, fun hmatches => ?_⟩
  · refine hmatches.2 ⟨"!bad.example.com", by decide +kernel, by decide +kernel, ?_⟩
    rw [show negand "!bad.example.com" = "bad.example.com" by decide +kernel]
    exact globsName_self _
  · obtain ⟨pattern, hpattern, -, hglobs⟩ := hmatches.1
    rw [show splitText "h" ',' = ["h"] by decide +kernel, List.mem_singleton] at hpattern
    subst hpattern
    have hline : ∀ u ∈ JsText.units (recordedName "h" 2222), OnLine u := by
      unfold OnLine
      decide +kernel
    exact absurd (wildcardMatches_iff.mpr ((globsName_iff hline).mp hglobs)) (by decide +kernel)

end Ssh
