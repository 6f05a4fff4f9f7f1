import McpSshTool.Ssh.HostPatterns

/-!
# The hosts that a tunnel may bind

`policy.ts`: what the lists of bind hosts of a configuration mean, where all their entries are
literal names and addresses. An entry is compared with the host, and it is tried as an expression
too: then it matches wherever it is found in the host, and its points stand for anything.

* `literalTest`, `FoundIn` — a literal entry as an expression;
* `bindHostDenial` — the check of the bind host, `tunnelDenial_eq`;
* `DeniedForBindHost` — the decision gives the bind host as its reason, `deniedForBindHost_iff`;
* `Refused` — what the lists say when they are read as lists of hosts;
* `bind_host_lists_exact_iff` — when the decision is what the lists say.
-/

open Library

namespace Ssh

/-! ### Literal entries -/

/-- A character of a host name or of an address. -/
def isHostChar (c : Char) : Bool := c.isAlphanum || c = '.' || c = ':' || c = '-'

/-- **A literal host name or address.** -/
def IsLiteralHost (entry : String) : Prop := entry.toList.all isHostChar = true

instance : DecidablePred IsLiteralHost := fun entry =>
  inferInstanceAs (Decidable (entry.toList.all isHostChar = true))

/-- A code unit of a literal entry, as an expression reads it. -/
def literalToken (u : ℕ) : GlobToken ℕ := if u = '.'.toNat then .one else .char u

/-- The entry is found in the host: somewhere in it, and with anything in the place of a point. -/
def FoundIn (entry host : String) : Prop :=
  ∃ before found after, JsText.units host = before ++ (found ++ after) ∧
    Globs OnLine ((JsText.units entry).map literalToken) found

/-- The text begins with what the expression matches. -/
def literalMatches : List ℕ → List ℕ → Bool
  | [], _ => true
  | _ :: _, [] => false
  | e :: entry, u :: us =>
    (if e = '.'.toNat then !isLineTerminator u else decide (e = u)) && literalMatches entry us

/-- `new RegExp(entry).test(text)`, of a literal entry. -/
def literalTest (entry text : String) : Bool :=
  (JsText.units text).tails.any (literalMatches (JsText.units entry))

theorem literalMatches_iff {entry us : List ℕ} :
    literalMatches entry us = true ↔
      ∃ found after, us = found ++ after ∧ Globs OnLine (entry.map literalToken) found := by
  induction entry generalizing us with
  | nil =>
    rw [literalMatches.eq_def]
    exact iff_of_true rfl ⟨[], us, rfl, .nil⟩
  | cons e entry ih =>
    cases us with
    | nil =>
      refine iff_of_false Bool.false_ne_true fun ⟨found, after, heq, hglobs⟩ => ?_
      obtain ⟨rfl, -⟩ := List.append_eq_nil_iff.mp heq.symm
      rw [List.map_cons, literalToken] at hglobs
      split at hglobs
      · obtain ⟨_, _, heq, -⟩ := globs_one_iff.mp hglobs
        cases heq
      · obtain ⟨_, heq, -⟩ := globs_char_iff.mp hglobs
        cases heq
    | cons u =>
      rw [literalMatches, Bool.and_eq_true, ih, List.map_cons, literalToken]
      split
      · -- a point
        constructor
        · rintro ⟨hu, found, after, rfl, hglobs⟩
          exact ⟨u :: found, after, rfl, .one (by simpa [OnLine] using hu) hglobs⟩
        · rintro ⟨found, after, heq, hglobs⟩
          obtain ⟨v, rest, rfl, hv, hrest⟩ := globs_one_iff.mp hglobs
          obtain ⟨rfl, rfl⟩ := List.cons.inj heq
          exact ⟨by simpa [OnLine] using hv, rest, after, rfl, hrest⟩
      · rw [decide_eq_true_iff]
        constructor
        · rintro ⟨rfl, found, after, rfl, hglobs⟩
          exact ⟨e :: found, after, rfl, .char e hglobs⟩
        · rintro ⟨found, after, heq, hglobs⟩
          obtain ⟨rest, rfl, hrest⟩ := globs_char_iff.mp hglobs
          obtain ⟨rfl, rfl⟩ := List.cons.inj heq
          exact ⟨rfl, rest, after, rfl, hrest⟩

/-- **The test of a literal entry finds it in the text.** -/
theorem literalTest_iff {entry text : String} : literalTest entry text = true ↔
    FoundIn entry text := by
  rw [literalTest, List.any_eq_true]
  constructor
  · rintro ⟨rest, hrest, hmatches⟩
    obtain ⟨before, hbefore⟩ := List.mem_tails _ _ |>.mp hrest
    obtain ⟨found, after, rfl, hglobs⟩ := literalMatches_iff.mp hmatches
    exact ⟨before, found, after, hbefore.symm, hglobs⟩
  · rintro ⟨before, found, after, htext, hglobs⟩
    exact ⟨found ++ after, List.mem_tails _ _ |>.mpr ⟨before, htext.symm⟩,
      literalMatches_iff.mpr ⟨found, after, rfl, hglobs⟩⟩

instance (entry host : String) : Decidable (FoundIn entry host) :=
  decidable_of_iff _ literalTest_iff

theorem foundIn_self (entry : String) : FoundIn entry entry := by
  refine ⟨[], JsText.units entry, [], by simp, globs_self (fun u => ?_) _⟩
  unfold literalToken
  split
  · next hu =>
    subst hu
    exact .inr ⟨.inl rfl, rfl⟩
  · exact .inl rfl

/-- **The engine tests a literal entry as expressions do.** -/
def Runtime.TestsLiterals (rt : Runtime) : Prop :=
  ∀ entry, IsLiteralHost entry → ∀ text, rt.regExpTest entry "" text = literalTest entry text

namespace PolicyEngine

variable {rt : Runtime} (engine : PolicyEngine rt)

/-! ### The check of the bind host -/

/-- The check of the bind host of a tunnel. -/
def bindHostDenial (context : PolicyContext) : Option Denial := do
  let bindHost ← truthy context.localBindHost
  tunnelListDenial (matchesPolicyValue rt bindHost) engine.config.tunnelDenyBindHosts
    engine.config.tunnelAllowBindHosts ("Tunnel bind host " ++ bindHost)
    "Choose an allowed bind host or adjust tunnelDenyBindHosts."
    "Choose an allowed bind host or adjust tunnelAllowBindHosts."

/-- The check of the remote host of a tunnel. -/
def remoteHostDenial (context : PolicyContext) : Option Denial := do
  let remoteHost ← truthy context.remoteHost
  tunnelListDenial (matchesPolicyValue rt remoteHost) engine.config.tunnelDenyRemoteHosts
    engine.config.tunnelAllowRemoteHosts ("Tunnel remote host " ++ remoteHost)
    "Choose an allowed remote host or adjust tunnelDenyRemoteHosts."
    "Choose an allowed remote host or adjust tunnelAllowRemoteHosts."

/-- The check of a port of a tunnel. -/
def portDenial (port : ℕ) : Option Denial :=
  tunnelListDenial (matchesPortPolicy port) engine.config.tunnelDenyPorts
    engine.config.tunnelAllowPorts ("Tunnel port " ++ toString port)
    "Choose a different port or adjust tunnelDenyPorts."
    "Choose an allowed port or adjust tunnelAllowPorts."

theorem tunnelDenial_eq {context : PolicyContext}
    (h : context.action = .tunnelLocal ∨ context.action = .tunnelRemote) :
    engine.tunnelDenial context =
      ((engine.bindHostDenial context).or (engine.remoteHostDenial context)).or
        (([context.localPort, context.remotePort].filterMap id).findSome? engine.portDenial) := by
  rw [tunnelDenial, if_pos h]
  rfl

/-! ### Reasons -/

/-- What the reason begins with where a bind host is denied. -/
def bindHostSubject : List Char := "Tunnel bind host ".toList

/-- **The policy denies the action on account of its bind host.** -/
def DeniedForBindHost (files : String → Option String) (context : PolicyContext) : Prop :=
  (engine.evaluateWith files context).allowed = false ∧
    ∃ reason, (engine.evaluateWith files context).reason = some reason ∧
      bindHostSubject <+: reason.toList

/-- The denial, if there is one, is about a bind host. -/
def IsAboutBindHost (denial : Option Denial) : Prop :=
  ∃ d, denial = some d ∧ bindHostSubject <+: d.reason.toList

theorem deniedForBindHost_iff_isAbout {files : String → Option String} {context : PolicyContext} :
    engine.DeniedForBindHost files context ↔ IsAboutBindHost (engine.denialWith files context) := by
  unfold DeniedForBindHost IsAboutBindHost evaluateWith
  cases engine.denialWith files context with
  | none => simp
  | some => simp

theorem isAboutBindHost_none : ¬IsAboutBindHost none := by
  rintro ⟨d, h, -⟩
  cases h

theorem isAboutBindHost_or {a b : Option Denial} :
    IsAboutBindHost (a.or b) ↔ IsAboutBindHost a ∨ a = none ∧ IsAboutBindHost b := by
  cases a with
  | none => simp [isAboutBindHost_none]
  | some => simp

theorem not_subject_append {opening rest : String}
    (h : ¬bindHostSubject <+: opening.toList ∧ ¬opening.toList <+: bindHostSubject) :
    ¬bindHostSubject <+: (opening ++ rest).toList := by
  intro hsubject
  rw [String.toList_append] at hsubject
  rcases List.prefix_or_prefix_of_prefix hsubject
    (List.prefix_append opening.toList rest.toList) with
    hopening | hopening
  · exact h.1 hopening
  · exact h.2 hopening

theorem tunnelListDenial_reason {isIn : List String → Bool} {deny allow : List String}
    {subject denyHint allowHint : String} {denial : Denial}
    (h : tunnelListDenial isIn deny allow subject denyHint allowHint = some denial) :
    ∃ rest, denial.reason = subject ++ rest := by
  unfold tunnelListDenial at h
  split at h
  · obtain rfl := Option.some.inj h
    exact ⟨_, rfl⟩
  · split at h
    · obtain rfl := Option.some.inj h
      exact ⟨_, rfl⟩
    · cases h

theorem tunnelListDenial_ne_none_iff {isIn : List String → Bool} {deny allow : List String}
    {subject denyHint allowHint : String} :
    tunnelListDenial isIn deny allow subject denyHint allowHint ≠ none ↔
      (deny ≠ [] ∧ isIn deny = true) ∨ allow ≠ [] ∧ ¬isIn allow = true := by
  unfold tunnelListDenial
  split
  · next h => exact iff_of_true (Option.some_ne_none _) (.inl h)
  · next hdenied =>
    split
    · next h => exact iff_of_true (Option.some_ne_none _) (.inr (by simpa using h))
    · next h => exact iff_of_false (fun hnone => hnone rfl) (not_or.mpr ⟨hdenied, by simpa using h⟩)

/-- What the bind host is denied for is the bind host. -/
theorem isAbout_bindHostDenial {context : PolicyContext} :
    IsAboutBindHost (engine.bindHostDenial context) ↔ engine.bindHostDenial context ≠ none := by
  constructor
  · rintro ⟨d, h, -⟩ hnone
    rw [hnone] at h
    cases h
  · intro hsome
    obtain ⟨d, h⟩ := Option.ne_none_iff_exists'.mp hsome
    refine ⟨d, h, ?_⟩
    obtain ⟨bindHost, -, hlist⟩ := Option.bind_eq_some_iff.mp h
    obtain ⟨rest, hreason⟩ := tunnelListDenial_reason hlist
    rw [hreason, String.append_assoc, String.toList_append]
    exact List.prefix_append _ _

theorem not_isAbout_tunnelListDenial {isIn : List String → Bool} {deny allow : List String}
    {opening value denyHint allowHint : String}
    (h : ¬bindHostSubject <+: opening.toList ∧ ¬opening.toList <+: bindHostSubject) :
    ¬IsAboutBindHost
      (tunnelListDenial isIn deny allow (opening ++ value) denyHint allowHint) := by
  rintro ⟨d, hd, hsubject⟩
  obtain ⟨rest, hreason⟩ := tunnelListDenial_reason hd
  rw [hreason, String.append_assoc] at hsubject
  exact not_subject_append h hsubject

theorem not_isAbout_some {d : Denial} (h : ¬bindHostSubject <+: d.reason.toList) :
    ¬IsAboutBindHost (some d) := by
  rintro ⟨_, hd, hsubject⟩
  obtain rfl := Option.some.inj hd
  exact h hsubject

theorem not_isAbout_ite {P : Prop} [Decidable P] {a b : Option Denial} (ha : ¬IsAboutBindHost a)
    (hb : ¬IsAboutBindHost b) : ¬IsAboutBindHost (if P then a else b) := by
  split
  · exact ha
  · exact hb

theorem not_isAbout_bind {β : Type} {x : Option β} {f : β → Option Denial}
    (h : ∀ value, x = some value → ¬IsAboutBindHost (f value)) : ¬IsAboutBindHost (x.bind f) := by
  rintro ⟨d, hd, hsubject⟩
  obtain ⟨value, hvalue, hd⟩ := Option.bind_eq_some_iff.mp hd
  exact h value hvalue ⟨d, hd, hsubject⟩

theorem not_isAbout_findSome? {β : Type} {values : List β} {f : β → Option Denial}
    (h : ∀ value, ¬IsAboutBindHost (f value)) : ¬IsAboutBindHost (values.findSome? f) := by
  rintro ⟨d, hd, hsubject⟩
  obtain ⟨value, -, hd⟩ := List.exists_of_findSome?_eq_some hd
  exact h value ⟨d, hd, hsubject⟩

/-! ### The other checks -/

theorem not_isAbout_hostDenial {context : PolicyContext} :
    ¬IsAboutBindHost (engine.hostDenial context) := by
  refine not_isAbout_bind fun host _ => not_isAbout_ite (not_isAbout_some ?_) isAboutBindHost_none
  rw [String.append_assoc]
  exact not_subject_append (by decide)

theorem not_isAbout_remoteHostDenial {context : PolicyContext} :
    ¬IsAboutBindHost (engine.remoteHostDenial context) :=
  not_isAbout_bind fun _ _ => not_isAbout_tunnelListDenial (by decide)

theorem not_isAbout_rootDenial {context : PolicyContext} :
    ¬IsAboutBindHost (engine.rootDenial context) :=
  not_isAbout_ite (not_isAbout_some (by decide)) isAboutBindHost_none

theorem not_isAbout_rawSudoDenial {context : PolicyContext} :
    ¬IsAboutBindHost (engine.rawSudoDenial context) :=
  not_isAbout_ite (not_isAbout_some (by decide)) isAboutBindHost_none

theorem not_subject_warning {command : String} {danger : DangerousPattern}
    (h : checkCommandSafety rt command = some danger) :
    ¬bindHostSubject <+: danger.warning.toList := by
  have hwarnings : ∀ p ∈ dangerousPatterns, ¬bindHostSubject <+: p.warning.toList := by decide
  unfold checkCommandSafety at h
  split at h
  · cases h
  · exact hwarnings danger (List.mem_of_find?_eq_some h)

theorem not_isAbout_commandDenial {context : PolicyContext} :
    ¬IsAboutBindHost (engine.commandDenial context) := by
  refine not_isAbout_bind fun command _ => ?_
  refine not_isAbout_ite (not_isAbout_some (by decide)) ?_
  refine not_isAbout_ite (not_isAbout_some (by decide)) ?_
  refine not_isAbout_bind fun danger hdanger => ?_
  exact not_isAbout_ite isAboutBindHost_none (not_isAbout_some (not_subject_warning hdanger))

theorem not_isAbout_localPathDenial {files : String → Option String} {pathValue : String} :
    ¬IsAboutBindHost (engine.localPathDenial files pathValue) := by
  unfold localPathDenial
  split
  · exact not_isAbout_some (by decide)
  · refine not_isAbout_ite (not_isAbout_some ?_) (not_isAbout_ite (not_isAbout_some (by decide))
      (not_isAbout_ite (not_isAbout_some ?_) isAboutBindHost_none))
    · rw [String.append_assoc]
      exact not_subject_append (by decide)
    · rw [String.append_assoc]
      exact not_subject_append (by decide)

theorem not_isAbout_pathDenial {isDestructiveFs : Bool} {pathValue : String} :
    ¬IsAboutBindHost (engine.pathDenial isDestructiveFs pathValue) := by
  unfold pathDenial
  split
  · exact not_isAbout_some (by decide)
  · refine not_isAbout_ite (not_isAbout_some ?_)
      (not_isAbout_ite (not_isAbout_some ?_) isAboutBindHost_none)
    · rw [String.append_assoc]
      exact not_subject_append (by decide)
    · rw [String.append_assoc]
      exact not_subject_append (by decide)

theorem not_isAbout_pathsDenial {files : String → Option String} {context : PolicyContext} :
    ¬IsAboutBindHost (engine.pathsDenial files context) :=
  not_isAbout_ite (not_isAbout_findSome? fun _ => engine.not_isAbout_localPathDenial)
    (not_isAbout_findSome? fun _ => engine.not_isAbout_pathDenial)

/-- **A tunnel is denied on account of its bind host** where the host is let through and the check
of the bind host fails. -/
theorem deniedForBindHost_iff {files : String → Option String} {context : PolicyContext}
    (h : context.action = .tunnelLocal ∨ context.action = .tunnelRemote) :
    engine.DeniedForBindHost files context ↔
      engine.hostDenial context = none ∧ engine.bindHostDenial context ≠ none := by
  rw [deniedForBindHost_iff_isAbout, denialWith, engine.tunnelDenial_eq h]
  have hports : ¬IsAboutBindHost
      (([context.localPort, context.remotePort].filterMap id).findSome? engine.portDenial) :=
    not_isAbout_findSome? fun _ => not_isAbout_tunnelListDenial (by decide)
  simp only [isAboutBindHost_or, engine.not_isAbout_hostDenial, engine.not_isAbout_remoteHostDenial,
    hports, engine.not_isAbout_rootDenial, engine.not_isAbout_rawSudoDenial,
    engine.not_isAbout_commandDenial, engine.not_isAbout_pathsDenial, engine.isAbout_bindHostDenial,
    and_false, or_false, false_or]

/-! ### The lists -/

/-- The host of the action is let through: there are no allowed hosts, or one of them is this one or
matches it. -/
def AdmitsHost (context : PolicyContext) : Prop :=
  ∀ host, truthy context.host = some host → engine.config.allowedHosts = [] ∨
    ∃ h ∈ engine.config.allowedHosts, h = host ∨ rt.regExpTest h "" host = true

theorem hostDenial_none_iff_admits {context : PolicyContext} :
    engine.hostDenial context = none ↔ engine.AdmitsHost context := by
  unfold hostDenial AdmitsHost
  cases truthy context.host with
  | none => exact iff_of_true rfl fun host h => nomatch h
  | some => simp [matchesAny, or_iff_not_imp_left]

/-- **The lists refuse the host**: it is denied, or hosts are allowed and it is none of them. -/
def Refuses (host : String) : Prop :=
  host ∈ engine.config.tunnelDenyBindHosts ∨
    engine.config.tunnelAllowBindHosts ≠ [] ∧ host ∉ engine.config.tunnelAllowBindHosts

/-- Some entry of the list is found in the host. -/
def SomeFound (entries : List String) (host : String) : Prop :=
  ∃ entry ∈ entries, FoundIn entry host

instance (entries : List String) (host : String) : Decidable (SomeFound entries host) :=
  inferInstanceAs (Decidable (∃ entry ∈ entries, FoundIn entry host))

theorem someFound_of_mem {entries : List String} {host : String} (h : host ∈ entries) :
    SomeFound entries host :=
  ⟨host, h, foundIn_self host⟩

/-- In the empty host only the empty entry is found. -/
theorem mem_of_someFound_empty {entries : List String} (h : SomeFound entries "") :
    "" ∈ entries := by
  obtain ⟨entry, hentry, before, found, after, hunits, hglobs⟩ := h
  obtain ⟨-, hrest⟩ := List.append_eq_nil_iff.mp hunits.symm
  obtain ⟨rfl, -⟩ := List.append_eq_nil_iff.mp hrest
  have hempty : entry = "" := by
    refine JsText.units_injective ?_
    cases hus : JsText.units entry with
    | nil => rfl
    | cons =>
      rw [hus, List.map_cons, literalToken] at hglobs
      split at hglobs
      · obtain ⟨_, _, heq, -⟩ := globs_one_iff.mp hglobs
        cases heq
      · obtain ⟨_, heq, -⟩ := globs_char_iff.mp hglobs
        cases heq
  exact hempty ▸ hentry

/-- **A literal list matches the hosts in which an entry is found.** -/
theorem matchesPolicyValue_iff (hrt : rt.TestsLiterals) {entries : List String}
    (h : ∀ entry ∈ entries, IsLiteralHost entry) {host : String} :
    matchesPolicyValue rt host entries = true ↔ SomeFound entries host := by
  unfold matchesPolicyValue matchesAny
  rw [List.any_eq_true]
  refine exists_congr fun entry => and_congr_right fun hentry => ?_
  rw [Bool.or_eq_true, decide_eq_true_iff, List.any_cons, List.any_nil, Bool.or_false,
    hrt entry (h entry hentry), literalTest_iff]
  refine or_iff_right_of_imp ?_
  rintro rfl
  exact foundIn_self entry

theorem bindHostDenial_ne_none_iff (hrt : rt.TestsLiterals)
    (hdeny : ∀ entry ∈ engine.config.tunnelDenyBindHosts, IsLiteralHost entry)
    (hallow : ∀ entry ∈ engine.config.tunnelAllowBindHosts, IsLiteralHost entry)
    {context : PolicyContext} {host : String} (hhost : context.localBindHost = some host) :
    engine.bindHostDenial context ≠ none ↔
      host ≠ "" ∧ (SomeFound engine.config.tunnelDenyBindHosts host ∨
        engine.config.tunnelAllowBindHosts ≠ [] ∧
          ¬SomeFound engine.config.tunnelAllowBindHosts host) := by
  unfold bindHostDenial
  rw [hhost]
  by_cases hempty : host = ""
  · subst hempty
    exact iff_of_false (fun h => h rfl) fun h => h.1 rfl
  rw [truthy_some hempty, Option.bind_eq_bind, Option.bind_some, tunnelListDenial_ne_none_iff,
    matchesPolicyValue_iff hrt hdeny, matchesPolicyValue_iff hrt hallow]
  refine ⟨fun h => ⟨hempty, h.imp_left And.right⟩, fun h => h.2.imp_left fun hfound => ⟨?_, hfound⟩⟩
  obtain ⟨entry, hentry, -⟩ := hfound
  exact List.ne_nil_of_mem hentry

/-! ### Exact hosts -/

/-- **The lists are read as lists of hosts.** -/
structure ReadsExactly (context : PolicyContext) (host : String) : Prop where
  /-- A refused host is looked at: the checks come to it, and it is not empty. -/
  reached : engine.Refuses host → engine.AdmitsHost context ∧ host ≠ ""
  /-- A host that is missing among the allowed ones has none of them in it, or has a denied one in
  it as well. -/
  no_false_allow : engine.Refuses host → host ∉ engine.config.tunnelDenyBindHosts →
    SomeFound engine.config.tunnelAllowBindHosts host →
      SomeFound engine.config.tunnelDenyBindHosts host
  /-- A host that is not refused has no denied one in it. -/
  no_false_deny : ¬engine.Refuses host → engine.AdmitsHost context →
    ¬SomeFound engine.config.tunnelDenyBindHosts host

/-- **When literal lists mean exact hosts.** -/
theorem bind_host_lists_exact_iff (hrt : rt.TestsLiterals)
    (hdeny : ∀ entry ∈ engine.config.tunnelDenyBindHosts, IsLiteralHost entry)
    (hallow : ∀ entry ∈ engine.config.tunnelAllowBindHosts, IsLiteralHost entry)
    {context : PolicyContext}
    (haction : context.action = .tunnelLocal ∨ context.action = .tunnelRemote)
    {host : String} (hhost : context.localBindHost = some host) (files : String → Option String) :
    (engine.DeniedForBindHost files context ↔ engine.Refuses host) ↔
      engine.ReadsExactly context host := by
  rw [engine.deniedForBindHost_iff haction, engine.hostDenial_none_iff_admits,
    engine.bindHostDenial_ne_none_iff hrt hdeny hallow hhost]
  constructor
  · intro hexact
    constructor
    · intro hrefuses
      obtain ⟨hadmits, hne, -⟩ := hexact.mpr hrefuses
      exact ⟨hadmits, hne⟩
    · intro hrefuses hnot hfound
      obtain ⟨-, -, hdenied | hoff⟩ := hexact.mpr hrefuses
      · exact hdenied
      · exact absurd hfound hoff.2
    · intro hrefuses hadmits hfound
      refine hrefuses (hexact.mp ⟨hadmits, ?_, .inl hfound⟩)
      rintro rfl
      exact hrefuses (.inl (mem_of_someFound_empty hfound))
  · intro hreads
    constructor
    · rintro ⟨hadmits, hne, hdenied | ⟨hnonempty, hoff⟩⟩
      · by_contra hrefuses
        exact hreads.no_false_deny hrefuses hadmits hdenied
      · exact .inr ⟨hnonempty, fun hmem => hoff (someFound_of_mem hmem)⟩
    · intro hrefuses
      obtain ⟨hadmits, hne⟩ := hreads.reached hrefuses
      refine ⟨hadmits, hne, ?_⟩
      by_cases hmem : host ∈ engine.config.tunnelDenyBindHosts
      · exact .inl (someFound_of_mem hmem)
      by_cases hfound : SomeFound engine.config.tunnelAllowBindHosts host
      · exact .inl (hreads.no_false_allow hrefuses hmem hfound)
      · obtain ⟨hnonempty, -⟩ := hrefuses.resolve_left hmem
        exact .inr ⟨hnonempty, hfound⟩

/-! ### Samples -/

/-- A runtime that tests every pattern as a literal one. -/
def literalRuntime : Runtime :=
  { decimalRuntime with regExpTest := fun pattern _ value => literalTest pattern value }

/-- The bind hosts of `DEFAULT_CONFIG`. -/
def defaultBindHosts : PolicyConfig :=
  { tunnelAllowBindHosts := ["127.0.0.1", "localhost", "::1"]
    tunnelDenyBindHosts := ["0.0.0.0", "::"] }

/-- A tunnel on the host. -/
def tunnelOn (host : String) : PolicyContext :=
  { action := .tunnelLocal, localBindHost := some host }

theorem exists_defaultBindHosts :
    ∃ engine : PolicyEngine literalRuntime, engine.config = defaultBindHosts :=
  exists_engine literalRuntime defaultBindHosts (by decide) (by decide) ⟨rfl, rfl⟩

/-- By default, a tunnel on `localhost` is not denied, and the lists do not refuse it. -/
theorem bind_host_lists_exact_localhost : ∃ engine : PolicyEngine literalRuntime,
    engine.config = defaultBindHosts ∧
      (engine.DeniedForBindHost literalRuntime.realpathSync (tunnelOn "localhost") ↔
        engine.Refuses "localhost") := by
  obtain ⟨engine, hengine⟩ := exists_defaultBindHosts
  refine ⟨engine, hengine, ?_⟩
  have hrefuses : ¬engine.Refuses "localhost" := by
    unfold Refuses
    rw [hengine]
    decide
  refine (engine.bind_host_lists_exact_iff (fun _ _ _ => rfl) (by rw [hengine]; decide)
    (by rw [hengine]; decide) (.inl rfl) rfl _).mpr ?_
  refine ⟨fun h => absurd h hrefuses, fun h => absurd h hrefuses, fun _ _ => ?_⟩
  rw [hengine]
  decide

/-- By default, a tunnel on `::1` is denied for its bind host, which is in the list of the allowed
ones and not in that of the denied. -/
theorem allowed_address_denied : ∃ engine : PolicyEngine literalRuntime,
    engine.config = defaultBindHosts ∧
      engine.DeniedForBindHost literalRuntime.realpathSync (tunnelOn "::1") ∧
      ¬engine.Refuses "::1" := by
  obtain ⟨engine, hengine⟩ := exists_defaultBindHosts
  refine ⟨engine, hengine, ?_, ?_⟩
  · rw [engine.deniedForBindHost_iff (.inl rfl)]
    unfold hostDenial bindHostDenial
    rw [hengine]
    decide
  · unfold Refuses
    rw [hengine]
    decide

end PolicyEngine
end Ssh
