import McpSshTool.Library.AccessList
import McpSshTool.Ssh.Policy

/-!
# Comparing policies

When one configuration permits no more than another. The checks of an action are independent of each
other: each is about one part of the action and one access list or flag of the configuration.

* `Grants` — what the checks ask of an action, rule by rule; `permitsWith_iff` — the order they are
  made in does not matter;
* `Refines` — one engine grants no more than another, rule by rule;
* `refines_iff` — that is so exactly where every action the one permits is permitted by the other;
* `PolicyConfig.Tightens` — flags are taken back, entries are added to lists that deny and taken
  from lists that allow, none of which is emptied unless nothing passes an empty one;
* `permits_of_tightens` — tightening a configuration never permits more.
-/

open Library LexicalPath

namespace Ssh

/-! ### The rules of a configuration -/

/-- An entry for hosts is the host itself or a pattern for it. -/
def hostHits (rt : Runtime) (entry host : String) : Prop :=
  entry = host ∨ matchesAny rt host [entry] = true

/-- An entry for commands is a pattern. -/
def commandHits (rt : Runtime) (entry command : String) : Prop :=
  matchesAny rt command [entry] = true

/-- An entry for ports is a port or a range. -/
def portHits (entry : String) (port : ℕ) : Prop := matchesPortPolicy port [entry] = true

/-- A prefix covers a location. -/
def locationHits (entry loc : List Segment) : Prop := entry <+: loc

/-- A local prefix covers a path. -/
def localHits (entry path : String) : Prop := isPathUnder path entry "/" = true

/-- What passes an open list in which nothing is listed as allowed. -/
def anything {α : Type} (_ : α) : Prop := True

/-- What passes a closed one. -/
def nothing {α : Type} (_ : α) : Prop := False

/-- What passes where no prefixes for destructive operations are listed. -/
def underDefaults (loc : List Segment) : Prop :=
  ∃ a ∈ defaultAllowedMutationPrefixes.map policyLocation, a <+: loc

namespace PolicyConfig

variable (config : PolicyConfig)

def hosts : AccessList String := ⟨[], config.allowedHosts⟩

def bindHosts : AccessList String := ⟨config.tunnelDenyBindHosts, config.tunnelAllowBindHosts⟩

def remoteHosts : AccessList String := ⟨config.tunnelDenyRemoteHosts, config.tunnelAllowRemoteHosts⟩

def ports : AccessList String := ⟨config.tunnelDenyPorts, config.tunnelAllowPorts⟩

def commands : AccessList String := ⟨config.commandDeny, config.commandAllow⟩

/-- The prefixes of remote paths, as locations. -/
def locations : AccessList (List Segment) :=
  ⟨config.pathDenyPrefixes.map policyLocation, config.pathAllowPrefixes.map policyLocation⟩

end PolicyConfig

/-- The action is a tunnel. -/
def PolicyContext.IsTunnel (context : PolicyContext) : Prop :=
  context.action = .tunnelLocal ∨ context.action = .tunnelRemote

namespace PolicyEngine

variable {rt : Runtime} (engine : PolicyEngine rt)

def localPaths : AccessList String := ⟨engine.localPathDenyPrefixes, engine.localPathAllowPrefixes⟩

/-- What a command has to be. -/
def GrantsCommand (command : String) : Prop :=
  engine.config.commands.Admits (commandHits rt) anything command ∧
    (checkCommandSafety rt command ≠ none → engine.config.allowDestructiveCommands = true)

/-- What a path on the remote host has to be: only a destructive operation is held to the prefixes
that allow. -/
def GrantsPath (isDestructiveFs : Bool) (path : String) : Prop :=
  Char.ofNat 0 ∉ path.toList ∧
    (∀ a ∈ engine.config.locations.deny, ¬locationHits a (policyLocation path)) ∧
    (isDestructiveFs = true → engine.config.allowDestructiveFs = false →
      engine.config.locations.Admits locationHits underDefaults (policyLocation path))

/-- What a path on the server's own machine has to be. -/
def GrantsLocalPath (files : String → Option String) (path : String) : Prop :=
  ∃ normalized, normalizeLocalPolicyPath { rt with realpathSync := files } path = some normalized ∧
    engine.localPaths.Admits localHits nothing normalized

/-- **What the checks ask of an action**, rule by rule. -/
structure Grants (files : String → Option String) (context : PolicyContext) : Prop where
  host : ∀ host, truthy context.host = some host →
    engine.config.hosts.Admits (hostHits rt) anything host
  bindHost : context.IsTunnel → ∀ host, truthy context.localBindHost = some host →
    engine.config.bindHosts.Admits (hostHits rt) anything host
  remoteHost : context.IsTunnel → ∀ host, truthy context.remoteHost = some host →
    engine.config.remoteHosts.Admits (hostHits rt) anything host
  port : context.IsTunnel → ∀ port, context.localPort = some port ∨ context.remotePort = some port →
    engine.config.ports.Admits portHits anything port
  root : context.username = some "root" → engine.config.allowRootLogin = true
  rawSudo : context.rawSudo = true → engine.config.allowRawSudo = true
  command : ∀ command, truthy context.command = some command → engine.GrantsCommand command
  path : context.action ∉ localTransferActions → ∀ p ∈ context.paths,
    engine.GrantsPath context.isDestructiveFs p
  localPath : context.action ∈ localTransferActions → ∀ p ∈ context.paths,
    engine.GrantsLocalPath files p

/-! ### The checks, one by one -/

theorem matchesAny_iff_hits (value : String) (patterns : List String) :
    matchesAny rt value patterns = true ↔ ∃ r ∈ patterns, commandHits rt r value := by
  simp [matchesAny, commandHits]

theorem matchesPolicyValue_iff_hits (value : String) (policies : List String) :
    matchesPolicyValue rt value policies = true ↔ ∃ r ∈ policies, hostHits rt r value := by
  simp [matchesPolicyValue, hostHits]

theorem matchesPortPolicy_iff_hits (port : ℕ) (policies : List String) :
    matchesPortPolicy port policies = true ↔ ∃ r ∈ policies, portHits r port := by
  simp [matchesPortPolicy, portHits]

/-- A check against a list that denies and an open list that allows. -/
theorem tunnelListDenial_eq_none_iff {α : Type} {hits : String → α → Prop} {a : α}
    {isIn : List String → Bool} (hisIn : ∀ l, isIn l = true ↔ ∃ r ∈ l, hits r a)
    (deny allow : List String) (subject denyHint allowHint : String) :
    tunnelListDenial isIn deny allow subject denyHint allowHint = none ↔
      (AccessList.mk deny allow).Admits hits anything a := by
  unfold tunnelListDenial AccessList.Admits anything
  have hdeny : (deny ≠ [] ∧ isIn deny = true) ↔ ∃ r ∈ deny, hits r a := by
    rw [hisIn]
    refine and_iff_right_of_imp ?_
    rintro ⟨r, hr, -⟩ rfl
    cases hr
  have hallow : isIn allow = false ↔ ¬∃ r ∈ allow, hits r a := by rw [← hisIn, Bool.not_eq_true]
  by_cases hdenied : ∃ r ∈ deny, hits r a
  · rw [if_pos (hdeny.mpr hdenied)]
    refine iff_of_false (by simp) fun h => ?_
    obtain ⟨r, hr, hhits⟩ := hdenied
    exact h.1 r hr hhits
  · rw [if_neg (mt hdeny.mp hdenied)]
    have hnone : ∀ r ∈ deny, ¬hits r a := fun r hr hhits => hdenied ⟨r, hr, hhits⟩
    by_cases hnil : allow = []
    · simpa [hnil] using hnone
    · by_cases hallowed : ∃ r ∈ allow, hits r a
      · have hin : isIn allow = true := (hisIn allow).mpr hallowed
        simp only [hin, Bool.not_true, Bool.false_eq_true, and_false, if_false, true_iff]
        exact ⟨hnone, by rw [if_neg hnil]; exact hallowed⟩
      · have hout : isIn allow = false := hallow.mpr hallowed
        simp [hout, hnil, hallowed]

theorem hostDenial_none_iff (context : PolicyContext) :
    engine.hostDenial context = none ↔ ∀ host, truthy context.host = some host →
      engine.config.hosts.Admits (hostHits rt) anything host := by
  unfold hostDenial
  cases truthy context.host with
  | none => simp
  | some host =>
    have hin : ∀ l, matchesPolicyValue rt host l = true ↔ ∃ r ∈ l, hostHits rt r host :=
      matchesPolicyValue_iff_hits host
    have h := tunnelListDenial_eq_none_iff hin [] engine.config.allowedHosts "" "" ""
    simp only [Option.bind_eq_bind, Option.bind_some, Option.some.injEq, forall_eq']
    rw [PolicyConfig.hosts, ← h]
    unfold tunnelListDenial matchesPolicyValue
    simp

theorem tunnelDenial_none_iff (context : PolicyContext) :
    engine.tunnelDenial context = none ↔ (context.IsTunnel →
      (∀ host, truthy context.localBindHost = some host →
        engine.config.bindHosts.Admits (hostHits rt) anything host) ∧
      (∀ host, truthy context.remoteHost = some host →
        engine.config.remoteHosts.Admits (hostHits rt) anything host) ∧
      ∀ port, context.localPort = some port ∨ context.remotePort = some port →
        engine.config.ports.Admits portHits anything port) := by
  unfold tunnelDenial PolicyContext.IsTunnel
  split
  · next htunnel =>
    simp only [htunnel, true_imp_iff, Option.or_eq_none_iff, and_assoc]
    refine and_congr ?_ (and_congr ?_ ?_)
    · cases truthy context.localBindHost with
      | none => simp
      | some host =>
        simp only [Option.bind_eq_bind, Option.bind_some, Option.some.injEq, forall_eq']
        exact tunnelListDenial_eq_none_iff (matchesPolicyValue_iff_hits host) _ _ _ _ _
    · cases truthy context.remoteHost with
      | none => simp
      | some host =>
        simp only [Option.bind_eq_bind, Option.bind_some, Option.some.injEq, forall_eq']
        exact tunnelListDenial_eq_none_iff (matchesPolicyValue_iff_hits host) _ _ _ _ _
    · rw [List.findSome?_eq_none_iff]
      have hmem : ∀ port, port ∈ [context.localPort, context.remotePort].filterMap id ↔
          context.localPort = some port ∨ context.remotePort = some port := by
        intro port
        simp [List.mem_filterMap, eq_comm]
      refine forall_congr' fun port => imp_congr (hmem port) ?_
      exact tunnelListDenial_eq_none_iff (matchesPortPolicy_iff_hits port) _ _ _ _ _
  · next htunnel => simp [htunnel]

theorem commandDenial_none_iff (context : PolicyContext) :
    engine.commandDenial context = none ↔
      ∀ command, truthy context.command = some command → engine.GrantsCommand command := by
  unfold commandDenial
  cases truthy context.command with
  | none => simp
  | some command =>
    have hin : ∀ l, matchesAny rt command l = true ↔ ∃ r ∈ l, commandHits rt r command :=
      matchesAny_iff_hits command
    have h := tunnelListDenial_eq_none_iff hin engine.config.commandDeny engine.config.commandAllow
      "" "" ""
    simp only [Option.bind_eq_bind, Option.bind_some, Option.some.injEq, forall_eq']
    unfold GrantsCommand
    rw [PolicyConfig.commands, ← h]
    unfold tunnelListDenial
    split
    · simp
    · split
      · simp
      · cases checkCommandSafety rt command with
        | none => simp
        | some => simp

theorem pathDenial_none_iff (isDestructiveFs : Bool) (path : String) :
    engine.pathDenial isDestructiveFs path = none ↔ engine.GrantsPath isDestructiveFs path := by
  rw [pathDenial_eq_none_iff]
  unfold GrantsPath
  refine and_congr_right fun _ => ?_
  have hdeny : ¬engine.DenyCovers (policyLocation path) ↔
      ∀ a ∈ engine.config.locations.deny, ¬locationHits a (policyLocation path) := by
    unfold DenyCovers
    push Not
    exact .rfl
  rw [hdeny]
  refine and_congr_right fun hnone => imp_congr_right fun _ => imp_congr_right fun _ => ?_
  unfold AllowCovers allowLocations AccessList.Admits PolicyConfig.locations
  dsimp only
  by_cases hnil : engine.config.pathAllowPrefixes = []
  · rw [if_pos hnil, if_pos (List.map_eq_nil_iff.mpr hnil)]
    exact (and_iff_right hnone).symm
  · rw [if_neg hnil, if_neg (mt List.map_eq_nil_iff.mp hnil)]
    exact (and_iff_right hnone).symm

theorem localPathDenial_none_iff (files : String → Option String) (path : String) :
    engine.localPathDenial files path = none ↔ engine.GrantsLocalPath files path := by
  unfold localPathDenial GrantsLocalPath
  cases normalizeLocalPolicyPath { rt with realpathSync := files } path with
  | none => simp
  | some normalized =>
    have hany : ∀ l : List String, (l.any fun p => isPathUnder normalized p "/") = true ↔
        ∃ r ∈ l, localHits r normalized := by
      intro l
      exact List.any_eq_true
    simp only [Option.some.injEq, exists_eq_left']
    unfold AccessList.Admits nothing localPaths
    dsimp only
    by_cases hdenied : ∃ r ∈ engine.localPathDenyPrefixes, localHits r normalized
    · rw [if_pos ((hany _).mpr hdenied)]
      refine iff_of_false (by simp) fun h => ?_
      obtain ⟨r, hr, hhits⟩ := hdenied
      exact h.1 r hr hhits
    · rw [if_neg (mt (hany _).mp hdenied)]
      have hnone : ∀ r ∈ engine.localPathDenyPrefixes, ¬localHits r normalized :=
        fun r hr hhits => hdenied ⟨r, hr, hhits⟩
      by_cases hnil : engine.localPathAllowPrefixes = []
      · rw [if_pos (by rw [hnil, List.length_nil]), if_pos hnil]
        exact iff_of_false (by simp) fun h => h.2
      · rw [if_neg (mt List.length_eq_zero_iff.mp hnil), if_neg hnil]
        by_cases hallowed : ∃ r ∈ engine.localPathAllowPrefixes, localHits r normalized
        · rw [if_neg (by simpa using (hany _).mpr hallowed)]
          exact iff_of_true rfl ⟨hnone, hallowed⟩
        · rw [if_pos (by simpa using mt (hany _).mp hallowed)]
          exact iff_of_false (by simp) fun h => hallowed h.2

/-- **The order of the checks does not matter**: an action is permitted if every rule grants it. -/
theorem permitsWith_iff (files : String → Option String) (context : PolicyContext) :
    engine.PermitsWith files context ↔ engine.Grants files context := by
  have hnone : engine.PermitsWith files context ↔ engine.denialWith files context = none := by
    unfold PermitsWith evaluateWith
    cases engine.denialWith files context with
    | none => exact iff_of_true rfl rfl
    | some => simp
  have hpaths : engine.pathsDenial files context = none ↔
      (context.action ∉ localTransferActions → ∀ p ∈ context.paths,
        engine.GrantsPath context.isDestructiveFs p) ∧
      (context.action ∈ localTransferActions → ∀ p ∈ context.paths,
        engine.GrantsLocalPath files p) := by
    unfold pathsDenial
    split
    · next hlocal =>
      simp only [hlocal, not_true_eq_false, false_imp_iff, true_imp_iff, true_and,
        List.findSome?_eq_none_iff, localPathDenial_none_iff]
    · next hremote =>
      simp only [hremote, not_false_eq_true, false_imp_iff, true_imp_iff, and_true,
        List.findSome?_eq_none_iff, pathDenial_none_iff]
  have hroot : engine.rootDenial context = none ↔
      (context.username = some "root" → engine.config.allowRootLogin = true) := by
    unfold rootDenial
    split <;> simp_all
  have hsudo : engine.rawSudoDenial context = none ↔
      (context.rawSudo = true → engine.config.allowRawSudo = true) := by
    unfold rawSudoDenial
    split <;> simp_all
  rw [hnone, denialWith]
  simp only [Option.or_eq_none_iff, and_assoc]
  -- every check contributes its rule, in the order of the checks
  rw [hostDenial_none_iff, tunnelDenial_none_iff, hroot, hsudo, commandDenial_none_iff, hpaths]
  constructor
  · rintro ⟨hhost, htunnel, hroot, hsudo, hcommand, hpath, hlocal⟩
    exact ⟨hhost, fun h => (htunnel h).1, fun h => (htunnel h).2.1, fun h => (htunnel h).2.2, hroot,
      hsudo, hcommand, hpath, hlocal⟩
  · intro h
    exact ⟨h.host, fun ht => ⟨h.bindHost ht, h.remoteHost ht, h.port ht⟩, h.root,
      h.rawSudo, h.command, h.path, h.localPath⟩

/-! ### Refinement -/

/-- **One engine grants no more than another**, rule by rule. -/
structure Refines (engine' engine : PolicyEngine rt) : Prop where
  host : ∀ host, host ≠ "" → engine'.config.hosts.Admits (hostHits rt) anything host →
    engine.config.hosts.Admits (hostHits rt) anything host
  bindHost : ∀ host, host ≠ "" → engine'.config.bindHosts.Admits (hostHits rt) anything host →
    engine.config.bindHosts.Admits (hostHits rt) anything host
  remoteHost : ∀ host, host ≠ "" → engine'.config.remoteHosts.Admits (hostHits rt) anything host →
    engine.config.remoteHosts.Admits (hostHits rt) anything host
  port : ∀ port, engine'.config.ports.Admits portHits anything port →
    engine.config.ports.Admits portHits anything port
  root : engine'.config.allowRootLogin = true → engine.config.allowRootLogin = true
  rawSudo : engine'.config.allowRawSudo = true → engine.config.allowRawSudo = true
  command : ∀ command, command ≠ "" → engine'.GrantsCommand command → engine.GrantsCommand command
  path : ∀ isDestructiveFs p, p ≠ "" → engine'.GrantsPath isDestructiveFs p →
    engine.GrantsPath isDestructiveFs p
  localPath : ∀ files p, p ≠ "" → engine'.GrantsLocalPath files p → engine.GrantsLocalPath files p

theorem mem_paths {context : PolicyContext} {p : String} (h : p ∈ context.paths) : p ≠ "" := by
  obtain ⟨o, -, ho⟩ := List.mem_filterMap.mp h
  unfold truthy at ho
  simpa using (Option.filter_eq_some_iff.mp ho).2

theorem truthy_ne {value : Option String} {text : String} (h : truthy value = some text) :
    text ≠ "" := by
  unfold truthy at h
  simpa using (Option.filter_eq_some_iff.mp h).2

theorem Refines.grants {engine' engine : PolicyEngine rt} (h : Refines engine' engine)
    {files : String → Option String} {context : PolicyContext} (hg : engine'.Grants files context) :
    engine.Grants files context where
  host host hhost := h.host host (truthy_ne hhost) (hg.host host hhost)
  bindHost ht host hhost := h.bindHost host (truthy_ne hhost) (hg.bindHost ht host hhost)
  remoteHost ht host hhost := h.remoteHost host (truthy_ne hhost) (hg.remoteHost ht host hhost)
  port ht port hport := h.port port (hg.port ht port hport)
  root hroot := h.root (hg.root hroot)
  rawSudo hsudo := h.rawSudo (hg.rawSudo hsudo)
  command command hcommand := h.command command (truthy_ne hcommand) (hg.command command hcommand)
  path hremote p hp := h.path _ p (mem_paths hp) (hg.path hremote p hp)
  localPath hlocal p hp := h.localPath files p (mem_paths hp) (hg.localPath hlocal p hp)

/-! ### An action for each rule -/

section Probes

variable {engine} {files : String → Option String}

theorem grants_blank : engine.Grants files { action := .procExec } where
  host _ h := by cases h
  bindHost h := by rcases h with h | h <;> cases h
  remoteHost h := by rcases h with h | h <;> cases h
  port h := by rcases h with h | h <;> cases h
  root h := by cases h
  rawSudo h := by cases h
  command _ h := by cases h
  path _ p hp := by cases hp
  localPath h := absurd h (show _ ∉ localTransferActions by decide)

theorem grants_blankTunnel : engine.Grants files { action := .tunnelLocal } where
  host _ h := by cases h
  bindHost _ _ h := by cases h
  remoteHost _ _ h := by cases h
  port _ _ h := by rcases h with h | h <;> cases h
  root h := by cases h
  rawSudo h := by cases h
  command _ h := by cases h
  path _ p hp := by cases hp
  localPath h := absurd h (show _ ∉ localTransferActions by decide)

/-- An action on one remote path is granted if the path is. -/
theorem grants_path_iff {destructive : Bool} {p : String} (hp : p ≠ "") :
    engine.Grants files { action := .procExec, path := some p, destructive := destructive } ↔
      engine.GrantsPath destructive p := by
  have hpaths : ({ action := .procExec, path := some p, destructive := destructive } :
      PolicyContext).paths = [p] := by
    simp [PolicyContext.paths, truthy_some hp]
  have hdestructive : ({ action := .procExec, path := some p, destructive := destructive } :
      PolicyContext).isDestructiveFs = destructive := by
    simp [PolicyContext.isDestructiveFs]
  constructor
  · intro h
    have hremote : PolicyAction.procExec ∉ localTransferActions := by decide
    have hpath := h.path hremote p (by rw [hpaths]; exact List.mem_singleton_self p)
    rwa [hdestructive] at hpath
  · intro h
    refine { (grants_blank : engine.Grants files { action := .procExec }) with
      path := ?_, localPath := ?_ }
    · intro _ q hq
      rw [hpaths] at hq
      rw [hdestructive, List.mem_singleton.mp hq]
      exact h
    · intro hlocal
      exact absurd hlocal (show PolicyAction.procExec ∉ localTransferActions by decide)

/-- An action on one local path is granted if the path is. -/
theorem grants_localPath_iff {p : String} (hp : p ≠ "") :
    engine.Grants files { action := .transferLocalRead, path := some p } ↔
      engine.GrantsLocalPath files p := by
  have hpaths : ({ action := .transferLocalRead, path := some p } : PolicyContext).paths = [p] := by
    simp [PolicyContext.paths, truthy_some hp]
  constructor
  · intro h
    exact h.localPath (show PolicyAction.transferLocalRead ∈ _ by decide) p
      (by rw [hpaths]; exact List.mem_singleton_self p)
  · intro h
    refine { (grants_blank : engine.Grants files { action := .procExec }) with
      bindHost := ?_, remoteHost := ?_, port := ?_, path := ?_, localPath := ?_ }
    · intro ht
      rcases ht with ht | ht <;> cases ht
    · intro ht
      rcases ht with ht | ht <;> cases ht
    · intro ht
      rcases ht with ht | ht <;> cases ht
    · intro hremote
      exact absurd (show PolicyAction.transferLocalRead ∈ localTransferActions by decide) hremote
    · intro _ q hq
      rw [hpaths] at hq
      rw [List.mem_singleton.mp hq]
      exact h

end Probes

/-- **When one policy permits no more than another**: exactly where it grants no more, rule by
rule. -/
theorem refines_iff (engine' engine : PolicyEngine rt) :
    (∀ files context, engine'.PermitsWith files context → engine.PermitsWith files context) ↔
      Refines engine' engine := by
  simp only [permitsWith_iff]
  constructor
  · intro h
    -- each rule is probed with an action that no other rule is about
    have probe := fun {context : PolicyContext} (hg : engine'.Grants (fun _ => none) context) =>
      h (fun _ => none) context hg
    refine ⟨fun host hne hadmits => ?_, fun host hne hadmits => ?_, fun host hne hadmits => ?_,
      fun port hadmits => ?_, fun hroot => ?_, fun hsudo => ?_, fun command hne hgrants => ?_,
      fun destructive p hne hgrants => ?_, fun files p hne hgrants => ?_⟩
    · have hg : engine'.Grants (fun _ => none) { action := .procExec, host := some host } :=
        { (grants_blank : engine'.Grants (fun _ => none) { action := .procExec }) with
          host := fun found hfound => by
            rw [truthy_some hne] at hfound
            rw [← Option.some.inj hfound]
            exact hadmits }
      exact (probe hg).host host (truthy_some hne)
    · have hg : engine'.Grants (fun _ => none)
        { action := .tunnelLocal, localBindHost := some host } :=
        { (grants_blankTunnel : engine'.Grants (fun _ => none) { action := .tunnelLocal }) with
          bindHost := fun _ found hfound => by
            rw [truthy_some hne] at hfound
            rw [← Option.some.inj hfound]
            exact hadmits }
      exact (probe hg).bindHost (.inl rfl) host (truthy_some hne)
    · have hg : engine'.Grants (fun _ => none)
        { action := .tunnelLocal, remoteHost := some host } :=
        { (grants_blankTunnel : engine'.Grants (fun _ => none) { action := .tunnelLocal }) with
          remoteHost := fun _ found hfound => by
            rw [truthy_some hne] at hfound
            rw [← Option.some.inj hfound]
            exact hadmits }
      exact (probe hg).remoteHost (.inl rfl) host (truthy_some hne)
    · have hg : engine'.Grants (fun _ => none) { action := .tunnelLocal, localPort := some port } :=
        { (grants_blankTunnel : engine'.Grants (fun _ => none) { action := .tunnelLocal }) with
          port := fun _ found hfound => by
            rcases hfound with hfound | hfound
            · rw [← Option.some.inj hfound]
              exact hadmits
            · cases hfound }
      exact (probe hg).port (.inl rfl) port (.inl rfl)
    · have hg : engine'.Grants (fun _ => none) { action := .procExec, username := some "root" } :=
        { (grants_blank : engine'.Grants (fun _ => none) { action := .procExec }) with
          root := fun _ => hroot }
      exact (probe hg).root rfl
    · have hg : engine'.Grants (fun _ => none) { action := .procExec, rawSudo := true } :=
        { (grants_blank : engine'.Grants (fun _ => none) { action := .procExec }) with
          rawSudo := fun _ => hsudo }
      exact (probe hg).rawSudo rfl
    · have hg : engine'.Grants (fun _ => none) { action := .procExec, command := some command } :=
        { (grants_blank : engine'.Grants (fun _ => none) { action := .procExec }) with
          command := fun found hfound => by
            rw [truthy_some hne] at hfound
            rw [← Option.some.inj hfound]
            exact hgrants }
      exact (probe hg).command command (truthy_some hne)
    · exact (grants_path_iff hne).mp (probe ((grants_path_iff hne).mpr hgrants))
    · exact (grants_localPath_iff hne).mp (h files _ ((grants_localPath_iff hne).mpr hgrants))
  · intro h files context hg
    exact h.grants hg

/-! ### Tightening a configuration -/

end PolicyEngine

/-- **A configuration is tightened**: flags are taken back, entries are added to lists that deny and
taken from lists that allow. An open list is not emptied, and the prefixes of destructive operations
are emptied only if they have covered the default ones. -/
structure PolicyConfig.Tightens (rt : Runtime) (config' config : PolicyConfig) : Prop where
  root : config'.allowRootLogin = true → config.allowRootLogin = true
  rawSudo : config'.allowRawSudo = true → config.allowRawSudo = true
  destructiveCommands : config'.allowDestructiveCommands = true →
    config.allowDestructiveCommands = true
  destructiveFs : config'.allowDestructiveFs = true → config.allowDestructiveFs = true
  hosts : AccessList.Tightens (hostHits rt) anything config'.hosts config.hosts
  bindHosts : AccessList.Tightens (hostHits rt) anything config'.bindHosts config.bindHosts
  remoteHosts : AccessList.Tightens (hostHits rt) anything config'.remoteHosts config.remoteHosts
  ports : AccessList.Tightens portHits anything config'.ports config.ports
  commands : AccessList.Tightens (commandHits rt) anything config'.commands config.commands
  locations : AccessList.Tightens locationHits underDefaults config'.locations config.locations
  localDeny : config.localPathDenyPrefixes ⊆ config'.localPathDenyPrefixes
  localAllow : config'.localPathAllowPrefixes ⊆ config.localPathAllowPrefixes

namespace PolicyEngine

variable {rt : Runtime}

theorem normalizePolicyPaths_subset {paths paths' out out' : List String}
    {normalizer : String → Option String} (h : normalizePolicyPaths paths normalizer = some out)
    (h' : normalizePolicyPaths paths' normalizer = some out') (hsubset : paths ⊆ paths') :
    out ⊆ out' := by
  intro value hvalue
  obtain ⟨p, hp, hnormal⟩ := (mem_normalizePolicyPaths h value).mp hvalue
  exact (mem_normalizePolicyPaths h' value).mpr ⟨p, hsubset hp, hnormal⟩

theorem refines_of_tightens {engine' engine : PolicyEngine rt}
    (h : PolicyConfig.Tightens rt engine'.config engine.config) : Refines engine' engine where
  host _ _ := h.hosts.admits
  bindHost _ _ := h.bindHosts.admits
  remoteHost _ _ := h.remoteHosts.admits
  port _ := h.ports.admits
  root := h.root
  rawSudo := h.rawSudo
  command _ _ hg := ⟨h.commands.admits hg.1, fun hdanger => h.destructiveCommands (hg.2 hdanger)⟩
  path isDestructiveFs p _ hg := by
    obtain ⟨hnul, hdeny, hallow⟩ := hg
    refine ⟨hnul, fun a ha => hdeny a (h.locations.deny ha), fun hdestructive hflag => ?_⟩
    have hflag' : engine'.config.allowDestructiveFs = false := by
      cases hcase : engine'.config.allowDestructiveFs with
      | false => rfl
      | true =>
        rw [h.destructiveFs hcase] at hflag
        cases hflag
    exact h.locations.admits (hallow hdestructive hflag')
  localPath files p _ hg := by
    obtain ⟨normalized, hnormal, hadmits⟩ := hg
    refine ⟨normalized, hnormal, AccessList.Tightens.admits (.of_closed ?_ ?_) hadmits⟩
    · exact normalizePolicyPaths_subset engine.localDeny_eq engine'.localDeny_eq h.localDeny
    · exact normalizePolicyPaths_subset engine'.localAllow_eq engine.localAllow_eq h.localAllow

/-- **Tightening a configuration never permits more**, and whatever it lets pass in mode `enforce`
has passed before. -/
theorem permits_of_tightens (engine' engine : PolicyEngine rt)
    (h : PolicyConfig.Tightens rt engine'.config engine.config) (files : String → Option String)
    (context : PolicyContext) :
    (engine'.PermitsWith files context → engine.PermitsWith files context) ∧
      (context.mode.getD engine'.config.mode = .enforce →
        (∃ decision, engine'.assertAllowedWith files context = .ok decision) →
          ∃ decision, engine.assertAllowedWith files context = .ok decision) := by
  have hpermits : engine'.PermitsWith files context → engine.PermitsWith files context := by
    rw [permitsWith_iff, permitsWith_iff]
    exact (refines_of_tightens h).grants
  refine ⟨hpermits, ?_⟩
  rintro henforce ⟨decision, hdecision⟩
  obtain ⟨rfl, hpassed⟩ := engine'.assertAllowedWith_ok hdecision
  rw [evaluateWith_mode, henforce] at hpassed
  have hallowed : (engine.evaluateWith files context).allowed = true :=
    hpermits (hpassed.resolve_right PolicyMode.noConfusion)
  refine ⟨engine.evaluateWith files context, ?_⟩
  unfold assertAllowedWith
  simp [hallowed]

/-- Two hosts are allowed, then one of them. -/
theorem permits_of_tightens_hosts :
    ∃ engine' engine : PolicyEngine sampleRuntime,
      engine'.config = { allowedHosts := ["web"] } ∧
      engine.config = { allowedHosts := ["web", "db"] } ∧
      ∀ context, engine'.PermitsWith (fun _ => none) context →
        engine.PermitsWith (fun _ => none) context := by
  obtain ⟨engine', h'⟩ := exists_engine sampleRuntime { allowedHosts := ["web"] }
    (fun p hp => by cases hp) (fun p hp => by cases hp) ⟨rfl, rfl⟩
  obtain ⟨engine, h⟩ := exists_engine sampleRuntime { allowedHosts := ["web", "db"] }
    (fun p hp => by cases hp) (fun p hp => by cases hp) ⟨rfl, rfl⟩
  refine ⟨engine', engine, h', h, fun context => ?_⟩
  refine (permits_of_tightens engine' engine ?_ (fun _ => none) context).1
  rw [h', h]
  refine ⟨id, id, id, id, ?_, .refl _, .refl _, .refl _, .refl _, .refl _, ?_, ?_⟩
  · refine .of_filled (fun _ hr => hr) ?_ fun hnil => by cases hnil
    exact List.cons_subset_cons _ (List.nil_subset _)
  · exact fun _ hr => hr
  · exact fun _ hr => hr

end PolicyEngine
end Ssh
