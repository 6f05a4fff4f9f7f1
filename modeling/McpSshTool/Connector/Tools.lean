import McpSshTool.Http.Security
import McpSshTool.Js.Schema
import McpSshTool.Ssh.ConfigResolution
import McpSshTool.Ssh.Connector
import McpSshTool.Ssh.PolicyRefinement
import McpSshTool.Ssh.SessionManager
import McpSshTool.Ssh.ToolCalls

/-!
# The tools of the connector

`connector-profile.ts` and `tools/registry.ts`: which calls reach the connector's own tools, and
`connector.provider.ts`: the tools that only report.

* `dispatch` — a call by name, under the profile of the server: it is refused, or it is for a tool
  of the connector, or another provider is asked. Only the profile `full` gets as far as that,
  `dispatch_restricted`;
* `hostInspectSchema` — the arguments of `ssh_host_inspect`;
* `listHosts` — the aliases that `ssh_hosts_list` reports;
* `lists_what_it_explains_iff` — when the two tools agree about the aliases of a configuration: the
  list is closed by an empty `allowedHosts`, which leaves the policy open.
-/

open Library Ssh

namespace Connector

/-! ### Names -/

/-- `TOOL_ALIASES`. -/
def toolAliases : List (String × String) :=
  [("ssh.openSession", "ssh_open_session"), ("ssh.closeSession", "ssh_close_session"),
    ("proc.exec", "proc_exec"), ("proc.sudo", "proc_sudo"), ("fs.read", "fs_read"),
    ("fs.write", "fs_write"), ("fs.stat", "fs_stat"), ("fs.list", "fs_list"),
    ("fs.mkdirp", "fs_mkdirp"), ("fs.rmrf", "fs_rmrf"), ("fs.rename", "fs_rename"),
    ("ensure.package", "ensure_package"), ("ensure.service", "ensure_service"),
    ("ensure.linesInFile", "ensure_lines_in_file"), ("patch.apply", "patch_apply"),
    ("os.detect", "os_detect"), ("ssh.listSessions", "ssh_list_sessions"),
    ("ssh.ping", "ssh_ping"), ("ssh.listConfiguredHosts", "ssh_list_configured_hosts"),
    ("ssh.resolveHost", "ssh_resolve_host"), ("connector.status", "connector_status"),
    ("ssh.hostsList", "ssh_hosts_list"), ("ssh.policyExplain", "ssh_policy_explain"),
    ("ssh.hostInspect", "ssh_host_inspect"), ("ssh.mutationPlan", "ssh_mutation_plan")]

/-- The keys under which every object has something, though it has no member of that name. -/
def inheritedKeys : List String :=
  ["constructor", "__defineGetter__", "__defineSetter__", "hasOwnProperty", "__lookupGetter__",
    "__lookupSetter__", "isPrototypeOf", "propertyIsEnumerable", "toString", "valueOf", "__proto__",
    "toLocaleString"]

/-- `TOOL_ALIASES[rawToolName] ?? rawToolName`; `none` is a value that is no text. -/
def toolNameOf (rawToolName : String) : Option String :=
  match toolAliases.find? fun entry => entry.1 = rawToolName with
  | some entry => some entry.2
  | none => if rawToolName ∈ inheritedKeys then none else some rawToolName

/-- The tools of the connector. -/
inductive ConnectorTool where
  | status | hostsList | policyExplain | hostInspect | mutationPlan
deriving DecidableEq, Repr

/-- The name of a tool. -/
def ConnectorTool.name : ConnectorTool → String
  | status => "connector_status"
  | hostsList => "ssh_hosts_list"
  | policyExplain => "ssh_policy_explain"
  | hostInspect => "ssh_host_inspect"
  | mutationPlan => "ssh_mutation_plan"

/-- `REMOTE_CONNECTOR_TOOLS`. -/
def remoteConnectorTools : List String :=
  ["connector_status", "ssh_hosts_list", "ssh_policy_explain", "ssh_host_inspect",
    "ssh_mutation_plan"]

def isToolAllowedForProfile (toolName : Option String) (profile : Http.ToolProfile) : Bool :=
  profile = .full || toolName.any (· ∈ remoteConnectorTools)

/-- The tool of the connector that a name is for: the `switch` of its `handleTool`. -/
def connectorTool? (toolName : Option String) : Option ConnectorTool :=
  [.status, .hostsList, .policyExplain, .hostInspect, .mutationPlan].find? fun tool =>
    toolName = some tool.name

/-- Where a call goes. -/
inductive Dispatch where
  /-- `ETOOLPROFILE`. -/
  | refused (toolName : Option String)
  | connector (tool : ConnectorTool)
  /-- The providers behind the connector's are asked, one after another. -/
  | elsewhere (toolName : Option String)
deriving DecidableEq

/-- `dispatch`, as far as it decides where a call goes. The connector's provider is the first. -/
def dispatch (profile : Http.ToolProfile) (rawToolName : String) : Dispatch :=
  let toolName := toolNameOf rawToolName
  if !isToolAllowedForProfile toolName profile then .refused toolName
  else
    match connectorTool? toolName with
    | some tool => .connector tool
    | none => .elsewhere toolName

theorem connectorTool?_isSome_of_mem {toolName : String} (h : toolName ∈ remoteConnectorTools) :
    (connectorTool? (some toolName)).isSome = true := by
  simp only [remoteConnectorTools, List.mem_cons, List.not_mem_nil, or_false] at h
  rcases h with rfl | rfl | rfl | rfl | rfl <;> rfl

/-- **Under a restricted profile no other provider is asked**, whatever the name. -/
theorem dispatch_restricted {profile : Http.ToolProfile}
    (hprofile : Http.isRemoteSafeToolProfile profile = true) (rawToolName : String)
    (toolName : Option String) : dispatch profile rawToolName ≠ .elsewhere toolName := by
  intro h
  have hnot : (decide (profile = .full)) = false := by
    rw [Http.isRemoteSafeToolProfile] at hprofile
    exact decide_eq_false (of_decide_eq_true hprofile)
  unfold dispatch at h
  dsimp only at h
  split at h
  · cases h
  · next hallowed =>
    rw [Bool.not_eq_true', Bool.not_eq_false, isToolAllowedForProfile, hnot, Bool.false_or,
      Option.any_eq_true_iff_get] at hallowed
    obtain ⟨hsome, hmem⟩ := hallowed
    have htool := connectorTool?_isSome_of_mem (of_decide_eq_true hmem)
    rw [Option.some_get] at htool
    split at h
    · cases h
    · next hnone =>
      rw [hnone] at htool
      cases htool

/-! ### Arguments -/

/-- `HostInspectSchema`, parsed. A check that is absent is that of the operating system. -/
structure HostInspectInput where
  hostAlias : String
  checks : List (Option InspectionCheck)
  hostAlias_ne : hostAlias ≠ ""
  checks_length : 1 ≤ checks.length ∧ checks.length ≤ 4

/-- `z.enum(["os", "uptime", "disk", "memory"])`. -/
def checkSchema : Schema (Option InspectionCheck)
  | .str "os" => some none
  | .str "uptime" => some (some .uptime)
  | .str "disk" => some (some .disk)
  | .str "memory" => some (some .memory)
  | _ => none

/-- The `checks` of `HostInspectSchema`, with their default. -/
def checksSchema : Schema (List (Option InspectionCheck))
  | .undefined => some [none]
  | value => Schema.array checkSchema value

/-- `HostInspectSchema.parse`, or what it throws. -/
def hostInspectSchema : Schema HostInspectInput := fun value => do
  let fields ← Schema.record value
  let hostAlias ← Schema.string ((Value.obj fields).member "hostAlias")
  let checks ← checksSchema ((Value.obj fields).member "checks")
  if h : hostAlias ≠ "" ∧ 1 ≤ checks.length ∧ checks.length ≤ 4 then
    some ⟨hostAlias, checks, h.1, h.2⟩
  else none

/-! ### The tools that report -/

section Reports

variable {rt : Runtime} (engine : PolicyEngine rt)

/-- `isHostAllowed`. An expression that cannot be read matches nothing. -/
def isHostAllowed (rt : Runtime) (hostAlias : String) (allowedHosts : List String) : Bool :=
  if allowedHosts.length = 0 then false
  else allowedHosts.any fun allowed => allowed = hostAlias || rt.regExpTest allowed "" hostAlias

def getAllHosts (hosts : OrderedMap String SSHHostConfig) : List String :=
  hosts.keys.filter fun host => host ≠ "*"

/-- The aliases that `listHosts` reports. -/
def listHosts (rt : Runtime) (allowedHosts configuredHosts : List String) : List String :=
  configuredHosts.filter fun hostAlias => isHostAllowed rt hostAlias allowedHosts

/-! ### What is listed -/

/-- A host passes `allowedHosts`. -/
def HostAllowed (host : String) : Prop :=
  engine.config.allowedHosts = [] ∨
    ∃ allowed ∈ engine.config.allowedHosts, hostHits rt allowed host

/-- The query of `ssh_policy_explain` about an alias, and nothing else. -/
def aliasQuery (hostAlias : String) (h : hostAlias ≠ "") : PolicyExplainInput where
  hostAlias := some hostAlias
  hostAlias_ne hsome := h (Option.some.inj hsome)

theorem isHostAllowed_iff {hostAlias : String} :
    isHostAllowed rt hostAlias engine.config.allowedHosts = true ↔
      engine.config.allowedHosts ≠ [] ∧ HostAllowed engine hostAlias := by
  unfold isHostAllowed HostAllowed
  by_cases hnil : engine.config.allowedHosts = []
  · rw [if_pos (by rw [hnil, List.length_nil])]
    exact iff_of_false Bool.false_ne_true fun h => h.1 hnil
  · rw [if_neg (mt List.length_eq_zero_iff.mp hnil), List.any_eq_true, or_iff_right hnil,
      and_iff_right hnil]
    simp [hostHits, matchesAny]

/-- **What the policy asks of a connection**: the host it is for, and who logs in. -/
theorem permits_open_iff {host : String} (hhost : host ≠ "") (username : Option String)
    (mode : Option PolicyMode) :
    engine.Permits { action := .sshOpen, host := some host, username, mode } ↔
      HostAllowed engine host ∧ (username = some "root" → engine.config.allowRootLogin = true) := by
  refine (engine.permitsWith_iff rt.realpathSync _).trans ?_
  have hadmits : engine.config.hosts.Admits (hostHits rt) anything host ↔
      HostAllowed engine host := by
    unfold AccessList.Admits PolicyConfig.hosts HostAllowed anything
    by_cases hnil : engine.config.allowedHosts = []
    · simp [hnil]
    · simp [hnil]
  constructor
  · intro h
    exact ⟨hadmits.mp (h.host host (truthy_some hhost)), h.root⟩
  · rintro ⟨hallowed, hroot⟩
    have hblank : engine.Grants rt.realpathSync { action := .procExec } :=
      PolicyEngine.grants_blank
    refine { hblank with
      host := ?_, bindHost := ?_, remoteHost := ?_, port := ?_, root := hroot, path := ?_,
      localPath := ?_ }
    · intro found hfound
      rw [truthy_some hhost] at hfound
      rw [← Option.some.inj hfound]
      exact hadmits.mpr hallowed
    -- a connection is no tunnel, and has no paths
    · rintro (h | h)
      · cases h
      · cases h
    · rintro (h | h)
      · cases h
      · cases h
    · rintro (h | h)
      · cases h
      · cases h
    · intro _ path hpath
      cases hpath
    · intro _ path hpath
      cases hpath

/-- The explainer allows an alias that passes `allowedHosts`. -/
theorem explains_alias_iff (toolProfile : String) {hostAlias : String} (hne : hostAlias ≠ "") :
    (explainPolicy engine toolProfile (aliasQuery hostAlias hne)).decision.allowed = true ↔
      HostAllowed engine hostAlias := by
  have hcontext : (aliasQuery hostAlias hne).context =
      { action := .sshOpen, host := some hostAlias } := by
    unfold PolicyExplainInput.context aliasQuery
    rw [truthy_some hne]
    rfl
  have hopen := permits_open_iff engine hne none (some .explain)
  rw [and_iff_left (fun h => by cases h)] at hopen
  rw [← hopen]
  unfold explainPolicy PolicyEngine.explain
  dsimp only
  rw [hcontext]
  rfl

/-- The patterns of a line are words. -/
theorem patterns_of_readConfigLine {rawLine : String} {patterns : List String}
    (h : readConfigLine rawLine = some (.host patterns)) :
    ∃ value, JsText.words value = patterns := by
  unfold readConfigLine at h
  dsimp only at h
  split at h
  · cases h
  · split at h
    · cases h
    · next key value _ =>
      split at h
      · exact ⟨value, ConfigLine.host.inj (Option.some.inj h)⟩
      · cases Option.some.inj h

/-- The patterns of a configuration are not empty. -/
theorem keys_ne_empty (crt : ConfigRuntime) (content : String) :
    ∀ key ∈ (parseContent crt content).hosts.keys, key ≠ "" := by
  have hstart : ∀ (patterns : List String) (parse : ConfigParse),
      (∀ pattern ∈ patterns, pattern ≠ "") → (∀ key ∈ parse.hosts.keys, key ≠ "") →
        ∀ key ∈ (patterns.foldl ConfigParse.startHost parse).hosts.keys, key ≠ "" := by
    intro patterns
    induction patterns with
    | nil => exact fun _ _ h => h
    | cons pattern patterns ih =>
      intro parse hpatterns hkeys
      obtain ⟨hpattern, hpatterns⟩ := List.forall_mem_cons.mp hpatterns
      refine ih _ hpatterns fun key hkey => ?_
      rcases OrderedMap.mem_keys_set.mp hkey with rfl | hkey
      · exact hpattern
      · exact hkeys key hkey
  -- a word is not empty, and an option adds no pattern
  have hline : ∀ (parse : ConfigParse) (rawLine : String),
      (∀ key ∈ parse.hosts.keys, key ≠ "") →
        ∀ key ∈ ((readConfigLine rawLine).elim parse (parse.addLine crt)).hosts.keys, key ≠ "" := by
    intro parse rawLine hkeys
    cases hread : readConfigLine rawLine with
    | none => exact hkeys
    | some line =>
      cases line with
      | host patterns =>
        refine hstart patterns parse ?_ hkeys
        intro pattern hpattern
        obtain ⟨value, rfl⟩ := patterns_of_readConfigLine hread
        obtain ⟨word, hword, rfl⟩ := List.mem_map.mp hpattern
        intro hempty
        have hnil : word = [] := String.ofList_eq_empty_iff.mp hempty
        simp [hnil] at hword
      | option key value =>
        change ∀ k ∈ (parse.addOption crt key value).hosts.keys, k ≠ ""
        unfold ConfigParse.addOption
        cases parse.currentHost with
        | none => exact hkeys
        | some =>
          dsimp only
          rw [OrderedMap.keys_modify]
          exact hkeys
  unfold parseContent
  generalize hparse : ({} : ConfigParse) = parse
  have hkeys : ∀ key ∈ parse.hosts.keys, key ≠ "" := by
    rw [← hparse]
    exact fun _ h => absurd h List.not_mem_nil
  clear hparse
  generalize splitText content '\n' = rawLines
  induction rawLines generalizing parse with
  | nil => exact hkeys
  | cons rawLine rawLines ih => exact ih _ (hline parse rawLine hkeys)

/-- **When the connector lists what it explains.** Over the aliases of a configuration file,
`ssh_hosts_list` has those of which `ssh_policy_explain` says that they may be inspected, exactly if
there are none or `allowedHosts` is not empty. And of what is listed, the policy lets a connection
pass unless it is one as root where it forbids that. -/
theorem lists_what_it_explains_iff (engine : PolicyEngine rt) (crt : ConfigRuntime)
    (content toolProfile : String) :
    let aliases := getAllHosts (parseContent crt content).hosts
    let listed := listHosts rt engine.config.allowedHosts aliases
    ((∀ hostAlias ∈ aliases, ∀ hne : hostAlias ≠ "", hostAlias ∈ listed ↔
        (explainPolicy engine toolProfile (aliasQuery hostAlias hne)).decision.allowed = true) ↔
      aliases = [] ∨ engine.config.allowedHosts ≠ []) ∧
    ∀ hostAlias ∈ listed, ∀ params : ConnectionParams, params.policyHost = some hostAlias →
      (engine.Permits (SessionManager.openContext params .enforce) ↔
        (params.username = "root" → engine.config.allowRootLogin = true)) := by
  intro aliases listed
  have haliases : ∀ hostAlias ∈ aliases, hostAlias ≠ "" := fun hostAlias h =>
    keys_ne_empty crt content hostAlias (List.mem_of_mem_filter h)
  have hlisted : ∀ hostAlias ∈ aliases, (hostAlias ∈ listed ↔
      engine.config.allowedHosts ≠ [] ∧ HostAllowed engine hostAlias) := by
    intro hostAlias h
    change hostAlias ∈ aliases.filter _ ↔ _
    rw [List.mem_filter, and_iff_right h, isHostAllowed_iff]
  constructor
  · constructor
    · intro hagree
      by_contra hnot
      rw [not_or, not_not] at hnot
      obtain ⟨hostAlias, h⟩ := List.exists_mem_of_ne_nil _ hnot.1
      -- an empty list leaves the policy open, and nothing is listed
      have hexplained := (explains_alias_iff engine toolProfile (haliases hostAlias h)).mpr
        (.inl hnot.2)
      have hin := (hagree hostAlias h (haliases hostAlias h)).mpr hexplained
      exact ((hlisted hostAlias h).mp hin).1 hnot.2
    · rintro hcase hostAlias h hne
      have hfilled : engine.config.allowedHosts ≠ [] := by
        refine hcase.resolve_left fun hnil => ?_
        rw [hnil] at h
        cases h
      rw [hlisted hostAlias h, explains_alias_iff, and_iff_right hfilled]
  · intro hostAlias h params hpolicyHost
    have hmem : hostAlias ∈ aliases := List.mem_of_mem_filter h
    have hcontext : SessionManager.openContext params .enforce =
        { action := .sshOpen, host := some hostAlias, username := some params.username,
          mode := some .enforce } := by
      unfold SessionManager.openContext
      rw [hpolicyHost]
      rfl
    rw [hcontext, permits_open_iff engine (haliases hostAlias hmem),
      and_iff_right ((hlisted hostAlias hmem).mp h).2, Option.some.injEq]

end Reports

end Connector
