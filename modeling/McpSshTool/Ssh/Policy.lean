import McpSshTool.Ssh.Errors
import McpSshTool.Ssh.Paths
import McpSshTool.Ssh.Safety

/-!
# The policy engine

`policy.ts`: the decision on an action, from the configuration.

* `PolicyEngine` — a configuration whose prefixes are normalised, as the constructor leaves it;
* `PolicyEngine.denial` — the first check that an action fails; `evaluate`, `assertAllowed` and
  `explain` report it;
* `DenyCovers`, `AllowCovers` — what the prefixes say about a location, and
  `pathDenial_eq_none_iff`: when a remote path passes.
-/

open Library LexicalPath

namespace Ssh

inductive PolicyMode where
  | enforce | explain
deriving DecidableEq, Repr

structure PolicyConfig where
  mode : PolicyMode := .enforce
  allowRootLogin : Bool := false
  allowRawSudo : Bool := false
  allowDestructiveCommands : Bool := false
  allowDestructiveFs : Bool := false
  allowedHosts : List String := []
  commandAllow : List String := []
  commandDeny : List String := []
  pathAllowPrefixes : List String := []
  pathDenyPrefixes : List String := []
  localPathAllowPrefixes : List String := []
  localPathDenyPrefixes : List String := []
  tunnelAllowBindHosts : List String := []
  tunnelDenyBindHosts : List String := []
  tunnelAllowRemoteHosts : List String := []
  tunnelDenyRemoteHosts : List String := []
  tunnelAllowPorts : List String := []
  tunnelDenyPorts : List String := []

inductive PolicyAction where
  | sshOpen | procExec | procSudo
  | fsRead | fsStat | fsList | fsWrite | fsRemove | fsMkdir | fsRename
  | ensurePackage | ensureService | ensureLines | patchApply
  | transferUpload | transferDownload
  | transferLocalRead | transferLocalWrite | transferLocalCreate | transferLocalOverwrite
  | tunnelLocal | tunnelRemote
deriving DecidableEq, Repr

/-- The text of an action. -/
def PolicyAction.text : PolicyAction → String
  | sshOpen => "ssh.open"
  | procExec => "proc.exec"
  | procSudo => "proc.sudo"
  | fsRead => "fs.read"
  | fsStat => "fs.stat"
  | fsList => "fs.list"
  | fsWrite => "fs.write"
  | fsRemove => "fs.remove"
  | fsMkdir => "fs.mkdir"
  | fsRename => "fs.rename"
  | ensurePackage => "ensure.package"
  | ensureService => "ensure.service"
  | ensureLines => "ensure.lines"
  | patchApply => "patch.apply"
  | transferUpload => "transfer.upload"
  | transferDownload => "transfer.download"
  | transferLocalRead => "transfer.local.read"
  | transferLocalWrite => "transfer.local.write"
  | transferLocalCreate => "transfer.local.create"
  | transferLocalOverwrite => "transfer.local.overwrite"
  | tunnelLocal => "tunnel.local"
  | tunnelRemote => "tunnel.remote"

/-- `LOCAL_TRANSFER_ACTIONS`. -/
def localTransferActions : List PolicyAction :=
  [.transferLocalRead, .transferLocalWrite, .transferLocalCreate, .transferLocalOverwrite]

structure PolicyContext where
  action : PolicyAction
  host : Option String := none
  username : Option String := none
  command : Option String := none
  path : Option String := none
  secondaryPath : Option String := none
  localBindHost : Option String := none
  localPort : Option ℕ := none
  remoteHost : Option String := none
  remotePort : Option ℕ := none
  mode : Option PolicyMode := none
  rawSudo : Bool := false
  destructive : Bool := false
deriving DecidableEq

structure PolicyDecision where
  allowed : Bool
  mode : PolicyMode
  action : PolicyAction
  reason : Option String := none
  hint : Option String := none
  riskLevel : Option String := none

/-- Why an action is denied. -/
structure Denial where
  reason : String
  hint : String
  riskLevel : Option String := none

/-- A text that is absent or empty is no text where the source tests it. -/
def truthy (value : Option String) : Option String := value.filter (· ≠ "")

@[simp] theorem truthy_some {value : String} (h : value ≠ "") :
    truthy (some value) = some value := by
  simp [truthy, h]

@[simp] theorem truthy_none : truthy none = none := rfl

@[simp] theorem truthy_empty : truthy (some "") = none := rfl

/-- The paths of a context that are checked: an empty one is no path. -/
def PolicyContext.paths (context : PolicyContext) : List String :=
  [context.path, context.secondaryPath].filterMap truthy

def PolicyContext.isDestructiveFs (context : PolicyContext) : Bool :=
  context.destructive || context.action = .fsRemove

/-! ### Matching -/

def matchesAny (rt : Runtime) (value : String) (patterns : List String) : Bool :=
  patterns.any fun pattern => rt.regExpTest pattern "" value

def matchesPolicyValue (rt : Runtime) (value : String) (policies : List String) : Bool :=
  policies.any fun policy => policy = value || matchesAny rt value [policy]

/-- The number of a group of `/^(\d{1,5})(?:-(\d{1,5}))?$/u`. -/
def portDigits (digits : List Char) : Option ℕ :=
  if 1 ≤ digits.length ∧ digits.length ≤ 5 ∧ digits.all Char.isDigit then
    some (digits.foldl (fun n c => 10 * n + (c.toNat - '0'.toNat)) 0)
  else none

def parsePortRange (policy : String) : Option (ℕ × ℕ) := do
  let (start, stop) ← match (JsText.trim policy).toList.splitOn '-' with
    | [digits] => do
      let start ← portDigits digits
      pure (start, start)
    | [digits, digits'] => do
      let start ← portDigits digits
      let stop ← portDigits digits'
      pure (start, stop)
    | _ => none
  if stop > 65535 ∨ start > stop then none else some (start, stop)

def matchesPortPolicy (port : ℕ) (policies : List String) : Bool :=
  policies.any fun policy =>
    match parsePortRange policy with
    | some (start, stop) => port ≥ start && port ≤ stop
    | none => false

/-! ### Prefixes -/

/-- `normalizeLocalPolicyPath`; `none` where it throws. -/
def normalizeLocalPolicyPath (rt : Runtime) (pathValue : String) : Option String :=
  if Char.ofNat 0 ∈ pathValue.toList then none
  else
    let absolutePath := locationText (resolve (walk [] rt.cwd.toList) pathValue.toList)
    let normalized := (rt.realpathSync absolutePath).getD absolutePath
    some (String.ofList
      (stripTrailingSeparators normalized.toList '/' (pathRoot normalized).toList))

/-- `normalizePolicyPaths`; `none` where a normaliser throws. -/
def normalizePolicyPaths (paths : List String) (normalizer : String → Option String) :
    Option (List String) :=
  (paths.mapM normalizer).map List.eraseDups

theorem mem_normalizePolicyPaths {paths out : List String} {normalizer : String → Option String}
    (h : normalizePolicyPaths paths normalizer = some out) (value : String) :
    value ∈ out ↔ ∃ p ∈ paths, normalizer p = some value := by
  obtain ⟨values, hvalues, rfl⟩ := Option.map_eq_some_iff.mp h
  rw [List.mem_eraseDups]
  clear h
  induction paths generalizing values with
  | nil =>
    obtain rfl := Option.some.inj hvalues
    simp
  | cons p ps ih =>
    rw [List.mapM_cons] at hvalues
    obtain ⟨v, hv, hvalues⟩ := Option.bind_eq_some_iff.mp hvalues
    obtain ⟨vs, hvs, hvalues⟩ := Option.bind_eq_some_iff.mp hvalues
    obtain rfl := Option.some.inj hvalues
    rw [List.mem_cons, ih vs hvs, List.exists_mem_cons_iff, hv, Option.some.injEq, eq_comm]

theorem isSome_of_normalizePolicyPaths {paths out : List String}
    {normalizer : String → Option String} (h : normalizePolicyPaths paths normalizer = some out)
    {p : String} (hp : p ∈ paths) : ∃ value, normalizer p = some value := by
  obtain ⟨values, hvalues, -⟩ := Option.map_eq_some_iff.mp h
  clear h
  induction paths generalizing values with
  | nil => exact absurd hp List.not_mem_nil
  | cons q qs ih =>
    rw [List.mapM_cons] at hvalues
    obtain ⟨v, hv, hvalues⟩ := Option.bind_eq_some_iff.mp hvalues
    obtain ⟨vs, hvs, -⟩ := Option.bind_eq_some_iff.mp hvalues
    rcases List.mem_cons.mp hp with rfl | hmem
    · exact ⟨v, hv⟩
    · exact ih hmem vs hvs

/-- `DEFAULT_ALLOWED_MUTATION_PREFIXES`. -/
def defaultAllowedMutationPrefixes : List String := ["/tmp", "/var/tmp", "/home", "/Users"]

/-- **A policy engine**: a configuration with its prefixes normalised. -/
structure PolicyEngine (rt : Runtime) where
  config : PolicyConfig
  pathAllowPrefixes : List String
  pathDenyPrefixes : List String
  defaultPathAllowPrefixes : List String
  localPathAllowPrefixes : List String
  localPathDenyPrefixes : List String
  pathAllow_eq : normalizePolicyPaths config.pathAllowPrefixes normalizeRemotePosixPath =
    some pathAllowPrefixes
  pathDeny_eq : normalizePolicyPaths config.pathDenyPrefixes normalizeRemotePosixPath =
    some pathDenyPrefixes
  default_eq : normalizePolicyPaths defaultAllowedMutationPrefixes normalizeRemotePosixPath =
    some defaultPathAllowPrefixes
  localAllow_eq : normalizePolicyPaths config.localPathAllowPrefixes (normalizeLocalPolicyPath rt) =
    some localPathAllowPrefixes
  localDeny_eq : normalizePolicyPaths config.localPathDenyPrefixes (normalizeLocalPolicyPath rt) =
    some localPathDenyPrefixes

/-- `new PolicyEngine(config)`; `none` where the constructor throws. -/
def PolicyEngine.create (rt : Runtime) (config : PolicyConfig) : Option (PolicyEngine rt) :=
  match h₁ : normalizePolicyPaths config.pathAllowPrefixes normalizeRemotePosixPath,
    h₂ : normalizePolicyPaths config.pathDenyPrefixes normalizeRemotePosixPath,
    h₃ : normalizePolicyPaths defaultAllowedMutationPrefixes normalizeRemotePosixPath,
    h₄ : normalizePolicyPaths config.localPathAllowPrefixes (normalizeLocalPolicyPath rt),
    h₅ : normalizePolicyPaths config.localPathDenyPrefixes (normalizeLocalPolicyPath rt) with
  | some allow, some deny, some default, some localAllow, some localDeny =>
    some ⟨config, allow, deny, default, localAllow, localDeny, h₁, h₂, h₃, h₄, h₅⟩
  | _, _, _, _, _ => none

namespace PolicyEngine

variable {rt : Runtime} (engine : PolicyEngine rt)

/-! ### The checks -/

/-- The check of the host against `allowedHosts`. -/
def hostDenial (context : PolicyContext) : Option Denial := do
  let host ← truthy context.host
  let hosts := engine.config.allowedHosts
  if hosts ≠ [] ∧ !hosts.any (fun h => h = host || matchesAny rt host [h]) then
    some {
      reason := "Host " ++ host ++ " is not allowed by policy"
      hint := "Add the host to allowedHosts or use an SSH config alias that is allowed." }
  else none

/-- The check of a value of a tunnel against a list that denies and a list that allows. -/
def tunnelListDenial (isIn : List String → Bool) (deny allow : List String)
    (subject denyHint allowHint : String) : Option Denial :=
  if deny ≠ [] ∧ isIn deny then some
    { reason := subject ++ " is denied by policy", hint := denyHint }
  else if allow ≠ [] ∧ !isIn allow then
    some { reason := subject ++ " is outside allowed policy", hint := allowHint }
  else none

/-- The checks of tunnels. -/
def tunnelDenial (context : PolicyContext) : Option Denial :=
  if context.action = .tunnelLocal ∨ context.action = .tunnelRemote then
    let bindHost := do
      let bindHost ← truthy context.localBindHost
      tunnelListDenial (matchesPolicyValue rt bindHost) engine.config.tunnelDenyBindHosts
        engine.config.tunnelAllowBindHosts ("Tunnel bind host " ++ bindHost)
        "Choose an allowed bind host or adjust tunnelDenyBindHosts."
        "Choose an allowed bind host or adjust tunnelAllowBindHosts."
    let remoteHost := do
      let remoteHost ← truthy context.remoteHost
      tunnelListDenial (matchesPolicyValue rt remoteHost) engine.config.tunnelDenyRemoteHosts
        engine.config.tunnelAllowRemoteHosts ("Tunnel remote host " ++ remoteHost)
        "Choose an allowed remote host or adjust tunnelDenyRemoteHosts."
        "Choose an allowed remote host or adjust tunnelAllowRemoteHosts."
    let ports := [context.localPort, context.remotePort].filterMap id
    let port := ports.findSome? fun port =>
      tunnelListDenial (matchesPortPolicy port) engine.config.tunnelDenyPorts
        engine.config.tunnelAllowPorts ("Tunnel port " ++ toString port)
        "Choose a different port or adjust tunnelDenyPorts."
        "Choose an allowed port or adjust tunnelAllowPorts."
    (bindHost.or remoteHost).or port
  else none

/-- The check of a login as root. -/
def rootDenial (context : PolicyContext) : Option Denial :=
  if context.username = some "root" ∧ !engine.config.allowRootLogin then
    some {
      reason := "Root SSH login is disabled by policy"
      hint := "Connect as an unprivileged user and use approved ensure tools where possible." }
  else none

/-- The check of raw sudo. -/
def rawSudoDenial (context : PolicyContext) : Option Denial :=
  if context.rawSudo ∧ !engine.config.allowRawSudo then
    some {
      reason := "Raw sudo command execution is disabled by policy"
      hint := "Use an idempotent ensure_* tool or enable allowRawSudo explicitly." }
  else none

/-- The checks of a command. -/
def commandDenial (context : PolicyContext) : Option Denial := do
  let command ← truthy context.command
  let config := engine.config
  if config.commandDeny ≠ [] ∧ matchesAny rt command config.commandDeny then
    some {
      reason := "Command matched commandDeny policy"
      hint := "Review the command or adjust the policy." }
  else if config.commandAllow ≠ [] ∧ !matchesAny rt command config.commandAllow then
    some {
      reason := "Command does not match commandAllow policy"
      hint := "Use an allowed command or update commandAllow." }
  else
    -- the safety patterns hold behind any lists
    let danger ← checkCommandSafety rt command
    if config.allowDestructiveCommands then none
    else some { reason := danger.warning, hint := danger.suggestion, riskLevel := danger.riskLevel }

/-- The check of a path on the server's own machine. -/
def localPathDenial (files : String → Option String) (pathValue : String) : Option Denial :=
  match normalizeLocalPolicyPath { rt with realpathSync := files } pathValue with
  | none =>
    some {
      reason := "Local path contains NUL byte"
      hint := "Choose a valid local path without NUL bytes." }
  | some normalizedPath =>
    if engine.localPathDenyPrefixes.any fun p => isPathUnder normalizedPath p "/" then
      some {
        reason := "Local path " ++ pathValue ++ " is denied by policy"
        hint := "Choose a different local path or adjust localPathDenyPrefixes." }
    -- without prefixes nothing is allowed, unlike on the remote host
    else if engine.localPathAllowPrefixes.length = 0 then
      some {
        reason := "Local transfer path policy has no allowed prefixes"
        hint := "Set localPathAllowPrefixes for MCP-server-host transfer paths." }
    else if !engine.localPathAllowPrefixes.any fun p => isPathUnder normalizedPath p "/" then
      some {
        reason := "Local path " ++ pathValue ++ " is outside allowed prefixes"
        hint := "Allowed local transfer prefixes: " ++
          String.intercalate ", " engine.localPathAllowPrefixes }
    else none

/-- The prefixes that a destructive operation is held to. -/
def allowPrefixes : List String :=
  if engine.pathAllowPrefixes.length > 0 then engine.pathAllowPrefixes
  else engine.defaultPathAllowPrefixes

/-- The check of a path on the remote host. -/
def pathDenial (isDestructiveFs : Bool) (pathValue : String) : Option Denial :=
  match normalizeRemotePosixPath pathValue with
  | none =>
    some {
      reason := "Path contains NUL byte"
      hint := "Choose a valid remote path without NUL bytes." }
  | some normalizedPath =>
    if engine.pathDenyPrefixes.any fun p => isPathUnder normalizedPath p "/" then
      some {
        reason := "Path " ++ pathValue ++ " is denied by policy"
        hint := "Choose a different path or adjust pathDenyPrefixes." }
    -- only destructive operations are held to the allow prefixes
    else if isDestructiveFs ∧ !engine.config.allowDestructiveFs ∧
        !engine.allowPrefixes.any fun p => isPathUnder normalizedPath p "/" then
      some {
        reason :=
          "Destructive filesystem operation on " ++ pathValue ++ " is outside allowed prefixes"
        hint := "Allowed destructive prefixes: " ++ String.intercalate ", " engine.allowPrefixes }
    else none

/-- The checks of the paths of a context. -/
def pathsDenial (files : String → Option String) (context : PolicyContext) : Option Denial :=
  if context.action ∈ localTransferActions then
    context.paths.findSome? (engine.localPathDenial files)
  else context.paths.findSome? (engine.pathDenial context.isDestructiveFs)

/-! ### Decisions -/

/-- **The first check that an action fails.** The local file system is as `files` says. -/
def denialWith (files : String → Option String) (context : PolicyContext) : Option Denial :=
  (((((engine.hostDenial context).or (engine.tunnelDenial context)).or
    (engine.rootDenial context)).or (engine.rawSudoDenial context)).or
      (engine.commandDenial context)).or (engine.pathsDenial files context)

/-- `evaluate`. -/
def evaluateWith (files : String → Option String) (context : PolicyContext) : PolicyDecision :=
  let mode := context.mode.getD engine.config.mode
  match engine.denialWith files context with
  | some denial =>
    { allowed := false, mode, action := context.action, reason := denial.reason
      hint := denial.hint, riskLevel := denial.riskLevel }
  | none => { allowed := true, mode, action := context.action }

/-- `assertAllowed`. -/
def assertAllowedWith (files : String → Option String) (context : PolicyContext) :
    Except Failure PolicyDecision :=
  let decision := engine.evaluateWith files context
  if !decision.allowed ∧ decision.mode = .enforce then
    .error (createPolicyError (decision.reason.getD "Operation denied by policy") decision.hint)
  else .ok decision

/-- `evaluate`, of an action whose paths are not local. -/
def evaluate (context : PolicyContext) : PolicyDecision :=
  engine.evaluateWith rt.realpathSync context

/-- `assertAllowed`, of an action whose paths are not local. -/
def assertAllowed (context : PolicyContext) : Except Failure PolicyDecision :=
  engine.assertAllowedWith rt.realpathSync context

def explain (context : PolicyContext) : PolicyDecision :=
  engine.evaluate { context with mode := some .explain }

/-- **The policy allows the action.** -/
def Permits (context : PolicyContext) : Prop := (engine.evaluate context).allowed = true

instance (context : PolicyContext) : Decidable (engine.Permits context) :=
  inferInstanceAs (Decidable (_ = true))

theorem permits_iff {context : PolicyContext} :
    engine.Permits context ↔ engine.denialWith rt.realpathSync context = none := by
  unfold Permits evaluate evaluateWith
  cases engine.denialWith rt.realpathSync context with
  | none => exact iff_of_true rfl rfl
  | some => simp

/-- The policy allows the action, with the local file system as `files` says. -/
def PermitsWith (files : String → Option String) (context : PolicyContext) : Prop :=
  (engine.evaluateWith files context).allowed = true

/-- What an assertion lets pass: what is permitted, and whatever is only explained. -/
theorem assertAllowedWith_ok {files : String → Option String} {context : PolicyContext}
    {decision : PolicyDecision} (h : engine.assertAllowedWith files context = .ok decision) :
    decision = engine.evaluateWith files context ∧
      (engine.PermitsWith files context ∨ decision.mode = .explain) := by
  unfold assertAllowedWith at h
  simp only at h
  split at h
  · cases h
  · next hnot =>
    obtain rfl := Except.ok.inj h
    refine ⟨rfl, ?_⟩
    by_cases hpermits : engine.PermitsWith files context
    · exact .inl hpermits
    · refine .inr ?_
      cases hmode : (engine.evaluateWith files context).mode with
      | explain => rfl
      | enforce =>
        unfold PermitsWith at hpermits
        exact absurd ⟨by simpa using hpermits, hmode⟩ hnot

theorem evaluateWith_mode (files : String → Option String) (context : PolicyContext) :
    (engine.evaluateWith files context).mode = context.mode.getD engine.config.mode := by
  unfold evaluateWith
  cases engine.denialWith files context with
  | none => rfl
  | some => rfl

theorem assertAllowed_eq (context : PolicyContext) :
    engine.assertAllowed context =
      if ¬engine.Permits context ∧ context.mode.getD engine.config.mode = .enforce then
        .error (createPolicyError
          ((engine.evaluate context).reason.getD "Operation denied by policy")
          (engine.evaluate context).hint)
      else .ok (engine.evaluate context) := by
  rw [← engine.evaluateWith_mode rt.realpathSync]
  unfold assertAllowed assertAllowedWith Permits
  simp only [Bool.not_eq_true', Bool.not_eq_true]
  rfl

/-! ### Locations -/

/-- The locations that the policy denies, with what is under them. -/
def denyLocations : List (List Segment) := engine.config.pathDenyPrefixes.map policyLocation

/-- The locations under which a destructive operation is allowed. -/
def allowLocations : List (List Segment) :=
  (if engine.config.pathAllowPrefixes = [] then defaultAllowedMutationPrefixes
    else engine.config.pathAllowPrefixes).map policyLocation

/-- The location is under a deny prefix. -/
def DenyCovers (loc : List Segment) : Prop := ∃ d ∈ engine.denyLocations, d <+: loc

/-- The location is under an allow prefix. -/
def AllowCovers (loc : List Segment) : Prop := ∃ a ∈ engine.allowLocations, a <+: loc

/-- The location is under an allow prefix and under no deny prefix. -/
def Confines (loc : List Segment) : Prop := engine.AllowCovers loc ∧ ¬engine.DenyCovers loc

/-- Whether a normalised path is under one of the normalised prefixes. -/
theorem any_isPathUnder_iff {raw normalized : List String}
    (h : normalizePolicyPaths raw normalizeRemotePosixPath = some normalized) {loc : List Segment}
    (hloc : IsLocation loc) :
    (normalized.any fun p => isPathUnder (locationText loc) p "/") = true ↔
      ∃ d ∈ raw.map policyLocation, d <+: loc := by
  rw [List.any_eq_true]
  constructor
  · rintro ⟨p, hp, hunder⟩
    obtain ⟨value, hvalue, hnormal⟩ := (mem_normalizePolicyPaths h p).mp hp
    obtain ⟨-, rfl⟩ := normalizeRemotePosixPath_eq_some_iff.mp hnormal
    exact ⟨policyLocation value, List.mem_map_of_mem hvalue,
      (isPathUnder_text_iff (isLocation_policyLocation value) hloc).mp hunder⟩
  · rintro ⟨d, hd, hunder⟩
    obtain ⟨value, hvalue, rfl⟩ := List.mem_map.mp hd
    obtain ⟨p, hp⟩ := isSome_of_normalizePolicyPaths h hvalue
    refine ⟨p, (mem_normalizePolicyPaths h p).mpr ⟨value, hvalue, hp⟩, ?_⟩
    obtain ⟨-, rfl⟩ := normalizeRemotePosixPath_eq_some_iff.mp hp
    exact (isPathUnder_text_iff (isLocation_policyLocation value) hloc).mpr hunder

theorem length_normalizePolicyPaths_pos {raw normalized : List String}
    (h : normalizePolicyPaths raw normalizeRemotePosixPath = some normalized) :
    normalized.length > 0 ↔ raw ≠ [] := by
  rw [gt_iff_lt, List.length_pos_iff_exists_mem]
  constructor
  · rintro ⟨p, hp⟩ rfl
    obtain ⟨value, hvalue, -⟩ := (mem_normalizePolicyPaths h p).mp hp
    exact absurd hvalue List.not_mem_nil
  · intro hne
    obtain ⟨value, values, rfl⟩ := List.exists_cons_of_ne_nil hne
    obtain ⟨p, hp⟩ := isSome_of_normalizePolicyPaths h List.mem_cons_self
    exact ⟨p, (mem_normalizePolicyPaths h p).mpr ⟨value, List.mem_cons_self, hp⟩⟩

theorem any_denyPrefixes_iff {loc : List Segment} (hloc : IsLocation loc) :
    (engine.pathDenyPrefixes.any fun p => isPathUnder (locationText loc) p "/") = true ↔
      engine.DenyCovers loc :=
  any_isPathUnder_iff engine.pathDeny_eq hloc

theorem any_allowPrefixes_iff {loc : List Segment} (hloc : IsLocation loc) :
    (engine.allowPrefixes.any fun p => isPathUnder (locationText loc) p "/") = true ↔
      engine.AllowCovers loc := by
  have hlength := length_normalizePolicyPaths_pos engine.pathAllow_eq
  unfold allowPrefixes AllowCovers allowLocations
  by_cases hnil : engine.config.pathAllowPrefixes = []
  · rw [if_neg fun h => hlength.mp h hnil, if_pos hnil]
    exact any_isPathUnder_iff engine.default_eq hloc
  · rw [if_pos (hlength.mpr hnil), if_neg hnil]
    exact any_isPathUnder_iff engine.pathAllow_eq hloc

/-- **When a remote path passes.** -/
theorem pathDenial_eq_none_iff {isDestructiveFs : Bool} {pathValue : String} :
    engine.pathDenial isDestructiveFs pathValue = none ↔
      Char.ofNat 0 ∉ pathValue.toList ∧ ¬engine.DenyCovers (policyLocation pathValue) ∧
        (isDestructiveFs = true → engine.config.allowDestructiveFs = false →
          engine.AllowCovers (policyLocation pathValue)) := by
  have hloc := isLocation_policyLocation pathValue
  unfold pathDenial
  by_cases hnul : Char.ofNat 0 ∈ pathValue.toList
  · rw [normalizeRemotePosixPath_of_mem hnul]
    simp [hnul]
  · rw [normalizeRemotePosixPath_eq hnul]
    rw [← engine.any_denyPrefixes_iff hloc, ← engine.any_allowPrefixes_iff hloc]
    dsimp only
    generalize (engine.pathDenyPrefixes.any fun p =>
      isPathUnder (locationText (policyLocation pathValue)) p "/") = deny
    generalize (engine.allowPrefixes.any fun p =>
      isPathUnder (locationText (policyLocation pathValue)) p "/") = allow
    cases deny with
    | true => simp
    | false =>
      rw [if_neg Bool.false_ne_true]
      cases allow with
      | true => simp [hnul]
      | false => simp [hnul]

/-! ### Decisions about files -/

theorem pathsDenial_eq_none_iff {files : String → Option String} {context : PolicyContext}
    (haction : context.action ∉ localTransferActions) :
    engine.pathsDenial files context = none ↔
      ∀ p ∈ context.paths, engine.pathDenial context.isDestructiveFs p = none := by
  rw [pathsDenial, if_neg haction, List.findSome?_eq_none_iff]

theorem Permits.pathDenial {engine : PolicyEngine rt} {context : PolicyContext}
    (h : engine.Permits context) (haction : context.action ∉ localTransferActions) {p : String}
    (hp : p ∈ context.paths) : engine.pathDenial context.isDestructiveFs p = none := by
  rw [permits_iff] at h
  exact (engine.pathsDenial_eq_none_iff haction).mp (Option.or_eq_none_iff.mp h).2 p hp

/-- **Decisions about files alone** are made by their paths. -/
theorem permits_paths_iff {action : PolicyAction} {path secondaryPath : Option String}
    {mode : Option PolicyMode} {destructive : Bool}
    (haction : action ∉ localTransferActions ++ [.tunnelLocal, .tunnelRemote]) :
    engine.Permits { action, path, secondaryPath, mode, destructive } ↔
      ∀ p ∈ [path, secondaryPath].filterMap truthy,
        engine.pathDenial (destructive || action = .fsRemove) p = none := by
  rw [List.mem_append, not_or] at haction
  have htunnel : ¬(action = .tunnelLocal ∨ action = .tunnelRemote) := fun h =>
    haction.2 (by simpa using h)
  rw [permits_iff, denialWith, Option.or_eq_none_iff, engine.pathsDenial_eq_none_iff haction.1]
  refine and_iff_right ?_
  simp [hostDenial, tunnelDenial, rootDenial, rawSudoDenial, commandDenial, htunnel]

/-! ### Building an engine -/

theorem normalizePolicyPaths_of_notMem {paths : List String}
    (h : ∀ p ∈ paths, Char.ofNat 0 ∉ p.toList) :
    ∃ out, normalizePolicyPaths paths normalizeRemotePosixPath = some out := by
  suffices hmap : ∃ out, paths.mapM normalizeRemotePosixPath = some out by
    obtain ⟨out, hout⟩ := hmap
    exact ⟨out.eraseDups, by rw [normalizePolicyPaths, hout, Option.map_some]⟩
  induction paths with
  | nil => exact ⟨[], rfl⟩
  | cons p ps ih =>
    obtain ⟨out, hout⟩ := ih fun q hq => h q (List.mem_cons_of_mem p hq)
    have hp := normalizeRemotePosixPath_eq (h p List.mem_cons_self)
    exact ⟨locationText (policyLocation p) :: out, by rw [List.mapM_cons, hp, hout]; rfl⟩

theorem exists_engine (rt : Runtime) (config : PolicyConfig)
    (hallow : ∀ p ∈ config.pathAllowPrefixes, Char.ofNat 0 ∉ p.toList)
    (hdeny : ∀ p ∈ config.pathDenyPrefixes, Char.ofNat 0 ∉ p.toList)
    (hlocal : config.localPathAllowPrefixes = [] ∧ config.localPathDenyPrefixes = []) :
    ∃ engine : PolicyEngine rt, engine.config = config := by
  obtain ⟨allow, hallow⟩ := normalizePolicyPaths_of_notMem hallow
  obtain ⟨deny, hdeny⟩ := normalizePolicyPaths_of_notMem hdeny
  obtain ⟨default, hdefault⟩ :=
    normalizePolicyPaths_of_notMem (show ∀ p ∈ defaultAllowedMutationPrefixes, _ by decide)
  exact ⟨⟨config, allow, deny, default, [], [], hallow, hdeny, hdefault, by rw [hlocal.1]; rfl,
    by rw [hlocal.2]; rfl⟩, rfl⟩

end PolicyEngine
end Ssh
