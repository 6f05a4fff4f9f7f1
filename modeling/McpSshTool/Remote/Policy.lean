import McpSshTool.Library.LexicalPath
import McpSshTool.Remote.Schemas

/-!
# Agent policies

`policy.ts`: the defaults of a profile, the merge of a patch into them, and the checks the agent
makes of paths, services and containers.

* `createAgentPolicy`, `mergeCustomPolicy` — policies under construction on the control plane. The
  patch is whatever JSON the caller sent, so both produce a plain object;
* `isPathAllowed`, `isServiceAllowed`, `isContainerAllowed` — the agent's checks, on a validated
  policy.
-/

open Library

namespace Remote

/-! ### Profiles and patches -/

/-- The capabilities a profile enables. `custom`, and any value that is no profile, enables none. -/
def profileCapabilities (profile : Value) : CapabilityPolicy := fun c =>
  if profile.asString = some "read-only" then
    c ∈ [.hostsRead, .agentsRead, .systemRead, .logsRead, .auditRead]
  else if profile.asString = some "operations" then
    c ∈ [.hostsRead, .agentsRead, .systemRead, .logsRead, .serviceManage, .dockerManage, .filesRead,
      .auditRead]
  else profile.asString = some "full-admin"

/-- `allowServices` and `allowContainers` of a profile. -/
def profileWildcard (profile : Value) : List String :=
  if profile.asString = some "full-admin" then ["*"] else []

def createAgentPolicy (profile : Value) : Fields :=
  [("profile", profile),
    ("capabilities", .obj (CapabilityPolicy.toFields (profileCapabilities profile))),
    ("allowPaths", strings ["/tmp", "/var/tmp"]),
    ("denyPaths", strings ["/", "/etc", "/boot", "/dev", "/proc", "/sys"]),
    ("allowServices", strings (profileWildcard profile)),
    ("allowContainers", strings (profileWildcard profile)),
    ("maxOutputBytes", .int 200000), ("maxActionTimeoutSeconds", .int 120), ("version", .int 1)]

/-- The patch's profile, or `"custom"`. -/
def patchProfile (patch : Fields) : Value :=
  ((Value.obj patch).member "profile").orElse (.str "custom")

/-- A field of the patch, or the profile's default. -/
def patchField (patch : Fields) (key : String) : Value :=
  ((Value.obj patch).member key).orElse
    ((Value.obj (createAgentPolicy (patchProfile patch))).member key)

/-- The capabilities of the profile under those of the patch. -/
def patchCapabilities (patch : Fields) : Fields :=
  Value.spread (CapabilityPolicy.toFields (profileCapabilities (patchProfile patch)))
    (((Value.obj patch).member "capabilities").orElse (.obj []))

/-- The members that `mergeCustomPolicy` lists after the two spreads. -/
def mergedFields (patch : Fields) : Fields :=
  [("profile", patchProfile patch), ("capabilities", .obj (patchCapabilities patch)),
    ("allowPaths", patchField patch "allowPaths"), ("denyPaths", patchField patch "denyPaths"),
    ("allowServices", patchField patch "allowServices"),
    ("allowContainers", patchField patch "allowContainers"),
    ("maxOutputBytes", patchField patch "maxOutputBytes"),
    ("maxActionTimeoutSeconds", patchField patch "maxActionTimeoutSeconds"),
    ("version", patchField patch "version")]

def mergeCustomPolicy (patch : Fields) : Fields :=
  Value.spread (Value.spread (createAgentPolicy (patchProfile patch)) (.obj patch))
    (.obj (mergedFields patch))

theorem keys_createAgentPolicy (profile : Value) :
    (createAgentPolicy profile).map Prod.fst = agentPolicyKeys := rfl

theorem keys_mergedFields (patch : Fields) :
    (mergedFields patch).map Prod.fst = agentPolicyKeys := rfl

theorem nodup_agentPolicyKeys : agentPolicyKeys.Nodup := by decide

theorem nodup_mergedFields (patch : Fields) : ((mergedFields patch).map Prod.fst).Nodup := by
  rw [keys_mergedFields]
  exact nodup_agentPolicyKeys

theorem nodup_mergeCustomPolicy (patch : Fields) :
    ((mergeCustomPolicy patch).map Prod.fst).Nodup := by
  refine Value.nodup_spread (Value.nodup_spread ?_ _) _
  rw [keys_createAgentPolicy]
  exact nodup_agentPolicyKeys

theorem mem_keys_mergeCustomPolicy {patch : Fields} {k : String} :
    k ∈ (mergeCustomPolicy patch).map Prod.fst ↔
      k ∈ agentPolicyKeys ∨ k ∈ patch.map Prod.fst := by
  unfold mergeCustomPolicy
  rw [Value.mem_keys_spread, Value.mem_keys_spread, keys_createAgentPolicy, Value.ownMembers,
    Value.ownMembers, keys_mergedFields]
  tauto

theorem find?_mergeCustomPolicy {patch : Fields} (hpatch : (patch.map Prod.fst).Nodup)
    (k : String) :
    OrderedMap.find? (mergeCustomPolicy patch) k =
      (OrderedMap.find? (mergedFields patch) k).or
        ((OrderedMap.find? patch k).or
          (OrderedMap.find? (createAgentPolicy (patchProfile patch)) k)) := by
  rw [mergeCustomPolicy, Value.find?_spread_obj _ (nodup_mergedFields patch),
    Value.find?_spread_obj _ hpatch]

/-- The policy of a profile. -/
def profilePolicy (profile : AgentProfileName) : AgentPolicy where
  profile := profile
  capabilities := profileCapabilities (.str profile.text)
  allowPaths := ["/tmp", "/var/tmp"]
  denyPaths := ["/", "/etc", "/boot", "/dev", "/proc", "/sys"]
  allowServices := profileWildcard (.str profile.text)
  allowContainers := profileWildcard (.str profile.text)
  maxOutputBytes := 200000
  maxActionTimeoutSeconds := 120
  version := 1

theorem createAgentPolicy_eq_toFields (profile : AgentProfileName) :
    createAgentPolicy (.str profile.text) = (profilePolicy profile).toFields := rfl

/-! ### Paths -/

/-- `value.replace(/\\/gu, "/")`. -/
def slashed (value : List Char) : List Char := value.map fun c => if c = '\\' then '/' else c

def normalizePolicyPath (value : List Char) : List Char :=
  let normalized := LexicalPath.normalize (slashed value)
  let stripped := if normalized.getLast? = some '/' then normalized.dropLast else normalized
  if stripped = [] then ['/'] else stripped

/-- Whether a normalised path is matched by an entry of a path list: the entry `/` matches the root
alone, any other entry itself and what lies under it. -/
def matchesPrefix (normalized : List Char) (rawPrefix : String) : Bool :=
  let entry := normalizePolicyPath rawPrefix.toList
  if entry = ['/'] then normalized = ['/']
  else normalized = entry || (entry ++ ['/']).isPrefixOf normalized

def isPathAllowed (policy : AgentPolicy) (filePath : String) : Bool :=
  let normalized := normalizePolicyPath filePath.toList
  if policy.denyPaths.any (matchesPrefix normalized) then false
  else policy.allowPaths.any (matchesPrefix normalized)

/-! ### Services and containers -/

def isServiceAllowed (policy : AgentPolicy) (service : String) : Bool :=
  policy.allowServices.contains "*" || policy.allowServices.contains service

def isContainerAllowed (policy : AgentPolicy) (container : String) : Bool :=
  policy.allowContainers.contains "*" || policy.allowContainers.contains container

/-! ### Normalised policy paths -/

open LexicalPath

/-- **The normal form of an absolute path** is the text of its location. -/
theorem normalizePolicyPath_of_isAbsolute {value : List Char}
    (h : isAbsolute (slashed value) = true) :
    normalizePolicyPath value = text (walk [] (slashed value)) := by
  have hloc : IsLocation (walk [] (slashed value)) := isLocation_walk isLocation_nil _
  unfold normalizePolicyPath
  rw [normalize_of_isAbsolute h]
  generalize walk [] (slashed value) = dir at *
  by_cases hnil : dir = []
  · subst hnil
    simp [text]
  · -- no name ends with the separator, so at most the trailing one is there to strip
    have hne : text dir ≠ [] := fun hn => by
      have := isAbsolute_text dir
      rw [hn] at this
      exact absurd this (by decide)
    have hlast : (text dir).getLast? ≠ some '/' := by
      rw [text, if_neg hnil]
      obtain ⟨init, s, rfl⟩ := List.eq_nil_or_concat dir |>.resolve_left hnil
      have hs : IsName s := hloc s (by simp)
      rw [List.concat_eq_append, render_append, show render [s] = '/' :: s by simp [render]]
      rw [List.getLast?_append_of_ne_nil _ (List.cons_ne_nil _ _),
        List.getLast?_cons_of_ne_nil hs.ne_nil]
      exact fun h => hs.slash_notMem (List.mem_of_getLast? h)
    by_cases htrail : (slashed value).getLast? = some '/'
    · simp [htrail, hnil, hne]
    · simp [htrail, hlast, hne]

/-- The normal form of a relative path is relative. -/
theorem isAbsolute_normalizePolicyPath_of_relative {value : List Char}
    (h : isAbsolute (slashed value) = false) : isAbsolute (normalizePolicyPath value) = false := by
  have hrel := isAbsolute_normalize_of_relative h
  obtain ⟨c, cs, hcs⟩ := List.exists_cons_of_ne_nil (normalize_ne_nil (slashed value))
  have hc : c ≠ '/' := by
    rintro rfl
    rw [hcs] at hrel
    exact absurd hrel (by simp [isAbsolute])
  unfold normalizePolicyPath
  rw [hcs]
  cases cs with
  | nil => simp [hc, isAbsolute]
  | cons d ds =>
    by_cases hlast : (d :: ds).getLast? = some '/'
    · simp [hlast, isAbsolute, hc]
    · simp [hlast, isAbsolute, hc]

end Remote
