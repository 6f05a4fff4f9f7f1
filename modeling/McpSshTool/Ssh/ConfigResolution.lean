import McpSshTool.Js.Double
import McpSshTool.Ssh.HostPatterns

/-!
# Resolving an alias by the SSH configuration

`ssh-config.ts`: what `parseContent` makes of a file, and what `resolveHost` gives for an alias.

* `ConfigParse` — the hosts of the parser, and the one that options go to; `parseContent`;
* `resolveHost` — the entry named by the alias, or else the first one whose pattern matches it;
* `HostBlock`, `hostBlocks` — a file as the list of its `Host` blocks;
* `get?_parseContent`, `find?_keys_parseContent` — the entries of the parser, from the blocks;
* `resolveHost_from_one_block` — every value is from one block;
* `firstValue`, `blocks_not_combined` — the rule that takes each value from the first block that has
  it.
-/

open Library

namespace Ssh

/-! ### What the parser takes from elsewhere -/

/-- What `ssh-config.ts` takes from its machine and from its JavaScript engine. -/
structure ConfigRuntime where
  /-- `os.homedir()`. -/
  homedir : String
  /-- `path.join`. -/
  pathJoin : String → String → String
  /-- The form in which two code units are compared under the flag `i`. -/
  canonicalize : ℕ → ℕ
  canonicalize_many : ∀ u, canonicalize u = '*'.toNat ↔ u = '*'.toNat
  canonicalize_one : ∀ u, canonicalize u = '?'.toNat ↔ u = '?'.toNat
  canonicalize_line : ∀ u, isLineTerminator (canonicalize u) = isLineTerminator u

/-- The text that stands for `replacement` in `value.replace(pattern, replacement)`, where `matched`
is what the pattern matched, and no group. -/
def substitution (matched before after : List Char) : List Char → List Char
  | [] => []
  | [c] => [c]
  | c :: d :: cs =>
    if c = '$' ∧ d = '$' then '$' :: substitution matched before after cs
    else if c = '$' ∧ d = '&' then matched ++ substitution matched before after cs
    else if c = '$' ∧ d.toNat = 0x60 then before ++ substitution matched before after cs
    else if c = '$' ∧ d.toNat = 0x27 then after ++ substitution matched before after cs
    else c :: substitution matched before after (d :: cs)

/-- `parseInt(value, 10)`: the digits stand for the double nearest to their number. -/
def parseDecimal (value : String) : JsNumber :=
  let trimmed := value.toList.dropWhile JsText.isSpace
  let (sign, rest) : ℤ × List Char :=
    match trimmed with
    | '-' :: cs => (-1, cs)
    | '+' :: cs => (1, cs)
    | cs => (1, cs)
  match rest.takeWhile Char.isDigit with
  | [] => .nan
  | digits => .ofRat (sign * digits.foldl (fun n c => 10 * n + (c.toNat - '0'.toNat : ℕ)) 0 : ℤ)

/-- A path with the home directory in the place of a `~` at its beginning. -/
def expandHome (rt : ConfigRuntime) (value : String) : String :=
  match value.toList with
  | '~' :: '/' :: cs => rt.pathJoin rt.homedir (String.ofList cs)
  | '~' :: cs => String.ofList (substitution ['~'] [] cs rt.homedir.toList ++ cs)
  | _ => value

/-! ### Parsing -/

/-- `SSHHostConfig`, of what `resolveHost` reads. -/
structure SSHHostConfig where
  host : String
  hostName : Option String := none
  user : Option String := none
  port : Option JsNumber := none
  identityFile : Option String := none
  proxyJump : Option String := none
deriving DecidableEq

/-- `setHostOption`. What it stores under other keys is not read. -/
def setHostOption (rt : ConfigRuntime) (host : SSHHostConfig) (key value : String) :
    SSHHostConfig :=
  match key with
  | "hostname" => { host with hostName := some value }
  | "user" => { host with user := some value }
  | "port" => { host with port := some (parseDecimal value) }
  | "identityfile" => { host with identityFile := some (expandHome rt value) }
  | "proxyjump" => { host with proxyJump := some value }
  | _ => host

/-- `line.match(/^(\S+)\s+(.+)$/)`, of a line without white space at its ends. -/
def matchOption (line : String) : Option (String × String) :=
  let key := line.toList.takeWhile fun c => !JsText.isSpace c
  let value := (line.toList.dropWhile fun c => !JsText.isSpace c).dropWhile JsText.isSpace
  if key ≠ [] ∧ value ≠ [] ∧ value.all fun c => !isLineTerminator c.toNat then
    some (String.ofList key, String.ofList value)
  else none

/-- A line of a configuration. -/
inductive ConfigLine where
  | host (patterns : List String)
  | option (key value : String)
deriving DecidableEq

/-- What a line says; `none` for the lines that are skipped. The keys that are looked for have no
letter that is the lower case of one outside of ASCII. -/
def readConfigLine (rawLine : String) : Option ConfigLine :=
  let line := JsText.trim rawLine
  if line = "" ∨ line.toList.head? = some '#' then none
  else
    match matchOption line with
    | none => none
    | some (key, value) =>
      let keyLower := key.toLower
      -- the value has no white space at its ends
      if keyLower = "host" then some (.host (JsText.words value)) else some (.option keyLower value)

/-- The hosts of the parser, and the key of the one that options are added to. -/
structure ConfigParse where
  hosts : OrderedMap String SSHHostConfig := .empty
  currentHost : Option String := none

namespace ConfigParse

/-- A pattern of a `Host` line: an entry of its own, in the place of any that it had. -/
def startHost (parse : ConfigParse) (pattern : String) : ConfigParse :=
  { hosts := parse.hosts.set pattern { host := pattern }, currentHost := some pattern }

/-- An option: it goes to the current host, if there is one. -/
def addOption (rt : ConfigRuntime) (parse : ConfigParse) (key value : String) : ConfigParse :=
  match parse.currentHost with
  | none => parse
  | some pattern =>
    { parse with hosts := parse.hosts.modify pattern fun host => setHostOption rt host key value }

/-- A line that was read. -/
def addLine (rt : ConfigRuntime) (parse : ConfigParse) : ConfigLine → ConfigParse
  | .host patterns => patterns.foldl startHost parse
  | .option key value => parse.addOption rt key value

end ConfigParse

/-- The lines of a file that say something. -/
def configLines (content : String) : List ConfigLine :=
  (splitText content '\n').filterMap readConfigLine

def parseContent (rt : ConfigRuntime) (content : String) : ConfigParse :=
  (splitText content '\n').foldl
    (fun parse rawLine => (readConfigLine rawLine).elim parse (parse.addLine rt)) {}

/-! ### Resolving -/

/-- `matchPattern`. Everything but the wildcards is escaped in the expression, and its letters match
in both cases. -/
def matchPattern (rt : ConfigRuntime) (pattern hostname : String) : Bool :=
  pattern = "*" || wildcardMatches ((JsText.units pattern).map rt.canonicalize)
    ((JsText.units hostname).map rt.canonicalize)

def getHostConfig (rt : ConfigRuntime) (hosts : OrderedMap String SSHHostConfig)
    (hostAlias : String) : Option SSHHostConfig :=
  match hosts.get? hostAlias with
  | some config => some config
  | none => (hosts.entries.find? fun e => matchPattern rt e.1 hostAlias).map Prod.snd

/-- What `resolveHost` returns. -/
structure ResolvedHost where
  host : String
  username : Option String := none
  port : Option JsNumber := none
  privateKeyPath : Option String := none
  proxyJump : Option String := none
deriving DecidableEq

def resolveHost (rt : ConfigRuntime) (hosts : OrderedMap String SSHHostConfig)
    (hostAlias : String) :
    ResolvedHost :=
  match getHostConfig rt hosts hostAlias with
  | none => { host := hostAlias }
  | some config => {
      host := config.hostName.getD hostAlias
      username := truthy config.user
      port := config.port
      privateKeyPath := truthy config.identityFile
      proxyJump := truthy config.proxyJump }

/-! ### Blocks -/

/-- A `Host` line and the options below it. -/
structure HostBlock where
  patterns : List String
  options : List (String × String)
deriving DecidableEq

/-- The options in front of the next `Host` line. -/
def leadingOptions : List ConfigLine → List (String × String)
  | .option key value :: lines => (key, value) :: leadingOptions lines
  | _ => []

/-- The blocks that begin at a `Host` line. -/
def blocksOf : List ConfigLine → List HostBlock
  | [] => []
  | .option _ _ :: lines => blocksOf lines
  | .host patterns :: lines => ⟨patterns, leadingOptions lines⟩ :: blocksOf lines

/-- **The blocks of a file**, in its order. -/
def hostBlocks (content : String) : List HostBlock := blocksOf (configLines content)

/-- All the patterns of a file, in its order. -/
def allPatterns (blocks : List HostBlock) : List String := blocks.flatMap (·.patterns)

namespace HostBlock

/-- The value that the block gives last under a key. -/
def lastValue (block : HostBlock) (key : String) : Option String :=
  (block.options.reverse.find? (·.1 = key)).map Prod.snd

/-- **What an alias is resolved to by the block alone.** -/
def resolved (rt : ConfigRuntime) (block : HostBlock) (hostAlias : String) : ResolvedHost where
  host := (block.lastValue "hostname").getD hostAlias
  username := block.lastValue "user"
  port := (block.lastValue "port").map parseDecimal
  privateKeyPath := truthy ((block.lastValue "identityfile").map (expandHome rt))
  proxyJump := block.lastValue "proxyjump"

/-- The entry of the parser that has the options of the block. -/
def config (rt : ConfigRuntime) (block : HostBlock) (pattern : String) : SSHHostConfig :=
  block.options.foldl (fun host o => setHostOption rt host o.1 o.2) { host := pattern }

/-- The entry of a pattern on the `Host` line of the block: the last one has the options. -/
def entry (rt : ConfigRuntime) (block : HostBlock) (pattern : String) : SSHHostConfig :=
  if block.patterns.getLast? = some pattern then block.config rt pattern else { host := pattern }

end HostBlock

/-- The last block that has the pattern on its `Host` line. -/
def lastNaming (blocks : List HostBlock) (pattern : String) : Option HostBlock :=
  blocks.reverse.find? (pattern ∈ ·.patterns)

/-- The pattern that an alias is resolved by: itself, or else the first one that matches it. -/
def chosenPattern (rt : ConfigRuntime) (blocks : List HostBlock) (hostAlias : String) :
    Option String :=
  if hostAlias ∈ allPatterns blocks then some hostAlias
  else (allPatterns blocks).find? fun pattern => matchPattern rt pattern hostAlias

/-! ### The entries of the parser -/

namespace ConfigParse

variable (rt : ConfigRuntime)

/-- A block: its patterns, and then its options. -/
def addBlock (parse : ConfigParse) (block : HostBlock) : ConfigParse :=
  block.options.foldl (fun parse o => parse.addOption rt o.1 o.2)
    (block.patterns.foldl startHost parse)

theorem foldl_addLine (parse : ConfigParse) (lines : List ConfigLine) :
    lines.foldl (addLine rt) parse = (blocksOf lines).foldl (addBlock rt)
      ((leadingOptions lines).foldl (fun parse o => parse.addOption rt o.1 o.2) parse) := by
  induction lines generalizing parse with
  | nil => rfl
  | cons line lines ih =>
    cases line with
    | host patterns => exact ih (patterns.foldl startHost parse)
    | option key value => exact ih (parse.addOption rt key value)

theorem get?_foldl_startHost (parse : ConfigParse) (patterns : List String) (pattern : String) :
    (patterns.foldl startHost parse).hosts.get? pattern =
      if pattern ∈ patterns then some { host := pattern } else parse.hosts.get? pattern := by
  induction patterns generalizing parse with
  | nil => rfl
  | cons q qs ih =>
    rw [List.foldl_cons, ih, startHost]
    by_cases hqs : pattern ∈ qs
    · rw [if_pos hqs, if_pos (List.mem_cons_of_mem q hqs)]
    · rw [if_neg hqs, OrderedMap.get?_set]
      by_cases hq : pattern = q
      · subst hq
        rw [if_pos rfl, if_pos List.mem_cons_self]
      · rw [if_neg hq, if_neg (by simp [hq, hqs])]

theorem currentHost_foldl_startHost (parse : ConfigParse) (patterns : List String) :
    (patterns.foldl startHost parse).currentHost = patterns.getLast?.or parse.currentHost := by
  induction patterns generalizing parse with
  | nil => rfl
  | cons q qs ih =>
    rw [List.foldl_cons, ih, List.getLast?_cons]
    cases qs.getLast? with
    | none => rfl
    | some => rfl

theorem find?_keys_foldl_startHost (parse : ConfigParse) (patterns : List String)
    (f : String → Bool) :
    (patterns.foldl startHost parse).hosts.keys.find? f =
      (parse.hosts.keys.find? f).or (patterns.find? f) := by
  induction patterns generalizing parse with
  | nil => rw [List.foldl_nil, List.find?_nil, Option.or_none]
  | cons q qs ih =>
    have hset : (parse.startHost q).hosts.keys.find? f =
        (parse.hosts.keys.find? f).or ([q].find? f) := by
      cases hget : parse.hosts.get? q with
      | none => rw [startHost, OrderedMap.keys_set_of_none hget, List.find?_append]
      | some =>
        rw [startHost, OrderedMap.keys_set_of_some hget]
        cases hfind : parse.hosts.keys.find? f with
        | some => rfl
        | none =>
          -- the pattern keeps its place, and was looked at there
          have hq : q ∈ parse.hosts.keys := OrderedMap.mem_keys.mpr (by rw [hget]; rfl)
          rw [Option.none_or, List.find?_cons_of_neg (List.find?_eq_none.mp hfind q hq),
            List.find?_nil]
    rw [List.foldl_cons, ih, hset, Option.or_assoc, ← List.find?_append, List.singleton_append]

theorem foldl_addOption {parse : ConfigParse} {current : String}
    (hcurrent : parse.currentHost = some current) (options : List (String × String)) :
    let after := options.foldl (fun parse o => parse.addOption rt o.1 o.2) parse
    after.currentHost = some current ∧ after.hosts.keys = parse.hosts.keys ∧
      ∀ pattern, after.hosts.get? pattern = if pattern = current then
        (parse.hosts.get? current).map fun host =>
          options.foldl (fun host o => setHostOption rt host o.1 o.2) host
        else parse.hosts.get? pattern := by
  induction options generalizing parse with
  | nil =>
    refine ⟨hcurrent, rfl, fun pattern => ?_⟩
    split
    · next h =>
      subst h
      exact Option.map_id'.symm
    · rfl
  | cons o os ih =>
    have hstep : parse.addOption rt o.1 o.2 =
        { parse with hosts := parse.hosts.modify current fun host =>
            setHostOption rt host o.1 o.2 } := by
      rw [addOption, hcurrent]
    have hcurrent' : (parse.addOption rt o.1 o.2).currentHost = some current := by
      rw [hstep]
      exact hcurrent
    obtain ⟨hafter, hkeys, hget⟩ := ih hcurrent'
    refine ⟨hafter, hkeys.trans ?_, fun pattern => (hget pattern).trans ?_⟩
    · rw [hstep]
      exact OrderedMap.keys_modify _ _ _
    · rw [hstep, OrderedMap.get?_modify, OrderedMap.get?_modify, if_pos rfl, Option.map_map]
      split
      · rfl
      · rfl

/-- **What a block does to the entries.** -/
theorem get?_addBlock (parse : ConfigParse) {block : HostBlock} (h : block.patterns ≠ [])
    (pattern : String) :
    (parse.addBlock rt block).hosts.get? pattern =
      if pattern ∈ block.patterns then some (block.entry rt pattern) else parse.hosts.get?
        pattern := by
  obtain ⟨last, hlast⟩ : ∃ last, block.patterns.getLast? = some last :=
    ⟨_, List.getLast?_eq_some_getLast h⟩
  have hcurrent : (block.patterns.foldl startHost parse).currentHost = some last := by
    rw [currentHost_foldl_startHost, hlast, Option.some_or]
  obtain ⟨-, -, hget⟩ := foldl_addOption rt hcurrent block.options
  have hmem : last ∈ block.patterns := List.mem_of_getLast? hlast
  rw [addBlock, hget, get?_foldl_startHost, get?_foldl_startHost, if_pos hmem, HostBlock.entry,
    hlast]
  by_cases hpattern : pattern = last
  · subst hpattern
    rw [if_pos rfl, if_pos hmem, if_pos rfl]
    rfl
  · rw [if_neg hpattern, if_neg fun heq => hpattern (Option.some.inj heq).symm]

theorem find?_keys_addBlock (parse : ConfigParse) {block : HostBlock} (h : block.patterns ≠ [])
    (f : String → Bool) :
    (parse.addBlock rt block).hosts.keys.find? f =
      (parse.hosts.keys.find? f).or (block.patterns.find? f) := by
  have hcurrent : (block.patterns.foldl startHost parse).currentHost =
      some (block.patterns.getLast h) := by
    rw [currentHost_foldl_startHost, List.getLast?_eq_some_getLast h, Option.some_or]
  obtain ⟨-, hkeys, -⟩ := foldl_addOption rt hcurrent block.options
  rw [addBlock, hkeys, find?_keys_foldl_startHost]

theorem get?_foldl_addBlock (parse : ConfigParse) {blocks : List HostBlock}
    (h : ∀ block ∈ blocks, block.patterns ≠ []) (pattern : String) :
    (blocks.foldl (addBlock rt) parse).hosts.get? pattern =
      ((lastNaming blocks pattern).map fun block => block.entry rt pattern).or
        (parse.hosts.get? pattern) := by
  induction blocks generalizing parse with
  | nil => rfl
  | cons block blocks ih =>
    obtain ⟨hblock, hblocks⟩ := List.forall_mem_cons.mp h
    rw [List.foldl_cons, ih _ hblocks, get?_addBlock rt parse hblock, lastNaming, lastNaming,
      List.reverse_cons, List.find?_append]
    cases blocks.reverse.find? fun block => decide (pattern ∈ block.patterns) with
    | some => rfl
    | none =>
      rw [Option.none_or, Option.map_none, Option.none_or]
      split
      · next hmem =>
        rw [List.find?_singleton, if_pos (decide_eq_true hmem)]
        rfl
      · next hmem =>
        rw [List.find?_singleton, if_neg (by simpa using hmem)]
        rfl

theorem find?_keys_foldl_addBlock (parse : ConfigParse) {blocks : List HostBlock}
    (h : ∀ block ∈ blocks, block.patterns ≠ []) (f : String → Bool) :
    (blocks.foldl (addBlock rt) parse).hosts.keys.find? f =
      (parse.hosts.keys.find? f).or ((allPatterns blocks).find? f) := by
  induction blocks generalizing parse with
  | nil =>
    change parse.hosts.keys.find? f = (parse.hosts.keys.find? f).or none
    rw [Option.or_none]
  | cons block blocks ih =>
    obtain ⟨hblock, hblocks⟩ := List.forall_mem_cons.mp h
    rw [List.foldl_cons, ih _ hblocks, find?_keys_addBlock rt parse hblock, Option.or_assoc,
      ← List.find?_append]
    rfl

end ConfigParse

/-! ### Lines -/

/-- A text has words unless it is white space. -/
theorem words_ne_nil {value : String} {c : Char} (hc : c ∈ value.toList)
    (hspace : JsText.isSpace c = false) : JsText.words value ≠ [] := by
  intro hwords
  have hnone := List.map_eq_nil_iff.mp hwords
  generalize value.toList = cs at hc hnone
  induction cs with
  | nil => cases hc
  | cons d cs ih =>
    rw [List.splitOnP_cons_eq_if_modifyHead] at hnone
    split at hnone
    · next hd =>
      refine ih ((List.mem_cons.mp hc).resolve_left ?_) (by simpa using hnone)
      rintro rfl
      rw [hspace] at hd
      cases hd
    · cases hpieces : cs.splitOnP JsText.isSpace with
      | nil => exact List.splitOnP_ne_nil _ _ hpieces
      | cons =>
        rw [hpieces] at hnone
        simp at hnone

/-- A value that was read has a word in it. -/
theorem matchOption_some {line key value : String} (h : matchOption line = some (key, value)) :
    value ≠ "" ∧ JsText.words value ≠ [] := by
  unfold matchOption at h
  dsimp only at h
  split at h
  · next hfilled =>
    obtain ⟨rfl, rfl⟩ := Prod.mk.inj (Option.some.inj h)
    have hhead := List.head?_dropWhile_not JsText.isSpace
      (line.toList.dropWhile fun c => !JsText.isSpace c)
    obtain ⟨c, cs, hvalue⟩ := List.exists_cons_of_ne_nil hfilled.2.1
    rw [hvalue] at hhead ⊢
    have hc : c ∈ (String.ofList (c :: cs)).toList := by simp
    refine ⟨fun hempty => ?_, words_ne_nil hc hhead⟩
    rw [hempty] at hc
    cases hc
  · cases h

/-- What a line says is not empty. -/
theorem readConfigLine_some {rawLine : String} {line : ConfigLine}
    (h : readConfigLine rawLine = some line) :
    (∀ patterns, line = .host patterns → patterns ≠ []) ∧
      ∀ key value, line = .option key value → value ≠ "" := by
  unfold readConfigLine at h
  dsimp only at h
  split at h
  · cases h
  · split at h
    · cases h
    · next key value hmatch =>
      obtain ⟨hvalue, hwords⟩ := matchOption_some hmatch
      split at h
      · obtain rfl := Option.some.inj h
        refine ⟨fun patterns heq => ?_, fun key value heq => (by cases heq)⟩
        obtain rfl := ConfigLine.host.inj heq
        exact hwords
      · obtain rfl := Option.some.inj h
        refine ⟨fun patterns heq => (by cases heq), fun key value heq => ?_⟩
        obtain ⟨-, rfl⟩ := ConfigLine.option.inj heq
        exact hvalue

theorem mem_leadingOptions {lines : List ConfigLine} {o : String × String}
    (h : o ∈ leadingOptions lines) : .option o.1 o.2 ∈ lines := by
  induction lines with
  | nil => cases h
  | cons line lines ih =>
    cases line with
    | host => cases h
    | option =>
      rcases List.mem_cons.mp h with rfl | hmem
      · exact List.mem_cons_self
      · exact List.mem_cons_of_mem _ (ih hmem)

/-- The blocks of a file have patterns, and their options have values. -/
theorem hostBlocks_filled {content : String} {block : HostBlock} (h : block ∈ hostBlocks content) :
    block.patterns ≠ [] ∧ ∀ o ∈ block.options, o.2 ≠ "" := by
  have hread : ∀ line ∈ configLines content, ∃ rawLine, readConfigLine rawLine = some line :=
    fun line hline => by
      obtain ⟨rawLine, -, hrawLine⟩ := List.mem_filterMap.mp hline
      exact ⟨rawLine, hrawLine⟩
  unfold hostBlocks at h
  generalize configLines content = lines at h hread
  induction lines with
  | nil => cases h
  | cons line lines ih =>
    obtain ⟨⟨rawLine, hrawLine⟩, hlines⟩ := List.forall_mem_cons.mp hread
    cases line with
    | option => exact ih h hlines
    | host patterns =>
      rcases List.mem_cons.mp h with rfl | hmem
      · refine ⟨(readConfigLine_some hrawLine).1 patterns rfl, fun o ho => ?_⟩
        obtain ⟨rawOption, hrawOption⟩ := hlines _ (mem_leadingOptions ho)
        exact (readConfigLine_some hrawOption).2 o.1 o.2 rfl
      · exact ih hmem hlines

/-! ### The parser after a file -/

variable {rt : ConfigRuntime}

theorem parseContent_eq (content : String) :
    parseContent rt content = (hostBlocks content).foldl (ConfigParse.addBlock rt) {} := by
  have hlines : parseContent rt content = (configLines content).foldl (ConfigParse.addLine rt)
    {} := by
    unfold parseContent configLines
    rw [List.foldl_filterMap]
    refine congrArg (fun f => List.foldl f ({} : ConfigParse) _) (funext₂ fun parse rawLine => ?_)
    cases readConfigLine rawLine with
    | none => rfl
    | some => rfl
  have hignored : ∀ options : List (String × String),
      options.foldl (fun parse o => parse.addOption rt o.1 o.2) ({} : ConfigParse) = {} := by
    intro options
    induction options with
    | nil => rfl
    | cons o os ih => exact ih
  rw [hlines, ConfigParse.foldl_addLine, hignored]
  rfl

/-- **An entry of the parser is from the last block that has its pattern.** -/
theorem get?_parseContent (content pattern : String) :
    (parseContent rt content).hosts.get? pattern =
      (lastNaming (hostBlocks content) pattern).map fun block => block.entry rt pattern := by
  rw [parseContent_eq, ConfigParse.get?_foldl_addBlock rt {} fun block h => (hostBlocks_filled h).1]
  exact Option.or_none

/-- **The entries are tried in the order of the patterns in the file.** -/
theorem find?_keys_parseContent (content : String) (f : String → Bool) :
    (parseContent rt content).hosts.keys.find? f = (allPatterns (hostBlocks content)).find? f := by
  rw [parseContent_eq,
    ConfigParse.find?_keys_foldl_addBlock rt {} fun block h => (hostBlocks_filled h).1]
  exact Option.none_or

theorem lastNaming_eq_none_iff {blocks : List HostBlock} {pattern : String} :
    lastNaming blocks pattern = none ↔ pattern ∉ allPatterns blocks := by
  simp [lastNaming, allPatterns]

/-- The entry that an alias is resolved by is the one of its chosen pattern. -/
theorem getHostConfig_parseContent (content hostAlias : String) :
    getHostConfig rt (parseContent rt content).hosts hostAlias =
      (chosenPattern rt (hostBlocks content) hostAlias).bind
        (parseContent rt content).hosts.get? := by
  have hget := @get?_parseContent rt content hostAlias
  unfold getHostConfig chosenPattern
  by_cases hmem : hostAlias ∈ allPatterns (hostBlocks content)
  · obtain ⟨block, hblock⟩ := Option.ne_none_iff_exists'.mp
      (mt lastNaming_eq_none_iff.mp (not_not.mpr hmem))
    rw [hblock] at hget
    rw [if_pos hmem, Option.bind_some, hget]
    rfl
  · rw [lastNaming_eq_none_iff.mpr hmem] at hget
    rw [if_neg hmem, hget]
    dsimp only [Option.map_none]
    rw [← @find?_keys_parseContent rt]
    exact OrderedMap.map_find?_entries _ fun pattern => matchPattern rt pattern hostAlias

/-! ### The values of a block -/

namespace HostBlock

/-- **An entry with the options of a block has the values that the block gives last.** -/
theorem config_eq (block : HostBlock) (pattern : String) :
    block.config rt pattern = {
      host := pattern
      hostName := block.lastValue "hostname"
      user := block.lastValue "user"
      port := (block.lastValue "port").map parseDecimal
      identityFile := (block.lastValue "identityfile").map (expandHome rt)
      proxyJump := block.lastValue "proxyjump" } := by
  obtain ⟨patterns, options⟩ := block
  unfold config lastValue
  dsimp only
  -- on the options from the last one: each of them overwrites the values in front of it
  induction options using List.reverseRecOn with
  | nil => rfl
  | append_singleton options o ih =>
    obtain ⟨key, value⟩ := o
    rw [List.foldl_append, List.foldl_cons, List.foldl_nil, ih, List.reverse_append]
    simp only [List.reverse_singleton, List.singleton_append, List.find?_cons]
    unfold setHostOption
    split
    · rfl
    · rfl
    · rfl
    · rfl
    · rfl
    · next hhostname huser hport hidentityfile hproxyjump =>
      simp only [decide_eq_false hhostname, decide_eq_false huser, decide_eq_false hport,
        decide_eq_false hidentityfile, decide_eq_false hproxyjump]

theorem lastValue_ne_empty {block : HostBlock} (h : ∀ o ∈ block.options, o.2 ≠ "") (key : String) :
    truthy (block.lastValue key) = block.lastValue key := by
  unfold lastValue
  cases hfind : block.options.reverse.find? fun o => decide (o.1 = key) with
  | none => rfl
  | some o => exact truthy_some (h o (List.mem_reverse.mp (List.mem_of_find?_eq_some hfind)))

end HostBlock

/-! ### Resolution -/

/-- The block is the last one that has the pattern on its `Host` line. -/
def LastNaming (blocks : List HostBlock) (pattern : String) (block : HostBlock) : Prop :=
  ∃ before after, blocks = before ++ block :: after ∧ pattern ∈ block.patterns ∧
    ∀ later ∈ after, pattern ∉ later.patterns

theorem lastNaming_of_eq_some {blocks : List HostBlock} {pattern : String} {block : HostBlock}
    (h : lastNaming blocks pattern = some block) : LastNaming blocks pattern block := by
  obtain ⟨hmem, after, before, hblocks, hafter⟩ := List.find?_eq_some_iff_append.mp h
  refine ⟨before.reverse, after.reverse, ?_, of_decide_eq_true hmem, fun later hlater => ?_⟩
  · have hreverse := congrArg List.reverse hblocks
    simpa using hreverse
  · have hnot := hafter later (List.mem_reverse.mp hlater)
    simpa using hnot

theorem chosenPattern_mem {blocks : List HostBlock} {hostAlias pattern : String}
    (h : chosenPattern rt blocks hostAlias = some pattern) : pattern ∈ allPatterns blocks := by
  unfold chosenPattern at h
  split at h
  · next hmem => exact Option.some.inj h ▸ hmem
  · exact List.mem_of_find?_eq_some h

/-- **Every value is from one block.** An alias is resolved by the last block that has its chosen
pattern, provided that this is the last pattern on the `Host` line. -/
theorem resolveHost_from_one_block (rt : ConfigRuntime) (content hostAlias : String) :
    (chosenPattern rt (hostBlocks content) hostAlias = none →
      resolveHost rt (parseContent rt content).hosts hostAlias = { host := hostAlias }) ∧
    ∀ pattern, chosenPattern rt (hostBlocks content) hostAlias = some pattern →
      ∃ block, LastNaming (hostBlocks content) pattern block ∧
        (block.patterns.getLast? = some pattern →
          resolveHost rt (parseContent rt content).hosts hostAlias = block.resolved rt
            hostAlias) := by
  have hconfig := @getHostConfig_parseContent rt content hostAlias
  constructor
  · intro hnone
    rw [hnone] at hconfig
    rw [resolveHost, hconfig]
    rfl
  · intro pattern hchosen
    obtain ⟨block, hblock⟩ := Option.ne_none_iff_exists'.mp
      (mt lastNaming_eq_none_iff.mp (not_not.mpr (chosenPattern_mem hchosen)))
    have hnaming := lastNaming_of_eq_some hblock
    refine ⟨block, hnaming, fun hlast => ?_⟩
    rw [hchosen, Option.bind_some, get?_parseContent, hblock, Option.map_some, HostBlock.entry,
      if_pos hlast, HostBlock.config_eq] at hconfig
    -- the values of a file are not empty
    obtain ⟨before, after, hblocks, -, -⟩ := hnaming
    have hmem : block ∈ hostBlocks content := by
      rw [hblocks]
      exact List.mem_append_right _ List.mem_cons_self
    have hfilled := (hostBlocks_filled hmem).2
    rw [resolveHost, hconfig]
    dsimp only
    rw [HostBlock.lastValue_ne_empty hfilled, HostBlock.lastValue_ne_empty hfilled]
    rfl

/-! ### The first value -/

/-- The value that is given first under a key, among the blocks with a pattern that matches. -/
def firstValue (rt : ConfigRuntime) (blocks : List HostBlock) (hostAlias key : String) :
    Option String :=
  (((blocks.filter fun block => block.patterns.any fun pattern => matchPattern rt pattern hostAlias)
    |>.flatMap (·.options)).find? (·.1 = key)).map Prod.snd

/-- What an alias is resolved to where the first value counts, whatever block it is in. -/
def firstResolved (rt : ConfigRuntime) (blocks : List HostBlock) (hostAlias : String) :
    ResolvedHost where
  host := (firstValue rt blocks hostAlias "hostname").getD hostAlias
  username := firstValue rt blocks hostAlias "user"
  port := (firstValue rt blocks hostAlias "port").map parseDecimal
  privateKeyPath := truthy ((firstValue rt blocks hostAlias "identityfile").map (expandHome rt))
  proxyJump := firstValue rt blocks hostAlias "proxyjump"

/-- A home directory, and letters of ASCII. -/
def sampleConfigRuntime : ConfigRuntime where
  homedir := "/home/demo"
  pathJoin dir file := dir ++ "/" ++ file
  canonicalize u := if 0x61 ≤ u ∧ u ≤ 0x7A then u - 0x20 else u
  canonicalize_many u := by
    change (if 0x61 ≤ u ∧ u ≤ 0x7A then u - 0x20 else u) = 0x2A ↔ u = 0x2A
    split <;> omega
  canonicalize_one u := by
    change (if 0x61 ≤ u ∧ u ≤ 0x7A then u - 0x20 else u) = 0x3F ↔ u = 0x3F
    split <;> omega
  canonicalize_line u := by
    split
    · next h =>
      rw [Bool.eq_iff_iff]
      simp only [isLineTerminator, Bool.or_eq_true, decide_eq_true_iff]
      omega
    · rfl

/-- A host, and an option for all hosts. -/
def sampleConfigFile : String := "Host web\n  HostName web.example.com\nHost *\n  User deploy\n"

/-- The user is given for all hosts, and is not found for the host that has a block of its own. -/
theorem blocks_not_combined :
    hostBlocks sampleConfigFile =
        [⟨["web"], [("hostname", "web.example.com")]⟩, ⟨["*"], [("user", "deploy")]⟩] ∧
      firstResolved sampleConfigRuntime (hostBlocks sampleConfigFile) "web" =
        { host := "web.example.com", username := some "deploy" } ∧
      resolveHost sampleConfigRuntime (parseContent sampleConfigRuntime sampleConfigFile).hosts
        "web" =
        { host := "web.example.com" } := by
  decide +kernel

end Ssh
