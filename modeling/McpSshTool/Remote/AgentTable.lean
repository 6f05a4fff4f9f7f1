import McpSshTool.Js.Stringify
import McpSshTool.Remote.ControlPlane.Handlers

/-!
# The table of agents, column by column

`insertAgent`, `updateAgent` and `agentFromRow` as they are written: statements that list columns,
the values bound to them in order, and a record put together from the columns of a row.

* `insertRow`, `updateRow`, `agentFromRow` — the three lists of columns;
* `readRecord` — a record with its texts as the columns give them back; `readRecord_of_plain` for
  texts without NULs;
* `agentFromRow_insertRow`, `agentFromRow_updateRow` — what a row reads back as after either
  statement: what the store of records says it does, cut at NULs;
* `AgentsTable` — the table with its constraints: rows are read back, the id is the primary key, and
  no two rows have a user and an alias in common;
* `agent_round_trip` — what the table returns after a record is written.

A JSON column holds the text that `JSON.stringify` makes of a value, in which a NUL is escaped, and
is modelled by that value.
-/

open Library

namespace Remote

open RemoteStore

/-! ### Columns -/

/-- The columns of `agents`. -/
inductive AgentColumn where
  | id | userId | aliasName | status | publicKey | profile | policyJson | policyVersion
  | hostMetadataJson | lastSeenAt | createdAt | updatedAt
deriving DecidableEq

/-- `SqlValue`: what a column holds. -/
inductive SqlValue where
  | null
  | text (s : String)
  /-- The text that `JSON.stringify` makes of a value. -/
  | json (v : Value)
  | integer (n : ℕ)

abbrev AgentsRow := AgentColumn → SqlValue

/-- Set columns to the values bound to them, in order. -/
def assign (columns : List AgentColumn) (values : List SqlValue) (row : AgentsRow) : AgentsRow :=
  (columns.zip values).foldl (fun row e => Function.update row e.1 e.2) row

/-- Bind `JSON.stringify(v)`; `undefined` cannot be bound. -/
def bindJson (v : Value) : Option SqlValue := if v.isUndefined then none else some (.json v)

/-- Bind `s ?? null`. -/
def bindOptional : Option String → SqlValue
  | none => .null
  | some s => .text s

section Statements

variable (platform : Platform)

/-- `INSERT INTO agents (…)`. -/
def insertColumns : List AgentColumn :=
  [.id, .userId, .aliasName, .status, .publicKey, .profile, .policyJson, .policyVersion,
    .hostMetadataJson, .lastSeenAt, .createdAt, .updatedAt]

/-- The values that `insertAgent` binds. -/
def insertValues (agent : RemoteAgentRecord) : Option (List SqlValue) := do
  let profile ← profileText platform agent.profile
  let policy ← bindJson agent.policy
  return [.text agent.id, .text agent.userId, .text agent.aliasName, .text agent.status.text,
    bindOptional agent.publicKey, .text profile, policy, .integer agent.policyVersion,
    (agent.hostMetadata.map fun host => SqlValue.json host.toValue).getD .null,
    bindOptional agent.lastSeenAt, .text agent.createdAt, .text agent.updatedAt]

/-- `UPDATE agents SET …`. -/
def updateColumns : List AgentColumn :=
  [.aliasName, .status, .publicKey, .profile, .policyJson, .policyVersion, .hostMetadataJson,
    .lastSeenAt, .updatedAt]

/-- The values that `updateAgent` binds, but for the id. -/
def updateValues (agent : RemoteAgentRecord) : Option (List SqlValue) := do
  let profile ← profileText platform agent.profile
  let policy ← bindJson agent.policy
  return [.text agent.aliasName, .text agent.status.text, bindOptional agent.publicKey,
    .text profile,
    policy, .integer agent.policyVersion,
    (agent.hostMetadata.map fun host => SqlValue.json host.toValue).getD .null,
    bindOptional agent.lastSeenAt, .text agent.updatedAt]

/-- The row that `insertAgent` writes. -/
def insertRow (agent : RemoteAgentRecord) : Option AgentsRow :=
  (insertValues platform agent).map fun values => assign insertColumns values fun _ => .null

/-- What `updateAgent` makes of a row. -/
def updateRow (agent : RemoteAgentRecord) (row : AgentsRow) : Option AgentsRow :=
  (updateValues platform agent).map fun values => assign updateColumns values row

/-- The text that a column keeps, which the conditions of the statements are about. -/
def storedText (row : AgentsRow) (key : AgentColumn) : String :=
  match row key with
  | .null => ""
  | .text s => s
  | .json v => (v.stringify platform.numberText).getD ""
  | .integer n => toString n

def rowString (row : AgentsRow) (key : AgentColumn) : String :=
  columnText (storedText platform row key)

def optionalRowString (row : AgentsRow) (key : AgentColumn) : Option String :=
  match row key with
  | .text s => optionalText (some (columnText s))
  | .json v => v.stringify platform.numberText
  | _ => none

/-- `parseJson`; the JSON columns hold no text but what `JSON.stringify` has made. -/
def parseJson : SqlValue → Option Value
  | .json v => some v.transport
  | _ => none

/-- The metadata of a host that a value is. -/
def AgentHostMetadata.ofValue (v : Value) : Option AgentHostMetadata := do
  let hostname ← (v.member "hostname").asString
  let os ← (v.member "os").asString
  let arch ← (v.member "arch").asString
  let platform ← (v.member "platform").asString
  return { hostname := hostname, os := os, arch := arch, platform := platform }

/-- The status that a text is. -/
def AgentStatus.ofText? (s : String) : Option AgentStatus :=
  [AgentStatus.pending, .online, .offline, .revoked].find? fun status => status.text = s

/-- `Number(row["policy_version"] ?? 1)`. -/
def rowVersion : SqlValue → Option ℕ
  | .integer n => some n
  | .null => some 1
  | _ => none

/-- The column `host_metadata_json`, parsed unless it is null. -/
def rowHostMetadata : SqlValue → Option (Option AgentHostMetadata)
  | .null => some none
  | value => ((parseJson value).bind AgentHostMetadata.ofValue).map some

/-- `agentFromRow`; `none` for a row that holds no record. -/
def agentFromRow (row : AgentsRow) : Option RemoteAgentRecord := do
  let status ← AgentStatus.ofText? (rowString platform row .status)
  let policy ← parseJson (row .policyJson)
  let policyVersion ← rowVersion (row .policyVersion)
  let hostMetadata ← rowHostMetadata (row .hostMetadataJson)
  return {
    id := rowString platform row .id
    userId := rowString platform row .userId
    aliasName := rowString platform row .aliasName
    status := status
    publicKey := optionalRowString platform row .publicKey
    profile := .str (rowString platform row .profile)
    policy := policy
    policyVersion := policyVersion
    hostMetadata := hostMetadata
    lastSeenAt := optionalRowString platform row .lastSeenAt
    createdAt := rowString platform row .createdAt
    updatedAt := rowString platform row .updatedAt }

/-! ### What a row reads back as -/

/-- A record of a row, with its texts as the columns give them back. -/
def readRecord (agent : RemoteAgentRecord) : RemoteAgentRecord :=
  { agent with
    id := columnText agent.id
    userId := columnText agent.userId
    aliasName := columnText agent.aliasName
    publicKey := optionalText (agent.publicKey.map columnText)
    profile := match agent.profile with
      | .str s => .str (columnText s)
      | v => v
    lastSeenAt := optionalText (agent.lastSeenAt.map columnText)
    createdAt := columnText agent.createdAt
    updatedAt := columnText agent.updatedAt }

/-- **A record without NULs** in the texts of its columns. -/
structure Plain (agent : RemoteAgentRecord) : Prop where
  id : Char.ofNat 0 ∉ agent.id.toList
  userId : Char.ofNat 0 ∉ agent.userId.toList
  aliasName : Char.ofNat 0 ∉ agent.aliasName.toList
  publicKey : ∀ s ∈ agent.publicKey, Char.ofNat 0 ∉ s.toList
  profile : ∀ s, agent.profile = .str s → Char.ofNat 0 ∉ s.toList
  lastSeenAt : ∀ s ∈ agent.lastSeenAt, Char.ofNat 0 ∉ s.toList
  createdAt : Char.ofNat 0 ∉ agent.createdAt.toList
  updatedAt : Char.ofNat 0 ∉ agent.updatedAt.toList

variable {platform}

theorem map_columnText {s : Option String} (h : ∀ t ∈ s, Char.ofNat 0 ∉ t.toList) :
    s.map columnText = s := by
  cases s with
  | none => rfl
  | some t => exact congrArg some (columnText_eq_self (h t rfl))

/-- **A record without NULs is read as it is.** -/
theorem readRecord_of_plain {agent : RemoteAgentRecord} (hplain : Plain agent)
    (hrow : IsRow agent) :
    readRecord agent = agent := by
  obtain ⟨profile, hprofile⟩ := hrow.profile_text
  have hpublicKey := hrow.publicKey_read
  have hlastSeenAt := hrow.lastSeenAt_read
  have hread := columnText_eq_self (hplain.profile profile hprofile)
  unfold readRecord
  rw [columnText_eq_self hplain.id, columnText_eq_self hplain.userId,
    columnText_eq_self hplain.aliasName, columnText_eq_self hplain.createdAt,
    columnText_eq_self hplain.updatedAt, map_columnText hplain.publicKey,
    map_columnText hplain.lastSeenAt, hpublicKey, hlastSeenAt]
  obtain ⟨id, userId, aliasName, status, publicKey, profile', policy, policyVersion, hostMetadata,
    lastSeenAt, createdAt, updatedAt⟩ := agent
  obtain rfl : profile' = .str profile := hprofile
  dsimp only
  rw [hread]

theorem optionalText_read (s : String) :
    optionalText ((optionalText (some s)).map columnText) = optionalText (some (columnText s)) := by
  by_cases h : s = ""
  · subst h
    rfl
  · have hsome : optionalText (some s) = some s := by simp [optionalText, Option.filter, h]
    rw [hsome]
    rfl

theorem ofText?_columnText (status : AgentStatus) :
    AgentStatus.ofText? (columnText status.text) = some status := by
  rw [columnText_eq_self (by cases status <;> decide)]
  cases status <;> rfl

theorem bindJson_of_defined {v : Value} (h : v.isUndefined = false) :
    bindJson v = some (.json v) := by
  rw [bindJson, h]
  rfl

/-- **A row that is inserted** reads back as `agentRow` says, in what the columns give back. -/
theorem agentFromRow_insertRow {agent : RemoteAgentRecord} (h : agent.policy.isUndefined = false) :
    (insertRow platform agent).bind (agentFromRow platform) =
      (agentRow platform agent).map readRecord := by
  unfold insertRow insertValues agentRow
  rw [bindJson_of_defined h]
  cases profileText platform agent.profile with
  | none => rfl
  | some =>
    obtain ⟨id, userId, aliasName, status, publicKey, profile', policy, policyVersion, hostMetadata,
      lastSeenAt, createdAt, updatedAt⟩ := agent
    change (AgentStatus.ofText? (columnText status.text)).bind _ = _
    rw [ofText?_columnText]
    -- the columns are compared one by one, and those that may be null by cases
    cases publicKey <;> cases hostMetadata <;> cases lastSeenAt <;>
      simp only [readRecord, Option.map_some, optionalText_read] <;> rfl

/-- **A row that is updated** keeps its id, user and creation time. -/
theorem agentFromRow_updateRow {agent old : RemoteAgentRecord} {row : AgentsRow}
    (h : agent.policy.isUndefined = false) (hold : agentFromRow platform row = some old)
    (hid : old.id = columnText agent.id) :
    (updateRow platform agent row).bind (agentFromRow platform) =
      (agentRow platform agent).map fun written => updatedRow (readRecord written) old := by
  unfold agentFromRow at hold
  simp only [Option.bind_eq_bind, Option.bind_eq_some_iff] at hold
  obtain ⟨_, -, _, -, _, -, _, -, hold⟩ := hold
  obtain rfl := Option.some.inj hold
  unfold updateRow updateValues agentRow
  rw [bindJson_of_defined h]
  cases profileText platform agent.profile with
  | none => rfl
  | some =>
    obtain ⟨id, userId, aliasName, status, publicKey, profile', policy, policyVersion, hostMetadata,
      lastSeenAt, createdAt, updatedAt⟩ := agent
    have hid : rowString platform row .id = columnText id := hid
    change (AgentStatus.ofText? (columnText status.text)).bind _ = _
    rw [ofText?_columnText]
    cases publicKey <;> cases hostMetadata <;> cases lastSeenAt <;>
      simp only [readRecord, updatedRow, Option.map_some, optionalText_read, ← hid] <;> rfl

/-- Values are bound if the profile and the policy can be. -/
theorem exists_bound {α : Type} {agent : RemoteAgentRecord} {values : String → SqlValue → α}
    {row : α}
    (h : (do
      let profile ← profileText platform agent.profile
      let policy ← bindJson agent.policy
      return values profile policy) = some row) :
    agent.policy.isUndefined = false ∧ ∃ record, agentRow platform agent = some record := by
  simp only [Option.bind_eq_bind, Option.bind_eq_some_iff] at h
  obtain ⟨profile, hprofile, policy, hpolicy, -⟩ := h
  refine ⟨?_, _, congrArg (Option.map _) hprofile⟩
  unfold bindJson at hpolicy
  split at hpolicy
  · cases hpolicy
  · next hdefined => exact Bool.eq_false_iff.mpr hdefined

theorem read_insertRow {agent : RemoteAgentRecord} {row : AgentsRow}
    (h : insertRow platform agent = some row) :
    ∃ record, agentRow platform agent = some record ∧
      agentFromRow platform row = some (readRecord record) := by
  obtain ⟨values, hvalues, -⟩ := Option.map_eq_some_iff.mp h
  obtain ⟨hdefined, record, hrecord⟩ := exists_bound hvalues
  have hread : (insertRow platform agent).bind (agentFromRow platform) =
      (agentRow platform agent).map readRecord := agentFromRow_insertRow hdefined
  rw [h, hrecord] at hread
  exact ⟨record, hrecord, hread⟩

theorem read_updateRow {agent old : RemoteAgentRecord} {row row' : AgentsRow}
    (h : updateRow platform agent row = some row') (hold : agentFromRow platform row = some old)
    (hid : old.id = columnText agent.id) :
    ∃ record, agentRow platform agent = some record ∧
      agentFromRow platform row' = some (updatedRow (readRecord record) old) := by
  obtain ⟨values, hvalues, -⟩ := Option.map_eq_some_iff.mp h
  obtain ⟨hdefined, record, hrecord⟩ := exists_bound hvalues
  have hread := agentFromRow_updateRow hdefined hold hid
  rw [h, hrecord] at hread
  exact ⟨record, hrecord, hread⟩

theorem rowString_of_read {row : AgentsRow} {agent : RemoteAgentRecord}
    (h : agentFromRow platform row = some agent) :
    rowString platform row .id = agent.id ∧ rowString platform row .userId = agent.userId ∧
      rowString platform row .aliasName = agent.aliasName := by
  unfold agentFromRow at h
  simp only [Option.bind_eq_bind, Option.bind_eq_some_iff] at h
  obtain ⟨_, -, _, -, _, -, _, -, h⟩ := h
  obtain rfl := Option.some.inj h
  exact ⟨rfl, rfl, rfl⟩

theorem storedText_insertRow {agent : RemoteAgentRecord} {row : AgentsRow}
    (h : insertRow platform agent = some row) :
    storedText platform row .id = agent.id ∧ storedText platform row .userId = agent.userId ∧
      storedText platform row .aliasName = agent.aliasName := by
  obtain ⟨values, hvalues, rfl⟩ := Option.map_eq_some_iff.mp h
  unfold insertValues at hvalues
  simp only [Option.bind_eq_bind, Option.bind_eq_some_iff] at hvalues
  obtain ⟨profile, -, policy, -, hvalues⟩ := hvalues
  obtain rfl := Option.some.inj hvalues
  exact ⟨rfl, rfl, rfl⟩

theorem storedText_updateRow {agent : RemoteAgentRecord} {row row' : AgentsRow}
    (h : updateRow platform agent row = some row') :
    storedText platform row' .id = storedText platform row .id ∧
      storedText platform row' .userId = storedText platform row .userId ∧
      storedText platform row' .aliasName = agent.aliasName := by
  obtain ⟨values, hvalues, rfl⟩ := Option.map_eq_some_iff.mp h
  unfold updateValues at hvalues
  simp only [Option.bind_eq_bind, Option.bind_eq_some_iff] at hvalues
  obtain ⟨profile, -, policy, -, hvalues⟩ := hvalues
  obtain rfl := Option.some.inj hvalues
  exact ⟨rfl, rfl, rfl⟩

end Statements

/-! ### The table -/

/-- A row of the table: it is read, and has the key as its id. -/
def IsRowOf (platform : Platform) (id : String) (row : AgentsRow) : Prop :=
  (∃ agent, agentFromRow platform row = some agent) ∧ storedText platform row .id = id

/-- **The table `agents`**. -/
structure AgentsTable (platform : Platform) where
  isOpen : Bool
  /-- The rows by their primary key, in the order in which they were inserted. -/
  rows : OrderedMap String AgentsRow
  rows_read : ∀ e ∈ rows.entries, IsRowOf platform e.1 e.2
  /-- `UNIQUE(user_id, alias)`. -/
  alias_unique : ∀ e ∈ rows.entries, ∀ e' ∈ rows.entries,
    storedText platform e.2 .userId = storedText platform e'.2 .userId →
      storedText platform e.2 .aliasName = storedText platform e'.2 .aliasName → e.1 = e'.1

namespace AgentsTable

variable {platform : Platform}

/-- Whether a row other than that of the id has the user and the alias of a row. -/
def aliasTaken (t : AgentsTable platform) (id : String) (row : AgentsRow) : Bool :=
  t.rows.entries.any fun e => e.1 ≠ id &&
    (storedText platform e.2 .userId = storedText platform row .userId &&
      storedText platform e.2 .aliasName = storedText platform row .aliasName)

theorem eq_of_not_aliasTaken {t : AgentsTable platform} {id : String} {row : AgentsRow}
    (h : t.aliasTaken id row = false) {e : String × AgentsRow} (he : e ∈ t.rows.entries)
    (huser : storedText platform e.2 .userId = storedText platform row .userId)
    (halias : storedText platform e.2 .aliasName = storedText platform row .aliasName) :
    e.1 = id := by
  by_contra hne
  have htaken : t.aliasTaken id row = true :=
    List.any_eq_true.mpr ⟨e, he, by simp [hne, huser, halias]⟩
  rw [h] at htaken
  cases htaken

/-- Write a row whose user and alias no other row has. -/
def setRow (t : AgentsTable platform) (id : String) (row : AgentsRow)
    (hread : IsRowOf platform id row) (hfree : t.aliasTaken id row = false) :
    AgentsTable platform where
  isOpen := t.isOpen
  rows := t.rows.set id row
  rows_read e he := by
    rcases OrderedMap.mem_setList he with rfl | he
    · exact hread
    · exact t.rows_read e he
  alias_unique e he e' he' huser halias := by
    rcases OrderedMap.mem_setList he with rfl | he
    · rcases OrderedMap.mem_setList he' with rfl | he'
      · rfl
      · exact (eq_of_not_aliasTaken hfree he' huser.symm halias.symm).symm
    · rcases OrderedMap.mem_setList he' with rfl | he'
      · exact eq_of_not_aliasTaken hfree he huser halias
      · exact t.alias_unique e he e' he' huser halias

theorem isRowOf_insertRow {agent : RemoteAgentRecord} {row : AgentsRow}
    (h : insertRow platform agent = some row) : IsRowOf platform agent.id row := by
  obtain ⟨record, -, hread⟩ := read_insertRow h
  exact ⟨⟨_, hread⟩, (storedText_insertRow h).1⟩

theorem isRowOf_updateRow {agent : RemoteAgentRecord} {row row' : AgentsRow}
    (h : updateRow platform agent row = some row') (hrow : IsRowOf platform agent.id row) :
    IsRowOf platform agent.id row' := by
  obtain ⟨⟨old, hold⟩, hid⟩ := hrow
  have hold_id : old.id = columnText agent.id := by
    rw [← (rowString_of_read hold).1, rowString, hid]
  obtain ⟨record, -, hread⟩ := read_updateRow h hold hold_id
  exact ⟨⟨_, hread⟩, (storedText_updateRow h).1.trans hid⟩

theorem isRowOf_of_get? {t : AgentsTable platform} {id : String} {row : AgentsRow}
    (h : t.rows.get? id = some row) : IsRowOf platform id row :=
  t.rows_read (id, row) (OrderedMap.mem_entries_iff.mpr h)

def insertAgent (t : AgentsTable platform) (agent : RemoteAgentRecord) :
    Except Thrown (AgentsTable platform) :=
  if !t.isOpen then .error .sqlite
  else
    match h : insertRow platform agent with
    | none => .error .typeError
    | some row =>
      if t.rows.contains agent.id then .error .sqlite
      else if hfree : t.aliasTaken agent.id row = false then
        .ok (t.setRow agent.id row (isRowOf_insertRow h) hfree)
      else .error .sqlite

def updateAgent (t : AgentsTable platform) (agent : RemoteAgentRecord) :
    Except Thrown (AgentsTable platform) :=
  if !t.isOpen then .error .sqlite
  else
    match hget : t.rows.get? agent.id with
    | none => if (updateValues platform agent).isSome then .ok t else .error .typeError
    | some row =>
      match h : updateRow platform agent row with
      | none => .error .typeError
      | some row' =>
        if hfree : t.aliasTaken agent.id row' = false then
          .ok (t.setRow agent.id row' (isRowOf_updateRow h (isRowOf_of_get? hget)) hfree)
        else .error .sqlite

def getAgent (t : AgentsTable platform) (agentId : String) : Option RemoteAgentRecord :=
  (t.rows.get? agentId).bind (agentFromRow platform)

def getAgentByAlias (t : AgentsTable platform) (userId aliasName : String) :
    Option RemoteAgentRecord :=
  (t.rows.entries.find? fun e => storedText platform e.2 .userId = userId ∧
    storedText platform e.2 .aliasName = aliasName).bind fun e => agentFromRow platform e.2

def listAgents (t : AgentsTable platform) (userId : String) : List RemoteAgentRecord :=
  (((t.rows.entries.map Prod.snd).filter fun row =>
      storedText platform row .userId = userId).insertionSort fun a b =>
    JsText.le (storedText platform a .createdAt) (storedText platform b .createdAt)).filterMap
      (agentFromRow platform)

/-- **The rows of the table are found by what is read of them**: there is no NUL in the id, the user
and the alias of any. -/
def Plain (t : AgentsTable platform) : Prop :=
  ∀ e ∈ t.rows.entries, ∀ key ∈ [AgentColumn.id, .userId, .aliasName],
    Char.ofNat 0 ∉ (storedText platform e.2 key).toList

/-! ### What a statement writes -/

section Writes

variable {t t' : AgentsTable platform} {agent : RemoteAgentRecord}

theorem getAgent_setRow (t : AgentsTable platform) {id : String} {row : AgentsRow}
    (hread : IsRowOf platform id row) (hfree : t.aliasTaken id row = false) (id' : String) :
    (t.setRow id row hread hfree).getAgent id' =
      if id' = id then agentFromRow platform row else t.getAgent id' := by
  unfold getAgent setRow
  rw [OrderedMap.get?_set]
  split <;> rfl

/-- **What `insertAgent` writes**: the row of a free id. -/
theorem insertAgent_eq_ok (h : t.insertAgent agent = .ok t') :
    ∃ row hread hfree, t.isOpen = true ∧ t.rows.get? agent.id = none ∧
      insertRow platform agent = some row ∧ t' = t.setRow agent.id row hread hfree := by
  unfold insertAgent at h
  split at h
  · cases h
  · next hopen =>
    split at h
    · cases h
    · next row hrow =>
      split at h
      · cases h
      · next hnew =>
        split at h
        · next hfree =>
          -- the statement has gone through, so that the row is new and its alias is free
          exact ⟨row, isRowOf_insertRow hrow, hfree, by simpa using hopen,
            OrderedMap.contains_eq_false.mp (Bool.eq_false_iff.mpr hnew), hrow,
            (Except.ok.inj h).symm⟩
        · cases h

/-- **What `updateAgent` writes**: the row of the id, if there is one. -/
theorem updateAgent_eq_ok (h : t.updateAgent agent = .ok t') {row : AgentsRow}
    (hget : t.rows.get? agent.id = some row) :
    ∃ row' hread hfree, t.isOpen = true ∧ updateRow platform agent row = some row' ∧
      t' = t.setRow agent.id row' hread hfree := by
  unfold updateAgent at h
  split at h
  · cases h
  · next hopen =>
    split at h
    · next hnone =>
      rw [hget] at hnone
      cases hnone
    · next row₁ hsome =>
      -- `WHERE id = ?` finds the one row of the agent
      obtain rfl := Option.some.inj (hget.symm.trans hsome)
      split at h
      · cases h
      · next row' hrow =>
        split at h
        · next hfree =>
          exact ⟨row', isRowOf_updateRow hrow (isRowOf_of_get? hget), hfree, by simpa using hopen,
            hrow, (Except.ok.inj h).symm⟩
        · cases h

/-- A row that is written keeps the table plain if it is. -/
theorem Plain.setRow (h : t.Plain) {id : String} {row : AgentsRow}
    (hread : IsRowOf platform id row) (hfree : t.aliasTaken id row = false)
    (hid : Char.ofNat 0 ∉ id.toList)
    (huser : Char.ofNat 0 ∉ (storedText platform row .userId).toList)
    (halias : Char.ofNat 0 ∉ (storedText platform row .aliasName).toList) :
    (t.setRow id row hread hfree).Plain := by
  intro e he key hkey
  rcases OrderedMap.mem_setList he with rfl | he
  · rcases List.mem_cons.mp hkey with rfl | hkey
    · rw [hread.2]
      exact hid
    · rcases List.mem_cons.mp hkey with rfl | hkey
      · exact huser
      · rw [List.mem_singleton.mp hkey]
        exact halias
  · exact h e he key hkey

/-! ### The round trip -/

/-- **The table returns a record**, whichever way it is asked for it. -/
structure Returns (t : AgentsTable platform) (agent : RemoteAgentRecord) : Prop where
  byId : t.getAgent agent.id = some agent
  byAlias : t.getAgentByAlias agent.userId agent.aliasName = some agent
  listed : ∀ a, (a ∈ t.listAgents agent.userId ∧ a.id = agent.id) ↔ a = agent

theorem Plain.storedText_of_read (h : t.Plain) {e : String × AgentsRow} (he : e ∈ t.rows.entries)
    (hread : agentFromRow platform e.2 = some agent) :
    e.1 = agent.id ∧ storedText platform e.2 .userId = agent.userId ∧
      storedText platform e.2 .aliasName = agent.aliasName := by
  have htexts := rowString_of_read hread
  unfold rowString at htexts
  rw [columnText_eq_self (h e he .id (by decide)), columnText_eq_self (h e he .userId (by decide)),
    columnText_eq_self (h e he .aliasName (by decide))] at htexts
  exact ⟨(t.rows_read e he).2.symm.trans htexts.1, htexts.2⟩

/-- A record that is found by its id is found every other way, for no other row has its user and
alias. -/
theorem Plain.returns (hplain : t.Plain) (h : t.getAgent agent.id = some agent) :
    t.Returns agent := by
  obtain ⟨row, hget, hread⟩ := Option.bind_eq_some_iff.mp h
  have hmem : (agent.id, row) ∈ t.rows.entries := OrderedMap.mem_entries_iff.mpr hget
  have htexts := hplain.storedText_of_read hmem hread
  refine ⟨h, ?_, fun a => ⟨?_, ?_⟩⟩
  · -- no other row has the alias, for it is unique among the agents of a user
    unfold getAgentByAlias
    cases hfind : t.rows.entries.find? fun e => storedText platform e.2 .userId = agent.userId ∧
        storedText platform e.2 .aliasName = agent.aliasName with
    | none =>
      have hnone := List.find?_eq_none.mp hfind _ hmem
      exact absurd (decide_eq_true (show _ ∧ _ from htexts.2)) hnone
    | some e =>
      have he := List.mem_of_find?_eq_some hfind
      have hpair := List.find?_some hfind
      rw [decide_eq_true_eq] at hpair
      have hid : e.1 = agent.id := t.alias_unique e he _ hmem
        (hpair.1.trans htexts.2.1.symm) (hpair.2.trans htexts.2.2.symm)
      have hrow : t.rows.get? e.1 = some e.2 := OrderedMap.mem_entries_iff.mp he
      rw [hid, hget] at hrow
      obtain rfl := Option.some.inj hrow
      exact hread
  · -- a listed agent with this id comes from the same row
    rintro ⟨ha, hid⟩
    obtain ⟨row', hrow', hread'⟩ := List.mem_filterMap.mp ha
    rw [List.mem_insertionSort, List.mem_filter, List.mem_map] at hrow'
    obtain ⟨⟨e, he, rfl⟩, -⟩ := hrow'
    have hrow : t.rows.get? e.1 = some e.2 := OrderedMap.mem_entries_iff.mp he
    rw [(hplain.storedText_of_read he hread').1, hid, hget] at hrow
    obtain rfl := Option.some.inj hrow
    exact Option.some.inj (hread'.symm.trans hread)
  · rintro rfl
    refine ⟨List.mem_filterMap.mpr ⟨row, ?_, hread⟩, rfl⟩
    rw [List.mem_insertionSort, List.mem_filter]
    exact ⟨List.mem_map_of_mem hmem, decide_eq_true htexts.2.1⟩

end Writes

/-- **The round trip of a record**, for every table of rows without NULs: a record that a row can
hold and that has no NULs is returned as it was inserted, or as it was updated except that the row
keeps its user and its creation time, and no record of another id changes. -/
theorem agent_round_trip (t : AgentsTable platform) (agent : RemoteAgentRecord) (ht : t.Plain)
    (hrow : IsRow agent) (hplain : Remote.Plain agent) :
    (∀ t', t.insertAgent agent = .ok t' → t'.Plain ∧
      t'.Returns agent ∧ ∀ id, id ≠ agent.id → t'.getAgent id = t.getAgent id) ∧
      (∀ t' old, t.getAgent agent.id = some old → t.updateAgent agent = .ok t' → t'.Plain ∧
        t'.Returns { agent with userId := old.userId, createdAt := old.createdAt } ∧
          ∀ id, id ≠ agent.id → t'.getAgent id = t.getAgent id) := by
  have hkept : agentRow platform agent = some agent := agentRow_of_isRow platform hrow
  have hwhole : readRecord agent = agent := readRecord_of_plain hplain hrow
  constructor
  · intro t' h
    -- what is read back of the written row is the record, for no column changes it
    obtain ⟨row, hread, hfree, -, -, hinsert, rfl⟩ := insertAgent_eq_ok h
    obtain ⟨record, hrecord, hrecordRead⟩ := read_insertRow hinsert
    obtain rfl := Option.some.inj (hkept.symm.trans hrecord)
    rw [hwhole] at hrecordRead
    obtain ⟨-, huser, halias⟩ := storedText_insertRow hinsert
    have ht' : (t.setRow agent.id row hread hfree).Plain := ht.setRow hread hfree hplain.id
      (by rw [huser]; exact hplain.userId) (by rw [halias]; exact hplain.aliasName)
    refine ⟨ht', ht'.returns ?_, fun id hid => ?_⟩
    · rw [getAgent_setRow, if_pos rfl]
      exact hrecordRead
    · rw [getAgent_setRow, if_neg hid]
  · intro t' old hold h
    obtain ⟨row, hget, holdRead⟩ := Option.bind_eq_some_iff.mp hold
    obtain ⟨row', hread, hfree, -, hupdate, rfl⟩ := updateAgent_eq_ok h hget
    -- the owner and the time of creation are not among the columns that are written
    have hmem : (agent.id, row) ∈ t.rows.entries := OrderedMap.mem_entries_iff.mpr hget
    have hid : old.id = agent.id := (ht.storedText_of_read hmem holdRead).1.symm
    obtain ⟨record, hrecord, hrecordRead⟩ := read_updateRow hupdate holdRead
      (hid.trans (columnText_eq_self hplain.id).symm)
    obtain rfl := Option.some.inj (hkept.symm.trans hrecord)
    rw [hwhole] at hrecordRead
    obtain ⟨-, huser, halias⟩ := storedText_updateRow hupdate
    have ht' : (t.setRow agent.id row' hread hfree).Plain := ht.setRow hread hfree hplain.id
      (by rw [huser]; exact ht _ hmem .userId (by decide)) (by rw [halias]; exact hplain.aliasName)
    refine ⟨ht', ht'.returns ?_, fun id hid => ?_⟩
    · show (t.setRow agent.id row' hread hfree).getAgent agent.id = _
      rw [getAgent_setRow, if_pos rfl]
      exact hrecordRead
    · rw [getAgent_setRow, if_neg hid]

/-- A table without rows. -/
def empty : AgentsTable platform where
  isOpen := true
  rows := .empty
  rows_read _ he := absurd he List.not_mem_nil
  alias_unique _ he := absurd he List.not_mem_nil

theorem plain_empty : (empty : AgentsTable platform).Plain := fun _ he => absurd he List.not_mem_nil

theorem plain_sampleAgent : Remote.Plain sampleAgent where
  id := by decide
  userId := by decide
  aliasName := by decide
  publicKey := by decide
  profile _ h := by
    obtain rfl := Value.str.inj h
    decide
  lastSeenAt := by decide
  createdAt := by decide
  updatedAt := by decide

/-- The round trip of a record that is inserted into an empty table. -/
theorem agent_round_trip_sample :
    ∃ t', (empty : AgentsTable samplePlatform).insertAgent sampleAgent = .ok t' ∧
      t'.Returns sampleAgent := by
  have hok : ((empty : AgentsTable samplePlatform).insertAgent sampleAgent).toOption.isSome =
    true := by
    decide +kernel
  cases hinsert : (empty : AgentsTable samplePlatform).insertAgent sampleAgent with
  | error =>
    rw [hinsert] at hok
    cases hok
  | ok t' =>
    exact ⟨t', rfl, ((agent_round_trip empty sampleAgent plain_empty isRow_sampleAgent
      plain_sampleAgent).1 t' hinsert).2.1⟩

/-- An agent whose policy has the number that `1e999` is read as. -/
def unboundedAgent : RemoteAgentRecord :=
  { sampleAgent with policy := .obj [("allowPaths", .arr [.num .posInf])] }

/-- An agent with a NUL in its alias. -/
def cutAgent : RemoteAgentRecord := { sampleAgent with aliasName := "web\x00a" }

/-- **Records that do not come back**: an infinite number of a policy is null in the column, and the
alias ends at its NUL. -/
theorem infinite_policy_and_nul_lost :
    (((empty : AgentsTable samplePlatform).insertAgent unboundedAgent).toOption.bind
        (fun t => t.getAgent "agt_1") =
      some { unboundedAgent with policy := .obj [("allowPaths", .arr [.null])] } ∧
      some { unboundedAgent with policy := .obj [("allowPaths", .arr [.null])] } ≠
        some unboundedAgent) ∧
    ((empty : AgentsTable samplePlatform).insertAgent cutAgent).toOption.bind
        (fun t => t.getAgent "agt_1") = some { cutAgent with aliasName := "web" } ∧
      some { cutAgent with aliasName := "web" } ≠ some cutAgent := by
  refine ⟨⟨rfl, nofun⟩, rfl, fun heq => ?_⟩
  have halias : "web" = "web\x00a" := congrArg RemoteAgentRecord.aliasName (Option.some.inj heq)
  exact absurd halias (by decide)

end AgentsTable
end Remote
