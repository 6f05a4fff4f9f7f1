import Mathlib.Data.List.TakeWhile
import McpSshTool.Remote.Crypto
import McpSshTool.Remote.Types

/-!
# The store

`store.ts`: the tables that the agent side of the control plane reads and writes, in SQLite. Users,
OAuth clients and authorization codes are no part of it.

A write goes through the columns of a row, and a row is read back from them. `agentRow` is the
composition of the two, so the table holds records as they are read: the policy has been through
`JSON.stringify` and `JSON.parse`, and an empty text reads back as an absent one. `columnText` is
what a column gives back of a text that it keeps; the records here are of texts that it gives back
whole.

Once the database is closed every operation throws.
-/

open Library

namespace Remote

/-- What a computation of the program throws. -/
inductive Thrown where
  /-- `safeError`, and the errors that carry a code and a status like it. -/
  | safe (code : RemoteErrorCode) (message : String) (status : ℕ)
  | typeError
  | rangeError
  | zodError
  | syntaxError
  /-- A constraint of the database, or a database that is closed. -/
  | sqlite
deriving DecidableEq, Repr

/-- **What a column of type `TEXT` gives back** of a text: what comes before the first NUL. The
column keeps the whole text, and it is the whole text that a condition is about. -/
def columnText (s : String) : String := String.ofList (s.toList.takeWhile fun c => c ≠ Char.ofNat 0)

theorem columnText_eq_self {s : String} (h : Char.ofNat 0 ∉ s.toList) : columnText s = s := by
  have hwhole : s.toList.takeWhile (fun c => c ≠ Char.ofNat 0) = s.toList :=
    List.takeWhile_eq_self_iff.mpr fun c hc => decide_eq_true fun heq => h (heq ▸ hc)
  rw [columnText, hwhole, String.ofList_toList]

theorem columnText_columnText (s : String) : columnText (columnText s) = columnText s := by
  unfold columnText
  rw [String.toList_ofList, List.takeWhile_idem]

theorem columnText_append {s : String} (h : Char.ofNat 0 ∉ s.toList) (t : String) :
    columnText (s ++ t) = s ++ columnText t := by
  refine String.toList_inj.mp ?_
  unfold columnText
  rw [String.toList_append, String.toList_ofList, String.toList_append, String.toList_ofList]
  exact List.takeWhile_append_of_pos fun c hc => decide_eq_true fun heq => h (heq ▸ hc)

/-- A text column that is read with `optionalRowString`. -/
def optionalText (s : Option String) : Option String := s.filter fun t => t ≠ ""

/-- **A record as it is read from a row**: writing it again keeps it. -/
structure IsRow (agent : RemoteAgentRecord) : Prop where
  profile_text : ∃ s, agent.profile = .str s
  policy_read : agent.policy.transport = agent.policy
  publicKey_read : optionalText agent.publicKey = agent.publicKey
  lastSeenAt_read : optionalText agent.lastSeenAt = agent.lastSeenAt

theorem optionalText_optionalText (s : Option String) :
    optionalText (optionalText s) = optionalText s := by
  cases s with
  | none => rfl
  | some t =>
    by_cases h : t = ""
    · subst h; rfl
    · simp [optionalText, Option.filter, h]

structure RemoteStore where
  isOpen : Bool
  /-- The table `agents`, by `id`. -/
  agents : OrderedMap String RemoteAgentRecord
  /-- A row is found under its own id, and holds what a row can hold. -/
  agents_rows : ∀ e ∈ agents.entries, e.2.id = e.1 ∧ IsRow e.2
  /-- The table `agent_enrollment_tokens`, by `token_hash`. -/
  enrollmentTokens : OrderedMap String AgentEnrollmentTokenRecord
  /-- The table `actions`, by `id`. -/
  actions : OrderedMap String ActionRecord
  /-- The table `audit_events`, oldest first. -/
  auditEvents : List AuditEvent

namespace RemoteStore

/-- An open database without rows. -/
def empty : RemoteStore where
  isOpen := true
  agents := .empty
  agents_rows := by simp
  enrollmentTokens := .empty
  actions := .empty
  auditEvents := []

/-! ### Agents -/

/-- The text that the column `profile` keeps of the value bound to it; `none` where binding it
throws. -/
def profileText (platform : Platform) : Value → Option String
  | .str s => some s
  -- SQLite takes NaN for NULL, which the column refuses
  | .num .nan => none
  | .num n => some (platform.realText n)
  | _ => none

/-- The record that a row reads back as, after the given record was written to it. -/
def agentRow (platform : Platform) (agent : RemoteAgentRecord) : Option RemoteAgentRecord :=
  (profileText platform agent.profile).map fun profile =>
    { agent with
      publicKey := optionalText agent.publicKey
      profile := .str profile
      policy := agent.policy.transport
      lastSeenAt := optionalText agent.lastSeenAt }

theorem agentRow_eq_some {platform : Platform} {agent row : RemoteAgentRecord}
    (h : agentRow platform agent = some row) :
    IsRow row ∧ row.id = agent.id ∧ row.userId = agent.userId ∧ row.aliasName = agent.aliasName ∧
      row.status = agent.status ∧ row.policy = agent.policy.transport ∧
      row.policyVersion = agent.policyVersion := by
  obtain ⟨profile, -, rfl⟩ := Option.map_eq_some_iff.mp h
  exact ⟨⟨⟨profile, rfl⟩, Value.transport_transport _, optionalText_optionalText _,
    optionalText_optionalText _⟩, rfl, rfl, rfl, rfl, rfl, rfl⟩

/-- Write a row under its id. -/
def setAgent (store : RemoteStore) (row : RemoteAgentRecord) (hrow : IsRow row) : RemoteStore :=
  { store with
    agents := store.agents.set row.id row
    agents_rows := by
      rintro ⟨k, r⟩ he
      rw [OrderedMap.mem_entries_iff, OrderedMap.get?_set] at he
      split at he
      · next hk =>
        obtain rfl := Option.some.inj he
        exact ⟨hk.symm, hrow⟩
      · exact store.agents_rows _ (OrderedMap.mem_entries_iff.mpr he) }

/-- Whether a row other than `id` has the given user and alias. -/
def aliasTaken (store : RemoteStore) (id userId aliasName : String) : Bool :=
  store.agents.entries.any fun e =>
    e.1 ≠ id && (e.2.userId = userId && e.2.aliasName = aliasName)

/-- `insertAgent`; the id and the pair of user and alias are unique. -/
def insertAgent (platform : Platform) (store : RemoteStore) (agent : RemoteAgentRecord) :
    Except Thrown RemoteStore :=
  match h : agentRow platform agent with
  | none => .error .typeError
  | some row =>
    if !store.isOpen || store.agents.contains agent.id
        || store.aliasTaken agent.id agent.userId agent.aliasName then
      .error .sqlite
    else .ok (store.setAgent row (agentRow_eq_some h).1)

/-- The row that `updateAgent` leaves: every column but `user_id` and `created_at` is written. -/
def updatedRow (row old : RemoteAgentRecord) : RemoteAgentRecord :=
  { row with userId := old.userId, createdAt := old.createdAt }

theorem isRow_updatedRow {row old : RemoteAgentRecord} (h : IsRow row) :
    IsRow (updatedRow row old) :=
  ⟨h.profile_text, h.policy_read, h.publicKey_read, h.lastSeenAt_read⟩

def updateAgent (platform : Platform) (store : RemoteStore) (agent : RemoteAgentRecord) :
    Except Thrown RemoteStore :=
  match h : agentRow platform agent with
  | none => .error .typeError
  | some row =>
    if !store.isOpen then .error .sqlite
    else
      match store.agents.get? agent.id with
      | none => .ok store
      | some old =>
        -- a row that keeps its alias cannot collide with another
        if agent.aliasName ≠ old.aliasName && store.aliasTaken agent.id old.userId agent.aliasName
        then .error .sqlite
        else .ok (store.setAgent (updatedRow row old) (isRow_updatedRow (agentRow_eq_some h).1))

def getAgent (store : RemoteStore) (agentId : String) : Option RemoteAgentRecord :=
  store.agents.get? agentId

def getAgentByAlias (store : RemoteStore) (userId aliasName : String) :
    Option RemoteAgentRecord :=
  (store.agents.entries.find? fun e => e.2.userId = userId ∧ e.2.aliasName = aliasName).map Prod.snd

/-! ### Enrollment tokens -/

def insertEnrollmentToken (store : RemoteStore) (token : AgentEnrollmentTokenRecord) :
    Except Thrown RemoteStore :=
  if !store.isOpen || store.enrollmentTokens.contains token.tokenHash then .error .sqlite
  else .ok { store with
    enrollmentTokens := store.enrollmentTokens.set token.tokenHash token }

def getEnrollmentTokenByHash (store : RemoteStore) (tokenHash : String) :
    Option AgentEnrollmentTokenRecord :=
  store.enrollmentTokens.get? tokenHash

/-- `markEnrollmentTokenUsed`; throws unless the token is there and unused. -/
def markEnrollmentTokenUsed (store : RemoteStore) (tokenHash usedAt : String) :
    Except Thrown RemoteStore :=
  match store.enrollmentTokens.get? tokenHash with
  | none => .error (.safe .invalidToken "Enrollment token already used" 400)
  | some token =>
    if !store.isOpen then .error .sqlite
    else if token.usedAt.isSome then
      .error (.safe .invalidToken "Enrollment token already used" 400)
    else .ok { store with
      enrollmentTokens := store.enrollmentTokens.set tokenHash { token with usedAt := some usedAt }
        }

/-! ### Actions and audit events -/

def insertAction (store : RemoteStore) (action : ActionRecord) : Except Thrown RemoteStore :=
  if !store.isOpen || store.actions.contains action.id then .error .sqlite
  else .ok { store with actions := store.actions.set action.id action }

/-- `updateAction`: status, completion time, result and error code. -/
def updateAction (store : RemoteStore) (action : ActionRecord) : Except Thrown RemoteStore :=
  if store.isOpen then
    .ok { store with
      actions := store.actions.modify action.id fun old =>
        { old with
          status := action.status
          completedAt := action.completedAt
          result := action.result
          errorCode := action.errorCode } }
  else .error .sqlite

/-- `insertAudit`, on an open database. -/
def insertAudit (store : RemoteStore) (event : AuditEvent) : RemoteStore :=
  { store with auditEvents := store.auditEvents ++ [event] }

/-! ### Rows -/

theorem getAgent_rows {store : RemoteStore} {id : String} {agent : RemoteAgentRecord}
    (h : store.getAgent id = some agent) : agent.id = id ∧ IsRow agent :=
  store.agents_rows (id, agent) (OrderedMap.mem_entries_iff.mpr h)

theorem getAgent_setAgent (store : RemoteStore) {row : RemoteAgentRecord} (hrow : IsRow row)
    (id : String) :
    (store.setAgent row hrow).getAgent id = if id = row.id then some row else store.getAgent id :=
  OrderedMap.get?_set _ _ _ _

theorem getAgentByAlias_eq_some {store : RemoteStore} {userId aliasName : String}
    {agent : RemoteAgentRecord} (h : store.getAgentByAlias userId aliasName = some agent) :
    store.getAgent agent.id = some agent ∧ agent.userId = userId ∧ agent.aliasName = aliasName := by
  obtain ⟨e, he, rfl⟩ := Option.map_eq_some_iff.mp h
  have hmem := List.mem_of_find?_eq_some he
  have hprop := List.find?_some he
  rw [decide_eq_true_eq] at hprop
  refine ⟨?_, hprop⟩
  rw [(store.agents_rows e hmem).1]
  exact OrderedMap.mem_entries_iff.mp hmem

theorem agentRow_of_isRow (platform : Platform) {agent : RemoteAgentRecord} (h : IsRow agent) :
    agentRow platform agent = some agent := by
  obtain ⟨profile, hprofile⟩ := h.profile_text
  rw [agentRow, hprofile, profileText, Option.map_some, h.policy_read, h.publicKey_read,
    h.lastSeenAt_read, ← hprofile]

/-! ### What a write leaves alone -/

/-- **What `insertAgent` writes**: one row, whose id was free. -/
theorem insertAgent_eq_ok {platform : Platform} {store store' : RemoteStore}
    {agent : RemoteAgentRecord} (h : store.insertAgent platform agent = .ok store') :
    store.isOpen = true ∧ store.getAgent agent.id = none ∧
      ∃ row, ∃ hrow : IsRow row, agentRow platform agent = some row ∧
        store' = store.setAgent row hrow := by
  unfold insertAgent at h
  split at h
  · exact absurd h (by simp)
  · next row hrow =>
    split at h
    · exact absurd h (by simp)
    · next hfree =>
      simp only [Bool.or_eq_true, Bool.not_eq_true', not_or, Bool.not_eq_false,
        Bool.not_eq_true] at hfree
      exact ⟨hfree.1.1, OrderedMap.contains_eq_false.mp hfree.1.2, row, _, hrow,
        (Except.ok.inj h).symm⟩

/-- **What `updateAgent` writes**: the row of the record's id, if there is one. -/
theorem updateAgent_eq_ok {platform : Platform} {store store' : RemoteStore}
    {agent : RemoteAgentRecord} (h : store.updateAgent platform agent = .ok store') :
    store.isOpen = true ∧ ∃ row, agentRow platform agent = some row ∧
      ((store.getAgent agent.id = none ∧ store' = store) ∨
        ∃ old, ∃ hrow : IsRow (updatedRow row old), store.getAgent agent.id = some old ∧
          store' = store.setAgent (updatedRow row old) hrow) := by
  unfold updateAgent at h
  split at h
  · exact absurd h (by simp)
  · next row hrow =>
    split at h
    · exact absurd h (by simp)
    · next hopen =>
      refine ⟨by simpa using hopen, row, hrow, ?_⟩
      split at h
      · next hnone => exact .inl ⟨hnone, (Except.ok.inj h).symm⟩
      · next old hold =>
        split at h
        · exact absurd h (by simp)
        · exact .inr ⟨old, _, hold, (Except.ok.inj h).symm⟩

/-- **What `markEnrollmentTokenUsed` writes**: the use of a token that was there and unused. -/
theorem markEnrollmentTokenUsed_eq_ok {store store' : RemoteStore} {tokenHash usedAt : String}
    (h : store.markEnrollmentTokenUsed tokenHash usedAt = .ok store') :
    store.isOpen = true ∧ ∃ token, store.getEnrollmentTokenByHash tokenHash = some token ∧
      token.usedAt = none ∧ store' = { store with
        enrollmentTokens :=
          store.enrollmentTokens.set tokenHash { token with usedAt := some usedAt } } := by
  unfold markEnrollmentTokenUsed at h
  split at h
  · exact absurd h (by simp)
  · next token htoken =>
    split at h
    · exact absurd h (by simp)
    · next hopen =>
      split at h
      · exact absurd h (by simp)
      · next hunused =>
        exact ⟨by simpa using hopen, token, htoken, by simpa using hunused,
          (Except.ok.inj h).symm⟩

/-- **What `insertEnrollmentToken` writes**: one token, whose hash was free. -/
theorem insertEnrollmentToken_eq_ok {store store' : RemoteStore}
    {token : AgentEnrollmentTokenRecord}
    (h : store.insertEnrollmentToken token = .ok store') :
    store.isOpen = true ∧ store.getEnrollmentTokenByHash token.tokenHash = none ∧
      store' = { store with
        enrollmentTokens := store.enrollmentTokens.set token.tokenHash token } := by
  unfold insertEnrollmentToken at h
  split at h
  · exact absurd h (by simp)
  · next hfree =>
    have hnew : store.isOpen = true ∧ store.enrollmentTokens.contains token.tokenHash = false := by
      simpa using hfree
    exact ⟨hnew.1, OrderedMap.contains_eq_false.mp hnew.2, (Except.ok.inj h).symm⟩

/-- **What `insertAction` writes**: one row, whose id was free. -/
theorem insertAction_eq_ok {store store' : RemoteStore} {action : ActionRecord}
    (h : store.insertAction action = .ok store') :
    store.isOpen = true ∧ store.actions.get? action.id = none ∧
      store' = { store with actions := store.actions.set action.id action } := by
  unfold insertAction at h
  split at h
  · exact absurd h (by simp)
  · next hfree =>
    have hnew : store.isOpen = true ∧ store.actions.contains action.id = false := by
      simpa using hfree
    exact ⟨hnew.1, OrderedMap.contains_eq_false.mp hnew.2, (Except.ok.inj h).symm⟩

/-- **What `updateAction` writes**: the end of the action of an id, if there is one. -/
theorem updateAction_eq_ok {store store' : RemoteStore} {action : ActionRecord}
    (h : store.updateAction action = .ok store') :
    store.isOpen = true ∧ store' = { store with
      actions := store.actions.modify action.id fun old =>
        { old with
          status := action.status
          completedAt := action.completedAt
          result := action.result
          errorCode := action.errorCode } } := by
  unfold updateAction at h
  split at h
  · next hopen => exact ⟨hopen, (Except.ok.inj h).symm⟩
  · exact absurd h (by simp)

/-- **Writing back a row** that keeps its user, alias and creation time goes through. -/
theorem updateAgent_of_row {platform : Platform} {store : RemoteStore} (hopen : store.isOpen = true)
    {agent old : RemoteAgentRecord} (hold : store.getAgent agent.id = some old)
    (hsame : (agent.userId, agent.aliasName, agent.createdAt)
      = (old.userId, old.aliasName, old.createdAt)) (hrow : IsRow agent) :
    store.updateAgent platform agent = .ok (store.setAgent agent hrow) := by
  obtain ⟨huser, hrest⟩ := Prod.mk.inj hsame
  obtain ⟨halias, hcreated⟩ := Prod.mk.inj hrest
  have hupdated : updatedRow agent old = agent := by
    rw [updatedRow, ← huser, ← hcreated]
  unfold updateAgent
  split
  · next h => exact absurd (h.symm.trans (agentRow_of_isRow platform hrow)) (by simp)
  · next row h =>
    obtain rfl := Option.some.inj (h.symm.trans (agentRow_of_isRow platform hrow))
    rw [show store.agents.get? row.id = some old from hold]
    simp [hopen, halias, hupdated]

end RemoteStore
end Remote
