import McpSshTool.Remote.Store

/-!
# The rows of a user

Agents, enrollment tokens, actions and audit events have a user, and `rowsOf` collects the rows of
one.

* What a user can ask of the store is answered from the user's rows: lookups by id and by alias
  (`find?_rowsOf_agents`, `getAgentByAlias_eq`, `aliasTaken_eq`), and whether a row can be written
  (`verdict_insertAgent`, `verdict_updateAgent`).
* A write of a row leaves the rows of every other user alone.
* `Rows.Kept` — what may become of the rows of a user whose connections are closed by others.
-/

open Library

namespace Remote

/-! ### The rows of a user -/

/-- Rows of the tables. -/
@[ext] structure Rows where
  agents : List RemoteAgentRecord
  enrollmentTokens : List AgentEnrollmentTokenRecord
  actions : List ActionRecord
  auditEvents : List AuditEvent

namespace RemoteStore

/-- The rows of a user. -/
def rowsOf (store : RemoteStore) (userId : String) : Rows where
  agents := store.agents.values.filter fun agent => agent.userId = userId
  enrollmentTokens := store.enrollmentTokens.values.filter fun token => token.userId = userId
  actions := store.actions.values.filter fun action => action.userId = userId
  auditEvents := store.auditEvents.filter fun event => event.userId = some userId

variable {store : RemoteStore} {userId : String}

theorem mem_rowsOf_agents {agent : RemoteAgentRecord} :
    agent ∈ (store.rowsOf userId).agents ↔
      store.getAgent agent.id = some agent ∧ agent.userId = userId := by
  rw [rowsOf, List.mem_filter, decide_eq_true_eq]
  refine and_congr_left fun _ => ?_
  constructor
  · intro hmem
    obtain ⟨e, he, rfl⟩ := List.mem_map.mp hmem
    rw [(store.agents_rows e he).1]
    exact OrderedMap.mem_entries_iff.mp he
  · exact OrderedMap.mem_values_of_get?

/-- The row of an id, if it is the user's. -/
theorem find?_rowsOf_agents (agentId : String) :
    (store.rowsOf userId).agents.find? (fun agent => agent.id = agentId) =
      (store.getAgent agentId).filter fun agent => agent.userId = userId := by
  cases hfind : (store.rowsOf userId).agents.find? fun agent => agent.id = agentId with
  | some agent =>
    have hid : agent.id = agentId := by simpa using List.find?_some hfind
    obtain ⟨hget, huser⟩ := mem_rowsOf_agents.mp (List.mem_of_find?_eq_some hfind)
    rw [← hid, hget, Option.filter_some, if_pos (by simpa using huser)]
  | none =>
    cases hget : store.getAgent agentId with
    | none => rfl
    | some agent =>
      have hid := (getAgent_rows hget).1
      rw [Option.filter_some, if_neg]
      intro huser
      have hmem : agent ∈ (store.rowsOf userId).agents :=
        mem_rowsOf_agents.mpr ⟨by rw [hid]; exact hget, by simpa using huser⟩
      exact absurd hid (by simpa using List.find?_eq_none.mp hfind agent hmem)

theorem getAgentByAlias_eq (aliasName : String) :
    store.getAgentByAlias userId aliasName =
      (store.rowsOf userId).agents.find? fun agent => agent.aliasName = aliasName := by
  have hlist : ∀ l : List (String × RemoteAgentRecord),
      (l.find? fun e => e.2.userId = userId ∧ e.2.aliasName = aliasName).map Prod.snd =
        ((l.map Prod.snd).filter fun agent => agent.userId = userId).find?
          fun agent => agent.aliasName = aliasName := by
    intro l
    induction l with
    | nil => rfl
    | cons e l ih =>
      by_cases huser : e.2.userId = userId
      · by_cases halias : e.2.aliasName = aliasName
        · simp [huser, halias]
        · simpa [huser, halias] using ih
      · simpa [huser] using ih
  exact hlist store.agents.entries

/-- Whether another agent of a user has an alias is seen in the user's rows. -/
theorem aliasTaken_eq (agentId aliasName : String) :
    store.aliasTaken agentId userId aliasName =
      (store.rowsOf userId).agents.any fun agent =>
        agent.id ≠ agentId && agent.aliasName = aliasName := by
  rw [Bool.eq_iff_iff, aliasTaken, List.any_eq_true, List.any_eq_true]
  simp only [Bool.and_eq_true, decide_eq_true_eq]
  constructor
  · rintro ⟨e, he, hid, huser, halias⟩
    rw [← (store.agents_rows e he).1] at hid
    refine ⟨e.2, mem_rowsOf_agents.mpr ⟨?_, huser⟩, hid, halias⟩
    rw [(store.agents_rows e he).1]
    exact OrderedMap.mem_entries_iff.mp he
  · rintro ⟨agent, hmem, hid, halias⟩
    obtain ⟨hget, huser⟩ := mem_rowsOf_agents.mp hmem
    exact ⟨(agent.id, agent), OrderedMap.mem_entries_iff.mpr hget, hid, huser, halias⟩

/-! ### Whether a row can be written -/

/-- A result without its value: whether it is an error, and which. -/
def verdict {α : Type} (result : Except Thrown α) : Except Thrown Unit := result.map fun _ => ()

theorem verdict_congr {α β : Type} {r₁ : Except Thrown α} {r₂ : Except Thrown β}
    (h : verdict r₁ = verdict r₂) :
    (∃ e, r₁ = .error e ∧ r₂ = .error e) ∨ ∃ a b, r₁ = .ok a ∧ r₂ = .ok b := by
  cases r₁ with
  | error e₁ =>
    cases r₂ with
    | error =>
      obtain rfl := Except.error.inj h
      exact .inl ⟨e₁, rfl, rfl⟩
    | ok => cases h
  | ok a =>
    cases r₂ with
    | error => cases h
    | ok b => exact .inr ⟨a, b, rfl, rfl⟩

variable {platform : Platform} {agent : RemoteAgentRecord}

theorem insertAgent_of_none (hrow : agentRow platform agent = none) :
    store.insertAgent platform agent = .error .typeError := by
  unfold insertAgent
  split
  · rfl
  · next row hsome =>
    rw [hrow] at hsome
    cases hsome

theorem insertAgent_of_some {row : RemoteAgentRecord} (hrow : agentRow platform agent = some row) :
    store.insertAgent platform agent =
      if !store.isOpen || store.agents.contains agent.id
          || store.aliasTaken agent.id agent.userId agent.aliasName then .error .sqlite
      else .ok (store.setAgent row (agentRow_eq_some hrow).1) := by
  unfold insertAgent
  split
  · next hnone =>
    rw [hrow] at hnone
    cases hnone
  · next row' hsome =>
    have heq := Option.some.inj (hsome.symm.trans hrow)
    subst heq
    rfl

theorem updateAgent_of_none (hrow : agentRow platform agent = none) :
    store.updateAgent platform agent = .error .typeError := by
  unfold updateAgent
  split
  · rfl
  · next row hsome =>
    rw [hrow] at hsome
    cases hsome

theorem updateAgent_of_some {row old : RemoteAgentRecord}
    (hrow : agentRow platform agent = some row)
    (hold : store.getAgent agent.id = some old) :
    store.updateAgent platform agent =
      if !store.isOpen then .error .sqlite
      else if agent.aliasName ≠ old.aliasName &&
          store.aliasTaken agent.id old.userId agent.aliasName then .error .sqlite
      else .ok (store.setAgent (updatedRow row old)
        (isRow_updatedRow (agentRow_eq_some hrow).1)) := by
  unfold updateAgent
  split
  · next hnone =>
    rw [hrow] at hnone
    cases hnone
  · next row' hsome =>
    have heq := Option.some.inj (hsome.symm.trans hrow)
    subst heq
    rw [show store.agents.get? agent.id = some old from hold]

/-- Whether a row can be inserted, seen from the rows of its user. -/
theorem verdict_insertAgent (hfresh : store.getAgent agent.id = none) :
    verdict (store.insertAgent platform agent) =
      match agentRow platform agent with
      | none => .error .typeError
      | some _ =>
        if !store.isOpen || (store.rowsOf agent.userId).agents.any fun other =>
            other.id ≠ agent.id && other.aliasName = agent.aliasName then .error .sqlite
        else .ok () := by
  have hcontains : store.agents.contains agent.id = false := OrderedMap.contains_eq_false.mpr hfresh
  rw [← aliasTaken_eq]
  cases hrow : agentRow platform agent with
  | none =>
    rw [insertAgent_of_none hrow]
    rfl
  | some =>
    rw [insertAgent_of_some hrow, hcontains, Bool.or_false, verdict, apply_ite (Except.map _)]
    rfl

/-- Whether a row of a user can be written, seen from the rows of that user. -/
theorem verdict_updateAgent {old : RemoteAgentRecord} (hold : store.getAgent agent.id = some old) :
    verdict (store.updateAgent platform agent) =
      match agentRow platform agent with
      | none => .error .typeError
      | some _ =>
        if !store.isOpen then .error .sqlite
        else if agent.aliasName ≠ old.aliasName && (store.rowsOf old.userId).agents.any fun other =>
            other.id ≠ agent.id && other.aliasName = agent.aliasName then .error .sqlite
        else .ok () := by
  rw [← aliasTaken_eq]
  cases hrow : agentRow platform agent with
  | none =>
    rw [updateAgent_of_none hrow]
    rfl
  | some =>
    rw [updateAgent_of_some hrow hold, verdict, apply_ite (Except.map _), apply_ite (Except.map _)]
    rfl

/-! ### The rows of others -/

end RemoteStore

/-- A row of an agent that is as it was, or went offline where the agent is cut off. -/
def RowKept (cut : String → Prop) (agent agent' : RemoteAgentRecord) : Prop :=
  agent' = agent ∨ cut agent.id ∧ ∃ t, agent' = { agent with status := .offline, updatedAt := t }

theorem RowKept.trans {cut : String → Prop} {a b c : RemoteAgentRecord} (hab : RowKept cut a b)
    (hbc : RowKept cut b c) : RowKept cut a c := by
  rcases hab with rfl | ⟨hcut, t, rfl⟩
  · exact hbc
  · rcases hbc with rfl | ⟨-, t', rfl⟩
    · exact .inr ⟨hcut, t, rfl⟩
    · exact .inr ⟨hcut, t', rfl⟩

/-- **What the requests of others leave of a user's rows**: tokens and actions, the audit rows, and
the agents. An agent that is cut off may go offline, which an audit row records. -/
structure Rows.Kept (cut : String → Prop) (rows rows' : Rows) : Prop where
  agents : List.Forall₂ (RowKept cut) rows.agents rows'.agents
  enrollmentTokens : rows'.enrollmentTokens = rows.enrollmentTokens
  actions : rows'.actions = rows.actions
  auditEvents : ∃ extra, rows'.auditEvents = rows.auditEvents ++ extra ∧ ∀ event ∈ extra,
    event.eventType = "agent_disconnected" ∧ ∃ id, event.agentId = some id ∧ cut id

namespace Rows.Kept

variable {cut : String → Prop} {rows rows' rows'' : Rows}

theorem of_eq (h : rows' = rows) : rows.Kept cut rows' where
  agents := by
    rw [h]
    exact List.forall₂_same.mpr fun _ _ => .inl rfl
  enrollmentTokens := by rw [h]
  actions := by rw [h]
  auditEvents := ⟨[], by rw [h, List.append_nil], fun _ hmem => absurd hmem List.not_mem_nil⟩

theorem trans (h : rows.Kept cut rows') (h' : rows'.Kept cut rows'') : rows.Kept cut rows'' where
  agents := by
    have hlist : ∀ l l' l'' : List RemoteAgentRecord, List.Forall₂ (RowKept cut) l l' →
        List.Forall₂ (RowKept cut) l' l'' → List.Forall₂ (RowKept cut) l l'' := by
      intro l l' l'' hl
      induction hl generalizing l'' with
      | nil => exact id
      | cons hab _ ih =>
        rintro (_ | ⟨hbc, hrest⟩)
        exact .cons (hab.trans hbc) (ih _ hrest)
    exact hlist _ _ _ h.agents h'.agents
  enrollmentTokens := h'.enrollmentTokens.trans h.enrollmentTokens
  actions := h'.actions.trans h.actions
  auditEvents := by
    obtain ⟨extra, haudit, hextra⟩ := h.auditEvents
    obtain ⟨extra', haudit', hextra'⟩ := h'.auditEvents
    refine ⟨extra ++ extra', by rw [haudit', haudit, List.append_assoc], fun event hmem => ?_⟩
    rcases List.mem_append.mp hmem with hmem | hmem
    · exact hextra event hmem
    · exact hextra' event hmem

theorem mono {cut' : String → Prop} (h : rows.Kept cut rows') (hcut : ∀ id, cut id → cut' id) :
    rows.Kept cut' rows' where
  agents := h.agents.imp fun _ _ hab => hab.imp_right fun ⟨hid, ht⟩ => ⟨hcut _ hid, ht⟩
  enrollmentTokens := h.enrollmentTokens
  actions := h.actions
  auditEvents := by
    obtain ⟨extra, haudit, hextra⟩ := h.auditEvents
    refine ⟨extra, haudit, fun event hmem => ?_⟩
    obtain ⟨htype, id, hid, hcutId⟩ := hextra event hmem
    exact ⟨htype, id, hid, hcut id hcutId⟩

end Rows.Kept

namespace RemoteStore

variable {store store' : RemoteStore} {platform : Platform} {userId : String}

theorem rowsOf_insertAudit {event : AuditEvent} (h : event.userId ≠ some userId) :
    (store.insertAudit event).rowsOf userId = store.rowsOf userId := by
  simp [rowsOf, insertAudit, List.filter_append, h]

theorem rowsOf_setAgent {row : RemoteAgentRecord} (hrow : IsRow row) (huser : row.userId ≠ userId)
    (hold : ∀ old, store.getAgent row.id = some old → old.userId ≠ userId) :
    (store.setAgent row hrow).rowsOf userId = store.rowsOf userId := by
  refine Rows.ext (OrderedMap.filter_values_set (decide_eq_false huser) ?_) rfl rfl rfl
  exact fun old hget => decide_eq_false (hold old hget)

theorem rowsOf_insertAgent {agent : RemoteAgentRecord}
    (h : store.insertAgent platform agent = .ok store') (huser : agent.userId ≠ userId) :
    store'.rowsOf userId = store.rowsOf userId := by
  obtain ⟨-, hfree, row, hrow, hagentRow, rfl⟩ := insertAgent_eq_ok h
  obtain ⟨-, hid, hrowUser, -⟩ := agentRow_eq_some hagentRow
  refine rowsOf_setAgent hrow (by rw [hrowUser]; exact huser) fun old hold => ?_
  rw [hid, hfree] at hold
  cases hold

theorem rowsOf_updateAgent {agent : RemoteAgentRecord}
    (h : store.updateAgent platform agent = .ok store')
    (huser : ∀ old, store.getAgent agent.id = some old → old.userId ≠ userId) :
    store'.rowsOf userId = store.rowsOf userId := by
  obtain ⟨-, row, hagentRow, ⟨-, rfl⟩ | ⟨old, hrow, hold, rfl⟩⟩ := updateAgent_eq_ok h
  · rfl
  · have hid : (updatedRow row old).id = agent.id := (agentRow_eq_some hagentRow).2.1
    refine rowsOf_setAgent hrow (huser old hold) fun old' hold' => ?_
    rw [hid] at hold'
    exact huser old' hold'

theorem kept_offline {cut : String → Prop} {agent : RemoteAgentRecord} {t : String}
    (hold : store.getAgent agent.id = some agent) (hcut : agent.userId = userId → cut agent.id)
    (hrow : IsRow { agent with status := .offline, updatedAt := t }) :
    (store.rowsOf userId).Kept cut
      ((store.setAgent { agent with status := .offline, updatedAt := t } hrow).rowsOf userId) where
  agents := OrderedMap.forall₂_filter_values_set (fun _ => .inl rfl) hold rfl
    fun huser => .inr ⟨hcut (of_decide_eq_true huser), t, rfl⟩
  enrollmentTokens := rfl
  actions := rfl
  auditEvents := ⟨[], (List.append_nil _).symm, fun _ hmem => absurd hmem List.not_mem_nil⟩

theorem rowsOf_insertEnrollmentToken {token : AgentEnrollmentTokenRecord}
    (h : store.insertEnrollmentToken token = .ok store') (huser : token.userId ≠ userId) :
    store'.rowsOf userId = store.rowsOf userId := by
  unfold insertEnrollmentToken at h
  split at h
  · cases h
  · next hfree =>
    obtain rfl := Except.ok.inj h
    simp only [Bool.or_eq_true, not_or, Bool.not_eq_true] at hfree
    have hnone := OrderedMap.contains_eq_false.mp hfree.2
    refine Rows.ext rfl (OrderedMap.filter_values_set (decide_eq_false huser) ?_) rfl rfl
    intro old hold
    rw [hnone] at hold
    cases hold

theorem rowsOf_insertAction {action : ActionRecord} (h : store.insertAction action = .ok store')
    (huser : action.userId ≠ userId) : store'.rowsOf userId = store.rowsOf userId := by
  unfold insertAction at h
  split at h
  · cases h
  · next hfree =>
    obtain rfl := Except.ok.inj h
    simp only [Bool.or_eq_true, not_or, Bool.not_eq_true] at hfree
    have hnone := OrderedMap.contains_eq_false.mp hfree.2
    refine Rows.ext rfl rfl (OrderedMap.filter_values_set (decide_eq_false huser) ?_) rfl
    intro old hold
    rw [hnone] at hold
    cases hold

theorem rowsOf_updateAction {action : ActionRecord} (h : store.updateAction action = .ok store')
    (huser : ∀ old, store.actions.get? action.id = some old → old.userId ≠ userId) :
    store'.rowsOf userId = store.rowsOf userId := by
  unfold updateAction at h
  split at h
  · obtain rfl := Except.ok.inj h
    exact Rows.ext rfl rfl (OrderedMap.filter_values_modify fun old hold =>
      ⟨decide_eq_false (huser old hold), decide_eq_false (huser old hold)⟩) rfl
  · cases h

end RemoteStore
end Remote
