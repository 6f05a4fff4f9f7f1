import McpSshTool.Connector.Inspections
import McpSshTool.Http.Exposure
import McpSshTool.Ssh.SessionLimit
import McpSshTool.Ssh.SessionTally

/-!
# What a connector does to hosts

The server of `Inspections`, over every run: any calls of tools by any names, and their inspections
side by side in any order.

* `Inspects` — the operations of the checks, all of which only look;
* `MayInspect` — the credentials of a session are those that the provider has made for its alias,
  and the policy permits to connect with them in mode `enforce`;
* `Tidy` — the invariant: each inspection has a call or a session of its own, and the pool has no
  others; `tidy_step`, `tidy_run`;
* `connector_reads_only` — under a restricted profile nothing else reaches a host;
* `connector_leaves_nothing` — when no inspection is under way there is no session, and the metric
  says so, even if sessions were evicted or have expired;
* `public_connector` — the first is so of a server that listens on the network without the control
  plane, and its list of hosts is not empty.
-/

open Library Ssh

namespace Connector

/-! ### Checks -/

/-- **An operation of a check**: it is about the session of the inspection, or a command of the
server's that tells how the host is. -/
def Inspects (sessionId : String) (op : Operation) : Prop :=
  op = .getSession sessionId ∨ op = .getOSInfo sessionId ∨
    ∃ check, op = .exec (.inspect (commandForCheck check)) (commandForCheck check)

theorem Inspects.not_acts {sessionId : String} {op : Operation} (h : Inspects sessionId op) :
    ¬op.Acts := by
  rcases h with rfl | rfl | ⟨check, rfl⟩
  · exact id
  · exact id
  · exact fun hacts => hacts trivial

/-- The checks perform nothing else. -/
theorem inspectHost_inspects (sessionId : String) (checks : List (Option InspectionCheck)) :
    Program.Performs (fun _ => True) (Inspects sessionId) (inspectHost sessionId checks) := by
  induction checks with
  | nil => trivial
  | cons check checks ih =>
    cases check with
    | none =>
      have hlook : Program.Performs (fun _ => True) (Inspects sessionId) (getOSInfo sessionId) :=
        ⟨.inr (.inl rfl), fun _ _ => trivial⟩
      exact hlook.bind fun _ => ih
    | some check =>
      refine ⟨.inl rfl, fun answer _ => ?_⟩
      cases answer with
      | none => trivial
      | some =>
        have hlook : Program.Performs (fun _ => True) (Inspects sessionId)
            (.perform (.exec (.inspect (commandForCheck check)) (commandForCheck check)) .done :
              Ssh.Task CommandResult) := ⟨.inr (.inr ⟨check, rfl⟩), fun _ _ => trivial⟩
        exact hlook.bind fun _ => ih

theorem exists_inspectHost_eq (sessionId : String) {checks : List (Option InspectionCheck)}
    (h : 1 ≤ checks.length) :
    ∃ op rest, inspectHost sessionId checks = .perform op rest := by
  cases checks with
  | nil => cases h
  | cons check =>
    cases check with
    | none => exact ⟨_, _, rfl⟩
    | some => exact ⟨_, _, rfl⟩

/-! ### Permission -/

variable (d : Setting)

/-- **The provider has made these credentials for the alias**, of what the SSH configuration has for
it and what the credential command has replied. -/
def Provided (hostAlias : String) (credentials : LoginParams) : Prop :=
  ∃ resolvedHost reply,
    resolveConnectorCredentials d.config hostAlias resolvedHost reply = .ok credentials

/-- **An alias may be inspected with credentials.** -/
structure MayInspect (hostAlias : String) (credentials : LoginParams) : Prop where
  hostAlias_ne : hostAlias ≠ ""
  provided : Provided d hostAlias credentials
  permits : d.engine.Permits (SessionManager.openContext credentials.toConnectionParams .enforce)

variable {d}

theorem Provided.fromProvider {hostAlias : String} {credentials : LoginParams}
    (h : Provided d hostAlias credentials) : FromProvider d.config hostAlias credentials := by
  obtain ⟨resolvedHost, reply, hresolved⟩ := h
  exact (resolved_spec hresolved).1

theorem MayInspect.hostAllowed {hostAlias : String} {credentials : LoginParams}
    (h : MayInspect d hostAlias credentials) : HostAllowed d.engine hostAlias := by
  have hcontext : SessionManager.openContext credentials.toConnectionParams .enforce =
      { action := .sshOpen, host := some hostAlias, username := some credentials.username,
        mode := some .enforce } := by
    unfold SessionManager.openContext
    rw [h.provided.fromProvider.policyHost]
    rfl
  have hpermits := h.permits
  rw [hcontext] at hpermits
  exact ((permits_open_iff d.engine h.hostAlias_ne _ _).mp hpermits).1

/-- A call that proceeds in mode `enforce` is permitted. -/
theorem permits_of_proceeds {m : SessionManager} {params : ConnectionParams}
    (hmode : params.policyMode = some .enforce) (h : m.Proceeds d.engine params) :
    d.engine.Permits (SessionManager.openContext params .enforce) := by
  obtain ⟨hok, -, -⟩ := h
  rw [hmode] at hok
  change (d.engine.assertAllowed (SessionManager.openContext params .enforce)).isOk = true at hok
  cases hdecision : d.engine.assertAllowed (SessionManager.openContext params .enforce) with
  | error =>
    rw [hdecision] at hok
    cases hok
  | ok =>
    obtain ⟨rfl, hpassed⟩ := d.engine.assertAllowedWith_ok hdecision
    refine hpassed.resolve_right fun hexplain => ?_
    rw [PolicyEngine.evaluateWith_mode] at hexplain
    cases hexplain

/-! ### The invariant -/

namespace ConnectorServer

/-- The session is that of an inspection. -/
def Uses (S : ConnectorServer) (k : String) : Prop :=
  ∃ i x, S.inspections.get? i = some x ∧ x.session? = some k

/-- How many inspections have a session. -/
def inspecting (S : ConnectorServer) : ℕ := S.inspections.count fun x => x.session?.isSome

/-- **An inspection is sound**: its call waits with its credentials, or its session was opened with
them, and what is left of its checks only looks. -/
def InspectionSound (d : Setting) (pool : SessionPool) (x : Inspection) : Prop :=
  match x.phase with
  | .resolving => True
  | .opening credentials call =>
    (∃ o, pool.opening.get? call = some o ∧ o.params = credentials.toConnectionParams) ∧
      MayInspect d x.input.hostAlias credentials
  | .checking credentials sessionId rest =>
    MayInspect d x.input.hostAlias credentials ∧
      Program.Performs (fun _ => True) (Inspects sessionId) rest

/-- **The invariant.** -/
structure Tidy (d : Setting) (S : ConnectorServer) : Prop where
  tally : S.pool.Tally S.inspecting S.Uses
  sound : ∀ i x, S.inspections.get? i = some x → InspectionSound d S.pool x
  /-- No two inspections wait for one call. -/
  call_once : ∀ i j x y call, S.inspections.get? i = some x → S.inspections.get? j = some y →
    x.call? = some call → y.call? = some call → i = j
  /-- Every call that waits is that of an inspection. -/
  call_used : ∀ call o, S.pool.opening.get? call = some o →
    ∃ i x, S.inspections.get? i = some x ∧ x.call? = some call
  performed : ∀ p ∈ S.performed, MayInspect d p.hostAlias p.credentials ∧
    Inspects p.sessionId p.op ∧ ∀ k, p.op ≠ .getSession k

variable {S : ConnectorServer} {i : ℕ} {x : Inspection}

theorem tidy_fresh (d : Setting) (manager : SessionManager) : Tidy d (fresh manager) where
  tally := (SessionPool.fresh_tally manager).mono fun _ h => h.elim
  sound _ _ h := nomatch h
  call_once _ _ _ _ _ h := nomatch h
  call_used _ _ h := nomatch h
  performed _ h := absurd h List.not_mem_nil

/-! ### One inspection goes on -/

theorem sound_of_opening {pool pool' : SessionPool} (h : InspectionSound d pool x)
    (hkeep : ∀ call o, x.call? = some call → pool.opening.get? call = some o →
      pool'.opening.get? call = some o) : InspectionSound d pool' x := by
  unfold InspectionSound at h ⊢
  cases hphase : x.phase with
  | resolving => trivial
  | opening credentials call =>
    rw [hphase] at h
    obtain ⟨⟨o, ho, hparams⟩, hmay⟩ := h
    refine ⟨⟨o, hkeep call o ?_ ho, hparams⟩, hmay⟩
    rw [Inspection.call?, hphase]
  | checking =>
    rw [hphase] at h
    exact h

theorem waits_of_sound {pool : SessionPool} {call : ℕ} (h : InspectionSound d pool x)
    (hcall : x.call? = some call) : ∃ o, pool.opening.get? call = some o := by
  unfold InspectionSound at h
  unfold Inspection.call? at hcall
  split at hcall
  · next hphase =>
    obtain rfl := Option.some.inj hcall
    rw [hphase] at h
    obtain ⟨⟨o, ho, -⟩, -⟩ := h
    exact ⟨o, ho⟩
  · cases hcall

/-- **What it takes to go on.** One inspection becomes another or ends, and the pool may have
changed with it: the calls of the others wait as before, and the one that it may wait for is new. -/
theorem Tidy.replace (h : Tidy d S) (hx : S.inspections.get? i = some x) {T : Slots Inspection}
    {pool : SessionPool} (new : Option Inspection)
    (hget : ∀ j, T.get? j = if j = i then new else S.inspections.get? j)
    (htally : pool.Tally (T.count fun x => x.session?.isSome)
      fun k => ∃ j y, T.get? j = some y ∧ y.session? = some k)
    (hnew : ∀ y, new = some y → InspectionSound d pool y)
    (hfresh : ∀ y call, new = some y → y.call? = some call → S.pool.opening.get? call = none)
    (hkeep : ∀ call o, x.call? ≠ some call → S.pool.opening.get? call = some o →
      pool.opening.get? call = some o)
    (hcalls : ∀ call o, pool.opening.get? call = some o →
      (∃ y, new = some y ∧ y.call? = some call) ∨
        x.call? ≠ some call ∧ S.pool.opening.get? call = some o) :
    Tidy d { S with pool, inspections := T } := by
  -- an inspection is the new one or another, which has not changed
  have hcases : ∀ j y, T.get? j = some y →
      (j = i ∧ new = some y) ∨ (j ≠ i ∧ S.inspections.get? j = some y) := by
    intro j y hj
    rw [hget] at hj
    split at hj
    · next heq => exact .inl ⟨heq, hj⟩
    · next hne => exact .inr ⟨hne, hj⟩
  -- no two inspections wait for the same call
  have hothers : ∀ j y call, j ≠ i → S.inspections.get? j = some y → y.call? = some call →
      x.call? ≠ some call := by
    intro j y call hne hj hcall hcall'
    exact hne (h.call_once j i y x call hj hx hcall hcall')
  refine ⟨htally, ?_, ?_, ?_, h.performed⟩
  · intro j y hj
    rcases hcases j y hj with ⟨-, hy⟩ | ⟨hne, hy⟩
    · -- the new one is sound by assumption
      exact hnew y hy
    · -- the others are sound still, since their calls are kept
      refine sound_of_opening (h.sound j y hy) fun call o hcall ho => ?_
      exact hkeep call o (hothers j y call hne hy hcall) ho
  · intro j k y z call hj hk hycall hzcall
    -- the call of the new one is not in the pool yet, where those of the others are
    have hclash : ∀ l w, S.inspections.get? l = some w → w.call? = some call →
        ¬∃ y, new = some y ∧ y.call? = some call := by
      rintro l w hl hw ⟨y, hy, hycall⟩
      obtain ⟨o, ho⟩ := waits_of_sound (h.sound l w hl) hw
      rw [hfresh y call hy hycall] at ho
      cases ho
    rcases hcases j y hj with ⟨rfl, hy⟩ | ⟨-, hy⟩
    · rcases hcases k z hk with ⟨rfl, -⟩ | ⟨-, hz⟩
      · -- both are the new one
        rfl
      · exact absurd ⟨y, hy, hycall⟩ (hclash k z hz hzcall)
    · rcases hcases k z hk with ⟨-, hz⟩ | ⟨-, hz⟩
      · exact absurd ⟨z, hz, hzcall⟩ (hclash j y hy hycall)
      · -- neither is the new one, and they were distinct before
        exact h.call_once j k y z call hy hz hycall hzcall
  · intro call o ho
    rcases hcalls call o ho with ⟨y, hy, hycall⟩ | ⟨hne, hold⟩
    · -- the call is waited for by the new one
      refine ⟨i, y, ?_, hycall⟩
      change T.get? i = some y
      rw [hget, if_pos rfl, hy]
    · -- it was waited for before, by another than the one replaced
      obtain ⟨j, y, hj, hycall⟩ := h.call_used call o hold
      have hji : j ≠ i := by
        rintro rfl
        rw [hx] at hj
        obtain rfl := Option.some.inj hj
        exact hne hycall
      refine ⟨j, y, ?_, hycall⟩
      change T.get? j = some y
      rw [hget, if_neg hji, hj]

theorem uses_of_ne {T : Slots Inspection} {k : String} (hx : S.inspections.get? i = some x)
    (hne : x.session? ≠ some k)
    (hget : ∀ j, j ≠ i → T.get? j = S.inspections.get? j) (huses : S.Uses k) :
    ∃ j y, T.get? j = some y ∧ y.session? = some k := by
  obtain ⟨j, y, hj, hsession⟩ := huses
  have hji : j ≠ i := by
    rintro rfl
    rw [hx] at hj
    obtain rfl := Option.some.inj hj
    exact hne hsession
  exact ⟨j, y, (hget j hji).trans hj, hsession⟩

/-- **An inspection without a session ends.** -/
theorem Tidy.remove (h : Tidy d S) (hx : S.inspections.get? i = some x) (hnone : x.session? = none)
    {pool : SessionPool} (htally : pool.Tally S.inspecting S.Uses)
    (hkeep : ∀ call o, x.call? ≠ some call → S.pool.opening.get? call = some o →
      pool.opening.get? call = some o)
    (hcalls : ∀ call o, pool.opening.get? call = some o →
      x.call? ≠ some call ∧ S.pool.opening.get? call = some o) :
    Tidy d { S with pool, inspections := S.inspections.remove i } := by
  have hcount := Slots.count_remove (p := fun x : Inspection => x.session?.isSome) hx
  rw [hnone, Option.isSome_none, if_neg Bool.false_ne_true, Nat.add_zero] at hcount
  -- nothing is new
  refine h.replace hx none (fun j => Slots.get?_remove) ?_ (fun _ hy => nomatch hy)
    (fun _ _ hy => nomatch hy) hkeep fun call o ho => .inr (hcalls call o ho)
  rw [inspecting, hcount] at htally
  refine htally.mono fun k hk => uses_of_ne hx (by rw [hnone]; exact nofun) (fun j hj => ?_) hk
  rw [Slots.get?_remove, if_neg hj]

theorem get?_next_phase (hx : S.inspections.get? i = some x) (phase : Phase) (j : ℕ) :
    (S.inspections.update i fun x => { x with phase }).get? j =
      if j = i then some { x with phase } else S.inspections.get? j := by
  rw [Slots.get?_update, hx]
  rfl

/-! ### The steps -/

/-- **The checks go on, or the session is closed.** -/
theorem tidy_proceed (h : Tidy d S) {credentials : LoginParams} {k : String}
    {rest : Ssh.Task Unit} (hx : S.inspections.get? i = some x) (hsession : x.session? = some k)
    (hmay : MayInspect d x.input.hostAlias credentials)
    (hrest : Program.Performs (fun _ => True) (Inspects k) rest) :
    Tidy d (S.proceed i credentials k rest) := by
  have hcall : x.call? = none := by
    -- an inspection with a session waits for no call
    unfold Inspection.session? at hsession
    unfold Inspection.call?
    split at hsession
    · next hphase => rw [hphase]
    · cases hsession
  cases rest with
  | done =>
    have hcount := Slots.count_remove (p := fun x : Inspection => x.session?.isSome) hx
    rw [hsession, Option.isSome_some, if_pos rfl] at hcount
    refine h.replace hx none (fun j => Slots.get?_remove) ?_ (fun _ hy => nomatch hy)
      (fun _ _ hy => nomatch hy) ?_ ?_
    · -- the session goes with the inspection
      have htally := h.tally
      rw [inspecting, hcount] at htally
      refine htally.inspected.mono fun k' hk' => ?_
      refine uses_of_ne hx (fun heq => ?_) (fun j hj => ?_) hk'.1
      · rw [hsession] at heq
        exact hk'.2 (Option.some.inj heq).symm
      · rw [Slots.get?_remove, if_neg hj]
    · intro call o _ ho
      rw [SessionPool.opening_closeSession]
      exact ho
    · intro call o ho
      rw [SessionPool.opening_closeSession] at ho
      rw [hcall]
      exact .inr ⟨nofun, ho⟩
  | perform op rest =>
    refine h.replace hx _ (get?_next_phase hx _) ?_ ?_ ?_ (fun _ _ _ ho => ho) fun call o ho => ?_
    · have hcount := Slots.count_update (p := fun x : Inspection => x.session?.isSome)
        (f := fun x => { x with phase := .checking credentials k (.perform op rest) }) hx
      rw [hsession] at hcount
      have hsame := Nat.add_right_cancel hcount
      rw [hsame]
      refine h.tally.mono ?_
      -- the inspection keeps its session through the check
      rintro k' ⟨j, y, hj, hy⟩
      by_cases hji : j = i
      · subst hji
        rw [hx] at hj
        obtain rfl := Option.some.inj hj
        refine ⟨j, _, (get?_next_phase hx _ j).trans (if_pos rfl), ?_⟩
        rw [hsession] at hy
        exact hy
      · exact ⟨j, y, ((get?_next_phase hx _ j).trans (if_neg hji)).trans hj, hy⟩
    · intro y hy
      obtain rfl := Option.some.inj hy
      exact ⟨hmay, hrest⟩
    · intro y call hy hycall
      obtain rfl := Option.some.inj hy
      cases hycall
    · rw [hcall]
      exact .inr ⟨nofun, ho⟩

theorem Tidy.of_pool (h : Tidy d S) {pool : SessionPool} (htally : pool.Tally S.inspecting S.Uses)
    (hopening : pool.opening = S.pool.opening) : Tidy d { S with pool } := by
  refine ⟨htally, fun i x hx => ?_, h.call_once, fun call o ho => ?_, h.performed⟩
  · refine sound_of_opening (h.sound i x hx) fun call o _ ho => ?_
    rw [hopening]
    exact ho
  · have ho : pool.opening.get? call = some o := ho
    rw [hopening] at ho
    exact h.call_used call o ho

theorem opening_getSession (s : SessionPool) (time : ℕ) (k : String) :
    (s.getSession time k).2.opening = s.opening := by
  rcases SessionPool.getSession_cases s time k with heq | heq | ⟨old, used, -, heq⟩
  · rw [heq]
  · rw [heq, SessionPool.opening_closeSession]
  · rw [heq]

theorem opening_cleanup (s : SessionPool) (time : ℕ) :
    (s.cleanupExpiredSessions time).opening = s.opening :=
  SessionPool.cleanup_rec (P := fun s' => s'.opening = s.opening) rfl fun s' k hs => by
    rw [SessionPool.opening_closeSession, hs]

theorem tidy_call (h : Tidy d S) (rawToolName : String) (args : Value) :
    Tidy d (S.call d rawToolName args) := by
  unfold call
  split
  · split
    · exact h
    · next input _ =>
      -- an inspection that waits for its credentials has nothing yet
      have hget : ∀ j y, (S.inspections.add ⟨input, .resolving⟩).get? j = some y →
          y = ⟨input, .resolving⟩ ∨ S.inspections.get? j = some y := by
        intro j y hj
        rw [Slots.get?_add] at hj
        split at hj
        · exact .inl (Option.some.inj hj).symm
        · exact .inr hj
      refine ⟨?_, ?_, ?_, ?_, h.performed⟩
      · have htally := h.tally
        have hcount : (S.inspections.add ⟨input, .resolving⟩).count (fun x => x.session?.isSome) =
            S.inspecting := Slots.count_add
        rw [inspecting, hcount]
        refine htally.mono ?_
        rintro k ⟨j, y, hj, hy⟩
        exact ⟨j, y, Slots.get?_add_of_some hj, hy⟩
      · intro j y hj
        rcases hget j y hj with rfl | hj
        · trivial
        · exact h.sound j y hj
      · intro j l y z call hj hl hycall hzcall
        rcases hget j y hj with rfl | hj
        · cases hycall
        · rcases hget l z hl with rfl | hl
          · cases hzcall
          · exact h.call_once j l y z call hj hl hycall hzcall
      · intro call o ho
        obtain ⟨j, y, hj, hy⟩ := h.call_used call o ho
        exact ⟨j, y, Slots.get?_add_of_some hj, hy⟩
  · exact ⟨h.tally, h.sound, h.call_once, h.call_used, h.performed⟩
  · exact h

theorem tidy_resolved (h : Tidy d S) (i : ℕ) (resolvedHost : Except Failure ResolvedHost)
    (child : List ChildEvent) (now later : ℕ) :
    Tidy d (S.resolved d i resolvedHost child now later) := by
  unfold resolved
  split
  · next input hx =>
    dsimp only
    split
    · exact h
    · split
      · -- no credentials: the inspection is over
        exact h.remove hx rfl h.tally (fun _ _ _ ho => ho) fun _ _ ho => ⟨nofun, ho⟩
      · next credentials hcredentials =>
        have hprovided : Provided d input.hostAlias credentials := ⟨_, _, hcredentials⟩
        have hfrom := hprovided.fromProvider
        -- credentials of a provider never ask for a dry run
        have hmode : credentials.policyMode.getD .enforce ≠ .explain := by
          rw [hfrom.policyMode]
          exact nofun
        have htally : (S.pool.openSession d.engine d.ids credentials.toConnectionParams now
            later).Tally S.inspecting S.Uses := h.tally.openSession hmode
        -- the call of `openSession` goes on to the connection, or returns at once
        by_cases hproceeds : S.pool.manager.Proceeds d.engine credentials.toConnectionParams
        · have hopening : (S.pool.openSession d.engine d.ids credentials.toConnectionParams now
              later).opening = S.pool.opening.add ⟨d.ids.draw S.pool.opening.next,
                credentials.toConnectionParams, now, S.pool.victim? later⟩ := by
            rw [SessionPool.openSession_of_proceeds hproceeds]
            rfl
          rw [hopening, Slots.get?_add_next, Option.isSome_some, if_pos rfl]
          refine h.replace hx _ (get?_next_phase hx _) ?_ ?_ ?_ ?_ ?_
          · -- the inspection has no session before and none now
            have hcount := Slots.count_update (p := fun x : Inspection => x.session?.isSome)
              (f := fun x => { x with phase := .opening credentials S.pool.opening.next }) hx
            have hsame := Nat.add_right_cancel hcount
            rw [hsame]
            refine htally.mono fun k hk => uses_of_ne hx nofun (fun l hl => ?_) hk
            rw [get?_next_phase hx, if_neg hl]
          · intro y hy
            obtain rfl := Option.some.inj hy
            -- the call that the inspection waits for was opened with its credentials
            refine ⟨⟨_, by rw [hopening, Slots.get?_add_next], rfl⟩, input.hostAlias_ne, hprovided,
              ?_⟩
            exact permits_of_proceeds hfrom.policyMode hproceeds
          · intro y call hy hycall
            obtain rfl := Option.some.inj hy
            obtain rfl := Option.some.inj hycall
            exact Slots.get?_next
          · intro call o _ ho
            rw [hopening]
            exact Slots.get?_add_of_some ho
          · intro call o ho
            rw [hopening, Slots.get?_add] at ho
            split at ho
            · next hcall => exact .inl ⟨_, rfl, congrArg some hcall.symm⟩
            · exact .inr ⟨nofun, ho⟩
        · have hopening : (S.pool.openSession d.engine d.ids credentials.toConnectionParams now
              later).opening = S.pool.opening.skip := by
            obtain ⟨result, metrics, heq, -, -⟩ :=
              SessionPool.openSession_of_not_proceeds d.ids now later hproceeds
            rw [heq]
            rfl
          rw [hopening, Slots.get?_skip, Slots.get?_next, Option.isSome_none,
            if_neg Bool.false_ne_true]
          -- the call has returned, so the inspection is over
          refine h.remove hx rfl htally (fun call o _ ho => ?_) fun call o ho => ?_
          · rw [hopening, Slots.get?_skip]
            exact ho
          · rw [hopening, Slots.get?_skip] at ho
            exact ⟨nofun, ho⟩
  · exact h

theorem tidy_connected (h : Tidy d S) (i : ℕ) (connection : Except Failure Bool) :
    Tidy d (S.connected i connection) := by
  unfold connected
  split
  · next input credentials call hx =>
    -- the inspection that goes on waits for this call, and no other does
    have hwaits := h.sound i _ hx
    have hkeep : ∀ (pool : SessionPool), pool.opening = S.pool.opening.remove call →
        ∀ call' o, (Inspection.mk input (.opening credentials call)).call? ≠ some call' →
          S.pool.opening.get? call' = some o → pool.opening.get? call' = some o := by
      intro pool hopening call' o hne ho
      rw [hopening, Slots.get?_remove, if_neg fun heq => hne (congrArg some heq.symm)]
      exact ho
    have hcalls : ∀ (pool : SessionPool), pool.opening = S.pool.opening.remove call →
        ∀ call' o, pool.opening.get? call' = some o →
          (Inspection.mk input (.opening credentials call)).call? ≠ some call' ∧
            S.pool.opening.get? call' = some o := by
      intro pool hopening call' o ho
      rw [hopening, Slots.get?_remove] at ho
      split at ho
      · cases ho
      · next hne => exact ⟨fun heq => hne (Option.some.inj heq).symm, ho⟩
    obtain ⟨⟨o, ho, -⟩, hmay⟩ := hwaits
    rw [ho]
    cases connection with
    | error e =>
      have hopening : (S.pool.connected call (.error e)).opening = S.pool.opening.remove call := by
        unfold SessionPool.connected
        rw [ho]
      exact h.remove hx rfl (h.tally.failed call e) (hkeep _ hopening) (hcalls _ hopening)
    | ok sftp =>
      have hopening : (S.pool.connected call (.ok sftp)).opening = S.pool.opening.remove call := by
        unfold SessionPool.connected
        rw [ho]
      obtain ⟨op, rest, hprogram⟩ := exists_inspectHost_eq o.sessionId input.checks_length.1
      have hinspects := inspectHost_inspects o.sessionId input.checks
      dsimp only
      rw [hprogram] at hinspects ⊢
      refine h.replace hx _ (get?_next_phase hx _) ?_ ?_ ?_ (hkeep _ hopening) fun call' o' ho' =>
        .inr (hcalls _ hopening call' o' ho')
      · -- now it has one
        have hcount := Slots.count_update (p := fun x : Inspection => x.session?.isSome)
          (f := fun x => { x with phase := .checking credentials o.sessionId (.perform op rest) })
            hx
        have hone : (S.inspections.update i fun x =>
            { x with phase := .checking credentials o.sessionId (.perform op rest) }).count
              (fun x => x.session?.isSome) = S.inspecting + 1 := hcount
        rw [hone]
        refine (h.tally.connected ho sftp).mono ?_
        rintro k (hk | rfl)
        · refine uses_of_ne hx nofun (fun l hl => ?_) hk
          rw [get?_next_phase hx, if_neg hl]
        · exact ⟨i, _, (get?_next_phase hx _ i).trans (if_pos rfl), rfl⟩
      · intro y hy
        obtain rfl := Option.some.inj hy
        exact ⟨hmay, hinspects⟩
      · intro y call' hy hycall
        obtain rfl := Option.some.inj hy
        cases hycall
  · exact h

theorem tidy_answered (h : Tidy d S) (i time : ℕ) (answer : (op : Operation) → Answer op) :
    Tidy d (S.answered i time answer) := by
  unfold answered
  split
  · next input credentials sessionId op rest hx =>
    obtain ⟨hmay, hop, hrest⟩ := h.sound i _ hx
    obtain ⟨pool, performed, answered, heq, hpool, hperformed⟩ :=
      perform_cases (S := S) i input.hostAlias credentials sessionId time answer op rest
    rw [heq]
    have hlooked : Tidy d { S with pool } := by
      rcases hpool with rfl | ⟨k, rfl⟩
      · exact h
      · exact h.of_pool (h.tally.getSession time k) (opening_getSession _ time k)
    have hnext : Tidy d { S with pool, performed } := by
      refine ⟨hlooked.tally, hlooked.sound, hlooked.call_once, hlooked.call_used, ?_⟩
      rcases hperformed with rfl | ⟨hhost, rfl⟩
      · exact h.performed
      · intro p hp
        rcases List.mem_append.mp hp with hp | hp
        · exact h.performed p hp
        · obtain rfl := List.mem_singleton.mp hp
          exact ⟨hmay, hop, hhost⟩
    exact tidy_proceed hnext hx rfl hmay (hrest answered trivial)
  · exact h

/-- **The step lemma.** -/
theorem tidy_step (h : Tidy d S) (e : ConnectorEvent) : Tidy d (S.step d e) := by
  cases e with
  | call rawToolName args => exact tidy_call h rawToolName args
  | resolved i resolvedHost child now later => exact tidy_resolved h i resolvedHost child now later
  | connected i connection => exact tidy_connected h i connection
  | answered i time answer => exact tidy_answered h i time answer
  | sessionClosed n =>
    exact h.of_pool (h.tally.sessionClosed n) (SessionPool.opening_sessionClosed _ n)
  | cleanup time => exact h.of_pool (h.tally.cleanup time) (opening_cleanup _ time)

/-- **The run lemma.** -/
theorem tidy_run (d : Setting) (manager : SessionManager) (es : List ConnectorEvent) :
    Tidy d (Run.run (step d) (fresh manager) es) :=
  Run.run_of_preserved (P := Tidy d) (C := fun _ _ => True) (fun _ e h _ => tidy_step h e)
    (tidy_fresh d manager) (Run.allSteps_of_forall (fun _ _ => trivial) _ _)

/-! ### Nothing else is asked -/

theorem elsewhere_proceed (S : ConnectorServer) (i : ℕ) (credentials : LoginParams)
    (sessionId : String) (rest : Ssh.Task Unit) :
    (S.proceed i credentials sessionId rest).elsewhere = S.elsewhere := by
  cases rest with
  | done => rfl
  | perform => rfl

/-- **The step lemma for the other providers**: under a restricted profile they are never asked. -/
theorem elsewhere_step (hprofile : Http.isRemoteSafeToolProfile d.config.toolProfile = true)
    (S : ConnectorServer) (e : ConnectorEvent) : (S.step d e).elsewhere = S.elsewhere := by
  cases e with
  | call rawToolName args =>
    change (S.call d rawToolName args).elsewhere = _
    unfold call
    split
    · split
      · rfl
      · rfl
    · -- the profile hands no call to the tools elsewhere
      next toolName hdispatch => exact absurd hdispatch (dispatch_restricted hprofile _ toolName)
    · rfl
  | resolved i resolvedHost child now later =>
    change (S.resolved d i resolvedHost child now later).elsewhere = _
    unfold resolved
    split
    · dsimp only
      split
      · rfl
      · split
        · rfl
        · split
          · rfl
          · rfl
    · rfl
  | connected i connection =>
    change (S.connected i connection).elsewhere = _
    unfold connected
    split
    · split
      · rfl
      · rfl
      · exact elsewhere_proceed _ i _ _ _
    · rfl
  | answered i time answer =>
    change (S.answered i time answer).elsewhere = _
    unfold answered
    split
    · next input credentials sessionId op rest _ =>
      obtain ⟨pool, performed, answered, heq, -, -⟩ :=
        perform_cases (S := S) i input.hostAlias credentials sessionId time answer op rest
      rw [heq]
      exact elsewhere_proceed _ i credentials sessionId _
    · rfl
  | sessionClosed => rfl
  | cleanup => rfl

theorem elsewhere_run (hprofile : Http.isRemoteSafeToolProfile d.config.toolProfile = true)
    (manager : SessionManager) (es : List ConnectorEvent) :
    (Run.run (step d) (fresh manager) es).elsewhere = [] :=
  Run.run_of_preserved (P := fun S => S.elsewhere = []) (C := fun _ _ => True)
    (fun S e h _ => (elsewhere_step hprofile S e).trans h) rfl
    (Run.allSteps_of_forall (fun _ _ => trivial) _ _)

/-! ### A sample -/

/-- A connector that logs in with the agent of the server. -/
def sampleSetting (engine : PolicyEngine Ssh.sampleRuntime) : Setting where
  rt := Ssh.sampleRuntime
  engine
  ids := SessionPool.sampleIdentifiers
  replies := ⟨fun _ => .error .unfinished, fun _ => .unfinished⟩
  config := { toolProfile := .remoteSafe, credentialProvider := .agent }

theorem exists_sampleEngine :
    ∃ engine : PolicyEngine Ssh.sampleRuntime, engine.config = { allowedHosts := ["web"] } :=
  PolicyEngine.exists_engine Ssh.sampleRuntime { allowedHosts := ["web"] } (by decide) (by decide)
    ⟨rfl, rfl⟩

/-- What it logs in to `web` with. -/
def sampleLogin : LoginParams where
  host := "10.0.0.1"
  policyHost := some "web"
  username := "demo"
  auth := some .agent
  useAgent := some true
  hostKeyPolicy := some .strict
  policyMode := some .enforce

/-- `web` is inspected. -/
def sampleInspection (answer : (op : Operation) → Answer op) : List ConnectorEvent :=
  [.call "ssh.hostInspect" (.obj [("hostAlias", .str "web")]),
    .resolved 0 (.ok { host := "10.0.0.1", username := some "demo" }) [] 0 0,
    .connected 0 (.ok true), .answered 0 0 answer]

variable {engine : PolicyEngine Ssh.sampleRuntime}

theorem sample_proceeds (h : engine.config = { allowedHosts := ["web"] }) (m : SessionManager) :
    m.Proceeds engine sampleLogin.toConnectionParams := by
  refine ⟨?_, by decide, fun h => absurd h (by decide)⟩
  have hweb : "web" ≠ "" := by decide
  have hpermits : engine.Permits
      (SessionManager.openContext sampleLogin.toConnectionParams .enforce) := by
    refine (permits_open_iff engine hweb (some "demo") (some .enforce)).mpr
      ⟨.inr ⟨"web", ?_, .inl rfl⟩, fun h => absurd h (by decide)⟩
    rw [h]
    exact List.mem_singleton.mpr rfl
  change (engine.assertAllowed
    (SessionManager.openContext sampleLogin.toConnectionParams .enforce)).isOk = true
  rw [engine.assertAllowed_eq, if_neg fun h => h.1 hpermits]
  rfl

/-- The call, parsed. -/
def sampleInput : HostInspectInput := ⟨"web", [none], by decide, by decide⟩

/-- The server when `web` may be connected to. -/
def sampleCalled : ConnectorServer where
  pool := SessionPool.fresh {}
  inspections := Slots.empty.add ⟨sampleInput, .resolving⟩

/-- The server while it connects to `web`. -/
def sampleOpening : ConnectorServer where
  pool := (SessionPool.fresh {}).awaitConnection SessionPool.sampleIdentifiers
    sampleLogin.toConnectionParams 0 0
  inspections := Slots.empty.add ⟨sampleInput, .opening sampleLogin 0⟩

theorem performed_proceed (S : ConnectorServer) (i : ℕ) (credentials : LoginParams)
    (sessionId : String) (rest : Ssh.Task Unit) :
    (S.proceed i credentials sessionId rest).performed = S.performed := by
  cases rest with
  | done => rfl
  | perform => rfl

/-- With the agent of the server, an inspection that may go on waits for its connection. -/
theorem resolved_of_proceeds {input : HostInspectInput} {params : LoginParams}
    {resolvedHost : Except Failure ResolvedHost}
    (hx : S.inspections.get? i = some ⟨input, .resolving⟩)
    (hprovider : d.config.credentialProvider = .agent)
    (hparams : resolveAgentCredentials d.config input.hostAlias resolvedHost = .ok params)
    (hproceeds : S.pool.manager.Proceeds d.engine params.toConnectionParams)
    (child : List ChildEvent) (now later : ℕ) :
    S.resolved d i resolvedHost child now later =
      { S with
        pool := S.pool.awaitConnection d.ids params.toConnectionParams now later
        inspections := S.inspections.update i fun x =>
          { x with phase := .opening params S.pool.opening.next } } := by
  have hresolve : ∀ reply, resolveConnectorCredentials d.config input.hostAlias resolvedHost reply =
      .ok params := by
    intro reply
    unfold resolveConnectorCredentials
    rw [hprovider]
    exact hparams
  have hwaits : ((S.pool.awaitConnection d.ids params.toConnectionParams now later).opening.get?
      S.pool.opening.next).isSome = true := by
    unfold SessionPool.awaitConnection
    rw [Slots.get?_add_next, Option.isSome_some]
  unfold resolved
  rw [hx]
  dsimp only
  rw [hresolve, if_neg fun h => CredentialProvider.noConfusion (hprovider.symm.trans h.1)]
  dsimp only
  rw [SessionPool.openSession_of_proceeds hproceeds, if_pos hwaits]

/-- The sample looks at `web` once. -/
theorem run_sampleInspection (h : engine.config = { allowedHosts := ["web"] })
    (answer : (op : Operation) → Answer op) :
    (Run.run (step (sampleSetting engine)) (fresh {}) (sampleInspection answer)).performed =
      [⟨"web", sampleLogin, "x", .getOSInfo "x"⟩] := by
  have hcall : step (sampleSetting engine) (fresh {}) (.call "ssh.hostInspect"
      (.obj [("hostAlias", .str "web")])) = sampleCalled := rfl
  have hx : sampleCalled.inspections.get? 0 = some ⟨sampleInput, .resolving⟩ := rfl
  have hparams : resolveAgentCredentials (sampleSetting engine).config sampleInput.hostAlias
      (.ok { host := "10.0.0.1", username := some "demo" }) = .ok sampleLogin := rfl
  have hresolved : step (sampleSetting engine) sampleCalled (.resolved 0
      (.ok { host := "10.0.0.1", username := some "demo" }) [] 0 0) = sampleOpening :=
    (resolved_of_proceeds hx rfl hparams (sample_proceeds h _) [] 0 0).trans rfl
  have hchecking : (sampleOpening.connected 0 (.ok true)).inspections.get? 0 =
      some ⟨sampleInput, .checking sampleLogin "x" (inspectHost "x" [none])⟩ := rfl
  have hsession : ((sampleOpening.connected 0 (.ok true)).pool.getSession 0 "x").1.isSome =
      true := by
    decide +kernel
  obtain ⟨session, hsession⟩ := Option.isSome_iff_exists.mp hsession
  unfold sampleInspection
  rw [Run.run_cons, hcall, Run.run_cons, hresolved]
  change ((sampleOpening.connected 0 (.ok true)).answered 0 0 answer).performed = _
  unfold answered
  rw [hchecking]
  change ((sampleOpening.connected 0 (.ok true)).perform 0 "web" sampleLogin "x" 0 answer
    (.getOSInfo "x") _).performed = _
  dsimp only [perform]
  rw [hsession]
  exact performed_proceed _ 0 sampleLogin "x" _

/-! ### Results -/

/-- **What is performed looks, and may**: it tells how the host is, and the session was opened with
credentials that the provider has made for the alias and that the policy permits. -/
structure LooksOnly (d : Setting) (p : Performed) : Prop where
  looks : p.op = .getOSInfo p.sessionId ∨
    ∃ check, p.op = .exec (.inspect (commandForCheck check)) (commandForCheck check)
  not_acts : ¬p.op.Acts
  hostAllowed : HostAllowed d.engine p.hostAlias
  provided : Provided d p.hostAlias p.credentials
  fromProvider : FromProvider d.config p.hostAlias p.credentials
  permits : d.engine.Permits (SessionManager.openContext p.credentials.toConnectionParams .enforce)

theorem Tidy.looksOnly (h : Tidy d S) {p : Performed} (hp : p ∈ S.performed) : LooksOnly d p := by
  obtain ⟨hmay, hop, hhost⟩ := h.performed p hp
  refine ⟨?_, hop.not_acts, hmay.hostAllowed, hmay.provided, hmay.provided.fromProvider,
    hmay.permits⟩
  rcases hop with hget | hlooks
  · exact absurd hget (hhost _)
  · exact hlooks

/-- **A connector with a restricted profile reads only.** Whatever tools are called, by whatever
names and with whatever arguments, and however the inspections are interleaved: no other provider
is asked, and what is performed on a host looks, on a host of the policy. -/
theorem connector_reads_only (d : Setting)
    (hprofile : Http.isRemoteSafeToolProfile d.config.toolProfile = true)
    (manager : SessionManager) (es : List ConnectorEvent) :
    (Run.run (step d) (fresh manager) es).elsewhere = [] ∧
      ∀ p ∈ (Run.run (step d) (fresh manager) es).performed, LooksOnly d p :=
  ⟨elsewhere_run hprofile manager es, fun _ hp => (tidy_run d manager es).looksOnly hp⟩

theorem connector_reads_only_sample :
    ∃ engine : PolicyEngine Ssh.sampleRuntime, engine.config = { allowedHosts := ["web"] } ∧
      ∀ answer,
        let S := Run.run (step (sampleSetting engine)) (fresh {}) (sampleInspection answer)
        S.performed = [⟨"web", sampleLogin, "x", .getOSInfo "x"⟩] ∧ S.elsewhere = [] ∧
          ∀ p ∈ S.performed, LooksOnly (sampleSetting engine) p := by
  obtain ⟨engine, hengine⟩ := exists_sampleEngine
  exact ⟨engine, hengine, fun answer => ⟨run_sampleInspection hengine answer,
    connector_reads_only (sampleSetting engine) rfl {} (sampleInspection answer)⟩⟩

/-- No inspection is under way, and no session is being closed. -/
def Idle (S : ConnectorServer) : Prop :=
  S.inspections.values = [] ∧ S.pool.closing.values = []

/-- **A connector leaves nothing behind.** The metric has the inspections that have a session and
the sessions that are being closed after one, whatever was evicted or has expired; every session is
used by an inspection or being closed. When all of that is over, there are no sessions, no calls of
`openSession`, and none is counted. -/
theorem connector_leaves_nothing (d : Setting)
    (hprofile : Http.isRemoteSafeToolProfile d.config.toolProfile = true)
    (manager : SessionManager) (es : List ConnectorEvent) :
    let S := Run.run (step d) (fresh manager) es
    S.elsewhere = [] ∧
      S.pool.metrics.active = S.inspecting + S.pool.inspectionsClosing ∧
      (∀ k, S.pool.Holds k → S.Uses k ∨ ∃ c ∈ S.pool.closing.values, c.sessionId = k) ∧
      (S.Idle → (∀ k, ¬S.pool.Holds k) ∧ (∀ call, S.pool.opening.get? call = none) ∧
        S.pool.metrics.active = 0) := by
  intro S
  have h : Tidy d S := tidy_run d manager es
  have hheld : ∀ k, S.pool.Holds k → S.Uses k ∨ ∃ c ∈ S.pool.closing.values, c.sessionId = k := by
    intro k hk
    by_cases hclosing : ∃ c ∈ S.pool.closing.values, c.sessionId = k
    · exact .inr hclosing
    · exact .inl (h.tally.loose k ⟨hk, fun c hc heq => hclosing ⟨c, hc, heq⟩⟩)
  refine ⟨elsewhere_run hprofile manager es, h.tally.active, hheld, fun hidle => ?_⟩
  have hnone : ∀ i x, S.inspections.get? i ≠ some x := by
    intro i x hx
    have hmem : x ∈ S.inspections.values := Slots.mem_values.mpr ⟨i, hx⟩
    rw [hidle.1] at hmem
    cases hmem
  refine ⟨?_, ?_, ?_⟩
  · intro k hk
    rcases hheld k hk with ⟨i, x, hx, -⟩ | ⟨c, hc, -⟩
    · exact hnone i x hx
    · rw [hidle.2] at hc
      cases hc
  · intro call
    by_contra hne
    obtain ⟨o, ho⟩ := Option.ne_none_iff_exists'.mp hne
    obtain ⟨i, x, hx, -⟩ := h.call_used call o ho
    exact hnone i x hx
  · rw [h.tally.active, inspecting, SessionPool.inspectionsClosing, Slots.count, Slots.count,
      hidle.1, hidle.2]
    rfl

theorem connector_leaves_nothing_sample :
    ∃ engine : PolicyEngine Ssh.sampleRuntime, engine.config = { allowedHosts := ["web"] } ∧
      ∀ answer,
        let S := Run.run (step (sampleSetting engine)) (fresh {}) (sampleInspection answer)
        S.performed = [⟨"web", sampleLogin, "x", .getOSInfo "x"⟩] ∧
          S.pool.metrics.active = S.inspecting + S.pool.inspectionsClosing := by
  obtain ⟨engine, hengine⟩ := exists_sampleEngine
  exact ⟨engine, hengine, fun answer => ⟨run_sampleInspection hengine answer,
    (connector_leaves_nothing (sampleSetting engine) rfl {} (sampleInspection answer)).2.1⟩⟩

/-- **A server that listens on the network without the control plane reads only, and for the aliases
of a list**: it has not started with the full profile, or without a list. -/
theorem public_connector {rt : Http.Runtime} (server : Http.Listening rt)
    (hhost : Http.isLoopbackHost server.config.http.host = false)
    (hremote : server.config.remoteEnabled = false) (d : Setting)
    (hprofile : d.config.toolProfile = server.config.toolProfile)
    (hhosts : d.engine.config.allowedHosts = server.config.allowedHosts)
    (manager : SessionManager) (es : List ConnectorEvent) :
    server.config.allowedHosts ≠ [] ∧ (Run.run (step d) (fresh manager) es).elsewhere = [] ∧
      ∀ p ∈ (Run.run (step d) (fresh manager) es).performed, LooksOnly d p ∧
        ∃ allowed ∈ server.config.allowedHosts, hostHits d.rt allowed p.hostAlias := by
  have hstarted := server.started
  unfold Http.validateStartup at hstarted
  rw [hremote, Bool.not_false, if_pos rfl] at hstarted
  obtain ⟨hsafe, hne⟩ := Http.restricted_of_validate hstarted hhost
  refine ⟨hne, elsewhere_run (by rw [hprofile]; exact hsafe) manager es, fun p hp => ?_⟩
  have hlooks := (tidy_run d manager es).looksOnly hp
  refine ⟨hlooks, ?_⟩
  have hallowed := hlooks.hostAllowed
  unfold HostAllowed at hallowed
  rw [hhosts] at hallowed
  exact hallowed.resolve_left hne

/-- A runtime that reads every URL as that of a public host. -/
def publicRuntime : Http.Runtime :=
  { Http.sampleRuntime with url := fun _ => some ⟨"https:", "example.com", "/"⟩ }

/-- A server on all interfaces, for one host and with access tokens. -/
def publicServer : Http.Listening publicRuntime where
  config := {
    http := {
      host := "0.0.0.0"
      allowedOrigins := ["https://example.com"]
      publicUrl := some "https://example.com" }
    auth := {
      mode := .oauth
      oauthIssuer := some "https://example.com"
      oauthJwksUrl := some "https://example.com/keys" }
    toolProfile := .remoteSafe
    allowedHosts := ["web"] }
  bearerToken := none
  bearerToken_eq := rfl
  started := by decide +kernel

theorem public_connector_sample :
    ∃ engine : PolicyEngine Ssh.sampleRuntime, engine.config = { allowedHosts := ["web"] } ∧
      ∀ answer,
        let S := Run.run (step (sampleSetting engine)) (fresh {}) (sampleInspection answer)
        S.performed = [⟨"web", sampleLogin, "x", .getOSInfo "x"⟩] ∧
          publicServer.config.allowedHosts ≠ [] ∧ S.elsewhere = [] ∧
          ∀ p ∈ S.performed, LooksOnly (sampleSetting engine) p ∧
            ∃ allowed ∈ publicServer.config.allowedHosts,
              hostHits Ssh.sampleRuntime allowed p.hostAlias := by
  obtain ⟨engine, hengine⟩ := exists_sampleEngine
  have hhosts : (sampleSetting engine).engine.config.allowedHosts =
      publicServer.config.allowedHosts := by
    change engine.config.allowedHosts = ["web"]
    rw [hengine]
  exact ⟨engine, hengine, fun answer => ⟨run_sampleInspection hengine answer,
    public_connector publicServer (by decide +kernel) rfl (sampleSetting engine) rfl hhosts {}
      (sampleInspection answer)⟩⟩

end ConnectorServer
end Connector
