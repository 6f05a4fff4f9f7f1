import McpSshTool.Ssh.TunnelPool

/-!
# Closing the tunnels of a session

`closeSessionTunnels` calls `closeTunnel` for each tunnel that a session has, one after another,
while other calls may close the same tunnels. A ledger follows the calls: what each of them lists
and has tried, and what has been reported as closed.

* `TunnelLedger` — the tunnels with their ledger; `TunnelLedger.step` — the steps of the pool,
  written down;
* `ClosesExactly` — every tunnel that a call lists is tried, what is closed is let go, and nothing
  is reported twice;
* `ClosesSafely` — the steps that keep to this;
* `closes_exactly_iff` — a run does so exactly if all its steps do.
-/

open Library

namespace Ssh

/-! ### The ledger -/

namespace TunnelPool

variable (s : TunnelPool)

/-- The tunnel is held. -/
def Keeps (tunnelId : String) : Prop := (s.tunnels.get? tunnelId).isSome = true

/-- The tunnel that a loop calls `closeTunnel` for, when it goes on. -/
def attempt? (n : ℕ) : Option String :=
  match s.closers.get? n with
  | some ⟨none, tunnelId :: _⟩ => some tunnelId
  | _ => none

/-- The tunnel whose handle a loop waits for. -/
def awaited? (n : ℕ) : Option String := (s.closers.get? n).bind TunnelCloser.current

/-- A close listener has listed the tunnels of its session. -/
def listing (i : ℕ) (sessionId : String) : TunnelPool :=
  { s with
    pool := { s.pool with notified := s.pool.notified.eraseIdx i }
    closers := s.closers.add ⟨none, s.listTunnels sessionId⟩ }

end TunnelPool

/-- A call of `closeSessionTunnels`. -/
structure SessionClose where
  listed : List String
  /-- The tunnels that `closeTunnel` has been called for. -/
  attempted : List String
deriving DecidableEq

/-- **The tunnels with a ledger.** -/
structure TunnelLedger where
  pool : TunnelPool
  /-- The calls of `closeSessionTunnels`, under the numbers of their loops. -/
  calls : OrderedMap ℕ SessionClose := .empty
  /-- What `closeTunnel` has reported and counted as closed, once for each time. -/
  closed : List String := []

namespace TunnelLedger

variable (s : TunnelLedger)

/-- A loop goes on. -/
def continueClosing (n : ℕ) : TunnelLedger :=
  { s with
    pool := s.pool.continueClosing n
    calls :=
      match s.pool.attempt? n with
      | some tunnelId =>
        s.calls.modify n fun call => { call with attempted := call.attempted ++ [tunnelId] }
      | none => s.calls }

/-- `closeSessionTunnels` is called. -/
def listenerCalled (i : ℕ) : TunnelLedger :=
  match s.pool.pool.notified[i]? with
  | none => s
  | some notified =>
    { s with
      pool := s.pool.listing i notified.2
      calls := s.calls.set s.pool.closers.next
        ⟨s.pool.listTunnels notified.2, []⟩ : TunnelLedger }.continueClosing s.pool.closers.next

/-- A handle has closed, and its tunnel is reported; or it has failed to. -/
def handleClosed (n : ℕ) (succeeds : Bool) : TunnelLedger :=
  { s with
    pool := s.pool.handleClosed n succeeds
    closed := s.closed ++ if succeeds then (s.pool.awaited? n).toList else [] }

/-- **One step**, written down. -/
def step {rt : Runtime} (engine : PolicyEngine rt) (ids : Identifiers) (s : TunnelLedger) :
    TunnelEvent → TunnelLedger
  | .listenerCalled i => s.listenerCalled i
  | .continueClosing n => s.continueClosing n
  | .handleClosed n succeeds => s.handleClosed n succeeds
  | e => { s with pool := s.pool.step engine ids e }

theorem pool_step {rt : Runtime} (engine : PolicyEngine rt) (ids : Identifiers) (e : TunnelEvent) :
    (s.step engine ids e).pool = s.pool.step engine ids e := by
  cases e with
  | listenerCalled i =>
    change (s.listenerCalled i).pool = s.pool.listenerCalled i
    unfold listenerCalled TunnelPool.listenerCalled
    cases s.pool.pool.notified[i]? with
    | none => rfl
    | some notified => rfl
  | _ => rfl

/-- **Closing is tolerant and exact**: a call of `closeSessionTunnels` that has ended has tried
every tunnel that it listed, what is closed is no longer held, and no tunnel has been reported
twice. -/
structure ClosesExactly : Prop where
  tries : ∀ n call, s.calls.get? n = some call → s.pool.closers.get? n = none →
    call.listed ⊆ call.attempted
  lets_go : ∀ tunnelId ∈ s.closed, ¬s.pool.Keeps tunnelId
  once : s.closed.Nodup

/-- **A step that closes safely**: a handle that fails has no tunnel behind it in its loop, and the
tunnel of one that closes is still held. -/
def ClosesSafely : TunnelEvent → Prop
  | .handleClosed n false =>
    ∀ tunnelId remaining, s.pool.closers.get? n = some ⟨some tunnelId, remaining⟩ → remaining = []
  | .handleClosed n true => ∀ tunnelId, s.pool.awaited? n = some tunnelId → s.pool.Keeps tunnelId
  | _ => True

end TunnelLedger

/-! ### The loops -/

/-- **The ledger of the loops**: what a call lists is what it has tried and what its loop has before
it. -/
structure LoopsWritten (closers : Slots TunnelCloser) (calls : OrderedMap ℕ SessionClose) :
    Prop where
  numbered : ∀ n call, calls.get? n = some call → n < closers.next
  single : ∀ n closer, closers.get? n = some closer → calls.get? n = none → closer.remaining = []
  ahead : ∀ n closer call, closers.get? n = some closer → calls.get? n = some call →
    call.listed = call.attempted ++ closer.remaining ∧ call.listed.Nodup
  ended : ∀ n call, calls.get? n = some call → closers.get? n = none → call.listed ⊆ call.attempted

namespace LoopsWritten

variable {closers : Slots TunnelCloser} {calls : OrderedMap ℕ SessionClose} {n : ℕ}
variable {current : Option String} {tunnelId : String} {remaining : List String}

/-- `closeTunnel` is called for one tunnel. -/
theorem add_single (h : LoopsWritten closers calls) (current : Option String) :
    LoopsWritten (closers.add ⟨current, []⟩) calls where
  numbered n call hcall := Nat.lt_succ_of_lt (h.numbered n call hcall)
  single n closer hn hcall := by
    rw [Slots.get?_add] at hn
    split at hn
    · obtain rfl := Option.some.inj hn
      rfl
    · exact h.single n closer hn hcall
  ahead n closer call hn hcall := by
    rw [Slots.get?_add, if_neg (Nat.ne_of_lt (h.numbered n call hcall))] at hn
    exact h.ahead n closer call hn hcall
  ended n call hcall hn := by
    rw [Slots.get?_add, if_neg (Nat.ne_of_lt (h.numbered n call hcall))] at hn
    exact h.ended n call hcall hn

/-- `closeSessionTunnels` lists its tunnels. -/
theorem add_call (h : LoopsWritten closers calls) {listed : List String} (hlisted : listed.Nodup) :
    LoopsWritten (closers.add ⟨none, listed⟩) (calls.set closers.next ⟨listed, []⟩) where
  numbered n call hcall := by
    rw [OrderedMap.get?_set] at hcall
    split at hcall
    · next heq => exact heq ▸ Nat.lt_succ_self _
    · exact Nat.lt_succ_of_lt (h.numbered n call hcall)
  single n closer hn hcall := by
    rw [OrderedMap.get?_set] at hcall
    split at hcall
    · cases hcall
    · next hne =>
      rw [Slots.get?_add, if_neg hne] at hn
      exact h.single n closer hn hcall
  ahead n closer call hn hcall := by
    rw [OrderedMap.get?_set] at hcall
    rw [Slots.get?_add] at hn
    split at hcall
    · next heq =>
      rw [if_pos heq] at hn
      obtain rfl := Option.some.inj hn
      obtain rfl := Option.some.inj hcall
      exact ⟨rfl, hlisted⟩
    · next hne =>
      rw [if_neg hne] at hn
      exact h.ahead n closer call hn hcall
  ended n call hcall hn := by
    rw [OrderedMap.get?_set] at hcall
    rw [Slots.get?_add] at hn
    split at hcall
    · next heq =>
      rw [if_pos heq] at hn
      cases hn
    · next hne =>
      rw [if_neg hne] at hn
      exact h.ended n call hcall hn

/-- A loop calls `closeTunnel` for its next tunnel. -/
theorem attempt (h : LoopsWritten closers calls)
    (hn : closers.get? n = some ⟨current, tunnelId :: remaining⟩)
    (current' : Option String) :
    LoopsWritten (closers.update n fun _ => ⟨current', remaining⟩)
      (calls.modify n fun call => { call with attempted := call.attempted ++ [tunnelId] }) where
  numbered k call hcall := by
    rw [OrderedMap.get?_modify] at hcall
    split at hcall
    · next heq =>
      obtain ⟨call', hcall', -⟩ := Option.map_eq_some_iff.mp hcall
      exact heq ▸ h.numbered n call' hcall'
    · exact h.numbered k call hcall
  single k closer hk hcall := by
    rw [OrderedMap.get?_modify] at hcall
    rw [Slots.get?_update] at hk
    split at hcall
    · exact absurd (h.single n _ hn (Option.map_eq_none_iff.mp hcall)) (List.cons_ne_nil _ _)
    · next hne =>
      rw [if_neg hne] at hk
      exact h.single k closer hk hcall
  ahead k closer call hk hcall := by
    rw [OrderedMap.get?_modify] at hcall
    rw [Slots.get?_update] at hk
    split at hcall
    · next heq =>
      obtain ⟨call', hcall', rfl⟩ := Option.map_eq_some_iff.mp hcall
      rw [if_pos heq, hn] at hk
      obtain rfl := Option.some.inj hk
      -- the tunnel goes from what remains to what was attempted
      obtain ⟨hlisted, hnodup⟩ := h.ahead n _ call' hn hcall'
      exact ⟨hlisted.trans (List.append_cons _ _ _), hnodup⟩
    · next hne =>
      rw [if_neg hne] at hk
      exact h.ahead k closer call hk hcall
  ended k call hcall hk := by
    rw [OrderedMap.get?_modify] at hcall
    rw [Slots.get?_update] at hk
    split at hcall
    · next heq =>
      -- the call has its loop still
      rw [if_pos heq, hn] at hk
      cases hk
    · next hne =>
      rw [if_neg hne] at hk
      exact h.ended k call hcall hk

/-- A loop has its handle closed. -/
theorem released (h : LoopsWritten closers calls) (hn : closers.get? n = some ⟨current, remaining⟩)
    (current' : Option String) :
    LoopsWritten (closers.update n fun _ => ⟨current', remaining⟩) calls where
  numbered := h.numbered
  single k closer hk hcall := by
    rw [Slots.get?_update] at hk
    split at hk
    · next heq =>
      rw [hn] at hk
      obtain rfl := Option.some.inj hk
      exact h.single n ⟨current, remaining⟩ hn (heq ▸ hcall)
    · exact h.single k closer hk hcall
  ahead k closer call hk hcall := by
    rw [Slots.get?_update] at hk
    split at hk
    · next heq =>
      rw [hn] at hk
      obtain rfl := Option.some.inj hk
      exact h.ahead n ⟨current, remaining⟩ call hn (heq ▸ hcall)
    · exact h.ahead k closer call hk hcall
  ended k call hcall hk := by
    rw [Slots.get?_update] at hk
    split at hk
    · rw [hn] at hk
      cases hk
    · exact h.ended k call hcall hk

theorem remove (h : LoopsWritten closers calls) (hn : closers.get? n = some ⟨current, []⟩) :
    LoopsWritten (closers.remove n) calls where
  numbered := h.numbered
  single k closer hk hcall := h.single k closer (Slots.get?_of_remove hk) hcall
  ahead k closer call hk hcall := h.ahead k closer call (Slots.get?_of_remove hk) hcall
  ended k call hcall hk := by
    by_cases heq : k = n
    · obtain ⟨hlisted, -⟩ := h.ahead n _ call hn (heq ▸ hcall)
      rw [hlisted, List.append_nil]
      exact List.Subset.refl _
    · rw [Slots.get?_remove, if_neg heq] at hk
      exact h.ended k call hcall hk

theorem remaining_eq_nil (h : LoopsWritten closers calls)
    (hn : closers.get? n = some ⟨current, remaining⟩)
    (htried : ∀ call, calls.get? n = some call → call.listed ⊆ call.attempted) :
      remaining = [] := by
  cases hcall : calls.get? n with
  | none => exact h.single n _ hn hcall
  | some call =>
    obtain ⟨hlisted, hnodup⟩ := h.ahead n _ call hn hcall
    rw [hlisted] at hnodup
    refine List.eq_nil_iff_forall_not_mem.mpr fun k hk => ?_
    have hmem : k ∈ call.attempted := htried call hcall (hlisted ▸ List.mem_append_right _ hk)
    exact List.disjoint_of_nodup_append hnodup hmem hk

end LoopsWritten

/-! ### The names -/

/-- The name of a tunnel. -/
def tunnelName (now number : ℕ) : String := "tunnel-" ++ toString now ++ "-" ++ toString number

/-- What follows the last separator is determined. -/
theorem eq_of_append_separator {c : Char} {as bs cs ds : List Char} (hbs : c ∉ bs) (hds : c ∉ ds)
    (h : as ++ c :: bs = cs ++ c :: ds) : bs = ds := by
  obtain ⟨more, rfl, hmore⟩ | ⟨more, rfl, hmore⟩ := List.append_eq_append_iff.mp h
  · cases more with
    | nil => exact (List.cons.inj hmore).2
    | cons =>
      refine absurd ?_ hbs
      rw [(List.cons.inj hmore).2]
      exact List.mem_append_right _ List.mem_cons_self
  · cases more with
    | nil => exact (List.cons.inj hmore).2.symm
    | cons =>
      refine absurd ?_ hds
      rw [(List.cons.inj hmore).2]
      exact List.mem_append_right _ List.mem_cons_self

/-- The number of a tunnel can be read off its name. -/
theorem number_of_tunnelName {now now' number number' : ℕ}
    (h : tunnelName now number = tunnelName now' number') : number = number' := by
  have hdigits : ∀ n : ℕ, '-' ∉ (toString n).toList := fun n hmem =>
    absurd (JsText.digits_of_nat n '-' hmem) (by decide)
  have hlist : ∀ now number : ℕ, (tunnelName now number).toList =
      ("tunnel-" ++ toString now).toList ++ '-' :: (toString number).toList := by
    intro now number
    rw [tunnelName, String.toList_append, String.toList_append, List.append_assoc]
    rfl
  have heq := congrArg String.toList h
  rw [hlist, hlist] at heq
  exact JsText.toString_nat_injective
    (String.toList_inj.mp (eq_of_append_separator (hdigits _) (hdigits _) heq))

/-- The names that calls have drawn and wait with. -/
def TunnelPool.drawnNames (s : TunnelPool) : List String := s.creating.values.map Creating.tunnelId

namespace TunnelPool

variable {s s' : TunnelPool}

theorem drawnNames_of_same (h : s'.creating = s.creating) : s'.drawnNames = s.drawnNames := by
  rw [drawnNames, h, drawnNames]

theorem drawnNames_perm {n : ℕ} {creating : Creating} (hn : s.creating.get? n = some creating)
    (h : s'.creating = s.creating.remove n) :
    (creating.tunnelId :: s'.drawnNames).Perm s.drawnNames := by
  rw [drawnNames, h]
  exact (Slots.values_remove_perm hn).map Creating.tunnelId

end TunnelPool

/-- **No name is used twice**: a name that a call waits with has not been held or closed, and what
has been closed is not held again. -/
structure NamesOnce (pool : TunnelPool) (closed : List String) : Prop where
  drawn : ∀ k, pool.Keeps k ∨ k ∈ closed ∨ k ∈ pool.drawnNames →
    ∃ now number, number ≤ pool.tunnelCounter ∧ k = tunnelName now number
  distinct : pool.drawnNames.Nodup
  unused : ∀ k ∈ pool.drawnNames, ¬pool.Keeps k ∧ k ∉ closed
  released : ∀ k ∈ closed, ¬pool.Keeps k

namespace NamesOnce

variable {pool pool' : TunnelPool} {closed : List String}

theorem of_same (h : NamesOnce pool closed) (hkeeps : ∀ k, pool'.Keeps k ↔ pool.Keeps k)
    (hcreating : pool'.creating = pool.creating) (hcounter : pool'.tunnelCounter =
      pool.tunnelCounter) :
    NamesOnce pool' closed := by
  have hnames := TunnelPool.drawnNames_of_same hcreating
  refine ⟨fun k hk => ?_, hnames ▸ h.distinct, fun k hk => ?_, fun k hk => ?_⟩
  · rw [hcounter]
    rw [hkeeps, hnames] at hk
    exact h.drawn k hk
  · rw [hkeeps]
    exact h.unused k (hnames ▸ hk)
  · rw [hkeeps]
    exact h.released k hk

/-- A name is drawn. -/
theorem draw (h : NamesOnce pool closed) (now : ℕ) {creating : Creating}
    (hname : creating.tunnelId = tunnelName now (pool.tunnelCounter + 1))
    (hkeeps : ∀ k, pool'.Keeps k ↔ pool.Keeps k) (hcreating : pool'.creating =
      pool.creating.add creating)
    (hcounter : pool'.tunnelCounter = pool.tunnelCounter + 1) : NamesOnce pool' closed := by
  have hnames : pool'.drawnNames = pool.drawnNames ++ [creating.tunnelId] := by
    rw [TunnelPool.drawnNames, hcreating, Slots.values_add, List.map_append, TunnelPool.drawnNames]
    rfl
  -- a name with the next number is none that has been drawn before
  have hnew : ¬(pool.Keeps creating.tunnelId ∨ creating.tunnelId ∈ closed ∨
      creating.tunnelId ∈ pool.drawnNames) := by
    intro hused
    obtain ⟨now', number, hle, heq⟩ := h.drawn _ hused
    have hnumber := number_of_tunnelName (hname.symm.trans heq)
    omega
  have hearlier : ∀ k, pool.Keeps k ∨ k ∈ closed ∨ k ∈ pool.drawnNames →
      ∃ now number, number ≤ pool.tunnelCounter + 1 ∧ k = tunnelName now number := by
    intro k hk
    obtain ⟨now', number, hle, heq⟩ := h.drawn k hk
    exact ⟨now', number, Nat.le_succ_of_le hle, heq⟩
  refine ⟨fun k hk => ?_, ?_, fun k hk => ?_, fun k hk => ?_⟩
  · rw [hcounter]
    rw [hkeeps, hnames, List.mem_append, List.mem_singleton] at hk
    obtain hk | hk | hk | rfl := hk
    · exact hearlier k (.inl hk)
    · exact hearlier k (.inr (.inl hk))
    · exact hearlier k (.inr (.inr hk))
    · exact ⟨now, _, Nat.le_refl _, hname⟩
  · rw [hnames, List.nodup_append]
    refine ⟨h.distinct, List.nodup_singleton _, fun k hk k' hk' heq => ?_⟩
    rw [List.mem_singleton] at hk'
    exact hnew (.inr (.inr (hk' ▸ heq ▸ hk)))
  · rw [hkeeps]
    rw [hnames, List.mem_append, List.mem_singleton] at hk
    obtain hk | rfl := hk
    · exact h.unused k hk
    · exact ⟨fun hk => hnew (.inl hk), fun hk => hnew (.inr (.inl hk))⟩
  · rw [hkeeps]
    exact h.released k hk

/-- A call that waits is given its tunnel. -/
theorem register (h : NamesOnce pool closed) {n : ℕ} {creating : Creating}
    (hn : pool.creating.get? n = some creating)
    (hkeeps : ∀ k, pool'.Keeps k ↔ k = creating.tunnelId ∨ pool.Keeps k)
    (hcreating : pool'.creating = pool.creating.remove n)
    (hcounter : pool'.tunnelCounter = pool.tunnelCounter) : NamesOnce pool' closed := by
  have hperm := TunnelPool.drawnNames_perm hn hcreating
  have hmem : creating.tunnelId ∈ pool.drawnNames := hperm.subset List.mem_cons_self
  obtain ⟨hother, hdistinct⟩ := List.nodup_cons.mp (hperm.nodup_iff.mpr h.distinct)
  refine ⟨fun k hk => ?_, hdistinct, fun k hk => ?_, fun k hk => ?_⟩
  · rw [hcounter]
    refine h.drawn k ?_
    rw [hkeeps] at hk
    obtain (rfl | hk) | hk | hk := hk
    · exact .inr (.inr hmem)
    · exact .inl hk
    · exact .inr (.inl hk)
    · exact .inr (.inr (hperm.subset (List.mem_cons_of_mem _ hk)))
  · obtain ⟨hkept, hclosed⟩ := h.unused k (hperm.subset (List.mem_cons_of_mem _ hk))
    refine ⟨fun hk' => ?_, hclosed⟩
    obtain rfl | hk' := (hkeeps k).mp hk'
    · exact hother hk
    · exact hkept hk'
  · intro hk'
    obtain rfl | hk' := (hkeeps k).mp hk'
    · exact (h.unused _ hmem).2 hk
    · exact h.released k hk hk'

/-- A call that waits ends without a tunnel. -/
theorem abandon (h : NamesOnce pool closed) {n : ℕ} {creating : Creating}
    (hn : pool.creating.get? n = some creating) (hkeeps : ∀ k, pool'.Keeps k ↔ pool.Keeps k)
    (hcreating : pool'.creating = pool.creating.remove n)
    (hcounter : pool'.tunnelCounter = pool.tunnelCounter) : NamesOnce pool' closed := by
  have hperm := TunnelPool.drawnNames_perm hn hcreating
  have hsublist : pool'.drawnNames ⊆ pool.drawnNames := fun k hk =>
    hperm.subset (List.mem_cons_of_mem _ hk)
  refine ⟨fun k hk => ?_, (List.nodup_cons.mp (hperm.nodup_iff.mpr h.distinct)).2, fun k hk => ?_,
    fun k hk => ?_⟩
  · rw [hcounter]
    rw [hkeeps] at hk
    exact h.drawn k (hk.imp_right (Or.imp_right fun hk => hsublist hk))
  · rw [hkeeps]
    exact h.unused k (hsublist hk)
  · rw [hkeeps]
    exact h.released k hk

/-- A tunnel is closed. -/
theorem close (h : NamesOnce pool closed) {tunnelId : String} (hheld : pool.Keeps tunnelId)
    (hkeeps : ∀ k, pool'.Keeps k ↔ k ≠ tunnelId ∧ pool.Keeps k)
    (hcreating : pool'.creating = pool.creating) (hcounter : pool'.tunnelCounter =
      pool.tunnelCounter) :
    NamesOnce pool' (closed ++ [tunnelId]) := by
  have hnames := TunnelPool.drawnNames_of_same hcreating
  refine ⟨fun k hk => ?_, hnames ▸ h.distinct, fun k hk => ?_, fun k hk hk' => ?_⟩
  · rw [hcounter]
    refine h.drawn k ?_
    rw [hkeeps, hnames, List.mem_append, List.mem_singleton] at hk
    obtain hk | (hk | rfl) | hk := hk
    · exact .inl hk.2
    · exact .inr (.inl hk)
    · exact .inl hheld
    · exact .inr (.inr hk)
  · rw [hnames] at hk
    obtain ⟨hkept, hclosed⟩ := h.unused k hk
    rw [hkeeps, List.mem_append, List.mem_singleton]
    refine ⟨fun hk' => hkept hk'.2, ?_⟩
    rintro (hk' | rfl)
    · exact hclosed hk'
    · exact hkept hheld
  · obtain ⟨hne, hk'⟩ := (hkeeps k).mp hk'
    rw [List.mem_append, List.mem_singleton] at hk
    exact hk.elim (fun hk => h.released k hk hk') hne

end NamesOnce

/-! ### One step -/

namespace TunnelPool

variable {s : TunnelPool} {tunnelId : String} {n : ℕ}

theorem keeps_deactivate (k : String) : (s.deactivate tunnelId).Keeps k ↔ s.Keeps k := by
  unfold Keeps deactivate
  rw [OrderedMap.get?_modify]
  split
  · next heq => rw [Option.isSome_map, heq]
  · rfl

/-- What a call of `createTunnel` does up to where it waits: at most, it draws a name. -/
theorem createTunnel_cases {rt : Runtime} (engine : PolicyEngine rt) (type : TunnelType)
    (config : TunnelConfig) (now : ℕ) :
    ((s.createTunnel engine type config now).tunnels = s.tunnels ∧
      (s.createTunnel engine type config now).closers = s.closers) ∧
    ((s.createTunnel engine type config now).creating = s.creating ∧
        (s.createTunnel engine type config now).tunnelCounter = s.tunnelCounter ∨
      ∃ creating : Creating, creating.tunnelId = tunnelName now (s.tunnelCounter + 1) ∧
        (s.createTunnel engine type config now).creating = s.creating.add creating ∧
        (s.createTunnel engine type config now).tunnelCounter = s.tunnelCounter + 1) := by
  unfold createTunnel
  dsimp only
  split
  · exact ⟨⟨rfl, rfl⟩, .inl ⟨rfl, rfl⟩⟩
  · split
    · exact ⟨⟨rfl, rfl⟩, .inl ⟨rfl, rfl⟩⟩
    · split
      · exact ⟨⟨rfl, rfl⟩, .inl ⟨rfl, rfl⟩⟩
      · exact ⟨⟨rfl, rfl⟩, .inr ⟨_, rfl, rfl, rfl⟩⟩

theorem awaited?_add {closer : TunnelCloser} {k : String}
    (h : ((s.closers.add closer).get? n).bind TunnelCloser.current = some k) :
    closer.current = some k ∨ s.awaited? n = some k := by
  rw [Slots.get?_add] at h
  split at h
  · exact .inl h
  · exact .inr h

theorem awaited?_update {closer : TunnelCloser} {m : ℕ} {k : String}
    (h : ((s.closers.update n fun _ => closer).get? m).bind TunnelCloser.current = some k) :
    closer.current = some k ∨ s.awaited? m = some k := by
  rw [Slots.get?_update] at h
  split at h
  · obtain ⟨closer', hcloser', hk⟩ := Option.bind_eq_some_iff.mp h
    obtain ⟨-, -, rfl⟩ := Option.map_eq_some_iff.mp hcloser'
    exact .inl hk
  · exact .inr h

theorem awaited?_remove {m : ℕ} {k : String}
    (h : ((s.closers.remove n).get? m).bind TunnelCloser.current = some k) :
      s.awaited? m = some k := by
  obtain ⟨closer, hcloser, hk⟩ := Option.bind_eq_some_iff.mp h
  exact Option.bind_eq_some_iff.mpr ⟨closer, Slots.get?_of_remove hcloser, hk⟩

end TunnelPool

namespace TunnelLedger

/-- **The ledger is sound**: the loops and the names are written down as they are, nothing is
reported twice, and what a loop waits for is held or has been closed. -/
structure Sound (s : TunnelLedger) : Prop where
  loops : LoopsWritten s.pool.closers s.calls
  names : NamesOnce s.pool s.closed
  once : s.closed.Nodup
  awaited : ∀ n k, s.pool.awaited? n = some k → s.pool.Keeps k ∨ k ∈ s.closed

variable {s : TunnelLedger} {pool' : TunnelPool} {n : ℕ} {tunnelId : String}

theorem Sound.closesExactly (h : s.Sound) : s.ClosesExactly :=
  ⟨h.loops.ended, h.names.released, h.once⟩

theorem Sound.of_closers (h : s.Sound) (hclosers : pool'.closers = s.pool.closers)
    (hnames : NamesOnce pool' s.closed) (hkeeps : ∀ k, s.pool.Keeps k → pool'.Keeps k) :
    Sound { s with pool := pool' } := by
  refine ⟨?_, hnames, h.once, fun n k hk => ?_⟩
  · dsimp only
    rw [hclosers]
    exact h.loops
  · dsimp only at hk ⊢
    rw [TunnelPool.awaited?, hclosers] at hk
    exact (h.awaited n k hk).imp_left (hkeeps k)

theorem Sound.createTunnel {rt : Runtime} {engine : PolicyEngine rt} {type : TunnelType}
    {config : TunnelConfig} {now : ℕ} (h : s.Sound) :
    Sound { s with pool := s.pool.createTunnel engine type config now } := by
  obtain ⟨⟨htunnels, hclosers⟩, hdraws⟩ := s.pool.createTunnel_cases engine type config now
  have hkeeps : ∀ k, (s.pool.createTunnel engine type config now).Keeps k ↔ s.pool.Keeps k := by
    intro k
    rw [TunnelPool.Keeps, htunnels, TunnelPool.Keeps]
  refine h.of_closers hclosers ?_ fun k => (hkeeps k).mpr
  obtain ⟨hcreating, hcounter⟩ | ⟨creating, hname, hcreating, hcounter⟩ := hdraws
  · exact h.names.of_same hkeeps hcreating hcounter
  · exact h.names.draw now hname hkeeps hcreating hcounter

theorem Sound.forwarded {port : Except Failure ℕ} {now : ℕ} (h : s.Sound) :
    Sound { s with pool := s.pool.forwarded n port now } := by
  cases hn : s.pool.creating.get? n with
  | none =>
    rw [TunnelPool.forwarded, hn]
    exact h
  | some creating =>
    cases port with
    | error =>
      rw [TunnelPool.forwarded, hn]
      exact h.of_closers rfl (h.names.abandon hn (fun _ => Iff.rfl) rfl rfl) fun _ => id
    | ok port =>
      have hkeeps : ∀ k, (s.pool.forwarded n (.ok port) now).Keeps k ↔
          k = creating.tunnelId ∨ s.pool.Keeps k := by
        intro k
        rw [TunnelPool.Keeps, TunnelPool.forwarded, hn]
        dsimp only
        rw [OrderedMap.get?_set]
        split
        · next heq => exact iff_of_true rfl (.inl heq)
        · next hne => exact (or_iff_right hne).symm
      refine h.of_closers ?_ (h.names.register hn hkeeps ?_ ?_) fun k hk => (hkeeps k).mpr (.inr hk)
      · rw [TunnelPool.forwarded, hn]
      · rw [TunnelPool.forwarded, hn]
      · rw [TunnelPool.forwarded, hn]

theorem Sound.closeTunnel (h : s.Sound) : Sound { s with pool := s.pool.closeTunnel tunnelId } := by
  unfold TunnelPool.closeTunnel
  split
  · exact h
  · next tunnel htunnel =>
    refine ⟨h.loops.add_single (some tunnelId),
      h.names.of_same (fun k => TunnelPool.keeps_deactivate k)
      rfl rfl, h.once, fun m k hk => ?_⟩
    show (s.pool.deactivate tunnelId).Keeps k ∨ k ∈ s.closed
    rw [TunnelPool.keeps_deactivate]
    obtain heq | hk := TunnelPool.awaited?_add hk
    · obtain rfl := Option.some.inj heq
      exact .inl (Option.isSome_of_eq_some htunnel)
    · exact h.awaited m k hk

theorem Sound.continueClosing (h : s.Sound) : (s.continueClosing n).Sound := by
  unfold TunnelLedger.continueClosing TunnelPool.continueClosing TunnelPool.attempt?
  cases hn : s.pool.closers.get? n with
  | none => exact h
  | some closer =>
    obtain ⟨current, remaining⟩ := closer
    cases current with
    | some => exact h
    | none =>
      cases remaining with
      | nil =>
        -- the loop ends
        exact ⟨h.loops.remove hn, h.names.of_same (fun _ => Iff.rfl) rfl rfl, h.once,
          fun m k hk => h.awaited m k (TunnelPool.awaited?_remove hk)⟩
      | cons k =>
        dsimp only
        split
        · -- the tunnel is none any more, and the loop goes on to the next
          refine ⟨h.loops.attempt hn none, h.names.of_same (fun _ => Iff.rfl) rfl rfl, h.once,
            fun m k' hk => h.awaited m k' ?_⟩
          exact (TunnelPool.awaited?_update hk).resolve_left nofun
        · next tunnel htunnel =>
          refine ⟨h.loops.attempt hn (some k),
            h.names.of_same (fun k' => TunnelPool.keeps_deactivate k') rfl rfl, h.once,
              fun m k' hk => ?_⟩
          show (s.pool.deactivate k).Keeps k' ∨ k' ∈ s.closed
          rw [TunnelPool.keeps_deactivate]
          obtain heq | hk := TunnelPool.awaited?_update hk
          · obtain rfl := Option.some.inj heq
            exact .inl (Option.isSome_of_eq_some htunnel)
          · exact h.awaited m k' hk

theorem Sound.listenerCalled {i : ℕ} (h : s.Sound) : (s.listenerCalled i).Sound := by
  unfold TunnelLedger.listenerCalled
  split
  · exact h
  · next notified hi =>
    have hlisted : (s.pool.listTunnels notified.2).Nodup := OrderedMap.nodup _
    refine Sound.continueClosing ⟨h.loops.add_call hlisted,
      h.names.of_same (fun _ => Iff.rfl) rfl rfl,
      h.once, fun m k hk => ?_⟩
    exact h.awaited m k ((TunnelPool.awaited?_add hk).resolve_left nofun)

theorem keeps_handleClosed {remaining : List String}
    (hn : s.pool.closers.get? n = some ⟨some tunnelId, remaining⟩) (k : String) :
    (s.pool.handleClosed n true).Keeps k ↔ k ≠ tunnelId ∧ s.pool.Keeps k := by
  rw [TunnelPool.Keeps, TunnelPool.handleClosed, hn]
  dsimp only
  rw [if_pos rfl, OrderedMap.get?_delete]
  split
  · next heq => exact iff_of_false nofun fun h => h.1 heq
  · next hne => exact (and_iff_right hne).symm

/-- A handle closes whose tunnel is held. -/
theorem Sound.handleClosed_true {remaining : List String} (h : s.Sound)
    (hn : s.pool.closers.get? n = some ⟨some tunnelId, remaining⟩) (hheld : s.pool.Keeps tunnelId) :
    (s.handleClosed n true).Sound := by
  have hkeeps := keeps_handleClosed hn
  have hclosed : (s.handleClosed n true).closed = s.closed ++ [tunnelId] := by
    rw [handleClosed, TunnelPool.awaited?, hn]
    rfl
  have hclosers : (s.handleClosed n true).pool.closers =
      s.pool.closers.update n fun _ => ⟨none, remaining⟩ := by
    rw [handleClosed, TunnelPool.handleClosed, hn]
    rfl
  refine ⟨?_, ?_, ?_, fun m k hk => ?_⟩
  · rw [hclosers]
    exact h.loops.released hn none
  · rw [hclosed]
    refine h.names.close hheld hkeeps ?_ ?_
    · rw [handleClosed, TunnelPool.handleClosed, hn]
      rfl
    · rw [handleClosed, TunnelPool.handleClosed, hn]
      rfl
  · rw [hclosed, List.nodup_append]
    refine ⟨h.once, List.nodup_singleton _, fun k hk k' hk' heq => ?_⟩
    rw [List.mem_singleton] at hk'
    exact h.names.released k hk (heq ▸ hk' ▸ hheld)
  · rw [TunnelPool.awaited?, hclosers] at hk
    rw [hclosed, List.mem_append, List.mem_singleton]
    obtain hheld' | hclosed' := h.awaited m k ((TunnelPool.awaited?_update hk).resolve_left nofun)
    · by_cases heq : k = tunnelId
      · exact .inr (.inr heq)
      · exact .inl ((hkeeps k).mpr ⟨heq, hheld'⟩)
    · exact .inr (.inl hclosed')

theorem Sound.handleClosed_false (h : s.Sound)
    (hn : s.pool.closers.get? n = some ⟨some tunnelId, []⟩) : (s.handleClosed n false).Sound := by
  unfold TunnelLedger.handleClosed TunnelPool.handleClosed
  rw [hn]
  dsimp only
  rw [if_neg Bool.false_ne_true, if_neg Bool.false_ne_true, List.append_nil]
  exact ⟨h.loops.remove hn, h.names.of_same (fun _ => Iff.rfl) rfl rfl, h.once,
    fun m k hk => h.awaited m k (TunnelPool.awaited?_remove hk)⟩

/-- An answer that no loop waits for. -/
theorem handleClosed_of_idle {succeeds : Bool} (hidle : s.pool.awaited? n = none) :
    s.handleClosed n succeeds = s := by
  have hpool : s.pool.handleClosed n succeeds = s.pool := by
    unfold TunnelPool.handleClosed
    split
    · next hn =>
      rw [TunnelPool.awaited?, hn] at hidle
      cases hidle
    · rfl
  have hnone : (if succeeds then (none : Option String).toList else []) = [] := by
    cases succeeds with
    | true => rfl
    | false => rfl
  rw [handleClosed, hpool, hidle, hnone, List.append_nil]

theorem get?_of_awaited {k : String} (h : s.pool.awaited? n = some k) :
    ∃ remaining, s.pool.closers.get? n = some ⟨some k, remaining⟩ := by
  obtain ⟨⟨current, remaining⟩, hn, rfl⟩ := Option.bind_eq_some_iff.mp h
  exact ⟨remaining, hn⟩

theorem Sound.handleClosed {succeeds : Bool} (h : s.Sound)
    (hsafe : s.ClosesSafely (.handleClosed n succeeds)) : (s.handleClosed n succeeds).Sound := by
  cases hawaited : s.pool.awaited? n with
  | none =>
    rw [handleClosed_of_idle hawaited]
    exact h
  | some k =>
    obtain ⟨remaining, hn⟩ := get?_of_awaited hawaited
    cases succeeds with
    | true => exact h.handleClosed_true hn (hsafe k hawaited)
    | false =>
      obtain rfl := hsafe k remaining hn
      exact h.handleClosed_false hn

section Runs

variable {rt : Runtime} {engine : PolicyEngine rt} {ids : Identifiers} {e : TunnelEvent}

/-- **A step that closes safely keeps the ledger sound.** -/
theorem Sound.step (h : s.Sound) (hsafe : s.ClosesSafely e) : (s.step engine ids e).Sound := by
  cases e with
  | sessions => exact h.of_closers rfl (h.names.of_same (fun _ => Iff.rfl) rfl rfl) fun _ => id
  | listenerCalled => exact h.listenerCalled
  | createTunnel => exact h.createTunnel
  | forwarded => exact h.forwarded
  | closeTunnel => exact h.closeTunnel
  | continueClosing => exact h.continueClosing
  | handleClosed => exact h.handleClosed hsafe

/-- **Only such steps do**: a handle that fails with tunnels behind it leaves them untried, and a
tunnel that is no longer held has been reported before. -/
theorem Sound.closesSafely (h : s.Sound) (hexact : (s.step engine ids e).ClosesExactly) :
    s.ClosesSafely e := by
  cases e with
  | handleClosed n succeeds =>
    cases succeeds with
    | true =>
      intro k hk
      refine (h.awaited n k hk).resolve_right fun hclosed => ?_
      have honce : (s.closed ++ (s.pool.awaited? n).toList).Nodup := hexact.once
      rw [hk] at honce
      exact List.disjoint_of_nodup_append honce hclosed (List.mem_singleton_self k)
    | false =>
      intro k remaining hn
      have hgone : (s.handleClosed n false).pool.closers = s.pool.closers.remove n := by
        rw [TunnelLedger.handleClosed, TunnelPool.handleClosed, hn]
        rfl
      refine h.loops.remaining_eq_nil hn fun call hcall => hexact.tries n call hcall ?_
      change (s.handleClosed n false).pool.closers.get? n = none
      rw [hgone, Slots.get?_remove, if_pos rfl]
  | _ => trivial

end Runs

/-! ### Every run -/

/-- No tunnels, no sessions, and nothing written down. -/
def fresh (manager : SessionManager) : TunnelLedger := { pool := .fresh manager }

theorem fresh_sound (manager : SessionManager) : (fresh manager).Sound where
  loops := by
    refine ⟨fun n call h => ?_, fun n closer h => ?_, fun n closer call h => ?_, fun n call h => ?_⟩
    all_goals cases h
  names := by
    refine ⟨?_, List.nodup_nil, fun _ h => absurd h List.not_mem_nil, fun _ h =>
      absurd h List.not_mem_nil⟩
    rintro k (h | h | h)
    · cases h
    · exact absurd h List.not_mem_nil
    · exact absurd h List.not_mem_nil
  once := List.nodup_nil
  awaited := fun _ _ h => nomatch h

/-- **Closing is tolerant and exact all along a run** exactly if every step closes safely. -/
theorem closes_exactly_iff {rt : Runtime} (engine : PolicyEngine rt) (ids : Identifiers)
    (manager : SessionManager) (es : List TunnelEvent) :
    Run.Along (step engine ids) ClosesExactly (fresh manager) es ↔
      Run.AllSteps (step engine ids) ClosesSafely (fresh manager) es :=
  Run.along_iff_allSteps_of_invariant (fun _ h => h.closesExactly) (fun _ _ h hsafe => h.step hsafe)
    (fun _ _ h hexact => h.closesSafely hexact) (fresh_sound manager)

/-! ### Samples -/

/-- A forward of another local port for the session of the samples. -/
def otherForward : TunnelConfig := { sessionId := "x", localPort := 8081 }

/-- The events that open a session and two forwards for it. -/
def sampleEvents : List TunnelEvent :=
  [.sessions (.openSession SessionPool.sampleLogin 0 0), .sessions (.connected 0 (.ok true)),
    .createTunnel .local TunnelPool.sampleForward 1, .forwarded 0 (.ok 8080) 2,
    .createTunnel .local otherForward 3, .forwarded 1 (.ok 8081) 4]

/-- The session has two forwards. -/
def sampleForwards : TunnelPool :=
  let one := TunnelPool.sampleCreating.forwarded 0 (.ok 8080) 2
  { one with
    pool := (one.pool.getSession 3 "x").2
    tunnelCounter := 2
    creating := one.creating.add
      ⟨.local, otherForward, "tunnel-3-2"⟩ }.forwarded 1 (.ok 8081) 4

/-- The first handle fails when the session is closed. -/
def sampleFailed : TunnelLedger :=
  (({ pool := { sampleForwards with
        pool := sampleForwards.pool.closeSession .sessionTool "x" } } : TunnelLedger).listenerCalled
    0).handleClosed 0 false

theorem run_sampleEvents {rt : Runtime} {engine : PolicyEngine rt}
    (hproceeds : ∀ m : SessionManager, m.Proceeds engine SessionPool.sampleLogin)
    (hforwards : ∀ port, engine.assertAllowed
      ({ TunnelPool.sampleForward with localPort := port }.context .local .enforce) =
        .ok { allowed := true, mode := .enforce, action := .tunnelLocal }) :
    Run.run (step engine SessionPool.sampleIdentifiers) (fresh { maxSessions := 1 }) sampleEvents =
      { pool := sampleForwards } := by
  have hcreating := TunnelPool.run_sampleCreating hproceeds (hforwards 8080)
  let one := TunnelPool.sampleCreating.forwarded 0 (.ok 8080) 2
  have hsecond : one.createTunnel engine .local otherForward 3 =
      { one with
        pool := (one.pool.getSession 3 "x").2
        tunnelCounter := 2
        creating := one.creating.add
          ⟨.local, otherForward, "tunnel-3-2"⟩ } := by
    have hallowed : engine.assertAllowed (otherForward.context .local .enforce) =
        .ok { allowed := true, mode := .enforce, action := .tunnelLocal } := hforwards 8081
    have hfound : (one.pool.getSession 3 otherForward.sessionId).1 =
        some ⟨⟨"host", "demo", 22, 0, 900000, 3, .enforce, .strict⟩, true⟩ := by decide +kernel
    unfold TunnelPool.createTunnel
    dsimp only
    rw [hfound]
    dsimp only
    rw [hallowed]
    have hname : "tunnel-" ++ toString 3 ++ "-" ++ toString (one.tunnelCounter + 1) =
      "tunnel-3-2" := by
      decide +kernel
    dsimp only
    rw [if_neg (by decide), hname]
    rfl
  have hrun : Run.run (step engine SessionPool.sampleIdentifiers) (fresh { maxSessions := 1 })
      sampleEvents = { pool := (((Run.run (TunnelPool.step engine SessionPool.sampleIdentifiers)
        (TunnelPool.fresh { maxSessions := 1 })
        [.sessions (.openSession SessionPool.sampleLogin 0 0), .sessions (.connected 0 (.ok true)),
          .createTunnel .local TunnelPool.sampleForward 1]).forwarded 0 (.ok 8080)
            2).createTunnel engine
        .local otherForward 3).forwarded 1 (.ok 8081) 4 } := rfl
  rw [hrun, hcreating, hsecond]
  rfl

/-- **A handle that fails leaves the next tunnel open**: it is never tried, although the session is
gone. -/
theorem failing_handle_skips_tunnels :
    ∃ engine : PolicyEngine sampleRuntime, engine.config = {} ∧
      ¬Run.Along (step engine SessionPool.sampleIdentifiers) ClosesExactly
        (fresh { maxSessions := 1 })
        (sampleEvents ++ [.sessions (.closeSession "x"), .listenerCalled 0,
          .handleClosed 0 false]) := by
  obtain ⟨engine, hengine, hproceeds, hforwards⟩ := TunnelPool.exists_forwards sampleRuntime
  refine ⟨engine, hengine, fun h => ?_⟩
  have hend := Run.along_iff_prefix.mp h _ List.prefix_rfl
  rw [Run.run_append, run_sampleEvents hproceeds hforwards] at hend
  have hexact : sampleFailed.ClosesExactly := hend
  have htried := hexact.tries 0 ⟨["tunnel-1-1", "tunnel-3-2"], ["tunnel-1-1"]⟩ (by decide +kernel)
    (Option.isNone_iff_eq_none.mp (by decide +kernel))
  exact absurd (htried (List.mem_cons_of_mem _ (List.mem_singleton_self _))) (by decide)

end TunnelLedger

end Ssh
