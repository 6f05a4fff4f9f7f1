import Mathlib.Data.List.Basic

/-!
# Logs that tell a state

A machine writes a log next to the state it keeps, and a part of that state can be told from the
log: each entry says what becomes of it. Writing the state and writing the log are two operations,
so the two can disagree; the rules here are for showing that they do not.

* `EventLog` — the log, the part of the state, and what an entry says;
* `Accounts` — the entries that an operation adds, all of one kind, tell what it has done. This
  composes (`Accounts.trans`), so an operation is accounted for by way of its parts;
* `Tells` — the log tells the state, from what there was before the log began;
* `tells_iff` — which operations keep it.
-/

namespace Library

/-- **A log** that a machine appends to, a part of its state, and what an entry makes of that
part. -/
structure EventLog (σ ε α : Type) where
  log : σ → List ε
  view : σ → α
  apply : α → ε → α

namespace EventLog

variable {σ ε α : Type} (L : EventLog σ ε α)

/-- What a list of entries makes of a state. -/
def replay (a : α) (entries : List ε) : α := entries.foldl L.apply a

theorem replay_append (a : α) (entries entries' : List ε) :
    L.replay a (entries ++ entries') = L.replay (L.replay a entries) entries' :=
  List.foldl_append

theorem replay_of_fixed {entries : List ε} {a : α} (h : ∀ e ∈ entries, L.apply a e = a) :
    L.replay a entries = a := by
  induction entries with
  | nil => rfl
  | cons e entries ih =>
    rw [List.forall_mem_cons] at h
    show L.replay (L.apply a e) entries = a
    rw [h.1]
    exact ih h.2

/-! ### Operations -/

/-- **An operation is accounted for**: the entries it adds meet `p`, and tell what it has done. -/
def Accounts (p : ε → Prop) (s s' : σ) : Prop :=
  ∃ new, L.log s' = L.log s ++ new ∧ (∀ e ∈ new, p e) ∧ L.view s' = L.replay (L.view s) new

variable {L} {p : ε → Prop} {s s' s'' : σ}

theorem Accounts.of_eq (hlog : L.log s' = L.log s) (hview : L.view s' = L.view s) :
    L.Accounts p s s' :=
  ⟨[], by rw [hlog, List.append_nil], fun _ h => absurd h List.not_mem_nil, hview⟩

theorem Accounts.trans (h : L.Accounts p s s') (h' : L.Accounts p s' s'') : L.Accounts p s s'' := by
  obtain ⟨new, hlog, hnew, hview⟩ := h
  obtain ⟨new', hlog', hnew', hview'⟩ := h'
  refine ⟨new ++ new', ?_, ?_, ?_⟩
  · rw [hlog', hlog, List.append_assoc]
  · intro e he
    exact (List.mem_append.mp he).elim (hnew e) (hnew' e)
  · rw [replay_append, ← hview, hview']

theorem Accounts.single {e : ε} (hlog : L.log s' = L.log s ++ [e]) (he : p e)
    (hview : L.view s' = L.apply (L.view s) e) : L.Accounts p s s' :=
  ⟨[e], hlog, fun _ h => List.mem_singleton.mp h ▸ he, hview⟩

/-- **An entry that comes late**: the state is written, an operation of another kind runs, and then
the entry is added. It has to say what was written whatever the other entries say. -/
theorem Accounts.late {s₀ s₁ s₂ s₃ : σ} {e : ε} (hwritten : L.log s₁ = L.log s₀)
    (h : L.Accounts p s₁ s₂) (hlog : L.log s₃ = L.log s₂ ++ [e])
    (hview : ∀ new, (∀ e ∈ new, p e) → L.view s₂ = L.replay (L.view s₁) new →
      L.view s₃ = L.apply (L.replay (L.view s₀) new) e) : L.Accounts (fun _ => True) s₀ s₃ := by
  obtain ⟨new, hbetween, hnew, hview₂⟩ := h
  refine ⟨new ++ [e], ?_, fun _ _ => trivial, ?_⟩
  · calc L.log s₃ = L.log s₁ ++ new ++ [e] := by rw [hlog, hbetween]
      _ = L.log s₀ ++ (new ++ [e]) := by rw [hwritten, List.append_assoc]
  · rw [replay_append]
    exact hview new hnew hview₂

theorem Accounts.mono {q : ε → Prop} (hpq : ∀ e, p e → q e) (h : L.Accounts p s s') :
    L.Accounts q s s' := by
  obtain ⟨new, hlog, hnew, hview⟩ := h
  exact ⟨new, hlog, fun e he => hpq e (hnew e he), hview⟩

/-! ### Logs that tell the state -/

/-- **The log tells the state**, from what there was before it began. -/
def Tells (L : EventLog σ ε α) (a : α) (s : σ) : Prop := L.view s = L.replay a (L.log s)

/-- **Which operations keep it**: those that do what the entries they add say. -/
theorem tells_iff {a : α} {new : List ε} (h : L.Tells a s) (hlog : L.log s' = L.log s ++ new) :
    L.Tells a s' ↔ L.view s' = L.replay (L.view s) new := by
  unfold Tells at h ⊢
  rw [hlog, replay_append, ← h]

theorem Tells.next {a : α} (h : L.Tells a s) (haccounts : L.Accounts p s s') : L.Tells a s' := by
  obtain ⟨new, hlog, -, hview⟩ := haccounts
  exact (tells_iff h hlog).mpr hview

end EventLog
end Library
