import Mathlib.Order.Lattice
import McpSshTool.Library.OrderedMap

/-!
# Maps whose entries expire

A replay cache: each key is kept with the time it expires at, expired entries are dropped when the
map is used, and an upper bound on the size drops the oldest ones.

* `prune` — drop what has expired; an entry whose time has come is dropped (`expiresAt ≤ now`);
* `get?_prune_eq_some` — what survives, and why;
* `remember` — prune, write, and keep the size within bounds. A key that was written before survives
  while the map is not full (`get?_remember_of_size_lt`);
* `Retains` — the map against the log of what was remembered: an entry that has not expired is in
  the map as long as fewer than `max` were remembered after it.
-/

namespace Library

/-- Keys with the time they expire at. -/
abbrev ExpiringMap (κ τ : Type) := OrderedMap κ τ

namespace ExpiringMap

variable {κ τ : Type} [DecidableEq κ] [LinearOrder τ]

omit [DecidableEq κ] in
/-- Drop the entries that have expired. -/
def prune (m : ExpiringMap κ τ) (now : τ) : ExpiringMap κ τ :=
  m.filter fun _ expiresAt => !decide (expiresAt ≤ now)

theorem get?_prune (m : ExpiringMap κ τ) (now : τ) (k : κ) :
    (prune m now).get? k = (m.get? k).filter fun expiresAt => !decide (expiresAt ≤ now) :=
  OrderedMap.get?_filter m _ k

theorem get?_prune_eq_some {m : ExpiringMap κ τ} {now : τ} {k : κ} {t : τ} :
    (prune m now).get? k = some t ↔ m.get? k = some t ∧ now < t := by
  rw [get?_prune, Option.filter_eq_some_iff]
  simp

/-- Prune, write a key, and drop the oldest entries beyond `max`. -/
def remember (m : ExpiringMap κ τ) (now : τ) (k : κ) (expiresAt : τ) (max : ℕ) (stop : κ → Bool) :
    ExpiringMap κ τ :=
  ((prune m now).set k expiresAt).evict max stop

theorem remember_of_size_lt {m : ExpiringMap κ τ} {now : τ} {max : ℕ} {stop : κ → Bool}
    (h : (prune m now).size < max) (k : κ) (t : τ) :
    remember m now k t max stop = (prune m now).set k t := by
  refine OrderedMap.evict_of_size_le ?_
  have := OrderedMap.size_set_le (prune m now) k t
  omega

theorem get?_remember_of_size_lt {m : ExpiringMap κ τ} {now : τ} {max : ℕ} {stop : κ → Bool}
    (h : (prune m now).size < max) (k k' : κ) (t : τ) :
    (remember m now k t max stop).get? k' = if k' = k then some t else (prune m now).get? k' := by
  rw [remember_of_size_lt h, OrderedMap.get?_set]

/-! ### What a bounded map retains -/

/-- **The map retains a log** at a time: an entry that has not expired, and after which fewer than
`max` were logged, is in the map, with no more entries after it than the log has. -/
def Retains (m : ExpiringMap κ τ) (log : List (κ × τ)) (now : τ) (max : ℕ) : Prop :=
  ∀ earlier e later, log = earlier ++ e :: later → later.length < max →
    e.2 ≤ now ∨ ∃ before rest, m.entries = before ++ e :: rest ∧ rest.length ≤ later.length

namespace Retains

variable {m : ExpiringMap κ τ} {log : List (κ × τ)} {now now' : τ} {max : ℕ}

omit [DecidableEq κ] in
theorem later (h : Retains m log now max) (hnow : now ≤ now') : Retains m log now' max :=
  fun earlier e later hlog hmax => (h earlier e later hlog hmax).imp_left fun he => le_trans he hnow

theorem get? (h : Retains m log now max) {earlier later : List (κ × τ)} {e : κ × τ}
    (hlog : log = earlier ++ e :: later) (hmax : later.length < max) (hnow : now < e.2) :
    m.get? e.1 = some e.2 := by
  rcases h earlier e later hlog hmax with hle | ⟨before, rest, hentries, -⟩
  · exact absurd hnow (not_lt.mpr hle)
  · rw [← OrderedMap.mem_entries_iff, hentries]
    exact List.mem_append_right _ List.mem_cons_self

omit [DecidableEq κ] in
theorem prune (h : Retains m log now max) (hnow : now ≤ now') :
    Retains (prune m now') log now' max := by
  intro earlier e later hlog hmax
  rcases le_or_gt e.2 now' with hle | hlt
  · exact .inl hle
  · rcases h earlier e later hlog hmax with hle | ⟨before, rest, hentries, hrest⟩
    · exact .inl (le_trans hle hnow)
    · have hpruned : (ExpiringMap.prune m now').entries =
          before.filter (fun e => !decide (e.2 ≤ now')) ++
            e :: rest.filter (fun e => !decide (e.2 ≤ now')) := by
        show m.entries.filter _ = _
        rw [hentries, List.filter_append, List.filter_cons_of_pos]
        simpa using hlt
      exact .inr ⟨_, _, hpruned, Nat.le_trans (List.length_filter_le _ _) hrest⟩

/-- A map that has just begun. -/
theorem single (k : κ) (t : τ) (stop : κ → Bool) (hmax : 0 < max) :
    Retains (remember .empty now k t max stop) [(k, t)] now max := by
  have hempty : ExpiringMap.prune (.empty : ExpiringMap κ τ) now = .empty := rfl
  have hentries : (remember .empty now k t max stop).entries = [(k, t)] := by
    rw [remember_of_size_lt (by rw [hempty]; exact hmax), hempty]
    rfl
  intro earlier e later hlog _
  cases earlier with
  | nil =>
    obtain ⟨rfl, rfl⟩ := List.cons.inj hlog
    exact .inr ⟨[], [], hentries, Nat.le_refl _⟩
  | cons =>
    have hlength := congrArg List.length hlog
    simp at hlength

/-- **Remembering a key** that the map does not know. -/
theorem remember (h : Retains m log now max) {k : κ}
    (hk : (ExpiringMap.prune m now).get? k = none) (t : τ) (stop : κ → Bool) :
    Retains (remember m now k t max stop) (log ++ [(k, t)]) now max := by
  have hpruned := h.prune (le_refl now)
  have hset : ((ExpiringMap.prune m now).set k t).entries =
      (ExpiringMap.prune m now).entries ++ [(k, t)] := OrderedMap.entries_set_of_none hk t
  -- an entry with fewer than `max` after it outlives the eviction, with all that comes after it
  have hevict : ∀ (before rest : List (κ × τ)) (e : κ × τ),
      (ExpiringMap.prune m now).entries ++ [(k, t)] = before ++ e :: rest → rest.length < max →
        ∃ before', (ExpiringMap.remember m now k t max stop).entries = before' ++ e :: rest := by
    intro before rest e hentries hmax
    show ∃ before', OrderedMap.evictList max stop _ = _
    rw [hset, hentries]
    exact OrderedMap.evictList_of_later hmax
  intro earlier e later hlog hmax
  rcases List.eq_nil_or_concat later with rfl | ⟨later, last, rfl⟩
  · -- the new entry
    obtain ⟨-, he⟩ := List.append_inj' hlog rfl
    obtain rfl := (List.cons.inj he).1
    obtain ⟨before', hbefore⟩ := hevict (ExpiringMap.prune m now).entries [] (k, t) rfl hmax
    exact .inr ⟨before', [], hbefore, Nat.le_refl _⟩
  · rw [List.concat_eq_append, ← List.cons_append, ← List.append_assoc] at hlog
    rw [List.concat_eq_append, List.length_append, List.length_singleton] at hmax
    obtain ⟨hsplit, hlast⟩ := List.append_inj' hlog rfl
    obtain rfl := (List.cons.inj hlast).1
    rcases hpruned earlier e later hsplit (by omega) with hle | ⟨before, rest, hentries, hrest⟩
    · exact .inl hle
    · have hrest' : (rest ++ [(k, t)]).length < max := by
        rw [List.length_append, List.length_singleton]
        omega
      obtain ⟨before', hbefore⟩ := hevict before (rest ++ [(k, t)]) e
        (by rw [hentries, List.append_assoc, List.cons_append]) hrest'
      refine .inr ⟨before', rest ++ [(k, t)], hbefore, ?_⟩
      rw [List.concat_eq_append, List.length_append, List.length_append]
      exact Nat.add_le_add_right hrest _

end Retains

end ExpiringMap
end Library
