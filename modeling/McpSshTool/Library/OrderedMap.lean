import Mathlib.Data.List.Nodup
import Mathlib.Data.List.Perm.Subperm

/-!
# Insertion-ordered maps

A finite map that remembers the order in which its keys were first inserted: writing an existing
key keeps its place, a new key goes to the end, and deleting a key forgets its place. This is the
iteration order a `Map` has in JavaScript. `AList` does not fit: its `insert` moves the key to the
front, and bounded caches that drop their oldest entry depend on the order.

* `get?`, `set`, `delete`, `filter` — the map operations, each with its lookup lemma;
* `evict` — the loop that drops oldest entries while the map is larger than a bound.
-/

namespace Library

/-- A finite map whose entries are listed in the order of first insertion. -/
structure OrderedMap (κ ν : Type) where
  entries : List (κ × ν)
  /-- No key is listed twice. -/
  nodup : (entries.map Prod.fst).Nodup

namespace OrderedMap

variable {κ ν : Type} [DecidableEq κ]

omit [DecidableEq κ] in
@[ext] theorem ext {m m' : OrderedMap κ ν} (h : m.entries = m'.entries) : m = m' := by
  cases m; cases m'; cases h; rfl

/-- The map without entries. -/
def empty : OrderedMap κ ν := ⟨[], List.nodup_nil⟩

omit [DecidableEq κ] in
@[simp] theorem entries_empty : (empty : OrderedMap κ ν).entries = [] := rfl

/-- The value found under a key in a list of entries. -/
def find? (l : List (κ × ν)) (k : κ) : Option ν :=
  match l with
  | [] => none
  | e :: l => if e.1 = k then some e.2 else find? l k

/-- The value stored under a key. -/
def get? (m : OrderedMap κ ν) (k : κ) : Option ν := find? m.entries k

/-- Whether a key is present. -/
def contains (m : OrderedMap κ ν) (k : κ) : Bool := (m.get? k).isSome

omit [DecidableEq κ] in
/-- The number of entries. -/
def size (m : OrderedMap κ ν) : ℕ := m.entries.length

/-! ### Lookups in a list of entries -/

@[simp] theorem find?_nil (k : κ) : find? ([] : List (κ × ν)) k = none := rfl

theorem find?_cons (e : κ × ν) (l : List (κ × ν)) (k : κ) :
    find? (e :: l) k = if e.1 = k then some e.2 else find? l k := rfl

theorem find?_eq_none {l : List (κ × ν)} {k : κ} :
    find? l k = none ↔ k ∉ l.map Prod.fst := by
  induction l with
  | nil => simp
  | cons e l ih =>
    by_cases h : e.1 = k
    · simp [find?_cons, h]
    · simp [find?_cons, h, ih, Ne.symm h]

theorem mem_of_find?_eq_some {l : List (κ × ν)} {k : κ} {v : ν} (h : find? l k = some v) :
    (k, v) ∈ l := by
  induction l with
  | nil => simp at h
  | cons e l ih =>
    by_cases hk : e.1 = k
    · rw [find?_cons, if_pos hk] at h
      obtain rfl := Option.some.inj h
      subst hk
      exact List.mem_cons_self
    · rw [find?_cons, if_neg hk] at h
      exact List.mem_cons_of_mem _ (ih h)

theorem find?_eq_some_of_mem {l : List (κ × ν)} (hl : (l.map Prod.fst).Nodup) {k : κ} {v : ν}
    (h : (k, v) ∈ l) : find? l k = some v := by
  induction l with
  | nil => simp at h
  | cons e l ih =>
    rw [List.map_cons, List.nodup_cons] at hl
    rcases List.mem_cons.mp h with rfl | h
    · simp [find?_cons]
    · have hne : e.1 ≠ k := fun hk => hl.1 (hk ▸ List.mem_map_of_mem h)
      rw [find?_cons, if_neg hne]
      exact ih hl.2 h

theorem find?_perm {l l' : List (κ × ν)} (hl : (l.map Prod.fst).Nodup) (h : l.Perm l') (k : κ) :
    find? l k = find? l' k := by
  have hl' : (l'.map Prod.fst).Nodup := (h.map Prod.fst).nodup_iff.mp hl
  refine Option.ext fun v => ⟨fun hv => ?_, fun hv => ?_⟩
  · exact find?_eq_some_of_mem hl' (h.mem_iff.mp (mem_of_find?_eq_some hv))
  · exact find?_eq_some_of_mem hl (h.mem_iff.mpr (mem_of_find?_eq_some hv))

theorem find?_append (l₁ l₂ : List (κ × ν)) (k : κ) :
    find? (l₁ ++ l₂) k = (find? l₁ k).or (find? l₂ k) := by
  induction l₁ with
  | nil => simp
  | cons e l ih => by_cases h : e.1 = k <;> simp [find?_cons, h, ih]

theorem find?_filter (l : List (κ × ν)) (hl : (l.map Prod.fst).Nodup) (p : κ × ν → Bool) (k : κ) :
    find? (l.filter p) k = (find? l k).filter (fun v => p (k, v)) := by
  induction l with
  | nil => simp
  | cons e l ih =>
    rw [List.map_cons, List.nodup_cons] at hl
    by_cases hk : e.1 = k
    · subst hk
      have hnone : find? (l.filter p) e.1 = none :=
        find?_eq_none.mpr fun hm => hl.1 ((List.filter_sublist.map Prod.fst).subset hm)
      by_cases hp : p e = true
      · simp [find?_cons, hp, Option.filter]
      · simp [find?_cons, hp, hnone, Option.filter]
    · by_cases hp : p e = true <;> simp [find?_cons, hp, hk, ih hl.2]

theorem find?_map_replace (l : List (κ × ν)) (k k' : κ) (v : ν) :
    find? (l.map fun e => if e.1 = k then (k, v) else e) k' =
      if k' = k then (find? l k).map (fun _ => v) else find? l k' := by
  induction l with
  | nil => simp
  | cons e l ih =>
    by_cases he : e.1 = k
    · by_cases hk : k' = k
      · simp [find?_cons, he, hk]
      · have : e.1 ≠ k' := fun h => hk (h.symm.trans he)
        simp [find?_cons, he, hk, ih, Ne.symm hk]
    · by_cases hk : k' = k
      · subst hk; simp [find?_cons, he, ih]
      · simp [find?_cons, he, hk, ih]

@[simp] theorem get?_empty (k : κ) : (empty : OrderedMap κ ν).get? k = none := rfl

theorem mem_entries_iff {m : OrderedMap κ ν} {k : κ} {v : ν} :
    (k, v) ∈ m.entries ↔ m.get? k = some v :=
  ⟨find?_eq_some_of_mem m.nodup, mem_of_find?_eq_some⟩

theorem contains_eq_false {m : OrderedMap κ ν} {k : κ} :
    m.contains k = false ↔ m.get? k = none := by
  simp [contains]

theorem contains_eq_true {m : OrderedMap κ ν} {k : κ} :
    m.contains k = true ↔ ∃ v, m.get? k = some v := by
  simp [contains, Option.isSome_iff_exists]

/-! ### Writing, deleting, filtering -/

/-- Write into a list of entries: in place when the key is present, at the end when it is not. -/
def setList (l : List (κ × ν)) (k : κ) (v : ν) : List (κ × ν) :=
  if k ∈ l.map Prod.fst then l.map fun e => if e.1 = k then (k, v) else e
  else l ++ [(k, v)]

theorem nodup_setList {l : List (κ × ν)} (hl : (l.map Prod.fst).Nodup) (k : κ) (v : ν) :
    ((setList l k v).map Prod.fst).Nodup := by
  unfold setList
  split
  · have hkeys : (l.map fun e => if e.1 = k then (k, v) else e).map Prod.fst = l.map Prod.fst := by
      rw [List.map_map]
      refine List.map_congr_left fun e _ => ?_
      by_cases he : e.1 = k <;> simp [he]
    rwa [hkeys]
  · next h =>
    rw [List.map_append, List.map_singleton]
    refine List.nodup_append.mpr ⟨hl, List.nodup_singleton _, fun a ha b hb hab => h ?_⟩
    rwa [hab, List.mem_singleton.mp hb] at ha

theorem find?_setList (l : List (κ × ν)) (k k' : κ) (v : ν) :
    find? (setList l k v) k' = if k' = k then some v else find? l k' := by
  by_cases h : k ∈ l.map Prod.fst
  · obtain ⟨w, hw⟩ : ∃ w, find? l k = some w :=
      Option.ne_none_iff_exists'.mp fun hn => find?_eq_none.mp hn h
    simp only [setList, if_pos h, find?_map_replace, hw, Option.map_some]
  · have hnone : find? l k = none := find?_eq_none.mpr h
    simp only [setList, if_neg h, find?_append, find?_cons, find?_nil]
    by_cases hk : k' = k
    · subst hk; simp [hnone]
    · simp [hk, Ne.symm hk]

theorem mem_keys_setList {l : List (κ × ν)} {k k' : κ} {v : ν} :
    k' ∈ (setList l k v).map Prod.fst ↔ k' = k ∨ k' ∈ l.map Prod.fst := by
  rw [← not_iff_not, ← find?_eq_none, find?_setList, not_or, ← find?_eq_none]
  by_cases h : k' = k <;> simp [h]

theorem mem_setList {l : List (κ × ν)} {k : κ} {v : ν} {e : κ × ν} (h : e ∈ setList l k v) :
    e = (k, v) ∨ e ∈ l := by
  unfold setList at h
  split at h
  · obtain ⟨e', he', rfl⟩ := List.mem_map.mp h
    split
    · exact .inl rfl
    · exact .inr he'
  · rcases List.mem_append.mp h with h | h
    · exact .inr h
    · exact .inl (List.mem_singleton.mp h)

/-- Write a value under a key. -/
def set (m : OrderedMap κ ν) (k : κ) (v : ν) : OrderedMap κ ν :=
  ⟨setList m.entries k v, nodup_setList m.nodup k v⟩

/-- Forget a key. -/
def delete (m : OrderedMap κ ν) (k : κ) : OrderedMap κ ν :=
  ⟨m.entries.filter fun e => !decide (e.1 = k),
    m.nodup.sublist (List.filter_sublist.map Prod.fst)⟩

omit [DecidableEq κ] in
/-- Keep the entries that satisfy a predicate. -/
def filter (m : OrderedMap κ ν) (p : κ → ν → Bool) : OrderedMap κ ν :=
  ⟨m.entries.filter fun e => p e.1 e.2, m.nodup.sublist (List.filter_sublist.map Prod.fst)⟩

/-- Rewrite the value under a key, if it is present. -/
def modify (m : OrderedMap κ ν) (k : κ) (f : ν → ν) : OrderedMap κ ν :=
  match m.get? k with
  | some v => m.set k (f v)
  | none => m

/-- What is stored under a key does not matter to what is left without it. -/
theorem delete_set (m : OrderedMap κ ν) (k : κ) (v : ν) : (m.set k v).delete k = m.delete k := by
  apply ext
  change (setList m.entries k v).filter (fun e => !decide (e.1 = k)) =
    m.entries.filter fun e => !decide (e.1 = k)
  unfold setList
  split
  · rw [List.filter_map]
    have hkeep : ∀ e : κ × ν, ((fun e : κ × ν => !decide (e.1 = k)) ∘
        fun e => if e.1 = k then (k, v) else e) e = !decide (e.1 = k) := by
      intro e
      by_cases hk : e.1 = k
      · simp [hk]
      · simp [hk]
    rw [List.filter_congr fun e _ => hkeep e]
    -- the entries that are left are not rewritten
    refine (List.map_congr_left fun e he => ?_).trans (List.map_id _)
    have hne : e.1 ≠ k := by simpa using (List.mem_filter.mp he).2
    exact if_neg hne
  · rw [List.filter_append, List.filter_singleton, decide_eq_true rfl, Bool.not_true]
    exact List.append_nil _

theorem delete_modify (m : OrderedMap κ ν) (k : κ) (f : ν → ν) :
    (m.modify k f).delete k = m.delete k := by
  unfold modify
  split
  · exact delete_set m k _
  · rfl

theorem entries_set_of_none {m : OrderedMap κ ν} {k : κ} (h : m.get? k = none) (v : ν) :
    (m.set k v).entries = m.entries ++ [(k, v)] :=
  if_neg (find?_eq_none.mp h)

theorem size_set_le (m : OrderedMap κ ν) (k : κ) (v : ν) : (m.set k v).size ≤ m.size + 1 := by
  change (setList m.entries k v).length ≤ m.entries.length + 1
  unfold setList
  split
  · rw [List.length_map]
    exact Nat.le_succ _
  · exact Nat.le_of_eq List.length_append

theorem get?_set (m : OrderedMap κ ν) (k k' : κ) (v : ν) :
    (m.set k v).get? k' = if k' = k then some v else m.get? k' :=
  find?_setList m.entries k k' v

@[simp] theorem get?_set_self (m : OrderedMap κ ν) (k : κ) (v : ν) :
    (m.set k v).get? k = some v := by
  rw [get?_set, if_pos rfl]

theorem get?_set_of_ne (m : OrderedMap κ ν) {k k' : κ} (h : k' ≠ k) (v : ν) :
    (m.set k v).get? k' = m.get? k' := by
  rw [get?_set, if_neg h]

theorem get?_delete (m : OrderedMap κ ν) (k k' : κ) :
    (m.delete k).get? k' = if k' = k then none else m.get? k' := by
  unfold delete get?
  rw [find?_filter _ m.nodup]
  by_cases h : k' = k
  · subst h; cases find? m.entries k' <;> simp
  · cases find? m.entries k' <;> simp [h]

@[simp] theorem get?_delete_self (m : OrderedMap κ ν) (k : κ) : (m.delete k).get? k = none := by
  rw [get?_delete, if_pos rfl]

theorem get?_delete_of_ne (m : OrderedMap κ ν) {k k' : κ} (h : k' ≠ k) :
    (m.delete k).get? k' = m.get? k' := by
  rw [get?_delete, if_neg h]

theorem get?_filter (m : OrderedMap κ ν) (p : κ → ν → Bool) (k : κ) :
    (m.filter p).get? k = (m.get? k).filter (p k) :=
  find?_filter _ m.nodup _ k

theorem get?_modify (m : OrderedMap κ ν) (k k' : κ) (f : ν → ν) :
    (m.modify k f).get? k' = if k' = k then (m.get? k).map f else m.get? k' := by
  unfold modify
  cases h : m.get? k with
  | none =>
    by_cases hk : k' = k
    · subst hk; simp [h]
    · simp [hk]
  | some => simp [get?_set]

omit [DecidableEq κ] in
/-- Rewrite every value. -/
def mapValues (m : OrderedMap κ ν) (f : ν → ν) : OrderedMap κ ν :=
  ⟨m.entries.map fun e => (e.1, f e.2), by
    rw [List.map_map]
    exact m.nodup⟩

theorem get?_mapValues (m : OrderedMap κ ν) (f : ν → ν) (k : κ) :
    (m.mapValues f).get? k = (m.get? k).map f := by
  obtain ⟨l, hl⟩ := m
  show find? (l.map fun e => (e.1, f e.2)) k = (find? l k).map f
  clear hl
  induction l with
  | nil => rfl
  | cons e l ih =>
    rw [List.map_cons, find?_cons, find?_cons]
    by_cases h : e.1 = k
    · simp [h]
    · simp [h, ih]

/-! ### The list of values -/

omit [DecidableEq κ] in
/-- The values, in the order of their keys. -/
def values (m : OrderedMap κ ν) : List ν := m.entries.map Prod.snd

omit [DecidableEq κ] in
@[simp] theorem values_empty : (empty : OrderedMap κ ν).values = [] := rfl

theorem mem_values_of_get? {m : OrderedMap κ ν} {k : κ} {v : ν} (h : m.get? k = some v) :
    v ∈ m.values :=
  List.mem_map_of_mem (f := Prod.snd) (mem_entries_iff.mpr h)

/-- A write adds its value, and may drop the one it replaces. -/
theorem values_set_subperm (m : OrderedMap κ ν) (k : κ) (v : ν) :
    List.Subperm (m.set k v).values (v :: m.values) := by
  have hlist : ∀ l : List (κ × ν), (l.map Prod.fst).Nodup → k ∈ l.map Prod.fst →
      List.Subperm ((l.map fun e => if e.1 = k then (k, v) else e).map Prod.snd)
        (v :: l.map Prod.snd) := by
    intro l
    induction l with
    | nil => exact fun _ h => absurd h List.not_mem_nil
    | cons e l ih =>
      intro hnodup hmem
      rw [List.map_cons, List.nodup_cons] at hnodup
      by_cases hk : e.1 = k
      · -- the key is listed here, and nowhere later
        have hrest : (l.map fun e => if e.1 = k then (k, v) else e) = l := by
          refine (List.map_congr_left fun e' he' => ?_).trans (List.map_id l)
          rw [if_neg]
          · rfl
          · exact fun h => hnodup.1 (by rw [hk, ← h]; exact List.mem_map_of_mem he')
        simp only [List.map_cons, hk, if_pos, hrest]
        exact ((List.sublist_cons_self _ _).cons_cons v).subperm
      · have hmem' : k ∈ l.map Prod.fst := by
          rw [List.map_cons] at hmem
          exact (List.mem_cons.mp hmem).resolve_left (Ne.symm hk)
        simp only [List.map_cons, if_neg hk]
        exact ((List.subperm_cons e.2).mpr (ih hnodup.2 hmem')).trans
          (List.Perm.swap v e.2 _).subperm
  by_cases h : k ∈ m.entries.map Prod.fst
  · simp only [values, set, setList, if_pos h]
    exact hlist m.entries m.nodup h
  · simp only [values, set, setList, if_neg h, List.map_append, List.map_singleton]
    exact List.perm_append_singleton v _ |>.subperm

theorem values_set_of_none {m : OrderedMap κ ν} {k : κ} (h : m.get? k = none) (v : ν) :
    (m.set k v).values = m.values ++ [v] := by
  rw [values, entries_set_of_none h, List.map_append, List.map_singleton, values]

/-- **A write in place**, seen in the values with a property that the old and the new value
share. -/
theorem forall₂_filter_values_set {m : OrderedMap κ ν} {k : κ} {old v : ν} {p : ν → Bool}
    {R : ν → ν → Prop} (hrefl : ∀ x, R x x) (hold : m.get? k = some old) (hp : p v = p old)
    (hR : p old = true → R old v) :
    List.Forall₂ R (m.values.filter p) ((m.set k v).values.filter p) := by
  have hlist : ∀ l : List (κ × ν), (∀ e ∈ l, e.1 = k → e.2 = old) →
      List.Forall₂ R ((l.map Prod.snd).filter p)
        (((l.map fun e => if e.1 = k then (k, v) else e).map Prod.snd).filter p) := by
    intro l
    induction l with
    | nil => exact fun _ => .nil
    | cons e l ih =>
      intro hl
      have ih := ih fun e' he' => hl e' (List.mem_cons_of_mem _ he')
      simp only [List.map_cons, List.filter_cons]
      by_cases hk : e.1 = k
      · rw [if_pos hk, hl e List.mem_cons_self hk, hp]
        split
        · next hpo => exact .cons (hR hpo) ih
        · exact ih
      · rw [if_neg hk]
        split
        · exact .cons (hrefl e.2) ih
        · exact ih
  have hkey : k ∈ m.entries.map Prod.fst :=
    List.mem_map_of_mem (f := Prod.fst) (mem_entries_iff.mpr hold)
  have hset : (m.set k v).entries = m.entries.map fun e => if e.1 = k then (k, v) else e :=
    if_pos hkey
  rw [values, values, hset]
  refine hlist m.entries fun e he hk => ?_
  have hget : m.get? e.1 = some e.2 := mem_entries_iff.mp he
  rw [hk, hold] at hget
  exact (Option.some.inj hget).symm

theorem filter_values_set {m : OrderedMap κ ν} {k : κ} {v : ν} {p : ν → Bool} (hv : p v = false)
    (hold : ∀ old, m.get? k = some old → p old = false) :
    (m.set k v).values.filter p = m.values.filter p := by
  cases hget : m.get? k with
  | none =>
    rw [values_set_of_none hget, List.filter_append, List.filter_singleton, hv]
    exact List.append_nil _
  | some old =>
    have hp := hold old hget
    have hsame := forall₂_filter_values_set (R := Eq) (fun _ => rfl) hget (hv.trans hp.symm)
      (fun h => absurd h (by rw [hp]; decide))
    exact (List.forall₂_eq_eq_eq ▸ hsame).symm

theorem filter_values_modify {m : OrderedMap κ ν} {k : κ} {f : ν → ν} {p : ν → Bool}
    (hold : ∀ old, m.get? k = some old → p old = false ∧ p (f old) = false) :
    (m.modify k f).values.filter p = m.values.filter p := by
  unfold modify
  cases hget : m.get? k with
  | none => rfl
  | some old =>
    refine filter_values_set (hold old hget).2 fun old' hget' => ?_
    exact (hold old' hget').1

omit [DecidableEq κ] in
theorem nodup_of_subperm {l l' : List ν} (h : List.Subperm l l') (hl : l'.Nodup) :
    l.Nodup := by
  obtain ⟨l'', hperm, hsub⟩ := h
  exact hperm.nodup_iff.mp (hl.sublist hsub)

omit [DecidableEq κ] in
theorem subperm_map {α : Type} {f : ν → α} {l l' : List ν} (h : List.Subperm l l') :
    List.Subperm (l.map f) (l'.map f) := by
  obtain ⟨l'', hperm, hsub⟩ := h
  exact ⟨l''.map f, hperm.map f, hsub.map f⟩

/-- Deleting a key takes its value away. -/
theorem values_delete_perm {m : OrderedMap κ ν} {k : κ} {v : ν} (h : m.get? k = some v) :
    List.Perm (v :: (m.delete k).values) m.values := by
  have hlist : ∀ l : List (κ × ν), (l.map Prod.fst).Nodup → (k, v) ∈ l →
      List.Perm (v :: (l.filter fun e => !decide (e.1 = k)).map Prod.snd) (l.map Prod.snd) := by
    intro l
    induction l with
    | nil => exact fun _ h => absurd h List.not_mem_nil
    | cons e l ih =>
      intro hnodup hmem
      rw [List.map_cons, List.nodup_cons] at hnodup
      by_cases hk : e.1 = k
      · have hev : e = (k, v) := by
          refine (List.mem_cons.mp hmem).elim Eq.symm fun hmem => absurd ?_ hnodup.1
          rw [hk]
          exact List.mem_map_of_mem (f := Prod.fst) hmem
        have hrest : (l.filter fun e => !decide (e.1 = k)) = l := by
          refine List.filter_eq_self.mpr fun e' he' => ?_
          have hne : e'.1 ≠ k := fun h => hnodup.1 (by rw [hk, ← h]; exact List.mem_map_of_mem he')
          simpa using hne
        rw [List.filter_cons_of_neg (by simpa using hk), hrest, hev, List.map_cons]
      · have hmem' : (k, v) ∈ l :=
          (List.mem_cons.mp hmem).resolve_left fun h => hk (by rw [← h])
        rw [List.filter_cons_of_pos (by simpa using hk), List.map_cons, List.map_cons]
        exact (List.Perm.swap e.2 v _).trans ((ih hnodup.2 hmem').cons e.2)
  exact hlist m.entries m.nodup (mem_entries_iff.mpr h)

theorem values_delete_sublist (m : OrderedMap κ ν) (k : κ) : (m.delete k).values.Sublist m.values :=
  List.filter_sublist.map Prod.snd

omit [DecidableEq κ] in
theorem values_filter_sublist (m : OrderedMap κ ν) (p : κ → ν → Bool) :
    (m.filter p).values.Sublist m.values :=
  List.filter_sublist.map Prod.snd

/-! ### The list of keys -/

omit [DecidableEq κ] in
/-- The keys, in the order of their first insertion. -/
def keys (m : OrderedMap κ ν) : List κ := m.entries.map Prod.fst

omit [DecidableEq κ] in
theorem length_keys (m : OrderedMap κ ν) : m.keys.length = m.size := List.length_map _

theorem mem_keys {m : OrderedMap κ ν} {k : κ} : k ∈ m.keys ↔ (m.get? k).isSome := by
  rw [← not_iff_not, Bool.not_eq_true, Option.isSome_eq_false_iff, Option.isNone_iff_eq_none]
  exact find?_eq_none.symm

theorem map_find?_entries (m : OrderedMap κ ν) (f : κ → Bool) :
    (m.entries.find? fun e => f e.1).map Prod.snd = (m.keys.find? f).bind m.get? := by
  have hkeys : m.keys.find? f = (m.entries.find? fun e => f e.1).map Prod.fst := List.find?_map
  rw [hkeys]
  cases hfind : m.entries.find? fun e => f e.1 with
  | none => rfl
  | some => exact (mem_entries_iff.mp (List.mem_of_find?_eq_some hfind)).symm

theorem mem_keys_set {m : OrderedMap κ ν} {k k' : κ} {v : ν} :
    k' ∈ (m.set k v).keys ↔ k' = k ∨ k' ∈ m.keys :=
  mem_keys_setList

theorem keys_set_of_some {m : OrderedMap κ ν} {k : κ} {old : ν} (h : m.get? k = some old) (v : ν) :
    (m.set k v).keys = m.keys := by
  have hk : k ∈ m.entries.map Prod.fst :=
    List.mem_map_of_mem (f := Prod.fst) (mem_entries_iff.mpr h)
  have hset : (m.set k v).entries = m.entries.map fun e => if e.1 = k then (k, v) else e :=
    if_pos hk
  rw [keys, hset, List.map_map]
  refine List.map_congr_left fun e _ => ?_
  by_cases he : e.1 = k <;> simp [he]

theorem keys_set_of_none {m : OrderedMap κ ν} {k : κ} (h : m.get? k = none) (v : ν) :
    (m.set k v).keys = m.keys ++ [k] := by
  rw [keys, entries_set_of_none h, List.map_append, List.map_singleton, keys]

theorem keys_modify (m : OrderedMap κ ν) (k : κ) (f : ν → ν) : (m.modify k f).keys = m.keys := by
  unfold modify
  cases h : m.get? k with
  | none => rfl
  | some v => exact keys_set_of_some h (f v)

theorem mem_keys_delete {m : OrderedMap κ ν} {k k' : κ} :
    k' ∈ (m.delete k).keys ↔ k' ≠ k ∧ k' ∈ m.keys := by
  rw [mem_keys, get?_delete, mem_keys]
  by_cases h : k' = k <;> simp [h]

theorem length_keys_delete {m : OrderedMap κ ν} {k : κ} {v : ν} (h : m.get? k = some v) :
    (m.delete k).size + 1 = m.size := by
  have hlength := (values_delete_perm h).length_eq
  simpa [values, size] using hlength

/-! ### Dropping the oldest entries -/

omit [DecidableEq κ] in
/-- The loop `while size > max do delete the oldest key`, left early at a key that `stop`
accepts. -/
def evictList (max : ℕ) (stop : κ → Bool) : List (κ × ν) → List (κ × ν)
  | [] => []
  | e :: l =>
    if (e :: l).length ≤ max then e :: l
    else if stop e.1 then e :: l
    else evictList max stop l

omit [DecidableEq κ] in
theorem evictList_suffix (max : ℕ) (stop : κ → Bool) (l : List (κ × ν)) :
    evictList max stop l <:+ l := by
  induction l with
  | nil => exact List.suffix_rfl
  | cons e l ih =>
    unfold evictList
    split
    · exact List.suffix_rfl
    · split
      · exact List.suffix_rfl
      · exact ih.trans (List.suffix_cons e l)

omit [DecidableEq κ] in
theorem evictList_of_length_le {max : ℕ} {stop : κ → Bool} {l : List (κ × ν)}
    (h : l.length ≤ max) : evictList max stop l = l := by
  cases l with
  | nil => rfl
  | cons => rw [evictList, if_pos h]

omit [DecidableEq κ] in
theorem evictList_of_later {max : ℕ} {stop : κ → Bool} {l : List (κ × ν)} {e : κ × ν}
    {later : List (κ × ν)} (h : later.length < max) :
    ∃ earlier, evictList max stop (l ++ e :: later) = earlier ++ e :: later := by
  induction l with
  | nil => exact ⟨[], evictList_of_length_le h⟩
  | cons e' l ih =>
    rw [List.cons_append, evictList]
    split
    · exact ⟨e' :: l, rfl⟩
    · split
      · exact ⟨e' :: l, rfl⟩
      · exact ih

omit [DecidableEq κ] in
/-- Drop oldest entries while there are more than `max`. -/
def evict (m : OrderedMap κ ν) (max : ℕ) (stop : κ → Bool) : OrderedMap κ ν :=
  ⟨evictList max stop m.entries,
    m.nodup.sublist ((evictList_suffix max stop m.entries).sublist.map Prod.fst)⟩

omit [DecidableEq κ] in
theorem evict_of_size_le {m : OrderedMap κ ν} {max : ℕ} {stop : κ → Bool} (h : m.size ≤ max) :
    m.evict max stop = m :=
  ext (evictList_of_length_le h)

end OrderedMap
end Library
