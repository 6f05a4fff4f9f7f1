import McpSshTool.Library.OrderedMap

/-!
# Calls in flight

A table of things under way, each with a number of its own. A number is drawn in order and never
again, so that what was started later cannot be taken for what was started before.

* `add` — something starts, under the next number; `remove` — it ends; `update` — it goes on;
  `skip` — a number is drawn for something that is over at once;
* `mem_values` — the list of values against the numbers; `values_add`, `values_remove_perm` — the
  list after something starts or ends;
* `count` — how many things of a kind are under way.
-/

namespace Library

/-- **A table of things under way.** -/
structure Slots (α : Type) where
  table : OrderedMap ℕ α
  /-- The next number. -/
  next : ℕ
  /-- Every number in the table was drawn before. -/
  lt_next : ∀ n v, table.get? n = some v → n < next

namespace Slots

variable {α : Type}

/-- Nothing is under way. -/
def empty : Slots α := ⟨.empty, 0, fun _ _ h => nomatch h⟩

instance : Inhabited (Slots α) := ⟨empty⟩

/-- What has a number. -/
def get? (s : Slots α) (n : ℕ) : Option α := s.table.get? n

/-- Everything that is under way. -/
def values (s : Slots α) : List α := s.table.values

/-- How many things are under way. -/
def size (s : Slots α) : ℕ := s.values.length

/-- Something starts. -/
def add (s : Slots α) (v : α) : Slots α where
  table := s.table.set s.next v
  next := s.next + 1
  lt_next := by
    intro n w h
    rw [OrderedMap.get?_set] at h
    split at h
    · next hn => exact hn ▸ Nat.lt_succ_self _
    · exact Nat.lt_succ_of_lt (s.lt_next n w h)

/-- A number is drawn for something that is over at once. -/
def skip (s : Slots α) : Slots α where
  table := s.table
  next := s.next + 1
  lt_next := fun n v h => Nat.lt_succ_of_lt (s.lt_next n v h)

/-- Something ends. -/
def remove (s : Slots α) (n : ℕ) : Slots α where
  table := s.table.delete n
  next := s.next
  lt_next := by
    intro k v h
    rw [OrderedMap.get?_delete] at h
    split at h
    · cases h
    · exact s.lt_next k v h

/-- Something goes on. -/
def update (s : Slots α) (n : ℕ) (f : α → α) : Slots α where
  table := s.table.modify n f
  next := s.next
  lt_next := by
    intro k v h
    rw [OrderedMap.get?_modify] at h
    split at h
    · next hk =>
      obtain ⟨w, hw, -⟩ := Option.map_eq_some_iff.mp h
      exact hk ▸ s.lt_next n w hw
    · exact s.lt_next k v h

variable {s : Slots α} {n k : ℕ} {v w : α} {f : α → α}

@[simp] theorem get?_empty (n : ℕ) : (empty : Slots α).get? n = none := rfl

@[simp] theorem values_empty : (empty : Slots α).values = [] := rfl

@[simp] theorem next_add : (s.add v).next = s.next + 1 := rfl

@[simp] theorem next_skip : s.skip.next = s.next + 1 := rfl

@[simp] theorem next_remove : (s.remove n).next = s.next := rfl

@[simp] theorem next_update : (s.update n f).next = s.next := rfl

@[simp] theorem get?_skip : s.skip.get? n = s.get? n := rfl

@[simp] theorem values_skip : s.skip.values = s.values := rfl

theorem lt_of_get? (h : s.get? n = some v) : n < s.next := s.lt_next n v h

theorem get?_next : s.get? s.next = none := by
  cases h : s.get? s.next with
  | none => rfl
  | some => exact absurd (lt_of_get? h) (Nat.lt_irrefl _)

theorem get?_add : (s.add v).get? n = if n = s.next then some v else s.get? n :=
  OrderedMap.get?_set s.table s.next n v

theorem get?_add_of_some (h : s.get? n = some w) : (s.add v).get? n = some w := by
  rw [get?_add, if_neg (Nat.ne_of_lt (lt_of_get? h)), h]

theorem get?_add_next : (s.add v).get? s.next = some v := by
  rw [get?_add, if_pos rfl]

theorem get?_remove : (s.remove n).get? k = if k = n then none else s.get? k :=
  OrderedMap.get?_delete s.table n k

theorem get?_of_remove (h : (s.remove n).get? k = some v) : s.get? k = some v := by
  rw [get?_remove] at h
  split at h
  · cases h
  · exact h

theorem get?_update : (s.update n f).get? k = if k = n then (s.get? n).map f else s.get? k :=
  OrderedMap.get?_modify s.table n k f

theorem mem_values : v ∈ s.values ↔ ∃ n, s.get? n = some v := by
  constructor
  · intro h
    obtain ⟨⟨n, w⟩, he, rfl⟩ := List.mem_map.mp h
    exact ⟨n, OrderedMap.mem_entries_iff.mp he⟩
  · rintro ⟨n, h⟩
    exact OrderedMap.mem_values_of_get? h

theorem values_add : (s.add v).values = s.values ++ [v] :=
  OrderedMap.values_set_of_none get?_next v

theorem mem_values_add : w ∈ (s.add v).values ↔ w ∈ s.values ∨ w = v := by
  rw [values_add, List.mem_append, List.mem_singleton]

theorem size_add : (s.add v).size = s.size + 1 := by
  rw [size, values_add, List.length_append, List.length_singleton, size]

theorem values_remove_perm (h : s.get? n = some v) :
    List.Perm (v :: (s.remove n).values) s.values :=
  OrderedMap.values_delete_perm h

theorem mem_of_mem_values_remove (h : w ∈ (s.remove n).values) : w ∈ s.values :=
  (OrderedMap.values_delete_sublist s.table n).subset h

theorem mem_values_remove_or (h : s.get? n = some v) (hw : w ∈ s.values) :
    w ∈ (s.remove n).values ∨ w = v :=
  (List.mem_cons.mp ((values_remove_perm h).mem_iff.mpr hw)).symm

theorem size_remove (h : s.get? n = some v) : (s.remove n).size + 1 = s.size :=
  (values_remove_perm h).length_eq

/-! ### Counting -/

/-- How many things of a kind are under way. -/
def count (p : α → Bool) (s : Slots α) : ℕ := s.values.countP p

variable {p : α → Bool}

theorem count_add : (s.add v).count p = s.count p + if p v then 1 else 0 := by
  rw [count, values_add, List.countP_append, List.countP_singleton, count]

theorem count_remove (h : s.get? n = some v) :
    s.count p = (s.remove n).count p + if p v then 1 else 0 := by
  rw [count, ← (values_remove_perm h).countP_eq, List.countP_cons, count]

theorem count_update (h : s.get? n = some v) :
    (s.update n f).count p + (if p v then 1 else 0) = s.count p + if p (f v) then 1 else 0 := by
  have hsame : (s.update n f).remove n = s.remove n := by
    unfold remove update
    congr 1
    exact OrderedMap.delete_modify s.table n f
  have hget : (s.update n f).get? n = some (f v) := by
    rw [get?_update, if_pos rfl, h]
    rfl
  rw [count_remove hget, count_remove h, hsame]
  exact Nat.add_right_comm _ _ _

end Slots
end Library
