import McpSshTool.Js.Value

/-!
# Equality of JSON values

When two values are one JSON value: objects are compared by their members, so neither the order of
the keys nor a member that is `undefined` counts.

* `Serialisable` — the values that a JSON document can be made of.
* `SameJson` — one JSON value.
* `sameJson_transport` — the trip through `JSON.stringify` and `JSON.parse` keeps the value.
-/

open Library

namespace Value

mutual

/-- A JSON value under construction: numbers are finite, keys are distinct, elements are there, and
a member may still be `undefined`. -/
def Serialisable : Value → Prop
  | undefined => False
  | num n => ∃ q, n = .fin q
  | arr xs => SerialisableElements xs
  | obj fs => (fs.map Prod.fst).Nodup ∧ SerialisableMembers fs
  | _ => True

def SerialisableElements : List Value → Prop
  | [] => True
  | x :: xs => Serialisable x ∧ SerialisableElements xs

def SerialisableMembers : Fields → Prop
  | [] => True
  | (_, v) :: fs => (v = undefined ∨ Serialisable v) ∧ SerialisableMembers fs

end

/-- **One JSON value**, up to the order of keys and members that are `undefined`. -/
inductive SameJson : Value → Value → Prop where
  | undefined : SameJson undefined undefined
  | null : SameJson null null
  | bool (b : Bool) : SameJson (bool b) (bool b)
  | num (n : JsNumber) : SameJson (num n) (num n)
  | str (s : String) : SameJson (str s) (str s)
  | arr {xs ys : List Value} (hlength : xs.length = ys.length)
      (helements : ∀ (i : ℕ) (x y : Value), xs[i]? = some x → ys[i]? = some y → SameJson x y) :
      SameJson (arr xs) (arr ys)
  | obj {fs gs : Fields} (hmembers : ∀ k, SameJson ((obj fs).member k) ((obj gs).member k)) :
      SameJson (obj fs) (obj gs)

theorem serialisableElements_iff {xs : List Value} :
    SerialisableElements xs ↔ ∀ x ∈ xs, Serialisable x := by
  induction xs with
  | nil => simp [SerialisableElements]
  | cons x xs ih => simp [SerialisableElements, ih]

theorem serialisableMembers_iff {fs : Fields} :
    SerialisableMembers fs ↔ ∀ e ∈ fs, e.2 = undefined ∨ Serialisable e.2 := by
  induction fs with
  | nil => simp [SerialisableMembers]
  | cons e fs ih =>
    obtain ⟨k, v⟩ := e
    simp [SerialisableMembers, ih]

theorem serialisable_obj {fs : Fields} :
    (obj fs).Serialisable ↔
      (fs.map Prod.fst).Nodup ∧ ∀ e ∈ fs, e.2 = undefined ∨ Serialisable e.2 := by
  rw [Serialisable, serialisableMembers_iff]

theorem Serialisable.isUndefined {v : Value} (h : v.Serialisable) : v.isUndefined = false := by
  cases v with
  | undefined => exact absurd h (by simp [Serialisable])
  | _ => rfl

theorem Serialisable.member {fs : Fields} (h : (obj fs).Serialisable) (k : String) :
    (obj fs).member k = undefined ∨ ((obj fs).member k).Serialisable := by
  rw [member_obj]
  cases hk : OrderedMap.find? fs k with
  | none => exact .inl rfl
  | some => exact (serialisable_obj.mp h).2 _ (OrderedMap.mem_of_find?_eq_some hk)

theorem eq_undefined {v : Value} (h : v.isUndefined = true) : v = undefined := by
  cases v with
  | undefined => rfl
  | _ => cases h

theorem mem_of_member {fs : Fields} {k : String} (h : (obj fs).member k ≠ undefined) :
    (k, (obj fs).member k) ∈ fs := by
  rw [member_obj] at h ⊢
  cases hk : OrderedMap.find? fs k with
  | none =>
    rw [hk] at h
    exact absurd rfl h
  | some => exact OrderedMap.mem_of_find?_eq_some hk

theorem length_transportElements (xs : List Value) :
    (transportElements xs).length = xs.length := by
  induction xs with
  | nil => rfl
  | cons x xs ih => rw [transportElements_cons, List.length_cons, List.length_cons, ih]

theorem SameJson.isUndefined_eq {v w : Value} (h : SameJson v w) :
    v.isUndefined = w.isUndefined := by
  cases h <;> rfl

theorem serialisable_setList {fs : Fields} (h : (obj fs).Serialisable) {k : String} {v : Value}
    (hv : v.Serialisable) : (obj (OrderedMap.setList fs k v)).Serialisable := by
  obtain ⟨hnodup, hmembers⟩ := serialisable_obj.mp h
  refine serialisable_obj.mpr ⟨OrderedMap.nodup_setList hnodup k v, fun e he => ?_⟩
  rcases OrderedMap.mem_setList he with rfl | he
  · exact .inr hv
  · exact hmembers e he

mutual

/-- **The trip through JSON keeps the value.** -/
theorem sameJson_transport : ∀ {v : Value}, v.Serialisable → SameJson v v.transport
  | undefined, h => absurd h (by simp [Serialisable])
  | null, _ => .null
  | bool b, _ => .bool b
  | num n, h => by
    rw [Serialisable] at h
    obtain ⟨q, rfl⟩ := h
    exact .num _
  | str s, _ => .str s
  | arr xs, h => by
    rw [Serialisable] at h
    rw [transport]
    exact .arr (length_transportElements xs).symm (sameJson_transportElements h)
  | obj fs, h => by
    rw [Serialisable] at h
    have hmember := member_transport_of_nodup h.1
    rw [transport] at hmember ⊢
    refine .obj fun k => ?_
    rw [hmember k, member_obj]
    cases hk : OrderedMap.find? fs k with
    | none => exact .undefined
    | some => exact sameJson_transportMembers h.2 _ (OrderedMap.mem_of_find?_eq_some hk)

theorem sameJson_transportElements : ∀ {xs : List Value}, SerialisableElements xs →
    ∀ (i : ℕ) (x y : Value), xs[i]? = some x → (transportElements xs)[i]? = some y → SameJson x y
  | [], _, i, x, y, hx, _ => by simp at hx
  | x' :: xs, h, i, x, y, hx, hy => by
    rw [SerialisableElements] at h
    rw [transportElements_cons, h.1.isUndefined, if_neg (by simp)] at hy
    cases i with
    | zero =>
      obtain rfl := Option.some.inj hx
      obtain rfl := Option.some.inj hy
      exact sameJson_transport h.1
    | succ i => exact sameJson_transportElements h.2 i x y hx hy

theorem sameJson_transportMembers : ∀ {fs : Fields}, SerialisableMembers fs →
    ∀ e ∈ fs, SameJson e.2 e.2.transport
  | [], _, e, he => absurd he List.not_mem_nil
  | (k, v) :: fs, h, e, he => by
    rw [SerialisableMembers] at h
    rcases List.mem_cons.mp he with rfl | he
    · rcases h.1 with hv | hv
      · rw [show ((k, v) : String × Value).2 = undefined from hv]
        exact .undefined
      · exact sameJson_transport hv
    · exact sameJson_transportMembers h.2 e he

end

mutual

/-- What arrives is serialisable again. -/
theorem serialisable_transport : ∀ {v : Value}, v.Serialisable → v.transport.Serialisable
  | undefined, h => absurd h (by simp [Serialisable])
  | null, _ => trivial
  | bool _, _ => trivial
  | num n, h => by
    rw [Serialisable] at h
    obtain ⟨q, rfl⟩ := h
    exact ⟨q, rfl⟩
  | str _, _ => trivial
  | arr xs, h => by
    rw [Serialisable] at h
    rw [transport, Serialisable]
    exact serialisableElements_transport h
  | obj fs, h => by
    rw [Serialisable] at h
    rw [transport, Serialisable]
    exact ⟨h.1.sublist (keys_transportMembers_sublist fs), serialisableMembers_transport h.2⟩

theorem serialisableElements_transport :
    ∀ {xs : List Value}, SerialisableElements xs → SerialisableElements (transportElements xs)
  | [], _ => trivial
  | x :: xs, h => by
    rw [SerialisableElements] at h
    rw [transportElements_cons, h.1.isUndefined, if_neg (by simp), SerialisableElements]
    exact ⟨serialisable_transport h.1, serialisableElements_transport h.2⟩

theorem serialisableMembers_transport :
    ∀ {fs : Fields}, SerialisableMembers fs → SerialisableMembers (transportMembers fs)
  | [], _ => trivial
  | (k, v) :: fs, h => by
    rw [SerialisableMembers] at h
    rw [transportMembers_cons]
    split
    · exact serialisableMembers_transport h.2
    · next hv =>
      rw [SerialisableMembers]
      refine ⟨.inr ?_, serialisableMembers_transport h.2⟩
      rcases h.1 with rfl | hv'
      · exact absurd rfl hv
      · exact serialisable_transport hv'

end

end Value
