import McpSshTool.Js.Text
import McpSshTool.Js.Value

/-!
# Schemas

The schema combinators that the program uses, with the meaning the `zod` package documents for
them. A schema returns the value it accepts in typed form, or `none` where `parse` throws.

Each combinator comes with the lemma that what it returns is what it was given: a typed result
determines the value that was accepted.
-/

open Library

/-- A schema: the typed form of a value, or `none` where the value is refused. -/
abbrev Schema (α : Type) := Value → Option α

namespace Schema

/-- `z.string()`. -/
def string : Schema String
  | .str s => some s
  | _ => none

/-- `z.string().min(lo)`, in UTF-16 code units. -/
def stringMin (lo : ℕ) : Schema String
  | .str s => if lo ≤ JsText.length s then some s else none
  | _ => none

/-- `z.string().min(lo).max(hi)`. -/
def stringRange (lo hi : ℕ) : Schema String
  | .str s => if lo ≤ JsText.length s ∧ JsText.length s ≤ hi then some s else none
  | _ => none

/-- A string that a predicate accepts, as `z.string().datetime()` is. -/
def stringWhere (p : String → Bool) : Schema String
  | .str s => if p s then some s else none
  | _ => none

/-- `z.literal(s)`. -/
def literal (s : String) : Schema Unit
  | .str t => if t = s then some () else none
  | _ => none

/-- `z.boolean()`. -/
def boolean : Schema Bool
  | .bool b => some b
  | _ => none

/-- `z.number().int()`: the safe integers. -/
def int : Schema ℤ
  | .num n => n.toSafeInt?
  | _ => none

/-- `z.number().int().positive()`. -/
def positiveInt : Schema ℕ
  | .num n => n.toSafeInt?.bind fun i => if 0 < i then some i.toNat else none
  | _ => none

/-- `z.number().int().positive().max(hi)`. -/
def positiveIntMax (hi : ℕ) : Schema ℕ := fun v =>
  (positiveInt v).bind fun n => if n ≤ hi then some n else none

/-- `z.array(schema)`. -/
def array {α : Type} (schema : Schema α) : Schema (List α)
  | .arr xs => xs.mapM schema
  | _ => none

/-- `schema.optional()`. -/
def optional {α : Type} (schema : Schema α) : Schema (Option α)
  | .undefined => some none
  | v => (schema v).map some

/-- `z.record(z.string(), z.unknown())`. -/
def record : Schema Fields
  | .obj fs => some fs
  | _ => none

/-- The shell of `z.object({..}).strict()`: an object without members outside `keys`. The result
reads its members. -/
def strict (keys : List String) : Schema (String → Value)
  | .obj fs => if ∀ e ∈ fs, e.1 ∈ keys then some (Value.obj fs).member else none
  | _ => none

/-! ### What an accepted value is -/

theorem string_eq_some {v : Value} {s : String} (h : string v = some s) : v = .str s := by
  cases v <;> simp_all [string]

theorem stringMin_eq_some {lo : ℕ} {v : Value} {s : String} (h : stringMin lo v = some s) :
    v = .str s ∧ lo ≤ JsText.length s := by
  cases v with
  | str =>
    simp only [stringMin] at h
    split at h
    · next hlo =>
      obtain rfl := Option.some.inj h
      exact ⟨rfl, hlo⟩
    · simp at h
  | _ => simp [stringMin] at h

theorem stringWhere_eq_some {p : String → Bool} {v : Value} {s : String}
    (h : stringWhere p v = some s) : v = .str s := by
  cases v <;> simp_all [stringWhere]

theorem literal_eq_some {s : String} {v : Value} {u : Unit} (h : literal s v = some u) :
    v = .str s := by
  cases v <;> simp_all [literal]

theorem boolean_eq_some {v : Value} {b : Bool} (h : boolean v = some b) : v = .bool b := by
  cases v <;> simp_all [boolean]

theorem positiveInt_eq_some {v : Value} {n : ℕ} (h : positiveInt v = some n) :
    v = .int n ∧ 0 < n := by
  cases v with
  | num =>
    obtain ⟨i, hi, h⟩ := Option.bind_eq_some_iff.mp h
    split at h
    · next hpos =>
      obtain rfl := Option.some.inj h
      rw [JsNumber.eq_ofInt_of_toSafeInt? hi, Int.toNat_of_nonneg hpos.le]
      exact ⟨rfl, by omega⟩
    · simp at h
  | _ => simp [positiveInt] at h

theorem positiveInt_int {i : ℤ} (h₀ : 0 < i) (h₁ : i ≤ JsNumber.maxSafeInteger) :
    positiveInt (.int i) = some i.toNat := by
  have hlo : -JsNumber.maxSafeInteger ≤ i := by
    unfold JsNumber.maxSafeInteger
    omega
  simp [positiveInt, Value.int, JsNumber.toSafeInt?_ofInt hlo h₁, h₀]

theorem positiveIntMax_eq_some {hi : ℕ} {v : Value} {n : ℕ}
    (h : positiveIntMax hi v = some n) : v = .int n ∧ 0 < n ∧ n ≤ hi := by
  obtain ⟨m, hm, h⟩ := Option.bind_eq_some_iff.mp h
  split at h
  · next hle =>
    obtain rfl := Option.some.inj h
    exact ⟨(positiveInt_eq_some hm).1, (positiveInt_eq_some hm).2, hle⟩
  · simp at h

theorem mapM_isSome_iff {α β : Type} (f : α → Option β) (xs : List α) :
    (xs.mapM f).isSome ↔ ∀ x ∈ xs, (f x).isSome := by
  induction xs with
  | nil => simp
  | cons x xs ih =>
    rw [List.mapM_cons, List.forall_mem_cons, ← ih]
    cases f x with
    | none => simp
    | some => cases xs.mapM f <;> simp

theorem mapM_string_eq_some {xs : List Value} {ss : List String}
    (h : xs.mapM string = some ss) : xs = ss.map Value.str := by
  induction xs generalizing ss with
  | nil => simp_all
  | cons x xs ih =>
    rw [List.mapM_cons] at h
    obtain ⟨s, hs, h⟩ := Option.bind_eq_some_iff.mp h
    obtain ⟨ts, hts, h⟩ := Option.bind_eq_some_iff.mp h
    obtain rfl := Option.some.inj h
    rw [string_eq_some hs, ih hts, List.map_cons]

theorem mapM_string_map (ss : List String) : (ss.map Value.str).mapM string = some ss := by
  induction ss with
  | nil => rfl
  | cons s ss ih =>
    rw [List.map_cons, List.mapM_cons, ih]
    rfl

theorem array_string_eq_some {v : Value} {ss : List String} (h : array string v = some ss) :
    v = .arr (ss.map Value.str) := by
  cases v with
  | arr => rw [mapM_string_eq_some h]
  | _ => simp [array] at h

theorem record_eq_some {v : Value} {fs : Fields} (h : record v = some fs) : v = .obj fs := by
  cases v <;> simp_all [record]

theorem strict_eq_some {keys : List String} {v : Value} {o : String → Value}
    (h : strict keys v = some o) :
    ∃ fs, v = .obj fs ∧ o = (Value.obj fs).member ∧ ∀ e ∈ fs, e.1 ∈ keys := by
  cases v with
  | obj fs =>
    simp only [strict] at h
    split at h
    · next hkeys => exact ⟨fs, rfl, (Option.some.inj h).symm, hkeys⟩
    · simp at h
  | _ => simp [strict] at h

theorem strict_obj {keys : List String} {fs : Fields} (h : ∀ e ∈ fs, e.1 ∈ keys) :
    strict keys (.obj fs) = some (Value.obj fs).member :=
  if_pos h

/-! ### What is accepted after transport -/

theorem mapM_string_transport_isSome (xs : List Value) :
    ((Value.transportElements xs).mapM string).isSome ↔ ∃ ss : List String, xs =
      ss.map Value.str := by
  induction xs with
  | nil => exact ⟨fun _ => ⟨[], rfl⟩, fun _ => rfl⟩
  | cons x xs ih =>
    rw [mapM_isSome_iff, Value.transportElements_cons, List.forall_mem_cons, ← mapM_isSome_iff, ih]
    constructor
    · rintro ⟨hx, ss, rfl⟩
      -- only a string travels as a string
      obtain ⟨s, rfl⟩ : ∃ s, x = .str s := by
        cases x with
        | str s => exact ⟨s, rfl⟩
        | num n => cases n <;> simp [Value.isUndefined, Value.transport, string] at hx
        | _ => simp [Value.isUndefined, Value.transport, string] at hx
      exact ⟨s :: ss, rfl⟩
    · rintro ⟨ss, hss⟩
      cases ss with
      | nil => exact absurd hss (by simp)
      | cons s ss =>
        rw [List.map_cons] at hss
        obtain ⟨rfl, rfl⟩ := List.cons.inj hss
        exact ⟨rfl, ss, rfl⟩

theorem array_string_transport_isSome {v : Value} :
    (array string v.transport).isSome ↔ ∃ ss : List String, v = .arr (ss.map Value.str) := by
  cases v with
  | arr xs =>
    rw [Value.transport]
    show ((Value.transportElements xs).mapM string).isSome ↔ _
    rw [mapM_string_transport_isSome]
    simp
  | num n => cases n <;> simp [Value.transport, array]
  | _ => simp [Value.transport, array]

theorem boolean_transport_isSome {v : Value} :
    (boolean v.transport).isSome ↔ ∃ b, v = .bool b := by
  cases v with
  | num n => cases n <;> simp [Value.transport, boolean]
  | _ => simp [Value.transport, boolean]

theorem positiveInt_int_isSome {n : ℕ} :
    (positiveInt (.int n)).isSome ↔ 0 < n ∧ (n : ℤ) ≤ JsNumber.maxSafeInteger := by
  constructor
  · intro h
    obtain ⟨k, hk⟩ := Option.isSome_iff_exists.mp h
    have hsafe : ((JsNumber.ofInt n).toSafeInt?).isSome := by
      obtain ⟨i, hi, -⟩ := Option.bind_eq_some_iff.mp hk
      exact Option.isSome_of_eq_some hi
    obtain ⟨hint, hpos⟩ := positiveInt_eq_some hk
    have hnk : n = k := by simpa [Value.int, JsNumber.ofInt] using hint
    refine ⟨hnk ▸ hpos, ?_⟩
    by_contra hbig
    simp [JsNumber.ofInt, JsNumber.toSafeInt?, hbig] at hsafe
  · rintro ⟨hpos, hmax⟩
    rw [positiveInt_int (by omega) hmax]
    rfl

/-- The numbers that `z.number().int().positive().max(hi)` accepts after transport. -/
theorem positiveIntMax_transport_isSome {hi : ℕ} (hhi : (hi : ℤ) ≤ JsNumber.maxSafeInteger)
    {n : JsNumber} : (positiveIntMax hi (Value.num n).transport).isSome ↔
      ∃ k : ℕ, n = .ofInt k ∧ 0 < k ∧ k ≤ hi := by
  constructor
  · intro h
    cases n with
    | fin =>
      obtain ⟨k, hk⟩ := Option.isSome_iff_exists.mp h
      obtain ⟨hint, hpos, hle⟩ := positiveIntMax_eq_some hk
      exact ⟨k, Value.num.inj hint, hpos, hle⟩
    | _ => simp [Value.transport, positiveIntMax, positiveInt] at h
  · rintro ⟨k, rfl, hpos, hle⟩
    show (positiveIntMax hi (Value.int k)).isSome
    have hsafe : (k : ℤ) ≤ JsNumber.maxSafeInteger := le_trans (by omega) hhi
    obtain ⟨j, hj⟩ := Option.isSome_iff_exists.mp (positiveInt_int_isSome.mpr ⟨hpos, hsafe⟩)
    have hkj : k = j := by
      have := (positiveInt_eq_some hj).1
      simpa [Value.int, JsNumber.ofInt] using this
    simp [positiveIntMax, hj, ← hkj, hle]

end Schema
