import Mathlib.Data.Rat.Defs
import Mathlib.Algebra.Order.Ring.Rat
import McpSshTool.Library.OrderedMap

/-!
# ECMAScript values

The values that cross the boundaries of the program: JSON documents, and `undefined`, which a JSON
document cannot hold but an object under construction can.

* `JsNumber` — numbers. A finite double is a rational; nothing modelled here rounds.
* `Value` — values, with the operations the source applies to values of unknown shape: member
  access, `??`, spread, `Number(..)`, `String(..)` and the trip through `JSON.stringify` and
  `JSON.parse`.
-/

open Library

/-- The numbers of ECMAScript. -/
inductive JsNumber where
  | nan
  | negInf
  | posInf
  | fin (q : ℚ)
deriving DecidableEq, Inhabited

namespace JsNumber

/-- `Math.min` of two numbers. -/
def min : JsNumber → JsNumber → JsNumber
  | nan, _ => nan
  | _, nan => nan
  | negInf, _ => negInf
  | _, negInf => negInf
  | posInf, n => n
  | n, posInf => n
  | fin p, fin q => fin (if p ≤ q then p else q)

/-- `Math.max` of two numbers. -/
def max : JsNumber → JsNumber → JsNumber
  | nan, _ => nan
  | _, nan => nan
  | posInf, _ => posInf
  | _, posInf => posInf
  | negInf, n => n
  | n, negInf => n
  | fin p, fin q => fin (if p ≤ q then q else p)

/-- The number an integer denotes. -/
def ofInt (i : ℤ) : JsNumber := fin i

/-- `Number.MAX_SAFE_INTEGER`. -/
def maxSafeInteger : ℤ := 9007199254740991

/-- The integer a number denotes, when it is a safe integer (`Number.isSafeInteger`). -/
def toSafeInt? : JsNumber → Option ℤ
  | fin q =>
    if q.den = 1 ∧ -maxSafeInteger ≤ q.num ∧ q.num ≤ maxSafeInteger then some q.num else none
  | _ => none

theorem toSafeInt?_ofInt {i : ℤ} (h₁ : -maxSafeInteger ≤ i) (h₂ : i ≤ maxSafeInteger) :
    (ofInt i).toSafeInt? = some i := by
  simp [ofInt, toSafeInt?, h₁, h₂]

theorem eq_ofInt_of_toSafeInt? {n : JsNumber} {i : ℤ} (h : n.toSafeInt? = some i) :
    n = ofInt i := by
  cases n with
  | fin q =>
    simp only [toSafeInt?] at h
    split at h
    · next hq =>
      obtain rfl := Option.some.inj h
      rw [ofInt, Rat.den_eq_one_iff q |>.mp hq.1]
    · simp at h
  | _ => simp [toSafeInt?] at h

end JsNumber

/-- The values of ECMAScript that are data. An object lists its own members in order. -/
inductive Value where
  | undefined
  | null
  | bool (b : Bool)
  | num (n : JsNumber)
  | str (s : String)
  | arr (xs : List Value)
  | obj (fields : List (String × Value))
deriving Inhabited

/-- The members of an object. -/
abbrev Fields := List (String × Value)

/-- The conversions between numbers and their decimal text, `Number(s)` and `String(n)`. -/
structure NumberText where
  parse : String → JsNumber
  render : JsNumber → String

namespace Value

/-- The value of an integer. -/
def int (i : ℤ) : Value := .num (.ofInt i)

/-- Member access on a value that may not be an object; an absent member reads as `undefined`. -/
def member (v : Value) (k : String) : Value :=
  match v with
  | obj fs => (OrderedMap.find? fs k).getD undefined
  | _ => undefined

theorem member_obj (fs : Fields) (k : String) :
    (obj fs).member k = (OrderedMap.find? fs k).getD undefined := rfl

/-- `v === undefined`. -/
def isUndefined : Value → Bool
  | undefined => true
  | _ => false

/-- `v ?? w`. -/
def orElse (v w : Value) : Value :=
  match v with
  | undefined => w
  | null => w
  | v => v

/-- Whether a condition takes the value for true. -/
def truthy : Value → Bool
  | undefined => false
  | null => false
  | bool b => b
  | num n => n ≠ .nan ∧ n ≠ .fin 0
  | str s => s ≠ ""
  | arr _ => true
  | obj _ => true

/-- `isRecord`: an object that is neither `null` nor an array. -/
def isRecord : Value → Bool
  | obj _ => true
  | _ => false

/-- `asString`: the string, if the value is one. -/
def asString : Value → Option String
  | str s => some s
  | _ => none

/-- The own enumerable members that a spread copies. -/
def ownMembers : Value → Fields
  | obj fs => fs
  | arr xs => xs.zipIdx.map fun x => (toString x.2, x.1)
  | str s => s.toList.zipIdx.map fun x => (toString x.2, str (String.singleton x.1))
  | _ => []

/-- `{ ...base, ...v }`. -/
def spread (base : Fields) (v : Value) : Fields :=
  v.ownMembers.foldl (fun fs e => OrderedMap.setList fs e.1 e.2) base

mutual

/-- No object, at any depth, lists a member twice; `JSON.parse` yields nothing else. -/
def WellKeyed : Value → Prop
  | arr xs => WellKeyedElements xs
  | obj fs => (fs.map Prod.fst).Nodup ∧ WellKeyedMembers fs
  | _ => True

def WellKeyedElements : List Value → Prop
  | [] => True
  | x :: xs => WellKeyed x ∧ WellKeyedElements xs

def WellKeyedMembers : Fields → Prop
  | [] => True
  | (_, v) :: fs => WellKeyed v ∧ WellKeyedMembers fs

end

theorem wellKeyedMembers_iff {fs : Fields} :
    WellKeyedMembers fs ↔ ∀ e ∈ fs, WellKeyed e.2 := by
  induction fs with
  | nil => simp [WellKeyedMembers]
  | cons e fs ih => simp [WellKeyedMembers, ih]

theorem WellKeyed.member {v : Value} (h : v.WellKeyed) (k : String) : (v.member k).WellKeyed := by
  cases v with
  | obj fs =>
    rw [WellKeyed] at h
    rw [member_obj]
    cases hk : OrderedMap.find? fs k with
    | none => exact trivial
    | some => exact wellKeyedMembers_iff.mp h.2 _ (OrderedMap.mem_of_find?_eq_some hk)
  | _ => exact trivial

mutual

/-- No `undefined`, at any depth; `JSON.parse` yields nothing else. -/
def Defined : Value → Prop
  | undefined => False
  | arr xs => DefinedElements xs
  | obj fs => DefinedMembers fs
  | _ => True

def DefinedElements : List Value → Prop
  | [] => True
  | x :: xs => Defined x ∧ DefinedElements xs

def DefinedMembers : Fields → Prop
  | [] => True
  | (_, v) :: fs => Defined v ∧ DefinedMembers fs

end

theorem definedMembers_iff {fs : Fields} : DefinedMembers fs ↔ ∀ e ∈ fs, Defined e.2 := by
  induction fs with
  | nil => simp [DefinedMembers]
  | cons e fs ih => simp [DefinedMembers, ih]

/-- What `JSON.parse` yields. -/
structure IsJson (v : Value) : Prop where
  wellKeyed : v.WellKeyed
  defined : v.Defined

theorem wellKeyedElements_iff {xs : List Value} :
    WellKeyedElements xs ↔ ∀ x ∈ xs, WellKeyed x := by
  induction xs with
  | nil => simp [WellKeyedElements]
  | cons x xs ih => simp [WellKeyedElements, ih]

theorem definedElements_iff {xs : List Value} : DefinedElements xs ↔ ∀ x ∈ xs, Defined x := by
  induction xs with
  | nil => simp [DefinedElements]
  | cons x xs ih => simp [DefinedElements, ih]

/-- An object is JSON when its keys are distinct and its members are. -/
theorem isJson_obj {fs : Fields} :
    (obj fs).IsJson ↔ (fs.map Prod.fst).Nodup ∧ ∀ e ∈ fs, e.2.IsJson := by
  constructor
  · rintro ⟨hkeyed, hdefined⟩
    rw [WellKeyed] at hkeyed
    rw [Defined] at hdefined
    exact ⟨hkeyed.1, fun e he => ⟨wellKeyedMembers_iff.mp hkeyed.2 e he,
      definedMembers_iff.mp hdefined e he⟩⟩
  · rintro ⟨hnodup, hmembers⟩
    refine ⟨?_, ?_⟩
    · rw [WellKeyed]
      exact ⟨hnodup, wellKeyedMembers_iff.mpr fun e he => (hmembers e he).wellKeyed⟩
    · rw [Defined]
      exact definedMembers_iff.mpr fun e he => (hmembers e he).defined

/-- The own members of a JSON value are JSON. -/
theorem IsJson.ownMembers {v : Value} (h : v.IsJson) : ∀ e ∈ v.ownMembers, e.2.IsJson := by
  cases v with
  | obj => exact (isJson_obj.mp h).2
  | arr xs =>
    intro e he
    obtain ⟨p, hp, rfl⟩ := List.mem_map.mp he
    have hmem : p.1 ∈ xs := List.fst_mem_of_mem_zipIdx hp
    have hkeyed := h.wellKeyed
    have hdefined := h.defined
    rw [WellKeyed] at hkeyed
    rw [Defined] at hdefined
    exact ⟨wellKeyedElements_iff.mp hkeyed _ hmem, definedElements_iff.mp hdefined _ hmem⟩
  | str =>
    intro e he
    obtain ⟨p, -, rfl⟩ := List.mem_map.mp he
    exact ⟨trivial, trivial⟩
  | _ => exact fun e he => absurd he List.not_mem_nil

/-! ### Spread -/

theorem spread_obj (base fs : Fields) :
    spread base (obj fs) = fs.foldl (fun fs e => OrderedMap.setList fs e.1 e.2) base := rfl

theorem nodup_spread {base : Fields} (h : (base.map Prod.fst).Nodup) (v : Value) :
    ((spread base v).map Prod.fst).Nodup := by
  unfold spread
  induction v.ownMembers generalizing base with
  | nil => exact h
  | cons e fs ih => exact ih (OrderedMap.nodup_setList h e.1 e.2)

theorem mem_keys_spread {base : Fields} {v : Value} {k : String} :
    k ∈ (spread base v).map Prod.fst ↔
      k ∈ base.map Prod.fst ∨ k ∈ v.ownMembers.map Prod.fst := by
  unfold spread
  induction v.ownMembers generalizing base with
  | nil => simp
  | cons e fs ih =>
    rw [List.foldl_cons, ih, OrderedMap.mem_keys_setList, List.map_cons, List.mem_cons]
    tauto

/-- A spread adds only what it spreads. -/
theorem mem_spread {base : Fields} {v : Value} {e : String × Value} (h : e ∈ spread base v) :
    e ∈ base ∨ e ∈ v.ownMembers := by
  unfold spread at h
  generalize v.ownMembers = members at h ⊢
  induction members generalizing base with
  | nil => exact .inl h
  | cons e' fs ih =>
    rw [List.foldl_cons] at h
    rcases ih h with h' | h'
    · rcases OrderedMap.mem_setList h' with rfl | h''
      · exact .inr List.mem_cons_self
      · exact .inl h''
    · exact .inr (List.mem_cons_of_mem _ h')

theorem isJson_spread {base : Fields} {v : Value} (hbase : (obj base).IsJson)
    (hv : ∀ e ∈ v.ownMembers, e.2.IsJson) : (obj (spread base v)).IsJson := by
  obtain ⟨hnodup, hmembers⟩ := isJson_obj.mp hbase
  refine isJson_obj.mpr ⟨nodup_spread hnodup v, fun e he => ?_⟩
  rcases mem_spread he with h | h
  · exact hmembers e h
  · exact hv e h

/-- The object spread last decides. -/
theorem find?_spread_obj (base : Fields) {fs : Fields} (h : (fs.map Prod.fst).Nodup) (k : String) :
    OrderedMap.find? (spread base (obj fs)) k =
      (OrderedMap.find? fs k).or (OrderedMap.find? base k) := by
  rw [spread_obj]
  induction fs generalizing base with
  | nil => rfl
  | cons e fs ih =>
    rw [List.map_cons, List.nodup_cons] at h
    rw [List.foldl_cons, ih _ h.2, OrderedMap.find?_setList, OrderedMap.find?_cons]
    by_cases hk : e.1 = k
    · subst hk
      rw [OrderedMap.find?_eq_none.mpr h.1]
      simp
    · simp [hk, Ne.symm hk]

/-! ### Conversions -/

mutual

/-- `String(v)`; `none` where the conversion throws, which an object with a member `toString` makes
it do: data is never callable, and `valueOf` returns the object. -/
def toText (nt : NumberText) : Value → Option String
  | undefined => some "undefined"
  | null => some "null"
  | bool b => some (toString b)
  | num n => some (nt.render n)
  | str s => some s
  | arr xs => (elementTexts nt xs).map fun ts => ",".intercalate ts
  | obj fs => if (OrderedMap.find? fs "toString").isSome then none else some "[object Object]"

/-- The texts that `Array.prototype.join` joins: empty for `undefined` and `null`. -/
def elementTexts (nt : NumberText) : List Value → Option (List String)
  | [] => some []
  | x :: xs => do
    let t ← match x with
      | undefined => some ""
      | null => some ""
      | x => toText nt x
    let ts ← elementTexts nt xs
    return t :: ts

end

/-- `Number(v)`; `none` where the conversion throws. -/
def toNumber (nt : NumberText) : Value → Option JsNumber
  | undefined => some .nan
  | null => some (.fin 0)
  | bool b => some (.fin (if b then 1 else 0))
  | num n => some n
  | str s => some (nt.parse s)
  | arr xs => (toText nt (arr xs)).map nt.parse
  | obj fs => if (OrderedMap.find? fs "toString").isSome then none else some .nan

/-! ### The trip through `JSON.stringify` and `JSON.parse` -/

mutual

/-- The value that `JSON.parse(JSON.stringify(v))` yields: `undefined` members are dropped,
`undefined` elements and numbers that are not finite become `null`. -/
def transport : Value → Value
  | num .nan => null
  | num .negInf => null
  | num .posInf => null
  | arr xs => arr (transportElements xs)
  | obj fs => obj (transportMembers fs)
  | v => v

def transportElements : List Value → List Value
  | [] => []
  | undefined :: xs => null :: transportElements xs
  | x :: xs => transport x :: transportElements xs

def transportMembers : Fields → Fields
  | [] => []
  | (_, undefined) :: fs => transportMembers fs
  | (k, v) :: fs => (k, transport v) :: transportMembers fs

end

theorem transportMembers_cons (k : String) (v : Value) (fs : Fields) :
    transportMembers ((k, v) :: fs) =
      if v.isUndefined then transportMembers fs
      else (k, transport v) :: transportMembers fs := by
  cases v <;> simp [transportMembers, isUndefined]

theorem keys_transportMembers {fs : Fields} (h : ∀ e ∈ fs, e.2.isUndefined = false) :
    (transportMembers fs).map Prod.fst = fs.map Prod.fst := by
  induction fs with
  | nil => rfl
  | cons e fs ih =>
    obtain ⟨k, v⟩ := e
    rw [List.forall_mem_cons] at h
    rw [transportMembers_cons, h.1, if_neg (by simp), List.map_cons, List.map_cons, ih h.2]

theorem keys_transportMembers_sublist (fs : Fields) :
    ((transportMembers fs).map Prod.fst).Sublist (fs.map Prod.fst) := by
  induction fs with
  | nil => exact List.Sublist.refl _
  | cons e fs ih =>
    obtain ⟨k, v⟩ := e
    rw [transportMembers_cons]
    split
    · exact ih.cons _
    · exact ih.cons_cons k

/-- The trip acts on each member by itself. -/
theorem member_transport_of_nodup {fs : Fields} (h : (fs.map Prod.fst).Nodup) (k : String) :
    (transport (obj fs)).member k = transport ((obj fs).member k) := by
  rw [transport, member_obj, member_obj]
  induction fs with
  | nil => rfl
  | cons e fs ih =>
    obtain ⟨k', v⟩ := e
    rw [List.map_cons, List.nodup_cons] at h
    rw [transportMembers_cons, OrderedMap.find?_cons]
    by_cases hv : v.isUndefined = true
    · -- a dropped member reads as `undefined`, as it did before
      rw [if_pos hv, ih h.2]
      by_cases hk : k' = k
      · subst hk
        rw [OrderedMap.find?_eq_none.mpr h.1]
        cases v with
        | undefined => simp
        | _ => simp [isUndefined] at hv
      · simp [hk]
    · rw [if_neg hv, OrderedMap.find?_cons]
      by_cases hk : k' = k
      · simp [hk]
      · simpa [hk] using ih h.2

theorem member_transport {fs : Fields} (h : ∀ e ∈ fs, e.2.isUndefined = false) (k : String) :
    (transport (obj fs)).member k = transport ((obj fs).member k) := by
  rw [transport, member_obj, member_obj]
  induction fs with
  | nil => rfl
  | cons e fs ih =>
    obtain ⟨k', v⟩ := e
    rw [List.forall_mem_cons] at h
    rw [transportMembers_cons, h.1, if_neg (by simp), OrderedMap.find?_cons, OrderedMap.find?_cons]
    by_cases hk : k' = k
    · simp [hk]
    · simpa [hk] using ih h.2

theorem isUndefined_eq_false_of_defined {v : Value} (h : v.Defined) : v.isUndefined = false := by
  cases v with
  | undefined => exact absurd h (by simp [Defined])
  | _ => rfl

@[simp] theorem isUndefined_transport (v : Value) : v.transport.isUndefined = v.isUndefined := by
  cases v with
  | num n => cases n <;> rfl
  | _ => rfl

theorem transportElements_cons (x : Value) (xs : List Value) :
    transportElements (x :: xs) =
      (if x.isUndefined then null else transport x) :: transportElements xs := by
  cases x <;> simp [transportElements, isUndefined]

mutual

theorem transport_transport : ∀ v : Value, v.transport.transport = v.transport
  | undefined => rfl
  | null => rfl
  | bool _ => rfl
  | num n => by cases n <;> rfl
  | str _ => rfl
  | arr xs => by rw [transport, transport, transportElements_transportElements xs]
  | obj fs => by rw [transport, transport, transportMembers_transportMembers fs]

theorem transportElements_transportElements :
    ∀ xs, transportElements (transportElements xs) = transportElements xs
  | [] => rfl
  | x :: xs => by
    rw [transportElements_cons, transportElements_cons, transportElements_transportElements xs]
    by_cases hx : x.isUndefined = true
    · rw [if_pos hx]
      rfl
    · rw [if_neg hx, isUndefined_transport, if_neg hx, transport_transport x]

theorem transportMembers_transportMembers :
    ∀ fs, transportMembers (transportMembers fs) = transportMembers fs
  | [] => rfl
  | (k, v) :: fs => by
    rw [transportMembers_cons]
    by_cases hv : v.isUndefined = true
    · rw [if_pos hv, transportMembers_transportMembers fs]
    · rw [if_neg hv, transportMembers_cons, isUndefined_transport, if_neg hv, transport_transport v,
        transportMembers_transportMembers fs]

end

mutual

/-- The trip lists no member twice. -/
theorem wellKeyed_transport : ∀ {v : Value}, v.WellKeyed → v.transport.WellKeyed
  | undefined, _ => trivial
  | null, _ => trivial
  | bool _, _ => trivial
  | num n, _ => by cases n <;> exact trivial
  | str _, _ => trivial
  | arr xs, h => by
    rw [WellKeyed] at h
    rw [transport, WellKeyed]
    exact wellKeyedElements_transport h
  | obj fs, h => by
    rw [WellKeyed] at h
    rw [transport, WellKeyed]
    exact ⟨h.1.sublist (keys_transportMembers_sublist fs), wellKeyedMembers_transport h.2⟩

theorem wellKeyedElements_transport :
    ∀ {xs : List Value}, WellKeyedElements xs → WellKeyedElements (transportElements xs)
  | [], _ => trivial
  | x :: xs, h => by
    rw [transportElements_cons]
    refine ⟨?_, wellKeyedElements_transport h.2⟩
    split
    · exact trivial
    · exact wellKeyed_transport h.1

theorem wellKeyedMembers_transport :
    ∀ {fs : Fields}, WellKeyedMembers fs → WellKeyedMembers (transportMembers fs)
  | [], _ => trivial
  | (k, v) :: fs, h => by
    rw [transportMembers_cons]
    split
    · exact wellKeyedMembers_transport h.2
    · exact ⟨wellKeyed_transport h.1, wellKeyedMembers_transport h.2⟩

end

end Value
