import McpSshTool.Js.SameJson
import McpSshTool.Js.Utf8
import McpSshTool.Library.SelfDelimiting
import McpSshTool.Remote.Crypto

/-!
# Canonical JSON is canonical

`canonicalJson` writes the same text for two JSON values exactly when they are one value up to the
order of keys and members that are `undefined`. So a signature covers the whole envelope: an honest
one verifies after the trip through JSON, and no field but the signature can be changed under it.

The text of a value shows where it ends when a comma or a closing bracket follows
(`readApart_canonicalJson`), which is why arrays and objects can be read back from theirs.
-/

open Library

namespace Remote

/-- What the texts of numbers are known to be: distinct for distinct numbers, and numerals. -/
structure PlainNumerals (nt : NumberText) : Prop where
  injective : ∀ p q : ℚ, nt.render (.fin p) = nt.render (.fin q) → p = q
  ne_empty : ∀ q : ℚ, nt.render (.fin q) ≠ ""
  numeral : ∀ q : ℚ, ∀ c ∈ (nt.render (.fin q)).toList, c.isDigit = true ∨ c ∈ ['-', '+', '.', 'e']

/-- The bytes that are signed: `Buffer.from(canonicalJson(unsigned))`. -/
def signedBytes (platform : Platform) (envelope : Fields) : List UInt8 :=
  Utf8.encode (canonicalJson platform.numberText (.obj (unsigned envelope)))

/-! ### Values of one canonical text -/

theorem canonicalElements_congr (nt : NumberText) {xs ys : List Value}
    (hlength : xs.length = ys.length)
    (h : ∀ (i : ℕ) (x y : Value), xs[i]? = some x → ys[i]? = some y →
      canonicalJson nt x = canonicalJson nt y) :
    canonicalElements nt xs = canonicalElements nt ys := by
  induction xs generalizing ys with
  | nil =>
    cases ys with
    | nil => rfl
    | cons => cases hlength
  | cons x xs ih =>
    cases ys with
    | nil => cases hlength
    | cons y =>
      rw [canonicalElements, canonicalElements, h 0 x y rfl rfl,
        ih (Nat.succ.inj hlength) fun i => h (i + 1)]

/-- **One JSON value has one canonical text.** -/
theorem canonicalJson_congr (nt : NumberText) {v w : Value} (h : v.SameJson w)
    (hv : v = .undefined ∨ v.Serialisable) (hw : w = .undefined ∨ w.Serialisable) :
    canonicalJson nt v = canonicalJson nt w := by
  induction h with
  | undefined => rfl
  | null => rfl
  | bool => rfl
  | num => rfl
  | str => rfl
  | arr hlength helements ih =>
    have hxs := Value.serialisableElements_iff.mp (hv.resolve_left Value.noConfusion)
    have hys := Value.serialisableElements_iff.mp (hw.resolve_left Value.noConfusion)
    rw [canonicalJson, canonicalJson]
    refine congrArg (fun ts => "[" ++ ",".intercalate ts ++ "]") ?_
    refine canonicalElements_congr nt hlength fun i x y hx hy => ih i x y hx hy ?_ ?_
    · exact .inr (hxs x (List.mem_of_getElem? hx))
    · exact .inr (hys y (List.mem_of_getElem? hy))
  | obj hmembers ih =>
    have hfs := hv.resolve_left Value.noConfusion
    have hgs := hw.resolve_left Value.noConfusion
    refine canonicalJson_obj_congr nt (Value.serialisable_obj.mp hfs).1
      (Value.serialisable_obj.mp hgs).1 fun k => ?_
    rw [memberText_eq_member, memberText_eq_member, (hmembers k).isUndefined_eq,
      ih k (hfs.member k) (hgs.member k)]

/-! ### The text of a value -/

/-- The symbols that may follow a value. -/
def AfterValue (c : Char) : Prop := c ∈ [',', ']', '\x7d']

theorem afterValue_comma : AfterValue ',' := by simp [AfterValue]

theorem afterValue_bracket : AfterValue ']' := by simp [AfterValue]

theorem afterValue_brace : AfterValue '\x7d' := by simp [AfterValue]

/-- The characters of the text of a value. -/
def chars (nt : NumberText) (v : Value) : List Char := (canonicalJson nt v).toList

/-- The constructor of a value, numbered. -/
def kind : Value → ℕ
  | .undefined => 0
  | .null => 1
  | .bool _ => 2
  | .num _ => 3
  | .str _ => 4
  | .arr _ => 5
  | .obj _ => 6

/-- The kind of value that a text beginning with the character is of. -/
def kindOf (c : Char) : ℕ :=
  if c = 'n' then 1
  else if c = 't' ∨ c = 'f' then 2
  else if c = '"' then 4
  else if c = '[' then 5
  else if c = '\x7b' then 6
  else 3

theorem kindOf_numeral {c : Char} (h : c.isDigit = true ∨ c ∈ ['-', '+', '.', 'e']) :
    kindOf c = 3 := by
  have hne : ∀ d ∈ ['n', 't', 'f', '"', '[', '\x7b'], c ≠ d := by
    rintro d hd rfl
    revert h
    simp only [List.mem_cons, List.not_mem_nil, or_false] at hd
    rcases hd with rfl | rfl | rfl | rfl | rfl | rfl <;> decide
  simp only [List.mem_cons, List.not_mem_nil, or_false, forall_eq_or_imp, forall_eq] at hne
  obtain ⟨h₁, h₂, h₃, h₄, h₅, h₆⟩ := hne
  simp [kindOf, h₁, h₂, h₃, h₄, h₅, h₆]

theorem not_afterValue_numeral {c : Char} (h : c.isDigit = true ∨ c ∈ ['-', '+', '.', 'e']) :
    ¬AfterValue c := by
  intro hc
  revert h
  simp only [AfterValue, List.mem_cons, List.not_mem_nil, or_false] at hc
  rcases hc with rfl | rfl | rfl <;> decide

theorem chars_arr (nt : NumberText) (xs : List Value) :
    chars nt (.arr xs) =
      '[' :: ([','].intercalate ((canonicalElements nt xs).map String.toList) ++ [']']) := by
  rw [chars, canonicalJson, String.toList_append, String.toList_append, String.toList_intercalate]
  rfl

/-- A member of an object as it is written. -/
def memberChars (m : String × String) : List Char :=
  (JsText.quote m.1).toList ++ ':' :: m.2.toList

/-- The members in the order they are written. -/
def sortedMembers (nt : NumberText) (fs : Fields) : List (String × String) :=
  (canonicalMembers nt fs).insertionSort fun a b => JsText.le a.1 b.1

theorem chars_obj (nt : NumberText) (fs : Fields) :
    chars nt (.obj fs) =
      '\x7b' :: ([','].intercalate ((sortedMembers nt fs).map memberChars) ++ ['\x7d']) := by
  rw [chars, canonicalJson, renderMembers, String.toList_append, String.toList_append,
    String.toList_intercalate, List.map_map]
  have hmember : (String.toList ∘ fun m : String × String => JsText.quote m.1 ++ ":" ++ m.2) =
      memberChars := by
    funext m
    rw [Function.comp_apply, String.toList_append, String.toList_append, memberChars,
      List.append_assoc]
    rfl
  rw [hmember]
  rfl

theorem memberChars_injective : Function.Injective memberChars := by
  intro m m' h
  obtain ⟨hkey, htext⟩ := JsText.quote_append_inj h
  exact Prod.ext hkey (String.toList_inj.mp (List.cons.inj htext).2)

/-- The text of a value begins with a character that tells its kind. -/
theorem chars_eq_cons {nt : NumberText} (hnt : PlainNumerals nt) {v : Value} (h : v.Serialisable) :
    ∃ c rest, chars nt v = c :: rest ∧ kindOf c = kind v := by
  cases v with
  | undefined => exact absurd h (by simp [Value.Serialisable])
  | null =>
    refine ⟨'n', ['u', 'l', 'l'], ?_, rfl⟩
    rw [chars, canonicalJson]
    decide
  | bool b =>
    have htext : chars nt (.bool b) = (toString b).toList := by rw [chars, canonicalJson]
    rw [htext]
    cases b with
    | false => exact ⟨'f', ['a', 'l', 's', 'e'], by decide, rfl⟩
    | true => exact ⟨'t', ['r', 'u', 'e'], by decide, rfl⟩
  | num =>
    obtain ⟨q, rfl⟩ := h
    cases htext : (nt.render (.fin q)).toList with
    | nil => exact absurd (String.toList_inj.mp htext) (hnt.ne_empty q)
    | cons c rest =>
      refine ⟨c, rest, htext, kindOf_numeral (hnt.numeral q c ?_)⟩
      rw [htext]
      exact List.mem_cons_self
  | str s => exact ⟨'"', _, JsText.toList_quote s, rfl⟩
  | arr xs => exact ⟨'[', _, chars_arr nt xs, rfl⟩
  | obj fs => exact ⟨'\x7b', _, chars_obj nt fs, rfl⟩

/-- No value begins like the end of an array. -/
theorem chars_ne_close {nt : NumberText} (hnt : PlainNumerals nt) {v : Value}
    (h : v.Serialisable) : ∃ c rest, chars nt v = c :: rest ∧ c ≠ ']' := by
  obtain ⟨c, rest, hchars, hkind⟩ := chars_eq_cons hnt h
  refine ⟨c, rest, hchars, ?_⟩
  rintro rfl
  cases v with
  | num =>
    -- a numeral is no closing bracket
    obtain ⟨q, rfl⟩ := h
    have hmem : ']' ∈ (nt.render (.fin q)).toList := by
      rw [show (nt.render (.fin q)).toList = _ from hchars]
      exact List.mem_cons_self
    exact absurd (hnt.numeral q _ hmem) (by decide)
  | undefined => exact absurd h (by simp [Value.Serialisable])
  | _ => simp [kindOf, kind] at hkind

/-! ### Reading a value back -/

/-- A reader tells the two values apart, and equal texts mean one value. -/
structure Reads (nt : NumberText) (v w : Value) : Prop where
  apart : ReadApart AfterValue (chars nt v) (chars nt w)
  same : canonicalJson nt v = canonicalJson nt w → v.SameJson w

theorem reads_of_kind_ne {nt : NumberText} (hnt : PlainNumerals nt) {v w : Value}
    (hv : v.Serialisable) (hw : w.Serialisable) (h : kind v ≠ kind w) : Reads nt v w := by
  obtain ⟨c, rest, hc, hkind⟩ := chars_eq_cons hnt hv
  obtain ⟨d, rest', hd, hkind'⟩ := chars_eq_cons hnt hw
  have hne : ∀ s t, chars nt v ++ s ≠ chars nt w ++ t := by
    intro s t heq
    rw [hc, hd, List.cons_append, List.cons_append, List.cons.injEq] at heq
    exact h (by rw [← hkind, ← hkind', heq.1])
  refine ⟨readApart_of_ne hne, fun htext => ?_⟩
  have hchars : chars nt v = chars nt w := congrArg String.toList htext
  exact absurd (by rw [hchars]) (hne [] [])

theorem reads_of_bool_ne {nt : NumberText} {b : Bool} : Reads nt (.bool b) (.bool !b) := by
  have htext : ∀ b', chars nt (.bool b') = (toString b').toList := fun b' => by
    rw [chars, canonicalJson]
  have hne : ∀ s t, chars nt (.bool b) ++ s ≠ chars nt (.bool !b) ++ t := by
    intro s t heq
    rw [htext, htext] at heq
    cases b with
    | false => exact absurd (List.cons.inj heq).1 (by decide)
    | true => exact absurd (List.cons.inj heq).1 (by decide)
  refine ⟨readApart_of_ne hne, fun h => ?_⟩
  have hchars : chars nt (.bool b) = chars nt (.bool !b) := congrArg String.toList h
  exact absurd (by rw [hchars]) (hne [] [])

theorem reads_num {nt : NumberText} (hnt : PlainNumerals nt) (p q : ℚ) :
    Reads nt (.num (.fin p)) (.num (.fin q)) := by
  refine ⟨readApart_of_forall (fun c hc => ?_) fun c hc => ?_, fun h => ?_⟩
  · exact not_afterValue_numeral (hnt.numeral p c hc)
  · exact not_afterValue_numeral (hnt.numeral q c hc)
  · obtain rfl := hnt.injective p q h
    exact .num _

theorem reads_str (nt : NumberText) (s t : String) : Reads nt (.str s) (.str t) := by
  constructor
  · intro u v _ _ heq
    obtain ⟨rfl, rfl⟩ := JsText.quote_append_inj heq
    exact ⟨rfl, rfl⟩
  · intro h
    have hquote : (JsText.quote s).toList ++ [] = (JsText.quote t).toList ++ [] := by
      rw [show JsText.quote s = JsText.quote t from h]
    obtain ⟨rfl, -⟩ := JsText.quote_append_inj hquote
    exact .str s

theorem length_canonicalElements (nt : NumberText) (xs : List Value) :
    (canonicalElements nt xs).length = xs.length := by
  induction xs with
  | nil => rfl
  | cons x xs ih => rw [canonicalElements, List.length_cons, List.length_cons, ih]

theorem getElem?_canonicalElements (nt : NumberText) (xs : List Value) (i : ℕ) :
    (canonicalElements nt xs)[i]? = xs[i]?.map (canonicalJson nt) := by
  induction xs generalizing i with
  | nil => rfl
  | cons x xs ih =>
    cases i with
    | zero => rfl
    | succ i => exact ih i

theorem mem_canonicalElements {nt : NumberText} {xs : List Value} {t : String}
    (h : t ∈ canonicalElements nt xs) : ∃ x ∈ xs, t = canonicalJson nt x := by
  obtain ⟨i, hi⟩ := List.mem_iff_getElem?.mp h
  rw [getElem?_canonicalElements, Option.map_eq_some_iff] at hi
  obtain ⟨x, hx, rfl⟩ := hi
  exact ⟨x, List.mem_of_getElem? hx, rfl⟩

/-- Arrays are read back element by element. -/
theorem reads_arr {nt : NumberText} (hnt : PlainNumerals nt) {xs ys : List Value}
    (hxs : ∀ x ∈ xs, x.Serialisable) (hys : ∀ y ∈ ys, y.Serialisable)
    (h : ∀ x ∈ xs, ∀ y ∈ ys, Reads nt x y) : Reads nt (.arr xs) (.arr ys) := by
  have hread : ∀ s t, chars nt (.arr xs) ++ s = chars nt (.arr ys) ++ t →
      canonicalElements nt xs = canonicalElements nt ys ∧ s = t := by
    intro s t heq
    rw [chars_arr, chars_arr, List.cons_append, List.cons_append, List.append_assoc,
      List.append_assoc] at heq
    have hopen : ∀ {zs : List Value}, (∀ z ∈ zs, z.Serialisable) →
        ∀ a ∈ (canonicalElements nt zs).map String.toList, ∃ c rest, a = c :: rest ∧ c ≠ ']' := by
      rintro zs hzs a ha
      obtain ⟨t, ht, rfl⟩ := List.mem_map.mp ha
      obtain ⟨z, hz, rfl⟩ := mem_canonicalElements ht
      exact chars_ne_close hnt (hzs z hz)
    have hseparated := separated_inj afterValue_comma afterValue_bracket (by decide) ?_ (hopen hxs)
      (hopen hys) (List.cons.inj heq).2
    · exact ⟨(List.map_inj_right fun _ _ => String.toList_inj.mp).mp hseparated.1, hseparated.2⟩
    · intro a ha b hb
      obtain ⟨t, ht, rfl⟩ := List.mem_map.mp ha
      obtain ⟨u, hu, rfl⟩ := List.mem_map.mp hb
      obtain ⟨x, hx, rfl⟩ := mem_canonicalElements ht
      obtain ⟨y, hy, rfl⟩ := mem_canonicalElements hu
      exact (h x hx y hy).apart
  constructor
  · intro s t _ _ heq
    obtain ⟨helements, rfl⟩ := hread s t heq
    refine ⟨?_, rfl⟩
    rw [chars_arr, chars_arr, helements]
  · intro htext
    have hchars : chars nt (.arr xs) = chars nt (.arr ys) := congrArg String.toList htext
    obtain ⟨helements, -⟩ := hread [] [] (by rw [hchars])
    have hlength := congrArg List.length helements
    rw [length_canonicalElements, length_canonicalElements] at hlength
    refine .arr hlength fun i x y hx hy => ?_
    refine (h x (List.mem_of_getElem? hx) y (List.mem_of_getElem? hy)).same ?_
    have hget := congrArg (·[i]?) helements
    simp only [getElem?_canonicalElements, hx, hy, Option.map_some, Option.some.injEq] at hget
    exact hget

theorem perm_sortedMembers (nt : NumberText) (fs : Fields) :
    (sortedMembers nt fs).Perm (canonicalMembers nt fs) :=
  List.perm_insertionSort _ _

/-- What is written for an object are the texts of members that are not `undefined`. -/
theorem mem_sortedMembers {nt : NumberText} {fs : Fields} {m : String × String}
    (h : m ∈ sortedMembers nt fs) :
    ∃ e ∈ fs, e.2 ≠ .undefined ∧ m = (e.1, canonicalJson nt e.2) := by
  have hmem : m ∈ canonicalMembers nt fs := (List.mem_insertionSort _).mp h
  clear h
  induction fs with
  | nil => cases hmem
  | cons e fs ih =>
    obtain ⟨k, v⟩ := e
    rw [canonicalMembers_cons] at hmem
    split at hmem
    · obtain ⟨e, he, hrest⟩ := ih hmem
      exact ⟨e, List.mem_cons_of_mem _ he, hrest⟩
    · next hv =>
      rcases List.mem_cons.mp hmem with rfl | hmem
      · refine ⟨(k, v), List.mem_cons_self, ?_, rfl⟩
        rintro rfl
        exact hv rfl
      · obtain ⟨e, he, hrest⟩ := ih hmem
        exact ⟨e, List.mem_cons_of_mem _ he, hrest⟩

/-- Objects are read back member by member, in the order of the keys. -/
theorem reads_obj {nt : NumberText} {fs gs : Fields} (hfs : (Value.obj fs).Serialisable)
    (hgs : (Value.obj gs).Serialisable)
    (h : ∀ e ∈ fs, e.2 ≠ .undefined → ∀ e' ∈ gs, e'.2 ≠ .undefined → Reads nt e.2 e'.2) :
    Reads nt (.obj fs) (.obj gs) := by
  have hread : ∀ s t, chars nt (.obj fs) ++ s = chars nt (.obj gs) ++ t →
      sortedMembers nt fs = sortedMembers nt gs ∧ s = t := by
    intro s t heq
    rw [chars_obj, chars_obj, List.cons_append, List.cons_append, List.append_assoc,
      List.append_assoc] at heq
    have hopen : ∀ {hs : Fields}, ∀ a ∈ (sortedMembers nt hs).map memberChars,
        ∃ c rest, a = c :: rest ∧ c ≠ '\x7d' := by
      rintro hs a ha
      obtain ⟨m, -, rfl⟩ := List.mem_map.mp ha
      rw [memberChars, JsText.toList_quote, List.cons_append]
      exact ⟨'"', _, rfl, by decide⟩
    have hseparated := separated_inj afterValue_comma afterValue_brace (by decide) ?_ hopen hopen
      (List.cons.inj heq).2
    · exact ⟨(List.map_inj_right fun _ _ heq => memberChars_injective heq).mp hseparated.1,
        hseparated.2⟩
    · intro a ha b hb u v hu hv heq
      obtain ⟨m, hm, rfl⟩ := List.mem_map.mp ha
      obtain ⟨m', hm', rfl⟩ := List.mem_map.mp hb
      obtain ⟨e, he, hdefined, rfl⟩ := mem_sortedMembers hm
      obtain ⟨e', he', hdefined', rfl⟩ := mem_sortedMembers hm'
      -- first the key, which ends by itself, then the value
      rw [memberChars, memberChars, List.append_assoc, List.append_assoc] at heq
      obtain ⟨hkey, hvalue⟩ := JsText.quote_append_inj heq
      obtain ⟨htext, rfl⟩ := (h e he hdefined e' he' hdefined').apart u v hu hv
        (List.cons.inj hvalue).2
      refine ⟨?_, rfl⟩
      rw [memberChars, memberChars]
      exact congrArg₂ (fun k t => (JsText.quote k).toList ++ ':' :: t) hkey htext
  constructor
  · intro s t _ _ heq
    obtain ⟨hmembers, rfl⟩ := hread s t heq
    refine ⟨?_, rfl⟩
    rw [chars_obj, chars_obj, hmembers]
  · intro htext
    have hchars : chars nt (.obj fs) = chars nt (.obj gs) := congrArg String.toList htext
    obtain ⟨hmembers, -⟩ := hread [] [] (by rw [hchars])
    have hperm : (canonicalMembers nt fs).Perm (canonicalMembers nt gs) := by
      refine (perm_sortedMembers nt fs).symm.trans ?_
      rw [hmembers]
      exact perm_sortedMembers nt gs
    refine .obj fun k => ?_
    have hkf := (Value.serialisable_obj.mp hfs).1
    have hkg := (Value.serialisable_obj.mp hgs).1
    have hmember : memberText nt fs k = memberText nt gs k := by
      rw [← find?_canonicalMembers nt hkf, ← find?_canonicalMembers nt hkg]
      exact OrderedMap.find?_perm (nodup_canonicalMembers nt hkf) hperm k
    rw [memberText_eq_member, memberText_eq_member] at hmember
    by_cases hv : ((Value.obj fs).member k).isUndefined = true
    · rw [if_pos hv] at hmember
      by_cases hw : ((Value.obj gs).member k).isUndefined = true
      · rw [Value.eq_undefined hv, Value.eq_undefined hw]
        exact .undefined
      · rw [if_neg hw] at hmember
        cases hmember
    · rw [if_neg hv] at hmember
      by_cases hw : ((Value.obj gs).member k).isUndefined = true
      · rw [if_pos hw] at hmember
        cases hmember
      · rw [if_neg hw] at hmember
        have hv' : (Value.obj fs).member k ≠ .undefined := fun h => hv (by rw [h]; rfl)
        have hw' : (Value.obj gs).member k ≠ .undefined := fun h => hw (by rw [h]; rfl)
        exact (h _ (Value.mem_of_member hv') hv' _ (Value.mem_of_member hw') hw').same
          (Option.some.inj hmember)

mutual

/-- **Every value is read back from its text.** -/
theorem reads {nt : NumberText} (hnt : PlainNumerals nt) :
    ∀ {v : Value}, v.Serialisable → ∀ {w : Value}, w.Serialisable → Reads nt v w
  | .undefined, hv, _, _ => absurd hv (by simp [Value.Serialisable])
  | .null, hv, w, hw => by
    cases w with
    | null => exact ⟨readApart_self _, fun _ => .null⟩
    | _ => exact reads_of_kind_ne hnt hv hw (by simp [kind])
  | .bool b, hv, w, hw => by
    cases w with
    | bool b' =>
      -- the two texts differ in their first character
      cases b <;> cases b'
      · exact ⟨readApart_self _, fun _ => .bool false⟩
      · exact reads_of_bool_ne
      · exact reads_of_bool_ne
      · exact ⟨readApart_self _, fun _ => .bool true⟩
    | _ => exact reads_of_kind_ne hnt hv hw (by simp [kind])
  | .num n, hv, w, hw => by
    cases w with
    | num =>
      obtain ⟨p, rfl⟩ := hv
      obtain ⟨q, rfl⟩ := hw
      exact reads_num hnt p q
    | _ => exact reads_of_kind_ne hnt hv hw (by simp [kind])
  | .str s, hv, w, hw => by
    cases w with
    | str t => exact reads_str nt s t
    | _ => exact reads_of_kind_ne hnt hv hw (by simp [kind])
  | .arr xs, hv, w, hw => by
    have hxs := hv
    rw [Value.Serialisable] at hxs
    cases w with
    | arr =>
      have hys := Value.serialisableElements_iff.mp hw
      exact reads_arr hnt (Value.serialisableElements_iff.mp hxs) hys fun x hx y hy =>
        readsElements hnt hxs x hx (hys y hy)
    | _ => exact reads_of_kind_ne hnt hv hw (by simp [kind])
  | .obj fs, hv, w, hw => by
    have hfs := hv
    rw [Value.Serialisable] at hfs
    cases w with
    | obj =>
      refine reads_obj hv hw fun e he hdefined e' he' hdefined' => ?_
      have hserialisable := ((Value.serialisable_obj.mp hw).2 e' he').resolve_left hdefined'
      exact readsMembers hnt hfs.2 e he hdefined hserialisable
    | _ => exact reads_of_kind_ne hnt hv hw (by simp [kind])

theorem readsElements {nt : NumberText} (hnt : PlainNumerals nt) :
    ∀ {xs : List Value}, Value.SerialisableElements xs → ∀ x ∈ xs, ∀ {y : Value},
      y.Serialisable → Reads nt x y
  | [], _, x, hx, _, _ => absurd hx List.not_mem_nil
  | x' :: xs, h, x, hx, y, hy => by
    rw [Value.SerialisableElements] at h
    rcases List.mem_cons.mp hx with heq | hx
    · rw [heq]
      exact reads hnt h.1 hy
    · exact readsElements hnt h.2 x hx hy

theorem readsMembers {nt : NumberText} (hnt : PlainNumerals nt) :
    ∀ {fs : Fields}, Value.SerialisableMembers fs → ∀ e ∈ fs, e.2 ≠ .undefined → ∀ {w : Value},
      w.Serialisable → Reads nt e.2 w
  | [], _, e, he, _, _, _ => absurd he List.not_mem_nil
  | (k, v) :: fs, h, e, he, hdefined, w, hw => by
    rw [Value.SerialisableMembers] at h
    rcases List.mem_cons.mp he with heq | he
    · rw [heq] at hdefined ⊢
      exact reads hnt (h.1.resolve_left hdefined) hw
    · exact readsMembers hnt h.2 e he hdefined hw

end

/-- **Canonical JSON is canonical.** -/
theorem canonicalJson_inj {nt : NumberText} (hnt : PlainNumerals nt) {v w : Value}
    (hv : v.Serialisable) (hw : w.Serialisable) :
    canonicalJson nt v = canonicalJson nt w ↔ v.SameJson w :=
  ⟨(reads hnt hv hw).same, fun h => canonicalJson_congr nt h (.inr hv) (.inr hw)⟩

/-! ### Envelopes -/

theorem serialisable_unsigned {fs : Fields} (h : (Value.obj fs).Serialisable) :
    (Value.obj (unsigned fs)).Serialisable := by
  obtain ⟨hnodup, hmembers⟩ := Value.serialisable_obj.mp h
  exact Value.serialisable_obj.mpr
    ⟨nodup_unsigned hnodup, fun e he => hmembers e (List.mem_of_mem_filter he)⟩

theorem member_unsigned {fs : Fields} (hfs : (fs.map Prod.fst).Nodup) {k : String}
    (hk : k ≠ "signature") : (Value.obj (unsigned fs)).member k = (Value.obj fs).member k := by
  rw [Value.member_obj, Value.member_obj, unsigned, OrderedMap.find?_filter fs hfs]
  cases OrderedMap.find? fs k <;> simp [hk, Option.filter]

/-- `{ ...envelope, signature: signEnvelope(envelope, privateKeyPem) }`. -/
def signed (platform : Platform) (envelope : Fields) (privateKeyPem : String) : Fields :=
  OrderedMap.setList envelope "signature" (.str (signEnvelope platform envelope privateKeyPem))

/-- **An honest envelope verifies** after the trip through JSON. -/
theorem verifyEnvelope_transport {platform : Platform} {publicKeyPem privateKeyPem : String}
    (hkeys : KeyPair platform publicKeyPem privateKeyPem) {envelope received : Fields}
    (henvelope : (Value.obj envelope).Serialisable) (hreceived : (Value.obj received).Serialisable)
    (hsame : (Value.obj (signed platform envelope privateKeyPem)).transport.SameJson
      (.obj received)) :
    verifyEnvelope platform received publicKeyPem = true := by
  have hsent : (Value.obj (signed platform envelope privateKeyPem)).Serialisable :=
    Value.serialisable_setList henvelope trivial
  have hnodup := (Value.serialisable_obj.mp hsent).1
  have hmember : ∀ k, ((Value.obj (signed platform envelope privateKeyPem)).member
    k).transport.SameJson
      ((Value.obj received).member k) := by
    rw [Value.transport] at hsame
    cases hsame with
    | obj hmembers =>
      intro k
      rw [← Value.member_transport_of_nodup hnodup k, Value.transport]
      exact hmembers k
  have hget : ∀ k, (Value.obj (signed platform envelope privateKeyPem)).member k =
      if k = "signature" then .str (signEnvelope platform envelope privateKeyPem)
      else (Value.obj envelope).member k := by
    intro k
    rw [Value.member_obj, signed, OrderedMap.find?_setList]
    by_cases hk : k = "signature"
    · rw [if_pos hk, if_pos hk]
      rfl
    · rw [if_neg hk, if_neg hk, Value.member_obj]
  refine verifyEnvelope_of_signed hkeys (Value.serialisable_obj.mp henvelope).1
    (Value.serialisable_obj.mp hreceived).1 (fun k hk => ?_) ?_
  · have hk' := hmember k
    rw [hget, if_neg hk] at hk'
    have hdefined := hk'.isUndefined_eq
    rw [Value.isUndefined_transport] at hdefined
    rw [memberText_eq_member, memberText_eq_member, hdefined]
    split
    · rfl
    · next hv =>
      -- what arrived has the text of what was sent
      rcases henvelope.member k with hnone | hser
      · rw [hnone] at hdefined
        exact absurd hdefined.symm hv
      · have hreceived' := (hreceived.member k).resolve_left fun h => hv (by rw [h]; rfl)
        rw [← canonicalJson_congr platform.numberText hk'
            (.inr (Value.serialisable_transport hser)) (.inr hreceived'),
          ← canonicalJson_congr platform.numberText (Value.sameJson_transport hser) (.inr hser)
            (.inr (Value.serialisable_transport hser))]
  · have hsignature := hmember "signature"
    rw [hget, if_pos rfl] at hsignature
    change (Value.str _).SameJson _ at hsignature
    generalize (Value.obj received).member "signature" = v at hsignature
    cases hsignature
    rfl

/-- **A changed field changes the signed bytes.** -/
theorem signedBytes_ne {platform : Platform} (hnt : PlainNumerals platform.numberText)
    {envelope changed : Fields} (henvelope : (Value.obj envelope).Serialisable)
    (hchanged : (Value.obj changed).Serialisable) {k : String} (hk : k ≠ "signature")
    (hdiffers : ¬((Value.obj envelope).member k).SameJson ((Value.obj changed).member k)) :
    signedBytes platform envelope ≠ signedBytes platform changed := by
  intro hbytes
  have htext := Utf8.encode_injective hbytes
  have hsame := (canonicalJson_inj hnt (serialisable_unsigned henvelope)
    (serialisable_unsigned hchanged)).mp htext
  cases hsame with
  | obj hmembers =>
    have hmember := hmembers k
    rw [member_unsigned (Value.serialisable_obj.mp henvelope).1 hk,
      member_unsigned (Value.serialisable_obj.mp hchanged).1 hk] at hmember
    exact hdiffers hmember

/-- **Canonical JSON is canonical**: a text stands for one JSON value, an honest envelope verifies
after the trip through JSON, and a change of any field but the signature changes what is signed. -/
theorem canonical_json {platform : Platform} (hnt : PlainNumerals platform.numberText)
    {publicKeyPem privateKeyPem : String} (hkeys : KeyPair platform publicKeyPem privateKeyPem) :
    (∀ v w : Value, v.Serialisable → w.Serialisable →
      (canonicalJson platform.numberText v = canonicalJson platform.numberText w ↔
        v.SameJson w)) ∧
    (∀ envelope received : Fields, (Value.obj envelope).Serialisable →
      (Value.obj received).Serialisable →
      (Value.obj (signed platform envelope privateKeyPem)).transport.SameJson (.obj received) →
      verifyEnvelope platform received publicKeyPem = true) ∧
    ∀ envelope changed : Fields, (Value.obj envelope).Serialisable →
      (Value.obj changed).Serialisable → ∀ k, k ≠ "signature" →
      ¬((Value.obj envelope).member k).SameJson ((Value.obj changed).member k) →
      signedBytes platform envelope ≠ signedBytes platform changed := by
  refine ⟨fun v w hv hw => ?_, fun envelope received henvelope hreceived hsame => ?_,
    fun envelope changed henvelope hchanged k hk hdiffers => ?_⟩
  · exact canonicalJson_inj hnt hv hw
  · exact verifyEnvelope_transport hkeys henvelope hreceived hsame
  · exact signedBytes_ne hnt henvelope hchanged hk hdiffers

/-! ### A platform to evaluate on -/

/-- Number texts: integers in decimal, other numbers by numerator and denominator. -/
def sampleNumberText : NumberText where
  parse _ := .nan
  render n := match n with
    | .fin q => if q.den = 1 then toString q.num else toString q.num ++ "e" ++ toString q.den
    | _ => "NaN"

theorem ne_e_of_int (i : ℤ) : ∀ c ∈ (toString i).toList, ¬c = 'e' := by
  rintro c hc rfl
  rcases JsText.digits_of_int i 'e' hc with hdigit | hminus
  · exact absurd hdigit (by decide)
  · exact absurd hminus (by decide)

theorem toString_int_injective {i j : ℤ} (h : toString i = toString j) : i = j := by
  have hsign : ∀ n m : ℕ, toString n ≠ "-" ++ toString m := by
    intro n m heq
    refine absurd (JsText.digits_of_nat n '-' ?_) (by decide)
    rw [heq, String.toList_append]
    exact List.mem_append_left _ (List.mem_singleton_self _)
  cases i with
  | ofNat n =>
    cases j with
    | ofNat => exact congrArg Int.ofNat (JsText.toString_nat_injective h)
    | negSucc m => exact absurd h (hsign n (m + 1))
  | negSucc n =>
    cases j with
    | ofNat m => exact absurd h.symm (hsign m (n + 1))
    | negSucc m =>
      have hlists : "-".toList ++ (toString (n + 1)).toList =
          "-".toList ++ (toString (m + 1)).toList := by
        rw [← String.toList_append, ← String.toList_append]
        exact congrArg String.toList h
      have hnat := JsText.toString_nat_injective (String.toList_inj.mp
        (List.append_cancel_left hlists))
      exact congrArg Int.negSucc (Nat.succ.inj hnat)

theorem toList_fraction (q : ℚ) :
    (toString q.num ++ "e" ++ toString q.den).toList =
      (toString q.num).toList ++ 'e' :: (toString q.den).toList := by
  rw [String.toList_append, String.toList_append, List.append_assoc]
  rfl

theorem plainNumerals_sample : PlainNumerals sampleNumberText where
  injective p q h := by
    have hrender : ∀ r : ℚ, sampleNumberText.render (.fin r) =
        if r.den = 1 then toString r.num else toString r.num ++ "e" ++ toString r.den :=
      fun _ => rfl
    have hmixed : ∀ r r' : ℚ, toString r.num ≠ toString r'.num ++ "e" ++ toString r'.den := by
      intro r r' heq
      refine ne_e_of_int r.num 'e' ?_ rfl
      rw [heq, toList_fraction]
      exact List.mem_append_right _ List.mem_cons_self
    rw [hrender, hrender] at h
    split_ifs at h with hp hq hq
    · exact Rat.ext (toString_int_injective h) (hp.trans hq.symm)
    · exact absurd h (hmixed p q)
    · exact absurd h.symm (hmixed q p)
    · have hlists := congrArg String.toList h
      rw [toList_fraction, toList_fraction] at hlists
      have hstops : ∀ rest, Stops (fun c => c = 'e') ('e' :: rest) := by
        intro rest c hc
        exact (Option.some.inj hc).symm
      obtain ⟨hnum, hden⟩ := readApart_of_forall (ne_e_of_int p.num) (ne_e_of_int q.num) _ _
        (hstops _) (hstops _) hlists
      exact Rat.ext (toString_int_injective (String.toList_inj.mp hnum))
        (JsText.toString_nat_injective (String.toList_inj.mp (List.cons.inj hden).2))
  ne_empty q h := by
    have hrender : sampleNumberText.render (.fin q) =
        if q.den = 1 then toString q.num else toString q.num ++ "e" ++ toString q.den := rfl
    rw [hrender] at h
    split at h
    · exact JsText.toString_int_ne_empty _ h
    · have hlist := congrArg String.toList h
      rw [toList_fraction] at hlist
      exact absurd hlist (List.append_ne_nil_of_right_ne_nil _ (List.cons_ne_nil _ _))
  numeral q c hc := by
    have hint : ∀ {c}, c ∈ (toString q.num).toList →
        c.isDigit = true ∨ c ∈ ['-', '+', '.', 'e'] := fun hc =>
      (JsText.digits_of_int q.num _ hc).imp_right fun hminus => by simp [hminus]
    have hrender : sampleNumberText.render (.fin q) =
        if q.den = 1 then toString q.num else toString q.num ++ "e" ++ toString q.den := rfl
    rw [hrender] at hc
    split at hc
    · exact hint hc
    · rw [toList_fraction] at hc
      rcases List.mem_append.mp hc with hnum | hrest
      · exact hint hnum
      · rcases List.mem_cons.mp hrest with rfl | hden
        · exact .inr (by simp)
        · exact .inl (JsText.digits_of_nat _ c hden)

/-- The sample platform with these number texts. -/
def numeralPlatform : Platform := { samplePlatform with numberText := sampleNumberText }

theorem keyPair_numeralPlatform (key : String) : KeyPair numeralPlatform key key :=
  ⟨(keyPair_samplePlatform key).verify_sign, (keyPair_samplePlatform key).sign_ne⟩

/-- An envelope with a nested object, and the same envelope with one nested field changed. -/
def sampleEnvelope (version : ℚ) : Fields :=
  [("type", .str "policy.update"), ("note", .undefined),
    ("policy", .obj [("version", .num (.fin version)), ("tools", .arr [.str "a", .null])])]

theorem serialisable_sampleEnvelope (version : ℚ) :
    (Value.obj (sampleEnvelope version)).Serialisable := by
  simp [sampleEnvelope, Value.Serialisable, Value.SerialisableMembers, Value.SerialisableElements]

theorem canonical_json_sampleEnvelope :
    (Value.obj (sampleEnvelope 2)).SameJson
      (.obj [("policy", .obj [("tools", .arr [.str "a", .null]), ("version", .num (.fin 2))]),
        ("type", .str "policy.update")]) ∧
    verifyEnvelope numeralPlatform
      (Value.transportMembers (signed numeralPlatform (sampleEnvelope 2) "k")) "k" = true ∧
    signedBytes numeralPlatform (sampleEnvelope 2) ≠
      signedBytes numeralPlatform (sampleEnvelope 3) := by
  have hkeys := keyPair_numeralPlatform "k"
  have hnt : PlainNumerals numeralPlatform.numberText := plainNumerals_sample
  obtain ⟨hcanonical, hverifies, hcovers⟩ := canonical_json hnt hkeys
  have hsent : (Value.obj (signed numeralPlatform (sampleEnvelope 2) "k")).Serialisable :=
    Value.serialisable_setList (serialisable_sampleEnvelope 2) trivial
  have hreceived := Value.serialisable_transport hsent
  refine ⟨?_, ?_, ?_⟩
  · refine (hcanonical _ _ (serialisable_sampleEnvelope 2) ?_).mp (by decide +kernel)
    simp [Value.Serialisable, Value.SerialisableMembers, Value.SerialisableElements]
  · rw [Value.transport] at hreceived
    refine hverifies _ _ (serialisable_sampleEnvelope 2) hreceived ?_
    rw [Value.transport]
    exact (hcanonical _ _ hreceived hreceived).mp rfl
  · refine hcovers _ _ (serialisable_sampleEnvelope 2) (serialisable_sampleEnvelope 3) "policy"
      (by decide) fun hsame => ?_
    have htext := (hcanonical ((Value.obj (sampleEnvelope 2)).member "policy")
      ((Value.obj (sampleEnvelope 3)).member "policy") ?_ ?_).mpr hsame
    · exact absurd htext (by decide +kernel)
    · refine ((serialisable_sampleEnvelope 2).member "policy").resolve_left fun hnone => ?_
      exact absurd (congrArg Value.isUndefined hnone) (by decide +kernel)
    · refine ((serialisable_sampleEnvelope 3).member "policy").resolve_left fun hnone => ?_
      exact absurd (congrArg Value.isUndefined hnone) (by decide +kernel)

end Remote
