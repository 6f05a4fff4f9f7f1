import Mathlib.Data.List.Lex
import Mathlib.Data.Char
import Mathlib.Data.Nat.Digits.Defs

/-!
# Strings as UTF-16 and as JSON text

ECMAScript measures and compares strings by their UTF-16 code units, where Lean strings are
sequences of code points. This module has the code units of a string, with the fact that they
determine it, and the quoting that `JSON.stringify` applies to a string.
-/

namespace JsText

/-- The UTF-16 code units of a code point. -/
def charUnits (c : Char) : List ℕ :=
  if c.toNat < 0x10000 then [c.toNat]
  else [0xD800 + (c.toNat - 0x10000) / 0x400, 0xDC00 + (c.toNat - 0x10000) % 0x400]

/-- The UTF-16 code units of a string. -/
def units (s : String) : List ℕ := s.toList.flatMap charUnits

def length (s : String) : ℕ := (units s).length

theorem toNat_valid (c : Char) : c.toNat < 0xD800 ∨ (0xDFFF < c.toNat ∧ c.toNat < 0x110000) :=
  c.valid

/-- The code units of code points form a prefix code. -/
theorem charUnits_append_inj {c d : Char} {l l' : List ℕ}
    (h : charUnits c ++ l = charUnits d ++ l') : c = d ∧ l = l' := by
  have hc := toNat_valid c
  have hd := toNat_valid d
  unfold charUnits at h
  by_cases h₁ : c.toNat < 0x10000
  · by_cases h₂ : d.toNat < 0x10000
    · rw [if_pos h₁, if_pos h₂] at h
      obtain ⟨hcd, rfl⟩ := List.cons.inj h
      exact ⟨Char.toNat_inj.mp hcd, rfl⟩
    · -- a lone unit below the surrogates against a leading surrogate
      rw [if_pos h₁, if_neg h₂] at h
      have := (List.cons.inj h).1
      omega
  · by_cases h₂ : d.toNat < 0x10000
    · rw [if_neg h₁, if_pos h₂] at h
      have := (List.cons.inj h).1
      omega
    · rw [if_neg h₁, if_neg h₂] at h
      obtain ⟨hhi, h⟩ := List.cons.inj h
      obtain ⟨hlo, rfl⟩ := List.cons.inj h
      refine ⟨Char.toNat_inj.mp ?_, rfl⟩
      omega

theorem charUnits_ne_nil (c : Char) : charUnits c ≠ [] := by
  unfold charUnits
  split <;> exact List.cons_ne_nil _ _

theorem units_injective : Function.Injective units := by
  intro s t h
  have hlist : ∀ l l' : List Char, l.flatMap charUnits = l'.flatMap charUnits → l = l' := by
    intro l
    induction l with
    | nil =>
      intro l' h
      cases l' with
      | nil => rfl
      | cons d =>
        rw [List.flatMap_nil, List.flatMap_cons] at h
        exact absurd (List.append_eq_nil_iff.mp h.symm).1 (charUnits_ne_nil d)
    | cons c l ih =>
      intro l' h
      cases l' with
      | nil =>
        rw [List.flatMap_nil, List.flatMap_cons] at h
        exact absurd (List.append_eq_nil_iff.mp h).1 (charUnits_ne_nil c)
      | cons d l' =>
        rw [List.flatMap_cons, List.flatMap_cons] at h
        obtain ⟨rfl, htail⟩ := charUnits_append_inj h
        rw [ih l' htail]
  exact String.toList_inj.mp (hlist _ _ h)

theorem one_le_length {s : String} (h : s ≠ "") : 1 ≤ length s := by
  rw [Nat.one_le_iff_ne_zero]
  intro hzero
  have hnil : units s = units "" := List.length_eq_zero_iff.mp hzero
  exact h (units_injective hnil)

/-- Whether `s` sorts before `t` or is equal to it: `<` on strings compares code units. -/
def le (s t : String) : Prop := units s ≤ units t

instance : DecidableRel le := fun s t => inferInstanceAs (Decidable (units s ≤ units t))

theorem le.total (s t : String) : le s t ∨ le t s :=
  Std.Total.total (r := (· ≤ ·)) (units s) (units t)

theorem le.trans {s t u : String} (h : le s t) (h' : le t u) : le s u := by
  unfold le at *
  exact h.trans h'

theorem le.antisymm {s t : String} (h : le s t) (h' : le t s) : s = t := by
  unfold le at *
  exact units_injective (h.antisymm h')

/-! ### Trimming -/

/-- The white space and line terminators of ECMAScript. -/
def isSpace (c : Char) : Bool :=
  c.toNat ∈ [0x09, 0x0A, 0x0B, 0x0C, 0x0D, 0x20, 0xA0, 0x1680, 0x2028, 0x2029, 0x202F,
    0x205F, 0x3000,
    0xFEFF] || (0x2000 ≤ c.toNat && c.toNat ≤ 0x200A)

/-- `s.trim()`. -/
def trim (s : String) : String :=
  String.ofList ((s.toList.dropWhile isSpace).reverse.dropWhile isSpace).reverse

/-- `toLowerCase()`, as far as it gives letters of ASCII: two letters beside those of ASCII have one
in their lower case, and the others stay as they are here. -/
def toLowerCase (s : String) : String :=
  String.ofList (s.toList.flatMap fun c =>
    if c = '\u212A' then ['k'] else if c = '\u0130' then ['i', '\u0307'] else [c.toLower])

theorem exists_trim (s : String) : ∃ before behind, s.toList = before ++ (trim s).toList ++ behind ∧
    ∀ c ∈ before ++ behind, isSpace c = true := by
  refine ⟨s.toList.takeWhile isSpace,
    ((s.toList.dropWhile isSpace).reverse.takeWhile isSpace).reverse, ?_, ?_⟩
  · rw [trim, String.toList_ofList, List.append_assoc, ← List.reverse_append,
      List.takeWhile_append_dropWhile, List.reverse_reverse, List.takeWhile_append_dropWhile]
  · rw [List.forall_mem_append]
    refine ⟨fun c hc => List.all_eq_true.mp List.all_takeWhile c hc, fun c hc => ?_⟩
    exact List.all_eq_true.mp List.all_takeWhile c (List.mem_reverse.mp hc)

theorem dropWhile_isSpace {cs : List Char} (h : ∀ c ∈ cs.head?, isSpace c = false) :
    cs.dropWhile isSpace = cs := by
  cases cs with
  | nil => rfl
  | cons c => rw [List.dropWhile_cons_of_neg (by simp [h c rfl])]

theorem trim_eq_self {s : String} (hhead : ∀ c ∈ s.toList.head?, isSpace c = false)
    (hlast : ∀ c ∈ s.toList.getLast?, isSpace c = false) : trim s = s := by
  have hreverse : ∀ c ∈ s.toList.reverse.head?, isSpace c = false := by
    rw [List.head?_reverse]
    exact hlast
  unfold trim
  rw [dropWhile_isSpace hhead, dropWhile_isSpace hreverse, List.reverse_reverse,
    String.ofList_toList]

/-- `s.trimStart()`. -/
def trimStart (s : String) : String := String.ofList (s.toList.dropWhile isSpace)

/-- `s.split(/\s+/u).filter(Boolean)`. -/
def words (s : String) : List String :=
  ((s.toList.splitOnP isSpace).filter fun w => !w.isEmpty).map String.ofList

example : words " hosts:read\t agents:read\n" = ["hosts:read", "agents:read"] := by decide +kernel

/-! ### JSON text of a string -/

/-- A hexadecimal digit in lower case. -/
def hexDigit (n : ℕ) : Char := "0123456789abcdef".toList.getD n '0'

/-- What `JSON.stringify` writes for one code point inside a string. -/
def quoteChar (c : Char) : List Char :=
  if c = '"' then ['\\', '"']
  else if c = '\\' then ['\\', '\\']
  else if c.toNat = 0x08 then ['\\', 'b']
  else if c.toNat = 0x09 then ['\\', 't']
  else if c.toNat = 0x0A then ['\\', 'n']
  else if c.toNat = 0x0C then ['\\', 'f']
  else if c.toNat = 0x0D then ['\\', 'r']
  else if c.toNat < 0x20 then ['\\', 'u', '0', '0', hexDigit (c.toNat / 16),
    hexDigit (c.toNat % 16)]
  else [c]

/-- `JSON.stringify(s)`. -/
def quote (s : String) : String :=
  String.ofList ('"' :: s.toList.flatMap quoteChar ++ ['"'])

/-- The value of a hexadecimal digit in lower case. -/
def hexValue (c : Char) : ℕ := if c.isDigit then c.toNat - '0'.toNat else c.toNat - 'a'.toNat + 10

/-- Reads back what `quoteChar` writes; a quotation mark ends the string. -/
def unquoteChar : List Char → Option (Char × List Char)
  | '\\' :: 'u' :: _ :: _ :: hi :: lo :: rest =>
    some (Char.ofNat (hexValue hi * 16 + hexValue lo), rest)
  | '\\' :: 'b' :: rest => some (Char.ofNat 0x08, rest)
  | '\\' :: 't' :: rest => some (Char.ofNat 0x09, rest)
  | '\\' :: 'n' :: rest => some (Char.ofNat 0x0A, rest)
  | '\\' :: 'f' :: rest => some (Char.ofNat 0x0C, rest)
  | '\\' :: 'r' :: rest => some (Char.ofNat 0x0D, rest)
  | '\\' :: c :: rest => some (c, rest)
  | '"' :: _ => none
  | c :: rest => some (c, rest)
  | [] => none

theorem hexValue_hexDigit {n : ℕ} (h : n < 0x20) :
    hexValue (hexDigit (n / 16)) * 16 + hexValue (hexDigit (n % 16)) = n := by
  have hall : ∀ m < 0x20, hexValue (hexDigit (m / 16)) * 16 + hexValue (hexDigit (m % 16)) = m := by
    decide
  exact hall n h

theorem unquoteChar_quoteChar (c : Char) (rest : List Char) :
    unquoteChar (quoteChar c ++ rest) = some (c, rest) := by
  have hcode : ∀ {n : ℕ}, c.toNat = n → Char.ofNat n = c := fun h => by rw [← h, Char.ofNat_toNat]
  unfold quoteChar
  split_ifs with hmark hslash h8 h9 hA hC hD hcontrol
  · rw [hmark]
    rfl
  · rw [hslash]
    rfl
  · exact congrArg (fun d => some (d, rest)) (hcode h8)
  · exact congrArg (fun d => some (d, rest)) (hcode h9)
  · exact congrArg (fun d => some (d, rest)) (hcode hA)
  · exact congrArg (fun d => some (d, rest)) (hcode hC)
  · exact congrArg (fun d => some (d, rest)) (hcode hD)
  · exact congrArg (fun d => some (d, rest)) (hcode (hexValue_hexDigit hcontrol).symm)
  · -- a character that stands for itself
    rw [List.singleton_append, unquoteChar.eq_def]
    split <;> simp_all

/-- The characters of a quoted string and its end are read back. -/
theorem quoted_append_inj {cs ds l l' : List Char}
    (h : cs.flatMap quoteChar ++ '"' :: l = ds.flatMap quoteChar ++ '"' :: l') :
    cs = ds ∧ l = l' := by
  have hend : ∀ (c : Char) (es u v : List Char),
      '"' :: u ≠ (c :: es).flatMap quoteChar ++ '"' :: v := by
    intro c es u v hmark
    have hread := congrArg unquoteChar hmark
    rw [List.flatMap_cons, List.append_assoc, unquoteChar_quoteChar] at hread
    cases hread
  induction cs generalizing ds with
  | nil =>
    cases ds with
    | nil => exact ⟨rfl, (List.cons.inj h).2⟩
    | cons d ds => exact absurd h (hend d ds l l')
  | cons c cs ih =>
    cases ds with
    | nil => exact absurd h.symm (hend c cs l' l)
    | cons =>
      rw [List.flatMap_cons, List.flatMap_cons, List.append_assoc, List.append_assoc] at h
      have hread := congrArg unquoteChar h
      rw [unquoteChar_quoteChar, unquoteChar_quoteChar, Option.some.injEq, Prod.mk.injEq] at hread
      obtain ⟨rfl, hrest⟩ := hread
      obtain ⟨rfl, rfl⟩ := ih hrest
      exact ⟨rfl, rfl⟩

theorem toList_quote (s : String) :
    (quote s).toList = '"' :: (s.toList.flatMap quoteChar ++ ['"']) := by
  rw [quote, String.toList_ofList, List.cons_append]

/-- **The JSON texts of strings form a prefix code.** -/
theorem quote_append_inj {s t : String} {l l' : List Char}
    (h : (quote s).toList ++ l = (quote t).toList ++ l') : s = t ∧ l = l' := by
  rw [toList_quote, toList_quote, List.cons_append, List.cons_append, List.append_assoc,
    List.append_assoc] at h
  obtain ⟨hchars, hrest⟩ := quoted_append_inj (List.cons.inj h).2
  exact ⟨String.toList_inj.mp hchars, hrest⟩

/-! ### Decimal texts -/

theorem digits_of_nat (n : ℕ) : ∀ c ∈ (toString n).toList, c.isDigit = true := by
  intro c hc
  rw [Nat.toString_eq_repr, Nat.toList_repr] at hc
  exact Nat.isDigit_of_mem_toDigits (by decide) (by decide) hc

theorem digits_of_int (i : ℤ) : ∀ c ∈ (toString i).toList, c.isDigit = true ∨ c = '-' := by
  intro c hc
  cases i with
  | ofNat n => exact .inl (digits_of_nat n c hc)
  | negSucc n =>
    have hc' : c ∈ ("-" ++ toString (n + 1)).toList := hc
    rw [String.toList_append, List.mem_append] at hc'
    rcases hc' with hminus | hdigit
    · exact .inr (List.mem_singleton.mp hminus)
    · exact .inl (digits_of_nat _ c hdigit)

theorem toString_nat_injective {n m : ℕ} (h : toString n = toString m) : n = m := by
  have hdigits : Nat.toDigits 10 n = Nat.toDigits 10 m := by
    rw [← Nat.toList_repr, ← Nat.toList_repr]
    exact congrArg String.toList h
  calc
    n = Nat.ofDigitChars 10 (Nat.toDigits 10 n) 0 := Nat.ofDigitChars_ten_toDigits.symm
    _ = Nat.ofDigitChars 10 (Nat.toDigits 10 m) 0 := by rw [hdigits]
    _ = m := Nat.ofDigitChars_ten_toDigits

theorem toString_nat_ne_empty (n : ℕ) : toString n ≠ "" := by
  intro h
  have hdigits := congrArg String.toList h
  rw [Nat.toString_eq_repr, Nat.toList_repr, Nat.toDigits_eq_if (by decide)] at hdigits
  split at hdigits <;> simp at hdigits

theorem toString_int_ne_empty (i : ℤ) : toString i ≠ "" := by
  cases i with
  | ofNat n => exact toString_nat_ne_empty n
  | negSucc n =>
    intro h
    have hminus : ("-" ++ toString (n + 1)).toList = [] := congrArg String.toList h
    rw [String.toList_append] at hminus
    cases hminus

theorem isSpace_of_isDigit {c : Char} (h : c.isDigit = true) : isSpace c = false := by
  simp only [Char.isDigit, Bool.and_eq_true, decide_eq_true_eq] at h
  have hlow : 48 ≤ c.toNat := h.1
  have hhigh : c.toNat ≤ 57 := h.2
  simp only [isSpace, List.mem_cons, List.not_mem_nil, or_false, Bool.or_eq_false_iff,
    Bool.and_eq_false_iff, decide_eq_false_iff_not]
  omega

end JsText
