import Mathlib.Algebra.Order.BigOperators.Group.List
import Mathlib.Algebra.Order.Ring.Nat

/-!
# Literals whose quotes are doubled

A literal stands between two quotes, and a quote inside it is written twice. A reader may take
several characters for quotes: any two of them in a row then stand for the second one. A writer that
doubles only some of them writes literals that are read otherwise.

* `readLiteral` — the value of a literal, and what follows it;
* `Part`, `write`, `Reads` — texts with literals in them, as they are written and as they are read;
* `reads_write_iff` — **a text is read as it was written** exactly where every quote in a value was
  doubled;
* `nested_iff` — the same for a text that is itself the value of a literal.

A reader that is misled may end anywhere, so what fails is shown by counting: the characters of a
text and the quotes among them are known from what is read of it.
-/

namespace DoubledQuotes

variable {α : Type*}

section Reading

variable (isQuote : α → Bool)

/-- The value of a literal that has been opened, and what follows it. A quote ends the literal,
unless another one follows. -/
def readOpened : List α → Option (List α × List α)
  | [] => none
  | [c] => if isQuote c then some ([], []) else none
  | c :: d :: cs =>
    if isQuote c then
      if isQuote d then (readOpened cs).map fun read => (d :: read.1, read.2) else some
        ([], d :: cs)
    else (readOpened (d :: cs)).map fun read => (c :: read.1, read.2)

/-- The value of the literal that a text starts with, and what follows it. -/
def readLiteral : List α → Option (List α × List α)
  | [] => none
  | c :: cs => if isQuote c then readOpened isQuote cs else none

end Reading

/-- A part of a text: as it is, or a literal with its value. -/
inductive Part (α : Type*) where
  | text (cs : List α)
  | literal (value : List α)

namespace Part

/-- The characters of a part, quoted or not. -/
def chars : Part α → List α
  | text cs => cs
  | literal value => value

/-- How a part is written: between two marks, and with some characters doubled. -/
def write (isDoubled : α → Bool) (mark : α) : Part α → List α
  | text cs => cs
  | literal value => mark :: (value.flatMap fun c => if isDoubled c then [c, c] else [c]) ++ [mark]

end Part

/-- How some parts are written in a row. -/
def write (isDoubled : α → Bool) (mark : α) (parts : List (Part α)) : List α :=
  parts.flatMap (Part.write isDoubled mark)

/-- **A text is read as these parts.** -/
inductive Reads (isQuote : α → Bool) : List (Part α) → List α → Prop
  | nil : Reads isQuote [] []
  | text (cs : List α) {parts : List (Part α)} {rest : List α} (h : Reads isQuote parts rest) :
      Reads isQuote (.text cs :: parts) (cs ++ rest)
  | literal {cs value rest : List α} {parts : List (Part α)}
      (hread : readLiteral isQuote cs = some (value, rest)) (h : Reads isQuote parts rest) :
      Reads isQuote (.literal value :: parts) cs

/-- Behind every literal there is the end, or a text that begins with no quote. -/
def Separated (isQuote : α → Bool) : List (Part α) → Prop
  | [] => True
  | .text _ :: parts => Separated isQuote parts
  | .literal _ :: parts =>
    (parts = [] ∨ ∃ c cs rest, parts = .text (c :: cs) :: rest ∧ isQuote c = false) ∧
      Separated isQuote parts

/-- The writer doubles every quote in these characters. -/
def Doubles (isQuote isDoubled : α → Bool) (cs : List α) : Prop :=
  ∀ c ∈ cs, isQuote c = true → isDoubled c = true

variable {isQuote isDoubled : α → Bool} {mark : α}

/-! ### What is written is read -/

theorem readOpened_cons_of_not {c : α} (h : isQuote c = false) (cs : List α) :
    readOpened isQuote (c :: cs) = (readOpened isQuote cs).map fun read => (c :: read.1,
      read.2) := by
  cases cs with
  | nil => exact if_neg (by simp [h])
  | cons => rw [readOpened, if_neg (by simp [h])]

section Correct

variable (hquotes : ∀ c, isDoubled c = true → isQuote c = true) (hmark : isQuote mark = true)

include hquotes hmark

/-- **A literal is read back**, whatever follows it but a quote. -/
theorem readLiteral_write {value rest : List α} (hdoubles : Doubles isQuote isDoubled value)
    (hrest : ∀ c ∈ rest.head?, isQuote c = false) :
    readLiteral isQuote (Part.write isDoubled mark (.literal value) ++ rest) =
      some (value, rest) := by
  rw [Part.write, List.cons_append, List.cons_append, readLiteral, if_pos hmark, List.append_assoc]
  induction value with
  | nil =>
    cases rest with
    | nil => exact if_pos hmark
    | cons d =>
      change (if isQuote mark then _ else _) = _
      rw [if_pos hmark, if_neg (by simp [hrest d rfl])]
  | cons c value ih =>
    unfold Doubles at hdoubles
    rw [List.forall_mem_cons] at hdoubles
    rw [List.flatMap_cons, List.append_assoc]
    by_cases hc : isDoubled c = true
    · rw [if_pos hc, List.cons_append, List.singleton_append, readOpened, if_pos (hquotes c hc),
        if_pos (hquotes c hc), ih hdoubles.2]
      rfl
    · have hplain : isQuote c = false := Bool.eq_false_iff.mpr fun h => hc (hdoubles.1 h)
      rw [if_neg hc, List.singleton_append, readOpened_cons_of_not hplain, ih hdoubles.2]
      rfl

theorem reads_write {parts : List (Part α)} (hseparated : Separated isQuote parts)
    (hdoubles : ∀ value, .literal value ∈ parts → Doubles isQuote isDoubled value) :
    Reads isQuote parts (write isDoubled mark parts) := by
  induction parts with
  | nil => exact .nil
  | cons part parts ih =>
    have hlater := fun value h => hdoubles value (List.mem_cons_of_mem part h)
    cases part with
    | text cs => exact .text cs (ih hseparated hlater)
    | literal value =>
      refine .literal (readLiteral_write hquotes hmark (hdoubles value List.mem_cons_self) ?_)
        (ih hseparated.2 hlater)
      rintro c hc
      obtain rfl | ⟨d, cs, rest, rfl, hd⟩ := hseparated.1
      · cases hc
      · obtain rfl := Option.some.inj hc
        exact hd

end Correct

/-! ### Characters and quotes, counted -/

/-- The quotes among some characters. -/
def quotes (isQuote : α → Bool) (cs : List α) : ℕ := cs.countP isQuote

/-- A literal that has been read: its characters, and the quotes among them. -/
theorem counts_readOpened {cs value rest : List α}
    (h : readOpened isQuote cs = some (value, rest)) :
    cs.length = value.length + quotes isQuote value + 1 + rest.length ∧
      quotes isQuote cs = 2 * quotes isQuote value + 1 + quotes isQuote rest := by
  unfold quotes
  fun_induction readOpened isQuote cs generalizing value with
  | case1 => cases h
  | case2 c hc =>
    obtain ⟨rfl, rfl⟩ := Prod.mk.inj (Option.some.inj h)
    simp [hc]
  | case3 c hc => cases h
  | case4 c d cs hc hd ih =>
    rw [Option.map_eq_some_iff] at h
    obtain ⟨⟨value', rest'⟩, hread, heq⟩ := h
    dsimp only at heq
    obtain ⟨rfl, rfl⟩ := Prod.mk.inj heq
    obtain ⟨hlength, hcount⟩ := ih hread
    simp only [List.length_cons, List.countP_cons, hc, hd, if_true]
    omega
  | case5 c d cs hc hd =>
    obtain ⟨rfl, rfl⟩ := Prod.mk.inj (Option.some.inj h)
    simp only [List.length_cons, List.countP_cons, List.length_nil, List.countP_nil, hc, hd,
      if_true]
    omega
  | case6 c d cs hc ih =>
    rw [Option.map_eq_some_iff] at h
    obtain ⟨⟨value', rest'⟩, hread, heq⟩ := h
    dsimp only at heq
    obtain ⟨rfl, rfl⟩ := Prod.mk.inj heq
    obtain ⟨hlength, hcount⟩ := ih hread
    rw [List.length_cons] at hlength
    simp only [List.length_cons, List.countP_cons, if_neg hc] at hcount ⊢
    omega

namespace Part

/-- The characters that a part is written with, where each of these in a value is written twice. -/
def size (isQuote : α → Bool) : Part α → ℕ
  | text cs => cs.length
  | literal value => value.length + quotes isQuote value + 2

/-- How many of these are among them, the marks being such. -/
def marks (isQuote : α → Bool) : Part α → ℕ
  | text cs => quotes isQuote cs
  | literal value => 2 * quotes isQuote value + 2

end Part

/-- The characters of a text that has been read, and the quotes among them. -/
theorem counts_reads {parts : List (Part α)} {cs : List α} (h : Reads isQuote parts cs) :
    cs.length = (parts.map (Part.size isQuote)).sum ∧
      quotes isQuote cs = (parts.map (Part.marks isQuote)).sum := by
  induction h with
  | nil => exact ⟨rfl, rfl⟩
  | text cs h ih =>
    rw [List.length_append, List.map_cons, List.map_cons, List.sum_cons, List.sum_cons, ← ih.1,
      ← ih.2]
    exact ⟨rfl, List.countP_append⟩
  | @literal cs value rest parts hread h ih =>
    rw [List.map_cons, List.map_cons, List.sum_cons, List.sum_cons, ← ih.1, ← ih.2, Part.size,
      Part.marks]
    cases cs with
    | nil => cases hread
    | cons =>
      rw [readLiteral] at hread
      split at hread
      · next hc =>
        obtain ⟨hlength, hcount⟩ := counts_readOpened hread
        unfold quotes at hcount ⊢
        rw [List.length_cons, List.countP_cons_of_pos hc]
        unfold quotes at hlength
        omega
      · cases hread

/-- The characters of a text that has been written, and those among them that are doubled. -/
theorem counts_write (hmark : isDoubled mark = true) (parts : List (Part α)) :
    (write isDoubled mark parts).length = (parts.map (Part.size isDoubled)).sum ∧
      quotes isDoubled (write isDoubled mark parts) = (parts.map (Part.marks isDoubled)).sum := by
  have hvalue : ∀ value : List α,
      (value.flatMap fun c => if isDoubled c then [c, c] else [c]).length =
          value.length + quotes isDoubled value ∧
        quotes isDoubled (value.flatMap fun c => if isDoubled c then [c, c] else [c]) =
          2 * quotes isDoubled value := by
    intro value
    induction value with
    | nil => exact ⟨rfl, rfl⟩
    | cons c value ih =>
      unfold quotes at ih ⊢
      rw [List.flatMap_cons, List.length_append, List.countP_append, List.length_cons, ih.1, ih.2]
      by_cases hc : isDoubled c = true
      · rw [if_pos hc, List.countP_cons_of_pos hc, List.countP_cons_of_pos hc,
          List.countP_cons_of_pos hc, List.countP_nil, List.length_cons, List.length_singleton]
        omega
      · rw [if_neg hc, List.countP_cons_of_neg hc, List.countP_cons_of_neg hc, List.countP_nil,
          List.length_singleton]
        omega
  induction parts with
  | nil => exact ⟨rfl, rfl⟩
  | cons part parts ih =>
    rw [List.map_cons, List.map_cons, List.sum_cons, List.sum_cons, ← ih.1, ← ih.2]
    unfold write
    rw [List.flatMap_cons, List.length_append]
    unfold quotes
    rw [List.countP_append]
    cases part with
    | text => exact ⟨rfl, rfl⟩
    | literal value =>
      obtain ⟨hlength, hcount⟩ := hvalue value
      unfold quotes at hlength hcount
      rw [Part.write, Part.size, Part.marks, List.cons_append, List.length_cons, List.length_append,
        List.countP_cons_of_pos hmark, List.countP_append, List.countP_cons_of_pos hmark, hlength,
        hcount, List.length_singleton, List.countP_nil]
      unfold quotes
      omega

/-! ### When a text is read as it was written -/

section Exact

variable (hquotes : ∀ c, isDoubled c = true → isQuote c = true)

include hquotes

theorem quotes_le (cs : List α) : quotes isDoubled cs ≤ quotes isQuote cs :=
  List.countP_mono_left fun c _ => hquotes c

/-- Where no quote is missing among the characters that are doubled, every quote is doubled. -/
theorem doubles_of_le {cs : List α} (h : quotes isQuote cs ≤ quotes isDoubled cs) :
    Doubles isQuote isDoubled cs := by
  unfold quotes at h
  induction cs with
  | nil => exact fun _ h => absurd h List.not_mem_nil
  | cons c cs ih =>
    have hle := quotes_le hquotes cs
    unfold quotes at hle
    rw [List.countP_cons, List.countP_cons] at h
    have hc : isQuote c = true → isDoubled c = true := by
      intro hquote
      by_contra hnot
      rw [if_pos hquote, if_neg hnot] at h
      omega
    refine List.forall_mem_cons.mpr ⟨hc, ih ?_⟩
    split_ifs at h with hquote hdoubled hdoubled
    · omega
    · exact absurd (hc hquote) hdoubled
    · exact absurd (hquotes c hdoubled) hquote
    · omega

theorem Part.size_le (part : Part α) : part.size isDoubled ≤ part.size isQuote := by
  cases part with
  | text => exact le_refl _
  | literal value => exact Nat.add_le_add_right (Nat.add_le_add_left (quotes_le hquotes value) _) _

theorem Part.marks_le (part : Part α) : part.marks isDoubled ≤ part.marks isQuote := by
  cases part with
  | text cs => exact quotes_le hquotes cs
  | literal value =>
    exact Nat.add_le_add_right (Nat.mul_le_mul_left 2 (quotes_le hquotes value)) _

omit hquotes in
theorem le_of_sum_le {f g : Part α → ℕ} (hle : ∀ part, f part ≤ g part) {parts : List (Part α)}
    (h : (parts.map g).sum ≤ (parts.map f).sum) : ∀ part ∈ parts, g part ≤ f part := by
  induction parts with
  | nil => exact fun _ h => absurd h List.not_mem_nil
  | cons part parts ih =>
    have hfirst := hle part
    have hrest : (parts.map f).sum ≤ (parts.map g).sum := List.sum_le_sum fun part _ => hle part
    rw [List.map_cons, List.map_cons, List.sum_cons, List.sum_cons] at h
    exact List.forall_mem_cons.mpr ⟨by omega, ih (by omega)⟩

variable (hmark : isDoubled mark = true)

include hmark

/-- **When a text is read as it was written.** -/
theorem reads_write_iff {parts : List (Part α)} (hseparated : Separated isQuote parts) :
    Reads isQuote parts (write isDoubled mark parts) ↔
      ∀ value, .literal value ∈ parts → Doubles isQuote isDoubled value := by
  refine ⟨fun h value hvalue => ?_, reads_write hquotes (hquotes mark hmark) hseparated⟩
  have hread := (counts_reads h).1
  rw [(counts_write hmark parts).1] at hread
  have hsize := le_of_sum_le (Part.size_le hquotes) (le_of_eq hread.symm) _ hvalue
  rw [Part.size, Part.size] at hsize
  exact doubles_of_le hquotes (by omega)

/-- **When a text within a literal is read as it was written**, after the literal has been read. -/
theorem nested_iff (before : List α) {parts : List (Part α)}
    (hseparated : Separated isQuote parts) :
    (∃ inner, Reads isQuote [.text before, .literal inner]
        (write isDoubled mark [.text before, .literal (write isDoubled mark parts)]) ∧
      Reads isQuote parts inner) ↔
    ∀ part ∈ parts, Doubles isQuote isDoubled part.chars := by
  constructor
  · rintro ⟨inner, houter, hinner⟩ part hpart
    obtain ⟨hlength, hcount⟩ := counts_reads hinner
    obtain ⟨hwritten, hdoubled⟩ := counts_write hmark parts
    have hread := (counts_reads houter).1
    rw [(counts_write hmark _).1] at hread
    simp only [List.map_cons, List.map_nil, List.sum_cons, List.sum_nil, Part.size, hlength, hcount,
      hwritten, hdoubled] at hread
    -- read and written sizes agree, so no part is larger than it is read
    have hsum : (parts.map fun part => part.size isQuote + part.marks isQuote).sum =
        (parts.map fun part => part.size isDoubled + part.marks isDoubled).sum := by
      rw [List.sum_map_add, List.sum_map_add]
      omega
    have hle : part.size isQuote + part.marks isQuote ≤ part.size isDoubled + part.marks
      isDoubled :=
      le_of_sum_le (fun part => Nat.add_le_add (part.size_le hquotes) (part.marks_le hquotes))
        (le_of_eq hsum)
        part hpart
    cases part with
    | text cs =>
      simp only [Part.size, Part.marks] at hle
      exact doubles_of_le hquotes (show quotes isQuote cs ≤ quotes isDoubled cs by omega)
    | literal value =>
      simp only [Part.size, Part.marks] at hle
      exact doubles_of_le hquotes (show quotes isQuote value ≤ quotes isDoubled value by omega)
  · intro hdoubles
    have hvalues : ∀ value, .literal value ∈ parts → Doubles isQuote isDoubled value :=
      fun value h => hdoubles _ h
    refine ⟨write isDoubled mark parts, ?_, (reads_write_iff hquotes hmark hseparated).mpr hvalues⟩
    have houter : Separated isQuote [.text before, .literal (write isDoubled mark parts)] :=
      ⟨.inl rfl, trivial⟩
    refine (reads_write_iff hquotes hmark houter).mpr fun value h => ?_
    -- what is written inside has its quotes doubled already
    obtain rfl : value = write isDoubled mark parts := by simpa using h
    intro c hc hquote
    obtain ⟨part, hpart, hc⟩ := List.mem_flatMap.mp hc
    cases part with
    | text => exact hdoubles _ hpart c hc hquote
    | literal =>
      rw [Part.write, List.cons_append, List.mem_cons, List.mem_append, List.mem_singleton,
        List.mem_flatMap] at hc
      obtain rfl | ⟨d, hd, hc⟩ | rfl := hc
      · exact hmark
      · have hcd : c = d := by
          split at hc
          · simpa using hc
          · simpa using hc
        exact hdoubles _ hpart c (hcd ▸ hd) hquote
      · exact hmark

end Exact

end DoubledQuotes
