import McpSshTool.Library.ShellWords

/-!
# Text between quotation marks

Between quotation marks a POSIX shell still expands: a backquote starts a substitution, and so does
a `$` in front of certain characters, which are not the same for all shells. A backslash escapes
four characters and the end of a line, and stands for itself in front of any other.

* `Dialect` — the characters that begin an expansion behind a `$`;
* `readQuoted` — the text that stands between quotation marks, where nothing in it is expanded;
* `NoExpansion` — nothing in a text is expanded.
-/

namespace ShellWords

/-- What begins an expansion behind a `$`. A quotation mark, a backslash and a control character do
not. -/
structure Dialect where
  expands : Char → Bool
  quotation : expands quotation = false
  backslash : expands '\\' = false
  control : ∀ c : Char, c.toNat < 0x20 → expands c = false

/-- The characters for which POSIX says so: names, digits, special parameters, braces and
parentheses. -/
def posixDialect : Dialect where
  expands c := c.isAlphanum || c ∈ ['_', '@', '*', '#', '?', '-', '$', '!', Char.ofNat 123, '(']
  quotation := by decide
  backslash := by decide
  control c hc := by
    have hall : ∀ n < 0x20, (Char.ofNat n).isAlphanum = false ∧
        Char.ofNat n ∉ ['_', '@', '*', '#', '?', '-', '$', '!', Char.ofNat 123, '('] := by decide
    have h := hall c.toNat hc
    rw [Char.ofNat_toNat] at h
    rw [h.1, decide_eq_false h.2]
    rfl

/-- **The text up to the closing quotation mark**, and what follows it. There is none where
something is expanded or the mark is missing. -/
def readQuoted (d : Dialect) : List Char → Option (List Char × List Char)
  | [] => none
  | [c] => if c = quotation then some ([], []) else none
  | c :: e :: cs =>
    if c = quotation then some ([], e :: cs)
    else if c = backquote then none
    else if c = '\\' then
      -- a backslash before the end of a line joins the lines
      if e = '\n' then readQuoted d cs
      else if e = '$' ∨ e = backquote ∨ e = quotation ∨ e = '\\' then
        (readQuoted d cs).map fun read => (e :: read.1, read.2)
      else (readQuoted d cs).map fun read => ('\\' :: e :: read.1, read.2)
    else if c = '$' ∧ d.expands e then none
    else (readQuoted d (e :: cs)).map fun read => (c :: read.1, read.2)

/-- Nothing in the text is expanded. -/
def NoExpansion (d : Dialect) : List Char → Prop
  | [] => True
  | c :: cs =>
    c ≠ backquote ∧ (c = '$' → ∀ next ∈ cs.head?, d.expands next = false) ∧ NoExpansion d cs

instance decidableNoExpansion (d : Dialect) : (cs : List Char) → Decidable (NoExpansion d cs)
  | [] => inferInstanceAs (Decidable True)
  | _ :: cs =>
    have := decidableNoExpansion d cs
    have : Decidable (∀ next ∈ cs.head?, d.expands next = false) := Option.decidableForallMem _
    inferInstanceAs (Decidable (_ ∧ (_ → _) ∧ _))

variable {d : Dialect}

/-! ### Reading character by character -/

theorem readQuoted_end (rest : List Char) : readQuoted d (quotation :: rest) = some ([], rest) := by
  cases rest with
  | nil => exact if_pos rfl
  | cons => exact if_pos rfl

theorem readQuoted_plain {c : Char} (h : c ∉ [quotation, backquote, '\\', '$']) (cs : List Char) :
    readQuoted d (c :: cs) = (readQuoted d cs).map fun read => (c :: read.1, read.2) := by
  simp only [List.mem_cons, List.not_mem_nil, or_false, not_or] at h
  obtain ⟨hquotation, hbackquote, hbackslash, hdollar⟩ := h
  cases cs with
  | nil => exact if_neg hquotation
  | cons =>
    rw [readQuoted, if_neg hquotation, if_neg hbackquote, if_neg hbackslash, if_neg fun h =>
      hdollar h.1]

/-- A `$` with something behind it. -/
theorem readQuoted_dollar {cs : List Char} (h : cs ≠ [])
    [Decidable (∀ next ∈ cs.head?, d.expands next = false)] :
    readQuoted d ('$' :: cs) =
      if ∀ next ∈ cs.head?, d.expands next = false then
        (readQuoted d cs).map fun read => ('$' :: read.1, read.2)
      else none := by
  obtain ⟨e, cs, rfl⟩ := List.exists_cons_of_ne_nil h
  rw [readQuoted, if_neg (by decide), if_neg (by decide), if_neg (by decide)]
  have hhead : (∀ next ∈ (e :: cs).head?, d.expands next = false) ↔
    ¬('$' = '$' ∧ d.expands e = true) := by
    simp
  by_cases hexpands : '$' = '$' ∧ d.expands e = true
  · rw [if_pos hexpands, if_neg fun h => hhead.mp h hexpands]
  · rw [if_neg hexpands, if_pos (hhead.mpr hexpands)]

theorem readQuoted_backquote (cs : List Char) : readQuoted d (backquote :: cs) = none := by
  cases cs with
  | nil => rfl
  | cons => rfl

theorem readQuoted_escape {e : Char} (h : e = '$' ∨ e = backquote ∨ e = quotation ∨ e = '\\')
    (cs : List Char) :
    readQuoted d ('\\' :: e :: cs) = (readQuoted d cs).map fun read => (e :: read.1, read.2) := by
  have hline : e ≠ '\n' := by
    rintro rfl
    revert h
    decide
  rw [readQuoted, if_neg (by decide), if_neg (by decide), if_pos rfl, if_neg hline, if_pos h]

theorem readQuoted_backslash {e : Char}
    (h : e ≠ '\n' ∧ ¬(e = '$' ∨ e = backquote ∨ e = quotation ∨ e = '\\')) (cs : List Char) :
    readQuoted d ('\\' :: e :: cs) =
      (readQuoted d cs).map fun read => ('\\' :: e :: read.1, read.2) := by
  rw [readQuoted, if_neg (by decide), if_neg (by decide), if_pos rfl, if_neg h.1, if_neg h.2]

/-! ### Texts in a row -/

theorem noExpansion_append_iff (es : List Char) (h : ∀ c ∈ es, c ≠ backquote ∧ c ≠ '$')
    (cs : List Char) :
    NoExpansion d (es ++ cs) ↔ NoExpansion d cs := by
  induction es with
  | nil => exact Iff.rfl
  | cons e es ih =>
    rw [List.forall_mem_cons] at h
    rw [← ih h.2]
    exact ⟨fun h => h.2.2, fun hrest => ⟨h.1.1, fun hdollar => absurd hdollar h.1.2, hrest⟩⟩

end ShellWords
