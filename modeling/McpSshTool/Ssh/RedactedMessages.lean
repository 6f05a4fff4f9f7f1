import Mathlib.Data.List.TakeWhile
import McpSshTool.Library.Replacement
import McpSshTool.Ssh.Redaction

/-!
# Redaction of messages

`logging.ts`: `redactErrorMessage`, which masks what looks like a secret in a text before it is
logged.

* `SecretPattern`, `secretPatterns` — the expressions with a word, separators and a value;
  `SecretPattern.matchLength` — how long the match at the front of a text is;
* `pemLength` — the expression for an encoded key;
* `redactErrorMessage` — the masks, one expression after another;
* `SecretPattern.Begins`, `BeginsPem` — what the expressions describe; `sees_iff`, `sees_pem_iff`;
* `redacted_message` — the result is free of all of them. A later mask brings no earlier expression
  about, since separators and words have no asterisk in them.

No unit outside of ASCII is one case of a unit in it, and the values are taken up to the next space,
so that no surrogate pair is cut: the texts may be read by characters.
-/

open Library Replacement

namespace Ssh

/-- `REDACTED`. -/
def redactedMask : List Char := "****".toList

theorem eq_asterisk_of_mem {c : Char} (h : c ∈ redactedMask) : c = '*' :=
  List.eq_of_mem_replicate (show c ∈ List.replicate 4 '*' from h)

/-! ### Literals -/

/-- A text is a literal, in any case. The literals are in lower case. -/
def Spells (literal : String) (word : List Char) : Prop :=
  word.map (fun c => lowerUnit c.toNat) = literal.toList.map Char.toNat

instance (literal : String) (word : List Char) : Decidable (Spells literal word) :=
  inferInstanceAs (Decidable (_ = _))

/-- The text begins with a literal. -/
def beginsWith (literal : String) (text : List Char) : Bool :=
  Spells literal (text.take literal.toList.length)

/-- What `.` matches: one code unit that ends no line. -/
def isDot (c : Char) : Bool := c.toNat < 0x10000 && !isLineTerminator c.toNat

/-! ### Words with values -/

/-- An expression for a word, separators and a value. -/
structure SecretPattern where
  word : String
  /-- What may follow the word, with `.?` between. -/
  rest : Option String := none
  /-- The separators other than white space. -/
  separators : List Char := ['=', ':']

/-- The expressions with a value. -/
def secretPatterns : List SecretPattern :=
  [{ word := "password" }, { word := "key" }, { word := "passphrase" }, { word := "auth" },
    { word := "token" }, { word := "api", rest := some "key" },
    { word := "bearer", separators := [] }, { word := "private", rest := some "key" },
    { word := "pem" }]

/-- The length of `[^\s]+`. -/
def valueLength : List Char → Option ℕ
  | [] => none
  | c :: text =>
    if JsText.isSpace c then none
    else some ((text.takeWhile fun d => !JsText.isSpace d).length + 1)

namespace SecretPattern

variable (pattern : SecretPattern)

/-- `[=:\s]`, or `\s`. -/
def isSeparator (c : Char) : Bool := pattern.separators.contains c || JsText.isSpace c

/-- The length of the separators and the value behind them. As many separators are taken as leave a
value. -/
def separatorsLength : List Char → Option ℕ
  | [] => none
  | c :: text =>
    if pattern.isSeparator c then ((separatorsLength text).or (valueLength text)).map (· + 1)
    else none

/-- The lengths of the word at the front of a text, in the order they are tried. -/
def wordLengths (text : List Char) : List ℕ :=
  if beginsWith pattern.word text then
    let length := pattern.word.toList.length
    match pattern.rest with
    | none => [length]
    | some rest =>
      let behind := text.drop length
      (if behind.head?.any isDot && beginsWith rest (behind.drop 1) then
        [length + (1 + rest.toList.length)] else []) ++
      if beginsWith rest behind then [length + rest.toList.length] else []
  else []

/-- **The length of the match** at the front of a text. -/
def matchLength (text : List Char) : Option ℕ :=
  (pattern.wordLengths text).findSome? fun length =>
    (pattern.separatorsLength (text.drop length)).map (length + ·)

end SecretPattern

/-! ### Encoded keys -/

/-- The length of a literal, a label `[^-]+` and five dashes. -/
def dashedLength (literal : String) (text : List Char) : Option ℕ :=
  if beginsWith literal text then
    let behind := text.drop literal.toList.length
    let label := behind.takeWhile fun c => c ≠ '-'
    if label ≠ [] ∧ beginsWith "-----" (behind.drop label.length) = true then
      some (literal.toList.length + (label.length + 5))
    else none
  else none

/-- The length up to the end of the first footer. -/
def footerLength : List Char → Option ℕ
  | [] => none
  | c :: text => (dashedLength "-----end" (c :: text)).or ((footerLength text).map (· + 1))

/-- The length of the encoded key at the front of a text. -/
def pemLength (text : List Char) : Option ℕ :=
  (dashedLength "-----begin" text).bind fun length =>
    (footerLength (text.drop length)).map (length + ·)

/-- `redacted.replace(pattern, REDACTED)`. -/
def masked (redacted : List Char) (pattern : SecretPattern) : List Char :=
  replaceAll pattern.matchLength redactedMask redacted

/-- **`redactErrorMessage`.** The expression for a key is the last. -/
def redactErrorMessage (message : String) : String :=
  String.ofList
    (replaceAll pemLength redactedMask (secretPatterns.foldl masked message.toList))

/-! ### What the expressions describe -/

namespace SecretPattern

variable (pattern : SecretPattern)

/-- What the word of an expression matches. -/
def Word (word : List Char) : Prop :=
  match pattern.rest with
  | none => Spells pattern.word word
  | some rest => ∃ first dot second, word = first ++ (dot ++ second) ∧ Spells pattern.word first ∧
      dot.length ≤ 1 ∧ (∀ c ∈ dot, isDot c = true) ∧ Spells rest second

/-- **A secret begins the text**: the word, separators and a value. -/
def Begins (text : List Char) : Prop :=
  ∃ word separators value rest, text = word ++ (separators ++ value :: rest) ∧ pattern.Word word ∧
    separators ≠ [] ∧ (∀ c ∈ separators, pattern.isSeparator c = true) ∧
    JsText.isSpace value = false

end SecretPattern

/-! ### Literals -/

variable {literal : String} {word text : List Char} {c : Char}

theorem Spells.length (h : Spells literal word) : word.length = literal.toList.length := by
  have hlength := congrArg List.length h
  rwa [List.length_map, List.length_map] at hlength

theorem beginsWith_iff :
    beginsWith literal text = true ↔ ∃ word rest, text = word ++ rest ∧ Spells literal word := by
  constructor
  · intro h
    exact ⟨_, _, (List.take_append_drop _ text).symm, of_decide_eq_true h⟩
  · rintro ⟨word, rest, rfl, h⟩
    unfold beginsWith
    rw [← h.length, List.take_left]
    exact decide_eq_true h

theorem lowerUnit_of_isSpace (h : JsText.isSpace c = true) : lowerUnit c.toNat = c.toNat := by
  unfold lowerUnit
  refine if_neg fun hupper => ?_
  simp only [JsText.isSpace, List.mem_cons, List.not_mem_nil, or_false, Bool.or_eq_true,
    decide_eq_true_eq, Bool.and_eq_true] at h
  omega

theorem Spells.mem (h : Spells literal word) (hc : lowerUnit c.toNat = c.toNat) (hmem : c ∈ word) :
    c ∈ literal.toList := by
  have hunit : c.toNat ∈ literal.toList.map Char.toNat := by
    rw [← h]
    exact List.mem_map.mpr ⟨c, hmem, hc⟩
  obtain ⟨d, hd, hdc⟩ := List.mem_map.mp hunit
  rwa [← Char.toNat_inj.mp hdc]

/-- The first character of a word is no space, if that of its literal is none. -/
theorem Spells.head {d : Char} {rest : List Char} (h : Spells literal (c :: rest))
    (hliteral : literal.toList.head? = some d) (hd : JsText.isSpace d = false) :
    JsText.isSpace c = false := by
  cases hcs : literal.toList with
  | nil => simp [hcs] at hliteral
  | cons e =>
    rw [hcs] at hliteral
    obtain rfl := Option.some.inj hliteral
    unfold Spells at h
    rw [hcs] at h
    have hunit : lowerUnit c.toNat = e.toNat := (List.cons.inj h).1
    refine Bool.eq_false_iff.mpr fun hspace => ?_
    rw [lowerUnit_of_isSpace hspace] at hunit
    rw [Char.toNat_inj.mp hunit, hd] at hspace
    cases hspace

/-! ### Values -/

theorem valueLength_isSome_iff {text : List Char} : (valueLength text).isSome = true ↔
    ∃ value rest, text = value :: rest ∧ JsText.isSpace value = false := by
  cases text with
  | nil => simp [valueLength]
  | cons c =>
    unfold valueLength
    cases hc : JsText.isSpace c <;> simp [hc]

namespace SecretPattern

variable {pattern : SecretPattern}

theorem separatorsLength_pos {text : List Char} {length : ℕ}
    (h : pattern.separatorsLength text = some length) : 0 < length := by
  cases text with
  | nil => cases h
  | cons =>
    rw [separatorsLength] at h
    split at h
    · obtain ⟨n, -, rfl⟩ := Option.map_eq_some_iff.mp h
      exact Nat.succ_pos n
    · cases h

theorem separatorsLength_isSome_iff {text : List Char} :
    (pattern.separatorsLength text).isSome = true ↔
      ∃ separators value rest, text = separators ++ value :: rest ∧ separators ≠ [] ∧
        (∀ c ∈ separators, pattern.isSeparator c = true) ∧ JsText.isSpace value = false := by
  induction text with
  | nil => simp [separatorsLength]
  | cons c text ih =>
    rw [separatorsLength]
    by_cases hc : pattern.isSeparator c = true
    · rw [if_pos hc, Option.isSome_map, Option.isSome_or, Bool.or_eq_true, ih,
        valueLength_isSome_iff]
      constructor
      · rintro (⟨separators, value, rest, rfl, -, hall, hvalue⟩ | ⟨value, rest, rfl, hvalue⟩)
        · exact ⟨c :: separators, value, rest, rfl, List.cons_ne_nil _ _,
            List.forall_mem_cons.mpr ⟨hc, hall⟩, hvalue⟩
        · exact ⟨[c], value, rest, rfl, List.cons_ne_nil _ _,
            List.forall_mem_singleton.mpr hc, hvalue⟩
      · rintro ⟨separators, value, rest, htext, hne, hall, hvalue⟩
        obtain ⟨d, separators, rfl⟩ := List.exists_cons_of_ne_nil hne
        have htail : text = separators ++ value :: rest := (List.cons.inj htext).2
        rcases eq_or_ne separators [] with rfl | hne
        · exact .inr ⟨value, rest, htail, hvalue⟩
        · exact .inl ⟨separators, value, rest, htail, hne, (List.forall_mem_cons.mp hall).2, hvalue⟩
    · rw [if_neg hc]
      refine iff_of_false Bool.false_ne_true ?_
      rintro ⟨separators, value, rest, htext, hne, hall, -⟩
      obtain ⟨d, separators, rfl⟩ := List.exists_cons_of_ne_nil hne
      obtain ⟨rfl, -⟩ := List.cons.inj htext
      exact hc (hall c List.mem_cons_self)

/-- The lengths that are tried are those of the words at the front of a text. -/
theorem mem_wordLengths_iff {text : List Char} {length : ℕ} :
    length ∈ pattern.wordLengths text ↔
      ∃ word rest, text = word ++ rest ∧ pattern.Word word ∧ word.length = length := by
  unfold wordLengths Word
  by_cases hword : beginsWith pattern.word text = true
  · rw [if_pos hword]
    obtain ⟨word, rest, rfl, hspells⟩ := beginsWith_iff.mp hword
    dsimp only
    rw [← hspells.length, List.drop_left]
    cases pattern.rest with
    | none =>
      refine List.mem_singleton.trans ⟨?_, ?_⟩
      · rintro rfl
        exact ⟨word, rest, rfl, hspells, rfl⟩
      · rintro ⟨word', rest', -, h, rfl⟩
        exact (Spells.length h).trans hspells.length.symm
    | some =>
      rw [List.mem_append, List.mem_ite_nil_right, List.mem_ite_nil_right, List.mem_singleton,
        List.mem_singleton, Bool.and_eq_true]
      constructor
      · rintro (⟨⟨hdot, hmore⟩, rfl⟩ | ⟨hmore, rfl⟩)
        · obtain ⟨dot, rest, rfl⟩ : ∃ dot rest', rest = dot :: rest' := by
            cases rest with
            | nil => cases hdot
            | cons dot rest => exact ⟨dot, rest, rfl⟩
          obtain ⟨second, rest, rfl, hsecond⟩ := beginsWith_iff.mp hmore
          refine ⟨word ++ ([dot] ++ second), rest, by simp, ?_, ?_⟩
          · exact ⟨word, [dot], second, rfl, hspells, le_rfl, List.forall_mem_singleton.mpr hdot,
              hsecond⟩
          · rw [List.length_append, List.length_append, hsecond.length, List.length_singleton]
        · obtain ⟨second, rest, rfl, hsecond⟩ := beginsWith_iff.mp hmore
          refine ⟨word ++ second, rest, (List.append_assoc _ _ _).symm, ?_, ?_⟩
          · exact ⟨word, [], second, rfl, hspells, Nat.zero_le _, List.forall_mem_nil _, hsecond⟩
          · rw [List.length_append, hsecond.length]
      · rintro ⟨_, rest', htext, ⟨first, dot, second, rfl, hfirst, hone, hdot, hsecond⟩, rfl⟩
        -- the first part of the word is as long as the literal, however the word was taken
        rw [List.append_assoc] at htext
        have hsame : word.length = first.length := hspells.length.trans (Spells.length hfirst).symm
        obtain ⟨rfl, rfl⟩ := List.append_inj htext hsame
        rw [List.append_assoc]
        match dot, hone with
        | [], _ =>
          refine .inr ⟨beginsWith_iff.mpr ⟨second, rest', rfl, hsecond⟩, ?_⟩
          rw [List.nil_append, List.length_append, hsecond.length]
        | [d], _ =>
          refine .inl ⟨⟨hdot d List.mem_cons_self, beginsWith_iff.mpr ⟨second, rest', rfl,
            hsecond⟩⟩, ?_⟩
          rw [List.length_append, List.length_append, hsecond.length, List.length_singleton]
  · rw [if_neg hword]
    refine iff_of_false List.not_mem_nil ?_
    rintro ⟨word, rest, rfl, h, -⟩
    refine hword (beginsWith_iff.mpr ?_)
    cases hrest : pattern.rest with
    | none =>
      rw [hrest] at h
      exact ⟨word, rest, rfl, h⟩
    | some =>
      rw [hrest] at h
      obtain ⟨first, dot, second, rfl, hfirst, -⟩ := h
      exact ⟨first, (dot ++ second) ++ rest, List.append_assoc _ _ _, hfirst⟩

/-- **The matcher sees what the expression describes.** -/
theorem sees_iff {text : List Char} : Sees pattern.matchLength text ↔ pattern.Begins text := by
  have hisSome : Sees pattern.matchLength text ↔ (pattern.matchLength text).isSome = true := by
    constructor
    · rintro ⟨length, hlength⟩
      rw [hlength]
      rfl
    · intro h
      obtain ⟨length, hlength⟩ := Option.isSome_iff_exists.mp h
      obtain ⟨word, -, hword⟩ := List.exists_of_findSome?_eq_some hlength
      obtain ⟨behind, hbehind, rfl⟩ := Option.map_eq_some_iff.mp hword
      have hpos := separatorsLength_pos hbehind
      exact ⟨word + behind - 1, by rw [hlength]; congr 1; omega⟩
  rw [hisSome]
  unfold matchLength
  rw [List.findSome?_isSome_iff]
  constructor
  · rintro ⟨length, hmem, hsome⟩
    obtain ⟨word, rest, rfl, hword, rfl⟩ := mem_wordLengths_iff.mp hmem
    rw [List.drop_left, Option.isSome_map, separatorsLength_isSome_iff] at hsome
    obtain ⟨separators, value, rest', rfl, hne, hall, hvalue⟩ := hsome
    exact ⟨word, separators, value, rest', rfl, hword, hne, hall, hvalue⟩
  · rintro ⟨word, separators, value, rest, rfl, hword, hne, hall, hvalue⟩
    refine ⟨word.length, mem_wordLengths_iff.mpr ⟨word, _, rfl, hword, rfl⟩, ?_⟩
    rw [List.drop_left, Option.isSome_map, separatorsLength_isSome_iff]
    exact ⟨separators, value, rest, rfl, hne, hall, hvalue⟩

/-! ### Masks -/

/-- The word begins with no space, and neither word nor separators have an asterisk. -/
def plain (pattern : SecretPattern) : Bool :=
  (pattern.word.toList.head?.any fun c => !JsText.isSpace c) &&
    !(pattern.word.toList ++ (pattern.rest.elim [] String.toList) ++ pattern.separators).contains
      '*'

variable {word : List Char}

theorem plain_iff : pattern.plain = true ↔
    (∃ c, pattern.word.toList.head? = some c ∧ JsText.isSpace c = false) ∧
      '*' ∉ pattern.word.toList ∧ '*' ∉ pattern.rest.elim [] String.toList ∧
      '*' ∉ pattern.separators := by
  simp [plain, Option.any_eq_true]

/-- A word begins with what is neither a space nor an asterisk. -/
theorem Word.head (hplain : pattern.plain = true) (h : pattern.Word word) :
    ∃ c rest, word = c :: rest ∧ JsText.isSpace c = false ∧ c ≠ '*' := by
  obtain ⟨⟨d, hd, hspace⟩, hasterisk, -⟩ := plain_iff.mp hplain
  have hfirst : ∀ first, Spells pattern.word first →
      ∃ c rest, first = c :: rest ∧ JsText.isSpace c = false ∧ c ≠ '*' := by
    intro first hspells
    cases first with
    | nil =>
      have hlength := hspells.length
      rw [List.length_nil, eq_comm, List.length_eq_zero_iff] at hlength
      rw [hlength] at hd
      cases hd
    | cons c rest =>
      refine ⟨c, rest, rfl, hspells.head hd hspace, ?_⟩
      rintro rfl
      exact hasterisk (hspells.mem (by decide) List.mem_cons_self)
  unfold Word at h
  split at h
  · exact hfirst word h
  · obtain ⟨first, dot, second, rfl, hspells, -⟩ := h
    obtain ⟨c, rest, rfl, hc⟩ := hfirst first hspells
    exact ⟨c, _, rfl, hc⟩

/-- A word has an asterisk at most where it may have any character. -/
theorem Word.count_le (hplain : pattern.plain = true) (h : pattern.Word word) :
    word.count '*' ≤ 1 := by
  obtain ⟨-, hword, hrest, -⟩ := plain_iff.mp hplain
  have hnone : ∀ {literal : String} {part : List Char}, Spells literal part →
      '*' ∉ literal.toList → part.count '*' = 0 := fun hspells hnot =>
    List.count_eq_zero.mpr fun hmem => hnot (hspells.mem (by decide) hmem)
  unfold Word at h
  split at h
  · exact (hnone h hword).le.trans (Nat.zero_le 1)
  · next more hmore =>
    rw [hmore] at hrest
    obtain ⟨first, dot, second, rfl, hfirst, hone, -, hsecond⟩ := h
    rw [List.count_append, List.count_append, hnone hfirst hword, hnone hsecond hrest]
    have hdot := List.count_le_length (a := '*') (l := dot)
    omega

theorem isSeparator_asterisk (hplain : pattern.plain = true) : pattern.isSeparator '*' = false := by
  obtain ⟨-, -, -, hseparators⟩ := plain_iff.mp hplain
  rw [isSeparator, Bool.or_eq_false_iff]
  exact ⟨by simpa using hseparators, by decide⟩

theorem ne_asterisk_cons (hplain : pattern.plain = true) {separators text rest : List Char}
    (hne : separators ≠ []) (hall : ∀ c ∈ separators, pattern.isSeparator c = true) :
    '*' :: text ≠ separators ++ rest := by
  intro h
  obtain ⟨c, separators, rfl⟩ := List.exists_cons_of_ne_nil hne
  have hc := hall c List.mem_cons_self
  rw [← (List.cons.inj h).1, isSeparator_asterisk hplain] at hc
  cases hc

/-- **A mask brings no secret about** in the place of what does not begin with a space. -/
theorem blind (hplain : pattern.plain = true) {matcher : List Char → Option ℕ}
    (hmatcher : ∀ text, Sees matcher text → ∃ c rest, text = c :: rest ∧ JsText.isSpace c = false) :
    Blind pattern.Begins redactedMask matcher where
  nil := by
    rintro ⟨word, separators, value, rest, h, -⟩
    simp at h
  inside := by
    rintro before after rest hmask hne ⟨word, separators, value, rest', h, hword, -⟩
    obtain ⟨c, after, rfl⟩ := List.exists_cons_of_ne_nil hne
    obtain ⟨d, word, rfl, -, hd⟩ := hword.head hplain
    have hc : c ∈ redactedMask := hmask ▸ List.mem_append_right _ List.mem_cons_self
    exact hd ((List.cons.inj h).1 ▸ eq_asterisk_of_mem hc)
  across := by
    rintro before rest - ⟨word, separators, value, tail, h, hword, hne, hall, hvalue⟩ text hsees
    obtain ⟨c, text, rfl, hc⟩ := hmatcher text hsees
    change before ++ '*' :: '*' :: '*' :: '*' :: rest = _ at h
    have hfirst : ∀ text rest, '*' :: text ≠ separators ++ rest := fun _ _ =>
      ne_asterisk_cons hplain hne hall
    rcases List.append_eq_append_iff.mp h with ⟨inMask, hinMask, hmask⟩ | ⟨behind, rfl, hbehind⟩
    · -- the word goes on in the mask: it would have two asterisks, or be followed by one
      match inMask, hmask with
      | [], hmask => exact absurd hmask (hfirst _ _)
      | [d], hmask => exact absurd (List.cons.inj hmask).2 (hfirst _ _)
      | d :: e :: inMask, hmask =>
        obtain rfl : '*' = d := (List.cons.inj hmask).1
        obtain rfl : '*' = e := (List.cons.inj (List.cons.inj hmask).2).1
        have hcount := hword.count_le hplain
        rw [hinMask, List.count_append, List.count_cons_self, List.count_cons_self] at hcount
        omega
    -- what is not in the mask ends with the word and its separators, or with the value
    · rcases List.append_eq_append_iff.mp hbehind with ⟨more, rfl, hmask⟩ | ⟨more, rfl, hmask⟩
      · cases more with
        | nil => exact ⟨word, separators, c, text, by simp, hword, hne, hall, hc⟩
        | cons v more =>
          obtain ⟨rfl, -⟩ := List.cons.inj hmask
          exact ⟨word, separators, value, more ++ c :: text, by simp, hword, hne, hall, hvalue⟩
      · cases more with
        | nil =>
          rw [List.append_nil] at hne hall
          exact ⟨word, behind, c, text, List.append_assoc _ _ _, hword, hne, hall, hc⟩
        | cons d =>
          obtain rfl : '*' = d := (List.cons.inj hmask).1
          have hd := hall '*' (List.mem_append_right _ List.mem_cons_self)
          rw [isSeparator_asterisk hplain] at hd
          cases hd

end SecretPattern

theorem plain_secretPatterns : ∀ pattern ∈ secretPatterns, pattern.plain = true := by
  decide

theorem SecretPattern.sees_head {pattern : SecretPattern} (hplain : pattern.plain = true)
    (text : List Char) (h : Sees pattern.matchLength text) :
    ∃ c rest, text = c :: rest ∧ JsText.isSpace c = false := by
  obtain ⟨word, separators, value, rest, rfl, hword, -⟩ := sees_iff.mp h
  obtain ⟨c, word, rfl, hc, -⟩ := hword.head hplain
  exact ⟨c, _, rfl, hc⟩

/-! ### Encoded keys -/

/-- A text is a literal, a label without any of some characters, and five dashes. -/
inductive Dashed (literal : String) (without : List Char) (text : List Char) : Prop
  | intro (word label dashes : List Char) (htext : text = word ++ (label ++ dashes))
      (hword : Spells literal word) (hne : label ≠ []) (hlabel : ∀ c ∈ without, c ∉ label)
      (hdashes : Spells "-----" dashes)

/-- **An encoded key begins the text**. Its label has none of some characters. -/
def BeginsPem (without : List Char) (text : List Char) : Prop :=
  ∃ header body footer rest, text = header ++ (body ++ (footer ++ rest)) ∧
    Dashed "-----begin" without header ∧ Dashed "-----end" ['-'] footer

theorem eq_dash (h : lowerUnit c.toNat = '-'.toNat) : c = '-' := by
  unfold lowerUnit at h
  split at h
  · next hupper =>
    have hdash : '-'.toNat = 0x2D := rfl
    omega
  · exact Char.toNat_inj.mp h

theorem Spells.dash (h : Spells literal word) (hliteral : literal.toList.head? = some '-') :
    ∃ rest, word = '-' :: rest := by
  unfold Spells at h
  cases hcs : literal.toList with
  | nil => simp [hcs] at hliteral
  | cons =>
    rw [hcs] at hliteral h
    obtain rfl := Option.some.inj hliteral
    cases word with
    | nil => cases h
    | cons c rest => exact ⟨rest, by rw [eq_dash (List.cons.inj h).1]⟩

/-- The length of a literal, a label and five dashes, where the text begins with them. -/
theorem dashedLength_iff {length : ℕ} : dashedLength literal text = some length ↔
    ∃ dashed rest, text = dashed ++ rest ∧ Dashed literal ['-'] dashed ∧
      dashed.length = length := by
  constructor
  · intro h
    unfold dashedLength at h
    split at h
    · next hbegins =>
      obtain ⟨word, behind, rfl, hword⟩ := beginsWith_iff.mp hbegins
      rw [← hword.length, List.drop_left] at h
      dsimp only at h
      obtain ⟨rest, hsplit⟩ : ∃ rest, behind.takeWhile (fun c => decide (c ≠ '-')) ++
        rest = behind :=
        ⟨_, List.takeWhile_append_dropWhile⟩
      have hlabel : ∀ c ∈ behind.takeWhile fun c => decide (c ≠ '-'), c ≠ '-' := fun c hc =>
        of_decide_eq_true (List.mem_takeWhile_imp (p := fun c => decide (c ≠ '-')) hc)
      -- the label ends at the first dash
      generalize behind.takeWhile (fun c => decide (c ≠ '-')) = label at h hsplit hlabel
      subst hsplit
      rw [List.drop_left] at h
      split at h
      · next hdashes =>
        obtain ⟨dashes, rest, rfl, hspelled⟩ := beginsWith_iff.mp hdashes.2
        refine ⟨word ++ (label ++ dashes), rest, by simp, ?_, ?_⟩
        · refine ⟨word, label, dashes, rfl, hword, hdashes.1, ?_, hspelled⟩
          exact List.forall_mem_singleton.mpr fun hmem => hlabel '-' hmem rfl
        · rw [← Option.some.inj h, List.length_append, List.length_append, hspelled.length]
          rfl
      · cases h
    · cases h
  · rintro ⟨_, rest, rfl, ⟨word, label, dashes, rfl, hword, hne, hlabel, hdashes⟩, rfl⟩
    unfold dashedLength
    have hbegins : beginsWith literal (word ++ (label ++ dashes) ++ rest) = true :=
      beginsWith_iff.mpr ⟨word, _, List.append_assoc _ _ _, hword⟩
    -- no dash is in the label, so the label is what is taken
    have htake : (label ++ (dashes ++ rest)).takeWhile (fun c => decide (c ≠ '-')) = label := by
      obtain ⟨dashes, rfl⟩ := hdashes.dash (by decide)
      rw [List.takeWhile_append_of_pos]
      · simp
      · intro c hc
        refine decide_eq_true ?_
        rintro rfl
        exact hlabel '-' List.mem_cons_self hc
    rw [if_pos hbegins, ← hword.length, List.append_assoc, List.drop_left, List.append_assoc]
    dsimp only
    rw [htake, List.drop_left, if_pos ⟨hne, beginsWith_iff.mpr ⟨dashes, rest, rfl, hdashes⟩⟩,
      List.length_append, List.length_append, hdashes.length]
    rfl

theorem Dashed.ne_nil {without : List Char} (h : Dashed literal without text) : text ≠ [] := by
  obtain ⟨word, label, dashes, rfl, -, hne, -⟩ := h
  simp [hne]

theorem Dashed.asterisk_notMem (h : Dashed "-----begin" ['-', '*'] text) : '*' ∉ text := by
  obtain ⟨word, label, dashes, rfl, hword, -, hlabel, hdashes⟩ := h
  rw [List.mem_append, List.mem_append]
  rintro (hmem | hmem | hmem)
  · exact absurd (hword.mem (by decide) hmem) (by decide)
  · exact hlabel '*' (by decide) hmem
  · exact absurd (hdashes.mem (by decide) hmem) (by decide)

theorem footerLength_isSome_iff : (footerLength text).isSome = true ↔
    ∃ body footer rest, text = body ++ (footer ++ rest) ∧ Dashed "-----end" ['-'] footer := by
  induction text with
  | nil =>
    refine iff_of_false Bool.false_ne_true ?_
    rintro ⟨body, footer, rest, h, hfooter⟩
    simp [hfooter.ne_nil] at h
  | cons c text ih =>
    rw [footerLength, Option.isSome_or, Option.isSome_map, Bool.or_eq_true, ih,
      Option.isSome_iff_exists]
    constructor
    · rintro (⟨length, h⟩ | ⟨body, footer, rest, rfl, hfooter⟩)
      · obtain ⟨footer, rest, htext, hfooter, -⟩ := dashedLength_iff.mp h
        exact ⟨[], footer, rest, htext, hfooter⟩
      · exact ⟨c :: body, footer, rest, rfl, hfooter⟩
    · rintro ⟨body, footer, rest, htext, hfooter⟩
      cases body with
      | nil => exact .inl ⟨_, dashedLength_iff.mpr ⟨footer, rest, htext, hfooter, rfl⟩⟩
      | cons d body => exact .inr ⟨body, footer, rest, (List.cons.inj htext).2, hfooter⟩

/-- **What the expression for a key sees.** -/
theorem sees_pem_iff : Sees pemLength text ↔ BeginsPem ['-'] text := by
  constructor
  · rintro ⟨length, h⟩
    obtain ⟨header, hheader, hbehind⟩ := Option.bind_eq_some_iff.mp h
    obtain ⟨header, behind, rfl, hdashed, rfl⟩ := dashedLength_iff.mp hheader
    obtain ⟨footer, hfooter, -⟩ := Option.map_eq_some_iff.mp hbehind
    rw [List.drop_left] at hfooter
    obtain ⟨body, footer, rest, rfl, hend⟩ :=
      footerLength_isSome_iff.mp (Option.isSome_iff_exists.mpr ⟨_, hfooter⟩)
    exact ⟨header, body, footer, rest, rfl, hdashed, hend⟩
  · rintro ⟨header, body, footer, rest, rfl, hheader, hfooter⟩
    obtain ⟨length, hlength⟩ := Option.isSome_iff_exists.mp
      (footerLength_isSome_iff.mpr ⟨body, footer, rest, rfl, hfooter⟩)
    have hbegin := dashedLength_iff.mpr ⟨header, body ++ (footer ++ rest), rfl, hheader, rfl⟩
    have hpos := List.length_pos_iff.mpr hheader.ne_nil
    refine ⟨header.length + length - 1, ?_⟩
    rw [pemLength, hbegin, Option.bind_some, List.drop_left, hlength, Option.map_some]
    congr 1
    omega

/-- **A mask brings no key about** whose label has no asterisk. -/
theorem blind_pem : Blind (BeginsPem ['-', '*']) redactedMask pemLength where
  nil := by
    rintro ⟨header, body, footer, rest, h, hheader, -⟩
    simp [hheader.ne_nil] at h
  inside := by
    rintro before after rest hmask hne ⟨_, body, footer, rest', h, hheader, -⟩
    obtain ⟨word, label, dashes, rfl, hword, -⟩ := hheader
    obtain ⟨word, rfl⟩ := hword.dash (by decide)
    obtain ⟨c, after, rfl⟩ := List.exists_cons_of_ne_nil hne
    have hc : c ∈ redactedMask := hmask ▸ List.mem_append_right _ List.mem_cons_self
    have hdash : '-' ∉ redactedMask := by decide
    exact hdash ((List.cons.inj h).1 ▸ hc)
  across := by
    rintro before rest - ⟨header, body, footer, tail, h, hheader, hfooter⟩ text hsees
    obtain ⟨header', body', footer', rest', rfl, -, hfooter'⟩ := sees_pem_iff.mp hsees
    obtain ⟨behind, rfl⟩ : ∃ behind, before = header ++ behind := by
      rcases List.append_eq_append_iff.mp h with ⟨inMask, hinMask, hmask⟩ | ⟨behind, hbehind, -⟩
      · cases inMask with
        | nil => exact ⟨[], by rw [hinMask]; simp⟩
        | cons c =>
          obtain rfl : '*' = c := (List.cons.inj hmask).1
          exact absurd (hinMask ▸ List.mem_append_right _ List.mem_cons_self)
            hheader.asterisk_notMem
      · exact ⟨behind, hbehind⟩
    exact ⟨header, behind ++ (header' ++ body'), footer', rest', by simp, hheader, hfooter'⟩

/-! ### Messages -/

/-- A text that was masked is free of an expression that was one of those, or was not in it. -/
theorem freeOf_foldl {patterns : List SecretPattern}
    (hplain : ∀ pattern ∈ patterns, pattern.plain = true) {pattern : SecretPattern}
    (hpattern : pattern.plain = true) {text : List Char} (h : pattern ∈ patterns ∨
      FreeOf pattern.Begins text) :
    FreeOf pattern.Begins (patterns.foldl masked text) := by
  induction patterns generalizing text with
  | nil => exact h.resolve_left List.not_mem_nil
  | cons first patterns ih =>
    obtain ⟨hfirst, hpatterns⟩ := List.forall_mem_cons.mp hplain
    refine ih hpatterns ?_
    by_cases hmem : pattern ∈ patterns
    · exact .inl hmem
    · refine .inr ?_
      rcases h with h | h
      · obtain rfl := (List.mem_cons.mp h).resolve_right hmem
        exact freeOf_replaceAll (SecretPattern.blind hfirst (SecretPattern.sees_head hfirst))
          fun rest _ => SecretPattern.sees_iff.mpr
      · exact h.replaceAll (SecretPattern.blind hpattern (SecretPattern.sees_head hfirst))

theorem foldl_eq_self {patterns : List SecretPattern} {text : List Char}
    (h : ∀ pattern ∈ patterns, FreeOf pattern.Begins text) :
    patterns.foldl masked text = text := by
  induction patterns with
  | nil => rfl
  | cons first patterns ih =>
    obtain ⟨hfirst, hpatterns⟩ := List.forall_mem_cons.mp h
    have hkept : masked text first = text :=
      replaceAll_of_freeOf fun rest hrest hsees =>
        hfirst rest hrest (SecretPattern.sees_iff.mp hsees)
    rw [List.foldl_cons, hkept, ih hpatterns]

theorem sees_pem_head (text : List Char) (h : Sees pemLength text) :
    ∃ c rest, text = c :: rest ∧ JsText.isSpace c = false := by
  obtain ⟨_, body, footer, rest, rfl, ⟨word, label, dashes, rfl, hword, -⟩, -⟩ := sees_pem_iff.mp h
  obtain ⟨word, rfl⟩ := hword.dash (by decide)
  exact ⟨'-', _, rfl, by decide⟩

theorem freeOf_redactErrorMessage {pattern : SecretPattern} (hpattern : pattern ∈ secretPatterns)
    (message : String) : FreeOf pattern.Begins (redactErrorMessage message).toList := by
  have hplain := plain_secretPatterns pattern hpattern
  have hfree : FreeOf pattern.Begins (secretPatterns.foldl masked message.toList) :=
    freeOf_foldl plain_secretPatterns hplain (.inl hpattern)
  unfold redactErrorMessage
  rw [String.toList_ofList]
  exact hfree.replaceAll (SecretPattern.blind hplain sees_pem_head)

theorem freeOf_pem_redactErrorMessage (message : String) :
    FreeOf (BeginsPem ['-', '*']) (redactErrorMessage message).toList := by
  unfold redactErrorMessage
  rw [String.toList_ofList]
  refine freeOf_replaceAll blind_pem fun rest _ hbegins => sees_pem_iff.mpr ?_
  -- the matcher allows an asterisk in the label
  obtain ⟨header, body, footer, tail, rfl, hheader, hfooter⟩ := hbegins
  refine ⟨header, body, footer, tail, rfl, ?_, hfooter⟩
  obtain ⟨word, label, dashes, hdashed, hword, hne, hlabel, hdashes⟩ := hheader
  exact ⟨word, label, dashes, hdashed, hword, hne,
    fun c hc => hlabel c (List.mem_cons.mpr (.inl (List.mem_singleton.mp hc))), hdashes⟩

/-- **No secret is left in a redacted message**: nowhere in it does an expression with a value
match, and no key is left whose label has no asterisk. A message without secrets is left as it
is. -/
theorem redacted_message (message : String) :
    (∀ pattern ∈ secretPatterns, FreeOf pattern.Begins (redactErrorMessage message).toList) ∧
      FreeOf (BeginsPem ['-', '*']) (redactErrorMessage message).toList ∧
      ((∀ pattern ∈ secretPatterns, FreeOf pattern.Begins message.toList) →
        FreeOf (BeginsPem ['-']) message.toList → redactErrorMessage message = message) := by
  refine ⟨fun pattern hpattern => freeOf_redactErrorMessage hpattern message,
    freeOf_pem_redactErrorMessage message, fun hpatterns hpem => ?_⟩
  unfold redactErrorMessage
  rw [foldl_eq_self hpatterns, replaceAll_of_freeOf, String.ofList_toList]
  exact fun rest hrest hsees => hpem rest hrest (sees_pem_iff.mp hsees)

end Ssh
