import McpSshTool.Ssh.Ensure

/-!
# Edits of the lines of a text

What becomes of the lines of a file that `editLines` edits, whatever the file has in it.

* `linesOf`, `fileLines` — the lines of a text, and of what is found of a file;
* `linesEdit`, `textAfter` — the edit, and the text that stands in the file after it;
* `splitText_present`, `splitText_created`, `splitText_absent` — the parts of that text;
* `fileLines_textAfter_iff` — when the lines of the file are those that were asked for;
* `fileLines_edited_iff` — the same where the file is shown as another text than it has in it;
* `linesEdit_textAfter_iff` — when there is nothing left to edit.
-/

open Library TextLines

namespace Ssh

/-! ### Lines of a text -/

/-- **The lines of a text**: a newline ends a line. -/
def linesOf (text : String) : List String := lines "" (splitText text '\n')

/-- The lines of a file of which a text is found. A file that is not there has none. -/
def fileLines : Option String → List String
  | some text => linesOf text
  | none => []

theorem splitText_ne_nil (text : String) (c : Char) : splitText text c ≠ [] := by
  rw [splitText, ne_eq, List.map_eq_nil_iff]
  exact List.splitOn_ne_nil c _

theorem splitText_empty (c : Char) : splitText "" c = [""] := rfl

theorem notMem_of_mem_splitText {text part : String} {c : Char} (h : part ∈ splitText text c) :
    c ∉ part.toList := by
  obtain ⟨cs, hcs, rfl⟩ := List.mem_map.mp h
  rw [String.toList_ofList]
  exact notMem_of_mem_splitOn hcs

theorem splitText_append (text more : String) :
    splitText (text ++ "\n" ++ more) '\n' = splitText text '\n' ++ splitText more '\n' := by
  have htext : (text ++ "\n" ++ more).toList = text.toList ++ '\n' :: more.toList := by
    rw [String.toList_append, String.toList_append, List.append_assoc]
    rfl
  rw [splitText, htext, List.splitOn_append_cons_self, List.map_append]
  rfl

theorem splitText_join {parts : List String} (hne : parts ≠ [])
    (hparts : ∀ part ∈ parts, '\n' ∉ part.toList) :
    splitText (String.intercalate "\n" parts) '\n' = parts := by
  have hsplit : (['\n'].intercalate (parts.map String.toList)).splitOn '\n' =
      parts.map String.toList := by
    refine List.splitOn_intercalate _ (fun cs hcs => ?_) fun h => hne (List.map_eq_nil_iff.mp h)
    obtain ⟨part, hpart, rfl⟩ := List.mem_map.mp hcs
    exact hparts part hpart
  rw [splitText, String.toList_intercalate, show "\n".toList = ['\n'] from rfl, hsplit,
    List.map_map]
  refine (List.map_congr_left fun part _ => ?_).trans (List.map_id parts)
  exact String.ofList_toList

/-! ### Edits of a text -/

/-- **The edit** of what is found of a file. -/
def linesEdit (state : Presence) (wanted : List String) : Option String → Option String × ℤ
  | some text => editLines state wanted true text
  | none =>
    match state with
    | .absent => (none, 0)
    | .present => editLines .present wanted false ""

/-- **The text after the edit**, if there is a file then. -/
def textAfter (state : Presence) (wanted : List String) (found : Option String) : Option String :=
  (linesEdit state wanted found).1.or found

section Texts

variable (wanted : List String) (text : String)

theorem editLines_present (fileExists : Bool) :
    editLines .present wanted fileExists text =
      if missing wanted (splitText text '\n') = [] then (none, 0)
      else
        (some (if fileExists then
            text ++ "\n" ++ String.intercalate "\n" (missing wanted (splitText text '\n'))
          else String.intercalate "\n" (missing wanted (splitText text '\n'))),
          ((missing wanted (splitText text '\n')).length : ℤ)) := by
  -- the source asks for the length of the missing lines
  rw [← ite_congr (propext List.length_eq_zero_iff) (fun _ => rfl) fun _ => rfl]
  rfl

theorem editLines_absent (fileExists : Bool) :
    editLines .absent wanted fileExists text =
      if kept wanted (splitText text '\n') = splitText text '\n' then (none, 0)
      else
        (some (String.intercalate "\n" (kept wanted (splitText text '\n'))),
          -(((splitText text '\n').length -
            (kept wanted (splitText text '\n')).length : ℕ) : ℤ)) := by
  -- the source compares lengths, and only lists of the same length are the same after a filter
  have hlength : (kept wanted (splitText text '\n')).length = (splitText text '\n').length ↔
      kept wanted (splitText text '\n') = splitText text '\n' := by
    rw [kept, List.length_filter_eq_length_iff, List.filter_eq_self]
  rw [← ite_congr (propext hlength) (fun _ => rfl) fun _ => rfl]
  rfl

/-! ### The text after an edit -/

/-- **Lines that are added** are parts of the text behind those that it had. -/
theorem splitText_present (hwanted : ∀ line ∈ wanted, '\n' ∉ line.toList) :
    ∃ after, textAfter .present wanted (some text) = some after ∧
      splitText after '\n' = splitText text '\n' ++ missing wanted (splitText text '\n') := by
  rw [textAfter, linesEdit, editLines_present]
  split
  · next hnone => exact ⟨text, rfl, by rw [hnone, List.append_nil]⟩
  · next hne =>
    refine ⟨_, rfl, ?_⟩
    rw [if_pos rfl, splitText_append, splitText_join hne]
    exact fun line hline => hwanted line (mem_missing.mp hline).1

theorem splitText_created (hwanted : ∀ line ∈ wanted, '\n' ∉ line.toList) :
    missing wanted [""] = [] ∧ textAfter .present wanted none = none ∨
      missing wanted [""] ≠ [] ∧ ∃ after, textAfter .present wanted none = some after ∧
        splitText after '\n' = missing wanted [""] := by
  rw [textAfter, linesEdit, editLines_present, splitText_empty]
  split
  · next hnone => exact .inl ⟨hnone, rfl⟩
  · next hne =>
    refine .inr ⟨hne, _, rfl, ?_⟩
    rw [if_neg Bool.false_ne_true, splitText_join hne]
    exact fun line hline => hwanted line (mem_missing.mp hline).1

/-- **Lines that are removed** are no parts of the text any more. A text without any line is one
blank part all the same. -/
theorem splitText_absent :
    ∃ after, textAfter .absent wanted (some text) = some after ∧
      (kept wanted (splitText text '\n') = [] → splitText after '\n' = [""]) ∧
      (kept wanted (splitText text '\n') ≠ [] →
        splitText after '\n' = kept wanted (splitText text '\n')) := by
  rw [textAfter, linesEdit, editLines_absent]
  split
  · next hsame =>
    refine ⟨text, rfl, fun hnone => ?_, fun _ => hsame.symm⟩
    -- a text has a part, so that not all of them are gone where nothing is written
    exact absurd (hsame.symm.trans hnone) (splitText_ne_nil text '\n')
  · refine ⟨_, rfl, fun hnone => ?_, fun hne => ?_⟩
    · rw [hnone]
      exact splitText_empty '\n'
    · rw [splitText_join hne]
      -- what is kept came out of a text, so it has no newlines in it
      exact fun line hline => notMem_of_mem_splitText (mem_kept.mp hline).1

end Texts

/-! ### What is asked for -/

/-- **The lines that are asked for**: those that are there with the missing ones behind them, or
those that are there without the unwanted ones. -/
def requestedLines (state : Presence) (wanted existing : List String) : List String :=
  match state with
  | .present => existing ++ missing wanted existing
  | .absent => kept wanted existing

/-- **When the edit of a text is one of its lines.** Lines can be added where `Appends` says so, a
file is created with the lines that are not blank, and of a text that does not end with a newline,
the last line that is kept is not a blank one. -/
def EditsLines (state : Presence) (wanted : List String) (found : Option String) : Prop :=
  match state, found with
  | .present, some text => Appends "" wanted (splitText text '\n')
  | .present, none => "" ∉ wanted
  | .absent, some text =>
    (splitText text '\n').getLast? ≠ some "" →
      (kept wanted (splitText text '\n')).getLast? ≠ some ""
  | .absent, none => True

/-- The lines of a created file. -/
theorem fileLines_created_iff {wanted : List String}
    (hwanted : ∀ line ∈ wanted, '\n' ∉ line.toList) :
    fileLines (textAfter .present wanted none) = wanted ↔ "" ∉ wanted := by
  have hblank : missing wanted [""] = wanted ↔ "" ∉ wanted := by
    rw [missing_eq_self_iff]
    refine ⟨fun h hmem => h "" hmem List.mem_cons_self, fun h line hline hmem => h ?_⟩
    rwa [List.mem_singleton.mp hmem] at hline
  have hopen : (missing wanted [""]).getLast? ≠ some "" :=
    getLast?_ne_of_notMem fun hmem => (mem_missing.mp hmem).2 List.mem_cons_self
  rw [← hblank]
  rcases splitText_created wanted hwanted with ⟨hnone, hafter⟩ | ⟨-, after, hafter, hparts⟩
  · rw [hafter, hnone]
    rfl
  · rw [hafter, fileLines, linesOf, hparts, lines_of_open hopen]

/-- **The lines after an edit.** -/
theorem fileLines_textAfter_iff {state : Presence} {wanted : List String} {found : Option String}
    (hwanted : ∀ line ∈ wanted, '\n' ∉ line.toList) :
    fileLines (textAfter state wanted found) = requestedLines state wanted (fileLines found) ↔
      EditsLines state wanted found := by
  cases found with
  | none =>
    cases state with
    | present =>
      have hall : requestedLines .present wanted (fileLines none) = wanted := by
        change [] ++ missing wanted [] = wanted
        rw [List.nil_append, missing_eq_self_iff]
        exact fun _ _ => List.not_mem_nil
      rw [hall]
      -- of no lines, all are missing
      exact fileLines_created_iff hwanted
    | absent => exact iff_of_true rfl trivial
  | some text =>
    cases state with
    | present =>
      obtain ⟨after, hafter, hparts⟩ := splitText_present wanted text hwanted
      rw [hafter, fileLines, linesOf, hparts]
      exact lines_append_missing_iff wanted _
    | absent =>
      obtain ⟨after, hafter, hnone, hsome⟩ := splitText_absent wanted text
      -- a blank part that stays where all lines go is no line
      have hlines : linesOf after = lines "" (kept wanted (splitText text '\n')) := by
        rw [linesOf]
        by_cases hkept : kept wanted (splitText text '\n') = []
        · rw [hnone hkept, hkept]
          rfl
        · rw [hsome hkept]
      rw [hafter, fileLines, hlines]
      exact lines_kept_iff wanted _

/-! ### A file that is shown as another text -/

section Shown

variable {state : Presence} {wanted : List String} {shown content : Option String}

theorem editLines_present_eq_none {fileExists : Bool} {text : String} :
    (editLines .present wanted fileExists text).1 = none ↔
      ∀ line ∈ wanted, line ∈ splitText text '\n' := by
  rw [editLines_present, ← missing_eq_nil_iff]
  split
  · next hnone => exact iff_of_true rfl hnone
  · next hne => exact iff_of_false nofun hne

theorem editLines_absent_eq_none {fileExists : Bool} {text : String} :
    (editLines .absent wanted fileExists text).1 = none ↔
      ∀ line ∈ splitText text '\n', line ∉ wanted := by
  rw [editLines_absent, ← kept_eq_self_iff]
  split
  · next hsame => exact iff_of_true rfl hsame
  · next hne => exact iff_of_false nofun hne

/-- **There is nothing to edit** in what is shown of a file: every line that is wanted is a part of
it, or no part of it is unwanted. -/
def NothingToEdit (state : Presence) (wanted : List String) (shown : Option String) : Prop :=
  match state, shown with
  | .present, shown => ∀ line ∈ wanted, line ∈ splitText (shown.getD "") '\n'
  | .absent, some text => ∀ line ∈ splitText text '\n', line ∉ wanted
  | .absent, none => True

theorem linesEdit_eq_none_iff :
    (linesEdit state wanted shown).1 = none ↔ NothingToEdit state wanted shown := by
  cases state with
  | present =>
    cases shown with
    | none => exact editLines_present_eq_none
    | some => exact editLines_present_eq_none
  | absent =>
    cases shown with
    | none => exact iff_of_true rfl trivial
    | some text => exact @editLines_absent_eq_none wanted true text

/-- The parts of the text that an edit makes of what is shown. -/
def editedParts (state : Presence) (wanted : List String) (shown : Option String) : List String :=
  match state, shown with
  | .present, some text => splitText text '\n' ++ missing wanted (splitText text '\n')
  | .present, none => missing wanted [""]
  | .absent, shown => kept wanted (splitText (shown.getD "") '\n')

/-- **The lines of the text that an edit makes.** -/
theorem linesOf_edited (hwanted : ∀ line ∈ wanted, '\n' ∉ line.toList) {after : String}
    (h : (linesEdit state wanted shown).1 = some after) :
    linesOf after = lines "" (editedParts state wanted shown) := by
  have hafter : textAfter state wanted shown = some after := by rw [textAfter, h, Option.some_or]
  unfold linesOf
  cases shown with
  | none =>
    cases state with
    | absent => cases h
    | present =>
      rcases splitText_created wanted hwanted with ⟨-, hnone⟩ | ⟨-, text, htext, hparts⟩
      · cases hnone.symm.trans hafter
      · obtain rfl := Option.some.inj (htext.symm.trans hafter)
        exact congrArg (lines "") hparts
  | some text =>
    cases state with
    | present =>
      obtain ⟨after', hafter', hparts⟩ := splitText_present wanted text hwanted
      obtain rfl := Option.some.inj (hafter'.symm.trans hafter)
      exact congrArg (lines "") hparts
    | absent =>
      obtain ⟨after', hafter', hnone, hsome⟩ := splitText_absent wanted text
      obtain rfl := Option.some.inj (hafter'.symm.trans hafter)
      change _ = lines "" (kept wanted (splitText text '\n'))
      by_cases hkept : kept wanted (splitText text '\n') = []
      · -- a blank part that stays where all lines go is no line
        rw [hnone hkept, hkept]
        rfl
      · rw [hsome hkept]

/-- **When the edit of what is shown is one of the lines of the content.** -/
def EditsContent (state : Presence) (wanted : List String) (shown content : Option String) : Prop :=
  (shown = content → EditsLines state wanted content) ∧
  (shown ≠ content → NothingToEdit state wanted shown →
    requestedLines state wanted (fileLines content) = fileLines content) ∧
  (shown ≠ content → ¬NothingToEdit state wanted shown →
    lines "" (editedParts state wanted shown) = requestedLines state wanted (fileLines content))

/-- **The lines that an edit leaves in the file**, of a file that is shown as some text or as
none. -/
theorem fileLines_edited_iff (hwanted : ∀ line ∈ wanted, '\n' ∉ line.toList) :
    fileLines ((linesEdit state wanted shown).1.or content) =
        requestedLines state wanted (fileLines content) ↔
      EditsContent state wanted shown content := by
  unfold EditsContent
  by_cases hshown : shown = content
  · -- the file is shown as it is
    subst hshown
    rw [forall_prop_of_true rfl, and_iff_left ⟨fun h => absurd rfl h, fun h => absurd rfl h⟩]
    exact fileLines_textAfter_iff hwanted
  · rw [and_iff_right fun h => absurd h hshown, forall_prop_of_true hshown,
      forall_prop_of_true hshown]
    cases hedit : (linesEdit state wanted shown).1 with
    | none =>
      have hnothing := linesEdit_eq_none_iff.mp hedit
      rw [forall_prop_of_true hnothing, and_iff_left fun h => absurd hnothing h]
      exact eq_comm
    | some after =>
      have hsomething : ¬NothingToEdit state wanted shown := fun h =>
        Option.some_ne_none after (hedit.symm.trans (linesEdit_eq_none_iff.mpr h))
      rw [and_iff_right fun h => absurd h hsomething, forall_prop_of_true hsomething,
        ← linesOf_edited hwanted hedit]
      exact Iff.rfl

end Shown

/-! ### An edit that is made again -/

/-- **When an edit leaves nothing to edit.** A line with a newline in it is never there, blank lines
are left out of a file that is created with others, and where all lines go, a blank part stays. -/
def EditSettles (state : Presence) (wanted : List String) (found : Option String) : Prop :=
  match state, found with
  | .present, some _ => ∀ line ∈ wanted, '\n' ∉ line.toList
  | .present, none =>
    (∀ line ∈ wanted, '\n' ∉ line.toList) ∧ ("" ∈ wanted → ∀ line ∈ wanted, line = "")
  | .absent, some text => "" ∈ wanted → ∃ line ∈ splitText text '\n', line ∉ wanted
  | .absent, none => True

section Settled

variable {wanted : List String}

theorem exists_textAfter (state : Presence) (wanted : List String) (text : String) :
    ∃ after, textAfter state wanted (some text) = some after := by
  rw [textAfter]
  cases (linesEdit state wanted (some text)).1 with
  | none => exact ⟨text, rfl⟩
  | some after => exact ⟨after, rfl⟩

theorem notMem_of_editLines {fileExists : Bool} {text : String}
    (h : (editLines .present wanted fileExists text).1 = none) :
    ∀ line ∈ wanted, '\n' ∉ line.toList :=
  fun line hline => notMem_of_mem_splitText (editLines_present_eq_none.mp h line hline)

/-- A file that is created, and then looked at again. -/
theorem linesEdit_created_iff :
    (linesEdit .present wanted (textAfter .present wanted none)).1 = none ↔
      EditSettles .present wanted none := by
  have hblank : '\n' ∉ "".toList := List.not_mem_nil
  by_cases hall : ∀ line ∈ wanted, line = ""
  · -- no file is created
    have hnone : (linesEdit .present wanted none).1 = none := by
      refine editLines_present_eq_none.mpr fun line hline => ?_
      rw [hall line hline]
      exact List.mem_cons_self
    rw [textAfter, hnone]
    refine iff_of_true hnone ⟨fun line hline => ?_, fun _ => hall⟩
    rw [hall line hline]
    exact hblank
  have hne : missing wanted [""] ≠ [] := by
    rw [ne_eq, missing_eq_nil_iff]
    exact fun h => hall fun line hline => List.mem_singleton.mp (h line hline)
  constructor
  · intro h
    have hwanted : ∀ line ∈ wanted, '\n' ∉ line.toList := by
      cases hafter : textAfter .present wanted none with
      | none =>
        rw [hafter] at h
        exact notMem_of_editLines h
      | some =>
        rw [hafter] at h
        exact notMem_of_editLines h
    refine ⟨hwanted, fun hmem => ?_⟩
    obtain ⟨-, after, hafter, hparts⟩ :=
      (splitText_created wanted hwanted).resolve_left fun hnone => hne hnone.1
    rw [hafter] at h
    -- a blank line was left out, so that it is missing now
    have hpart : "" ∈ splitText after '\n' := editLines_present_eq_none.mp h "" hmem
    rw [hparts] at hpart
    exact absurd List.mem_cons_self (mem_missing.mp hpart).2
  · rintro ⟨hwanted, hblanks⟩
    obtain ⟨-, after, hafter, hparts⟩ :=
      (splitText_created wanted hwanted).resolve_left fun hnone => hne hnone.1
    rw [hafter]
    refine editLines_present_eq_none.mpr fun line hline => ?_
    rw [hparts]
    refine mem_missing.mpr ⟨hline, fun hmem => hall (hblanks ?_)⟩
    rwa [List.mem_singleton.mp hmem] at hline

/-- **When there is nothing left to edit.** -/
theorem linesEdit_textAfter_iff {state : Presence} {found : Option String} :
    (linesEdit state wanted (textAfter state wanted found)).1 = none ↔
      EditSettles state wanted found := by
  cases found with
  | none =>
    cases state with
    | present => exact linesEdit_created_iff
    | absent => exact iff_of_true rfl trivial
  | some text =>
    cases state with
    | present =>
      constructor
      · intro h
        obtain ⟨after, hafter⟩ := exists_textAfter .present wanted text
        rw [hafter] at h
        exact notMem_of_editLines h
      · intro hwanted
        obtain ⟨after, hafter, hparts⟩ := splitText_present wanted text hwanted
        rw [hafter]
        refine editLines_present_eq_none.mpr (missing_eq_nil_iff.mp ?_)
        rw [hparts]
        exact missing_append_missing wanted _
    | absent =>
      obtain ⟨after, hafter, hnone, hsome⟩ := splitText_absent wanted text
      rw [hafter]
      change (editLines .absent wanted true after).1 = none ↔ _
      rw [editLines_absent_eq_none]
      by_cases hkept : kept wanted (splitText text '\n') = []
      · -- the blank part that stays is looked at as a line
        rw [hnone hkept, List.forall_mem_singleton]
        refine ⟨fun h hmem => absurd hmem h, fun h hmem => ?_⟩
        obtain ⟨line, hline, hnot⟩ := h hmem
        exact hnot (kept_eq_nil_iff.mp hkept line hline)
      · rw [hsome hkept]
        refine iff_of_true (kept_eq_self_iff.mp (kept_kept wanted _)) fun _ => ?_
        obtain ⟨line, hline⟩ := List.exists_mem_of_ne_nil _ hkept
        exact ⟨line, mem_kept.mp hline⟩

end Settled

end Ssh
