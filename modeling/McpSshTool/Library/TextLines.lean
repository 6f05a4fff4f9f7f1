import Mathlib.Data.List.Basic

/-!
# Texts as lists of lines

A text that is taken apart at its newlines has one part more than it has newlines. The last part is
blank where the text ends with a newline, and is then no line: a newline ends a line.

* `notMem_of_mem_splitOn`, `notMem_part` — no part has a newline, or what the text does not have;
* `splitOn_ended`, `splitOn_open` — parts that are written one after the other are read back;
* `lines` — the lines of a text with given parts;
* `missing`, `kept` — the lines that an edit adds, and those that it does not remove;
* `lines_append_missing_iff`, `lines_kept_iff` — when an edit of the parts is one of the lines;
* `missing_append_missing`, `kept_kept` — an edit that is made a second time.

The parts are over any type, and so is what is blank.
-/

namespace Library
namespace TextLines

variable {α : Type} [DecidableEq α]

/-! ### Parts -/

/-- What a text is taken apart at is in none of its parts. -/
theorem notMem_of_mem_splitOn {x : α} {xs part : List α} (h : part ∈ xs.splitOn x) : x ∉ part := by
  induction xs generalizing part with
  | nil =>
    rw [List.splitOn_nil, List.mem_singleton] at h
    rw [h]
    exact List.not_mem_nil
  | cons y ys ih =>
    rw [List.splitOn_cons_eq_if_modifyHead] at h
    split at h
    · rcases List.mem_cons.mp h with rfl | h
      · exact List.not_mem_nil
      · exact ih h
    · next hy =>
      -- the first part grows by a character that is no newline
      obtain ⟨first, others, hparts⟩ := List.exists_cons_of_ne_nil (List.splitOn_ne_nil x ys)
      rw [hparts, List.modifyHead_cons] at h
      rcases List.mem_cons.mp h with rfl | h
      · have hfirst : x ∉ first := ih (hparts ▸ List.mem_cons_self)
        exact fun hmem => (List.mem_cons.mp hmem).elim (fun h => hy (beq_iff_eq.mpr h.symm)) hfirst
      · exact ih (hparts ▸ List.mem_cons_of_mem first h)

/-- What a text does not have, none of its parts has. -/
theorem notMem_part {x y : α} {xs part : List α} (h : y ∉ xs) (hpart : part ∈ xs.splitOn x) :
    y ∉ part := by
  induction xs generalizing part with
  | nil =>
    rw [List.splitOn_nil, List.mem_singleton] at hpart
    rw [hpart]
    exact List.not_mem_nil
  | cons z xs ih =>
    rw [List.mem_cons, not_or] at h
    rw [List.splitOn_cons_eq_if_modifyHead] at hpart
    split at hpart
    · rcases List.mem_cons.mp hpart with rfl | hpart
      · exact List.not_mem_nil
      · exact ih h.2 hpart
    · obtain ⟨first, others, hparts⟩ := List.exists_cons_of_ne_nil (List.splitOn_ne_nil x xs)
      rw [hparts, List.modifyHead_cons] at hpart
      rcases List.mem_cons.mp hpart with rfl | hpart
      · have hfirst : y ∉ first := ih h.2 (hparts ▸ List.mem_cons_self)
        exact fun hmem => (List.mem_cons.mp hmem).elim h.1 hfirst
      · exact ih h.2 (hparts ▸ List.mem_cons_of_mem first hpart)

/-- **Parts that are each ended** are read back, with a blank one behind them. -/
theorem splitOn_ended {x : α} {parts : List (List α)} (h : ∀ part ∈ parts, x ∉ part) :
    (parts.flatMap fun part => part ++ [x]).splitOn x = parts ++ [[]] := by
  induction parts with
  | nil => rfl
  | cons part parts ih =>
    rw [List.forall_mem_cons] at h
    rw [List.flatMap_cons, List.append_assoc, List.singleton_append,
      List.splitOn_append_cons_self_of_not_mem h.1, ih h.2, List.cons_append]

omit [DecidableEq α] in
theorem flatMap_ended (x : α) (part : List α) (parts : List (List α)) :
    ((part :: parts).flatMap fun part => part ++ [x]) =
      (part ++ parts.flatMap fun part => x :: part) ++ [x] := by
  induction parts generalizing part with
  | nil => simp
  | cons next parts ih =>
    rw [List.flatMap_cons, ih, List.flatMap_cons]
    simp

theorem splitOn_open {x : α} {part : List α} {parts : List (List α)} (hpart : x ∉ part)
    (h : ∀ part ∈ parts, x ∉ part) :
    (part ++ parts.flatMap fun part => x :: part).splitOn x = part :: parts := by
  induction parts generalizing part with
  | nil => rw [List.flatMap_nil, List.append_nil, List.splitOn_eq_singleton hpart]
  | cons next parts ih =>
    rw [List.forall_mem_cons] at h
    rw [List.flatMap_cons, List.cons_append, List.splitOn_append_cons_self_of_not_mem hpart,
      ih h.1 h.2]

/-! ### Lines -/

variable (blank : α)

/-- **The lines of a text** that is taken apart into these parts. -/
def lines (parts : List α) : List α :=
  if parts.getLast? = some blank then parts.dropLast else parts

/-- The lines that are asked for and are not there, in the order in which they are asked for. -/
def missing (wanted existing : List α) : List α := wanted.filter fun line => line ∉ existing

/-- The lines that are there and are not to go. -/
def kept (unwanted existing : List α) : List α := existing.filter fun line => line ∉ unwanted

variable {blank} {parts wanted unwanted existing : List α}

theorem lines_of_open (h : parts.getLast? ≠ some blank) : lines blank parts = parts := if_neg h

theorem lines_concat (parts : List α) : lines blank (parts ++ [blank]) = parts := by
  rw [lines, if_pos List.getLast?_concat, List.dropLast_concat]

theorem eq_lines_append (h : parts.getLast? = some blank) :
    parts = lines blank parts ++ [blank] := by
  rw [lines, if_pos h, List.dropLast_append_getLast? blank h]

omit [DecidableEq α] in
theorem getLast?_ne_of_notMem (h : blank ∉ parts) : parts.getLast? ≠ some blank :=
  fun hlast => h (List.mem_of_getLast? hlast)

theorem lines_eq_self_iff : lines blank parts = parts ↔ parts.getLast? ≠ some blank := by
  refine ⟨fun h hlast => ?_, lines_of_open⟩
  have hlength := congrArg List.length (eq_lines_append hlast)
  rw [h, List.length_append, List.length_singleton] at hlength
  omega

theorem mem_missing {line : α} : line ∈ missing wanted existing ↔ line ∈ wanted ∧
    line ∉ existing := by
  rw [missing, List.mem_filter, decide_eq_true_iff]

theorem mem_kept {line : α} : line ∈ kept unwanted existing ↔ line ∈ existing ∧
    line ∉ unwanted := by
  rw [kept, List.mem_filter, decide_eq_true_iff]

theorem missing_eq_nil_iff : missing wanted existing = [] ↔ ∀ line ∈ wanted, line ∈ existing := by
  rw [missing, List.filter_eq_nil_iff]
  refine forall₂_congr fun line _ => ?_
  rw [decide_eq_true_iff, not_not]

theorem missing_eq_self_iff : missing wanted existing = wanted ↔
    ∀ line ∈ wanted, line ∉ existing := by
  rw [missing, List.filter_eq_self]
  exact forall₂_congr fun line _ => decide_eq_true_iff

theorem kept_eq_nil_iff : kept unwanted existing = [] ↔ ∀ line ∈ existing, line ∈ unwanted := by
  rw [kept, List.filter_eq_nil_iff]
  refine forall₂_congr fun line _ => ?_
  rw [decide_eq_true_iff, not_not]

theorem kept_eq_self_iff : kept unwanted existing = existing ↔
    ∀ line ∈ existing, line ∉ unwanted := by
  rw [kept, List.filter_eq_self]
  exact forall₂_congr fun line _ => decide_eq_true_iff

theorem missing_concat (wanted existing : List α) :
    missing wanted (existing ++ [blank]) = (missing wanted existing).filter (· ≠ blank) := by
  rw [missing, missing, List.filter_filter]
  refine List.filter_congr fun line _ => ?_
  -- both sides ask for a line that is not there and not blank
  rw [← Bool.decide_and, decide_eq_decide, List.mem_append, List.mem_singleton, not_or, and_comm]

theorem kept_concat_of_mem (h : blank ∈ unwanted) (existing : List α) :
    kept unwanted (existing ++ [blank]) = kept unwanted existing := by
  rw [kept, List.filter_append, List.filter_singleton, decide_eq_false (not_not_intro h),
    cond_false, List.append_nil, kept]

theorem kept_concat_of_notMem (h : blank ∉ unwanted) (existing : List α) :
    kept unwanted (existing ++ [blank]) = kept unwanted existing ++ [blank] := by
  rw [kept, List.filter_append, List.filter_singleton, decide_eq_true h, cond_true, kept]

/-! ### Edits -/

variable (blank) in
/-- **When the missing lines can be put after the parts**: they do not end with a blank one, which
would be taken for the end of the line before; and where the last part is blank, it becomes a line,
so that the first of them has to be a blank one, and the only one. -/
def Appends (wanted parts : List α) : Prop :=
  (parts.getLast? ≠ some blank → (missing wanted parts).getLast? ≠ some blank) ∧
  (parts.getLast? = some blank → missing wanted (lines blank parts) = [] ∨
    ∃ rest, missing wanted (lines blank parts) = blank :: rest ∧ rest ≠ [] ∧ blank ∉ rest)

theorem lines_append_of_ne_nil {more : List α} (hne : more ≠ []) :
    lines blank (parts ++ more) = parts ++ lines blank more := by
  have hlast : (parts ++ more).getLast? = more.getLast? := by
    rw [List.getLast?_append]
    obtain ⟨line, hline⟩ := Option.ne_none_iff_exists'.mp (List.getLast?_eq_none_iff.not.mpr hne)
    rw [hline, Option.some_or]
  rw [lines, lines, hlast]
  split
  · exact List.dropLast_append_of_ne_nil hne
  · rfl

theorem eq_cons_filter_iff {l : List α} (hne : l.filter (· ≠ blank) ≠ []) :
    blank :: l.filter (· ≠ blank) = l ↔
      ∃ rest, l = blank :: rest ∧ rest ≠ [] ∧ blank ∉ rest := by
  constructor
  · intro h
    refine ⟨l.filter (· ≠ blank), h.symm, hne, fun hmem => ?_⟩
    exact of_decide_eq_true (List.mem_filter.mp hmem).2 rfl
  · rintro ⟨rest, rfl, -, hrest⟩
    rw [List.filter_cons_of_neg (by simp), List.filter_eq_self.mpr]
    exact fun line hline => decide_eq_true fun h => hrest (h ▸ hline)

/-- **The parts with the missing ones after them** are the lines with the missing ones after them
exactly where these can be appended. -/
theorem lines_append_missing_iff (wanted parts : List α) :
    lines blank (parts ++ missing wanted parts) =
        lines blank parts ++ missing wanted (lines blank parts) ↔
      Appends blank wanted parts := by
  by_cases hlast : parts.getLast? = some blank
  · -- the blank part is passed over by the lines, and becomes one itself
    rw [Appends, and_iff_right fun h => absurd hlast h, forall_prop_of_true hlast]
    obtain ⟨existing, hexisting⟩ : ∃ existing, lines blank parts = existing := ⟨_, rfl⟩
    rw [eq_lines_append hlast, lines_concat, hexisting, missing_concat]
    by_cases hnone : (missing wanted existing).filter (· ≠ blank) = []
    · -- nothing but blank lines is missing, and they are taken to be there
      rw [hnone, List.append_nil, lines_concat, List.self_eq_append_right]
      refine ⟨.inl, fun h => h.resolve_right ?_⟩
      rintro ⟨rest, hmissing, hne, hrest⟩
      obtain ⟨line, hline⟩ := List.exists_mem_of_ne_nil rest hne
      rw [hmissing, List.filter_eq_nil_iff] at hnone
      exact hnone line (List.mem_cons_of_mem blank hline)
        (decide_eq_true fun h => hrest (h ▸ hline))
    · have hopen : ((missing wanted existing).filter (· ≠ blank)).getLast? ≠ some blank :=
        getLast?_ne_of_notMem fun hmem => of_decide_eq_true (List.mem_filter.mp hmem).2 rfl
      -- the other missing lines come behind the blank part
      rw [lines_append_of_ne_nil hnone, lines_of_open hopen, List.append_assoc,
        List.append_cancel_left_eq, List.singleton_append, eq_cons_filter_iff hnone]
      refine ⟨.inr, fun h => h.resolve_left fun hnil => hnone ?_⟩
      rw [hnil, List.filter_nil]
  · rw [Appends, forall_prop_of_true hlast, and_iff_left fun h => absurd h hlast,
      lines_of_open hlast]
    by_cases hnone : missing wanted parts = []
    · rw [hnone, List.append_nil, lines_of_open hlast, List.getLast?_nil]
      exact iff_of_true rfl nofun
    · rw [lines_append_of_ne_nil hnone, List.append_cancel_left_eq, lines_eq_self_iff]

/-- **The parts that are kept** are the parts of the kept lines, unless the text gets to end with a
blank line and did not end with a newline. -/
theorem lines_kept_iff (unwanted parts : List α) :
    lines blank (kept unwanted parts) = kept unwanted (lines blank parts) ↔
      (parts.getLast? ≠ some blank → (kept unwanted parts).getLast? ≠ some blank) := by
  by_cases hlast : parts.getLast? = some blank
  · refine iff_of_true ?_ fun h => absurd hlast h
    obtain ⟨existing, hexisting⟩ : ∃ existing, lines blank parts = existing := ⟨_, rfl⟩
    rw [eq_lines_append hlast, lines_concat, hexisting]
    by_cases hblank : blank ∈ unwanted
    · -- the blank part goes with the blank lines, and what stays does not end with one
      rw [kept_concat_of_mem hblank]
      exact lines_of_open (getLast?_ne_of_notMem fun hmem => (mem_kept.mp hmem).2 hblank)
    · rw [kept_concat_of_notMem hblank, lines_concat]
  · rw [forall_prop_of_true hlast, lines_of_open hlast, lines_eq_self_iff]

/-! ### Edits that are made again -/

theorem missing_append_missing (wanted existing : List α) :
    missing wanted (existing ++ missing wanted existing) = [] := by
  refine missing_eq_nil_iff.mpr fun line hline => ?_
  by_cases hexisting : line ∈ existing
  · exact List.mem_append_left _ hexisting
  · exact List.mem_append_right _ (mem_missing.mpr ⟨hline, hexisting⟩)

theorem kept_kept (unwanted existing : List α) :
    kept unwanted (kept unwanted existing) = kept unwanted existing :=
  kept_eq_self_iff.mpr fun _ hline => (mem_kept.mp hline).2

end TextLines
end Library
