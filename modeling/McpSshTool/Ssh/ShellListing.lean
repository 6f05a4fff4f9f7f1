import Mathlib.Data.Bool.AllAny
import McpSshTool.Library.TreeGrowth
import McpSshTool.Ssh.Pagination

/-!
# The directory listing of the shell

What the listing script prints of a directory, and what `listDirectory` reads of it.

* `ListedMember`, `ListedDirectory` — a directory, as the shell finds it;
* `printListing` — the output of the script;
* `shown_perm` — the three patterns together have every name once;
* `parsed_print`, `parsed_trim` — what is read of the output, and of the output without the white
  space at its ends, which is what the SSH library hands over;
* `shell_listing_iff` — when it is the directory.
-/

open Library Program

namespace Ssh

/-! ### The script -/

/-- A member of a directory, with what the script finds out about it. -/
structure ListedMember where
  name : String
  type : FileType
  /-- What it leads to is there. -/
  found : Bool
  size : ℕ
  mtime : ℤ
deriving DecidableEq, Repr

/-- **A directory**, with its members in the order of the shell. -/
structure ListedDirectory where
  members : List ListedMember
  names : ∀ m ∈ members, FileTree.IsName m.name ∧ Char.ofNat 0 ∉ m.name.toList
  distinct : (members.map ListedMember.name).Nodup

/-- The name matches `*`. -/
def matchesVisible (name : String) : Bool := name.toList.head? ≠ some '.'

/-- The name matches `.[!.]*`. -/
def matchesHidden (name : String) : Bool :=
  match name.toList with
  | '.' :: c :: _ => c ≠ '.'
  | _ => false

/-- The name matches `..?*`. -/
def matchesDotted (name : String) : Bool :=
  match name.toList with
  | '.' :: '.' :: _ :: _ => true
  | _ => false

/-- `name=$(basename "$item")`, without the newlines at its end. -/
def basenameOutput (item : String) : String :=
  if isOption item then ""
  else String.ofList ((fileName item).toList.reverse.dropWhile (· = '\n')).reverse

namespace ListedDirectory

variable (dir : ListedDirectory) (path : String)

/-- The names that a pattern is expanded to. A pattern that matches nothing stays as it is. -/
def expand (pattern : String) (matchesName : String → Bool) : List String :=
  let names := (dir.members.map (·.name)).filter matchesName
  if names = [] then [pattern] else names

/-- The items of the script's loop, by their names. -/
def items : List String :=
  dir.expand "*" matchesVisible ++ dir.expand ".[!.]*" matchesHidden ++
    dir.expand "..?*" matchesDotted

/-- What `printf` is given of a member. -/
def record (m : ListedMember) : String :=
  basenameOutput (path ++ "/" ++ m.name) ++ "\t" ++ m.type.text ++ "\t" ++
    toString m.size ++ "\t" ++
    toString m.mtime

/-- What is printed of an item. -/
def printItem (name : String) : List Char :=
  match dir.members.find? fun m => m.name = name with
  | some m => if m.found then (record path m).toList ++ ['\n'] else []
  | none => []

/-- **What the script prints.** -/
def printListing : String := String.ofList (dir.items.flatMap (dir.printItem path))

/-- The members that it prints, in its order. -/
def shown : List ListedMember :=
  (dir.members.filter (matchesVisible ·.name) ++ dir.members.filter (matchesHidden ·.name) ++
    dir.members.filter (matchesDotted ·.name)).filter (·.found)

end ListedDirectory

/-- What `listDirectory` reads of the output of the script: names and types. -/
def readListing (output : String) : List (String × String) :=
  ((splitLines output).filter (· ≠ "")).map fun line =>
    ((splitText line '\t').getD 0 "", (splitText line '\t').getD 1 "other")

/-- The names and types of the members. -/
def ListedDirectory.contents (dir : ListedDirectory) : List (String × String) :=
  dir.members.map fun m => (m.name, m.type.text)

/-! ### The patterns -/

section Patterns

variable (dir : ListedDirectory) (path : String)

/-- Every name matches one of the patterns. -/
theorem matches_cases {name : String} (h : FileTree.IsName name) :
    matchesVisible name = true ∧ matchesHidden name = false ∧ matchesDotted name = false ∨
      matchesVisible name = false ∧ matchesHidden name = true ∧ matchesDotted name = false ∨
      matchesVisible name = false ∧ matchesHidden name = false ∧ matchesDotted name = true := by
  obtain ⟨hempty, hdot, hdotdot, -⟩ := h
  rw [ne_eq, ← String.toList_inj] at hempty hdot hdotdot
  unfold matchesVisible matchesHidden matchesDotted
  match hname : name.toList with
  | [] => exact absurd hname hempty
  | [c] =>
    have hc : c ≠ '.' := fun h => hdot (by rw [hname, h]; rfl)
    simp [hc]
  | [c, d] =>
    by_cases hc : c = '.'
    · have hd : d ≠ '.' := fun h => hdotdot (by rw [hname, hc, h]; rfl)
      simp [hc, hd]
    · simp [hc]
  | c :: d :: e :: cs =>
    by_cases hc : c = '.' <;> by_cases hd : d = '.' <;> simp [hc, hd]

/-- Members of which each matches one pattern are found by the patterns once. -/
theorem filter_matches_perm {members : List ListedMember}
    (h : ∀ m ∈ members, FileTree.IsName m.name) :
    (members.filter (matchesVisible ·.name) ++ members.filter (matchesHidden ·.name) ++
      members.filter (matchesDotted ·.name)).Perm members := by
  induction members with
  | nil => exact .nil
  | cons m members ih =>
    rw [List.forall_mem_cons] at h
    rw [List.filter_cons, List.filter_cons, List.filter_cons]
    obtain ⟨h₁, h₂, h₃⟩ | ⟨h₁, h₂, h₃⟩ | ⟨h₁, h₂, h₃⟩ := matches_cases h.1
    all_goals simp only [h₁, h₂, h₃, if_true, Bool.false_eq_true, if_false]
    · exact (ih h.2).cons m
    · exact (List.perm_middle.append_right _).trans ((ih h.2).cons m)
    · exact List.perm_middle.trans ((ih h.2).cons m)

/-- **The patterns have every name once.** -/
theorem shown_perm : dir.shown.Perm (dir.members.filter (·.found)) :=
  (filter_matches_perm fun m hm => (dir.names m hm).1).filter _

theorem matches_patterns : matchesVisible "*" = true ∧ matchesHidden ".[!.]*" = true ∧
    matchesDotted "..?*" = true := by
  decide

theorem find?_name {m : ListedMember} (hm : m ∈ dir.members) :
    (dir.members.find? fun m' => m'.name = m.name) = some m := by
  have hfound : (dir.members.find? fun m' => m'.name = m.name).isSome := by
    rw [List.find?_isSome]
    exact ⟨m, hm, decide_eq_true rfl⟩
  obtain ⟨m', hm'⟩ := Option.isSome_iff_exists.mp hfound
  have hname : m'.name = m.name := by simpa using List.find?_some hm'
  rw [hm', List.inj_on_of_nodup_map dir.distinct (List.mem_of_find?_eq_some hm') hm hname]

theorem printItem_of_mem {m : ListedMember} (hm : m ∈ dir.members) :
    dir.printItem path m.name =
      if m.found then (ListedDirectory.record path m).toList ++ ['\n'] else [] := by
  rw [ListedDirectory.printItem, find?_name dir hm]

theorem flatMap_printItem {members : List ListedMember} (h : ∀ m ∈ members, m ∈ dir.members) :
    (members.map (·.name)).flatMap (dir.printItem path) =
      (members.filter (·.found)).flatMap fun m =>
        (ListedDirectory.record path m).toList ++ ['\n'] := by
  induction members with
  | nil => rfl
  | cons m members ih =>
    rw [List.forall_mem_cons] at h
    rw [List.map_cons, List.flatMap_cons, ih h.2, printItem_of_mem dir path h.1, List.filter_cons]
    split
    · rw [List.flatMap_cons]
    · rfl

/-- What is printed of the names of one pattern: a pattern that matches nothing is not the name of a
member, and is passed over. -/
theorem printItem_expand {pattern : String} {matchesName : String → Bool}
    (hpattern : matchesName pattern = true) :
    (dir.expand pattern matchesName).flatMap (dir.printItem path) =
      ((dir.members.filter (matchesName ·.name)).filter (·.found)).flatMap fun m =>
        (ListedDirectory.record path m).toList ++ ['\n'] := by
  have hmap : (dir.members.map (·.name)).filter matchesName =
      (dir.members.filter (matchesName ·.name)).map (·.name) := List.filter_map
  rw [ListedDirectory.expand, hmap]
  split
  · next hnone =>
    rw [List.map_eq_nil_iff] at hnone
    rw [hnone]
    have hfree : (dir.members.find? fun m => m.name = pattern) = none := by
      rw [List.find?_eq_none]
      intro m hm hname
      rw [List.filter_eq_nil_iff] at hnone
      refine hnone m hm ?_
      rw [of_decide_eq_true hname, hpattern]
    rw [List.flatMap_singleton, ListedDirectory.printItem, hfree]
    rfl
  · exact flatMap_printItem dir path fun m hm => List.mem_of_mem_filter hm

/-- **What the script prints** is the members that are shown. -/
theorem toList_printListing : (dir.printListing path).toList =
    dir.shown.flatMap fun m => (ListedDirectory.record path m).toList ++ ['\n'] := by
  obtain ⟨hvisible, hhidden, hdotted⟩ := matches_patterns
  rw [ListedDirectory.printListing, String.toList_ofList, ListedDirectory.items,
    List.flatMap_append, List.flatMap_append, printItem_expand dir path hvisible,
    printItem_expand dir path hhidden, printItem_expand dir path hdotted, ListedDirectory.shown,
    List.filter_append, List.filter_append, List.flatMap_append, List.flatMap_append]

end Patterns

/-! ### Records -/

section Records

variable {path : String} {m : ListedMember}

theorem isOption_child (path name : String) :
    isOption (path ++ "/" ++ name) = true ↔ path.toList.head? = some '-' := by
  have htext : (path ++ "/" ++ name).toList = path.toList ++ '/' :: name.toList := by
    simp [String.toList_append]
  unfold isOption
  rw [decide_eq_true_iff, htext]
  cases hpath : path.toList with
  | nil => simp
  | cons =>
    have hlong : path ++ "/" ++ name ≠ "-" := by
      rw [ne_eq, ← String.toList_inj, htext, hpath]
      simp
    simp [hlong]

theorem basenameOutput_of_option (h : path.toList.head? = some '-') (name : String) :
    basenameOutput (path ++ "/" ++ name) = "" :=
  if_pos ((isOption_child path name).mpr h)

theorem basenameOutput_child (h : path.toList.head? ≠ some '-') {name : String}
    (hslash : '/' ∉ name.toList) (hnewline : '\n' ∉ name.toList) :
    basenameOutput (path ++ "/" ++ name) = name := by
  have htext : (path ++ "/" ++ name).toList.reverse = name.toList.reverse ++ '/' ::
    path.toList.reverse := by
    simp [String.toList_append]
  have hfile : fileName (path ++ "/" ++ name) = name := by
    rw [fileName, htext, List.takeWhile_append_of_pos]
    · simp
    · simpa [ne_eq] using fun c hc => ne_of_mem_of_not_mem hc hslash
  rw [basenameOutput, if_neg fun hoption => h ((isOption_child path name).mp hoption), hfile]
  have hkept : name.toList.reverse.dropWhile (· = '\n') = name.toList.reverse := by
    cases hreverse : name.toList.reverse with
    | nil => rfl
    | cons c =>
      have hc : c ∈ name.toList := by
        rw [← List.mem_reverse, hreverse]
        exact List.mem_cons_self
      rw [List.dropWhile_cons_of_neg]
      simpa using ne_of_mem_of_not_mem hc hnewline
  rw [hkept, List.reverse_reverse, String.ofList_toList]

/-- The fields behind the name have no white space. -/
def restFields (m : ListedMember) : List (List Char) :=
  [m.type.text.toList, (toString m.size).toList, (toString m.mtime).toList]

theorem restFields_plain (m : ListedMember) :
    ∀ field ∈ restFields m, field ≠ [] ∧ ∀ c ∈ field, JsText.isSpace c = false := by
  have hne : ∀ text : String, text ≠ "" → text.toList ≠ [] := fun text h hnil =>
    h (String.toList_inj.mp hnil)
  refine List.forall_mem_cons.mpr ⟨?_, List.forall_mem_cons.mpr ⟨?_,
    List.forall_mem_singleton.mpr ?_⟩⟩
  · refine ⟨?_, List.all_iff_forall_prop.mp ?_⟩
    all_goals cases m.type <;> decide
  · exact ⟨hne _ (JsText.toString_nat_ne_empty _), fun c hc =>
      JsText.isSpace_of_isDigit (JsText.digits_of_nat _ c hc)⟩
  · refine ⟨hne _ (JsText.toString_int_ne_empty _), fun c hc => ?_⟩
    obtain hdigit | rfl := JsText.digits_of_int _ c hc
    · exact JsText.isSpace_of_isDigit hdigit
    · decide

theorem toList_record (path : String) (m : ListedMember) :
    (ListedDirectory.record path m).toList = (basenameOutput (path ++ "/" ++ m.name)).toList ++
      (restFields m).flatMap fun field => '\t' :: field := by
  simp [ListedDirectory.record, restFields, String.toList_append]

end Records

/-! ### Reading -/

/-- What is read of a line. -/
def readLine (line : List Char) : String × String :=
  ((splitText (String.ofList line) '\t').getD 0 "",
    (splitText (String.ofList line) '\t').getD 1 "other")

theorem splitLines_eq {text : String} {parts : List (List Char)}
    (h : text.toList.splitOn '\n' = parts) (hreturn : ∀ part ∈ parts, part.getLast? ≠ some '\r') :
    splitLines text = parts.map String.ofList := by
  have hkept : ∀ part ∈ parts.dropLast,
      (if part.getLast? = some '\r' then part.dropLast else part) = part :=
    fun part hpart => if_neg (hreturn part (List.mem_of_mem_dropLast hpart))
  have hne : parts ≠ [] := h ▸ List.splitOn_ne_nil '\n' text.toList
  rw [splitLines, h, List.map_congr_left hkept, List.map_id', List.getLast?_eq_some_getLast hne,
    Option.toList_some, List.dropLast_concat_getLast hne]

/-- Lines that do not end with a carriage return are read one by one. -/
theorem readListing_eq {text : String} {lines : List (List Char)} {blank : List (List Char)}
    (h : text.toList.splitOn '\n' = lines ++ blank) (hblank : blank = [] ∨ blank = [[]])
    (hlines : ∀ line ∈ lines, line ≠ [] ∧ line.getLast? ≠ some '\r') :
    readListing text = lines.map readLine := by
  have hreturn : ∀ part ∈ lines ++ blank, part.getLast? ≠ some '\r' := by
    intro part hpart
    obtain hpart | hpart := List.mem_append.mp hpart
    · exact (hlines part hpart).2
    · obtain rfl | rfl := hblank
      · exact absurd hpart List.not_mem_nil
      · rw [List.mem_singleton.mp hpart]
        nofun
  have hfilter : ((lines ++ blank).map String.ofList).filter (· ≠ "") =
    lines.map String.ofList := by
    have hnone : (blank.map String.ofList).filter (· ≠ "") = [] := by
      obtain rfl | rfl := hblank <;> rfl
    rw [List.map_append, List.filter_append, hnone, List.append_nil, List.filter_eq_self]
    intro text htext
    obtain ⟨line, hline, rfl⟩ := List.mem_map.mp htext
    refine decide_eq_true fun hempty => (hlines line hline).1 ?_
    rw [← String.toList_ofList (l := line), hempty]
    rfl
  rw [readListing, splitLines_eq h hreturn, hfilter, List.map_map]
  rfl

/-- **What is read has no separators in it.** -/
theorem separators_not_mem_read {output : String} {entry : String × String}
    (h : entry ∈ readListing output) : '\n' ∉ entry.1.toList ∧ '\t' ∉ entry.1.toList := by
  obtain ⟨line, hline, rfl⟩ := List.mem_map.mp h
  replace hline := List.mem_of_mem_filter hline
  have hnewline : '\n' ∉ line.toList := by
    obtain ⟨part, hpart, rfl⟩ := List.mem_map.mp hline
    rw [String.toList_ofList]
    obtain hpart | hpart := List.mem_append.mp hpart
    · obtain ⟨part', hpart', rfl⟩ := List.mem_map.mp hpart
      have hmem := TextLines.notMem_of_mem_splitOn (List.mem_of_mem_dropLast hpart')
      split
      · exact fun hn => hmem (List.mem_of_mem_dropLast hn)
      · exact hmem
    · exact TextLines.notMem_of_mem_splitOn (List.mem_of_getLast? (Option.mem_toList.mp hpart))
  -- the first field is a part of the line
  have hfield : ∀ field ∈ splitText line '\t', '\n' ∉ field.toList ∧ '\t' ∉ field.toList := by
    refine fun field hfield => ⟨?_, notMem_of_mem_splitText hfield⟩
    obtain ⟨part, hpart, rfl⟩ := List.mem_map.mp hfield
    rw [String.toList_ofList]
    exact TextLines.notMem_part hnewline hpart
  obtain ⟨first, others, hfields⟩ := List.exists_cons_of_ne_nil (splitText_ne_nil line '\t')
  rw [hfields]
  exact hfield first (hfields ▸ List.mem_cons_self)

/-! ### The records of names without separators -/

section Plain

variable {path : String} {m : ListedMember}

/-- The name has no separators in it. -/
def PlainName (name : String) : Prop := '\t' ∉ name.toList ∧ '\n' ∉ name.toList

instance (name : String) : Decidable (PlainName name) := inferInstanceAs (Decidable (_ ∧ _))

theorem plainName_basenameOutput {name : String} (hslash : '/' ∉ name.toList) (h : PlainName name) :
    PlainName (basenameOutput (path ++ "/" ++ name)) := by
  by_cases hoption : path.toList.head? = some '-'
  · rw [basenameOutput_of_option hoption]
    decide
  · rwa [basenameOutput_child hoption hslash h.2]

theorem space_not_mem_restFields {c : Char} (hc : JsText.isSpace c = true) {field : List Char}
    (hfield : field ∈ restFields m) : c ∉ field := by
  intro hmem
  rw [(restFields_plain m field hfield).2 c hmem] at hc
  cases hc

theorem splitOn_record (h : PlainName (basenameOutput (path ++ "/" ++ m.name))) :
    (ListedDirectory.record path m).toList.splitOn '\t' =
      (basenameOutput (path ++ "/" ++ m.name)).toList :: restFields m := by
  rw [toList_record]
  exact TextLines.splitOn_open h.1 fun field hfield => space_not_mem_restFields (by decide) hfield

theorem readLine_record (h : PlainName (basenameOutput (path ++ "/" ++ m.name))) :
    readLine (ListedDirectory.record path m).toList =
      (basenameOutput (path ++ "/" ++ m.name), m.type.text) := by
  rw [readLine, splitText, String.toList_ofList, splitOn_record h]
  simp [restFields]

theorem newline_not_mem_record (h : PlainName (basenameOutput (path ++ "/" ++ m.name))) :
    '\n' ∉ (ListedDirectory.record path m).toList := by
  rw [toList_record, List.mem_append, List.mem_flatMap]
  rintro (hname | ⟨field, hfield, hmem⟩)
  · exact h.2 hname
  · obtain hnewline | hnewline := List.mem_cons.mp hmem
    · exact absurd hnewline (by decide)
    · exact space_not_mem_restFields (by decide) hfield hnewline

/-- A text that does not end with white space. -/
def EndsPlain (cs : List Char) : Prop := ∃ init c, cs = init ++ [c] ∧ JsText.isSpace c = false

theorem endsPlain_record (path : String) (m : ListedMember) :
    EndsPlain (ListedDirectory.record path m).toList := by
  obtain ⟨hne, hplain⟩ := restFields_plain m (toString m.mtime).toList
    (.tail _ (.tail _ (.head _)))
  refine ⟨(basenameOutput (path ++ "/" ++ m.name) ++ "\t" ++ m.type.text ++ "\t" ++
    toString m.size ++
    "\t").toList ++ (toString m.mtime).toList.dropLast, (toString m.mtime).toList.getLast hne, ?_,
    hplain _ (List.getLast_mem hne)⟩
  rw [List.append_assoc, List.dropLast_concat_getLast hne, ← String.toList_append]
  rfl

theorem EndsPlain.ends {cs : List Char} (h : EndsPlain cs) : cs ≠ [] ∧ cs.getLast? ≠ some '\r' := by
  obtain ⟨init, c, rfl, hc⟩ := h
  refine ⟨by simp, fun hlast => ?_⟩
  rw [List.getLast?_concat] at hlast
  obtain rfl := Option.some.inj hlast
  exact absurd hc (by decide)

end Plain

/-! ### White space at the ends -/

section Trim

variable {cs ds : List Char}

theorem EndsPlain.append (h : EndsPlain ds) (cs : List Char) : EndsPlain (cs ++ ds) := by
  obtain ⟨init, c, rfl, hc⟩ := h
  exact ⟨cs ++ init, c, (List.append_assoc _ _ _).symm, hc⟩

theorem EndsPlain.dropWhile_append (h : EndsPlain cs) (ds : List Char) :
    (cs ++ ds).dropWhile JsText.isSpace = cs.dropWhile JsText.isSpace ++ ds := by
  obtain ⟨init, c, rfl, hc⟩ := h
  have hne : ((init ++ [c]).dropWhile JsText.isSpace).isEmpty = false := by
    rw [List.isEmpty_eq_false_iff, ne_eq, List.dropWhile_eq_nil_iff]
    intro h
    rw [h c (by simp)] at hc
    cases hc
  rw [List.dropWhile_append, hne]
  rfl

theorem EndsPlain.dropWhile (h : EndsPlain cs) : EndsPlain (cs.dropWhile JsText.isSpace) := by
  obtain ⟨init, c, rfl, hc⟩ := h
  rw [List.dropWhile_append]
  split
  · exact ⟨[], c, by rw [List.dropWhile_cons_of_neg (by simp [hc])]; rfl, hc⟩
  · exact ⟨_, c, rfl, hc⟩

theorem endsPlain_open {line : List Char} {lines : List (List Char)} (hline : EndsPlain line)
    (h : ∀ line ∈ lines, EndsPlain line) :
    EndsPlain (line ++ lines.flatMap fun line => '\n' :: line) := by
  induction lines generalizing line with
  | nil => rwa [List.flatMap_nil, List.append_nil]
  | cons next lines ih =>
    rw [List.forall_mem_cons] at h
    rw [List.flatMap_cons, List.cons_append, ← List.singleton_append, ← List.append_assoc]
    exact (ih h.1 h.2).append _

theorem trim_ended (h : EndsPlain cs) :
    JsText.trim (String.ofList (cs ++ ['\n'])) = String.ofList (cs.dropWhile JsText.isSpace) := by
  obtain ⟨init, c, hlast, hc⟩ := h.dropWhile
  rw [JsText.trim, String.toList_ofList, h.dropWhile_append, hlast]
  simp [List.dropWhile, hc, show JsText.isSpace '\n' = true by decide]

end Trim

/-! ### What is read of the output -/

section Output

variable (dir : ListedDirectory) (path : String)

/-- What is read of a record. -/
def readRecord (m : ListedMember) : String × String :=
  (basenameOutput (path ++ "/" ++ m.name), m.type.text)

variable {dir} (hplain : ∀ m ∈ dir.members, PlainName m.name)

theorem mem_of_shown {m : ListedMember} (h : m ∈ dir.shown) : m ∈ dir.members :=
  List.mem_of_mem_filter ((shown_perm dir).subset h)

include hplain

theorem plainName_of_shown : ∀ m ∈ dir.shown, PlainName (basenameOutput (path ++ "/" ++ m.name)) :=
  fun m hm => plainName_basenameOutput (dir.names m (mem_of_shown hm)).1.2.2.2
    (hplain m (mem_of_shown hm))

/-- **What is read of the output** as it is printed. -/
theorem readListing_print :
    readListing (dir.printListing path) = dir.shown.map (readRecord path) := by
  have hsplit : (dir.printListing path).toList.splitOn '\n' =
      (dir.shown.map fun m => (ListedDirectory.record path m).toList) ++ [[]] := by
    rw [toList_printListing, ← List.flatMap_map (fun m => (ListedDirectory.record path m).toList)
      (fun line => line ++ ['\n'])]
    refine TextLines.splitOn_ended fun line hline => ?_
    obtain ⟨m, hm, rfl⟩ := List.mem_map.mp hline
    exact newline_not_mem_record (plainName_of_shown path hplain m hm)
  rw [readListing_eq hsplit (.inr rfl), List.map_map]
  · exact List.map_congr_left fun m hm => readLine_record (plainName_of_shown path hplain m hm)
  · intro line hline
    obtain ⟨m, -, rfl⟩ := List.mem_map.mp hline
    exact (endsPlain_record path m).ends

/-- **What is read of the output** as the library hands it over. -/
theorem readListing_trim {m : ListedMember} {ms : List ListedMember}
    (hshown : dir.shown = m :: ms) :
    readListing (JsText.trim (dir.printListing path)) =
      readLine ((ListedDirectory.record path m).toList.dropWhile JsText.isSpace) ::
        ms.map (readRecord path) := by
  have hmembers := plainName_of_shown path hplain
  rw [hshown, List.forall_mem_cons] at hmembers
  have hlines : ∀ line ∈ ms.map fun m => (ListedDirectory.record path m).toList,
      EndsPlain line ∧ '\n' ∉ line := by
    intro line hline
    obtain ⟨m, hm, rfl⟩ := List.mem_map.mp hline
    exact ⟨endsPlain_record path m, newline_not_mem_record (hmembers.2 m hm)⟩
  have hprint : (dir.printListing path).toList = ((ListedDirectory.record path m).toList ++
      (ms.map fun m => (ListedDirectory.record path m).toList).flatMap
        fun line => '\n' :: line) ++ ['\n'] := by
    rw [toList_printListing, hshown, ← TextLines.flatMap_ended, List.flatMap_cons,
      List.flatMap_cons, List.flatMap_map]
  have htrim : JsText.trim (dir.printListing path) =
      String.ofList ((ListedDirectory.record path m).toList.dropWhile JsText.isSpace ++
        (ms.map fun m => (ListedDirectory.record path m).toList).flatMap fun line =>
          '\n' :: line) := by
    have hends := endsPlain_open (endsPlain_record path m) fun line hline => (hlines line hline).1
    rw [← String.ofList_toList (s := dir.printListing path), hprint, trim_ended hends,
      (endsPlain_record path m).dropWhile_append]
  have hfirst : '\n' ∉ (ListedDirectory.record path m).toList.dropWhile JsText.isSpace := fun h =>
    newline_not_mem_record hmembers.1 ((List.dropWhile_sublist _).subset h)
  have hsplit := TextLines.splitOn_open hfirst fun line hline => (hlines line hline).2
  have hlist : (JsText.trim (dir.printListing path)).toList.splitOn '\n' =
      ((ListedDirectory.record path m).toList.dropWhile JsText.isSpace ::
        ms.map fun m => (ListedDirectory.record path m).toList) ++ [] := by
    rw [htrim, String.toList_ofList, hsplit, List.append_nil]
  have hrest : (ms.map fun m => (ListedDirectory.record path m).toList).map readLine =
      ms.map (readRecord path) := by
    rw [List.map_map]
    exact List.map_congr_left fun m hm => readLine_record (hmembers.2 m hm)
  rw [readListing_eq hlist (.inl rfl), List.map_cons, hrest]
  · refine List.forall_mem_cons.mpr ⟨(endsPlain_record path m).dropWhile.ends, fun line hline => ?_⟩
    exact (hlines line hline).1.ends

end Output

/-! ### When the output is the directory -/

section Exact

variable {dir : ListedDirectory} {path : String}

variable (dir path) in
/-- **The script can tell the directory**: its members are found, and their names have no
separators; and the path does not begin with a hyphen, unless there is nothing to tell. -/
def Listable : Prop :=
  (∀ m ∈ dir.members, m.found = true ∧ PlainName m.name) ∧
    (dir.members ≠ [] → path.toList.head? ≠ some '-')

variable (dir) in
/-- The name that is printed first does not begin with white space. -/
def FirstPlain : Prop := ∀ m ∈ dir.shown.head?, ∀ c ∈ m.name.toList.head?, JsText.isSpace c = false

theorem plainName_of_perm {output : String} (h : (readListing output).Perm dir.contents) :
    ∀ m ∈ dir.members, PlainName m.name := by
  intro m hm
  have hread : (m.name, m.type.text) ∈ readListing output :=
    h.symm.subset (List.mem_map_of_mem hm)
  exact (separators_not_mem_read hread).symm

theorem readRecord_eq (h : Listable dir path) {m : ListedMember} (hm : m ∈ dir.members) :
    readRecord path m = (m.name, m.type.text) := by
  have hpath := h.2 (List.ne_nil_of_mem hm)
  rw [readRecord, basenameOutput_child hpath (dir.names m hm).1.2.2.2 (h.1 m hm).2.2]

theorem perm_of_listable (h : Listable dir path) :
    (dir.shown.map (readRecord path)).Perm dir.contents := by
  have hfound : dir.members.filter (·.found) = dir.members :=
    List.filter_eq_self.mpr fun m hm => (h.1 m hm).1
  have hshown : dir.shown.Perm dir.members := hfound ▸ shown_perm dir
  refine (hshown.map _).trans (.of_eq ?_)
  exact List.map_congr_left fun m hm => readRecord_eq h hm

theorem found_of_length (h : dir.shown.length = dir.members.length) :
    ∀ m ∈ dir.members, m.found = true := by
  rw [(shown_perm dir).length_eq] at h
  exact List.length_filter_eq_length_iff.mp h

/-- **When the output, as it is printed, is read as the directory.** -/
theorem read_print_iff :
    (readListing (dir.printListing path)).Perm dir.contents ↔ Listable dir path := by
  constructor
  · intro h
    have hplain := plainName_of_perm h
    rw [readListing_print path hplain] at h
    have hlength := h.length_eq
    rw [List.length_map, ListedDirectory.contents, List.length_map] at hlength
    refine ⟨fun m hm => ⟨found_of_length hlength m hm, hplain m hm⟩, fun hne hhyphen => ?_⟩
    -- every name is read as the empty one
    obtain ⟨m, hm⟩ := List.exists_mem_of_ne_nil _ hne
    have hread : (m.name, m.type.text) ∈ dir.shown.map (readRecord path) :=
      h.symm.subset (List.mem_map_of_mem hm)
    obtain ⟨m', -, hm'⟩ := List.mem_map.mp hread
    have hempty : "" = m.name := by
      rw [← basenameOutput_of_option hhyphen m'.name]
      exact congrArg Prod.fst hm'
    exact (dir.names m hm).1.1 hempty.symm
  · intro h
    rw [readListing_print path fun m hm => (h.1 m hm).2]
    exact perm_of_listable h

/-- A line without the white space at its front begins with the first field. -/
theorem head_readLine {cs : List Char} {c : Char} (h : JsText.isSpace c = false) :
    (readLine (c :: cs)).1.toList.head? = some c := by
  have hc : c ≠ '\t' := by
    rintro rfl
    exact absurd h (by decide)
  obtain ⟨first, others, hparts⟩ := List.exists_cons_of_ne_nil (List.splitOn_ne_nil '\t' cs)
  have hsplit : splitText (String.ofList (c :: cs)) '\t' =
      String.ofList (c :: first) :: others.map String.ofList := by
    rw [splitText, String.toList_ofList, List.splitOn_cons_eq_if_modifyHead,
      if_neg (by simpa using hc), hparts]
    rfl
  rw [readLine, hsplit]
  simp

/-- The line that is read first is that of its record where the record does not begin with white
space. -/
theorem readLine_dropWhile_iff {m : ListedMember}
    (h : PlainName (basenameOutput (path ++ "/" ++ m.name))) :
    readLine ((ListedDirectory.record path m).toList.dropWhile JsText.isSpace) = readRecord path m ↔
      ∃ c, (basenameOutput (path ++ "/" ++ m.name)).toList.head? = some c ∧
        JsText.isSpace c = false := by
  constructor
  · intro heq
    obtain ⟨init, last, hlast, hspace⟩ := (endsPlain_record path m).dropWhile
    cases hdrop : (ListedDirectory.record path m).toList.dropWhile JsText.isSpace with
    | nil => simp [hdrop] at hlast
    | cons c cs =>
      have hne : (ListedDirectory.record path m).toList.dropWhile JsText.isSpace ≠ [] := by
        rw [hdrop]
        exact List.cons_ne_nil c cs
      have hc : JsText.isSpace c = false := by
        have hhead := List.head_dropWhile_not JsText.isSpace hne
        simpa only [hdrop, List.head_cons] using hhead
      rw [hdrop] at heq
      have hfirst : (readLine (c :: cs)).1.toList.head? = some c := head_readLine hc
      rw [heq] at hfirst
      exact ⟨c, hfirst, hc⟩
  · rintro ⟨c, hc, hspace⟩
    rw [JsText.dropWhile_isSpace, readLine_record h, readRecord]
    rw [toList_record, List.head?_append, hc, Option.some_or]
    intro c' hc'
    rwa [← Option.some.inj hc']

/-- A record without a name is read without the tab at its front. -/
theorem readLine_of_no_name {m : ListedMember} (h : basenameOutput (path ++ "/" ++ m.name) = "") :
    readLine ((ListedDirectory.record path m).toList.dropWhile JsText.isSpace) =
      (m.type.text, toString m.size) := by
  have htype := restFields_plain m m.type.text.toList (.head _)
  have hdrop : (ListedDirectory.record path m).toList.dropWhile JsText.isSpace =
      m.type.text.toList ++
        [(toString m.size).toList, (toString m.mtime).toList].flatMap fun field =>
          '\t' :: field := by
    have hhead : ∀ c ∈ (m.type.text.toList ++
        [(toString m.size).toList, (toString m.mtime).toList].flatMap
        fun field => '\t' :: field).head?, JsText.isSpace c = false := by
      obtain ⟨c, cs, hcs⟩ := List.exists_cons_of_ne_nil htype.1
      rw [hcs]
      rintro _ ⟨⟩
      exact htype.2 c (hcs ▸ List.mem_cons_self)
    rw [toList_record, h, restFields, List.flatMap_cons]
    exact JsText.dropWhile_isSpace hhead
  rw [hdrop, readLine, splitText, String.toList_ofList, TextLines.splitOn_open]
  · show (String.ofList m.type.text.toList, String.ofList (toString m.size).toList) = _
    rw [String.ofList_toList, String.ofList_toList]
  · exact fun htab => absurd (htype.2 _ htab) (by decide)
  · exact fun field hfield => space_not_mem_restFields (m := m) (by decide) (.tail _ hfield)

theorem toString_ne_text (n : ℕ) (type : FileType) : toString n ≠ type.text := by
  intro h
  have hdigits := JsText.digits_of_nat n
  rw [h, ← List.all_iff_forall_prop] at hdigits
  revert hdigits
  cases type <;> decide

/-- **When the output is read as the directory** as it is handed over, without white space at its
ends. -/
theorem read_trim_iff :
    (readListing (JsText.trim (dir.printListing path))).Perm dir.contents ↔
      Listable dir path ∧ FirstPlain dir := by
  cases hshown : dir.shown with
  | nil =>
    have hempty : dir.printListing path = "" := by
      rw [← String.toList_inj, toList_printListing, hshown]
      rfl
    have hsame : JsText.trim (dir.printListing path) = dir.printListing path := by rw [hempty]; rfl
    rw [hsame, read_print_iff, FirstPlain, hshown]
    simp
  | cons m =>
    constructor
    · intro h
      have hplain := plainName_of_perm h
      rw [readListing_trim path hplain hshown] at h
      have hlength : dir.shown.length = dir.members.length := by
        have hlength := h.length_eq
        rwa [List.length_cons, List.length_map, ListedDirectory.contents, List.length_map,
          ← List.length_cons (a := m), ← hshown] at hlength
      have hhyphen : path.toList.head? ≠ some '-' := by
        intro hhyphen
        -- a type is read as the first name, and a size as its type
        rw [readLine_of_no_name (basenameOutput_of_option hhyphen m.name)] at h
        obtain ⟨m', -, hm'⟩ := List.mem_map.mp (h.subset List.mem_cons_self)
        exact toString_ne_text m.size m'.type (congrArg Prod.snd hm').symm
      have hlistable : Listable dir path :=
        ⟨fun m hm => ⟨found_of_length hlength m hm, hplain m hm⟩, fun _ => hhyphen⟩
      have hperm := perm_of_listable hlistable
      rw [hshown, List.map_cons] at hperm
      have hfirst : readLine ((ListedDirectory.record path m).toList.dropWhile JsText.isSpace) =
          readRecord path m := by
        have hcount := (h.trans hperm.symm).count_eq (readRecord path m)
        simpa [List.count_cons] using hcount
      have hm := mem_of_shown (hshown ▸ List.mem_cons_self : m ∈ dir.shown)
      rw [readLine_dropWhile_iff (plainName_basenameOutput (dir.names m hm).1.2.2.2 (hplain m hm)),
        basenameOutput_child hhyphen (dir.names m hm).1.2.2.2 (hplain m hm).2] at hfirst
      obtain ⟨c, hc, hspace⟩ := hfirst
      refine ⟨hlistable, ?_⟩
      rw [FirstPlain, hshown]
      rintro _ ⟨⟩ c' hc'
      rw [hc] at hc'
      rwa [← Option.some.inj hc']
    · rintro ⟨hlistable, hfirst⟩
      have hm := mem_of_shown (hshown ▸ List.mem_cons_self : m ∈ dir.shown)
      obtain ⟨c, cs, hname⟩ : ∃ c cs, m.name.toList = c :: cs :=
        List.exists_cons_of_ne_nil fun hnil => (dir.names m hm).1.1 (String.toList_inj.mp hnil)
      have hplain := (hlistable.1 m hm).2
      rw [readListing_trim path (fun m hm => (hlistable.1 m hm).2) hshown,
        (readLine_dropWhile_iff (plainName_basenameOutput (dir.names m hm).1.2.2.2 hplain)).mpr]
      · have hperm := perm_of_listable hlistable
        rwa [hshown, List.map_cons] at hperm
      · rw [basenameOutput_child (hlistable.2 (List.ne_nil_of_mem hm))
          (dir.names m hm).1.2.2.2 hplain.2]
        rw [FirstPlain, hshown] at hfirst
        refine ⟨c, by rw [hname]; rfl, hfirst m rfl c (by rw [hname]; rfl)⟩

end Exact

/-- What the library hands over of an output. -/
def handedOver (trims : Bool) (output : String) : String :=
  if trims then JsText.trim output else output

/-- The names and types of a result. -/
def DirListResult.contents (result : DirListResult) : List (String × String) :=
  result.entries.map fun entry => (entry.name, entry.type)

/-- The names and types of an SFTP listing. -/
def sftpContents (fileList : List FileEntry) : List (String × String) :=
  fileList.map fun item => (item.filename, (modeType (item.attrs.mode.getD 0)).text)

section Transports

variable {rt : Runtime} {engine : PolicyEngine rt} {sessionId path : String} {log : List Event}
variable {result : DirListResult}

theorem contents_shell {output : String}
    (h : Runs (listDirectory engine sessionId path) log (.ok result))
    (htold : ∀ e ∈ log, (Listing.shell output).Told e) : result.contents = readListing output := by
  obtain ⟨entries, hentries, rfl⟩ := exists_entries_of_runs h htold
  rw [Enumerates, Listing.items, List.forall₂_map_left_iff] at hentries
  have hlines : entries = ((splitLines output).filter (· ≠ "")).map (parseDirEntry rt) := by
    rw [← List.forall₂_eq_eq_eq, List.forall₂_map_right_iff]
    exact hentries.flip
  rw [DirListResult.contents, readListing]
  show entries.map _ = _
  rw [hlines, List.map_map]
  rfl

theorem contents_sftp {fileList : List FileEntry}
    (h : Runs (listDirectory engine sessionId path) log (.ok result))
    (htold : ∀ e ∈ log, (Listing.sftp fileList).Told e) : result.contents =
      sftpContents fileList := by
  obtain ⟨entries, hentries, rfl⟩ := exists_entries_of_runs h htold
  rw [Enumerates, Listing.items, List.forall₂_map_left_iff] at hentries
  show entries.map _ = fileList.map _
  clear h htold
  induction hentries with
  | nil => rfl
  | cons hentry _ ih =>
    obtain ⟨time, rfl⟩ := hentry
    rw [List.map_cons, List.map_cons, ih]

end Transports

/-- **When the shell listing tells the directory** as SFTP does: when its members are found and have
plain names, and, where the library trims the output, the first of them does not begin with white
space. -/
theorem shell_listing_iff {rt : Runtime} (engine : PolicyEngine rt) (sessionId path : String)
    (dir : ListedDirectory) (trims : Bool) {log log' : List Event} {result result' : DirListResult}
    {fileList : List FileEntry} (hsftp : (sftpContents fileList).Perm dir.contents)
    (h : Runs (listDirectory engine sessionId path) log (.ok result))
    (htold : ∀ e ∈ log, (Listing.shell (handedOver trims (dir.printListing path))).Told e)
    (h' : Runs (listDirectory engine sessionId path) log' (.ok result'))
    (htold' : ∀ e ∈ log', (Listing.sftp fileList).Told e) :
    (result.contents.Perm dir.contents ↔ Listable dir path ∧ (trims = true → FirstPlain dir)) ∧
      (result.contents.Perm result'.contents ↔ result.contents.Perm dir.contents) := by
  rw [contents_shell h htold, contents_sftp h' htold']
  refine ⟨?_, fun hperm => hperm.trans hsftp, fun hperm => hperm.trans hsftp.symm⟩
  cases trims with
  | false =>
    rw [forall_prop_of_false Bool.false_ne_true, and_true]
    exact read_print_iff
  | true =>
    rw [forall_prop_of_true rfl]
    exact read_trim_iff

/-- A file and a hidden directory. -/
def twoMembers : ListedDirectory where
  members := [⟨"a b", .file, true, 12, 0⟩, ⟨".git", .directory, true, 4096, 0⟩]
  names := by decide
  distinct := by decide

/-- The same over SFTP. -/
def twoItems : List FileEntry :=
  [⟨".git", { mode := some 0o040755, size := some 4096, mtime := some 0 }⟩,
    ⟨"a b", { mode := some 0o100644, size := some 12, mtime := some 0 }⟩]

/-- A directory that is told alike on both transports. -/
theorem shell_listing_iff_two :
    ∃ (engine : PolicyEngine decimalRuntime) (log log' : List Event)
      (result result' : DirListResult),
      Runs (listDirectory engine "ssh-1" "/srv") log (.ok result) ∧
      Runs (listDirectory engine "ssh-1" "/srv") log' (.ok result') ∧
        result.contents.Perm result'.contents := by
  obtain ⟨engine, -, hpermits⟩ := exists_permissive decimalRuntime
  have hpermits := hpermits .fsList (by decide) "/srv" (by decide)
  obtain ⟨log, result, h, htold⟩ := exists_runs_shell hpermits none 100
    (handedOver true (twoMembers.printListing "/srv"))
  obtain ⟨log', result', h', htold'⟩ := exists_runs_sftp hpermits none 100
    (show ∀ item ∈ twoItems, _ by decide)
  have hsftp : (sftpContents twoItems).Perm twoMembers.contents := by decide
  obtain ⟨hiff, hsame⟩ := shell_listing_iff engine "ssh-1" "/srv" twoMembers true hsftp h
    htold h' htold'
  refine ⟨engine, log, log', result, result', h, h', hsame.mpr (hiff.mpr ⟨?_, fun _ => ?_⟩)⟩
  · exact ⟨by decide, fun _ => by decide⟩
  · intro m hm c hc
    have hshown : twoMembers.shown.head? = some ⟨"a b", .file, true, 12, 0⟩ := by decide
    rw [hshown] at hm
    obtain rfl := Option.some.inj hm
    obtain rfl := Option.some.inj hc
    decide

/-- A directory with one file, whose name has a tab in it. -/
def tabbedMember : ListedDirectory where
  members := [⟨"a\tb", .file, true, 12, 0⟩]
  names := by decide
  distinct := by decide

/-- **A name that is cut**: what is behind the tab is read as the type. -/
theorem tabbed_name_cut :
    ∃ (engine : PolicyEngine decimalRuntime) (log : List Event) (result : DirListResult),
      Runs (listDirectory engine "ssh-1" "/srv") log (.ok result) ∧
      (∀ e ∈ log, (Listing.shell (tabbedMember.printListing "/srv")).Told e) ∧
      result.contents = [("a", "b")] ∧ tabbedMember.contents = [("a\tb", "file")] := by
  obtain ⟨engine, -, hpermits⟩ := exists_permissive decimalRuntime
  have hpermits := hpermits .fsList (by decide) "/srv" (by decide)
  obtain ⟨log, result, h, htold⟩ :=
    exists_runs_shell hpermits none 100 (tabbedMember.printListing "/srv")
  exact ⟨engine, log, result, h, htold, (contents_shell h htold).trans (by decide), by decide⟩

end Ssh
