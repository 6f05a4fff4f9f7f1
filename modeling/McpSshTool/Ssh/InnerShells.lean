import Mathlib.Data.Bool.AllAny
import McpSshTool.Library.ShellQuotation
import McpSshTool.Ssh.TextLimits

/-!
# The inner shell of `execWithShell`

`execWithShell` starts a shell of its own within the command of `execCommand`, and quotes with
`JSON.stringify` where the builder of `execCommand` quotes with apostrophes. The outer shell reads
the line between quotation marks, and the inner one the directory and the values.

* `readQuoted_json` — how a shell reads the JSON text of a string;
* `shellLine` — the line that `execWithShell` gives to `execCommand`;
* `InnerReceives` — the inner shell is given the directory, the values and the command as they are;
* `innerReceives_iff` — when this is so.
-/

open Library Program ShellWords

namespace Ssh

/-! ### JSON texts in a shell -/

/-- What a shell makes of a character that JSON writes: a control character stays escaped. -/
def readBack (c : Char) : List Char := if c.toNat < 0x20 then JsText.quoteChar c else [c]

/-- The text has no control character. -/
def NoControl (cs : List Char) : Prop := ∀ c ∈ cs, ¬c.toNat < 0x20

instance (cs : List Char) : Decidable (NoControl cs) := List.decidableBAll _ cs

/-- How JSON writes a character: as it is, behind a backslash, or as an escape of a control
character. -/
inductive WrittenChar (c : Char) : Prop
  | plain (h : JsText.quoteChar c = [c]) (hc : c ∉ [quotation, '\\']) (hcontrol : ¬c.toNat < 0x20)
  | escaped (h : JsText.quoteChar c = ['\\', c]) (hc : c ∈ [quotation, '\\'])
  | control {e : Char} {es : List Char} (h : JsText.quoteChar c = '\\' :: e :: es)
      (he : ∀ x ∈ e :: es, x ∉ ['\n', '$', backquote, quotation, '\\'] ∧ ¬x.toNat < 0x20)
      (hcontrol : c.toNat < 0x20)

theorem writtenChar (c : Char) : WrittenChar c := by
  by_cases hcontrol : c.toNat < 0x20
  · have hall : ∀ n < 0x20, (JsText.quoteChar (Char.ofNat n)).head? = some '\\' ∧
        (JsText.quoteChar (Char.ofNat n)).tail ≠ [] ∧
          (JsText.quoteChar (Char.ofNat n)).tail.all fun x =>
          x ∉ ['\n', '$', backquote, quotation, '\\'] ∧ ¬x.toNat < 0x20 := by
      decide
    have hc := hall c.toNat hcontrol
    rw [Char.ofNat_toNat] at hc
    obtain ⟨hhead, htail, hchars⟩ := hc
    obtain ⟨tail, hquote⟩ := List.head?_eq_some_iff.mp hhead
    rw [hquote, List.tail_cons] at htail hchars
    rw [List.all_iff_forall_prop] at hchars
    obtain ⟨e, es, rfl⟩ := List.exists_cons_of_ne_nil htail
    exact .control hquote hchars hcontrol
  by_cases hmark : c = '"'
  · subst hmark
    exact .escaped rfl (by decide)
  by_cases hslash : c = '\\'
  · subst hslash
    exact .escaped rfl (by decide)
  · refine .plain ?_ ?_ hcontrol
    · rw [JsText.quoteChar, if_neg hmark, if_neg hslash, if_neg (by omega), if_neg (by omega),
        if_neg (by omega), if_neg (by omega), if_neg (by omega), if_neg hcontrol]
    · simpa using ⟨hmark, hslash⟩

/-- Characters that stand for themselves, in a row. -/
theorem readQuoted_plains {d : Dialect} {es : List Char}
    (h : ∀ x ∈ es, x ∉ [quotation, backquote, '\\', '$']) (cs : List Char) :
    readQuoted d (es ++ cs) = (readQuoted d cs).map fun read => (es ++ read.1, read.2) := by
  induction es with
  | nil =>
    rw [List.nil_append]
    cases readQuoted d cs with
    | none => rfl
    | some => rfl
  | cons e es ih =>
    rw [List.forall_mem_cons] at h
    rw [List.cons_append, readQuoted_plain h.1, ih h.2, Option.map_map]
    rfl

/-- The text that JSON writes of some characters, up to the closing mark. -/
def jsonBody (cs rest : List Char) : List Char := cs.flatMap JsText.quoteChar ++ quotation :: rest

theorem jsonBody_cons (c : Char) (cs rest : List Char) :
    jsonBody (c :: cs) rest = JsText.quoteChar c ++ jsonBody cs rest := by
  rw [jsonBody, List.flatMap_cons, List.append_assoc]
  rfl

theorem jsonBody_ne_nil (cs rest : List Char) : jsonBody cs rest ≠ [] :=
  List.append_ne_nil_of_right_ne_nil _ (List.cons_ne_nil _ _)

/-- What follows a `$` begins an expansion in the JSON text exactly if it does so in the string: an
escape begins none. -/
theorem expands_head_iff (d : Dialect) (cs rest : List Char) :
    (∀ next ∈ (jsonBody cs rest).head?, d.expands next = false) ↔
      ∀ next ∈ cs.head?, d.expands next = false := by
  cases cs with
  | nil => exact iff_of_true (fun next h => Option.some.inj h ▸ d.quotation) nofun
  | cons c =>
    have hslash : ∀ es : List Char, ∀ next ∈ ('\\' :: es).head?, d.expands next = false :=
      fun es next h => Option.some.inj h ▸ d.backslash
    rw [jsonBody_cons]
    cases writtenChar c with
    | plain h =>
      rw [h]
      rfl
    | escaped h hc =>
      rw [h]
      refine iff_of_true (hslash _) fun next hnext => ?_
      obtain rfl := Option.some.inj hnext
      rw [List.mem_cons, List.mem_singleton] at hc
      obtain rfl | rfl := hc
      · exact d.quotation
      · exact d.backslash
    | control h he hcontrol =>
      rw [h]
      exact iff_of_true (hslash _) fun next hnext => Option.some.inj hnext ▸ d.control c hcontrol

/-- **How a shell reads the JSON text of a string**: not at all if something in it is expanded; else
every character comes back but the control characters, which stay escaped. -/
theorem readQuoted_json (d : Dialect) (cs rest : List Char) :
    readQuoted d (jsonBody cs rest) =
      if NoExpansion d cs then some (cs.flatMap readBack, rest) else none := by
  have hmap : ∀ (ys cs : List Char), ((if NoExpansion d cs then some (cs.flatMap readBack,
    rest) else none :
      Option (List Char × List Char)).map fun read => (ys ++ read.1, read.2)) =
        if NoExpansion d cs then some (ys ++ cs.flatMap readBack, rest) else none := by
    intro ys cs
    split <;> rfl
  induction cs with
  | nil => exact readQuoted_end rest
  | cons c cs ih =>
    rw [jsonBody_cons, List.flatMap_cons]
    cases writtenChar c with
    | plain h hc hcontrol =>
      have hback : readBack c = [c] := if_neg hcontrol
      rw [h, hback, List.singleton_append]
      by_cases hbackquote : c = backquote
      · -- a backquote stands as it is, and begins a substitution
        subst hbackquote
        rw [readQuoted_backquote, if_neg fun h => h.1 rfl]
      by_cases hdollar : c = '$'
      · -- a dollar depends on what follows, and that is the same behind the quotation
        subst hdollar
        rw [readQuoted_dollar (jsonBody_ne_nil cs rest), ih]
        by_cases hnext : ∀ next ∈ cs.head?, d.expands next = false
        · rw [if_pos ((expands_head_iff d cs rest).mpr hnext)]
          refine (hmap ['$'] cs).trans (if_congr ?_ rfl rfl)
          exact ⟨fun h => ⟨hbackquote, fun _ => hnext, h⟩, fun h => h.2.2⟩
        · rw [if_neg fun h => hnext ((expands_head_iff d cs rest).mp h),
            if_neg fun h => hnext (h.2.1 rfl)]
      · have hplain : c ∉ [quotation, backquote, '\\', '$'] := by
          simp only [List.mem_cons, List.not_mem_nil, or_false, not_or] at hc ⊢
          exact ⟨hc.1, hbackquote, hc.2, hdollar⟩
        rw [readQuoted_plain hplain, ih]
        refine (hmap [c] cs).trans (if_congr ?_ rfl rfl)
        exact ⟨fun h => ⟨hbackquote, fun h => absurd h hdollar, h⟩, fun h => h.2.2⟩
    | escaped h hc =>
      have hnot : c ≠ backquote ∧ c ≠ '$' ∧ ¬c.toNat < 0x20 := by
        rw [List.mem_cons, List.mem_singleton] at hc
        obtain rfl | rfl := hc
        · decide
        · decide
      have hback : readBack c = [c] := if_neg hnot.2.2
      -- a quotation mark or a backslash loses its backslash again
      have hescaped : c = '$' ∨ c = backquote ∨ c = quotation ∨ c = '\\' :=
        .inr (.inr (by simpa using hc))
      rw [h, hback]
      change readQuoted d ('\\' :: c :: jsonBody cs rest) = _
      rw [readQuoted_escape hescaped, ih]
      refine (hmap [c] cs).trans (if_congr ?_ rfl rfl)
      exact ⟨fun h => ⟨hnot.1, fun h => absurd h hnot.2.1, h⟩, fun h => h.2.2⟩
    | @control e es h he hcontrol =>
      have hback : readBack c = '\\' :: e :: es := (if_pos hcontrol).trans h
      have hnot : c ≠ backquote ∧ c ≠ '$' := by
        refine ⟨?_, ?_⟩
        · rintro rfl
          exact absurd hcontrol (by decide)
        · rintro rfl
          exact absurd hcontrol (by decide)
      -- the letters of the escape stand as they are, backslash included
      have hplain : ∀ x ∈ es, x ∉ [quotation, backquote, '\\', '$'] := by
        intro x hx
        have hchar := (he x (List.mem_cons_of_mem e hx)).1
        simp only [List.mem_cons, List.not_mem_nil, or_false, not_or] at hchar ⊢
        tauto
      have hfirst : e ≠ '\n' ∧ ¬(e = '$' ∨ e = backquote ∨ e = quotation ∨ e = '\\') := by
        have hchar := (he e List.mem_cons_self).1
        simp only [List.mem_cons, List.not_mem_nil, or_false, not_or] at hchar ⊢
        tauto
      rw [h, hback]
      change readQuoted d ('\\' :: e :: (es ++ jsonBody cs rest)) = _
      rw [readQuoted_backslash hfirst, readQuoted_plains hplain, Option.map_map, ih]
      refine (hmap ('\\' :: e :: es) cs).trans (if_congr ?_ rfl rfl)
      exact ⟨fun h => ⟨hnot.1, fun h => absurd h hnot.2, h⟩, fun h => h.2.2⟩

/-! ### What comes back -/

theorem noControl_append_iff {as bs : List Char} : NoControl (as ++ bs) ↔ NoControl as ∧
    NoControl bs :=
  List.forall_mem_append

theorem flatMap_readBack {cs : List Char} (h : NoControl cs) : cs.flatMap readBack = cs := by
  induction cs with
  | nil => rfl
  | cons c cs ih =>
    unfold NoControl at h
    rw [List.forall_mem_cons] at h
    rw [List.flatMap_cons, ih h.2, readBack, if_neg h.1]
    rfl

/-- JSON leaves no control character. -/
theorem noControl_quoteChar (c : Char) : NoControl (JsText.quoteChar c) := by
  cases writtenChar c with
  | plain h hc hcontrol =>
    rw [h]
    exact List.forall_mem_singleton.mpr hcontrol
  | escaped h hc =>
    rw [h]
    refine List.forall_mem_cons.mpr ⟨by decide, List.forall_mem_singleton.mpr ?_⟩
    rw [List.mem_cons, List.mem_singleton] at hc
    obtain rfl | rfl := hc
    · decide
    · decide
  | control h he =>
    rw [h]
    exact List.forall_mem_cons.mpr ⟨by decide, fun x hx => (he x hx).2⟩

theorem noControl_readBack (cs : List Char) : NoControl (cs.flatMap readBack) := by
  intro x hx
  obtain ⟨c, -, hx⟩ := List.mem_flatMap.mp hx
  unfold readBack at hx
  split at hx
  · exact noControl_quoteChar c x hx
  · next hcontrol =>
    rw [List.mem_singleton] at hx
    exact hx ▸ hcontrol

theorem flatMap_readBack_eq_iff {cs : List Char} : cs.flatMap readBack = cs ↔ NoControl cs :=
  ⟨fun h => h ▸ noControl_readBack cs, flatMap_readBack⟩

theorem noControl_jsonBody (cs : List Char) {rest : List Char} (h : NoControl rest) :
    NoControl (jsonBody cs rest) := by
  refine noControl_append_iff.mpr ⟨fun x hx => ?_, List.forall_mem_cons.mpr ⟨by decide, h⟩⟩
  obtain ⟨c, -, hx⟩ := List.mem_flatMap.mp hx
  exact noControl_quoteChar c x hx

/-- **When a string is read back** from its JSON text. -/
theorem readQuoted_json_iff {d : Dialect} {cs rest rest' : List Char} :
    readQuoted d (jsonBody cs rest) = some (cs, rest') ↔ NoExpansion d cs ∧ NoControl cs ∧
      rest' = rest := by
  rw [readQuoted_json]
  split
  · next h =>
    rw [Option.some.injEq, Prod.mk.injEq, flatMap_readBack_eq_iff, eq_comm (a := rest)]
    exact (and_iff_right h).symm
  · next h => exact iff_of_false nofun fun h' => h h'.1

/-- Nothing is expanded in a JSON text, as JSON writes no more than a backslash in front of a
character. -/
theorem noExpansion_jsonBody {d : Dialect} {cs rest : List Char} :
    NoExpansion d (jsonBody cs rest) ↔ NoExpansion d cs ∧ NoExpansion d rest := by
  induction cs with
  | nil =>
    exact (noExpansion_append_iff [quotation] (List.all_iff_forall_prop.mp rfl) rest).trans
      (and_iff_right trivial).symm
  | cons c cs ih =>
    rw [jsonBody_cons]
    cases writtenChar c with
    | plain h =>
      rw [h, List.singleton_append, NoExpansion, NoExpansion, expands_head_iff, and_assoc,
        and_assoc]
      exact and_congr_right fun _ => and_congr_right fun _ => ih
    | escaped h hc =>
      have hnot : c ≠ backquote ∧ c ≠ '$' := by
        rw [List.mem_cons, List.mem_singleton] at hc
        obtain rfl | rfl := hc
        · decide
        · decide
      rw [h, noExpansion_append_iff _
        (List.forall_mem_cons.mpr ⟨by decide, List.forall_mem_singleton.mpr hnot⟩)]
      exact ih.trans (and_congr_left' (noExpansion_append_iff _
        (List.forall_mem_singleton.mpr hnot) cs).symm)
    | @control e es h he hcontrol =>
      have hnot : c ≠ backquote ∧ c ≠ '$' := by
        refine ⟨?_, ?_⟩
        · rintro rfl
          exact absurd hcontrol (by decide)
        · rintro rfl
          exact absurd hcontrol (by decide)
      -- a control character is written with a backslash, letters and digits
      have hes : ∀ x ∈ '\\' :: e :: es, x ≠ backquote ∧ x ≠ '$' := by
        refine List.forall_mem_cons.mpr ⟨by decide, fun x hx => ?_⟩
        have hchar := (he x hx).1
        simp only [List.mem_cons, List.not_mem_nil, or_false, not_or] at hchar
        exact ⟨hchar.2.2.1, hchar.2.1⟩
      rw [h, noExpansion_append_iff _ hes]
      exact ih.trans (and_congr_left' (noExpansion_append_iff _
        (List.forall_mem_singleton.mpr hnot) cs).symm)

/-! ### The line -/

/-- `fullCommand` of `execWithShell`. -/
def fullCommand (command : String) (cwd : Option String) (env : Environment) : String :=
  let withEnv :=
    if env = [] then command
    else
      String.intercalate " " (env.map fun entry => entry.1 ++ "=" ++ JsText.quote entry.2) ++ " " ++
        command
  match workingDirectory cwd with
  | some cwd => "cd " ++ JsText.quote cwd ++ " && " ++ withEnv
  | none => withEnv

/-- The line that `execWithShell` gives to `execCommand`. -/
def shellLine (shell command : String) (cwd : Option String) (env : Environment) : String :=
  shell ++ " -lc " ++ JsText.quote (fullCommand command cwd env)

/-- The assignments, with what follows them. -/
def assignmentsBefore : Environment → List Char → List Char
  | [], rest => rest
  | entry :: env, rest =>
    entry.1.toList ++ '=' :: quotation :: jsonBody entry.2.toList
      (' ' :: assignmentsBefore env rest)

/-- The change of directory, with what follows it. -/
def directoryBefore : Option String → List Char → List Char
  | none, rest => rest
  | some directory, rest =>
    "cd ".toList ++ quotation :: jsonBody directory.toList (" && ".toList ++ rest)

theorem toList_quote_append (text : String) (rest : List Char) :
    (JsText.quote text).toList ++ rest = quotation :: jsonBody text.toList rest := by
  rw [JsText.toList_quote, List.cons_append, List.append_assoc]
  rfl

theorem toList_assignments {env : Environment} (h : env ≠ []) (command : String) :
    (String.intercalate " " (env.map fun entry => entry.1 ++ "=" ++ JsText.quote entry.2) ++ " " ++
      command).toList = assignmentsBefore env command.toList := by
  rw [String.toList_append, toList_intercalate_ended " " (by simpa using h), List.flatMap_map]
  clear h
  induction env with
  | nil => rfl
  | cons entry env ih =>
    rw [assignmentsBefore, ← ih, List.flatMap_cons, String.toList_append, String.toList_append,
      List.append_assoc, List.append_assoc, List.append_assoc, List.append_assoc,
      toList_quote_append]
    rfl

theorem toList_fullCommand (command : String) (cwd : Option String) (env : Environment) :
    (fullCommand command cwd env).toList =
      directoryBefore (workingDirectory cwd) (assignmentsBefore env command.toList) := by
  have hassignments : ∀ withEnv : String, withEnv = (if env = [] then command
      else String.intercalate " " (env.map fun entry => entry.1 ++ "=" ++ JsText.quote entry.2) ++
        " " ++
        command) → withEnv.toList = assignmentsBefore env command.toList := by
    rintro _ rfl
    split
    · next hnil =>
      subst hnil
      rfl
    · next hnil => exact toList_assignments hnil command
  unfold fullCommand
  cases workingDirectory cwd with
  | none => exact hassignments _ rfl
  | some =>
    dsimp only
    rw [String.toList_append, hassignments _ rfl, String.toList_append, String.toList_append,
      List.append_assoc, List.append_assoc, toList_quote_append]
    rfl

/-! ### What the inner shell is given -/

/-- **Assignments at the beginning of a text**, and what follows them. The name of each is one that
a variable can have, and its value stands between quotation marks. -/
inductive ReadsAssignments (d : Dialect) : Environment → List Char → List Char → Prop
  | nil (rest : List Char) : ReadsAssignments d [] rest rest
  | cons {name value : String} {env : Environment} {cs cs' rest : List Char}
      (hname : isPosixEnvKey name = true) (hvalue : readQuoted d cs = some (value.toList,
        ' ' :: cs'))
      (h : ReadsAssignments d env cs' rest) :
      ReadsAssignments d ((name, value) :: env) (name.toList ++ '=' :: quotation :: cs) rest

/-- A script, as a shell reads it: the change of directory, if there is one, then the assignments,
then the command. -/
def ReadsOpening (d : Dialect) (directory : Option String) (env : Environment)
    (script command : List Char) : Prop :=
  match directory with
  | none => ReadsAssignments d env script command
  | some directory => ∃ cs rest, script = "cd ".toList ++ quotation :: cs ∧
      readQuoted d cs = some (directory.toList, " && ".toList ++ rest) ∧
      ReadsAssignments d env rest command

/-- **The inner shell is given the directory, the values and the command as they are**, by an outer
shell that reads the line, and takes its script for no options. -/
def InnerReceives (outer inner : Dialect) (shell command : String) (cwd : Option String)
    (env : Environment)
    (line : String) : Prop :=
  ∃ cs script, line.toList = (shell ++ " -lc ").toList ++ quotation :: cs ∧
    readQuoted outer cs = some (script, []) ∧ ¬TakenForOptions script ∧
    ReadsOpening inner (workingDirectory cwd) env script command.toList

/-- The text comes through a shell as it is: it has no control character, and nothing in it is
expanded. -/
def Literal (d : Dialect) (text : String) : Prop := NoExpansion d text.toList ∧
    NoControl text.toList

instance (d : Dialect) (text : String) : Decidable (Literal d text) :=
  inferInstanceAs (Decidable (_ ∧ _))

theorem validNames_of_reads {d : Dialect} {env : Environment} {cs rest : List Char}
    (h : ReadsAssignments d env cs rest) : ValidNames env := by
  induction h with
  | nil => exact fun entry h => absurd h List.not_mem_nil
  | cons hname hvalue h ih => exact List.forall_mem_cons.mpr ⟨hname, ih⟩

theorem readsAssignments_iff {d : Dialect} {env : Environment} {rest rest' : List Char} :
    ReadsAssignments d env (assignmentsBefore env rest) rest' ↔
      ValidNames env ∧ (∀ entry ∈ env, Literal d entry.2) ∧ rest' = rest := by
  induction env with
  | nil =>
    constructor
    · intro h
      cases h
      exact ⟨fun _ h => absurd h List.not_mem_nil, fun _ h => absurd h List.not_mem_nil, rfl⟩
    · rintro ⟨-, -, rfl⟩
      exact .nil _
  | cons entry env ih =>
    obtain ⟨name, value⟩ := entry
    unfold ValidNames at ih ⊢
    rw [List.forall_mem_cons, List.forall_mem_cons]
    constructor
    · intro h
      rw [assignmentsBefore] at h
      generalize htext : name.toList ++ '=' :: quotation ::
        jsonBody value.toList (' ' :: assignmentsBefore env rest) = text at h
      cases h with
      | @cons _ _ _ cs cs' _ hname hvalue h =>
        obtain rfl := (List.cons.inj (List.cons.inj (List.append_cancel_left htext)).2).2
        obtain ⟨hexpansion, hcontrol, hrest⟩ := readQuoted_json_iff.mp hvalue
        obtain rfl := (List.cons.inj hrest).2
        obtain ⟨hnames, hvalues, heq⟩ := ih.mp h
        exact ⟨⟨hname, hnames⟩, ⟨⟨hexpansion, hcontrol⟩, hvalues⟩, heq⟩
    · rintro ⟨⟨hname, hnames⟩, ⟨hliteral, hvalues⟩, heq⟩
      exact .cons hname (readQuoted_json_iff.mpr ⟨hliteral.1, hliteral.2, rfl⟩)
        (ih.mpr ⟨hnames, hvalues, heq⟩)

theorem readsOpening_iff {d : Dialect} {directory : Option String} {env : Environment}
    {command rest : List Char} :
    ReadsOpening d directory env (directoryBefore directory (assignmentsBefore env rest)) command ↔
      ValidNames env ∧ (∀ entry ∈ env, Literal d entry.2) ∧ (∀ text ∈ directory, Literal d text) ∧
        command = rest := by
  cases directory with
  | none =>
    refine readsAssignments_iff.trans ?_
    simp
  | some directory =>
    constructor
    · rintro ⟨cs, rest', hscript, hread, h⟩
      obtain rfl := (List.cons.inj (List.append_cancel_left hscript)).2
      obtain ⟨hexpansion, hcontrol, hrest⟩ := readQuoted_json_iff.mp hread
      obtain rfl := List.append_cancel_left hrest
      obtain ⟨hnames, hvalues, heq⟩ := readsAssignments_iff.mp h
      exact ⟨hnames, hvalues, fun text htext => Option.some.inj htext ▸ ⟨hexpansion, hcontrol⟩, heq⟩
    · rintro ⟨hnames, hvalues, hdirectory, heq⟩
      obtain ⟨hexpansion, hcontrol⟩ := hdirectory directory rfl
      exact ⟨_, _, rfl, readQuoted_json_iff.mpr ⟨hexpansion, hcontrol, rfl⟩,
        readsAssignments_iff.mpr ⟨hnames, hvalues, heq⟩⟩

/-! ### What the outer shell makes of the line -/

theorem plain_of_envKey {key : String} (h : isPosixEnvKey key = true) :
    (∀ c ∈ key.toList, c ≠ backquote ∧ c ≠ '$') ∧ NoControl key.toList := by
  have hname := nameChars_of_envKey h
  refine ⟨fun c hc => ⟨nameChar_ne (hname c hc) _ rfl, nameChar_ne (hname c hc) _ rfl⟩, ?_⟩
  intro c hc hcontrol
  have hall : ∀ n < 0x20, ((Char.ofNat n).isAlphanum || Char.ofNat n = '_') = false := by decide
  have hnot := hall c.toNat hcontrol
  rw [Char.ofNat_toNat, hname c hc] at hnot
  cases hnot

theorem flatMap_readBack_append (as : List Char) (h : NoControl as) (bs : List Char) :
    (as ++ bs).flatMap readBack = as ++ bs.flatMap readBack := by
  rw [List.flatMap_append, flatMap_readBack h]

theorem flatMap_readBack_jsonBody (cs rest : List Char) :
    (jsonBody cs rest).flatMap readBack = jsonBody cs (rest.flatMap readBack) := by
  have hbody : ∀ t, jsonBody cs t = jsonBody cs [] ++ t := fun t => by
    rw [jsonBody, jsonBody, List.append_assoc]
    rfl
  have hcontrol : NoControl (jsonBody cs []) :=
    noControl_jsonBody cs fun _ h => absurd h List.not_mem_nil
  rw [hbody rest, flatMap_readBack_append _ hcontrol, ← hbody]

section Names

variable {env : Environment} (hnames : ValidNames env) (rest : List Char)

include hnames

theorem flatMap_readBack_assignments :
    (assignmentsBefore env rest).flatMap readBack = assignmentsBefore env
      (rest.flatMap readBack) := by
  induction env with
  | nil => rfl
  | cons entry env ih =>
    unfold ValidNames at hnames
    rw [List.forall_mem_cons] at hnames
    rw [assignmentsBefore, assignmentsBefore,
      flatMap_readBack_append _ (plain_of_envKey hnames.1).2, ← ih hnames.2]
    refine congrArg (entry.1.toList ++ ·) ?_
    exact (flatMap_readBack_append ['=', quotation] (by decide) _).trans
      (congrArg (['=', quotation] ++ ·) (flatMap_readBack_jsonBody _ _))

theorem noExpansion_assignments {d : Dialect} :
    NoExpansion d (assignmentsBefore env rest) ↔
      (∀ entry ∈ env, NoExpansion d entry.2.toList) ∧ NoExpansion d rest := by
  induction env with
  | nil => exact (and_iff_right fun _ h => absurd h List.not_mem_nil).symm
  | cons entry env ih =>
    unfold ValidNames at hnames
    rw [List.forall_mem_cons] at hnames
    rw [assignmentsBefore, noExpansion_append_iff _ (plain_of_envKey hnames.1).1,
      List.forall_mem_cons, and_assoc, ← ih hnames.2]
    have hbehind : ∀ t, NoExpansion d (' ' :: t) ↔ NoExpansion d t :=
      noExpansion_append_iff [' '] (List.all_iff_forall_prop.mp rfl)
    rw [← hbehind (assignmentsBefore env rest), ← noExpansion_jsonBody]
    exact noExpansion_append_iff ['=', quotation] (List.all_iff_forall_prop.mp rfl) _

end Names

theorem flatMap_readBack_directory (directory : Option String) (rest : List Char) :
    (directoryBefore directory rest).flatMap readBack =
      directoryBefore directory (rest.flatMap readBack) := by
  cases directory with
  | none => rfl
  | some directory =>
    have hbehind : (" && ".toList ++ rest).flatMap readBack = " && ".toList ++
      rest.flatMap readBack :=
      flatMap_readBack_append _ (by decide) rest
    have hbefore := flatMap_readBack_append ("cd ".toList ++ [quotation]) (by decide)
      (jsonBody directory.toList (" && ".toList ++ rest))
    rw [flatMap_readBack_jsonBody, hbehind] at hbefore
    exact hbefore

theorem noExpansion_directory {d : Dialect} (directory : Option String) (rest : List Char) :
    NoExpansion d (directoryBefore directory rest) ↔
      (∀ text ∈ directory, NoExpansion d text.toList) ∧ NoExpansion d rest := by
  cases directory with
  | none => exact (and_iff_right nofun).symm
  | some directory =>
    have hbefore : NoExpansion d (directoryBefore (some directory) rest) ↔
        NoExpansion d (jsonBody directory.toList (" && ".toList ++ rest)) :=
      noExpansion_append_iff ("cd ".toList ++ [quotation]) (List.all_iff_forall_prop.mp rfl) _
    rw [hbefore, noExpansion_jsonBody, noExpansion_append_iff _ (List.all_iff_forall_prop.mp rfl)]
    exact and_congr_left' ⟨fun h text htext => Option.some.inj htext ▸ h, fun h => h directory rfl⟩

/-- The command stands at the beginning of the script. -/
theorem takenForOptions_opening {env : Environment} (hnames : ValidNames env)
    (directory : Option String) (command : List Char) :
    TakenForOptions (directoryBefore directory (assignmentsBefore env command)) ↔
      directory = none ∧ env = [] ∧ TakenForOptions command := by
  cases directory with
  | some =>
    refine iff_of_false (by simp [TakenForOptions, directoryBefore]) ?_
    rintro ⟨⟨⟩, -⟩
  | none =>
    cases env with
    | nil => simp [directoryBefore, assignmentsBefore]
    | cons entry =>
      refine iff_of_false ?_ fun h => List.cons_ne_nil _ _ h.2.1
      have hkey := hnames entry List.mem_cons_self
      have hname := nameChars_of_envKey hkey
      -- a name is not empty, and no letter of it begins an option
      cases hchars : entry.1.toList with
      | nil =>
        rw [isPosixEnvKey, hchars] at hkey
        cases hkey
      | cons =>
        rw [hchars, List.forall_mem_cons] at hname
        rw [directoryBefore, assignmentsBefore, hchars]
        rintro (h | h)
        · exact nameChar_ne hname.1 '-' rfl (Option.some.inj h)
        · exact nameChar_ne hname.1 '+' rfl (Option.some.inj h)

/-- **When the inner shell is given everything as it is.** -/
theorem innerReceives_iff (outer inner : Dialect) (shell command : String) (cwd : Option String)
    (env : Environment) :
    InnerReceives outer inner shell command cwd env (shellLine shell command cwd env) ↔
      ValidNames env ∧ Literal outer command ∧
        (∀ text ∈ workingDirectory cwd, NoExpansion outer text.toList ∧ Literal inner text) ∧
        (∀ entry ∈ env, NoExpansion outer entry.2.toList ∧ Literal inner entry.2) ∧
        (workingDirectory cwd = none → env = [] → ¬TakenForOptions command.toList) := by
  have hline : (shellLine shell command cwd env).toList =
      (shell ++ " -lc ").toList ++ quotation :: jsonBody (fullCommand command cwd env).toList
        [] := by
    rw [shellLine, String.toList_append, ← toList_quote_append, List.append_nil]
  constructor
  · rintro ⟨cs, script, hcs, hread, hoptions, hopening⟩
    obtain rfl := (List.cons.inj (List.append_cancel_left (hline.symm.trans hcs))).2
    rw [readQuoted_json] at hread
    split at hread
    · next houter =>
      obtain rfl := (Prod.mk.inj (Option.some.inj hread)).1
      -- a shell that reads the opening has read valid names
      have hnames : ValidNames env := by
        unfold ReadsOpening at hopening
        split at hopening
        · exact validNames_of_reads hopening
        · obtain ⟨_, _, -, -, h⟩ := hopening
          exact validNames_of_reads h
      rw [toList_fullCommand] at houter hopening hoptions
      rw [flatMap_readBack_directory, flatMap_readBack_assignments hnames] at hopening hoptions
      rw [readsOpening_iff] at hopening
      rw [noExpansion_directory, noExpansion_assignments hnames] at houter
      obtain ⟨-, hvalues, hdirectory, hcommand⟩ := hopening
      refine ⟨hnames, ⟨houter.2.2, flatMap_readBack_eq_iff.mp hcommand.symm⟩,
        fun text h => ⟨houter.1 text h, hdirectory text h⟩,
        fun entry h => ⟨houter.2.1 entry h, hvalues entry h⟩, fun hcwd henv htaken => hoptions ?_⟩
      rw [← hcommand]
      exact (takenForOptions_opening hnames _ _).mpr ⟨hcwd, henv, htaken⟩
    · cases hread
  · rintro ⟨hnames, hcommand, hdirectory, hvalues, hoptions⟩
    have houter : NoExpansion outer (fullCommand command cwd env).toList := by
      rw [toList_fullCommand, noExpansion_directory, noExpansion_assignments hnames]
      exact ⟨fun text h => (hdirectory text h).1, fun entry h => (hvalues entry h).1, hcommand.1⟩
    refine ⟨_, (fullCommand command cwd env).toList.flatMap readBack, hline, ?_, ?_, ?_⟩
    · rw [readQuoted_json, if_pos houter]
    · rw [toList_fullCommand, flatMap_readBack_directory, flatMap_readBack_assignments hnames,
        flatMap_readBack hcommand.2, takenForOptions_opening hnames]
      exact fun h => hoptions h.1 h.2.1 h.2.2
    · rw [toList_fullCommand, flatMap_readBack_directory, flatMap_readBack_assignments hnames,
        readsOpening_iff]
      exact ⟨hnames, fun entry h => (hvalues entry h).2, fun text h => (hdirectory text h).2,
        (flatMap_readBack hcommand.2).symm⟩

/-! ### Runs -/

/-- What is sent to a POSIX host hands this text to its shell, with a limit of time where the host
has `timeout`. -/
def HandsOver (sent text : String) : Prop :=
  ∃ remoteCommand seconds, handed remoteCommand = some text ∧ sent = String.intercalate " "
    ["if command -v timeout >/dev/null 2>&1; then",
      "timeout -k 2s " ++ seconds ++ "s " ++ remoteCommand ++ ";",
      "else", remoteCommand ++ ";", "fi"]

theorem handsOver_of_build {text sent : String} {osInfo : OSInfo} {timeoutMs : ℕ}
    (h : buildRemoteCommandWithTimeout text osInfo timeoutMs none [] = .ok sent)
    (hplatform : osInfo.platform ≠ .windows) (htext : ¬TakenForOptions text.toList) :
    HandsOver sent text := by
  unfold buildRemoteCommandWithTimeout buildRemoteCommand at h
  rw [if_neg hplatform, buildPosixCommand_eq fun _ hentry => absurd hentry List.not_mem_nil] at h
  dsimp only [bind, Except.bind] at h
  rw [if_neg hplatform] at h
  exact ⟨_, _, handed_line (shellName_osInfo osInfo) htext, (Except.ok.inj h).symm⟩

theorem not_takenForOptions_shellLine {shell : String} (hshell : shell ∈ ["bash", "zsh", "sh"])
    (command : String) (cwd : Option String) (env : Environment) :
    ¬TakenForOptions (shellLine shell command cwd env).toList := by
  simp only [List.mem_cons, List.not_mem_nil, or_false] at hshell
  obtain rfl | rfl | rfl := hshell
  · simp [TakenForOptions, shellLine]
  · simp [TakenForOptions, shellLine]
  · simp [TakenForOptions, shellLine]

/-- **Commands that are sent**: each is among the scripts, and sent as the line that is built for
the host. -/
def SendsBuilt (sessionId : String) (log : List Event) (scripts : Script → Prop) : Operation → Prop
  | .execWithin script sent _ => scripts script ∧ ∃ osInfo timeoutMs,
      ⟨.getOSInfo sessionId, .ok osInfo⟩ ∈ log ∧
        buildRemoteCommandWithTimeout script.text osInfo timeoutMs none [] = .ok sent
  | _ => True

theorem SendsBuilt.mono {sessionId : String} {log : List Event} {scripts scripts' : Script → Prop}
    (h : ∀ script, scripts script → scripts' script) (op : Operation)
    (hop : SendsBuilt sessionId log scripts op) : SendsBuilt sessionId log scripts' op := by
  cases op with
  | execWithin script => exact ⟨h script hop.1, hop.2⟩
  | _ => trivial

section Runs

variable {rt : Runtime} (engine : PolicyEngine rt) (config : ServerConfig) (sessionId : String)
variable (log : List Event)

theorem performs_execCommand (script : Script) :
    Performs (· ∈ log) (SendsBuilt sessionId log (· = script))
      (execCommand engine config sessionId script none [] none) := by
  have hsession : Performs (· ∈ log) (SendsBuilt sessionId log (· = script))
    (getSession sessionId) := by
    refine ⟨trivial, fun answer _ => ?_⟩
    cases answer with
    | none => trivial
    | some => trivial
  refine Performs.bind hsession fun session => performs_ofExcept_bind fun decision _ => ?_
  show Performs _ _ (if _ then _ else _)
  split
  · trivial
  refine ⟨trivial, fun answer hos => ?_⟩
  cases answer with
  | error => trivial
  | ok osInfo =>
    refine ⟨trivial, fun started _ => ?_⟩
    refine Performs.tryCatch (performs_ofExcept_bind fun sent hsent => ?_) fun e => ?_
    · refine ⟨⟨rfl, osInfo, _, hos, hsent⟩, fun answer _ => performs_ofExcept_bind fun outcome _ =>
        ?_⟩
      cases outcome with
      | none => trivial
      | some =>
        refine ⟨trivial, fun _ _ => ?_⟩
        show Performs _ _ (if _ then _ else _)
        split
        · trivial
        · trivial
    · split
      · trivial
      · trivial

/-- The looking for a shell runs `which` only, and yields a shell that was looked for, or `sh`. -/
theorem ensures_firstShell (shells : List String) :
    Ensures (· ∈ log) (SendsBuilt sessionId log fun script => ∃ shell, script = .which shell)
      (fun result => ∀ shell, result = .ok shell → shell ∈ shells ∨ shell = "sh")
      (firstShell engine config sessionId shells) := by
  induction shells with
  | nil => exact fun shell h => .inr (Except.ok.inj h).symm
  | cons shell shells ih =>
    have hexists : Performs (· ∈ log) (SendsBuilt sessionId log fun script => ∃ shell, script =
      .which shell)
        (commandExists engine config sessionId shell) := by
      refine Performs.tryCatch (Performs.bind ?_ fun _ => trivial) fun _ => trivial
      refine (performs_execCommand engine config sessionId log (.which shell)).weaken
        fun op hop => ?_
      exact SendsBuilt.mono (fun script h => ⟨shell, h⟩) op hop
    refine Ensures.bind hexists (fun found _ => ?_) fun e _ => nofun
    split
    · exact fun shell' h => .inl (Except.ok.inj h ▸ List.mem_cons_self)
    · exact ih.mono fun result h shell' heq => (h shell' heq).imp_left (List.mem_cons_of_mem shell)

theorem performs_execWithShell (command : String) (cwd : Option String) (env : Environment) :
    Performs (· ∈ log)
      (SendsBuilt sessionId log fun script => (∃ shell, script = .which shell) ∨
        ∃ shell ∈ ["bash", "zsh", "sh"], script = .command (shellLine shell command cwd env))
      (execWithShell engine config sessionId command cwd env) := by
  have hshell := (ensures_firstShell engine config sessionId log ["bash", "zsh", "sh"]).weaken
    (SendsBuilt.mono fun script => Or.inl (b := ∃ shell ∈ ["bash", "zsh", "sh"],
      script = .command (shellLine shell command cwd env)))
  refine Ensures.bind hshell (fun shell h => ?_) fun _ _ => trivial
  have hmem : shell ∈ ["bash", "zsh", "sh"] := (h shell rfl).elim id fun h => by
    rw [h]
    decide
  refine (performs_execCommand engine config sessionId log
    (.command (shellLine shell command cwd env))).weaken ?_
  exact SendsBuilt.mono fun script heq => .inr ⟨shell, hmem, heq⟩

end Runs

/-- **When the inner shell is given everything as it is**: in every run, whichever shell is found,
the command, the directory and the values come through exactly if the names are those of variables
and there is no control character, nothing that a shell on the way expands, and no command that it
takes for options. -/
theorem inner_shell_literal_iff {rt : Runtime} (engine : PolicyEngine rt) (config : ServerConfig)
    (sessionId command : String) (cwd : Option String) (env : Environment) {log : List Event}
    {result : Except Failure ExecResult}
    (h : Runs (execWithShell engine config sessionId command cwd env) log result)
    {text sent : String} {limit : ℕ} {answer : Answer (.execWithin (.command text) sent limit)}
    (hmem : ⟨.execWithin (.command text) sent limit, answer⟩ ∈ log) :
    (∃ osInfo, ⟨.getOSInfo sessionId, .ok osInfo⟩ ∈ log ∧
      (osInfo.platform ≠ .windows → HandsOver sent text)) ∧
    ∃ shell ∈ ["bash", "zsh", "sh"], text = shellLine shell command cwd env ∧
      ∀ outer inner : Dialect,
      InnerReceives outer inner shell command cwd env text ↔
        ValidNames env ∧ Literal outer command ∧
          (∀ directory ∈ workingDirectory cwd,
            NoExpansion outer directory.toList ∧ Literal inner directory) ∧
          (∀ entry ∈ env, NoExpansion outer entry.2.toList ∧ Literal inner entry.2) ∧
          (workingDirectory cwd = none → env = [] → ¬TakenForOptions command.toList) := by
  have hsends := ((performs_execWithShell engine config sessionId log command cwd env).of_runs h
    fun _ he => he).1 _ hmem
  obtain ⟨hscript, osInfo, timeoutMs, hos, hline⟩ := hsends
  obtain ⟨shell, heq⟩ | ⟨shell, hshell, heq⟩ := hscript
  · cases heq
  · obtain rfl := Script.command.inj heq
    have htext := not_takenForOptions_shellLine hshell command cwd env
    exact ⟨⟨osInfo, hos, fun hplatform => handsOver_of_build hline hplatform htext⟩, shell,
      hshell, rfl,
      fun outer inner => innerReceives_iff outer inner shell command cwd env⟩

/-- On a Linux host that has `bash`, the line is sent for it. -/
theorem exists_runs_execWithShell (config : ServerConfig) (command : String) (cwd : Option String)
    (env : Environment) :
    ∃ (engine : PolicyEngine decimalRuntime) (log : List Event) (result : Except Failure ExecResult)
      (sent : String) (limit : ℕ)
      (answer : Answer (.execWithin (.command (shellLine "bash" command cwd env)) sent limit)),
      Runs (execWithShell engine config "ssh-1" command cwd env) log result ∧
        HandsOver sent (shellLine "bash" command cwd env) ∧
        ⟨.execWithin (.command (shellLine "bash" command cwd env)) sent limit, answer⟩ ∈ log := by
  obtain ⟨engine, hpermits⟩ := exists_permitting_commands
  let limit := (none : Option ℕ).getD config.commandTimeoutMs
  have hline : ∀ text, ∃ sent, buildRemoteCommandWithTimeout text linuxHost limit none
    [] = .ok sent :=
    fun text => buildRemoteCommandWithTimeout_linux text limit none assertValidEnvironment_nil
  have hrun := fun (script : Script) (sent : String)
      (h : buildRemoteCommandWithTimeout script.text linuxHost limit none [] = .ok sent) =>
    runs_execCommand config "ssh-1" (show (⟨.enforce, true⟩ : Session).policyMode =
      .enforce from rfl)
      (hpermits script) h (show (⟨some 0, "", ""⟩ : CommandResult).code.getD 0 ∉ terminationCodes by
        decide) 0
  obtain ⟨probe, hprobe⟩ := hline (Script.which "bash").text
  obtain ⟨sent, hsent⟩ := hline (shellLine "bash" command cwd env)
  have hexists : Runs (commandExists engine config "ssh-1" "bash") _ (.ok true) :=
    Runs.tryCatch_ok (Runs.bind (hrun (.which "bash") probe hprobe) (.done _))
  have hshell : Runs (getAvailableShell engine config "ssh-1") _ (.ok "bash") :=
    hexists.bind (.done _)
  refine ⟨engine, _, _, sent, limit, .ok (some ⟨some 0, "", ""⟩),
    hshell.bind (hrun (.command (shellLine "bash" command cwd env)) sent hsent),
    handsOver_of_build hsent (by decide)
      (not_takenForOptions_shellLine (by decide) command cwd env),
    ?_⟩
  refine List.mem_append_right _ ?_
  exact .tail _ (.tail _ (.tail _ (.head _)))

/-- A line that comes through. -/
theorem inner_shell_literal_iff_echo :
    ∃ (engine : PolicyEngine decimalRuntime) (log : List Event) (result : Except Failure ExecResult)
      (text : String) (sent : String) (limit : ℕ)
        (answer : Answer (.execWithin (.command text) sent limit)),
      Runs (execWithShell engine sampleConfig "ssh-1" "echo ok" (some "/srv")
        [("NAME", "a 'b' \"c\" \\d")])
        log result ∧
      ⟨.execWithin (.command text) sent limit, answer⟩ ∈ log ∧ HandsOver sent text ∧
      ∃ shell ∈ ["bash", "zsh", "sh"], InnerReceives posixDialect posixDialect shell "echo ok"
        (some "/srv")
        [("NAME", "a 'b' \"c\" \\d")] text := by
  obtain ⟨engine, log, result, sent, limit, answer, hrun, hsent, hmem⟩ :=
    exists_runs_execWithShell sampleConfig "echo ok" (some "/srv") [("NAME", "a 'b' \"c\" \\d")]
  obtain ⟨-, shell, hshell, -, hiff⟩ :=
    inner_shell_literal_iff engine sampleConfig "ssh-1" "echo ok"
    (some "/srv") [("NAME", "a 'b' \"c\" \\d")] hrun hmem
  exact ⟨engine, log, result, _, sent, limit, answer, hrun, hmem, hsent, shell, hshell,
    (hiff posixDialect posixDialect).mpr
      ⟨List.forall_mem_singleton.mpr (by decide), by decide, by decide, by decide, fun _ => nofun⟩⟩

/-- **A variable is expanded on the way**: the outer shell reads `$NAME` before the inner one has
it. -/
theorem variable_expanded_outside :
    ∃ (engine : PolicyEngine decimalRuntime) (log : List Event) (result : Except Failure ExecResult)
      (sent : String) (limit : ℕ) (answer : Answer (.execWithin
        (.command "bash -lc \"cd \\\"/srv\\\" && NAME=\\\"demo\\\" echo $NAME\"") sent limit)),
      Runs (execWithShell engine sampleConfig "ssh-1" "echo $NAME" (some "/srv") [("NAME", "demo")])
        log result ∧
      HandsOver sent "bash -lc \"cd \\\"/srv\\\" && NAME=\\\"demo\\\" echo $NAME\"" ∧
      ⟨.execWithin (.command "bash -lc \"cd \\\"/srv\\\" && NAME=\\\"demo\\\" echo $NAME\"") sent
        limit,
        answer⟩ ∈ log ∧
      ¬InnerReceives posixDialect posixDialect "bash" "echo $NAME" (some "/srv") [("NAME", "demo")]
        "bash -lc \"cd \\\"/srv\\\" && NAME=\\\"demo\\\" echo $NAME\"" := by
  have hline : shellLine "bash" "echo $NAME" (some "/srv") [("NAME", "demo")] =
      "bash -lc \"cd \\\"/srv\\\" && NAME=\\\"demo\\\" echo $NAME\"" := by
    decide +kernel
  have hruns := exists_runs_execWithShell sampleConfig "echo $NAME" (some "/srv") [("NAME", "demo")]
  have hiff := innerReceives_iff posixDialect posixDialect "bash" "echo $NAME" (some "/srv")
    [("NAME", "demo")]
  rw [hline] at hruns hiff
  obtain ⟨engine, log, result, sent, limit, answer, hrun, hsent, hmem⟩ := hruns
  refine ⟨engine, log, result, sent, limit, answer, hrun, hsent, hmem, fun h => ?_⟩
  exact absurd (hiff.mp h).2.1 (by decide)

end Ssh
