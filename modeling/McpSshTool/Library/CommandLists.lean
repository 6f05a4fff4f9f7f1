import McpSshTool.Library.ShellWords

/-!
# Lists of commands

What a shell runs of a script: and-or lists one after the other, each with its pipelines joined by
`&&` and `||`. Which pipelines run depends on the statuses of the ones before them, and these are
not known in advance: a run is one that some statuses lead to.

* `AndOr`, `RunsTail`, `RunsLists` — the lists and their runs, over any pipelines and any state;
* `RunsLists.preserves`, `RunsLists.preserves_of_mem` — what every step keeps, a run keeps;
* `RunsTail.eq_of_failed` — **after a failure** only `||` goes on;
* `exists_run_through` — every pipeline of a script is run by some run of it;
* `readLists` — the lists of simple commands that a text stands for;
* `readLines` — the same of a script whose lines are single commands.
-/

/-- The operators between the pipelines of a list. -/
inductive Connective where
  | and
  | or
deriving DecidableEq, Repr

/-- Whether the next pipeline runs, by the status of the last one. -/
def Connective.proceeds : Connective → Bool → Bool
  | .and, ok => ok
  | .or, ok => !ok

/-- An and-or list over pipelines of type `π`. -/
structure AndOr (π : Type*) where
  head : π
  tail : List (Connective × π)
deriving DecidableEq, Repr

namespace AndOr

variable {π : Type*}

/-- A list of one pipeline. -/
def single (p : π) : AndOr π := ⟨p, []⟩

/-- The list, run only where another pipeline succeeds. -/
def after (l : AndOr π) (p : π) : AndOr π := ⟨p, (.and, l.head) :: l.tail⟩

/-- No pipeline of the list waits for a failure. -/
def OnlyAnd (l : AndOr π) : Prop := ∀ part ∈ l.tail, part.1 = .and

/-- The pipelines of a list. -/
def pipelines (l : AndOr π) : List π := l.head :: l.tail.map Prod.snd

end AndOr

/-! ### Runs -/

section Runs

variable {σ π : Type*} (step : σ → π → Bool → σ → Prop)

/-- **The rest of a list**, `ok` being the status of the pipeline that ran last. -/
inductive RunsTail : σ → Bool → List (Connective × π) → σ → Prop
  | done (s : σ) (ok : Bool) : RunsTail s ok [] s
  | runs {s s' s'' : σ} {ok ok' : Bool} {c : Connective} {p : π} {tail : List (Connective × π)} :
      c.proceeds ok = true → step s p ok' s' → RunsTail s' ok' tail s'' →
        RunsTail s ok ((c, p) :: tail) s''
  | skips {s s' : σ} {ok : Bool} {c : Connective} {p : π} {tail : List (Connective × π)} :
      c.proceeds ok = false → RunsTail s ok tail s' → RunsTail s ok ((c, p) :: tail) s'

/-- **The lists of a script**, each whatever became of the one before. -/
inductive RunsLists : σ → List (AndOr π) → σ → Prop
  | done (s : σ) : RunsLists s [] s
  | runs {s s₁ s₂ s₃ : σ} {ok : Bool} {l : AndOr π} {ls : List (AndOr π)} :
      step s l.head ok s₁ → RunsTail step s₁ ok l.tail s₂ → RunsLists s₂ ls s₃ →
        RunsLists s (l :: ls) s₃

variable {step} {Q : σ → Prop}

theorem RunsTail.preserves_of_mem {s s' : σ} {ok : Bool} {tail : List (Connective × π)}
    (h : RunsTail step s ok tail s')
    (hkeeps : ∀ p ∈ tail.map Prod.snd, ∀ s ok s', step s p ok s' → Q s → Q s') (hs : Q s) :
    Q s' := by
  induction h with
  | done => exact hs
  | runs _ hstep _ ih =>
    exact ih (fun p hp => hkeeps p (List.mem_cons_of_mem _ hp))
      (hkeeps _ List.mem_cons_self _ _ _ hstep hs)
  | skips _ _ ih => exact ih (fun p hp => hkeeps p (List.mem_cons_of_mem _ hp)) hs

theorem RunsLists.preserves_of_mem {s s' : σ} {ls : List (AndOr π)} (h : RunsLists step s ls s')
    (hkeeps : ∀ l ∈ ls, ∀ p ∈ l.pipelines, ∀ s ok s', step s p ok s' → Q s → Q s') (hs : Q s) :
    Q s' := by
  induction h with
  | done => exact hs
  | runs hstep htail _ ih =>
    have hfirst := hkeeps _ List.mem_cons_self
    refine ih (fun l hl => hkeeps l (List.mem_cons_of_mem _ hl)) ?_
    refine htail.preserves_of_mem (fun p hp => hfirst p (List.mem_cons_of_mem _ hp)) ?_
    exact hfirst _ List.mem_cons_self _ _ _ hstep hs

section Preserves

variable (hkeeps : ∀ s p ok s', step s p ok s' → Q s → Q s')

include hkeeps

theorem RunsTail.preserves {s s' : σ} {ok : Bool} {tail : List (Connective × π)}
    (h : RunsTail step s ok tail s') (hs : Q s) : Q s' :=
  h.preserves_of_mem (fun p _ s ok s' => hkeeps s p ok s') hs

/-- **What every step keeps**, a run keeps. -/
theorem RunsLists.preserves {s s' : σ} {ls : List (AndOr π)} (h : RunsLists step s ls s')
    (hs : Q s) : Q s' :=
  h.preserves_of_mem (fun _ _ p _ s ok s' => hkeeps s p ok s') hs

end Preserves

/-- **After a failure**, a list whose pipelines all wait for a success is over. -/
theorem RunsTail.eq_of_failed {s s' : σ} {tail : List (Connective × π)}
    (h : RunsTail step s false tail s') (hand : ∀ part ∈ tail, part.1 = Connective.and) :
    s' = s := by
  induction tail with
  | nil =>
    cases h
    rfl
  | cons part tail ih =>
    obtain ⟨c, p⟩ := part
    obtain rfl : c = .and := hand (c, p) List.mem_cons_self
    cases h with
    | runs hproceeds => cases hproceeds
    | skips _ hrest => exact ih hrest fun part hpart => hand part (List.mem_cons_of_mem _ hpart)

section Through

variable (htotal : ∀ s p ok, ∃ s', step s p ok s')

include htotal

/-- A list can always go on. -/
theorem exists_runsTail (s : σ) (ok : Bool) (tail : List (Connective × π)) :
    ∃ s', RunsTail step s ok tail s' := by
  induction tail generalizing s ok with
  | nil => exact ⟨s, .done s ok⟩
  | cons part tail ih =>
    obtain ⟨c, p⟩ := part
    cases hproceeds : c.proceeds ok with
    | true =>
      obtain ⟨s₁, hstep⟩ := htotal s p true
      obtain ⟨s₂, hrest⟩ := ih s₁ true
      exact ⟨s₂, .runs hproceeds hstep hrest⟩
    | false =>
      obtain ⟨s₂, hrest⟩ := ih s ok
      exact ⟨s₂, .skips hproceeds hrest⟩

theorem exists_runsLists (s : σ) (ls : List (AndOr π)) : ∃ s', RunsLists step s ls s' := by
  induction ls generalizing s with
  | nil => exact ⟨s, .done s⟩
  | cons l ls ih =>
    obtain ⟨s₁, hstep⟩ := htotal s l.head true
    obtain ⟨s₂, htail⟩ := exists_runsTail htotal s₁ true l.tail
    obtain ⟨s₃, hrest⟩ := ih s₂
    exact ⟨s₃, .runs hstep htail hrest⟩

variable (hkeeps : ∀ s p ok s', step s p ok s' → Q s → Q s')

include hkeeps

theorem exists_runsTail_of (s : σ) (ok : Bool) (tail : List (Connective × π)) (hs : Q s) :
    ∃ s', RunsTail step s ok tail s' ∧ Q s' := by
  obtain ⟨s', hrun⟩ := exists_runsTail htotal s ok tail
  exact ⟨s', hrun, hrun.preserves hkeeps hs⟩

theorem exists_runsLists_of (s : σ) (ls : List (AndOr π)) (hs : Q s) :
    ∃ s', RunsLists step s ls s' ∧ Q s' := by
  obtain ⟨s', hrun⟩ := exists_runsLists htotal s ls
  exact ⟨s', hrun, hrun.preserves hkeeps hs⟩

/-- A pipeline after a `||` runs where everything before it fails. -/
theorem exists_runsTail_or {tail : List (Connective × π)} (hor : ∃ part ∈ tail, part.1 = .or)
    {s : σ} (hreach : ∀ p, ∃ ok s', step s p ok s' ∧ Q s') :
    ∃ s', RunsTail step s false tail s' ∧ Q s' := by
  induction tail with
  | nil =>
    obtain ⟨part, hpart, _⟩ := hor
    cases hpart
  | cons part tail ih =>
    obtain ⟨c, p⟩ := part
    cases c with
    | or =>
      obtain ⟨ok, s₁, hstep, hs₁⟩ := hreach p
      obtain ⟨s₂, hrest, hs₂⟩ := exists_runsTail_of htotal hkeeps s₁ ok tail hs₁
      exact ⟨s₂, .runs rfl hstep hrest, hs₂⟩
    | and =>
      obtain ⟨s₂, hrest, hs₂⟩ := ih (by simpa using hor)
      exact ⟨s₂, .skips rfl hrest, hs₂⟩

/-- A pipeline of the rest of a list runs where each status is the one that the next operator waits
for. -/
theorem exists_runsTail_through {tail : List (Connective × π)} {p : π}
    (hp : p ∈ tail.map Prod.snd) (hreach : ∀ s ok, ∃ s', step s p ok s' ∧ Q s') :
    ∃ ok, ∀ s, ∃ s', RunsTail step s ok tail s' ∧ Q s' := by
  induction tail with
  | nil => cases hp
  | cons part tail ih =>
    obtain ⟨c, q⟩ := part
    -- the status before `c` is the one on which it proceeds
    obtain ⟨ok, hproceeds⟩ : ∃ ok, c.proceeds ok = true := by
      cases c with
      | and => exact ⟨true, rfl⟩
      | or => exact ⟨false, rfl⟩
    refine ⟨ok, fun s => ?_⟩
    rw [List.map_cons, List.mem_cons] at hp
    obtain rfl | hp := hp
    · obtain ⟨s₁, hstep, hs₁⟩ := hreach s true
      obtain ⟨s₂, hrest, hs₂⟩ := exists_runsTail_of htotal hkeeps s₁ true tail hs₁
      exact ⟨s₂, .runs hproceeds hstep hrest, hs₂⟩
    · obtain ⟨ok', hrest⟩ := ih hp
      obtain ⟨s₁, hstep⟩ := htotal s q ok'
      obtain ⟨s₂, hrest, hs₂⟩ := hrest s₁
      exact ⟨s₂, .runs hproceeds hstep hrest, hs₂⟩

/-- **Every pipeline of a script is run by some run**, and what it leaves for good is there in the
end. -/
theorem exists_run_through {ls : List (AndOr π)} {p : π} (hp : ∃ l ∈ ls, p ∈ l.pipelines)
    (hreach : ∀ s ok, ∃ s', step s p ok s' ∧ Q s') (s : σ) :
    ∃ s', RunsLists step s ls s' ∧ Q s' := by
  induction ls generalizing s with
  | nil =>
    obtain ⟨l, hl, _⟩ := hp
    cases hl
  | cons l ls ih =>
    obtain ⟨l', hl', hp'⟩ := hp
    rw [List.mem_cons] at hl'
    obtain rfl | hl' := hl'
    · rw [AndOr.pipelines, List.mem_cons] at hp'
      obtain rfl | hp' := hp'
      · obtain ⟨s₁, hstep, hs₁⟩ := hreach s true
        obtain ⟨s₂, htail, hs₂⟩ := exists_runsTail_of htotal hkeeps s₁ true l'.tail hs₁
        obtain ⟨s₃, hrest, hs₃⟩ := exists_runsLists_of htotal hkeeps s₂ ls hs₂
        exact ⟨s₃, .runs hstep htail hrest, hs₃⟩
      · obtain ⟨ok, htail⟩ := exists_runsTail_through htotal hkeeps hp' hreach
        obtain ⟨s₁, hstep⟩ := htotal s l'.head ok
        obtain ⟨s₂, htail, hs₂⟩ := htail s₁
        obtain ⟨s₃, hrest, hs₃⟩ := exists_runsLists_of htotal hkeeps s₂ ls hs₂
        exact ⟨s₃, .runs hstep htail hrest, hs₃⟩
    · obtain ⟨s₁, hstep⟩ := htotal s l.head true
      obtain ⟨s₂, htail⟩ := exists_runsTail htotal s₁ true l.tail
      obtain ⟨s₃, hrest, hs₃⟩ := ih ⟨l', hl', hp'⟩ s₂
      exact ⟨s₃, .runs hstep htail hrest, hs₃⟩

end Through

end Runs

/-! ### Simple commands -/

namespace ShellWords

/-- The parts of a simple command. A redirection may be of a descriptor that is named by digits. -/
inductive Part where
  | word (word : Word)
  | redirection (digits : Option Word) (operator : List Char) (target : Word)
deriving DecidableEq, Repr

/-- A simple command. -/
abbrev Simple := List Part

/-- A pipeline of simple commands. -/
abbrev Pipeline := List Simple

/-- What stands between two simple commands. -/
inductive Link where
  | pipe
  | and
  | or
  | seq
deriving DecidableEq, Repr

/-- The operator as a link, where it is one. -/
def link : List Char → Option Link
  | ['|'] => some .pipe
  | ['&', '&'] => some .and
  | ['|', '|'] => some .or
  | [';'] => some .seq
  | _ => none

/-- The operators that redirect to or from the word after them. -/
def redirections : List (List Char) :=
  [['<'], ['>'], ['>', '>'], ['<', '&'], ['>', '&'], ['<', '>'], ['>', '|']]

/-- For the look into the redirections. -/
local instance lawfulBEq_chars : LawfulBEq (List Char) := inferInstance

/-- The tokens, cut at the links: the first command, and each other with the link before it. -/
def split : List Token → Option (Simple × List (Link × Simple))
  | [] => some ([], [])
  | .word word :: ts => (split ts).map fun (first, rest) => (.word word :: first, rest)
  | .operator text :: .word target :: ts =>
    match link text with
    | some link =>
      (split ts).map fun (first, rest) => ([], (link, .word target :: first) :: rest)
    | none =>
      if text ∈ redirections then
        (split ts).map fun (first, rest) => (.redirection none text target :: first, rest)
      else none
  | .operator text :: ts =>
    (link text).bind fun link => (split ts).map fun (first, rest) => ([], (link, first) :: rest)
  | .ioNumber digits :: .operator text :: .word target :: ts =>
    if text ∈ redirections then
      (split ts).map fun (first, rest) => (.redirection (some digits) text target :: first, rest)
    else none
  | .ioNumber _ :: _ => none
  | .newline :: _ => none

/-- The words that begin something other than a simple command. -/
def reserved : List Word :=
  ["!", "case", "do", "done", "elif", "else", "esac", "fi", "for", "if", "in", "then", "until",
    "while"].map plainWord ++ [[.plain (Char.ofNat 123)], [.plain (Char.ofNat 125)]]

/-- A command that is there and does not begin with a reserved word. -/
def isSimple : Simple → Bool
  | [] => false
  | .word word :: _ => word ∉ reserved
  | .redirection .. :: _ => true

/-- The first list of a script, and the others. -/
abbrev Lists := AndOr Pipeline × List (AndOr Pipeline)

/-- The commands, put together again. Nothing has to stand after a last `;`. -/
def gather : Simple → List (Link × Simple) → Option Lists
  | first, [] => if isSimple first then some (⟨[first], []⟩, []) else none
  | first, (link, next) :: rest =>
    if isSimple first then
      match link with
      | .seq =>
        if next = [] ∧ rest = [] then some (⟨[first], []⟩, [])
        else (gather next rest).map fun (l, ls) => (⟨[first], []⟩, l :: ls)
      | .pipe => (gather next rest).map fun (l, ls) => ({ l with head := first :: l.head }, ls)
      | .and => (gather next rest).map fun (l, ls) => (⟨[first], (.and, l.head) :: l.tail⟩, ls)
      | .or => (gather next rest).map fun (l, ls) => (⟨[first], (.or, l.head) :: l.tail⟩, ls)
    else none

/-- The script that tokens stand for. -/
def parse (ts : List Token) : Option Lists := (split ts).bind fun (first, rest) => gather first rest

/-- **The lists of simple commands that a text stands for**: none, where it is empty or is not made
of simple commands alone. -/
def readLists (text : String) : List (AndOr Pipeline) :=
  match (tokens text).bind parse with
  | some (l, ls) => l :: ls
  | none => []

/-! ### Scripts in a row -/

/-- The command that consists of words alone. -/
def simple (words : List Word) : Simple := words.map .word

theorem split_words (words : List Word) (ts : List Token) :
    split (words.map .word ++ ts) =
      (split ts).map fun (first, rest) => (simple words ++ first, rest) := by
  induction words with
  | nil =>
    change split ts = (split ts).map id
    rw [Option.map_id, id]
  | cons word words ih =>
    rw [List.map_cons, List.cons_append, split, ih, Option.map_map]
    rfl

theorem split_link {text : List Char} {l : Link} (hlink : link text = some l) (ts : List Token) :
    split (.operator text :: ts) =
      (split ts).map fun (first, rest) => ([], (l, first) :: rest) := by
  -- the word after the operator is looked at first, for a redirection
  cases ts with
  | nil => simp [split, hlink]
  | cons t =>
    cases t with
    | word =>
      simp only [split, hlink]
      rw [Option.map_map]
      rfl
    | ioNumber | operator | newline => simp [split, hlink]

theorem split_words_link {text : List Char} {l : Link} (hlink : link text = some l)
    (words : List Word) (ts : List Token) :
    split (words.map .word ++ .operator text :: ts) =
      (split ts).map fun (first, rest) => (simple words, (l, first) :: rest) := by
  rw [split_words, split_link hlink, Option.map_map]
  congr 1
  funext first
  simp

theorem isSimple_simple {word : Word} {words : List Word} (h : word ∉ reserved) :
    isSimple (simple (word :: words)) = true := by
  simp [simple, isSimple, h]

section Parse

variable {word : Word} {words : List Word} (hword : word ∉ reserved)

include hword

/-- **A command before `&&`** goes before the first list of what follows. -/
theorem parse_and (ts : List Token) :
    parse ((word :: words).map .word ++ .operator ['&', '&'] :: ts) =
      (parse ts).map fun (l, ls) => (l.after [simple (word :: words)], ls) := by
  unfold parse
  rw [split_words_link (l := .and) rfl]
  cases split ts with
  | none => rfl
  | some =>
    dsimp only [Option.map_some, Option.bind_some]
    rw [gather, if_pos (isSimple_simple hword)]
    rfl

/-- **A command before `;`** is a list of its own. -/
theorem parse_seq (ts : List Token) :
    parse ((word :: words).map .word ++ .operator [';'] :: ts) =
      if split ts = some ([], []) then some (.single [simple (word :: words)], [])
      else (parse ts).map fun (l, ls) => (.single [simple (word :: words)], l :: ls) := by
  unfold parse
  rw [split_words_link (l := .seq) rfl]
  cases split ts with
  | none => rfl
  | some parts =>
    obtain ⟨first, rest⟩ := parts
    dsimp only [Option.map_some, Option.bind_some]
    rw [gather, if_pos (isSimple_simple hword)]
    refine if_congr ?_ rfl rfl
    simp

end Parse

/-- More words at the beginning of the first command. -/
def withWords (words : List Word) (l : AndOr Pipeline) : AndOr Pipeline :=
  match l.head with
  | [] => l
  | first :: others => { l with head := (simple words ++ first) :: others }

/-- **Words before a script** belong to its first command. -/
theorem parse_words {word : Word} {words : List Word} (hword : word ∉ reserved) {ts : List Token}
    {l : AndOr Pipeline} {ls : List (AndOr Pipeline)} (h : parse ts = some (l, ls)) :
    parse ((word :: words).map .word ++ ts) = some (withWords (word :: words) l, ls) := by
  unfold parse at h ⊢
  rw [split_words]
  cases hsplit : split ts with
  | none =>
    rw [hsplit] at h
    cases h
  | some parts =>
    obtain ⟨first, rest⟩ := parts
    rw [hsplit] at h
    dsimp only [Option.map_some, Option.bind_some] at h ⊢
    -- words before a command keep it a simple one
    have hsimple : isSimple (simple (word :: words) ++ first) = true := by
      simp [simple, isSimple, hword]
    cases rest with
    | nil =>
      rw [gather] at h ⊢
      obtain ⟨_, h⟩ := Option.ite_none_right_eq_some.mp h
      obtain ⟨rfl, rfl⟩ := Prod.mk.inj (Option.some.inj h)
      rw [if_pos hsimple]
      rfl
    | cons part =>
      obtain ⟨link, next⟩ := part
      cases link with
      | seq =>
        rw [gather] at h ⊢
        obtain ⟨_, h⟩ := Option.ite_none_right_eq_some.mp h
        rw [if_pos hsimple]
        split at h
        · -- the list ends with its semicolon
          next hend =>
          obtain ⟨rfl, rfl⟩ := Prod.mk.inj (Option.some.inj h)
          rw [if_pos hend]
          rfl
        · next hend =>
          rw [if_neg hend]
          obtain ⟨⟨l', ls'⟩, hgather, h⟩ := Option.map_eq_some_iff.mp h
          obtain ⟨rfl, rfl⟩ := Prod.mk.inj h
          rw [hgather]
          rfl
      | pipe | and | or =>
        rw [gather] at h ⊢
        obtain ⟨_, h⟩ := Option.ite_none_right_eq_some.mp h
        rw [if_pos hsimple]
        obtain ⟨⟨l', ls'⟩, hgather, h⟩ := Option.map_eq_some_iff.mp h
        obtain ⟨rfl, rfl⟩ := Prod.mk.inj h
        rw [hgather]
        rfl

/-- The simple commands of a script, in order. -/
def commands (ls : List (AndOr Pipeline)) : List Simple := ls.flatMap fun l => l.pipelines.flatten

/-- No pipeline is empty, and each of its commands is there. -/
def WellFormed (ls : List (AndOr Pipeline)) : Prop :=
  ∀ l ∈ ls, ∀ p ∈ l.pipelines, p ≠ [] ∧ ∀ c ∈ p, c ≠ []

/-- **What is read is well formed.** -/
theorem wellFormed_gather {first : Simple} {rest : List (Link × Simple)} {l : AndOr Pipeline}
    {ls : List (AndOr Pipeline)} (h : gather first rest = some (l, ls)) : WellFormed (l :: ls) := by
  have hsingle : ∀ {c : Simple}, isSimple c = true → ∀ p ∈ [[c]], p ≠ [] ∧ ∀ c ∈ p, c ≠ [] := by
    rintro c hc p hp
    obtain rfl := List.mem_singleton.mp hp
    refine ⟨List.cons_ne_nil _ _, fun c' hc' => ?_⟩
    obtain rfl := List.mem_singleton.mp hc'
    rintro rfl
    cases hc
  induction rest generalizing first l ls with
  | nil =>
    rw [gather] at h
    obtain ⟨hfirst, h⟩ := Option.ite_none_right_eq_some.mp h
    obtain ⟨rfl, rfl⟩ := Prod.mk.inj (Option.some.inj h)
    intro l hl
    obtain rfl := List.mem_singleton.mp hl
    exact hsingle hfirst
  | cons part rest ih =>
    obtain ⟨link, next⟩ := part
    cases link with
    | seq =>
      rw [gather] at h
      obtain ⟨hfirst, h⟩ := Option.ite_none_right_eq_some.mp h
      split at h
      · -- a semicolon at the end begins no further list
        obtain ⟨rfl, rfl⟩ := Prod.mk.inj (Option.some.inj h)
        intro l hl
        obtain rfl := List.mem_singleton.mp hl
        exact hsingle hfirst
      · obtain ⟨⟨l', ls'⟩, hgather, h⟩ := Option.map_eq_some_iff.mp h
        obtain ⟨rfl, rfl⟩ := Prod.mk.inj h
        exact List.forall_mem_cons.mpr ⟨hsingle hfirst, ih hgather⟩
    | pipe =>
      rw [gather] at h
      obtain ⟨hfirst, h⟩ := Option.ite_none_right_eq_some.mp h
      obtain ⟨⟨l', ls'⟩, hgather, h⟩ := Option.map_eq_some_iff.mp h
      obtain ⟨rfl, rfl⟩ := Prod.mk.inj h
      obtain ⟨hl', hls'⟩ := List.forall_mem_cons.mp (ih hgather)
      -- the command joins the pipeline that follows
      obtain ⟨hhead, htail⟩ := List.forall_mem_cons.mp hl'
      refine List.forall_mem_cons.mpr ⟨List.forall_mem_cons.mpr ⟨⟨List.cons_ne_nil _ _, ?_⟩, htail⟩,
        hls'⟩
      exact List.forall_mem_cons.mpr
        ⟨(hsingle hfirst _ (List.mem_singleton_self _)).2 _ (List.mem_singleton_self _), hhead.2⟩
    | and | or =>
      rw [gather] at h
      obtain ⟨hfirst, h⟩ := Option.ite_none_right_eq_some.mp h
      obtain ⟨⟨l', ls'⟩, hgather, h⟩ := Option.map_eq_some_iff.mp h
      obtain ⟨rfl, rfl⟩ := Prod.mk.inj h
      obtain ⟨hl', hls'⟩ := List.forall_mem_cons.mp (ih hgather)
      exact List.forall_mem_cons.mpr ⟨List.forall_mem_cons.mpr
        ⟨hsingle hfirst _ (List.mem_singleton_self _), hl'⟩, hls'⟩

/-- What a text reads as, and its tokens. -/
theorem parse_of_readLists {text : String} {l : AndOr Pipeline} {ls : List (AndOr Pipeline)}
    (h : readLists text = l :: ls) :
    ∃ ts, tokens text = some ts ∧ parse ts = some (l, ls) := by
  unfold readLists at h
  cases hts : tokens text with
  | none =>
    rw [hts] at h
    cases h
  | some ts =>
    rw [hts] at h
    dsimp only [Option.bind_some] at h
    cases hparse : parse ts with
    | none =>
      rw [hparse] at h
      cases h
    | some =>
      rw [hparse] at h
      obtain ⟨rfl, rfl⟩ := List.cons.inj h
      exact ⟨ts, rfl, hparse⟩

theorem wellFormed_readLists (text : String) : WellFormed (readLists text) := by
  cases h : readLists text with
  | nil => exact nofun
  | cons =>
    obtain ⟨ts, _, hparse⟩ := parse_of_readLists h
    obtain ⟨parts, _, hgather⟩ := Option.bind_eq_some_iff.mp hparse
    exact wellFormed_gather hgather

theorem readLists_append {first : String} {before : List Token} (h : Opens first before)
    (text : String) :
    readLists (first ++ text) =
      match (tokens text).bind fun ts => parse (before ++ ts) with
      | some (l, ls) => l :: ls
      | none => [] := by
  unfold readLists
  rw [tokens_append h, Option.bind_map]
  rfl

/-! ### Scripts of lines -/

/-- The simple command that a line consists of. -/
def lineCommand (line : List Token) : Option Simple :=
  match split line with
  | some (first, []) => some first
  | _ => none

/-- **The lines of a script**, each with its simple command, where it is one. -/
def readLines (text : String) : Option (List (Option Simple)) :=
  (tokens text).map fun ts => (ts.splitOn .newline).map lineCommand

theorem readLines_append {first : String} {line : List Token} (hline : .newline ∉ line)
    (h : Opens first (line ++ [.newline])) (text : String) :
    readLines (first ++ text) = (readLines text).map (lineCommand line :: ·) := by
  unfold readLines
  rw [tokens_append h, Option.map_map, Option.map_map]
  congr 1
  funext ts
  rw [Function.comp_apply, Function.comp_apply, List.append_assoc, List.singleton_append,
    List.splitOn_append_cons_self_of_not_mem hline, List.map_cons]

theorem readLines_line {text : String} {line : List Token} (hline : .newline ∉ line)
    (h : tokens text = some line) : readLines text = some [lineCommand line] := by
  unfold readLines
  rw [h, Option.map_some, List.splitOn_eq_singleton hline]
  rfl

end ShellWords
