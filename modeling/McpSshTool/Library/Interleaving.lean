import Mathlib.Data.Set.BooleanAlgebra
import Mathlib.Data.Set.Function
import Mathlib.Order.CompletePartialOrder
import Mathlib.Logic.Relation
import McpSshTool.Library.Program

/-!
# Programs that run side by side

Programs whose operations work on one store, and which take turns at every operation.

* `Shared` — what operations do to the store, and the places that they may change;
* `Threads`, `Shared.Step` — the programs with the store that they share, and one operation of one
  of them. What lets an operation be performed is a parameter;
* `Shared.Undisturbed` — the operation changes no place that is another program's, or that another
  one under way has changed;
* `Shared.Rely` — what a program comes to, whatever the others do to the places that it does not
  hold; with the rules for sequencing, for handling errors and for invariants;
* `Shared.run_rely` — **the rule for runs**: where no step disturbs another program, each comes to
  what it relies on;
* `Shared.exists_run` — a schedule of whole runs of the programs is a run of them all.
-/

namespace Library

open Program

/-- **What operations do to a store** that they share. Nothing changes beside the places that an
operation may change. -/
structure Shared (κ : Type) (Answer : κ → Type) (Loc V : Type) where
  does : (op : κ) → (Loc → V) → Answer op → (Loc → V) → Prop
  changes : κ → Set Loc
  frame : ∀ {op s answer s'}, does op s answer s' → Set.EqOn s' s (changes op)ᶜ

/-- Programs that share a store, with the places that each has changed so far. -/
structure Threads (ι κ : Type) (Answer : κ → Type) (ε α Loc V : Type) where
  store : Loc → V
  thread : ι → Program κ Answer ε α
  changed : ι → Set Loc

variable {ι κ : Type} {Answer : κ → Type} {ε α β Loc V : Type}

/-- The programs before their first operations. -/
def Threads.start (store : Loc → V) (thread : ι → Program κ Answer ε α) :
    Threads ι κ Answer ε α Loc V where
  store := store
  thread := thread
  changed := fun _ => ∅

/-- What a program holds: its own places and, until it is done, those that it has changed. -/
def Threads.held (own : ι → Set Loc) (c : Threads ι κ Answer ε α Loc V) (i : ι) : Set Loc :=
  match c.thread i with
  | .done _ => own i
  | .perform _ _ => own i ∪ c.changed i

section Held

variable {own : ι → Set Loc} {c : Threads ι κ Answer ε α Loc V} {i : ι}

theorem Threads.held_of_perform {op : κ} {rest : Answer op → Program κ Answer ε α}
    (h : c.thread i = .perform op rest) : c.held own i = own i ∪ c.changed i := by
  unfold Threads.held
  rw [h]

theorem Threads.own_subset_held (own : ι → Set Loc) (c : Threads ι κ Answer ε α Loc V) (i : ι) :
    own i ⊆ c.held own i := by
  unfold Threads.held
  split
  · exact subset_rfl
  · exact Set.subset_union_left

theorem Threads.held_subset (own : ι → Set Loc) (c : Threads ι κ Answer ε α Loc V) (i : ι) :
    c.held own i ⊆ own i ∪ c.changed i := by
  unfold Threads.held
  split
  · exact Set.subset_union_left
  · exact subset_rfl

end Held

namespace Shared

variable (shared : Shared κ Answer Loc V)

/-- **A step**: one of the programs performs its next operation. -/
inductive Step [DecidableEq ι] (May : Threads ι κ Answer ε α Loc V → ι → κ → Prop) :
    Threads ι κ Answer ε α Loc V → Threads ι κ Answer ε α Loc V → Prop
  | perform {c : Threads ι κ Answer ε α Loc V} (i : ι) {op : κ}
      {rest : Answer op → Program κ Answer ε α} (hthread : c.thread i = .perform op rest)
      (hmay : May c i op) {answer : Answer op} {store' : Loc → V}
      (hdoes : shared.does op c.store answer store') :
      Step May c {
        store := store'
        thread := Function.update c.thread i (rest answer)
        changed := Function.update c.changed i (c.changed i ∪ shared.changes op) }

/-- A run: some steps. -/
abbrev Run [DecidableEq ι] (May : Threads ι κ Answer ε α Loc V → ι → κ → Prop) :
    Threads ι κ Answer ε α Loc V → Threads ι κ Answer ε α Loc V → Prop :=
  Relation.ReflTransGen (shared.Step May)

/-- The operation changes nothing that another program holds. -/
def Undisturbed (own : ι → Set Loc) (c : Threads ι κ Answer ε α Loc V) (i : ι) (op : κ) : Prop :=
  ∀ j, j ≠ i → Disjoint (shared.changes op) (c.held own j)

/-! ### What a program comes to -/

/-- **What a program comes to**, from a store of which the others leave the places that it holds.
What it changes it holds from then on. -/
def Rely (Allow : (Loc → V) → κ → Prop) (Q : Set Loc → (Loc → V) → Except ε α → Prop) :
    Program κ Answer ε α → Set Loc → (Loc → V) → Prop
  | .done result, held, s => Q held s result
  | .perform op rest, held, s =>
    ∀ t, Set.EqOn t s held → Allow t op → ∀ answer t', shared.does op t answer t' →
      Rely Allow Q (rest answer) (held ∪ shared.changes op) t'

section Rules

variable {shared} {Allow : (Loc → V) → κ → Prop} {Q Q' : Set Loc → (Loc → V) → Except ε α → Prop}
variable {p : Program κ Answer ε α} {held : Set Loc} {s : Loc → V}

theorem Rely.mono (h : shared.Rely Allow Q p held s)
    (hQ : ∀ held s result, Q held s result → Q' held s result) : shared.Rely Allow Q' p held s := by
  induction p generalizing held s with
  | done result => exact hQ held s result h
  | perform op rest ih =>
    intro t ht hallow answer t' hdoes
    exact ih answer (h t ht hallow answer t' hdoes)

theorem Rely.and (h : shared.Rely Allow Q p held s) (h' : shared.Rely Allow Q' p held s) :
    shared.Rely Allow (fun held s result => Q held s result ∧ Q' held s result) p held s := by
  induction p generalizing held s with
  | done => exact ⟨h, h'⟩
  | perform op rest ih =>
    intro t ht hallow answer t' hdoes
    exact ih answer (h t ht hallow answer t' hdoes) (h' t ht hallow answer t' hdoes)

theorem Rely.andThen {f : Except ε α → Program κ Answer ε β}
    {R : Set Loc → (Loc → V) → Except ε β → Prop} (h : shared.Rely Allow Q p held s)
    (hf : ∀ held s result, Q held s result → shared.Rely Allow R (f result) held s) :
    shared.Rely Allow R (p.andThen f) held s := by
  induction p generalizing held s with
  | done result => exact hf held s result h
  | perform op rest ih =>
    intro t ht hallow answer t' hdoes
    exact ih answer (h t ht hallow answer t' hdoes)

theorem Rely.bind {f : α → Program κ Answer ε β} {R : Set Loc → (Loc → V) → Except ε β → Prop}
    (h : shared.Rely Allow Q p held s)
    (hok : ∀ held s a, Q held s (.ok a) → shared.Rely Allow R (f a) held s)
    (herror : ∀ held s e, Q held s (.error e) → R held s (.error e)) :
    shared.Rely Allow R (p >>= f) held s := by
  rw [bind_eq]
  refine h.andThen fun held' s' result hresult => ?_
  cases result with
  | ok a => exact hok held' s' a hresult
  | error e => exact herror held' s' e hresult

theorem Rely.tryCatch {handler : ε → Program κ Answer ε α} (h : shared.Rely Allow Q p held s)
    (hok : ∀ held s a, Q held s (.ok a) → Q' held s (.ok a))
    (herror : ∀ held s e, Q held s (.error e) → shared.Rely Allow Q' (handler e) held s) :
    shared.Rely Allow Q' (p.tryCatch handler) held s := by
  unfold Program.tryCatch
  refine h.andThen fun held' s' result hresult => ?_
  cases result with
  | ok a => exact hok held' s' a hresult
  | error e => exact herror held' s' e hresult

theorem Rely.of_eqOn {t : Loc → V} (h : shared.Rely Allow Q p held s) (heq : Set.EqOn t s held)
    (hQ : ∀ result, Q held s result → Q held t result) : shared.Rely Allow Q p held t := by
  cases p with
  | done result => exact hQ result h
  | perform => exact fun u hu => h u (hu.trans heq)

theorem Rely.of_held {Q : (Loc → V) → Except ε α → Prop} {result : Except ε α} {held' : Set Loc}
    (h : shared.Rely Allow (fun _ => Q) (.done result) held s) :
    shared.Rely Allow (fun _ => Q) (.done result) held' s := h

/-- **The rule for invariants**: what is said of places that a program holds, and kept by all that
it performs. -/
theorem rely_invariant {Assume : Event κ Answer → Prop} {P : κ → Prop} {R : Except ε α → Prop}
    {I : (Loc → V) → Prop} (h : Ensures Assume P R p)
    (hassume : ∀ op t answer t', Allow t op → shared.does op t answer t' → Assume ⟨op, answer⟩)
    (hI : ∀ t t', Set.EqOn t' t held → I t → I t')
    (hop : ∀ op t answer t', P op → Allow t op → shared.does op t answer t' → I t → I t')
    (hs : I s) :
    shared.Rely Allow (fun held' t result => held ⊆ held' ∧ I t ∧ R result) p held s := by
  have hrule : ∀ held', held ⊆ held' → ∀ s, I s →
      shared.Rely Allow (fun held' t result => held ⊆ held' ∧ I t ∧ R result) p held' s := by
    induction p with
    | done => exact fun held' hheld s hs => ⟨hheld, hs, h⟩
    | perform op rest ih =>
      intro held' hheld s hs t ht hallow answer t' hdoes
      have hnext := h.2 answer (hassume op t answer t' hallow hdoes)
      refine ih answer hnext _ (hheld.trans Set.subset_union_left) t' ?_
      exact hop op t answer t' h.1 hallow hdoes (hI s t (ht.mono hheld) hs)
  exact hrule held subset_rfl s hs

end Rules

/-! ### Runs -/

section Runs

variable [DecidableEq ι] {shared} {own : ι → Set Loc} {Allow : ι → (Loc → V) → κ → Prop}
variable {Q : ι → (Loc → V) → Except ε α → Prop}
variable {May : Threads ι κ Answer ε α Loc V → ι → κ → Prop}
variable {c c' : Threads ι κ Answer ε α Loc V}

/-- Each program comes to what it has to, from where it is. -/
def Threads.Relies (shared : Shared κ Answer Loc V) (own : ι → Set Loc)
    (Allow : ι → (Loc → V) → κ → Prop) (Q : ι → (Loc → V) → Except ε α → Prop)
    (c : Threads ι κ Answer ε α Loc V) : Prop :=
  ∀ i, shared.Rely (Allow i) (fun _ => Q i) (c.thread i) (c.held own i) c.store

omit [DecidableEq ι] in
theorem relies_start {store : Loc → V} {thread : ι → Program κ Answer ε α}
    (h : ∀ i, shared.Rely (Allow i) (fun _ => Q i) (thread i) (own i) store) :
    Threads.Relies shared own Allow Q (Threads.start store thread) := by
  intro i
  unfold Threads.held Threads.start
  dsimp only
  rw [Set.union_empty]
  have hi := h i
  generalize thread i = p at hi
  cases p with
  | done => exact hi
  | perform => exact hi

/-- **A step that disturbs no one.** -/
theorem relies_step (hQ : ∀ i result s t, Set.EqOn t s (own i) → Q i s result → Q i t result)
    (hmay : ∀ c i op, May c i op → shared.Undisturbed own c i op ∧ Allow i c.store op)
    (h : Threads.Relies shared own Allow Q c) (hstep : shared.Step May c c') :
    Threads.Relies shared own Allow Q c' := by
  cases hstep with
  | @perform i op rest hthread hmayi answer store' hdoes =>
    obtain ⟨hundisturbed, hallow⟩ := hmay _ _ _ hmayi
    intro j
    by_cases hj : j = i
    · -- the program itself goes on, and holds what it has changed
      subst hj
      have hnext := h j
      rw [hthread, Threads.held_of_perform hthread] at hnext
      have hrest := hnext c.store (Set.eqOn_refl _ _) hallow answer store' hdoes
      rw [Set.union_assoc] at hrest
      unfold Threads.held
      dsimp only
      rw [Function.update_self, Function.update_self]
      generalize rest answer = p at hrest
      cases p with
      | done => exact hrest.of_held
      | perform => exact hrest
    · -- the others find the store as it was in what they hold
      have hheld : Threads.held own { c with
          store := store'
          thread := Function.update c.thread i (rest answer)
          changed := Function.update c.changed i (c.changed i ∪ shared.changes op) } j =
            c.held own j := by
        unfold Threads.held
        dsimp only
        rw [Function.update_of_ne hj, Function.update_of_ne hj]
      have hsame : Set.EqOn store' c.store (c.held own j) := fun l hl =>
        shared.frame hdoes fun hchanged => Set.disjoint_left.mp (hundisturbed j hj) hchanged hl
      have hbefore := h j
      rw [hheld]
      dsimp only
      rw [Function.update_of_ne hj]
      refine hbefore.of_eqOn hsame fun result hresult => ?_
      exact hQ j result _ _ (hsame.mono (Threads.own_subset_held own c j)) hresult

variable (own Allow Q) in
/-- **The rule for runs.** -/
theorem run_rely (hQ : ∀ i result s t, Set.EqOn t s (own i) → Q i s result → Q i t result)
    (hmay : ∀ c i op, May c i op → shared.Undisturbed own c i op ∧ Allow i c.store op)
    (h : Threads.Relies shared own Allow Q c) (hrun : shared.Run May c c') {i : ι}
    {result : Except ε α} (hdone : c'.thread i = .done result) : Q i c'.store result := by
  have hend : Threads.Relies shared own Allow Q c' := by
    clear hdone
    induction hrun with
    | refl => exact h
    | tail _ hstep ih => exact relies_step hQ hmay ih hstep
  have hi := hend i
  rw [hdone] at hi
  exact hi

end Runs

/-! ### Schedules -/

section Schedules

variable [DecidableEq ι] {shared}

/-- What becomes of the store when operations are performed in an order and answered so. -/
inductive Follows (shared : Shared κ Answer Loc V) :
    (Loc → V) → List (ι × Event κ Answer) → (Loc → V) → Prop
  | nil (s : Loc → V) : Follows shared s [] s
  | cons {s s' s'' : Loc → V} (i : ι) {e : Event κ Answer} {schedule : List (ι × Event κ Answer)}
      (hdoes : shared.does e.1 s e.2 s') (h : Follows shared s' schedule s'') :
      Follows shared s ((i, e) :: schedule) s''

omit [DecidableEq ι] in
theorem Follows.append {s s' s'' : Loc → V} {schedule schedule' : List (ι × Event κ Answer)}
    (h : Follows shared s schedule s') (h' : Follows shared s' schedule' s'') :
    Follows shared s (schedule ++ schedule') s'' := by
  induction h with
  | nil => exact h'
  | cons i hdoes _ ih => exact .cons i hdoes (ih h')

/-- The part of a schedule that is one program's. -/
def scheduled (schedule : List (ι × Event κ Answer)) (i : ι) : List (Event κ Answer) :=
  schedule.filterMap fun entry => if entry.1 = i then some entry.2 else none

theorem scheduled_cons_self (i : ι) (e : Event κ Answer) (schedule : List (ι × Event κ Answer)) :
    scheduled ((i, e) :: schedule) i = e :: scheduled schedule i := by
  exact List.filterMap_cons_some (if_pos rfl)

theorem scheduled_cons_of_ne {i j : ι} (h : i ≠ j) (e : Event κ Answer)
    (schedule : List (ι × Event κ Answer)) :
    scheduled ((i, e) :: schedule) j = scheduled schedule j := by
  exact List.filterMap_cons_none (if_neg h)

theorem scheduled_append (schedule schedule' : List (ι × Event κ Answer)) (i : ι) :
    scheduled (schedule ++ schedule') i = scheduled schedule i ++ scheduled schedule' i :=
  List.filterMap_append

theorem scheduled_map_self (i : ι) (log : List (Event κ Answer)) :
    scheduled (log.map fun e => (i, e)) i = log := by
  induction log with
  | nil => rfl
  | cons e log ih => rw [List.map_cons, scheduled_cons_self, ih]

theorem scheduled_map_of_ne {i j : ι} (h : i ≠ j) (log : List (Event κ Answer)) :
    scheduled (log.map fun e => (i, e)) j = [] := by
  induction log with
  | nil => rfl
  | cons e log ih => rw [List.map_cons, scheduled_cons_of_ne h, ih]

/-- The schedule of two programs that take turns, each of them twice. -/
def turns (first second first' second' : List (Event κ Answer)) : List (Bool × Event κ Answer) :=
  first.map (fun e => (true, e)) ++ (second.map (fun e => (false, e)) ++
    (first'.map (fun e => (true, e)) ++ second'.map fun e => (false, e)))

section Turns

variable {first second first' second' : List (Event κ Answer)}

theorem scheduled_turns_true :
    scheduled (turns first second first' second') true = first ++ first' := by
  unfold turns
  rw [scheduled_append, scheduled_append, scheduled_append, scheduled_map_self,
    scheduled_map_of_ne Bool.false_ne_true, scheduled_map_self,
    scheduled_map_of_ne Bool.false_ne_true, List.nil_append, List.append_nil]

theorem scheduled_turns_false :
    scheduled (turns first second first' second') false = second ++ second' := by
  unfold turns
  rw [scheduled_append, scheduled_append, scheduled_append, scheduled_map_self,
    scheduled_map_of_ne Bool.false_ne_true.symm, scheduled_map_self,
    scheduled_map_of_ne Bool.false_ne_true.symm, List.nil_append, List.nil_append]

theorem forall_mem_turns {P : Bool → Event κ Answer → Prop}
    (htrue : ∀ e ∈ first ++ first', P true e) (hfalse : ∀ e ∈ second ++ second', P false e) :
    ∀ entry ∈ turns first second first' second', P entry.1 entry.2 := by
  rintro ⟨i, e⟩ hentry
  unfold turns at hentry
  simp only [List.mem_append, List.mem_map, Prod.mk.injEq] at hentry htrue hfalse
  rcases hentry with ⟨e, he, rfl, rfl⟩ | ⟨e, he, rfl, rfl⟩ | ⟨e, he, rfl, rfl⟩ | ⟨e, he, rfl, rfl⟩
  · exact htrue e (.inl he)
  · exact hfalse e (.inl he)
  · exact htrue e (.inr he)
  · exact hfalse e (.inr he)

end Turns

/-- **Completeness**: a schedule of whole runs of the programs is a run of them all, where what each
may change at all lets all of it be performed. -/
theorem exists_run (May : Threads ι κ Answer ε α Loc V → ι → κ → Prop) (footprint : ι → Set Loc)
    {result : ι → Except ε α} {store store' : Loc → V} {schedule : List (ι × Event κ Answer)}
    (hfollows : Follows shared store schedule store')
    (hchanges : ∀ entry ∈ schedule, shared.changes entry.2.1 ⊆ footprint entry.1)
    (hmay : ∀ entry ∈ schedule, ∀ c : Threads ι κ Answer ε α Loc V,
      (∀ j, c.changed j ⊆ footprint j) → May c entry.1 entry.2.1) :
    ∀ {thread : ι → Program κ Answer ε α} {changed : ι → Set Loc},
      (∀ i, changed i ⊆ footprint i) → (∀ i, Runs (thread i) (scheduled schedule i) (result i)) →
        ∃ changed',
          shared.Run May ⟨store, thread, changed⟩ ⟨store', fun i => .done (result i),
            changed'⟩ := by
  induction hfollows with
  | nil =>
    intro thread changed _ hruns
    have hdone : thread = fun i => .done (result i) := by
      funext i
      cases hthread : thread i with
      | done =>
        have hrun := hruns i
        rw [hthread] at hrun
        rw [(runs_done_iff.mp hrun).2]
      | perform =>
        have hrun := hruns i
        rw [hthread] at hrun
        obtain ⟨_, _, hlog, -⟩ := runs_perform_iff.mp hrun
        cases hlog
    exact ⟨changed, hdone ▸ .refl⟩
  | @cons s s' s'' i e schedule hdoes _ ih =>
    intro thread changed hwithin hruns
    obtain ⟨hhead, htail⟩ := List.forall_mem_cons.mp hmay
    obtain ⟨hchange, hrest⟩ := List.forall_mem_cons.mp hchanges
    have hrun := hruns i
    rw [scheduled_cons_self] at hrun
    cases hthread : thread i with
    | done =>
      rw [hthread] at hrun
      cases (runs_done_iff.mp hrun).1
    | perform op rest =>
      rw [hthread] at hrun
      obtain ⟨answer, log, hlog, hnext⟩ := runs_perform_iff.mp hrun
      obtain ⟨rfl, rfl⟩ := List.cons.inj hlog
      have hwithin' : ∀ j, Function.update changed i (changed i ∪ shared.changes op) j ⊆
        footprint j := by
        intro j
        by_cases hj : j = i
        · subst hj
          rw [Function.update_self]
          exact Set.union_subset (hwithin j) hchange
        · rw [Function.update_of_ne hj]
          exact hwithin j
      -- the first operation, and then what is left of the schedule
      obtain ⟨changed', hafter⟩ := @ih hrest htail (Function.update thread i (rest answer))
        _ hwithin' fun j => by
          by_cases hj : j = i
          · subst hj
            rw [Function.update_self]
            exact hnext
          · rw [Function.update_of_ne hj, ← scheduled_cons_of_ne (Ne.symm hj) ⟨op, answer⟩]
            exact hruns j
      exact ⟨changed', .head (.perform i hthread (hhead _ hwithin) hdoes) hafter⟩

end Schedules

end Shared
end Library
