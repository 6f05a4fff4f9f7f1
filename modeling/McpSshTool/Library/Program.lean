import Mathlib.Data.List.Basic

/-!
# Programs that wait for answers

A program is either done, with a value or an error, or performs an operation and goes on with what
the operation is answered. It is a tree, so it says what it does under every environment at once.

* `Program.andThen` — one program after another, however the first ends; sequencing and the handling
  of errors are cases of it;
* `Runs` — the complete runs, with the operations performed and their answers in order;
* `Ensures` — a rule for what all runs perform and how they end, under answers that may be assumed;
* `Yields`, `YieldsPast`, `Reaches` — how some run ends, past which event, and what some run
  performs;
* `Always` — what holds of the operations of every run: `Ensures` proves it and `Reaches` refutes
  it.
-/

namespace Library

/-- A program over operations `κ`, where `op` is answered by an `Answer op`. -/
inductive Program (κ : Type) (Answer : κ → Type) (ε α : Type) where
  | done (result : Except ε α)
  | perform (op : κ) (rest : Answer op → Program κ Answer ε α)

namespace Program

variable {κ : Type} {Answer : κ → Type} {ε α β γ : Type}

/-- An operation with its answer. -/
abbrev Event (κ : Type) (Answer : κ → Type) : Type := Σ op : κ, Answer op

/-! ### Sequencing -/

/-- Go on with another program, whether the first ends with a value or an error. -/
def andThen : Program κ Answer ε α → (Except ε α → Program κ Answer ε β) → Program κ Answer ε β
  | .done result, f => f result
  | .perform op rest, f => .perform op fun answer => (rest answer).andThen f

/-- A program that throws. -/
def throw (e : ε) : Program κ Answer ε α := .done (.error e)

/-- One operation, and its answer. -/
def call (op : κ) : Program κ Answer ε (Answer op) := .perform op fun answer => .done (.ok answer)

instance : Monad (Program κ Answer ε) where
  pure a := .done (.ok a)
  bind p f := p.andThen fun
    | .ok a => f a
    | .error e => throw e

/-- `try { p } catch (e) { handler(e) }`. -/
def tryCatch (p : Program κ Answer ε α) (handler : ε → Program κ Answer ε α) :
    Program κ Answer ε α :=
  p.andThen fun
    | .ok a => pure a
    | .error e => handler e

/-- `try { p } finally { cleanup }`, for a cleanup that is done before the result is passed on. -/
def tryFinally (p : Program κ Answer ε α) (cleanup : Program κ Answer ε Unit) :
    Program κ Answer ε α :=
  p.andThen fun result => cleanup.andThen fun
    | .ok () => .done result
    | .error e => throw e

/-- One program for each member of a list, in order. -/
def traverse (f : α → Program κ Answer ε β) : List α → Program κ Answer ε (List β)
  | [] => pure []
  | a :: as => do
    let b ← f a
    let bs ← traverse f as
    pure (b :: bs)

/-- A result that is at hand. -/
def ofExcept (result : Except ε α) : Program κ Answer ε α := .done result

theorem bind_eq (p : Program κ Answer ε α) (f : α → Program κ Answer ε β) :
    p >>= f = p.andThen fun
      | .ok a => f a
      | .error e => throw e := rfl

@[simp] theorem pure_eq (a : α) : (pure a : Program κ Answer ε α) = .done (.ok a) := rfl

@[simp] theorem throw_eq (e : ε) : (throw e : Program κ Answer ε α) = .done (.error e) := rfl

@[simp] theorem done_andThen (result : Except ε α) (f : Except ε α → Program κ Answer ε β) :
    (done result : Program κ Answer ε α).andThen f = f result := rfl

@[simp] theorem perform_andThen (op : κ) (rest : Answer op → Program κ Answer ε α)
    (f : Except ε α → Program κ Answer ε β) :
    (perform op rest).andThen f = perform op fun answer => (rest answer).andThen f := rfl

/-! ### Runs -/

/-- **The complete runs of a program**: what it performs and is answered, and how it ends. -/
inductive Runs : Program κ Answer ε α → List (Event κ Answer) → Except ε α → Prop
  | done (result : Except ε α) : Runs (.done result) [] result
  | perform {op : κ} {rest : Answer op → Program κ Answer ε α} (answer : Answer op)
      {log : List (Event κ Answer)} {result : Except ε α} (h : Runs (rest answer) log result) :
      Runs (.perform op rest) (⟨op, answer⟩ :: log) result

@[simp] theorem runs_done_iff {r result : Except ε α} {log : List (Event κ Answer)} :
    Runs (.done r) log result ↔ log = [] ∧ result = r := by
  constructor
  · intro h
    cases h
    exact ⟨rfl, rfl⟩
  · rintro ⟨rfl, rfl⟩
    exact .done _

theorem runs_perform_iff {op : κ} {rest : Answer op → Program κ Answer ε α} {result : Except ε α}
    {log : List (Event κ Answer)} :
    Runs (.perform op rest) log result ↔
      ∃ answer log', log = ⟨op, answer⟩ :: log' ∧ Runs (rest answer) log' result := by
  constructor
  · intro h
    cases h with
    | perform answer h => exact ⟨answer, _, rfl, h⟩
  · rintro ⟨answer, log', rfl, h⟩
    exact .perform answer h

/-- A run of one program after another is made of a run of each. -/
theorem runs_andThen_iff {p : Program κ Answer ε α} {f : Except ε α → Program κ Answer ε β}
    {log : List (Event κ Answer)} {result : Except ε β} :
    Runs (p.andThen f) log result ↔
      ∃ log₁ mid log₂, Runs p log₁ mid ∧ Runs (f mid) log₂ result ∧ log = log₁ ++ log₂ := by
  induction p generalizing log with
  | done r =>
    constructor
    · exact fun h => ⟨[], r, log, .done r, h, rfl⟩
    · rintro ⟨log₁, mid, log₂, h₁, h₂, rfl⟩
      obtain ⟨rfl, rfl⟩ := runs_done_iff.mp h₁
      exact h₂
  | perform op rest ih =>
    rw [perform_andThen, runs_perform_iff]
    constructor
    · rintro ⟨answer, log', rfl, h⟩
      obtain ⟨log₁, mid, log₂, h₁, h₂, rfl⟩ := (ih answer).mp h
      exact ⟨⟨op, answer⟩ :: log₁, mid, log₂, .perform answer h₁, h₂, rfl⟩
    · rintro ⟨log₁, mid, log₂, h₁, h₂, rfl⟩
      obtain ⟨answer, log', rfl, hrest⟩ := runs_perform_iff.mp h₁
      exact ⟨answer, log' ++ log₂, rfl, (ih answer).mpr ⟨log', mid, log₂, hrest, h₂, rfl⟩⟩

/-- The answers determine a run: of the runs of a program, none goes on where another has ended. -/
theorem Runs.eq_of_append_eq {p : Program κ Answer ε α}
    {log log' more more' : List (Event κ Answer)}
    {result result' : Except ε α} (h : Runs p log result) (h' : Runs p log' result')
    (heq : log ++ more = log' ++ more') : log = log' ∧ result = result' := by
  induction h generalizing log' with
  | done =>
    obtain ⟨rfl, rfl⟩ := runs_done_iff.mp h'
    exact ⟨rfl, rfl⟩
  | perform answer _ ih =>
    obtain ⟨answer', rest', rfl, hrest'⟩ := runs_perform_iff.mp h'
    obtain ⟨hevent, hmore⟩ := List.cons.inj heq
    obtain rfl := eq_of_heq (Sigma.mk.inj hevent).2
    obtain ⟨rfl, hresult⟩ := ih hrest' hmore
    exact ⟨rfl, hresult⟩

theorem Runs.andThen {p : Program κ Answer ε α} {f : Except ε α → Program κ Answer ε β}
    {log log' : List (Event κ Answer)} {mid : Except ε α} {result : Except ε β}
    (h : Runs p log mid) (hf : Runs (f mid) log' result) : Runs (p.andThen f)
    (log ++ log') result :=
  runs_andThen_iff.mpr ⟨log, mid, log', h, hf, rfl⟩

theorem Runs.bind {p : Program κ Answer ε α} {f : α → Program κ Answer ε β}
    {log log' : List (Event κ Answer)} {a : α} {result : Except ε β} (h : Runs p log (.ok a))
    (hf : Runs (f a) log' result) : Runs (p >>= f) (log ++ log') result :=
  h.andThen hf

theorem Runs.bind_error {p : Program κ Answer ε α} {f : α → Program κ Answer ε β}
    {log : List (Event κ Answer)} {e : ε} (h : Runs p log (.error e)) :
    Runs (p >>= f) log (.error e) := by
  have hrun : Runs (p >>= f) (log ++ []) (.error e) := h.andThen (.done (.error e))
  rwa [List.append_nil] at hrun

theorem Runs.tryCatch_ok {p : Program κ Answer ε α} {handler : ε → Program κ Answer ε α}
    {log : List (Event κ Answer)} {a : α} (h : Runs p log (.ok a)) :
    Runs (p.tryCatch handler) log (.ok a) := by
  have hrun : Runs (p.tryCatch handler) (log ++ []) (.ok a) := h.andThen (.done (.ok a))
  rwa [List.append_nil] at hrun

theorem Runs.tryCatch_error {p : Program κ Answer ε α} {handler : ε → Program κ Answer ε α}
    {log log' : List (Event κ Answer)} {e : ε} {result : Except ε α} (h : Runs p log (.error e))
    (hhandler : Runs (handler e) log' result) : Runs (p.tryCatch handler) (log ++ log') result :=
  h.andThen hhandler

theorem Runs.tryCatch_done {p : Program κ Answer ε α} {handler : ε → Program κ Answer ε α}
    {log : List (Event κ Answer)} {e : ε} {result : Except ε α} (h : Runs p log (.error e))
    (hhandler : handler e = .done result) : Runs (p.tryCatch handler) log result := by
  have hrun : Runs (p.tryCatch handler) (log ++ []) result :=
    h.tryCatch_error (hhandler ▸ .done result)
  rwa [List.append_nil] at hrun

/-! ### What all runs do -/

section Ensures

variable (Assume : Event κ Answer → Prop) (P : κ → Prop)

/-- **Every run performs operations with `P` only and ends with `Q`**, as long as the answers are as
assumed. -/
def Ensures (Q : Except ε α → Prop) : Program κ Answer ε α → Prop
  | .done result => Q result
  | .perform op rest => P op ∧ ∀ answer, Assume ⟨op, answer⟩ → Ensures Q (rest answer)

variable {Assume} {P} {Q Q' : Except ε α → Prop}

theorem Ensures.mono {p : Program κ Answer ε α} (h : Ensures Assume P Q p)
    (hQ : ∀ result, Q result → Q' result) : Ensures Assume P Q' p := by
  induction p with
  | done result => exact hQ result h
  | perform op rest ih => exact ⟨h.1, fun answer ha => ih answer (h.2 answer ha)⟩

theorem Ensures.weaken {P' : κ → Prop} {p : Program κ Answer ε α} (h : Ensures Assume P Q p)
    (hP : ∀ op, P op → P' op) : Ensures Assume P' Q p := by
  induction p with
  | done => exact h
  | perform op rest ih => exact ⟨hP op h.1, fun answer ha => ih answer (h.2 answer ha)⟩

theorem Ensures.andThen {p : Program κ Answer ε α} {f : Except ε α → Program κ Answer ε β}
    {R : Except ε β → Prop} (h : Ensures Assume P Q p)
    (hf : ∀ result, Q result → Ensures Assume P R (f result)) :
    Ensures Assume P R (p.andThen f) := by
  induction p with
  | done result => exact hf result h
  | perform op rest ih => exact ⟨h.1, fun answer ha => ih answer (h.2 answer ha)⟩

theorem Ensures.bind {p : Program κ Answer ε α} {f : α → Program κ Answer ε β}
    {R : Except ε β → Prop} (h : Ensures Assume P Q p)
    (hok : ∀ a, Q (.ok a) → Ensures Assume P R (f a))
    (herror : ∀ e, Q (.error e) → R (.error e)) : Ensures Assume P R (p >>= f) := by
  rw [bind_eq]
  refine h.andThen fun result hresult => ?_
  cases result with
  | ok a => exact hok a hresult
  | error e => exact herror e hresult

theorem Ensures.tryCatch {p : Program κ Answer ε α} {handler : ε → Program κ Answer ε α}
    (h : Ensures Assume P Q p) (hok : ∀ a, Q (.ok a) → Q' (.ok a))
    (herror : ∀ e, Q (.error e) → Ensures Assume P Q' (handler e)) :
    Ensures Assume P Q' (p.tryCatch handler) := by
  unfold Program.tryCatch
  refine h.andThen fun result hresult => ?_
  cases result with
  | ok a => exact hok a hresult
  | error e => exact herror e hresult

/-- Every run performs operations with `P` only, however it ends. -/
abbrev Performs (Assume : Event κ Answer → Prop) (P : κ → Prop) (p : Program κ Answer ε α) : Prop :=
  Ensures Assume P (fun _ => True) p

theorem performs_true (p : Program κ Answer ε α) : Performs Assume (fun _ => True) p := by
  induction p with
  | done => trivial
  | perform op rest ih => exact ⟨trivial, fun answer _ => ih answer⟩

theorem Performs.bind {p : Program κ Answer ε α} {f : α → Program κ Answer ε β}
    (h : Performs Assume P p) (hf : ∀ a, Performs Assume P (f a)) : Performs Assume P (p >>= f) :=
  Ensures.bind h (fun a _ => hf a) fun _ _ => trivial

theorem Performs.tryCatch {p : Program κ Answer ε α} {handler : ε → Program κ Answer ε α}
    (h : Performs Assume P p) (herror : ∀ e, Performs Assume P (handler e)) :
    Performs Assume P (p.tryCatch handler) :=
  Ensures.tryCatch h (fun _ _ => trivial) fun e _ => herror e

theorem Performs.tryFinally {p : Program κ Answer ε α} {cleanup : Program κ Answer ε Unit}
    (h : Performs Assume P p) (hcleanup : Performs Assume P cleanup) :
    Performs Assume P (p.tryFinally cleanup) := by
  unfold Program.tryFinally
  refine h.andThen fun result _ => hcleanup.andThen fun done _ => ?_
  cases done with
  | ok => trivial
  | error => trivial

theorem Performs.traverse {f : α → Program κ Answer ε β} {as : List α}
    (h : ∀ a ∈ as, Performs Assume P (f a)) : Performs Assume P (traverse f as) := by
  induction as with
  | nil => trivial
  | cons a as ih =>
    refine Performs.bind (h a List.mem_cons_self) fun b => ?_
    exact Performs.bind (ih fun c hc => h c (List.mem_cons_of_mem a hc)) fun _ => trivial

/-- **Soundness**: what is ensured holds of every run with such answers. -/
theorem Ensures.of_runs {p : Program κ Answer ε α} (h : Ensures Assume P Q p)
    {log : List (Event κ Answer)} {result : Except ε α} (hrun : Runs p log result)
    (hassume : ∀ e ∈ log, Assume e) : (∀ e ∈ log, P e.1) ∧ Q result := by
  induction hrun with
  | done => exact ⟨fun _ he => absurd he List.not_mem_nil, h⟩
  | perform answer _ ih =>
    obtain ⟨hlog, hresult⟩ := ih (h.2 answer (hassume _ List.mem_cons_self))
      fun e he => hassume e (List.mem_cons_of_mem _ he)
    refine ⟨fun e he => ?_, hresult⟩
    rcases List.mem_cons.mp he with rfl | he
    · exact h.1
    · exact hlog e he

end Ensures

/-! ### What some run does -/

section Reaches

variable (Assume : Event κ Answer → Prop) (P : κ → Prop)

/-- Some run, with answers as assumed, ends so. -/
def Yields : Program κ Answer ε α → Except ε α → Prop
  | .done r, result => r = result
  | .perform op rest, result => ∃ answer, Assume ⟨op, answer⟩ ∧ Yields (rest answer) result

/-- Some run, with answers as assumed, ends so, and the event is in it. -/
def YieldsPast (e : Event κ Answer) : Program κ Answer ε α → Except ε α → Prop
  | .done _, _ => False
  | .perform op rest, result => ∃ answer, Assume ⟨op, answer⟩ ∧
      (⟨op, answer⟩ = e ∧ Yields Assume (rest answer) result ∨ YieldsPast e (rest answer) result)

/-- Some run, with answers as assumed, performs an operation with `P`. -/
def Reaches : Program κ Answer ε α → Prop
  | .done _ => False
  | .perform op rest => P op ∨ ∃ answer, Assume ⟨op, answer⟩ ∧ Reaches (rest answer)

variable {Assume} {P}

theorem Yields.andThen {p : Program κ Answer ε α} {f : Except ε α → Program κ Answer ε β}
    {r : Except ε α} {result : Except ε β} (h : Yields Assume p r)
    (hf : Yields Assume (f r) result) :
    Yields Assume (p.andThen f) result := by
  induction p with
  | done r' =>
    obtain rfl : r' = r := h
    exact hf
  | perform op rest ih =>
    obtain ⟨answer, ha, h⟩ := h
    exact ⟨answer, ha, ih answer h⟩

theorem Yields.bind {p : Program κ Answer ε α} {f : α → Program κ Answer ε β} {a : α}
    {result : Except ε β} (h : Yields Assume p (.ok a)) (hf : Yields Assume (f a) result) :
    Yields Assume (p >>= f) result :=
  h.andThen hf

theorem Yields.bind_error {p : Program κ Answer ε α} {f : α → Program κ Answer ε β} {e : ε}
    (h : Yields Assume p (.error e)) : Yields Assume (p >>= f) (.error e) :=
  h.andThen rfl

theorem Yields.tryCatch_ok {p : Program κ Answer ε α} {handler : ε → Program κ Answer ε α} {a : α}
    (h : Yields Assume p (.ok a)) : Yields Assume (p.tryCatch handler) (.ok a) :=
  h.andThen rfl

theorem Yields.tryCatch_error {p : Program κ Answer ε α} {handler : ε → Program κ Answer ε α}
    {e : ε}
    {result : Except ε α} (h : Yields Assume p (.error e))
    (hhandler : Yields Assume (handler e) result) : Yields Assume (p.tryCatch handler) result :=
  h.andThen hhandler

/-- **Completeness**: a run that ends so. -/
theorem Yields.exists_runs {p : Program κ Answer ε α} {result : Except ε α}
    (h : Yields Assume p result) : ∃ log, Runs p log result ∧ ∀ e ∈ log, Assume e := by
  induction p with
  | done r =>
    obtain rfl : r = result := h
    exact ⟨[], .done r, fun _ he => absurd he List.not_mem_nil⟩
  | perform op rest ih =>
    obtain ⟨answer, ha, h⟩ := h
    obtain ⟨log, hrun, hlog⟩ := ih answer h
    exact ⟨⟨op, answer⟩ :: log, .perform answer hrun, List.forall_mem_cons.mpr ⟨ha, hlog⟩⟩

theorem YieldsPast.exists_runs {e : Event κ Answer} {p : Program κ Answer ε α}
    {result : Except ε α} (h : YieldsPast Assume e p result) :
    ∃ log, Runs p log result ∧ (∀ e ∈ log, Assume e) ∧ e ∈ log := by
  induction p with
  | done => exact h.elim
  | perform op rest ih =>
    obtain ⟨answer, ha, ⟨rfl, h⟩ | h⟩ := h
    · obtain ⟨log, hrun, hlog⟩ := h.exists_runs
      exact ⟨_, .perform answer hrun, List.forall_mem_cons.mpr ⟨ha, hlog⟩, List.mem_cons_self⟩
    · obtain ⟨log, hrun, hlog, he⟩ := ih answer h
      exact ⟨⟨op, answer⟩ :: log, .perform answer hrun, List.forall_mem_cons.mpr ⟨ha, hlog⟩,
        List.mem_cons_of_mem _ he⟩

theorem YieldsPast.yields {e : Event κ Answer} {p : Program κ Answer ε α} {result : Except ε α}
    (h : YieldsPast Assume e p result) : Yields Assume p result := by
  induction p with
  | done => exact h.elim
  | perform op rest ih =>
    obtain ⟨answer, ha, ⟨-, h⟩ | h⟩ := h
    · exact ⟨answer, ha, h⟩
    · exact ⟨answer, ha, ih answer h⟩

theorem YieldsPast.andThen {e : Event κ Answer} {p : Program κ Answer ε α}
    {f : Except ε α → Program κ Answer ε β} {r : Except ε α} {result : Except ε β}
    (h : YieldsPast Assume e p r) (hf : Yields Assume (f r) result) :
    YieldsPast Assume e (p.andThen f) result := by
  induction p with
  | done => exact h.elim
  | perform op rest ih =>
    obtain ⟨answer, ha, ⟨he, h⟩ | h⟩ := h
    · exact ⟨answer, ha, .inl ⟨he, h.andThen hf⟩⟩
    · exact ⟨answer, ha, .inr (ih answer h)⟩

theorem Yields.past {e : Event κ Answer} {p : Program κ Answer ε α}
    {f : Except ε α → Program κ Answer ε β} {r : Except ε α} {result : Except ε β}
    (h : Yields Assume p r) (hf : YieldsPast Assume e (f r) result) :
    YieldsPast Assume e (p.andThen f) result := by
  induction p with
  | done r' =>
    obtain rfl : r' = r := h
    exact hf
  | perform op rest ih =>
    obtain ⟨answer, ha, h⟩ := h
    exact ⟨answer, ha, .inr (ih answer h)⟩

theorem Yields.past_bind {e : Event κ Answer} {p : Program κ Answer ε α}
    {f : α → Program κ Answer ε β} {a : α} {result : Except ε β} (h : Yields Assume p (.ok a))
    (hf : YieldsPast Assume e (f a) result) : YieldsPast Assume e (p >>= f) result :=
  h.past hf

theorem Reaches.mono {P' : κ → Prop} {p : Program κ Answer ε α} (h : Reaches Assume P p)
    (hP : ∀ op, P op → P' op) : Reaches Assume P' p := by
  induction p with
  | done => exact h
  | perform op rest ih =>
    rcases h with h | ⟨answer, ha, h⟩
    · exact .inl (hP op h)
    · exact .inr ⟨answer, ha, ih answer h⟩

theorem Reaches.andThen {p : Program κ Answer ε α} {f : Except ε α → Program κ Answer ε β}
    (h : Reaches Assume P p) : Reaches Assume P (p.andThen f) := by
  induction p with
  | done => exact h.elim
  | perform op rest ih =>
    rcases h with h | ⟨answer, ha, h⟩
    · exact .inl h
    · exact .inr ⟨answer, ha, ih answer h⟩

theorem Yields.reaches {p : Program κ Answer ε α} {f : Except ε α → Program κ Answer ε β}
    {r : Except ε α} (h : Yields Assume p r) (hf : Reaches Assume P (f r)) :
    Reaches Assume P (p.andThen f) := by
  induction p with
  | done r' =>
    obtain rfl : r' = r := h
    exact hf
  | perform op rest ih =>
    obtain ⟨answer, ha, h⟩ := h
    exact .inr ⟨answer, ha, ih answer h⟩

theorem Reaches.bind {p : Program κ Answer ε α} {f : α → Program κ Answer ε β}
    (h : Reaches Assume P p) : Reaches Assume P (p >>= f) :=
  h.andThen

theorem Yields.reaches_bind {p : Program κ Answer ε α} {f : α → Program κ Answer ε β} {a : α}
    (h : Yields Assume p (.ok a)) (hf : Reaches Assume P (f a)) : Reaches Assume P (p >>= f) :=
  h.reaches hf

theorem exists_runs (hassume : ∀ op, ∃ answer, Assume ⟨op, answer⟩) (p : Program κ Answer ε α) :
    ∃ log result, Runs p log result ∧ ∀ e ∈ log, Assume e := by
  induction p with
  | done result => exact ⟨[], result, .done result, fun _ he => absurd he List.not_mem_nil⟩
  | perform op rest ih =>
    obtain ⟨answer, ha⟩ := hassume op
    obtain ⟨log, result, hrun, hlog⟩ := ih answer
    exact ⟨⟨op, answer⟩ :: log, result, .perform answer hrun, List.forall_mem_cons.mpr ⟨ha, hlog⟩⟩

/-- **Completeness**: what is reached is performed in a complete run. -/
theorem Reaches.exists_runs (hassume : ∀ op, ∃ answer, Assume ⟨op, answer⟩)
    {p : Program κ Answer ε α} (h : Reaches Assume P p) :
    ∃ log result, Runs p log result ∧ (∀ e ∈ log, Assume e) ∧ ∃ e ∈ log, P e.1 := by
  induction p with
  | done => exact h.elim
  | perform op rest ih =>
    rcases h with h | ⟨answer, ha, h⟩
    · obtain ⟨answer, ha⟩ := hassume op
      obtain ⟨log, result, hrun, hlog⟩ := Program.exists_runs hassume (rest answer)
      exact ⟨⟨op, answer⟩ :: log, result, .perform answer hrun,
        List.forall_mem_cons.mpr ⟨ha, hlog⟩, _, List.mem_cons_self, h⟩
    · obtain ⟨log, result, hrun, hlog, e, he, hP⟩ := ih answer h
      exact ⟨⟨op, answer⟩ :: log, result, .perform answer hrun,
        List.forall_mem_cons.mpr ⟨ha, hlog⟩, e, List.mem_cons_of_mem _ he, hP⟩

end Reaches

/-! ### What holds of every run -/

section Always

variable (Assume : Event κ Answer → Prop) (P : κ → Prop)

/-- **In every complete run**, with answers as assumed, each operation has `P`. -/
def Always (p : Program κ Answer ε α) : Prop :=
  ∀ log result, Runs p log result → (∀ e ∈ log, Assume e) → ∀ e ∈ log, P e.1

variable {Assume} {P}

theorem Ensures.always {p : Program κ Answer ε α} {Q : Except ε α → Prop}
    (h : Ensures Assume P Q p) : Always Assume P p :=
  fun _ _ hrun hassume => (h.of_runs hrun hassume).1

theorem Reaches.not_always (hassume : ∀ op, ∃ answer, Assume ⟨op, answer⟩)
    {p : Program κ Answer ε α} (h : Reaches Assume (fun op => ¬P op) p) : ¬Always Assume P p := by
  intro halways
  obtain ⟨log, result, hrun, hlog, e, he, hP⟩ := h.exists_runs hassume
  exact hP (halways log result hrun hlog e he)

end Always

end Program
end Library
