import McpSshTool.Library.Program

/-!
# Programs in an environment

A program that waits for answers, run by an environment that has a state and answers every
operation.

* `Program.execute` — the run: the state and the result at its end;
* `Ends` — how the run ends, with the rules for sequencing, for handling errors, for lists and for
  what all runs ensure.
-/

namespace Library
namespace Program

variable {κ : Type} {Answer : κ → Type} {ε α β σ : Type}

/-- **The run of a program**, each operation being answered by the environment. -/
def execute (handle : σ → (op : κ) → σ × Answer op) : Program κ Answer ε α → σ → σ × Except ε α
  | .done result, s => (s, result)
  | .perform op rest, s => execute handle (rest (handle s op).2) (handle s op).1

variable (handle : σ → (op : κ) → σ × Answer op)

/-- The run ends with `Q`. -/
def Ends (p : Program κ Answer ε α) (s : σ) (Q : σ → Except ε α → Prop) : Prop :=
  Q (execute handle p s).1 (execute handle p s).2

variable {handle} {Q Q' : σ → Except ε α → Prop}

theorem ends_done {result : Except ε α} {s : σ} (h : Q s result) :
    Ends handle (.done result) s Q := h

theorem ends_perform {op : κ} {rest : Answer op → Program κ Answer ε α} {s : σ}
    (h : Ends handle (rest (handle s op).2) (handle s op).1 Q) :
    Ends handle (.perform op rest) s Q := h

theorem Ends.mono {p : Program κ Answer ε α} {s : σ} (h : Ends handle p s Q)
    (hQ : ∀ s' result, Q s' result → Q' s' result) : Ends handle p s Q' :=
  hQ _ _ h

theorem ends_congr {p : Program κ Answer ε α} {s : σ}
    (hQ : ∀ s' result, Q s' result ↔ Q' s' result) : Ends handle p s Q ↔ Ends handle p s Q' :=
  hQ _ _

theorem Ends.and {p : Program κ Answer ε α} {s : σ} (h : Ends handle p s Q)
    (h' : Ends handle p s Q') : Ends handle p s fun s' result => Q s' result ∧ Q' s' result :=
  ⟨h, h'⟩

theorem execute_andThen (p : Program κ Answer ε α) (f : Except ε α → Program κ Answer ε β) (s : σ) :
    execute handle (p.andThen f) s =
      execute handle (f (execute handle p s).2) (execute handle p s).1 := by
  induction p generalizing s with
  | done => rfl
  | perform op rest ih =>
    rw [perform_andThen]
    exact ih (handle s op).2 (handle s op).1

theorem Ends.andThen {p : Program κ Answer ε α} {f : Except ε α → Program κ Answer ε β} {s : σ}
    {R : σ → Except ε β → Prop} (h : Ends handle p s Q)
    (hf : ∀ s' result, Q s' result → Ends handle (f result) s' R) :
    Ends handle (p.andThen f) s R := by
  unfold Ends
  rw [execute_andThen]
  exact hf _ _ h

theorem Ends.bind {p : Program κ Answer ε α} {f : α → Program κ Answer ε β} {s : σ}
    {R : σ → Except ε β → Prop} (h : Ends handle p s Q)
    (hok : ∀ s' a, Q s' (.ok a) → Ends handle (f a) s' R)
    (herror : ∀ s' e, Q s' (.error e) → R s' (.error e)) : Ends handle (p >>= f) s R := by
  rw [bind_eq]
  refine h.andThen fun s' result hresult => ?_
  cases result with
  | ok a => exact hok s' a hresult
  | error e => exact ends_done (herror s' e hresult)

theorem ends_bind_pure {p : Program κ Answer ε α} {f : α → β} {s : σ}
    {R : σ → Except ε β → Prop} :
    Ends handle (p >>= fun a => pure (f a)) s R ↔
      Ends handle p s fun s' result => R s' (result.map f) := by
  unfold Ends
  rw [bind_eq, execute_andThen]
  cases (execute handle p s).2 with
  | ok => exact Iff.rfl
  | error => exact Iff.rfl

theorem Ends.tryCatch {p : Program κ Answer ε α} {handler : ε → Program κ Answer ε α} {s : σ}
    (h : Ends handle p s Q) (hok : ∀ s' a, Q s' (.ok a) → Q' s' (.ok a))
    (herror : ∀ s' e, Q s' (.error e) → Ends handle (handler e) s' Q') :
    Ends handle (p.tryCatch handler) s Q' := by
  unfold Program.tryCatch
  refine h.andThen fun s' result hresult => ?_
  cases result with
  | ok a => exact ends_done (hok s' a hresult)
  | error e => exact herror s' e hresult

/-- **The rule for what is ensured**: an invariant that every operation keeps, with the answers that
were assumed. -/
theorem Ends.of_ensures {Assume : Event κ Answer → Prop} {P : κ → Prop} {R : Except ε α → Prop}
    {I : σ → Prop} {p : Program κ Answer ε α} (h : Ensures Assume P R p)
    (hstep : ∀ s, I s → ∀ op, P op → Assume ⟨op, (handle s op).2⟩ ∧ I (handle s op).1) {s : σ}
    (hs : I s) : Ends handle p s fun s' result => I s' ∧ R result := by
  induction p generalizing s with
  | done => exact ends_done ⟨hs, h⟩
  | perform op rest ih =>
    obtain ⟨hanswer, hnext⟩ := hstep s hs op h.1
    exact ends_perform (ih _ (h.2 _ hanswer) hnext)

/-- **The rule for lists**: what each program keeps is kept, and an error is one of theirs. -/
theorem ends_traverse {f : α → Program κ Answer ε β} {as : List α} {I : σ → Prop} {E : ε → Prop}
    (h : ∀ a ∈ as, ∀ s, I s → Ends handle (f a) s fun s' result =>
      I s' ∧ ∀ e, result = .error e → E e) {s : σ} (hs : I s) :
    Ends handle (traverse f as) s fun s' result => I s' ∧ ∀ e, result = .error e → E e := by
  induction as generalizing s with
  | nil => exact ends_done ⟨hs, nofun⟩
  | cons a as ih =>
    refine (h a List.mem_cons_self s hs).bind (fun s' b hb => ?_) fun s' e he => ?_
    · refine (ih (fun c hc => h c (List.mem_cons_of_mem a hc)) hb.1).bind (fun s'' bs hbs => ?_)
        fun s'' e he => ?_
      · exact ends_done ⟨hbs.1, nofun⟩
      · exact ⟨he.1, fun e' heq => he.2 e' (congrArg Except.error (Except.error.inj heq))⟩
    · exact ⟨he.1, fun e' heq => he.2 e' (congrArg Except.error (Except.error.inj heq))⟩

theorem ends_traverse_cons {f : α → Program κ Answer ε β} {a : α} {as : List α} {s : σ}
    {I : σ → Prop} (hfirst : Ends handle (f a) s fun s' _ => I s')
    (hrest : ∀ s', I s' → Ends handle (traverse f as) s' fun s'' _ => I s'') :
    Ends handle (traverse f (a :: as)) s fun s' _ => I s' := by
  refine hfirst.bind (fun s' b hb => ?_) fun _ _ h => h
  exact (hrest s' hb).bind (fun s'' bs hbs => ends_done hbs) fun _ _ h => h

end Program
end Library
