import McpSshTool.Library.Program

/-!
# Programs that fail with what they are answered

A program whose runs end with an error exactly if there is an event of some kind in them.

* `FailsOn` — the property, under answers that may be assumed;
* `failsOn_perform`, `FailsOn.bind`, `FailsOn.rethrown` — single operations, one program after
  another, and programs whose errors are thrown on.
-/

namespace Library.Program

variable {κ : Type} {Answer : κ → Type} {ε α β : Type}

variable (Assume : Event κ Answer → Prop) (stops : Event κ Answer → Prop)

/-- **The program fails exactly when** it is given an answer that stops it. -/
def FailsOn (p : Program κ Answer ε α) : Prop :=
  ∀ log result, Runs p log result → (∀ e ∈ log, Assume e) →
    ((∃ e ∈ log, stops e) ↔ ∃ e, result = .error e)

variable {Assume} {stops}

theorem failsOn_ok (a : α) : FailsOn Assume stops (.done (.ok a) : Program κ Answer ε α) := by
  intro log result h _
  obtain ⟨rfl, rfl⟩ := runs_done_iff.mp h
  simp

theorem failsOn_perform {op : κ} {read : Answer op → Except ε α}
    (hread : ∀ answer, Assume ⟨op, answer⟩ → (stops ⟨op, answer⟩ ↔ ∃ e, read answer = .error e)) :
    FailsOn Assume stops (.perform op fun answer => .done (read answer)) := by
  intro log result h hassume
  replace h := runs_perform_iff.mp h
  obtain ⟨answer, log', rfl, h⟩ := h
  obtain ⟨rfl, rfl⟩ := runs_done_iff.mp h
  rw [← hread answer (hassume _ List.mem_cons_self)]
  simp

/-- The program itself, or what comes after it. -/
theorem FailsOn.bind {p : Program κ Answer ε α} {f : α → Program κ Answer ε β}
    (hp : FailsOn Assume stops p) (hf : ∀ a, FailsOn Assume stops (f a)) :
    FailsOn Assume stops (p >>= f) := by
  intro log result h hassume
  obtain ⟨log₁, mid, log₂, h₁, h₂, rfl⟩ := runs_andThen_iff.mp h
  obtain ⟨hassume₁, hassume₂⟩ := List.forall_mem_append.mp hassume
  have hfirst := hp log₁ mid h₁ hassume₁
  cases mid with
  | error =>
    obtain ⟨rfl, rfl⟩ := runs_done_iff.mp h₂
    simpa using hfirst
  | ok a =>
    have hnone : ¬∃ e ∈ log₁, stops e := fun hstop => nomatch (hfirst.mp hstop).choose_spec
    rw [← hf a log₂ result h₂ hassume₂]
    constructor
    · rintro ⟨e, he, hstop⟩
      obtain he | he := List.mem_append.mp he
      · exact absurd ⟨e, he, hstop⟩ hnone
      · exact ⟨e, he, hstop⟩
    · rintro ⟨e, he, hstop⟩
      exact ⟨e, List.mem_append_right _ he, hstop⟩

/-- Another error is thrown in place of the program's own. -/
theorem FailsOn.rethrown {p : Program κ Answer ε α} {handler : ε → Program κ Answer ε α}
    (hp : FailsOn Assume stops p) (hthrows : ∀ e, ∃ e', handler e = throw e') :
    FailsOn Assume stops (p.tryCatch handler) := by
  intro log result h hassume
  obtain ⟨log₁, mid, log₂, h₁, h₂, rfl⟩ := runs_andThen_iff.mp h
  obtain ⟨hassume₁, -⟩ := List.forall_mem_append.mp hassume
  have hfirst := hp log₁ mid h₁ hassume₁
  cases mid with
  | ok =>
    obtain ⟨rfl, rfl⟩ := runs_done_iff.mp h₂
    rw [List.append_nil, hfirst]
  | error e =>
    obtain ⟨e', heq⟩ := hthrows e
    have hthrown : Runs (throw e' : Program κ Answer ε α) log₂ result := heq ▸ h₂
    obtain ⟨rfl, rfl⟩ := runs_done_iff.mp hthrown
    rw [List.append_nil, hfirst]
    exact ⟨fun _ => ⟨_, rfl⟩, fun _ => ⟨_, rfl⟩⟩

end Library.Program
