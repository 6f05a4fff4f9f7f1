import McpSshTool.Ssh.Process

/-!
# Runs of the services, step by step

What a run of a service has been answered, if it ends with a value: one lemma for each way in which
the services are put together, from the outside in. A run that ends with a value has passed every
check, and every operation on its way has been answered with a value. A run that ends with an error
has ended in one of its parts (`runs_bind_cases`).
-/

open Library Program

namespace Ssh

variable {α β γ : Type} {log : List Event} {a : α} {b : β}

theorem runs_bind_ok {p : Task α} {f : α → Task β} (h : Runs (p >>= f) log (.ok b)) :
    ∃ a log₁ log₂, log = log₁ ++ log₂ ∧ Runs p log₁ (.ok a) ∧ Runs (f a) log₂ (.ok b) := by
  obtain ⟨log₁, mid, log₂, h₁, h₂, rfl⟩ := runs_andThen_iff.mp h
  cases mid with
  | ok a => exact ⟨a, log₁, log₂, rfl, h₁, h₂⟩
  | error => exact absurd (runs_done_iff.mp h₂).2 nofun

theorem runs_bind_cases {p : Task α} {f : α → Task β} {result : Except Failure β}
    (h : Runs (p >>= f) log result) :
    (∃ e, result = .error e ∧ Runs p log (.error e)) ∨
      ∃ a log₁ log₂, log = log₁ ++ log₂ ∧ Runs p log₁ (.ok a) ∧ Runs (f a) log₂ result := by
  obtain ⟨log₁, mid, log₂, h₁, h₂, rfl⟩ := runs_andThen_iff.mp h
  cases mid with
  | ok a => exact .inr ⟨a, log₁, log₂, rfl, h₁, h₂⟩
  | error e =>
    obtain ⟨rfl, rfl⟩ := runs_done_iff.mp h₂
    rw [List.append_nil]
    exact .inl ⟨e, rfl, h₁⟩

/-- A part whose errors are thrown on. -/
theorem runs_rethrown_ok {p : Task α} {handler : Failure → Task α}
    (hthrows : ∀ e, ∃ e', handler e = throw e') (h : Runs (p.tryCatch handler) log (.ok a)) :
    Runs p log (.ok a) := by
  obtain ⟨log₁, mid, log₂, h₁, h₂, rfl⟩ := runs_andThen_iff.mp h
  cases mid with
  | ok =>
    obtain ⟨rfl, heq⟩ := runs_done_iff.mp h₂
    rw [List.append_nil, heq]
    exact h₁
  | error e =>
    obtain ⟨e', heq⟩ := hthrows e
    have hthrown : Runs (throw e' : Task α) log₂ (.ok a) := heq ▸ h₂
    exact absurd (runs_done_iff.mp hthrown).2 nofun

theorem runs_wrapping_ok {hint : String} {body : Task α}
    (h : Runs (wrapping hint body) log (.ok a)) :
    Runs body log (.ok a) :=
  runs_rethrown_ok (fun _ => ⟨_, rfl⟩) h

theorem runs_ofExcept_ok {x : Except Failure α} {f : α → Task β}
    (h : Runs (ofExcept x >>= f) log (.ok b)) : ∃ a, x = .ok a ∧ Runs (f a) log (.ok b) := by
  cases x with
  | ok a => exact ⟨a, rfl, h⟩
  | error => exact absurd (runs_done_iff.mp h).2 nofun

theorem runs_ofExcept_cases {x : Except Failure α} {f : α → Task β} {result : Except Failure β}
    (h : Runs (ofExcept x >>= f) log result) :
    (∃ e, x = .error e ∧ log = [] ∧ result = .error e) ∨ ∃ a, x = .ok a ∧
      Runs (f a) log result := by
  cases x with
  | ok a => exact .inr ⟨a, rfl, h⟩
  | error e =>
    obtain ⟨hlog, hresult⟩ := runs_done_iff.mp h
    exact .inl ⟨e, rfl, hlog, hresult⟩

theorem runs_perform_ok (op : Operation) (read : Answer op → Except Failure α) {f : α → Task β}
    (h : Runs ((.perform op fun answer => .done (read answer) : Task α) >>= f) log (.ok b)) :
    ∃ answer a log', log = ⟨op, answer⟩ :: log' ∧ read answer = .ok a ∧
      Runs (f a) log' (.ok b) := by
  obtain ⟨answer, log', rfl, hrest⟩ := runs_perform_iff.mp h
  obtain ⟨a, hread, hf⟩ := runs_ofExcept_ok hrest
  exact ⟨answer, a, log', rfl, hread, hf⟩

theorem runs_perform_cases (op : Operation) (read : Answer op → Except Failure α) {f : α → Task β}
    {result : Except Failure β}
    (h : Runs ((.perform op fun answer => .done (read answer) : Task α) >>= f) log result) :
    ∃ answer, (∃ e, read answer = .error e ∧ log = [⟨op, answer⟩] ∧ result = .error e) ∨
      ∃ a log', read answer = .ok a ∧ log = ⟨op, answer⟩ :: log' ∧ Runs (f a) log' result := by
  obtain ⟨answer, log', rfl, hrest⟩ := runs_perform_iff.mp h
  obtain ⟨e, hread, rfl, rfl⟩ | ⟨a, hread, hf⟩ := runs_ofExcept_cases hrest
  · exact ⟨answer, .inl ⟨e, hread, rfl, rfl⟩⟩
  · exact ⟨answer, .inr ⟨a, log', hread, rfl, hf⟩⟩

theorem runs_getSession_ok {sessionId : String} {f : Session → Task α}
    (h : Runs (getSession sessionId >>= f) log (.ok a)) :
    ∃ session log', log = ⟨.getSession sessionId, some session⟩ :: log' ∧
      Runs (f session) log' (.ok a) := by
  obtain ⟨answer, log', rfl, hrest⟩ := runs_perform_iff.mp h
  cases answer with
  | some session => exact ⟨session, log', rfl, hrest⟩
  | none => exact absurd (runs_done_iff.mp hrest).2 nofun

theorem runs_getOSInfo_ok {sessionId : String} {f : OSInfo → Task α}
    (h : Runs (getOSInfo sessionId >>= f) log (.ok a)) :
    ∃ osInfo log', log = ⟨.getOSInfo sessionId, .ok osInfo⟩ :: log' ∧
      Runs (f osInfo) log' (.ok a) := by
  obtain ⟨answer, osInfo, log', rfl, rfl, hrest⟩ := runs_perform_ok (.getOSInfo sessionId) id h
  exact ⟨osInfo, log', rfl, hrest⟩

theorem runs_now {f : ℕ → Task α} {result : Except Failure α} (h : Runs (now >>= f) log result) :
    ∃ (time : ℕ) (log' : List Event), log = ⟨.now, time⟩ :: log' ∧ Runs (f time) log' result := by
  obtain ⟨time, log', rfl, hrest⟩ := runs_perform_iff.mp h
  exact ⟨time, log', rfl, hrest⟩

end Ssh
