import Mathlib.Algebra.Order.Group.Int
import McpSshTool.Library.Run
import McpSshTool.Library.Slots

/-!
# The shared parser of the SSH configuration

`ssh-config.ts` between its awaits: the parser that `getSSHConfigParser` makes, keeps and hands out.

* `SSHConfigParser` — a parser, and the two parts of its `parse`;
* `ConfigCache` — the global parser, the parsers that were made, and the calls that wait for a
  parse;
* `ConfigEvent`, `ConfigCache.step` — one step; any list of events is an interleaving;
* `HandsOutParsed` — what was handed out is a parser that had been parsed;
* `handsOutParsed_of_undisturbed` — over every run in which nobody asks for the parser, or
  invalidates it, while it is being parsed;
* `unparsed_handed_out` — two calls at the start.

A call hands out what is global when it goes on, and not the parser that it has waited for.
-/

open Library

namespace Ssh

/-! ### The parser -/

/-- What an `SSHConfigParser` remembers. Its hosts are kept as the text that they were read from. -/
structure SSHConfigParser where
  hosts : Option String := none
  parsed : Bool := false
  lastParsedAt : ℤ := 0
deriving DecidableEq, Repr

namespace SSHConfigParser

/-- `CACHE_TTL_MS`. -/
def cacheTtlMs : ℤ := 300000

/-- `parse`, up to where it reads the file, and whether it does. -/
def beginParse (parser : SSHConfigParser) (now : ℤ) : SSHConfigParser × Bool :=
  if parser.parsed ∧ now - parser.lastParsedAt < cacheTtlMs then (parser, false)
  else ({ parser with hosts := none }, true)

/-- The rest of `parse`: whatever becomes of the reading, the parser has been parsed. -/
def endParse (parser : SSHConfigParser) (now : ℤ) : Option String → SSHConfigParser
  | some content => { hosts := some content, parsed := true, lastParsedAt := now }
  | none => { parser with parsed := true, lastParsedAt := now }

@[simp] theorem parsed_endParse (parser : SSHConfigParser) (now : ℤ) (content : Option String) :
    (parser.endParse now content).parsed = true := by
  cases content with
  | none => rfl
  | some => rfl

end SSHConfigParser

/-! ### The cache -/

/-- `CONFIG_CACHE_TTL_MS`. -/
def configCacheTtlMs : ℤ := 5 * 60 * 1000

/-- A call of `getSSHConfigParser` that waits for the parser that it has made. -/
structure Parsing where
  parser : ℕ
  /-- The time of the call. -/
  now : ℤ
  /-- The time of its `parse`. -/
  parseNow : ℤ
  /-- The file is still being read. -/
  reading : Bool
deriving DecidableEq, Repr

/-- **The cache.** Parsers are objects, and known by a number. -/
structure ConfigCache where
  parsers : Slots SSHConfigParser := .empty
  globalConfigParser : Option ℕ := none
  globalConfigParsedAt : ℤ := 0
  parsing : Slots Parsing := .empty
  /-- What was handed out, as it was then. -/
  returned : List (Option SSHConfigParser) := []

namespace ConfigCache

variable (s : ConfigCache)

/-- What is global, as it is now. -/
def parser? : Option SSHConfigParser := s.globalConfigParser.bind s.parsers.get?

/-- `return globalConfigParser`. -/
def handOut : ConfigCache := { s with returned := s.returned ++ [s.parser?] }

/-- `getSSHConfigParser`, up to where it waits for the parse of a new parser. -/
def getSSHConfigParser (now parseNow : ℤ) : ConfigCache :=
  if s.globalConfigParser = none ∨ now - s.globalConfigParsedAt > configCacheTtlMs then
    let begun := ({} : SSHConfigParser).beginParse parseNow
    { s with
      parsers := s.parsers.add begun.1
      globalConfigParser := some s.parsers.next
      parsing := s.parsing.add { parser := s.parsers.next, now, parseNow, reading := begun.2 } }
  else s.handOut

/-- The file has been read, or has not. -/
def fileRead (n : ℕ) (content : Option String) : ConfigCache :=
  match s.parsing.get? n with
  | some ⟨parser, _, parseNow, true⟩ =>
    { s with
      parsers := s.parsers.update parser fun parser => parser.endParse parseNow content
      parsing := s.parsing.update n fun call => { call with reading := false } }
  | _ => s

/-- The rest of `getSSHConfigParser`, past the parse. -/
def resumed (n : ℕ) : ConfigCache :=
  match s.parsing.get? n with
  | some ⟨_, now, _, false⟩ =>
    { s with globalConfigParsedAt := now, parsing := s.parsing.remove n }.handOut
  | _ => s

def invalidateSSHConfigCache : ConfigCache :=
  { s with globalConfigParser := none, globalConfigParsedAt := 0 }

end ConfigCache

/-- What happens to the cache. -/
inductive ConfigEvent where
  | getSSHConfigParser (now parseNow : ℤ)
  /-- The file of a parse has been read, or cannot be read. -/
  | fileRead (n : ℕ) (content : Option String)
  /-- A call goes on after its parse. -/
  | resumed (n : ℕ)
  | invalidateSSHConfigCache
deriving DecidableEq, Repr

namespace ConfigCache

/-- **One step.** -/
def step (s : ConfigCache) : ConfigEvent → ConfigCache
  | .getSSHConfigParser now parseNow => s.getSSHConfigParser now parseNow
  | .fileRead n content => s.fileRead n content
  | .resumed n => s.resumed n
  | .invalidateSSHConfigCache => s.invalidateSSHConfigCache

/-- **Every call that has returned** has handed out a parser, and one that had been parsed. -/
def HandsOutParsed (s : ConfigCache) : Prop :=
  ∀ returned ∈ s.returned, ∃ parser, returned = some parser ∧ parser.parsed = true

instance (s : ConfigCache) : Decidable s.HandsOutParsed :=
  inferInstanceAs (Decidable (∀ returned ∈ s.returned, ∃ parser, returned = some parser ∧
    parser.parsed = true))

/-- **A step disturbs no parse**: nobody asks for the parser, or invalidates it, while a call
waits. -/
def Undisturbed (s : ConfigCache) : ConfigEvent → Prop
  | .getSSHConfigParser _ _ => s.parsing.values = []
  | .invalidateSSHConfigCache => s.parsing.values = []
  | _ => True

/-! ### Idle and busy -/

variable {s : ConfigCache} {n : ℕ} {now parseNow : ℤ} {content : Option String}

/-- No call waits, and what is global has been parsed. -/
def Idle (s : ConfigCache) : Prop :=
  s.parsing.values = [] ∧ ∀ n, s.globalConfigParser = some n →
    ∃ parser, s.parsers.get? n = some parser ∧ parser.parsed = true

/-- One call waits, for what is global. -/
def Busy (s : ConfigCache) : Prop :=
  ∃ n call, (∀ k, s.parsing.get? k = if k = n then some call else none) ∧
    s.globalConfigParser = some call.parser ∧
    ∃ parser, s.parsers.get? call.parser = some parser ∧
      (call.reading = false → parser.parsed = true)

/-- The invariant. -/
def Orderly (s : ConfigCache) : Prop := s.HandsOutParsed ∧ (s.Idle ∨ s.Busy)

theorem get?_of_values_nil (h : s.parsing.values = []) (k : ℕ) : s.parsing.get? k = none := by
  cases hk : s.parsing.get? k with
  | none => rfl
  | some call =>
    have hmem : call ∈ s.parsing.values := Slots.mem_values.mpr ⟨k, hk⟩
    rw [h] at hmem
    exact absurd hmem List.not_mem_nil

theorem values_nil_of_get? (h : ∀ k, s.parsing.get? k = none) : s.parsing.values = [] := by
  refine List.eq_nil_iff_forall_not_mem.mpr fun call hcall => ?_
  obtain ⟨k, hk⟩ := Slots.mem_values.mp hcall
  rw [h k] at hk
  cases hk

theorem not_busy (h : s.parsing.values = []) : ¬s.Busy := by
  rintro ⟨n, call, hcalls, -⟩
  have hn := hcalls n
  rw [if_pos rfl, get?_of_values_nil h] at hn
  cases hn

theorem Orderly.idle (h : s.Orderly) (hnone : s.parsing.values = []) : s.Idle :=
  h.2.resolve_right (not_busy hnone)

theorem HandsOutParsed.handOut (h : s.HandsOutParsed) {parser : SSHConfigParser}
    (hparser : s.parser? = some parser) (hparsed : parser.parsed = true) :
    s.handOut.HandsOutParsed := by
  intro returned hreturned
  rcases List.mem_append.mp hreturned with hreturned | hreturned
  · exact h returned hreturned
  · rw [List.mem_singleton.mp hreturned]
    exact ⟨parser, hparser, hparsed⟩

theorem Orderly.getSSHConfigParser (h : s.Orderly) (hnone : s.parsing.values = []) :
    (s.getSSHConfigParser now parseNow).Orderly := by
  obtain ⟨-, hparsed⟩ := h.idle hnone
  unfold ConfigCache.getSSHConfigParser
  split
  · -- a new parser is global, and the call waits for it
    have hcalls : ∀ call k, (s.parsing.add call).get? k =
        if k = s.parsing.next then some call else none := by
      intro call k
      rw [Slots.get?_add, get?_of_values_nil hnone]
    exact ⟨h.1, .inr ⟨s.parsing.next, ⟨s.parsers.next, now, parseNow, true⟩, hcalls _, rfl,
      _, Slots.get?_add_next, nofun⟩⟩
  · next hcurrent =>
    rw [not_or] at hcurrent
    obtain ⟨n, hn⟩ := Option.ne_none_iff_exists'.mp hcurrent.1
    obtain ⟨parser, hparser, hdone⟩ := hparsed n hn
    have hglobal : s.parser? = some parser := by rw [parser?, hn, Option.bind_some, hparser]
    exact ⟨h.1.handOut hglobal hdone, .inl ⟨hnone, hparsed⟩⟩

theorem Orderly.fileRead (h : s.Orderly) : (s.fileRead n content).Orderly := by
  unfold ConfigCache.fileRead
  split
  · next number now parseNow hcall =>
    rcases h.2 with hidle | ⟨k, call, hcalls, hglobal, parser, hparser, -⟩
    · rw [get?_of_values_nil hidle.1] at hcall
      cases hcall
    · -- the call that waits is the one whose file was read
      rw [hcalls] at hcall
      split at hcall
      · next hk =>
        subst hk
        obtain rfl := Option.some.inj hcall
        refine ⟨h.1, .inr ⟨n, ⟨number, now, parseNow, false⟩, fun k => ?_, hglobal,
          parser.endParse parseNow content, ?_, fun _ => SSHConfigParser.parsed_endParse _ _ _⟩⟩
        · refine Slots.get?_update.trans ?_
          rw [hcalls n, if_pos rfl, hcalls k]
          split
          · rfl
          · rfl
        · refine Slots.get?_update.trans ?_
          rw [if_pos rfl, hparser]
          rfl
      · cases hcall
  · exact h

theorem Orderly.resumed (h : s.Orderly) : (s.resumed n).Orderly := by
  unfold ConfigCache.resumed
  split
  · next number now parseNow hcall =>
    rcases h.2 with hidle | ⟨k, call, hcalls, hglobal, parser, hparser, hdone⟩
    · rw [get?_of_values_nil hidle.1] at hcall
      cases hcall
    · rw [hcalls] at hcall
      split at hcall
      · next hk =>
        subst hk
        obtain rfl := Option.some.inj hcall
        have hparsed := hdone rfl
        have hout : s.parser? = some parser := by rw [parser?, hglobal, Option.bind_some, hparser]
        refine ⟨h.1.handOut hout hparsed, .inl ⟨values_nil_of_get? fun k => ?_, ?_⟩⟩
        · refine Slots.get?_remove.trans ?_
          rw [hcalls k]
          split
          · rfl
          · rfl
        · intro m hm
          obtain rfl := Option.some.inj (hm.symm.trans hglobal)
          exact ⟨parser, hparser, hparsed⟩
      · cases hcall
  · exact h

/-- **A step that disturbs no parse** keeps the cache in order. -/
theorem Orderly.step {e : ConfigEvent} (h : s.Orderly) (hquiet : s.Undisturbed e) :
    (s.step e).Orderly := by
  cases e with
  | getSSHConfigParser => exact h.getSSHConfigParser hquiet
  | fileRead => exact h.fileRead
  | resumed => exact h.resumed
  | invalidateSSHConfigCache => exact ⟨h.1, .inl ⟨hquiet, nofun⟩⟩

theorem orderly_start : Orderly {} := ⟨nofun, .inl ⟨rfl, nofun⟩⟩

/-! ### Every run -/

/-- **The shared parser is parsed**: in a run in which nobody asks for the parser, or invalidates
it, while it is being parsed, every call hands out a parser that has been parsed. -/
theorem handsOutParsed_of_undisturbed (es : List ConfigEvent)
    (h : Run.AllSteps step Undisturbed {} es) : Run.Along step HandsOutParsed {} es :=
  (Run.along_of_preserved (P := Orderly) (fun _ _ hs hquiet => hs.step hquiet) orderly_start h).mono
    fun _ hs => hs.1

/-- One call parses, and the next, a second later, finds the parser. -/
theorem handsOutParsed_of_undisturbed_again :
    Run.Along step HandsOutParsed {}
      [.getSSHConfigParser 1700000000000 1700000000000, .fileRead 0 (some "Host a"), .resumed 0,
        .getSSHConfigParser 1700000001000 1700000001000] :=
  handsOutParsed_of_undisturbed _ ⟨rfl, trivial, trivial, rfl, trivial⟩

/-- **An unparsed parser is handed out**: the second call replaces the parser that the first waits
for. And where the cache is invalidated in the meantime, there is none to hand out. -/
theorem unparsed_handed_out :
    ¬ Run.Along step HandsOutParsed {}
        [.getSSHConfigParser 1700000000000 1700000000000,
          .getSSHConfigParser 1700000000000 1700000000000, .fileRead 0 (some "Host a"),
          .resumed 0] ∧
      ¬ Run.Along step HandsOutParsed {}
        [.getSSHConfigParser 1700000000000 1700000000000, .invalidateSSHConfigCache,
          .fileRead 0 (some "Host a"), .resumed 0] := by
  constructor
  · intro h
    exact absurd (Run.along_iff_prefix.mp h _ List.prefix_rfl) (by decide +kernel)
  · intro h
    exact absurd (Run.along_iff_prefix.mp h _ List.prefix_rfl) (by decide +kernel)

end ConfigCache
end Ssh
