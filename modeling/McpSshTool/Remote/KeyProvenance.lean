import McpSshTool.Remote.HelloReplay
import McpSshTool.Remote.Keys

/-!
# Where agent keys come from

Every public key that the control plane holds of an agent, followed along a run, for any order of
requests, messages, timers and closing sockets:

* `KeyHistory` — a process together with the steps it has taken and the keys that were installed;
* `Sound` — the invariant, with `keyStep_step` for what it needs of a step and `sound_step` for the
  step that keeps it;
* `keys_from_tokens` — a key that is known was there at the start, or was presented with a token for
  that very agent, unused until then, that the administrator whose agent it is had asked for;
* `hellos_from_tokens` — so every hello that is accepted is signed with such a key.
-/

open Library

namespace Remote
namespace RemoteControlPlane

variable (d : Deployment)

/-! ### Histories -/

/-- **A process together with its history**: the steps it has taken and the keys they installed. -/
structure KeyHistory where
  process : RemoteControlPlane
  past : List Step
  installed : List Installation

namespace KeyHistory

def start (store : RemoteStore) : KeyHistory where
  process := .start store
  past := []
  installed := []

def step (w : KeyHistory) (e : Step) : KeyHistory where
  process := w.process.step d e
  past := w.past ++ [e]
  installed := w.installed ++ (installation d w.process e).toList

end KeyHistory

/-- **Each token is kept by its hash** and is about an agent of its user. -/
def TokensKept (store : RemoteStore) : Prop :=
  ∀ tokenHash token, store.getEnrollmentTokenByHash tokenHash = some token →
    token.tokenHash = tokenHash ∧
      ∃ agent, store.getAgent token.agentId = some agent ∧ agent.userId = token.userId

/-- **A token was asked for** in a past step, by a principal of the token's user who administers
agents; the agent and the secret are the ones that step drew. -/
def AskedFor (past : List Step) (token : AgentEnrollmentTokenRecord) : Prop :=
  ∃ e ∈ past, ∃ principal args, enrollmentRequest e = some (principal, args) ∧
    hasCapability principal.capabilities .agentsAdmin = true ∧ principal.userId = token.userId ∧
    token.agentId = freshId e.moment "agt" ∧ token.tokenHash = hashSecret d.platform e.moment.token

/-- A token is one of the store at the start, up to its use, or was asked for since. -/
def TokenFrom (store : RemoteStore) (past : List Step) (token : AgentEnrollmentTokenRecord) :
    Prop :=
  (∃ old usedAt, store.getEnrollmentTokenByHash token.tokenHash = some old ∧
    token = { old with usedAt := usedAt }) ∨ AskedFor d past token

/-- **The invariant**: where every key comes from. -/
structure Sound (store : RemoteStore) (w : KeyHistory) : Prop where
  /-- Tokens are kept by their hashes and are about agents of their users. -/
  kept : TokensKept w.process.store
  /-- A token is there from the start, or an administrator has asked for it. -/
  tokens : ∀ tokenHash token, w.process.store.getEnrollmentTokenByHash tokenHash = some token →
    TokenFrom d store w.past token
  /-- Whatever was installed was a valid key, for a token that was unused and whose time was not
  over; the token is marked as used since. -/
  installed : ∀ i ∈ w.installed, d.platform.isValidEd25519PublicKey i.publicKey = true ∧
    i.token.usedAt = none ∧ i.installedAt ≤ d.platform.getTime i.token.expiresAt ∧
    TokenFrom d store w.past i.token ∧
    ∃ usedAt, w.process.store.getEnrollmentTokenByHash i.token.tokenHash =
      some { i.token with usedAt := some usedAt }
  /-- No token is used twice. -/
  once : (w.installed.map fun i => i.token.tokenHash).Nodup
  /-- A key that is known was there at the start, or was installed for the agent. -/
  known : ∀ a key, w.process.Knows a key →
    (∃ agent, store.getAgent a = some agent ∧ agent.publicKey = some key) ∨
      ∃ i ∈ w.installed, i.token.agentId = a ∧ i.publicKey = key

section Invariant

variable {d} {store : RemoteStore}

theorem AskedFor.later {past : List Step} {token : AgentEnrollmentTokenRecord}
    (h : AskedFor d past token) (e : Step) : AskedFor d (past ++ [e]) token := by
  obtain ⟨e', he', hrest⟩ := h
  exact ⟨e', List.mem_append_left _ he', hrest⟩

theorem TokenFrom.later {past : List Step} {token : AgentEnrollmentTokenRecord}
    (h : TokenFrom d store past token) (e : Step) : TokenFrom d store (past ++ [e]) token :=
  h.imp_right fun h => h.later e

theorem TokenFrom.used {past : List Step} {token : AgentEnrollmentTokenRecord}
    (h : TokenFrom d store past token) (usedAt : Option String) :
    TokenFrom d store past { token with usedAt := usedAt } := by
  rcases h with ⟨old, before, hold, rfl⟩ | ⟨e, he, hrest⟩
  · exact .inl ⟨old, usedAt, hold, rfl⟩
  · exact .inr ⟨e, he, hrest⟩

theorem sound_start (hkept : TokensKept store) : Sound d store (KeyHistory.start store) where
  kept := hkept
  tokens tokenHash token htoken := by
    obtain rfl := (hkept tokenHash token htoken).1
    exact .inl ⟨token, token.usedAt, htoken, rfl⟩
  installed i hi := absurd hi List.not_mem_nil
  once := List.nodup_nil
  known a key hknows := by
    rcases hknows with hstored | ⟨n, principal, agent, hget, -⟩ | ⟨live, hget, -⟩
    · exact .inl hstored
    · cases hget
    · cases hget

variable (d) in
/-- **What the invariant needs of a step**, whichever of the three effects it has. -/
structure KeyStep (s : RemoteControlPlane) (e : Step) (s' : RemoteControlPlane) : Prop where
  /-- A token is an old one, up to its use, or is added for an agent of its user. -/
  rows : ∀ tokenHash token, s'.store.getEnrollmentTokenByHash tokenHash = some token →
    (∃ old usedAt, s.store.getEnrollmentTokenByHash tokenHash = some old ∧
      token = { old with usedAt := usedAt }) ∨
    (token.tokenHash = tokenHash ∧ s'.OwnedBy token.agentId token.userId ∧ AskedFor d [e] token)
  /-- A token that is used stays as it is. -/
  used : ∀ tokenHash token, s.store.getEnrollmentTokenByHash tokenHash = some token →
    token.usedAt ≠ none → s'.store.getEnrollmentTokenByHash tokenHash = some token
  /-- What is installed uses up a token. -/
  installs : ∀ i, installation d s e = some i →
    d.platform.isValidEd25519PublicKey i.publicKey = true ∧ i.token.usedAt = none ∧
      i.installedAt ≤ d.platform.getTime i.token.expiresAt ∧
      s.store.getEnrollmentTokenByHash i.token.tokenHash = some i.token ∧
      ∃ usedAt, s'.store.getEnrollmentTokenByHash i.token.tokenHash =
        some { i.token with usedAt := some usedAt }
  keys : ∀ a key, s'.Knows a key →
    s.Knows a key ∨ ∃ i, installation d s e = some i ∧ i.token.agentId = a ∧ i.publicKey = key

theorem keyStep_step {s : RemoteControlPlane} (hkept : TokensKept s.store) (e : Step) :
    KeyStep d s e (s.step d e) := by
  cases step_keys d s e with
  | quiet h hnone =>
    have hget : ∀ tokenHash, (s.step d e).store.getEnrollmentTokenByHash tokenHash =
        s.store.getEnrollmentTokenByHash tokenHash :=
      fun tokenHash => congrArg (fun tokens => tokens.get? tokenHash) h.tokens
    refine ⟨fun tokenHash token htoken => ?_, fun tokenHash token htoken _ => ?_,
      fun i hsome => ?_, fun a key hknows => .inl (h.keys a key hknows)⟩
    · rw [hget] at htoken
      exact .inl ⟨token, token.usedAt, htoken, rfl⟩
    · rw [hget]
      exact htoken
    · rw [hnone] at hsome
      cases hsome
  | issued principal args expiresAt hrequest hcapability hfree hkeys htokens hagent hnone =>
    have hget : ∀ tokenHash, (s.step d e).store.getEnrollmentTokenByHash tokenHash =
        if tokenHash = hashSecret d.platform e.moment.token then
          some (enrollmentToken d e.moment principal expiresAt)
        else s.store.getEnrollmentTokenByHash tokenHash := by
      intro tokenHash
      rw [RemoteStore.getEnrollmentTokenByHash, htokens]
      exact OrderedMap.get?_set _ _ _ _
    refine ⟨fun tokenHash token htoken => ?_, fun tokenHash token htoken _ => ?_,
      fun i hsome => ?_, fun a key hknows => .inl (hkeys a key hknows)⟩
    · rw [hget] at htoken
      split at htoken
      · next hhash =>
        obtain rfl := Option.some.inj htoken
        exact .inr ⟨hhash.symm, hagent, e, List.mem_singleton_self e, principal, args, hrequest,
          hcapability, rfl, rfl, rfl⟩
      · exact .inl ⟨token, token.usedAt, htoken, rfl⟩
    · -- the hash of the new token was free
      have hne : tokenHash ≠ hashSecret d.platform e.moment.token := by
        rintro rfl
        exact absurd (htoken.symm.trans hfree) (by simp)
      rw [hget, if_neg hne]
      exact htoken
    · rw [hnone] at hsome
      cases hsome
  | installed tokenHash usedAt i hsome htoken hunused htime hvalid hkeys htokens =>
    -- the token was found under its own hash, so that is the row that is marked
    obtain rfl : i.token.tokenHash = tokenHash := (hkept _ _ htoken).1
    obtain ⟨row, hrow, htokens⟩ := htokens
    obtain rfl : i.token = row := Option.some.inj (htoken.symm.trans hrow)
    have hget : ∀ tokenHash, (s.step d e).store.getEnrollmentTokenByHash tokenHash =
        if tokenHash = i.token.tokenHash then some { i.token with usedAt := some usedAt }
        else s.store.getEnrollmentTokenByHash tokenHash := by
      intro tokenHash
      rw [RemoteStore.getEnrollmentTokenByHash, htokens]
      exact OrderedMap.get?_set _ _ _ _
    refine ⟨fun tokenHash token hfound => ?_, fun tokenHash token hfound hused => ?_,
      fun i' hsome' => ?_, fun a key hknows => ?_⟩
    · rw [hget] at hfound
      left
      split at hfound
      · next hhash =>
        obtain rfl := Option.some.inj hfound
        exact ⟨i.token, some usedAt, by rw [hhash]; exact htoken, rfl⟩
      · exact ⟨token, token.usedAt, hfound, rfl⟩
    · have hne : tokenHash ≠ i.token.tokenHash := by
        rintro rfl
        obtain rfl := Option.some.inj (htoken.symm.trans hfound)
        exact hused hunused
      rw [hget, if_neg hne]
      exact hfound
    · obtain rfl := Option.some.inj (hsome.symm.trans hsome')
      exact ⟨hvalid, hunused, htime, htoken, usedAt, (hget _).trans (if_pos rfl)⟩
    · rcases hkeys a key hknows with hbefore | ⟨rfl, rfl⟩
      · exact .inl hbefore
      · exact .inr ⟨i, hsome, rfl, rfl⟩

/-- **One step keeps the invariant.** -/
theorem sound_step {w : KeyHistory} (hw : Sound d store w) (e : Step) :
    Sound d store (w.step d e) := by
  have hstep := keyStep_step (d := d) hw.kept e
  have hmem : ∀ i, i ∈ (w.step d e).installed ↔
      i ∈ w.installed ∨ installation d w.process e = some i := by
    intro i
    show i ∈ w.installed ++ _ ↔ _
    rw [List.mem_append, Option.mem_toList]
  refine ⟨fun tokenHash token htoken => ?_, fun tokenHash token htoken => ?_, fun i hi => ?_, ?_,
    fun a key hknows => ?_⟩
  · rcases hstep.rows tokenHash token htoken with ⟨old, usedAt, hold, rfl⟩ | ⟨hhash, howned, -⟩
    · obtain ⟨hhash, agent, hagent, huser⟩ := hw.kept tokenHash old hold
      obtain ⟨agent', hagent', huser'⟩ := keepsUsers_step d w.process e _ _ hagent
      exact ⟨hhash, agent', hagent', huser'.trans huser⟩
    · exact ⟨hhash, howned⟩
  · rcases hstep.rows tokenHash token htoken with ⟨old, usedAt, hold, rfl⟩ | ⟨-, -, e', he', hasked⟩
    · exact ((hw.tokens tokenHash old hold).used usedAt).later e
    · exact .inr ⟨e', List.mem_append_right _ he', hasked⟩
  · rcases (hmem i).mp hi with hi | hnew
    · obtain ⟨hvalid, hunused, htime, hfrom, usedAt, hused⟩ := hw.installed i hi
      exact ⟨hvalid, hunused, htime, hfrom.later e, usedAt,
        hstep.used _ _ hused (Option.some_ne_none usedAt)⟩
    · obtain ⟨hvalid, hunused, htime, htoken, hused⟩ := hstep.installs i hnew
      exact ⟨hvalid, hunused, htime, (hw.tokens _ _ htoken).later e, hused⟩
  · show ((w.installed ++ (installation d w.process e).toList).map
      fun i => i.token.tokenHash).Nodup
    cases hnew : installation d w.process e with
    | none => simpa using hw.once
    | some i =>
      rw [Option.toList_some, List.map_append, List.map_singleton, List.nodup_append]
      refine ⟨hw.once, List.nodup_singleton _, ?_⟩
      -- an earlier installation has left its token used
      rintro tokenHash hbefore _ hi rfl
      obtain ⟨i', hi', hhash⟩ := List.mem_map.mp hbefore
      obtain ⟨-, -, -, -, usedAt, hused⟩ := hw.installed i' hi'
      obtain ⟨-, hunused, -, htoken, -⟩ := hstep.installs i hnew
      rw [hhash, List.mem_singleton.mp hi, htoken] at hused
      obtain hsame := Option.some.inj hused
      rw [hsame] at hunused
      cases hunused
  · rcases hstep.keys a key hknows with hbefore | ⟨i, hnew, hagent, hkey⟩
    · refine (hw.known a key hbefore).imp_right ?_
      rintro ⟨i, hi, hrest⟩
      exact ⟨i, (hmem i).mpr (.inl hi), hrest⟩
    · exact .inr ⟨i, (hmem i).mpr (.inr hnew), hagent, hkey⟩

end Invariant

/-! ### Every run -/

variable {d} {store : RemoteStore}

theorem sound_along (hkept : TokensKept store) (es : List Step) :
    Run.Along (KeyHistory.step d) (Sound d store) (KeyHistory.start store) es :=
  Run.along_of_preserved (C := fun _ _ => True) (fun _ _ hw _ => sound_step hw _)
    (sound_start hkept) (Run.allSteps_of_forall (fun _ _ => trivial) _ _)

/-- **Agent keys come from enrollment tokens.** After every run, from any store whose tokens are
kept by their hashes and belong to their agents' users:

* a key that the control plane holds of an agent, or will write back, was there at the start or was
  installed for that agent;
* whatever was installed is a valid key, and came with a token that was unused until then and whose
  time was not over; the token was there at the start, or an administrator has asked for it, who is
  the user of its agent;
* no token is used twice. -/
theorem keys_from_tokens (d : Deployment) (store : RemoteStore) (hkept : TokensKept store)
    (es : List Step) :
    let w := Run.run (KeyHistory.step d) (KeyHistory.start store) es
    (∀ a key, w.process.Knows a key →
      (∃ agent, store.getAgent a = some agent ∧ agent.publicKey = some key) ∨
        ∃ i ∈ w.installed, i.token.agentId = a ∧ i.publicKey = key) ∧
      (∀ i ∈ w.installed, d.platform.isValidEd25519PublicKey i.publicKey = true ∧
        i.token.usedAt = none ∧ i.installedAt ≤ d.platform.getTime i.token.expiresAt ∧
        TokenFrom d store w.past i.token ∧ w.process.OwnedBy i.token.agentId i.token.userId) ∧
      (w.installed.map fun i => i.token.tokenHash).Nodup := by
  have hsound := Run.along_iff_prefix.mp (sound_along (d := d) hkept es) es List.prefix_rfl
  refine ⟨hsound.known, fun i hi => ?_, hsound.once⟩
  obtain ⟨hvalid, hunused, htime, hfrom, usedAt, hused⟩ := hsound.installed i hi
  exact ⟨hvalid, hunused, htime, hfrom, (hsound.kept _ _ hused).2⟩

/-- An owner asks for a token; a host enrolls with it and connects. -/
def enrollingSteps : List Step :=
  [⟨.createEnrollmentToken sampleOwner webArguments, sampleMoment 1⟩,
    ⟨.enroll (.obj [("token", .str "0123456789abcdef"), ("public_key", .str "agent"),
      ("host", .obj [("hostname", .str "h"), ("os", .str "linux"), ("arch", .str "x64"),
        ("platform", .str "linux")])]), sampleMoment 1⟩,
    ⟨.connect 0, sampleMoment 2⟩]

theorem tokensKept_empty : TokensKept RemoteStore.empty := by
  intro tokenHash token htoken
  cases htoken

/-- The key of that host is known, and every key that is known was installed. -/
theorem keys_from_tokens_enrolling :
    let w := Run.run (KeyHistory.step sampleDeployment) (KeyHistory.start RemoteStore.empty)
      enrollingSteps
    (w.installed.map fun i => (i.token.agentId, i.publicKey)) = [("agt_1", "agent")] ∧
      ∀ a key, w.process.Knows a key → ∃ i ∈ w.installed, i.token.agentId = a ∧
        i.publicKey = key := by
  refine ⟨by decide +kernel, fun a key hknows => ?_⟩
  have h := keys_from_tokens sampleDeployment RemoteStore.empty tokensKept_empty enrollingSteps
  refine (h.1 a key hknows).resolve_left ?_
  rintro ⟨agent, hagent, -⟩
  cases hagent

/-- **Who says hello.** Along every run, a hello that is accepted carries a signature that verifies
under a key of its agent which was there at the start, or which came with a token for that agent. -/
theorem hellos_from_tokens (d : Deployment) (store : RemoteStore) (hkept : TokensKept store)
    (es : List Step) :
    Run.AllSteps (KeyHistory.step d) (fun w e => ∀ hello, acceptedHello d w.process e = some hello →
      ∃ key, verifyEnvelope d.platform hello.toFields key = true ∧
        ((∃ agent, store.getAgent hello.agent_id = some agent ∧ agent.publicKey = some key) ∨
          ∃ i ∈ w.installed, i.token.agentId = hello.agent_id ∧ i.publicKey = key ∧
            TokenFrom d store w.past i.token)) (KeyHistory.start store) es := by
  refine Run.AllSteps.of_along (C := fun _ _ => True) (fun w e hw _ hello haccepted => ?_)
    (sound_along (d := d) hkept es) (Run.allSteps_of_forall (fun _ _ => trivial) _ _)
  obtain ⟨c, -, -, ⟨agent, key, hagent, hkey, -, hverified, -⟩, -⟩ :=
    (acceptedHello_eq_some d).mp haccepted
  refine ⟨key, hverified, ?_⟩
  rcases hw.known hello.agent_id key (.inl ⟨agent, hagent, hkey⟩) with h | ⟨i, hi, hid, hpublicKey⟩
  · exact .inl h
  · exact .inr ⟨i, hi, hid, hpublicKey, (hw.installed i hi).2.2.2.1⟩

/-- That host says hello, and has the key of its token. -/
theorem hellos_from_tokens_enrolling :
    let w := Run.run (KeyHistory.step sampleDeployment) (KeyHistory.start RemoteStore.empty)
      enrollingSteps
    acceptedHello sampleDeployment w.process
        ⟨.message 0 (some (.obj sampleHello.toFields)), sampleMoment 2⟩ = some sampleHello ∧
      ∃ i ∈ w.installed, i.token.agentId = "agt_1" ∧
        verifyEnvelope samplePlatform sampleHello.toFields i.publicKey = true := by
  have haccepted : acceptedHello sampleDeployment
      (Run.run (KeyHistory.step sampleDeployment) (KeyHistory.start RemoteStore.empty)
        enrollingSteps).process
      ⟨.message 0 (some (.obj sampleHello.toFields)), sampleMoment 2⟩ = some sampleHello := by
    decide +kernel
  have hsteps := hellos_from_tokens sampleDeployment RemoteStore.empty tokensKept_empty
    (enrollingSteps ++ [⟨.message 0 (some (.obj sampleHello.toFields)), sampleMoment 2⟩])
  obtain ⟨key, hverified, hkey⟩ := (Run.allSteps_append.mp hsteps).2.1 sampleHello haccepted
  refine ⟨haccepted, ?_⟩
  rcases hkey with ⟨agent, hagent, -⟩ | ⟨i, hi, hid, rfl, -⟩
  · cases hagent
  · exact ⟨i, hi, hid, hverified⟩

end RemoteControlPlane
end Remote
