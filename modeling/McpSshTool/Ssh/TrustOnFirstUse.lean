import McpSshTool.Library.FirstUse
import McpSshTool.Library.Run
import McpSshTool.Ssh.HostKeyPins

/-!
# Host keys on first use

`verifyAcceptNewHostKey` over the life of a session manager: the policy `accept-new` keeps the key
that an address presents first, for this process only. Verifications under other policies, and those
of pinned keys, come in between.

* `OnFirstUse` — a verification that is made under `accept-new`;
* `presented` — the fingerprints that such verifications have presented, by address;
* `Remembers` — the invariant: what is kept is what was presented first;
* `trust_on_first_use` — along every run, a key is accepted on first use exactly if no other was
  presented first at its address; so all that are accepted at an address are one.
-/

open Library

namespace Ssh

/-- A connection hands its host key to the verifier. -/
structure Verification where
  params : HostKeyParams
  hostKey : List UInt8

/-- The host and the port of a connection. -/
def Verification.address (v : Verification) : String × ℕ := (v.params.host, v.params.port.getD 22)

/-- **A verification on first use**: no key is pinned, and the policy is `accept-new`. -/
def Verification.OnFirstUse (m : SessionManager) (v : Verification) : Prop :=
  truthy v.params.expectedHostKeySha256 = none ∧
    m.resolveHostKeyPolicy v.params.toConnectionParams = .acceptNew

instance (m : SessionManager) : DecidablePred (Verification.OnFirstUse m) :=
  fun _ => inferInstanceAs (Decidable (_ ∧ _))

/-! ### Addresses -/

/-- The name that an address has in `acceptedHostKeys`. -/
def addressName (address : String × ℕ) : String := address.1 ++ ":" ++ toString address.2

/-- No two addresses have one name: a port has no colon. -/
theorem addressName_injective : Function.Injective addressName := by
  have hdigits : ∀ n : ℕ, ∀ c ∈ (toString n).toList.reverse, decide (c ≠ ':') = true := by
    intro n c hc
    refine decide_eq_true ?_
    rintro rfl
    exact absurd (JsText.digits_of_nat n ':' (List.mem_reverse.mp hc)) (by decide)
  have hname : ∀ address, (addressName address).toList.reverse =
      (toString address.2).toList.reverse ++ ':' :: address.1.toList.reverse := by
    intro address
    simp [addressName, String.toList_append]
  -- read from its end, a name is the port up to the first colon, and the host behind it
  have hport : ∀ address, (addressName address).toList.reverse.takeWhile
    (fun c => decide (c ≠ ':')) =
      (toString address.2).toList.reverse := by
    intro address
    rw [hname, List.takeWhile_append_of_pos (hdigits _), List.takeWhile_cons_of_neg (by simp),
      List.append_nil]
  intro address address' h
  have hsame := hport address
  rw [h, hport address'] at hsame
  have hports : address'.2 = address.2 :=
    JsText.toString_nat_injective (String.toList_injective (List.reverse_injective hsame))
  have hhosts := hname address
  rw [h, hname address', hports] at hhosts
  have hhosts := (List.cons.inj (List.append_cancel_left hhosts)).2
  exact Prod.ext (String.toList_injective (List.reverse_injective hhosts.symm)) hports.symm

/-! ### A run of verifications -/

/-- A session manager's keys, and what has been verified, with the verdicts, oldest first. -/
structure HostKeyHistory where
  store : HostKeyStore
  past : List (Verification × Bool)

variable (m : SessionManager)

/-- The verdict on a key. -/
def HostKeyHistory.verdict (w : HostKeyHistory) (v : Verification) : Bool :=
  (w.store.hostVerifier m v.params (hexFingerprint w.store.hashes v.hostKey)).1

def HostKeyHistory.step (w : HostKeyHistory) (v : Verification) : HostKeyHistory where
  store := (w.store.hostVerifier m v.params (hexFingerprint w.store.hashes v.hostKey)).2
  past := w.past ++ [(v, w.verdict m v)]

/-- **What was presented on first use**: fingerprints, by address. -/
def presented (hashes : KeyHashes) (past : List (Verification × Bool)) :
    List ((String × ℕ) × String) :=
  (past.filter fun x => x.1.OnFirstUse m).map fun x => (x.1.address,
    hexFingerprint hashes x.1.hostKey)

/-- What a store keeps, by address. -/
def HostKeyStore.kept (store : HostKeyStore) (address : String × ℕ) : Option String :=
  truthy (store.acceptedHostKeys.get? (addressName address))

/-- **The invariant**: what is kept is what was presented first, and so is what was accepted. -/
structure Remembers (hashes : KeyHashes) (w : HostKeyHistory) : Prop where
  sameHashes : w.store.hashes = hashes
  kept : w.store.kept = (presented m hashes w.past).foldl FirstUse.record fun _ => none
  accepted : ∀ x ∈ w.past, x.1.OnFirstUse m → x.2 = true →
    FirstUse.first (presented m hashes w.past) x.1.address =
      some (hexFingerprint hashes x.1.hostKey)

variable {m} {hashes : KeyHashes}

theorem presented_append_of_onFirstUse {x : Verification × Bool} (hx : x.1.OnFirstUse m)
    (past : List (Verification × Bool)) :
    presented m hashes (past ++ [x]) =
      presented m hashes past ++ [(x.1.address, hexFingerprint hashes x.1.hostKey)] := by
  unfold presented
  rw [List.filter_append, List.map_append, List.filter_singleton, decide_eq_true hx]
  rfl

theorem presented_append_of_not {x : Verification × Bool} (hx : ¬x.1.OnFirstUse m)
    (past : List (Verification × Bool)) :
    presented m hashes (past ++ [x]) = presented m hashes past := by
  unfold presented
  rw [List.filter_append, List.map_append, List.filter_singleton, decide_eq_false hx]
  exact List.append_nil _

/-! ### One verification -/

theorem hostVerifier_onFirstUse {store : HostKeyStore} {v : Verification} (hv : v.OnFirstUse m)
    (hashedKey : String) :
    store.hostVerifier m v.params hashedKey =
      store.verifyAcceptNewHostKey v.address.1 v.address.2 hashedKey := by
  rw [HostKeyStore.hostVerifier, hv.1]
  dsimp only
  rw [hv.2]
  rfl

theorem hostVerifier_store {store : HostKeyStore} {v : Verification} (hv : ¬v.OnFirstUse m)
    (hashedKey : String) : (store.hostVerifier m v.params hashedKey).2 = store := by
  unfold HostKeyStore.hostVerifier
  split
  · rfl
  · next hpin =>
    cases hpolicy : m.resolveHostKeyPolicy v.params.toConnectionParams with
    | strict => rfl
    | insecure => rfl
    | acceptNew => exact absurd ⟨hpin, hpolicy⟩ hv

/-- **What the check does** with a fingerprint: it accepts it as a memory of first uses does, and
keeps it as one. -/
theorem verifyAcceptNewHostKey_spec (store : HostKeyStore) (address : String × ℕ)
    {fingerprint : String} (hplain : ∀ c ∈ fingerprint.toList, IsPlain c) (hne : fingerprint ≠ "") :
    ((store.verifyAcceptNewHostKey address.1 address.2 fingerprint).1 = true ↔
      FirstUse.Accepts store.kept address fingerprint) ∧
    (store.verifyAcceptNewHostKey address.1 address.2 fingerprint).2.kept =
      FirstUse.record store.kept (address, fingerprint) ∧
    (store.verifyAcceptNewHostKey address.1 address.2 fingerprint).2.hashes = store.hashes := by
  have hkept : truthy (store.acceptedHostKeys.get? (address.1 ++ ":" ++ toString address.2)) =
      store.kept address := rfl
  unfold HostKeyStore.verifyAcceptNewHostKey FirstUse.Accepts FirstUse.record
  rw [normalizeSha256Fingerprint_of_plain hplain]
  dsimp only
  rw [hkept]
  cases hfound : store.kept address with
  | some =>
    -- the memory is as it was
    simp only [decide_eq_true_eq, Option.some.injEq, forall_eq', true_and, Option.some_or]
    exact ⟨(Function.update_eq_self_iff.mpr hfound.symm).symm, trivial⟩
  | none =>
    refine ⟨by simp, ?_, rfl⟩
    funext other
    show truthy ((store.acceptedHostKeys.set (addressName address) fingerprint).get? _) = _
    rw [OrderedMap.get?_set, Option.none_or]
    by_cases hother : other = address
    · rw [hother, if_pos rfl, truthy_some hne, Function.update_self]
    · rw [if_neg fun hname => hother (addressName_injective hname), Function.update_of_ne hother]
      rfl

section Step

variable (hlength : ∀ key, (hashes.sha256 key).length = 32)

include hlength

theorem hexFingerprint_ne_empty (hostKey : List UInt8) : hexFingerprint hashes hostKey ≠ "" := by
  intro hempty
  exact empty_notMem_fingerprints (hlength hostKey)
    (hempty ▸ List.mem_cons_of_mem _ (List.mem_singleton_self _))

/-- **The verdict on first use.** -/
theorem verdict_iff {w : HostKeyHistory} (hw : Remembers m hashes w) {v : Verification}
    (hv : v.OnFirstUse m) :
    w.verdict m v = true ↔ FirstUse.Accepts ((presented m hashes w.past).foldl FirstUse.record
      fun _ => none) v.address (hexFingerprint hashes v.hostKey) := by
  unfold HostKeyHistory.verdict
  rw [hostVerifier_onFirstUse hv, ← hw.kept, hw.sameHashes]
  exact (verifyAcceptNewHostKey_spec w.store v.address (isPlain_toHex _)
    (hexFingerprint_ne_empty hlength v.hostKey)).1

/-- **One verification keeps the invariant.** -/
theorem remembers_step {w : HostKeyHistory} (hw : Remembers m hashes w) (v : Verification) :
    Remembers m hashes (w.step m v) := by
  by_cases hv : v.OnFirstUse m
  · have hpast : presented m hashes (w.step m v).past =
        presented m hashes w.past ++ [(v.address, hexFingerprint hashes v.hostKey)] :=
      presented_append_of_onFirstUse (x := (v, w.verdict m v)) hv w.past
    obtain ⟨-, hkept, hhashes⟩ := verifyAcceptNewHostKey_spec w.store v.address (isPlain_toHex _)
      (hexFingerprint_ne_empty hlength v.hostKey)
    have hstore : (w.step m v).store = (w.store.verifyAcceptNewHostKey v.address.1 v.address.2
        (hexFingerprint hashes v.hostKey)).2 := by
      rw [← hostVerifier_onFirstUse hv, ← hw.sameHashes]
      rfl
    refine ⟨?_, ?_, fun x hx hxFirst hxAccepted => ?_⟩
    · rw [hstore]
      exact hhashes.trans hw.sameHashes
    · rw [hstore, hpast, List.foldl_append, ← hw.kept]
      exact hkept
    · rw [hpast]
      rcases List.mem_append.mp hx with hx | hx
      · rw [FirstUse.first_append, hw.accepted x hx hxFirst hxAccepted]
        rfl
      · obtain rfl := List.mem_singleton.mp hx
        exact FirstUse.first_of_accepts ((verdict_iff hlength hw hv).mp hxAccepted)
  · have hpast : presented m hashes (w.step m v).past = presented m hashes w.past :=
      presented_append_of_not (x := (v, w.verdict m v)) hv w.past
    have hstore : (w.step m v).store = w.store := hostVerifier_store hv _
    refine ⟨by rw [hstore]; exact hw.sameHashes, by rw [hstore, hpast]; exact hw.kept, ?_⟩
    intro x hx hxFirst hxAccepted
    rw [hpast]
    rcases List.mem_append.mp hx with hx | hx
    · exact hw.accepted x hx hxFirst hxAccepted
    · obtain rfl := List.mem_singleton.mp hx
      exact absurd hxFirst hv

end Step

/-! ### Every run -/

/-- **Trust on first use.** Along every run of verifications by one session manager, whose store has
accepted nothing before, a key is accepted on first use exactly if no other fingerprint was the
first to be presented, on first use, at its address. So all keys that are accepted on first use at
an address have one fingerprint. -/
theorem trust_on_first_use (m : SessionManager) (store : HostKeyStore)
    (hlength : ∀ key, (store.hashes.sha256 key).length = 32)
    (hempty : store.acceptedHostKeys = .empty)
    (vs : List Verification) :
    Run.AllSteps (HostKeyHistory.step m) (fun w v => v.OnFirstUse m →
        (w.verdict m v = true ↔ ∀ fingerprint,
          FirstUse.first (presented m store.hashes w.past) v.address = some fingerprint →
            fingerprint = hexFingerprint store.hashes v.hostKey)) ⟨store, []⟩ vs ∧
      ∀ x ∈ (Run.run (HostKeyHistory.step m) ⟨store, []⟩ vs).past,
        ∀ y ∈ (Run.run (HostKeyHistory.step m) ⟨store, []⟩ vs).past,
          x.1.OnFirstUse m → y.1.OnFirstUse m → x.2 = true → y.2 = true →
            x.1.address = y.1.address →
              hexFingerprint store.hashes x.1.hostKey = hexFingerprint store.hashes
                y.1.hostKey := by
  have hstart : Remembers m store.hashes ⟨store, []⟩ := by
    refine ⟨rfl, ?_, fun x hx => by cases hx⟩
    funext address
    show truthy (store.acceptedHostKeys.get? _) = _
    rw [hempty]
    rfl
  have halong : Run.Along (HostKeyHistory.step m) (Remembers m store.hashes) ⟨store, []⟩ vs :=
    Run.along_of_preserved (C := fun _ _ => True)
      (fun _ v hw _ => remembers_step hlength hw v) hstart
      (Run.allSteps_of_forall (fun _ _ => trivial) _ _)
  constructor
  · refine Run.AllSteps.of_along (C := fun _ _ => True) ?_ halong
      (Run.allSteps_of_forall (fun _ _ => trivial) _ _)
    intro w v hw _ hv
    exact (verdict_iff hlength hw hv).trans (FirstUse.accepts_run_iff _ _ _)
  · have hw := Run.along_iff_prefix.mp halong vs List.prefix_rfl
    intro x hx y hy hxFirst hyFirst hxAccepted hyAccepted haddress
    have hxKept := hw.accepted x hx hxFirst hxAccepted
    have hyKept := hw.accepted y hy hyFirst hyAccepted
    rw [haddress, hyKept] at hxKept
    exact (Option.some.inj hxKept).symm

/-- The digests of two keys of one byte. -/
def twoDigests : KeyHashes where
  fromBase64 := sampleHashes.fromBase64
  sha256 bytes :=
    if bytes = [0x42] then
      [0xdf, 0x7e, 0x70, 0xe5, 0x02, 0x15, 0x44, 0xf4, 0x83, 0x4b, 0xbe, 0xe6, 0x4a, 0x9e, 0x37,
        0x89, 0xfe, 0xbc, 0x4b, 0xe8, 0x14, 0x70, 0xdf, 0x62, 0x9c, 0xad, 0x6d, 0xdb, 0x03, 0x32,
        0x0a, 0x5c]
    else if bytes = [0x41] then sampleHashes.sha256 [0x41]
    else List.replicate 32 0
  hmacSha1 := sampleHashes.hmacSha1

/-- A host presents a key on first use. -/
def presents (hostKey : List UInt8) : Verification where
  params := { host := "h", username := "u", hostKeyPolicy := some .acceptNew }
  hostKey := hostKey

/-- A host presents a key twice, and another one in between. -/
theorem trust_on_first_use_twice :
    let w := Run.run (HostKeyHistory.step {}) ⟨{ samplePins with hashes := twoDigests }, []⟩
      [presents [0x41], presents [0x42], presents [0x41]]
    w.past.map Prod.snd = [true, false, true] ∧
      ∀ x ∈ w.past, ∀ y ∈ w.past, x.1.OnFirstUse {} → y.1.OnFirstUse {} → x.2 = true → y.2 = true →
        x.1.address = y.1.address →
          hexFingerprint twoDigests x.1.hostKey = hexFingerprint twoDigests y.1.hostKey := by
  refine ⟨by decide +kernel, ?_⟩
  have hlength : ∀ key, (twoDigests.sha256 key).length = 32 := by
    intro key
    unfold twoDigests
    dsimp only
    split
    · rfl
    · split
      · rfl
      · exact List.length_replicate
  exact (trust_on_first_use {} { samplePins with hashes := twoDigests } hlength rfl
    [presents [0x41], presents [0x42], presents [0x41]]).2

end Ssh
