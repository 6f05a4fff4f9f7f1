import Mathlib.Data.List.GetD
import Mathlib.Data.List.TakeWhile
import McpSshTool.Ssh.KnownHosts
import McpSshTool.Ssh.SessionManager

/-!
# Pinned host keys

`session.ts`: the verifier of host keys that `openSession` gives to a connection. It is made for a
pinned fingerprint, or for a host key policy where no fingerprint is pinned.

* `hostVerifier` — the verifier, on the digest that the connection hands to it;
* `Denotes` — what it is for a text to denote a digest, in one of the two notations of a
  fingerprint;
* `pinned_key_accepted_iff` — when a pin accepts the keys that it denotes, and no others.
-/

open Library

namespace Ssh

/-! ### The verifier -/

/-- What `openSession` reads of `ConnectionParams` with a view to the host key. -/
structure HostKeyParams extends ConnectionParams where
  knownHostsPath : Option String := none
  expectedHostKeySha256 : Option String := none

/-- What a session manager has for the check of host keys, beside its policy. -/
structure HostKeyStore where
  hashes : KeyHashes
  /-- The files that can be read. -/
  files : String → Option String
  knownHostsPath : String
  acceptedHostKeys : OrderedMap String String := .empty

namespace HostKeyStore

variable (store : HostKeyStore)

/-- `verifyAcceptNewHostKey`, with what has been accepted afterwards. -/
def verifyAcceptNewHostKey (host : String) (port : ℕ) (hashedKey : String) : Bool × HostKeyStore :=
  let key := host ++ ":" ++ toString port
  let normalized := normalizeSha256Fingerprint hashedKey
  match truthy (store.acceptedHostKeys.get? key) with
  | none => (true, { store with acceptedHostKeys := store.acceptedHostKeys.set key normalized })
  | some accepted => (accepted = normalized, store)

/-- The verifier that a host key policy stands for. -/
def policyVerifier (hostKeyPolicy : HostKeyPolicy) (params : HostKeyParams) (hashedKey : String) :
    Bool × HostKeyStore :=
  match hostKeyPolicy with
  | .insecure => (true, store)
  | .acceptNew => store.verifyAcceptNewHostKey params.host (params.port.getD 22) hashedKey
  | .strict =>
    (verifyKnownHostKey store.hashes store.files params.host (params.port.getD 22)
      (params.knownHostsPath.getD store.knownHostsPath) hashedKey, store)

/-- **The `hostVerifier` of `openSession`.** An empty pin is none. -/
def hostVerifier (m : SessionManager) (params : HostKeyParams) (hashedKey : String) :
    Bool × HostKeyStore :=
  match truthy params.expectedHostKeySha256 with
  | some pin => (normalizeSha256Fingerprint hashedKey = normalizeSha256Fingerprint pin, store)
  | none => store.policyVerifier (m.resolveHostKeyPolicy params.toConnectionParams) params hashedKey

end HostKeyStore

/-! ### Fingerprints of keys -/

/-- The digest of a key in base64, without padding. -/
def base64Fingerprint (hashes : KeyHashes) (hostKey : List UInt8) : String :=
  stripPadding (Buffer.toBase64 (hashes.sha256 hostKey))

/-- The digest of a key in hexadecimal, as the connection hands it to a verifier. -/
def hexFingerprint (hashes : KeyHashes) (hostKey : List UInt8) : String :=
  Buffer.toHex (hashes.sha256 hostKey)

/-- **The text denotes the key**: it is one of the two notations of its digest, behind the tag or
without it. White space does not matter, and neither does the case of the tag. -/
def Denotes (hashes : KeyHashes) (hostKey : List UInt8) (value : String) : Prop :=
  ∃ body : List Char,
    (value.toList = body ∨ ∃ tag, tag.map Char.toUpper = "SHA256:".toList ∧
      value.toList = tag ++ body) ∧
      JsText.trim (String.ofList body) ∈ [base64Fingerprint hashes hostKey,
        hexFingerprint hashes hostKey]

/-! ### Characters of fingerprints -/

/-- A character that is neither the end of a tag nor white space. -/
def IsPlain (c : Char) : Prop := c ≠ ':' ∧ JsText.isSpace c = false

instance : DecidablePred IsPlain := fun c => inferInstanceAs (Decidable (c ≠ ':' ∧ _))

theorem isPlain_hexDigit {n : ℕ} (h : n < 16) : IsPlain (JsText.hexDigit n) := by
  have hall : ∀ n < 16, IsPlain (JsText.hexDigit n) := by decide
  exact hall n h

theorem exists_base64Digit (n : ℕ) : ∃ k < 64, Buffer.base64Digit n = Buffer.base64Digit k := by
  by_cases hn : n < 64
  · exact ⟨n, hn, rfl⟩
  · exact ⟨0, by decide, List.getD_eq_default _ _ (Nat.le_of_not_lt hn)⟩

theorem isPlain_base64Digit (n : ℕ) : IsPlain (Buffer.base64Digit n) := by
  have hall : ∀ k < 64, IsPlain (Buffer.base64Digit k) := by decide +kernel
  obtain ⟨k, hk, heq⟩ := exists_base64Digit n
  exact heq ▸ hall k hk

theorem base64Digit_ne_padding (n : ℕ) : Buffer.base64Digit n ≠ '=' := by
  have hall : ∀ k < 64, Buffer.base64Digit k ≠ '=' := by decide +kernel
  obtain ⟨k, hk, heq⟩ := exists_base64Digit n
  exact heq ▸ hall k hk

theorem isPlain_toHex (bytes : List UInt8) : ∀ c ∈ (Buffer.toHex bytes).toList, IsPlain c := by
  intro c hc
  rw [Buffer.toHex, String.toList_ofList, List.mem_flatMap] at hc
  obtain ⟨b, -, hc⟩ := hc
  have hbyte := b.toNat_lt
  rw [List.mem_pair] at hc
  obtain rfl | rfl := hc
  · exact isPlain_hexDigit (by omega)
  · exact isPlain_hexDigit (by omega)

theorem isPlain_base64Chars (bytes : List UInt8) : ∀ c ∈ Buffer.base64Chars bytes, IsPlain c := by
  fun_induction Buffer.base64Chars bytes with
  | case1 a b c rest n ih =>
    refine List.forall_mem_append.mpr ⟨?_, ih⟩
    simp only [List.forall_mem_cons]
    exact ⟨isPlain_base64Digit _, isPlain_base64Digit _, isPlain_base64Digit _,
      isPlain_base64Digit _,
      fun _ h => absurd h List.not_mem_nil⟩
  | case2 a b n =>
    simp only [List.forall_mem_cons]
    exact ⟨isPlain_base64Digit _, isPlain_base64Digit _, isPlain_base64Digit _, by decide,
      fun _ h => absurd h List.not_mem_nil⟩
  | case3 a =>
    simp only [List.forall_mem_cons]
    exact ⟨isPlain_base64Digit _, isPlain_base64Digit _, by decide, by decide,
      fun _ h => absurd h List.not_mem_nil⟩
  | case4 => exact fun _ h => absurd h List.not_mem_nil

theorem isPlain_stripPadding {text : String} (h : ∀ c ∈ text.toList, IsPlain c) :
    ∀ c ∈ (stripPadding text).toList, IsPlain c := by
  intro c hc
  rw [stripPadding, String.toList_ofList, List.mem_reverse] at hc
  exact h c (List.mem_reverse.mp (List.dropWhile_subset _ hc))

theorem isPlain_fingerprint {hashes : KeyHashes} {hostKey : List UInt8} {fingerprint : String}
    (h : fingerprint ∈ [base64Fingerprint hashes hostKey, hexFingerprint hashes hostKey]) :
    ∀ c ∈ fingerprint.toList, IsPlain c := by
  rw [List.mem_pair] at h
  obtain rfl | rfl := h
  · refine isPlain_stripPadding ?_
    rw [Buffer.toBase64, String.toList_ofList]
    exact isPlain_base64Chars _
  · exact isPlain_toHex _

theorem eq_colon_of_toUpper {c : Char} (h : c.toUpper = ':') : c = ':' := by
  unfold Char.toUpper at h
  split at h
  · next hlower =>
    have hval := congrArg (fun c : Char => c.val.toNat) h
    obtain ⟨hlow, hhigh⟩ := hlower
    rw [UInt32.le_iff_toNat_le] at hlow hhigh
    simp at hval hlow hhigh
    omega
  · exact h

/-! ### Normalised fingerprints -/

theorem mem_dropWhile {p : Char → Bool} {c : Char} {cs : List Char} (hc : p c = false)
    (hmem : c ∈ cs) :
    c ∈ cs.dropWhile p := by
  rw [← List.takeWhile_append_dropWhile (p := p) (l := cs)] at hmem
  refine (List.mem_append.mp hmem).resolve_left fun h => ?_
  rw [List.mem_takeWhile_imp h] at hc
  cases hc

theorem mem_trim {c : Char} {text : String} (hc : JsText.isSpace c = false)
    (hmem : c ∈ text.toList) :
    c ∈ (JsText.trim text).toList := by
  rw [JsText.trim, String.toList_ofList, List.mem_reverse]
  exact mem_dropWhile hc (List.mem_reverse.mpr (mem_dropWhile hc hmem))

theorem mem_stripPadding {c : Char} {text : String} (hc : c ≠ '=') (hmem : c ∈ text.toList) :
    c ∈ (stripPadding text).toList := by
  rw [stripPadding, String.toList_ofList, List.mem_reverse]
  exact mem_dropWhile (decide_eq_false hc) (List.mem_reverse.mpr hmem)

theorem colon_of_tag {cs : List Char} (h : cs.map Char.toUpper = "SHA256:".toList) : ':' ∈ cs := by
  have hmem : ':' ∈ cs.map Char.toUpper := by
    rw [h]
    decide
  obtain ⟨c, hc, hupper⟩ := List.mem_map.mp hmem
  exact eq_colon_of_toUpper hupper ▸ hc

theorem normalizeSha256Fingerprint_of_plain {text : String} (h : ∀ c ∈ text.toList, IsPlain c) :
    normalizeSha256Fingerprint text = text := by
  have hspace : ∀ c ∈ text.toList, JsText.isSpace c = false := fun c hc => (h c hc).2
  unfold normalizeSha256Fingerprint
  dsimp only
  rw [if_neg fun htag => (h ':' (List.mem_of_mem_take (colon_of_tag htag))).1 rfl]
  exact JsText.trim_eq_self (fun c hc => hspace c (List.mem_of_mem_head? hc))
    fun c hc => hspace c (List.mem_of_mem_getLast? hc)

/-- **Denoting a key** is having one of its notations for a normal form. -/
theorem denotes_iff {hashes : KeyHashes} {hostKey : List UInt8} {value : String} :
    Denotes hashes hostKey value ↔ normalizeSha256Fingerprint value ∈
      [base64Fingerprint hashes hostKey, hexFingerprint hashes hostKey] := by
  unfold normalizeSha256Fingerprint
  dsimp only
  constructor
  · rintro ⟨body, hbody | ⟨tag, htag, hvalue⟩, hmem⟩
    · rw [← hbody, String.ofList_toList] at hmem
      split
      · next htag =>
        -- a tag that is not taken off stays in the text
        have hcolon := mem_trim (by decide) (List.mem_of_mem_take (colon_of_tag htag))
        exact absurd rfl (isPlain_fingerprint hmem ':' hcolon).1
      · exact hmem
    · have hlength : tag.length = 7 := by
        rw [← List.length_map (f := Char.toUpper), htag]
        rfl
      rw [hvalue, List.take_left' hlength, List.drop_left' hlength, if_pos htag]
      exact hmem
  · intro hmem
    split at hmem
    · next htag => exact ⟨_, .inr ⟨_, htag, (List.take_append_drop 7 value.toList).symm⟩, hmem⟩
    · exact ⟨value.toList, .inl rfl, by rwa [String.ofList_toList]⟩

/-! ### The two notations -/

theorem length_toHex (bytes : List UInt8) :
    (Buffer.toHex bytes).toList.length = 2 * bytes.length := by
  rw [Buffer.toHex, String.toList_ofList, List.length_flatMap]
  induction bytes with
  | nil => rfl
  | cons b bytes ih =>
    rw [List.map_cons, List.sum_cons, ih, List.length_cons]
    simp only [List.length_cons, List.length_nil]
    omega

theorem length_base64Chars (bytes : List UInt8) :
    (Buffer.base64Chars bytes).length = 4 * ((bytes.length + 2) / 3) := by
  fun_induction Buffer.base64Chars bytes with
  | case1 a b c rest n ih =>
    rw [List.length_append, ih]
    simp only [List.length_cons, List.length_nil]
    omega
  | case2 a b n => simp only [List.length_cons, List.length_nil]
  | case3 a => simp only [List.length_cons, List.length_nil]
  | case4 => rfl

theorem length_stripPadding_le (text : String) :
    (stripPadding text).toList.length ≤ text.toList.length := by
  rw [stripPadding, String.toList_ofList, List.length_reverse]
  exact (List.length_dropWhile_le _ _).trans_eq List.length_reverse

section Digest

variable {hashes : KeyHashes} {hostKey : List UInt8} (hlength : (hashes.sha256 hostKey).length = 32)

include hlength

theorem length_fingerprints : (base64Fingerprint hashes hostKey).toList.length ≤ 44 ∧
    (hexFingerprint hashes hostKey).toList.length = 64 := by
  refine ⟨(length_stripPadding_le _).trans_eq ?_, (length_toHex _).trans (by rw [hlength])⟩
  rw [Buffer.toBase64, String.toList_ofList, length_base64Chars, hlength]

theorem hexFingerprint_ne_base64Fingerprint :
    hexFingerprint hashes hostKey ≠ base64Fingerprint hashes hostKey := by
  intro heq
  have hlengths := length_fingerprints hlength
  rw [heq] at hlengths
  omega

/-- No notation of a digest is empty. -/
theorem empty_notMem_fingerprints :
    "" ∉ [base64Fingerprint hashes hostKey, hexFingerprint hashes hostKey] := by
  rw [List.mem_pair]
  rintro (heq | heq)
  · obtain ⟨n, rest, hchars⟩ : ∃ n rest, Buffer.base64Chars (hashes.sha256 hostKey) =
        Buffer.base64Digit n :: rest := by
      generalize hashes.sha256 hostKey = bytes at hlength
      fun_cases Buffer.base64Chars bytes with
      | case1 a b c rest n => exact ⟨_, _, rfl⟩
      | case2 a b n => exact ⟨_, _, rfl⟩
      | case3 a => exact ⟨_, _, rfl⟩
      | case4 => cases hlength
    have hmem : Buffer.base64Digit n ∈ (base64Fingerprint hashes hostKey).toList := by
      refine mem_stripPadding (base64Digit_ne_padding n) ?_
      rw [Buffer.toBase64, String.toList_ofList, hchars]
      exact List.mem_cons_self
    rw [← heq] at hmem
    exact absurd hmem List.not_mem_nil
  · have hhex := (length_fingerprints hlength).2
    rw [← heq] at hhex
    cases hhex

end Digest

/-! ### What a pin accepts -/

section Pins

variable (store : HostKeyStore) (m : SessionManager) (params : HostKeyParams)

theorem hostVerifier_pinned {pin : String} (hpin : params.expectedHostKeySha256 = some pin)
    (hne : pin ≠ "") (hostKey : List UInt8) :
    (store.hostVerifier m params (hexFingerprint store.hashes hostKey)).1 = true ↔
      normalizeSha256Fingerprint pin = hexFingerprint store.hashes hostKey := by
  have hhex : normalizeSha256Fingerprint (hexFingerprint store.hashes hostKey) =
      hexFingerprint store.hashes hostKey :=
    normalizeSha256Fingerprint_of_plain (isPlain_toHex _)
  rw [HostKeyStore.hostVerifier, hpin, truthy_some hne]
  dsimp only
  rw [decide_eq_true_iff, hhex, eq_comm]

theorem hostVerifier_unpinned (hpin : params.expectedHostKeySha256 = some "") (hashedKey : String) :
    store.hostVerifier m params hashedKey =
      store.policyVerifier (m.resolveHostKeyPolicy params.toConnectionParams) params hashedKey := by
  rw [HostKeyStore.hostVerifier, hpin, truthy_empty]

end Pins

/-- **When a pin accepts the keys that it denotes, and no others**: the pin is not the base64
notation of the key, and where the pin is empty, the host key policy does not accept the key
either. -/
theorem pinned_key_accepted_iff (store : HostKeyStore) (m : SessionManager) (params : HostKeyParams)
    (hostKey : List UInt8) (pin : String) (hpin : params.expectedHostKeySha256 = some pin)
    (hlength : (store.hashes.sha256 hostKey).length = 32) :
    ((store.hostVerifier m params (hexFingerprint store.hashes hostKey)).1 = true ↔
        Denotes store.hashes hostKey pin) ↔
      normalizeSha256Fingerprint pin ≠ base64Fingerprint store.hashes hostKey ∧
        (pin = "" → (store.policyVerifier (m.resolveHostKeyPolicy params.toConnectionParams) params
          (hexFingerprint store.hashes hostKey)).1 = false) := by
  have hempty := empty_notMem_fingerprints hlength
  rw [denotes_iff]
  by_cases hne : pin = ""
  · subst hne
    rw [hostVerifier_unpinned store m params hpin, show normalizeSha256Fingerprint "" = "" by
      decide]
    rw [iff_false_right hempty, Bool.not_eq_true]
    exact ⟨fun h => ⟨fun heq => hempty (heq ▸ List.mem_cons_self), fun _ => h⟩, fun h => h.2 rfl⟩
  · rw [hostVerifier_pinned store m params hpin hne, List.mem_pair]
    have hdiffer := hexFingerprint_ne_base64Fingerprint hlength
    constructor
    · intro hiff
      refine ⟨fun heq => hdiffer ?_, fun h => absurd h hne⟩
      exact (hiff.mpr (.inl heq)).symm.trans heq
    · rintro ⟨hbase64, -⟩
      exact ⟨.inr, fun h => h.resolve_left hbase64⟩

/-- A manager that pins keys, and where nothing can be read. -/
def samplePins : HostKeyStore where
  hashes := sampleHashes
  files _ := none
  knownHostsPath := "known_hosts"

/-- A request that pins a key. -/
def samplePinned (pin : String) : HostKeyParams where
  host := "h"
  username := "u"
  expectedHostKeySha256 := some pin

/-- A key that is pinned in hexadecimal. -/
theorem pinned_key_accepted_hex :
    (samplePins.hostVerifier {} (samplePinned ("SHA256:" ++ sampleHostKey))
        (hexFingerprint samplePins.hashes [0x41])).1 = true ↔
      Denotes samplePins.hashes [0x41] ("SHA256:" ++ sampleHostKey) := by
  refine (pinned_key_accepted_iff samplePins {} _ [0x41] _ rfl (by decide +kernel)).mpr ⟨?_, ?_⟩
  · decide +kernel
  · exact fun h => absurd h (by decide +kernel)

/-- **A pin as OpenSSH prints it is refused**: the digest in base64, for the key that has this
digest. -/
theorem base64_pin_refused :
    Denotes sampleHashes [0x41] "SHA256:VZrq0IJk1XldOQlxjN0Fq9SVcuhP5VWQ7vMaiKCP3/0" ∧
    (samplePins.hostVerifier {}
      (samplePinned "SHA256:VZrq0IJk1XldOQlxjN0Fq9SVcuhP5VWQ7vMaiKCP3/0")
      (hexFingerprint samplePins.hashes [0x41])).1 = false := by
  refine ⟨denotes_iff.mpr ?_, ?_⟩
  · decide +kernel
  · decide +kernel

end Ssh
