import McpSshTool.Js.Buffer
import McpSshTool.Ssh.FsTools

/-!
# Host keys and the `known_hosts` file

`session.ts`: how a presented host key is checked against the lines of a `known_hosts` file.

* `parseKnownHostLine`, `knownHostPatternMatches` — one line, and whether it is about a host.
* `verifyKnownHostKey` — the check.
* `RevocationRespected` — what `@revoked` lines are for.
-/

namespace Ssh

/-- What the check takes from the platform's hashes and decoders. -/
structure KeyHashes where
  /-- `Buffer.from(text, "base64")`. -/
  fromBase64 : String → List UInt8
  /-- `createHash("sha256").update(bytes).digest()`. -/
  sha256 : List UInt8 → List UInt8
  /-- `createHmac("sha1", salt).update(text).digest()`. -/
  hmacSha1 : List UInt8 → String → List UInt8

/-- `KNOWN_HOST_KEY_TYPES`. -/
def knownHostKeyTypes : List String :=
  ["ssh-ed25519", "ssh-ed25519-cert-v01@openssh.com", "ssh-rsa", "ssh-rsa-cert-v01@openssh.com",
    "rsa-sha2-256", "rsa-sha2-256-cert-v01@openssh.com", "rsa-sha2-512",
    "rsa-sha2-512-cert-v01@openssh.com", "ecdsa-sha2-nistp256",
    "ecdsa-sha2-nistp256-cert-v01@openssh.com", "ecdsa-sha2-nistp384",
    "ecdsa-sha2-nistp384-cert-v01@openssh.com", "ecdsa-sha2-nistp521",
    "ecdsa-sha2-nistp521-cert-v01@openssh.com", "sk-ssh-ed25519@openssh.com",
    "sk-ssh-ed25519-cert-v01@openssh.com", "sk-ecdsa-sha2-nistp256@openssh.com",
    "sk-ecdsa-sha2-nistp256-cert-v01@openssh.com"]

/-! ### Fingerprints -/

/-- `normalizeSha256Fingerprint`: without the tag `SHA256:`, in either case. -/
def normalizeSha256Fingerprint (fingerprint : String) : String :=
  let cs := fingerprint.toList
  if (cs.take 7).map Char.toUpper = "SHA256:".toList then JsText.trim (String.ofList (cs.drop 7))
  else JsText.trim fingerprint

/-- `text.replace(/=+$/, "")`. -/
def stripPadding (text : String) : String :=
  String.ofList (text.toList.reverse.dropWhile (· = '=')).reverse

def knownHostKeyFingerprints (hashes : KeyHashes) (keyBlob : String) : List String :=
  let digest := hashes.sha256 (hashes.fromBase64 keyBlob)
  [stripPadding (Buffer.toBase64 digest), Buffer.toHex digest]

/-! ### Lines -/

/-- A line of the file. -/
structure KnownHostLine where
  marker : Option String
  hosts : String
  keyBlob : String
deriving DecidableEq

def parseKnownHostLine (line : String) : Option KnownHostLine :=
  let trimmed := JsText.trim line
  if trimmed = "" ∨ trimmed.toList.head? = some '#' then none
  else
    let parts := JsText.words trimmed
    let part := fun i => parts.getD i ""
    if (part 0).toList.head? = some '@' then
      if parts.length < 4 then none
      else if part 2 ∉ knownHostKeyTypes then none
      else some ⟨some (part 0), part 1, part 3⟩
    else if parts.length < 3 then none
    else if part 1 ∉ knownHostKeyTypes then none
    else some ⟨none, part 0, part 2⟩

/-- The code units that `.` does not match. -/
def isLineTerminator (u : ℕ) : Bool := u = 0x0A || u = 0x0D || u = 0x2028 || u = 0x2029

/-- What is left after as many code units as `.*` may take. -/
def dotStarRests : List ℕ → List (List ℕ)
  | [] => [[]]
  | u :: us => (u :: us) :: if isLineTerminator u then [] else dotStarRests us

/-- The test of the expression that a pattern is turned into: `*` becomes `.*`, `?` becomes `.`, and
whatever else means something in an expression is escaped. -/
def wildcardMatches : List ℕ → List ℕ → Bool
  | [], us => us.isEmpty
  | p :: pattern, us =>
    if p = '*'.toNat then (dotStarRests us).any (wildcardMatches pattern)
    else
      match us with
      | [] => false
      | u :: us =>
        (if p = '?'.toNat then !isLineTerminator u else decide (p = u)) &&
          wildcardMatches pattern us

/-- `hashedKnownHostPatternMatches`, of `|1|salt|digest`. -/
def hashedKnownHostPatternMatches (hashes : KeyHashes) (pattern : String)
    (candidates : List String) : Bool :=
  match (splitText pattern '|') with
  | ["", "1", salt, expected] =>
    salt ≠ "" && expected ≠ "" && candidates.any fun candidate =>
      Buffer.toBase64 (hashes.hmacSha1 (hashes.fromBase64 salt) candidate) = expected
  | _ => false

def knownHostPatternMatches (hashes : KeyHashes) (hosts host : String) (port : ℕ) : Bool :=
  let candidates := [host, "[" ++ host ++ "]:" ++ toString port]
  (splitText hosts ',').any fun pattern =>
    if pattern.toList.head? = some '|' then hashedKnownHostPatternMatches hashes pattern candidates
    else pattern ∈ candidates || wildcardMatches (JsText.units pattern) (JsText.units host)

/-! ### The check -/

/-- The line is about the host. -/
def KnownHostLine.isAbout (hashes : KeyHashes) (line : KnownHostLine) (host : String) (port : ℕ) :
    Bool :=
  knownHostPatternMatches hashes line.hosts host port

/-- The line has the key with the fingerprint. -/
def KnownHostLine.carries (hashes : KeyHashes) (line : KnownHostLine) (expected : String) : Bool :=
  (knownHostKeyFingerprints hashes line.keyBlob).any fun fingerprint =>
    normalizeSha256Fingerprint fingerprint = expected

/-- The loop of `verifyKnownHostKey`. -/
def verifyKnownHostLines (hashes : KeyHashes) (host : String) (port : ℕ) (expected : String) :
    List String → Bool
  | [] => false
  | line :: lines =>
    match parseKnownHostLine line with
    | none => verifyKnownHostLines hashes host port expected lines
    | some parsed =>
      if !parsed.isAbout hashes host port then verifyKnownHostLines hashes host port expected lines
      else if parsed.marker = some "@revoked" then false
      else if parsed.carries hashes expected then true
      else verifyKnownHostLines hashes host port expected lines

/-- `verifyKnownHostKey`, with the files that can be read. -/
def verifyKnownHostKey (hashes : KeyHashes) (files : String → Option String) (host : String)
    (port : ℕ) (knownHostsPath hashedKey : String) : Bool :=
  if knownHostsPath = "" then false
  else
    match files knownHostsPath with
    | none => false
    | some contents =>
      verifyKnownHostLines hashes host port (normalizeSha256Fingerprint hashedKey)
        (splitLines contents)

/-! ### What revocations are for -/

section Revocation

variable (hashes : KeyHashes) (host : String) (port : ℕ) (expected : String)

/-- The lines about the host, in order. -/
def linesAbout (lines : List String) : List KnownHostLine :=
  (lines.filterMap parseKnownHostLine).filter fun line => line.isAbout hashes host port

/-- The line takes keys back. -/
def KnownHostLine.Revokes (line : KnownHostLine) : Prop := line.marker = some "@revoked"

instance : DecidablePred KnownHostLine.Revokes := fun line =>
  inferInstanceAs (Decidable (line.marker = some "@revoked"))

/-- **A verdict that respects revocations**: a revoked key is rejected, a key that is listed and not
revoked is accepted, and the order of the lines does not matter. -/
structure RevocationRespected (lines : List String) (verdict : Bool) : Prop where
  rejects : (∃ line ∈ linesAbout hashes host port lines, line.Revokes ∧
    line.carries hashes expected) →
    verdict = false
  accepts :
    (¬∃ line ∈ linesAbout hashes host port lines, line.Revokes ∧ line.carries hashes expected) →
    (∃ line ∈ linesAbout hashes host port lines, line.marker = none ∧
      line.carries hashes expected) →
    verdict = true
  anyOrder : ∀ lines', lines'.Perm lines →
    verifyKnownHostLines hashes host port expected lines' = verdict

variable {hashes host port expected}

theorem mem_linesAbout {lines : List String} {parsed : KnownHostLine} :
    parsed ∈ linesAbout hashes host port lines ↔
      ∃ line ∈ lines, parseKnownHostLine line = some parsed ∧ parsed.isAbout hashes host port := by
  rw [linesAbout, List.mem_filter, List.mem_filterMap]
  constructor
  · rintro ⟨⟨line, hline, hparse⟩, habout⟩
    exact ⟨line, hline, hparse, habout⟩
  · rintro ⟨line, hline, hparse, habout⟩
    exact ⟨⟨line, hline, hparse⟩, habout⟩

theorem mem_linesAbout_perm {lines lines' : List String} (h : lines'.Perm lines)
    {parsed : KnownHostLine} :
    parsed ∈ linesAbout hashes host port lines' ↔ parsed ∈ linesAbout hashes host port lines := by
  rw [mem_linesAbout, mem_linesAbout]
  simp only [h.mem_iff]

theorem verifyKnownHostLines_cons {line : String} {parsed : KnownHostLine} (lines : List String)
    (hparse : parseKnownHostLine line = some parsed)
    (habout : parsed.isAbout hashes host port = true) :
    verifyKnownHostLines hashes host port expected (line :: lines) =
      if parsed.marker = some "@revoked" then false
      else if parsed.carries hashes expected then true
      else verifyKnownHostLines hashes host port expected lines := by
  rw [verifyKnownHostLines, hparse]
  simp only [habout, Bool.not_true, if_false, Bool.false_eq_true]

/-- Whether the loop sees a line in its turn or skips it. -/
theorem linesAbout_cons (line : String) (lines : List String) :
    (linesAbout hashes host port (line :: lines) = linesAbout hashes host port lines ∧
      verifyKnownHostLines hashes host port expected (line :: lines) =
        verifyKnownHostLines hashes host port expected lines) ∨
    ∃ parsed, parseKnownHostLine line = some parsed ∧ parsed.isAbout hashes host port = true ∧
      linesAbout hashes host port (line :: lines) = parsed :: linesAbout hashes host
        port lines := by
  cases hparse : parseKnownHostLine line with
  | none =>
    refine .inl ⟨?_, ?_⟩
    · rw [linesAbout, List.filterMap_cons_none hparse, linesAbout]
    · rw [verifyKnownHostLines, hparse]
  | some parsed =>
    by_cases habout : parsed.isAbout hashes host port = true
    · refine .inr ⟨parsed, rfl, habout, ?_⟩
      rw [linesAbout, List.filterMap_cons_some hparse, List.filter_cons, if_pos habout, linesAbout]
    · refine .inl ⟨?_, ?_⟩
      · rw [linesAbout, List.filterMap_cons_some hparse, List.filter_cons, if_neg habout,
          linesAbout]
      · rw [verifyKnownHostLines, hparse]
        simp only [habout, Bool.not_false, if_true]

/-- **What the loop accepts**: a line with the key, when no line before it revokes any. -/
theorem verifyKnownHostLines_eq_true_iff {lines : List String} :
    verifyKnownHostLines hashes host port expected lines = true ↔
      ∃ before parsed after, linesAbout hashes host port lines = before ++ parsed :: after ∧
        ¬parsed.Revokes ∧ parsed.carries hashes expected ∧ ∀ line ∈ before, ¬line.Revokes := by
  induction lines with
  | nil =>
    constructor
    · exact fun h => absurd h nofun
    · rintro ⟨before, parsed, after, hlines, -⟩
      exact absurd hlines.symm (List.append_ne_nil_of_right_ne_nil _ (List.cons_ne_nil _ _))
  | cons line lines ih =>
    rcases linesAbout_cons line lines with ⟨hskip, hloop⟩ | ⟨parsed, hparse, habout, htake⟩
    · rw [hskip, hloop, ih]
    · rw [verifyKnownHostLines_cons lines hparse habout, htake]
      split_ifs with hrevokes hcarries
      · -- the loop ends here, and no line comes before this one
        refine ⟨fun h => absurd h nofun, ?_⟩
        rintro ⟨before, found, after, hlines, hfound, -, hbefore⟩
        rcases List.cons_eq_append_iff.mp hlines with ⟨rfl, hcons⟩ | ⟨before', rfl, -⟩
        · obtain ⟨rfl, -⟩ := List.cons.inj hcons
          exact absurd hrevokes hfound
        · exact absurd hrevokes (hbefore parsed List.mem_cons_self)
      · refine ⟨fun _ => ?_, fun _ => rfl⟩
        exact ⟨[], parsed, _, rfl, hrevokes, hcarries, fun line hline =>
          absurd hline List.not_mem_nil⟩
      · rw [ih]
        constructor
        · rintro ⟨before, found, after, hlines, hfound, hcarries', hbefore⟩
          refine ⟨parsed :: before, found, after, ?_, hfound, hcarries', fun line hline => ?_⟩
          · rw [hlines, List.cons_append]
          · rcases List.mem_cons.mp hline with rfl | hline
            · exact hrevokes
            · exact hbefore line hline
        · rintro ⟨before, found, after, hlines, hfound, hcarries', hbefore⟩
          rcases List.cons_eq_append_iff.mp hlines with ⟨rfl, hcons⟩ | ⟨before', rfl, hrest⟩
          · obtain ⟨rfl, -⟩ := List.cons.inj hcons
            exact absurd hcarries' hcarries
          · exact ⟨before', found, after, hrest, hfound, hcarries',
              fun line hline => hbefore line (List.mem_cons_of_mem _ hline)⟩

/-- Without a line that revokes, the key has to be listed. -/
theorem verifyKnownHostLines_of_no_revocation {lines : List String}
    (h : ∀ line ∈ linesAbout hashes host port lines, ¬line.Revokes) :
    verifyKnownHostLines hashes host port expected lines = true ↔
      ∃ line ∈ linesAbout hashes host port lines, line.carries hashes expected := by
  rw [verifyKnownHostLines_eq_true_iff]
  constructor
  · rintro ⟨before, parsed, after, hlines, -, hcarries, -⟩
    refine ⟨parsed, ?_, hcarries⟩
    rw [hlines]
    exact List.mem_append_right _ List.mem_cons_self
  · rintro ⟨parsed, hmem, hcarries⟩
    obtain ⟨before, after, hlines⟩ := List.append_of_mem hmem
    refine ⟨before, parsed, after, hlines, h parsed hmem, hcarries, fun line hline => h line ?_⟩
    rw [hlines]
    exact List.mem_append_left _ hline

/-- Without a listed key, the key is not accepted. -/
theorem verifyKnownHostLines_of_not_listed {lines : List String}
    (h : ∀ line ∈ linesAbout hashes host port lines, ¬line.Revokes →
      line.carries hashes expected = false) :
    verifyKnownHostLines hashes host port expected lines = false := by
  rw [Bool.eq_false_iff]
  intro htrue
  obtain ⟨before, parsed, after, hlines, hrevokes, hcarries, -⟩ :=
    verifyKnownHostLines_eq_true_iff.mp htrue
  have hmem : parsed ∈ linesAbout hashes host port lines := by
    rw [hlines]
    exact List.mem_append_right _ List.mem_cons_self
  rw [h parsed hmem hrevokes] at hcarries
  cases hcarries

/-- **When revocations are respected**: no line about the host revokes a key, or none that does not
revoke lists the presented one. -/
theorem revocation_respected_iff {files : String → Option String} {knownHostsPath contents : String}
    (hpath : knownHostsPath ≠ "") (hfile : files knownHostsPath = some contents)
    (hashedKey : String) :
    RevocationRespected hashes host port (normalizeSha256Fingerprint hashedKey)
      (splitLines contents)
        (verifyKnownHostKey hashes files host port knownHostsPath hashedKey) ↔
      (∀ line ∈ linesAbout hashes host port (splitLines contents), ¬line.Revokes) ∨
      ∀ line ∈ linesAbout hashes host port (splitLines contents), ¬line.Revokes →
        line.carries hashes (normalizeSha256Fingerprint hashedKey) = false := by
  rw [verifyKnownHostKey, if_neg hpath, hfile]
  dsimp only
  generalize normalizeSha256Fingerprint hashedKey = expected
  generalize splitLines contents = lines
  constructor
  · intro hrespected
    by_contra hboth
    push Not at hboth
    obtain ⟨⟨revoking, hrevoking, hrevokes⟩, listed, hlisted, hkeeps, hcarries⟩ := hboth
    -- with the revoking line first the key is rejected, with the listing line first it is accepted
    obtain ⟨line, hline, hparse, habout⟩ := mem_linesAbout.mp hrevoking
    obtain ⟨line', hline', hparse', habout'⟩ := mem_linesAbout.mp hlisted
    have hrejected := hrespected.anyOrder _ (List.perm_cons_erase hline).symm
    have haccepted := hrespected.anyOrder _ (List.perm_cons_erase hline').symm
    rw [verifyKnownHostLines_cons _ hparse habout,
      if_pos (show revoking.marker = some "@revoked" from hrevokes)] at hrejected
    rw [verifyKnownHostLines_cons _ hparse' habout',
      if_neg (show ¬listed.marker = some "@revoked" from hkeeps), if_pos (by simpa using hcarries),
      ← hrejected] at haccepted
    cases haccepted
  · rintro (hnone | hunlisted)
    · have hverdict : verifyKnownHostLines hashes host port expected lines = true ↔ _ :=
        verifyKnownHostLines_of_no_revocation hnone
      refine ⟨?_, ?_, fun lines' hperm => ?_⟩
      · rintro ⟨line, hline, hrevokes, -⟩
        exact absurd hrevokes (hnone line hline)
      · rintro - ⟨line, hline, -, hcarries⟩
        exact hverdict.mpr ⟨line, hline, hcarries⟩
      · have hnone' : ∀ line ∈ linesAbout hashes host port lines', ¬line.Revokes :=
          fun line hline => hnone line ((mem_linesAbout_perm hperm).mp hline)
        rw [Bool.eq_iff_iff, hverdict, verifyKnownHostLines_of_no_revocation hnone']
        simp only [mem_linesAbout_perm hperm]
    · have hverdict : verifyKnownHostLines hashes host port expected lines = false :=
        verifyKnownHostLines_of_not_listed hunlisted
      refine ⟨fun _ => hverdict, ?_, fun lines' hperm => ?_⟩
      · rintro - ⟨line, hline, hmarker, hcarries⟩
        have hkeeps : ¬line.Revokes := by
          rw [KnownHostLine.Revokes, hmarker]
          exact nofun
        rw [hunlisted line hline hkeeps] at hcarries
        cases hcarries
      · rw [hverdict]
        exact verifyKnownHostLines_of_not_listed fun line hline =>
          hunlisted line ((mem_linesAbout_perm hperm).mp hline)

end Revocation

/-! ### A file that revokes a key too late -/

/-- The digests of the one-byte key blob `QQ==`. -/
def sampleHashes : KeyHashes where
  fromBase64 text := if text = "QQ==" then [0x41] else []
  sha256 bytes :=
    if bytes = [0x41] then
      [0x55, 0x9a, 0xea, 0xd0, 0x82, 0x64, 0xd5, 0x79, 0x5d, 0x39, 0x09, 0x71, 0x8c, 0xdd, 0x05,
        0xab, 0xd4, 0x95, 0x72, 0xe8, 0x4f, 0xe5, 0x55, 0x90, 0xee, 0xf3, 0x1a, 0x88, 0xa0, 0x8f,
        0xdf, 0xfd]
    else []
  hmacSha1 _ _ := []

/-- The key of the sample, as it is presented. -/
def sampleHostKey : String := "559aead08264d5795d3909718cdd05abd49572e84fe55590eef31a88a08fdffd"

/-- A file that lists a key and then revokes it. -/
def lateRevocation : String := "h ssh-ed25519 QQ==\n@revoked h ssh-ed25519 QQ==\n"

theorem revocation_respected_iff_listed :
    RevocationRespected sampleHashes "h" 22 (normalizeSha256Fingerprint sampleHostKey)
      (splitLines "h ssh-ed25519 QQ==\n")
      (verifyKnownHostKey sampleHashes (fun _ => some "h ssh-ed25519 QQ==\n") "h" 22 "known_hosts"
        sampleHostKey) := by
  exact (revocation_respected_iff (by decide) rfl sampleHostKey).mpr (.inl (by decide +kernel))

/-- **A revoked key is accepted** when an earlier line lists it. -/
theorem revoked_key_accepted :
    (∃ line ∈ linesAbout sampleHashes "h" 22 (splitLines lateRevocation),
      line.Revokes ∧ line.carries sampleHashes (normalizeSha256Fingerprint sampleHostKey)) ∧
    verifyKnownHostKey sampleHashes (fun _ => some lateRevocation) "h" 22 "known_hosts"
      sampleHostKey = true := by
  refine ⟨⟨⟨some "@revoked", "h", "QQ=="⟩, by decide +kernel, rfl, by decide +kernel⟩, ?_⟩
  decide +kernel

end Ssh
