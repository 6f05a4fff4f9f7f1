import Mathlib.Data.List.Sort
import McpSshTool.Js.Text
import McpSshTool.Js.Value

/-!
# Signed envelopes

`crypto.ts`: the canonical text of an envelope and the signature over it. The primitives of the
platform (Ed25519, SHA-256, dates, number texts) are the fields of a `Platform`; `KeyPair` is what
the protocol relies on of a generated pair.

The signed text does not depend on the order in which an object lists its members, nor on members
that are `undefined` (`canonicalJson_obj_congr`). That is why an envelope that the receiver has
rebuilt from its schema still verifies.
-/

open Library

namespace Remote

/-- The primitives that the protocol takes from its platform. -/
structure Platform where
  /-- `Number(s)` and `String(n)`. -/
  numberText : NumberText
  /-- `sign(null, text, privateKeyPem)`, in base64url. -/
  sign : String → String → String
  /-- `verify(null, text, publicKeyPem, signature)`. -/
  verify : String → String → String → Bool
  /-- `sha256Base64Url`. -/
  sha256 : String → String
  /-- `isValidEd25519PublicKey`. -/
  isValidEd25519PublicKey : String → Bool
  /-- `new Date(s).getTime()`, for the texts that `isDatetime` accepts. -/
  getTime : String → ℤ
  /-- `new Date(t).toISOString()`. -/
  toISOString : ℤ → String
  /-- `z.string().datetime()`. -/
  isDatetime : String → Bool
  /-- The text SQLite keeps of a number that is bound to a text column. -/
  realText : JsNumber → String

/-- The two halves of one Ed25519 key pair. -/
structure KeyPair (platform : Platform) (publicKeyPem privateKeyPem : String) : Prop where
  verify_sign : ∀ text, platform.verify publicKeyPem text (platform.sign privateKeyPem text) = true
  sign_ne : ∀ text, platform.sign privateKeyPem text ≠ ""

def hashSecret (platform : Platform) (value : String) : String := platform.sha256 value

/-! ### Canonical JSON -/

/-- `JSON.stringify` of a number. -/
def numberJson (nt : NumberText) : JsNumber → String
  | .fin q => nt.render (.fin q)
  | _ => "null"

/-- `{"key":text,...}` for members whose values are already rendered, by key. -/
def renderMembers (ms : List (String × String)) : String :=
  "\x7b" ++ ",".intercalate
    ((ms.insertionSort fun a b => JsText.le a.1 b.1).map fun m => JsText.quote m.1 ++ ":" ++ m.2)
    ++ "\x7d"

mutual

/-- `canonicalJson`. An `undefined` element has no text of its own: `join` renders it as the empty
text. -/
def canonicalJson (nt : NumberText) : Value → String
  | .undefined => ""
  | .null => "null"
  | .bool b => toString b
  | .num n => numberJson nt n
  | .str s => JsText.quote s
  | .arr xs => "[" ++ ",".intercalate (canonicalElements nt xs) ++ "]"
  | .obj fs => renderMembers (canonicalMembers nt fs)

def canonicalElements (nt : NumberText) : List Value → List String
  | [] => []
  | x :: xs => canonicalJson nt x :: canonicalElements nt xs

/-- The members that are not `undefined`, with the text of their values. -/
def canonicalMembers (nt : NumberText) : Fields → List (String × String)
  | [] => []
  | (_, .undefined) :: fs => canonicalMembers nt fs
  | (k, v) :: fs => (k, canonicalJson nt v) :: canonicalMembers nt fs

end

/-- The envelope without its signature. -/
def unsigned (envelope : Fields) : Fields := envelope.filter fun e => !decide (e.1 = "signature")

def signEnvelope (platform : Platform) (envelope : Fields) (privateKeyPem : String) : String :=
  platform.sign privateKeyPem (canonicalJson platform.numberText (.obj (unsigned envelope)))

def verifyEnvelope (platform : Platform) (envelope : Fields) (publicKeyPem : String) : Bool :=
  match (Value.obj envelope).member "signature" with
  | .str signature =>
    signature ≠ "" &&
      platform.verify publicKeyPem
        (canonicalJson platform.numberText (.obj (unsigned envelope))) signature
  | _ => false

/-! ### What the signed text depends on -/

/-- The text of a member, if the object has it with a value other than `undefined`. -/
def memberText (nt : NumberText) (fs : Fields) (k : String) : Option String :=
  match OrderedMap.find? fs k with
  | none => none
  | some .undefined => none
  | some v => some (canonicalJson nt v)

theorem memberText_eq_member (nt : NumberText) (fs : Fields) (k : String) :
    memberText nt fs k =
      if ((Value.obj fs).member k).isUndefined then none
      else some (canonicalJson nt ((Value.obj fs).member k)) := by
  rw [memberText, Value.member_obj]
  cases OrderedMap.find? fs k with
  | none => rfl
  | some v => cases v <;> rfl

theorem memberText_congr (nt : NumberText) {fs gs : Fields} {k : String}
    (h : (Value.obj fs).member k = (Value.obj gs).member k) :
    memberText nt fs k = memberText nt gs k := by
  rw [memberText_eq_member, memberText_eq_member, h]

/-- Objects without members outside `keys` need only be compared there. -/
theorem memberText_congr_of_keys (nt : NumberText) {fs gs : Fields} (keys : List String)
    (hfs : ∀ e ∈ fs, e.1 ∈ keys) (hgs : ∀ e ∈ gs, e.1 ∈ keys)
    (h : ∀ k ∈ keys, memberText nt fs k = memberText nt gs k) (k : String) :
    memberText nt fs k = memberText nt gs k := by
  by_cases hk : k ∈ keys
  · exact h k hk
  · have hnone : ∀ {l : Fields}, (∀ e ∈ l, e.1 ∈ keys) → memberText nt l k = none := by
      intro l hl
      have hfind : OrderedMap.find? l k = none := by
        refine OrderedMap.find?_eq_none.mpr fun hm => hk ?_
        obtain ⟨e, he, rfl⟩ := List.mem_map.mp hm
        exact hl e he
      rw [memberText, hfind]
    rw [hnone hfs, hnone hgs]

theorem canonicalMembers_cons (nt : NumberText) (k : String) (v : Value) (fs : Fields) :
    canonicalMembers nt ((k, v) :: fs) =
      if v.isUndefined then canonicalMembers nt fs
      else (k, canonicalJson nt v) :: canonicalMembers nt fs := by
  cases v <;> simp [canonicalMembers, Value.isUndefined]

mutual

/-- **The trip through JSON keeps the canonical text** of a value without `undefined`. -/
theorem canonicalJson_transport (nt : NumberText) :
    ∀ {v : Value}, v.Defined → canonicalJson nt v.transport = canonicalJson nt v
  | .undefined, h => h.elim
  | .null, _ => rfl
  | .bool _, _ => rfl
  | .num n, _ => by cases n <;> rfl
  | .str _, _ => rfl
  | .arr xs, h => by
    rw [Value.Defined] at h
    rw [Value.transport, canonicalJson, canonicalJson, canonicalElements_transport nt h]
  | .obj fs, h => by
    rw [Value.Defined] at h
    rw [Value.transport, canonicalJson, canonicalJson, canonicalMembers_transport nt h]

theorem canonicalElements_transport (nt : NumberText) :
    ∀ {xs : List Value}, Value.DefinedElements xs →
      canonicalElements nt (Value.transportElements xs) = canonicalElements nt xs
  | [], _ => rfl
  | x :: xs, h => by
    rw [Value.transportElements_cons, Value.isUndefined_eq_false_of_defined h.1, if_neg (by simp),
      canonicalElements, canonicalElements, canonicalJson_transport nt h.1,
      canonicalElements_transport nt h.2]

theorem canonicalMembers_transport (nt : NumberText) :
    ∀ {fs : Fields}, Value.DefinedMembers fs →
      canonicalMembers nt (Value.transportMembers fs) = canonicalMembers nt fs
  | [], _ => rfl
  | (k, v) :: fs, h => by
    have hv := Value.isUndefined_eq_false_of_defined h.1
    rw [Value.transportMembers_cons, hv, if_neg (by simp), canonicalMembers_cons,
      canonicalMembers_cons, Value.isUndefined_transport, hv, if_neg (by simp), if_neg (by simp),
      canonicalJson_transport nt h.1, canonicalMembers_transport nt h.2]

end

theorem canonicalMembers_keys_sublist (nt : NumberText) (fs : Fields) :
    ((canonicalMembers nt fs).map Prod.fst).Sublist (fs.map Prod.fst) := by
  induction fs with
  | nil => simp [canonicalMembers]
  | cons e fs ih =>
    obtain ⟨k, v⟩ := e
    rw [canonicalMembers_cons]
    split
    · exact ih.cons _
    · exact ih.cons_cons k

theorem find?_canonicalMembers (nt : NumberText) {fs : Fields} (hfs : (fs.map Prod.fst).Nodup)
    (k : String) : OrderedMap.find? (canonicalMembers nt fs) k = memberText nt fs k := by
  induction fs with
  | nil => simp [canonicalMembers, memberText]
  | cons e fs ih =>
    obtain ⟨k', v⟩ := e
    rw [List.map_cons, List.nodup_cons] at hfs
    have htail := ih hfs.2
    by_cases hk : k' = k
    · subst hk
      have hnone : OrderedMap.find? (canonicalMembers nt fs) k' = none :=
        OrderedMap.find?_eq_none.mpr fun hm =>
          hfs.1 ((canonicalMembers_keys_sublist nt fs).subset hm)
      rw [canonicalMembers_cons, memberText, OrderedMap.find?_cons, if_pos rfl]
      cases v <;> simp [hnone, OrderedMap.find?_cons, Value.isUndefined]
    · have hrest : memberText nt ((k', v) :: fs) k = memberText nt fs k := by
        rw [memberText, OrderedMap.find?_cons, if_neg hk, memberText]
      rw [canonicalMembers_cons, hrest]
      split
      · exact htail
      · rw [OrderedMap.find?_cons, if_neg hk, htail]

theorem nodup_canonicalMembers (nt : NumberText) {fs : Fields} (hfs : (fs.map Prod.fst).Nodup) :
    ((canonicalMembers nt fs).map Prod.fst).Nodup :=
  hfs.sublist (canonicalMembers_keys_sublist nt fs)

/-- Rendering sorts the members, so it does not see the order they are listed in. -/
theorem renderMembers_perm {ms ms' : List (String × String)} (hms : (ms.map Prod.fst).Nodup)
    (h : ms.Perm ms') : renderMembers ms = renderMembers ms' := by
  set r : String × String → String × String → Prop := fun a b => JsText.le a.1 b.1
  have htotal : Std.Total r := ⟨fun a b => JsText.le.total a.1 b.1⟩
  have htrans : IsTrans (String × String) r := ⟨fun _ _ _ => JsText.le.trans⟩
  -- equal keys are the same entry, for the keys are distinct
  have hanti : ∀ a b, a ∈ ms.insertionSort r → b ∈ ms'.insertionSort r → r a b → r b a →
      a = b := by
    intro a b ha hb hab hba
    have hkey : a.1 = b.1 := JsText.le.antisymm hab hba
    have ha' : a ∈ ms := (ms.mem_insertionSort r).mp ha
    have hb' : b ∈ ms := h.mem_iff.mpr ((ms'.mem_insertionSort r).mp hb)
    exact List.inj_on_of_nodup_map hms ha' hb' hkey
  have hsorted : ms.insertionSort r = ms'.insertionSort r := by
    have hp : (ms.insertionSort r).Perm (ms'.insertionSort r) :=
      (ms.perm_insertionSort r).trans (h.trans (ms'.perm_insertionSort r).symm)
    exact List.Perm.eq_of_pairwise hanti (ms.pairwise_insertionSort r)
      (ms'.pairwise_insertionSort r) hp
  unfold renderMembers
  rw [hsorted]

/-- **The canonical text of an object** is determined by the texts of its members: neither their
order nor `undefined` members show. -/
theorem canonicalJson_obj_congr (nt : NumberText) {fs gs : Fields} (hfs : (fs.map Prod.fst).Nodup)
    (hgs : (gs.map Prod.fst).Nodup) (h : ∀ k, memberText nt fs k = memberText nt gs k) :
    canonicalJson nt (.obj fs) = canonicalJson nt (.obj gs) := by
  have hf := nodup_canonicalMembers nt hfs
  have hg := nodup_canonicalMembers nt hgs
  have hperm : (canonicalMembers nt fs).Perm (canonicalMembers nt gs) := by
    refine (List.perm_ext_iff_of_nodup hf.of_map hg.of_map).mpr ?_
    rintro ⟨k, t⟩
    have hmem : ∀ {ms : List (String × String)}, (ms.map Prod.fst).Nodup →
        ((k, t) ∈ ms ↔ OrderedMap.find? ms k = some t) :=
      fun hms => ⟨OrderedMap.find?_eq_some_of_mem hms, OrderedMap.mem_of_find?_eq_some⟩
    rw [hmem hf, hmem hg, find?_canonicalMembers nt hfs, find?_canonicalMembers nt hgs, h]
  rw [canonicalJson, canonicalJson]
  exact renderMembers_perm hf hperm

theorem nodup_unsigned {fs : Fields} (hfs : (fs.map Prod.fst).Nodup) :
    ((unsigned fs).map Prod.fst).Nodup :=
  hfs.sublist (List.filter_sublist.map Prod.fst)

theorem memberText_unsigned (nt : NumberText) {fs : Fields} (hfs : (fs.map Prod.fst).Nodup)
    (k : String) :
    memberText nt (unsigned fs) k = if k = "signature" then none else memberText nt fs k := by
  unfold memberText unsigned
  rw [OrderedMap.find?_filter fs hfs]
  by_cases hk : k = "signature"
  · rw [if_pos hk]
    cases OrderedMap.find? fs k <;> simp [hk, Option.filter]
  · rw [if_neg hk]
    cases OrderedMap.find? fs k <;> simp [hk, Option.filter]

theorem canonicalJson_unsigned_congr (nt : NumberText) {fs gs : Fields}
    (hfs : (fs.map Prod.fst).Nodup) (hgs : (gs.map Prod.fst).Nodup)
    (h : ∀ k, k ≠ "signature" → memberText nt fs k = memberText nt gs k) :
    canonicalJson nt (.obj (unsigned fs)) = canonicalJson nt (.obj (unsigned gs)) := by
  refine canonicalJson_obj_congr nt (nodup_unsigned hfs) (nodup_unsigned hgs) fun k => ?_
  rw [memberText_unsigned nt hfs, memberText_unsigned nt hgs]
  split
  · rfl
  · next hk => exact h k hk

/-- **A signed envelope verifies at the receiver**, which rebuilds it with the same members and
the signature the sender computed. -/
theorem verifyEnvelope_of_signed {platform : Platform} {publicKeyPem privateKeyPem : String}
    (hkeys : KeyPair platform publicKeyPem privateKeyPem) {sent received : Fields}
    (hs : (sent.map Prod.fst).Nodup) (hr : (received.map Prod.fst).Nodup)
    (hmembers : ∀ k, k ≠ "signature" →
      memberText platform.numberText received k = memberText platform.numberText sent k)
    (hsig : (Value.obj received).member "signature"
      = .str (signEnvelope platform sent privateKeyPem)) :
    verifyEnvelope platform received publicKeyPem = true := by
  have htext := canonicalJson_unsigned_congr platform.numberText hr hs hmembers
  have hne : signEnvelope platform sent privateKeyPem ≠ "" := hkeys.sign_ne _
  unfold verifyEnvelope
  rw [hsig]
  simp only [htext, Bool.and_eq_true, decide_eq_true_eq]
  exact ⟨hne, hkeys.verify_sign _⟩

/-! ### A platform to evaluate on -/

/-- The decimal text of a number below 1000, in three digits. -/
def threeDigits (n : ℕ) : String :=
  String.ofList [Nat.digitChar (n / 100 % 10), Nat.digitChar (n / 10 % 10), Nat.digitChar (n % 10)]

/-- A platform that computes. A key signs by naming itself before the text, and times are those of
the first second of 1970. -/
def samplePlatform : Platform where
  numberText :=
    { parse := fun _ => .nan
      render := fun n => match n with
        | .fin q => toString q.num
        | _ => "NaN" }
  sign key text := key ++ ":" ++ text
  verify key text signature := signature = key ++ ":" ++ text
  sha256 value := value
  isValidEd25519PublicKey _ := true
  getTime s := ((s.toList.drop 20).takeWhile Char.isDigit).foldl
    (fun n c => 10 * n + (c.toNat - '0'.toNat)) 0
  toISOString t := "1970-01-01T00:00:00." ++ threeDigits t.toNat ++ "Z"
  isDatetime s := s.length = 24
  realText _ := ""

theorem keyPair_samplePlatform (key : String) : KeyPair samplePlatform key key where
  verify_sign text := by simp [samplePlatform]
  sign_ne text h := by
    have := congrArg String.toList h
    simp [samplePlatform] at this

end Remote
