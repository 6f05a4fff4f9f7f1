import McpSshTool.Js.Buffer
import McpSshTool.Js.Utf8Chunks

/-!
# The encodings of buffers

`buffer.toString(encoding)` for the encodings that a buffer has, as the UTF-16 code units of what it
returns: UTF-16 may be read of any bytes, and the string then has surrogates that stand alone.

* `BufferEncoding` — the encodings and their names;
* `BufferEncoding.units` — what some bytes are read as;
* `decodeFrom_cases` — what the UTF-8 decoding of some bytes starts with;
* `units_decode_iff` — the bytes that an encoding reads as UTF-8 does;
* `toString` — the text itself, for a runtime.

For the encodings that make a unit of each byte, and those that make more than one, the units are
counted: UTF-8 never makes more units than there are bytes. For UTF-16 the two readings of the same
bytes are followed side by side, and neither ever catches up with the other.
-/

namespace Utf8

/-! ### What a decoding starts with -/

theorem encodeChar_ofNat {n : ℕ} (h : n < 0xD800 ∨ (0xDFFF < n ∧ n < 0x110000)) :
    String.utf8EncodeChar (Char.ofNat n) =
      if n ≤ 0x7F then [UInt8.ofNat n]
      else if n ≤ 0x7FF then [UInt8.ofNat (n / 64 % 0x20 + 0xC0), UInt8.ofNat (n % 0x40 + 0x80)]
      else if n ≤ 0xFFFF then
        [UInt8.ofNat (n / 4096 % 0x10 + 0xE0), UInt8.ofNat (n / 64 % 0x40 + 0x80),
          UInt8.ofNat (n % 0x40 + 0x80)]
      else
        [UInt8.ofNat (n / 262144 % 8 + 0xF0), UInt8.ofNat (n / 4096 % 0x40 + 0x80),
          UInt8.ofNat (n / 64 % 0x40 + 0x80), UInt8.ofNat (n % 0x40 + 0x80)] := by
  have hval : (Char.ofNat n).val.toNat = n := by
    have hvalid : n.isValidChar := h
    rw [Char.ofNat, dif_pos hvalid]
    rfl
  rw [String.utf8EncodeChar]
  simp only [hval]

theorem ofNat_eq_of_toNat {b : UInt8} {n : ℕ} (h : n = b.toNat) : UInt8.ofNat n = b := by
  rw [h, UInt8.ofNat_toNat]

theorem decodeFrom_pending {p : Pending} (hneeded : p.needed ≠ 0) (bs : List UInt8) :
    (∃ b rest, bs = b :: rest ∧ p.lower ≤ b.toNat ∧ b.toNat ≤ p.upper) ∨
      decodeFrom p bs = '\uFFFD' :: decodeFrom .none bs := by
  cases bs with
  | nil =>
    rw [decodeFrom, if_neg hneeded]
    exact .inr rfl
  | cons b rest =>
    by_cases hbounds : p.lower ≤ b.toNat ∧ b.toNat ≤ p.upper
    · exact .inl ⟨b, rest, rfl, hbounds⟩
    · rw [decodeFrom, if_neg hneeded, if_neg hbounds, ← decodeFrom_none_cons]
      exact .inr rfl

/-- The decoding of some bytes starts with U+FFFD, and goes on anew after one of them at least. -/
def StartsIllFormed (bytes : List UInt8) : Prop :=
  ∃ rest, decodeFrom .none bytes = '\uFFFD' :: decodeFrom .none rest ∧ rest.length < bytes.length

theorem encodeChar_two {b b₁ : UInt8} (h : 0xC2 ≤ b.toNat ∧ b.toNat ≤ 0xDF)
    (h₁ : 0x80 ≤ b₁.toNat ∧ b₁.toNat ≤ 0xBF) :
    String.utf8EncodeChar (Char.ofNat (b.toNat % 32 * 64 + b₁.toNat % 64)) = [b, b₁] := by
  rw [encodeChar_ofNat (by omega), if_neg (by omega), if_pos (by omega),
    ofNat_eq_of_toNat (b := b) (by omega), ofNat_eq_of_toNat (b := b₁) (by omega)]

theorem encodeChar_three {b b₁ b₂ : UInt8} (h : 0xE0 ≤ b.toNat ∧ b.toNat ≤ 0xEF)
    (h₁ : (if b.toNat = 0xE0 then 0xA0 else 0x80) ≤ b₁.toNat ∧
      b₁.toNat ≤ if b.toNat = 0xED then 0x9F else 0xBF)
    (h₂ : 0x80 ≤ b₂.toNat ∧ b₂.toNat ≤ 0xBF) :
    String.utf8EncodeChar (Char.ofNat ((b.toNat % 16 * 64 + b₁.toNat % 64) * 64 + b₂.toNat % 64)) =
      [b, b₁, b₂] := by
  have hsecond : 0x80 ≤ b₁.toNat ∧ b₁.toNat ≤ 0xBF ∧ (b.toNat = 0xE0 → 0xA0 ≤ b₁.toNat) ∧
      (b.toNat = 0xED → b₁.toNat ≤ 0x9F) := by
    split_ifs at h₁ <;> omega
  rw [encodeChar_ofNat (by omega), if_neg (by omega), if_neg (by omega), if_pos (by omega),
    ofNat_eq_of_toNat (b := b) (by omega), ofNat_eq_of_toNat (b := b₁) (by omega),
    ofNat_eq_of_toNat (b := b₂) (by omega)]

theorem encodeChar_four {b b₁ b₂ b₃ : UInt8} (h : 0xF0 ≤ b.toNat ∧ b.toNat ≤ 0xF4)
    (h₁ : (if b.toNat = 0xF0 then 0x90 else 0x80) ≤ b₁.toNat ∧
      b₁.toNat ≤ if b.toNat = 0xF4 then 0x8F else 0xBF)
    (h₂ : 0x80 ≤ b₂.toNat ∧ b₂.toNat ≤ 0xBF) (h₃ : 0x80 ≤ b₃.toNat ∧ b₃.toNat ≤ 0xBF) :
    String.utf8EncodeChar (Char.ofNat
      (((b.toNat % 8 * 64 + b₁.toNat % 64) * 64 + b₂.toNat % 64) * 64 + b₃.toNat % 64)) =
      [b, b₁, b₂, b₃] := by
  have hsecond : 0x80 ≤ b₁.toNat ∧ b₁.toNat ≤ 0xBF ∧ (b.toNat = 0xF0 → 0x90 ≤ b₁.toNat) ∧
      (b.toNat = 0xF4 → b₁.toNat ≤ 0x8F) := by
    split_ifs at h₁ <;> omega
  rw [encodeChar_ofNat (by omega), if_neg (by omega), if_neg (by omega), if_neg (by omega),
    ofNat_eq_of_toNat (b := b) (by omega), ofNat_eq_of_toNat (b := b₁) (by omega),
    ofNat_eq_of_toNat (b := b₂) (by omega), ofNat_eq_of_toNat (b := b₃) (by omega)]

theorem decodeFrom_goes_on {p : Pending} {b : UInt8} (bs : List UInt8) (hneeded : 2 ≤ p.needed)
    (hbounds : p.lower ≤ b.toNat ∧ b.toNat ≤ p.upper) :
    decodeFrom p (b :: bs) =
      decodeFrom ⟨p.codePoint * 64 + b.toNat % 64, p.needed - 1, 0x80, 0xBF⟩ bs := by
  have hmiddle := decodeFrom_middle bs hneeded b.toNat_lt hbounds
  rwa [UInt8.ofNat_toNat] at hmiddle

theorem decodeFrom_of_lead {b : UInt8} {p : Pending} (bs : List UInt8)
    (h : lead b.toNat = ([], p)) :
    decodeFrom .none (b :: bs) = decodeFrom p bs := by
  rw [decodeFrom_none_cons, h]
  rfl

/-- **What a decoding starts with**: a character, whose encoding the bytes start with, or U+FFFD. -/
theorem decodeFrom_cases {bytes : List UInt8} (h : bytes ≠ []) :
    (∃ c rest, bytes = String.utf8EncodeChar c ++ rest) ∨ StartsIllFormed bytes := by
  obtain ⟨b, bs, rfl⟩ := List.exists_cons_of_ne_nil h
  by_cases h1 : b.toNat < 0x80
  · refine .inl ⟨Char.ofNat b.toNat, bs, ?_⟩
    rw [encodeChar_ofNat (by omega), if_pos (by omega), UInt8.ofNat_toNat]
    rfl
  by_cases h2 : 0xC2 ≤ b.toNat ∧ b.toNat ≤ 0xDF
  · have hread := decodeFrom_of_lead bs (lead_two h2)
    obtain ⟨b₁, bs, rfl, hb₁⟩ | hcut := decodeFrom_pending (p := ⟨b.toNat % 32, 1, 0x80, 0xBF⟩)
      Nat.one_ne_zero bs
    · exact .inl ⟨_, bs, by rw [encodeChar_two h2 hb₁]; rfl⟩
    · exact .inr ⟨bs, hread.trans hcut, by simp only [List.length_cons]; omega⟩
  by_cases h3 : 0xE0 ≤ b.toNat ∧ b.toNat ≤ 0xEF
  · have hread := decodeFrom_of_lead bs (lead_three h3)
    obtain ⟨b₁, bs, rfl, hb₁⟩ | hcut := decodeFrom_pending (p := ⟨b.toNat % 16, 2, _, _⟩)
      (Nat.succ_ne_zero 1) bs
    · replace hread := hread.trans (decodeFrom_goes_on bs (le_refl 2) hb₁)
      obtain ⟨b₂, bs, rfl, hb₂⟩ | hcut := decodeFrom_pending
        (p := ⟨b.toNat % 16 * 64 + b₁.toNat % 64, 1, 0x80, 0xBF⟩) Nat.one_ne_zero bs
      · exact .inl ⟨_, bs, by rw [encodeChar_three h3 hb₁ hb₂]; rfl⟩
      · exact .inr ⟨bs, hread.trans hcut, by simp only [List.length_cons]; omega⟩
    · exact .inr ⟨bs, hread.trans hcut, by simp only [List.length_cons]; omega⟩
  by_cases h4 : 0xF0 ≤ b.toNat ∧ b.toNat ≤ 0xF4
  · have hread := decodeFrom_of_lead bs (lead_four h4)
    obtain ⟨b₁, bs, rfl, hb₁⟩ | hcut := decodeFrom_pending (p := ⟨b.toNat % 8, 3, _, _⟩)
      (Nat.succ_ne_zero 2) bs
    · replace hread := hread.trans (decodeFrom_goes_on bs (Nat.le_succ 2) hb₁)
      obtain ⟨b₂, bs, rfl, hb₂⟩ | hcut := decodeFrom_pending
        (p := ⟨b.toNat % 8 * 64 + b₁.toNat % 64, 2, 0x80, 0xBF⟩) (Nat.succ_ne_zero 1) bs
      · replace hread := hread.trans (decodeFrom_goes_on bs (le_refl 2) hb₂)
        obtain ⟨b₃, bs, rfl, hb₃⟩ | hcut := decodeFrom_pending
          (p := ⟨(b.toNat % 8 * 64 + b₁.toNat % 64) * 64 + b₂.toNat % 64, 1, 0x80, 0xBF⟩)
          Nat.one_ne_zero bs
        · exact .inl ⟨_, bs, by rw [encodeChar_four h4 hb₁ hb₂ hb₃]; rfl⟩
        · exact .inr ⟨bs, hread.trans hcut, by simp only [List.length_cons]; omega⟩
      · exact .inr ⟨bs, hread.trans hcut, by simp only [List.length_cons]; omega⟩
    · exact .inr ⟨bs, hread.trans hcut, by simp only [List.length_cons]; omega⟩
  · -- a byte that no encoding starts with
    have hlead : lead b.toNat = (['\uFFFD'], .none) := by
      rw [lead, if_neg h1, if_neg h2, if_neg (by omega), if_neg (by omega), if_neg (by omega),
        if_neg (by omega), if_neg (by omega), if_neg (by omega)]
    refine .inr ⟨bs, ?_, Nat.lt_succ_self _⟩
    rw [decodeFrom_none_cons, hlead]
    rfl

/-- Bytes that are decoded without U+FFFD are the encoding of what is decoded. -/
theorem encode_decodeFrom (bytes : List UInt8) (h : '\uFFFD' ∉ decodeFrom .none bytes) :
    (decodeFrom .none bytes).flatMap String.utf8EncodeChar = bytes := by
  induction hn : bytes.length using Nat.strong_induction_on generalizing bytes with
  | _ n ih =>
    by_cases hnil : bytes = []
    · subst hnil
      rfl
    · obtain ⟨c, rest, rfl⟩ | ⟨rest, hread, -⟩ := decodeFrom_cases hnil
      · rw [decodeFrom_encodeChar, List.mem_cons, not_or] at h
        have hpos : 0 < (String.utf8EncodeChar c).length := by
          rw [String.length_utf8EncodeChar]
          exact c.utf8Size_pos
        rw [List.length_append] at hn
        rw [decodeFrom_encodeChar, List.flatMap_cons, ih rest.length (by omega) rest h.2 rfl]
      · rw [hread] at h
        exact absurd List.mem_cons_self h

theorem length_charUnits_lt {c : Char} (h : 0x80 ≤ c.toNat) :
    (JsText.charUnits c).length < (String.utf8EncodeChar c).length := by
  have hcode := length_encodeChar_ofNat (JsText.toNat_valid c)
  rw [Char.ofNat_toNat, if_neg (by omega)] at hcode
  rw [hcode, JsText.charUnits]
  split_ifs <;> simp only [List.length_cons, List.length_nil] <;> omega

theorem length_charUnits_le (c : Char) :
    (JsText.charUnits c).length ≤ (String.utf8EncodeChar c).length := by
  by_cases h : 0x80 ≤ c.toNat
  · exact Nat.le_of_lt (length_charUnits_lt h)
  · rw [JsText.charUnits, if_pos (by omega), String.length_utf8EncodeChar]
    exact c.utf8Size_pos

/-- **UTF-8 never makes more units than there are bytes.** -/
theorem length_units_decode_le (bytes : List UInt8) :
    (JsText.units (decode bytes)).length ≤ bytes.length := by
  rw [decode, JsText.units, String.toList_ofList]
  induction hn : bytes.length using Nat.strong_induction_on generalizing bytes with
  | _ n ih =>
    by_cases hnil : bytes = []
    · subst hnil
      exact Nat.zero_le _
    · obtain ⟨c, rest, rfl⟩ | ⟨rest, hread, hlt⟩ := decodeFrom_cases hnil
      · have hfirst := length_charUnits_le c
        have hpos := List.length_pos_iff.mpr (JsText.charUnits_ne_nil c)
        rw [List.length_append] at hn
        have hrest := ih rest.length (by omega) rest rfl
        rw [decodeFrom_encodeChar, List.flatMap_cons, List.length_append]
        omega
      · have hrest := ih rest.length (by omega) rest rfl
        rw [hread, List.flatMap_cons, List.length_append]
        change 1 + _ ≤ n
        omega

/-- Characters that have as many units as bytes are those below 0x80. -/
theorem lt_of_length_units {cs : List Char}
    (h : (cs.flatMap String.utf8EncodeChar).length ≤ (cs.flatMap JsText.charUnits).length) :
    ∀ c ∈ cs, c.toNat < 0x80 := by
  have hle : ∀ cs : List Char,
      (cs.flatMap JsText.charUnits).length ≤ (cs.flatMap String.utf8EncodeChar).length := by
    intro cs
    induction cs with
    | nil => exact le_refl _
    | cons c =>
      have hfirst := length_charUnits_le c
      rw [List.flatMap_cons, List.flatMap_cons, List.length_append, List.length_append]
      omega
  induction cs with
  | nil => exact fun _ h => absurd h List.not_mem_nil
  | cons c cs ih =>
    rw [List.flatMap_cons, List.flatMap_cons, List.length_append, List.length_append] at h
    have hfirst := length_charUnits_le c
    have hrest := hle cs
    rw [List.forall_mem_cons]
    refine ⟨?_, ih (by omega)⟩
    by_contra hlarge
    have hlt := length_charUnits_lt (not_lt.mp hlarge)
    omega

theorem decodeFrom_ascii {bytes : List UInt8} (h : ∀ b ∈ bytes, b.toNat < 0x80) :
    decodeFrom .none bytes = bytes.map fun b => Char.ofNat b.toNat := by
  induction bytes with
  | nil => rfl
  | cons b bytes ih =>
    rw [List.forall_mem_cons] at h
    rw [decodeFrom_none_cons, lead, if_pos h.1, List.map_cons]
    exact congrArg _ (ih h.2)

end Utf8

namespace Buffer

/-! ### The encodings -/

/-- `buffer.toString("base64url")`: base64 with `-` and `_` in it, and not filled up. -/
def toBase64Url (bytes : List UInt8) : String :=
  String.ofList (((base64Chars bytes).filter (· ≠ '=')).map fun c =>
    if c = '+' then '-' else if c = '/' then '_' else c)

/-- The code units of `buffer.toString("utf16le")`: each of two bytes, the lower one first. A byte
that is left over is dropped. -/
def utf16leUnits : List UInt8 → List ℕ
  | lo :: hi :: rest => (lo.toNat + 256 * hi.toNat) :: utf16leUnits rest
  | _ => []

end Buffer

inductive BufferEncoding where
  | utf8
  | utf16le
  | latin1
  | ascii
  | base64
  | base64url
  | hex
deriving DecidableEq

namespace BufferEncoding

/-- The encoding of a name, whatever its case. -/
def ofName? (name : String) : Option BufferEncoding :=
  match name.toLower with
  | "utf8" | "utf-8" => some .utf8
  | "utf16le" | "utf-16le" | "ucs2" | "ucs-2" => some .utf16le
  | "latin1" | "binary" => some .latin1
  | "ascii" => some .ascii
  | "base64" => some .base64
  | "base64url" => some .base64url
  | "hex" => some .hex
  | _ => none

/-- The code units of `buffer.toString(encoding)`. -/
def units : BufferEncoding → List UInt8 → List ℕ
  | utf8, bytes => JsText.units (Utf8.decode bytes)
  | utf16le, bytes => Buffer.utf16leUnits bytes
  | latin1, bytes => bytes.map (·.toNat)
  -- the highest bit is left out
  | ascii, bytes => bytes.map (·.toNat % 0x80)
  | base64, bytes => JsText.units (Buffer.toBase64 bytes)
  | base64url, bytes => JsText.units (Buffer.toBase64Url bytes)
  | hex, bytes => JsText.units (Buffer.toHex bytes)

/-- The bytes that an encoding reads as UTF-8 does. -/
def ReadsAsUtf8 : BufferEncoding → List UInt8 → Prop
  | utf8, _ => True
  -- by chance, the encoding of U+BFEB starts with the bytes that UTF-16 writes it with
  | utf16le, bytes => bytes = [] ∨ bytes = [0xEB, 0xBF, 0xAB]
  | latin1, bytes => ∀ b ∈ bytes, b.toNat < 0x80
  | ascii, bytes => ∀ b ∈ bytes, b.toNat < 0x80
  | base64, bytes => bytes = []
  | base64url, bytes => bytes = []
  | hex, bytes => bytes = []

instance : (encoding : BufferEncoding) → (bytes : List UInt8) →
    Decidable (encoding.ReadsAsUtf8 bytes)
  | utf8, _ => inferInstanceAs (Decidable True)
  | utf16le, _ => inferInstanceAs (Decidable (_ ∨ _))
  | latin1, bytes => List.decidableBAll _ bytes
  | ascii, bytes => List.decidableBAll _ bytes
  | base64, bytes => inferInstanceAs (Decidable (bytes = []))
  | base64url, bytes => inferInstanceAs (Decidable (bytes = []))
  | hex, bytes => inferInstanceAs (Decidable (bytes = []))

/-- What the bytes are read as is a text: no surrogate stands alone. -/
def IsText (encoding : BufferEncoding) (bytes : List UInt8) : Prop :=
  ∃ text, JsText.units text = encoding.units bytes

/-! ### A unit for each byte -/

/-- Where each byte makes one unit, and none makes 0xFFFD, UTF-8 makes the same only of bytes below
0x80. -/
theorem lt_of_units_decode_eq_map {f : UInt8 → ℕ} (hf : ∀ b, f b < 0x100) {bytes : List UInt8}
    (h : JsText.units (Utf8.decode bytes) = bytes.map f) : ∀ b ∈ bytes, b.toNat < 0x80 := by
  have hchars : (Utf8.decodeFrom .none bytes).flatMap JsText.charUnits = bytes.map f := by
    rw [← h, JsText.units, Utf8.decode, String.toList_ofList]
  have hwell : '\uFFFD' ∉ Utf8.decodeFrom .none bytes := by
    intro hmem
    have hunit : 0xFFFD ∈ bytes.map f := by
      rw [← hchars, List.mem_flatMap]
      exact ⟨_, hmem, by decide⟩
    obtain ⟨b, -, hb⟩ := List.mem_map.mp hunit
    have hlt := hf b
    omega
  have hbytes := Utf8.encode_decodeFrom bytes hwell
  have hlength := congrArg List.length hchars
  rw [List.length_map] at hlength
  have hascii : ∀ c ∈ Utf8.decodeFrom .none bytes, c.toNat < 0x80 :=
    Utf8.lt_of_length_units (by rw [hbytes, hlength])
  have hencoded := Utf8.lt_of_mem_encode (s := Utf8.decode bytes) (by
    rw [Utf8.decode, String.toList_ofList]
    exact hascii)
  rwa [Utf8.encode_eq, Utf8.decode, String.toList_ofList, hbytes] at hencoded

/-- The text of units that each stand for a character below 0x100. -/
theorem units_ofList_map {f : UInt8 → ℕ} (hf : ∀ b, f b < 0x100) (bytes : List UInt8) :
    JsText.units (String.ofList (bytes.map fun b => Char.ofNat (f b))) = bytes.map f := by
  rw [JsText.units, String.toList_ofList]
  induction bytes with
  | nil => rfl
  | cons b bytes ih =>
    have hlt := hf b
    have hb : (Char.ofNat (f b)).toNat = f b := by
      have hvalid : (f b).isValidChar := .inl (by omega)
      rw [Char.ofNat, dif_pos hvalid]
      rfl
    rw [List.map_cons, List.flatMap_cons, JsText.charUnits, hb, if_pos (by omega), ih]
    rfl

theorem units_decode_of_ascii {bytes : List UInt8} (h : ∀ b ∈ bytes, b.toNat < 0x80) :
    JsText.units (Utf8.decode bytes) = bytes.map (·.toNat) := by
  rw [Utf8.decode, Utf8.decodeFrom_ascii h]
  exact units_ofList_map (fun b => b.toNat_lt) bytes

/-! ### More units than bytes -/

theorem units_decode_ne {bytes : List UInt8} {text : String}
    (h : bytes.length < (JsText.units text).length) :
    JsText.units (Utf8.decode bytes) ≠ JsText.units text := by
  intro heq
  have hle := Utf8.length_units_decode_le bytes
  rw [heq] at hle
  omega

theorem length_le_units (cs : List Char) :
    cs.length ≤ (JsText.units (String.ofList cs)).length := by
  rw [JsText.units, String.toList_ofList]
  induction cs with
  | nil => exact le_refl _
  | cons c =>
    have hpos := List.length_pos_iff.mpr (JsText.charUnits_ne_nil c)
    rw [List.flatMap_cons, List.length_append, List.length_cons]
    omega

theorem base64Digit_ne (n : ℕ) : Buffer.base64Digit n ≠ '=' := by
  have halphabet : '=' ∉ 'A' ::
      "ABCDEFGHIJKLMNOPQRSTUVWXYZabcdefghijklmnopqrstuvwxyz0123456789+/".toList := by
    decide
  refine fun heq => halphabet (heq ▸ ?_)
  unfold Buffer.base64Digit
  rw [List.getD_eq_getElem?_getD]
  generalize hdigit : (String.toList _)[n]? = digit
  cases digit with
  | none => exact List.mem_cons_self
  | some => exact List.mem_cons_of_mem _ (List.mem_of_getElem? hdigit)

/-- Bytes have more digits of base64. -/
theorem length_lt_digits {bytes : List UInt8} (h : bytes ≠ []) :
    bytes.length < ((Buffer.base64Chars bytes).filter (· ≠ '=')).length := by
  have hdigit : ∀ n, decide (Buffer.base64Digit n ≠ '=') = true := fun n =>
    decide_eq_true (base64Digit_ne n)
  fun_induction Buffer.base64Chars bytes with
  | case1 a b c rest n ih =>
    simp only [List.cons_append, List.nil_append, List.filter_cons, hdigit, if_true,
      List.length_cons]
    by_cases hrest : rest = []
    · subst hrest
      exact Nat.lt_add_of_pos_left (by decide)
    · have hlonger := ih hrest
      omega
  | case2 a b n =>
    simp only [List.filter_cons, hdigit, if_true]
    exact Nat.lt_succ_self _
  | case3 a =>
    simp only [List.filter_cons, hdigit, if_true]
    exact Nat.lt_succ_self _
  | case4 => exact absurd rfl h

theorem toBase64_longer {bytes : List UInt8} (h : bytes ≠ []) :
    bytes.length < (JsText.units (Buffer.toBase64 bytes)).length :=
  calc bytes.length < ((Buffer.base64Chars bytes).filter (· ≠ '=')).length := length_lt_digits h
    _ ≤ (Buffer.base64Chars bytes).length := List.length_filter_le _ _
    _ ≤ _ := length_le_units _

theorem toBase64Url_longer {bytes : List UInt8} (h : bytes ≠ []) :
    bytes.length < (JsText.units (Buffer.toBase64Url bytes)).length := by
  refine (length_lt_digits h).trans_le ?_
  rw [← List.length_map fun c => if c = '+' then '-' else if c = '/' then '_' else c]
  exact length_le_units _

theorem toHex_longer {bytes : List UInt8} (h : bytes ≠ []) :
    bytes.length < (JsText.units (Buffer.toHex bytes)).length := by
  refine Nat.lt_of_lt_of_le ?_ (length_le_units _)
  have hpos := List.length_pos_iff.mpr h
  rw [List.length_flatMap]
  simp only [List.length_cons, List.length_nil, List.map_const', List.sum_replicate_nat]
  omega

/-! ### Two bytes for a unit -/

/-- The characters of a decoding, as code units. -/
def unitsFrom (bytes : List UInt8) : List ℕ :=
  (Utf8.decodeFrom .none bytes).flatMap JsText.charUnits

theorem unitsFrom_encodeChar (c : Char) (rest : List UInt8) :
    unitsFrom (String.utf8EncodeChar c ++ rest) = JsText.charUnits c ++ unitsFrom rest := by
  rw [unitsFrom, Utf8.decodeFrom_encodeChar, List.flatMap_cons]
  rfl

theorem utf16leUnits_eq_cons {bytes : List UInt8} {u : ℕ} {us : List ℕ}
    (h : Buffer.utf16leUnits bytes = u :: us) :
    ∃ lo hi rest, bytes = lo :: hi :: rest ∧ lo.toNat + 256 * hi.toNat = u ∧
      Buffer.utf16leUnits rest = us := by
  match bytes, h with
  | lo :: hi :: rest, h => exact ⟨lo, hi, rest, rfl, (List.cons.inj h).1, (List.cons.inj h).2⟩

/-- UTF-8 is ahead by a unit that UTF-16 writes with two bytes, each of which makes the unit again:
it stays ahead. -/
theorem units_ahead (lo hi : UInt8)
    (hagain : ∀ rest, unitsFrom (lo :: hi :: rest) =
      (lo.toNat + 256 * hi.toNat) :: (lo.toNat + 256 * hi.toNat) :: unitsFrom rest)
    (count : ℕ) (bytes : List UInt8) :
    List.replicate (count + 1) (lo.toNat + 256 * hi.toNat) ++ unitsFrom bytes ≠
      Buffer.utf16leUnits bytes := by
  induction hn : bytes.length using Nat.strong_induction_on generalizing bytes count with
  | _ n ih =>
    intro h
    rw [List.replicate_succ, List.cons_append] at h
    obtain ⟨lo', hi', rest, rfl, hunit, hrest⟩ := utf16leUnits_eq_cons h.symm
    have hlo : lo' = lo := UInt8.toNat_inj.mp (by
      have hlt := lo.toNat_lt
      have hlt' := lo'.toNat_lt
      omega)
    subst hlo
    have hhi : hi' = hi := UInt8.toNat_inj.mp (by omega)
    subst hhi
    rw [hagain] at hrest
    refine ih rest.length ?_ (count + 1) rest rfl ?_
    · rw [← hn]
      simp only [List.length_cons]
      omega
    · rw [hrest, List.replicate_succ', List.replicate_succ', List.append_assoc, List.append_assoc]
      rfl

/-- The bytes and the units of a character. -/
inductive Written (c : Char) : Prop
  | ascii {b : UInt8} (hbytes : String.utf8EncodeChar c = [b])
      (hunits : JsText.charUnits c = [b.toNat])
      (hb : b.toNat < 0x80)
  | three {b b₁ b₂ : UInt8} (hbytes : String.utf8EncodeChar c = [b, b₁, b₂])
      (hunits : JsText.charUnits c = [(b.toNat % 16 * 64 + b₁.toNat % 64) * 64 + b₂.toNat % 64])
      (hb : 0xE0 ≤ b.toNat ∧ b.toNat < 0xF0) (hb₁ : 0x80 ≤ b₁.toNat ∧ b₁.toNat < 0xC0)
      (hb₂ : 0x80 ≤ b₂.toNat ∧ b₂.toNat < 0xC0)
  /-- Two bytes, or four of them and a pair of surrogates. -/
  | other {b b₁ : UInt8} {bs : List UInt8} {u : ℕ} {us : List ℕ}
      (hbytes : String.utf8EncodeChar c = b :: b₁ :: bs) (hunits : JsText.charUnits c = u :: us)
      (hu : u < 0x800 ∧ 0xC0 ≤ b.toNat ∨ (0xD800 ≤ u ∧ u < 0xDC00) ∧ 0xF0 ≤ b.toNat)
      (hb₁ : 0x80 ≤ b₁.toNat ∧ b₁.toNat < 0xC0)

theorem written (c : Char) : Written c := by
  have hvalid := JsText.toNat_valid c
  have hcode := Utf8.encodeChar_ofNat hvalid
  rw [Char.ofNat_toNat] at hcode
  by_cases h1 : c.toNat ≤ 0x7F
  · rw [if_pos h1] at hcode
    refine .ascii hcode ?_ ?_
    · rw [JsText.charUnits, if_pos (by omega), Utf8.toNat_ofNat_byte (by omega)]
    · rw [Utf8.toNat_ofNat_byte (by omega)]
      omega
  rw [if_neg h1] at hcode
  by_cases h2 : c.toNat ≤ 0x7FF
  · have hunits : JsText.charUnits c = [c.toNat] := by rw [JsText.charUnits, if_pos (by omega)]
    rw [if_pos h2] at hcode
    refine .other hcode hunits (.inl ⟨by omega, ?_⟩) ?_
    · rw [Utf8.toNat_ofNat_byte (by omega)]
      omega
    · rw [Utf8.toNat_ofNat_byte (by omega)]
      omega
  rw [if_neg h2] at hcode
  by_cases h3 : c.toNat ≤ 0xFFFF
  · rw [if_pos h3] at hcode
    refine .three hcode ?_ ?_ ?_ ?_
    · rw [JsText.charUnits, if_pos (by omega), Utf8.toNat_ofNat_byte (by omega),
        Utf8.toNat_ofNat_byte (by omega), Utf8.toNat_ofNat_byte (by omega)]
      refine congrArg ([·]) ?_
      omega
    · rw [Utf8.toNat_ofNat_byte (by omega)]
      omega
    · rw [Utf8.toNat_ofNat_byte (by omega)]
      omega
    · rw [Utf8.toNat_ofNat_byte (by omega)]
      omega
  · rw [if_neg h3] at hcode
    have hunits : JsText.charUnits c =
        [0xD800 + (c.toNat - 0x10000) / 0x400, 0xDC00 + (c.toNat - 0x10000) % 0x400] := by
      rw [JsText.charUnits, if_neg (by omega)]
    refine .other hcode hunits (.inr ⟨by omega, ?_⟩) ?_
    · rw [Utf8.toNat_ofNat_byte (by omega)]
      omega
    · rw [Utf8.toNat_ofNat_byte (by omega)]
      omega

/-- A unit of two bytes that are written in the middle of characters of three. -/
def InThree (u : ℕ) : Prop := (0x8000 ≤ u ∧ u < 0xC000) ∨ (0xE000 ≤ u ∧ u < 0xF000)

theorem unitsFrom_of_starts {bytes : List UInt8} (h : Utf8.StartsIllFormed bytes) :
    ∃ us, unitsFrom bytes = 0xFFFD :: us := by
  obtain ⟨rest, hread, -⟩ := h
  rw [unitsFrom, hread, List.flatMap_cons]
  exact ⟨_, rfl⟩

/-- A character in three bytes is the only one whose unit may be one of these. -/
theorem three_of_inThree {bytes : List UInt8} {u : ℕ} {us : List ℕ} (h : unitsFrom bytes = u :: us)
    (hu : InThree u) :
    ∃ b b₁ b₂ rest, bytes = b :: b₁ :: b₂ :: rest ∧ unitsFrom rest = us ∧
      (0xE0 ≤ b.toNat ∧ b.toNat < 0xF0) ∧ (0x80 ≤ b₁.toNat ∧ b₁.toNat < 0xC0) ∧
      (0x80 ≤ b₂.toNat ∧ b₂.toNat < 0xC0) := by
  have hnil : bytes ≠ [] := by
    rintro rfl
    cases h
  unfold InThree at hu
  obtain ⟨c, rest, rfl⟩ | hstarts := Utf8.decodeFrom_cases hnil
  · rw [unitsFrom_encodeChar] at h
    cases written c with
    | ascii hbytes hunits =>
      rw [hunits] at h
      have hhead := (List.cons.inj h).1
      omega
    | other hbytes hunits =>
      rw [hunits] at h
      have hhead := (List.cons.inj h).1
      omega
    | three hbytes hunits hb hb₁ hb₂ =>
      rw [hunits] at h
      exact ⟨_, _, _, rest, by rw [hbytes]; rfl, (List.cons.inj h).2, hb, hb₁, hb₂⟩
  · obtain ⟨us', hread⟩ := unitsFrom_of_starts hstarts
    have hhead := (List.cons.inj (hread.symm.trans h)).1
    omega

/-- The same of a unit that a byte of such a character makes with the byte that follows. -/
theorem three_of_carry {a b : UInt8} {bs : List UInt8} {us : List ℕ}
    (ha : 0x80 ≤ a.toNat ∧ a.toNat < 0xC0)
    (h : unitsFrom (b :: bs) = (a.toNat + 256 * b.toNat) :: us) :
    ∃ b₁ b₂ rest, bs = b₁ :: b₂ :: rest ∧ unitsFrom rest = us ∧
      (0xE0 ≤ b.toNat ∧ b.toNat < 0xF0) ∧ (0x80 ≤ b₁.toNat ∧ b₁.toNat < 0xC0) ∧
      (0x80 ≤ b₂.toNat ∧ b₂.toNat < 0xC0) := by
  obtain ⟨c, rest, hbs⟩ | hstarts := Utf8.decodeFrom_cases (List.cons_ne_nil b bs)
  · rw [hbs, unitsFrom_encodeChar] at h
    cases written c with
    | ascii hbytes hunits =>
      rw [hbytes] at hbs
      obtain ⟨rfl, rfl⟩ := List.cons.inj hbs
      rw [hunits] at h
      have hhead := (List.cons.inj h).1
      omega
    | other hbytes hunits =>
      rw [hbytes] at hbs
      obtain ⟨rfl, rfl⟩ := List.cons.inj hbs
      rw [hunits] at h
      have hhead := (List.cons.inj h).1
      omega
    | three hbytes hunits hb hb₁ hb₂ =>
      rw [hbytes] at hbs
      obtain ⟨rfl, rfl⟩ := List.cons.inj hbs
      rw [hunits] at h
      exact ⟨_, _, rest, rfl, (List.cons.inj h).2, hb, hb₁, hb₂⟩
  · obtain ⟨us', hread⟩ := unitsFrom_of_starts hstarts
    have hhead := (List.cons.inj (hread.symm.trans h)).1
    omega

/-- **UTF-8 is behind**: UTF-16 has read bytes of characters of three, whose units it still has to
tell, and perhaps one byte more. What follows can only be such characters, by which UTF-8 falls
behind further. -/
theorem units_behind (queue : List ℕ) (hqueue : ∀ u ∈ queue, InThree u) (carry : Option UInt8)
    (hcarry : ∀ a ∈ carry, 0x80 ≤ a.toNat ∧ a.toNat < 0xC0) (hbehind : queue ≠ [] ∨ carry ≠ none)
    (bytes : List UInt8) (h : unitsFrom bytes = queue ++ Buffer.utf16leUnits
      (carry.toList ++ bytes)) :
    bytes = [] ∧ queue = [] := by
  induction hn : bytes.length using Nat.strong_induction_on generalizing bytes queue carry with
  | _ n ih =>
    cases queue with
    | nil =>
      obtain ⟨a, rfl⟩ := Option.ne_none_iff_exists'.mp (hbehind.resolve_left fun h => h rfl)
      cases bytes with
      | nil => exact ⟨rfl, rfl⟩
      | cons =>
        obtain ⟨b₁, b₂, rest, rfl, hrest, hb, hb₁, hb₂⟩ := three_of_carry (hcarry a rfl) h
        have hlater := ih rest.length (by rw [← hn]; simp only [List.length_cons]; omega)
          [b₁.toNat + 256 * b₂.toNat] (List.forall_mem_singleton.mpr (.inl (by omega))) none nofun
          (.inl (List.cons_ne_nil _ _)) rest hrest rfl
        exact absurd hlater.2 (List.cons_ne_nil _ _)
    | cons u queue =>
      rw [List.forall_mem_cons] at hqueue
      obtain ⟨b, b₁, b₂, rest, rfl, hrest, hb, hb₁, hb₂⟩ := three_of_inThree h hqueue.1
      have hlt : rest.length < n := by
        rw [← hn]
        simp only [List.length_cons]
        omega
      exfalso
      cases carry with
      | none =>
        have hlater := ih rest.length hlt (queue ++ [b.toNat + 256 * b₁.toNat])
          (List.forall_mem_append.mpr ⟨hqueue.2, List.forall_mem_singleton.mpr (.inl (by omega))⟩)
          (some b₂) (fun a ha => Option.some.inj ha ▸ hb₂) (.inr nofun) rest
          (by rw [hrest, List.append_assoc]; rfl) rfl
        exact List.append_ne_nil_of_right_ne_nil _ (List.cons_ne_nil _ _) hlater.2
      | some a =>
        have ha := hcarry a rfl
        have hlater := ih rest.length hlt
          (queue ++ [a.toNat + 256 * b.toNat, b₁.toNat + 256 * b₂.toNat])
          (List.forall_mem_append.mpr ⟨hqueue.2, List.forall_mem_cons.mpr ⟨.inr (by omega),
            List.forall_mem_singleton.mpr (.inl (by omega))⟩⟩)
          none nofun (.inl (List.append_ne_nil_of_right_ne_nil _ (List.cons_ne_nil _ _))) rest
          (by rw [hrest, List.append_assoc]; rfl) rfl
        exact List.append_ne_nil_of_right_ne_nil _ (List.cons_ne_nil _ _) hlater.2

/-- The only character of three bytes whose unit its first two bytes make. -/
theorem own_bytes {m n k : ℕ} (hm : 0xE0 ≤ m ∧ m < 0xF0) (hn : 0x80 ≤ n ∧ n < 0xC0)
    (hk : 0x80 ≤ k ∧ k < 0xC0) (h : (m % 16 * 64 + n % 64) * 64 + k % 64 = m + 256 * n) :
    m = 0xEB ∧ n = 0xBF ∧ k = 0xAB := by
  obtain ⟨x, rfl⟩ := Nat.exists_eq_add_of_le hm.1
  obtain ⟨y, rfl⟩ := Nat.exists_eq_add_of_le hn.1
  obtain ⟨z, rfl⟩ := Nat.exists_eq_add_of_le hk.1
  have hx : (0xE0 + x) % 16 = x := by omega
  have hy : (0x80 + y) % 64 = y := by omega
  have hz : (0x80 + z) % 64 = z := by omega
  rw [hx, hy, hz] at h
  have hfirst : x = 9 ∨ x = 10 ∨ x = 11 := by omega
  rcases hfirst with rfl | rfl | rfl
  · omega
  · omega
  · omega

/-- **UTF-8 and UTF-16 read the same** of no byte at all, and of the three bytes of U+BFEB, of which
UTF-16 drops the last one. -/
theorem unitsFrom_eq_utf16le_iff (bytes : List UInt8) :
    unitsFrom bytes = Buffer.utf16leUnits bytes ↔ bytes = [] ∨ bytes = [0xEB, 0xBF, 0xAB] := by
  constructor
  · intro h
    refine or_iff_not_imp_left.mpr fun hnil => ?_
    obtain ⟨c, rest, rfl⟩ | hstarts := Utf8.decodeFrom_cases hnil
    · rw [unitsFrom_encodeChar] at h
      cases written c with
      | @ascii b hbytes hunits =>
        -- the byte behind a character below 0x80 is 0, and UTF-8 reads it as a character
        exfalso
        rw [hunits, hbytes, List.singleton_append] at h
        obtain ⟨lo, hi, rest', hread, hunit, hrest⟩ := utf16leUnits_eq_cons h.symm
        obtain ⟨rfl, rfl⟩ := List.cons.inj hread
        obtain rfl : hi = 0 := UInt8.toNat_inj.mp (by rw [UInt8.toNat_zero]; omega)
        have hzero : ∀ rest, unitsFrom (0 :: rest) = 0 :: unitsFrom rest :=
          unitsFrom_encodeChar (Char.ofNat 0)
        have hagain : ∀ rest, unitsFrom (0 :: 0 :: rest) = 0 :: 0 :: unitsFrom rest :=
          fun rest => by
          rw [hzero, hzero]
        rw [hzero] at hrest
        exact units_ahead 0 0 hagain 0 rest' hrest.symm
      | @three b b₁ b₂ hbytes hunits hb hb₁ hb₂ =>
        rw [hunits, hbytes] at h
        obtain ⟨hhead, hrest⟩ := List.cons.inj h
        obtain ⟨rfl, -⟩ := units_behind [] (fun _ h => absurd h List.not_mem_nil) (some _)
          (fun a ha => Option.some.inj ha ▸ hb₂) (.inr nofun) rest hrest
        have hnumbers := own_bytes hb hb₁ hb₂ hhead
        obtain rfl : b = 0xEB := UInt8.toNat_inj.mp hnumbers.1
        obtain rfl : b₁ = 0xBF := UInt8.toNat_inj.mp hnumbers.2.1
        obtain rfl : b₂ = 0xAB := UInt8.toNat_inj.mp hnumbers.2.2
        rw [hbytes, List.append_nil]
      | @other b b₁ bs u us hbytes hunits =>
        rw [hunits, hbytes] at h
        have hhead := (List.cons.inj h).1
        have hb := b.toNat_lt
        omega
    · exfalso
      obtain ⟨us, hus⟩ := unitsFrom_of_starts hstarts
      rw [hus] at h
      obtain ⟨lo, hi, rest, rfl, hunit, hrest⟩ := utf16leUnits_eq_cons h.symm
      have hlo := lo.toNat_lt
      have hhi := hi.toNat_lt
      obtain rfl : lo = 0xFD := UInt8.toNat_inj.mp (show lo.toNat = 0xFD by omega)
      obtain rfl : hi = 0xFF := UInt8.toNat_inj.mp (show hi.toNat = 0xFF by omega)
      have hagain : ∀ rest, unitsFrom (0xFD :: 0xFF :: rest) = 0xFFFD :: 0xFFFD :: unitsFrom rest :=
        fun rest => rfl
      rw [hagain] at hus
      have hrest' := (List.cons.inj hus).2.trans hrest.symm
      exact units_ahead 0xFD 0xFF hagain 0 rest hrest'
  · rintro (rfl | rfl)
    · rfl
    · decide +kernel

/-! ### What an encoding reads as UTF-8 does -/

/-- **The bytes that an encoding reads as UTF-8 does.** -/
theorem units_decode_iff (encoding : BufferEncoding) (bytes : List UInt8) :
    JsText.units (Utf8.decode bytes) = encoding.units bytes ↔ encoding.ReadsAsUtf8 bytes := by
  have hlonger : ∀ text : List UInt8 → String, text [] = "" →
      (∀ bytes, bytes ≠ [] → bytes.length < (JsText.units (text bytes)).length) →
      (JsText.units (Utf8.decode bytes) = JsText.units (text bytes) ↔ bytes = []) := by
    intro text hnone htext
    constructor
    · intro h
      by_contra hne
      exact units_decode_ne (htext bytes hne) h
    · rintro rfl
      rw [hnone]
      rfl
  cases encoding with
  | utf8 => exact iff_of_true rfl trivial
  | utf16le =>
    refine Iff.trans ?_ (unitsFrom_eq_utf16le_iff bytes)
    rw [JsText.units, Utf8.decode, String.toList_ofList]
    rfl
  | latin1 => exact ⟨lt_of_units_decode_eq_map fun b => b.toNat_lt, units_decode_of_ascii⟩
  | ascii =>
    refine ⟨lt_of_units_decode_eq_map fun b => by
      omega, fun h => (units_decode_of_ascii h).trans ?_⟩
    exact List.map_congr_left fun b hb => (Nat.mod_eq_of_lt (h b hb)).symm
  | base64 => exact hlonger Buffer.toBase64 rfl fun bytes => toBase64_longer
  | base64url => exact hlonger Buffer.toBase64Url rfl fun bytes => toBase64Url_longer
  | hex => exact hlonger Buffer.toHex rfl fun bytes => toHex_longer

theorem isText_of_ne_utf16le {encoding : BufferEncoding} (h : encoding ≠ .utf16le)
    (bytes : List UInt8) :
    encoding.IsText bytes := by
  cases encoding with
  | utf16le => exact absurd rfl h
  | utf8 => exact ⟨_, rfl⟩
  | latin1 => exact ⟨_, units_ofList_map (fun b => b.toNat_lt) bytes⟩
  | ascii => exact ⟨_, units_ofList_map (fun b => by omega) bytes⟩
  | base64 => exact ⟨_, rfl⟩
  | base64url => exact ⟨_, rfl⟩
  | hex => exact ⟨_, rfl⟩

/-! ### Texts of code units -/

/-- A code unit that stands alone; a surrogate is read as U+FFFD. -/
def charOfUnit (u : ℕ) : Char := if 0xD800 ≤ u ∧ u < 0xE000 then '\uFFFD' else Char.ofNat u

/-- The characters of some code units. -/
def charsOfUnits : List ℕ → List Char
  | hi :: lo :: rest =>
    if (0xD800 ≤ hi ∧ hi < 0xDC00) ∧ 0xDC00 ≤ lo ∧ lo < 0xE000 then
      Char.ofNat (0x10000 + (hi - 0xD800) * 0x400 + (lo - 0xDC00)) :: charsOfUnits rest
    else charOfUnit hi :: charsOfUnits (lo :: rest)
  | [u] => [charOfUnit u]
  | [] => []

theorem charsOfUnits_append (c : Char) (us : List ℕ) :
    charsOfUnits (JsText.charUnits c ++ us) = c :: charsOfUnits us := by
  have hvalid := JsText.toNat_valid c
  by_cases h : c.toNat < 0x10000
  · have halone : charOfUnit c.toNat = c := by rw [charOfUnit, if_neg (by omega), Char.ofNat_toNat]
    rw [JsText.charUnits, if_pos h, List.singleton_append]
    cases us with
    | nil => rw [charsOfUnits, halone, charsOfUnits]
    | cons => rw [charsOfUnits, if_neg (by omega), halone]
  · have hcode : 0x10000 + (0xD800 + (c.toNat - 0x10000) / 0x400 - 0xD800) * 0x400 +
        (0xDC00 + (c.toNat - 0x10000) % 0x400 - 0xDC00) = c.toNat := by omega
    rw [JsText.charUnits, if_neg h, List.cons_append, List.cons_append, List.nil_append,
      charsOfUnits, if_pos (by omega), hcode, Char.ofNat_toNat]

theorem charsOfUnits_units (text : String) :
    String.ofList (charsOfUnits (JsText.units text)) = text := by
  have hchars : ∀ cs : List Char, charsOfUnits (cs.flatMap JsText.charUnits) = cs := by
    intro cs
    induction cs with
    | nil => rfl
    | cons c cs ih => rw [List.flatMap_cons, charsOfUnits_append, ih]
  rw [JsText.units, hchars, String.ofList_toList]

/-- `buffer.toString(encoding)`, made well-formed. -/
def toString (encoding : BufferEncoding) (bytes : List UInt8) : String :=
  String.ofList (charsOfUnits (encoding.units bytes))

theorem toString_eq {encoding : BufferEncoding} {bytes : List UInt8} {text : String}
    (h : JsText.units text = encoding.units bytes) : encoding.toString bytes = text := by
  rw [toString, ← h, charsOfUnits_units]

end BufferEncoding
