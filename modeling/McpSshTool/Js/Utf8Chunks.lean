import McpSshTool.Js.IllFormed
import McpSshTool.Js.Text

/-!
# Bytes that are decoded piece by piece

A decoder that keeps its state may be given its bytes in any pieces. `decode` starts anew with each,
so what is decoded piece by piece is the decoding of the whole only where no piece ends inside a
sequence that the next one goes on with.

* `emitted`, `pendingAfter` — what a decoder has written after some bytes, and the state it is in;
* `CleanCut` — nothing that is pending at a cut goes on behind it;
* `decode_pieces_iff` — the decodings of the pieces make up that of the whole exactly when all cuts
  are clean;
* `trim_pieces_iff` — the same of a text that has lost the white space at its ends.

A cut that is not clean shows in the number of characters: what is pending is read as one U+FFFD and
what would have gone on with it as another (`length_decodeFrom_le`).
-/

namespace Utf8

/-- What a decoder has written after some bytes, before it is told that they end. -/
def emitted (p : Pending) : List UInt8 → List Char
  | [] => []
  | b :: bs =>
    let b := b.toNat
    if p.needed = 0 then (lead b).1 ++ emitted (lead b).2 bs
    else if p.lower ≤ b ∧ b ≤ p.upper then
      let codePoint := p.codePoint * 64 + b % 64
      if p.needed = 1 then Char.ofNat codePoint :: emitted .none bs
      else emitted ⟨codePoint, p.needed - 1, 0x80, 0xBF⟩ bs
    else '\uFFFD' :: ((lead b).1 ++ emitted (lead b).2 bs)

/-- What is pending after some bytes. -/
def pendingAfter (p : Pending) : List UInt8 → Pending
  | [] => p
  | b :: bs =>
    let b := b.toNat
    if p.needed = 0 then pendingAfter (lead b).2 bs
    else if p.lower ≤ b ∧ b ≤ p.upper then
      if p.needed = 1 then pendingAfter .none bs
      else pendingAfter ⟨p.codePoint * 64 + b % 64, p.needed - 1, 0x80, 0xBF⟩ bs
    else pendingAfter (lead b).2 bs

/-- **A decoder that keeps its state** goes on where it has stopped. -/
theorem decodeFrom_append (p : Pending) (as bs : List UInt8) :
    decodeFrom p (as ++ bs) = emitted p as ++ decodeFrom (pendingAfter p as) bs := by
  induction as generalizing p with
  | nil => rfl
  | cons a as ih =>
    rw [List.cons_append, decodeFrom, emitted, pendingAfter]
    dsimp only
    split_ifs
    · rw [ih, List.append_assoc]
    · rw [ih, List.cons_append]
    · exact ih _
    · rw [ih, List.cons_append, List.append_assoc]

/-! ### The states between pieces -/

theorem After.upper {k : ℕ} {p : Pending} (h : After k p) : p.upper ≤ 0xBF := by
  cases h with
  | oneOfThree h hlower hupper => exact hupper.1
  | oneOfFour h hlower hupper => exact hupper.1
  | _ => exact le_refl _

theorem after_lead {b : ℕ} (hb : b < 256) : ∃ k, After k (lead b).2 := by
  obtain ⟨-, hlead⟩ | hlead | ⟨p, hlead, -, hafter⟩ := lead_cases hb
  · exact ⟨0, by rw [hlead]; exact .none⟩
  · exact ⟨0, by rw [hlead]; exact .none⟩
  · exact ⟨1, by rw [hlead]; exact hafter⟩

theorem after_pendingAfter (as : List UInt8) {k : ℕ} {p : Pending} (h : After k p) :
    ∃ k', After k' (pendingAfter p as) := by
  induction as generalizing k p with
  | nil => exact ⟨k, h⟩
  | cons a as ih =>
    obtain ⟨l, hlead⟩ := after_lead a.toNat_lt
    rw [pendingAfter]
    split_ifs with hneeded hbounds hlast
    · exact ih hlead
    · exact ih .none
    · exact ih (h.middle (by omega) hbounds)
    · exact ih hlead

theorem lead_of_bounds {k : ℕ} {p : Pending} (h : After k p) {b : ℕ}
    (hb : p.lower ≤ b ∧ b ≤ p.upper) : lead b = (['\uFFFD'], .none) := by
  have hlower := h.lower
  have hupper := h.upper
  rw [lead, if_neg (by omega), if_neg (by omega), if_neg (by omega), if_neg (by omega),
    if_neg (by omega), if_neg (by omega), if_neg (by omega), if_neg (by omega)]

theorem decodeFrom_of_needed {p : Pending} (h : p.needed = 0) (bs : List UInt8) :
    decodeFrom p bs = decodeFrom .none bs := by
  cases bs with
  | nil =>
    rw [decodeFrom, decodeFrom, if_pos h]
    rfl
  | cons =>
    rw [decodeFrom, decodeFrom, if_pos h]
    exact (if_pos rfl).symm

theorem decodeFrom_none_cons (b : UInt8) (bs : List UInt8) :
    decodeFrom .none (b :: bs) = (lead b.toNat).1 ++ decodeFrom (lead b.toNat).2 bs := by
  rw [decodeFrom]
  exact if_pos rfl

/-- **What is pending** makes one character more at most. -/
theorem length_decodeFrom_le (bs : List UInt8) {k : ℕ} {p : Pending} (h : After k p) :
    (decodeFrom p bs).length ≤ 1 + (decodeFrom .none bs).length := by
  induction bs generalizing k p with
  | nil =>
    rw [decodeFrom]
    split <;> simp
  | cons b bs ih =>
    by_cases hneeded : p.needed = 0
    · rw [decodeFrom_of_needed hneeded]
      exact Nat.le_add_left _ 1
    · by_cases hbounds : p.lower ≤ b.toNat ∧ b.toNat ≤ p.upper
      · -- the byte counts as a character of its own where nothing is pending
        have halone : decodeFrom .none (b :: bs) = '\uFFFD' :: decodeFrom .none bs := by
          rw [decodeFrom_none_cons, lead_of_bounds h hbounds]
          rfl
        rw [halone, decodeFrom, if_neg hneeded, if_pos hbounds, List.length_cons]
        dsimp only
        split_ifs with hlast
        · rw [List.length_cons]
          omega
        · have hmiddle := ih (h.middle (by omega) hbounds)
          omega
      · rw [decodeFrom, if_neg hneeded, if_neg hbounds, ← decodeFrom_none_cons, List.length_cons]
        omega

/-! ### Cuts -/

/-- **Nothing goes on behind the cut**: nothing is pending there, or the next byte is none that goes
on with what is. -/
def CleanCut (as bs : List UInt8) : Prop :=
  (pendingAfter .none as).needed = 0 ∨
    ∀ b ∈ bs.head?, ¬((pendingAfter .none as).lower ≤ b.toNat ∧
      b.toNat ≤ (pendingAfter .none as).upper)

/-- Every cut between two of the pieces is clean. -/
def CutsBetween : List (List UInt8) → Prop
  | [] => True
  | piece :: pieces => CleanCut piece pieces.flatten ∧ CutsBetween pieces

instance (as bs : List UInt8) : Decidable (CleanCut as bs) :=
  have : Decidable (∀ b ∈ bs.head?,
      ¬((pendingAfter .none as).lower ≤ b.toNat ∧ b.toNat ≤ (pendingAfter .none as).upper)) :=
    Option.decidableForallMem _
  inferInstanceAs (Decidable (_ ∨ _))

instance decidableCutsBetween : (pieces : List (List UInt8)) → Decidable (CutsBetween pieces)
  | [] => inferInstanceAs (Decidable True)
  | _ :: pieces =>
    have := decidableCutsBetween pieces
    inferInstanceAs (Decidable (_ ∧ _))

theorem decodeFrom_cut (as bs : List UInt8) :
    decodeFrom .none as ++ decodeFrom .none bs =
      emitted .none as ++ (decodeFrom (pendingAfter .none as) [] ++ decodeFrom .none bs) := by
  have hwhole := decodeFrom_append .none as []
  rw [List.append_nil] at hwhole
  rw [hwhole, List.append_assoc]

/-- A clean cut does not show. -/
theorem decodeFrom_of_cleanCut {as bs : List UInt8} (h : CleanCut as bs) :
    decodeFrom .none (as ++ bs) = decodeFrom .none as ++ decodeFrom .none bs := by
  rw [decodeFrom_append, decodeFrom_cut]
  refine congrArg (emitted .none as ++ ·) ?_
  by_cases hneeded : (pendingAfter .none as).needed = 0
  · rw [decodeFrom_of_needed hneeded, decodeFrom_of_needed hneeded]
    rfl
  · have hbounds := h.resolve_left hneeded
    have hshort : decodeFrom (pendingAfter .none as) [] = ['\uFFFD'] := by
      rw [decodeFrom, if_neg hneeded]
    rw [hshort]
    cases bs with
    | nil => exact hshort
    | cons b =>
      rw [decodeFrom, if_neg hneeded, if_neg (hbounds b rfl), ← decodeFrom_none_cons]
      rfl

/-- **A cut that is not clean** costs a character at least. -/
theorem length_decodeFrom_lt_of_not_cleanCut {as bs : List UInt8} (h : ¬CleanCut as bs) :
    (decodeFrom .none (as ++ bs)).length <
      (decodeFrom .none as).length + (decodeFrom .none bs).length := by
  obtain ⟨hneeded, hbounds⟩ := not_or.mp h
  simp only [not_forall, not_not] at hbounds
  obtain ⟨b, hhead, hbounds⟩ := hbounds
  obtain ⟨k, hafter⟩ := after_pendingAfter as .none
  cases bs with
  | nil => cases hhead
  | cons b' bs =>
    obtain rfl := Option.some.inj hhead
    have halone : decodeFrom .none (b' :: bs) = '\uFFFD' :: decodeFrom .none bs := by
      rw [decodeFrom_none_cons, lead_of_bounds hafter hbounds]
      rfl
    have hshort : decodeFrom (pendingAfter .none as) [] = ['\uFFFD'] := by
      rw [decodeFrom, if_neg hneeded]
    rw [← List.length_append, decodeFrom_append, decodeFrom_cut, hshort, halone, List.length_append,
      List.length_append, decodeFrom, if_neg hneeded, if_pos hbounds]
    dsimp only
    -- the byte ends the code point, or goes on with it
    split_ifs with hlast
    · show _ + ((decodeFrom .none bs).length + 1) < _ + ((decodeFrom .none bs).length + 1 + 1)
      omega
    · have hmiddle := length_decodeFrom_le bs (hafter.middle (by omega) hbounds)
      show _ < _ + ((decodeFrom .none bs).length + 1 + 1)
      omega

theorem length_decodeFrom_append_le (as bs : List UInt8) :
    (decodeFrom .none (as ++ bs)).length ≤
      (decodeFrom .none as).length + (decodeFrom .none bs).length := by
  by_cases h : CleanCut as bs
  · rw [decodeFrom_of_cleanCut h, List.length_append]
  · exact Nat.le_of_lt (length_decodeFrom_lt_of_not_cleanCut h)

theorem length_decodeFrom_flatten_le (pieces : List (List UInt8)) :
    (decodeFrom .none pieces.flatten).length ≤ (pieces.flatMap (decodeFrom .none)).length := by
  induction pieces with
  | nil => exact le_refl _
  | cons piece pieces =>
    have hcut := length_decodeFrom_append_le piece pieces.flatten
    rw [List.flatten_cons, List.flatMap_cons, List.length_append]
    omega

/-- **Decoding piece by piece is decoding the whole** exactly when every cut is clean. -/
theorem flatMap_decodeFrom_iff (pieces : List (List UInt8)) :
    pieces.flatMap (decodeFrom .none) = decodeFrom .none pieces.flatten ↔ CutsBetween pieces := by
  induction pieces with
  | nil => exact ⟨fun _ => trivial, fun _ => rfl⟩
  | cons piece pieces ih =>
    rw [List.flatMap_cons, List.flatten_cons]
    constructor
    · intro h
      -- the lengths add up on both sides only if no cut costs anything
      have hlength := congrArg List.length h
      have hrest := length_decodeFrom_flatten_le pieces
      rw [List.length_append] at hlength
      have hclean : CleanCut piece pieces.flatten := by
        by_contra hcut
        have hlt := length_decodeFrom_lt_of_not_cleanCut hcut
        omega
      refine ⟨hclean, ih.mp ?_⟩
      rw [decodeFrom_of_cleanCut hclean] at h
      exact List.append_cancel_left h
    · rintro ⟨hclean, hrest⟩
      rw [ih.mpr hrest, decodeFrom_of_cleanCut hclean]

theorem decode_pieces_iff (pieces : List (List UInt8)) :
    String.join (pieces.map decode) = decode pieces.flatten ↔ CutsBetween pieces := by
  have htexts : (String.join (pieces.map decode)).toList = pieces.flatMap (decodeFrom .none) := by
    rw [String.toList_join, List.flatMap_map]
    exact congrArg pieces.flatMap (funext fun piece => String.toList_ofList)
  rw [← flatMap_decodeFrom_iff, ← htexts, ← String.toList_inj, decode, String.toList_ofList]

/-- After ASCII nothing is pending. -/
theorem cutsBetween_of_ascii {pieces : List (List UInt8)}
    (h : ∀ b ∈ pieces.flatten, b.toNat < 0x80) : CutsBetween pieces := by
  have hpending : ∀ as : List UInt8, (∀ b ∈ as, b.toNat < 0x80) →
      pendingAfter .none as = .none := by
    intro as has
    induction as with
    | nil => rfl
    | cons a as ih =>
      rw [List.forall_mem_cons] at has
      rw [pendingAfter, if_pos (show Pending.none.needed = 0 from rfl), lead, if_pos has.1]
      exact ih has.2
  induction pieces with
  | nil => trivial
  | cons piece pieces ih =>
    rw [List.flatten_cons, List.forall_mem_append] at h
    exact ⟨.inl (by rw [hpending piece h.1]; rfl), ih h.2⟩

theorem ascii_encode {text : String} (h : ∀ c ∈ text.toList, c.toNat < 0x80) :
    ∀ b ∈ encode text, b.toNat < 0x80 := by
  intro b hb
  rw [encode_eq] at hb
  obtain ⟨c, hc, hb⟩ := List.mem_flatMap.mp hb
  have hlt : c.val.toNat < 0x80 := h c hc
  rw [String.utf8EncodeChar, if_pos (Nat.le_of_lt_succ hlt), List.mem_singleton] at hb
  rw [hb, UInt8.toNat_ofNat']
  omega

/-- A character that was not lost to a cut is one of the whole. -/
theorem count_decodeFrom_le {c : Char} (hc : c ≠ '\uFFFD') (bs : List UInt8) {k : ℕ} {p : Pending}
    (h : After k p) : (decodeFrom .none bs).count c ≤ (decodeFrom p bs).count c := by
  induction bs generalizing k p with
  | nil => exact Nat.zero_le _
  | cons b bs ih =>
    by_cases hneeded : p.needed = 0
    · rw [decodeFrom_of_needed hneeded]
    · by_cases hbounds : p.lower ≤ b.toNat ∧ b.toNat ≤ p.upper
      · have halone : decodeFrom .none (b :: bs) = '\uFFFD' :: decodeFrom .none bs := by
          rw [decodeFrom_none_cons, lead_of_bounds h hbounds]
          rfl
        rw [halone, List.count_cons_of_ne hc.symm, decodeFrom, if_neg hneeded, if_pos hbounds]
        dsimp only
        split_ifs with hlast
        · exact List.count_le_count_cons
        · exact ih (h.middle (by omega) hbounds)
      · rw [decodeFrom.eq_2 p, if_neg hneeded, if_neg hbounds, ← decodeFrom_none_cons,
          List.count_cons_of_ne hc.symm]

theorem count_pieces_le {c : Char} (hc : c ≠ '\uFFFD') (pieces : List (List UInt8)) :
    (pieces.flatMap (decodeFrom .none)).count c ≤ (decodeFrom .none pieces.flatten).count c := by
  induction pieces with
  | nil => exact Nat.le_refl _
  | cons piece pieces =>
    obtain ⟨k, hafter⟩ := after_pendingAfter piece .none
    have hshort : (decodeFrom (pendingAfter .none piece) []).count c = 0 := by
      rw [decodeFrom]
      split
      · rfl
      · exact List.count_eq_zero.mpr (by simpa using hc)
    have hrest := count_decodeFrom_le hc pieces.flatten hafter
    have hcut := congrArg (List.count c) (decodeFrom_cut piece pieces.flatten)
    rw [List.flatMap_cons, List.flatten_cons, decodeFrom_append]
    simp only [List.count_append] at hcut ⊢
    omega

open JsText in
/-- **A trimmed text comes back in pieces** exactly when every cut is clean and it had nothing to
trim: a cut adds nothing but U+FFFD, which is no white space. -/
theorem trim_pieces_iff {pieces : List (List UInt8)} {text : String}
    (htext : pieces.flatten = encode text) :
    trim (String.join (pieces.map decode)) = text ↔ CutsBetween pieces ∧ trim text = text := by
  have hwhole : CutsBetween pieces ↔ String.join (pieces.map decode) = text := by
    rw [← decode_pieces_iff, htext, decode_encode]
  rw [hwhole]
  refine ⟨fun h => ?_, fun h => h.1.symm ▸ h.2⟩
  obtain ⟨before, behind, hparts, hspaces⟩ := exists_trim (String.join (pieces.map decode))
  rw [h] at hparts
  have hnone : before ++ behind = [] := by
    refine List.eq_nil_iff_forall_not_mem.mpr fun c hc => ?_
    have hne : c ≠ '\uFFFD' := by
      rintro rfl
      exact Bool.false_ne_true (hspaces _ hc)
    have hcount := count_pieces_le hne pieces
    have hsame : pieces.flatMap (decodeFrom .none) = (String.join (pieces.map decode)).toList := by
      rw [String.toList_join, List.flatMap_map]
      exact congrArg pieces.flatMap (funext fun piece => String.toList_ofList.symm)
    have hdecoded : decodeFrom .none pieces.flatten = text.toList := by
      rw [htext, ← String.toList_ofList (l := decodeFrom _ _)]
      exact congrArg String.toList (decode_encode text)
    have hpos := List.count_pos_iff.mpr hc
    rw [hsame, hdecoded, hparts] at hcount
    simp only [List.count_append] at hcount hpos
    omega
  obtain ⟨rfl, rfl⟩ := List.append_eq_nil_iff.mp hnone
  rw [List.nil_append, List.append_nil, String.toList_inj] at hparts
  exact ⟨hparts, hparts ▸ h⟩

/-- A euro sign may be cut before and behind it, and not inside. -/
example : CutsBetween [[0x41], [0xE2, 0x82, 0xAC], [0x42]] ∧
    ¬CutsBetween [[0x41, 0xE2], [0x82, 0xAC]] := by
  decide

end Utf8
