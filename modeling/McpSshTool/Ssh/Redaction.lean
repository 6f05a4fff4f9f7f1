import McpSshTool.Ssh.KnownHosts

/-!
# Redaction of logged data

`logging.ts`: `redactSensitiveData`, which replaces what is stored under sensitive keys before data
are logged.

* `isSensitive` — the patterns of sensitive keys;
* `LogDatum` — what may be logged, with the objects that are more than their members;
* `redactSensitiveData` — the traversal; it assigns to a new object, and the key `__proto__` of an
  object is its prototype;
* `Agree` — two data that agree up to what is stored under sensitive keys;
* `redact_eq_of_same` — the result says nothing about secrets;
* `IsPlain`, `redaction_iff` — when nothing else is changed.
-/

open Library

namespace Ssh

/-! ### Sensitive keys -/

/-- `SENSITIVE_PATTERNS`. Each has the flag `i`. -/
def sensitivePatterns : List String :=
  ["password", "privatekey", "passphrase", "sudopassword", "secret", "token", "credential", "auth",
    "api.?key", "bearer", "private.?key", "pem"]

/-- A code unit in lower case. No unit outside of ASCII is one case of a unit in it, where
expressions are concerned. -/
def lowerUnit (u : ℕ) : ℕ := if 0x41 ≤ u ∧ u ≤ 0x5A then u + 0x20 else u

/-- A text begins with what the pattern matches. Of the special characters, patterns have `.?`. -/
def patternMatches : List Char → List ℕ → Bool
  | [], _ => true
  | '.' :: '?' :: pattern, [] => patternMatches pattern []
  | '.' :: '?' :: pattern, u :: us =>
    patternMatches pattern (u :: us) || !isLineTerminator u && patternMatches pattern us
  | _ :: _, [] => false
  | c :: pattern, u :: us => lowerUnit u = c.toNat && patternMatches pattern us

/-- Some pattern is found in the key. -/
def isSensitive (key : String) : Bool :=
  sensitivePatterns.any fun pattern =>
    (JsText.units key).tails.any (patternMatches pattern.toList)

example : ["sudoPassword", "API-Key", "author", "host", "__proto__"].map isSensitive =
    [true, true, true, false, false] := by decide +kernel

/-! ### Data -/

/-- A value that is no object. -/
inductive LogLeaf where
  | undefined
  | null
  | bool (b : Bool)
  | num (n : JsNumber)
  | bigint (i : ℤ)
  | str (s : String)
  | symbol (description : String)
  | function (name : String)
deriving DecidableEq

/-- A condition takes the value for true. -/
def LogLeaf.truthy : LogLeaf → Bool
  | undefined => false
  | null => false
  | bool b => b
  | num n => n ≠ .nan ∧ n ≠ .fin 0
  | bigint i => i ≠ 0
  | str s => s ≠ ""
  | symbol _ => true
  | function _ => true

/-- What may be logged. An object lists its own enumerable members in order. -/
inductive LogDatum where
  | leaf (value : LogLeaf)
  | arr (items : List LogDatum)
  /-- An object that has only its members, as a literal makes it, or `JSON.parse`. -/
  | plain (members : List (String × LogDatum))
  /-- An object that is more than its members: an `Error` with its message, a `Date`, a `Map`. -/
  | special (state : String) (members : List (String × LogDatum))
  /-- An object whose prototype was set. -/
  | inheriting (proto : LogDatum) (members : List (String × LogDatum))

/-- The members of an object. -/
abbrev LogMembers := List (String × LogDatum)

namespace LogDatum

/-- A condition takes the datum for true. -/
def truthy : LogDatum → Bool
  | leaf value => value.truthy
  | _ => true

mutual

/-- No object, at any depth, lists a member twice. -/
def WellKeyed : LogDatum → Prop
  | leaf _ => True
  | arr items => WellKeyedItems items
  | plain members => (members.map Prod.fst).Nodup ∧ WellKeyedMembers members
  | special _ members => (members.map Prod.fst).Nodup ∧ WellKeyedMembers members
  | inheriting proto members =>
    WellKeyed proto ∧ (members.map Prod.fst).Nodup ∧ WellKeyedMembers members

def WellKeyedItems : List LogDatum → Prop
  | [] => True
  | x :: xs => WellKeyed x ∧ WellKeyedItems xs

def WellKeyedMembers : LogMembers → Prop
  | [] => True
  | (_, v) :: members => WellKeyed v ∧ WellKeyedMembers members

end

/-! ### The traversal -/

/-- The object that is built: what its prototype was set to, and its members. -/
structure Built where
  proto : Option LogDatum := none
  members : LogMembers := []

/-- `redacted[key] = value`. The key `__proto__` sets the prototype, to an object or to `null`;
other values are ignored there. -/
def Built.assign (built : Built) (e : String × LogDatum) : Built :=
  if e.1 = "__proto__" then
    match e.2 with
    | leaf .null => { built with proto := some (leaf .null) }
    | leaf _ => built
    | object => { built with proto := some object }
  else { built with members := OrderedMap.setList built.members e.1 e.2 }

/-- The object that was built. -/
def Built.datum (built : Built) : LogDatum :=
  match built.proto with
  | none => plain built.members
  | some proto => inheriting proto built.members

/-- The object that members are assigned to, one by one. -/
def assigned (members : LogMembers) : LogDatum := (members.foldl Built.assign {}).datum

/-- `value ? REDACTED : value`. -/
def redacted (value : LogDatum) : LogDatum := if value.truthy then leaf (.str "****") else value

mutual

/-- **`redactSensitiveData`.** -/
def redactSensitiveData : LogDatum → LogDatum
  | leaf value => leaf value
  | arr items => arr (redactItems items)
  | plain members => assigned (redactMembers members)
  | special _ members => assigned (redactMembers members)
  | inheriting _ members => assigned (redactMembers members)

def redactItems : List LogDatum → List LogDatum
  | [] => []
  | x :: xs => redactSensitiveData x :: redactItems xs

/-- What is assigned for each member. -/
def redactMembers : LogMembers → LogMembers
  | [] => []
  | (key, value) :: members =>
    (key, if isSensitive key then redacted value else redactSensitiveData value) ::
      redactMembers members

end

/-! ### Agreement -/

mutual

/-- **The data agree up to what is stored under sensitive keys**, and that is related. -/
inductive Agree (R : LogDatum → LogDatum → Prop) : LogDatum → LogDatum → Prop
  | leaf (value : LogLeaf) : Agree R (.leaf value) (.leaf value)
  | arr {xs ys : List LogDatum} (h : AgreeItems R xs ys) : Agree R (.arr xs) (.arr ys)
  | plain {ms ns : LogMembers} (h : AgreeMembers R ms ns) : Agree R (.plain ms) (.plain ns)
  | special (state : String) {ms ns : LogMembers} (h : AgreeMembers R ms ns) :
      Agree R (.special state ms) (.special state ns)
  | inheriting (proto : LogDatum) {ms ns : LogMembers} (h : AgreeMembers R ms ns) :
      Agree R (.inheriting proto ms) (.inheriting proto ns)

inductive AgreeItems (R : LogDatum → LogDatum → Prop) : List LogDatum → List LogDatum → Prop
  | nil : AgreeItems R [] []
  | cons {x y : LogDatum} {xs ys : List LogDatum} (h : Agree R x y) (hs : AgreeItems R xs ys) :
      AgreeItems R (x :: xs) (y :: ys)

inductive AgreeMembers (R : LogDatum → LogDatum → Prop) : LogMembers → LogMembers → Prop
  | nil : AgreeMembers R [] []
  | sensitive {key : String} (hkey : isSensitive key = true) {v w : LogDatum} {ms ns : LogMembers}
      (h : R v w) (hs : AgreeMembers R ms ns) : AgreeMembers R ((key, v) :: ms) ((key, w) :: ns)
  | other {key : String} (hkey : isSensitive key = false) {v w : LogDatum} {ms ns : LogMembers}
      (h : Agree R v w) (hs : AgreeMembers R ms ns) : AgreeMembers R ((key, v) :: ms)
        ((key, w) :: ns)

end

/-- The same data, or two that a condition takes for true. -/
def SameOrTruthy (v w : LogDatum) : Prop := v = w ∨ v.truthy = true ∧ w.truthy = true

/-- **The data differ only in truthy values under sensitive keys.** -/
def SameButSecrets (v w : LogDatum) : Prop := Agree SameOrTruthy v w

/-- **Nothing was changed but what is under sensitive keys.** -/
def ChangedOnlySecrets (v w : LogDatum) : Prop := Agree (fun _ _ => True) v w

theorem redacted_eq {v w : LogDatum} (h : SameOrTruthy v w) : redacted v = redacted w := by
  rcases h with rfl | ⟨hv, hw⟩
  · rfl
  · rw [redacted, redacted, if_pos hv, if_pos hw]

mutual

/-- **The result says nothing about secrets.** -/
theorem redact_eq_of_same {v w : LogDatum} (h : Agree SameOrTruthy v w) :
    redactSensitiveData v = redactSensitiveData w := by
  cases h with
  | leaf => rfl
  | arr h => rw [redactSensitiveData, redactSensitiveData, redactItems_eq_of_same h]
  | plain h => rw [redactSensitiveData, redactSensitiveData, redactMembers_eq_of_same h]
  | special state h => rw [redactSensitiveData, redactSensitiveData, redactMembers_eq_of_same h]
  | inheriting proto h => rw [redactSensitiveData, redactSensitiveData, redactMembers_eq_of_same h]

theorem redactItems_eq_of_same {xs ys : List LogDatum} (h : AgreeItems SameOrTruthy xs ys) :
    redactItems xs = redactItems ys := by
  cases h with
  | nil => rfl
  | cons h hs => rw [redactItems, redactItems, redact_eq_of_same h, redactItems_eq_of_same hs]

theorem redactMembers_eq_of_same {ms ns : LogMembers} (h : AgreeMembers SameOrTruthy ms ns) :
    redactMembers ms = redactMembers ns := by
  cases h with
  | nil => rfl
  | sensitive hkey h hs =>
    rw [redactMembers, redactMembers, if_pos hkey, if_pos hkey, redacted_eq h,
      redactMembers_eq_of_same hs]
  | other hkey h hs =>
    rw [redactMembers, redactMembers, if_neg (Bool.eq_false_iff.mp hkey),
      if_neg (Bool.eq_false_iff.mp hkey), redact_eq_of_same h, redactMembers_eq_of_same hs]

end

/-! ### The object that is built -/

theorem keys_redactMembers (members : LogMembers) :
    (redactMembers members).map Prod.fst = members.map Prod.fst := by
  induction members with
  | nil => rw [redactMembers]
  | cons e members ih => rw [redactMembers, List.map_cons, List.map_cons, ih]

theorem Built.assign_of_ne {built : Built} {e : String × LogDatum} (h : e.1 ≠ "__proto__") :
    built.assign e = { built with members := OrderedMap.setList built.members e.1 e.2 } :=
  if_neg h

theorem Built.members_assign_proto {built : Built} {e : String × LogDatum} (h : e.1 = "__proto__") :
    (built.assign e).members = built.members := by
  rw [assign, if_pos h]
  split
  · rfl
  · rfl
  · rfl

/-- Members with keys of their own are assigned one behind the other. -/
theorem foldl_assign {built : Built} {members : LogMembers}
    (hnodup : ((built.members ++ members).map Prod.fst).Nodup)
    (hproto : "__proto__" ∉ members.map Prod.fst) :
    members.foldl Built.assign built = { built with members := built.members ++ members } := by
  induction members generalizing built with
  | nil => rw [List.foldl_nil, List.append_nil]
  | cons e members ih =>
    rw [List.map_cons, List.mem_cons, not_or] at hproto
    have hnew : e.1 ∉ built.members.map Prod.fst := fun hmem => by
      rw [List.map_append, List.map_cons] at hnodup
      exact List.disjoint_of_nodup_append hnodup hmem List.mem_cons_self
    have hstep : built.assign e = { built with members := built.members ++ [e] } := by
      rw [Built.assign_of_ne (Ne.symm hproto.1), OrderedMap.setList, if_neg hnew]
    rw [List.foldl_cons, hstep, ih (by simpa using hnodup) hproto.2, List.append_assoc,
      List.singleton_append]

/-- **Distinct keys other than `__proto__` make an object with just these members.** -/
theorem assigned_eq {members : LogMembers} (hnodup : (members.map Prod.fst).Nodup)
    (hproto : "__proto__" ∉ members.map Prod.fst) : assigned members = plain members := by
  have hfold : members.foldl Built.assign {} = { members := members } :=
    @foldl_assign {} members hnodup hproto
  rw [assigned, hfold]
  rfl

/-- No member of the object that is built has the key `__proto__`, and its prototype is set only by
that key. -/
theorem assigned_cases (members : LogMembers) :
    ∃ built : Built, assigned members = built.datum ∧
      "__proto__" ∉ built.members.map Prod.fst ∧
      (built.proto ≠ none → "__proto__" ∈ members.map Prod.fst) := by
  have hfold : ∀ (members : LogMembers) (built : Built),
      "__proto__" ∉ built.members.map Prod.fst →
      "__proto__" ∉ (members.foldl Built.assign built).members.map Prod.fst ∧
        ((members.foldl Built.assign built).proto ≠ none →
          built.proto ≠ none ∨ "__proto__" ∈ members.map Prod.fst) := by
    intro members
    induction members with
    | nil => exact fun built hkeys => ⟨hkeys, .inl⟩
    | cons e members ih =>
      intro built hkeys
      rw [List.foldl_cons, List.map_cons, List.mem_cons]
      by_cases he : e.1 = "__proto__"
      · obtain ⟨hmembers, -⟩ := ih (built.assign e)
          (by rw [Built.members_assign_proto he]; exact hkeys)
        exact ⟨hmembers, fun _ => .inr (.inl he.symm)⟩
      · have hassign : built.assign e = _ := Built.assign_of_ne he
        obtain ⟨hmembers, hproto⟩ := ih (built.assign e) (by
          rw [hassign]
          exact fun hmem => (OrderedMap.mem_keys_setList.mp hmem).elim (Ne.symm he) hkeys)
        refine ⟨hmembers, fun hset => (hproto hset).imp (fun h => ?_) .inr⟩
        rwa [hassign] at h
  obtain ⟨hkeys, hproto⟩ := hfold members {} List.not_mem_nil
  exact ⟨_, rfl, hkeys, fun hset => (hproto hset).resolve_left fun h => h rfl⟩

/-! ### Plain data -/

mutual

/-- **Outside of sensitive keys there are only plain objects**, without a key `__proto__`. -/
def IsPlain : LogDatum → Prop
  | leaf _ => True
  | arr items => IsPlainItems items
  | plain members => IsPlainMembers members
  | special _ _ => False
  | inheriting _ _ => False

def IsPlainItems : List LogDatum → Prop
  | [] => True
  | x :: xs => IsPlain x ∧ IsPlainItems xs

def IsPlainMembers : LogMembers → Prop
  | [] => True
  | (key, value) :: members =>
    key ≠ "__proto__" ∧ (isSensitive key = false → IsPlain value) ∧ IsPlainMembers members

end

theorem proto_notMem_of_isPlainMembers {members : LogMembers} (h : IsPlainMembers members) :
    "__proto__" ∉ members.map Prod.fst := by
  induction members with
  | nil => exact List.not_mem_nil
  | cons e members ih =>
    rw [IsPlainMembers] at h
    rw [List.map_cons, List.mem_cons, not_or]
    exact ⟨Ne.symm h.1, ih h.2.2⟩

theorem AgreeMembers.keys_eq {R : LogDatum → LogDatum → Prop} {ms ns : LogMembers}
    (h : AgreeMembers R ms ns) : ms.map Prod.fst = ns.map Prod.fst := by
  induction ms generalizing ns with
  | nil =>
    cases h
    rfl
  | cons m ms ih =>
    cases h with
    | sensitive hkey h hs => rw [List.map_cons, List.map_cons, ih hs]
    | other hkey h hs => rw [List.map_cons, List.map_cons, ih hs]

mutual

/-- Of plain data, only secrets are changed. -/
theorem changedOnlySecrets_of_isPlain {v : LogDatum} (hkeyed : v.WellKeyed) (h : v.IsPlain) :
    ChangedOnlySecrets v (redactSensitiveData v) := by
  cases v with
  | leaf value =>
    rw [redactSensitiveData]
    exact .leaf value
  | arr =>
    rw [WellKeyed] at hkeyed
    rw [IsPlain] at h
    rw [redactSensitiveData]
    exact .arr (agreeItems_of_isPlain hkeyed h)
  | plain members =>
    rw [WellKeyed] at hkeyed
    rw [IsPlain] at h
    have hassigned : assigned (redactMembers members) = plain (redactMembers members) := by
      refine assigned_eq ?_ ?_
      · rw [keys_redactMembers]
        exact hkeyed.1
      · rw [keys_redactMembers]
        exact proto_notMem_of_isPlainMembers h
    rw [redactSensitiveData, hassigned]
    exact .plain (agreeMembers_of_isPlain hkeyed.2 h)
  | special =>
    rw [IsPlain] at h
    exact h.elim
  | inheriting =>
    rw [IsPlain] at h
    exact h.elim

theorem agreeItems_of_isPlain {xs : List LogDatum} (hkeyed : WellKeyedItems xs)
    (h : IsPlainItems xs) : AgreeItems (fun _ _ => True) xs (redactItems xs) := by
  cases xs with
  | nil =>
    rw [redactItems]
    exact .nil
  | cons =>
    rw [WellKeyedItems] at hkeyed
    rw [IsPlainItems] at h
    rw [redactItems]
    exact .cons (changedOnlySecrets_of_isPlain hkeyed.1 h.1) (agreeItems_of_isPlain hkeyed.2 h.2)

theorem agreeMembers_of_isPlain {ms : LogMembers} (hkeyed : WellKeyedMembers ms)
    (h : IsPlainMembers ms) : AgreeMembers (fun _ _ => True) ms (redactMembers ms) := by
  cases ms with
  | nil =>
    rw [redactMembers]
    exact .nil
  | cons m =>
    obtain ⟨key, value⟩ := m
    rw [WellKeyedMembers] at hkeyed
    rw [IsPlainMembers] at h
    rw [redactMembers]
    have hrest := agreeMembers_of_isPlain hkeyed.2 h.2.2
    cases hkey : isSensitive key with
    | true => exact .sensitive hkey trivial hrest
    | false => exact .other hkey (changedOnlySecrets_of_isPlain hkeyed.1 (h.2.1 hkey)) hrest

end

/-- What agrees with the object that is built is a plain object without a key `__proto__`. -/
theorem plain_of_agree_assigned {R : LogDatum → LogDatum → Prop} {v : LogDatum}
    {members : LogMembers}
    (h : Agree R v (assigned members)) :
    (∃ ms, v = plain ms ∧ "__proto__" ∉ ms.map Prod.fst) ∨
      ∃ proto ms, v = inheriting proto ms ∧ "__proto__" ∉ ms.map Prod.fst ∧
        "__proto__" ∈ members.map Prod.fst := by
  obtain ⟨built, hbuilt, hkeys, hproto⟩ := assigned_cases members
  rw [hbuilt, Built.datum] at h
  cases hset : built.proto with
  | none =>
    rw [hset] at h
    cases h with
    | @plain ms ns h => exact .inl ⟨ms, rfl, by rw [h.keys_eq]; exact hkeys⟩
  | some proto =>
    rw [hset] at h
    cases h with
    | @inheriting _ ms ns h =>
      exact .inr ⟨proto, ms, rfl, by rw [h.keys_eq]; exact hkeys,
        hproto (by rw [hset]; exact Option.some_ne_none proto)⟩

theorem plain_of_agree_redacted {R : LogDatum → LogDatum → Prop} {v : LogDatum}
    {members : LogMembers}
    (h : Agree R v (assigned (redactMembers members)))
    (hv : ∀ proto ms, v = inheriting proto ms → ms = members) :
    ∃ ms, v = plain ms ∧ "__proto__" ∉ ms.map Prod.fst := by
  rcases plain_of_agree_assigned h with hplain | ⟨proto, ms, rfl, hnot, hmem⟩
  · exact hplain
  · rw [keys_redactMembers, ← hv proto ms rfl] at hmem
    exact absurd hmem hnot

mutual

/-- Data of which only secrets are changed are plain. -/
theorem isPlain_of_changedOnlySecrets {v : LogDatum} (hkeyed : v.WellKeyed)
    (h : ChangedOnlySecrets v (redactSensitiveData v)) : v.IsPlain := by
  cases v with
  | leaf =>
    rw [IsPlain]
    trivial
  | arr =>
    rw [WellKeyed] at hkeyed
    rw [redactSensitiveData] at h
    rw [IsPlain]
    cases h with
    | arr h => exact isPlainItems_of_agree hkeyed h
  | plain =>
    rw [WellKeyed] at hkeyed
    rw [redactSensitiveData] at h
    rw [IsPlain]
    obtain ⟨ms, heq, hproto⟩ := plain_of_agree_redacted h fun _ _ heq => nomatch heq
    obtain rfl := LogDatum.plain.inj heq
    rw [assigned_eq (by rw [keys_redactMembers]; exact hkeyed.1)
      (by rw [keys_redactMembers]; exact hproto)] at h
    cases h with
    | plain h => exact isPlainMembers_of_agree hkeyed.2 hproto h
  | special =>
    rw [redactSensitiveData] at h
    obtain ⟨ms, heq, -⟩ := plain_of_agree_redacted h fun _ _ heq => nomatch heq
    cases heq
  | inheriting =>
    rw [redactSensitiveData] at h
    obtain ⟨ms, heq, -⟩ := plain_of_agree_redacted h fun _ ms heq =>
      (LogDatum.inheriting.inj heq).2.symm
    cases heq

theorem isPlainItems_of_agree {xs : List LogDatum} (hkeyed : WellKeyedItems xs)
    (h : AgreeItems (fun _ _ => True) xs (redactItems xs)) : IsPlainItems xs := by
  cases xs with
  | nil =>
    rw [IsPlainItems]
    trivial
  | cons =>
    rw [WellKeyedItems] at hkeyed
    rw [redactItems] at h
    rw [IsPlainItems]
    cases h with
    | cons h hs =>
      exact ⟨isPlain_of_changedOnlySecrets hkeyed.1 h, isPlainItems_of_agree hkeyed.2 hs⟩

theorem isPlainMembers_of_agree {ms : LogMembers} (hkeyed : WellKeyedMembers ms)
    (hproto : "__proto__" ∉ ms.map Prod.fst)
    (h : AgreeMembers (fun _ _ => True) ms (redactMembers ms)) : IsPlainMembers ms := by
  cases ms with
  | nil =>
    rw [IsPlainMembers]
    trivial
  | cons m =>
    obtain ⟨key, value⟩ := m
    rw [WellKeyedMembers] at hkeyed
    rw [redactMembers] at h
    rw [IsPlainMembers]
    rw [List.map_cons, List.mem_cons, not_or] at hproto
    refine ⟨Ne.symm hproto.1, fun hother => ?_, ?_⟩
    · rw [if_neg (Bool.eq_false_iff.mp hother)] at h
      cases h with
      | sensitive hkey =>
        rw [hother] at hkey
        cases hkey
      | other _ h => exact isPlain_of_changedOnlySecrets hkeyed.1 h
    · cases h with
      | sensitive _ _ hs => exact isPlainMembers_of_agree hkeyed.2 hproto.2 hs
      | other _ _ hs => exact isPlainMembers_of_agree hkeyed.2 hproto.2 hs

end

end LogDatum

/-! ### Values -/

/-- A value that may be logged. -/
structure LogValue where
  datum : LogDatum
  wellKeyed : datum.WellKeyed

open LogDatum

/-- **When redaction hides secrets and changes nothing else**: outside of sensitive keys, the value
has only plain objects, without a key `__proto__`. The first part holds of every value. -/
theorem redaction_iff (value : LogValue) :
    (∀ other, SameButSecrets value.datum other →
        redactSensitiveData value.datum = redactSensitiveData other) ∧
      ChangedOnlySecrets value.datum (redactSensitiveData value.datum) ↔ value.datum.IsPlain := by
  constructor
  · rintro ⟨-, hchanged⟩
    exact isPlain_of_changedOnlySecrets value.wellKeyed hchanged
  · intro hplain
    exact ⟨fun other hsame => redact_eq_of_same hsame,
      changedOnlySecrets_of_isPlain value.wellKeyed hplain⟩

/-- A host, and an error. -/
def loggedError : LogValue where
  datum := .plain [("host", .leaf (.str "web")), ("error", .special "Error: connect ETIMEDOUT" [])]
  wellKeyed := ⟨by decide, trivial, ⟨by decide, trivial⟩, trivial⟩

/-- Nothing is left of an error that is logged. -/
theorem logged_error_emptied :
    redactSensitiveData loggedError.datum =
        .plain [("host", .leaf (.str "web")), ("error", .plain [])] ∧
      ¬ChangedOnlySecrets loggedError.datum (redactSensitiveData loggedError.datum) := by
  have hhost : isSensitive "host" = false := by decide +kernel
  have herror : isSensitive "error" = false := by decide +kernel
  have hredacted : redactSensitiveData loggedError.datum =
      .plain [("host", .leaf (.str "web")), ("error", .plain [])] := by
    simp only [loggedError, redactSensitiveData, redactMembers, hhost, herror, Bool.false_eq_true,
      if_false]
    rfl
  refine ⟨hredacted, fun hchanged => ?_⟩
  rw [hredacted] at hchanged
  -- the member `error`
  cases hchanged with
  | plain h =>
    cases h with
    | sensitive hkey =>
      rw [hhost] at hkey
      cases hkey
    | other _ _ hs =>
      cases hs with
      | sensitive hkey =>
        rw [herror] at hkey
        cases hkey
      | other _ hspecial => cases hspecial

end Ssh
