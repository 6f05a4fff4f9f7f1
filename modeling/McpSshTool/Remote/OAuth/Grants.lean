import McpSshTool.Library.Run
import McpSshTool.Remote.OAuth.Server

/-!
# Access tokens and authorize requests

What an access token says about the request it goes back to, for any interleaving of authorize
requests, callbacks and token requests.

An authorize request is at one place at a time: it waits as a transaction or as a callback, or it
has its login. Every place is left in the step in which the next one is entered, so no request gets
two logins or two codes, and a code that is redeemed is marked in the step that reads it.

* `Integrity` — the invariant of the tables, the memory and the tokens;
* `Grows` — what no step takes back: validated requests, logins, clients and redeemed codes;
* `redeem` — the step that reads a code and marks it;
* `Bound` — an access token fits the authorize request it was issued for, as far as the columns of
  the code give back what the request has said.
-/

open Library

namespace Remote

namespace OAuthServer

variable (d : OAuthDeployment)

/-! ### What no step takes back -/

/-- From `s` to `s'` nothing is lost. -/
structure Grows (s s' : OAuthServer) : Prop where
  authorized : s.authorized <+: s'.authorized
  logins : s.logins ⊆ s'.logins
  clients : ∀ k client, s.clients.get? k = some client → s'.clients.get? k = some client
  redeemed : ∀ k row, s.codes.get? k = some row → row.usedAt.isSome → s'.codes.get? k = some row

theorem Grows.refl (s : OAuthServer) : s.Grows s :=
  ⟨List.prefix_rfl, List.Subset.refl _, fun _ _ h => h, fun _ _ h _ => h⟩

theorem Grows.authorized_get {s s' : OAuthServer} (h : s.Grows s') {i : ℕ} {p : PendingAuthorize}
    (hp : s.authorized[i]? = some p) : s'.authorized[i]? = some p := by
  obtain ⟨l, hl⟩ := h.authorized
  obtain ⟨hi, -⟩ := List.getElem?_eq_some_iff.mp hp
  rw [← hl, List.getElem?_append_left hi, hp]

theorem Grows.length_le {s s' : OAuthServer} (h : s.Grows s') :
    s.authorized.length ≤ s'.authorized.length :=
  h.authorized.length_le

/-! ### How tokens and codes go back to requests -/

/-- The user who logged in for an authorize request. -/
def LoggedIn (s : OAuthServer) (p : PendingAuthorize) (user : GitHubUser) : Prop :=
  (p.request, user) ∈ s.logins

/-- A validated authorize request names a registered client and one of its redirect uris. -/
def Registered (s : OAuthServer) (p : PendingAuthorize) : Prop :=
  ∃ client, s.clients.get? p.clientId = some client ∧ p.redirectUri ∈ client.redirectUris

/-- A code repeats the authorize request it was made for, and is for the user who logged in. The id
of a user who was known is one that was read. -/
structure MadeFor (s : OAuthServer) (c : OAuthAuthorizationCode) (p : PendingAuthorize) : Prop where
  authorized : s.authorized[c.request]? = some p
  request : p.request = c.request
  clientId : c.clientId = p.clientId
  redirectUri : c.redirectUri = p.redirectUri
  codeChallenge : c.codeChallenge = p.codeChallenge
  scope : c.scope = p.scope
  user : ∃ user, s.LoggedIn p user ∧ columnText c.userId = columnText (githubTag ++ user.id)

/-- **An access token fits an authorize request**: what its token request presented, whom it speaks
for, and what it is good for. The texts of the request and the id of the user are as the columns
give them back, which is whole unless there is a NUL in them. -/
structure Bound (s : OAuthServer) (g : Grant) (p : PendingAuthorize) : Prop where
  authorized : s.authorized[g.record.request]? = some p
  registered : s.Registered p
  clientId : g.clientId = columnText p.clientId
  redirectUri : g.redirectUri = columnText p.redirectUri
  code : hashSecret d.platform g.code = g.record.codeHash
  codeChallenge : pkceChallenge d g.verifier = columnText p.codeChallenge
  notExpired : g.checkedAt ≤ d.platform.getTime g.record.expiresAt
  subject : ∃ user, s.LoggedIn p user ∧ (∀ user', s.LoggedIn p user' → user' = user) ∧
    g.token.sub = githubTag ++ columnText user.id ∧ g.token.githubId = columnText user.id
  scope : ∃ scopes, scopeList (columnText p.scope) = .ok scopes ∧ g.token.scope = joinScopes scopes

/-- The authorize requests that wait for a login. -/
def waiting (s : OAuthServer) : List PendingAuthorize :=
  s.authorizeTransactions.values ++ s.callbacks

/-- The tokens that were sent, and those that wait for their signature. -/
def grants (s : OAuthServer) : List Grant := s.issued ++ s.signing

/-- The numbers of the authorize requests that wait or have their login. -/
def places (s : OAuthServer) : List ℕ := s.waiting.map (·.request) ++ s.logins.map Prod.fst

/-- What the checks of a token request leave in its grant. -/
structure Redeemed (s : OAuthServer) (g : Grant) : Prop where
  /-- The record is what was read of a row. -/
  madeFor : ∃ row p, g.record = row.read ∧ s.MadeFor row p
  /-- The code is marked in the table. -/
  marked : ∃ row, s.codes.get? g.record.codeHash = some row ∧ row.usedAt.isSome ∧
    row.request = g.record.request
  clientId : g.clientId = g.record.clientId
  redirectUri : g.redirectUri = g.record.redirectUri
  code : hashSecret d.platform g.code = g.record.codeHash
  codeChallenge : pkceChallenge d g.verifier = g.record.codeChallenge
  notExpired : g.checkedAt ≤ d.platform.getTime g.record.expiresAt
  subject : g.token.sub = g.record.userId ∧ githubTag ++ g.token.githubId = g.record.userId
  scope : ∃ scopes, scopeList g.record.scope = .ok scopes ∧ g.token.scope = joinScopes scopes

/-- Ids of users are made of their GitHub ids. -/
def UserIds (users : OrderedMap String UserRow) : Prop :=
  ∀ githubId row, users.get? githubId = some row →
    row.githubId = githubId ∧ row.id = githubTag ++ githubId

/-- **The invariant.** -/
structure Integrity (s : OAuthServer) : Prop where
  userIds : UserIds s.users
  codeHashes : ∀ k row, s.codes.get? k = some row → row.codeHash = k
  waiting_authorized : ∀ p ∈ s.waiting, s.authorized[p.request]? = some p
  login_authorized : ∀ l ∈ s.logins, l.1 < s.authorized.length
  /-- No authorize request is at two places, or at one place twice. -/
  places_once : s.places.Nodup
  registered : ∀ p ∈ s.authorized, s.Registered p
  madeFor : ∀ k row, s.codes.get? k = some row → ∃ p, s.MadeFor row p
  /-- No authorize request has two codes. -/
  codes_once : ∀ k row k' row', s.codes.get? k = some row → s.codes.get? k' = some row' →
    row.request = row'.request → k = k'
  redeemed : ∀ g ∈ s.grants, s.Redeemed d g
  /-- No authorize request has two tokens. -/
  grants_once : (s.grants.map (·.record.request)).Nodup

variable {d}

theorem integrity_start : start.Integrity d where
  userIds := by simp [UserIds, start]
  codeHashes := by simp [start]
  waiting_authorized := by simp [start, waiting]
  login_authorized := by simp [start]
  places_once := by simp [start, places, waiting]
  registered := by simp [start]
  madeFor := by simp [start]
  codes_once := by simp [start]
  redeemed := by simp [start, grants]
  grants_once := by simp [start, grants]

/-! ### What growth keeps -/

theorem Grows.registered {s s' : OAuthServer} (h : s.Grows s') {p : PendingAuthorize}
    (hp : s.Registered p) : s'.Registered p := by
  obtain ⟨client, hclient, hmem⟩ := hp
  exact ⟨client, h.clients _ _ hclient, hmem⟩

theorem Grows.madeFor {s s' : OAuthServer} (h : s.Grows s') {c : OAuthAuthorizationCode}
    {p : PendingAuthorize} (hc : s.MadeFor c p) : s'.MadeFor c p := by
  obtain ⟨user, hlogin, huser⟩ := hc.user
  exact { hc with
    authorized := h.authorized_get hc.authorized
    user := ⟨user, h.logins hlogin, huser⟩ }

theorem Grows.redeemed_grant {s s' : OAuthServer} (h : s.Grows s') {g : Grant}
    (hg : s.Redeemed d g) : s'.Redeemed d g := by
  obtain ⟨read, p, hread, hp⟩ := hg.madeFor
  obtain ⟨row, hrow, hused, hrequest⟩ := hg.marked
  exact { hg with
    madeFor := ⟨read, p, hread, h.madeFor hp⟩
    marked := ⟨row, h.redeemed _ _ hrow hused, hused, hrequest⟩ }

/-! ### Steps that move or drop what waits -/

/-- Transactions, callbacks and grants may be dropped or moved, users may log in again, and clients
may be added. -/
theorem Integrity.keep {s s' : OAuthServer} (h : s.Integrity d) (hcodes : s'.codes = s.codes)
    (hauthorized : s'.authorized = s.authorized) (hlogins : s'.logins = s.logins)
    (hclients : ∀ k client, s.clients.get? k = some client → s'.clients.get? k = some client)
    (husers : UserIds s'.users) (hwaiting : List.Subperm s'.waiting s.waiting)
    (hgrants : List.Subperm s'.grants s.grants) : s'.Integrity d := by
  have hgrows : s.Grows s' :=
    { authorized := by rw [hauthorized]
      logins := by rw [hlogins]; exact List.Subset.refl _
      clients := hclients
      redeemed := fun _ _ hk _ => by rw [hcodes]; exact hk }
  have hplaces : List.Subperm s'.places s.places := by
    rw [places, places, hlogins]
    exact (List.subperm_append_right _).mpr (OrderedMap.subperm_map hwaiting)
  exact
    { userIds := husers
      codeHashes := by rw [hcodes]; exact h.codeHashes
      waiting_authorized := fun p hp => by
        rw [hauthorized]
        exact h.waiting_authorized p (hwaiting.subset hp)
      login_authorized := by rw [hauthorized, hlogins]; exact h.login_authorized
      places_once := OrderedMap.nodup_of_subperm hplaces h.places_once
      registered := by
        rw [hauthorized]
        exact fun p hp => hgrows.registered (h.registered p hp)
      madeFor := by
        rw [hcodes]
        intro k row hk
        obtain ⟨p, hp⟩ := h.madeFor k row hk
        exact ⟨p, hgrows.madeFor hp⟩
      codes_once := by rw [hcodes]; exact h.codes_once
      redeemed := fun g hg => hgrows.redeemed_grant (h.redeemed g (hgrants.subset hg))
      grants_once := OrderedMap.nodup_of_subperm (OrderedMap.subperm_map hgrants) h.grants_once }

/-- An authorize request that is at no place yet. -/
structure Unclaimed (s : OAuthServer) (p : PendingAuthorize) : Prop where
  authorized : s.authorized[p.request]? = some p
  not_placed : p.request ∉ s.places

theorem Integrity.unclaimed_of_perm {s s' : OAuthServer} (h : s.Integrity d)
    (hauthorized : s'.authorized = s.authorized) (hlogins : s'.logins = s.logins)
    {p : PendingAuthorize} (hwaiting : List.Perm (p :: s'.waiting) s.waiting) : s'.Unclaimed p := by
  have hp : p ∈ s.waiting := hwaiting.subset List.mem_cons_self
  refine ⟨by rw [hauthorized]; exact h.waiting_authorized p hp, ?_⟩
  have hplaces : List.Perm (p.request :: s'.places) s.places := by
    rw [places, places, hlogins]
    exact (hwaiting.map (·.request)).append_right _
  exact (List.nodup_cons.mp (hplaces.nodup_iff.mpr h.places_once)).1

/-- A validated request takes the next number. -/
theorem Integrity.validate {s : OAuthServer} (h : s.Integrity d) {p : PendingAuthorize}
    (hnumber : p.request = s.authorized.length) (hregistered : s.Registered p) :
    let s' : OAuthServer := { s with authorized := s.authorized ++ [p] }
    s'.Integrity d ∧ s'.Unclaimed p := by
  intro s'
  have hgrows : s.Grows s' := ⟨List.prefix_append _ _, List.Subset.refl _, fun _ _ h => h,
    fun _ _ h _ => h⟩
  have hfresh : p.request ∉ s.places := by
    intro hmem
    rw [hnumber] at hmem
    rcases List.mem_append.mp hmem with hmem | hmem
    · obtain ⟨q, hq, hqn⟩ := List.mem_map.mp hmem
      obtain ⟨hlt, -⟩ := List.getElem?_eq_some_iff.mp (h.waiting_authorized q hq)
      exact absurd hqn (Nat.ne_of_lt hlt)
    · obtain ⟨l, hl, hln⟩ := List.mem_map.mp hmem
      exact absurd hln (Nat.ne_of_lt (h.login_authorized l hl))
  refine ⟨{
    userIds := h.userIds
    codeHashes := h.codeHashes
    waiting_authorized := fun q hq => hgrows.authorized_get (h.waiting_authorized q hq)
    login_authorized := fun l hl => (h.login_authorized l hl).trans_le hgrows.length_le
    places_once := h.places_once
    registered := ?_
    madeFor := fun k row hk => (h.madeFor k row hk).imp fun _ => hgrows.madeFor
    codes_once := h.codes_once
    redeemed := fun g hg => hgrows.redeemed_grant (h.redeemed g hg)
    grants_once := h.grants_once }, ?_, hfresh⟩
  · intro q hq
    rcases List.mem_append.mp hq with hq | hq
    · exact hgrows.registered (h.registered q hq)
    · rw [List.mem_singleton.mp hq]
      exact hregistered
  · rw [hnumber]
    exact List.getElem?_concat_length

/-- A request begins to wait. -/
theorem Integrity.wait {s : OAuthServer} (h : s.Integrity d) {p : PendingAuthorize}
    (hp : s.Unclaimed p) (transactionId : String) :
    ({ s with authorizeTransactions := s.authorizeTransactions.set transactionId p } :
      OAuthServer).Integrity d := by
  let s' : OAuthServer :=
    { s with authorizeTransactions := s.authorizeTransactions.set transactionId p }
  have hwaiting : List.Subperm s'.waiting (p :: s.waiting) :=
    (List.subperm_append_right _).mpr
      (OrderedMap.values_set_subperm s.authorizeTransactions transactionId p)
  have hplaces : List.Subperm s'.places (p.request :: s.places) :=
    (List.subperm_append_right _).mpr (OrderedMap.subperm_map hwaiting)
  exact
    { userIds := h.userIds
      codeHashes := h.codeHashes
      waiting_authorized := by
        intro q hq
        rcases List.mem_cons.mp (hwaiting.subset hq) with rfl | hq
        · exact hp.authorized
        · exact h.waiting_authorized q hq
      login_authorized := h.login_authorized
      places_once :=
        OrderedMap.nodup_of_subperm hplaces (List.nodup_cons.mpr ⟨hp.not_placed, h.places_once⟩)
      registered := h.registered
      madeFor := fun k row hk => (h.madeFor k row hk).imp fun _ hp =>
        ⟨hp.authorized, hp.request, hp.clientId, hp.redirectUri, hp.codeChallenge,
          hp.scope, hp.user⟩
      codes_once := h.codes_once
      redeemed := fun g hg =>
        have hgrows : Grows s s' := ⟨List.prefix_rfl, List.Subset.refl _, fun _ _ h => h,
          fun _ _ h _ => h⟩
        hgrows.redeemed_grant (h.redeemed g hg)
      grants_once := h.grants_once }

/-! ### Logins and codes -/

theorem columnText_githubTag (githubId : String) :
    columnText (githubTag ++ githubId) = githubTag ++ columnText githubId :=
  columnText_append (by decide) githubId

theorem internalId_of_new {s : OAuthServer} {user : GitHubUser}
    (hnew : s.users.get? user.id = none) : s.internalId user = githubTag ++ user.id := by
  unfold internalId
  rw [hnew]

theorem columnText_internalId {s : OAuthServer} (h : UserIds s.users) (user : GitHubUser) :
    columnText (s.internalId user) = columnText (githubTag ++ user.id) := by
  unfold internalId
  split
  · next row hrow =>
    rw [← (h _ row hrow).2]
    exact columnText_columnText _
  · rfl

theorem userIds_upsertUser {s s' : OAuthServer} {user : GitHubUser} (h : UserIds s.users)
    (hs : s.upsertUser (s.internalId user) user = .ok s') :
    ∃ users, UserIds users ∧ s' = { s with users := users } := by
  unfold upsertUser at hs
  dsimp only at hs
  split at hs
  · cases hs
  · split at hs
    · next row hrow =>
      obtain rfl := Except.ok.inj hs
      refine ⟨_, fun githubId r hr => ?_, rfl⟩
      rw [OrderedMap.get?_set] at hr
      split at hr
      · next hk =>
        obtain rfl := Option.some.inj hr
        rw [hk]
        exact h _ row hrow
      · exact h githubId r hr
    · next hnew =>
      split at hs
      · cases hs
      · obtain rfl := Except.ok.inj hs
        refine ⟨_, fun githubId r hr => ?_, rfl⟩
        rw [OrderedMap.get?_set] at hr
        split at hr
        · next hk =>
          obtain rfl := Option.some.inj hr
          rw [hk]
          exact ⟨rfl, internalId_of_new hnew⟩
        · exact h githubId r hr

/-- What a login does: it touches the table of users alone. -/
theorem upsertGitHubUser_eq_ok {s s' : OAuthServer} {m : Moment} {user : GitHubUser}
    {userId : String} (h : UserIds s.users)
    (hs : s.upsertGitHubUser d m user = .ok (userId, s')) :
    userId = s.internalId user ∧ ∃ users auditEvents, UserIds users ∧
      s' = { s with users := users, auditEvents := auditEvents } := by
  unfold upsertGitHubUser at hs
  split at hs
  · cases hs
  · split at hs
    · cases hs
    · dsimp only at hs
      cases hup : s.upsertUser (s.internalId user) user with
      | error => rw [hup] at hs; cases hs
      | ok =>
        rw [hup] at hs
        obtain ⟨rfl, rfl⟩ := Prod.mk.inj (Except.ok.inj hs)
        obtain ⟨users, husers, rfl⟩ := userIds_upsertUser h hup
        exact ⟨rfl, users, _, husers, rfl⟩

theorem Integrity.code_ne {s : OAuthServer} (h : s.Integrity d) {p : PendingAuthorize}
    (hp : s.Unclaimed p) {k : String} {row : OAuthAuthorizationCode}
    (hk : s.codes.get? k = some row) : row.request ≠ p.request := by
  obtain ⟨q, hq⟩ := h.madeFor k row hk
  obtain ⟨user, hlogin, -⟩ := hq.user
  intro heq
  refine hp.not_placed (List.mem_append_right _ ?_)
  rw [← heq, ← hq.request]
  exact List.mem_map_of_mem (f := Prod.fst) hlogin

/-- A login takes the place of its request. -/
theorem Integrity.login {s : OAuthServer} (h : s.Integrity d) {p : PendingAuthorize}
    (hp : s.Unclaimed p) (user : GitHubUser) :
    ({ s with logins := s.logins ++ [(p.request, user)] } : OAuthServer).Integrity d := by
  let s' : OAuthServer := { s with logins := s.logins ++ [(p.request, user)] }
  have hgrows : s.Grows s' := ⟨List.prefix_rfl, List.subset_append_left _ _, fun _ _ h => h,
    fun _ _ h _ => h⟩
  have hplaces : s'.places = s.places ++ [p.request] := by
    simp [places, s', waiting]
  exact
    { userIds := h.userIds
      codeHashes := h.codeHashes
      waiting_authorized := h.waiting_authorized
      login_authorized := by
        intro l hl
        rcases List.mem_append.mp hl with hl | hl
        · exact h.login_authorized l hl
        · rw [List.mem_singleton.mp hl]
          exact (List.getElem?_eq_some_iff.mp hp.authorized).1
      places_once := by
        rw [hplaces]
        exact List.nodup_append.mpr ⟨h.places_once, List.nodup_singleton _, fun a ha b hb hab =>
          hp.not_placed (by rwa [hab, List.mem_singleton.mp hb] at ha)⟩
      registered := h.registered
      madeFor := fun k row hk => (h.madeFor k row hk).imp fun _ => hgrows.madeFor
      codes_once := h.codes_once
      redeemed := fun g hg => hgrows.redeemed_grant (h.redeemed g hg)
      grants_once := h.grants_once }

/-- A code is made for a request that has a login and no code. -/
theorem Integrity.issue {s s' : OAuthServer} {m : Moment} (h : s.Integrity d)
    {p : PendingAuthorize} {user : GitHubUser} {userId : String}
    (hauthorized : s.authorized[p.request]? = some p) (hlogin : s.LoggedIn p user)
    (huser : columnText userId = columnText (githubTag ++ user.id))
    (hne : ∀ k row, s.codes.get? k = some row → row.request ≠ p.request)
    (hs : s.issueAuthorizationCode d m p userId = .ok s') : s'.Integrity d := by
  unfold issueAuthorizationCode at hs
  dsimp only at hs
  split at hs
  · cases hs
  · next hguard =>
    obtain rfl := Except.ok.inj hs
    simp only [Bool.or_eq_true, not_or, Bool.not_eq_true, OrderedMap.contains_eq_false] at hguard
    -- the code hash that was drawn is new
    set record := codeRecord d m p userId with hrecord
    have hgrows : s.Grows { s with codes := s.codes.set record.codeHash record } :=
      { authorized := List.prefix_rfl
        logins := List.Subset.refl _
        clients := fun _ _ h => h
        redeemed := by
          intro k row hk _
          have hkne : k ≠ record.codeHash := by
            rintro rfl
            rw [hguard.2] at hk
            cases hk
          show (s.codes.set record.codeHash record).get? k = some row
          rw [OrderedMap.get?_set_of_ne _ hkne, hk] }
    have hcases : ∀ k row, (s.codes.set record.codeHash record).get? k = some row →
        (k = record.codeHash ∧ row = record) ∨ s.codes.get? k = some row := by
      intro k row hk
      rw [OrderedMap.get?_set] at hk
      split at hk
      · next heq => exact .inl ⟨heq, (Option.some.inj hk).symm⟩
      · exact .inr hk
    exact
      { userIds := h.userIds
        codeHashes := by
          intro k row hk
          rcases hcases k row hk with ⟨rfl, rfl⟩ | hk
          · rfl
          · exact h.codeHashes k row hk
        waiting_authorized := h.waiting_authorized
        login_authorized := h.login_authorized
        places_once := h.places_once
        registered := h.registered
        madeFor := by
          intro k row hk
          rcases hcases k row hk with ⟨rfl, rfl⟩ | hk
          · exact ⟨p, hauthorized, rfl, rfl, rfl, rfl, rfl, user, hlogin, huser⟩
          · exact (h.madeFor k row hk).imp fun _ => hgrows.madeFor
        codes_once := by
          intro k row k' row' hk hk' heq
          rcases hcases k row hk with ⟨rfl, rfl⟩ | hk <;>
            rcases hcases k' row' hk' with ⟨rfl, rfl⟩ | hk'
          · rfl
          · -- the request had no code before
            exact absurd heq.symm (hne k' row' hk')
          · exact absurd heq (hne k row hk)
          · exact h.codes_once k row k' row' hk hk' heq
        redeemed := fun g hg => hgrows.redeemed_grant (h.redeemed g hg)
        grants_once := h.grants_once }

theorem Integrity.logIn {s : OAuthServer} (h : s.Integrity d) {p : PendingAuthorize}
    (hp : s.Unclaimed p) (m : Moment) (user : GitHubUser) : (s.logIn d m p user).Integrity d := by
  unfold OAuthServer.logIn
  split
  · exact h
  · next userId s₁ hup =>
    obtain ⟨rfl, users, auditEvents, husers, rfl⟩ := upsertGitHubUser_eq_ok h.userIds hup
    have h₁ : ({ s with users := users, auditEvents := auditEvents } : OAuthServer).Integrity d :=
      h.keep rfl rfl rfl (fun _ _ h => h) husers (List.Subperm.refl _) (List.Subperm.refl _)
    have h₂ := h₁.login ⟨hp.authorized, hp.not_placed⟩ user
    dsimp only
    split
    · exact h₂
    · next s₂ hissue =>
      exact h₂.issue hp.authorized (List.mem_append_right _ (List.mem_singleton_self _))
        (columnText_internalId h.userIds user) (fun _ _ => h.code_ne hp) hissue

/-! ### Tokens -/

theorem userFromId_eq_ok {s : OAuthServer} (h : UserIds s.users) {userId : String} {user : UserRow}
    (hs : s.userFromId userId = .ok user) :
    user.id = columnText userId ∧ githubTag ++ user.githubId = columnText userId := by
  unfold userFromId at hs
  dsimp only at hs
  split at hs
  · next row hrow =>
    obtain rfl := Except.ok.inj hs
    split at hrow
    · next htag =>
      obtain ⟨rest, hrest⟩ := List.isPrefixOf_iff_prefix.mp htag
      obtain ⟨hgithub, hid⟩ := h _ row hrow
      have huser : githubTag ++ row.githubId = userId := by
        rw [hgithub, ← hrest, List.drop_left]
        refine String.toList_inj.mp ?_
        rw [String.toList_append, String.toList_ofList, hrest]
      refine ⟨congrArg columnText ?_, ?_⟩
      · rw [hid, ← hgithub, huser]
      · rw [← huser, columnText_githubTag]
        rfl
    · cases hrow
  · cases hs

/-- What the checks of a token request have found. -/
theorem redeemable_eq_ok {s : OAuthServer} {m : Moment} {body : String → Option String}
    {record : OAuthAuthorizationCode} {user : UserRow} {scopes : List RemoteScope}
    (hs : s.redeemable d m body = .ok (record, user, scopes)) :
    (∃ row, s.codes.get? (hashSecret d.platform ((body "code").getD "")) = some row ∧
        record = row.read) ∧
      record.clientId = (body "client_id").getD "" ∧
      record.redirectUri = (body "redirect_uri").getD "" ∧
      m.now ≤ d.platform.getTime record.expiresAt ∧
      pkceChallenge d ((body "code_verifier").getD "") = record.codeChallenge ∧
      s.userFromId record.userId = .ok user ∧ scopeList record.scope = .ok scopes := by
  unfold redeemable at hs
  dsimp only at hs
  split at hs
  · cases hs
  split at hs
  · cases hs
  split at hs
  · cases hs
  split at hs
  · cases hs
  next found hfound =>
  split at hs
  · cases hs
  next hclient =>
  split at hs
  · cases hs
  next hexpiry =>
  split at hs
  · cases hs
  next hchallenge =>
  split at hs
  · cases hs
  simp only [Bool.or_eq_true, decide_eq_true_eq, not_or, ne_eq, not_not, not_lt] at *
  cases huser : s.userFromId found.read.userId with
  | error => rw [huser] at hs; cases hs
  | ok =>
    cases hscopes : scopeList found.read.scope with
    | error => rw [huser, hscopes] at hs; cases hs
    | ok =>
      rw [huser, hscopes] at hs
      obtain ⟨rfl, hrest⟩ := Prod.mk.inj (Except.ok.inj hs)
      obtain ⟨rfl, rfl⟩ := Prod.mk.inj hrest
      exact ⟨⟨found, hfound, rfl⟩, hclient.1, hclient.2, hexpiry.2, hchallenge.2, huser, hscopes⟩

/-- A code is redeemed: its row is marked, and its token waits for the signature. -/
def redeem (s : OAuthServer) (row : OAuthAuthorizationCode) (usedAt : String) (grant : Grant) :
    OAuthServer :=
  { s with
    codes := s.codes.set row.codeHash { row with usedAt := some usedAt }
    signing := s.signing ++ [grant] }

section Redeem

variable {s : OAuthServer} {row : OAuthAuthorizationCode} {grant : Grant}

/-- The mark is on a row that had none, so no redeemed code is lost. -/
theorem grows_redeem (hget : s.codes.get? row.codeHash = some row)
    (hunused : ¬row.usedAt.isSome = true) (usedAt : String) :
    s.Grows (s.redeem row usedAt grant) where
  authorized := List.prefix_rfl
  logins := List.Subset.refl _
  clients _ _ h := h
  redeemed k marked hk hmarked := by
    have hne : k ≠ row.codeHash := by
      rintro rfl
      rw [hget] at hk
      obtain rfl := Option.some.inj hk
      exact hunused hmarked
    unfold redeem
    rw [OrderedMap.get?_set_of_ne _ hne, hk]

/-- A row of the table afterwards is a row before, up to the mark. -/
theorem codes_redeem (hget : s.codes.get? row.codeHash = some row) {usedAt k : String}
    {row' : OAuthAuthorizationCode} (hk : (s.redeem row usedAt grant).codes.get? k = some row') :
    ∃ old, s.codes.get? k = some old ∧ row'.codeHash = old.codeHash ∧
      row'.request = old.request ∧ ∀ p, s.MadeFor old p → s.MadeFor row' p := by
  unfold redeem at hk
  rw [OrderedMap.get?_set] at hk
  split at hk
  · next heq =>
    obtain rfl := Option.some.inj hk
    rw [heq]
    exact ⟨row, hget, rfl, rfl, fun p hp => ⟨hp.authorized, hp.request, hp.clientId,
      hp.redirectUri, hp.codeChallenge, hp.scope, hp.user⟩⟩
  · exact ⟨row', hk, rfl, rfl, fun _ hp => hp⟩

/-- **A code that is redeemed** keeps the invariant if its grant fits. -/
theorem Integrity.redeem (h : s.Integrity d) (hget : s.codes.get? row.codeHash = some row)
    (hunused : ¬row.usedAt.isSome = true) {usedAt : String}
    (hgrant : (s.redeem row usedAt grant).Redeemed d grant)
    (hrequest : grant.record.request = row.request) : (s.redeem row usedAt grant).Integrity d := by
  have hgrows : s.Grows (s.redeem row usedAt grant) := grows_redeem hget hunused usedAt
  have hperm : List.Perm (s.redeem row usedAt grant).grants (grant :: s.grants) := by
    unfold OAuthServer.redeem grants
    rw [← List.append_assoc]
    exact List.perm_append_singleton grant _
  exact
    { userIds := h.userIds
      codeHashes := by
        intro k row' hk
        obtain ⟨old, hold, hcode, -, -⟩ := codes_redeem hget hk
        rw [hcode, h.codeHashes k old hold]
      waiting_authorized := h.waiting_authorized
      login_authorized := h.login_authorized
      places_once := h.places_once
      registered := h.registered
      madeFor := by
        intro k row' hk
        obtain ⟨old, hold, -, -, hmade⟩ := codes_redeem hget hk
        obtain ⟨p, hp⟩ := h.madeFor k old hold
        exact ⟨p, hgrows.madeFor (hmade p hp)⟩
      codes_once := by
        intro k row₁ k' row₂ hk hk' heq
        obtain ⟨old, hold, -, hreq, -⟩ := codes_redeem hget hk
        obtain ⟨old', hold', -, hreq', -⟩ := codes_redeem hget hk'
        exact h.codes_once k old k' old' hold hold' (by rw [← hreq, ← hreq', heq])
      redeemed := by
        intro g hg
        rcases List.mem_cons.mp (hperm.subset hg) with rfl | hg
        · exact hgrant
        · exact hgrows.redeemed_grant (h.redeemed g hg)
      grants_once := by
        refine (hperm.map _).nodup_iff.mpr (List.nodup_cons.mpr ⟨fun hmem => ?_, h.grants_once⟩)
        -- a token for the same request would have marked the code before
        obtain ⟨g, hg, heq⟩ := List.mem_map.mp hmem
        obtain ⟨marked, hmarked, hused, hsame⟩ := (h.redeemed g hg).marked
        have hk := h.codes_once _ _ _ _ hmarked hget (hsame.trans (heq.trans hrequest))
        rw [hk, hget] at hmarked
        obtain rfl := Option.some.inj hmarked
        exact hunused hused }

/-- What the checks have found fits. -/
theorem redeemed_newGrant (h : s.Integrity d) {m : Moment} {body : String → Option String}
    {record : OAuthAuthorizationCode} {user : UserRow} {scopes : List RemoteScope}
    (hok : s.redeemable d m body = .ok (record, user, scopes))
    (hget : s.codes.get? row.codeHash = some row) (hrecord : record = row.read)
    (hunused : ¬row.usedAt.isSome = true) (usedAt : String) :
    (s.redeem row usedAt (newGrant d m body record user scopes)).Redeemed d
      (newGrant d m body record user scopes) := by
  obtain ⟨⟨found, hfound, hread⟩, hclient, huri, hexpiry, hchallenge, huser, hscopes⟩ :=
    redeemable_eq_ok hok
  obtain ⟨p, hp⟩ := h.madeFor _ _ hget
  -- the row that was found is this one, for both have the hash that was asked for
  have hhash : row.codeHash = hashSecret d.platform ((body "code").getD "") := by
    rw [← h.codeHashes _ _ hfound, ← row.read_codeHash, ← hrecord, hread, found.read_codeHash]
  have hid : columnText record.userId = record.userId := by
    rw [hrecord]
    exact columnText_columnText row.userId
  have hsubject := userFromId_eq_ok h.userIds huser
  rw [hid] at hsubject
  subst hrecord
  exact
    { madeFor := ⟨row, p, rfl, (grows_redeem hget hunused usedAt).madeFor hp⟩
      marked := ⟨{ row with usedAt := some usedAt }, OrderedMap.get?_set_self _ _ _, rfl, rfl⟩
      clientId := hclient.symm
      redirectUri := huri.symm
      code := hhash.symm
      codeChallenge := hchallenge
      notExpired := hexpiry
      subject := hsubject
      scope := ⟨scopes, hscopes, rfl⟩ }

end Redeem

/-- **A code is redeemed once**: a token request finds its code unmarked and marks it, in one
step. -/
theorem Integrity.handleToken {s : OAuthServer} (h : s.Integrity d) (m : Moment)
    (body : String → Option String) : (s.handleToken d m body).Integrity d := by
  unfold OAuthServer.handleToken
  split
  · exact h
  next record user scopes hok =>
  obtain ⟨⟨row, hrow, hrecord⟩, -⟩ := redeemable_eq_ok hok
  have hget : s.codes.get? row.codeHash = some row := by rw [h.codeHashes _ _ hrow, hrow]
  unfold markAuthorizationCodeUsed
  rw [hrecord, row.read_codeHash, hget]
  dsimp only
  by_cases hused : row.usedAt.isSome = true
  · rw [if_pos hused]
    exact h
  · rw [if_neg hused]
    rw [hrecord] at hok
    exact h.redeem hget hused (redeemed_newGrant h hok hget rfl hused (nowIso d m)) rfl

theorem finishToken_grants (s : OAuthServer) (i : ℕ) (isSigned : Bool) :
    List.Subperm (s.finishToken i isSigned).grants s.grants := by
  unfold OAuthServer.finishToken
  split
  · exact List.Subperm.refl _
  · next grant hgrant =>
    obtain ⟨hi, rfl⟩ := List.getElem?_eq_some_iff.mp hgrant
    cases isSigned with
    | false => exact (List.subperm_append_left _).mpr (List.eraseIdx_sublist _ _).subperm
    | true =>
      show List.Subperm ((s.issued ++ [s.signing[i]]) ++ s.signing.eraseIdx i)
        (s.issued ++ s.signing)
      rw [List.append_assoc]
      exact ((List.perm_append_left_iff _).mpr (List.getElem_cons_eraseIdx_perm hi)).subperm

theorem Integrity.finishToken {s : OAuthServer} (h : s.Integrity d) (i : ℕ) (isSigned : Bool) :
    (s.finishToken i isSigned).Integrity d := by
  have hgrants := finishToken_grants s i isSigned
  unfold OAuthServer.finishToken at hgrants ⊢
  split at hgrants
  · exact h
  · exact h.keep rfl rfl rfl (fun _ _ h => h) h.userIds (List.Subperm.refl _) hgrants

/-! ### Clients and authorize requests -/

theorem Integrity.handleRegister {s s' : OAuthServer} (h : s.Integrity d) {m : Moment}
    {body : Fields} (hs : s.handleRegister d m body = .ok s') : s'.Integrity d := by
  unfold OAuthServer.handleRegister at hs
  dsimp only at hs
  split at hs
  · cases hs
  split at hs
  · cases hs
  split at hs
  · cases hs
  split at hs
  · cases hs
  next hnew =>
  obtain rfl := Except.ok.inj hs
  refine h.keep rfl rfl rfl (fun k client hk => ?_) h.userIds (List.Subperm.refl _)
    (List.Subperm.refl _)
  have hkne : k ≠ freshId m "cli" := by
    rintro rfl
    exact hnew (OrderedMap.contains_eq_true.mpr ⟨client, hk⟩)
  show (s.clients.set _ _).get? k = some client
  rw [OrderedMap.get?_set_of_ne _ hkne, hk]

/-- What `validateAuthorizeParams` checks of the client. -/
theorem registered_of_validate {s : OAuthServer} {p : PendingAuthorize}
    {responseType codeChallenge method resource scope : String}
    (hs : s.validateAuthorizeParams d p.clientId p.redirectUri responseType codeChallenge method
      resource scope = .ok ()) : s.Registered p := by
  unfold validateAuthorizeParams at hs
  split at hs
  · cases hs
  split at hs
  · cases hs
  next client hclient =>
  split at hs
  · cases hs
  next huri =>
  simp only [Bool.or_eq_true, not_or, Bool.not_eq_true, Bool.not_eq_false'] at huri
  exact ⟨client, hclient, List.contains_iff_mem.mp huri.1⟩

theorem Integrity.handleAuthorize {s : OAuthServer} (h : s.Integrity d) (m : Moment)
    (query : String → Option String) : (s.handleAuthorize d m query).Integrity d := by
  unfold OAuthServer.handleAuthorize
  dsimp only
  split
  · exact h
  · next hvalid =>
    obtain ⟨h₁, hp⟩ := h.validate (p := pendingOf d m query s) rfl (registered_of_validate hvalid)
    split
    · exact h₁.logIn hp m _
    · split
      · exact h₁
      · exact h₁.wait hp _

theorem Integrity.handleGitHubCallback {s : OAuthServer} (h : s.Integrity d) (m : Moment)
    (query : String → Option String) : (s.handleGitHubCallback m query).Integrity d := by
  unfold OAuthServer.handleGitHubCallback
  dsimp only
  have hdrop : List.Subperm
      ((s.authorizeTransactions.delete ((query "state").getD "")).values ++ s.callbacks)
      s.waiting :=
    (List.subperm_append_right _).mpr (OrderedMap.values_delete_sublist _ _).subperm
  split
  · exact h.keep rfl rfl rfl (fun _ _ h => h) h.userIds hdrop (List.Subperm.refl _)
  · next pending hpending =>
    split
    · exact h.keep rfl rfl rfl (fun _ _ h => h) h.userIds hdrop (List.Subperm.refl _)
    · -- the transaction goes on as a callback
      refine h.keep rfl rfl rfl (fun _ _ h => h) h.userIds (List.Perm.subperm ?_)
        (List.Subperm.refl _)
      show List.Perm ((s.authorizeTransactions.delete _).values ++ (s.callbacks ++ [pending])) _
      rw [← List.append_assoc]
      refine (List.perm_append_singleton _ _).trans ?_
      exact (List.perm_append_right_iff _).mpr (OrderedMap.values_delete_perm hpending)

theorem Integrity.finishCallback {s : OAuthServer} (h : s.Integrity d) (m : Moment) (i : ℕ)
    (user : Option GitHubUser) : (s.finishCallback d m i user).Integrity d := by
  unfold OAuthServer.finishCallback
  split
  · exact h
  · next pending hpending =>
    obtain ⟨hi, rfl⟩ := List.getElem?_eq_some_iff.mp hpending
    let s₁ : OAuthServer := { s with callbacks := s.callbacks.eraseIdx i }
    have hperm : List.Perm (s.callbacks[i] :: s₁.waiting) s.waiting := by
      refine List.perm_middle.symm.trans ?_
      exact (List.perm_append_left_iff _).mpr (List.getElem_cons_eraseIdx_perm hi)
    have h₁ : s₁.Integrity d :=
      h.keep rfl rfl rfl (fun _ _ h => h) h.userIds
        ((List.sublist_cons_self _ _).subperm.trans hperm.subperm) (List.Subperm.refl _)
    have hp : s₁.Unclaimed s.callbacks[i] :=
      h.unclaimed_of_perm (show s₁.authorized = s.authorized from rfl)
        (show s₁.logins = s.logins from rfl) hperm
    cases user with
    | none => exact h₁
    | some user => exact h₁.logIn hp m user

theorem step_register (s : OAuthServer) (m : Moment) (body : Fields) :
    s.step d ⟨m, .register body⟩ =
      match s.handleRegister d m body with
        | .ok s => s
        | .error _ => s := rfl

/-- **The step lemma.** -/
theorem Integrity.step {s : OAuthServer} (h : s.Integrity d) (e : OAuthStep) :
    (s.step d e).Integrity d := by
  obtain ⟨m, event⟩ := e
  have hdrop : ∀ transactions : OrderedMap String PendingAuthorize,
      transactions.values.Sublist s.authorizeTransactions.values →
        List.Subperm (transactions.values ++ s.callbacks) s.waiting :=
    fun _ hsub => (List.subperm_append_right _).mpr hsub.subperm
  cases event with
  | keyPairLoaded =>
    exact h.keep rfl rfl rfl (fun _ _ h => h) h.userIds (List.Subperm.refl _) (List.Subperm.refl _)
  | register =>
    rw [step_register]
    split
    · next hok => exact h.handleRegister hok
    · exact h
  | authorize query => exact h.handleAuthorize m query
  | callback query => exact h.handleGitHubCallback m query
  | gitHubUser i user => exact h.finishCallback m i user
  | token body => exact h.handleToken m body
  | signed i isSigned => exact h.finishToken i isSigned
  | cleanup =>
    exact h.keep rfl rfl rfl (fun _ _ h => h) h.userIds
      (hdrop _ (OrderedMap.values_filter_sublist _ _)) (List.Subperm.refl _)
  | shutdown =>
    exact h.keep rfl rfl rfl (fun _ _ h => h) h.userIds (hdrop _ (List.nil_sublist _))
      (List.Subperm.refl _)
  | restart =>
    refine h.keep rfl rfl rfl (fun _ _ h => h) h.userIds (List.nil_sublist _).subperm ?_
    exact (List.subperm_append_left _).mpr (List.nil_sublist _).subperm

/-! ### Access tokens -/

/-- The invariant, read as a statement about one token. -/
theorem Integrity.bound {s : OAuthServer} (h : s.Integrity d) {g : Grant} (hg : g ∈ s.grants) :
    ∃ p, s.Bound d g p := by
  have hr := h.redeemed g hg
  obtain ⟨row, p, hread, hp⟩ := hr.madeFor
  obtain ⟨user, hlogin, huser⟩ := hp.user
  have hlogins : (s.logins.map Prod.fst).Nodup := (List.nodup_append.mp h.places_once).2.1
  -- what was read of the row is what the columns give back of the request
  have hclient : g.record.clientId = columnText p.clientId := by rw [hread, ← hp.clientId]; rfl
  have huri : g.record.redirectUri = columnText p.redirectUri := by
    rw [hread, ← hp.redirectUri]
    rfl
  have hchallenge : g.record.codeChallenge = columnText p.codeChallenge := by
    rw [hread, ← hp.codeChallenge]
    rfl
  have hscope : g.record.scope = columnText p.scope := by rw [hread, ← hp.scope]; rfl
  have hid : g.record.userId = githubTag ++ columnText user.id := by
    rw [hread, ← columnText_githubTag, ← huser]
    rfl
  refine ⟨p, {
    authorized := by rw [hread]; exact hp.authorized
    registered := h.registered p (List.mem_of_getElem? hp.authorized)
    clientId := hr.clientId.trans hclient
    redirectUri := hr.redirectUri.trans huri
    code := hr.code
    codeChallenge := hr.codeChallenge.trans hchallenge
    notExpired := hr.notExpired
    subject := ⟨user, hlogin, fun user' hlogin' => ?_, hr.subject.1.trans hid, ?_⟩
    scope := hscope ▸ hr.scope }⟩
  · exact congrArg Prod.snd (List.inj_on_of_nodup_map hlogins hlogin' hlogin rfl)
  · exact (String.append_right_inj _).mp (hr.subject.2.trans hid)

/-! ### Ids of tokens -/

theorem grants_logIn {s : OAuthServer} (m : Moment) (p : PendingAuthorize) (user : GitHubUser) :
    (s.logIn d m p user).grants = s.grants := by
  have hupsert : ∀ {internalId s'}, s.upsertUser internalId user = .ok s' →
      s'.grants = s.grants := by
    intro internalId s' h
    unfold upsertUser at h
    dsimp only at h
    split at h
    · cases h
    split at h
    · obtain rfl := Except.ok.inj h
      rfl
    split at h
    · cases h
    · obtain rfl := Except.ok.inj h
      rfl
  have hissue : ∀ {t t' : OAuthServer} {userId}, t.issueAuthorizationCode d m p userId = .ok t' →
      t'.grants = t.grants := by
    intro t t' userId h
    unfold issueAuthorizationCode at h
    dsimp only at h
    split at h
    · cases h
    · obtain rfl := Except.ok.inj h
      rfl
  unfold OAuthServer.logIn
  split
  · rfl
  next userId s₁ hup =>
  -- users are written, and no codes or tokens
  have h₁ : s₁.grants = s.grants := by
    unfold upsertGitHubUser at hup
    split at hup
    · cases hup
    split at hup
    · cases hup
    dsimp only at hup
    cases hrow : s.upsertUser (s.internalId user) user with
    | error => rw [hrow] at hup; cases hup
    | ok s₂ =>
      rw [hrow] at hup
      obtain ⟨-, rfl⟩ := Prod.mk.inj (Except.ok.inj hup)
      exact (hupsert hrow : s₂.grants = s.grants)
  dsimp only
  split
  · exact h₁
  · next hok => exact (hissue hok).trans h₁

/-- **What a step does to the tokens**: it leaves or drops some, or adds one with the id it has
drawn. -/
theorem grants_step (s : OAuthServer) (e : OAuthStep) :
    List.Subperm (s.step d e).grants s.grants ∨
      ∃ g, g.token.jti = freshId e.moment "tok" ∧
        List.Perm (s.step d e).grants (g :: s.grants) := by
  obtain ⟨m, event⟩ := e
  cases event with
  | keyPairLoaded => exact .inl (List.Subperm.refl _)
  | register =>
    left
    rw [step_register]
    split
    · next s' hok =>
      -- a registration writes the clients only
      have hgrants : s'.grants = s.grants := by
        unfold OAuthServer.handleRegister at hok
        dsimp only at hok
        repeat' (first | cases hok | split at hok)
        rfl
      rw [hgrants]
    · exact List.Subperm.refl _
  | authorize query =>
    left
    show List.Subperm (s.handleAuthorize d m query).grants s.grants
    unfold OAuthServer.handleAuthorize
    dsimp only
    split
    · exact List.Subperm.refl _
    split
    · rw [grants_logIn]
      exact List.Subperm.refl _
    split <;> exact List.Subperm.refl _
  | callback query =>
    left
    show List.Subperm (s.handleGitHubCallback m query).grants s.grants
    unfold OAuthServer.handleGitHubCallback
    dsimp only
    split
    · exact List.Subperm.refl _
    split <;> exact List.Subperm.refl _
  | gitHubUser i user =>
    left
    show List.Subperm (s.finishCallback d m i user).grants s.grants
    -- a login writes a code, and no token
    unfold OAuthServer.finishCallback
    split
    · exact List.Subperm.refl _
    cases user with
    | none => exact List.Subperm.refl _
    | some =>
      dsimp only
      rw [grants_logIn]
      exact List.Subperm.refl _
  | token body =>
    show List.Subperm (s.handleToken d m body).grants s.grants ∨ ∃ g, _ ∧
      List.Perm (s.handleToken d m body).grants (g :: s.grants)
    unfold OAuthServer.handleToken
    split
    · exact .inl (List.Subperm.refl _)
    next record user scopes _ =>
    split
    · exact .inl (List.Subperm.refl _)
    next s' hok =>
    -- the code is marked, and the token goes behind those there are
    have hgrants : s'.grants = s.grants := by
      unfold markAuthorizationCodeUsed at hok
      split at hok
      · cases hok
      split at hok
      · cases hok
      · obtain rfl := Except.ok.inj hok
        rfl
    refine .inr ⟨newGrant d m body record user scopes, rfl, ?_⟩
    rw [← hgrants, grants, grants, ← List.append_assoc]
    exact List.perm_append_singleton _ _
  | signed i isSigned =>
    left
    show List.Subperm (s.finishToken i isSigned).grants s.grants
    exact finishToken_grants s i isSigned
  | cleanup => exact .inl (List.Subperm.refl _)
  | shutdown => exact .inl (List.Subperm.refl _)
  | restart =>
    -- what waited for a signature is gone, what was sent stays
    exact .inl ((List.subperm_append_left _).mpr (List.nil_sublist _).subperm)

/-! ### Runs -/

/-- The ids of two tokens differ if the steps that issued them drew different ids. -/
theorem grants_run (es : List OAuthStep) (hfresh : (es.map fun e => e.moment.uuid).Nodup) :
    let s := Run.run (step d) start es
    s.Integrity d ∧ (s.grants.map (·.token.jti)).Nodup ∧
      ∀ g ∈ s.grants, ∃ e ∈ es, g.token.jti = freshId e.moment "tok" := by
  induction es using List.reverseRecOn with
  | nil => exact ⟨integrity_start, List.nodup_nil, fun _ h => absurd h List.not_mem_nil⟩
  | append_singleton es e ih =>
    rw [List.map_append, List.map_singleton] at hfresh
    obtain ⟨hes, -, hdisjoint⟩ := List.nodup_append.mp hfresh
    obtain ⟨hintegrity, hnodup, hdrawn⟩ := ih hes
    rw [Run.run_append]
    set s := Run.run (step d) start es
    intro s'
    have hs' : s' = s.step d e := rfl
    refine ⟨hs' ▸ hintegrity.step e, ?_⟩
    rw [hs']
    rcases grants_step (d := d) s e with hsub | ⟨g, hjti, hperm⟩
    · refine ⟨OrderedMap.nodup_of_subperm (OrderedMap.subperm_map hsub) hnodup, fun g hg => ?_⟩
      obtain ⟨e', he', hg'⟩ := hdrawn g (hsub.subset hg)
      exact ⟨e', List.mem_append_left _ he', hg'⟩
    · refine ⟨(hperm.map _).nodup_iff.mpr (List.nodup_cons.mpr ⟨fun hmem => ?_, hnodup⟩), ?_⟩
      · -- an older token with this id was drawn in an earlier step
        obtain ⟨g', hg', heq⟩ := List.mem_map.mp hmem
        obtain ⟨e', he', hg''⟩ := hdrawn g' hg'
        have huuid : e'.moment.uuid = e.moment.uuid :=
          have htexts : ("tok" ++ "_").toList ++ e'.moment.uuid.toList =
              ("tok" ++ "_").toList ++ e.moment.uuid.toList := by
            rw [← String.toList_append, ← String.toList_append]
            exact congrArg String.toList (hg''.symm.trans (heq.trans hjti))
          String.toList_inj.mp (List.append_cancel_left htexts)
        exact hdisjoint _ (List.mem_map_of_mem he') _ (List.mem_singleton_self _) huuid
      · intro g' hg'
        rcases List.mem_cons.mp (hperm.subset hg') with rfl | hg'
        · exact ⟨e, List.mem_append_right _ (List.mem_singleton_self _), hjti⟩
        · obtain ⟨e', he', hg''⟩ := hdrawn g' hg'
          exact ⟨e', List.mem_append_left _ he', hg''⟩

/-- **The tokens that were sent**: they have different ids and come from different codes and from
different authorize requests, no request has two codes, and each token fits its request. -/
structure GrantIntegrity (d : OAuthDeployment) (s : OAuthServer) : Prop where
  tokens : (s.issued.map (·.token.jti)).Nodup
  codes : (s.issued.map (·.record.codeHash)).Nodup
  requests : (s.issued.map (·.record.request)).Nodup
  oneCode : ∀ k row k' row', s.codes.get? k = some row → s.codes.get? k' = some row' →
    row.request = row'.request → k = k'
  bound : ∀ g ∈ s.issued, ∃ p, s.Bound d g p

/-- **Grant integrity.** Whatever requests arrive, in whatever order their handlers go on, every
access token was issued for one authorization code of one validated authorize request and fits that
request. -/
theorem oauth_grant_integrity (d : OAuthDeployment) (es : List OAuthStep)
    (hfresh : (es.map fun e => e.moment.uuid).Nodup) :
    (Run.run (step d) start es).GrantIntegrity d := by
  obtain ⟨h, hjti, -⟩ := grants_run (d := d) es hfresh
  set s := Run.run (step d) start es
  have hissued : s.issued.Sublist s.grants := List.sublist_append_left _ _
  have hrequests : (s.issued.map (·.record.request)).Nodup :=
    h.grants_once.sublist (hissued.map _)
  exact
    { tokens := hjti.sublist (hissued.map _)
      codes := by
        refine (List.Nodup.of_map _ hrequests).map_on fun g hg g' hg' heq => ?_
        -- tokens of one code have its row in common
        obtain ⟨row, hrow, -, hrequest⟩ := (h.redeemed g (hissued.subset hg)).marked
        obtain ⟨row', hrow', -, hrequest'⟩ := (h.redeemed g' (hissued.subset hg')).marked
        rw [heq, hrow'] at hrow
        obtain rfl := Option.some.inj hrow
        exact List.inj_on_of_nodup_map hrequests hg hg' (hrequest.symm.trans hrequest')
      requests := hrequests
      oneCode := h.codes_once
      bound := fun g hg => h.bound (hissued.subset hg) }

/-! ### A flow to evaluate -/

/-- The decimal text of a number below 100, in two digits. -/
def twoDigits (n : ℕ) : String :=
  String.ofList [Nat.digitChar (n / 10 % 10), Nat.digitChar (n % 10)]

/-- The sample platform, with the times of the first hour of 1970. -/
def hourPlatform : Platform :=
  { samplePlatform with
    getTime := fun s =>
      let n : ℕ := ((s.toList.drop 14).filter Char.isDigit).foldl
        (fun n c => 10 * n + (c.toNat - '0'.toNat)) 0
      n / 100000 * 60000 + n / 1000 % 100 * 1000 + n % 1000
    toISOString := fun t =>
      "1970-01-01T00:" ++ twoDigits (t.toNat / 60000) ++ ":" ++ twoDigits (t.toNat / 1000 % 60)
        ++ "." ++ threeDigits (t.toNat % 1000) ++ "Z" }

/-- A deployment with the lifetimes of the default configuration, open to every GitHub user. -/
def sampleOAuth : OAuthDeployment where
  platform := hourPlatform
  config :=
    { publicBaseUrl := "https://example.test"
      mcpResourceUrl := "https://example.test/mcp"
      githubClientId := "id"
      githubClientSecret := "secret"
      allowAllUsers := true
      allowedGitHubIds := []
      allowedGitHubLogins := []
      authCodeTtlSeconds := 300
      accessTokenTtlSeconds := 900
      maxOAuthClients := 100 }
  parseUrl _ := some { protocol := "https:", hostname := "app.test" }
  testGitHubUser := none

/-- Parameters, by name. -/
def parameters (entries : List (String × String)) (name : String) : Option String :=
  OrderedMap.find? entries name

/-- A client registers a uri, its user logs in, and the code is redeemed at time `t` with the uri
`https://app.test/callback`. -/
def flowFrom (redirectUri : String) (t : ℕ) : List OAuthStep :=
  [⟨sampleMoment 0, .keyPairLoaded ⟨"plane", "plane"⟩⟩,
    ⟨sampleMoment 1, .register [("redirect_uris", .arr [.str redirectUri])]⟩,
    ⟨sampleMoment 2, .authorize (parameters [("client_id", "cli_1"),
      ("redirect_uri", redirectUri), ("response_type", "code"),
      ("code_challenge", "verifier"), ("code_challenge_method", "S256")])⟩,
    ⟨sampleMoment 3, .callback (parameters [("code", "github"), ("state", "code_2")])⟩,
    ⟨sampleMoment 4, .gitHubUser 0 (some ⟨"7", "octocat"⟩)⟩,
    ⟨sampleMoment t, .token (parameters [("grant_type", "authorization_code"),
      ("client_id", "cli_1"), ("redirect_uri", "https://app.test/callback"),
      ("code", "0123456789abcdef"), ("code_verifier", "verifier")])⟩,
    ⟨sampleMoment (t + 1), .signed 0 true⟩]

/-- The client has registered the uri that it redeems the code with. -/
def sampleFlow (t : ℕ) : List OAuthStep := flowFrom "https://app.test/callback" t

/-- The flow, with its token. -/
theorem oauth_grant_integrity_sampleFlow :
    (Run.run (step sampleOAuth) start (sampleFlow 5)).issued.length = 1 ∧
      (Run.run (step sampleOAuth) start (sampleFlow 5)).GrantIntegrity sampleOAuth :=
  ⟨by decide +kernel, oauth_grant_integrity sampleOAuth (sampleFlow 5) (by decide +kernel)⟩

/-- A code that expires at a time is still redeemed at that time: tokens are not always issued
before the expiry of their code. And the uri of a token request need not be that of the authorize
request, of which the column gives back only what is before a NUL. -/
theorem token_at_expiry_and_for_cut_uri :
    (¬ ∀ (d : OAuthDeployment) (es : List OAuthStep), (es.map fun e => e.moment.uuid).Nodup →
      ∀ g ∈ (Run.run (step d) start es).issued,
        g.checkedAt < d.platform.getTime g.record.expiresAt) ∧
    ¬ ∀ (d : OAuthDeployment) (es : List OAuthStep), (es.map fun e => e.moment.uuid).Nodup →
      ∀ g ∈ (Run.run (step d) start es).issued,
        ∀ p ∈ (Run.run (step d) start es).authorized, p.request = g.record.request →
          g.redirectUri = p.redirectUri := by
  constructor
  · intro h
    have hlate : ∃ g ∈ (Run.run (step sampleOAuth) start (sampleFlow 300004)).issued,
        sampleOAuth.platform.getTime g.record.expiresAt ≤ g.checkedAt := by
      decide +kernel
    obtain ⟨g, hg, hle⟩ := hlate
    exact absurd (h sampleOAuth (sampleFlow 300004) (by decide +kernel) g hg) (not_lt.mpr hle)
  · intro h
    have hcut : ∃ g ∈ (Run.run (step sampleOAuth) start
          (flowFrom "https://app.test/callback\x00b" 5)).issued,
        ∃ p ∈ (Run.run (step sampleOAuth) start
            (flowFrom "https://app.test/callback\x00b" 5)).authorized,
          p.request = g.record.request ∧ g.redirectUri ≠ p.redirectUri := by
      decide +kernel
    obtain ⟨g, hg, p, hp, hrequest, hne⟩ := hcut
    exact hne (h sampleOAuth _ (by decide +kernel) g hg p hp hrequest)

end OAuthServer

end Remote
