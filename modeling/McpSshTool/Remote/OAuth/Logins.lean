import McpSshTool.Remote.OAuth.Identity

/-!
# Logins of accounts that are renamed

Whether everyone who may log in can, when GitHub accounts take other logins and give them free.

* `GitHub` — the accounts and their logins, no two of them the same;
* `LoginWorld` — GitHub beside the server, and as ghost data the login of each account when it last
  logged in;
* `RowsAreLatest` — the table `users` has one row for each account that has logged in, with that
  login;
* `LoginFree` — the condition on a step: nobody else had the login when last logging in;
* `logins_succeed_iff` — all logins go through and the table is right exactly when all steps meet
  it.

The statement of `upsertUser` resolves a conflict on `github_id` only, and `github_login` is unique,
too.
-/

open Library

namespace Remote

/-! ### GitHub -/

/-- **GitHub**: its accounts, by id, with their logins. No login belongs to two accounts. -/
structure GitHub where
  logins : OrderedMap String String
  unique : ∀ a b login, logins.get? a = some login → logins.get? b = some login → a = b

namespace GitHub

/-- No accounts. -/
def empty : GitHub where
  logins := .empty
  unique := fun a b login h => by cases h

/-- Another account has the login. -/
def Taken (g : GitHub) (account login : String) : Prop :=
  ∃ e ∈ g.logins.entries, e.1 ≠ account ∧ e.2 = login

instance (g : GitHub) (account login : String) : Decidable (g.Taken account login) :=
  inferInstanceAs (Decidable (∃ e ∈ g.logins.entries, _))

/-- An account is created, or takes another login. A login that is taken is refused. -/
def name (g : GitHub) (account login : String) : GitHub :=
  if h : g.Taken account login then g
  else
    { logins := g.logins.set account login
      unique := by
        have hfree : ∀ a, a ≠ account → g.logins.get? a ≠ some login := fun a ha hlogin =>
          h ⟨(a, login), OrderedMap.mem_entries_iff.mpr hlogin, ha, rfl⟩
        intro a b l ha hb
        rw [OrderedMap.get?_set] at ha hb
        split at ha
        · next heq =>
          obtain rfl := Option.some.inj ha
          split at hb
          · next heq' => rw [heq, heq']
          · next hne => exact absurd hb (hfree b hne)
        · next hne =>
          split at hb
          · next heq' =>
            obtain rfl := Option.some.inj hb
            exact absurd ha (hfree a hne)
          · exact g.unique a b l ha hb }

end GitHub

/-! ### The server beside it -/

/-- GitHub, the server, and the login of each account when it last logged in. -/
structure LoginWorld where
  gitHub : GitHub
  server : OAuthServer
  /-- Ghost: no step looks at it. -/
  latest : OrderedMap String String

inductive LoginEvent where
  /-- On GitHub, an account is created or takes another login. -/
  | named (account login : String)
  /-- An account logs in to the server. -/
  | loggedIn (account : String) (moment : Moment)

namespace LoginWorld

/-- Before anyone has logged in. -/
def start (gitHub : GitHub) : LoginWorld := ⟨gitHub, OAuthServer.start, .empty⟩

variable (d : OAuthDeployment)

/-- One step: who logs in is stored under the login of that moment. -/
def step (w : LoginWorld) : LoginEvent → LoginWorld
  | .named account login => { w with gitHub := w.gitHub.name account login }
  | .loggedIn account m =>
    match w.gitHub.logins.get? account with
    | none => w
    | some login =>
      if isGitHubUserAllowed d ⟨account, login⟩ then
        { w with
          server :=
            match w.server.upsertGitHubUser d m ⟨account, login⟩ with
            | .ok (_, server) => server
            | .error _ => w.server
          latest := w.latest.set account login }
      else w

/-- **A login goes through**, if the user is allowed. -/
def Succeeds (w : LoginWorld) : LoginEvent → Prop
  | .named _ _ => True
  | .loggedIn account m =>
    ∀ login, w.gitHub.logins.get? account = some login →
      isGitHubUserAllowed d ⟨account, login⟩ = true →
        ∃ userId server, w.server.upsertGitHubUser d m ⟨account, login⟩ = .ok (userId, server)

/-- **One row for each account** that has logged in, with its login of then. -/
structure RowsAreLatest (w : LoginWorld) : Prop where
  one_row : (w.server.users.values.map UserRow.githubId).Nodup
  latest : ∀ account login,
    (∃ row ∈ w.server.users.values, row.githubId = account ∧ row.githubLogin = login) ↔
      w.latest.get? account = some login

/-- **The login is free**: nobody else who is in the table had it when last logging in. -/
def LoginFree (w : LoginWorld) : LoginEvent → Prop
  | .named _ _ => True
  | .loggedIn account _ =>
    ∀ login, w.gitHub.logins.get? account = some login →
      isGitHubUserAllowed d ⟨account, login⟩ = true →
        ∀ other, other ≠ account → w.latest.get? other ≠ some login

/-! ### One login -/

variable {d} {s s' : OAuthServer} {w : LoginWorld}

/-- **What an upsert stores**: the login of the account, and nothing else changes. -/
theorem login_of_upsertUser {internalId : String} {user : GitHubUser}
    (h : s.upsertUser internalId user = .ok s') (account : String) :
    (s'.users.get? account).map UserRow.githubLogin =
      if account = user.id then some user.login
      else (s.users.get? account).map UserRow.githubLogin := by
  -- whether the row is new or an old one, it stands under the id of the account
  have hset : ∀ row : UserRow, row.githubLogin = user.login →
      ((s.users.set user.id row).get? account).map UserRow.githubLogin =
        if account = user.id then some user.login
        else (s.users.get? account).map UserRow.githubLogin := by
    intro row hrow
    rw [OrderedMap.get?_set]
    split
    · rw [Option.map_some, hrow]
    · rfl
  unfold OAuthServer.upsertUser at h
  dsimp only at h
  split at h
  · cases h
  · split at h
    · obtain rfl := Except.ok.inj h
      exact hset _ rfl
    · split at h
      · cases h
      · obtain rfl := Except.ok.inj h
        exact hset _ rfl

/-- The table, as its rows say it. -/
structure Keeps (w : LoginWorld) : Prop where
  isOpen : w.server.isOpen = true
  userIds : OAuthServer.UserIds w.server.users
  latest : ∀ account, (w.server.users.get? account).map UserRow.githubLogin = w.latest.get? account

theorem keeps_start (gitHub : GitHub) : Keeps (start gitHub) where
  isOpen := rfl
  userIds := fun githubId row h => by cases h
  latest := fun account => rfl

theorem Keeps.rowsAreLatest (h : Keeps w) : RowsAreLatest w where
  one_row := by
    -- a row stands under its own id, so that there is one for each account
    have hkeys : w.server.users.values.map UserRow.githubId = w.server.users.keys := by
      rw [OrderedMap.values, List.map_map]
      refine List.map_congr_left fun e he => ?_
      exact (h.userIds e.1 e.2 (OrderedMap.mem_entries_iff.mp he)).1
    rw [hkeys]
    exact w.server.users.nodup
  latest := by
    intro account login
    rw [← h.latest account, Option.map_eq_some_iff]
    constructor
    · rintro ⟨row, hrow, hid, hlogin⟩
      obtain ⟨e, he, rfl⟩ := List.mem_map.mp hrow
      have hget := OrderedMap.mem_entries_iff.mp he
      rw [(h.userIds e.1 e.2 hget).1] at hid
      exact ⟨e.2, hid ▸ hget, hlogin⟩
    · rintro ⟨row, hrow, hlogin⟩
      exact ⟨row, OrderedMap.mem_values_of_get? hrow, (h.userIds account row hrow).1, hlogin⟩

/-- **A login goes through exactly when its login is free.** -/
theorem succeeds_iff_loginFree (h : Keeps w) (e : LoginEvent) :
    Succeeds d w e ↔ LoginFree d w e := by
  cases e with
  | named => exact Iff.rfl
  | loggedIn account =>
    refine forall_congr' fun login => forall_congr' fun _ => forall_congr' fun hallowed => ?_
    -- the logins in the table are the latest ones
    have hfree : (∀ githubId row, w.server.users.get? githubId = some row → githubId ≠ account →
        row.githubLogin ≠ login) ↔ ∀ other, other ≠ account → w.latest.get? other ≠ some login := by
      refine forall_congr' fun other => ?_
      rw [← h.latest other]
      constructor
      · intro hrows hother hlogin
        obtain ⟨row, hrow, hsame⟩ := Option.map_eq_some_iff.mp hlogin
        exact hrows row hrow hother hsame
      · intro hlogins row hrow hother hsame
        exact hlogins hother (by rw [hrow, Option.map_some, hsame])
    rw [← hfree, ← OAuthServer.upsertUser_isOk_iff h.userIds ⟨account, login⟩]
    unfold OAuthServer.upsertGitHubUser
    rw [hallowed, h.isOpen, if_neg (by decide), if_neg (by decide)]
    dsimp only
    cases hupsert : w.server.upsertUser (w.server.internalId ⟨account, login⟩)
        ⟨account, login⟩ with
    | error e =>
      refine iff_of_false ?_ Bool.false_ne_true
      rintro ⟨userId, server, hok⟩
      cases hok
    | ok server => exact iff_of_true ⟨_, _, rfl⟩ rfl

/-- A login that goes through leaves the table right. -/
theorem Keeps.step (h : Keeps w) {e : LoginEvent} (hsucceeds : Succeeds d w e) :
    Keeps (step d w e) := by
  cases e with
  | named => exact ⟨h.isOpen, h.userIds, h.latest⟩
  | loggedIn account =>
    unfold LoginWorld.step
    dsimp only
    split
    · exact h
    · next login hlogin =>
      split
      · next hallowed =>
        -- the login writes the row of the account, and no other one
        obtain ⟨userId, server, hok⟩ := hsucceeds login hlogin hallowed
        obtain ⟨-, users, auditEvents, husers, hserver⟩ :=
          OAuthServer.upsertGitHubUser_eq_ok h.userIds hok
        have hlatest : ∀ other, (server.users.get? other).map UserRow.githubLogin =
            if other = account then some login
            else (w.server.users.get? other).map UserRow.githubLogin := by
          intro other
          unfold OAuthServer.upsertGitHubUser at hok
          rw [hallowed, h.isOpen, if_neg (by decide), if_neg (by decide)] at hok
          dsimp only at hok
          cases hupsert : w.server.upsertUser (w.server.internalId ⟨account, login⟩)
              ⟨account, login⟩ with
          | error e =>
            rw [hupsert] at hok
            cases hok
          | ok server' =>
            rw [hupsert] at hok
            obtain ⟨-, rfl⟩ := Prod.mk.inj (Except.ok.inj hok)
            exact login_of_upsertUser hupsert other
        rw [hok]
        dsimp only
        subst hserver
        refine ⟨h.isOpen, husers, fun other => ?_⟩
        rw [OrderedMap.get?_set, hlatest other, h.latest other]
      · exact h

/-! ### Runs -/

variable (d)

/-- **When logins never fail.** From any GitHub and an empty table, whoever is renamed and logs in,
and in whatever order: all logins of allowed users go through and the table has one row for each
account that has logged in, with its latest login, exactly when no one logs in under a login that
another account had when it last logged in. -/
theorem logins_succeed_iff (gitHub : GitHub) (es : List LoginEvent) :
    (Run.AllSteps (step d) (Succeeds d) (start gitHub) es ∧
        Run.Along (step d) RowsAreLatest (start gitHub) es) ↔
      Run.AllSteps (step d) (LoginFree d) (start gitHub) es := by
  have hkeeps (hall : Run.AllSteps (step d) (Succeeds d) (start gitHub) es) :
      Run.Along (step d) Keeps (start gitHub) es :=
    Run.along_of_preserved (fun _ _ h hsucceeds => h.step hsucceeds) (keeps_start gitHub) hall
  constructor
  · rintro ⟨hall, -⟩
    exact Run.AllSteps.of_along (fun w e h hsucceeds => (succeeds_iff_loginFree h e).mp hsucceeds)
      (hkeeps hall) hall
  · intro hfree
    -- where the logins are free each step succeeds, and so keeps the rows for the next one
    have hpreserved : ∀ w e, Keeps w → LoginFree d w e → Keeps (step d w e) := fun w e h hfree =>
      h.step ((succeeds_iff_loginFree h e).mpr hfree)
    have halong := Run.along_of_preserved hpreserved (keeps_start gitHub) hfree
    have hall : Run.AllSteps (step d) (Succeeds d) (start gitHub) es :=
      Run.AllSteps.of_along (fun w e h hfree => (succeeds_iff_loginFree h e).mpr hfree) halong hfree
    exact ⟨hall, halong.mono fun _ h => h.rowsAreLatest⟩

/-- An account logs in and is renamed, and its old login is taken by an account that logs in. -/
def takenOver : List LoginEvent :=
  [.named "1" "alice", .loggedIn "1" (sampleMoment 1), .named "1" "bob", .named "2" "alice",
    .loggedIn "2" (sampleMoment 2)]

/-- **A valid login is refused**: the row of the account that was renamed still has the login. -/
theorem login_taken_over_fails :
    ¬(Run.AllSteps (step OAuthServer.sampleOAuth) (Succeeds OAuthServer.sampleOAuth)
        (start GitHub.empty) takenOver ∧
      Run.Along (step OAuthServer.sampleOAuth) RowsAreLatest (start GitHub.empty) takenOver) := by
  rintro ⟨⟨-, -, -, -, hlast, -⟩, -⟩
  obtain ⟨userId, server, hok⟩ := hlast "alice" (by decide +kernel) (by decide +kernel)
  have hfails : ((Run.run (step OAuthServer.sampleOAuth) (start GitHub.empty)
      (takenOver.take 4)).server.upsertGitHubUser OAuthServer.sampleOAuth (sampleMoment 2)
        ⟨"2", "alice"⟩).toOption.isSome = false := by
    decide +kernel
  have hrefused := congrArg (fun r => r.toOption.isSome) hok
  exact absurd (hfails.symm.trans hrefused) nofun

end LoginWorld

end Remote
