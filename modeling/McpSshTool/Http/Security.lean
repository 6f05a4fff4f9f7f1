import McpSshTool.Ssh.Policy

/-!
# The guards of the HTTP server

`http-security.ts`, `auth.ts` and `oauth.ts`: what the server checks before it listens, and what it
checks of a request.

* `Runtime` — what these take from libraries: the parser of URLs, SHA-256, and `jwtVerify` of
  `jose`;
* `validateHttpStartupConfig` — the check before the server listens;
* `isBearerAuthorizationValid` and `verifyOAuthAuthorization` — the two checks of a request, and
  `CarriesBearerToken` and `CarriesAccessToken` — what a request must carry to pass them.
-/

namespace Http

/-! ### The runtime -/

/-- What `new URL(text)` reads of a URL. -/
structure Url where
  protocol : String
  hostname : String
  pathname : String

/-- What `jwtVerify` returns. -/
structure VerifiedJwt where
  payload : Value
  kid : Option String
  alg : Option String

/-- What the server takes from its libraries. -/
structure Runtime where
  /-- `new URL(text)`; `none` where it throws. -/
  url : String → Option Url
  /-- The text of a URL after an assignment to its `pathname`. -/
  withPathname : String → String → String
  /-- `createHash("sha256").update(data).digest()`. -/
  sha256 : List UInt8 → List UInt8
  /-- `readFileSync(path, "utf8")`; `none` where it throws. -/
  readFileSync : String → Option String
  /-- `jwtVerify(token, keys at the JWKS URL, { issuer, audience, algorithms, … })` at a time;
  `none` where it rejects. -/
  jwtVerify : ℤ → String → String → String → String → List String → Option VerifiedJwt
  /-- `isInitializeRequest`. -/
  isInitializeRequest : Value → Bool

/-! ### Startup -/

/-- `TOOL_PROFILES`. -/
inductive ToolProfile where
  | full | remoteSafe | chatgpt | claude | remoteReadonly | remoteBroker
deriving DecidableEq, Repr

def isRemoteSafeToolProfile (profile : ToolProfile) : Bool := profile ≠ .full

inductive HostKeyPolicy where
  | strict | acceptNew | insecure
deriving DecidableEq, Repr

inductive AuthMode where
  | bearer | oauth
deriving DecidableEq, Repr

structure HttpStartupConfig where
  host : String
  allowedOrigins : List String
  bearerTokenFile : Option String := none
  publicUrl : Option String := none

structure HttpStartupSecurityContext where
  toolProfile : ToolProfile := .full
  allowedHosts : List String := []
  hostKeyPolicy : Option HostKeyPolicy := some .strict
  authMode : Option AuthMode := some .bearer
  oauthConfigured : Option Bool := some false

/-- One to three decimal digits. -/
def isOctet (group : List Char) : Bool :=
  1 ≤ group.length && group.length ≤ 3 && group.all Char.isDigit

/-- `isLoopbackHost`. Lower case is that of ASCII: no other letter has a lower case that the
comparisons tell apart. -/
def isLoopbackHost (host : String) : Bool :=
  let lower := host.toList.map Char.toLower
  let opened := if lower.head? = some '[' then lower.tail else lower
  let normalized := if opened.getLast? = some ']' then opened.dropLast else opened
  normalized = "localhost".toList || ".localhost".toList.isSuffixOf normalized ||
    normalized = "::1".toList || normalized = "0:0:0:0:0:0:0:1".toList ||
    match normalized.splitOn '.' with
    | [network, a, b, c] => network = "127".toList && isOctet a && isOctet b && isOctet c
    | _ => false

/-- The check of a public URL; the message of what is thrown. -/
def publicUrlFault (rt : Runtime) (publicUrl : String) : Option String :=
  match rt.url publicUrl with
  | none => some "Invalid URL"
  | some url =>
    if url.protocol ≠ "https:" then some "public URL must use HTTPS"
    else if isLoopbackHost url.hostname then some "public URL must not use a loopback host"
    else none

/-- `validateHttpStartupConfig`; the message of what it throws. -/
def validateHttpStartupConfig (rt : Runtime) (httpConfig : HttpStartupConfig)
    (bearerToken : Option String) (context : HttpStartupSecurityContext) : Except String Unit :=
  if (Ssh.truthy httpConfig.bearerTokenFile).isSome ∧ bearerToken = some "" then
    .error "Refusing HTTP MCP startup with an empty bearer token file"
  else if isLoopbackHost httpConfig.host then .ok ()
  else
    let hasBearerAuth := (Ssh.truthy bearerToken).isSome
    let hasOAuthAuth := context.authMode = some .oauth ∧ context.oauthConfigured = some true
    if (!hasBearerAuth ∧ ¬hasOAuthAuth) ∨ httpConfig.allowedOrigins.length = 0 then
      .error ("Refusing non-loopback HTTP MCP binding without SSH_MCP_HTTP_BEARER_TOKEN_FILE " ++
        "or OAuth config, and SSH_MCP_HTTP_ALLOWED_ORIGINS")
    else
      match Ssh.truthy httpConfig.publicUrl with
      | none =>
        .error ("Refusing non-loopback HTTP MCP binding without SSH_MCP_HTTP_PUBLIC_URL " ++
          "for stable protected resource metadata")
      | some publicUrl =>
        match publicUrlFault rt publicUrl with
        | some message =>
          .error ("Refusing non-loopback HTTP MCP binding with invalid SSH_MCP_HTTP_PUBLIC_URL: " ++
            message)
        | none =>
          if !isRemoteSafeToolProfile context.toolProfile then
            .error ("Refusing non-loopback HTTP MCP binding with full tool profile. Set " ++
              "SSH_MCP_TOOL_PROFILE=remote-safe, chatgpt, claude, remote-readonly, or " ++
              "remote-broker.")
          else if context.allowedHosts.length = 0 then
            .error ("Refusing non-loopback HTTP MCP binding without SSH_MCP_ALLOWED_HOSTS " ++
              "for remote connector profile")
          else if context.hostKeyPolicy.getD .strict ≠ .strict then
            .error ("Refusing non-loopback HTTP MCP binding without strict SSH host-key " ++
              "verification")
          else .ok ()

/-- What passes the check on a host that is not loopback has a credential to ask for. -/
theorem hasAuth_of_validate {rt : Runtime} {httpConfig : HttpStartupConfig}
    {bearerToken : Option String} {context : HttpStartupSecurityContext}
    (h : validateHttpStartupConfig rt httpConfig bearerToken context = .ok ())
    (hhost : isLoopbackHost httpConfig.host = false) :
    (Ssh.truthy bearerToken).isSome = true ∨ context.authMode = some .oauth := by
  unfold validateHttpStartupConfig at h
  split at h
  · cases h
  rw [if_neg (by rw [hhost]; exact Bool.false_ne_true)] at h
  dsimp only at h
  split at h
  · cases h
  · next hauth =>
    by_contra hnone
    rw [not_or] at hnone
    refine hauth (.inl ⟨?_, fun hoauth => hnone.2 hoauth.1⟩)
    rw [Bool.not_eq_true']
    exact Bool.eq_false_iff.mpr hnone.1

/-- Nor does it without a restricted tool profile and a list of hosts. -/
theorem restricted_of_validate {rt : Runtime} {httpConfig : HttpStartupConfig}
    {bearerToken : Option String} {context : HttpStartupSecurityContext}
    (h : validateHttpStartupConfig rt httpConfig bearerToken context = .ok ())
    (hhost : isLoopbackHost httpConfig.host = false) :
    isRemoteSafeToolProfile context.toolProfile = true ∧ context.allowedHosts ≠ [] := by
  unfold validateHttpStartupConfig at h
  split at h
  · cases h
  rw [if_neg (by rw [hhost]; exact Bool.false_ne_true)] at h
  dsimp only at h
  split at h
  · cases h
  split at h
  · cases h
  split at h
  · cases h
  split at h
  · cases h
  · next hprofile =>
    split at h
    · cases h
    · next hhosts =>
      rw [Bool.not_eq_true, Bool.not_eq_false'] at hprofile
      exact ⟨hprofile, fun hnil => hhosts (List.length_eq_zero_iff.mpr hnil)⟩

def isOriginAllowed (origin : Option String) (allowedOrigins : List String) : Bool :=
  match Ssh.truthy origin with
  | none => true
  | some origin => allowedOrigins.length = 0 || origin ∈ allowedOrigins

/-! ### Bearer tokens -/

def extractBearerToken (authorization : Option String) : Option String := do
  let authorization ← authorization
  match authorization.toList.splitOn ' ' with
  | [scheme, token] =>
    if scheme = "Bearer".toList ∧ token ≠ [] then some (String.ofList token) else none
  | _ => none

theorem eq_of_extractBearerToken {authorization : Option String} {token : String}
    (h : extractBearerToken authorization = some token) :
    authorization = some ("Bearer " ++ token) ∧ token ≠ "" := by
  obtain ⟨text, rfl, htext⟩ := Option.bind_eq_some_iff.mp h
  have hjoin : [' '].intercalate (text.toList.splitOn ' ') = text.toList :=
    List.intercalate_splitOn ' '
  split at htext
  · next scheme chars hsplit =>
    split at htext
    · next hscheme =>
      obtain rfl := Option.some.inj htext
      rw [hsplit, hscheme.1] at hjoin
      refine ⟨congrArg some (String.toList_inj.mp ?_), fun hnil => hscheme.2 ?_⟩
      · rw [← hjoin, String.toList_append, String.toList_ofList]
        simp [List.intercalate]
      · rw [← String.toList_ofList (l := chars), hnil]
        rfl
    · cases htext
  · cases htext

/-- `constantTimeTokenEquals`: the digests are equal. -/
def constantTimeTokenEquals (rt : Runtime) (provided expected : String) : Bool :=
  if expected.length = 0 then false
  else rt.sha256 (Utf8.encode provided) = rt.sha256 (Utf8.encode expected)

def isBearerAuthorizationValid (rt : Runtime) (authorization : Option String)
    (expectedToken : String) : Bool :=
  match extractBearerToken authorization with
  | none => false
  | some providedToken => constantTimeTokenEquals rt providedToken expectedToken

/-- **The header carries this bearer token**, as far as SHA-256 tells texts apart. -/
def CarriesBearerToken (rt : Runtime) (authorization : Option String) (expected : String) : Prop :=
  ∃ token, authorization = some ("Bearer " ++ token) ∧
    rt.sha256 (Utf8.encode token) = rt.sha256 (Utf8.encode expected)

theorem carriesBearerToken_of_valid {rt : Runtime} {authorization : Option String}
    {expected : String} (h : isBearerAuthorizationValid rt authorization expected = true) :
    CarriesBearerToken rt authorization expected := by
  unfold isBearerAuthorizationValid at h
  cases htoken : extractBearerToken authorization with
  | none =>
    rw [htoken] at h
    cases h
  | some token =>
    rw [htoken] at h
    refine ⟨token, (eq_of_extractBearerToken htoken).1, ?_⟩
    simp only [constantTimeTokenEquals, Bool.if_false_left, Bool.and_eq_true,
      decide_eq_true_eq] at h
    exact h.2

/-! ### OAuth access tokens -/

structure OAuthVerificationConfig where
  issuer : Option String := none
  audience : Option String := none
  jwksUrl : Option String := none
  requiredScopes : List String
  allowedAlgorithms : Option (List String) := none

/-- `DEFAULT_ALLOWED_ALGORITHMS`. -/
def defaultAllowedAlgorithms : List String := ["RS256"]

def audienceMatches (audience : Value) (expected : String) : Bool :=
  match audience with
  | .str s => s = expected
  | .arr xs => xs.any fun x => x.asString = some expected
  | _ => false

def extractScopes (payload : Value) : List String :=
  let ofText (value : Value) := (value.asString.map JsText.words).getD []
  let ofArray := match payload.member "scp" with
    | .arr xs => xs.filterMap Value.asString
    | _ => []
  ofText (payload.member "scope") ++ ofText (payload.member "scp") ++ ofArray

/-- `validateClaims`; `false` where it throws. -/
def validateClaims (payload : Value) (config : OAuthVerificationConfig) : Bool :=
  (payload.member "iss").asString = config.issuer &&
    audienceMatches (payload.member "aud") (config.audience.getD "") &&
    config.requiredScopes.all fun scope => scope ∈ extractScopes payload

/-- `verifyOAuthAuthorization` at a time; `none` where it rejects. -/
def verifyOAuthAuthorization (rt : Runtime) (now : ℤ) (authorization : Option String)
    (config : OAuthVerificationConfig) : Option Value := do
  let issuer ← Ssh.truthy config.issuer
  let audience ← Ssh.truthy config.audience
  let jwksUrl ← Ssh.truthy config.jwksUrl
  let token ← Ssh.truthy (extractBearerToken authorization)
  let algorithms := config.allowedAlgorithms.getD defaultAllowedAlgorithms
  let _ ← rt.url jwksUrl
  let jwt ← rt.jwtVerify now token issuer audience jwksUrl algorithms
  let _ ← Ssh.truthy jwt.kid
  let alg ← Ssh.truthy jwt.alg
  if alg ∈ algorithms ∧ validateClaims jwt.payload config then some jwt.payload else none

def isOAuthAuthorizationValid (rt : Runtime) (now : ℤ) (authorization : Option String)
    (config : OAuthVerificationConfig) : Bool :=
  (verifyOAuthAuthorization rt now authorization config).isSome

/-- **The header carries an access token**: at some time, `jwtVerify` accepts it from the issuer for
this server, and it has every scope required. -/
def CarriesAccessToken (rt : Runtime) (authorization : Option String)
    (config : OAuthVerificationConfig) : Prop :=
  ∃ now token issuer audience jwksUrl jwt,
    authorization = some ("Bearer " ++ token) ∧
    (config.issuer = some issuer ∧ config.audience = some audience ∧
      config.jwksUrl = some jwksUrl) ∧
    rt.jwtVerify now token issuer audience jwksUrl
      (config.allowedAlgorithms.getD defaultAllowedAlgorithms) = some jwt ∧
    (jwt.payload.member "iss").asString = some issuer ∧
    audienceMatches (jwt.payload.member "aud") audience = true ∧
    ∀ scope ∈ config.requiredScopes, scope ∈ extractScopes jwt.payload

theorem truthy_eq_some {value : Option String} {text : String}
    (h : Ssh.truthy value = some text) : value = some text :=
  (Option.filter_eq_some_iff.mp h).1

theorem carriesAccessToken_of_valid {rt : Runtime} {now : ℤ} {authorization : Option String}
    {config : OAuthVerificationConfig}
    (h : isOAuthAuthorizationValid rt now authorization config = true) :
    CarriesAccessToken rt authorization config := by
  obtain ⟨payload, h⟩ := Option.isSome_iff_exists.mp h
  obtain ⟨issuer, hissuer, h⟩ := Option.bind_eq_some_iff.mp h
  obtain ⟨audience, haudience, h⟩ := Option.bind_eq_some_iff.mp h
  obtain ⟨jwksUrl, hjwksUrl, h⟩ := Option.bind_eq_some_iff.mp h
  obtain ⟨token, htoken, h⟩ := Option.bind_eq_some_iff.mp h
  obtain ⟨-, -, h⟩ := Option.bind_eq_some_iff.mp h
  obtain ⟨jwt, hjwt, h⟩ := Option.bind_eq_some_iff.mp h
  obtain ⟨-, -, h⟩ := Option.bind_eq_some_iff.mp h
  obtain ⟨alg, -, h⟩ := Option.bind_eq_some_iff.mp h
  have hclaims : validateClaims jwt.payload config = true := by
    split at h
    · next hboth => exact hboth.2
    · cases h
  rw [validateClaims, Bool.and_eq_true, Bool.and_eq_true, List.all_eq_true] at hclaims
  obtain ⟨⟨hiss, haud⟩, hscopes⟩ := hclaims
  have hissuer' := truthy_eq_some hissuer
  have haudience' := truthy_eq_some haudience
  refine ⟨now, token, issuer, audience, jwksUrl, jwt,
    (eq_of_extractBearerToken (truthy_eq_some htoken)).1,
    ⟨hissuer', haudience', truthy_eq_some hjwksUrl⟩, hjwt, ?_, ?_, ?_⟩
  · rw [← hissuer']
    exact of_decide_eq_true hiss
  · rw [haudience', Option.getD_some] at haud
    exact haud
  · exact fun scope hscope => of_decide_eq_true (hscopes scope hscope)

end Http
