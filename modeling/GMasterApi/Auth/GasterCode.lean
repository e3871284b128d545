import GMasterApi.Lib.GoString

/-!
# Desktop login of Gaster Code: rows, secrets and token pairs

What the endpoints share.  SHA-256, `url.Parse` and the query encoder stand for
themselves (`Env`); so do the two lifetimes that are read from the environment.
-/

namespace GasterCode

open GoString

inductive AuthStatus
  | pending | approved | used | denied | expired
  deriving DecidableEq

/-- A row of `gaster_code_auth_requests`. -/
structure AuthRequest where
  requestID : String
  userID : ℤ
  codeChallenge : String
  state : String
  redirectURI : String
  clientName : String
  clientVersion : String
  status : AuthStatus
  authCodeHash : String
  expiresAt : ℤ
  codeExpiresAt : ℤ
  createdAt : ℤ
  updatedAt : ℤ
  deriving DecidableEq

/-- A row of `gaster_code_sessions`. -/
structure Session where
  userID : ℤ
  accessTokenHash : String
  refreshTokenHash : String
  clientName : String
  clientVersion : String
  expiresAt : ℤ
  refreshExpiresAt : ℤ
  revokedAt : ℤ
  lastUsedAt : ℤ
  updatedAt : ℤ
  deriving DecidableEq

/-- What the token functions read of a row of `users`. -/
structure User where
  id : ℤ
  username : String
  displayName : String
  email : String
  group : String
  status : ℤ
  deriving DecidableEq

def userStatusEnabled : ℤ := 1

structure UserInfo where
  id : ℤ
  username : String
  displayName : String
  email : String
  group : String
  deriving DecidableEq

structure TokenResult where
  accessToken : String
  refreshToken : String
  expiresAt : ℤ
  user : UserInfo
  deriving DecidableEq

/-- What `url.Parse` returns, as far as it is looked at. -/
structure Url where
  scheme : String
  user : Option String
  hostname : String
  port : String
  path : String
  fragment : String
  deriving DecidableEq

structure Env where
  /-- `HashGasterCodeSecret` -/
  hashSecret : String → String
  /-- `buildPKCES256Challenge` -/
  pkceChallenge : String → String
  parseURL : String → Except String Url
  /-- `buildGasterCodeCallbackURL` -/
  callbackURL : String → List (String × String) → Except String String
  accessTokenTTL : ℤ
  refreshTokenTTL : ℤ

def authCodeTTL : ℤ := 5 * 60
def callbackPath : String := "/api/gmaster-auth/callback"

/-- `randomGasterCodeSecret`, with the characters that were drawn. -/
def randomSecret (pre chars : String) : String := pre ++ chars

def validateRedirectURI (env : Env) (redirectURI : String) : Except String Unit :=
  match env.parseURL (trimSpace redirectURI) with
  | .error e => .error ("invalid redirect_uri: " ++ e)
  | .ok parsed =>
    if parsed.scheme ≠ "http" then .error "redirect_uri scheme must be http"
    else if parsed.user.isSome then .error "redirect_uri must not include user info"
    else if parsed.hostname ≠ "127.0.0.1" ∧ parsed.hostname ≠ "localhost" then
      .error "redirect_uri host must be 127.0.0.1 or localhost"
    else if parsed.port = "" then .error "redirect_uri must include a loopback port"
    else if (atoi parsed.port).all fun n => n < 1 ∨ 65535 < n then
      .error "redirect_uri port is invalid"
    else if parsed.path ≠ callbackPath then .error ("redirect_uri path must be " ++ callbackPath)
    else if parsed.fragment ≠ "" then .error "redirect_uri must not include a fragment"
    else .ok ()

def buildUserInfo (user : User) : UserInfo :=
  let displayName := trimSpace user.displayName
  { id := user.id
    username := user.username
    displayName := if displayName = "" then user.username else displayName
    email := user.email
    group := user.group }

/-- What `issueGasterCodeTokenPairTx` takes from outside: the characters of the two
tokens and the row that its lookup of the user finds. -/
structure Drawn where
  access : String
  refresh : String
  user : Option User
  deriving DecidableEq

def Drawn.accessToken (drawn : Drawn) : String := randomSecret "gc_at_" drawn.access
def Drawn.refreshToken (drawn : Drawn) : String := randomSecret "gc_rt_" drawn.refresh

def issueTokenPairTx (env : Env) (now : ℤ) (drawn : Drawn) : Except String TokenResult :=
  match drawn.user with
  | none => .error "record not found"
  | some user =>
    if user.status ≠ userStatusEnabled then .error "user is disabled"
    else .ok
      { accessToken := drawn.accessToken
        refreshToken := drawn.refreshToken
        expiresAt := now + env.accessTokenTTL
        user := buildUserInfo user }

/-- The session that `createGasterCodeSessionTokensTx` prepares for a token pair. -/
def newSession (env : Env) (req : AuthRequest) (result : TokenResult) (now : ℤ) : Session :=
  { userID := req.userID
    accessTokenHash := env.hashSecret result.accessToken
    refreshTokenHash := env.hashSecret result.refreshToken
    clientName := req.clientName
    clientVersion := req.clientVersion
    expiresAt := result.expiresAt
    refreshExpiresAt := now + env.refreshTokenTTL
    revokedAt := 0
    lastUsedAt := now
    updatedAt := now }

/-- A token pair that is issued is the one that was drawn, for a user who exists. -/
theorem issueTokenPairTx_ok {env : Env} {now : ℤ} {drawn : Drawn} {result : TokenResult}
    (h : issueTokenPairTx env now drawn = .ok result) :
    result.accessToken = drawn.accessToken ∧ result.refreshToken = drawn.refreshToken ∧
      result.expiresAt = now + env.accessTokenTTL := by
  unfold issueTokenPairTx at h
  split at h
  · cases h
  · split at h
    · cases h
    · cases h
      exact ⟨rfl, rfl, rfl⟩

/-- SHA-256 of a few secrets. -/
def sampleHashes : List (String × String) :=
  [("gc_code_k3Jq", "aa4a6be61d84c9e184fd2c0f3c35f1597542a21afcaa0d82490d697d1af902ae"),
    ("gc_at_a1", "f8e9a5fc04b498e7d01ed41687503e9c6a01f15b58a366d54116d29c6d2ce519"),
    ("gc_rt_r1", "6a3f62422e367c6f092b015d90a13327d5084521b14afafaacacd80d77ec866f"),
    ("gc_at_a2", "185d0d892e0ba5933276207cb03712da6dc5b319efa050ab253fc307fe195acb"),
    ("gc_rt_r2", "2caaa27853b9b95d9064ef36dc0056177166b284132d6988b91349e28fe9427d"),
    ("gc_at_a3", "60e3ed5cb364796baeeb13f17c5eeb6a8ad8c32cfc32071b9660ab23ea308416"),
    ("gc_rt_r3", "0d5bbcad01e81c1b2085ad8d1a0db7fb3afe0424ca8523d18b8ea60377e70929")]

/-- What the standard library computes on the secrets of `sampleHashes`, on the
verifier `dBjf…` and on loopback addresses with port 18790. -/
def sampleEnv : Env where
  hashSecret secret := (sampleHashes.lookup secret).getD ""
  pkceChallenge verifier :=
    if verifier = "dBjftJeZ4CVP-mB92K27uhbUJU1p1r_wW1gFWFOEjXk" then
      "E9Melhoa2OwvFrEMTJguCHaoeK1t8URWbuGJSstw-cM"
    else ""
  parseURL _ := .ok ⟨"http", none, "127.0.0.1", "18790", callbackPath, ""⟩
  callbackURL redirectURI params :=
    .ok (redirectURI ++ "?" ++ "&".intercalate (params.map fun p => p.1 ++ "=" ++ p.2))
  accessTokenTTL := 24 * 60 * 60
  refreshTokenTTL := 30 * 24 * 60 * 60

end GasterCode
