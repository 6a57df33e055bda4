import AnatoliaBis.Audit.Event
import AnatoliaBis.Lib.Tabulated
import AnatoliaBis.RateLimit
import AnatoliaBis.TimeText
import AnatoliaBis.Uuid

/-! # The data of authentication

Rows, tokens, requests' headers, errors and responses of `auth.rs`, `mfa.rs`,
`db/session.rs` and `db/mfa.rs`.

Tokens are symbolic: a token signed under one of the server's three secrets is
its claims, and any other string is `Token.other`. A signature under one secret
says nothing under another, so the three kinds of claims never mix.
-/

namespace AnatoliaBis.Auth

/-! ## Tokens -/

/-- `auth::Claims`, the access token. -/
structure Claims where
  id : Uuid
  userCode : String
  email : String
  role : String
  exp : Nat
  deriving Repr, DecidableEq

/-- `auth::RefreshClaims`. -/
structure RefreshClaims where
  sub : Uuid
  family : Uuid
  jti : Nat
  exp : Nat
  deriving Repr, DecidableEq

/-- `PURPOSE_LOGIN` and `PURPOSE_ENROLLMENT`. -/
inductive Purpose where
  | login
  | enrollment
  deriving Repr, DecidableEq

/-- `mfa::ChallengeClaims`. -/
structure ChallengeClaims where
  userId : Uuid
  purpose : Purpose
  exp : Nat
  deriving Repr, DecidableEq

/-- A token as a client presents it. -/
inductive Token where
  | access (claims : Claims)
  | refresh (claims : RefreshClaims)
  | challenge (claims : ChallengeClaims)
  | other (text : String)
  deriving Repr, DecidableEq

/-- The leeway `jsonwebtoken` grants on `exp`, in seconds. -/
def leeway : Nat := 60

/-- `Validation::validate_exp`, at the instant `now`. -/
def Unexpired (exp : Nat) (now : Timestamp) : Prop := now.timestamp ≤ exp + leeway

instance (exp : Nat) (now : Timestamp) : Decidable (Unexpired exp now) :=
  inferInstanceAs (Decidable (_ ≤ _))

/-- `decode_access_token`, at the instant `now`. -/
def Token.accessClaims (now : Timestamp) : Token → Option Claims
  | .access c => if Unexpired c.exp now then some c else none
  | _ => none

/-- `decode_refresh_token`, at the instant `now`. -/
def Token.refreshClaims (now : Timestamp) : Token → Option RefreshClaims
  | .refresh c => if Unexpired c.exp now then some c else none
  | _ => none

/-- `decode_challenge_token`, at the instant `now`. -/
def Token.challengeUser (now : Timestamp) (expected : Purpose) : Token → Option Uuid
  | .challenge c => if Unexpired c.exp now ∧ c.purpose = expected then some c.userId else none
  | _ => none

theorem Token.accessClaims_eq_some {now : Timestamp} {token : Token} {c : Claims} :
    token.accessClaims now = some c ↔ token = .access c ∧ Unexpired c.exp now := by
  cases token with
  | access c' =>
      simp only [accessClaims, Option.ite_none_right_eq_some, Option.some.injEq, access.injEq]
      constructor
      · rintro ⟨h, rfl⟩
        exact ⟨rfl, h⟩
      · rintro ⟨rfl, h⟩
        exact ⟨h, rfl⟩
  | _ => simp [accessClaims]

theorem Token.refreshClaims_eq_some {now : Timestamp} {token : Token} {c : RefreshClaims} :
    token.refreshClaims now = some c ↔ token = .refresh c ∧ Unexpired c.exp now := by
  cases token with
  | refresh c' =>
      simp only [refreshClaims, Option.ite_none_right_eq_some, Option.some.injEq, refresh.injEq]
      constructor
      · rintro ⟨h, rfl⟩
        exact ⟨rfl, h⟩
      · rintro ⟨rfl, h⟩
        exact ⟨h, rfl⟩
  | _ => simp [refreshClaims]

theorem Token.challengeUser_eq_some {now : Timestamp} {purpose : Purpose} {token : Token}
    {u : Uuid} :
    token.challengeUser now purpose = some u ↔
      ∃ exp, token = .challenge ⟨u, purpose, exp⟩ ∧ Unexpired exp now := by
  cases token with
  | challenge c =>
      simp only [challengeUser, Option.ite_none_right_eq_some, Option.some.injEq,
        challenge.injEq]
      constructor
      · rintro ⟨⟨h, rfl⟩, rfl⟩
        exact ⟨c.exp, rfl, h⟩
      · rintro ⟨exp, rfl, h⟩
        exact ⟨⟨h, rfl⟩, rfl⟩
  | _ => simp [challengeUser]

/-! ## Rows -/

/-- The columns of `db::UserRow` that authentication reads. -/
structure UserRow where
  id : Uuid
  userCode : String
  firstName : String
  lastName : String
  email : Option String
  passwordHash : String
  role : String
  isApproved : Bool
  isBanned : Bool
  deletedAt : Option Timestamp
  deriving Repr, DecidableEq

/-- `METHOD_TOTP` and `METHOD_EMAIL`. -/
inductive Method where
  | totp
  | email
  deriving Repr, DecidableEq

/-- The text of the column, also what a client names. -/
def Method.text : Method → String
  | .totp => "totp"
  | .email => "email"

/-- What the column `email_code_expires_at` keeps: text on SQLite, a
`timestamptz` on PostgreSQL. -/
inductive CodeExpiry where
  | text (expiresAt : String)
  | timestamptz (expiresAt : Timestamp)
  deriving Repr, DecidableEq

/-- `email_code_expires_at > NOW()`, or `> strftime('%Y-%m-%dT%H:%M:%fZ', 'now')`,
where comparing with `NULL` selects nothing. -/
def CodeExpiry.after (now : Timestamp) : CodeExpiry → Bool
  | .text expiresAt => (TimeText.strftime now).any fun text => text.toList < expiresAt.toList
  | .timestamptz expiresAt => now < expiresAt

/-- A row of `mfa_credentials`. -/
structure MfaCredentialRow where
  secret : String
  method : Method
  emailCodeHash : Option String
  emailCodeExpiresAt : Option CodeExpiry
  enabledAt : Option Timestamp
  lastUsedAt : Option Timestamp
  deriving Repr, DecidableEq

/-- A row of `mfa_recovery_codes`. -/
structure RecoveryCodeRow where
  userId : Uuid
  codeHash : String
  usedAt : Option Timestamp
  deriving Repr, DecidableEq

/-- `db::SessionRow`. -/
structure SessionRow where
  id : Uuid
  userId : Uuid
  refreshTokenHash : String
  tokenFamilyId : Uuid
  createdAt : Timestamp
  expiresAt : Timestamp
  lastUsedAt : Timestamp
  revokedAt : Option Timestamp
  userAgent : Option String
  ipAddress : Option String
  rotationCounter : Nat
  createdBy : Option String
  deriving Repr, DecidableEq

/-! ## Configuration and other crates -/

/-- What the handlers take from the configuration and from other crates. -/
structure Platform where
  backend : Backend
  /-- `trust_proxy()`. -/
  trustProxy : Bool
  /-- `MFA_REQUIRED_ROLES`. -/
  mfaRequiredRoles : List String
  sha256Hex : String → String
  /-- The text of a signed refresh token. -/
  refreshTokenText : RefreshClaims → String
  /-- `bcrypt::verify(password, hash).unwrap_or(false)`. -/
  bcryptVerify : String → String → Bool
  /-- `Secret::generate().to_base32()`, from the random bytes drawn. -/
  generateSecret : Nat → String
  /-- `build_totp(secret, account_name).is_some()`. -/
  buildTotp : String → String → Bool
  /-- `Totp::check_current(code).is_some()` at an instant. -/
  checkTotp : String → String → String → Timestamp → Bool
  /-- `Totp::to_url().unwrap_or_default()`. -/
  totpUrl : String → String → String
  /-- `str::to_uppercase`. -/
  toUppercase : String → String
  /-- The cast `::timestamptz` of PostgreSQL, on the texts it takes; with any other
  the statement fails. -/
  timestamptz : String → Timestamp

/-- What the column keeps of the text it is given. -/
def Platform.codeExpiry (p : Platform) (expiresAt : String) : CodeExpiry :=
  match p.backend with
  | .postgres => .timestamptz (p.timestamptz expiresAt)
  | .sqlite => .text expiresAt

/-- `sha256_hex(&token)` of a refresh token. -/
def Platform.refreshTokenHash (p : Platform) (c : RefreshClaims) : String :=
  p.sha256Hex (p.refreshTokenText c)

/-! ## Text -/

/-- `char::is_whitespace`. -/
def isWhitespace (c : Char) : Bool :=
  (9 ≤ c.toNat && c.toNat ≤ 13) || c.toNat == 0x20 || c.toNat == 0x85 || c.toNat == 0xa0 ||
    c.toNat == 0x1680 || (0x2000 ≤ c.toNat && c.toNat ≤ 0x200a) || c.toNat == 0x2028 ||
    c.toNat == 0x2029 || c.toNat == 0x202f || c.toNat == 0x205f || c.toNat == 0x3000

/-- `str::trim`. -/
def trim (s : String) : String :=
  String.ofList ((s.toList.dropWhile isWhitespace).reverse.dropWhile isWhitespace).reverse

/-- `mfa::mask_email`: what precedes the first `@`, shortened. -/
def maskEmail (email : String) : String :=
  let localPart := email.toList.takeWhile (· != '@')
  let rest := email.toList.dropWhile (· != '@')
  if rest ≠ [] ∧ localPart ≠ [] then
    String.ofList (localPart.take 2 ++ "***@".toList ++ rest.drop 1)
  else "***"

/-- `generate_email_code`, from the four random bytes drawn. -/
def emailCode (bytes : Nat) : String :=
  String.ofList (Numeral.chars 10 6 (bytes % 2 ^ 32 % 1000000))

/-- `RECOVERY_CODE_COUNT`. -/
def recoveryCodeCount : Nat := 10

/-- One of `generate_recovery_codes`, from its five random bytes. -/
def recoveryCode (bytes : Nat) : String :=
  let hex := Numeral.chars 16 10 bytes
  String.ofList (hex.take 5 ++ '-' :: hex.drop 5)

/-- `generate_recovery_codes`, from all the random bytes drawn. -/
def recoveryCodes (bytes : Nat) : List String :=
  (List.range recoveryCodeCount).map fun k => recoveryCode (bytes / 256 ^ (5 * k))

/-! ## Headers -/

/-- The headers the handlers look at, already taken apart: the bearer token, the
`refresh_token` cookie, and texts. `fallbackRequestId` is the UUID that
`request_id` draws for this request if it needs one. -/
structure Headers where
  authorization : Option Token
  refreshCookie : Option Token
  xRequestId : Option String
  fallbackRequestId : Uuid
  xForwardedFor : Option String
  userAgent : Option String
  deriving Repr, DecidableEq

/-- `MAX_REQUEST_ID_LEN`. -/
def maxRequestIdLen : Nat := 128

/-- `error::request_id`. -/
def requestId (headers : Headers) : String :=
  let valid (v : String) : Bool :=
    !v.toList.isEmpty && v.toList.length ≤ maxRequestIdLen &&
      v.toList.all fun c => c.isAlphanum || c == '-' || c == '_'
  (headers.xRequestId.filter valid).getD headers.fallbackRequestId.text

/-- `auth::client_ip`. -/
def clientIp (p : Platform) (headers : Headers) : Option String :=
  if p.trustProxy then
    (headers.xForwardedFor.map fun v => trim (String.ofList (v.toList.takeWhile (· != ',')))).filter
      fun v => !v.toList.isEmpty
  else none

/-- `auth::user_agent`. -/
def userAgent (headers : Headers) : Option String :=
  headers.userAgent.map fun v => String.ofList (v.toList.take 300)

/-- `AuditRecorder::headers`. -/
def withHeaders (p : Platform) (r : Audit.AuditRecorder) (headers : Headers) :
    Audit.AuditRecorder :=
  { r with ipAddress := clientIp p headers, userAgent := userAgent headers }

/-- `AuditRecorder::actor`. -/
def withActor (r : Audit.AuditRecorder) (claims : Claims) : Audit.AuditRecorder :=
  r.actorById claims.id.text claims.userCode claims.role

/-- `AuditRecorder::actor_by_id`, with the user's row. -/
def withUser (r : Audit.AuditRecorder) (user : UserRow) : Audit.AuditRecorder :=
  r.actorById user.id.text user.userCode user.role

/-! ## Responses -/

/-- `error::ApiError`, without the `details` no handler here sets. -/
structure ApiError where
  code : String
  messageKey : String
  requestId : String
  deriving Repr, DecidableEq

/-- `ApiError::status_code`. -/
def ApiError.statusCode (e : ApiError) : Nat :=
  if e.code = "VALIDATION_ERROR" then 400
  else if e.code = "UNAUTHORIZED" then 401
  else if e.code = "FORBIDDEN" then 403
  else if e.code = "NOT_FOUND" then 404
  else if e.code = "CONFLICT" ∨ e.code = "LAST_ADMIN_PROTECTED" then 409
  else if e.code = "RATE_LIMITED" then 429
  else if e.code = "INVALID_MFA_CODE" then 401
  else if e.code = "MFA_ENROLLMENT_NOT_STARTED" ∨ e.code = "MFA_NOT_ENABLED" then 409
  else if e.code = "MFA_EMAIL_NOT_AVAILABLE" then 400
  else 500

/-- `auth::PublicUser`. -/
structure PublicUser where
  id : Uuid
  userCode : String
  email : Option String
  role : String
  firstName : String
  lastName : String
  deriving Repr, DecidableEq

/-- `auth::public_user`. -/
def publicUser (user : UserRow) : PublicUser where
  id := user.id
  userCode := user.userCode
  email := user.email
  role := user.role
  firstName := user.firstName
  lastName := user.lastName

/-- The JSON bodies the handlers answer with. -/
inductive Body where
  | error (e : ApiError)
  /-- A session: `accessToken`, `user` and, after an enrollment, `recoveryCodes`. -/
  | session (accessToken : Token) (user : PublicUser) (recoveryCodes : Option (List String))
  /-- `mfaRequired`. -/
  | mfaRequired (mfaToken : Token) (userCode : String) (method : Method)
  /-- `mfaEnrollmentRequired`. -/
  | mfaEnrollmentRequired (mfaToken : Token) (userCode : String)
  | totpEnrollment (secret otpauthUrl : String)
  | emailEnrollment (emailSentTo : String)
  | emailSent (emailSentTo : String)
  | recoveryCodes (codes : List String)
  | message (messageKey : String)
  deriving Repr, DecidableEq

/-- The `Set-Cookie` header. -/
inductive SetCookie where
  | refreshToken (token : Token)
  | cleared
  deriving Repr, DecidableEq

structure Response where
  status : Nat
  body : Body
  setCookie : Option SetCookie
  deriving Repr, DecidableEq

/-- `ApiError::into_response`. -/
def ApiError.intoResponse (e : ApiError) : Response := ⟨e.statusCode, .error e, none⟩

/-- `Json(body).into_response()`. -/
def json (body : Body) : Response := ⟨200, body, none⟩

/-! ## A platform on concrete inputs

The functions of other crates, tabulated on the inputs the examples of this
development use: HS256 tokens under the secret `sample-refresh-secret`, the
digests of three of them and of one recovery code, a bcrypt test vector, and TOTP
codes of the twenty-byte key of RFC 6238 around the second 1111111111. -/

/-- The claims of a refresh token, spelled out. -/
def RefreshClaims.text (c : RefreshClaims) : String :=
  Separated.join '.' [c.sub.text, c.family.text, Uuid.text c.jti, Uuid.text c.exp]

theorem RefreshClaims.text_injective : Function.Injective RefreshClaims.text := by
  have dot : ∀ u : Uuid, '.' ∉ (Uuid.text u).toList := by
    intro u h
    rcases Uuid.mem_text h with h | ⟨d, hd, h⟩
    · exact absurd h (by decide)
    · have : ∀ d < 16, '.' ≠ d.digitChar := by decide
      exact this d hd h
  intro c c' h
  rcases c with ⟨sub, family, jti, exp⟩
  rcases c' with ⟨sub', family', jti', exp'⟩
  unfold text at h
  rw [Separated.join_cons_inj (dot _) (dot _) (by simp) (by simp),
    Separated.join_cons_inj (dot _) (dot _) (by simp) (by simp),
    Separated.join_cons_inj (dot _) (dot _) (by simp) (by simp),
    Separated.join_singleton, Separated.join_singleton] at h
  rcases h with ⟨h1, h2, h3, h4⟩
  rw [RefreshClaims.mk.injEq]
  exact ⟨Uuid.text_injective h1, Uuid.text_injective h2, Uuid.text_injective h3,
    Uuid.text_injective h4⟩

/-- Three tokens of one family, in the order in which they are drawn. -/
def sampleClaims1 : RefreshClaims := ⟨1, 16, 17, 1113703109⟩

def sampleClaims2 : RefreshClaims := ⟨1, 16, 19, 1113703111⟩

def sampleClaims3 : RefreshClaims := ⟨1, 16, 20, 1113703111⟩

/-- What the three tokens begin with: header, `sub`, `family` and most of `jti`. -/
def sampleTokenPrefix : String :=
  "eyJ0eXAiOiJKV1QiLCJhbGciOiJIUzI1NiJ9.eyJzdWIiOiIwMDAwMDAwMC0wMDAwLTAwMDAtMDAwMC0" ++
  "wMDAwMDAwMDAwMDEiLCJmYW1pbHkiOiIwMDAwMDAwMC0wMDAwLTAwMDAtMDAwMC0wMDAwMDAwMDAwMTA" ++
  "iLCJqdGkiOiIwMDAwMDAwMDAwMDAwMDAwMDAwMDAwMDAwMDAwMDAx"

def sampleToken1 : String := sampleTokenPrefix ++
  "MSIsImV4cCI6MTExMzcwMzEwOX0.wVbyT9okCA1Az-hI_uGvPjLLLDDOMuJ-uLNzT2iun5w"

def sampleToken2 : String := sampleTokenPrefix ++
  "MyIsImV4cCI6MTExMzcwMzExMX0.jlmgcifts5WmdSJ17GwgVx3679sTJ_9ej-G6shc8Kxc"

def sampleToken3 : String := sampleTokenPrefix ++
  "NCIsImV4cCI6MTExMzcwMzExMX0.njZ5BUvwKmtZ3A7qgZ-P7CR3NNkZHO8KTMtdEb5c5mA"

def sampleTokenTable : List (String × String) :=
  [(sampleClaims1.text, sampleToken1), (sampleClaims2.text, sampleToken2),
    (sampleClaims3.text, sampleToken3)]

def sampleHash1 : String := "353f88305124c085e5140858004eb8bac5a4abd3f66ac191562ae43f5d5bb75b"

def sampleHash2 : String := "fb5c9bdc3aaa9746c177500b6ff134458a3123b75543fdcb76fea75678843fd4"

def sampleHash3 : String := "707a80083a17395f254053574a32df1f78221513f2114f0daf531434f69995f9"

def sampleDigestTable : List (String × String) :=
  [(sampleToken1, sampleHash1), (sampleToken2, sampleHash2), (sampleToken3, sampleHash3),
    ("00000-00000", "17bc088ba1cc4705ebba48f1314d6f37199f936af4ef5a2be517a068f62ea263")]

/-- A digit of base 32. -/
def base32Char (d : Nat) : Char :=
  if d < 26 then Char.ofNat ('A'.toNat + d) else Char.ofNat ('2'.toNat + (d - 26))

/-- TOTP codes: secret, time step and code. -/
def sampleTotpTable : List (String × Nat × String) :=
  [("GEZDGNBVGY3TQOJQGEZDGNBVGY3TQOJQ", 37037035, "731029"),
    ("GEZDGNBVGY3TQOJQGEZDGNBVGY3TQOJQ", 37037036, "081804"),
    ("GEZDGNBVGY3TQOJQGEZDGNBVGY3TQOJQ", 37037037, "050471"),
    ("GEZDGNBVGY3TQOJQGEZDGNBVGY3TQOJQ", 37037038, "266759")]

/-- A time without seconds, as PostgreSQL reads it: second zero. -/
def sampleTimestampTable : List (String × Timestamp) :=
  [("2005-03-18T02:08:.250Z", 1111111680250000000)]

def samplePlatform (backend : Backend) : Platform where
  backend := backend
  trustProxy := false
  mfaRequiredRoles := ["SYSTEM_ADMIN", "SECURITY_ADMIN", "REVIEWER"]
  sha256Hex := Tabulated.extend sampleDigestTable
  refreshTokenText c := Tabulated.extend sampleTokenTable c.text
  bcryptVerify password hash :=
    password == "U*U" && hash == "$2a$05$CCCCCCCCCCCCCCCCCCCCC.E5YPO9kmyuRGyh0XouQYb4YMJKvyOeW"
  generateSecret bytes := String.ofList ((Numeral.digits 32 32 bytes).map base32Char)
  buildTotp secret accountName :=
    secret.toList.length == 32 && !accountName.toList.contains ':'
  checkTotp secret _ code now :=
    sampleTotpTable.any fun row => row.1 == secret && row.2.2 == code &&
      (row.2.1 ≤ now.timestamp / 30 + 1 && now.timestamp / 30 ≤ row.2.1 + 1)
  totpUrl secret accountName :=
    "otpauth://totp/Anatolia%20B.I.S.:" ++ accountName ++ "?secret=" ++ secret ++
      "&issuer=Anatolia%20B.I.S."
  toUppercase s := s.map Char.toUpper
  timestamptz text := (sampleTimestampTable.lookup text).getD 0

theorem sampleTokenTable_table : Tabulated.Table sampleTokenTable :=
  ⟨by decide +kernel, by decide +kernel⟩

theorem sampleDigestTable_table : Tabulated.Table sampleDigestTable :=
  ⟨by decide +kernel, by decide +kernel⟩

theorem samplePlatform_injective (backend : Backend) :
    Function.Injective (samplePlatform backend).refreshTokenHash := by
  intro c c' h
  simp only [Platform.refreshTokenHash, samplePlatform] at h
  have htoken := Tabulated.extend_injective sampleDigestTable_table h
  exact RefreshClaims.text_injective (Tabulated.extend_injective sampleTokenTable_table htoken)

end AnatoliaBis.Auth
