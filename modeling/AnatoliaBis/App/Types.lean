import AnatoliaBis.Auth.Routes

/-! # The data of administration and review

Rows, link tokens, policies and responses of `admin.rs`, `search.rs`,
`candidates.rs`, `db/identity.rs` and `db/mod.rs`, as far as accounts, reviews
and candidates go. What authentication already has (accounts, sessions, access
tokens, audit events) is taken from there.
-/

namespace AnatoliaBis.App

/-! ## Roles and policies -/

namespace Role

def pending : String := "pending"
def systemAdmin : String := "SYSTEM_ADMIN"
def securityAdmin : String := "SECURITY_ADMIN"
def operator : String := "OPERATOR"
def reviewer : String := "REVIEWER"
def auditor : String := "AUDITOR"

/-- `DEFAULT_APPROVED_ROLE`. -/
def defaultApproved : String := operator

/-- `ASSIGNABLE_ROLES`. -/
def assignable : List String := [systemAdmin, securityAdmin, operator, reviewer, auditor]

/-- `is_assignable_role`. -/
def isAssignable (role : String) : Bool := assignable.contains role

end Role

/-- The named policy functions of `permission.rs`, which `require_role` takes. -/
inductive Policy where
  | createSearch
  | viewSearch
  | reviewCandidate
  | viewAuditLog
  | administerUsers
  | manageCandidates
  | manageOrganizations
  deriving Repr, DecidableEq

/-- The roles a policy function says yes to. -/
def Policy.roles : Policy → List String
  | .createSearch => [Role.operator, Role.reviewer, Role.securityAdmin, Role.systemAdmin]
  | .viewSearch =>
      [Role.operator, Role.reviewer, Role.securityAdmin, Role.systemAdmin, Role.auditor]
  | .reviewCandidate => [Role.reviewer, Role.securityAdmin, Role.systemAdmin]
  | .viewAuditLog => [Role.auditor, Role.securityAdmin, Role.systemAdmin]
  | .administerUsers => [Role.systemAdmin, Role.securityAdmin]
  | .manageCandidates => [Role.operator, Role.securityAdmin, Role.systemAdmin]
  | .manageOrganizations => [Role.systemAdmin]

/-- The policy function itself. -/
def Policy.allows (policy : Policy) (role : String) : Bool := policy.roles.contains role

/-- `permission::can_view_scoped_resource`. -/
def canViewScopedResource (role : String) (actorOrgIds : List String)
    (resourceOrgId : Option String) : Bool :=
  role == Role.systemAdmin || resourceOrgId.all actorOrgIds.contains

/-! ## Accounts -/

/-- The columns of `db::UserRow` that authentication does not read. -/
structure UserDetails where
  nationalIdEncrypted : Option String
  nationalIdLookupHash : Option String
  banReason : Option String
  deriving Repr, DecidableEq

/-- `db::UserRow`, with `deleted_at`. -/
structure Account extends Auth.UserRow, UserDetails
  deriving Repr, DecidableEq

/-- The four flags of `update_user_flags`; an absent one is left unchanged. -/
structure FlagUpdate where
  isApproved : Option Bool
  isBanned : Option Bool
  banReason : Option String
  role : Option String
  deriving Repr, DecidableEq

/-- The row `update_user_flags` writes for one it has read. -/
def FlagUpdate.merge (flags : FlagUpdate) (current : Account) : Account :=
  { current with
    isApproved := flags.isApproved.getD current.isApproved
    isBanned := flags.isBanned.getD current.isBanned
    banReason := flags.banReason.or current.banReason
    role := flags.role.getD current.role }

/-! ## Links sent by mail -/

/-- `auth::ApprovalClaims`. -/
structure ApprovalClaims where
  userId : Uuid
  purpose : String
  jti : Nat
  exp : Nat
  deriving Repr, DecidableEq

/-- The token in a link. -/
inductive LinkToken where
  /-- Signed under `APPROVAL_TOKEN_SECRET`. -/
  | approval (claims : ApprovalClaims)
  | other (text : String)
  deriving Repr, DecidableEq

/-- `APPROVAL_PURPOSE`. -/
def approvalPurpose : String := "registration_approval"

/-- `PASSWORD_RESET_PURPOSE`. -/
def passwordResetPurpose : String := "password_reset"

/-- `db::ApprovalTokenRow`. -/
structure ApprovalTokenRow where
  id : Uuid
  userId : Uuid
  tokenHash : String
  purpose : String
  createdAt : Timestamp
  expiresAt : Timestamp
  consumedAt : Option Timestamp
  result : Option String
  deriving Repr, DecidableEq

/-- A mail to an applicant or an administrator. -/
inductive Mail where
  /-- `send_approval_email`. -/
  | approval (firstName lastName email userCode : String)
  /-- `send_rejection_email`. -/
  | rejection (firstName lastName email : String)
  /-- `send_admin_registration_notification`. -/
  | registration (firstName lastName email userCode : String) (approvalToken : LinkToken)
  /-- `send_password_reset_email`. -/
  | passwordReset (firstName lastName email resetLink : String)
  /-- `send_password_reset_request`, without the address it is never given. -/
  | passwordResetRequest (firstName lastName userCode : String)
  deriving Repr, DecidableEq

/-! ## Reviews -/

/-- What a reviewer decides, the `status` a review route hands on. -/
inductive Decision where
  | confirmed
  | rejected
  | inconclusive
  deriving Repr, DecidableEq

/-- `is_finalizing_decision`. -/
def Decision.isFinalizing (decision : Decision) : Bool := decision != .inconclusive

/-- `search_candidates.status`. -/
inductive ReviewStatus where
  | pending
  | needsSecondReview
  | decided (decision : Decision)
  deriving Repr, DecidableEq

/-- A row of `search_candidates`. -/
structure SearchCandidate where
  id : Uuid
  searchId : Uuid
  candidateId : Uuid
  score : Rat
  status : ReviewStatus
  reviewedBy : Option Uuid
  reviewedByName : Option String
  reviewedAt : Option Timestamp
  createdAt : Timestamp
  deriving Repr, DecidableEq

/-- The table, with its primary key and `idx_search_candidates_search_candidate`. -/
structure SearchCandidateTable where
  rows : List SearchCandidate
  idKey : (rows.map (·.id)).Nodup
  searchCandidateKey : (rows.map fun row => (row.searchId, row.candidateId)).Nodup

/-- A row of `verification_events`. -/
structure VerificationEvent where
  id : Uuid
  searchCandidateId : Uuid
  reviewerUserId : Uuid
  reviewerName : String
  decision : Decision
  reason : Option String
  notes : Option String
  requestId : String
  createdAt : Timestamp
  deriving Repr, DecidableEq

/-- `db::CandidateRow`. -/
structure CandidateRow where
  id : Uuid
  referenceCode : String
  fullName : String
  notes : Option String
  organizationId : Option String
  deriving Repr, DecidableEq

/-- `db::SearchCandidateRow`: a row of `search_candidates` joined with its
candidate. -/
structure SearchCandidateRow extends SearchCandidate where
  candidateReferenceCode : String
  candidateFullName : String
  deriving Repr, DecidableEq

/-! ## Searches and templates -/

/-- `searches.status`. -/
inductive SearchStatus where
  | queued
  | processing
  | completed
  | failed
  deriving Repr, DecidableEq

/-- The columns `create_queued_search` is given. -/
structure NewSearch where
  caseReference : String
  purpose : String
  requestedBy : Uuid
  requestedByName : String
  latitude : Option Rat
  longitude : Option Rat
  topK : Int
  organizationId : Option String
  deriving Repr, DecidableEq

/-- A row of `searches`, as it is queued. -/
structure SearchRow extends NewSearch where
  id : Uuid
  status : SearchStatus
  createdAt : Timestamp
  deriving Repr, DecidableEq

/-- `biometric::EnrollmentResult`, the embedding as the JSON text stored. -/
structure EnrollmentResult where
  embedding : String
  dimension : Nat
  qualityScore : Json.Number
  modelName : String
  modelVersion : String

/-- `db::BiometricTemplateRow`. -/
structure BiometricTemplateRow where
  id : Uuid
  candidateId : Uuid
  modelName : String
  modelVersion : String
  embeddingDimension : Nat
  embedding : String
  qualityScore : Json.Number
  sourceReference : Option String
  createdAt : Timestamp
  revokedAt : Option Timestamp

/-- `biometric::BiometricError`. -/
inductive BiometricError where
  | noFaceDetected
  | multipleFacesDetected
  | faceTooSmall
  | imageTooBlurry
  | excessivePose
  | poorLighting
  | lowFaceQuality
  | providerUnavailable
  | internal
  deriving Repr, DecidableEq

/-- `BiometricError::code` and `BiometricError::message_key`. -/
def BiometricError.codes : BiometricError → String × String
  | .noFaceDetected => ("NO_FACE_DETECTED", "errors.noFaceDetected")
  | .multipleFacesDetected => ("MULTIPLE_FACES_DETECTED", "errors.multipleFacesDetected")
  | .faceTooSmall => ("FACE_TOO_SMALL", "errors.faceTooSmall")
  | .imageTooBlurry => ("IMAGE_TOO_BLURRY", "errors.imageTooBlurry")
  | .excessivePose => ("EXCESSIVE_POSE", "errors.excessivePose")
  | .poorLighting => ("POOR_LIGHTING", "errors.poorLighting")
  | .lowFaceQuality => ("LOW_FACE_QUALITY", "errors.lowFaceQuality")
  | .providerUnavailable =>
      ("BIOMETRIC_PROVIDER_UNAVAILABLE", "errors.biometricProviderUnavailable")
  | .internal => ("INTERNAL_ERROR", "errors.internal")

/-- What `validate_and_sanitize_probe_image` objects to. -/
inductive ImageError where
  | tooLarge
  | unsupportedType
  | decodeFailed
  | dimensionsInvalid
  deriving Repr, DecidableEq

/-- The code, and `search::code_message_key` of it. -/
def ImageError.codes : ImageError → String × String
  | .tooLarge => ("IMAGE_TOO_LARGE", "errors.imageTooLarge")
  | .unsupportedType => ("UNSUPPORTED_IMAGE_TYPE", "errors.unsupportedImageType")
  | .decodeFailed => ("IMAGE_DECODE_FAILED", "errors.imageDecodeFailed")
  | .dimensionsInvalid => ("IMAGE_DIMENSIONS_INVALID", "errors.imageDimensionsInvalid")

/-! ## Configuration and other crates -/

/-- What these handlers take from the configuration and from other crates. -/
structure Deployment extends Auth.Platform where
  /-- `require_second_review`: four-eyes review. -/
  requireSecondReview : Bool
  /-- `auto_osint_after_biometric_search`. -/
  autoOsint : Bool
  /-- `search_limits`. -/
  defaultTopK : Int
  maxTopK : Int
  /-- `app_url()`. -/
  appUrl : String
  /-- The text of a signed approval token. -/
  approvalTokenText : ApprovalClaims → String
  /-- `bcrypt::hash(password, DEFAULT_COST)`, with the random bytes of its salt. -/
  bcryptHash : String → Nat → Option String
  /-- `national_id::encrypt`, with the random bytes of its nonce: ciphertext and
  look-up hash. -/
  encryptNationalId : String → Nat → String × String
  /-- `national_id::decrypt`. -/
  decryptNationalId : String → Option String
  /-- `str::to_lowercase`. -/
  toLowercase : String → String
  /-- `validate_and_sanitize_probe_image`. -/
  sanitizeImage : List UInt8 → Except ImageError (List UInt8)
  /-- `biometric_provider.enroll`. -/
  enrollImage : List UInt8 → Except BiometricError EnrollmentResult
  /-- Candidates whose templates are close to the one just enrolled. -/
  closeMatches : List BiometricTemplateRow → BiometricTemplateRow → List (Uuid × Json.Number)

/-- The text of a link's token. -/
def Deployment.linkText (d : Deployment) : LinkToken → String
  | .approval claims => d.approvalTokenText claims
  | .other text => text

/-! ## Responses -/

/-- `admin::mask_national_id`: all but the last two characters. -/
def maskNationalId (value : String) : String :=
  let len := value.toList.length
  if len ≤ 2 then String.ofList (List.replicate len '*')
  else String.ofList (List.replicate (len - 2) '*' ++ value.toList.drop (len - 2))

/-- `admin::user_json`. -/
structure UserJson where
  id : Uuid
  userCode : String
  firstName : String
  lastName : String
  nationalId : Option String
  email : Option String
  role : String
  isApproved : Bool
  isBanned : Bool
  banReason : Option String
  deriving Repr, DecidableEq

def Deployment.userJson (d : Deployment) (user : Account) : UserJson where
  id := user.id
  userCode := user.userCode
  firstName := user.firstName
  lastName := user.lastName
  nationalId := (user.nationalIdEncrypted.bind d.decryptNationalId).map maskNationalId
  email := user.email
  role := user.role
  isApproved := user.isApproved
  isBanned := user.isBanned
  banReason := user.banReason

/-- The bodies of the responses. -/
inductive Body where
  /-- An error, a message, or a body of authentication. -/
  | auth (body : Auth.Body)
  | user (user : UserJson)
  | publicUser (user : Auth.PublicUser)
  | registrationPending (registrationTrackingToken : String)
  | searchCandidate (row : SearchCandidateRow)
  | search (row : SearchRow) (autoOsintEnabled : Bool)
  | candidate (row : CandidateRow)
  | template (row : BiometricTemplateRow) (possibleDuplicates : List (Uuid × Json.Number))
  | revoked
  /-- `html_page`. -/
  | page (title body : String)
  /-- `html_page("Error", …)` with the text of a database error. -/
  | errorPage

structure Reply where
  status : Nat
  body : Body
  setCookie : Option Auth.SetCookie

/-- A response of authentication. -/
def Reply.ofResponse (r : Auth.Response) : Reply := ⟨r.status, .auth r.body, r.setCookie⟩

/-- `Json(body).into_response()`. -/
def json (body : Body) : Reply := ⟨200, body, none⟩

/-- `Json(json!({ "messageKey": … }))`. -/
def message (messageKey : String) : Reply := json (.auth (.message messageKey))

/-- `admin::html_page`. -/
def htmlPage (title body : String) : Reply := json (.page title body)

/-- `email::escape_html`: one replacement after the other over the whole text. -/
def escapeHtml (value : String) : String :=
  let replace (c : Char) (entity : String) (cs : List Char) : List Char :=
    cs.flatMap fun x => if x = c then entity.toList else [x]
  String.ofList <| replace '\'' "&#39;" <| replace '"' "&quot;" <| replace '>' "&gt;" <|
    replace '<' "&lt;" <| replace '&' "&amp;" value.toList

/-- `ApiError::status_code`, with the codes authentication does not use. -/
def statusCode (e : Auth.ApiError) : Nat :=
  if e.code ∈ ["IMAGE_TOO_LARGE", "UNSUPPORTED_IMAGE_TYPE", "IMAGE_DECODE_FAILED",
    "IMAGE_DIMENSIONS_INVALID"] then 400
  else if e.code = "SAME_REVIEWER_FORBIDDEN" then 409
  else if e.code ∈ ["NO_FACE_DETECTED", "MULTIPLE_FACES_DETECTED", "FACE_TOO_SMALL",
    "IMAGE_TOO_BLURRY", "EXCESSIVE_POSE", "POOR_LIGHTING", "LOW_FACE_QUALITY"] then 422
  else if e.code = "BIOMETRIC_PROVIDER_UNAVAILABLE" then 503
  else e.statusCode

/-- `ApiError::new(code, message_key, rid).into_response()`. -/
def failure (headers : Auth.Headers) (code messageKey : String) : Reply :=
  let e : Auth.ApiError := ⟨code, messageKey, Auth.requestId headers⟩
  ⟨statusCode e, .auth (.error e), none⟩

/-- No error is answered like a success. -/
theorem authStatusCode_ge (e : Auth.ApiError) : 400 ≤ e.statusCode := by
  unfold Auth.ApiError.statusCode
  split_ifs <;> decide

theorem statusCode_ge (e : Auth.ApiError) : 400 ≤ statusCode e := by
  unfold statusCode
  split_ifs
  all_goals first | exact authStatusCode_ge e | decide

theorem failure_status (headers : Auth.Headers) (code messageKey : String) :
    ¬ (failure headers code messageKey).status < 400 :=
  Nat.not_lt.mpr (statusCode_ge _)

def internal (headers : Auth.Headers) : Reply := failure headers "INTERNAL_ERROR" "errors.internal"

def notFound (headers : Auth.Headers) : Reply := failure headers "NOT_FOUND" "errors.notFound"

def forbidden (headers : Auth.Headers) : Reply := failure headers "FORBIDDEN" "errors.forbidden"

def invalid (headers : Auth.Headers) : Reply :=
  failure headers "VALIDATION_ERROR" "errors.validation"

end AnatoliaBis.App
