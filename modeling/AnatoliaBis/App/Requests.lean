import AnatoliaBis.App.Candidates
import AnatoliaBis.Lib.Runs

/-! # Requests to the whole application

The requests of authentication, administration, review and enrollment, and runs
of them. Whoever sends a request may hold any token.
-/

namespace AnatoliaBis.App

open Atomic
open Auth (Headers)

/-- A request to one of the routes above. -/
inductive Request where
  | auth (request : Auth.Request)
  | register (headers : Headers) (payload : RegisterPayload)
  | resetPassword (headers : Headers) (token newPassword : String)
  | approveUser (headers : Headers) (id : String)
  | rejectUser (headers : Headers) (id : String)
  | quickApprove (headers : Headers) (token : LinkToken)
  | quickReject (headers : Headers) (token : LinkToken)
  | banUser (headers : Headers) (id : String) (reason : Option String)
  | unbanUser (headers : Headers) (id : String)
  | changeRole (headers : Headers) (id role : String)
  | deleteUser (headers : Headers) (id : String)
  | createUser (headers : Headers) (payload : CreateUserPayload)
  | updateUser (headers : Headers) (id : String) (payload : UpdateUserPayload)
  | review (headers : Headers) (candidateId : String) (payload : ReviewPayload)
      (decision : Decision)
  | createCandidate (headers : Headers) (payload : CreateCandidatePayload)
  | uploadReferencePhoto (headers : Headers) (candidateId : String) (image : Option (List UInt8))
  | revokeTemplate (headers : Headers) (candidateId templateId : String)
  | createSearch (headers : Headers) (form : Option SearchForm)

/-- The handler of a request; the retention job answers nobody. -/
def handle (d : Deployment) : Request → Handler (Option Reply)
  | .auth request =>
      (lift (Auth.handle d.toPlatform request)).map (Option.map Reply.ofResponse)
  | .register headers payload => (register d headers payload).map some
  | .resetPassword headers token newPassword =>
      (resetPassword d headers token newPassword).map some
  | .approveUser headers id => (approveUser d headers id).map some
  | .rejectUser headers id => (rejectUser d headers id).map some
  | .quickApprove headers token => (quickApprove d headers token).map some
  | .quickReject headers token => (quickReject d headers token).map some
  | .banUser headers id reason => (banUser d headers id reason).map some
  | .unbanUser headers id => (unbanUser d headers id).map some
  | .changeRole headers id role => (changeRole d headers id role).map some
  | .deleteUser headers id => (deleteUserRoute d headers id).map some
  | .createUser headers payload => (createUserRoute d headers payload).map some
  | .updateUser headers id payload => (updateUserRoute d headers id payload).map some
  | .review headers candidateId payload decision =>
      (review d headers candidateId payload decision).map some
  | .createCandidate headers payload => (createCandidateRoute d headers payload).map some
  | .uploadReferencePhoto headers candidateId image =>
      (uploadReferencePhoto d headers candidateId image).map some
  | .revokeTemplate headers candidateId templateId =>
      (revokeTemplateRoute d headers candidateId templateId).map some
  | .createSearch headers form => (createSearch d headers form).map some

/-! ## An application for examples

The mock biometric provider, no national ids, and accounts of three roles; what
the examples do not reach (links, images) is left at its simplest. -/

/-- The bcrypt hash of `Abcdef1!` under a salt of zero bytes. -/
def samplePasswordHash : String :=
  "$2b$12$......................knQr.UkWaL8gQXRKzoUsL1t9IulpDFe"

def sampleDeployment (backend : Backend) : Deployment where
  toPlatform := Auth.samplePlatform backend
  requireSecondReview := true
  autoOsint := false
  defaultTopK := 5
  maxTopK := 20
  appUrl := "http://localhost:8080"
  approvalTokenText _ := ""
  bcryptHash password salt :=
    if password = "Abcdef1!" ∧ salt = 0 then some samplePasswordHash else none
  encryptNationalId value _ := (value, value)
  decryptNationalId value := some value
  toLowercase s := s.map Char.toLower
  sanitizeImage _ := .error .decodeFailed
  enrollImage _ := .error .providerUnavailable
  closeMatches _ _ := []

/-- An approved account of some role. -/
def sampleAccount (id : Uuid) (userCode role : String) : Auth.UserRow :=
  { Auth.sampleUser with id := id, userCode := userCode, role := role }

/-- An administrator's access token, as a header. -/
def sampleBearer (user : Auth.UserRow) : Headers :=
  { Auth.sampleHeaders with
    authorization := some (.access ⟨user.id, user.userCode, "", user.role, 1111112009⟩) }

def sampleAdmin : Auth.UserRow := sampleAccount 3 "ADMIN-1" Role.systemAdmin

def sampleAdmin' : Auth.UserRow := sampleAccount 4 "ADMIN-2" Role.systemAdmin

def sampleReviewer : Auth.UserRow := sampleAccount 5 "REV-1" Role.reviewer

def sampleReviewer' : Auth.UserRow := sampleAccount 6 "REV-2" Role.reviewer

/-- One match of a search, not reviewed yet. -/
def sampleMatch : SearchCandidate :=
  ⟨9, 7, 0xab, 9 / 10, .pending, none, none, none, Timestamp.seconds 1111111100⟩

def sampleDatabase : Database where
  auth := { Auth.sampleServer with
    users := [Auth.sampleUser, sampleAdmin, sampleAdmin', sampleReviewer, sampleReviewer'] }
  details := fun _ => ⟨none, none, none⟩
  trackingTokens := fun _ => none
  approvalTokens := []
  searches := []
  candidates := [⟨0xab, "C-1", "Ada Demir", none, none⟩]
  searchCandidates := ⟨[sampleMatch], by decide, by decide⟩
  verificationEvents := []
  templates := []
  mailbox := []

/-- The instant of the examples. -/
def sampleNow : Timestamp := Timestamp.seconds 1111111109

end AnatoliaBis.App
