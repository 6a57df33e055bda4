import AnatoliaBis.App.Types
import AnatoliaBis.Lib.Embed

/-! # The database and its operations

The tables of authentication together with those of administration, review and
enrollment. An operation is one of authentication, one further SQL statement, a
mail, or a call of the biometric provider; the transaction of
`record_review_decision` is a single operation, since it locks its row.
-/

namespace AnatoliaBis.App

open Atomic
open Auth (Key Env)

/-! ## State -/

structure Database where
  auth : Auth.Server
  /-- The other columns of the account with this id. -/
  details : Uuid → UserDetails
  /-- `registration_tracking_token` and its expiry. -/
  trackingTokens : Uuid → Option (String × Timestamp)
  approvalTokens : List ApprovalTokenRow
  searches : List SearchRow
  candidates : List CandidateRow
  searchCandidates : SearchCandidateTable
  verificationEvents : List VerificationEvent
  templates : List BiometricTemplateRow
  mailbox : List Mail

namespace SearchCandidateTable

/-- `UPDATE search_candidates SET status = …, reviewed_by = …, … WHERE id = …`. -/
def review (t : SearchCandidateTable) (id : Uuid) (status : ReviewStatus) (reviewer : Uuid)
    (reviewerName : String) (now : Timestamp) : SearchCandidateTable where
  rows := t.rows.map fun row =>
    if row.id == id then
      { row with status := status, reviewedBy := some reviewer,
                 reviewedByName := some reviewerName, reviewedAt := some now }
    else row
  idKey := by
    rw [List.map_map]
    convert t.idKey using 2
    funext row
    dsimp only [Function.comp_apply]
    split_ifs <;> rfl
  searchCandidateKey := by
    rw [List.map_map]
    convert t.searchCandidateKey using 2
    funext row
    dsimp only [Function.comp_apply]
    split_ifs <;> rfl

/-- `WHERE search_id = … AND candidate_id = …`. -/
def find (t : SearchCandidateTable) (searchId candidateId : Key) : Option SearchCandidate :=
  t.rows.find? fun row => searchId.isId row.searchId && candidateId.isId row.candidateId

end SearchCandidateTable

namespace Database

/-- The whole row of an account. -/
def account (s : Database) (row : Auth.UserRow) : Account := ⟨row, s.details row.id⟩

/-- `SELECT … FROM users WHERE …`, the condition one on the columns of
authentication. -/
def findAccount (s : Database) (cond : Auth.UserRow → Bool) : Option Account :=
  (s.auth.users.find? cond).map s.account

/-- `UPDATE users SET … WHERE id = …`. -/
def updateUser (s : Database) (id : Key) (f : Auth.UserRow → Auth.UserRow)
    (g : UserDetails → UserDetails) : Database :=
  { s with
    auth := { s.auth with
      users := s.auth.users.map fun row => if id.isId row.id then f row else row }
    details := fun u => if id.isId u then g (s.details u) else s.details u }

/-- Another account already has this value. -/
def isTaken (s : Database) (id : Key) (email nationalIdLookupHash : Option String) : Bool :=
  s.auth.users.any fun row => !id.isId row.id &&
    (email.isSome && row.email == email ||
      nationalIdLookupHash.isSome && (s.details row.id).nationalIdLookupHash == nationalIdLookupHash)

end Database

/-! ## Identifiers given as text -/

/-- An id's own text stands for that id only. -/
theorem isId_of_key_text {p : Auth.Platform} {u v : Uuid} {key : Key}
    (h : p.key (Uuid.text v) = some key) : key.isId u = true ↔ u = v := by
  unfold Auth.Platform.key at h
  split at h
  · rcases Option.map_eq_some_iff.mp h with ⟨w, hw, rfl⟩
    rcases Uuid.eq_of_parseStr_text hw with rfl
    exact beq_iff_eq
  · rcases Option.some.inj h with rfl
    exact beq_iff_eq.trans Uuid.text_injective.eq_iff

/-- A key stands for one id at most. -/
theorem isId_unique {key : Key} {u v : Uuid} (hu : key.isId u = true) (hv : key.isId v = true) :
    u = v := by
  cases key with
  | uuid id => exact (beq_iff_eq.mp hu).trans (beq_iff_eq.mp hv).symm
  | text id => exact Uuid.text_injective ((beq_iff_eq.mp hu).trans (beq_iff_eq.mp hv).symm)

/-! ## SQL statements -/

/-- What `record_review_decision` is asked to store. -/
structure ReviewEntry where
  searchId : Key
  candidateId : Key
  decision : Decision
  reviewedBy : Uuid
  reviewedByName : String
  reason : Option String
  notes : Option String
  requestId : String
  /-- The `id` of the `verification_events` row. -/
  eventId : Uuid
  requireSecondReview : Bool
  deriving Repr, DecidableEq

/-- `target_status`; nothing when the same reviewer would decide twice. -/
def ReviewEntry.targetStatus (entry : ReviewEntry) (current : SearchCandidate) :
    Option ReviewStatus :=
  if !entry.requireSecondReview || !entry.decision.isFinalizing then
    some (.decided entry.decision)
  else if current.status = .needsSecondReview then
    if current.reviewedBy = some entry.reviewedBy then none else some (.decided entry.decision)
  else some .needsSecondReview

/-- How the transaction ended. -/
inductive Recorded where
  | notFound
  | sameReviewer
  | stored
  deriving Repr, DecidableEq

/-- The row of a `verification_events` insert. -/
def ReviewEntry.event (entry : ReviewEntry) (current : SearchCandidate) (now : Timestamp) :
    VerificationEvent where
  id := entry.eventId
  searchCandidateId := current.id
  reviewerUserId := entry.reviewedBy
  reviewerName := entry.reviewedByName
  decision := entry.decision
  reason := entry.reason
  notes := entry.notes
  requestId := entry.requestId
  createdAt := now

/-- The statements of the `db` functions that authentication does not have. -/
inductive Query where
  | loadUserById (id : Key)
  | loadUserByIdIncludingDeleted (id : Key)
  | loadUserByEmail (email : String)
  | countActiveSystemAdmins
  | createUser (user : Account)
  | setRegistrationTrackingToken (id : Uuid) (token : String) (expiresAt : Timestamp)
  | updateUserFlags (id : Key) (isApproved isBanned : Bool) (banReason : Option String)
      (role : String)
  | updateUserProfile (id : Key) (firstName : String)
      (email nationalIdEncrypted nationalIdLookupHash : Option String) (passwordHash : String)
  | updateUserPassword (id : Key) (passwordHash : String)
  | deleteUser (id : Key)
  | softDeleteUser (id : Key)
  | revokeAllSessionsForUser (userId : Key)
  | createApprovalToken (id userId : Uuid) (tokenHash purpose : String) (expiresAt : Timestamp)
  | findApprovalTokenByHash (tokenHash : String)
  | consumeApprovalToken (id : Uuid) (result : String)
  | recordReviewDecision (entry : ReviewEntry)
  | listSearchCandidates (searchId : Key)
  | createQueuedSearch (id : Uuid) (search : NewSearch)
  | findSearchById (id : Uuid)
  | createCandidate (candidate : CandidateRow)
  | loadCandidateById (id : Key)
  | insertTemplate (id candidateId : Uuid) (enrollment : EnrollmentResult)
  | findTemplateById (id : Uuid)
  | listActiveTemplates (modelName modelVersion : String)
  | revokeTemplate (id : Key)

/-- The row of a `biometric_templates` insert. -/
def EnrollmentResult.template (enrollment : EnrollmentResult) (id candidateId : Uuid)
    (now : Timestamp) : BiometricTemplateRow where
  id := id
  candidateId := candidateId
  modelName := enrollment.modelName
  modelVersion := enrollment.modelVersion
  embeddingDimension := enrollment.dimension
  embedding := enrollment.embedding
  qualityScore := enrollment.qualityScore
  sourceReference := none
  createdAt := now
  revokedAt := none

/-- What a statement returns when it succeeds. -/
@[reducible] def Query.Res : Query → Type
  | .loadUserById _ | .loadUserByIdIncludingDeleted _ | .loadUserByEmail _ => Option Account
  | .countActiveSystemAdmins => Nat
  | .deleteUser _ | .softDeleteUser _ | .consumeApprovalToken .. | .revokeTemplate _ => Bool
  | .findApprovalTokenByHash _ => Option ApprovalTokenRow
  | .recordReviewDecision _ => Recorded
  | .listSearchCandidates _ => List SearchCandidateRow
  | .createQueuedSearch .. => SearchRow
  | .findSearchById _ => Option SearchRow
  | .loadCandidateById _ => Option CandidateRow
  | .insertTemplate .. => BiometricTemplateRow
  | .findTemplateById _ => Option BiometricTemplateRow
  | .listActiveTemplates .. => List BiometricTemplateRow
  | _ => Unit

/-- Why a statement failed; the handlers tell a unique violation from the rest. -/
inductive QueryError where
  | failed
  | unique
  deriving Repr, DecidableEq

/-- A column declared `UNIQUE` would hold a value twice. -/
def Query.violatesUnique : Query → Database → Bool
  | .createUser user, s =>
      s.auth.users.any (fun row => row.id == user.id || row.userCode == user.userCode) ||
        s.isTaken (.uuid user.id) user.email user.nationalIdLookupHash
  | .updateUserProfile id _ email _ nationalIdLookupHash _, s =>
      s.auth.users.any (fun row => id.isId row.id) && s.isTaken id email nationalIdLookupHash
  | .createCandidate candidate, s =>
      s.candidates.any fun row => row.referenceCode == candidate.referenceCode
  | _, _ => false

/-- A row that `count_active_system_admins` counts. -/
def countsAsAdmin (row : Auth.UserRow) : Bool :=
  row.role == Role.systemAdmin && !row.isBanned && row.deletedAt.isNone

/-- The transaction of `record_review_decision`. -/
def Database.record (s : Database) (now : Timestamp) (entry : ReviewEntry) : Database × Recorded :=
  match s.searchCandidates.find entry.searchId entry.candidateId with
  | none => (s, .notFound)
  | some current =>
      match entry.targetStatus current with
      | none => (s, .sameReviewer)
      | some status =>
          ({ s with
              verificationEvents := s.verificationEvents ++ [entry.event current now]
              searchCandidates := s.searchCandidates.review current.id status entry.reviewedBy
                entry.reviewedByName now }, .stored)

/-- The candidate of a row, by the `JOIN` of `SEARCH_CANDIDATE_SELECT_*`. -/
def Database.joined (s : Database) (row : SearchCandidate) : Option SearchCandidateRow :=
  (s.candidates.find? fun c => c.id == row.candidateId).map fun c =>
    ⟨row, c.referenceCode, c.fullName⟩

/-- One statement at the instant `now`. -/
def Query.perform (d : Deployment) (now : Timestamp) :
    (q : Query) → Database → Database × q.Res
  | .loadUserById id, s => (s, s.findAccount fun row => id.isId row.id && row.deletedAt.isNone)
  | .loadUserByIdIncludingDeleted id, s => (s, s.findAccount fun row => id.isId row.id)
  | .loadUserByEmail email, s =>
      (s, s.findAccount fun row => row.email == some email && row.deletedAt.isNone)
  | .countActiveSystemAdmins, s => (s, (s.auth.users.filter countsAsAdmin).length)
  | .createUser user, s =>
      ({ s with
          auth := { s.auth with users := s.auth.users ++ [user.toUserRow] }
          details := Function.update s.details user.id user.toUserDetails }, ())
  | .setRegistrationTrackingToken id token expiresAt, s =>
      ({ s with trackingTokens := Function.update s.trackingTokens id (some (token, expiresAt)) }, ())
  | .updateUserFlags id isApproved isBanned banReason role, s =>
      (s.updateUser id
        (fun row => { row with isApproved := isApproved, isBanned := isBanned, role := role })
        fun details => { details with banReason := banReason }, ())
  | .updateUserProfile id firstName email nationalIdEncrypted nationalIdLookupHash passwordHash, s =>
      (s.updateUser id
        (fun row => { row with firstName := firstName, email := email,
                               passwordHash := passwordHash })
        fun details => { details with nationalIdEncrypted := nationalIdEncrypted,
                                      nationalIdLookupHash := nationalIdLookupHash }, ())
  | .updateUserPassword id passwordHash, s =>
      (s.updateUser id (fun row => { row with passwordHash := passwordHash })
        fun details => details, ())
  | .deleteUser id, s =>
      ({ s with auth := { s.auth with
          users := s.auth.users.filter fun row => !id.isId row.id } },
        s.auth.users.any fun row => id.isId row.id)
  | .softDeleteUser id, s =>
      (s.updateUser id
        (fun row =>
          if row.deletedAt.isNone then { row with deletedAt := some (d.now now) } else row)
        fun details => details,
        s.auth.users.any fun row => id.isId row.id && row.deletedAt.isNone)
  | .revokeAllSessionsForUser userId, s =>
      ({ s with auth := s.auth.revokeSessions (fun row => userId.isId row.userId) (d.now now) }, ())
  | .createApprovalToken id userId tokenHash purpose expiresAt, s =>
      ({ s with approvalTokens := s.approvalTokens ++
          [⟨id, userId, tokenHash, purpose, d.now now, d.sessionExpiry expiresAt, none, none⟩] }, ())
  | .findApprovalTokenByHash tokenHash, s =>
      (s, s.approvalTokens.find? fun row => row.tokenHash == tokenHash)
  | .consumeApprovalToken id result, s =>
      ({ s with approvalTokens := s.approvalTokens.map fun row =>
          if row.id == id && row.consumedAt.isNone then
            { row with consumedAt := some (d.now now), result := some result }
          else row },
        s.approvalTokens.any fun row => row.id == id && row.consumedAt.isNone)
  | .recordReviewDecision entry, s => s.record (d.now now) entry
  | .listSearchCandidates searchId, s =>
      (s, ((s.searchCandidates.rows.filter fun row => searchId.isId row.searchId).mergeSort
        fun a b => decide (b.score ≤ a.score)).filterMap s.joined)
  | .createQueuedSearch id search, s =>
      ({ s with searches := s.searches ++ [⟨search, id, .queued, d.now now⟩] },
        ⟨search, id, .queued, d.now now⟩)
  | .findSearchById id, s => (s, s.searches.find? fun row => row.id == id)
  | .createCandidate candidate, s => ({ s with candidates := s.candidates ++ [candidate] }, ())
  | .loadCandidateById id, s => (s, s.candidates.find? fun row => id.isId row.id)
  | .insertTemplate id candidateId enrollment, s =>
      ({ s with templates := s.templates ++ [enrollment.template id candidateId (d.now now)] },
        enrollment.template id candidateId (d.now now))
  | .findTemplateById id, s => (s, s.templates.find? fun row => row.id == id)
  | .listActiveTemplates modelName modelVersion, s =>
      (s, s.templates.filter fun row =>
        row.modelName == modelName && row.modelVersion == modelVersion && row.revokedAt.isNone)
  | .revokeTemplate id, s =>
      ({ s with templates := s.templates.map fun row =>
          if id.isId row.id && row.revokedAt.isNone then
            { row with revokedAt := some (d.now now) }
          else row },
        s.templates.any fun row => id.isId row.id && row.revokedAt.isNone)

/-! ## Operations -/

/-- The operations of a handler. -/
inductive Op where
  /-- An operation of authentication. -/
  | auth (c : Auth.Call)
  | db (q : Query)
  /-- A mail, best-effort. -/
  | send (mail : Mail)
  /-- `state.biometric_provider.enroll`. -/
  | enrollImage (bytes : List UInt8)

@[reducible] def Op.Res : Op → Type
  | .auth c => c.Res
  | .db q => Except QueryError q.Res
  | .send _ => Unit
  | .enrollImage _ => Except BiometricError EnrollmentResult

/-- One operation. A statement that fails changes nothing. -/
def exec (d : Deployment) : (op : Op) → Env → Database → Database × op.Res
  | .auth c, e, s =>
      ({ s with auth := (Auth.exec d.toPlatform c e s.auth).1 },
        (Auth.exec d.toPlatform c e s.auth).2)
  | .db q, e, s =>
      if e.fails then (s, .error .failed)
      else if q.violatesUnique s then (s, .error .unique)
      else ((q.perform d e.now s).1, .ok (q.perform d e.now s).2)
  | .send mail, _, s => ({ s with mailbox := s.mailbox ++ [mail] }, ())
  | .enrollImage bytes, e, s =>
      (s, if e.fails then .error .providerUnavailable else d.enrollImage bytes)

/-- A handler, or a part of one. -/
abbrev Handler (α : Type) := Program Op Op.Res α

/-- One executed operation of a handler. -/
abbrev Step := Event Op Env Database

/-- A single operation as a handler. -/
def perform (op : Op) : Handler op.Res := .call op .done

/-- A single statement as a handler. -/
def query (q : Query) : Handler (Except QueryError q.Res) := .call (.db q) .done

/-- A handler of authentication. -/
def lift {α : Type} (h : Auth.Handler α) : Handler α := h.embed Op.auth fun _ r => r

/-- A whole handler of authentication. -/
def answered (h : Auth.Handler Auth.Response) : Handler Reply := (lift h).map Reply.ofResponse

theorem answered_bind {α : Type} (h : Auth.Handler α) (f : α → Auth.Handler Auth.Response) :
    answered (h >>= f) = lift h >>= fun a => answered (f a) := by
  unfold answered lift
  rw [Program.embed_bind, Program.map_bind]

/-- Authentication works on its own tables. -/
def authPart (d : Deployment) :
    Part Op.auth (fun _ r => r) (Auth.exec d.toPlatform) (exec d) where
  get s := s.auth
  put a s := { s with auth := a }
  get_put _ _ := rfl
  put_put _ _ _ := rfl
  put_get _ := rfl
  after _ _ _ := rfl
  result _ _ _ := rfl

/-! ## One operation in front of a handler -/

section Front

variable {d : Deployment} {α : Type} {P : Op → Prop} {R : α → Prop} {J : List Step → Op → Prop}
  {Q : List Step → α → Prop} {h : List Step}

theorem performs_perform {op : Op} {f : op.Res → Handler α} (hop : P op)
    (hf : ∀ r, (f r).Performs (exec d) P R) : (perform op >>= f).Performs (exec d) P R :=
  ⟨hop, fun _ _ => hf _⟩

theorem performs_query {q : Query} {f : Except QueryError q.Res → Handler α} (hq : P (.db q))
    (hf : ∀ r, (f r).Performs (exec d) P R) : (query q >>= f).Performs (exec d) P R :=
  ⟨hq, fun _ _ => hf _⟩

theorem guarantees_perform {op : Op} {f : op.Res → Handler α} (hJ : J h op)
    (hf : ∀ e s, (f (exec d op e s).2).Guarantees (exec d) J Q
      (h ++ [⟨op, e, s, (exec d op e s).1⟩])) :
    (perform op >>= f).Guarantees (exec d) J Q h :=
  ⟨hJ, hf⟩

theorem guarantees_query {q : Query} {f : Except QueryError q.Res → Handler α} (hJ : J h (.db q))
    (hf : ∀ e s, (f (exec d (.db q) e s).2).Guarantees (exec d) J Q
      (h ++ [⟨.db q, e, s, (exec d (.db q) e s).1⟩])) :
    (query q >>= f).Guarantees (exec d) J Q h :=
  ⟨hJ, hf⟩

variable {e : Env} {s : Database}

theorem exec_auth (c : Auth.Call) (e : Env) (s : Database) :
    exec d (.auth c) e s = ({ s with auth := (Auth.exec d.toPlatform c e s.auth).1 },
      (Auth.exec d.toPlatform c e s.auth).2) := rfl

theorem exec_db_of_fails {q : Query} (h : e.fails = true) :
    exec d (.db q) e s = (s, .error .failed) := by
  simp only [exec, h, if_true]

theorem exec_db_of_violates {q : Query} (h : e.fails = false) (hq : q.violatesUnique s = true) :
    exec d (.db q) e s = (s, .error .unique) := by
  simp only [exec, h, hq, Bool.false_eq_true, if_false, if_true]

theorem exec_db_of_succeeds {q : Query} (h : e.fails = false) (hq : q.violatesUnique s = false) :
    exec d (.db q) e s = ((q.perform d e.now s).1, .ok (q.perform d e.now s).2) := by
  simp only [exec, h, hq, Bool.false_eq_true, if_false]

/-- A statement leaves the store as it is, or does what it is there for. -/
theorem exec_db_store {I : Database → Prop} {q : Query} (hs : I s)
    (hq : e.fails = false → q.violatesUnique s = false → I (q.perform d e.now s).1) :
    I (exec d (.db q) e s).1 := by
  cases hf : e.fails with
  | true =>
      rw [exec_db_of_fails hf]
      exact hs
  | false =>
      cases hviolates : q.violatesUnique s with
      | true =>
          rw [exec_db_of_violates hf hviolates]
          exact hs
      | false =>
          rw [exec_db_of_succeeds hf hviolates]
          exact hq hf hviolates

end Front

/-! ## What one operation leaves alone -/

/-- The transaction of a decision writes to two tables. -/
theorem record_same {β : Type} {f : Database → β}
    (hf : ∀ s events rows,
      f { s with verificationEvents := events, searchCandidates := rows } = f s)
    (s : Database) (now : Timestamp) (entry : ReviewEntry) : f (s.record now entry).1 = f s := by
  unfold Database.record
  split
  · rfl
  · split
    · rfl
    · exact hf s _ _

/-- No operation changes a membership. -/
@[simp] theorem exec_memberships {d : Deployment} {e : Env} {s : Database} (op : Op) :
    (exec d op e s).1.auth.memberships = s.auth.memberships := by
  cases op with
  | auth c => exact Auth.exec_memberships c
  | db q =>
      apply exec_db_store (I := fun s' => s'.auth.memberships = s.auth.memberships) rfl
      intro _ _
      cases q with
      | recordReviewDecision entry =>
          exact record_same (f := fun s => s.auth.memberships) (fun _ _ _ => rfl) s _ entry
      | _ => rfl
  | _ => rfl

end AnatoliaBis.App
