import AnatoliaBis.App.Requests
import AnatoliaBis.Auth.Footprint

/-! # What the parts of a handler can do

Handlers of administration and review consist mostly of look-ups, audit events
and mails, with one or two writes in between. The classes of operations here say
what a part of a handler keeps to.
-/

namespace AnatoliaBis.App

open Atomic Program
open Auth (Headers)

namespace Op

/-- Look-ups of accounts, organizations and link tokens. -/
def LooksUp : Op → Prop
  | .auth (.db (.userOrganizationIds _)) => True
  | .db (.loadUserById _) | .db (.loadUserByIdIncludingDeleted _) | .db .countActiveSystemAdmins
  | .db (.findApprovalTokenByHash _) => True
  | _ => False

/-- The clock and random draws. -/
def Draws : Op → Prop
  | .auth .utcNow | .auth .random | .auth .newId => True
  | _ => False

def Reads (op : Op) : Prop := op.LooksUp ∨ op.Draws

/-- Looking an account up by its id. -/
def Finds : Op → Prop
  | .db (.loadUserById _) | .db (.loadUserByIdIncludingDeleted _) => True
  | _ => False

/-- Reading the row of an account. -/
def Loads : Op → Prop
  | .db (.loadUserById _) => True
  | _ => False

/-- Writes to `users`. -/
def WritesAccounts : Op → Prop
  | .db (.createUser _) | .db (.updateUserFlags ..) | .db (.updateUserProfile ..)
  | .db (.updateUserPassword ..) | .db (.deleteUser _) | .db (.softDeleteUser _) => True
  | _ => False

/-- The account a statement of moderation changes. -/
def moderated : Op → Option Auth.Key
  | .db (.updateUserFlags key ..) | .db (.deleteUser key) | .db (.softDeleteUser key) => some key
  | _ => none

/-- Revoking the sessions of an account. -/
def Revokes : Op → Prop
  | .db (.revokeAllSessionsForUser _) => True
  | _ => False

/-- Storing an audit event. -/
def Audits : Op → Prop
  | .auth (.db (.insertAuditEvent _)) => True
  | _ => False

theorem writes_of_moderated {op : Op} (h : op.moderated.isSome) : op.WritesAccounts := by
  unfold Op.moderated at h
  split at h
  all_goals trivial

theorem Finds.looksUp {op : Op} (h : op.Finds) : op.LooksUp := by
  unfold Op.Finds at h
  split at h
  · trivial
  · trivial
  · exact h.elim

theorem LooksUp.reads {op : Op} (h : op.LooksUp) : op.Reads := Or.inl h

/-- Only a statement of its own kind writes an account. -/
theorem Draws.not_writes {op : Op} (h : op.Draws) : ¬ op.WritesAccounts := by
  intro hw
  unfold Op.WritesAccounts at hw
  split at hw
  all_goals first | exact h | exact hw

theorem Draws.not_loads {op : Op} (h : op.Draws) : ¬ op.Loads := by
  intro hload
  unfold Op.Loads at hload
  split at hload
  · exact h
  · exact hload

theorem LooksUp.not_writes {op : Op} (h : op.LooksUp) : ¬ op.WritesAccounts := by
  intro hw
  unfold Op.WritesAccounts at hw
  split at hw
  all_goals first | exact h | exact hw

theorem Audits.not_writes {op : Op} (h : op.Audits) : ¬ op.WritesAccounts := by
  intro hw
  unfold Op.WritesAccounts at hw
  split at hw
  all_goals first | exact h | exact hw

theorem Revokes.not_writes {op : Op} (h : op.Revokes) : ¬ op.WritesAccounts := by
  intro hw
  unfold Op.WritesAccounts at hw
  split at hw
  all_goals first | exact h | exact hw

end Op

section Parts

variable {d : Deployment}

theorem authUserFromHeaders_draws (headers : Headers) :
    (lift (Auth.authUserFromHeaders headers)).Performs (exec d) Op.Draws
      fun claims => ∀ c ∈ claims, headers.bearer = some c.id := by
  have hauth : (Auth.authUserFromHeaders headers).Performs (Auth.exec d.toPlatform)
      (fun op => op = .utcNow) fun claims => ∀ c ∈ claims, headers.bearer = some c.id := by
    unfold Auth.authUserFromHeaders
    split
    next => simp
    next token htoken =>
      refine Auth.performs_perform rfl fun e s c hc => ?_
      simp [Auth.Headers.bearer, htoken, (Auth.Token.accessClaims_eq_some.mp hc).1]
  refine (authPart d).performs_embed hauth fun op hop => ?_
  rw [hop]
  trivial

theorem authUserFromHeaders_performs (headers : Headers) :
    (lift (Auth.authUserFromHeaders headers)).Performs (exec d) Op.Reads
      fun claims => ∀ c ∈ claims, headers.bearer = some c.id :=
  (authUserFromHeaders_draws headers).weaken fun _ h => Or.inr h

theorem requireRole_draws (headers : Headers) (policy : Policy) :
    (requireRole headers policy).Performs (exec d) Op.Draws fun _ => True :=
  (authUserFromHeaders_draws headers).bind fun _ _ => trivial

theorem requireRole_performs (headers : Headers) (policy : Policy) :
    (requireRole headers policy).Performs (exec d) Op.Reads fun _ => True :=
  (requireRole_draws headers policy).weaken fun _ h => Or.inr h

theorem loadUserById_finds (id : String) :
    (loadUserById d id).Performs (exec d) Op.Finds fun _ => True := by
  unfold loadUserById
  split
  · trivial
  · exact ⟨trivial, fun _ _ => trivial⟩

theorem loadUserById_performs (id : String) :
    (loadUserById d id).Performs (exec d) Op.LooksUp fun _ => True :=
  (loadUserById_finds id).weaken fun _ h => h.looksUp

theorem loadTarget_performs (id : String) :
    (loadTarget d id).Performs (exec d) Op.LooksUp fun _ => True := by
  refine (loadUserById_performs id).bind fun r _ => ?_
  split <;> trivial

theorem actingName_performs (claims : Auth.Claims) :
    (actingName d claims).Performs (exec d) Op.LooksUp fun _ => True := by
  refine (loadUserById_performs _).bind fun r _ => ?_
  split <;> trivial

theorem isLastAdmin_performs : isLastAdmin.Performs (exec d) Op.LooksUp fun _ => True := by
  refine performs_query trivial fun r => ?_
  split <;> trivial

theorem guardTarget_performs (id : String) :
    (guardTarget d id).Performs (exec d) Op.LooksUp fun _ => True := by
  refine (loadTarget_performs id).bind fun target _ => ?_
  unfold wouldRemoveLastAdmin
  split
  · split_ifs
    · trivial
    · exact isLastAdmin_performs
  · trivial

theorem demotesLastAdmin_performs (target : Account) (role : String) :
    (demotesLastAdmin target role).Performs (exec d) Op.LooksUp fun _ => True := by
  unfold demotesLastAdmin
  split_ifs
  · exact isLastAdmin_performs
  · trivial

/-- Looking accounts up, and moderating one. -/
theorem updateUserFlags_moderates (id : String) (flags : FlagUpdate) :
    (updateUserFlags d id flags).Performs (exec d) (fun op => op.Finds ∨ op.moderated.isSome)
      fun _ => True := by
  refine (loadUserById_finds id).inl.bind fun r _ => ?_
  split
  · trivial
  · trivial
  · dsimp only
    split
    · trivial
    · refine performs_query (Or.inr rfl) fun r => ?_
      split
      · trivial
      · exact (loadUserById_finds id).inl

theorem updateUserFlags_performs (id : String) (flags : FlagUpdate) :
    (updateUserFlags d id flags).Performs (exec d) (fun op => op.LooksUp ∨ op.WritesAccounts)
      fun _ => True :=
  (updateUserFlags_moderates id flags).weaken
    fun _ h => h.imp (fun h => h.looksUp) Op.writes_of_moderated

theorem deleteUser_moderates (id : String) :
    (deleteUser d id).Performs (exec d) (fun op => op.Finds ∨ op.moderated.isSome)
      fun _ => True := by
  unfold deleteUser
  split
  · trivial
  · exact ⟨Or.inr rfl, fun _ _ => trivial⟩

theorem softDeleteUser_moderates (id : String) :
    (softDeleteUser d id).Performs (exec d) (fun op => op.Finds ∨ op.moderated.isSome)
      fun _ => True := by
  unfold softDeleteUser
  split
  · trivial
  · refine performs_query (Or.inr rfl) fun r => ?_
    split
    · trivial
    · trivial
    · refine performs_query (Or.inl trivial) fun r => ?_
      split <;> trivial

theorem softDeleteUser_performs (id : String) :
    (softDeleteUser d id).Performs (exec d) (fun op => op.LooksUp ∨ op.WritesAccounts)
      fun _ => True :=
  (softDeleteUser_moderates id).weaken
    fun _ h => h.imp (fun h => h.looksUp) Op.writes_of_moderated

theorem revokeAllSessionsForUser_performs (id : String) :
    (revokeAllSessionsForUser d id).Performs (exec d) Op.Revokes fun _ => True := by
  unfold revokeAllSessionsForUser
  split
  · trivial
  · exact ⟨trivial, fun _ _ => trivial⟩

theorem resolveOrganizationId_performs (r : Audit.AuditRecorder) :
    (lift (Auth.resolveOrganizationId d.toPlatform r)).Performs (exec d) Op.LooksUp
      fun _ => True := by
  refine (authPart d).performs_embed
    (P := fun op => ∃ userId, op = .db (.userOrganizationIds userId)) ?_ ?_
  · unfold Auth.resolveOrganizationId
    split
    · trivial
    next userId _ =>
      refine Auth.performs_query ⟨userId, rfl⟩ fun e s => ?_
      split <;> trivial
  · rintro op ⟨userId, rfl⟩
    trivial

theorem save_performs (r : Audit.AuditRecorder) :
    (save d r).Performs (exec d) (fun op => op.LooksUp ∨ op.Audits) fun _ => True := by
  unfold save lift Auth.save
  rw [embed_bind]
  refine (resolveOrganizationId_performs r).inl.bind fun _ _ => ?_
  exact ⟨Or.inr trivial, fun _ _ => trivial⟩

theorem lift_saveMandatory_performs (r : Audit.AuditRecorder) :
    (lift (Auth.saveMandatory d.toPlatform r)).Performs (exec d)
      (fun op => op.LooksUp ∨ op.Audits) fun _ => True := by
  unfold lift Auth.saveMandatory
  rw [embed_bind]
  refine (resolveOrganizationId_performs r).inl.bind fun _ _ => ?_
  refine ⟨Or.inr trivial, fun e s => ?_⟩
  generalize (exec d _ e s).2 = stored
  cases stored <;> trivial

theorem saveMandatory_performs (headers : Headers) (r : Audit.AuditRecorder) (reply : Reply) :
    (saveMandatory d headers r reply).Performs (exec d) (fun op => op.LooksUp ∨ op.Audits)
      fun _ => True := by
  refine (lift_saveMandatory_performs r).bind fun r _ => ?_
  split <;> trivial

/-! Most parts of a handler write no account. -/

theorem authUserFromHeaders_quiet (headers : Headers) :
    (lift (Auth.authUserFromHeaders headers)).Performs (exec d) (fun op => ¬ op.WritesAccounts)
      fun _ => True :=
  (authUserFromHeaders_draws headers).mono (fun _ h => h.not_writes) fun _ _ => trivial

theorem requireRole_quiet (headers : Headers) (policy : Policy) :
    (requireRole headers policy).Performs (exec d) (fun op => ¬ op.WritesAccounts) fun _ => True :=
  (requireRole_draws headers policy).weaken fun _ h => h.not_writes

theorem loadTarget_quiet (id : String) :
    (loadTarget d id).Performs (exec d) (fun op => ¬ op.WritesAccounts) fun _ => True :=
  (loadTarget_performs id).weaken fun _ h => h.not_writes

theorem guardTarget_quiet (id : String) :
    (guardTarget d id).Performs (exec d) (fun op => ¬ op.WritesAccounts) fun _ => True :=
  (guardTarget_performs id).weaken fun _ h => h.not_writes

theorem demotesLastAdmin_quiet (target : Account) (role : String) :
    (demotesLastAdmin target role).Performs (exec d) (fun op => ¬ op.WritesAccounts)
      fun _ => True :=
  (demotesLastAdmin_performs target role).weaken fun _ h => h.not_writes

theorem revokeAllSessionsForUser_quiet (id : String) :
    (revokeAllSessionsForUser d id).Performs (exec d) (fun op => ¬ op.WritesAccounts)
      fun _ => True :=
  (revokeAllSessionsForUser_performs id).weaken fun _ h => h.not_writes

theorem save_quiet (r : Audit.AuditRecorder) :
    (save d r).Performs (exec d) (fun op => ¬ op.WritesAccounts) fun _ => True :=
  (save_performs r).weaken fun _ h => h.elim (fun h => h.not_writes) fun h => h.not_writes

theorem saveMandatory_quiet (headers : Headers) (r : Audit.AuditRecorder) (reply : Reply) :
    (saveMandatory d headers r reply).Performs (exec d) (fun op => ¬ op.WritesAccounts)
      fun _ => True :=
  (saveMandatory_performs headers r reply).weaken
    fun _ h => h.elim (fun h => h.not_writes) fun h => h.not_writes

theorem sendApproval_quiet (user : Account) :
    (sendApproval user).Performs (exec d) (fun op => ¬ op.WritesAccounts) fun _ => True := by
  unfold sendApproval
  split
  · trivial
  · exact performs_perform id fun _ => trivial

theorem sendRejection_quiet (user : Account) :
    (sendRejection user).Performs (exec d) (fun op => ¬ op.WritesAccounts) fun _ => True := by
  unfold sendRejection
  split
  · trivial
  · exact performs_perform id fun _ => trivial

/-- The claims of a token that is taken are its own, in time, and for approval. -/
theorem claims_of_taken {token : LinkToken} {now : Timestamp} {claims : ApprovalClaims}
    (h : ((token.approvalClaims now).filter fun claims => claims.purpose == approvalPurpose) =
      some claims) :
    token = .approval claims ∧ Auth.Unexpired claims.exp now ∧
      claims.purpose = approvalPurpose := by
  rcases Option.filter_eq_some_iff.mp h with ⟨hclaims, hpurpose⟩
  unfold LinkToken.approvalClaims at hclaims
  split at hclaims
  · split_ifs at hclaims with hexp
    rcases Option.some.inj hclaims with rfl
    exact ⟨rfl, hexp, beq_iff_eq.mp hpurpose⟩
  · cases hclaims

theorem consumeApprovalToken_quiet (token : LinkToken) (result : String) :
    (consumeApprovalToken d token result).Performs (exec d) (fun op => ¬ op.WritesAccounts)
      fun _ => True := by
  unfold consumeApprovalToken
  refine performs_perform id fun now => ?_
  split
  · trivial
  · refine performs_query id fun found => ?_
    split
    · split_ifs
      · refine performs_perform id fun now' => ?_
        split_ifs
        · trivial
        · refine performs_query id fun consumed => ?_
          split <;> trivial
      · trivial
    · trivial

end Parts

end AnatoliaBis.App
