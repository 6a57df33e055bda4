import AnatoliaBis.App.FlagUpdates

/-! # What every handler keeps

Most handlers are made of statements that concern neither the accounts nor the records of
what their owners did, with a write or two in between. A relation between stores that
composes and that those statements keep (`Kept`) is kept by every handler that keeps it at
the writes of its own (`Request.Writes`).
-/

namespace AnatoliaBis.App

open Atomic Program
open Auth (Headers trim)

/-- The operations of the routes beyond authentication, the writes to `users`, new searches
and decisions left out. -/
def Op.Own : Op → Prop
  | .auth .utcNow | .auth .random | .auth .newId | .auth (.rateCheck ..)
  | .auth (.db (.userOrganizationIds _)) | .auth (.db (.insertAuditEvent _))
  | .auth (.db (.loadUserByCode _)) => True
  | .auth _ | .db (.createUser _) | .db (.setRegistrationTrackingToken ..)
  | .db (.updateUserFlags ..) | .db (.updateUserProfile ..) | .db (.updateUserPassword ..)
  | .db (.deleteUser _) | .db (.softDeleteUser _) | .db (.createQueuedSearch ..)
  | .db (.recordReviewDecision _) => False
  | _ => True

/-- The operation stays within the relation. -/
def Op.KeptBy (d : Deployment) (T : Database → Database → Prop) (op : Op) : Prop :=
  ∀ e s, T s (exec d op e s).1

theorem Op.Draws.own {op : Op} (h : op.Draws) : op.Own := by
  unfold Op.Draws at h
  split at h
  all_goals trivial

theorem Op.LooksUp.own {op : Op} (h : op.LooksUp) : op.Own := by
  unfold Op.LooksUp at h
  split at h
  all_goals trivial

theorem Op.Audits.own {op : Op} (h : op.Audits) : op.Own := by
  unfold Op.Audits at h
  split at h
  all_goals trivial

theorem Op.Revokes.own {op : Op} (h : op.Revokes) : op.Own := by
  unfold Op.Revokes at h
  split at h
  all_goals trivial

/-- A relation from the first store to the last that the operations of the routes keep. -/
structure Kept (d : Deployment) (T : Database → Database → Prop) : Prop where
  refl : ∀ s, T s s
  trans : ∀ {s s' s''}, T s s' → T s' s'' → T s s''
  own : ∀ op : Op, op.Own → op.KeptBy d T

section Parts

variable {d : Deployment} {T : Database → Database → Prop} {α β : Type} {headers : Headers}
  {id : String}

namespace Kept

theorem done (hT : Kept d T) (a : α) : (Program.done a : Handler α).Keeps (exec d) T :=
  Keeps.done hT.refl a

theorem bind (hT : Kept d T) {h : Handler α} {f : α → Handler β} (hh : h.Keeps (exec d) T)
    (hf : ∀ a, (f a).Keeps (exec d) T) : (h >>= f).Keeps (exec d) T := hh.bind hT.trans hf

theorem performs (hT : Kept d T) {P : Op → Prop} {R : α → Prop} {h : Handler α}
    (hh : h.Performs (exec d) P R) (hP : ∀ op, P op → op.Own) : h.Keeps (exec d) T :=
  hh.keeps hT.refl hT.trans fun op e s hop => hT.own op (hP op hop) e s

theorem perform (hT : Kept d T) {op : Op} {f : op.Res → Handler α} (hop : op.Own)
    (hf : ∀ r, (f r).Keeps (exec d) T) : (perform op >>= f).Keeps (exec d) T :=
  hT.bind (hT.performs (P := Op.Own) (R := fun _ => True) ⟨hop, fun _ _ => trivial⟩ fun _ h => h) hf

/-- A write of the handler's own. -/
theorem write (hT : Kept d T) {q : Query} {f : Except QueryError q.Res → Handler α}
    (hq : (Op.db q).KeptBy d T) (hf : ∀ r, (f r).Keeps (exec d) T) :
    (query q >>= f).Keeps (exec d) T := by
  have hcall : (query q).Keeps (exec d) T :=
    Keeps.call (T := T) hT.trans hq fun r => hT.done r
  exact hT.bind hcall hf

theorem query (hT : Kept d T) {q : Query} {f : Except QueryError q.Res → Handler α}
    (hq : (Op.db q).Own) (hf : ∀ r, (f r).Keeps (exec d) T) :
    (query q >>= f).Keeps (exec d) T := hT.perform hq hf

/-- A part that is known to end in certain results. -/
theorem after (hT : Kept d T) {P : Op → Prop} {R : α → Prop} {h : Handler α}
    {f : α → Handler β} (hh : h.Performs (exec d) P R) (hP : ∀ op, P op → op.Own)
    (hf : ∀ a, R a → (f a).Keeps (exec d) T) : (h >>= f).Keeps (exec d) T := by
  intro ω s
  rw [run_bind]
  exact hT.trans (hT.performs hh hP ω s) (hf _ (hh.run_result ω s) _ _)

end Kept

variable (hT : Kept d T)

include hT

theorem actorClaims_keeps (headers : Headers) : (actorClaims headers).Keeps (exec d) T :=
  hT.performs (authUserFromHeaders_draws headers) fun _ h => h.own

theorem requireRole_keeps (headers : Headers) (policy : Policy) :
    (requireRole headers policy).Keeps (exec d) T :=
  hT.performs (requireRole_draws headers policy) fun _ h => h.own

theorem adminOnly_keeps {route : Handler Reply} (hroute : route.Keeps (exec d) T) :
    (adminOnly headers route).Keeps (exec d) T := by
  apply hT.bind (requireRole_keeps hT headers _)
  intro allowed
  split_ifs
  · exact hroute
  · exact hT.done _

theorem signedIn_keeps {policy : Policy} {route : Auth.Claims → Handler Reply}
    (hroute : ∀ claims, headers.bearer = some claims.id → (route claims).Keeps (exec d) T) :
    (signedIn headers policy route).Keeps (exec d) T := by
  apply hT.after (authUserFromHeaders_draws headers) fun _ h => h.own
  intro claims hclaims
  split
  · exact hT.done _
  · split_ifs
    · exact hroute _ (hclaims _ rfl)
    · exact hT.done _

theorem loadUserById_keeps (id : String) : (loadUserById d id).Keeps (exec d) T :=
  hT.performs (loadUserById_performs id) fun _ h => h.own

theorem loadTarget_keeps : (loadTarget d id).Keeps (exec d) T :=
  hT.performs (loadTarget_performs id) fun _ h => h.own

theorem guardTarget_keeps : (guardTarget d id).Keeps (exec d) T :=
  hT.performs (guardTarget_performs id) fun _ h => h.own

theorem actingName_keeps (claims : Auth.Claims) : (actingName d claims).Keeps (exec d) T :=
  hT.performs (actingName_performs claims) fun _ h => h.own

theorem revokeAllSessionsForUser_keeps (id : String) :
    (revokeAllSessionsForUser d id).Keeps (exec d) T :=
  hT.performs (revokeAllSessionsForUser_performs id) fun _ h => h.own

theorem save_keeps (r : Audit.AuditRecorder) : (save d r).Keeps (exec d) T :=
  hT.performs (save_performs r) fun _ h => h.elim (fun h => h.own) fun h => h.own

theorem saveMandatory_keeps (r : Audit.AuditRecorder) (reply : Reply) :
    (saveMandatory d headers r reply).Keeps (exec d) T :=
  hT.performs (saveMandatory_performs headers r reply) fun _ h =>
    h.elim (fun h => h.own) fun h => h.own

theorem lift_saveMandatory_keeps (r : Audit.AuditRecorder) :
    (lift (Auth.saveMandatory d.toPlatform r)).Keeps (exec d) T :=
  hT.performs (lift_saveMandatory_performs r) fun _ h => h.elim (fun h => h.own) fun h => h.own

theorem sendApproval_keeps (user : Account) : (sendApproval user).Keeps (exec d) T := by
  unfold sendApproval
  split
  · exact hT.done _
  · exact hT.perform trivial fun _ => hT.done _

theorem sendRejection_keeps (user : Account) : (sendRejection user).Keeps (exec d) T := by
  unfold sendRejection
  split
  · exact hT.done _
  · exact hT.perform trivial fun _ => hT.done _

theorem userOrganizationIds_keeps (userId : Uuid) :
    (userOrganizationIds d userId).Keeps (exec d) T := by
  unfold userOrganizationIds
  split
  · exact hT.done _
  next key _ =>
    have hown : (Op.auth (.db (.userOrganizationIds key))).Own := trivial
    exact hT.perform hown fun _ => hT.done _

omit hT in
/-- A link is about the account it names. -/
theorem consumeApprovalToken_own (token : LinkToken) (result : String) :
    (consumeApprovalToken d token result).Performs (exec d) Op.Own fun found =>
      ∀ u ∈ found, ∃ claims, token = .approval claims ∧ claims.userId = u := by
  unfold consumeApprovalToken
  refine performs_perform trivial fun now => ?_
  split
  · exact nofun
  next claims hclaims =>
    refine performs_query trivial fun found => ?_
    split
    · split_ifs
      · refine performs_perform trivial fun now' => ?_
        split_ifs
        · exact nofun
        · refine performs_query trivial fun consumed => ?_
          split
          · rintro u ⟨⟩
            exact ⟨claims, (claims_of_taken hclaims).1, rfl⟩
          · exact nofun
      · exact nofun
    · exact nofun

theorem createUser_keeps {user : NewUser}
    (hwrite : ∀ u, (Op.db (.createUser (user.account u))).KeptBy d T) :
    (createUser d user).Keeps (exec d) T := by
  refine hT.perform trivial fun u => hT.write (hwrite u) fun created => ?_
  split
  · exact hT.done _
  · split
    · exact hT.done _
    · exact loadUserById_keeps hT _

theorem updateUserFlags_keeps {flags : FlagUpdate}
    (hwrite : ∀ key isApproved isBanned banReason role, d.key id = some key →
      (Op.db (.updateUserFlags key isApproved isBanned banReason role)).KeptBy d T) :
    (updateUserFlags d id flags).Keeps (exec d) T := by
  apply hT.bind (loadUserById_keeps hT id)
  intro found
  split
  · exact hT.done _
  · exact hT.done _
  · dsimp only
    split
    · exact hT.done _
    next key hkey =>
      refine hT.write (hwrite key _ _ _ _ hkey) fun updated => ?_
      split
      · exact hT.done _
      · exact loadUserById_keeps hT id

theorem updateUserProfile_keeps {firstName : String} {email encrypted lookupHash : Option String}
    {passwordHash : String} (hwrite : ∀ key, d.key id = some key → (Op.db (.updateUserProfile key
      firstName email encrypted lookupHash passwordHash)).KeptBy d T) :
    (updateUserProfile d id firstName email encrypted lookupHash passwordHash).Keeps (exec d) T := by
  unfold updateUserProfile
  split
  · exact hT.done _
  next key hkey =>
    refine hT.write (hwrite key hkey) fun updated => ?_
    split
    · exact hT.done _
    · exact loadUserById_keeps hT _

theorem updateUserPassword_keeps {passwordHash : String} (hwrite : ∀ key, d.key id = some key →
      (Op.db (.updateUserPassword key passwordHash)).KeptBy d T) :
    (updateUserPassword d id passwordHash).Keeps (exec d) T := by
  unfold updateUserPassword
  split
  · exact hT.done _
  next key hkey =>
    refine hT.write (hwrite key hkey) fun updated => ?_
    split
    · exact hT.done _
    · exact loadUserById_keeps hT _

theorem deleteUser_keeps (hwrite : ∀ key, d.key id = some key →
      (Op.db (.deleteUser key)).KeptBy d T) : (deleteUser d id).Keeps (exec d) T := by
  unfold deleteUser
  split
  · exact hT.done _
  next key hkey => exact hT.write (hwrite key hkey) fun _ => hT.done _

theorem softDeleteUser_keeps (hwrite : ∀ key, d.key id = some key →
      (Op.db (.softDeleteUser key)).KeptBy d T) : (softDeleteUser d id).Keeps (exec d) T := by
  unfold softDeleteUser
  split
  · exact hT.done _
  next key hkey =>
    refine hT.write (hwrite key hkey) fun deleted => ?_
    split
    · exact hT.done _
    · exact hT.done _
    · refine hT.query trivial fun found => ?_
      split
      · exact hT.done _
      · exact hT.done _

/-! ## Decisions on registrations -/

theorem approveUser_keeps (hflags : (updateUserFlags d id approval).Keeps (exec d) T) :
    (approveUser d headers id).Keeps (exec d) T := by
  apply adminOnly_keeps hT
  apply hT.bind hflags
  intro updated
  split
  · exact hT.bind (sendApproval_keeps hT _) fun _ => hT.bind (actorClaims_keeps hT _) fun _ =>
      hT.bind (save_keeps hT _) fun _ => hT.done _
  · exact hT.done _
  · exact hT.done _

theorem rejectUser_keeps (hdelete : (deleteUser d id).Keeps (exec d) T) :
    (rejectUser d headers id).Keeps (exec d) T := by
  refine adminOnly_keeps hT (hT.bind (loadTarget_keeps hT) fun user => ?_)
  refine hT.bind (actorClaims_keeps hT _) fun _ => hT.bind hdelete fun deleted => ?_
  split
  · split
    · exact hT.bind (sendRejection_keeps hT _) fun _ =>
        hT.bind (save_keeps hT _) fun _ => hT.done _
    · exact hT.bind (save_keeps hT _) fun _ => hT.done _
  · exact hT.done _
  · exact hT.done _

theorem quickApprove_keeps (token : LinkToken)
    (hflags : ∀ claims, token = .approval claims →
      (updateUserFlags d claims.userId.text approval).Keeps (exec d) T) :
    (quickApprove d headers token).Keeps (exec d) T := by
  apply hT.after (consumeApprovalToken_own _ _) fun _ h => h
  intro consumed hconsumed
  split
  · exact hT.done _
  next u =>
    rcases hconsumed u rfl with ⟨claims, htoken, rfl⟩
    apply hT.bind (hflags claims htoken)
    intro updated
    split
    · exact hT.bind (sendApproval_keeps hT _) fun _ =>
        hT.bind (save_keeps hT _) fun _ => hT.done _
    · exact hT.done _
    · exact hT.done _

theorem quickReject_keeps (token : LinkToken)
    (hdelete : ∀ claims, token = .approval claims →
      (deleteUser d claims.userId.text).Keeps (exec d) T) :
    (quickReject d headers token).Keeps (exec d) T := by
  apply hT.after (consumeApprovalToken_own _ _) fun _ h => h
  intro consumed hconsumed
  split
  · exact hT.done _
  next u =>
    rcases hconsumed u rfl with ⟨claims, htoken, rfl⟩
    apply hT.bind (loadTarget_keeps hT)
    intro user
    apply hT.bind (hdelete claims htoken)
    intro deleted
    split
    · apply hT.bind (save_keeps hT _)
      intro _
      split
      · exact hT.bind (sendRejection_keeps hT _) fun _ => hT.done _
      · exact hT.done _
    · exact hT.done _
    · exact hT.done _

/-! ## Bans, roles and deletion -/

theorem banUser_keeps (reason : Option String)
    (hflags : (updateUserFlags d id ⟨none, some true, reason, none⟩).Keeps (exec d) T) :
    (banUser d headers id reason).Keeps (exec d) T := by
  refine adminOnly_keeps hT (hT.bind (guardTarget_keeps hT) fun guarded => ?_)
  split_ifs
  · exact hT.done _
  · apply hT.bind hflags
    intro updated
    split
    · exact hT.bind (revokeAllSessionsForUser_keeps hT _) fun _ =>
        hT.bind (actorClaims_keeps hT _) fun _ => saveMandatory_keeps hT _ _
    · exact hT.done _
    · exact hT.done _

theorem unbanUser_keeps
    (hflags : (updateUserFlags d id ⟨none, some false, none, none⟩).Keeps (exec d) T) :
    (unbanUser d headers id).Keeps (exec d) T := by
  refine adminOnly_keeps hT (hT.bind hflags fun updated => ?_)
  split
  · exact hT.bind (actorClaims_keeps hT _) fun _ => saveMandatory_keeps hT _ _
  · exact hT.done _
  · exact hT.done _

theorem changeRole_keeps (role : String)
    (hflags : (updateUserFlags d id ⟨none, none, none, some role⟩).Keeps (exec d) T) :
    (changeRole d headers id role).Keeps (exec d) T := by
  refine adminOnly_keeps hT ?_
  split_ifs
  · exact hT.done _
  · apply hT.bind (loadTarget_keeps hT)
    intro target
    split
    · exact hT.done _
    next target =>
      split_ifs
      · exact hT.done _
      · apply hT.bind (hT.performs (demotesLastAdmin_performs target role) fun _ h => h.own)
        intro demotes
        split_ifs
        · exact hT.done _
        · apply hT.bind hflags
          intro updated
          split
          · exact hT.bind (revokeAllSessionsForUser_keeps hT _) fun _ =>
              hT.bind (actorClaims_keeps hT _) fun _ => saveMandatory_keeps hT _ _
          · exact hT.done _
          · exact hT.done _

theorem deleteUserRoute_keeps (hdelete : (softDeleteUser d id).Keeps (exec d) T) :
    (deleteUserRoute d headers id).Keeps (exec d) T := by
  refine adminOnly_keeps hT (hT.bind (guardTarget_keeps hT) fun guarded => ?_)
  split_ifs
  · exact hT.done _
  · apply hT.bind hdelete
    intro deleted
    split
    · exact hT.bind (revokeAllSessionsForUser_keeps hT _) fun _ =>
        hT.bind (actorClaims_keeps hT _) fun _ => hT.bind (save_keeps hT _) fun _ =>
          hT.done _
    · exact hT.done _
    · exact hT.done _

/-! ## Creating and editing accounts -/

theorem createUserRoute_keeps (payload : CreateUserPayload)
    (hcreate : ∀ user : NewUser,
      user.role = (if payload.isAdmin then Role.systemAdmin else Role.defaultApproved) →
        (createUser d user).Keeps (exec d) T) :
    (createUserRoute d headers payload).Keeps (exec d) T := by
  refine adminOnly_keeps hT ?_
  dsimp only
  split
  · exact hT.done _
  · refine hT.perform trivial fun salt => ?_
    split
    · exact hT.done _
    · refine hT.perform trivial fun nonce =>
        hT.bind (hcreate _ rfl) fun created => ?_
      split
      · exact hT.bind (actorClaims_keeps hT _) fun _ => hT.bind (save_keeps hT _) fun _ =>
          hT.done _
      · exact hT.done _
      · exact hT.done _

theorem updateUserRoute_keeps (payload : UpdateUserPayload)
    (hwrite : ∀ key firstName email encrypted lookupHash passwordHash, d.key id = some key →
      (Op.db (.updateUserProfile key firstName email encrypted lookupHash passwordHash)).KeptBy d T) :
    (updateUserRoute d headers id payload).Keeps (exec d) T := by
  have hnational : ∀ current, (nextNationalId d payload current).Keeps (exec d) T := by
    intro current
    unfold nextNationalId
    split
    · exact hT.done _
    · split_ifs
      · exact hT.perform trivial fun _ => hT.done _
      · exact hT.done _
  have hpassword : ∀ current, (nextPasswordHash d headers payload current).Keeps (exec d) T := by
    intro current
    unfold nextPasswordHash
    split
    · exact hT.done _
    · split_ifs
      · exact hT.done _
      · refine hT.perform trivial fun salt => ?_
        split
        · exact hT.done _
        · exact hT.done _
  refine adminOnly_keeps hT (hT.bind (loadTarget_keeps hT) fun current => ?_)
  split
  · exact hT.done _
  · apply hT.bind (hnational _)
    intro nationalId
    split
    · exact hT.done _
    · apply hT.bind (hpassword _)
      intro passwordHash
      split
      · exact hT.done _
      · apply hT.bind (updateUserProfile_keeps hT fun key hkey => hwrite key _ _ _ _ _ hkey)
        intro updated
        split
        · exact hT.bind (actorClaims_keeps hT _) fun _ => hT.bind (save_keeps hT _) fun _ =>
            hT.done _
        · exact hT.done _
        · exact hT.done _

theorem createApprovalToken_keeps (userId : Uuid) (hash purpose : String) (expiresAt : Timestamp) :
    (createApprovalToken d userId hash purpose expiresAt).Keeps (exec d) T := by
  refine hT.perform trivial fun _ => hT.query trivial fun created => ?_
  split
  · exact hT.done _
  · split
    · exact hT.done _
    · refine hT.query trivial fun found => ?_
      split
      · exact hT.done _
      · exact hT.done _

theorem signApprovalToken_keeps (userId : Uuid) :
    (signApprovalToken d userId).Keeps (exec d) T := by
  refine hT.perform trivial fun now => hT.perform trivial fun jti => ?_
  apply hT.bind (createApprovalToken_keeps hT _ _ _ _)
  intro created
  split
  · exact hT.done _
  · exact hT.done _

theorem register_keeps (payload : RegisterPayload)
    (hcreate : ∀ user : NewUser, user.role = Role.pending →
      (createUser d user).Keeps (exec d) T)
    (hwrite : ∀ u token expiresAt,
      (Op.db (.setRegistrationTrackingToken u token expiresAt)).KeptBy d T) :
    (register d headers payload).Keeps (exec d) T := by
  have hannounce : ∀ user, (announceRegistration d headers user).Keeps (exec d) T := by
    intro user
    refine hT.perform trivial fun _ => hT.perform trivial fun _ =>
      hT.write (hwrite _ _ _) fun _ => hT.bind (signApprovalToken_keeps hT _) fun token => ?_
    split
    · exact hT.perform trivial fun _ => hT.bind (save_keeps hT _) fun _ => hT.done _
    · exact hT.bind (save_keeps hT _) fun _ => hT.done _
  refine hT.perform trivial fun allowed => ?_
  split_ifs
  · exact hT.done _
  · exact hT.done _
  · refine hT.perform trivial fun salt => ?_
    split
    · exact hT.done _
    · refine hT.perform trivial fun nonce =>
        hT.bind (hcreate _ rfl) fun created => ?_
      split
      · exact hannounce _
      · exact hT.done _
      · exact hT.done _

theorem resetPassword_keeps (token newPassword : String)
    (hwrite : ∀ key passwordHash, (Op.db (.updateUserPassword key passwordHash)).KeptBy d T) :
    (resetPassword d headers token newPassword).Keeps (exec d) T := by
  have hset : ∀ userId, (setPassword d headers userId newPassword).Keeps (exec d) T := by
    intro userId
    refine hT.perform trivial fun salt => ?_
    split
    · exact hT.done _
    · apply hT.bind (updateUserPassword_keeps hT fun key _ => hwrite key _)
      intro updated
      split
      · exact hT.bind (revokeAllSessionsForUser_keeps hT _) fun _ =>
          hT.bind (save_keeps hT _) fun _ => hT.done _
      · exact hT.done _
  unfold resetPassword
  split_ifs
  · exact hT.done _
  · refine hT.query trivial fun found => ?_
    split
    · split_ifs
      · exact hT.done _
      · refine hT.perform trivial fun now => ?_
        split_ifs
        · exact hT.done _
        · refine hT.query trivial fun consumed => ?_
          split
          · exact hset _
          · exact hT.done _
    · exact hT.done _

/-! ## Reviews, candidates and searches -/

theorem primaryOrganizationId_keeps (userId : Uuid) :
    (primaryOrganizationId d userId).Keeps (exec d) T := by
  apply hT.bind (userOrganizationIds_keeps hT _)
  intro ids
  split
  · exact hT.done _
  · exact hT.done _

theorem authorizeCandidateScope_keeps (claims : Auth.Claims) (candidate : CandidateRow) :
    (authorizeCandidateScope d claims candidate).Keeps (exec d) T := by
  apply hT.bind (userOrganizationIds_keeps hT _)
  intro ids
  split
  · exact hT.done _
  · exact hT.done _

theorem loadCandidateById_keeps : (loadCandidateById d id).Keeps (exec d) T := by
  unfold loadCandidateById
  split
  · exact hT.done _
  · exact hT.query trivial fun _ => hT.done _

theorem review_keeps (candidateId : String) (payload : ReviewPayload) (decision : Decision)
    (hwrite : ∀ entry : ReviewEntry, headers.bearer = some entry.reviewedBy →
      (Op.db (.recordReviewDecision entry)).KeptBy d T) :
    (review d headers candidateId payload decision).Keeps (exec d) T := by
  apply hT.after (authUserFromHeaders_draws headers) fun _ h => h.own
  intro claims hclaims
  split
  · exact hT.done _
  next claims =>
    apply hT.bind (requireRole_keeps hT headers _)
    intro allowed
    split_ifs
    · refine hT.bind (actingName_keeps hT _) fun name => hT.bind ?_ fun outcome => ?_
      · unfold recordReviewDecision
        split
        · refine hT.perform trivial fun _ =>
            hT.write (hwrite _ (hclaims claims rfl)) fun recorded => ?_
          split
          · exact hT.done _
          · exact hT.done _
          · exact hT.done _
          · refine hT.query trivial fun rows => ?_
            split
            · exact hT.done _
            · split
              · exact hT.done _
              · exact hT.done _
        · exact hT.done _
      · unfold answerReview
        split
        · exact saveMandatory_keeps hT _ _
        · exact hT.done _
        · exact hT.bind (save_keeps hT _) fun _ => hT.done _
        · exact hT.done _
    · exact hT.done _

theorem createCandidateRoute_keeps (payload : CreateCandidatePayload) :
    (createCandidateRoute d headers payload).Keeps (exec d) T := by
  refine signedIn_keeps hT fun claims _ => ?_
  dsimp only
  split_ifs
  · exact hT.done _
  · apply hT.bind (primaryOrganizationId_keeps hT _)
    intro organizationId
    refine hT.bind ?_ fun created => ?_
    · refine hT.perform trivial fun _ => ?_
      split
      · refine hT.query trivial fun created => ?_
        split
        · exact hT.done _
        · exact hT.done _
      · refine hT.query trivial fun created => ?_
        split
        · exact hT.done _
        · refine hT.query trivial fun found => ?_
          split
          · exact hT.done _
          · exact hT.done _
          · exact hT.done _
    · split
      · exact saveMandatory_keeps hT _ _
      · exact hT.done _

theorem uploadReferencePhoto_keeps (candidateId : String) (image : Option (List UInt8)) :
    (uploadReferencePhoto d headers candidateId image).Keeps (exec d) T := by
  have hinsert : ∀ candidate enrollment,
      (insertTemplate d candidate enrollment).Keeps (exec d) T := by
    intro candidate enrollment
    refine hT.perform trivial fun _ => hT.query trivial fun inserted => ?_
    split
    · exact hT.done _
    · split
      · exact hT.done _
      · exact hT.query trivial fun _ => hT.done _
  have hreply : ∀ template, (templateReply d candidateId template).Keeps (exec d) T := by
    intro template
    refine hT.query trivial fun rows => ?_
    split
    · exact hT.done _
    · exact hT.done _
  refine signedIn_keeps hT fun claims _ => hT.bind (loadCandidateById_keeps hT) fun found => ?_
  split
  · exact hT.done _
  · exact hT.done _
  · apply hT.bind (authorizeCandidateScope_keeps hT _ _)
    intro authorized
    split_ifs
    · exact hT.done _
    · split
      · exact hT.done _
      · split
        · exact hT.done _
        · refine hT.perform trivial fun enrolled => ?_
          split
          · exact hT.done _
          · apply hT.bind (hinsert _ _)
            intro inserted
            split
            · apply hT.bind (lift_saveMandatory_keeps hT _)
              intro stored
              split
              · exact hT.done _
              · exact hreply _
            · exact hT.done _

theorem revokeTemplateRoute_keeps (candidateId templateId : String) :
    (revokeTemplateRoute d headers candidateId templateId).Keeps (exec d) T := by
  refine signedIn_keeps hT fun claims _ => hT.bind (loadCandidateById_keeps hT) fun found => ?_
  split
  · apply hT.bind (authorizeCandidateScope_keeps hT _ _)
    intro authorized
    split_ifs
    · exact hT.done _
    · refine hT.bind ?_ fun revoked => ?_
      · unfold revokeTemplate
        split
        · exact hT.done _
        · exact hT.query trivial fun _ => hT.done _
      · split
        · exact saveMandatory_keeps hT _ _
        · exact hT.done _
        · exact hT.done _
  · exact hT.done _

theorem createSearch_keeps (form : Option SearchForm)
    (hwrite : ∀ id (search : NewSearch), headers.bearer = some search.requestedBy →
      (Op.db (.createQueuedSearch id search)).KeptBy d T) :
    (createSearch d headers form).Keeps (exec d) T := by
  have hqueue : ∀ search : NewSearch, headers.bearer = some search.requestedBy →
      (createQueuedSearch d search).Keeps (exec d) T := by
    intro search hbearer
    refine hT.perform trivial fun _ => ?_
    split
    · exact hT.write (hwrite _ _ hbearer) fun _ => hT.done _
    · refine hT.write (hwrite _ _ hbearer) fun queued => ?_
      split
      · exact hT.done _
      · refine hT.query trivial fun found => ?_
        split
        · exact hT.done _
        · exact hT.done _
        · exact hT.done _
  refine signedIn_keeps hT fun claims hclaims => ?_
  split
  · exact hT.done _
  · dsimp only
    split
    · exact hT.done _
    · split
      · exact hT.done _
      · split_ifs
        · exact hT.done _
        · exact hT.done _
        · refine hT.bind (actingName_keeps hT _) fun name =>
            hT.bind (primaryOrganizationId_keeps hT _) fun organizationId =>
              hT.bind (hqueue _ hclaims) fun queued => ?_
          split
          · exact hT.bind (save_keeps hT _) fun _ => hT.done _
          · exact hT.bind (save_keeps hT _) fun _ => hT.done _

/-! ## Forgotten passwords -/

theorem forgotPassword_keeps (identifier : String) :
    (forgotPassword d headers identifier).Keeps (exec d) T := by
  have hfind : ∀ text, (findByIdentifier d text).Keeps (exec d) T := by
    intro text
    unfold findByIdentifier
    split_ifs
    · refine hT.query trivial fun found => ?_
      split
      · exact hT.done _
      · exact hT.done _
    · have hload : (loadUserByCode d text).Keeps (exec d) T :=
        hT.performs (P := Op.Own) (R := fun _ => True) ⟨trivial, fun _ _ => trivial⟩ fun _ h => h
      apply hT.bind hload
      intro found
      split
      · exact hT.done _
      · exact hT.done _
  have hsend : ∀ user, (sendResetMail d user).Keeps (exec d) T := by
    intro user
    unfold sendResetMail
    split
    · exact hT.perform trivial fun _ => hT.done _
    · refine hT.perform trivial fun now => hT.perform trivial fun bytes => ?_
      apply hT.bind (createApprovalToken_keeps hT _ _ _ _)
      intro created
      split
      · exact hT.done _
      · exact hT.perform trivial fun _ => hT.done _
  unfold forgotPassword
  generalize trim identifier = identifier
  split_ifs
  · exact hT.done _
  · refine hT.perform trivial fun allowed => ?_
    split_ifs
    · have hrequest : (requestReset d headers identifier).Keeps (exec d) T := by
        apply hT.bind (hfind _)
        intro user
        split
        · exact hT.done _
        · exact hT.bind (hsend _) fun _ => save_keeps hT _
      exact hT.bind hrequest fun _ => hT.done _
    · exact hT.done _

end Parts

/-! ## Requests -/

/-- The flags that a request writes, and the account it writes them on. -/
def Request.Flags : Request → String → FlagUpdate → Prop
  | .approveUser _ id, id', flags => id' = id ∧ flags = approval
  | .quickApprove _ token, id', flags =>
      (∃ claims, token = .approval claims ∧ id' = claims.userId.text) ∧ flags = approval
  | .banUser _ id reason, id', flags => id' = id ∧ flags = ⟨none, some true, reason, none⟩
  | .unbanUser _ id, id', flags => id' = id ∧ flags = ⟨none, some false, none, none⟩
  | .changeRole _ id role, id', flags => id' = id ∧ flags = ⟨none, none, none, some role⟩
  | _, _, _ => False

/-- The role of an account that a request inserts. -/
def Request.Inserts : Request → String → Prop
  | .register .., role => role = Role.pending
  | .createUser _ payload, role =>
      role = if payload.isAdmin then Role.systemAdmin else Role.defaultApproved
  | _, _ => False

/-- The other writes of a request: to the account it is about, and of what is recorded under
its own account. -/
def Request.Writes (d : Deployment) : Request → Op → Prop
  | .register .., .db (.setRegistrationTrackingToken ..) => True
  | .resetPassword .., .db (.updateUserPassword ..) => True
  | .updateUser _ id _, .db (.updateUserProfile key ..) => d.key id = some key
  | .deleteUser _ id, .db (.softDeleteUser key) => d.key id = some key
  | .rejectUser _ id, .db (.deleteUser key) => d.key id = some key
  | .quickReject _ token, .db (.deleteUser key) =>
      ∃ claims, token = .approval claims ∧ d.key claims.userId.text = some key
  | .createSearch headers _, .db (.createQueuedSearch _ search) =>
      headers.bearer = some search.requestedBy
  | .review headers .., .db (.recordReviewDecision entry) =>
      headers.bearer = some entry.reviewedBy
  | _, _ => False

/-- What is kept by the writes of a request is kept by the request. -/
theorem handle_keeps {d : Deployment} {T : Database → Database → Prop} (hT : Kept d T)
    {request : Request}
    (hauth : ∀ r, request = .auth r → (lift (Auth.handle d.toPlatform r)).Keeps (exec d) T)
    (hflags : ∀ id flags, request.Flags id flags →
      (updateUserFlags d id flags).Keeps (exec d) T)
    (hcreate : ∀ user : NewUser, request.Inserts user.role →
      (createUser d user).Keeps (exec d) T)
    (hwrites : ∀ op, request.Writes d op → op.KeptBy d T) :
    (handle d request).Keeps (exec d) T := by
  have hmap : ∀ {h : Handler Reply}, h.Keeps (exec d) T → (h.map some).Keeps (exec d) T := by
    intro h hh ω s
    rw [run_map]
    exact hh ω s
  cases request with
  | auth request =>
      intro ω s
      show T s (((lift (Auth.handle d.toPlatform request)).map _).run (exec d) ω s).2
      rw [run_map]
      exact hauth request rfl ω s
  | register headers payload =>
      exact hmap (register_keeps hT payload hcreate fun u token expiresAt => hwrites _ trivial)
  | resetPassword headers token newPassword =>
      exact hmap (resetPassword_keeps hT _ _ fun key hash => hwrites _ trivial)
  | approveUser headers id => exact hmap (approveUser_keeps hT (hflags _ _ ⟨rfl, rfl⟩))
  | rejectUser headers id =>
      exact hmap (rejectUser_keeps hT (deleteUser_keeps hT fun key hkey => hwrites _ hkey))
  | quickApprove headers token =>
      exact hmap (quickApprove_keeps hT token fun claims htoken =>
        hflags _ _ ⟨⟨claims, htoken, rfl⟩, rfl⟩)
  | quickReject headers token =>
      exact hmap (quickReject_keeps hT token fun claims htoken =>
        deleteUser_keeps hT fun key hkey => hwrites _ ⟨claims, htoken, hkey⟩)
  | banUser headers id reason => exact hmap (banUser_keeps hT reason (hflags _ _ ⟨rfl, rfl⟩))
  | unbanUser headers id => exact hmap (unbanUser_keeps hT (hflags _ _ ⟨rfl, rfl⟩))
  | changeRole headers id role =>
      exact hmap (changeRole_keeps hT role (hflags _ _ ⟨rfl, rfl⟩))
  | deleteUser headers id =>
      exact hmap (deleteUserRoute_keeps hT (softDeleteUser_keeps hT fun key hkey => hwrites _ hkey))
  | createUser headers payload => exact hmap (createUserRoute_keeps hT payload hcreate)
  | updateUser headers id payload =>
      exact hmap (updateUserRoute_keeps hT payload fun key _ _ _ _ _ hkey => hwrites _ hkey)
  | review headers candidateId payload decision =>
      exact hmap (review_keeps hT _ _ _ fun entry hbearer => hwrites _ hbearer)
  | createCandidate headers payload => exact hmap (createCandidateRoute_keeps hT payload)
  | uploadReferencePhoto headers candidateId image =>
      exact hmap (uploadReferencePhoto_keeps hT _ _)
  | revokeTemplate headers candidateId templateId =>
      exact hmap (revokeTemplateRoute_keeps hT _ _)
  | createSearch headers form =>
      exact hmap (createSearch_keeps hT form fun id search hbearer => hwrites _ hbearer)

end AnatoliaBis.App
