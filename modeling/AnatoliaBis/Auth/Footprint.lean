import AnatoliaBis.Auth.Routes

/-! # What each request can do

A handler reaches the store only through its operations, so what it leaves alone
can be read off the operations it performs. `Request.Footprint` lists, for every
request, the operations beyond the harmless ones (`Call.Quiet`) and whose rows
they name; `handle_performs` proves the list complete.
-/

namespace AnatoliaBis.Auth

open Atomic Program

/-! ## Classes of operations -/

namespace Call

/-- Operations that neither change a session, nor enable, spend, replace or
remove anything of a second factor, nor touch the limit on codes. -/
def Quiet : Call → Prop
  | .rateCheck key _ _ => ∀ u, key ≠ mfaVerifyKey u
  | .compareCode _ => False
  | .db q =>
      match q with
      | .upsertPendingMfaCredential .. | .upsertPendingEmailMfaCredential ..
      | .enableEmailMfaCredential .. | .consumeEmailMfaCode .. | .enableMfaCredential ..
      | .deleteMfaCredential _ | .consumeRecoveryCode .. | .insertSession .. | .rotateSession ..
      | .revokeSession _ | .revokeSessionFamily _ | .revokeAllSessionsForUser _
      | .revokeSessionOwnedByUser .. | .purgeExpiredSessions => False
      | _ => True
  | _ => True

/-- Starting `u`'s enrollment afresh. -/
def Upserts (u : Uuid) : Call → Prop
  | .db (.upsertPendingMfaCredential v _) => v = u
  | .db (.upsertPendingEmailMfaCredential v _ _) => v = u
  | _ => False

/-- Confirming `u`'s pending credential. -/
def Confirms (u : Uuid) : Call → Prop
  | .compareCode v => v = u
  | .db (.enableEmailMfaCredential v _) => v = u
  | .db (.enableMfaCredential v _) => v = u
  | _ => False

/-- Spending a code of `u`. -/
def Spends (u : Uuid) : Call → Prop
  | .db (.consumeEmailMfaCode v _) => v = u
  | .db (.consumeRecoveryCode v _) => v = u
  | _ => False

/-- Verifying a code of `u`. -/
def Verifies (u : Uuid) (op : Call) : Prop := op = .compareCode u ∨ op.Spends u

/-- Removing `u`'s credential. -/
def Deletes (u : Uuid) : Call → Prop
  | .db (.deleteMfaCredential v) => v = u
  | _ => False

/-- Storing a new session of `u`. -/
def Issues (u : Uuid) : Call → Prop
  | .db (.insertSession _ v _ _ _ _ _ _) => v = u
  | _ => False

/-- Counting an attempt at `u`'s second factor. -/
def Charges (u : Uuid) (op : Call) : Prop := op = .rateCheck (mfaVerifyKey u) 8 quarterHour

/-- Rotating or revoking existing sessions. -/
def Rotates : Call → Prop
  | .db (.rotateSession ..) | .db (.revokeSession _) | .db (.revokeSessionFamily _)
  | .db (.revokeAllSessionsForUser _) | .db (.revokeSessionOwnedByUser ..)
  | .db .purgeExpiredSessions => True
  | _ => False

end Call

section Call

variable {u : Uuid}

/-- Only one statement stores sessions. -/
theorem Call.Issues.eq_insertSession {op : Call} (h : op.Issues u) :
    ∃ id hash family expiresAt agent ip createdBy,
      op = .db (.insertSession id u hash family expiresAt agent ip createdBy) := by
  cases op with
  | db q =>
      cases q with
      | insertSession id v hash family expiresAt agent ip createdBy =>
          have hv : v = u := h
          subst hv
          exact ⟨id, hash, family, expiresAt, agent, ip, createdBy, rfl⟩
      | _ => cases h
  | _ => cases h

theorem Call.Issues.eq {op : Call} {v : Uuid} (h : op.Issues u) (h' : op.Issues v) : u = v := by
  rcases h.eq_insertSession with ⟨_, _, _, _, _, _, _, rfl⟩
  exact h'

theorem Call.Quiet.not_issues {op : Call} (h : op.Quiet) : ¬ op.Issues u := by
  intro hu
  rcases hu.eq_insertSession with ⟨_, _, _, _, _, _, _, rfl⟩
  exact h

theorem Call.Verifies.not_issues {op : Call} {v : Uuid} (h : op.Verifies v) :
    ¬ op.Issues u := by
  intro hu
  rcases hu.eq_insertSession with ⟨_, _, _, _, _, _, _, rfl⟩
  rcases h with h | h
  · cases h
  · exact h

theorem Call.Confirms.not_issues {op : Call} {v : Uuid} (h : op.Confirms v) :
    ¬ op.Issues u := by
  intro hu
  rcases hu.eq_insertSession with ⟨_, _, _, _, _, _, _, rfl⟩
  exact h

theorem Call.Quiet.not_rotates {op : Call} (h : op.Quiet) : ¬ op.Rotates := by
  cases op with
  | db q => cases q <;> simp_all [Call.Quiet, Call.Rotates]
  | _ => exact id

theorem Call.Verifies.not_rotates {op : Call} (h : op.Verifies u) : ¬ op.Rotates := by
  rcases h with rfl | h
  · exact id
  · cases op with
    | db q => cases q <;> simp_all [Call.Spends, Call.Rotates]
    | _ => exact id

theorem Call.Confirms.not_rotates {op : Call} (h : op.Confirms u) : ¬ op.Rotates := by
  cases op with
  | db q => cases q <;> simp_all [Call.Confirms, Call.Rotates]
  | _ => exact id

theorem Call.Upserts.not_issues {op : Call} {v : Uuid} (h : op.Upserts v) : ¬ op.Issues u := by
  intro hu
  rcases hu.eq_insertSession with ⟨_, _, _, _, _, _, _, rfl⟩
  exact h

theorem Call.Deletes.not_issues {op : Call} {v : Uuid} (h : op.Deletes v) : ¬ op.Issues u := by
  intro hu
  rcases hu.eq_insertSession with ⟨_, _, _, _, _, _, _, rfl⟩
  exact h

theorem Call.Upserts.not_rotates {op : Call} (h : op.Upserts u) : ¬ op.Rotates := by
  cases op with
  | db q => cases q <;> simp_all [Call.Upserts, Call.Rotates]
  | _ => exact id

theorem Call.Deletes.not_rotates {op : Call} (h : op.Deletes u) : ¬ op.Rotates := by
  cases op with
  | db q => cases q <;> simp_all [Call.Deletes, Call.Rotates]
  | _ => exact id

end Call

/-! ## Whom a request is about -/

/-- The user a bearer token names, live or not. -/
def Headers.bearer (headers : Headers) : Option Uuid :=
  match headers.authorization with
  | some (.access c) => some c.id
  | _ => none

/-- The user a challenge token of the given purpose names, live or not. -/
def Token.subject (purpose : Purpose) : Token → Option Uuid
  | .challenge c => if c.purpose = purpose then some c.userId else none
  | _ => none

/-- The operations a request can perform. -/
def Request.Footprint (r : Request) (op : Call) : Prop :=
  op.Quiet ∨
    match r with
    | .login .. => ∃ u, op.Issues u
    | .enroll headers _ => ∃ u ∈ headers.bearer, op.Upserts u
    | .enrollConfirm headers _ => ∃ u ∈ headers.bearer, op.Confirms u
    | .challengeEnroll _ token _ => ∃ u ∈ token.subject .enrollment, op.Upserts u
    | .challengeEnrollConfirm _ token _ =>
        ∃ u ∈ token.subject .enrollment, op.Confirms u ∨ op.Issues u
    | .challengeVerify _ token _ =>
        ∃ u ∈ token.subject .login, op.Charges u ∨ op.Verifies u ∨ op.Issues u
    | .disable headers _ _ => ∃ u ∈ headers.bearer, op.Verifies u ∨ op.Deletes u
    | .mfaResetRoute .. => ∃ u, op.Deletes u
    | .refresh _ | .logout _ | .logoutAll _ | .revokeOwnSession .. | .purgeExpiredAuthRecords =>
        op.Rotates
    | .enrollResend _ | .challengeEnrollResend .. | .challengeRequestCode .. => False

/-! ## Keys of the rate limiter -/

/-- Texts that differ within a common prefix length differ however they go on. -/
theorem append_ne_append {a b : String} (n : Nat) (ha : n ≤ a.toList.length)
    (hb : n ≤ b.toList.length) (h : a.toList.take n ≠ b.toList.take n) (s t : String) :
    a ++ s ≠ b ++ t := by
  intro heq
  apply h
  have htake := congrArg (fun x => x.toList.take n) heq
  simpa [String.toList_append, List.take_append_of_le_length, ha, hb] using htake

theorem mfaEmailResendKey_ne (u v : Uuid) : mfaEmailResendKey u ≠ mfaVerifyKey v :=
  append_ne_append 5 (by decide) (by decide) (by decide) _ _

/-- The keys a login counts under are not those of second factors. -/
theorem loginLimits_key_ne {p : Platform} (headers : Headers) (userCode : String) :
    ∀ l ∈ loginLimits p headers userCode, ∀ u, l.1 ≠ mfaVerifyKey u := by
  intro l hl u
  unfold loginLimits at hl
  rcases List.mem_cons.mp hl with rfl | hl
  · exact append_ne_append 5 (by decide) (by decide) (by decide) _ _
  · split at hl
    · cases hl
    · rcases List.mem_cons.mp hl with rfl | hl
      · exact append_ne_append 5 (by decide) (by decide) (by decide) _ _
      · rcases List.mem_singleton.mp hl with rfl
        exact append_ne_append 5 (by decide) (by decide) (by decide) _ _

/-! ## What the shared parts perform -/

section Parts

variable {p : Platform}

/-- A statement in front of a handler. -/
theorem performs_query {α : Type} {P : Call → Prop} {R : α → Prop} {q : Query}
    {f : Except DbError q.Res → Handler α} (hq : P (.db q))
    (hf : ∀ e s, (f (exec p (.db q) e s).2).Performs (exec p) P R) :
    (query q >>= f).Performs (exec p) P R := ⟨hq, hf⟩

theorem query_performs {P : Call → Prop} {q : Query} (hq : P (.db q)) :
    (query q).Performs (exec p) P fun _ => True := ⟨hq, fun _ _ => trivial⟩

/-- Any other operation in front of a handler. -/
theorem performs_perform {α : Type} {P : Call → Prop} {R : α → Prop} {op : Call}
    {f : op.Res → Handler α} (hop : P op)
    (hf : ∀ e s, (f (exec p op e s).2).Performs (exec p) P R) :
    (perform op >>= f).Performs (exec p) P R := ⟨hop, hf⟩

theorem resolveOrganizationId_performs (r : Audit.AuditRecorder) :
    (resolveOrganizationId p r).Performs (exec p) Call.Quiet fun _ => True := by
  unfold resolveOrganizationId
  split
  · trivial
  · refine performs_query trivial fun e s => ?_
    split <;> trivial

theorem save_performs (r : Audit.AuditRecorder) :
    (save p r).Performs (exec p) Call.Quiet fun _ => True :=
  (resolveOrganizationId_performs r).bind fun _ _ =>
    (query_performs trivial).bind fun _ _ => trivial

theorem saveMandatory_performs (r : Audit.AuditRecorder) :
    (saveMandatory p r).Performs (exec p) Call.Quiet fun _ => True := by
  refine (resolveOrganizationId_performs r).bind fun _ _ => performs_query trivial fun e s => ?_
  split <;> trivial

theorem authUserFromHeaders_performs (headers : Headers) :
    (authUserFromHeaders headers).Performs (exec p) Call.Quiet fun claims =>
      ∀ c ∈ claims, headers.bearer = some c.id := by
  unfold authUserFromHeaders
  split
  next => simp
  next token htoken =>
    refine performs_perform trivial fun e s c hc => ?_
    simp [Headers.bearer, htoken, (Token.accessClaims_eq_some.mp hc).1]

theorem decodeChallengeToken_performs (token : Token) (purpose : Purpose) :
    (decodeChallengeToken token purpose).Performs (exec p) Call.Quiet fun user =>
      ∀ u ∈ user, token.subject purpose = some u := by
  refine performs_perform trivial fun e s u hu => ?_
  rcases Token.challengeUser_eq_some.mp hu with ⟨exp, rfl, -⟩
  simp [Token.subject]

/-- Whoever is found by an identifier has it. -/
theorem exec_loadUserById {userId : Uuid} {e : Env} {s : Server} {user : UserRow}
    (h : (exec p (.db (.loadUserById (.uuid userId))) e s).2 = .ok (some user)) :
    user.id = userId := by
  simp only [exec] at h
  split_ifs at h
  simp only [Query.perform, Except.ok.injEq] at h
  have hfound := List.find?_some h
  simp only [Key.isId, Bool.and_eq_true, beq_iff_eq] at hfound
  exact hfound.1

theorem loadUser_performs (userId : Uuid) :
    (loadUser userId).Performs (exec p) Call.Quiet fun user => ∀ x ∈ user, x.id = userId := by
  refine performs_query trivial fun e s => ?_
  cases hr : (exec p (.db (.loadUserById (.uuid userId))) e s).2 with
  | error err => simp
  | ok user =>
      intro x hx
      have hx' : user = some x := hx
      exact exec_loadUserById (hr.trans (by rw [hx']))

theorem loadUserOrUnauthorized_performs (userId : Uuid) :
    (loadUserOrUnauthorized userId).Performs (exec p) Call.Quiet fun user =>
      ∀ x ∈ user, x.id = userId := by
  refine (loadUser_performs userId).bind fun user huser => ?_
  intro x hx
  exact huser x (Option.filter_eq_some_iff.mp hx).1

theorem createSession_performs (userId : Uuid) (hash : String) (family : Uuid)
    (expiresAt : Timestamp) (userAgent ipAddress : Option String) (createdBy : String) :
    (createSession p userId hash family expiresAt userAgent ipAddress createdBy).Performs (exec p)
      (fun op => op.Quiet ∨ op.Issues userId) fun _ => True := by
  refine performs_perform (Or.inl trivial) fun e s => performs_query (Or.inr rfl) fun e s => ?_
  split
  · trivial
  · split
    · trivial
    · refine performs_query (Or.inl trivial) fun e s => ?_
      split <;> trivial

theorem issueSession_performs (user : UserRow) (headers : Headers) :
    (issueSession p user headers).Performs (exec p) (fun op => op.Quiet ∨ op.Issues user.id)
    fun _ => True := by
  refine performs_perform (Or.inl trivial) fun e s => performs_perform (Or.inl trivial) fun e s =>
    performs_perform (Or.inl trivial) fun e s => ?_
  refine (createSession_performs ..).bind fun r _ => ?_
  split
  · trivial
  · exact performs_perform (Or.inl trivial) fun e s => trivial

theorem completeLogin_performs (user : UserRow) (headers : Headers)
    (codes : Option (List String)) :
    (completeLogin p user headers codes).Performs (exec p)
      (fun op => op.Quiet ∨ op.Issues user.id) fun _ => True := by
  have finish : ∀ pair, (completeLogin.finish p user headers codes pair).Performs (exec p)
      (fun op => op.Quiet ∨ op.Issues user.id) fun _ => True := fun pair =>
    (save_performs _).inl.bind fun _ _ => trivial
  refine (issueSession_performs user headers).bind fun r _ => ?_
  split
  · exact finish _
  · -- the retry
    refine (issueSession_performs user headers).bind fun r _ => ?_
    split
    · exact finish _
    · trivial

theorem resendEmailCode_performs (userId : Uuid) (email : String) :
    (resendEmailCode p userId email).Performs (exec p) Call.Quiet fun _ => True := by
  refine performs_perform trivial fun e s => performs_perform trivial fun e s =>
    performs_query trivial fun e s => ?_
  split
  · trivial
  · split
    · exact performs_perform trivial fun e s => trivial
    · trivial

theorem resendTo_performs (headers : Headers) (userId : Uuid) (email : Option String) :
    (resendTo p headers userId email).Performs (exec p) Call.Quiet fun _ => True := by
  unfold resendTo
  split
  · trivial
  · refine performs_perform (mfaEmailResendKey_ne userId) fun e s => ?_
    split
    · refine (resendEmailCode_performs userId _).bind fun r _ => ?_
      split <;> trivial
    · trivial

theorem beginEnrollment_performs (userId : Uuid) (accountName method : String)
    (email : Option String) :
    (beginEnrollment p userId accountName method email).Performs (exec p)
      (fun op => op.Quiet ∨ op.Upserts userId) fun _ => True := by
  unfold beginEnrollment
  split
  · split
    · trivial
    · refine performs_perform (Or.inl trivial) fun e s => performs_perform (Or.inl trivial)
        fun e s => performs_query (Or.inr rfl) fun e s => ?_
      split
      · trivial
      · exact performs_perform (Or.inl trivial) fun e s => trivial
  · refine performs_perform (Or.inl trivial) fun e s => performs_query (Or.inr rfl) fun e s => ?_
    split
    · trivial
    · split <;> trivial

theorem insertRecoveryCodes_performs (userId : Uuid) (hashes : List String) :
    (insertRecoveryCodes userId hashes).Performs (exec p) Call.Quiet fun _ => True := by
  induction hashes with
  | nil => trivial
  | cons hash hashes ih =>
      refine performs_query trivial fun e s => ?_
      split
      · trivial
      · exact ih

theorem issueRecoveryCodes_performs (userId : Uuid) :
    (issueRecoveryCodes p userId).Performs (exec p) Call.Quiet
      fun r => r ≠ .ok .alreadyEnabled := by
  refine performs_perform trivial fun e s => ?_
  have hreplace : ∀ hashes, (replaceRecoveryCodes userId hashes).Performs (exec p) Call.Quiet
      fun _ => True := fun hashes => performs_query trivial fun e s => by
    split
    · trivial
    · exact insertRecoveryCodes_performs userId hashes
  refine (hreplace _).bind fun r _ => ?_
  split <;> simp

theorem totpCodeMatches_performs (secret accountName code : String) :
    (totpCodeMatches secret accountName code).Performs (exec p) Call.Quiet fun _ => True := by
  unfold totpCodeMatches
  split
  · trivial
  · exact ⟨trivial, fun _ _ => trivial⟩

theorem confirmEnrollment_performs (userId : Uuid) (accountName code : String) :
    (confirmEnrollment p userId accountName code).Performs (exec p)
      (fun op => op.Quiet ∨ op.Confirms userId) fun _ => True := by
  have henable : ∀ pending, (enablePending p userId accountName code pending).Performs (exec p)
      (fun op => op.Quiet ∨ op.Confirms userId) fun _ => True := by
    intro pending
    unfold enablePending
    split
    · refine performs_perform (Or.inr rfl) fun e s => performs_query (Or.inr rfl) fun e s => ?_
      split <;> trivial
    · split
      · refine performs_perform (Or.inr rfl) fun e s => ?_
        refine (totpCodeMatches_performs _ _ _).inl.bind fun ok _ => ?_
        split
        · refine performs_query (Or.inr rfl) fun e s => ?_
          split <;> trivial
        · trivial
      · trivial
  refine performs_query (Or.inl trivial) fun e s => ?_
  split
  · split
    · trivial
    · refine (henable _).bind fun r _ => ?_
      split
      · trivial
      · trivial
      · exact (issueRecoveryCodes_performs userId).mono (fun _ h => Or.inl h) fun _ _ => trivial
  · trivial

theorem verifyRecoveryCode_performs (userId : Uuid) (code : String) :
    (verifyRecoveryCode p userId code).Performs (exec p)
      (fun op => op.Quiet ∨ op.Spends userId) fun _ => True := by
  refine performs_query (Or.inr rfl) fun e s => ?_
  split
  · exact performs_query (Or.inl trivial) fun e s => trivial
  · trivial

theorem credentialTotpMatches_performs (secret accountName code : String) :
    (credentialTotpMatches p secret accountName code).Performs (exec p) Call.Quiet
      fun _ => True := by
  unfold credentialTotpMatches
  split
  · exact totpCodeMatches_performs _ _ _
  · trivial

theorem verifyCredential_performs (userId : Uuid) (accountName code : String) :
    (verifyCredential p userId accountName code).Performs (exec p)
      (fun op => op.Quiet ∨ op.Spends userId) fun _ => True := by
  refine performs_query (Or.inl trivial) fun e s => ?_
  split
  · trivial
  · split
    · refine performs_query (Or.inr rfl) fun e s => ?_
      split
      · trivial
      · exact (verifyRecoveryCode_performs userId code).bind fun _ _ => trivial
    · refine (credentialTotpMatches_performs _ _ _).inl.bind fun ok _ => ?_
      split
      · exact performs_query (Or.inl trivial) fun e s => trivial
      · exact (verifyRecoveryCode_performs userId code).bind fun _ _ => trivial

theorem verifyCode_performs (userId : Uuid) (accountName code : String) :
    (verifyCode p userId accountName code).Performs (exec p)
      (fun op => op.Quiet ∨ op.Verifies userId) fun _ => True :=
  performs_perform (Or.inr (Or.inl rfl)) fun _ _ =>
    (verifyCredential_performs userId accountName code).weaken
      fun _ h => h.imp_right fun h => Or.inr h

theorem deleteMfaCredential_performs (userId : Uuid) :
    (deleteMfaCredential userId).Performs (exec p) (fun op => op.Quiet ∨ op.Deletes userId)
    fun _ => True := by
  refine performs_query (Or.inr rfl) fun e s => ?_
  split
  · trivial
  · exact query_performs (q := .deleteRecoveryCodes userId) (Or.inl trivial)

end Parts

/-! ## What the handlers perform -/

section Handlers

variable {p : Platform} (headers : Headers)

/-- The common beginning of the routes behind a bearer token. -/
theorem performs_authUser {α : Type} {P : Call → Prop} {R : α → Prop}
    {f : Option Claims → Handler α} (hnone : (f none).Performs (exec p) P R)
    (hquiet : ∀ op, op.Quiet → P op)
    (hsome : ∀ claims, headers.bearer = some claims.id →
      (f (some claims)).Performs (exec p) P R) :
    (authUserFromHeaders headers >>= f).Performs (exec p) P R := by
  refine ((authUserFromHeaders_performs headers).mono hquiet fun _ h => h).bind fun claims h => ?_
  cases claims with
  | none => exact hnone
  | some claims => exact hsome claims (h claims rfl)

/-- The common beginning of the routes behind a challenge token. -/
theorem performs_challenge {α : Type} {P : Call → Prop} {R : α → Prop} {token : Token}
    {purpose : Purpose} {f : Option Uuid → Handler α} (hnone : (f none).Performs (exec p) P R)
    (hquiet : ∀ op, op.Quiet → P op)
    (hsome : ∀ u, token.subject purpose = some u → (f (some u)).Performs (exec p) P R) :
    (decodeChallengeToken token purpose >>= f).Performs (exec p) P R := by
  refine ((decodeChallengeToken_performs token purpose).mono hquiet fun _ h => h).bind
    fun user h => ?_
  cases user with
  | none => exact hnone
  | some u => exact hsome u (h u rfl)

/-- The look-up that follows: the user found is the one asked for. -/
theorem performs_loadUser {α : Type} {P : Call → Prop} {R : α → Prop} {userId : Uuid}
    {f : Option UserRow → Handler α} (hnone : (f none).Performs (exec p) P R)
    (hquiet : ∀ op, op.Quiet → P op)
    (hsome : ∀ user : UserRow, user.id = userId → (f (some user)).Performs (exec p) P R) :
    (loadUser userId >>= f).Performs (exec p) P R := by
  refine ((loadUser_performs userId).mono hquiet fun _ h => h).bind fun user h => ?_
  cases user with
  | none => exact hnone
  | some user => exact hsome user (h user rfl)

theorem performs_loadUserOrUnauthorized {α : Type} {P : Call → Prop} {R : α → Prop}
    {userId : Uuid} {f : Option UserRow → Handler α} (hnone : (f none).Performs (exec p) P R)
    (hquiet : ∀ op, op.Quiet → P op)
    (hsome : ∀ user : UserRow, user.id = userId → (f (some user)).Performs (exec p) P R) :
    (loadUserOrUnauthorized userId >>= f).Performs (exec p) P R := by
  refine ((loadUserOrUnauthorized_performs userId).mono hquiet fun _ h => h).bind
    fun user h => ?_
  cases user with
  | none => exact hnone
  | some user => exact hsome user (h user rfl)

theorem enroll_performs (method : Option String) :
    (enroll p headers method).Performs (exec p)
      (fun op => op.Quiet ∨ ∃ u ∈ headers.bearer, op.Upserts u) fun _ => True := by
  refine performs_authUser headers trivial (fun _ h => Or.inl h) fun claims hclaims =>
    performs_loadUser trivial (fun _ h => Or.inl h) fun user _ => ?_
  exact ((beginEnrollment_performs claims.id claims.userCode _ user.email).weaken
    fun op h => h.imp_right fun h => ⟨claims.id, hclaims, h⟩).bind fun _ _ => trivial

theorem enrollResend_performs :
    (enrollResend p headers).Performs (exec p) Call.Quiet fun _ => True :=
  performs_authUser headers trivial (fun _ h => h) fun claims _ =>
    performs_loadUser trivial (fun _ h => h) fun _ _ =>
      resendTo_performs headers claims.id _

theorem enrollConfirm_performs (code : String) :
    (enrollConfirm p headers code).Performs (exec p)
      (fun op => op.Quiet ∨ ∃ u ∈ headers.bearer, op.Confirms u) fun _ => True := by
  refine performs_authUser headers trivial (fun _ h => Or.inl h) fun claims hclaims => ?_
  refine ((confirmEnrollment_performs claims.id claims.userCode code).weaken
        fun op h => h.imp_right fun h => ⟨claims.id, hclaims, h⟩).bind fun r _ => ?_
  split
  · trivial
  · trivial
  · refine (saveMandatory_performs _).inl.bind fun r _ => ?_
    split <;> trivial

theorem challengeEnroll_performs (token : Token) (method : Option String) :
    (challengeEnroll p headers token method).Performs (exec p)
      (fun op => op.Quiet ∨ ∃ u ∈ token.subject .enrollment, op.Upserts u) fun _ => True := by
  refine performs_challenge trivial (fun _ h => Or.inl h) fun u hu =>
    performs_loadUserOrUnauthorized trivial (fun _ h => Or.inl h) fun user huser => ?_
  exact ((beginEnrollment_performs user.id user.userCode _ user.email).weaken
    fun op h => h.imp_right fun h => ⟨u, hu, huser ▸ h⟩).bind fun _ _ => trivial

theorem challengeEnrollResend_performs (token : Token) :
    (challengeEnrollResend p headers token).Performs (exec p) Call.Quiet fun _ => True :=
  performs_challenge trivial (fun _ h => h) fun _ _ =>
    performs_loadUserOrUnauthorized trivial (fun _ h => h) fun user _ =>
      resendTo_performs headers user.id _

theorem challengeRequestCode_performs (token : Token) :
    (challengeRequestCode p headers token).Performs (exec p) Call.Quiet fun _ => True := by
  refine performs_challenge trivial (fun _ h => h) fun _ _ =>
    performs_loadUserOrUnauthorized trivial (fun _ h => h) fun user _ =>
      performs_query trivial fun e s => ?_
  split
  · exact resendTo_performs headers user.id _
  · trivial

theorem finishEnrollment_performs (user : UserRow) (outcome : Except ApiError ConfirmOutcome) :
    (finishEnrollment p headers user outcome).Performs (exec p)
      (fun op => op.Quiet ∨ op.Issues user.id) fun _ => True := by
  unfold finishEnrollment
  split
  · trivial
  · exact completeLogin_performs user headers _
  · refine (saveMandatory_performs _).inl.bind fun r _ => ?_
    split
    · trivial
    · exact completeLogin_performs user headers _

theorem challengeEnrollConfirm_performs (token : Token) (code : String) :
    (challengeEnrollConfirm p headers token code).Performs (exec p)
      (fun op => op.Quiet ∨ ∃ u ∈ token.subject .enrollment, op.Confirms u ∨ op.Issues u)
      fun _ => True := by
  refine performs_challenge trivial (fun _ h => Or.inl h) fun u hu =>
    performs_loadUserOrUnauthorized trivial (fun _ h => Or.inl h) fun user huser => ?_
  subst huser
  refine ((confirmEnrollment_performs user.id user.userCode code).weaken
    fun op h => h.imp_right fun h => ⟨user.id, hu, Or.inl h⟩).bind fun r _ => ?_
  exact (finishEnrollment_performs headers user r).weaken
    fun op h => h.imp_right fun h => ⟨user.id, hu, Or.inr h⟩

theorem finishVerification_performs (user : UserRow) (outcome : Except ApiError VerifyOutcome) :
    (finishVerification p headers user outcome).Performs (exec p)
      (fun op => op.Quiet ∨ op.Issues user.id) fun _ => True := by
  have hsave : ∀ r, (save p r).Performs (exec p) (fun op => op.Quiet ∨ op.Issues user.id)
      fun _ => True := fun r => (save_performs r).inl
  unfold finishVerification
  split
  · exact completeLogin_performs user headers none
  · exact (hsave _).bind fun _ _ => completeLogin_performs user headers none
  · exact (hsave _).bind fun _ _ => trivial

theorem challengeVerify_performs (token : Token) (code : String) :
    (challengeVerify p headers token code).Performs (exec p)
      (fun op => op.Quiet ∨
        ∃ u ∈ token.subject .login, op.Charges u ∨ op.Verifies u ∨ op.Issues u) fun _ => True := by
  refine performs_challenge trivial (fun _ h => Or.inl h) fun u hu =>
    performs_loadUserOrUnauthorized trivial (fun _ h => Or.inl h) fun user huser => ?_
  subst huser
  refine performs_perform (Or.inr ⟨user.id, hu, Or.inl rfl⟩) fun e s => ?_
  split
  · refine ((verifyCode_performs user.id user.userCode code).weaken
        fun op h => h.imp_right fun h => ⟨user.id, hu, Or.inr (Or.inl h)⟩).bind
      fun outcome _ => ?_
    exact (finishVerification_performs headers user outcome).weaken
        fun op h => h.imp_right fun h => ⟨user.id, hu, Or.inr (Or.inr h)⟩
  · trivial

theorem disable_performs (password code : String) :
    (disable p headers password code).Performs (exec p)
      (fun op => op.Quiet ∨ ∃ u ∈ headers.bearer, op.Verifies u ∨ op.Deletes u) fun _ => True := by
  refine performs_authUser headers trivial (fun _ h => Or.inl h) fun claims hclaims =>
    performs_loadUser trivial (fun _ h => Or.inl h) fun user _ => ?_
  have hremove : (removeOwnCredential p headers claims).Performs (exec p)
      (fun op => op.Quiet ∨ ∃ u ∈ headers.bearer, op.Verifies u ∨ op.Deletes u) fun _ => True := by
    refine ((deleteMfaCredential_performs claims.id).weaken
        fun op h => h.imp_right fun h => ⟨claims.id, hclaims, Or.inr h⟩).bind fun r _ => ?_
    split
    · trivial
    · refine (saveMandatory_performs _).inl.bind fun r _ => ?_
      split <;> trivial
  dsimp only
  split
  · refine ((verifyCode_performs claims.id claims.userCode code).weaken
        fun op h => h.imp_right fun h => ⟨claims.id, hclaims, Or.inl h⟩).bind
      fun outcome _ => ?_
    split
    · exact hremove
    · exact hremove
    · trivial
  · trivial

theorem resetTarget_performs (target : UserRow) :
    (resetTarget p headers target).Performs (exec p)
      (fun op => op.Quiet ∨ op.Deletes target.id) fun _ => True := by
  refine (deleteMfaCredential_performs target.id).bind fun r _ => ?_
  split
  · trivial
  · refine (authUserFromHeaders_performs headers).inl.bind fun actor _ =>
      (saveMandatory_performs _).inl.bind fun r _ => ?_
    split <;> trivial

theorem mfaResetRoute_performs (id : String) :
    (mfaResetRoute p headers id).Performs (exec p) (fun op => op.Quiet ∨ ∃ u, op.Deletes u)
      fun _ => True := by
  refine (authUserFromHeaders_performs headers).inl.bind fun claims _ => ?_
  split
  · have hload : (loadTarget p id).Performs (exec p) Call.Quiet fun _ => True := by
      unfold loadTarget
      split
      · trivial
      · refine performs_query trivial fun e s => ?_
        split <;> trivial
    refine hload.inl.bind fun target _ => ?_
    split
    · trivial
    · exact (resetTarget_performs headers _).weaken
        fun op h => h.imp_right fun h => ⟨_, h⟩
  · trivial

theorem refuseLogin_performs (user : UserRow) (result reason : String) (err : ApiError) :
    (refuseLogin p headers user result reason err).Performs (exec p) Call.Quiet fun _ => True :=
  (save_performs _).bind fun _ _ => trivial

theorem openSession_performs (user : UserRow) :
    (openSession p headers user).Performs (exec p) (fun op => op.Quiet ∨ op.Issues user.id)
      fun _ => True := by
  refine (issueSession_performs user headers).bind fun r _ => ?_
  split
  · trivial
  · exact (save_performs _).inl.bind fun _ _ => trivial

theorem loginMfaOutcome_performs (user : UserRow) :
    (loginMfaOutcome p user).Performs (exec p) Call.Quiet fun _ => True := by
  refine performs_query trivial fun e s => ?_
  split
  · trivial
  · split <;> trivial

theorem sendLoginChallengeEmailCode_performs (user : UserRow) :
    (sendLoginChallengeEmailCode p user).Performs (exec p) Call.Quiet fun _ => True := by
  unfold sendLoginChallengeEmailCode
  split
  · trivial
  · exact (resendEmailCode_performs user.id _).bind fun _ _ => trivial

/-- The end of a login that hands out a challenge token. -/
theorem loginChallenge_performs (user : UserRow) {outcome : LoginMfaOutcome}
    (h : outcome ≠ .notRequired) :
    (loginUser.answer p headers user outcome).Performs (exec p) Call.Quiet fun _ => True := by
  cases outcome with
  | notRequired => exact absurd rfl h
  | enrollmentRequired => exact performs_perform trivial fun e s => trivial
  | challengeRequired method =>
      refine performs_perform trivial fun e s => ?_
      cases method with
      | totp => trivial
      | email => exact (sendLoginChallengeEmailCode_performs user).bind fun _ _ => trivial

theorem loginUser_performs (user : UserRow) :
    (loginUser p headers user).Performs (exec p) (fun op => op.Quiet ∨ op.Issues user.id)
      fun _ => True := by
  refine (loginMfaOutcome_performs user).inl.bind fun outcome _ => ?_
  by_cases h : outcome = .notRequired
  · subst h
    exact openSession_performs headers user
  · exact (loginChallenge_performs headers user h).inl

theorem checkLimits_performs {limits : List (String × Nat × Nat)}
    (h : ∀ l ∈ limits, ∀ u, l.1 ≠ mfaVerifyKey u) :
    (checkLimits limits).Performs (exec p) Call.Quiet fun _ => True := by
  induction limits with
  | nil => trivial
  | cons l limits ih =>
      refine performs_perform (h l (by simp)) fun e s => ?_
      split
      · exact ih fun l' hl' => h l' (by simp [hl'])
      · trivial

theorem login_performs (userCode password : String) :
    (login p headers userCode password).Performs (exec p)
      (fun op => op.Quiet ∨ ∃ u, op.Issues u) fun _ => True := by
  refine (checkLimits_performs (loginLimits_key_ne headers userCode)).inl.bind fun allowed _ => ?_
  split
  · refine performs_query (Or.inl trivial) fun e s => ?_
    split
    · trivial
    · exact (save_performs _).inl.bind fun _ _ => trivial
    · split
      · exact (refuseLogin_performs ..).inl
      · split
        · exact (refuseLogin_performs ..).inl
        · split
          · exact (refuseLogin_performs ..).inl
          · exact (loginUser_performs headers _).weaken
              fun op h => h.imp_right fun h => ⟨_, h⟩
  · trivial

theorem refresh_performs :
    (refresh p headers).Performs (exec p) (fun op => op.Quiet ∨ op.Rotates) fun _ => True := by
  have hsave : ∀ r, (save p r).Performs (exec p) (fun op => op.Quiet ∨ op.Rotates)
      fun _ => True := fun r => (save_performs r).inl
  unfold refresh
  split
  · trivial
  · refine performs_perform (Or.inl trivial) fun e s => ?_
    split
    · trivial
    · refine performs_query (Or.inl trivial) fun e s => ?_
      split
      · unfold refreshSession
        split
        · exact performs_query (Or.inr trivial) fun e s => (hsave _).bind fun _ _ => trivial
        · refine performs_perform (Or.inl trivial) fun e s => ?_
          split
          · exact performs_query (Or.inr trivial) fun e s => trivial
          · refine performs_query (Or.inl trivial) fun e s => ?_
            split
            · split
              · exact performs_query (Or.inr trivial) fun e s => (hsave _).bind fun _ _ => trivial
              · refine performs_perform (Or.inl trivial) fun e s =>
                  performs_perform (Or.inl trivial) fun e s =>
                  performs_query (Or.inr trivial) fun e s => ?_
                split
                · trivial
                · exact performs_perform (Or.inl trivial) fun e s =>
                    (hsave _).bind fun _ _ => trivial
            · trivial
      · trivial

theorem logout_performs :
    (logout p headers).Performs (exec p) (fun op => op.Quiet ∨ op.Rotates) fun _ => True := by
  unfold logout
  split
  · trivial
  · refine performs_perform (Or.inl trivial) fun e s => ?_
    split
    · trivial
    · refine performs_query (Or.inl trivial) fun e s => ?_
      split
      · exact performs_query (Or.inr trivial) fun e s =>
          (save_performs _).inl.bind fun _ _ => trivial
      · trivial

theorem logoutAll_performs :
    (logoutAll p headers).Performs (exec p) (fun op => op.Quiet ∨ op.Rotates) fun _ => True :=
  performs_authUser headers trivial (fun _ h => Or.inl h) fun _ _ =>
    performs_query (Or.inr trivial) fun _ _ =>
      (save_performs _).inl.bind fun _ _ => trivial

theorem revokeOwnSession_performs (sessionId : String) :
    (revokeOwnSession p headers sessionId).Performs (exec p)
      (fun op => op.Quiet ∨ op.Rotates) fun _ => True := by
  refine performs_authUser headers trivial (fun _ h => Or.inl h) fun claims _ => ?_
  have hrevoke : (revokeSessionOwnedByUser p sessionId claims.id).Performs (exec p)
      (fun op => op.Quiet ∨ op.Rotates) fun _ => True := by
    unfold revokeSessionOwnedByUser
    split
    · trivial
    · exact query_performs (q := .revokeSessionOwnedByUser _ claims.id) (Or.inr trivial)
  refine hrevoke.bind fun r _ => ?_
  split
  · exact (save_performs _).inl.bind fun _ _ => trivial
  · trivial
  · trivial

end Handlers

/-- **Every request stays within its footprint.** -/
theorem handle_performs (p : Platform) (r : Request) :
    (handle p r).Performs (exec p) r.Footprint fun _ => True := by
  cases r with
  | login headers userCode password =>
      exact (login_performs headers userCode password).map fun _ h => h
  | enroll headers method => exact (enroll_performs headers method).map fun _ h => h
  | enrollResend headers => exact (enrollResend_performs headers).inl.map fun _ h => h
  | enrollConfirm headers code => exact (enrollConfirm_performs headers code).map fun _ h => h
  | challengeEnroll headers token method =>
      exact (challengeEnroll_performs headers token method).map fun _ h => h
  | challengeEnrollResend headers token =>
      exact (challengeEnrollResend_performs headers token).inl.map fun _ h => h
  | challengeRequestCode headers token =>
      exact (challengeRequestCode_performs headers token).inl.map fun _ h => h
  | challengeEnrollConfirm headers token code =>
      exact (challengeEnrollConfirm_performs headers token code).map fun _ h => h
  | challengeVerify headers token code =>
      exact (challengeVerify_performs headers token code).map fun _ h => h
  | disable headers password code =>
      exact (disable_performs headers password code).map fun _ h => h
  | refresh headers => exact (refresh_performs headers).map fun _ h => h
  | logout headers => exact (logout_performs headers).map fun _ h => h
  | logoutAll headers => exact (logoutAll_performs headers).map fun _ h => h
  | revokeOwnSession headers sessionId =>
      exact (revokeOwnSession_performs headers sessionId).map fun _ h => h
  | mfaResetRoute headers id => exact (mfaResetRoute_performs headers id).map fun _ h => h
  | purgeExpiredAuthRecords =>
      exact (query_performs (q := .purgeExpiredSessions) (Or.inr trivial)).map fun _ h => h

end AnatoliaBis.Auth
