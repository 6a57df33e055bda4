import AnatoliaBis.Auth.Footprint

/-! # Whom a session is for

A session is handed out for an account in use that the request itself names, and its
access token carries the role of the account's row.
-/

namespace AnatoliaBis.Auth

open Atomic Program

/-- A session in the body is one of an account with `P`, in the role it has. -/
def Body.Vouched (P : UserRow → Prop) : Body → Prop
  | .session token _ _ =>
      ∃ claims user, token = .access claims ∧ P user ∧ claims.id = user.id ∧ claims.role = user.role
  | _ => True

/-- The request asks for a session of this account. -/
def Request.SignsIn (p : Platform) (user : UserRow) : Request → Prop
  | .login _ userCode password =>
      user.userCode = p.toUppercase (trim userCode) ∧
        p.bcryptVerify password user.passwordHash = true
  | .challengeEnrollConfirm _ mfaToken _ => mfaToken.subject .enrollment = some user.id
  | .challengeVerify _ mfaToken _ => mfaToken.subject .login = some user.id
  | .refresh headers =>
      ∃ claims, headers.refreshCookie = some (.refresh claims) ∧ claims.sub = user.id
  | _ => False

/-! ## Results over fixed accounts -/

section Rules

variable {p : Platform} {users : List UserRow} {α β : Type} {R : α → Prop} {S : β → Prop}

/-- No handler of authentication changes an account. -/
theorem run_users (h : Handler α) (ω : Nat → Env) (s : Server) :
    (h.run (exec p) ω s).2.users = s.users := by
  induction h generalizing ω s with
  | done a => rfl
  | call op next ih => exact (ih _ _ _).trans (exec_users op)

/-- Over a store with these accounts the result has `R`. -/
def Answers (p : Platform) (users : List UserRow) (R : α → Prop) (h : Handler α) : Prop :=
  ∀ ω s, s.users = users → R (h.run (exec p) ω s).1

theorem answers_done {a : α} (h : R a) : Answers p users R (.done a) := fun _ _ _ => h

theorem answers_bind {h : Handler α} {f : α → Handler β} (hh : Answers p users R h)
    (hf : ∀ a, R a → Answers p users S (f a)) : Answers p users S (h >>= f) := by
  intro ω s hs
  rw [run_bind]
  exact hf _ (hh ω s hs) _ _ ((run_users h ω s).trans hs)

/-- A part whose result does not matter. -/
theorem answers_after {h : Handler α} {f : α → Handler β} (hf : ∀ a, Answers p users S (f a)) :
    Answers p users S (h >>= f) :=
  answers_bind (R := fun _ => True) (fun _ _ _ => trivial) fun a _ => hf a

theorem answers_perform {op : Call} {f : op.Res → Handler β}
    (hf : ∀ r, Answers p users S (f r)) : Answers p users S (perform op >>= f) :=
  answers_after hf

theorem answers_query {q : Query} {f : Except DbError q.Res → Handler β}
    (hf : ∀ r, Answers p users S (f r)) : Answers p users S (query q >>= f) :=
  answers_after hf

theorem Answers.mono {R' : α → Prop} {h : Handler α} (hh : Answers p users R h)
    (hR : ∀ a, R a → R' a) : Answers p users R' h :=
  fun ω s hs => hR _ (hh ω s hs)

theorem answers_map {h : Handler α} {f : α → β} (hh : Answers p users (fun a => S (f a)) h) :
    Answers p users S (h.map f) := by
  intro ω s hs
  rw [run_map]
  exact hh ω s hs

theorem answers_of_performs {P : Call → Prop} {h : Handler α} (hh : h.Performs (exec p) P R) :
    Answers p users R h :=
  fun ω s _ => hh.run_result ω s

/-- An account in use. -/
def Current (users : List UserRow) (user : UserRow) : Prop := user ∈ users ∧ user.deletedAt.isNone

/-- An account in use that was approved. -/
def Admitted (users : List UserRow) (user : UserRow) : Prop :=
  Current users user ∧ user.isApproved = true

theorem current_of_find {cond : UserRow → Bool} {user : UserRow}
    (h : (users.find? fun row => cond row && row.deletedAt.isNone) = some user) :
    Current users user ∧ cond user = true := by
  have hcond := List.find?_some h
  simp only [Bool.and_eq_true] at hcond
  exact ⟨⟨List.mem_of_find?_eq_some h, hcond.2⟩, hcond.1⟩

/-- What a statement returns when it succeeds. -/
theorem query_answers (q : Query) :
    Answers p users (fun found => ∀ r, found = .ok r →
      ∃ now s, s.users = users ∧ r = (q.perform p now s).2) (query q) := by
  intro ω s hs r hr
  cases hf : (ω 0).fails with
  | true =>
      have hrun : ((query q).run (exec p) ω s).1 = .error .failed :=
        congrArg Prod.snd (exec_db_of_fails s hf)
      rw [hrun] at hr
      cases hr
  | false =>
      have hrun : ((query q).run (exec p) ω s).1 = .ok (q.perform p (ω 0).now s).2 :=
        congrArg Prod.snd (exec_db_of_succeeds s hf)
      rw [hrun] at hr
      exact ⟨(ω 0).now, s, hs, (Except.ok.inj hr).symm⟩

theorem loadUserByCode_answers (code : String) :
    Answers p users (fun found => ∀ user, found = .ok (some user) →
      Current users user ∧ user.userCode = code) (query (.loadUserByCode code)) := by
  refine (query_answers _).mono fun found hfound user huser => ?_
  rcases hfound _ huser with ⟨now, s, rfl, h⟩
  have hcurrent := current_of_find h.symm
  exact ⟨hcurrent.1, beq_iff_eq.mp hcurrent.2⟩

theorem loadUserById_answers (id : Uuid) :
    Answers p users (fun found => ∀ user, found = .ok (some user) →
      Current users user ∧ user.id = id) (query (.loadUserById (.uuid id))) := by
  refine (query_answers _).mono fun found hfound user huser => ?_
  rcases hfound _ huser with ⟨now, s, rfl, h⟩
  have hcurrent := current_of_find h.symm
  exact ⟨hcurrent.1, beq_iff_eq.mp hcurrent.2⟩

theorem loadUserOrUnauthorized_answers (id : Uuid) :
    Answers p users (fun found => ∀ user, found = some user →
      Admitted users user ∧ user.id = id) (loadUserOrUnauthorized id) := by
  refine answers_bind (R := fun found => ∀ user, found = some user →
    Current users user ∧ user.id = id) ?_ fun found hfound => answers_done fun user huser => ?_
  · refine answers_bind (loadUserById_answers id) fun found hfound => ?_
    split
    · exact answers_done fun user huser => hfound user (congrArg _ huser)
    · exact answers_done nofun
  · rcases Option.filter_eq_some_iff.mp huser with ⟨huser, hstanding⟩
    rw [Bool.and_eq_true] at hstanding
    exact ⟨⟨(hfound user huser).1, hstanding.2⟩, (hfound user huser).2⟩

end Rules

/-! ## The routes that open a session -/

section Routes

variable {p : Platform} {users : List UserRow} {headers : Headers} {P : UserRow → Prop}

/-- The access token of a session is the account's. -/
theorem issueSession_answers (user : UserRow) :
    Answers p users (fun issued => ∀ pair, issued = .ok pair →
      ∃ claims, pair.1 = .access claims ∧ claims.id = user.id ∧ claims.role = user.role)
      (issueSession p user headers) := by
  refine answers_perform fun family => answers_perform fun now => answers_after fun refreshToken =>
    answers_after fun created => ?_
  split
  · exact answers_done nofun
  · refine answers_perform fun now => answers_done ?_
    rintro _ ⟨⟩
    exact ⟨_, rfl, rfl, rfl⟩

theorem respond_vouched (err : ApiError) : (err.respond headers).body.Vouched P := trivial

theorem completeLogin_vouched {user : UserRow} (h : P user) (codes : Option (List String)) :
    Answers p users (fun r => r.body.Vouched P) (completeLogin p user headers codes) := by
  have hfinish : ∀ pair : Token × Token,
      (∃ claims, pair.1 = .access claims ∧ claims.id = user.id ∧ claims.role = user.role) →
      Answers p users (fun r => r.body.Vouched P)
        (completeLogin.finish p user headers codes pair) := by
    rintro pair ⟨claims, hpair, hid, hrole⟩
    exact answers_after fun _ => answers_done ⟨claims, user, hpair, h, hid, hrole⟩
  refine answers_bind (issueSession_answers user) fun issued hissued => ?_
  split
  · exact hfinish _ (hissued _ rfl)
  · refine answers_bind (issueSession_answers user) fun issued hissued => ?_
    split
    · exact hfinish _ (hissued _ rfl)
    · exact answers_done (respond_vouched _)

theorem openSession_vouched {user : UserRow} (h : P user) :
    Answers p users (fun r => r.body.Vouched P) (openSession p headers user) := by
  refine answers_bind (issueSession_answers user) fun issued hissued => ?_
  split
  · exact answers_done (respond_vouched _)
  next pair =>
    rcases hissued pair rfl with ⟨claims, hpair, hid, hrole⟩
    exact answers_after fun _ => answers_done ⟨claims, user, hpair, h, hid, hrole⟩

theorem refuseLogin_vouched (user : UserRow) (result reason : String) (err : ApiError) :
    Answers p users (fun r => r.body.Vouched P)
      (refuseLogin p headers user result reason err) :=
  answers_after fun _ => answers_done (respond_vouched _)

theorem loginUser_vouched {user : UserRow} (h : P user) :
    Answers p users (fun r => r.body.Vouched P) (loginUser p headers user) := by
  refine answers_after fun outcome => ?_
  unfold loginUser.answer
  split
  · exact openSession_vouched h
  · refine answers_after fun token => ?_
    split
    · exact answers_done trivial
    · exact answers_after fun _ => answers_done trivial
  · exact answers_after fun token => answers_done trivial

theorem login_vouched (userCode password : String) :
    Answers p users (fun r => r.body.Vouched fun user => Admitted users user ∧
      user.userCode = p.toUppercase (trim userCode) ∧
        p.bcryptVerify password user.passwordHash = true) (login p headers userCode password) := by
  refine answers_after fun allowed => ?_
  split_ifs
  · refine answers_bind (loadUserByCode_answers _) fun found hfound => ?_
    split
    · exact answers_done (respond_vouched _)
    · exact answers_after fun _ => answers_done (respond_vouched _)
    next user =>
      have huser := hfound user rfl
      split_ifs with hpassword hbanned happroved
      · exact refuseLogin_vouched _ _ _ _
      · exact refuseLogin_vouched _ _ _ _
      · exact refuseLogin_vouched _ _ _ _
      · refine loginUser_vouched ⟨⟨huser.1, ?_⟩, huser.2, ?_⟩
        · simpa using happroved
        · simpa using hpassword
  · exact answers_done (respond_vouched _)

theorem rotateTokens_vouched {claims : RefreshClaims} {session : SessionRow} {user : UserRow}
    (h : P user) :
    Answers p users (fun r => r.body.Vouched P) (rotateTokens p headers claims session user) := by
  refine answers_perform fun now => answers_after fun token => answers_query fun rotated => ?_
  split
  · exact answers_done trivial
  · refine answers_perform fun now => answers_after fun _ => answers_done ?_
    exact ⟨_, user, rfl, h, rfl, rfl⟩

theorem refresh_vouched :
    Answers p users (fun r => r.body.Vouched fun user => Admitted users user ∧
      ∃ claims, headers.refreshCookie = some (.refresh claims) ∧ claims.sub = user.id)
      (refresh p headers) := by
  unfold refresh
  split
  · exact answers_done trivial
  next token htoken =>
    refine answers_perform fun now => ?_
    split
    · exact answers_done trivial
    next claims hclaims =>
      have hcookie : headers.refreshCookie = some (.refresh claims) := by
        rw [htoken, (Token.refreshClaims_eq_some.mp hclaims).1]
      refine answers_query fun found => ?_
      split
      · unfold refreshSession
        split_ifs
        · exact answers_query fun _ => answers_after fun _ => answers_done trivial
        · refine answers_perform fun now => ?_
          split_ifs
          · exact answers_query fun _ => answers_done trivial
          · refine answers_bind (loadUserById_answers _) fun found hfound => ?_
            split
            next user =>
              have huser := hfound user rfl
              split_ifs with hbarred
              · exact answers_query fun _ => answers_after fun _ => answers_done trivial
              · refine rotateTokens_vouched ⟨⟨huser.1, ?_⟩, claims, hcookie, huser.2.symm⟩
                simp only [Bool.or_eq_true, Bool.not_eq_true', not_or] at hbarred
                simpa using hbarred.2
            · exact answers_done trivial
      · exact answers_done trivial

theorem finishEnrollment_vouched {user : UserRow} (h : P user)
    (outcome : Except ApiError ConfirmOutcome) :
    Answers p users (fun r => r.body.Vouched P) (finishEnrollment p headers user outcome) := by
  unfold finishEnrollment
  split
  · exact answers_done (respond_vouched _)
  · exact completeLogin_vouched h _
  · refine answers_after fun saved => ?_
    split
    · exact answers_done (respond_vouched _)
    · exact completeLogin_vouched h _

theorem challengeEnrollConfirm_vouched (mfaToken : Token) (code : String) :
    Answers p users (fun r => r.body.Vouched fun user => Admitted users user ∧
      mfaToken.subject .enrollment = some user.id)
      (challengeEnrollConfirm p headers mfaToken code) := by
  refine answers_bind (answers_of_performs (decodeChallengeToken_performs _ _))
    fun found hfound => ?_
  split
  · exact answers_done trivial
  next userId =>
    refine answers_bind (loadUserOrUnauthorized_answers _) fun found huser => ?_
    split
    · exact answers_done trivial
    next user =>
      refine answers_after fun outcome => finishEnrollment_vouched ⟨(huser _ rfl).1, ?_⟩ outcome
      rw [(huser _ rfl).2]
      exact hfound _ rfl

theorem finishVerification_vouched {user : UserRow} (h : P user)
    (outcome : Except ApiError VerifyOutcome) :
    Answers p users (fun r => r.body.Vouched P) (finishVerification p headers user outcome) := by
  unfold finishVerification
  split
  · exact completeLogin_vouched h _
  · exact answers_after fun _ => completeLogin_vouched h _
  · exact answers_after fun _ => answers_done (respond_vouched _)

theorem challengeVerify_vouched (mfaToken : Token) (code : String) :
    Answers p users (fun r => r.body.Vouched fun user => Admitted users user ∧
      mfaToken.subject .login = some user.id) (challengeVerify p headers mfaToken code) := by
  refine answers_bind (answers_of_performs (decodeChallengeToken_performs _ _))
    fun found hfound => ?_
  split
  · exact answers_done trivial
  next userId =>
    refine answers_bind (loadUserOrUnauthorized_answers _) fun found huser => ?_
    split
    · exact answers_done trivial
    next user =>
      refine answers_perform fun allowed => ?_
      split_ifs
      · refine answers_after fun outcome => finishVerification_vouched ⟨(huser _ rfl).1, ?_⟩ outcome
        rw [(huser _ rfl).2]
        exact hfound _ rfl
      · exact answers_done (respond_vouched _)

/-! ## The other routes -/

/-- An enrollment that begins is answered with what it needs. -/
theorem beginEnrollment_vouched (userId : Uuid) (accountName method : String)
    (email : Option String) :
    Answers p users (fun begun => ∀ body, begun = .ok body → body.Vouched P)
      (beginEnrollment p userId accountName method email) := by
  unfold beginEnrollment
  split_ifs
  · split
    · exact answers_done nofun
    · refine answers_perform fun bytes => answers_perform fun now => answers_query fun stored => ?_
      split
      · exact answers_done nofun
      · refine answers_perform fun _ => answers_done ?_
        rintro _ ⟨⟩
        trivial
  · refine answers_perform fun bytes => answers_query fun stored => ?_
    split
    · exact answers_done nofun
    · split_ifs
      · refine answers_done ?_
        rintro _ ⟨⟩
        trivial
      · exact answers_done nofun

theorem enrollmentResponse_vouched {begun : Except ApiError Body}
    (h : ∀ body, begun = .ok body → body.Vouched P) :
    (enrollmentResponse headers begun).body.Vouched P := by
  cases begun with
  | ok body => exact h body rfl
  | error err => exact respond_vouched err

theorem enroll_vouched (method : Option String) :
    Answers p users (fun r => r.body.Vouched P) (enroll p headers method) := by
  refine answers_after fun claims => ?_
  split
  · exact answers_done trivial
  · refine answers_after fun user => ?_
    split
    · exact answers_done trivial
    · exact answers_bind (beginEnrollment_vouched _ _ _ _) fun begun hbegun =>
        answers_done (enrollmentResponse_vouched hbegun)

theorem resendTo_vouched (userId : Uuid) (email : Option String) :
    Answers p users (fun r => r.body.Vouched P) (resendTo p headers userId email) := by
  unfold resendTo
  split
  · exact answers_done (respond_vouched _)
  · refine answers_perform fun allowed => ?_
    split_ifs
    · refine answers_after fun sent => ?_
      split
      · exact answers_done trivial
      · exact answers_done (respond_vouched _)
    · exact answers_done (respond_vouched _)

theorem enrollResend_vouched :
    Answers p users (fun r => r.body.Vouched P) (enrollResend p headers) := by
  refine answers_after fun claims => ?_
  split
  · exact answers_done trivial
  · refine answers_after fun user => ?_
    split
    · exact answers_done trivial
    · exact resendTo_vouched _ _

theorem enrollConfirm_vouched (code : String) :
    Answers p users (fun r => r.body.Vouched P) (enrollConfirm p headers code) := by
  refine answers_after fun claims => ?_
  split
  · exact answers_done trivial
  · refine answers_after fun outcome => ?_
    split
    · exact answers_done (respond_vouched _)
    · exact answers_done trivial
    · refine answers_after fun saved => ?_
      split
      · exact answers_done (respond_vouched _)
      · exact answers_done trivial

theorem challengeEnroll_vouched (mfaToken : Token) (method : Option String) :
    Answers p users (fun r => r.body.Vouched P) (challengeEnroll p headers mfaToken method) := by
  refine answers_after fun userId => ?_
  split
  · exact answers_done trivial
  · refine answers_after fun user => ?_
    split
    · exact answers_done trivial
    · exact answers_bind (beginEnrollment_vouched _ _ _ _) fun begun hbegun =>
        answers_done (enrollmentResponse_vouched hbegun)

theorem challengeEnrollResend_vouched (mfaToken : Token) :
    Answers p users (fun r => r.body.Vouched P) (challengeEnrollResend p headers mfaToken) := by
  refine answers_after fun userId => ?_
  split
  · exact answers_done trivial
  · refine answers_after fun user => ?_
    split
    · exact answers_done trivial
    · exact resendTo_vouched _ _

theorem challengeRequestCode_vouched (mfaToken : Token) :
    Answers p users (fun r => r.body.Vouched P) (challengeRequestCode p headers mfaToken) := by
  refine answers_after fun userId => ?_
  split
  · exact answers_done trivial
  · refine answers_after fun user => ?_
    split
    · exact answers_done trivial
    · refine answers_query fun found => ?_
      split_ifs
      · exact resendTo_vouched _ _
      · exact answers_done (respond_vouched _)

theorem disable_vouched (password code : String) :
    Answers p users (fun r => r.body.Vouched P) (disable p headers password code) := by
  have hremove : ∀ claims, Answers p users (fun r => r.body.Vouched P)
      (removeOwnCredential p headers claims) := by
    intro claims
    refine answers_after fun deleted => ?_
    split
    · exact answers_done (respond_vouched _)
    · refine answers_after fun saved => ?_
      split
      · exact answers_done (respond_vouched _)
      · exact answers_done trivial
  refine answers_after fun claims => ?_
  split
  · exact answers_done trivial
  · refine answers_after fun user => ?_
    split
    · exact answers_done trivial
    · split_ifs
      · refine answers_after fun outcome => ?_
        split
        · exact hremove _
        · exact hremove _
        · exact answers_done (respond_vouched _)
      · exact answers_done trivial

theorem logout_vouched : Answers p users (fun r => r.body.Vouched P) (logout p headers) := by
  unfold logout
  split
  · exact answers_done trivial
  · refine answers_perform fun now => ?_
    split
    · exact answers_done trivial
    · refine answers_query fun found => ?_
      split
      · exact answers_query fun _ => answers_after fun _ => answers_done trivial
      · exact answers_done trivial

theorem logoutAll_vouched : Answers p users (fun r => r.body.Vouched P) (logoutAll p headers) := by
  refine answers_after fun claims => ?_
  split
  · exact answers_done trivial
  · exact answers_query fun _ => answers_after fun _ => answers_done trivial

theorem revokeOwnSession_vouched (sessionId : String) :
    Answers p users (fun r => r.body.Vouched P) (revokeOwnSession p headers sessionId) := by
  refine answers_after fun claims => ?_
  split
  · exact answers_done trivial
  · refine answers_after fun revoked => ?_
    split
    · exact answers_after fun _ => answers_done trivial
    · exact answers_done trivial
    · exact answers_done trivial

theorem mfaResetRoute_vouched (id : String) :
    Answers p users (fun r => r.body.Vouched P) (mfaResetRoute p headers id) := by
  have hreset : ∀ target, Answers p users (fun r => r.body.Vouched P)
      (resetTarget p headers target) := by
    intro target
    refine answers_after fun reset => ?_
    split
    · exact answers_done (respond_vouched _)
    · refine answers_after fun actor => answers_after fun saved => ?_
      split
      · exact answers_done (respond_vouched _)
      · exact answers_done trivial
  refine answers_after fun claims => ?_
  split_ifs
  · refine answers_after fun target => ?_
    split
    · exact answers_done trivial
    · exact hreset _
  · exact answers_done trivial

end Routes

/-- **A session is for an approved account in use that the request names, in the role it
has.** -/
theorem handle_vouched (p : Platform) (users : List UserRow) (request : Request) :
    Answers p users (fun answer => ∀ response, answer = some response →
      response.body.Vouched fun user => Admitted users user ∧ request.SignsIn p user)
      (handle p request) := by
  have hsome : ∀ {P : UserRow → Prop} {h : Handler Response},
      Answers p users (fun r => r.body.Vouched P) h →
      Answers p users (fun answer => ∀ response, answer = some response →
        response.body.Vouched P) (h.map some) := by
    intro P h hh
    refine answers_map (hh.mono fun r hr => ?_)
    rintro _ ⟨⟩
    exact hr
  cases request with
  | login headers userCode password => exact hsome (login_vouched userCode password)
  | enroll headers method => exact hsome (enroll_vouched method)
  | enrollResend headers => exact hsome enrollResend_vouched
  | enrollConfirm headers code => exact hsome (enrollConfirm_vouched code)
  | challengeEnroll headers mfaToken method => exact hsome (challengeEnroll_vouched mfaToken method)
  | challengeEnrollResend headers mfaToken => exact hsome (challengeEnrollResend_vouched mfaToken)
  | challengeRequestCode headers mfaToken => exact hsome (challengeRequestCode_vouched mfaToken)
  | challengeEnrollConfirm headers mfaToken code =>
      exact hsome (challengeEnrollConfirm_vouched mfaToken code)
  | challengeVerify headers mfaToken code => exact hsome (challengeVerify_vouched mfaToken code)
  | disable headers password code => exact hsome (disable_vouched password code)
  | refresh headers => exact hsome refresh_vouched
  | logout headers => exact hsome logout_vouched
  | logoutAll headers => exact hsome logoutAll_vouched
  | revokeOwnSession headers sessionId => exact hsome (revokeOwnSession_vouched sessionId)
  | mfaResetRoute headers id => exact hsome (mfaResetRoute_vouched id)
  | purgeExpiredAuthRecords => exact answers_map fun _ _ _ _ h => nomatch h

end AnatoliaBis.Auth
