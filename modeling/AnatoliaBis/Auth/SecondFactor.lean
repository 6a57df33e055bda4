import AnatoliaBis.Auth.Footprint

/-! # Who can turn a second factor off

`disable` asks for the password and a code, so that a stolen access token alone
cannot turn MFA off. The two routes that begin an enrollment share one upsert,
which clears `enabled_at` of whatever row it meets: `keeps_second_factor_iff`
says exactly when a request leaves an enabled credential alone or is entitled to
remove it, and `enroll_turns_mfa_off` shows a bearer token removing one.
-/

namespace AnatoliaBis.Auth

open Atomic Program

/-! ## Enabled credentials -/

/-- `u` has an enabled credential with this method and TOTP secret. -/
def Server.Enrolled (s : Server) (u : Uuid) (method : Method) (secret : String) : Prop :=
  ∃ row, s.mfaCredentials u = some row ∧ row.enabledAt.isSome ∧ row.method = method ∧
    row.secret = secret

/-- `u`'s credential is enabled. -/
def Server.MfaEnabled (s : Server) (u : Uuid) : Prop :=
  ∃ row, s.mfaCredentials u = some row ∧ row.enabledAt.isSome

instance (s : Server) (u : Uuid) : Decidable (s.MfaEnabled u) :=
  decidable_of_iff ((s.mfaCredentials u).any (·.enabledAt.isSome)) (by
    simp [Server.MfaEnabled, Option.any_eq_true])

/-- From `s` to `s'`, an enabled credential of `u` stays what it is. -/
def KeepsFactor (u : Uuid) (s s' : Server) : Prop :=
  ∀ method secret, s.Enrolled u method secret → s'.Enrolled u method secret

theorem KeepsFactor.refl (u : Uuid) (s : Server) : KeepsFactor u s s := fun _ _ h => h

theorem KeepsFactor.trans {u : Uuid} {s s' s'' : Server} (h : KeepsFactor u s s')
    (h' : KeepsFactor u s' s'') : KeepsFactor u s s'' := fun m k hmk => h' m k (h m k hmk)

/-! ## One operation -/

section Operations

variable {p : Platform} {u : Uuid}

@[simp] theorem setMfaCredential_self (s : Server) (row : Option MfaCredentialRow) :
    (s.setMfaCredential u row).mfaCredentials u = row := Function.update_self ..

theorem setMfaCredential_of_ne {v : Uuid} (h : u ≠ v) (s : Server)
    (row : Option MfaCredentialRow) :
    (s.setMfaCredential v row).mfaCredentials u = s.mfaCredentials u :=
  Function.update_of_ne h ..

/-- Another user's row changes. -/
theorem keepsFactor_setMfaCredential {v : Uuid} (h : u ≠ v) (s : Server)
    (row : Option MfaCredentialRow) : KeepsFactor u s (s.setMfaCredential v row) := by
  rintro method secret ⟨r, hr, hrest⟩
  exact ⟨r, by rw [setMfaCredential_of_ne h, hr], hrest⟩

/-- An update that touches neither the flag, the method nor the secret. -/
theorem keepsFactor_updateMfaCredential (s : Server) (v : Uuid) (cond : MfaCredentialRow → Bool)
    (f : MfaCredentialRow → MfaCredentialRow)
    (hf : ∀ row, row.enabledAt.isSome → (f row).enabledAt.isSome ∧ (f row).method = row.method ∧
      (f row).secret = row.secret) :
    KeepsFactor u s (s.updateMfaCredential v cond f).1 := by
  unfold Server.updateMfaCredential
  split
  next row hrow =>
    by_cases h : u = v
    · subst h
      rintro method secret ⟨r, hr, hen, hm, hk⟩
      have heq : r = row := by
        have := (Option.filter_eq_some_iff.mp hrow).1
        rw [hr] at this
        exact Option.some.inj this
      subst heq
      rcases hf r hen with ⟨hen', hm', hk'⟩
      exact ⟨f r, setMfaCredential_self s _, hen', hm'.trans hm, hk'.trans hk⟩
    · exact keepsFactor_setMfaCredential h s _
  next => exact KeepsFactor.refl u s

/-- Only an upsert or a removal of `u`'s own row can take the factor away. -/
theorem exec_keepsFactor {op : Call} (hup : ¬ op.Upserts u) (hdel : ¬ op.Deletes u) (e : Env)
    (s : Server) : KeepsFactor u s (exec p op e s).1 := by
  cases op with
  | db q =>
      simp only [exec]
      split_ifs
      · exact KeepsFactor.refl u s
      · cases q with
        | upsertPendingMfaCredential v secret =>
            exact keepsFactor_setMfaCredential (fun h => hup h.symm) s _
        | upsertPendingEmailMfaCredential v hash expiresAt =>
            exact keepsFactor_setMfaCredential (fun h => hup h.symm) s _
        | deleteMfaCredential v =>
            exact keepsFactor_setMfaCredential (fun h => hdel h.symm) s _
        | updateEmailMfaCode v hash expiresAt =>
            exact keepsFactor_updateMfaCredential s v _ _ fun _ h => ⟨h, rfl, rfl⟩
        | enableEmailMfaCredential v hash =>
            exact keepsFactor_updateMfaCredential s v _ _ fun _ _ => ⟨rfl, rfl, rfl⟩
        | consumeEmailMfaCode v hash =>
            exact keepsFactor_updateMfaCredential s v _ _ fun _ h => ⟨h, rfl, rfl⟩
        | enableMfaCredential v secret =>
            exact keepsFactor_updateMfaCredential s v _ _ fun _ _ => ⟨rfl, rfl, rfl⟩
        | touchMfaLastUsed v =>
            exact keepsFactor_updateMfaCredential s v _ _ fun _ h => ⟨h, rfl, rfl⟩
        | _ => exact KeepsFactor.refl u s
  | _ => exact KeepsFactor.refl u s

/-- So a handler that performs neither keeps the factor. -/
theorem keepsFactor_run {α : Type} {P : Call → Prop} {R : α → Prop} {h : Handler α}
    (hp : h.Performs (exec p) P R) (hup : ∀ op, P op → ¬ op.Upserts u ∧ ¬ op.Deletes u)
    (ω : Nat → Env) (s : Server) : KeepsFactor u s (h.run (exec p) ω s).2 :=
  hp.keeps (KeepsFactor.refl u) KeepsFactor.trans
    (fun op e s hop => exec_keepsFactor (hup op hop).1 (hup op hop).2 e s) ω s

theorem Call.Quiet.not_removes {op : Call} (h : op.Quiet) :
    ¬ op.Upserts u ∧ ¬ op.Deletes u := by
  cases op with
  | db q => cases q <;> simp_all [Call.Quiet, Call.Upserts, Call.Deletes]
  | _ => exact ⟨id, id⟩

/-- Operations about `v` take nothing away from anyone else. -/
theorem Call.Upserts.not_removes_of_ne {v : Uuid} {op : Call} (h : op.Upserts v) (hne : v ≠ u) :
    ¬ op.Upserts u ∧ ¬ op.Deletes u := by
  cases op with
  | db q => cases q <;> simp_all [Call.Upserts, Call.Deletes]
  | _ => cases h

theorem Call.Deletes.not_removes_of_ne {v : Uuid} {op : Call} (h : op.Deletes v) (hne : v ≠ u) :
    ¬ op.Upserts u ∧ ¬ op.Deletes u := by
  cases op with
  | db q => cases q <;> simp_all [Call.Upserts, Call.Deletes]
  | _ => cases h

/-- Confirming, verifying, issuing, charging and rotating remove nothing. -/
theorem Call.Confirms.not_removes {v : Uuid} {op : Call} (h : op.Confirms v) :
    ¬ op.Upserts u ∧ ¬ op.Deletes u := by
  cases op with
  | db q => cases q <;> simp_all [Call.Confirms, Call.Upserts, Call.Deletes]
  | _ => exact ⟨id, id⟩

theorem Call.Verifies.not_removes {v : Uuid} {op : Call} (h : op.Verifies v) :
    ¬ op.Upserts u ∧ ¬ op.Deletes u := by
  rcases h with rfl | h
  · exact ⟨id, id⟩
  · cases op with
    | db q => cases q <;> simp_all [Call.Spends, Call.Upserts, Call.Deletes]
    | _ => cases h

theorem Call.Issues.not_removes {v : Uuid} {op : Call} (h : op.Issues v) :
    ¬ op.Upserts u ∧ ¬ op.Deletes u := by
  cases op with
  | db q => cases q <;> simp_all [Call.Issues, Call.Upserts, Call.Deletes]
  | _ => cases h

theorem Call.Rotates.not_removes {op : Call} (h : op.Rotates) :
    ¬ op.Upserts u ∧ ¬ op.Deletes u := by
  cases op with
  | db q => cases q <;> simp_all [Call.Rotates, Call.Upserts, Call.Deletes]
  | _ => cases h

end Operations

/-! ## Beginning an enrollment -/

section Enrollment

variable {p : Platform} {u : Uuid} {method email : Option String} {accountName : String}
  {ω : Nat → Env} {s : Server}

/-- An enrollment, with `ω` counted from its first operation, gets past its
upsert: an address is on file where one is needed, and the statement succeeds. -/
def ReachesUpsert (method email : Option String) (ω : Nat → Env) : Prop :=
  if method.getD Method.totp.text = Method.email.text then email.isSome ∧ (ω 2).fails = false
  else (ω 1).fails = false

theorem beginEnrollment_of_not_reaches (h : ¬ ReachesUpsert method email ω) :
    ((beginEnrollment p u accountName (method.getD Method.totp.text) email).run (exec p) ω s).2 =
      s := by
  unfold beginEnrollment
  unfold ReachesUpsert at h
  by_cases hm : method.getD Method.totp.text = Method.email.text
  · rw [if_pos hm] at h ⊢
    cases email with
    | none => rfl
    | some email =>
        have hfail : (ω 2).fails = true := by simpa using h
        simp [beginEmailEnrollment, exec_db_of_fails _ hfail]
  · rw [if_neg hm] at h ⊢
    have hfail : (ω 1).fails = true := by simpa using h
    simp [beginTotpEnrollment, exec_db_of_fails _ hfail]

/-- The upsert clears `enabled_at`. -/
theorem beginEnrollment_of_reaches (h : ReachesUpsert method email ω) :
    ¬ ((beginEnrollment p u accountName (method.getD Method.totp.text) email).run (exec p) ω
      s).2.MfaEnabled u := by
  have cleared : ∀ (s' : Server) (row : MfaCredentialRow), s'.mfaCredentials u = some row →
      row.enabledAt = none → ¬ s'.MfaEnabled u := by
    rintro s' row hrow hnone ⟨row', hrow', hsome⟩
    rw [hrow] at hrow'
    rw [← Option.some.inj hrow', hnone] at hsome
    cases hsome
  unfold beginEnrollment
  unfold ReachesUpsert at h
  by_cases hm : method.getD Method.totp.text = Method.email.text
  · rw [if_pos hm] at h ⊢
    cases email with
    | none => cases h.1
    | some email =>
        simp only [beginEmailEnrollment, run_perform_bind, run_query_bind, exec_random, exec_utcNow,
          exec_db_of_succeeds _ h.2]
        exact cleared _ _ (setMfaCredential_self _ _) rfl
  · rw [if_neg hm] at h ⊢
    simp only [beginTotpEnrollment, run_perform_bind, run_query_bind, exec_random,
      exec_db_of_succeeds _ h]
    -- whether the URL can be built decides the answer only
    by_cases hb : p.buildTotp (p.generateSecret (ω 0).random) accountName
    all_goals
      simp only [hb, if_true, if_false, Bool.false_eq_true, Program.pure_eq_done,
        Program.run_done]
      exact cleared _ _ (setMfaCredential_self _ _) rfl

end Enrollment

/-! ## The two kinds of exceptions -/

namespace Visit

/-- The visit is `disable` for `u` with `u`'s password and a code `verify_code`
accepts, or the reset of `u` by an administrator. -/
def Exempt (p : Platform) (s : Server) (u : Uuid) (v : Visit) : Prop :=
  match v.request with
  | .disable headers password code =>
      ∃ token claims user outcome, headers.authorization = some token ∧
        token.accessClaims (v.env 0).now = some claims ∧ claims.id = u ∧
        s.findUser u = some user ∧ p.bcryptVerify password user.passwordHash ∧
        ((verifyCode p u claims.userCode code).run (exec p) (fun n => v.env (n + 2)) s).1 =
          .ok outcome ∧ outcome ≠ .failed
  | .mfaResetRoute headers id =>
      ∃ token claims key target, headers.authorization = some token ∧
        token.accessClaims (v.env 0).now = some claims ∧ canAdministerUsers claims.role ∧
        p.key id = some key ∧
        s.users.find? (fun x => key.isId x.id && x.deletedAt.isNone) = some target ∧
        target.id = u
  | _ => False

/-- The visit begins an enrollment of `u`, with a live access token or a live
enrollment token of `u`, and gets past the upsert. -/
def Overwrites (s : Server) (u : Uuid) (v : Visit) : Prop :=
  match v.request with
  | .enroll headers method =>
      ∃ token claims user, headers.authorization = some token ∧
        token.accessClaims (v.env 0).now = some claims ∧ claims.id = u ∧
        (v.env 1).fails = false ∧ s.findUser u = some user ∧
        ReachesUpsert method user.email fun n => v.env (n + 2)
  | .challengeEnroll _ token method =>
      ∃ user, token.challengeUser (v.env 0).now .enrollment = some u ∧
        (v.env 1).fails = false ∧ s.findActiveUser u = some user ∧
        ReachesUpsert method user.email fun n => v.env (n + 2)
  | _ => False

end Visit

/-! ## The routes that can remove a credential -/

section Routes

variable {p : Platform} {s : Server} {u : Uuid} {ω : Nat → Env} {headers : Headers}

/-- A live access token names its bearer. -/
theorem bearer_of_accessClaims {token : Token} {claims : Claims} {now : Timestamp}
    (ha : headers.authorization = some token) (hc : token.accessClaims now = some claims) :
    headers.bearer = some claims.id := by
  simp [Headers.bearer, ha, (Token.accessClaims_eq_some.mp hc).1]

theorem subject_of_challengeUser {token : Token} {now : Timestamp} {purpose : Purpose}
    (h : token.challengeUser now purpose = some u) : token.subject purpose = some u := by
  rcases Token.challengeUser_eq_some.mp h with ⟨exp, rfl, -⟩
  simp [Token.subject]

/-- `enroll` keeps the factor of everyone but its bearer, and of the bearer
unless it gets past the upsert. -/
theorem enroll_keepsFactor {method : Option String}
    (h : ∀ token claims user, headers.authorization = some token →
      token.accessClaims (ω 0).now = some claims → claims.id = u → (ω 1).fails = false →
      s.findUser u = some user → ¬ ReachesUpsert method user.email fun n => ω (n + 2)) :
    KeepsFactor u s ((enroll p headers method).run (exec p) ω s).2 := by
  by_cases hu : headers.bearer = some u
  · unfold enroll
    cases ha : headers.authorization with
    | none => simp [Headers.bearer, ha] at hu
    | some token =>
        rw [run_authUserFromHeaders ω s ha]
        cases hc : token.accessClaims (ω 0).now with
        | none => exact KeepsFactor.refl u s
        | some claims =>
            have hid : claims.id = u := by
              simpa [bearer_of_accessClaims ha hc] using hu
            dsimp only
            rw [run_loadUser, hid]
            by_cases hf : (ω 1).fails
            · rw [if_pos hf]
              exact KeepsFactor.refl u s
            · rw [if_neg hf]
              cases hx : s.findUser u with
              | none => exact KeepsFactor.refl u s
              | some user =>
                  dsimp only
                  rw [run_bind_pure, beginEnrollment_of_not_reaches
                    (h token claims user ha hc hid (by simpa using hf) hx)]
                  exact KeepsFactor.refl u s
  · refine keepsFactor_run (enroll_performs headers method) ?_ ω s
    rintro op (hop | ⟨v, hv, hop⟩)
    · exact hop.not_removes
    · -- the upsert is about somebody else
      have hne : v ≠ u := fun h => hu (h ▸ hv)
      exact hop.not_removes_of_ne hne

theorem enroll_overwrites {method : Option String} {token : Token} {claims : Claims}
    {user : UserRow} (ha : headers.authorization = some token)
    (hc : token.accessClaims (ω 0).now = some claims) (hid : claims.id = u)
    (hf : (ω 1).fails = false) (hx : s.findUser u = some user)
    (h : ReachesUpsert method user.email fun n => ω (n + 2)) :
    ¬ ((enroll p headers method).run (exec p) ω s).2.MfaEnabled u := by
  unfold enroll
  rw [run_authUserFromHeaders ω s ha, hc]
  dsimp only
  rw [run_loadUser, hid, if_neg (by simp [hf]), hx]
  dsimp only
  rw [run_bind_pure]
  exact beginEnrollment_of_reaches h

/-- The same of `challenge_enroll` and the user its token names. -/
theorem challengeEnroll_keepsFactor {token : Token} {method : Option String}
    (h : ∀ user, token.challengeUser (ω 0).now .enrollment = some u → (ω 1).fails = false →
      s.findActiveUser u = some user → ¬ ReachesUpsert method user.email fun n => ω (n + 2)) :
    KeepsFactor u s ((challengeEnroll p headers token method).run (exec p) ω s).2 := by
  by_cases hu : token.subject .enrollment = some u
  · unfold challengeEnroll
    rw [run_decodeChallengeToken]
    cases hc : token.challengeUser (ω 0).now .enrollment with
    | none => exact KeepsFactor.refl u s
    | some u' =>
        have hid : u' = u := by
          simpa [subject_of_challengeUser hc] using hu
        subst hid
        dsimp only
        rw [run_loadUserOrUnauthorized]
        by_cases hf : (ω 1).fails
        · rw [if_pos hf]
          exact KeepsFactor.refl u' s
        · rw [if_neg hf]
          cases hx : s.findActiveUser u' with
          | none => exact KeepsFactor.refl u' s
          | some user =>
              dsimp only
              rw [run_bind_pure, beginEnrollment_of_not_reaches
                (h user hc (by simpa using hf) hx)]
              exact KeepsFactor.refl u' s
  · refine keepsFactor_run (challengeEnroll_performs headers token method) ?_ ω s
    rintro op (hop | ⟨v, hv, hop⟩)
    · exact hop.not_removes
    · have hne : v ≠ u := fun h => hu (h ▸ hv)
      exact hop.not_removes_of_ne hne

theorem challengeEnroll_overwrites {token : Token} {method : Option String} {user : UserRow}
    (hc : token.challengeUser (ω 0).now .enrollment = some u) (hf : (ω 1).fails = false)
    (hx : s.findActiveUser u = some user)
    (h : ReachesUpsert method user.email fun n => ω (n + 2)) :
    ¬ ((challengeEnroll p headers token method).run (exec p) ω s).2.MfaEnabled u := by
  unfold challengeEnroll
  rw [run_decodeChallengeToken, hc]
  dsimp only
  rw [run_loadUserOrUnauthorized, if_neg (by simp [hf]), hx]
  dsimp only
  rw [run_bind_pure, Server.findActiveUser_id hx]
  exact beginEnrollment_of_reaches h

/-- `disable` removes the factor of its bearer only, and only once the password
and a code have been accepted. -/
theorem disable_keepsFactor {password code : String}
    (h : ∀ token claims user outcome, headers.authorization = some token →
      token.accessClaims (ω 0).now = some claims → claims.id = u → s.findUser u = some user →
      p.bcryptVerify password user.passwordHash →
      ((verifyCode p u claims.userCode code).run (exec p) (fun n => ω (n + 2)) s).1 =
        .ok outcome → outcome = .failed) :
    KeepsFactor u s ((disable p headers password code).run (exec p) ω s).2 := by
  by_cases hu : headers.bearer = some u
  · unfold disable
    cases ha : headers.authorization with
    | none => simp [Headers.bearer, ha] at hu
    | some token =>
        rw [run_authUserFromHeaders ω s ha]
        cases hc : token.accessClaims (ω 0).now with
        | none => exact KeepsFactor.refl u s
        | some claims =>
            have hid : claims.id = u := by
              simpa [bearer_of_accessClaims ha hc] using hu
            dsimp only
            rw [run_loadUser, hid]
            by_cases hf : (ω 1).fails
            · rw [if_pos hf]
              exact KeepsFactor.refl u s
            · rw [if_neg hf]
              cases hx : s.findUser u with
              | none => exact KeepsFactor.refl u s
              | some user =>
                  dsimp only
                  by_cases hpw : p.bcryptVerify password user.passwordHash
                  · have hverify : KeepsFactor u s
                        ((verifyCode p u claims.userCode code).run (exec p)
                          (fun n => ω (n + 2)) s).2 :=
                      keepsFactor_run (verifyCode_performs u claims.userCode code)
                        (fun op hop => hop.elim Call.Quiet.not_removes Call.Verifies.not_removes)
                        _ s
                    rw [if_pos hpw, run_bind]
                    refine hverify.trans ?_
                    cases ho : ((verifyCode p u claims.userCode code).run (exec p)
                      (fun n => ω (n + 2)) s).1 with
                    | error err => exact KeepsFactor.refl u _
                    | ok outcome =>
                        rw [h token claims user outcome ha hc hid hx hpw ho]
                        exact KeepsFactor.refl u _
                  · rw [if_neg hpw]
                    exact KeepsFactor.refl u s
  · refine keepsFactor_run (disable_performs headers password code) ?_ ω s
    rintro op (hop | ⟨v, hv, hop | hop⟩)
    · exact hop.not_removes
    · exact hop.not_removes
    · have hne : v ≠ u := fun h => hu (h ▸ hv)
      exact hop.not_removes_of_ne hne

/-- `mfa_reset_route` removes the factor of its target only, and only for an
administrator. -/
theorem mfaResetRoute_keepsFactor {id : String}
    (h : ∀ token claims key target, headers.authorization = some token →
      token.accessClaims (ω 0).now = some claims → canAdministerUsers claims.role →
      p.key id = some key →
      s.users.find? (fun x => key.isId x.id && x.deletedAt.isNone) = some target →
      target.id ≠ u) :
    KeepsFactor u s ((mfaResetRoute p headers id).run (exec p) ω s).2 := by
  unfold mfaResetRoute
  cases ha : headers.authorization with
  | none =>
      simp only [authUserFromHeaders, ha, Program.pure_eq_done, Program.done_bind,
        Option.any_none, Bool.false_eq_true, if_false, Program.run_done]
      exact KeepsFactor.refl u s
  | some token =>
      rw [run_authUserFromHeaders ω s ha]
      cases hc : token.accessClaims (ω 0).now with
      | none => exact KeepsFactor.refl u s
      | some claims =>
          simp only [Option.any_some]
          by_cases hrole : canAdministerUsers claims.role
          · rw [if_pos hrole]
            cases hk : p.key id with
            | none =>
                rw [run_loadTarget_of_none _ _ hk]
                exact KeepsFactor.refl u s
            | some key =>
                rw [run_loadTarget_of_some _ _ hk]
                by_cases hf : (ω 1).fails
                · rw [if_pos hf]
                  exact KeepsFactor.refl u s
                · rw [if_neg hf]
                  cases hx : s.users.find? fun x => key.isId x.id && x.deletedAt.isNone with
                  | none => exact KeepsFactor.refl u s
                  | some target =>
                      have hne := h token claims key target ha hc hrole hk hx
                      exact keepsFactor_run (resetTarget_performs headers target)
                        (fun op hop => hop.elim Call.Quiet.not_removes
                          fun hdel => hdel.not_removes_of_ne hne) _ s
          · rw [if_neg hrole]
            exact KeepsFactor.refl u s

end Routes

/-! ## One visit -/

section Visit

variable {p : Platform} {s : Server} {u : Uuid} {v : Visit}

/-- A request none of whose operations removes `u`'s factor. -/
theorem keepsFactor_after
    (h : ∀ op, v.request.Footprint op → ¬ op.Upserts u ∧ ¬ op.Deletes u) :
    KeepsFactor u s (v.after p s) :=
  keepsFactor_run (handle_performs p v.request) h v.env s

/-- A visit that does not begin an enrollment of `u` leaves the factor alone, or
is entitled to remove it. -/
theorem keepsFactor_or_exempt (h : ¬ v.Overwrites s u) :
    KeepsFactor u s (v.after p s) ∨ v.Exempt p s u := by
  rcases v with ⟨r, ω⟩
  cases r with
  | enroll headers method =>
      left
      rw [after_eq rfl]
      refine enroll_keepsFactor fun token claims user ha hc hid hf hx hreach => h ?_
      exact ⟨token, claims, user, ha, hc, hid, hf, hx, hreach⟩
  | challengeEnroll headers token method =>
      left
      rw [after_eq rfl]
      exact challengeEnroll_keepsFactor fun user hc hf hx hreach => h ⟨user, hc, hf, hx, hreach⟩
  | disable headers password code =>
      by_cases hex : Visit.Exempt p s u ⟨.disable headers password code, ω⟩
      · exact Or.inr hex
      · left
        rw [after_eq rfl]
        refine disable_keepsFactor fun token claims user outcome ha hc hid hx hpw ho => ?_
        by_contra hne
        exact hex ⟨token, claims, user, outcome, ha, hc, hid, hx, hpw, ho, hne⟩
  | mfaResetRoute headers id =>
      by_cases hex : Visit.Exempt p s u ⟨.mfaResetRoute headers id, ω⟩
      · exact Or.inr hex
      · left
        rw [after_eq rfl]
        exact mfaResetRoute_keepsFactor fun token claims key target ha hc hrole hk hx hid =>
          hex ⟨token, claims, key, target, ha, hc, hrole, hk, hx, hid⟩
  | login headers userCode password =>
      refine Or.inl (keepsFactor_after fun op hop => hop.elim Call.Quiet.not_removes ?_)
      rintro ⟨_, h⟩
      exact h.not_removes
  | enrollConfirm headers code =>
      refine Or.inl (keepsFactor_after fun op hop => hop.elim Call.Quiet.not_removes ?_)
      rintro ⟨_, _, h⟩
      exact h.not_removes
  | challengeEnrollConfirm headers token code =>
      refine Or.inl (keepsFactor_after fun op hop => hop.elim Call.Quiet.not_removes ?_)
      rintro ⟨_, _, h | h⟩
      · exact h.not_removes
      · exact h.not_removes
  | challengeVerify headers token code =>
      refine Or.inl (keepsFactor_after fun op hop => hop.elim Call.Quiet.not_removes ?_)
      rintro ⟨_, _, h | h | h⟩
      · subst h
        exact ⟨id, id⟩
      · exact h.not_removes
      · exact h.not_removes
  | refresh headers | logout headers | logoutAll headers | revokeOwnSession headers sessionId
  | purgeExpiredAuthRecords =>
      exact Or.inl (keepsFactor_after fun op hop =>
        hop.elim Call.Quiet.not_removes Call.Rotates.not_removes)
  | enrollResend headers | challengeEnrollResend headers token
  | challengeRequestCode headers token =>
      exact Or.inl (keepsFactor_after fun op hop => hop.elim Call.Quiet.not_removes False.elim)

/-- A visit that does begin one leaves nothing enabled. -/
theorem overwrites_removes (h : v.Overwrites s u) : ¬ (v.after p s).MfaEnabled u := by
  rcases v with ⟨r, ω⟩
  cases r with
  | enroll headers method =>
      rcases h with ⟨token, claims, user, ha, hc, hid, hf, hx, hreach⟩
      rw [after_eq rfl]
      exact enroll_overwrites ha hc hid hf hx hreach
  | challengeEnroll headers token method =>
      rcases h with ⟨user, hc, hf, hx, hreach⟩
      rw [after_eq rfl]
      exact challengeEnroll_overwrites hc hf hx hreach
  | _ => cases h

/-- Beginning an enrollment is never one of the exceptions. -/
theorem overwrites_not_exempt (h : v.Overwrites s u) : ¬ v.Exempt p s u := by
  rcases v with ⟨r, ω⟩
  cases r with
  | enroll headers method => exact id
  | challengeEnroll headers token method => exact id
  | _ => cases h

end Visit

/-! ## Runs -/

/-- **When a second factor survives.** In every run and for every user: a visit
that meets an enabled credential keeps it enabled with its method and secret, or
is `disable` with password and code or an administrator's reset, exactly when it
does not get past the upsert of an enrollment; and through a run without such
visits and without those exceptions the credential stays. -/
theorem keeps_second_factor_iff (p : Platform) (s₀ : Server) (run : List Visit) (u : Uuid) :
    (∀ s v, Visits p s₀ run s v → s.MfaEnabled u →
      ((KeepsFactor u s (v.after p s) ∨ v.Exempt p s u) ↔ ¬ v.Overwrites s u)) ∧
    ((∀ s v, Visits p s₀ run s v → ¬ v.Overwrites s u ∧ ¬ v.Exempt p s u) →
      KeepsFactor u s₀ (stateAfter p s₀ run)) := by
  constructor
  · rintro s v - ⟨row, hrow, hen⟩
    constructor
    · rintro (hkeeps | hex) hover
      · -- kept, yet cleared by the upsert
        rcases hkeeps row.method row.secret ⟨row, hrow, hen, rfl, rfl⟩ with ⟨row', hrow', hen', -⟩
        exact overwrites_removes hover ⟨row', hrow', hen'⟩
      · exact overwrites_not_exempt hover hex
    · exact keepsFactor_or_exempt
  · induction run generalizing s₀ with
    | nil => intro _; exact KeepsFactor.refl u s₀
    | cons v run ih =>
        intro h
        rcases h s₀ v (visits_cons.mpr (Or.inl ⟨rfl, rfl⟩)) with ⟨hover, hex⟩
        have hfirst : KeepsFactor u s₀ (v.after p s₀) :=
          (keepsFactor_or_exempt hover).resolve_right hex
        exact hfirst.trans (ih (v.after p s₀) fun s w hw => h s w (visits_cons.mpr (Or.inr hw)))

/-! ## A bearer token is enough -/

def sampleBearer : Headers := { sampleHeaders with authorization := some sampleAccess }

/-- The twenty bytes `12345678901234567890`, drawn as the secret. -/
def sampleEnroll : Visit :=
  ⟨.enroll sampleBearer none, steadily (Timestamp.seconds 1111111109)
    0x3132333435363738393031323334353637383930⟩

def sampleEnrollConfirm : Visit :=
  ⟨.enrollConfirm sampleBearer "081804", steadily (Timestamp.seconds 1111111109) 0⟩

def sampleEnrollAgain : Visit :=
  ⟨.enroll sampleBearer none, steadily (Timestamp.seconds 1111111111) 0⟩

/-- Login, enrollment and confirmation enable the factor; the bearer token that
login handed out then takes it away with a second `enroll`. -/
theorem enroll_turns_mfa_off :
    let p := samplePlatform .sqlite
    let s := stateAfter p sampleServer [sampleLogin, sampleEnroll, sampleEnrollConfirm]
    (sampleLogin.response p sampleServer).map (·.body) =
        some (.session sampleAccess (publicUser sampleUser) none) ∧
      s.MfaEnabled 1 ∧
      ¬ (KeepsFactor 1 s (sampleEnrollAgain.after p s) ∨ sampleEnrollAgain.Exempt p s 1) := by
  intro p s
  have henabled : s.MfaEnabled 1 := by decide +kernel
  have hcleared : ¬ (sampleEnrollAgain.after p s).MfaEnabled 1 := by decide +kernel
  refine ⟨by decide +kernel, henabled, ?_⟩
  rintro (hkeeps | hex)
  · rcases henabled with ⟨row, hrow, hen⟩
    rcases hkeeps row.method row.secret ⟨row, hrow, hen, rfl, rfl⟩ with ⟨row', hrow', hen', -⟩
    exact hcleared ⟨row', hrow', hen'⟩
  · exact hex

end AnatoliaBis.Auth
