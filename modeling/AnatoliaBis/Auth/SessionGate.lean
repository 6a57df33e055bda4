import AnatoliaBis.Auth.SecondFactor

/-! # No session without the second factor

A request that stores a session for a user whose credential is enabled must
itself have checked a code of that user. `verify_code` and a fresh confirmation
do check one; `login` stores a session only where nothing is enabled. The retry
path of `confirm_enrollment` does not: an enrollment token drawn before the
credential was enabled gets its holder a session without any code
(`stale_enrollment_token_opens_session`).
-/

namespace AnatoliaBis.Auth

open Atomic Program

/-! ## Checks -/

/-- The operation is a successful check of `code` against `u`'s second factor as
it stood at that moment: the right TOTP code, the emailed code before its expiry,
or an unused recovery code. -/
def Checked (p : Platform) (u : Uuid) (code : String) (ev : Step) : Prop :=
  match ev.op with
  | .totpCheck secret accountName submitted =>
      submitted = trim code ∧ p.checkTotp secret accountName submitted ev.env.now ∧
        ∃ row ∈ ev.before.mfaCredentials u, row.method = .totp ∧ row.secret = secret
  | .db (.consumeEmailMfaCode v hash) | .db (.enableEmailMfaCredential v hash) =>
      v = u ∧ hash = p.sha256Hex (trim code) ∧
        ∃ row ∈ ev.before.mfaCredentials u, row.acceptsEmailCode (p.now ev.env.now) hash
  | .db (.consumeRecoveryCode v hash) =>
      v = u ∧ hash = p.sha256Hex (trim code) ∧
        ∃ row ∈ ev.before.recoveryCodes, row.isUnused u hash
  | _ => False

instance (p : Platform) (u : Uuid) (code : String) (ev : Step) :
    Decidable (Checked p u code ev) := by
  unfold Checked
  split <;> infer_instance

instance (u : Uuid) (op : Call) : Decidable (op.Issues u) := by
  unfold Call.Issues
  split <;> infer_instance

/-- Every session the operations store for a user with an enabled credential is
matched by a successful check of the submitted code. -/
def Gated (p : Platform) (code : Option String) (evs : List Step) : Prop :=
  ∀ ev ∈ evs, ∀ u, ev.op.Issues u → ev.before.MfaEnabled u →
    ∃ c ∈ code, ∃ ev' ∈ evs, Checked p u c ev'

section Gated

variable {p : Platform} {code : Option String} {evs evs' : List Step} {u : Uuid}

/-- Operations that store nothing may come first. -/
theorem Gated.prepend (h : ∀ ev ∈ evs, ∀ u, ¬ ev.op.Issues u) (h' : Gated p code evs') :
    Gated p code (evs ++ evs') := by
  intro ev hev u hu hen
  rcases List.mem_append.mp hev with hev | hev
  · exact absurd hu (h ev hev u)
  · rcases h' ev hev u hu hen with ⟨c, hc, ev', hev', hch⟩
    exact ⟨c, hc, ev', List.mem_append_right _ hev', hch⟩

theorem Gated.cons {ev : Step} (h : ∀ u, ¬ ev.op.Issues u) (h' : Gated p code evs) :
    Gated p code (ev :: evs) := by
  rw [← List.singleton_append]
  exact Gated.prepend (by simpa using h) h'

/-- After a check, sessions of that user may be stored. -/
theorem Gated.of_checked {c : String} (hc : c ∈ code) (h : ∀ ev ∈ evs, ∀ u, ¬ ev.op.Issues u)
    (hcheck : ∃ ev ∈ evs, Checked p u c ev)
    (h' : ∀ ev ∈ evs', ev.op.Quiet ∨ ev.op.Issues u) : Gated p code (evs ++ evs') := by
  intro ev hev w hw _
  rcases List.mem_append.mp hev with hev | hev
  · exact absurd hw (h ev hev w)
  · rcases h' ev hev with hq | hu
    · exact absurd hw hq.not_issues
    · rcases hcheck with ⟨ev', hev', hch⟩
      rw [← hu.eq hw]
      exact ⟨c, hc, ev', List.mem_append_left _ hev', hch⟩

/-- Storing nothing is fine. -/
theorem Gated.of_not_issues (h : ∀ ev ∈ evs, ∀ u, ¬ ev.op.Issues u) : Gated p code evs :=
  fun ev hev u hu _ => absurd hu (h ev hev u)

end Gated

/-! ## What the checking functions check -/

section Verification

variable {p : Platform} {E : Env → Prop} {s : Server} {u : Uuid} {accountName code : String}

theorem totpCodeMatches_wp {row : MfaCredentialRow} (hrow : s.mfaCredentials u = some row)
    (hm : row.method = .totp) :
    (totpCodeMatches row.secret accountName code).wp (exec p) E
      (fun evs ok s' => s' = s ∧ (ok = true → ∃ ev ∈ evs, Checked p u code ev)) s := by
  unfold totpCodeMatches
  split
  · exact ⟨rfl, by simp⟩
  · intro e _
    refine ⟨rfl, fun hok => ⟨_, List.mem_singleton_self _, rfl, hok, row, hrow, hm, rfl⟩⟩

theorem credentialTotpMatches_wp {row : MfaCredentialRow} (hrow : s.mfaCredentials u = some row)
    (hm : row.method = .totp) :
    (credentialTotpMatches p row.secret accountName code).wp (exec p) E
      (fun evs ok _ => ok = true → ∃ ev ∈ evs, Checked p u code ev) s := by
  unfold credentialTotpMatches
  split
  · exact wp_mono (fun _ _ _ h => h.2) (totpCodeMatches_wp hrow hm)
  · simp

/-- A statement that reports an affected row has found one. -/
theorem updateMfaCredential_affected {cond : MfaCredentialRow → Bool}
    {f : MfaCredentialRow → MfaCredentialRow} (h : (s.updateMfaCredential u cond f).2 = true) :
    ∃ row, s.mfaCredentials u = some row ∧ cond row := by
  unfold Server.updateMfaCredential at h
  split at h
  next row hrow => exact ⟨row, Option.filter_eq_some_iff.mp hrow⟩
  next => cases h

/-- What a successful statement was. -/
theorem exec_ok {q : Query} {e : Env} {r : q.Res} (h : (exec p (.db q) e s).2 = .ok r) :
    (q.perform p e.now s).2 = r := by
  cases hf : e.fails with
  | true => simp [exec_db_of_fails s hf] at h
  | false => simpa [exec_db_of_succeeds s hf] using h

theorem verifyRecoveryCode_wp :
    (verifyRecoveryCode p u code).wp (exec p) E
      (fun evs r _ => r ≠ .failed → ∃ ev ∈ evs, Checked p u code ev) s := by
  unfold verifyRecoveryCode
  rw [wp_query_bind]
  intro e _
  split
  next h =>
    rw [wp_query_bind]
    intro e' _ _
    refine ⟨_, List.mem_cons_self .., rfl, rfl, ?_⟩
    simpa [Query.perform] using exec_ok h
  next => exact fun h => absurd rfl h

/-- Looking a credential up changes nothing. -/
theorem exec_findMfaCredential_fst (e : Env) :
    (exec p (.db (.findMfaCredential u)) e s).1 = s := by
  cases hf : e.fails with
  | true => rw [exec_db_of_fails s hf]
  | false =>
      rw [exec_db_of_succeeds s hf]
      rfl

theorem enabledCredential_eq_some {e : Env} {row : MfaCredentialRow}
    (h : enabledCredential (exec p (.db (.findMfaCredential u)) e s).2 = some row) :
    s.mfaCredentials u = some row ∧ row.enabledAt.isSome := by
  cases hf : e.fails with
  | true => simp [exec_db_of_fails s hf, enabledCredential] at h
  | false =>
      simp only [exec_db_of_succeeds s hf, enabledCredential, Query.perform] at h
      simpa using Option.filter_eq_some_iff.mp h

/-- **`verify_code` accepts only a code it has checked.** -/
theorem verifyCode_wp :
    (verifyCode p u accountName code).wp (exec p) E
      (fun evs r _ => r = .ok .primary ∨ r = .ok .recovery → ∃ ev ∈ evs, Checked p u code ev)
      s := by
  unfold verifyCode
  rw [wp_perform_bind]
  intro e _
  rw [exec_compareCode]
  unfold verifyCredential
  rw [wp_query_bind]
  intro e' _
  rw [exec_findMfaCredential_fst]
  -- a recovery code is tried last, whatever came before
  have hrecovery : ∀ (evs₀ : List Step) (s' : Server),
      (verifyRecoveryCode p u code >>= fun outcome => pure (Except.ok outcome)).wp (exec p) E
        (fun evs (r : Except ApiError VerifyOutcome) _ => r = .ok .primary ∨ r = .ok .recovery →
          ∃ ev ∈ evs₀ ++ evs, Checked p u code ev) s' := by
    intro evs₀ s'
    refine wp_bind_of verifyRecoveryCode_wp fun evs r s'' h hr => ?_
    have hne : r ≠ .failed := by
      rintro rfl
      simp at hr
    rcases h hne with ⟨ev, hev, hch⟩
    exact ⟨ev, by simp [hev], hch⟩
  split
  next => simp
  next row hrow =>
    rcases enabledCredential_eq_some hrow with ⟨hrow, -⟩
    split
    next =>
      rw [wp_query_bind]
      intro e'' _
      split
      next hok =>
        intro _
        rcases updateMfaCredential_affected (exec_ok hok) with ⟨row', hrow', hacc⟩
        exact ⟨⟨.db (.consumeEmailMfaCode u (p.sha256Hex (trim code))), e'', s, _⟩,
          List.mem_cons_of_mem _ (List.mem_cons_of_mem _ (List.mem_cons_self ..)),
          rfl, rfl, row', hrow', hacc⟩
      next => exact hrecovery [_, _, _] _
    next hm =>
      refine wp_bind_of (credentialTotpMatches_wp hrow hm) fun evs ok s' hok => ?_
      split
      next htrue =>
        rw [wp_query_bind]
        intro e'' _ _
        rcases hok htrue with ⟨ev, hev, hch⟩
        exact ⟨ev, by simp [hev], hch⟩
      next =>
        refine wp_mono (fun evs' r s'' h hr => ?_) (hrecovery [] s')
        rcases h hr with ⟨ev, hev, hch⟩
        exact ⟨ev, by simpa using Or.inr (Or.inr (Or.inr hev)), hch⟩

/-- A pending credential is enabled by a checked code only. -/
theorem enablePending_wp {pending : MfaCredentialRow} (hrow : s.mfaCredentials u = some pending) :
    (enablePending p u accountName code pending).wp (exec p) E
      (fun evs r _ => r = .ok true → ∃ ev ∈ evs, Checked p u code ev) s := by
  unfold enablePending
  split
  next =>
    rw [wp_perform_bind]
    intro e _
    rw [exec_compareCode, wp_query_bind]
    intro e' _
    split
    next => simp
    next enabled hok =>
      intro h
      have htrue : enabled = true := by simpa using h
      subst htrue
      rcases updateMfaCredential_affected (exec_ok hok) with ⟨row', hrow', hacc⟩
      exact ⟨⟨.db (.enableEmailMfaCredential u (p.sha256Hex (trim code))), e', s, _⟩,
        List.mem_cons_of_mem _ (List.mem_cons_self ..), rfl, rfl, row', hrow', hacc⟩
  next hm =>
    split
    next =>
      rw [wp_perform_bind]
      intro e _
      rw [exec_compareCode]
      refine wp_bind_of (totpCodeMatches_wp hrow hm) fun evs ok s' hok => ?_
      rcases hok with ⟨-, hok⟩
      split
      next htrue =>
        rw [wp_query_bind]
        intro e' _
        rcases hok htrue with ⟨ev, hev, hch⟩
        split
        · simp
        · intro _
          exact ⟨ev, by simp [hev], hch⟩
      next => simp
    next => simp

/-- Confirming an enrollment yields recovery codes after a checked code only; it
yields `AlreadyEnabled` where the credential was enabled before. -/
theorem confirmEnrollment_wp :
    (confirmEnrollment p u accountName code).wp (exec p) E
      (fun evs r _ => (∀ codes, r = .ok (.enabled codes) → ∃ ev ∈ evs, Checked p u code ev) ∧
        (r = .ok .alreadyEnabled → s.MfaEnabled u)) s := by
  unfold confirmEnrollment
  rw [wp_query_bind]
  intro e _
  rw [exec_findMfaCredential_fst]
  split
  next pending hfound =>
    have hrow : s.mfaCredentials u = some pending := exec_ok hfound
    split
    next hen =>
      -- the retry: nothing is checked
      exact ⟨by simp, fun _ => ⟨pending, hrow, hen⟩⟩
    next =>
      refine wp_bind_of (enablePending_wp hrow) fun evs r s' hr => ?_
      split
      · simp
      · simp
      · rcases hr rfl with ⟨ev, hev, hch⟩
        refine wp_mono ?_ ((issueRecoveryCodes_performs u).wp_mem s')
        rintro evs' r' s'' ⟨-, hne⟩
        exact ⟨fun codes _ => ⟨ev, by simp [hev], hch⟩, fun h => absurd h hne⟩
  next => simp

end Verification

/-! ## The requests that store a session -/

section Requests

variable {p : Platform} {E : Env → Prop} {s : Server} {headers : Headers} {code : Option String}

/-- In front of a handler, anything that stores no session. -/
theorem wp_gated_bind {α β : Type} {P : Call → Prop} {R : α → Prop} {h : Handler α}
    {f : α → Handler β} (hp : h.Performs (exec p) P R) (hP : ∀ op, P op → ∀ u, ¬ op.Issues u)
    (hf : ∀ a s', R a → (f a).wp (exec p) E (fun evs _ _ => Gated p code evs) s') :
    (h >>= f).wp (exec p) E (fun evs _ _ => Gated p code evs) s := by
  refine wp_bind_of (hp.wp_mem s) fun evs a s' h => ?_
  rcases h with ⟨hevs, ha⟩
  exact wp_mono (fun _ _ _ => Gated.prepend fun ev hev => hP _ (hevs ev hev)) (hf a s' ha)

theorem wp_gated_of_quiet {α : Type} {R : α → Prop} {h : Handler α}
    (hp : h.Performs (exec p) Call.Quiet R) :
    h.wp (exec p) E (fun evs _ _ => Gated p code evs) s := by
  refine wp_mono ?_ (hp.wp_mem s)
  rintro evs a s' ⟨hevs, -⟩
  exact Gated.of_not_issues fun ev hev u => (hevs ev hev).not_issues

/-- An update that leaves the flag alone. -/
theorem mfaEnabled_updateMfaCredential {u v : Uuid} {cond : MfaCredentialRow → Bool}
    {f : MfaCredentialRow → MfaCredentialRow} (hf : ∀ row, (f row).enabledAt = row.enabledAt) :
    (s.updateMfaCredential v cond f).1.MfaEnabled u ↔ s.MfaEnabled u := by
  unfold Server.updateMfaCredential
  split
  next row hrow =>
    have hfound := (Option.filter_eq_some_iff.mp hrow).1
    by_cases h : u = v
    · subst h
      simp [Server.MfaEnabled, setMfaCredential_self, hfound, hf]
    · simp [Server.MfaEnabled, setMfaCredential_of_ne h]
  next => exact Iff.rfl

/-- Storing a session and harmless operations leave the flag alone. -/
theorem exec_mfaEnabled {u v : Uuid} {op : Call} (h : op.Quiet ∨ op.Issues v) (e : Env) :
    (exec p op e s).1.MfaEnabled u ↔ s.MfaEnabled u := by
  cases op with
  | db q =>
      simp only [exec]
      split_ifs
      · exact Iff.rfl
      · cases q with
        | updateEmailMfaCode w hash expiresAt =>
            exact mfaEnabled_updateMfaCredential fun _ => rfl
        | touchMfaLastUsed w => exact mfaEnabled_updateMfaCredential fun _ => rfl
        | upsertPendingMfaCredential | upsertPendingEmailMfaCredential | enableEmailMfaCredential
        | consumeEmailMfaCode | enableMfaCredential | deleteMfaCredential =>
            simp [Call.Quiet, Call.Issues] at h
        | _ => exact Iff.rfl
  | _ => exact Iff.rfl

/-- A session for a user with nothing enabled needs no check. -/
theorem openSession_wp {user : UserRow} (hs : ¬ s.MfaEnabled user.id) :
    (openSession p headers user).wp (exec p) E (fun evs _ _ => Gated p code evs) s := by
  have hperforms := (openSession_performs (p := p) headers user).wp (E := E)
    (T := fun s s' => s'.MfaEnabled user.id ↔ s.MfaEnabled user.id) (fun _ => Iff.rfl)
    (by rintro s s' s'' h h'; exact h'.trans h) (fun op e s _ hop => exec_mfaEnabled hop e) s
  refine wp_mono ?_ hperforms
  rintro evs r s' ⟨hevs, -, -⟩ ev hev w hw hen
  rcases hevs ev hev with ⟨hq | hu, hsame⟩
  · exact absurd hw hq.not_issues
  · rw [← hu.eq hw] at hen
    exact absurd (hsame.mp hen) hs

/-- `login_mfa_outcome` asks for nothing only where nothing is enabled. -/
theorem loginMfaOutcome_wp (user : UserRow) :
    (loginMfaOutcome p user).wp (exec p) (fun e => e.fails = false)
      (fun evs r s' => (∀ ev ∈ evs, ∀ u, ¬ ev.op.Issues u) ∧
        (r = .notRequired → ¬ s'.MfaEnabled user.id)) s := by
  have hdisabled : (loginMfaOutcome p user).wp (exec p) (fun e => e.fails = false)
      (fun _ r s' => r = .notRequired → ¬ s'.MfaEnabled user.id) s := by
    unfold loginMfaOutcome
    rw [wp_query_bind]
    intro e he
    rw [exec_db_of_succeeds s he]
    dsimp only [Query.perform, enabledCredential]
    split
    next => simp
    next hnone =>
      have hdisabled : ¬ s.MfaEnabled user.id := by
        rintro ⟨row, hrow, hen⟩
        rw [hrow, Option.filter_some, if_pos hen] at hnone
        cases hnone
      split_ifs
      · simp
      · exact fun _ => hdisabled
  refine wp_mono ?_ (wp_and ((loginMfaOutcome_performs user).wp_mem s) hdisabled)
  rintro evs r s' ⟨⟨hevs, -⟩, hr⟩
  exact ⟨fun ev hev u => (hevs ev hev).not_issues, hr⟩

/-- `login` hands out a session only where nothing is enabled. -/
theorem loginUser_wp (user : UserRow) :
    (loginUser p headers user).wp (exec p) (fun e => e.fails = false)
      (fun evs _ _ => Gated p code evs) s := by
  refine wp_bind_of (loginMfaOutcome_wp user) fun evs outcome s' h => ?_
  rcases h with ⟨hevs, hfree⟩
  refine wp_mono (fun _ _ _ => Gated.prepend hevs) ?_
  by_cases hout : outcome = .notRequired
  · subst hout
    exact openSession_wp (hfree rfl)
  · exact wp_gated_of_quiet (loginChallenge_performs headers user hout)

theorem login_wp (userCode password : String) :
    (login p headers userCode password).wp (exec p) (fun e => e.fails = false)
      (fun evs _ _ => Gated p code evs) s := by
  have hrefuse : ∀ user result reason err s',
      (refuseLogin p headers user result reason err).wp (exec p) (fun e => e.fails = false)
        (fun evs _ _ => Gated p code evs) s' := fun user result reason err s' =>
    wp_gated_of_quiet (refuseLogin_performs headers user result reason err)
  refine wp_gated_bind (checkLimits_performs (loginLimits_key_ne headers userCode))
    (fun _ h _ => h.not_issues) fun allowed s' _ => ?_
  split
  · refine wp_gated_bind (query_performs (P := Call.Quiet) (q := .loadUserByCode _) trivial)
      (fun _ h _ => h.not_issues) fun found s'' _ => ?_
    split
    · exact Gated.of_not_issues (by simp)
    · exact wp_gated_of_quiet (R := fun _ => True) ((save_performs _).bind fun _ _ => trivial)
    · split_ifs
      · exact hrefuse ..
      · exact hrefuse ..
      · exact hrefuse ..
      · exact loginUser_wp _
  · exact Gated.of_not_issues (by simp)

/-- A login completed after a check. -/
theorem completeLogin_gated {user : UserRow} {c : String} {codes : Option (List String)}
    {evs : List Step} (hevs : ∀ ev ∈ evs, ∀ u, ¬ ev.op.Issues u)
    (hcheck : ∃ ev ∈ evs, Checked p user.id c ev) :
    (completeLogin p user headers codes).wp (exec p) E
      (fun evs' _ _ => Gated p (some c) (evs ++ evs')) s := by
  refine wp_mono ?_ ((completeLogin_performs user headers codes).wp_mem s)
  rintro evs' r s' ⟨hevs', -⟩
  exact Gated.of_checked rfl hevs hcheck hevs'

/-- More harmless operations after the check. -/
theorem completeLogin_gated_after {α : Type} {R : α → Prop} {h : Handler α}
    (hp : h.Performs (exec p) Call.Quiet R) {f : α → Handler Response} {c : String} {user : UserRow}
    {evs : List Step} (hevs : ∀ ev ∈ evs, ∀ u, ¬ ev.op.Issues u)
    (hcheck : ∃ ev ∈ evs, Checked p user.id c ev)
    (hf : ∀ a s' evs', (∀ ev ∈ evs', ∀ u, ¬ ev.op.Issues u) →
      (∃ ev ∈ evs', Checked p user.id c ev) →
      (f a).wp (exec p) E (fun evs'' _ _ => Gated p (some c) (evs' ++ evs'')) s') :
    (h >>= f).wp (exec p) E (fun evs' _ _ => Gated p (some c) (evs ++ evs')) s := by
  refine wp_bind_of (hp.wp_mem s) fun evs' a s' h => ?_
  rcases h with ⟨hevs', -⟩
  have hall : ∀ ev ∈ evs ++ evs', ∀ u, ¬ ev.op.Issues u := by
    intro ev hev
    rcases List.mem_append.mp hev with hev | hev
    · exact hevs ev hev
    · exact fun u => (hevs' ev hev).not_issues
  rcases hcheck with ⟨ev, hev, hch⟩
  refine wp_mono (fun evs'' r s'' h => ?_)
    (hf a s' (evs ++ evs') hall ⟨ev, List.mem_append_left _ hev, hch⟩)
  rwa [← List.append_assoc]

theorem finishVerification_gated {user : UserRow} {c : String}
    {outcome : Except ApiError VerifyOutcome} {evs : List Step}
    (hevs : ∀ ev ∈ evs, ∀ u, ¬ ev.op.Issues u)
    (hcheck : outcome = .ok .primary ∨ outcome = .ok .recovery →
      ∃ ev ∈ evs, Checked p user.id c ev) :
    (finishVerification p headers user outcome).wp (exec p) E
      (fun evs' _ _ => Gated p (some c) (evs ++ evs')) s := by
  unfold finishVerification
  split
  · exact completeLogin_gated hevs (hcheck (Or.inl rfl))
  · exact completeLogin_gated_after (save_performs _) hevs (hcheck (Or.inr rfl))
      fun _ _ _ hevs' hcheck' => completeLogin_gated hevs' hcheck'
  · exact wp_mono (fun _ _ _ => Gated.prepend hevs)
      (wp_gated_of_quiet (R := fun _ => True) ((save_performs _).bind fun _ _ => trivial))

/-- `challenge_verify` stores a session only after `verify_code` has accepted. -/
theorem challengeVerify_wp (token : Token) (c : String) :
    (challengeVerify p headers token c).wp (exec p) E
      (fun evs _ _ => Gated p (some c) evs) s := by
  refine wp_gated_bind (decodeChallengeToken_performs token .login)
    (fun _ h _ => h.not_issues) fun found s' _ => ?_
  split
  · exact Gated.of_not_issues (by simp)
  · refine wp_gated_bind (loadUserOrUnauthorized_performs _)
      (fun _ h _ => h.not_issues) fun found s' _ => ?_
    split
    · exact Gated.of_not_issues (by simp)
    next user _ =>
      rw [wp_perform_bind]
      intro e _
      have hcharge : ∀ v, ¬ (Call.rateCheck (mfaVerifyKey user.id) 8 quarterHour).Issues v :=
        fun _ => id
      split
      · refine wp_mono (fun evs r s'' => Gated.cons hcharge) ?_
        refine wp_bind_of (wp_and verifyCode_wp ((verifyCode_performs ..).wp_mem _))
          fun evs outcome s'' h => ?_
        rcases h with ⟨hcheck, hevs, -⟩
        refine finishVerification_gated (fun ev hev v => ?_) hcheck
        rcases hevs ev hev with hq | hv
        · exact hq.not_issues
        · exact hv.not_issues
      · exact Gated.of_not_issues (by simpa using hcharge)

theorem finishEnrollment_gated {user : UserRow} {c : String}
    {outcome : Except ApiError ConfirmOutcome} {evs : List Step}
    (hevs : ∀ ev ∈ evs, ∀ u, ¬ ev.op.Issues u)
    (hcheck : ∀ codes, outcome = .ok (.enabled codes) → ∃ ev ∈ evs, Checked p user.id c ev)
    (hretry : outcome ≠ .ok .alreadyEnabled) :
    (finishEnrollment p headers user outcome).wp (exec p) E
      (fun evs' _ _ => Gated p (some c) (evs ++ evs')) s := by
  unfold finishEnrollment
  split
  · exact Gated.of_not_issues (by simpa using hevs)
  · exact absurd rfl hretry
  next codes =>
    refine completeLogin_gated_after (saveMandatory_performs _) hevs (hcheck codes rfl)
      fun r s' evs' hevs' hcheck' => ?_
    split
    · exact Gated.of_not_issues (by simpa using hevs')
    · exact completeLogin_gated hevs' hcheck'

/-- `challenge_enroll_confirm` stores a session only after a confirmation, or
where it takes the retry path. -/
theorem challengeEnrollConfirm_gated {token : Token} {c : String} {ω : Nat → Env}
    (hretry : ∀ u, token.challengeUser (ω 0).now .enrollment = some u →
      (s.findActiveUser u).isSome → ¬ s.MfaEnabled u) :
    Gated p (some c) ((challengeEnrollConfirm p headers token c).trace (exec p) ω s) := by
  unfold challengeEnrollConfirm
  rw [trace_decodeChallengeToken]
  refine Gated.cons (fun _ => id) ?_
  split
  · exact Gated.of_not_issues (by simp)
  next u hu =>
    rw [trace_loadUserOrUnauthorized]
    refine Gated.cons (fun _ => id) ?_
    split
    · exact Gated.of_not_issues (by simp)
    next user hfound =>
      have huser : s.findActiveUser u = some user := (Option.ite_none_left_eq_some.mp hfound).2
      have hid : user.id = u := Server.findActiveUser_id huser
      have hfree : ¬ s.MfaEnabled user.id := hid ▸ hretry u hu (by simp [huser])
      -- from here on, whatever the environment
      have hrest : (confirmEnrollment p user.id user.userCode c >>=
          finishEnrollment p headers user).wp (exec p) (fun _ => True)
            (fun evs _ _ => Gated p (some c) evs) s := by
        refine wp_bind_of (wp_and confirmEnrollment_wp ((confirmEnrollment_performs ..).wp_mem s))
          fun evs outcome s' h => ?_
        rcases h with ⟨⟨hcheck, halready⟩, hevs, -⟩
        refine finishEnrollment_gated (fun ev hev v => ?_) hcheck fun h => hfree (halready h)
        rcases hevs ev hev with hq | hc
        · exact hq.not_issues
        · exact hc.not_issues
      exact wp_run hrest fun _ => trivial

end Requests

/-! ## Runs -/

/-- The code a request carries. -/
def Request.code : Request → Option String
  | .enrollConfirm _ code | .challengeEnrollConfirm _ _ code | .challengeVerify _ _ code
  | .disable _ _ code => some code
  | _ => none

/-- The visit is `challenge_enroll_confirm` with a live enrollment token of an
active user whose credential is already enabled. -/
def Visit.RetriesEnrollment (s : Server) (v : Visit) : Prop :=
  match v.request with
  | .challengeEnrollConfirm _ token _ =>
      ∃ u ∈ token.challengeUser (v.env 0).now .enrollment,
        (s.findActiveUser u).isSome ∧ s.MfaEnabled u
  | _ => False

instance (s : Server) (v : Visit) : Decidable (v.RetriesEnrollment s) := by
  unfold Visit.RetriesEnrollment
  split <;> infer_instance

theorem gated_steps {p : Platform} {s : Server} {v : Visit} (hsucceeds : v.Succeeds)
    (hretry : ¬ v.RetriesEnrollment s) : Gated p v.request.code (v.steps p s) := by
  have hnone : (∀ op, v.request.Footprint op → ∀ u, ¬ op.Issues u) →
      Gated p v.request.code (v.steps p s) := fun h => Gated.of_not_issues fun ev hev =>
    h _ ((handle_performs p v.request).trace_mem v.env s ev hev)
  rcases v with ⟨r, ω⟩
  cases r with
  | login headers userCode password =>
      rw [steps_eq rfl]
      exact wp_run (login_wp userCode password) hsucceeds
  | challengeVerify headers token code =>
      rw [steps_eq rfl]
      exact wp_run (challengeVerify_wp (E := fun _ => True) token code) fun _ => trivial
  | challengeEnrollConfirm headers token code =>
      rw [steps_eq rfl]
      exact challengeEnrollConfirm_gated fun u hu huser hen => hretry ⟨u, hu, huser, hen⟩
  | _ =>
      -- no other request has storing a session in its footprint
      refine hnone fun op hop u hu => ?_
      rcases hu.eq_insertSession with ⟨_, _, _, _, _, _, _, rfl⟩
      simp [Request.Footprint, Call.Quiet, Call.Upserts, Call.Confirms, Call.Verifies,
        Call.Spends, Call.Deletes, Call.Rotates] at hop

/-- **No session without the second factor**, in every run in which no statement
fails and nobody confirms with an enrollment token of a user whose credential is
enabled by then. -/
theorem session_needs_second_factor (p : Platform) (s₀ : Server) (run : List Visit)
    (hsucceeds : ∀ v ∈ run, v.Succeeds)
    (hretries : ∀ s v, Visits p s₀ run s v → ¬ v.RetriesEnrollment s) :
    ∀ s v, Visits p s₀ run s v → Gated p v.request.code (v.steps p s) := by
  intro s v hv
  refine gated_steps ?_ (hretries s v hv)
  rcases hv with ⟨before, later, rfl, -⟩
  exact hsucceeds v (by simp)

/-! ## A stale enrollment token -/

/-- The sample account in a role that must have a second factor. -/
def sampleReviewServer : Server :=
  { sampleServer with users := [{ sampleUser with role := "REVIEWER" }] }

/-- The enrollment token its login hands out. -/
def sampleEnrollmentToken : Token := .challenge ⟨1, .enrollment, 1111111709⟩

def sampleChallengeEnroll : Visit :=
  ⟨.challengeEnroll sampleHeaders sampleEnrollmentToken none,
    steadily (Timestamp.seconds 1111111109) 0x3132333435363738393031323334353637383930⟩

def sampleChallengeConfirm (code : String) : Visit :=
  ⟨.challengeEnrollConfirm sampleHeaders sampleEnrollmentToken code,
    steadily (Timestamp.seconds 1111111109) 0⟩

/-- A first confirmation opens its session after a check. -/
theorem session_needs_second_factor_sample :
    let p := samplePlatform .sqlite
    let s := stateAfter p sampleReviewServer [sampleLogin, sampleChallengeEnroll]
    Gated p (some "081804") ((sampleChallengeConfirm "081804").steps p s) := by
  intro p s
  refine session_needs_second_factor p sampleReviewServer
    [sampleLogin, sampleChallengeEnroll, sampleChallengeConfirm "081804"] ?_ ?_ s _
    ⟨[sampleLogin, sampleChallengeEnroll], [], rfl, rfl⟩
  · intro v hv
    simp only [List.mem_cons, List.not_mem_nil, or_false] at hv
    rcases hv with rfl | rfl | rfl
    all_goals exact fun _ => rfl
  · intro s v hv
    simp only [visits_cons, visits_nil, or_false] at hv
    rcases hv with ⟨rfl, rfl⟩ | ⟨rfl, rfl⟩ | ⟨rfl, rfl⟩
    all_goals decide +kernel

/-- The token from a login before the credential was enabled, presented after
somebody else confirmed the enrollment, with a wrong code. -/
theorem stale_enrollment_token_opens_session :
    let p := samplePlatform .sqlite
    let s := stateAfter p sampleReviewServer
      [sampleLogin, sampleChallengeEnroll, sampleChallengeConfirm "081804"]
    (sampleLogin.response p sampleReviewServer).map (·.body) =
        some (.mfaEnrollmentRequired sampleEnrollmentToken "OP-1") ∧
      ((sampleChallengeConfirm "000000").response p s).map (·.status) = some 200 ∧
      ¬ Gated p (some "000000") ((sampleChallengeConfirm "000000").steps p s) := by
  intro p s
  have hissued : ∃ ev ∈ (sampleChallengeConfirm "000000").steps p s,
      ev.op.Issues 1 ∧ ev.before.MfaEnabled 1 := by
    decide +kernel
  have hunchecked : ∀ ev ∈ (sampleChallengeConfirm "000000").steps p s,
      ¬ Checked p 1 "000000" ev := by
    decide +kernel
  refine ⟨by decide +kernel, by decide +kernel, fun hgated => ?_⟩
  rcases hissued with ⟨ev, hev, hissue, henabled⟩
  rcases hgated ev hev 1 hissue henabled with ⟨c, hc, ev', hev', hcheck⟩
  have hcode : c = "000000" := (Option.some.inj hc).symm
  subst hcode
  exact hunchecked ev' hev' hcheck

end AnatoliaBis.Auth
