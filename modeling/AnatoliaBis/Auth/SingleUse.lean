import AnatoliaBis.Auth.CodeLifetime
import AnatoliaBis.Auth.CodeSteps
import AnatoliaBis.Auth.Replay

/-! # Codes are used once

Any number of `verify_code` and `confirm_enrollment` calls, sends of emailed codes
and replacements of recovery codes, their statements interleaved. A code is taken
by the `UPDATE` that looks for it, and the number of rows decides: a code that was
taken is gone before another statement looks (`used_once`). Codes are told apart
as the tables do it, by their digests.
-/

namespace AnatoliaBis.Auth

open Atomic Program

/-! ## Once per sending, once per issue -/

/-- The user has an emailed code with this digest in place. -/
def Server.holdsEmailed (s : Server) (u : Uuid) (digest : String) : Bool :=
  (s.emailedCode u).any fun code => code.1 == digest

/-- The user has an unused recovery code with this digest. -/
def Server.holdsRecovery (s : Server) (u : Uuid) (digest : String) : Bool :=
  s.recoveryCodes.any (·.isUnused u digest)

def sendsTo (p : Platform) (u : Uuid) (digest : String) (ev : Step) : Bool :=
  (sending p ev).any fun sent => sent.1 == u && sent.2.1 == digest

def takesFrom (p : Platform) (u : Uuid) (digest : String) (ev : Step) : Bool :=
  taking p ev == some (u, digest)

def issuesTo (u : Uuid) (digest : String) (ev : Step) : Bool := issuing ev == some (u, digest)

def spendsFrom (p : Platform) (u : Uuid) (digest : String) (ev : Step) : Bool :=
  spending p ev == some (u, digest)

section Counting

variable {p : Platform} {e : Env} {s : Server} {u : Uuid} {digest : String}

/-- A code that is accepted is no longer held, and only sending brings one. -/
theorem emailed_step (op : Call) :
    (takesFrom p u digest (stepOf p op e s)).toNat +
        ((exec p op e s).1.holdsEmailed u digest).toNat ≤
      (sendsTo p u digest (stepOf p op e s)).toNat + (s.holdsEmailed u digest).toNat := by
  unfold takesFrom sendsTo Server.holdsEmailed
  cases codeStep (p := p) (e := e) (s := s) (u := u) op with
  | quiet hsending htaking hkeeps =>
      have hnot : (taking p (stepOf p op e s) == some (u, digest)) = false :=
        beq_eq_false_iff_ne.mpr (htaking digest)
      rw [hnot]
      cases hafter : (exec p op e s).1.emailedCode u with
      | none => simp
      | some code =>
          have hbefore : s.emailedCode u = some code := hkeeps code hafter
          rw [hbefore, Bool.toNat_false]
          omega
  | sends digest' x hsending htaking hafter =>
      have hafter' : (exec p op e s).1.emailedCode u = some (digest', some (p.codeExpiry x)) :=
        hafter
      rw [hsending, htaking, hafter']
      simp
  | takes digest' x hsending htaking hbefore hintime hafter =>
      have hbefore' : s.emailedCode u = some (digest', some x) := hbefore
      have hafter' : (exec p op e s).1.emailedCode u = none := hafter
      rw [hsending, htaking, hbefore', hafter']
      by_cases hdigest : digest' = digest
      · simp [hdigest]
      · have hnot : (some (u, digest') == some (u, digest)) = false := by simp [hdigest]
        simp [hnot]

/-- A row that may just have been spent. -/
theorem isUnused_spent {v : Uuid} {digest' : String} {now : Timestamp} (row : RecoveryCodeRow) :
    (if row.isUnused v digest' then { row with usedAt := some now } else row).isUnused u digest =
      (row.isUnused u digest && !(row.isUnused v digest')) := by
  split_ifs with hspent
  · rw [hspent, RecoveryCodeRow.isUnused]
    simp
  · simp [hspent]

/-- The same of recovery codes: the statement that accepts one marks every row it
could have been. -/
theorem recovery_step (op : Call) :
    (spendsFrom p u digest (stepOf p op e s)).toNat +
        ((exec p op e s).1.holdsRecovery u digest).toNat ≤
      (issuesTo u digest (stepOf p op e s)).toNat + (s.holdsRecovery u digest).toNat := by
  unfold spendsFrom issuesTo Server.holdsRecovery
  have hle : ∀ {b c : Bool}, (b = true → c = true) → b.toNat ≤ c.toNat := by decide
  cases recoveryStep (p := p) (e := e) (s := s) op with
  | quiet _ hissuing hspending hafter =>
      have hafter' : (exec p op e s).1.recoveryCodes = s.recoveryCodes := hafter
      rw [hissuing, hspending, hafter']
  | deletes v _ hissuing hspending hafter =>
      have hafter' : (exec p op e s).1.recoveryCodes = s.recoveryCodes.filter (·.userId != v) :=
        hafter
      rw [hissuing, hspending, hafter']
      have hrows : (s.recoveryCodes.filter (·.userId != v)).any (·.isUnused u digest) = true →
          s.recoveryCodes.any (·.isUnused u digest) = true := by
        intro h
        rcases List.any_eq_true.mp h with ⟨row, hrow, hunused⟩
        exact List.any_eq_true.mpr ⟨row, List.mem_of_mem_filter hrow, hunused⟩
      exact Nat.add_le_add_left (hle hrows) _
  | issues v digest' _ hissuing hspending hafter =>
      have hafter' : (exec p op e s).1.recoveryCodes = s.recoveryCodes ++ [⟨v, digest', none⟩] :=
        hafter
      rw [hissuing, hspending, hafter', List.any_append]
      have hnew : [(⟨v, digest', none⟩ : RecoveryCodeRow)].any (·.isUnused u digest) =
          (some (v, digest') == some (u, digest)) := by
        simp only [List.any_cons, List.any_nil, Bool.or_false, RecoveryCodeRow.isUnused,
          Option.isNone_none, Bool.and_true]
        rfl
      rw [hnew]
      generalize (some (v, digest') == some (u, digest)) = new
      generalize s.recoveryCodes.any (·.isUnused u digest) = held
      have hsum : ∀ held new : Bool,
          false.toNat + (held || new).toNat ≤ new.toNat + held.toNat := by
        decide
      exact hsum held new
  | spends v digest' now _ hissuing hspending hafter =>
      have hafter' : (exec p op e s).1.recoveryCodes = s.recoveryCodes.map fun row =>
          if row.isUnused v digest' then { row with usedAt := some now } else row := hafter
      have hspending' : spending p (stepOf p op e s) =
          if s.recoveryCodes.any (·.isUnused v digest') then some (v, digest') else none :=
        hspending
      rw [hissuing, hspending', hafter', List.any_map]
      by_cases hsame : v = u ∧ digest' = digest
      · -- the code in question: no row of it is unused any more
        rcases hsame with ⟨rfl, rfl⟩
        have hgone : s.recoveryCodes.any ((·.isUnused v digest') ∘ fun row =>
            if row.isUnused v digest' then { row with usedAt := some now } else row) = false := by
          rw [List.any_eq_false]
          intro row _
          simp [isUnused_spent]
        rw [hgone]
        cases s.recoveryCodes.any (·.isUnused v digest') <;> simp
      · have hnot : ((if s.recoveryCodes.any (·.isUnused v digest') then some (v, digest')
            else none) == some (u, digest)) = false := by
          split_ifs
          · simpa using hsame
          · rfl
        rw [hnot]
        refine Nat.add_le_add_left (hle fun h => ?_) _
        rcases List.any_eq_true.mp h with ⟨row, hrow, hunused⟩
        rw [Function.comp_apply, isUnused_spent, Bool.and_eq_true] at hunused
        exact List.any_eq_true.mpr ⟨row, hrow, hunused.1⟩

/-- Over a whole execution. -/
theorem emailed_count (u : Uuid) (digest : String) {s' : Server} {evs : List Step}
    (h : Executes (exec p) s evs s') :
    evs.countP (takesFrom p u digest) + (s'.holdsEmailed u digest).toNat ≤
      evs.countP (sendsTo p u digest) + (s.holdsEmailed u digest).toNat :=
  h.countP_le _ _ (fun s => (s.holdsEmailed u digest).toNat) fun op _ _ => emailed_step op

theorem recovery_count (u : Uuid) (digest : String) {s' : Server} {evs : List Step}
    (h : Executes (exec p) s evs s') :
    evs.countP (spendsFrom p u digest) + (s'.holdsRecovery u digest).toNat ≤
      evs.countP (issuesTo u digest) + (s.holdsRecovery u digest).toNat :=
  h.countP_le _ _ (fun s => (s.holdsRecovery u digest).toNat) fun op _ _ => recovery_step op

end Counting

/-! ## Where the code in place comes from -/

section Origin

variable {ι : Type} {p : Platform} {u : Uuid} {s₀ s : Server} {log : List (ι × Step)}

/-- No code was sent to the user or accepted for the user. -/
def NoCodeFor (p : Platform) (u : Uuid) (log : List (ι × Step)) : Prop :=
  ∀ entry ∈ log, (∀ digest x, sending p entry.2 ≠ some (u, digest, x)) ∧
    ∀ digest, taking p entry.2 ≠ some (u, digest)

/-- The code was there from the start, or sent by the last step that did anything
with a code of the user. -/
inductive Origin (p : Platform) (u : Uuid) (s₀ : Server) (log : List (ι × Step))
    (code : String × Option CodeExpiry) : Prop
  | initial (hheld : s₀.emailedCode u = some code) (hsince : NoCodeFor p u log)
  | sent (l : List (ι × Step)) (i : ι) (ev : Step) (l' : List (ι × Step)) (digest x : String)
      (hlog : log = l ++ (i, ev) :: l') (hsending : sending p ev = some (u, digest, x))
      (hcode : code = (digest, some (p.codeExpiry x))) (hsince : NoCodeFor p u l')

theorem noCodeFor_snoc {i : ι} {ev : Step} (h : NoCodeFor p u log)
    (hsending : ∀ digest x, sending p ev ≠ some (u, digest, x))
    (htaking : ∀ digest, taking p ev ≠ some (u, digest)) : NoCodeFor p u (log ++ [(i, ev)]) := by
  intro entry hentry
  rcases List.mem_append.mp hentry with hentry | hentry
  · exact h entry hentry
  · rcases List.mem_singleton.mp hentry with rfl
    exact ⟨hsending, htaking⟩

/-- A step that does nothing with a code of the user. -/
theorem Origin.snoc {i : ι} {ev : Step} {code : String × Option CodeExpiry}
    (h : Origin p u s₀ log code) (hsending : ∀ digest x, sending p ev ≠ some (u, digest, x))
    (htaking : ∀ digest, taking p ev ≠ some (u, digest)) :
    Origin p u s₀ (log ++ [(i, ev)]) code := by
  cases h with
  | initial hheld hsince => exact .initial hheld (noCodeFor_snoc hsince hsending htaking)
  | sent l j ev' l' digest x hlog hsending' hcode hsince =>
      refine .sent l j ev' (l' ++ [(i, ev)]) digest x ?_ hsending' hcode
        (noCodeFor_snoc hsince hsending htaking)
      rw [hlog, List.append_assoc, List.cons_append]

/-- The run lemma. -/
theorem origin (h : Executes (exec p) s₀ (log.map Prod.snd) s)
    {code : String × Option CodeExpiry} (hcode : s.emailedCode u = some code) :
    Origin p u s₀ log code := by
  induction log using List.reverseRecOn generalizing s code with
  | nil =>
      cases h
      exact .initial hcode fun entry hentry => absurd hentry List.not_mem_nil
  | append_singleton log entry ih =>
      rcases entry with ⟨i, ev⟩
      rw [List.map_append] at h
      rcases h.split with ⟨hbefore, hafter, hrest⟩
      cases hrest
      cases codeStep_of_after (u := u) hafter with
      | quiet hsending htaking hkeeps =>
          exact (ih hbefore (hkeeps code hcode)).snoc hsending htaking
      | sends digest x hsending htaking hafter' =>
          refine .sent log i ev [] digest x rfl hsending ?_ ?_
          · exact Option.some.inj (hcode.symm.trans hafter')
          · exact fun entry hentry => absurd hentry List.not_mem_nil
      | takes digest x hsending htaking hheld hintime hafter' =>
          rw [hafter'] at hcode
          cases hcode

end Origin

/-! ## The requests -/

/-- `verify_code` and `confirm_enrollment`, the functions that send a code, and
`replace_recovery_codes`. -/
inductive Job where
  | verifyCode (userId : Uuid) (accountName code : String)
  | confirmEnrollment (userId : Uuid) (accountName code : String)
  | beginEnrollment (userId : Uuid) (accountName method : String) (email : Option String)
  | resendEmailCode (userId : Uuid) (email : String)
  | replaceRecoveryCodes (userId : Uuid) (codeHashes : List String)
  deriving Repr, DecidableEq

/-- What they return. -/
inductive Answer where
  | verified (outcome : Except ApiError VerifyOutcome)
  | confirmed (outcome : Except ApiError ConfirmOutcome)
  | begun (outcome : Except ApiError Body)
  | resent (outcome : Except ApiError Unit)
  | replaced (outcome : Except DbError Unit)

namespace Job

def program (p : Platform) : Job → Handler Answer
  | verifyCode u accountName code => (Auth.verifyCode p u accountName code).map .verified
  | confirmEnrollment u accountName code =>
      (Auth.confirmEnrollment p u accountName code).map .confirmed
  | beginEnrollment u accountName method email =>
      (Auth.beginEnrollment p u accountName method email).map .begun
  | resendEmailCode u email => (Auth.resendEmailCode p u email).map .resent
  | replaceRecoveryCodes u codeHashes => (Auth.replaceRecoveryCodes u codeHashes).map .replaced

def user : Job → Uuid
  | verifyCode u _ _ | confirmEnrollment u _ _ | beginEnrollment u _ _ _ | resendEmailCode u _
  | replaceRecoveryCodes u _ => u

/-- The code that the request submits. -/
def submitted : Job → Option String
  | verifyCode _ _ code | confirmEnrollment _ _ code => some (trim code)
  | _ => none

/-- The address to which the request mails. -/
def address : Job → Option String
  | beginEnrollment _ _ _ email => email
  | resendEmailCode _ email => some email
  | _ => none

end Job

/-- The job read the clock at `now`. -/
def ReadsClock (h : List Step) (now : Timestamp) : Prop :=
  ∃ ev ∈ h, ev.op = .utcNow ∧ ev.env.now = now

/-- The operations a job performs after the history `h`, as far as they deal with
codes: it submits its own code for its own user, and mails what it has put in
place for that user, ten minutes good from a reading of the clock. -/
def JobCall (p : Platform) (job : Job) (h : List Step) : Call → Prop
  | .db (.consumeEmailMfaCode u digest) | .db (.enableEmailMfaCredential u digest)
  | .db (.consumeRecoveryCode u digest) =>
      u = job.user ∧ ∃ code, job.submitted = some code ∧ digest = p.sha256Hex code
  | .db (.upsertPendingEmailMfaCredential u _ expiresAt)
  | .db (.updateEmailMfaCode u _ expiresAt) =>
      u = job.user ∧ ∃ now, ReadsClock h now ∧ expiresAt = emailCodeExpiry now
  | .db (.insertRecoveryCode u _) => u = job.user
  | .sendMfaCode email code =>
      job.address = some email ∧
        ∃ ev ∈ h, ∃ x, sending p ev = some (job.user, p.sha256Hex code, x)
  | _ => True

/-- A TOTP code was right. -/
def TotpPassed (p : Platform) (ev : Step) : Prop :=
  ∃ secret accountName code, ev.op = .totpCheck secret accountName code ∧
    p.checkTotp secret accountName code ev.env.now = true

/-- Why a job may answer what it answers: what it accepted. -/
def JobAnswer (p : Platform) (job : Job) (h : List Step) : Answer → Prop
  | .verified (.ok .primary) | .confirmed (.ok (.enabled _)) =>
      ∃ ev ∈ h, TotpPassed p ev ∨ ∃ code, job.submitted = some code ∧
        taking p ev = some (job.user, p.sha256Hex code)
  | .verified (.ok .recovery) =>
      ∃ ev ∈ h, ∃ code, job.submitted = some code ∧
        spending p ev = some (job.user, p.sha256Hex code)
  | _ => True

section Guarantee

variable {p : Platform} {job : Job} {u : Uuid} {accountName code : String} {h : List Step}

theorem taking_of_consumed {digest : String} {e : Env} {s : Server}
    (hok : (exec p (.db (.consumeEmailMfaCode u digest)) e s).2 = .ok true) :
    taking p (stepOf p (.db (.consumeEmailMfaCode u digest)) e s) = some (u, digest) := by
  cases hf : e.fails with
  | true => simp [exec_db_of_fails s hf] at hok
  | false =>
      rw [exec_db_of_succeeds s hf] at hok
      simp [taking, stepOf, hf, Except.ok.inj hok]

theorem taking_of_enabled {digest : String} {e : Env} {s : Server}
    (hok : (exec p (.db (.enableEmailMfaCredential u digest)) e s).2 = .ok true) :
    taking p (stepOf p (.db (.enableEmailMfaCredential u digest)) e s) = some (u, digest) := by
  cases hf : e.fails with
  | true => simp [exec_db_of_fails s hf] at hok
  | false =>
      rw [exec_db_of_succeeds s hf] at hok
      simp [taking, stepOf, hf, Except.ok.inj hok]

theorem spending_of_consumed {digest : String} {e : Env} {s : Server}
    (hok : (exec p (.db (.consumeRecoveryCode u digest)) e s).2 = .ok true) :
    spending p (stepOf p (.db (.consumeRecoveryCode u digest)) e s) = some (u, digest) := by
  cases hf : e.fails with
  | true => simp [exec_db_of_fails s hf] at hok
  | false =>
      rw [exec_db_of_succeeds s hf] at hok
      simp [spending, stepOf, hf, Except.ok.inj hok]

theorem sending_of_updated {digest x : String} {e : Env} {s : Server}
    (hok : (exec p (.db (.updateEmailMfaCode u digest x)) e s).2 = .ok true) :
    sending p (stepOf p (.db (.updateEmailMfaCode u digest x)) e s) = some (u, digest, x) := by
  cases hf : e.fails with
  | true => simp [exec_db_of_fails s hf] at hok
  | false =>
      rw [exec_db_of_succeeds s hf] at hok
      simp [sending, stepOf, hf, Except.ok.inj hok]

theorem sending_of_upserted {digest x : String} {e : Env} {s : Server}
    (hok : (exec p (.db (.upsertPendingEmailMfaCredential u digest x)) e s).2 = .ok ()) :
    sending p (stepOf p (.db (.upsertPendingEmailMfaCredential u digest x)) e s) =
      some (u, digest, x) := by
  cases hf : e.fails with
  | true => simp [exec_db_of_fails s hf] at hok
  | false => simp [sending, stepOf, hf]

/-- The end of a history. -/
theorem last_mem {ev : Step} : ev ∈ h ++ [ev] := List.mem_append_right _ (List.mem_singleton_self _)

theorem resendEmailCode_guarantees {email : String} (hu : job.user = u)
    (haddress : job.address = some email) :
    (resendEmailCode p u email).Guarantees (exec p) (JobCall p job) (fun _ _ => True) h := by
  refine guarantees_perform trivial fun e₁ s₁ => guarantees_perform trivial fun e₂ s₂ =>
    guarantees_query ⟨hu.symm, e₂.now, ⟨_, last_mem, rfl, rfl⟩, rfl⟩ fun e₃ s₃ => ?_
  split
  · trivial
  next updated hok =>
    split
    next htrue =>
      subst htrue
      refine guarantees_perform ⟨haddress, _, last_mem, emailCodeExpiry e₂.now, ?_⟩
        fun _ _ => trivial
      rw [hu]
      exact sending_of_updated hok
    · trivial

theorem beginEmailEnrollment_guarantees {email : String} (hu : job.user = u)
    (haddress : job.address = some email) :
    (beginEmailEnrollment p u email).Guarantees (exec p) (JobCall p job) (fun _ _ => True) h := by
  refine guarantees_perform trivial fun e₁ s₁ => guarantees_perform trivial fun e₂ s₂ =>
    guarantees_query ⟨hu.symm, e₂.now, ⟨_, last_mem, rfl, rfl⟩, rfl⟩ fun e₃ s₃ => ?_
  split
  · trivial
  next hok =>
    refine guarantees_perform ⟨haddress, _, last_mem, emailCodeExpiry e₂.now, ?_⟩ fun _ _ => trivial
    rw [hu]
    exact sending_of_upserted hok

theorem beginEnrollment_guarantees {method : String} {email : Option String} (hu : job.user = u)
    (haddress : job.address = email) :
    (beginEnrollment p u accountName method email).Guarantees (exec p) (JobCall p job)
      (fun _ _ => True) h := by
  unfold beginEnrollment
  split_ifs
  · split
    · trivial
    next email' => exact beginEmailEnrollment_guarantees hu haddress
  · refine guarantees_perform trivial fun e₁ s₁ => guarantees_query trivial fun e₂ s₂ => ?_
    split
    · trivial
    · split_ifs <;> trivial

theorem insertRecoveryCodes_guarantees {codeHashes : List String} (hu : job.user = u) :
    (insertRecoveryCodes u codeHashes).Guarantees (exec p) (JobCall p job)
      (fun h' _ => h <+: h') h := by
  induction codeHashes generalizing h with
  | nil => exact List.prefix_refl h
  | cons codeHash codeHashes ih =>
      refine guarantees_query hu.symm fun e s => ?_
      split
      · exact List.prefix_append h _
      · refine ih.mono (fun _ _ hop => hop) fun h' _ hgrown => ?_
        exact (List.prefix_append h _).trans hgrown

theorem replaceRecoveryCodes_guarantees {codeHashes : List String} (hu : job.user = u) :
    (replaceRecoveryCodes u codeHashes).Guarantees (exec p) (JobCall p job)
      (fun h' _ => h <+: h') h := by
  refine guarantees_query trivial fun e s => ?_
  split
  · exact List.prefix_append h _
  · refine (insertRecoveryCodes_guarantees hu).mono (fun _ _ hop => hop) fun h' _ hgrown => ?_
    exact (List.prefix_append h _).trans hgrown

theorem totpCodeMatches_guarantees {secret : String} :
    (totpCodeMatches secret accountName code).Guarantees (exec p) (JobCall p job)
      (fun h ok => ok = true → ∃ ev ∈ h, TotpPassed p ev) h := by
  unfold totpCodeMatches
  split_ifs
  · intro hok
    cases hok
  · refine ⟨trivial, fun e s hok => ?_⟩
    exact ⟨_, last_mem, secret, accountName, trim code, rfl, hok⟩

theorem credentialTotpMatches_guarantees {secret : String} :
    (credentialTotpMatches p secret accountName code).Guarantees (exec p) (JobCall p job)
      (fun h ok => ok = true → ∃ ev ∈ h, TotpPassed p ev) h := by
  unfold credentialTotpMatches
  split_ifs
  · exact totpCodeMatches_guarantees
  · intro hok
    cases hok

theorem verifyRecoveryCode_guarantees (hu : job.user = u)
    (hsubmitted : job.submitted = some (trim code)) :
    (verifyRecoveryCode p u code).Guarantees (exec p) (JobCall p job)
      (fun h outcome => JobAnswer p job h (.verified (.ok outcome))) h := by
  refine guarantees_query ⟨hu.symm, _, hsubmitted, rfl⟩ fun e₁ s₁ => ?_
  split
  next hok =>
    refine guarantees_query trivial fun e₂ s₂ => ⟨_, List.mem_append_left _ last_mem, trim code,
      hsubmitted, ?_⟩
    rw [hu]
    exact spending_of_consumed hok
  · trivial

theorem verifyCredential_guarantees (hu : job.user = u)
    (hsubmitted : job.submitted = some (trim code)) :
    (verifyCredential p u accountName code).Guarantees (exec p) (JobCall p job)
      (fun h outcome => JobAnswer p job h (.verified outcome)) h := by
  refine guarantees_query trivial fun e₁ s₁ => ?_
  split
  · trivial
  next credential =>
    split
    · refine guarantees_query ⟨hu.symm, _, hsubmitted, rfl⟩ fun e₂ s₂ => ?_
      split
      next hok =>
        refine ⟨_, last_mem, Or.inr ⟨trim code, hsubmitted, ?_⟩⟩
        rw [hu]
        exact taking_of_consumed hok
      · exact (verifyRecoveryCode_guarantees hu hsubmitted).bind fun _ _ hanswer => hanswer
    · refine credentialTotpMatches_guarantees.bind fun h' ok hok => ?_
      split_ifs with htrue
      · refine guarantees_query trivial fun e₂ s₂ => ?_
        rcases hok htrue with ⟨ev, hev, hpassed⟩
        exact ⟨ev, List.mem_append_left _ hev, Or.inl hpassed⟩
      · exact (verifyRecoveryCode_guarantees hu hsubmitted).bind fun _ _ hanswer => hanswer

theorem enablePending_guarantees {pending : MfaCredentialRow} (hu : job.user = u)
    (hsubmitted : job.submitted = some (trim code)) :
    (enablePending p u accountName code pending).Guarantees (exec p) (JobCall p job)
      (fun h enabled => enabled = .ok true → ∃ ev ∈ h, TotpPassed p ev ∨
        ∃ code, job.submitted = some code ∧
          taking p ev = some (job.user, p.sha256Hex code)) h := by
  unfold enablePending
  split
  · refine guarantees_perform trivial fun e₁ s₁ =>
      guarantees_query ⟨hu.symm, _, hsubmitted, rfl⟩ fun e₂ s₂ => ?_
    split
    · intro henabled
      cases henabled
    next enabled hok =>
      intro henabled
      rcases Except.ok.inj henabled with rfl
      refine ⟨_, last_mem, Or.inr ⟨trim code, hsubmitted, ?_⟩⟩
      rw [hu]
      exact taking_of_enabled hok
  · split_ifs
    · refine guarantees_perform trivial fun e₁ s₁ =>
        totpCodeMatches_guarantees.bind fun h' ok hok => ?_
      split_ifs with htrue
      · refine guarantees_query trivial fun e₂ s₂ => ?_
        rcases hok htrue with ⟨ev, hev, hpassed⟩
        split
        · intro henabled
          cases henabled
        · intro _
          exact ⟨ev, List.mem_append_left _ hev, Or.inl hpassed⟩
      · intro henabled
        cases henabled
    · intro henabled
      cases henabled

theorem issueRecoveryCodes_guarantees (hu : job.user = u)
    (hanswer : ∀ evs codes, JobAnswer p job (h ++ evs) (.confirmed (.ok (.enabled codes)))) :
    (issueRecoveryCodes p u).Guarantees (exec p) (JobCall p job)
      (fun h outcome => JobAnswer p job h (.confirmed outcome)) h := by
  refine guarantees_perform trivial fun e₁ s₁ =>
    (replaceRecoveryCodes_guarantees hu).bind fun h' replaced hgrown => ?_
  split
  · trivial
  · rcases hgrown with ⟨evs, rfl⟩
    rw [List.append_assoc]
    exact hanswer _ (recoveryCodes e₁.random)

theorem confirmEnrollment_guarantees (hu : job.user = u)
    (hsubmitted : job.submitted = some (trim code)) :
    (confirmEnrollment p u accountName code).Guarantees (exec p) (JobCall p job)
      (fun h outcome => JobAnswer p job h (.confirmed outcome)) h := by
  refine guarantees_query trivial fun e₁ s₁ => ?_
  split
  next pending _ =>
    split_ifs
    · trivial
    · refine (enablePending_guarantees hu hsubmitted).bind fun h' enabled henabled => ?_
      split
      · trivial
      · trivial
      · rcases henabled rfl with ⟨ev, hev, haccepted⟩
        refine issueRecoveryCodes_guarantees hu fun evs codes => ?_
        exact ⟨ev, List.mem_append_left _ hev, haccepted⟩
  · trivial

/-- Every job, on its own. -/
theorem program_guarantees (job : Job) :
    (job.program p).Guarantees (exec p) (JobCall p job) (JobAnswer p job) [] := by
  cases job with
  | verifyCode u accountName code =>
      refine Guarantees.map ?_ fun h outcome hanswer => hanswer
      exact guarantees_perform trivial fun e s => verifyCredential_guarantees rfl rfl
  | confirmEnrollment u accountName code =>
      exact (confirmEnrollment_guarantees rfl rfl).map fun h outcome hanswer => hanswer
  | beginEnrollment u accountName method email =>
      exact (beginEnrollment_guarantees rfl rfl).map fun _ _ _ => trivial
  | resendEmailCode u email =>
      exact (resendEmailCode_guarantees rfl rfl).map fun _ _ _ => trivial
  | replaceRecoveryCodes u codeHashes =>
      exact (replaceRecoveryCodes_guarantees rfl).map fun _ _ _ => trivial

end Guarantee

/-! ## All of them together -/

section Pool

variable {ι : Type} [DecidableEq ι]

/-- The jobs, and the state they meet. -/
def codeJobs (p : Platform) (jobs : ι → Job) (s₀ : Server) :
    Pool ι Call Call.Res Answer Server :=
  ⟨fun i => (jobs i).program p, s₀⟩

theorem codeJobs_executes (p : Platform) (jobs : ι → Job) (s₀ : Server)
    (schedule : List (ι × Env)) :
    Executes (exec p) s₀ (((codeJobs p jobs s₀).log (exec p) schedule).map Prod.snd)
      ((codeJobs p jobs s₀).after (exec p) schedule).store := by
  have hexecutes : Executes (exec p) (codeJobs p jobs s₀).store
      (((codeJobs p jobs s₀).log (exec p) schedule).map Prod.snd)
      ((codeJobs p jobs s₀).after (exec p) schedule).store := Pool.executes schedule
  exact hexecutes

/-- The code accepted by a step is the one that was last put in place for the user,
and its time is not over: the time stored with it, if it was there from the start,
else the ten minutes from when the job that sent it read the clock. -/
inductive InItsTime (p : Platform) (jobs : ι → Job) (s₀ : Server) (log : List (ι × Step))
    (u : Uuid) (digest : String) (now : Timestamp) : Prop
  | initial (x : CodeExpiry) (hheld : s₀.emailedCode u = some (digest, some x))
      (hintime : x.after (p.now now) = true) (hsince : NoCodeFor p u log)
  | sent (l : List (ι × Step)) (j : ι) (ev : Step) (l' : List (ι × Step)) (s : Timestamp)
      (hlog : log = l ++ (j, ev) :: l') (huser : (jobs j).user = u)
      (hread : ReadsClock (Pool.own j l) s)
      (hsending : sending p ev = some (u, digest, emailCodeExpiry s))
      (hintime : now < s + Timestamp.minutes emailCodeTtlMinutes) (hsince : NoCodeFor p u l')

/-- What single use of emailed and of recovery codes means for jobs at the same
time. -/
structure UsedOnce (p : Platform) (jobs : ι → Job) (s₀ : Server) (log : List (ι × Step))
    (pool : Pool ι Call Call.Res Answer Server) : Prop where
  /-- An emailed code is accepted at most once per time it was sent. -/
  emailed : ∀ u digest, log.countP (fun entry => takesFrom p u digest entry.2) ≤
    log.countP (fun entry => sendsTo p u digest entry.2) + (s₀.holdsEmailed u digest).toNat
  /-- It is the one last sent to that user, and not expired. -/
  inItsTime : ∀ l i ev l' u digest, log = l ++ (i, ev) :: l' → taking p ev = some (u, digest) →
    InItsTime p jobs s₀ l u digest ev.env.now
  /-- A recovery code is accepted at most once per time it was issued. -/
  recovery : ∀ u digest, log.countP (fun entry => spendsFrom p u digest entry.2) ≤
    log.countP (fun entry => issuesTo u digest entry.2) + (s₀.holdsRecovery u digest).toNat
  /-- Either is accepted from its own user, who submitted it. -/
  own : ∀ i ev u digest, (i, ev) ∈ log →
    (taking p ev = some (u, digest) ∨ spending p ev = some (u, digest)) →
    (jobs i).user = u ∧ ∃ code, (jobs i).submitted = some code ∧ digest = p.sha256Hex code
  /-- What is mailed has been put in place for the user it is mailed to. -/
  mailed : ∀ i ev email code, (i, ev) ∈ log → ev.op = .sendMfaCode email code →
    (jobs i).address = some email ∧
      ∃ ev', (i, ev') ∈ log ∧ ∃ x, sending p ev' = some ((jobs i).user, p.sha256Hex code, x)
  /-- Recovery codes are issued to the job's user. -/
  issued : ∀ i ev u digest, (i, ev) ∈ log → issuing ev = some (u, digest) → (jobs i).user = u
  /-- A job that says a code was accepted has had it accepted itself. -/
  answered : ∀ i a, pool.answer i = some a → JobAnswer p (jobs i) (Pool.own i log) a

variable {p : Platform} {jobs : ι → Job} {s₀ : Server}

/-- Which statements accept an emailed code. -/
theorem op_of_taking {ev : Step} {u : Uuid} {digest : String}
    (h : taking p ev = some (u, digest)) :
    ev.op = .db (.consumeEmailMfaCode u digest) ∨
      ev.op = .db (.enableEmailMfaCredential u digest) := by
  unfold taking at h
  split at h
  next v digest' hop =>
    split_ifs at h
    rcases Prod.mk.inj (Option.some.inj h) with ⟨rfl, rfl⟩
    exact Or.inl hop
  next v digest' hop =>
    split_ifs at h
    rcases Prod.mk.inj (Option.some.inj h) with ⟨rfl, rfl⟩
    exact Or.inr hop
  · cases h

/-- Which statements put one in place. -/
theorem op_of_sending {ev : Step} {u : Uuid} {digest x : String}
    (h : sending p ev = some (u, digest, x)) :
    ev.op = .db (.upsertPendingEmailMfaCredential u digest x) ∨
      ev.op = .db (.updateEmailMfaCode u digest x) := by
  unfold sending at h
  split at h
  next v digest' x' hop =>
    split_ifs at h
    rcases Prod.mk.inj (Option.some.inj h) with ⟨rfl, hrest⟩
    rcases Prod.mk.inj hrest with ⟨rfl, rfl⟩
    exact Or.inl hop
  next v digest' x' hop =>
    split_ifs at h
    rcases Prod.mk.inj (Option.some.inj h) with ⟨rfl, hrest⟩
    rcases Prod.mk.inj hrest with ⟨rfl, rfl⟩
    exact Or.inr hop
  · cases h

theorem op_of_spending {ev : Step} {u : Uuid} {digest : String}
    (h : spending p ev = some (u, digest)) : ev.op = .db (.consumeRecoveryCode u digest) := by
  unfold spending at h
  split at h
  next v digest' hop =>
    split_ifs at h
    rcases Prod.mk.inj (Option.some.inj h) with ⟨rfl, rfl⟩
    exact hop
  · cases h

theorem op_of_issuing {ev : Step} {u : Uuid} {digest : String}
    (h : issuing ev = some (u, digest)) : ev.op = .db (.insertRecoveryCode u digest) := by
  unfold issuing at h
  split at h
  next v digest' hop =>
    split_ifs at h
    rcases Prod.mk.inj (Option.some.inj h) with ⟨rfl, rfl⟩
    exact hop
  · cases h

/-- The accepted code was in place, and its origin. -/
theorem inItsTime_of_taking (hreads : ∀ s, p.ReadsExpiry s) {s s' : Server}
    {l l' : List (ι × Step)} {i : ι} {ev : Step} {u : Uuid} {digest : String}
    (hexecutes : Executes (exec p) s ((l ++ (i, ev) :: l').map Prod.snd) s')
    (hcalls : ∀ l₁ j ev' l₂, l = l₁ ++ (j, ev') :: l₂ →
      JobCall p (jobs j) (Pool.own j l₁) ev'.op)
    (htaking : taking p ev = some (u, digest)) :
    InItsTime p jobs s l u digest ev.env.now := by
  rw [List.map_append, List.map_cons] at hexecutes
  rcases hexecutes.split with ⟨hbefore, hafter, -⟩
  cases codeStep_of_after (u := u) hafter with
  | quiet _ hnot _ => exact absurd htaking (hnot digest)
  | sends _ _ _ hnot _ =>
      rw [hnot] at htaking
      cases htaking
  | takes digest' x _ htaking' hheld hintime _ =>
      have hdigest : digest' = digest := by simpa using htaking'.symm.trans htaking
      subst hdigest
      cases origin hbefore hheld with
      | initial hheld' hsince => exact .initial x hheld' hintime hsince
      | sent l₁ j ev' l₂ sentDigest text hlog hsending hcode hsince =>
          rcases Prod.mk.inj hcode with ⟨rfl, hexpiry⟩
          rcases Option.some.inj hexpiry with rfl
          have hcall := hcalls l₁ j ev' l₂ hlog
          have hread : u = (jobs j).user ∧
              ∃ now, ReadsClock (Pool.own j l₁) now ∧ text = emailCodeExpiry now := by
            rcases op_of_sending hsending with hop | hop
            · rw [hop] at hcall
              exact hcall
            · rw [hop] at hcall
              exact hcall
          rcases hread with ⟨hu, now, hclock, rfl⟩
          exact .sent l₁ j ev' l₂ now hlog hu.symm hclock hsending
            (before_expiry_of_after (hreads now) hintime) hsince

/-- **Codes are used once.** However the statements of any number of verifications,
confirmations, sends and replacements interleave, and whichever of them fail. -/
theorem used_once (hreads : ∀ s, p.ReadsExpiry s) (schedule : List (ι × Env)) :
    UsedOnce p jobs s₀ ((codeJobs p jobs s₀).log (exec p) schedule)
      ((codeJobs p jobs s₀).after (exec p) schedule) := by
  have hexecutes := codeJobs_executes p jobs s₀ schedule
  have hguarantees : ∀ i, ((codeJobs p jobs s₀).threads i).Guarantees (exec p)
      (JobCall p (jobs i)) (JobAnswer p (jobs i)) [] := fun i => program_guarantees (jobs i)
  rcases Pool.guarantees hguarantees schedule with ⟨hthreads, hcalls⟩
  have hcall : ∀ i ev, (i, ev) ∈ (codeJobs p jobs s₀).log (exec p) schedule →
      ∃ h, (∀ ev' ∈ h, (i, ev') ∈ (codeJobs p jobs s₀).log (exec p) schedule) ∧
        JobCall p (jobs i) h ev.op := by
    intro i ev hmem
    rcases List.append_of_mem hmem with ⟨l, l', hlog⟩
    refine ⟨Pool.own i l, fun ev' hev' => ?_, hcalls l i ev l' hlog⟩
    rw [hlog]
    exact List.mem_append_left _ (Pool.mem_own.mp hev')
  constructor
  · intro u digest
    have hcount := emailed_count u digest hexecutes
    rw [List.countP_map, List.countP_map] at hcount
    exact (Nat.le_add_right _ _).trans hcount
  · intro l i ev l' u digest hlog htaking
    rw [hlog] at hexecutes
    refine inItsTime_of_taking hreads hexecutes (fun l₁ j ev' l₂ hl => ?_) htaking
    refine hcalls l₁ j ev' (l₂ ++ (i, ev) :: l') ?_
    rw [hlog, hl, List.append_assoc, List.cons_append]
  · intro u digest
    have hcount := recovery_count u digest hexecutes
    rw [List.countP_map, List.countP_map] at hcount
    exact (Nat.le_add_right _ _).trans hcount
  · intro i ev u digest hmem haccepted
    rcases hcall i ev hmem with ⟨h, -, hop⟩
    have hown : u = (jobs i).user ∧
        ∃ code, (jobs i).submitted = some code ∧ digest = p.sha256Hex code := by
      rcases haccepted with htaking | hspending
      · rcases op_of_taking htaking with hev | hev
        · rw [hev] at hop
          exact hop
        · rw [hev] at hop
          exact hop
      · rw [op_of_spending hspending] at hop
        exact hop
    exact ⟨hown.1.symm, hown.2⟩
  · intro i ev email code hmem hev
    rcases hcall i ev hmem with ⟨h, hh, hop⟩
    rw [hev] at hop
    rcases hop with ⟨haddress, ev', hev', x, hsending⟩
    exact ⟨haddress, ev', hh ev' hev', x, hsending⟩
  · intro i ev u digest hmem hissuing
    rcases hcall i ev hmem with ⟨h, -, hop⟩
    rw [op_of_issuing hissuing] at hop
    exact Eq.symm hop
  · intro i a ha
    have hdone := hthreads i
    rw [Pool.threads_of_answer ha] at hdone
    exact hdone

end Pool

/-! ## Two tabs and one code -/

/-- An enrollment by e-mail, and two confirmations of it. -/
def sampleTabs : Fin 3 → Job
  | 0 => .beginEnrollment 1 "A00001" "email" (some "user@example.org")
  | 1 | 2 => .confirmEnrollment 1 "A00001" " 000000 "

/-- The mail first, then the two statement by statement. -/
def sampleTabsOrder : List (Fin 3) := List.replicate 4 0 ++ (List.replicate 20 [1, 2]).flatten

def sampleTabsSchedule : List (Fin 3 × Env) :=
  sampleTabsOrder.map fun i => (i, steadily (Timestamp.seconds 1111111111) 0 0)

theorem used_once_sample :
    UsedOnce (samplePlatform .sqlite) sampleTabs sampleServer
      ((codeJobs (samplePlatform .sqlite) sampleTabs sampleServer).log
        (exec (samplePlatform .sqlite)) sampleTabsSchedule)
      ((codeJobs (samplePlatform .sqlite) sampleTabs sampleServer).after
        (exec (samplePlatform .sqlite)) sampleTabsSchedule) :=
  used_once (fun _ hpostgres => absurd hpostgres (by decide)) _

/-- One of the two is accepted. -/
example : ((codeJobs (samplePlatform .sqlite) sampleTabs sampleServer).log
    (exec (samplePlatform .sqlite)) sampleTabsSchedule).countP
      (fun entry => (taking (samplePlatform .sqlite) entry.2).isSome) = 1 := by
  decide +kernel

end AnatoliaBis.Auth
