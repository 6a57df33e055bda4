import AnatoliaBis.Auth.SessionGate

/-! # How many codes can be tried

`challenge_verify` counts every attempt at a user's second factor, eight in a
window. The other routes that compare a code count nothing:
`at_most_eight_comparisons` holds where none of them gets as far as comparing
one, and `disable_guesses_uncharged` shows a ninth comparison.
-/

namespace AnatoliaBis.Auth

open Atomic Program

/-! ## Counting -/

/-- Submitted codes compared with `u`'s second factor. -/
def comparisons (u : Uuid) (evs : List Step) : Nat :=
  evs.countP fun ev => decide (ev.op = .compareCode u)

/-- An attempt at `u`'s second factor, counted and allowed. -/
def Allowed (u : Uuid) (ev : Step) : Bool :=
  decide (ev.op = .rateCheck (mfaVerifyKey u) 8 quarterHour) &&
    (ev.before.limiter.check (mfaVerifyKey u) 8 quarterHour ev.env.instant).2

def charges (u : Uuid) (evs : List Step) : Nat := evs.countP (Allowed u)

/-- The attempts at `u`'s second factor counted so far. -/
def Server.attempts (s : Server) (u : Uuid) : Nat :=
  ((s.limiter.get (mfaVerifyKey u)).map (·.count)).getD 0

/-- The operation does not reset `u`'s entry of the limiter. -/
def KeepsEntry (u : Uuid) (ev : Step) : Prop :=
  ∀ w ∈ ev.before.limiter.get (mfaVerifyKey u),
    ∃ w' ∈ ev.after.limiter.get (mfaVerifyKey u), w'.started = w.started

/-- The operations of a run. -/
def runSteps (p : Platform) : Server → List Visit → List Step
  | _, [] => []
  | s, v :: run => v.steps p s ++ runSteps p (v.after p s) run

@[simp] theorem comparisons_nil (u : Uuid) : comparisons u [] = 0 := rfl

@[simp] theorem charges_nil (u : Uuid) : charges u [] = 0 := rfl

theorem comparisons_append (u : Uuid) (evs evs' : List Step) :
    comparisons u (evs ++ evs') = comparisons u evs + comparisons u evs' :=
  List.countP_append

theorem charges_append (u : Uuid) (evs evs' : List Step) :
    charges u (evs ++ evs') = charges u evs + charges u evs' :=
  List.countP_append

theorem comparisons_eq_zero {u : Uuid} {evs : List Step}
    (h : ∀ ev ∈ evs, ev.op ≠ .compareCode u) : comparisons u evs = 0 := by
  refine List.countP_eq_zero.mpr fun ev hev => ?_
  simpa using h ev hev

theorem executes_runSteps (p : Platform) (s : Server) (run : List Visit) :
    Executes (exec p) s (runSteps p s run) (stateAfter p s run) := by
  induction run generalizing s with
  | nil => exact .nil s
  | cons v run ih => exact (executes_trace (handle p v.request) v.env s).append (ih _)

/-- A step of a run is a step of one of its visits. -/
theorem mem_runSteps {p : Platform} {s₀ : Server} {run : List Visit} {ev : Step}
    (h : ev ∈ runSteps p s₀ run) : ∃ s v, Visits p s₀ run s v ∧ ev ∈ v.steps p s := by
  induction run generalizing s₀ with
  | nil => cases h
  | cons v run ih =>
      rcases List.mem_append.mp h with h | h
      · exact ⟨s₀, v, visits_cons.mpr (Or.inl ⟨rfl, rfl⟩), h⟩
      · rcases ih h with ⟨s, w, hw, hev⟩
        exact ⟨s, w, visits_cons.mpr (Or.inr hw), hev⟩

/-! ## The limiter allows eight -/

section Budget

variable {p : Platform} {u : Uuid}

/-- An operation counts under `u`'s key with `challenge_verify`'s limit, or not
at all. -/
def Call.Regular (u : Uuid) : Call → Prop
  | .rateCheck key maxAttempts window =>
      key = mfaVerifyKey u → maxAttempts = 8 ∧ window = quarterHour
  | _ => True

theorem regular_of_footprint {r : Request} {op : Call} (h : r.Footprint op) : op.Regular u := by
  cases op with
  | rateCheck key maxAttempts window =>
      rintro rfl
      rcases h with hq | h
      · exact absurd rfl (hq u)
      · cases r with
        | challengeVerify headers token code =>
            rcases h with ⟨v, -, hc | hv | hi⟩
            · exact (Call.rateCheck.inj hc).2
            · rcases hv with h | h
              · cases h
              · cases h
            · cases hi
        | _ => simp [Call.Issues, Call.Upserts, Call.Confirms, Call.Verifies, Call.Spends,
            Call.Deletes, Call.Rotates] at h
  | _ => trivial

/-- A count goes on in the entry that is there, or starts from nothing. -/
theorem current_count {s : Server} {e : Env}
    (hkeeps : ∀ w ∈ s.limiter.get (mfaVerifyKey u),
      ∃ w' ∈ (s.limiter.check (mfaVerifyKey u) 8 quarterHour e.instant).1.get (mfaVerifyKey u),
        w'.started = w.started) :
    s.attempts u = (s.limiter.current (mfaVerifyKey u) quarterHour e.instant).count := by
  unfold Server.attempts
  cases hg : s.limiter.get (mfaVerifyKey u) with
  | none =>
      rcases s.limiter.current_cases (mfaVerifyKey u) quarterHour e.instant with hc | hc
      · rw [hg] at hc
        cases hc
      · rw [hc]
        rfl
  | some w =>
      rcases hkeeps w hg with ⟨w', hw', hstarted⟩
      have hcurrent : w'.started =
          (s.limiter.current (mfaVerifyKey u) quarterHour e.instant).started := by
        rcases s.limiter.get_check_self (mfaVerifyKey u) 8 quarterHour e.instant with
          ⟨-, -, hget⟩ | ⟨-, hget⟩
        all_goals
          rw [hget] at hw'
          rw [← Option.some.inj hw']
      rw [RateLimiter.current_of_started hg (hcurrent.symm.trans hstarted)]
      rfl

/-- Operations that do not count under `u`'s key, and do not reset its entry,
leave the entry alone. -/
theorem exec_limiter_get {op : Call} {e : Env} {s : Server}
    (hkey : ¬ ∃ n w, op = .rateCheck (mfaVerifyKey u) n w)
    (hkeeps : KeepsEntry u ⟨op, e, s, (exec p op e s).1⟩) :
    (exec p op e s).1.limiter.get (mfaVerifyKey u) = s.limiter.get (mfaVerifyKey u) := by
  cases op with
  | rateCheck key n w =>
      have hne : mfaVerifyKey u ≠ key := by
        rintro rfl
        exact hkey ⟨n, w, rfl⟩
      rcases RateLimiter.get_check_other hne n w e.instant with h | h
      · exact h
      · -- swept away, which would be a reset if there had been an entry
        cases hg : s.limiter.get (mfaVerifyKey u) with
        | none => exact h
        | some w =>
            rcases hkeeps w hg with ⟨w', hw', -⟩
            rw [show (exec p (.rateCheck key n _) e s).1.limiter.get (mfaVerifyKey u) = none from h]
              at hw'
            cases hw'
  | db q =>
      simp only [exec]
      split_ifs
      · rfl
      · cases q <;> simp only [Query.perform, Server.updateMfaCredential,
          Server.upsertMfaCredential, Server.setMfaCredential, Server.updateSessions,
          Server.revokeSessions]
        all_goals split <;> rfl
  | _ => rfl

/-- One operation: what is allowed is taken from what is left of the eight. -/
theorem budget_step {op : Call} {e : Env} {s : Server} (hop : op.Regular u)
    (hkeeps : KeepsEntry u ⟨op, e, s, (exec p op e s).1⟩) :
    charges u [⟨op, e, s, (exec p op e s).1⟩] + (8 - (exec p op e s).1.attempts u) ≤
      8 - s.attempts u := by
  by_cases hkey : ∃ n w, op = .rateCheck (mfaVerifyKey u) n w
  · -- counted under `u`'s key
    rcases hkey with ⟨n, w, rfl⟩
    rcases hop rfl with ⟨rfl, rfl⟩
    have hcount := current_count (fun w hw => hkeeps w hw)
    rcases s.limiter.get_check_self (mfaVerifyKey u) 8 quarterHour e.instant with
      ⟨hallowed, hlt, hget⟩ | ⟨hrefused, hget⟩
    · have hcharge : charges u [⟨.rateCheck (mfaVerifyKey u) 8 quarterHour, e, s,
          (exec p (.rateCheck (mfaVerifyKey u) 8 quarterHour) e s).1⟩] = 1 := by
        simp [charges, Allowed, hallowed]
      have hafter : (exec p (.rateCheck (mfaVerifyKey u) 8 quarterHour) e s).1.attempts u =
          s.attempts u + 1 := by
        simp [Server.attempts, exec, hget, ← hcount]
      omega
    · have hcharge : charges u [⟨.rateCheck (mfaVerifyKey u) 8 quarterHour, e, s,
          (exec p (.rateCheck (mfaVerifyKey u) 8 quarterHour) e s).1⟩] = 0 := by
        simp [charges, Allowed, hrefused]
      have hafter : (exec p (.rateCheck (mfaVerifyKey u) 8 quarterHour) e s).1.attempts u =
          s.attempts u := by
        simp [Server.attempts, exec, hget, ← hcount]
      omega
  · -- the entry is left alone
    have hcharge : charges u [⟨op, e, s, (exec p op e s).1⟩] = 0 := by
      have hne : op ≠ .rateCheck (mfaVerifyKey u) 8 quarterHour := fun h => hkey ⟨_, _, h⟩
      simp [charges, Allowed, hne]
    have hget := exec_limiter_get hkey hkeeps
    have hafter : (exec p op e s).1.attempts u = s.attempts u := by
      simp [Server.attempts, hget]
    omega

/-- Any number of operations. -/
theorem budget {s s' : Server} {evs : List Step} (h : Executes (exec p) s evs s')
    (hregular : ∀ ev ∈ evs, ev.op.Regular u) (hkeeps : ∀ ev ∈ evs, KeepsEntry u ev) :
    charges u evs + (8 - s'.attempts u) ≤ 8 - s.attempts u := by
  induction h with
  | nil s => simp
  | @cons op e s evs s' rest ih =>
      have hfirst : charges u [⟨op, e, s, (exec p op e s).1⟩] +
          (8 - (exec p op e s).1.attempts u) ≤ 8 - s.attempts u :=
        budget_step (hregular _ (List.mem_cons_self ..)) (hkeeps _ (List.mem_cons_self ..))
      have hrest := ih (fun ev hev => hregular ev (List.mem_cons_of_mem _ hev))
        fun ev hev => hkeeps ev (List.mem_cons_of_mem _ hev)
      rw [← List.singleton_append, charges_append]
      omega

end Budget

/-! ## `challenge_verify` pays for its comparison -/

section Charged

variable {p : Platform} {E : Env → Prop} {s : Server} {u v : Uuid} {headers : Headers}

/-- Every comparison is matched by a counted attempt. -/
def Charged (u : Uuid) (evs : List Step) : Prop := comparisons u evs ≤ charges u evs

theorem Charged.append {evs evs' : List Step} (h : Charged u evs) (h' : Charged u evs') :
    Charged u (evs ++ evs') := by
  unfold Charged at *
  rw [comparisons_append, charges_append]
  omega

theorem Charged.of_none {evs : List Step} (h : ∀ ev ∈ evs, ev.op ≠ .compareCode u) :
    Charged u evs := by
  unfold Charged
  rw [comparisons_eq_zero h]
  exact Nat.zero_le _

theorem Call.Quiet.not_compares {op : Call} (h : op.Quiet) : op ≠ .compareCode u := by
  rintro rfl
  exact h

theorem Call.Spends.not_compares {op : Call} (h : op.Spends v) : op ≠ .compareCode u := by
  rintro rfl
  exact h

theorem Call.Issues.not_compares {op : Call} (h : op.Issues v) : op ≠ .compareCode u := by
  rintro rfl
  exact h

/-- In front of a handler, anything that compares nothing. -/
theorem wp_charged_bind {α β : Type} {P : Call → Prop} {R : α → Prop} {h : Handler α}
    {f : α → Handler β} (hp : h.Performs (exec p) P R) (hP : ∀ op, P op → op ≠ .compareCode u)
    (hf : ∀ a s', (f a).wp (exec p) E (fun evs _ _ => Charged u evs) s') :
    (h >>= f).wp (exec p) E (fun evs _ _ => Charged u evs) s := by
  refine wp_bind_of (hp.wp_mem s) fun evs a s' h => ?_
  rcases h with ⟨hevs, -⟩
  exact wp_mono (fun _ _ _ => Charged.append (Charged.of_none fun ev hev => hP _ (hevs ev hev)))
    (hf a s')

/-- `verify_code` compares one code, with the factor of the user it is given. -/
theorem verifyCode_comparisons (accountName code : String) :
    (verifyCode p v accountName code).wp (exec p) E
      (fun evs _ _ => comparisons u evs = if v = u then 1 else 0) s := by
  unfold verifyCode
  rw [wp_perform_bind]
  intro e _
  refine wp_mono ?_ ((verifyCredential_performs v accountName code).wp_mem _)
  rintro evs r s' ⟨hevs, -⟩
  have hrest : comparisons u evs = 0 := comparisons_eq_zero fun ev hev => by
    rcases hevs ev hev with hq | hs
    · exact hq.not_compares
    · exact hs.not_compares
  rw [← List.singleton_append, comparisons_append, hrest]
  by_cases hv : v = u
  · simp [comparisons, hv]
  · simp [comparisons, hv]

theorem challengeVerify_charged (token : Token) (code : String) :
    (challengeVerify p headers token code).wp (exec p) E (fun evs _ _ => Charged u evs) s := by
  refine wp_charged_bind (decodeChallengeToken_performs token .login)
    (fun _ h => h.not_compares) fun found s' => ?_
  split
  · exact Charged.of_none (by simp)
  · refine wp_charged_bind (loadUserOrUnauthorized_performs _)
      (fun _ h => h.not_compares) fun found s' => ?_
    split
    · exact Charged.of_none (by simp)
    next user =>
      rw [wp_perform_bind]
      intro e _
      split
      next hallowed =>
        refine wp_bind_of (verifyCode_comparisons (u := u) user.userCode code)
          fun evs outcome s'' hcount => ?_
        refine wp_mono ?_ ((finishVerification_performs headers user outcome).wp_mem s'')
        rintro evs' r t ⟨hevs', -⟩
        -- the attempt pays for the one comparison
        have hpaid : Charged u (⟨.rateCheck (mfaVerifyKey user.id) 8 quarterHour, e, s',
            (exec p (.rateCheck (mfaVerifyKey user.id) 8 quarterHour) e s').1⟩ :: evs) := by
          unfold Charged
          rw [← List.singleton_append, comparisons_append, charges_append, hcount]
          by_cases hu : user.id = u
          · subst hu
            have hchecked : (s'.limiter.check (mfaVerifyKey user.id) 8 quarterHour
              e.instant).2 = true := hallowed
            simp [comparisons, charges, Allowed, hchecked]
          · simp [comparisons, hu]
        refine hpaid.append (Charged.of_none fun ev hev => ?_)
        rcases hevs' ev hev with hq | hi
        · exact hq.not_compares
        · exact hi.not_compares
      next => exact Charged.of_none (by simp)

end Charged

/-! ## The routes that pay nothing -/

/-- `confirm_enrollment` gets as far as comparing a code of `u`. -/
def Server.AwaitsCode (p : Platform) (s : Server) (u : Uuid) (accountName : String) : Prop :=
  ∃ row ∈ s.mfaCredentials u, row.enabledAt = none ∧
    (row.method = .email ∨ p.buildTotp row.secret accountName)

/-- The visit compares a code with `u`'s second factor on a route that counts no
attempt. -/
def Visit.Uncharged (p : Platform) (s : Server) (u : Uuid) (v : Visit) : Prop :=
  match v.request with
  | .enrollConfirm headers _ =>
      ∃ token ∈ headers.authorization, ∃ claims ∈ token.accessClaims (v.env 0).now,
        claims.id = u ∧ (v.env 1).fails = false ∧ s.AwaitsCode p u claims.userCode
  | .challengeEnrollConfirm _ token _ =>
      token.challengeUser (v.env 0).now .enrollment = some u ∧ (v.env 1).fails = false ∧
        ∃ user ∈ s.findActiveUser u, (v.env 2).fails = false ∧ s.AwaitsCode p u user.userCode
  | .disable headers password _ =>
      ∃ token ∈ headers.authorization, ∃ claims ∈ token.accessClaims (v.env 0).now,
        claims.id = u ∧ (v.env 1).fails = false ∧
          ∃ user ∈ s.findUser u, p.bcryptVerify password user.passwordHash
  | _ => False

section Uncharged

variable {p : Platform} {s : Server} {u : Uuid} {ω : Nat → Env} {headers : Headers}

theorem enablePending_trace_of_not {pending : MfaCredentialRow} {accountName code : String}
    (h : ¬ (pending.method = .email ∨ p.buildTotp pending.secret accountName)) :
    (enablePending p u accountName code pending).trace (exec p) ω s = [] := by
  unfold enablePending
  split
  next hm => exact absurd (Or.inl hm) h
  next =>
    rw [if_neg fun hb => h (Or.inr hb)]
    rfl

/-- `confirm_enrollment` compares a code with a pending credential only. -/
theorem confirmEnrollment_not_compares {accountName code : String}
    (h : (ω 0).fails = false → ¬ s.AwaitsCode p u accountName) :
    ∀ ev ∈ (confirmEnrollment p u accountName code).trace (exec p) ω s,
      ev.op ≠ .compareCode u := by
  unfold confirmEnrollment
  rw [trace_query_bind]
  by_cases hf : (ω 0).fails
  · rw [exec_db_of_fails s hf]
    simp
  · have hsucceeds : (ω 0).fails = false := by simpa using hf
    rw [exec_db_of_succeeds s hsucceeds]
    dsimp only [Query.perform]
    cases hrow : s.mfaCredentials u with
    | none => simp
    | some pending =>
        dsimp only
        by_cases hen : pending.enabledAt.isSome
        · rw [if_pos hen]
          simp
        · rw [if_neg hen]
          have hnot : ¬ (pending.method = .email ∨ p.buildTotp pending.secret accountName) :=
            fun hcode => h hsucceeds ⟨pending, hrow, by simpa using hen, hcode⟩
          refine List.forall_mem_cons.mpr ⟨Call.Quiet.not_compares trivial, ?_⟩
          refine trace_bind_mem (P := fun op : Call => op ≠ .compareCode u) (S := fun _ => True) ?_ ?_
          · rw [enablePending_trace_of_not hnot]
            simp
          · -- what follows never compares
            intro r
            split
            · trivial
            · trivial
            · exact (issueRecoveryCodes_performs u).mono (fun _ h => h.not_compares)
                fun _ _ => trivial

theorem enrollConfirm_not_compares {code : String}
    (h : ∀ token ∈ headers.authorization, ∀ claims ∈ token.accessClaims (ω 0).now,
      claims.id = u → (ω 1).fails = false → ¬ s.AwaitsCode p u claims.userCode) :
    ∀ ev ∈ (enrollConfirm p headers code).trace (exec p) ω s, ev.op ≠ .compareCode u := by
  by_cases hu : headers.bearer = some u
  · unfold enrollConfirm
    cases ha : headers.authorization with
    | none => simp [Headers.bearer, ha] at hu
    | some token =>
        rw [trace_authUserFromHeaders ω s ha]
        cases hc : token.accessClaims (ω 0).now with
        | none => simp
        | some claims =>
            have hid : claims.id = u := by
              simpa [bearer_of_accessClaims ha hc] using hu
            dsimp only
            rw [hid]
            refine List.forall_mem_cons.mpr ⟨Call.Quiet.not_compares trivial, ?_⟩
            refine trace_bind_mem (P := fun op : Call => op ≠ .compareCode u) (S := fun _ => True)
              (confirmEnrollment_not_compares (h token ha claims hc hid)) fun outcome => ?_
            split
            · trivial
            · trivial
            · refine ((saveMandatory_performs _).weaken fun _ h => h.not_compares).bind fun r _ => ?_
              split <;> trivial
  · intro ev hev
    rcases (enrollConfirm_performs headers code).trace_mem ω s ev hev with hq | ⟨v, hv, hop⟩
    · exact hq.not_compares
    · -- a comparison is with the bearer's factor
      rintro hcompare
      rw [hcompare] at hop
      have hvu : u = v := hop
      exact hu (hvu ▸ hv)

theorem challengeEnrollConfirm_not_compares {token : Token} {code : String}
    (h : token.challengeUser (ω 0).now .enrollment = some u → (ω 1).fails = false →
      ∀ user ∈ s.findActiveUser u, (ω 2).fails = false → ¬ s.AwaitsCode p u user.userCode) :
    ∀ ev ∈ (challengeEnrollConfirm p headers token code).trace (exec p) ω s,
      ev.op ≠ .compareCode u := by
  by_cases hu : token.subject .enrollment = some u
  · unfold challengeEnrollConfirm
    rw [trace_decodeChallengeToken]
    cases hc : token.challengeUser (ω 0).now .enrollment with
    | none => simp
    | some u' =>
        have hid : u' = u := by
          simpa [subject_of_challengeUser hc] using hu
        subst hid
        dsimp only
        rw [trace_loadUserOrUnauthorized]
        by_cases hf : (ω 1).fails
        · rw [if_pos hf]
          simp
        · rw [if_neg hf]
          cases hx : s.findActiveUser u' with
          | none => simp
          | some user =>
              have hid : user.id = u' := Server.findActiveUser_id hx
              dsimp only
              rw [hid]
              refine List.forall_mem_cons.mpr ⟨Call.Quiet.not_compares trivial,
                List.forall_mem_cons.mpr ⟨Call.Quiet.not_compares trivial, ?_⟩⟩
              refine trace_bind_mem (P := fun op : Call => op ≠ .compareCode u')
                (confirmEnrollment_not_compares (h hc (by simpa using hf) user hx)) fun outcome =>
                (finishEnrollment_performs headers user outcome).weaken fun op hop => ?_
              rcases hop with hq | hi
              · exact hq.not_compares
              · exact hi.not_compares
  · intro ev hev
    rcases (challengeEnrollConfirm_performs headers token code).trace_mem ω s ev hev with
      hq | ⟨v, hv, hop | hop⟩
    · exact hq.not_compares
    · rintro hcompare
      rw [hcompare] at hop
      have hvu : u = v := hop
      exact hu (hvu ▸ hv)
    · exact hop.not_compares

theorem disable_not_compares {password code : String}
    (h : ∀ token ∈ headers.authorization, ∀ claims ∈ token.accessClaims (ω 0).now,
      claims.id = u → (ω 1).fails = false → ∀ user ∈ s.findUser u,
        ¬ p.bcryptVerify password user.passwordHash) :
    ∀ ev ∈ (disable p headers password code).trace (exec p) ω s, ev.op ≠ .compareCode u := by
  by_cases hu : headers.bearer = some u
  · unfold disable
    cases ha : headers.authorization with
    | none => simp [Headers.bearer, ha] at hu
    | some token =>
        rw [trace_authUserFromHeaders ω s ha]
        cases hc : token.accessClaims (ω 0).now with
        | none => simp
        | some claims =>
            have hid : claims.id = u := by
              simpa [bearer_of_accessClaims ha hc] using hu
            dsimp only
            rw [trace_loadUser, hid]
            by_cases hf : (ω 1).fails
            · rw [if_pos hf]
              simp
            · rw [if_neg hf]
              cases hx : s.findUser u with
              | none => simp
              | some user =>
                  dsimp only
                  rw [if_neg (h token ha claims hc hid (by simpa using hf) user hx)]
                  simp
  · intro ev hev
    rcases (disable_performs headers password code).trace_mem ω s ev hev with
      hq | ⟨v, hv, (hop | hop) | hop⟩
    · exact hq.not_compares
    · rw [hop]
      rintro hcompare
      rcases Call.compareCode.inj hcompare with rfl
      exact hu hv
    · exact hop.not_compares
    · rintro hcompare
      rw [hcompare] at hop
      exact hop

/-- A visit compares a code on a route that counts no attempt, or pays for it. -/
theorem charged_steps {v : Visit} (h : ¬ v.Uncharged p s u) : Charged u (v.steps p s) := by
  have hnone : (∀ op, v.request.Footprint op → op ≠ .compareCode u) →
      Charged u (v.steps p s) := fun h => Charged.of_none fun ev hev =>
    h _ ((handle_performs p v.request).trace_mem v.env s ev hev)
  rcases v with ⟨r, ω⟩
  cases r with
  | challengeVerify headers token code =>
      rw [steps_eq rfl]
      exact wp_run (challengeVerify_charged (E := fun _ => True) token code) fun _ => trivial
  | enrollConfirm headers code =>
      rw [steps_eq rfl]
      refine Charged.of_none (enrollConfirm_not_compares ?_)
      intro token ha claims hc hid hf hawaits
      exact h ⟨token, ha, claims, hc, hid, hf, hawaits⟩
  | challengeEnrollConfirm headers token code =>
      rw [steps_eq rfl]
      refine Charged.of_none (challengeEnrollConfirm_not_compares ?_)
      intro hc hf user hx hf' hawaits
      exact h ⟨hc, hf, user, hx, hf', hawaits⟩
  | disable headers password code =>
      rw [steps_eq rfl]
      refine Charged.of_none (disable_not_compares ?_)
      intro token ha claims hc hid hf user hx hpassword
      exact h ⟨token, ha, claims, hc, hid, hf, user, hx, hpassword⟩
  | _ =>
      -- no other request has a comparison in its footprint
      refine hnone fun op hop hcompare => ?_
      rw [hcompare] at hop
      simp [Request.Footprint, Call.Quiet, Call.Issues, Call.Upserts, Call.Deletes,
        Call.Rotates] at hop

end Uncharged

/-! ## Runs -/

theorem charged_runSteps {p : Platform} {s₀ : Server} {run : List Visit} {u : Uuid}
    (h : ∀ s v, Visits p s₀ run s v → ¬ v.Uncharged p s u) : Charged u (runSteps p s₀ run) := by
  induction run generalizing s₀ with
  | nil => exact Nat.le_refl 0
  | cons v run ih =>
      refine (charged_steps (h s₀ v (visits_cons.mpr (Or.inl ⟨rfl, rfl⟩)))).append (ih ?_)
      exact fun s w hw => h s w (visits_cons.mpr (Or.inr hw))

/-- **At most eight codes are compared** with a user's second factor while the
limiter's entry is not reset, whatever the entry held at first, in every run in
which no comparison comes from a route that counts no attempt. -/
theorem at_most_eight_comparisons (p : Platform) (s₀ : Server) (run : List Visit) (u : Uuid)
    (hwindow : ∀ ev ∈ runSteps p s₀ run, KeepsEntry u ev)
    (hcharged : ∀ s v, Visits p s₀ run s v → ¬ v.Uncharged p s u) :
    comparisons u (runSteps p s₀ run) ≤ 8 := by
  have hregular : ∀ ev ∈ runSteps p s₀ run, ev.op.Regular u := by
    intro ev hev
    rcases mem_runSteps hev with ⟨s, v, -, hstep⟩
    exact regular_of_footprint ((handle_performs p v.request).trace_mem v.env s ev hstep)
  have hbudget := budget (executes_runSteps p s₀ run) hregular hwindow
  have hpaid : comparisons u (runSteps p s₀ run) ≤ charges u (runSteps p s₀ run) :=
    charged_runSteps hcharged
  omega

/-! ## A ninth comparison -/

/-- The sample account's second login, its factor enabled. -/
def sampleChallengeToken : Token := .challenge ⟨1, .login, 1111111709⟩

def sampleGuess : Visit :=
  ⟨.challengeVerify sampleHeaders sampleChallengeToken "000000",
    steadily (Timestamp.seconds 1111111109) 0⟩

def sampleDisable : Visit :=
  ⟨.disable sampleBearer "U*U" "000000", steadily (Timestamp.seconds 1111111109) 0⟩

/-- The sample account once it has enabled a second factor. -/
def sampleEnrolled : Server :=
  stateAfter (samplePlatform .sqlite) sampleServer [sampleLogin, sampleEnroll, sampleEnrollConfirm]

instance (u : Uuid) (ev : Step) : Decidable (KeepsEntry u ev) := by
  unfold KeepsEntry
  infer_instance

/-- Nine guesses at `challenge_verify`. -/
theorem at_most_eight_comparisons_sample :
    comparisons 1 (runSteps (samplePlatform .sqlite) sampleEnrolled
      (List.replicate 9 sampleGuess)) ≤ 8 := by
  refine at_most_eight_comparisons _ _ _ _ ?_ ?_
  · decide +kernel
  · rintro s v ⟨before, later, h, -⟩
    have hv : v ∈ List.replicate 9 sampleGuess := by simp [h]
    rw [List.eq_of_mem_replicate hv]
    exact id

/-- Eight guesses at `challenge_verify`, a ninth that it refuses, and one more at
`disable`, which compares the code all the same. -/
theorem disable_guesses_uncharged :
    let p := samplePlatform .sqlite
    let run := List.replicate 9 sampleGuess ++ [sampleDisable]
    let refusing := stateAfter p sampleEnrolled (List.replicate 8 sampleGuess)
    (sampleLogin.response p sampleEnrolled).map (·.body) =
        some (.mfaRequired sampleChallengeToken "OP-1" .totp) ∧
      (sampleGuess.response p refusing).map (·.status) = some 429 ∧
      (∀ ev ∈ runSteps p sampleEnrolled run, KeepsEntry 1 ev) ∧
      ¬ comparisons 1 (runSteps p sampleEnrolled run) ≤ 8 := by
  intro p run refusing
  refine ⟨?_, ?_, ?_, ?_⟩
  · decide +kernel
  · decide +kernel
  · decide +kernel
  · decide +kernel

end AnatoliaBis.Auth
