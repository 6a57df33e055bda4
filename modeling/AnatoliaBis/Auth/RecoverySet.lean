import AnatoliaBis.Auth.SecondFactor
import AnatoliaBis.Auth.SingleUse

/-! # Recovery codes and the enablement they belong to

`confirm_enrollment` enables the credential with one statement, deletes the old
recovery codes with another and stores the ten new ones with ten more. The
statement that enables asks for the secret or the mailed code, not whether the
credential is still pending, and no transaction holds the rest together.
`codes_belong` is what remains.
-/

namespace AnatoliaBis.Auth

open Atomic Program

/-! ## What is stored and who enables -/

/-- The digests of the user's recovery codes. A code that was used keeps its row. -/
def Server.recoveryDigests (s : Server) (u : Uuid) : List String :=
  (s.recoveryCodes.filter (·.userId == u)).map (·.codeHash)

/-- The user whose credential the step enables. -/
def enabling (p : Platform) (ev : Step) : Option Uuid :=
  match ev.op with
  | .db (.enableMfaCredential u secret) =>
      if !ev.env.fails && (Query.perform p ev.env.now (.enableMfaCredential u secret)
        ev.before).2 then some u else none
  | .db (.enableEmailMfaCredential u digest) =>
      if !ev.env.fails && (Query.perform p ev.env.now (.enableEmailMfaCredential u digest)
        ev.before).2 then some u else none
  | _ => none

/-- What the step makes of the stored digests. -/
def reissue (u : Uuid) (digests : List String) (ev : Step) : List String :=
  if dropping ev = some u then []
  else
    match issuing ev with
    | some (v, digest) => if v = u then digests ++ [digest] else digests
    | none => digests

/-- The user's credential was enabled in this history. -/
def HasEnabled (p : Platform) (u : Uuid) (h : List Step) : Prop :=
  ∃ ev ∈ h, enabling p ev = some u

/-- A statement failed after that. -/
def FailsAfter (p : Platform) (u : Uuid) (h : List Step) : Prop :=
  ∃ h₁ ev h₂, h = h₁ ++ ev :: h₂ ∧ HasEnabled p u h₁ ∧ ev.env.fails = true

instance (p : Platform) (u : Uuid) (h : List Step) : Decidable (HasEnabled p u h) :=
  inferInstanceAs (Decidable (∃ ev ∈ h, enabling p ev = some u))

section Steps

variable {p : Platform} {e : Env} {s : Server} {u : Uuid} {h : List Step} {ev : Step}

theorem hasEnabled_snoc :
    HasEnabled p u (h ++ [ev]) ↔ HasEnabled p u h ∨ enabling p ev = some u := by
  unfold HasEnabled
  constructor
  · rintro ⟨ev', hev', henabling⟩
    rcases List.mem_append.mp hev' with hev' | hev'
    · exact Or.inl ⟨ev', hev', henabling⟩
    · rcases List.mem_singleton.mp hev' with rfl
      exact Or.inr henabling
  · rintro (⟨ev', hev', henabling⟩ | henabling)
    · exact ⟨ev', List.mem_append_left _ hev', henabling⟩
    · exact ⟨ev, last_mem, henabling⟩

theorem failsAfter_snoc (henabled : HasEnabled p u h) (hfails : ev.env.fails = true) :
    FailsAfter p u (h ++ [ev]) :=
  ⟨h, ev, [], rfl, henabled, hfails⟩

/-- The stored digests follow the steps. -/
theorem recoveryDigests_step (op : Call) :
    (exec p op e s).1.recoveryDigests u =
      reissue u (s.recoveryDigests u) (stepOf p op e s) := by
  unfold Server.recoveryDigests reissue
  cases recoveryStep (p := p) (e := e) (s := s) op with
  | quiet hdropping hissuing hspending hafter =>
      have hafter' : (exec p op e s).1.recoveryCodes = s.recoveryCodes := hafter
      rw [hdropping, hissuing, hafter']
      simp
  | deletes v hdropping hissuing hspending hafter =>
      have hafter' : (exec p op e s).1.recoveryCodes = s.recoveryCodes.filter (·.userId != v) :=
        hafter
      rw [hdropping, hissuing, hafter', List.filter_filter]
      by_cases hv : v = u
      · subst hv
        simp
      · have hsame : ∀ row : RecoveryCodeRow, (row.userId == u && row.userId != v) =
            (row.userId == u) := by
          intro row
          by_cases hrow : row.userId = u
          · simp [hrow, Ne.symm hv]
          · simp [hrow]
        simp [hv, hsame]
  | issues v digest hdropping hissuing hspending hafter =>
      have hafter' : (exec p op e s).1.recoveryCodes = s.recoveryCodes ++ [⟨v, digest, none⟩] :=
        hafter
      rw [hdropping, hissuing, hafter', List.filter_append, List.map_append]
      by_cases hv : v = u
      · simp [hv]
      · simp [hv]
  | spends v digest now hdropping hissuing hspending hafter =>
      have hafter' : (exec p op e s).1.recoveryCodes = s.recoveryCodes.map fun row =>
          if row.isUnused v digest then { row with usedAt := some now } else row := hafter
      have huser : ((·.userId == u) ∘ fun row : RecoveryCodeRow =>
          if row.isUnused v digest then { row with usedAt := some now } else row) =
          (·.userId == u) := by
        funext row
        simp only [Function.comp_apply]
        split_ifs <;> rfl
      have hhash : ((·.codeHash) ∘ fun row : RecoveryCodeRow =>
          if row.isUnused v digest then { row with usedAt := some now } else row) =
          (·.codeHash) := by
        funext row
        simp only [Function.comp_apply]
        split_ifs <;> rfl
      rw [hdropping, hissuing, hafter', List.filter_map, huser, List.map_map, hhash]
      simp

/-- Over a whole execution. -/
theorem recoveryDigests_executes {s' : Server} {evs : List Step}
    (h : Executes (exec p) s evs s') :
    s'.recoveryDigests u = evs.foldl (reissue u) (s.recoveryDigests u) := by
  induction h with
  | nil s => rfl
  | cons op e s rest ih =>
      rw [ih, recoveryDigests_step]
      rfl

/-- An `UPDATE` that enables nothing. -/
theorem mfaEnabled_of_update {v : Uuid} {cond : MfaCredentialRow → Bool}
    {f : MfaCredentialRow → MfaCredentialRow} (hf : ∀ row, (f row).enabledAt = row.enabledAt)
    (hafter : (s.updateMfaCredential v cond f).1.MfaEnabled u) : s.MfaEnabled u := by
  rcases updateMfaCredential_cases s v cond f with
    ⟨row, hrow, -, hupdate⟩ | hupdate
  · rw [hupdate] at hafter
    rcases hafter with ⟨row', hrow', henabled⟩
    by_cases huv : u = v
    · subst huv
      rw [setMfaCredential_self] at hrow'
      rcases Option.some.inj hrow' with rfl
      rw [hf] at henabled
      exact ⟨row, hrow, henabled⟩
    · rw [setMfaCredential_of_ne huv] at hrow'
      exact ⟨row', hrow', henabled⟩
  · rw [hupdate] at hafter
    exact hafter

/-- A row put in place that is not enabled. -/
theorem mfaEnabled_of_set {v : Uuid} {row : Option MfaCredentialRow}
    (hrow : ∀ r, row = some r → r.enabledAt = none)
    (hafter : (s.setMfaCredential v row).MfaEnabled u) : s.MfaEnabled u := by
  rcases hafter with ⟨row', hrow', henabled⟩
  by_cases huv : u = v
  · subst huv
    rw [setMfaCredential_self] at hrow'
    simp [hrow row' hrow'] at henabled
  · rw [setMfaCredential_of_ne huv] at hrow'
    exact ⟨row', hrow', henabled⟩

/-- An `UPDATE` that may enable its row. -/
theorem mfaEnabled_of_enable {v : Uuid} {cond : MfaCredentialRow → Bool}
    {f : MfaCredentialRow → MfaCredentialRow}
    (hafter : (s.updateMfaCredential v cond f).1.MfaEnabled u) :
    s.MfaEnabled u ∨ (s.updateMfaCredential v cond f).2 = true ∧ v = u := by
  rcases updateMfaCredential_cases s v cond f with
    ⟨row, -, -, hupdate⟩ | hupdate
  · by_cases huv : u = v
    · exact Or.inr ⟨by rw [hupdate], huv.symm⟩
    · rw [hupdate] at hafter
      rcases hafter with ⟨row', hrow', henabled⟩
      rw [setMfaCredential_of_ne huv] at hrow'
      exact Or.inl ⟨row', hrow', henabled⟩
  · rw [hupdate] at hafter
    exact Or.inl hafter

/-- A credential becomes enabled by a step that enables it. -/
theorem mfaEnabled_step {op : Call} (hafter : (exec p op e s).1.MfaEnabled u) :
    s.MfaEnabled u ∨ enabling p (stepOf p op e s) = some u := by
  cases op with
  | db q =>
      cases hf : e.fails with
      | true =>
          rw [exec_db_of_fails s hf] at hafter
          exact Or.inl hafter
      | false =>
          rw [exec_db_of_succeeds s hf] at hafter
          cases q with
          | upsertPendingMfaCredential v secret =>
              refine Or.inl (mfaEnabled_of_set ?_ hafter)
              rintro r ⟨⟩
              rfl
          | upsertPendingEmailMfaCredential v digest x =>
              refine Or.inl (mfaEnabled_of_set ?_ hafter)
              rintro r ⟨⟩
              rfl
          | deleteMfaCredential v =>
              refine Or.inl (mfaEnabled_of_set ?_ hafter)
              rintro r ⟨⟩
          | updateEmailMfaCode v digest x =>
              refine Or.inl (mfaEnabled_of_update ?_ hafter)
              exact fun _ => rfl
          | consumeEmailMfaCode v digest =>
              refine Or.inl (mfaEnabled_of_update ?_ hafter)
              exact fun _ => rfl
          | touchMfaLastUsed v =>
              refine Or.inl (mfaEnabled_of_update ?_ hafter)
              exact fun _ => rfl
          | enableMfaCredential v secret =>
              rcases mfaEnabled_of_enable hafter with hbefore | ⟨haffected, rfl⟩
              · exact Or.inl hbefore
              · have hperform :
                    (Query.perform p e.now (.enableMfaCredential v secret) s).2 = true := haffected
                exact Or.inr (by simp [enabling, stepOf, hf, hperform])
          | enableEmailMfaCredential v digest =>
              rcases mfaEnabled_of_enable hafter with hbefore | ⟨haffected, rfl⟩
              · exact Or.inl hbefore
              · have hperform :
                    (Query.perform p e.now (.enableEmailMfaCredential v digest) s).2 = true :=
                  haffected
                exact Or.inr (by simp [enabling, stepOf, hf, hperform])
          | _ => exact Or.inl hafter
  | _ => exact Or.inl hafter

theorem mfaEnabled_of_affected {v : Uuid} {cond : MfaCredentialRow → Bool}
    {f : MfaCredentialRow → MfaCredentialRow}
    (haffected : (s.updateMfaCredential v cond f).2 = true)
    (hf : ∀ row, (f row).enabledAt.isSome = true) :
    (s.updateMfaCredential v cond f).1.MfaEnabled v := by
  rcases updateMfaCredential_cases s v cond f with
    ⟨row, -, -, hupdate⟩ | hupdate
  · rw [hupdate]
    exact ⟨f row, setMfaCredential_self s _, hf row⟩
  · rw [hupdate] at haffected
    cases haffected

/-- And so it is after that step. -/
theorem mfaEnabled_of_enabling {op : Call} (henabling : enabling p (stepOf p op e s) = some u) :
    (exec p op e s).1.MfaEnabled u := by
  unfold enabling stepOf at henabling
  dsimp only at henabling
  split at henabling
  next v secret =>
    split_ifs at henabling with hcond
    rcases Option.some.inj henabling with rfl
    rw [Bool.and_eq_true, Bool.not_eq_true'] at hcond
    rw [exec_db_of_succeeds s hcond.1]
    exact mfaEnabled_of_affected hcond.2 fun _ => rfl
  next v digest =>
    split_ifs at henabling with hcond
    rcases Option.some.inj henabling with rfl
    rw [Bool.and_eq_true, Bool.not_eq_true'] at hcond
    rw [exec_db_of_succeeds s hcond.1]
    exact mfaEnabled_of_affected hcond.2 fun _ => rfl
  · cases henabling

/-- Nothing but an upsert or a removal disables it again. -/
theorem mfaEnabled_keeps {op : Call} (hup : ¬ op.Upserts u) (hdel : ¬ op.Deletes u)
    (h : s.MfaEnabled u) : (exec p op e s).1.MfaEnabled u := by
  rcases h with ⟨row, hrow, henabled⟩
  rcases exec_keepsFactor hup hdel e s row.method row.secret ⟨row, hrow, henabled, rfl, rfl⟩ with
    ⟨row', hrow', henabled', -⟩
  exact ⟨row', hrow', henabled'⟩

end Steps

/-! ## One confirmation or verification -/

/-- `verify_code` or `confirm_enrollment`. -/
def Job.Redeems : Job → Prop
  | .verifyCode .. | .confirmEnrollment .. => True
  | _ => False

/-- The operations of such a job after the history `h`: it enables its own user's
credential only, and touches the recovery codes only once it has. -/
def RedeemCall (p : Platform) (job : Job) (h : List Step) : Call → Prop
  | .db (.upsertPendingMfaCredential ..) | .db (.upsertPendingEmailMfaCredential ..)
  | .db (.deleteMfaCredential _) => False
  | .db (.enableMfaCredential u _) | .db (.enableEmailMfaCredential u _) => u = job.user
  | .db (.deleteRecoveryCodes u) | .db (.insertRecoveryCode u _) =>
      u = job.user ∧ HasEnabled p u h
  | _ => True

/-- Its answers: a set of codes, which it has stored after deleting the others; or
anything else, when it has enabled nothing or a statement has failed since. -/
def RedeemAnswer (p : Platform) (job : Job) (h : List Step) : Answer → Prop
  | .confirmed (.ok (.enabled codes)) =>
      HasEnabled p job.user h ∧ codes.length = recoveryCodeCount ∧
        ∀ digests, h.foldl (reissue job.user) digests = codes.map p.sha256Hex
  | _ => HasEnabled p job.user h → FailsAfter p job.user h

section Guarantee

variable {p : Platform} {job : Job} {u : Uuid} {accountName code : String} {h : List Step}

theorem not_hasEnabled_snoc {ev : Step} (hnot : ¬ HasEnabled p u h) (hev : enabling p ev = none) :
    ¬ HasEnabled p u (h ++ [ev]) := by
  intro henabled
  rcases hasEnabled_snoc.mp henabled with hbefore | hlast
  · exact hnot hbefore
  · simp [hev] at hlast

theorem totpCodeMatches_redeems {secret : String} (hnot : ¬ HasEnabled p u h) :
    (totpCodeMatches secret accountName code).Guarantees (exec p) (RedeemCall p job)
      (fun h _ => ¬ HasEnabled p u h) h := by
  unfold totpCodeMatches
  split_ifs
  · exact hnot
  · exact ⟨trivial, fun e s => not_hasEnabled_snoc hnot rfl⟩

theorem verifyRecoveryCode_redeems (hnot : ¬ HasEnabled p u h) :
    (verifyRecoveryCode p u code).Guarantees (exec p) (RedeemCall p job)
      (fun h _ => ¬ HasEnabled p u h) h := by
  refine guarantees_query trivial fun e₁ s₁ => ?_
  have hnot₁ : ¬ HasEnabled p u (h ++ [stepOf p (.db (.consumeRecoveryCode u
      (p.sha256Hex (trim code)))) e₁ s₁]) := not_hasEnabled_snoc hnot rfl
  split
  · exact guarantees_query trivial fun e₂ s₂ => not_hasEnabled_snoc hnot₁ rfl
  · exact hnot₁

theorem verifyCredential_redeems (hnot : ¬ HasEnabled p u h) :
    (verifyCredential p u accountName code).Guarantees (exec p) (RedeemCall p job)
      (fun h _ => ¬ HasEnabled p u h) h := by
  refine guarantees_query trivial fun e₁ s₁ => ?_
  have hnot₁ : ¬ HasEnabled p u (h ++ [stepOf p (.db (.findMfaCredential u)) e₁ s₁]) :=
    not_hasEnabled_snoc hnot rfl
  split
  · exact hnot₁
  next credential _ =>
    split
    · refine guarantees_query trivial fun e₂ s₂ => ?_
      have hnot₂ : ¬ HasEnabled p u (h ++ [stepOf p (.db (.findMfaCredential u)) e₁ s₁] ++
          [stepOf p (.db (.consumeEmailMfaCode u (p.sha256Hex (trim code)))) e₂ s₂]) :=
        not_hasEnabled_snoc hnot₁ rfl
      split
      · exact hnot₂
      · exact (verifyRecoveryCode_redeems hnot₂).bind fun _ _ hend => hend
    · have htotp : (credentialTotpMatches p credential.secret accountName code).Guarantees (exec p)
          (RedeemCall p job) (fun h _ => ¬ HasEnabled p u h)
          (h ++ [stepOf p (.db (.findMfaCredential u)) e₁ s₁]) := by
        unfold credentialTotpMatches
        split_ifs
        · exact totpCodeMatches_redeems hnot₁
        · exact hnot₁
      refine htotp.bind fun h' ok hnot' => ?_
      split_ifs
      · exact guarantees_query trivial fun e₂ s₂ => not_hasEnabled_snoc hnot' rfl
      · exact (verifyRecoveryCode_redeems hnot').bind fun _ _ hend => hend

/-- Whether the statement that enables by a secret did. -/
theorem enabling_of_secret (p : Platform) (u : Uuid) (secret : String) (e : Env) (s : Server) :
    enabling p (stepOf p (.db (.enableMfaCredential u secret)) e s) =
      if (exec p (.db (.enableMfaCredential u secret)) e s).2.toOption = some true then some u
      else none := by
  cases hf : e.fails with
  | true => simp [enabling, stepOf, hf, exec_db_of_fails s hf, Except.toOption]
  | false =>
      simp only [enabling, stepOf, hf, exec_db_of_succeeds s hf, Except.toOption, Bool.not_false,
        Bool.true_and, Option.some.injEq]

theorem enabling_of_digest (p : Platform) (u : Uuid) (digest : String) (e : Env) (s : Server) :
    enabling p (stepOf p (.db (.enableEmailMfaCredential u digest)) e s) =
      if (exec p (.db (.enableEmailMfaCredential u digest)) e s).2.toOption = some true then some u
      else none := by
  cases hf : e.fails with
  | true => simp [enabling, stepOf, hf, exec_db_of_fails s hf, Except.toOption]
  | false =>
      simp only [enabling, stepOf, hf, exec_db_of_succeeds s hf, Except.toOption, Bool.not_false,
        Bool.true_and, Option.some.injEq]

/-- The comparison says truly whether the credential got enabled. -/
theorem enablePending_redeems {pending : MfaCredentialRow} (hu : job.user = u)
    (hnot : ¬ HasEnabled p u h) :
    (enablePending p u accountName code pending).Guarantees (exec p) (RedeemCall p job)
      (fun h enabled => HasEnabled p u h ↔ enabled = .ok true) h := by
  have hno : ∀ {h : List Step} {r : Except ApiError Bool}, ¬ HasEnabled p u h → r ≠ .ok true →
      (HasEnabled p u h ↔ r = .ok true) := fun hnot hr => iff_of_false hnot hr
  unfold enablePending
  split
  · refine guarantees_perform trivial fun e₁ s₁ => guarantees_query hu.symm fun e₂ s₂ => ?_
    have hnot₁ : ¬ HasEnabled p u (h ++ [stepOf p (.compareCode u) e₁ s₁]) :=
      not_hasEnabled_snoc hnot rfl
    have hlast := enabling_of_digest p u (p.sha256Hex (trim code)) e₂ s₂
    split
    next hok =>
      rw [hok] at hlast
      exact hno (not_hasEnabled_snoc hnot₁ hlast) (by simp)
    next enabled hok =>
      rw [hok] at hlast
      cases enabled with
      | false => exact hno (not_hasEnabled_snoc hnot₁ hlast) (by simp)
      | true => exact iff_of_true (hasEnabled_snoc.mpr (Or.inr hlast)) rfl
  · split_ifs
    · refine guarantees_perform trivial fun e₁ s₁ => ?_
      have hnot₁ : ¬ HasEnabled p u (h ++ [stepOf p (.compareCode u) e₁ s₁]) :=
        not_hasEnabled_snoc hnot rfl
      refine (totpCodeMatches_redeems hnot₁).bind fun h' ok hnot' => ?_
      split_ifs
      · refine guarantees_query hu.symm fun e₂ s₂ => ?_
        have hlast := enabling_of_secret p u pending.secret e₂ s₂
        split
        next hok =>
          rw [hok] at hlast
          exact hno (not_hasEnabled_snoc hnot' hlast) (by simp)
        next enabled hok =>
          rw [hok] at hlast
          cases enabled with
          | false => exact hno (not_hasEnabled_snoc hnot' hlast) (by simp)
          | true => exact iff_of_true (hasEnabled_snoc.mpr (Or.inr hlast)) rfl
      · exact hno hnot' (by simp)
    · exact hno hnot (by simp)

theorem fails_of_error {q : Query} {e : Env} {s : Server} {err : DbError}
    (herror : (exec p (.db q) e s).2 = .error err) : e.fails = true := by
  cases hf : e.fails with
  | true => rfl
  | false => simp [exec_db_of_succeeds s hf] at herror

theorem succeeds_of_ok {q : Query} {e : Env} {s : Server} {r : q.Res}
    (hok : (exec p (.db q) e s).2 = .ok r) : e.fails = false := by
  cases hf : e.fails with
  | true => simp [exec_db_of_fails s hf] at hok
  | false => rfl

/-- After a replacement, or its end: the digests stored, or a failure. -/
def Replaced (p : Platform) (u : Uuid) (stored : List String) (h : List Step) :
    Except DbError Unit → Prop
  | .ok _ => HasEnabled p u h ∧ ∀ digests, h.foldl (reissue u) digests = stored
  | .error _ => FailsAfter p u h

/-- The `INSERT`s, after the user's credential was enabled. -/
theorem insertRecoveryCodes_redeems {codeHashes stored : List String} (hu : job.user = u)
    (henabled : HasEnabled p u h) (hstored : ∀ digests, h.foldl (reissue u) digests = stored) :
    (insertRecoveryCodes u codeHashes).Guarantees (exec p) (RedeemCall p job)
      (Replaced p u (stored ++ codeHashes)) h := by
  induction codeHashes generalizing h stored with
  | nil => exact ⟨henabled, by simpa using hstored⟩
  | cons codeHash codeHashes ih =>
      refine guarantees_query ⟨hu.symm, henabled⟩ fun e s => ?_
      split
      next herror => exact failsAfter_snoc henabled (fails_of_error herror)
      next hok =>
        have hissue : ∀ digests, (h ++ [stepOf p (.db (.insertRecoveryCode u codeHash)) e
            s]).foldl (reissue u) digests = stored ++ [codeHash] := by
          intro digests
          rw [List.foldl_append, hstored]
          simp [reissue, dropping, issuing, stepOf, succeeds_of_ok hok]
        have hrest := ih (hasEnabled_snoc.mpr (Or.inl henabled)) hissue
        rw [List.append_assoc, List.singleton_append] at hrest
        exact hrest

/-- The end of a confirmation that has enabled the credential. -/
theorem issueRecoveryCodes_redeems (hu : job.user = u) (henabled : HasEnabled p u h) :
    (issueRecoveryCodes p u).Guarantees (exec p) (RedeemCall p job)
      (fun h outcome => RedeemAnswer p job h (.confirmed outcome)) h := by
  refine guarantees_perform trivial fun e₁ s₁ => ?_
  have henabled₁ : HasEnabled p u (h ++ [stepOf p .random e₁ s₁]) :=
    hasEnabled_snoc.mpr (Or.inl henabled)
  have hreplace : (replaceRecoveryCodes u ((recoveryCodes e₁.random).map p.sha256Hex)).Guarantees
      (exec p) (RedeemCall p job) (Replaced p u ((recoveryCodes e₁.random).map p.sha256Hex))
      (h ++ [stepOf p .random e₁ s₁]) := by
    refine guarantees_query ⟨hu.symm, henabled₁⟩ fun e₂ s₂ => ?_
    split
    next herror => exact failsAfter_snoc henabled₁ (fails_of_error herror)
    next hok =>
      have hdeleted : ∀ digests, (h ++ [stepOf p .random e₁ s₁] ++ [stepOf p (.db
          (.deleteRecoveryCodes u)) e₂ s₂]).foldl (reissue u) digests = [] := by
        intro digests
        rw [List.foldl_append]
        simp [reissue, dropping, stepOf, succeeds_of_ok hok]
      exact insertRecoveryCodes_redeems hu (hasEnabled_snoc.mpr (Or.inl henabled₁)) hdeleted
  refine hreplace.bind fun h' replaced hend => ?_
  split
  · exact fun _ => hu ▸ hend
  · rcases hend with ⟨henabled', hstored⟩
    refine ⟨hu ▸ henabled', ?_, hu ▸ hstored⟩
    rw [recoveryCodes, List.length_map, List.length_range]

theorem confirmEnrollment_redeems (hu : job.user = u) (hnot : ¬ HasEnabled p u h) :
    (confirmEnrollment p u accountName code).Guarantees (exec p) (RedeemCall p job)
      (fun h outcome => RedeemAnswer p job h (.confirmed outcome)) h := by
  have hrefused : ∀ (outcome : Except ApiError ConfirmOutcome) {h : List Step},
      ¬ HasEnabled p u h → (∀ codes, outcome ≠ .ok (.enabled codes)) →
      RedeemAnswer p job h (.confirmed outcome) := by
    intro outcome h hnot houtcome
    rcases outcome with err | codes | -
    · exact fun henabled => absurd (hu ▸ henabled) hnot
    · exact absurd rfl (houtcome codes)
    · exact fun henabled => absurd (hu ▸ henabled) hnot
  refine guarantees_query trivial fun e₁ s₁ => ?_
  have hnot₁ : ¬ HasEnabled p u (h ++ [stepOf p (.db (.findMfaCredential u)) e₁ s₁]) :=
    not_hasEnabled_snoc hnot rfl
  split
  next pending _ =>
    split_ifs
    · exact hrefused (.ok .alreadyEnabled) hnot₁ (by simp)
    · refine (enablePending_redeems hu hnot₁).bind fun h' enabled henabled => ?_
      split
      next err => exact hrefused (.error err) (by simpa using henabled) (by simp)
      · exact hrefused (.error invalidMfaCode) (by simpa using henabled) (by simp)
      · exact issueRecoveryCodes_redeems hu (henabled.mpr rfl)
  · exact hrefused (.error mfaEnrollmentNotStarted) hnot₁ (by simp)

theorem program_redeems (hjob : job.Redeems) :
    (job.program p).Guarantees (exec p) (RedeemCall p job) (RedeemAnswer p job) [] := by
  have hnot : ∀ u, ¬ HasEnabled p u [] := by
    rintro u ⟨ev, hev, -⟩
    exact absurd hev List.not_mem_nil
  cases job with
  | verifyCode u accountName code =>
      have hverify : (verifyCode p u accountName code).Guarantees (exec p)
          (RedeemCall p (.verifyCode u accountName code)) (fun h _ => ¬ HasEnabled p u h) [] :=
        guarantees_perform trivial fun e s =>
          verifyCredential_redeems (not_hasEnabled_snoc (hnot u) rfl)
      exact hverify.map fun h outcome hend henabled => absurd henabled hend
  | confirmEnrollment u accountName code =>
      exact (confirmEnrollment_redeems rfl (hnot u)).map fun _ _ hend => hend
  | _ => exact hjob.elim

end Guarantee

/-! ## All of them together -/

section Run

variable {p : Platform} {u : Uuid} {s s' : Server} {evs : List Step}

/-- A credential enabled at the end was so from the start, or got enabled. -/
theorem hasEnabled_of_executes (h : Executes (exec p) s evs s') (hend : s'.MfaEnabled u) :
    s.MfaEnabled u ∨ HasEnabled p u evs := by
  induction h with
  | nil s => exact Or.inl hend
  | cons op e s rest ih =>
      rcases ih hend with hafter | ⟨ev, hev, henabling⟩
      · rcases mfaEnabled_step hafter with hbefore | henabling
        · exact Or.inl hbefore
        · exact Or.inr ⟨_, List.mem_cons_self .., henabling⟩
      · exact Or.inr ⟨ev, List.mem_cons_of_mem _ hev, henabling⟩

/-- A fold that forgets what was stored before has seen it deleted. -/
theorem exists_dropping {stored : List String}
    (h : ∀ digests, evs.foldl (reissue u) digests = stored) : ∃ ev ∈ evs, dropping ev = some u := by
  by_contra hnone
  rw [not_exists] at hnone
  have hgrows : ∀ (evs' : List Step) (digests : List String),
      (∀ ev ∈ evs', dropping ev ≠ some u) → digests <+: evs'.foldl (reissue u) digests := by
    intro evs'
    induction evs' with
    | nil => exact fun digests _ => List.prefix_refl digests
    | cons ev evs' ih =>
        intro digests hkept
        have hstep : digests <+: reissue u digests ev := by
          unfold reissue
          rw [if_neg (hkept ev (List.mem_cons_self ..))]
          split
          · split_ifs
            · exact List.prefix_append _ _
            · exact List.prefix_refl _
          · exact List.prefix_refl _
        exact hstep.trans (ih _ fun ev' hev' => hkept ev' (List.mem_cons_of_mem _ hev'))
  have hlong := hgrows evs (stored ++ [""]) fun ev hev hdropping => hnone ev ⟨hev, hdropping⟩
  rw [h] at hlong
  have hlength := hlong.length_le
  rw [List.length_append, List.length_singleton] at hlength
  omega

/-- A used code of the user. -/
def Server.HasUsed (s : Server) (u : Uuid) (digest : String) : Prop :=
  ∃ row ∈ s.recoveryCodes, row.userId = u ∧ row.codeHash = digest ∧ row.usedAt.isSome

/-- A used code was used before, and not deleted, or is accepted by this very step. -/
theorem hasUsed_step {op : Call} {e : Env} {digest : String}
    (h : (exec p op e s).1.HasUsed u digest) :
    spending p (stepOf p op e s) = some (u, digest) ∨
      dropping (stepOf p op e s) ≠ some u ∧ s.HasUsed u digest := by
  rcases h with ⟨row, hrow, hu, hdigest, hused⟩
  cases recoveryStep (p := p) (e := e) (s := s) op with
  | quiet hdropping hissuing hspending hafter =>
      have hafter' : (exec p op e s).1.recoveryCodes = s.recoveryCodes := hafter
      rw [hafter'] at hrow
      exact Or.inr ⟨by simp [hdropping], row, hrow, hu, hdigest, hused⟩
  | deletes v hdropping hissuing hspending hafter =>
      have hafter' : (exec p op e s).1.recoveryCodes = s.recoveryCodes.filter (·.userId != v) :=
        hafter
      rw [hafter'] at hrow
      rcases List.mem_filter.mp hrow with ⟨hrow', hv⟩
      have hne : v ≠ u := by
        intro hvu
        simp [hvu, hu] at hv
      exact Or.inr ⟨by simpa [hdropping] using hne, row, hrow', hu, hdigest, hused⟩
  | issues v digest' hdropping hissuing hspending hafter =>
      have hafter' : (exec p op e s).1.recoveryCodes = s.recoveryCodes ++ [⟨v, digest', none⟩] :=
        hafter
      rw [hafter'] at hrow
      rcases List.mem_append.mp hrow with hrow | hrow
      · exact Or.inr ⟨by simp [hdropping], row, hrow, hu, hdigest, hused⟩
      · rcases List.mem_singleton.mp hrow with rfl
        cases hused
  | spends v digest' now hdropping hissuing hspending hafter =>
      have hafter' : (exec p op e s).1.recoveryCodes = s.recoveryCodes.map fun row =>
          if row.isUnused v digest' then { row with usedAt := some now } else row := hafter
      rw [hafter'] at hrow
      rcases List.mem_map.mp hrow with ⟨row', hrow', rfl⟩
      split_ifs at hu hdigest hused with hunused
      · -- it was marked just now
        have hany : s.recoveryCodes.any (·.isUnused v digest') = true :=
          List.any_eq_true.mpr ⟨row', hrow', hunused⟩
        have hspent : spending p (stepOf p op e s) = some (v, digest') := by
          rw [hspending]
          exact if_pos hany
        unfold RecoveryCodeRow.isUnused at hunused
        simp only [Bool.and_eq_true, beq_iff_eq] at hunused
        left
        rw [hspent, ← hu, ← hdigest, ← hunused.1.1, ← hunused.1.2]
      · exact Or.inr ⟨by simp [hdropping], row', hrow', hu, hdigest, hused⟩

/-- Of the codes stored since a deletion, the used ones were accepted. -/
theorem hasUsed_executes {digest : String} (h : Executes (exec p) s evs s')
    (hused : s'.HasUsed u digest) :
    (∃ ev ∈ evs, spending p ev = some (u, digest)) ∨
      (∀ ev ∈ evs, dropping ev ≠ some u) ∧ s.HasUsed u digest := by
  induction h with
  | nil s => exact Or.inr ⟨fun ev hev => absurd hev List.not_mem_nil, hused⟩
  | cons op e s rest ih =>
      rcases ih hused with ⟨ev, hev, hspending⟩ | ⟨hkept, hused'⟩
      · exact Or.inl ⟨ev, List.mem_cons_of_mem _ hev, hspending⟩
      · rcases hasUsed_step hused' with hspending | ⟨hdropping, hbefore⟩
        · exact Or.inl ⟨_, List.mem_cons_self .., hspending⟩
        · refine Or.inr ⟨fun ev hev => ?_, hbefore⟩
          rcases List.mem_cons.mp hev with rfl | hev
          · exact hdropping
          · exact hkept ev hev

end Run

section Pool

variable {ι : Type} [DecidableEq ι]

/-- The codes belong to the enablement: an enabled credential has been confirmed to
somebody, and whoever was given codes was given the ten that are stored; each of
them works until it is used. -/
structure Belongs (p : Platform) (jobs : ι → Job) (u : Uuid) (log : List (ι × Step))
    (pool : Pool ι Call Call.Res Answer Server) : Prop where
  returned : pool.store.MfaEnabled u → ∃ i codes, (jobs i).user = u ∧
    pool.answer i = some (.confirmed (.ok (.enabled codes)))
  stored : ∀ i codes, (jobs i).user = u →
    pool.answer i = some (.confirmed (.ok (.enabled codes))) →
    codes.length = recoveryCodeCount ∧ pool.store.recoveryDigests u = codes.map p.sha256Hex
  works : ∀ i codes, (jobs i).user = u →
    pool.answer i = some (.confirmed (.ok (.enabled codes))) → ∀ code ∈ codes,
    pool.store.holdsRecovery u (p.sha256Hex code) = true ∨
      ∃ entry ∈ log, spending p entry.2 = some (u, p.sha256Hex code)

/-- Every statement that enabled the credential found it pending, and no statement
of that job has failed since. -/
structure Undisturbed (p : Platform) (u : Uuid) (log : List (ι × Step)) : Prop where
  pending : ∀ entry ∈ log, enabling p entry.2 = some u → ¬ entry.2.before.MfaEnabled u
  completes : ∀ l i ev l', log = l ++ (i, ev) :: l' → HasEnabled p u (Pool.own i l) →
    ev.env.fails = false

/-- No job that has enabled the credential is still at work. -/
def Settled (p : Platform) (u : Uuid) (log : List (ι × Step))
    (pool : Pool ι Call Call.Res Answer Server) : Prop :=
  ∀ i, HasEnabled p u (Pool.own i log) → (pool.answer i).isSome

variable {p : Platform} {jobs : ι → Job} {s₀ : Server} {u : Uuid}

/-- Which statements enable a credential. -/
theorem op_of_enabling {ev : Step} (h : enabling p ev = some u) :
    (∃ secret, ev.op = .db (.enableMfaCredential u secret)) ∨
      ∃ digest, ev.op = .db (.enableEmailMfaCredential u digest) := by
  unfold enabling at h
  split at h
  next v secret hop =>
    split_ifs at h
    rcases Option.some.inj h with rfl
    exact Or.inl ⟨secret, hop⟩
  next v digest hop =>
    split_ifs at h
    rcases Option.some.inj h with rfl
    exact Or.inr ⟨digest, hop⟩
  · cases h

theorem op_of_dropping {ev : Step} (h : dropping ev = some u) :
    ev.op = .db (.deleteRecoveryCodes u) := by
  unfold dropping at h
  split at h
  next v hop =>
    split_ifs at h
    rcases Option.some.inj h with rfl
    exact hop
  · cases h

theorem RedeemCall.not_removes {job : Job} {h : List Step} {op : Call}
    (hop : RedeemCall p job h op) : ¬ op.Upserts u ∧ ¬ op.Deletes u := by
  cases op with
  | db q => cases q <;> first | exact hop.elim | exact ⟨id, id⟩
  | _ => exact ⟨id, id⟩

/-- Two jobs that have enabled the credential are one: the second would have found
it enabled. -/
theorem enables_once {s' : Server} {log : List (ι × Step)} (hundisturbed : Undisturbed p u log)
    (hexecutes : Executes (exec p) s₀ (log.map Prod.snd) s')
    (hcalls : ∀ entry ∈ log, ¬ entry.2.op.Upserts u ∧ ¬ entry.2.op.Deletes u) {i j : ι}
    (hi : HasEnabled p u (Pool.own i log)) (hj : HasEnabled p u (Pool.own j log)) : i = j := by
  -- the earlier one first
  have hordered : ∀ {i j : ι} {ev ev' : Step} {l m r : List (ι × Step)},
      log = l ++ (i, ev) :: (m ++ (j, ev') :: r) → enabling p ev = some u →
      enabling p ev' ≠ some u := by
    intro i j ev ev' l m r hlog henabling henabling'
    have hmem : (j, ev') ∈ log := by simp [hlog]
    refine hundisturbed.pending _ hmem henabling' ?_
    rw [hlog, List.map_append, List.map_cons] at hexecutes
    rcases hexecutes.split with ⟨-, hafter, hrest⟩
    rw [List.map_append, List.map_cons] at hrest
    have hbetween := hrest.split.1
    have hstart : ev.after.MfaEnabled u := by
      rw [hafter]
      exact mfaEnabled_of_enabling henabling
    have hkeeps : ev.after.MfaEnabled u → ev'.before.MfaEnabled u := by
      refine hbetween.rel (T := fun s s' => s.MfaEnabled u → s'.MfaEnabled u) (fun _ h => h)
        (fun h h' hs => h' (h hs)) ?_
      intro ev'' hev'' hafter'' henabled
      rcases List.mem_map.mp hev'' with ⟨entry, hentry, rfl⟩
      have hcall := hcalls entry (by simp [hlog, hentry])
      rw [hafter'']
      exact mfaEnabled_keeps hcall.1 hcall.2 henabled
    exact hkeeps hstart
  by_contra hne
  rcases hi with ⟨ev, hev, henabling⟩
  rcases hj with ⟨ev', hev', henabling'⟩
  rcases List.append_of_mem hev with ⟨h, h', hown⟩
  rcases List.append_of_mem hev' with ⟨g, g', hown'⟩
  rcases Pool.own_ordered hne hown hown' with ⟨l, m, r, hlog, -⟩ | ⟨l, m, r, hlog, -⟩
  · exact hordered hlog henabling henabling'
  · exact hordered hlog henabling' henabling

/-- **When the codes belong to the enablement.** However the statements of any
number of confirmations and verifications interleave: as long as every enabling
statement finds the credential pending and nothing fails after it, the codes belong
to the enablement in every state in which the job that enabled has answered. -/
theorem codes_belong (hjobs : ∀ i, (jobs i).Redeems) (hstart : ¬ s₀.MfaEnabled u)
    (schedule : List (ι × Env))
    (hundisturbed : Undisturbed p u ((codeJobs p jobs s₀).log (exec p) schedule))
    (hsettled : Settled p u ((codeJobs p jobs s₀).log (exec p) schedule)
      ((codeJobs p jobs s₀).after (exec p) schedule)) :
    Belongs p jobs u ((codeJobs p jobs s₀).log (exec p) schedule)
      ((codeJobs p jobs s₀).after (exec p) schedule) := by
  have hexecutes := codeJobs_executes p jobs s₀ schedule
  have hguarantees : ∀ i, ((codeJobs p jobs s₀).threads i).Guarantees (exec p)
      (RedeemCall p (jobs i)) (RedeemAnswer p (jobs i)) [] := fun i => program_redeems (hjobs i)
  rcases Pool.guarantees hguarantees schedule with ⟨hthreads, hcalls⟩
  generalize (codeJobs p jobs s₀).log (exec p) schedule = log at *
  generalize (codeJobs p jobs s₀).after (exec p) schedule = pool at *
  have hcall : ∀ i ev, (i, ev) ∈ log → ∃ l l', log = l ++ (i, ev) :: l' ∧
      RedeemCall p (jobs i) (Pool.own i l) ev.op := by
    intro i ev hmem
    rcases List.append_of_mem hmem with ⟨l, l', hlog⟩
    exact ⟨l, l', hlog, hcalls l i ev l' hlog⟩
  have honce : ∀ {i j : ι}, HasEnabled p u (Pool.own i log) → HasEnabled p u (Pool.own j log) →
      i = j := by
    refine enables_once hundisturbed hexecutes fun entry hentry => ?_
    rcases hcall entry.1 entry.2 hentry with ⟨l, l', -, hop⟩
    exact hop.not_removes
  -- the one job that has enabled has answered with its codes
  have hanswer : ∀ {i : ι}, HasEnabled p u (Pool.own i log) → ∃ codes, (jobs i).user = u ∧
      pool.answer i = some (.confirmed (.ok (.enabled codes))) := by
    intro i henabled
    have hu : (jobs i).user = u := by
      rcases henabled with ⟨ev, hev, henabling⟩
      rcases hcall i ev (Pool.mem_own.mp hev) with ⟨l, l', -, hop⟩
      rcases op_of_enabling henabling with ⟨secret, hev⟩ | ⟨digest, hev⟩
      · rw [hev] at hop
        exact Eq.symm hop
      · rw [hev] at hop
        exact Eq.symm hop
    have hcompletes : ¬ FailsAfter p u (Pool.own i log) := by
      rintro ⟨h₁, ev, h₂, hown, henabled₁, hfails⟩
      rcases Pool.own_eq_append hown with ⟨l, l', hlog, hl, -⟩
      have hsucceeds := hundisturbed.completes l i ev l' hlog (hl ▸ henabled₁)
      rw [hfails] at hsucceeds
      cases hsucceeds
    rcases Option.isSome_iff_exists.mp (hsettled i henabled) with ⟨a, ha⟩
    have hdone := hthreads i
    rw [Pool.threads_of_answer ha] at hdone
    have hdone' : RedeemAnswer p (jobs i) (Pool.own i log) a := hdone
    unfold RedeemAnswer at hdone'
    rw [hu] at hdone'
    split at hdone'
    next codes => exact ⟨codes, hu, ha⟩
    · exact absurd (hdone' henabled) hcompletes
  have hcodes : ∀ i codes, (jobs i).user = u →
      pool.answer i = some (.confirmed (.ok (.enabled codes))) →
      HasEnabled p u (Pool.own i log) ∧ codes.length = recoveryCodeCount ∧
        ∀ digests, (Pool.own i log).foldl (reissue u) digests = codes.map p.sha256Hex := by
    intro i codes hu hi
    have hdone := hthreads i
    rw [Pool.threads_of_answer hi] at hdone
    rcases hdone with ⟨henabled, hlength, hfold⟩
    rw [hu] at henabled hfold
    exact ⟨henabled, hlength, hfold⟩
  have hstored : ∀ i codes, (jobs i).user = u →
      pool.answer i = some (.confirmed (.ok (.enabled codes))) →
      pool.store.recoveryDigests u = codes.map p.sha256Hex := by
    intro i codes hu hi
    rcases hcodes i codes hu hi with ⟨henabled, -, hfold⟩
    rw [recoveryDigests_executes hexecutes, ← hfold (s₀.recoveryDigests u)]
    refine Pool.foldl_own _ fun entry hentry hne digests => ?_
    rcases entry with ⟨j, ev⟩
    rcases hcall j ev hentry with ⟨l, l', hlog, hop⟩
    -- the others have not enabled, so they leave the codes alone
    have hother : ¬ HasEnabled p u (Pool.own j l) := by
      rintro ⟨ev', hev', henabling'⟩
      refine hne (honce ⟨ev', ?_, henabling'⟩ henabled)
      rw [hlog, Pool.own_append]
      exact List.mem_append_left _ hev'
    unfold reissue
    split_ifs with hdropping
    · rw [op_of_dropping hdropping] at hop
      exact absurd hop.2 hother
    · split
      next v digest hissuing =>
        split_ifs with hv
        · subst hv
          rw [op_of_issuing hissuing] at hop
          exact absurd hop.2 hother
        · rfl
      · rfl
  constructor
  · intro henabled
    rcases (hasEnabled_of_executes hexecutes henabled).resolve_left hstart with
      ⟨ev, hev, henabling⟩
    rcases List.mem_map.mp hev with ⟨⟨i, ev'⟩, hentry, rfl⟩
    rcases hanswer ⟨ev', Pool.mem_own.mpr hentry, henabling⟩ with ⟨codes, hu, hi⟩
    exact ⟨i, codes, hu, hi⟩
  · intro i codes hu hi
    exact ⟨(hcodes i codes hu hi).2.1, hstored i codes hu hi⟩
  · intro i codes hu hi code hcode
    have hmem : p.sha256Hex code ∈ pool.store.recoveryDigests u := by
      rw [hstored i codes hu hi]
      exact List.mem_map_of_mem hcode
    rcases List.mem_map.mp hmem with ⟨row, hrow, hdigest⟩
    rcases List.mem_filter.mp hrow with ⟨hrow, huser⟩
    rw [beq_iff_eq] at huser
    by_cases hused : row.usedAt.isSome
    · right
      rcases hasUsed_executes hexecutes ⟨row, hrow, huser, hdigest, hused⟩ with
        ⟨ev, hev, hspending⟩ | ⟨hkept, -⟩
      · rcases List.mem_map.mp hev with ⟨entry, hentry, rfl⟩
        exact ⟨entry, hentry, hspending⟩
      · rcases exists_dropping (hcodes i codes hu hi).2.2 with ⟨ev, hev, hdropping⟩
        exact absurd hdropping (hkept ev (List.mem_map_of_mem (Pool.mem_own.mp hev)))
    · left
      refine List.any_eq_true.mpr ⟨row, hrow, ?_⟩
      simpa [RecoveryCodeRow.isUnused, huser, hdigest] using hused

end Pool

/-! ## Two tabs, and a statement that fails -/

/-- A pending enrollment with an authenticator app. -/
def samplePending : Server :=
  (Query.perform (samplePlatform .sqlite) 0 (.upsertPendingMfaCredential 1
    "GEZDGNBVGY3TQOJQGEZDGNBVGY3TQOJQ") sampleServer).1

/-- Two tabs confirm it with the same code. -/
def sampleConfirmations : Pool Bool Call Call.Res Answer Server :=
  codeJobs (samplePlatform .sqlite) (fun _ => .confirmEnrollment 1 "A00001" "050471") samplePending

/-- Turns at one instant; the tabs draw different bytes. -/
def sampleTurns (order : List Bool) : List (Bool × Env) :=
  order.map fun i => (i, steadily (Timestamp.seconds 1111111111) i.toNat 0)

/-- The second tab comes when the first is through. -/
def sampleInTurn : List (Bool × Env) :=
  sampleTurns (List.replicate 20 false ++ List.replicate 20 true)

theorem codes_belong_sample :
    Belongs (samplePlatform .sqlite) (fun _ => .confirmEnrollment 1 "A00001" "050471") 1
      (sampleConfirmations.log (exec (samplePlatform .sqlite)) sampleInTurn)
      (sampleConfirmations.after (exec (samplePlatform .sqlite)) sampleInTurn) := by
  have hsucceed : ∀ entry ∈ sampleConfirmations.log (exec (samplePlatform .sqlite)) sampleInTurn,
      entry.2.env.fails = false := by
    decide +kernel
  refine codes_belong (fun _ => ?_) (by decide +kernel) _ ⟨?_, ?_⟩ ?_
  · trivial
  · show ∀ entry ∈ sampleConfirmations.log (exec (samplePlatform .sqlite)) sampleInTurn, _
    decide +kernel
  · intro l i ev l' hlog _
    have hmem : (i, ev) ∈ sampleConfirmations.log (exec (samplePlatform .sqlite)) sampleInTurn := by
      rw [sampleConfirmations, hlog]
      simp
    exact hsucceed (i, ev) hmem
  · show ∀ i, HasEnabled (samplePlatform .sqlite) 1 (Pool.own i (sampleConfirmations.log
      (exec (samplePlatform .sqlite)) sampleInTurn)) → ((sampleConfirmations.after
      (exec (samplePlatform .sqlite)) sampleInTurn).answer i).isSome
    decide +kernel

/-- The two tabs statement by statement: each is given ten codes, twenty are stored. -/
def sampleOverlap : List (Bool × Env) := sampleTurns (List.replicate 20 [false, true]).flatten

/-- The first tab alone; the statement that deletes the old codes fails, and the
retry is told that all is done. -/
def sampleInterrupted : List (Bool × Env) :=
  sampleTurns (List.replicate 5 false) ++
    (false, { steadily (Timestamp.seconds 1111111111) 0 0 with fails := true }) ::
      sampleTurns [true, true]

/-- Enabled with the codes of two confirmations, or with none at all. -/
theorem enabled_with_other_codes :
    ¬ Belongs (samplePlatform .sqlite) (fun _ => .confirmEnrollment 1 "A00001" "050471") 1
        (sampleConfirmations.log (exec (samplePlatform .sqlite)) sampleOverlap)
        (sampleConfirmations.after (exec (samplePlatform .sqlite)) sampleOverlap) ∧
      ¬ Belongs (samplePlatform .sqlite) (fun _ => .confirmEnrollment 1 "A00001" "050471") 1
        (sampleConfirmations.log (exec (samplePlatform .sqlite)) sampleInterrupted)
        (sampleConfirmations.after (exec (samplePlatform .sqlite)) sampleInterrupted) := by
  constructor
  · intro h
    have henabled : (sampleConfirmations.after (exec (samplePlatform .sqlite))
        sampleOverlap).store.MfaEnabled 1 := by
      decide +kernel
    rcases h.returned henabled with ⟨i, codes, hu, hi⟩
    rcases h.stored i codes hu hi with ⟨hlength, hstored⟩
    have hmany : ((sampleConfirmations.after (exec (samplePlatform .sqlite))
        sampleOverlap).store.recoveryDigests 1).length = 20 := by
      decide +kernel
    rw [hstored, List.length_map, hlength] at hmany
    exact absurd hmany (by decide)
  · intro h
    have henabled : (sampleConfirmations.after (exec (samplePlatform .sqlite))
        sampleInterrupted).store.MfaEnabled 1 := by
      decide +kernel
    rcases h.returned henabled with ⟨i, codes, hu, hi⟩
    rcases h.stored i codes hu hi with ⟨hlength, hstored⟩
    have hnone : ((sampleConfirmations.after (exec (samplePlatform .sqlite))
        sampleInterrupted).store.recoveryDigests 1).length = 0 := by
      decide +kernel
    rw [hstored, List.length_map, hlength] at hnone
    exact absurd hnone (by decide)

end AnatoliaBis.Auth
