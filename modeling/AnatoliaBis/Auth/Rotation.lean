import AnatoliaBis.Auth.Sessions

/-! # Rotation and reuse detection

Requests handled one after the other, no statement failing. `refresh_cases` says
what one refresh does; `visit_evolves` what any request does to the sessions
table; `rotation_safe` follows tokens and families through a run.
-/

namespace AnatoliaBis.Auth

open Atomic Program

/-! ## One refresh -/

/-- The session `row` is renewed for whoever presents the token. -/
structure Renewable (p : Platform) (s : Server) (c : RefreshClaims) (now : Timestamp)
    (row : SessionRow) : Prop where
  unrevoked : row.revokedAt = none
  recorded : row.refreshTokenHash = p.refreshTokenHash c
  unexpired : ¬ row.expiresAt < now
  active : (s.findActiveUser c.sub).isSome

/-- Whether `refresh` accepts the token, its operations meeting `ω`. -/
def Accepts (p : Platform) (s : Server) (ω : Nat → Env) (c : RefreshClaims) : Prop :=
  Unexpired c.exp (ω 0).now ∧ ∃ row, s.session c.family = some row ∧ Renewable p s c (ω 2).now row

/-- The family has a session, which is revoked. -/
def Server.Revoked (s : Server) (f : Uuid) : Prop :=
  ∃ row, s.session f = some row ∧ row.revokedAt.isSome

section Refresh

variable {p : Platform} {α : Type} {ω : Nat → Env} {s : Server} {headers : Headers}
  {c : RefreshClaims}

theorem run_query_of_succeeds {q : Query} (h : (ω 0).fails = false)
    (f : Except DbError q.Res → Handler α) :
    (query q >>= f).run (exec p) ω s =
      (f (.ok (q.perform p (ω 0).now s).2)).run (exec p) (fun n => ω (n + 1))
        (q.perform p (ω 0).now s).1 := by
  rw [run_query_bind, exec_db_of_succeeds s h]

@[simp] theorem unauthorized_status (headers : Headers) : (unauthorized headers).status = 401 := by
  simp [unauthorized, unauthorizedError, ApiError.intoResponse, ApiError.statusCode]

/-- An audit event at the end of a handler. -/
theorem run_save_bind_pure (r : Audit.AuditRecorder) (a : α) (ω : Nat → Env) (s : Server) :
    ((save p r >>= fun _ => done a).run (exec p) ω s).1 = a ∧
      SameSessions s ((save p r >>= fun _ => done a).run (exec p) ω s).2 := by
  rw [run_bind]
  exact ⟨rfl, sameSessions_of_quiet (save_performs r) ω s⟩

/-- A new token is recorded. -/
theorem revises_rotateSession {row : SessionRow} {d : RefreshClaims} {now expiresAt : Timestamp}
    (hrow : ∀ row' ∈ s.sessions, row'.id = row.id → row'.tokenFamilyId = c.family)
    (hfamily : d.family = c.family) (hjti : d.jti = s.nextId) :
    Revises p (fun f => f = c.family) s
      ((Query.rotateSession row.id (p.refreshTokenHash d) expiresAt).perform p now
        { s with nextId := s.nextId + 1 }).1 := by
  refine ⟨rfl, Nat.le_succ _, _, rfl, fun row' hrow' => ?_⟩
  by_cases hcond : row'.id == row.id && row'.revokedAt.isNone
  · rw [if_pos hcond]
    rw [Bool.and_eq_true, beq_iff_eq] at hcond
    have heq := hrow row' hrow' hcond.1
    refine ⟨⟨rfl, rfl, id, Or.inr ⟨d, rfl, hfamily.trans heq.symm, hjti.ge, ?_⟩⟩, fun h => absurd heq h⟩
    rw [hjti]
    exact Nat.lt_succ_self _
  · rw [if_neg hcond]
    exact ⟨Revision.refl row', fun _ => rfl⟩

theorem rotateTokens_run (headers : Headers) (user : UserRow) (hω : ∀ n, (ω n).fails = false)
    {row : SessionRow}
    (hrow : ∀ row' ∈ s.sessions, row'.id = row.id → row'.tokenFamilyId = c.family) :
    ((rotateTokens p headers c row user).run (exec p) ω s).1.status = 200 ∧
      Revises p (fun f => f = c.family) s
        ((rotateTokens p headers c row user).run (exec p) ω s).2 := by
  unfold rotateTokens signRefresh signAccess perform query
  simp only [call_bind, done_bind, pure_eq_done, run_call, exec_newId, exec_utcNow,
    exec_db_of_succeeds _ (hω _)]
  refine ⟨?_, (revises_rotateSession hrow ?_ ?_).andThen (run_save_bind_pure ..).2⟩
  · rw [(run_save_bind_pure ..).1]
    rfl
  · rfl
  · rfl

theorem session_revokeSessions (cond : SessionRow → Bool) (now : Timestamp) (f : Uuid) :
    (s.revokeSessions cond now).session f = (s.session f).map fun row =>
      if cond row && row.revokedAt.isNone then { row with revokedAt := some now } else row := by
  refine find_map_family (fun row _ => ?_) f
  split_ifs <;> rfl

/-- Revoking a session leaves it revoked. -/
theorem revoked_revokeSessions {cond : SessionRow → Bool} {now : Timestamp} {f : Uuid}
    {row : SessionRow} (hrow : s.session f = some row) (hcond : cond row) :
    (s.revokeSessions cond now).Revoked f := by
  refine ⟨_, by rw [session_revokeSessions, hrow, Option.map_some], ?_⟩
  by_cases hr : row.revokedAt.isNone
  · rw [if_pos (by simp [hcond, hr])]
    rfl
  · rw [if_neg (by simp [hr])]
    simpa [Option.isSome_iff_ne_none] using hr

theorem Server.Revoked.of_same {s' : Server} {f : Uuid} (h : s.Revoked f)
    (hs : SameSessions s s') : s'.Revoked f := by
  unfold Server.Revoked Server.session at *
  rwa [hs.sessions_eq]

theorem reuseDetected_run (headers : Headers) (hω : ∀ n, (ω n).fails = false) {row : SessionRow}
    (hrow : s.session c.family = some row) :
    let r := (reuseDetected p headers c).run (exec p) ω s
    r.1.status = 401 ∧ Revises p (fun f => f = c.family) s r.2 ∧ r.2.Revoked c.family := by
  unfold reuseDetected
  rw [run_query_of_succeeds (hω 0)]
  dsimp only [Query.perform]
  rcases run_save_bind_pure (p := p) _ (unauthorized headers) (fun n => ω (n + 1))
    (s.revokeSessions (fun row => row.tokenFamilyId == c.family) (p.now (ω 0).now)) with
    ⟨hresponse, hsame⟩
  refine ⟨?_, (revises_revokeSessions _ ?_).andThen hsame, Server.Revoked.of_same ?_ hsame⟩
  · exact (congrArg Response.status hresponse).trans (unauthorized_status headers)
  · exact fun row _ hcond => by simpa using hcond
  · exact revoked_revokeSessions hrow (by simp [(mem_of_session hrow).2])

/-- `refresh` from the moment the session has been found: what it answers, what
becomes of the family, and what reuse does to it. -/
theorem refreshSession_run (headers : Headers) (hω : ∀ n, (ω n).fails = false) (hwf : s.WellFormed p)
    {row : SessionRow} (hrow : s.session c.family = some row) :
    let r := (refreshSession p headers c row).run (exec p) ω s
    (r.1.status = 200 ∧ Renewable p s c (ω 0).now row ∨
      r.1.status = 401 ∧ ¬ Renewable p s c (ω 0).now row) ∧
    Revises p (fun f => f = c.family) s r.2 ∧
    (row.revokedAt.isSome ∨ row.refreshTokenHash ≠ p.refreshTokenHash c → r.2.Revoked c.family) := by
  rcases mem_of_session hrow with ⟨hmem, hfamily⟩
  have hids : ∀ row' ∈ s.sessions, row'.id = row.id → row'.tokenFamilyId = c.family := by
    intro row' hrow' hid
    rw [hwf.eq_of_id hrow' hmem hid, hfamily]
  have hrevoke : ∀ now, Revises p (fun f => f = c.family) s
      (s.revokeSessions (fun row' => row'.id == row.id) now) := fun now =>
    revises_revokeSessions now fun row' hrow' hid => hids row' hrow' (by simpa using hid)
  unfold refreshSession
  by_cases hreuse : row.revokedAt.isSome || row.refreshTokenHash != p.refreshTokenHash c
  · -- not the recorded token, or a revoked family
    rw [if_pos hreuse]
    rcases reuseDetected_run headers hω hrow with ⟨hstatus, hrevises, hrevoked⟩
    refine ⟨Or.inr ⟨hstatus, fun hok => ?_⟩, hrevises, fun _ => hrevoked⟩
    simp [hok.unrevoked, hok.recorded] at hreuse
  · rw [if_neg hreuse]
    have hfresh : row.revokedAt = none ∧ row.refreshTokenHash = p.refreshTokenHash c := by
      simpa using hreuse
    rw [run_perform_bind, exec_utcNow]
    refine and_assoc.mp ⟨?_, fun h => ?_⟩
    · by_cases hexpired : row.expiresAt < (ω 0).now
      · rw [if_pos hexpired, run_query_of_succeeds (hω 1)]
        refine ⟨Or.inr ⟨unauthorized_status headers, fun hok => hok.unexpired hexpired⟩, hrevoke _⟩
      · rw [if_neg hexpired, run_query_of_succeeds (hω 1)]
        dsimp only [Query.perform, Key.isId]
        have hactive : ∀ found, s.findUser c.sub = found →
            s.findActiveUser c.sub = found.filter fun user => !user.isBanned && user.isApproved := by
          rintro found rfl
          rfl
        cases hfound : s.findUser c.sub with
        | none =>
            have hnone := hactive _ hfound
            unfold Server.findUser at hfound
            simp only [hfound]
            refine ⟨Or.inr ⟨unauthorized_status headers, fun hok => ?_⟩, (SameSessions.refl s).revises⟩
            simpa [hnone] using hok.active
        | some user =>
            have hsome := hactive _ hfound
            unfold Server.findUser at hfound
            simp only [hfound]
            by_cases hbad : user.isBanned || !user.isApproved
            · rw [if_pos hbad, run_query_of_succeeds (hω 2)]
              dsimp only [Query.perform]
              rcases run_save_bind_pure (p := p) _ (unauthorized headers) (fun n => ω (n + 3))
                (s.revokeSessions (fun row' => row'.id == row.id) (p.now (ω 2).now)) with
                ⟨hresponse, hsame⟩
              refine ⟨Or.inr ⟨?_, fun hok => ?_⟩, (hrevoke _).andThen hsame⟩
              · exact (congrArg Response.status hresponse).trans (unauthorized_status headers)
              · have hnone : s.findActiveUser c.sub = none := by
                  rw [hsome, Option.filter_eq_none_iff]
                  intro user' huser'
                  rcases Option.some.inj huser' with rfl
                  grind
                simpa [hnone] using hok.active
            · rw [if_neg hbad]
              rcases rotateTokens_run headers user (fun n => hω (n + 2)) hids with ⟨hstatus, hrevises⟩
              refine ⟨Or.inl ⟨hstatus, hfresh.1, hfresh.2, hexpired, ?_⟩, hrevises⟩
              rw [hsome]
              simpa using hbad
    · exfalso
      rcases h with h | h
      · simp [hfresh.1] at h
      · exact h hfresh.2

theorem refresh_of_claims (hω : ∀ n, (ω n).fails = false) (hwf : s.WellFormed p)
    (hcookie : headers.refreshCookie = some (.refresh c)) :
    let r := (refresh p headers).run (exec p) ω s
    (r.1.status = 200 ∧ Accepts p s ω c ∨ r.1.status = 401 ∧ ¬ Accepts p s ω c) ∧
    Revises p (fun f => f = c.family) s r.2 ∧
    (Unexpired c.exp (ω 0).now → ∀ row, s.session c.family = some row →
      (row.revokedAt.isSome ∨ row.refreshTokenHash ≠ p.refreshTokenHash c) →
      r.2.Revoked c.family) := by
  unfold refresh
  simp only [hcookie]
  rw [run_perform_bind, exec_utcNow]
  by_cases hexp : Unexpired c.exp (ω 0).now
  · simp only [Token.refreshClaims, if_pos hexp]
    rw [run_query_of_succeeds (hω 1)]
    dsimp only [Query.perform]
    cases hrow : s.session c.family with
    | none =>
        unfold Server.session at hrow
        simp only [hrow]
        refine ⟨Or.inr ⟨unauthorized_status headers, ?_⟩, (SameSessions.refl s).revises, ?_⟩
        · rintro ⟨-, row, hrow', -⟩
          rw [Server.session, hrow] at hrow'
          cases hrow'
        · rintro - row ⟨⟩
    | some row =>
        have hrun := refreshSession_run headers (fun n => hω (n + 2)) hwf hrow
        have haccepts : Accepts p s ω c ↔ Renewable p s c (ω 2).now row := by
          refine ⟨?_, fun h => ⟨hexp, row, hrow, h⟩⟩
          rintro ⟨-, row', hrow', h⟩
          rcases Option.some.inj (hrow.symm.trans hrow') with rfl
          exact h
        unfold Server.session at hrow
        simp only [hrow, haccepts]
        refine ⟨hrun.1, hrun.2.1, ?_⟩
        intro _ row' hrow' hstale
        rcases Option.some.inj hrow' with rfl
        exact hrun.2.2 hstale
  · simp only [Token.refreshClaims, if_neg hexp]
    refine ⟨Or.inr ⟨unauthorized_status headers, fun h => hexp h.1⟩, (SameSessions.refl s).revises,
      fun h => absurd h hexp⟩

end Refresh

/-! ## The other requests -/

section Others

variable {p : Platform} {ω : Nat → Env} {s : Server} {headers : Headers}

theorem logout_of_claims (hω : ∀ n, (ω n).fails = false) (hwf : s.WellFormed p)
    {c : RefreshClaims} (hcookie : headers.refreshCookie = some (.refresh c)) :
    Revises p (fun f => f = c.family) s ((logout p headers).run (exec p) ω s).2 := by
  unfold logout
  simp only [hcookie]
  rw [run_perform_bind, exec_utcNow]
  by_cases hexp : Unexpired c.exp (ω 0).now
  · simp only [Token.refreshClaims, if_pos hexp]
    rw [run_query_of_succeeds (hω 1)]
    dsimp only [Query.perform]
    cases hrow : s.session c.family with
    | none =>
        unfold Server.session at hrow
        simp only [hrow]
        exact (SameSessions.refl s).revises
    | some row =>
        rcases mem_of_session hrow with ⟨hmem, hfamily⟩
        unfold Server.session at hrow
        simp only [hrow]
        rw [run_query_of_succeeds (hω 2)]
        refine (revises_revokeSessions _ ?_).andThen (run_save_bind_pure ..).2
        intro row' hrow' hid
        rw [hwf.eq_of_id hrow' hmem (by simpa using hid), hfamily]
  · simp only [Token.refreshClaims, if_neg hexp]
    exact (SameSessions.refl s).revises

theorem logoutAll_of_claims (hω : ∀ n, (ω n).fails = false) {c : Claims}
    (hbearer : headers.authorization = some (.access c)) :
    Revises p (fun f => ∃ row ∈ s.sessions, row.tokenFamilyId = f ∧ row.userId = c.id) s
      ((logoutAll p headers).run (exec p) ω s).2 := by
  unfold logoutAll
  rw [run_authUserFromHeaders ω s hbearer]
  by_cases hexp : Unexpired c.exp (ω 0).now
  · simp only [Token.accessClaims, if_pos hexp]
    rw [run_query_of_succeeds (hω 1)]
    refine (revises_revokeSessions _ ?_).andThen (run_save_bind_pure ..).2
    exact fun row hrow hid => ⟨row, hrow, rfl, by simpa using hid⟩
  · simp only [Token.accessClaims, if_neg hexp]
    exact (SameSessions.refl s).revises

theorem revokeOwnSession_of_claims (hω : ∀ n, (ω n).fails = false) {c : Claims}
    (hbearer : headers.authorization = some (.access c)) (id : String) :
    Revises p (fun f => ∃ key, p.key id = some key ∧ ∃ row ∈ s.sessions,
        row.tokenFamilyId = f ∧ key.isId row.id ∧ row.userId = c.id) s
      ((revokeOwnSession p headers id).run (exec p) ω s).2 := by
  unfold revokeOwnSession
  rw [run_authUserFromHeaders ω s hbearer]
  by_cases hexp : Unexpired c.exp (ω 0).now
  · simp only [Token.accessClaims, if_pos hexp]
    unfold revokeSessionOwnedByUser
    cases hkey : p.key id with
    | none => exact (SameSessions.refl s).revises
    | some key =>
        simp only
        rw [run_query_of_succeeds (hω 1)]
        dsimp only [Query.perform]
        have hrevises : Revises p (fun f => ∃ key', some key = some key' ∧ ∃ row ∈ s.sessions,
            row.tokenFamilyId = f ∧ key'.isId row.id ∧ row.userId = c.id) s
            (s.revokeSessions (fun row => key.isId row.id && row.userId == c.id)
              (p.now (ω 1).now)) := by
          refine revises_revokeSessions _ fun row hrow hid => ?_
          rw [Bool.and_eq_true, beq_iff_eq] at hid
          exact ⟨key, rfl, row, hrow, rfl, hid⟩
        refine hrevises.andThen ?_
        split
        · exact (run_save_bind_pure ..).2
        · exact SameSessions.refl _
        · exact SameSessions.refl _
  · simp only [Token.accessClaims, if_neg hexp]
    exact (SameSessions.refl s).revises

/-- A removed row is one of its family; the others are found as before. -/
theorem find_filter_family {cond : SessionRow → Bool} {rows : List SessionRow} {f : Uuid}
    (h : ∀ row ∈ rows, row.tokenFamilyId = f → cond row) :
    (rows.filter cond).find? (fun row => row.tokenFamilyId == f) =
      rows.find? fun row => row.tokenFamilyId == f := by
  induction rows with
  | nil => rfl
  | cons row rows ih =>
      have hrest := ih fun row' hrow' => h row' (List.mem_cons_of_mem _ hrow')
      by_cases hf : row.tokenFamilyId = f
      · simp [h row (List.mem_cons_self ..) hf, hf]
      · by_cases hc : cond row
        · simp [hc, hf, hrest]
        · simp [hc, hf, hrest]

/-- The retention job. -/
theorem purge_evolves (hwf : s.WellFormed p) (now : Timestamp) :
    Evolves p (fun f => ∃ row ∈ s.sessions, row.tokenFamilyId = f ∧ p.purges row.expiresAt now) s
      ((Query.purgeExpiredSessions).perform p now s).1 := by
  have hsub : ((s.sessions.filter fun row => !p.purges row.expiresAt now)).Sublist s.sessions :=
    List.filter_sublist
  refine ⟨⟨rfl, Nat.le_refl _, fun f row' hrow' => ?_⟩, ⟨?_, ?_, ?_, ?_⟩, fun f hf => ?_⟩
  · rcases mem_of_session hrow' with ⟨hmem, rfl⟩
    exact Or.inr ⟨row', hwf.session_of_mem (hsub.subset hmem), Continues.refl _ row'⟩
  · exact hwf.families.sublist (hsub.map _)
  · exact hwf.ids.sublist (hsub.map _)
  · exact fun row hrow => hwf.drawn row (hsub.subset hrow)
  · exact fun row hrow => hwf.recorded row (hsub.subset hrow)
  · refine find_filter_family fun row hrow hfamily => ?_
    by_contra hpurged
    exact hf ⟨row, hrow, hfamily, by simpa using hpurged⟩

end Others

/-! ## Any request -/

/-- The families a request is about: that of the presented token, those of the
caller, those the retention job removes, or those a login draws. -/
def Visit.Addresses (p : Platform) (s : Server) (v : Visit) (f : Uuid) : Prop :=
  match v.request with
  | .refresh headers | .logout headers =>
      ∃ c, headers.refreshCookie = some (.refresh c) ∧ f = c.family
  | .logoutAll headers => ∃ c, headers.authorization = some (.access c) ∧
      ∃ row ∈ s.sessions, row.tokenFamilyId = f ∧ row.userId = c.id
  | .revokeOwnSession headers id => ∃ c, headers.authorization = some (.access c) ∧
      ∃ key, p.key id = some key ∧
        ∃ row ∈ s.sessions, row.tokenFamilyId = f ∧ key.isId row.id ∧ row.userId = c.id
  | .purgeExpiredAuthRecords =>
      ∃ row ∈ s.sessions, row.tokenFamilyId = f ∧ p.purges row.expiresAt (v.env 0).now
  | .login .. | .challengeVerify .. | .challengeEnrollConfirm .. => s.nextId ≤ f
  | _ => False

section Visits

variable {p : Platform} {s : Server} {v : Visit}

theorem Evolves.mono {A B : Uuid → Prop} {s' : Server} (h : Evolves p A s s')
    (hAB : ∀ f, A f → B f) : Evolves p B s s' :=
  ⟨h.later, h.wellFormed, fun f hf => h.others f fun hA => hf (hAB f hA)⟩

theorem SameSessions.evolves {A : Uuid → Prop} {s' : Server} (h : SameSessions s s')
    (hwf : s.WellFormed p) : Evolves p A s s' :=
  h.revises.evolves hwf

/-- A request that stores and changes no session. -/
theorem after_sameSessions
    (h : ∀ op, v.request.Footprint op → op.Quiet ∨ (∀ u, ¬ op.Issues u) ∧ ¬ op.Rotates) :
    SameSessions s (v.after p s) := by
  refine sameSessions_of_performs (handle_performs p v.request) (fun op hop => ?_) v.env s
  rcases h op hop with hquiet | hother
  · exact ⟨fun _ => hquiet.not_issues, hquiet.not_rotates⟩
  · exact hother

/-- A login adds a session of a fresh family, or none. -/
theorem after_evolves_of_extends {h : Handler Response} (hv : handle p v.request = h.map some)
    (hkeeps : h.Keeps (exec p) (Extends p)) (hwf : s.WellFormed p) :
    Evolves p (fun f => s.nextId ≤ f) s (v.after p s) := by
  rw [after_eq hv]
  exact (hkeeps v.env s).evolves hwf

/-- Where the cookie holds no refresh token, nothing is looked up. -/
theorem refresh_of_no_claims {headers : Headers} (ω : Nat → Env)
    (h : ∀ c, headers.refreshCookie ≠ some (.refresh c)) :
    ((refresh p headers).run (exec p) ω s).2 = s := by
  unfold refresh
  cases hcookie : headers.refreshCookie with
  | none => rfl
  | some token =>
      cases token with
      | refresh c => exact absurd hcookie (h c)
      | _ => rfl

theorem logout_of_no_claims {headers : Headers} (ω : Nat → Env)
    (h : ∀ c, headers.refreshCookie ≠ some (.refresh c)) :
    ((logout p headers).run (exec p) ω s).2 = s := by
  unfold logout
  cases hcookie : headers.refreshCookie with
  | none => rfl
  | some token =>
      cases token with
      | refresh c => exact absurd hcookie (h c)
      | _ => rfl

/-- Without an access token nobody is asked for. -/
theorem logoutAll_of_no_claims {headers : Headers} (ω : Nat → Env)
    (h : ∀ c, headers.authorization ≠ some (.access c)) :
    ((logoutAll p headers).run (exec p) ω s).2 = s := by
  unfold logoutAll authUserFromHeaders
  cases hbearer : headers.authorization with
  | none => rfl
  | some token =>
      cases token with
      | access c => exact absurd hbearer (h c)
      | _ => rfl

theorem revokeOwnSession_of_no_claims {headers : Headers} (ω : Nat → Env) (id : String)
    (h : ∀ c, headers.authorization ≠ some (.access c)) :
    ((revokeOwnSession p headers id).run (exec p) ω s).2 = s := by
  unfold revokeOwnSession authUserFromHeaders
  cases hbearer : headers.authorization with
  | none => rfl
  | some token =>
      cases token with
      | access c => exact absurd hbearer (h c)
      | _ => rfl

/-- **One request.** It touches only the families it addresses. -/
theorem visit_evolves (hok : v.Succeeds) (hwf : s.WellFormed p) :
    Evolves p (v.Addresses p s) s (v.after p s) := by
  rcases v with ⟨request, ω⟩
  have hω : ∀ n, (ω n).fails = false := hok
  have hsame : (∀ op, request.Footprint op → op.Quiet ∨ (∀ u, ¬ op.Issues u) ∧ ¬ op.Rotates) →
      Evolves p (Visit.Addresses p s ⟨request, ω⟩) s (Visit.after p ⟨request, ω⟩ s) := fun h =>
    (after_sameSessions (v := ⟨request, ω⟩) h).evolves hwf
  cases request with
  | login headers userCode password =>
      exact after_evolves_of_extends (v := ⟨_, ω⟩) rfl (login_extends headers userCode password)
        hwf
  | challengeVerify headers token code =>
      exact after_evolves_of_extends (v := ⟨_, ω⟩) rfl (challengeVerify_extends headers token code)
        hwf
  | challengeEnrollConfirm headers token code =>
      exact after_evolves_of_extends (v := ⟨_, ω⟩) rfl
        (challengeEnrollConfirm_extends headers token code) hwf
  | refresh headers =>
      rw [after_eq (h := refresh p headers) rfl]
      by_cases hclaims : ∃ c, headers.refreshCookie = some (.refresh c)
      · rcases hclaims with ⟨c, hc⟩
        exact ((refresh_of_claims hω hwf hc).2.1.evolves hwf).mono fun f hf => ⟨c, hc, hf⟩
      · rw [refresh_of_no_claims ω (by simpa using hclaims)]
        exact (SameSessions.refl s).evolves hwf
  | logout headers =>
      rw [after_eq (h := logout p headers) rfl]
      by_cases hclaims : ∃ c, headers.refreshCookie = some (.refresh c)
      · rcases hclaims with ⟨c, hc⟩
        exact ((logout_of_claims hω hwf hc).evolves hwf).mono fun f hf => ⟨c, hc, hf⟩
      · rw [logout_of_no_claims ω (by simpa using hclaims)]
        exact (SameSessions.refl s).evolves hwf
  | logoutAll headers =>
      rw [after_eq (h := logoutAll p headers) rfl]
      by_cases hclaims : ∃ c, headers.authorization = some (.access c)
      · rcases hclaims with ⟨c, hc⟩
        exact ((logoutAll_of_claims hω hc).evolves hwf).mono fun f hf => ⟨c, hc, hf⟩
      · rw [logoutAll_of_no_claims ω (by simpa using hclaims)]
        exact (SameSessions.refl s).evolves hwf
  | revokeOwnSession headers id =>
      rw [after_eq (h := revokeOwnSession p headers id) rfl]
      by_cases hclaims : ∃ c, headers.authorization = some (.access c)
      · rcases hclaims with ⟨c, hc⟩
        exact ((revokeOwnSession_of_claims hω hc id).evolves hwf).mono fun f hf => ⟨c, hc, hf⟩
      · rw [revokeOwnSession_of_no_claims ω id (by simpa using hclaims)]
        exact (SameSessions.refl s).evolves hwf
  | purgeExpiredAuthRecords =>
      have hafter : Visit.after p ⟨.purgeExpiredAuthRecords, ω⟩ s =
          ((Query.purgeExpiredSessions).perform p (ω 0).now s).1 := by
        show (exec p (.db .purgeExpiredSessions) (ω 0) s).1 = _
        rw [exec_db_of_succeeds s (hω 0)]
      rw [hafter]
      exact purge_evolves hwf (ω 0).now
  | enroll headers method =>
      refine hsame fun op hop => hop.imp_right ?_
      rintro ⟨u, -, h⟩
      exact ⟨fun _ => h.not_issues, h.not_rotates⟩
  | challengeEnroll headers token method =>
      refine hsame fun op hop => hop.imp_right ?_
      rintro ⟨u, -, h⟩
      exact ⟨fun _ => h.not_issues, h.not_rotates⟩
  | enrollConfirm headers code =>
      refine hsame fun op hop => hop.imp_right ?_
      rintro ⟨u, -, h⟩
      exact ⟨fun _ => h.not_issues, h.not_rotates⟩
  | disable headers password code =>
      refine hsame fun op hop => hop.imp_right ?_
      rintro ⟨u, -, h | h⟩
      · exact ⟨fun _ => h.not_issues, h.not_rotates⟩
      · exact ⟨fun _ => h.not_issues, h.not_rotates⟩
  | mfaResetRoute headers id =>
      refine hsame fun op hop => hop.imp_right ?_
      rintro ⟨u, h⟩
      exact ⟨fun _ => h.not_issues, h.not_rotates⟩
  | enrollResend | challengeEnrollResend | challengeRequestCode =>
      exact hsame fun op hop => hop.imp_right False.elim

end Visits

/-! ## Whole runs -/

/-- The family's session records this token. -/
def Server.Records (p : Platform) (s : Server) (c : RefreshClaims) : Prop :=
  ∃ row, s.session c.family = some row ∧ row.refreshTokenHash = p.refreshTokenHash c

/-- Somewhere in the run the token was the recorded one and then no longer. -/
def Superseded (p : Platform) (s₀ : Server) (run : List Visit) (c : RefreshClaims) : Prop :=
  ∃ before v later, run = before ++ v :: later ∧ (stateAfter p s₀ before).Records p c ∧
    ¬ (v.after p (stateAfter p s₀ before)).Records p c

/-- On SQLite a pass of the retention job removes a session within the very
millisecond in which it expires, before that instant is over. -/
def Visit.PurgesEarly (p : Platform) (s : Server) (v : Visit) : Prop :=
  v.request = .purgeExpiredAuthRecords ∧ p.backend = .sqlite ∧
    ∃ row ∈ s.sessions, ¬ row.expiresAt < (v.env 0).now ∧
      row.expiresAt.truncMillis = (v.env 0).now.truncMillis

/-- The visit presents the token to `refresh`, no statement failing. -/
def Visit.Presents (v : Visit) (c : RefreshClaims) : Prop :=
  v.Succeeds ∧ ∃ headers, v.request = .refresh headers ∧ headers.refreshCookie = some (.refresh c)

/-- The visit answers with a status. -/
def Visit.Answers (p : Platform) (s : Server) (v : Visit) (status : Nat) : Prop :=
  ∃ r, v.response p s = some r ∧ r.status = status

/-- What rotation and reuse detection promise after a run. -/
structure RotationSafe (p : Platform) (s₀ : Server) (run : List Visit) : Prop where
  /-- `refresh` answers 200 exactly to the acceptable tokens, and 401 to the others. -/
  answers : ∀ (v : Visit) (c : RefreshClaims), v.Presents c →
    (v.Answers p (stateAfter p s₀ run) 200 ∧ Accepts p (stateAfter p s₀ run) v.env c ∨
      v.Answers p (stateAfter p s₀ run) 401 ∧ ¬ Accepts p (stateAfter p s₀ run) v.env c)
  /-- At any time at most one token of a family is acceptable. -/
  unique : ∀ (ω ω' : Nat → Env) (c c' : RefreshClaims), c.family = c'.family →
    Accepts p (stateAfter p s₀ run) ω c → Accepts p (stateAfter p s₀ run) ω' c' → c = c'
  /-- A superseded token is refused, and its family ends revoked. -/
  superseded : ∀ (v : Visit) (c : RefreshClaims), v.Presents c → Unexpired c.exp (v.env 0).now →
    Superseded p s₀ run c → ((stateAfter p s₀ run).session c.family).isSome →
    v.Answers p (stateAfter p s₀ run) 401 ∧ (v.after p (stateAfter p s₀ run)).Revoked c.family
  /-- So is any token of a revoked family. -/
  revoked : ∀ (v : Visit) (c : RefreshClaims), v.Presents c →
    (stateAfter p s₀ run).Revoked c.family →
    v.Answers p (stateAfter p s₀ run) 401 ∧ (v.after p (stateAfter p s₀ run)).Revoked c.family
  /-- No token of a family that was revoked is acceptable. -/
  dead : ∀ before later (c : RefreshClaims) ω, run = before ++ later →
    (stateAfter p s₀ before).Revoked c.family → ¬ Accepts p (stateAfter p s₀ run) ω c
  /-- A request changes what is acceptable in the families it addresses only. -/
  others : ∀ (v : Visit) (c : RefreshClaims) ω, v.Succeeds →
    ¬ v.Addresses p (stateAfter p s₀ run) c.family →
    (Accepts p (v.after p (stateAfter p s₀ run)) ω c ↔ Accepts p (stateAfter p s₀ run) ω c)
  /-- Whatever the retention job removed was past its expiry. -/
  purged : ∀ s v, Visits p s₀ run s v → v.request = .purgeExpiredAuthRecords →
    ∀ row ∈ s.sessions, row ∉ (v.after p s).sessions → row.expiresAt < (v.env 0).now

section Runs

variable {p : Platform} {s₀ : Server} {run : List Visit}

/-- What holds between the first and the last state of a run. -/
theorem stateAfter_later (h₀ : s₀.WellFormed p) (hok : ∀ v ∈ run, v.Succeeds) :
    (stateAfter p s₀ run).WellFormed p ∧ Later p s₀ (stateAfter p s₀ run) := by
  induction run generalizing s₀ with
  | nil => exact ⟨h₀, Later.refl s₀⟩
  | cons v run ih =>
      have hfirst := visit_evolves (hok v (List.mem_cons_self ..)) h₀
      rcases ih hfirst.wellFormed fun w hw => hok w (List.mem_cons_of_mem _ hw) with ⟨hwf, hlater⟩
      exact ⟨hwf, hfirst.later.trans hlater⟩

theorem wellFormed_of_no_sessions (h : s₀.sessions = []) : s₀.WellFormed p := by
  refine ⟨?_, ?_, ?_, ?_⟩ <;> simp [h]

/-- A revoked family stays revoked as long as it has a session. -/
theorem Later.not_accepts {s s' : Server} (h : Later p s s') {c : RefreshClaims} {ω : Nat → Env}
    (hwf : s.WellFormed p) (hrevoked : s.Revoked c.family) : ¬ Accepts p s' ω c := by
  rintro ⟨-, row', hrow', hok⟩
  rcases hrevoked with ⟨row, hrow, hr⟩
  rcases h.session _ _ hrow' with hfresh | ⟨row'', hrow'', hcontinues⟩
  · exact absurd (hwf.family_lt hrow) (Nat.not_lt_of_le hfresh)
  · rcases Option.some.inj (hrow.symm.trans hrow'') with rfl
    simpa [hok.unrevoked] using hcontinues.revoked hr

/-- Hashes do not come back: what the session no longer records, it never
records again. -/
theorem Later.not_records (hinj : Function.Injective p.refreshTokenHash) {s s' : Server}
    (h : Later p s s') {c : RefreshClaims} (hfamily : c.family < s.nextId)
    (hjti : c.jti < s.nextId) (hnot : ¬ s.Records p c) : ¬ s'.Records p c := by
  rintro ⟨row', hrow', hhash⟩
  rcases h.session _ _ hrow' with hfresh | ⟨row, hrow, hcontinues⟩
  · exact absurd hfamily (Nat.not_lt_of_le hfresh)
  · rcases hcontinues.hash with heq | ⟨d, hd, hge⟩
    · exact hnot ⟨row, hrow, heq ▸ hhash⟩
    · -- a hash recorded since is that of a token drawn since
      rcases hinj (hd.symm.trans hhash) with rfl
      exact absurd hjti (Nat.not_lt_of_le hge)

/-- A recorded token has been drawn. -/
theorem Server.WellFormed.records_lt {s : Server} (hinj : Function.Injective p.refreshTokenHash)
    (hwf : s.WellFormed p) {c : RefreshClaims} (h : s.Records p c) :
    c.family < s.nextId ∧ c.jti < s.nextId := by
  rcases h with ⟨row, hrow, hhash⟩
  refine ⟨hwf.family_lt hrow, ?_⟩
  rcases hwf.recorded row (mem_of_session hrow).1 with ⟨d, hd, -, hjti⟩
  rcases hinj (hhash.symm.trans hd) with rfl
  exact hjti

theorem not_records_of_superseded (hinj : Function.Injective p.refreshTokenHash)
    (h₀ : s₀.WellFormed p) (hok : ∀ v ∈ run, v.Succeeds) {c : RefreshClaims}
    (h : Superseded p s₀ run c) : ¬ (stateAfter p s₀ run).Records p c := by
  rcases h with ⟨before, v, later, rfl, hrecorded, hnot⟩
  have hbefore := stateAfter_later h₀ fun w hw => hok w (List.mem_append_left _ hw)
  have hv := visit_evolves (hok v (by simp)) hbefore.1
  have hlaterOk : ∀ w ∈ later, w.Succeeds := fun w hw => hok w (by simp [hw])
  have hlater := stateAfter_later hv.wellFormed hlaterOk
  rcases hbefore.1.records_lt hinj hrecorded with ⟨hfamily, hjti⟩
  rw [stateAfter_append, stateAfter_cons]
  exact hlater.2.not_records hinj (hfamily.trans_le hv.later.nextId_le)
    (hjti.trans_le hv.later.nextId_le) hnot

/-- When the retention job removes a session that has not expired. -/
theorem purges_early_iff {v : Visit} {s : Server} (hv : v.request = .purgeExpiredAuthRecords)
    (hok : v.Succeeds) :
    (∃ row ∈ s.sessions, row ∉ (v.after p s).sessions ∧ ¬ row.expiresAt < (v.env 0).now) ↔
      v.PurgesEarly p s := by
  have hafter : (v.after p s).sessions =
      s.sessions.filter fun row => !p.purges row.expiresAt (v.env 0).now := by
    rcases v with ⟨request, ω⟩
    subst hv
    show (exec p (.db .purgeExpiredSessions) (ω 0) s).1.sessions = _
    rw [exec_db_of_succeeds s (hok 0)]
    rfl
  have hpurges : ∀ expiresAt : Timestamp, ¬ expiresAt < (v.env 0).now →
      (p.purges expiresAt (v.env 0).now ↔
        p.backend = .sqlite ∧ expiresAt.truncMillis = (v.env 0).now.truncMillis) := by
    intro expiresAt hlive
    unfold Platform.purges
    cases hbackend : p.backend with
    | postgres =>
        -- the clock of the statement is never ahead of the wall clock
        have hnow : p.now (v.env 0).now ≤ (v.env 0).now := by
          simp only [Platform.now, hbackend]
          exact Nat.div_mul_le_self _ 1000
        simpa using hnow.trans (Nat.le_of_not_lt hlive)
    | sqlite =>
        have hmono : (v.env 0).now.truncMillis ≤ expiresAt.truncMillis :=
          Timestamp.truncMillis_le_truncMillis_iff.mpr
            (Nat.div_le_div_right (Nat.le_of_not_lt hlive))
        simp only [decide_eq_true_eq, SqliteTime.textBefore_iff, true_and]
        exact ⟨fun h => Nat.le_antisymm h hmono, fun h => h.le⟩
  rw [Visit.PurgesEarly, hafter]
  constructor
  · rintro ⟨row, hrow, hgone, hlive⟩
    have hp : p.purges row.expiresAt (v.env 0).now := by
      simpa [List.mem_filter, hrow] using hgone
    rcases (hpurges _ hlive).mp hp with ⟨hbackend, heq⟩
    exact ⟨hv, hbackend, row, hrow, hlive, heq⟩
  · rintro ⟨-, hbackend, row, hrow, hlive, heq⟩
    refine ⟨row, hrow, ?_, hlive⟩
    simpa [List.mem_filter, hrow] using (hpurges _ hlive).mpr ⟨hbackend, heq⟩

/-- One refresh, as a visit. -/
theorem presents_cases {s : Server} {v : Visit} {c : RefreshClaims} (hv : v.Presents c)
    (hwf : s.WellFormed p) :
    (v.Answers p s 200 ∧ Accepts p s v.env c ∨ v.Answers p s 401 ∧ ¬ Accepts p s v.env c) ∧
    (Unexpired c.exp (v.env 0).now → ∀ row, s.session c.family = some row →
      (row.revokedAt.isSome ∨ row.refreshTokenHash ≠ p.refreshTokenHash c) →
      (v.after p s).Revoked c.family) ∧
    (¬ Unexpired c.exp (v.env 0).now → v.after p s = s) := by
  rcases v with ⟨request, ω⟩
  rcases hv with ⟨hok, headers, hrequest, hcookie⟩
  dsimp only at hrequest
  subst hrequest
  have hrun := refresh_of_claims hok hwf hcookie
  have hresponse : ∀ status, ((refresh p headers).run (exec p) ω s).1.status = status →
      Visit.Answers p s ⟨.refresh headers, ω⟩ status := fun status h =>
    ⟨_, response_eq (h := refresh p headers) rfl, h⟩
  rw [after_eq (h := refresh p headers) rfl]
  refine ⟨hrun.1.imp (And.imp_left (hresponse _)) (And.imp_left (hresponse _)), hrun.2.2,
    fun hexp => ?_⟩
  unfold refresh
  simp only [hcookie]
  rw [run_perform_bind, exec_utcNow]
  simp only [Token.refreshClaims, if_neg hexp]
  rfl

/-- A token that is not the recorded one, or of a revoked family, is refused. -/
theorem refused_of_stale {s : Server} {v : Visit} {c : RefreshClaims} (hv : v.Presents c)
    (hwf : s.WellFormed p) (hexp : Unexpired c.exp (v.env 0).now) {row : SessionRow}
    (hrow : s.session c.family = some row)
    (hstale : row.revokedAt.isSome ∨ row.refreshTokenHash ≠ p.refreshTokenHash c) :
    v.Answers p s 401 ∧ (v.after p s).Revoked c.family := by
  rcases presents_cases hv hwf with ⟨hanswers, hrevoked, -⟩
  refine ⟨?_, hrevoked hexp row hrow hstale⟩
  rcases hanswers with ⟨-, haccepts⟩ | ⟨h, -⟩
  · rcases haccepts with ⟨-, row', hrow', hok⟩
    rcases Option.some.inj (hrow.symm.trans hrow') with rfl
    simp [hok.unrevoked, hok.recorded] at hstale
  · exact h

/-- **Rotation and reuse detection.** After any run from a state without
sessions in which no statement fails, each token family is as promised. -/
theorem rotation_safe (hinj : Function.Injective p.refreshTokenHash) (h₀ : s₀.sessions = [])
    (hok : ∀ v ∈ run, v.Succeeds) (hpurge : ∀ s v, Visits p s₀ run s v → ¬ v.PurgesEarly p s) :
    RotationSafe p s₀ run := by
  have hstart : s₀.WellFormed p := wellFormed_of_no_sessions h₀
  have hwf := (stateAfter_later hstart hok).1
  refine ⟨?_, ?_, ?_, ?_, ?_, ?_, ?_⟩
  · exact fun v c hv => (presents_cases hv hwf).1
  · rintro ω ω' c c' hfamily ⟨-, row, hrow, h⟩ ⟨-, row', hrow', h'⟩
    rw [hfamily, hrow', Option.some.injEq] at hrow
    subst hrow
    exact hinj (h.recorded.symm.trans h'.recorded)
  · intro v c hv hexp hsuperseded hsome
    rcases Option.isSome_iff_exists.mp hsome with ⟨row, hrow⟩
    refine refused_of_stale hv hwf hexp hrow (Or.inr fun hhash => ?_)
    exact not_records_of_superseded hinj hstart hok hsuperseded ⟨row, hrow, hhash⟩
  · intro v c hv hrevoked
    by_cases hexp : Unexpired c.exp (v.env 0).now
    · rcases hrevoked with ⟨row, hrow, hr⟩
      exact refused_of_stale hv hwf hexp hrow (Or.inl hr)
    · -- an expired token is refused before any look-up
      rcases presents_cases hv hwf with ⟨hanswers, -, hsame⟩
      rw [hsame hexp]
      refine ⟨?_, hrevoked⟩
      rcases hanswers with ⟨-, haccepts⟩ | ⟨h, -⟩
      · exact absurd haccepts.1 hexp
      · exact h
  · rintro before later c ω rfl hrevoked
    have hbefore := stateAfter_later hstart fun w hw => hok w (List.mem_append_left _ hw)
    have hlater := stateAfter_later hbefore.1 fun w hw => hok w (List.mem_append_right _ hw)
    rw [stateAfter_append]
    exact hlater.2.not_accepts hbefore.1 hrevoked
  · intro v c ω hv hother
    have hevolves := visit_evolves hv hwf
    have hactive : (v.after p (stateAfter p s₀ run)).findActiveUser c.sub =
        (stateAfter p s₀ run).findActiveUser c.sub := by
      unfold Server.findActiveUser Server.findUser
      rw [hevolves.later.users_eq]
    constructor
    · rintro ⟨hexp, row, hrow, h⟩
      rw [hevolves.others _ hother] at hrow
      exact ⟨hexp, row, hrow, h.unrevoked, h.recorded, h.unexpired, hactive ▸ h.active⟩
    · rintro ⟨hexp, row, hrow, h⟩
      rw [← hevolves.others _ hother] at hrow
      exact ⟨hexp, row, hrow, h.unrevoked, h.recorded, h.unexpired, hactive.symm ▸ h.active⟩
  · intro s v hvisit hrequest row hrow hgone
    by_contra hlive
    have hmem : v ∈ run := by
      rcases hvisit with ⟨before, later, rfl, -⟩
      simp
    exact hpurge s v hvisit
      ((purges_early_iff hrequest (hok v hmem)).mp ⟨row, hrow, hgone, hlive⟩)

end Runs

/-! ## Sample runs -/

instance (p : Platform) (s : Server) (v : Visit) : Decidable (v.PurgesEarly p s) := by
  unfold Visit.PurgesEarly
  infer_instance

/-- The token of `sampleLogin` presented at an instant. -/
def sampleRefresh (now : Timestamp) : Visit :=
  ⟨.refresh { sampleHeaders with refreshCookie := some (.refresh sampleClaims1) },
    steadily now 0⟩

def samplePurge (now : Timestamp) : Visit := ⟨.purgeExpiredAuthRecords, steadily now 0⟩

/-- A login, a refresh, the retention job, and the first token once more. -/
def sampleRotations : List Visit :=
  [sampleLogin, sampleRefresh (Timestamp.seconds 1111111111),
    samplePurge (Timestamp.seconds 1111111112), sampleRefresh (Timestamp.seconds 1111111113)]

theorem rotation_safe_sample :
    RotationSafe (samplePlatform .sqlite) sampleServer sampleRotations := by
  refine rotation_safe (samplePlatform_injective .sqlite) rfl ?_ ?_
  · intro v hv
    simp only [sampleRotations, List.mem_cons, List.not_mem_nil, or_false] at hv
    rcases hv with rfl | rfl | rfl | rfl <;> exact fun _ => rfl
  · intro s v hvisit
    rcases visits_cons.mp hvisit with ⟨rfl, rfl⟩ | hvisit
    · decide +kernel
    rcases visits_cons.mp hvisit with ⟨rfl, rfl⟩ | hvisit
    · decide +kernel
    rcases visits_cons.mp hvisit with ⟨rfl, rfl⟩ | hvisit
    · decide +kernel
    rcases visits_cons.mp hvisit with ⟨rfl, rfl⟩ | hvisit
    · decide +kernel
    · exact absurd hvisit (visits_nil _ _ _ _)

def sampleLateLogin : Visit :=
  ⟨.login sampleHeaders "op-1" "U*U", steadily (Timestamp.seconds 1111111109 + 500) 0⟩

/-- A login half a microsecond after the full second, and the retention job 400
nanoseconds before the session expires. -/
def sampleEarlyPurge : List Visit :=
  [sampleLateLogin, samplePurge (Timestamp.seconds 1113703109 + 100)]

theorem purge_removes_live_session :
    sampleServer.sessions = [] ∧ (∀ v ∈ sampleEarlyPurge, v.Succeeds) ∧
      Function.Injective (samplePlatform .sqlite).refreshTokenHash ∧
      ¬ RotationSafe (samplePlatform .sqlite) sampleServer sampleEarlyPurge := by
  refine ⟨rfl, ?_, samplePlatform_injective .sqlite, fun h => ?_⟩
  · intro v hv
    simp only [sampleEarlyPurge, List.mem_cons, List.not_mem_nil, or_false] at hv
    rcases hv with rfl | rfl <;> exact fun _ => rfl
  · have hpurged := h.purged _ _ ⟨[sampleLateLogin], [], rfl, rfl⟩ rfl
    revert hpurged
    decide +kernel

end AnatoliaBis.Auth
