import AnatoliaBis.App.AccountRows
import AnatoliaBis.App.Kept
import AnatoliaBis.Auth.Custody

/-! # Sessions after a change of password

Two requests change a password: a reset by link, and the editing of an account by an
administrator. The reset revokes the sessions of the account, and every token that it was
handed before is refused from then on; the edit revokes none.
-/

namespace AnatoliaBis.App

open Atomic Program
open Auth (Env Headers Key RefreshClaims)

/-! ## Requests -/

/-- A request, or one for a link to reset a password. -/
inductive Traffic where
  | app (request : Request)
  | forgotPassword (headers : Headers) (identifier : String)

def Traffic.handle (d : Deployment) : Traffic → Handler (Option Reply)
  | .app request => App.handle d request
  | .forgotPassword headers identifier => (App.forgotPassword d headers identifier).map some

/-- The database after a run. -/
abbrev Deployment.after (d : Deployment) (s₀ : Database) (run : List (Visit Traffic Env)) :
    Database :=
  stateAfter (exec d) (Traffic.handle d) s₀ run

/-- The refresh token of an answer that opens or renews a session. -/
def Reply.handsOver (r : Reply) : Option RefreshClaims :=
  match r.body, r.setCookie with
  | .auth (.session ..), some (.refreshToken (.refresh c)) => some c
  | _, _ => none

section Runs

variable (d : Deployment) (s₀ : Database)

/-- Authentication handed the token over during the run. -/
def Issued (run : List (Visit Traffic Env)) (c : RefreshClaims) : Prop :=
  ∃ s request ω, Visits (exec d) (Traffic.handle d) s₀ run s ⟨.app (.auth request), ω⟩ ∧
    ∃ reply ∈ ((handle d (.auth request)).run (exec d) ω s).1, reply.handsOver = some c

/-- Whenever the token is presented, `refresh` refuses it. -/
def Refuses (s : Database) (c : RefreshClaims) : Prop :=
  ∀ headers ω, headers.refreshCookie = some (.refresh c) →
    ((handle d (.auth (.refresh headers))).run (exec d) ω s).1 =
      some (.ofResponse (Auth.unauthorized headers))

/-- The account whose password the request is to change. -/
def Traffic.Sets (s : Database) (u : Uuid) : Traffic → Prop
  | .app (.resetPassword _ token _) => ∃ row ∈ s.approvalTokens.find? fun row =>
      row.tokenHash == d.sha256Hex (Auth.trim token), row.userId = u
  | .app (.updateUser _ id payload) => d.Names id u ∧ ∃ password ∈ payload.password, password ≠ ""
  | _ => False

/-- The request changes the password of `u` and is answered with success. -/
def Changes (s : Database) (v : Visit Traffic Env) (u : Uuid) : Prop :=
  v.request.Sets d s u ∧
    ∃ reply ∈ v.answer (exec d) (Traffic.handle d) s, reply.status < 400

/-- The statement that is to revoke the sessions of `u` fails. -/
def FailsToRevoke (u : Uuid) (ev : Step) : Prop :=
  ev.env.fails = true ∧ ∃ key, ev.op = .db (.revokeAllSessionsForUser key) ∧ key.isId u = true

/-- The account has a session in use, and nothing ends it: the request is not a reset, or
the statement of the reset that revokes fails. -/
def LeavesSessions (s : Database) (v : Visit Traffic Env) (u : Uuid) : Prop :=
  (∃ row ∈ s.auth.sessions, row.userId = u ∧ row.revokedAt = none) ∧
    ∀ headers token newPassword, v.request = .app (.resetPassword headers token newPassword) →
      ∃ ev ∈ (v.request.handle d).trace (exec d) v.env s, FailsToRevoke u ev

end Runs

/-! ## Every request keeps the table accounted for -/

/-- Neither storing a session nor renewing one. -/
def Op.Steady : Op → Prop
  | .auth c => c.Steady
  | _ => True

theorem steady_db (q : Query) : (Op.db q).Steady := trivial

theorem Op.Own.steady {op : Op} (h : op.Own) : op.Steady := by
  unfold Op.Own at h
  split at h
  · exact ⟨fun _ h => h, fun h => h⟩
  · exact ⟨fun _ h => h, fun h => h⟩
  · exact ⟨fun _ h => h, fun h => h⟩
  · exact ⟨fun _ h => h, fun h => h⟩
  · exact ⟨fun _ h => h, fun h => h⟩
  · exact ⟨fun _ h => h, fun h => h⟩
  · exact ⟨fun _ h => h, fun h => h⟩
  · exact h.elim
  all_goals try exact h.elim
  next hauth _ _ _ _ _ _ _ _ _ =>
    unfold Op.Steady
    split
    · exact absurd rfl (hauth _)
    · trivial

theorem Request.Writes.steady {d : Deployment} {request : Request} {op : Op}
    (h : request.Writes d op) : op.Steady := by
  unfold Request.Writes at h
  split at h
  all_goals trivial

section Kept

variable {d : Deployment} {s s' : Database} {u : Uuid}

/-- From a database to one that is reached by handlers. -/
def Custody (d : Deployment) (s s' : Database) : Prop :=
  Auth.Accounts d.toPlatform s.auth s'.auth

theorem custody_query (q : Query) (now : Timestamp) (s : Database) :
    Custody d s (q.perform d now s).1 := by
  cases q with
  | revokeAllSessionsForUser userId => exact Auth.accounts_revokeSessions _ _ s.auth
  | recordReviewDecision entry =>
      have hsame := record_same (f := Database.auth) (fun _ _ _ => rfl) s (d.now now) entry
      exact Auth.accounts_of_same (congrArg Auth.Server.nextId hsame).ge
        (congrArg Auth.Server.sessions hsame)
  | _ => exact Auth.accounts_of_same (Nat.le_refl _) rfl

theorem custody_exec {op : Op} (h : op.Steady) (e : Env) (s : Database) :
    Custody d s (exec d op e s).1 := by
  cases op with
  | auth c => exact Auth.accounts_exec h e s.auth
  | db q => exact exec_db_store (I := Custody d s) (.refl s.auth) fun _ _ => custody_query q e.now s
  | _ => exact .refl s.auth

theorem kept_custody : Kept d (Custody d) where
  refl s := .refl s.auth
  trans h h' := h.trans h'
  own _ hop := custody_exec hop.steady

/-- Authentication on its own part of the database. -/
theorem run_auth (request : Auth.Request) (ω : Nat → Env) (s : Database) :
    let ended := (Auth.handle d.toPlatform request).run (Auth.exec d.toPlatform) ω s.auth
    (handle d (.auth request)).run (exec d) ω s =
      (ended.1.map Reply.ofResponse, { s with auth := ended.2 }) := by
  unfold handle lift
  rw [run_map, (authPart d).run_embed]
  rfl

theorem handle_custody (hinj : Function.Injective d.toPlatform.refreshTokenHash)
    (request : Request) : (handle d request).Keeps (exec d) (Custody d) := by
  apply handle_keeps kept_custody
  · rintro request rfl ω s
    unfold lift
    rw [(authPart d).run_embed]
    intro hs
    have hhands := Auth.handle_hands hinj request ω s.auth hs
    exact ⟨hhands.1, hhands.2.1⟩
  · exact fun id flags _ => updateUserFlags_keeps kept_custody fun key isApproved isBanned
      banReason role _ => custody_exec (steady_db _)
  · exact fun user _ => createUser_keeps kept_custody fun u => custody_exec (steady_db _)
  · exact fun op hop => custody_exec hop.steady

theorem traffic_custody (hinj : Function.Injective d.toPlatform.refreshTokenHash)
    (request : Traffic) : (request.handle d).Keeps (exec d) (Custody d) := by
  cases request with
  | app request => exact handle_custody hinj request
  | forgotPassword headers identifier =>
      intro ω s
      unfold Traffic.handle
      rw [run_map]
      exact forgotPassword_keeps kept_custody identifier ω s

/-- The table stays accounted for through a run. -/
theorem after_custody (hinj : Function.Injective d.toPlatform.refreshTokenHash)
    (run : List (Visit Traffic Env)) : Custody d s (d.after s run) := by
  induction run generalizing s with
  | nil => exact kept_custody.refl s
  | cons v run ih => exact kept_custody.trans (traffic_custody hinj v.request v.env s) ih

theorem handsOver_ofResponse (r : Auth.Response) : (Reply.ofResponse r).handsOver = r.handsOver := by
  rcases r with ⟨status, body, cookie⟩
  cases body with
  | session access user codes =>
      cases cookie with
      | none => rfl
      | some cookie =>
          cases cookie with
          | refreshToken token => cases token <;> rfl
          | _ => rfl
  | _ => rfl

/-- A token that was handed over is of its own account's family. -/
theorem holds_of_issued (hinj : Function.Injective d.toPlatform.refreshTokenHash)
    {s₀ : Database} (hs₀ : s₀.auth.Accounted d.toPlatform) {run : List (Visit Traffic Env)}
    {c : RefreshClaims} (hissued : Issued d s₀ run c) : (d.after s₀ run).auth.Holds c := by
  rcases hissued with ⟨s, request, ω, ⟨before, later, rfl, rfl⟩, reply, hreply, hhands⟩
  have hbefore := after_custody hinj before hs₀
  have hvisit := Auth.handle_hands hinj request ω _ hbefore.1
  rw [run_auth] at hreply
  rcases Option.map_eq_some_iff.mp hreply with ⟨response, hresponse, rfl⟩
  rw [handsOver_ofResponse] at hhands
  -- the database behind the answer
  let s' := (Visit.mk (Traffic.app (.auth request)) ω).after (exec d) (Traffic.handle d)
    (d.after s₀ before)
  have hstep : s'.auth = _ := congrArg (fun ended => ended.2.auth) (run_auth request ω _)
  have hkept : s'.auth.Accounted d.toPlatform := by
    rw [hstep]
    exact hvisit.1
  have hheld : s'.auth.Holds c := by
    rw [hstep]
    exact hvisit.2.2 response hresponse c hhands
  unfold Deployment.after
  rw [stateAfter_append, stateAfter_cons]
  exact hheld.onward (after_custody hinj later hkept).2

theorem refuses_of_ended {c : RefreshClaims} (h : s.auth.Ended c.family) : Refuses d s c := by
  intro headers ω hcookie
  rw [run_auth]
  have hrefused := Auth.refresh_of_ended (p := d.toPlatform) hcookie h ω
  unfold Auth.handle
  rw [run_map, hrefused]
  rfl

end Kept

/-! ## The reset -/

section Reset

variable {d : Deployment} {s s' : Database} {u : Uuid} {headers : Headers}

/-- No session of the account is in use. -/
def Database.SessionsEnded (s : Database) (u : Uuid) : Prop :=
  ∀ row ∈ s.auth.sessions, row.userId = u → row.revokedAt.isSome

/-- The account that is answered is the one that was named. -/
theorem updateUserPassword_wp (passwordHash : String) :
    (updateUserPassword d u.text passwordHash).wp (exec d) (fun _ => True)
      (fun _ updated _ => ∀ account, updated = .ok (some account) →
        account.id = u ∧ ∃ key, d.key u.text = some key) s := by
  unfold updateUserPassword loadUserById
  cases hkey : d.key u.text with
  | none =>
      intro account haccount
      cases haccount
  | some key =>
      intro e _
      simp only [Program.bind]
      split
      · intro account haccount
        cases haccount
      · intro e' _ account haccount
        cases hf : e'.fails with
        | true =>
            rw [exec_db_of_fails hf] at haccount
            cases haccount
        | false =>
            rw [exec_loadUserById ((isId_of_key_text hkey).mpr rfl) hf] at haccount
            injection haccount with haccount
            exact ⟨live_id haccount, key, rfl⟩

/-- Looking up and auditing leave the sessions alone. -/
theorem sessions_exec {op : Op} (h : op.LooksUp ∨ op.Audits) (e : Env) (s : Database) :
    (exec d op e s).1.auth.sessions = s.auth.sessions := by
  rcases h with h | h
  · unfold Op.LooksUp at h
    split at h
    · exact Auth.exec_sessions (fun _ h => h) fun h => h
    case h_6 => exact h.elim
    all_goals
      simp only [exec]
      split_ifs <;> rfl
  · unfold Op.Audits at h
    split at h
    · exact Auth.exec_sessions (fun _ h => h) fun h => h
    · exact h.elim

theorem setPassword_wp (newPassword : String) :
    (setPassword d headers u newPassword).wp (exec d) (fun _ => True)
      (fun evs reply s' => reply.status < 400 →
        (∃ ev ∈ evs, FailsToRevoke u ev) ∨ s'.SessionsEnded u) s := by
  intro e _
  simp only [Program.bind]
  split
  · exact fun hstatus => absurd hstatus (failure_status headers _ _)
  · apply wp_bind_of (updateUserPassword_wp _)
    intro evs updated s₁ hupdated
    split
    next user =>
      rcases hupdated user rfl with ⟨huser, key, hkey⟩
      have hid : key.isId u = true := (isId_of_key_text hkey).mpr rfl
      unfold revokeAllSessionsForUser
      rw [huser, hkey]
      intro e' _
      simp only [Program.bind]
      cases hf : e'.fails with
      | true =>
          refine wp_mono ?_ (wp_true _ _)
          rintro evs' reply s' - -
          have hev : FailsToRevoke u ⟨.db (.revokeAllSessionsForUser key), e', s₁,
              (exec d (.db (.revokeAllSessionsForUser key)) e' s₁).1⟩ := ⟨hf, key, rfl, hid⟩
          refine Or.inl ⟨_, ?_, hev⟩
          exact List.mem_cons_of_mem _ (List.mem_append_right _ List.mem_cons_self)
      | false =>
          apply wp_bind_of ((save_performs _).wp_same (f := fun s => s.auth.sessions)
            (fun op e s hop => sessions_exec hop e s) _)
          rintro evs' - s' ⟨-, -, hsame⟩ -
          refine Or.inr fun row hrow hrowUser => ?_
          rw [hsame, exec_db_of_succeeds hf rfl] at hrow
          rcases List.mem_map.mp hrow with ⟨old, hold, rfl⟩
          split_ifs at hrowUser ⊢ with hcond
          · rfl
          · simpa [hrowUser, hid, Option.isSome_iff_ne_none] using hcond
    · exact fun hstatus => absurd hstatus (failure_status headers _ _)

theorem resetPassword_wp (token newPassword : String) {row : ApprovalTokenRow}
    (hrow : (s.approvalTokens.find? fun row =>
      row.tokenHash == d.sha256Hex (Auth.trim token)) = some row) :
    (resetPassword d headers token newPassword).wp (exec d) (fun _ => True)
      (fun evs reply s' => reply.status < 400 →
        (∃ ev ∈ evs, FailsToRevoke row.userId ev) ∨ s'.SessionsEnded row.userId) s := by
  have hrefused : ∀ (evs : List Step) (code key : String) (s' : Database),
      (failure headers code key).status < 400 →
        (∃ ev ∈ evs, FailsToRevoke row.userId ev) ∨ s'.SessionsEnded row.userId :=
    fun _ _ _ _ hstatus => absurd hstatus (failure_status headers _ _)
  unfold resetPassword
  split_ifs
  · exact hrefused _ _ _ _
  · intro e _
    cases hf : e.fails with
    | true =>
        rw [exec_db_of_fails hf]
        exact hrefused _ _ _ _
    | false =>
        rw [exec_db_of_succeeds hf rfl]
        simp only [Program.bind, Query.perform, hrow]
        split_ifs
        · exact hrefused _ _ _ _
        · intro e' _
          simp only [Program.bind]
          split_ifs
          · exact hrefused _ _ _ _
          · intro e'' _
            simp only [Program.bind]
            split
            · refine wp_mono ?_ (setPassword_wp newPassword)
              intro evs reply s' h hstatus
              refine (h hstatus).imp_left ?_
              rintro ⟨ev, hev, hfails⟩
              exact ⟨ev, by simp [hev], hfails⟩
            · exact hrefused _ _ _ _

end Reset

/-! ## Every change of password -/

section Changes

variable {d : Deployment} {s : Database} {v : Visit Traffic Env} {c : RefreshClaims}

/-- The families of the account's tokens are ended. -/
theorem ended_of_changes (hinj : Function.Injective d.toPlatform.refreshTokenHash)
    (hs : s.auth.Accounted d.toPlatform) (hc : s.auth.Holds c) (hchange : Changes d s v c.sub)
    (hleaves : ¬ LeavesSessions d s v c.sub) :
    (v.after (exec d) (Traffic.handle d) s).auth.Ended c.family := by
  have honward := (traffic_custody hinj v.request v.env s hs).2
  by_cases hlive : ∃ row ∈ s.auth.sessions, row.userId = c.sub ∧ row.revokedAt = none
  · -- then it is a reset that revokes them
    have hreset : ∃ headers token newPassword,
        v.request = .app (.resetPassword headers token newPassword) ∧
          ¬ ∃ ev ∈ (v.request.handle d).trace (exec d) v.env s, FailsToRevoke c.sub ev := by
      by_contra hnone
      refine hleaves ⟨hlive, fun headers token newPassword hrequest => ?_⟩
      by_contra hfails
      exact hnone ⟨headers, token, newPassword, hrequest, hfails⟩
    rcases v with ⟨request, ω⟩
    rcases hreset with ⟨headers, token, newPassword, rfl, hfails⟩
    rcases hchange with ⟨⟨row, hrow, huser⟩, reply, hreply, hstatus⟩
    have hrevokes : (resetPassword d headers token newPassword).wp (exec d) (fun _ => True) _ s :=
      resetPassword_wp token newPassword hrow
    have hwp := wp_run hrevokes (ω := ω) fun _ => trivial
    have hhandle : Traffic.handle d (.app (.resetPassword headers token newPassword)) =
        (resetPassword d headers token newPassword).map some := rfl
    unfold Visit.answer at hreply
    dsimp only at hreply hfails
    rw [hhandle, run_map, Option.mem_some_iff] at hreply
    rw [hhandle, trace_map] at hfails
    rw [hreply, huser] at hwp
    have hended := (hwp hstatus).resolve_left hfails
    have hheld := hc.onward honward
    unfold Visit.after
    rw [hhandle, run_map] at hheld ⊢
    exact hheld.ended hended
  · -- none of them was in use
    have hended : s.auth.Ended c.family := hc.ended fun row hrow huser => by
      by_contra hrevoked
      exact hlive ⟨row, hrow, huser, Option.not_isSome_iff_eq_none.mp hrevoked⟩
    exact hended.onward honward

/-- **A change of password ends the sessions** that it leaves none of: whatever is requested
before and after, and whatever fails, each refresh token the account was handed before is
refused from then on. -/
theorem password_change_ends_sessions (d : Deployment)
    (hinj : Function.Injective d.toPlatform.refreshTokenHash) (s₀ : Database)
    (hs₀ : s₀.auth.sessions = []) (before later : List (Visit Traffic Env)) (v : Visit Traffic Env)
    (u : Uuid) (hchange : Changes d (d.after s₀ before) v u)
    (hleaves : ¬ LeavesSessions d (d.after s₀ before) v u) (c : RefreshClaims)
    (hissued : Issued d s₀ before c) (hsub : c.sub = u) :
    Refuses d (d.after s₀ (before ++ v :: later)) c := by
  subst hsub
  have hstart := Auth.accounted_of_no_sessions (p := d.toPlatform) hs₀
  have hbefore := (after_custody hinj before hstart).1
  have hholds := holds_of_issued hinj hstart hissued
  have hended := ended_of_changes hinj hbefore hholds hchange hleaves
  have hafter := (traffic_custody hinj v.request v.env _ hbefore).1
  apply refuses_of_ended
  unfold Deployment.after
  rw [stateAfter_append, stateAfter_cons]
  exact hended.onward (after_custody hinj later hafter).2

end Changes

/-- A login of the operator. -/
def sampleOpening : Visit Traffic Env :=
  ⟨.app (.auth Auth.sampleLogin.request), Auth.sampleLogin.env⟩

/-- The operator has asked for a link. -/
def sampleForgetful : Database :=
  { sampleDatabase with approvalTokens := [⟨20, 1,
    "17bc088ba1cc4705ebba48f1314d6f37199f936af4ef5a2be517a068f62ea263", passwordResetPurpose,
    sampleNow, Timestamp.seconds 1111119999, none, none⟩] }

/-- The link is opened and a new password is given. -/
def sampleReset : Visit Traffic Env :=
  ⟨.app (.resetPassword Auth.sampleHeaders "00000-00000" "Abcdef1!"), Auth.steadily sampleNow 0⟩

/-- An administrator gives the operator a new password. -/
def sampleEdit : Visit Traffic Env :=
  ⟨.app (.updateUser (sampleBearer sampleAdmin) (Uuid.text 1) ⟨none, none, none, some "Abcdef1!"⟩),
    Auth.steadily sampleNow 0⟩

/-- The login hands the token over. -/
theorem sampleOpening_issues : Issued (sampleDeployment .sqlite) sampleForgetful [sampleOpening]
    Auth.sampleClaims1 := by
  have hhands : ((sampleOpening.answer (exec (sampleDeployment .sqlite))
      (Traffic.handle (sampleDeployment .sqlite)) sampleForgetful).bind (·.handsOver)) =
        some Auth.sampleClaims1 := by decide +kernel
  rcases Option.bind_eq_some_iff.mp hhands with ⟨reply, hreply, hhands⟩
  exact ⟨sampleForgetful, Auth.sampleLogin.request, Auth.sampleLogin.env, visits_cons_self, reply,
    hreply, hhands⟩

theorem password_change_ends_sessions_sample :
    Refuses (sampleDeployment .sqlite) ((sampleDeployment .sqlite).after sampleForgetful
      ([sampleOpening] ++ [sampleReset])) Auth.sampleClaims1 := by
  refine password_change_ends_sessions (sampleDeployment .sqlite)
    (Auth.samplePlatform_injective .sqlite) sampleForgetful rfl [sampleOpening] [] sampleReset 1
    ⟨?_, ?_⟩ ?_ Auth.sampleClaims1 sampleOpening_issues rfl
  · have hlink : (((sampleDeployment .sqlite).after sampleForgetful
        [sampleOpening]).approvalTokens.find? fun row => row.tokenHash ==
          (sampleDeployment .sqlite).sha256Hex (Auth.trim "00000-00000")).map (·.userId) =
            some 1 := by decide +kernel
    exact Option.map_eq_some_iff.mp hlink
  · have hstatus : (sampleReset.answer (exec (sampleDeployment .sqlite))
        (Traffic.handle (sampleDeployment .sqlite)) ((sampleDeployment .sqlite).after
          sampleForgetful [sampleOpening])).any (fun reply => reply.status < 400) = true := by
      decide +kernel
    simpa using (Option.any_eq_true _ _).mp hstatus
  · rintro ⟨-, hfails⟩
    rcases hfails _ _ _ rfl with ⟨ev, hev, hfailed, -⟩
    have hsteady : (sampleReset.request.handle (sampleDeployment .sqlite)).trace
        (exec (sampleDeployment .sqlite)) sampleReset.env ((sampleDeployment .sqlite).after
          sampleForgetful [sampleOpening]) |>.all (fun ev => !ev.env.fails) := by decide +kernel
    have hnot := List.all_eq_true.mp hsteady ev hev
    rw [hfailed] at hnot
    cases hnot

/-- The administrator's edit leaves the operator's session in use, and the token that the
operator was handed before is renewed as if nothing had happened. -/
theorem edit_keeps_sessions :
    sampleForgetful.auth.sessions = [] ∧
      Function.Injective (sampleDeployment .sqlite).refreshTokenHash ∧
      Issued (sampleDeployment .sqlite) sampleForgetful [sampleOpening] Auth.sampleClaims1 ∧
      Changes (sampleDeployment .sqlite) ((sampleDeployment .sqlite).after sampleForgetful
        [sampleOpening]) sampleEdit Auth.sampleClaims1.sub ∧
      ¬ Refuses (sampleDeployment .sqlite) ((sampleDeployment .sqlite).after sampleForgetful
        ([sampleOpening] ++ [sampleEdit])) Auth.sampleClaims1 := by
  refine ⟨rfl, Auth.samplePlatform_injective .sqlite, sampleOpening_issues, ⟨⟨?_, ?_⟩, ?_⟩, ?_⟩
  · exact ⟨.text (Uuid.text 1), rfl, by decide⟩
  · exact ⟨"Abcdef1!", rfl, by decide⟩
  · have hstatus : (sampleEdit.answer (exec (sampleDeployment .sqlite))
        (Traffic.handle (sampleDeployment .sqlite)) ((sampleDeployment .sqlite).after
          sampleForgetful [sampleOpening])).any (fun reply => reply.status < 400) = true := by
      decide +kernel
    simpa using (Option.any_eq_true _ _).mp hstatus
  · intro hrefuses
    have hrefused := hrefuses
      { Auth.sampleHeaders with refreshCookie := some (.refresh Auth.sampleClaims1) }
      (Auth.steadily sampleNow 0) rfl
    have hrenewed : ((handle (sampleDeployment .sqlite) (.auth (.refresh { Auth.sampleHeaders with
        refreshCookie := some (.refresh Auth.sampleClaims1) }))).run
          (exec (sampleDeployment .sqlite)) (Auth.steadily sampleNow 0)
            ((sampleDeployment .sqlite).after sampleForgetful ([sampleOpening] ++ [sampleEdit]))).1.map
              (·.status) = some 200 := by decide +kernel
    rw [hrefused] at hrenewed
    revert hrenewed
    decide +kernel

end AnatoliaBis.App
