import AnatoliaBis.App.FlagUpdates

/-! # Access tokens after a ban, a deletion or a change of role

An access token is checked without a look at the account it names. What a ban, a
deletion or a change of role leaves in the account's row, and what a token issued
before still opens.
-/

namespace AnatoliaBis.App

open Atomic Program
open Auth (Env Headers Key)

/-! ## What the account is entitled to -/

/-- The account is there, not banned, and has this role. -/
def Database.Current (s : Database) (u : Uuid) (role : String) : Prop :=
  ∃ row, s.live u = some row ∧ row.isBanned = false ∧ row.role = role

/-- What the account may do now. -/
def Database.Entitles (s : Database) (u : Uuid) (policy : Policy) : Prop :=
  ∃ role, s.Current u role ∧ policy.allows role = true

/-- A request with these headers is authorised for nothing beyond what the row of `u`
says: not by `require_role`, and not by `auth_user_from_headers`. -/
def RespectsRow (d : Deployment) (s : Database) (u : Uuid) (headers : Headers) (ω : Nat → Env) :
    Prop :=
  (∀ policy, ((requireRole headers policy).run (exec d) ω s).1 = true → s.Entitles u policy) ∧
    ∀ claims, ((lift (Auth.authUserFromHeaders headers)).run (exec d) ω s).1 = some claims →
      s.Current u claims.role

section Stateless

variable {d : Deployment} {s : Database} {u : Uuid} {headers : Headers} {c : Auth.Claims}

/-- The token alone decides. -/
theorem run_authUserFromHeaders (htoken : headers.authorization = some (.access c))
    (ω : Nat → Env) :
    (lift (Auth.authUserFromHeaders headers)).run (exec d) ω s =
      (if Auth.Unexpired c.exp (ω 0).now then some c else none, s) := by
  unfold Auth.authUserFromHeaders
  rw [htoken]
  rfl

theorem run_requireRole (htoken : headers.authorization = some (.access c)) (policy : Policy)
    (ω : Nat → Env) :
    ((requireRole headers policy).run (exec d) ω s).1 = true ↔
      Auth.Unexpired c.exp (ω 0).now ∧ policy.allows c.role = true := by
  unfold requireRole
  rw [run_bind, run_authUserFromHeaders htoken]
  split_ifs with h
  · simp [h]
  · simp [h]

/-- Looking at a token changes nothing. -/
theorem run_requireRole_snd (headers : Headers) (policy : Policy) (ω : Nat → Env) (s : Database) :
    ((requireRole headers policy).run (exec d) ω s).2 = s := by
  unfold requireRole Auth.authUserFromHeaders
  cases headers.authorization with
  | none => rfl
  | some token => rfl

/-- No access token that meets the policy. -/
theorem run_requireRole_of_refused {policy : Policy} {ω : Nat → Env}
    (h : ¬ ∃ claims, headers.authorization = some (.access claims) ∧
      Auth.Unexpired claims.exp (ω 0).now ∧ policy.allows claims.role = true) (s : Database) :
    ((requireRole headers policy).run (exec d) ω s).1 = false := by
  cases hauth : headers.authorization with
  | none =>
      unfold requireRole Auth.authUserFromHeaders
      rw [hauth]
      rfl
  | some token =>
      cases token with
      | access claims =>
          rw [← Bool.not_eq_true, run_requireRole hauth]
          exact fun hmeets => h ⟨claims, hauth, hmeets⟩
      | _ =>
          unfold requireRole Auth.authUserFromHeaders
          rw [hauth]
          rfl

theorem run_adminOnly_of_refused {route : Handler Reply} {ω : Nat → Env}
    (h : ¬ ∃ claims, headers.authorization = some (.access claims) ∧
      Auth.Unexpired claims.exp (ω 0).now ∧ Policy.administerUsers.allows claims.role = true)
    (s : Database) : (adminOnly headers route).run (exec d) ω s = (forbidden headers, s) := by
  unfold adminOnly
  rw [run_bind, run_requireRole_of_refused h, run_requireRole_snd]
  rfl

theorem respectsRow_iff (htoken : headers.authorization = some (.access c)) (ω : Nat → Env) :
    RespectsRow d s u headers ω ↔ ¬ Auth.Unexpired c.exp (ω 0).now ∨ s.Current u c.role := by
  unfold RespectsRow
  simp only [run_requireRole htoken, run_authUserFromHeaders htoken]
  by_cases h : Auth.Unexpired c.exp (ω 0).now
  · simp only [h, if_true, Option.some.injEq, forall_eq', true_and, not_true_eq_false, false_or]
    constructor
    · intro hboth
      exact hboth.2
    · intro hcurrent
      exact ⟨fun policy hallows => ⟨c.role, hcurrent, hallows⟩, hcurrent⟩
  · simp [h]

end Stateless

/-! ## What the three requests leave behind -/

/-- The account the request takes something from, and the role it leaves it, if any. -/
def Request.bars : Request → Option (String × Option String)
  | .banUser _ id _ => some (id, none)
  | .deleteUser _ id => some (id, none)
  | .changeRole _ id role => some (id, some role)
  | _ => none

section Bars

variable {d : Deployment} {s : Database} {u : Uuid} {id : String} {headers : Headers} {α : Type}

/-- A call that goes through has set its flags. -/
theorem updateUserFlags_wp (hname : d.Names id u) (flags : FlagUpdate) :
    (updateUserFlags d id flags).wp (exec d) (fun _ => True)
      (fun _ a s' => ∀ account, a = .ok (some account) → s'.Has u flags) s := by
  rcases hname with ⟨key, hkey, hid⟩
  have hload : loadUserById d id = query (.loadUserById key) := by
    unfold loadUserById
    rw [hkey]
  unfold updateUserFlags
  rw [hload]
  intro e _
  dsimp only
  cases hf : e.fails with
  | true =>
      rw [exec_db_of_fails hf]
      intro account h
      cases h
  | false =>
      rw [exec_loadUserById hid hf]
      cases hrow : s.live u with
      | none =>
          intro account h
          cases h
      | some row =>
          simp only [Program.bind, hkey]
          intro e' _
          dsimp only
          cases hf' : e'.fails with
          | true =>
              rw [exec_db_of_fails hf']
              intro account h
              cases h
          | false =>
              have hwrite := live_exec_flagsWrite (d := d) (s := s) hid hf' (flags.merge row)
              unfold flagsWrite at hwrite
              rw [hrow, exec_db_of_succeeds hf' rfl] at hwrite
              rw [exec_db_of_succeeds hf' rfl]
              intro e'' _ account _
              refine ⟨row.withFlags (flags.merge row), ?_, setIn_withFlags.mpr (setIn_merge _ _)⟩
              have hquiet : ¬ (Op.db (.loadUserById key)).WritesAccounts := fun h => h
              exact (live_exec hquiet e'' _).trans hwrite

/-- A deletion that goes through has hidden the row. -/
theorem softDeleteUser_wp (hname : d.Names id u) :
    (softDeleteUser d id).wp (exec d) (fun _ => True)
      (fun _ a s' => a = .ok true → s'.live u = none) s := by
  rcases hname with ⟨key, hkey, hid⟩
  unfold softDeleteUser
  rw [hkey]
  intro e _
  dsimp only
  cases hf : e.fails with
  | true =>
      rw [exec_db_of_fails hf]
      intro h
      cases h
  | false =>
      have hgone := live_softDeleteUser (d := d) (s := s) hid hf
      generalize exec d (.db (.softDeleteUser key)) e s = result at hgone
      rcases result with ⟨s₁, deleted⟩
      dsimp only at hgone ⊢
      match deleted with
      | .error err =>
          intro h
          cases h
      | .ok true => exact fun _ => hgone
      | .ok false =>
          intro e' _
          have hquiet : ¬ (Op.db (.loadUserByIdIncludingDeleted key)).WritesAccounts := fun h => h
          have hsame := live_exec (d := d) (u := u) hquiet e' s₁
          rw [hgone] at hsame
          generalize exec d (.db (.loadUserByIdIncludingDeleted key)) e' s₁ = result at hsame
          rcases result with ⟨s₂, found⟩
          cases found with
          | error err =>
              intro h
              cases h
          | ok found => exact fun _ => hsame

/-- A part that writes no account leaves this one as it is. -/
theorem quiet_wp {p : Handler α} {R : α → Prop}
    (hp : p.Performs (exec d) (fun op => ¬ op.WritesAccounts) R) (s : Database) :
    p.wp (exec d) (fun _ => True) (fun _ a s' => R a ∧ s'.live u = s.live u) s := by
  have hwp := hp.wp_same (E := fun _ => True) (f := fun s : Database => s.live u)
    (fun op e s hop => live_exec hop e s) s
  exact wp_mono (fun evs a s' h => h.2) hwp

/-- What a request that takes something from `u` leaves when it succeeds. -/
def Barred (u : Uuid) (role : Option String) (reply : Reply) (s : Database) : Prop :=
  reply.status < 400 → ∀ r, s.Current u r → role = some r

theorem barred_of_refusal {role : Option String} {reply : Reply} (h : ¬ reply.status < 400) :
    Barred u role reply s := fun hok => absurd hok h

theorem barred_adminOnly {role : Option String} {route : Handler Reply}
    (hroute : ∀ s, route.wp (exec d) (fun _ => True) (fun _ => Barred u role) s) :
    (adminOnly headers route).wp (exec d) (fun _ => True) (fun _ => Barred u role) s := by
  refine wp_bind_of (quiet_wp (u := u) (requireRole_quiet headers .administerUsers) s)
    fun evs allowed s' _ => ?_
  split_ifs
  · exact hroute s'
  · exact barred_of_refusal (failure_status _ _ _)

/-- The rest of the request writes no account. -/
theorem barred_after {role : Option String} {p : Handler Reply}
    (hp : p.Performs (exec d) (fun op => ¬ op.WritesAccounts) fun _ => True)
    (hs : ∀ r, s.Current u r → role = some r) :
    p.wp (exec d) (fun _ => True) (fun _ => Barred u role) s := by
  refine wp_mono (fun evs reply s' h _ r hcurrent => ?_) (quiet_wp (u := u) hp s)
  rcases hcurrent with ⟨row, hrow, hcurrent⟩
  rw [h.2] at hrow
  exact hs r ⟨row, hrow, hcurrent⟩

theorem banUser_bars (hname : d.Names id u) (reason : Option String) :
    (banUser d headers id reason).wp (exec d) (fun _ => True) (fun _ => Barred u none) s := by
  refine barred_adminOnly fun s => ?_
  refine wp_bind_of (quiet_wp (u := u) (guardTarget_quiet id) s) fun _ guarded s₁ _ => ?_
  cases guarded with
  | true => exact barred_of_refusal (failure_status _ _ _)
  | false =>
      refine wp_bind_of (updateUserFlags_wp hname _) fun _ updated s₂ h => ?_
      match updated with
      | .error err => exact barred_of_refusal (failure_status _ _ _)
      | .ok none => exact barred_of_refusal (failure_status _ _ _)
      | .ok (some account) =>
          refine barred_after ((revokeAllSessionsForUser_quiet id).bind fun _ _ =>
            (authUserFromHeaders_quiet headers).bind fun _ _ =>
            saveMandatory_quiet _ _ _) ?_
          rintro r ⟨row, hrow, hunbanned, -⟩
          rcases h account rfl with ⟨row', hrow', hset⟩
          rcases Option.some.inj (hrow.symm.trans hrow') with rfl
          rw [hset.isBanned true rfl] at hunbanned
          cases hunbanned

theorem changeRole_bars (hname : d.Names id u) (role : String) :
    (changeRole d headers id role).wp (exec d) (fun _ => True) (fun _ => Barred u (some role)) s := by
  refine barred_adminOnly fun s => ?_
  split_ifs
  · exact barred_of_refusal (failure_status _ _ _)
  · refine wp_bind_of (quiet_wp (u := u) (loadTarget_quiet id) s) fun _ target s₁ _ => ?_
    split
    · exact barred_of_refusal (failure_status _ _ _)
    next target =>
      split_ifs
      · exact barred_of_refusal (failure_status _ _ _)
      · refine wp_bind_of (quiet_wp (u := u) (demotesLastAdmin_quiet target role) s₁)
          fun _ demotes s₂ _ => ?_
        split_ifs
        · exact barred_of_refusal (failure_status _ _ _)
        · refine wp_bind_of (updateUserFlags_wp hname _) fun _ updated s₃ h => ?_
          match updated with
          | .error err => exact barred_of_refusal (failure_status _ _ _)
          | .ok none => exact barred_of_refusal (failure_status _ _ _)
          | .ok (some account) =>
              refine barred_after ((revokeAllSessionsForUser_quiet id).bind fun _ _ =>
                (authUserFromHeaders_quiet headers).bind fun _ _ => saveMandatory_quiet _ _ _) ?_
              rintro r ⟨row, hrow, -, rfl⟩
              rcases h account rfl with ⟨row', hrow', hset⟩
              rcases Option.some.inj (hrow.symm.trans hrow') with rfl
              rw [hset.role role rfl]

theorem deleteUser_bars (hname : d.Names id u) :
    (deleteUserRoute d headers id).wp (exec d) (fun _ => True) (fun _ => Barred u none) s := by
  refine barred_adminOnly fun s => ?_
  refine wp_bind_of (quiet_wp (u := u) (guardTarget_quiet id) s) fun _ guarded s₁ _ => ?_
  cases guarded with
  | true => exact barred_of_refusal (failure_status _ _ _)
  | false =>
      refine wp_bind_of (softDeleteUser_wp hname) fun _ deleted s₂ h => ?_
      match deleted with
      | .error err => exact barred_of_refusal (failure_status _ _ _)
      | .ok false => exact barred_of_refusal (failure_status _ _ _)
      | .ok true =>
          refine barred_after ((revokeAllSessionsForUser_quiet id).bind fun _ _ =>
            (authUserFromHeaders_quiet headers).bind fun _ _ =>
            (save_quiet _).bind fun _ _ => trivial) ?_
          rintro r ⟨row, hrow, -⟩
          rw [h rfl] at hrow
          cases hrow

end Bars

/-! ## Runs -/

section Runs

variable {d : Deployment} {u : Uuid}

/-- Right after a success the row entitles the account to nothing, or to the new role. -/
theorem barred_after_visit {s : Database} {v : Visit Request Env} {id : String}
    {role : Option String} (hv : v.request.bars = some (id, role)) (hname : d.Names id u)
    {reply : Reply} (hreply : v.answer (exec d) (handle d) s = some reply)
    (hok : reply.status < 400) :
    ∀ r, (v.after (exec d) (handle d) s).Current u r → role = some r := by
  have hone : ∀ p : Handler Reply, handle d v.request = p.map some →
      p.wp (exec d) (fun _ => True) (fun _ => Barred u role) s →
        ∀ r, (v.after (exec d) (handle d) s).Current u r → role = some r := by
    intro p hp hwp
    have hrun := wp_run hwp (ω := v.env) fun _ => trivial
    unfold Visit.answer at hreply
    rw [hp, run_map, Option.some.injEq] at hreply
    unfold Visit.after
    rw [hp, run_map]
    rw [hreply] at hrun
    exact hrun hok
  generalize hrequest : v.request = request at hv hone
  cases request with
  | banUser headers id' reason =>
      rcases Prod.mk.inj (Option.some.inj hv) with ⟨rfl, rfl⟩
      exact hone (banUser d headers id' reason) rfl (banUser_bars hname reason)
  | deleteUser headers id' =>
      rcases Prod.mk.inj (Option.some.inj hv) with ⟨rfl, rfl⟩
      exact hone (deleteUserRoute d headers id') rfl (deleteUser_bars hname)
  | changeRole headers id' role' =>
      rcases Prod.mk.inj (Option.some.inj hv) with ⟨rfl, rfl⟩
      exact hone (changeRole d headers id' role') rfl (changeRole_bars hname role')
  | _ => cases hv

/-- **Access tokens already issued.** Right after a successful ban, deletion or change
of role the row of the account entitles it to nothing more than the new role; and a
later request with an access token of the account keeps to what the row says then if
and only if the token has expired, or the row has the token's role again. -/
theorem stale_access_iff (d : Deployment) (s₀ : Database) (earlier between : List (Visit Request Env))
    (v : Visit Request Env) (u : Uuid) (id : String) (role : Option String)
    (hv : v.request.bars = some (id, role)) (hname : d.Names id u) (reply : Reply)
    (hreply : v.answer (exec d) (handle d) (stateAfter (exec d) (handle d) s₀ earlier) = some reply)
    (hok : reply.status < 400) :
    (∀ r, (stateAfter (exec d) (handle d) s₀ (earlier ++ [v])).Current u r → role = some r) ∧
      ∀ (headers : Headers) (c : Auth.Claims), headers.authorization = some (.access c) →
        c.id = u → ∀ ω : Nat → Env,
          let s := stateAfter (exec d) (handle d) s₀ (earlier ++ v :: between)
          (RespectsRow d s u headers ω ↔
            ¬ Auth.Unexpired c.exp (ω 0).now ∨ s.Current u c.role) := by
  constructor
  · intro r
    rw [stateAfter_append]
    exact barred_after_visit hv hname hreply hok r
  · intro headers c htoken _ ω
    exact respectsRow_iff htoken ω

end Runs

/-- An operator logs in, -/
def sampleOperatorLogin : Visit Request Env :=
  ⟨.auth (.login Auth.sampleHeaders "op-1" "U*U"), Auth.steadily sampleNow 0⟩

/-- and is banned by an administrator. -/
def sampleOperatorBan : Visit Request Env :=
  ⟨.banUser (sampleBearer sampleAdmin) (Uuid.text 1) none, Auth.steadily sampleNow 0⟩

/-- The operator's access token. -/
def sampleStaleHeaders : Headers :=
  { Auth.sampleHeaders with authorization := some Auth.sampleAccess }

/-- The store after the login and the ban. -/
def sampleBanned : Database :=
  stateAfter (exec (sampleDeployment .postgres)) (handle (sampleDeployment .postgres))
    sampleDatabase [sampleOperatorLogin, sampleOperatorBan]

theorem stale_access_sample :
    (∀ r, (stateAfter (exec (sampleDeployment .postgres)) (handle (sampleDeployment .postgres))
        sampleDatabase ([] ++ [sampleOperatorBan])).Current 1 r → none = some r) ∧
      ∀ (headers : Headers) (c : Auth.Claims), headers.authorization = some (.access c) →
        c.id = 1 → ∀ ω : Nat → Env,
          let s := stateAfter (exec (sampleDeployment .postgres))
            (handle (sampleDeployment .postgres)) sampleDatabase
            ([] ++ sampleOperatorBan :: [sampleOperatorLogin])
          (RespectsRow (sampleDeployment .postgres) s 1 headers ω ↔
            ¬ Auth.Unexpired c.exp (ω 0).now ∨ s.Current 1 c.role) :=
  stale_access_iff (sampleDeployment .postgres) sampleDatabase [] [sampleOperatorLogin]
    sampleOperatorBan 1 (Uuid.text 1) none rfl ⟨.uuid 1, by decide +kernel, by decide⟩
    (message "admin.userBanned") rfl (by decide)

/-- The ban is answered as a success, the row says so, and the token handed out before
still opens what operators may do. -/
theorem banned_still_authorised :
    ((sampleOperatorLogin.answer (exec (sampleDeployment .postgres))
        (handle (sampleDeployment .postgres)) sampleDatabase).map fun reply =>
          match reply.body with
          | .auth (.session token ..) => token
          | _ => .other "") = some Auth.sampleAccess ∧
      (sampleBanned.live 1).map (·.isBanned) = some true ∧
      ((requireRole sampleStaleHeaders .createSearch).run (exec (sampleDeployment .postgres))
        (Auth.steadily sampleNow 0) sampleBanned).1 = true ∧
      ¬ RespectsRow (sampleDeployment .postgres) sampleBanned 1 sampleStaleHeaders
        (Auth.steadily sampleNow 0) := by
  have hbanned : (sampleBanned.live 1).map (·.isBanned) = some true := by decide +kernel
  have hallowed : ((requireRole sampleStaleHeaders .createSearch).run
      (exec (sampleDeployment .postgres)) (Auth.steadily sampleNow 0) sampleBanned).1 = true := by
    decide +kernel
  refine ⟨by decide +kernel, hbanned, hallowed, fun h => ?_⟩
  rcases h.1 .createSearch hallowed with ⟨role, ⟨row, hrow, hunbanned, -⟩, -⟩
  rw [hrow, Option.map_some, hunbanned] at hbanned
  cases hbanned

end AnatoliaBis.App
