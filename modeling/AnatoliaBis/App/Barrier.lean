import AnatoliaBis.App.PasswordChange
import AnatoliaBis.Auth.Overlap

/-! # Revocation among other requests

Logins, refreshes, bans, deletions, changes of role and resets handled at the same time,
their statements interleaved in any way. The table of sessions stays a map all the while
(`Chart`), and a session that is revoked is never revived: once the sessions of an account
are revoked, only a session that some request stores afterwards can be in use.
-/

namespace AnatoliaBis.App

open Atomic Program
open Auth (Env Headers Key RefreshClaims SessionRow)

/-! ## The requests -/

/-- A request that opens, renews or revokes sessions. -/
def Request.Contends : Request → Prop
  | .auth _ | .banUser .. | .deleteUser .. | .changeRole .. | .resetPassword .. => True
  | _ => False

section Steady

variable {d : Deployment} {headers : Headers} {id : String}

theorem LooksUp.steady {op : Op} (h : op.LooksUp) : op.Steady := h.own.steady

theorem Draws.steady {op : Op} (h : op.Draws) : op.Steady := h.own.steady

theorem WritesAccounts.steady {op : Op} (h : op.WritesAccounts) : op.Steady := by
  unfold Op.WritesAccounts at h
  split at h
  all_goals trivial

theorem save_steady (r : Audit.AuditRecorder) :
    (save d r).Performs (exec d) Op.Steady fun _ => True :=
  (save_performs r).weaken fun _ h => h.elim (fun h => h.own.steady) fun h => h.own.steady

theorem saveMandatory_steady (r : Audit.AuditRecorder) (reply : Reply) :
    (saveMandatory d headers r reply).Performs (exec d) Op.Steady fun _ => True :=
  ((saveMandatory_performs headers r reply).weaken
    fun _ h => h.elim (fun h => h.own.steady) fun h => h.own.steady).mono (fun _ h => h)
      fun _ _ => trivial

theorem actorClaims_steady : (actorClaims headers).Performs (exec d) Op.Steady fun _ => True :=
  (authUserFromHeaders_draws headers).mono (fun _ h => Draws.steady h) fun _ _ => trivial

theorem revokeAll_steady :
    (revokeAllSessionsForUser d id).Performs (exec d) Op.Steady fun _ => True :=
  (revokeAllSessionsForUser_performs id).mono (fun _ h => h.own.steady) fun _ _ => trivial

theorem updateUserFlags_steady (flags : FlagUpdate) :
    (updateUserFlags d id flags).Performs (exec d) Op.Steady fun _ => True :=
  (updateUserFlags_performs id flags).weaken
    fun _ h => h.elim LooksUp.steady WritesAccounts.steady

theorem adminOnly_steady {route : Handler Reply}
    (hroute : route.Performs (exec d) Op.Steady fun _ => True) :
    (adminOnly headers route).Performs (exec d) Op.Steady fun _ => True := by
  apply ((requireRole_draws headers _).mono (fun _ h => Draws.steady h) fun _ h => h).bind
  intro allowed _
  split_ifs
  · exact hroute
  · trivial

theorem guardTarget_steady : (guardTarget d id).Performs (exec d) Op.Steady fun _ => True :=
  (guardTarget_performs id).mono (fun _ h => LooksUp.steady h) fun _ _ => trivial

theorem banUser_steady (reason : Option String) :
    (banUser d headers id reason).Performs (exec d) Op.Steady fun _ => True := by
  apply adminOnly_steady
  apply guardTarget_steady.bind
  intro guarded _
  split_ifs
  · trivial
  · apply (updateUserFlags_steady _).bind
    intro updated _
    split
    · apply revokeAll_steady.bind
      intro _ _
      apply actorClaims_steady.bind
      intro _ _
      exact saveMandatory_steady _ _
    · trivial
    · trivial

theorem deleteUserRoute_steady :
    (deleteUserRoute d headers id).Performs (exec d) Op.Steady fun _ => True := by
  have hdelete : (softDeleteUser d id).Performs (exec d) Op.Steady fun _ => True :=
    (softDeleteUser_performs id).mono
      (fun _ h => h.elim LooksUp.steady WritesAccounts.steady) fun _ _ => trivial
  apply adminOnly_steady
  apply guardTarget_steady.bind
  intro guarded _
  split_ifs
  · trivial
  · apply hdelete.bind
    intro deleted _
    split
    · apply revokeAll_steady.bind
      intro _ _
      apply actorClaims_steady.bind
      intro _ _
      exact (save_steady _).bind fun _ _ => trivial
    · trivial
    · trivial

theorem changeRole_steady (role : String) :
    (changeRole d headers id role).Performs (exec d) Op.Steady fun _ => True := by
  have htarget : (loadTarget d id).Performs (exec d) Op.Steady fun _ => True :=
    (loadTarget_performs id).mono (fun _ h => LooksUp.steady h) fun _ _ => trivial
  apply adminOnly_steady
  split_ifs
  · trivial
  · apply htarget.bind
    intro target _
    split
    · trivial
    · split_ifs
      · trivial
      · apply ((demotesLastAdmin_performs _ role).mono (fun _ h => LooksUp.steady h)
          fun _ _ => trivial).bind
        intro demotes _
        split_ifs
        · trivial
        · apply (updateUserFlags_steady _).bind
          intro updated _
          split
          · apply revokeAll_steady.bind
            intro _ _
            apply actorClaims_steady.bind
            intro _ _
            exact saveMandatory_steady _ _
          · trivial
          · trivial

theorem updateUserPassword_steady (passwordHash : String) :
    (updateUserPassword d id passwordHash).Performs (exec d) Op.Steady fun _ => True := by
  unfold updateUserPassword
  split
  · trivial
  · apply performs_query trivial
    intro updated
    split
    · trivial
    · exact (loadUserById_performs id).mono (fun _ h => LooksUp.steady h) fun _ _ => trivial

theorem resetPassword_steady (token newPassword : String) :
    (resetPassword d headers token newPassword).Performs (exec d) Op.Steady fun _ => True := by
  have hclock : (Op.auth .utcNow).Steady := Auth.steady_utcNow
  have hset : ∀ userId, (setPassword d headers userId newPassword).Performs (exec d) Op.Steady
      fun _ => True := by
    intro userId
    have hrandom : (Op.auth .random).Steady := Auth.Call.Quiet.steady trivial
    apply performs_perform hrandom
    intro salt
    split
    · trivial
    · apply (updateUserPassword_steady _).bind
      intro updated _
      split
      · apply revokeAll_steady.bind
        intro _ _
        exact (save_steady _).bind fun _ _ => trivial
      · trivial
  unfold resetPassword
  split_ifs
  · trivial
  · apply performs_query trivial
    intro found
    split
    · split_ifs
      · trivial
      · apply performs_perform hclock
        intro now
        split_ifs
        · trivial
        · apply performs_query trivial
          intro consumed
          split
          · exact hset _
          · trivial
    · trivial

end Steady

/-! ## What each request keeps to -/

/-- The operations of authentication in a history, on the part of the store they see. -/
def authSteps (h : List Step) : List Auth.Step :=
  h.filterMap fun ev => match ev.op with
    | .auth c => some ⟨c, ev.env, ev.before.auth, ev.after.auth⟩
    | _ => none

/-- What a request does to the sessions after the history `h` of its own operations. -/
def SessionCall (d : Deployment) (h : List Step) : Op → Prop
  | .auth c => Auth.SessionCall d.toPlatform (authSteps h) c
  | _ => True

section Keeps

variable {d : Deployment} {h : List Step}

@[simp] theorem authSteps_nil : authSteps [] = [] := rfl

@[simp] theorem authSteps_append (h h' : List Step) :
    authSteps (h ++ h') = authSteps h ++ authSteps h' := List.filterMap_append

theorem mem_authSteps {ev : Auth.Step} :
    ev ∈ authSteps h ↔ ∃ ev' ∈ h, ∃ c, ev'.op = .auth c ∧
      ev = ⟨c, ev'.env, ev'.before.auth, ev'.after.auth⟩ := by
  unfold authSteps
  rw [List.mem_filterMap]
  constructor
  · rintro ⟨ev', hev', hsome⟩
    refine ⟨ev', hev', ?_⟩
    split at hsome
    next c hc => exact ⟨c, hc, (Option.some.inj hsome).symm⟩
    · cases hsome
  · rintro ⟨ev', hev', c, hop, rfl⟩
    refine ⟨ev', hev', ?_⟩
    rw [hop]

theorem authSteps_of_sees {h : List Auth.Step} {h' : List Step}
    (hsees : List.Forall₂ (authPart d).Sees h h') : authSteps h' = h := by
  induction hsees with
  | nil => rfl
  | @cons ev ev' h h' hev _ ih =>
      rcases ev with ⟨c, e, s, s'⟩
      rcases ev' with ⟨op, e', t, t'⟩
      have hop : op = .auth c := hev.op
      have henv : e' = e := hev.env
      have hbefore : t.auth = s := hev.before
      have hafter : t'.auth = s' := hev.after
      subst hop henv hbefore hafter
      exact congrArg _ ih

theorem sessionCall_of_steady {op : Op} (hop : op.Steady) : SessionCall d h op := by
  cases op with
  | auth c => exact .steady hop
  | _ => trivial

theorem handle_sessionCalls {request : Request} (hcontends : request.Contends) :
    (handle d request).Guarantees (exec d) (SessionCall d) (fun _ _ => True) [] := by
  have hsteady : ∀ {route : Handler Reply}, route.Performs (exec d) Op.Steady (fun _ => True) →
      (route.map some).Guarantees (exec d) (SessionCall d) (fun _ _ => True) [] := fun hroute =>
    (hroute.guarantees (fun _ _ _ hop => sessionCall_of_steady hop) fun _ _ _ _ => trivial).map
      (Q := fun _ _ => True) fun _ _ _ => trivial
  cases request with
  | auth request =>
      have hauth : (lift (Auth.handle d.toPlatform request)).Guarantees (exec d) (SessionCall d)
          (fun _ _ => True) [] := by
        apply (authPart d).guarantees_embed (Auth.handle_sessionCalls request []) .nil
        · intro h h' op hsees hop
          rw [← authSteps_of_sees hsees] at hop
          exact hop
        · exact fun _ _ _ _ _ => trivial
      exact hauth.map fun _ _ _ => trivial
  | banUser headers id reason => exact hsteady (banUser_steady reason)
  | deleteUser headers id => exact hsteady deleteUserRoute_steady
  | changeRole headers id role => exact hsteady (changeRole_steady role)
  | resetPassword headers token newPassword => exact hsteady (resetPassword_steady _ _)
  | _ => exact hcontends.elim

end Keeps

/-! ## The table while they overlap -/

/-- The operation stores a session under these identifiers. -/
def Op.Stores (id family : Uuid) (op : Op) : Prop :=
  ∃ u hash expiresAt agent ip createdBy,
    op = .auth (.db (.insertSession id u hash family expiresAt agent ip createdBy))

section Chart

variable {ι : Type} [DecidableEq ι]

/-- Request `i` has drawn the number. -/
def DrawnBy (log : List (ι × Step)) (i : ι) (n : Nat) : Prop :=
  Auth.Drew (authSteps (Pool.own i log)) n

/-- The identifiers of a session that was there at the start or has been stored since. -/
def Known (s₀ : Database) (log : List (ι × Step)) (row : SessionRow) : Prop :=
  (row.id < s₀.auth.nextId ∧ row.tokenFamilyId < s₀.auth.nextId) ∨
    ∃ entry ∈ log, entry.2.op.Stores row.id row.tokenFamilyId

/-- Every operation so far was one that its request keeps to. -/
def KeptTo (d : Deployment) (log : List (ι × Step)) : Prop :=
  ∀ before i ev after, log = before ++ (i, ev) :: after →
    SessionCall d (Pool.own i before) ev.op

/-- What is drawn, no two requests and no request twice. -/
structure Draws (s₀ : Database) (log : List (ι × Step)) (s : Database) : Prop where
  nextId_le : s₀.auth.nextId ≤ s.auth.nextId
  drawn : ∀ i n, DrawnBy log i n → s₀.auth.nextId ≤ n ∧ n < s.auth.nextId
  drawnOnce : ∀ i j n, DrawnBy log i n → DrawnBy log j n → i = j
  ordered : ∀ i, (authSteps (Pool.own i log)).Pairwise fun a b =>
    a.op = .newId → b.op = .newId → a.before.nextId ≠ b.before.nextId

section Draws

variable {d : Deployment} {s₀ s : Database} {log : List (ι × Step)} {i j : ι} {ev : Step} {n : Nat}

theorem authSteps_own_snoc :
    authSteps (Pool.own j (log ++ [(i, ev)])) =
      authSteps (Pool.own j log) ++ if i = j then authSteps [ev] else [] := by
  rw [Pool.own_append, authSteps_append]
  split_ifs with hij
  · subst hij
    rw [Pool.own_cons_self, Pool.own_nil]
  · rw [Pool.own_cons_of_ne hij, Pool.own_nil, authSteps_nil]

theorem drawnBy_snoc : DrawnBy (log ++ [(i, ev)]) j n ↔
    DrawnBy log j n ∨ i = j ∧ ev.op = .auth .newId ∧ ev.before.auth.nextId = n := by
  unfold DrawnBy Auth.Drew
  rw [authSteps_own_snoc]
  constructor
  · rintro ⟨x, hx, hop, hn⟩
    rcases List.mem_append.mp hx with hx | hx
    · exact Or.inl ⟨x, hx, hop, hn⟩
    · split_ifs at hx with hij
      · rcases mem_authSteps.mp hx with ⟨ev', hev', c, hc, rfl⟩
        rcases List.mem_singleton.mp hev' with rfl
        have hc' : c = .newId := hop
        subst hc'
        exact Or.inr ⟨hij, hc, hn⟩
      · cases hx
  · rintro (⟨x, hx, hop, hn⟩ | ⟨rfl, hop, hn⟩)
    · exact ⟨x, List.mem_append_left _ hx, hop, hn⟩
    · refine ⟨⟨.newId, ev.env, ev.before.auth, ev.after.auth⟩, List.mem_append_right _ ?_, rfl, hn⟩
      rw [if_pos rfl, mem_authSteps]
      exact ⟨ev, List.mem_singleton_self _, _, hop, rfl⟩

omit [DecidableEq ι] in
theorem exec_nextId_le (op : Op) (e : Env) (s : Database) :
    s.auth.nextId ≤ (exec d op e s).1.auth.nextId := by
  cases op with
  | auth c => exact Auth.exec_nextId_le c
  | db q =>
      apply exec_db_store (I := fun s' => s.auth.nextId ≤ s'.auth.nextId) (Nat.le_refl _)
      intro _ _
      cases q with
      | recordReviewDecision entry =>
          have hsame := record_same (f := fun s => s.auth.nextId) (fun _ _ _ => rfl) s
            (d.now e.now) entry
          exact hsame.ge
      | _ => exact Nat.le_refl _
  | _ => exact Nat.le_refl _

/-- One more operation. -/
theorem Draws.step (h : Draws s₀ log s) (i : ι) (op : Op) (e : Env) :
    Draws s₀ (log ++ [(i, ⟨op, e, s, (exec d op e s).1⟩)]) (exec d op e s).1 := by
  have hle : s.auth.nextId ≤ (exec d op e s).1.auth.nextId := exec_nextId_le op e s
  have hnew : op = .auth .newId → s.auth.nextId < (exec d op e s).1.auth.nextId := by
    rintro rfl
    exact Nat.lt_succ_self _
  constructor
  · exact h.nextId_le.trans hle
  · intro j n hn
    rcases drawnBy_snoc.mp hn with hn | ⟨-, hop, rfl⟩
    · have hdrawn := h.drawn j n hn
      exact ⟨hdrawn.1, hdrawn.2.trans_le hle⟩
    · exact ⟨h.nextId_le, hnew hop⟩
  · intro j k n hj hk
    rcases drawnBy_snoc.mp hj with hj | ⟨hij, -, rfl⟩
    · rcases drawnBy_snoc.mp hk with hk | ⟨hik, -, rfl⟩
      · exact h.drawnOnce j k n hj hk
      · exact absurd (h.drawn j _ hj).2 (Nat.lt_irrefl _)
    · rcases drawnBy_snoc.mp hk with hk | ⟨hik, -, -⟩
      · exact absurd (h.drawn k _ hk).2 (Nat.lt_irrefl _)
      · exact hij.symm.trans hik
  · intro j
    rw [authSteps_own_snoc, List.pairwise_append]
    refine ⟨h.ordered j, ?_, ?_⟩
    · split_ifs
      · cases op <;> simp [authSteps]
      · exact List.Pairwise.nil
    · intro a ha b hb hopa hopb heq
      split_ifs at hb with hij
      · rcases mem_authSteps.mp hb with ⟨ev', hev', c, hc, rfl⟩
        rcases List.mem_singleton.mp hev' with rfl
        have hdrawn := (h.drawn j _ ⟨a, ha, hopa, rfl⟩).2
        rw [heq] at hdrawn
        exact absurd hdrawn (Nat.lt_irrefl _)
      · cases hb

/-- Where a request has stored a session, it had drawn both identifiers before. -/
theorem drew_of_stores (hkept : KeptTo d log) {entry : ι × Step} (hentry : entry ∈ log)
    {id family : Uuid} (hstores : entry.2.op.Stores id family) :
    ∃ drew stored rest, authSteps (Pool.own entry.1 log) = drew ++ stored :: rest ∧
      (∃ u, stored.op.Issues u) ∧ Auth.Drew drew id ∧ Auth.Drew drew family := by
  rcases entry with ⟨j, ev⟩
  rcases List.append_of_mem hentry with ⟨l, l', hlog⟩
  have hcall := hkept l j ev l' hlog
  rcases hstores with ⟨u, hash, expiresAt, agent, ip, createdBy, hop⟩
  dsimp only at hop
  rw [hop] at hcall
  refine ⟨authSteps (Pool.own j l), ⟨.db (.insertSession id u hash family expiresAt agent ip
    createdBy), ev.env, ev.before.auth, ev.after.auth⟩, authSteps (Pool.own j l'), ?_, ⟨u, rfl⟩, ?_⟩
  · rw [hlog, Pool.own_append, Pool.own_cons_self, authSteps_append]
    unfold authSteps
    rw [List.filterMap_cons, hop]
  · cases hcall with
    | steady hsteady => exact absurd rfl (hsteady.1 u)
    | insert id c expiresAt agent ip createdBy split fresh drewId drewFamily =>
        rcases drewId with ⟨a, ha, hdrewId⟩
        rcases drewFamily with ⟨b, hb, hdrewFamily⟩
        rw [split]
        exact ⟨⟨a, List.mem_append_right _ ha, hdrewId⟩,
          ⟨b, List.mem_append_right _ hb, hdrewFamily⟩⟩

/-- What a request draws after it has stored a session is not what it drew before. -/
theorem Draws.not_drawn_again (h : Draws s₀ log s) {drew rest before since : List Auth.Step}
    {stored : Auth.Step} (hold : authSteps (Pool.own i log) = drew ++ stored :: rest)
    (hnow : authSteps (Pool.own i log) = before ++ since) (hissues : ∃ u, stored.op.Issues u)
    (hfresh : ∀ ev ∈ since, ∀ u, ¬ ev.op.Issues u) (hn : Auth.Drew drew n) :
    ¬ Auth.Drew since n := by
  rcases hissues with ⟨u, hu⟩
  have hnot : stored ∉ since := fun hmem => hfresh stored hmem u hu
  have hearlier : ∀ a ∈ drew, a ∈ before := by
    rcases List.append_eq_append_iff.mp (hold.symm.trans hnow) with ⟨m, hm, hrest⟩ | ⟨m, hm, hrest⟩
    · intro a ha
      rw [hm]
      exact List.mem_append_left _ ha
    · cases m with
      | nil =>
          rw [List.append_nil] at hm
          rw [hm]
          exact fun _ ha => ha
      | cons x m =>
          exfalso
          apply hnot
          rw [hrest]
          simp
  rintro ⟨b, hb, hopb, hnb⟩
  rcases hn with ⟨a, ha, hopa, hna⟩
  have hordered := h.ordered i
  rw [hnow, List.pairwise_append] at hordered
  exact hordered.2.2 a (hearlier a ha) b hb hopa hopb (hna.trans hnb.symm)

/-- **Identifiers are fresh.** A session is stored under identifiers that none before it had. -/
theorem Draws.fresh (h : Draws s₀ log s) (hkept : KeptTo d log) {id family u : Uuid}
    {hash createdBy : String} {expiresAt : Timestamp} {agent ip : Option String}
    (hcall : SessionCall d (Pool.own i log)
      (.auth (.db (.insertSession id u hash family expiresAt agent ip createdBy))))
    {row : SessionRow} (hrow : Known s₀ log row) : row.id ≠ id ∧ row.tokenFamilyId ≠ family := by
  cases hcall with
  | steady hsteady => exact absurd rfl (hsteady.1 u)
  | @insert before since id c expiresAt agent ip createdBy split fresh drewId drewFamily =>
      have hnow : ∀ n, Auth.Drew since n → DrawnBy log i n := by
        rintro n ⟨a, ha, hdrew⟩
        unfold DrawnBy
        rw [split]
        exact ⟨a, List.mem_append_right _ ha, hdrew⟩
      have hne : ∀ m n, Auth.Drew since n → (m = row.id ∨ m = row.tokenFamilyId) → m ≠ n := by
        rintro m n hn hm rfl
        rcases hrow with ⟨hid, hfamily⟩ | ⟨entry, hentry, hstores⟩
        · -- older than anything drawn
          have hge := (h.drawn i m (hnow m hn)).1
          rcases hm with rfl | rfl
          · exact absurd hid (Nat.not_lt.mpr hge)
          · exact absurd hfamily (Nat.not_lt.mpr hge)
        · rcases drew_of_stores hkept hentry hstores with
            ⟨drew, stored, rest, hold, hissues, hdrewId, hdrewFamily⟩
          have hdrew : Auth.Drew drew m := by
            rcases hm with rfl | rfl
            · exact hdrewId
            · exact hdrewFamily
          have howner : entry.1 = i := by
            apply h.drawnOnce entry.1 i m _ (hnow m hn)
            rcases hdrew with ⟨a, ha, hdrew⟩
            unfold DrawnBy
            rw [hold]
            exact ⟨a, List.mem_append_left _ ha, hdrew⟩
          rw [howner] at hold
          exact h.not_drawn_again hold split hissues fresh hdrew hn
      exact ⟨hne _ _ drewId (Or.inl rfl), hne _ _ drewFamily (Or.inr rfl)⟩

end Draws

/-- The same session later on: a revoked one has not changed at all. -/
structure Goes (row row' : SessionRow) : Prop where
  same : Auth.SameSession row row'
  revoked : row.revokedAt.isSome → row' = row

/-- The table is a map, every recorded hash is that of a token of the row's own account, and
whatever a request has seen of the table still says whose a session is. -/
structure Chart (d : Deployment) (s₀ : Database) (log : List (ι × Step)) (s : Database) :
    Prop where
  draws : Draws s₀ log s
  accounted : s.auth.Accounted d.toPlatform
  ids : (s.auth.sessions.map (·.id)).Nodup
  families : (s.auth.sessions.map (·.tokenFamilyId)).Nodup
  known : ∀ row ∈ s.auth.sessions, Known s₀ log row
  past : ∀ entry ∈ log, entry.2.before.auth.Accounted d.toPlatform ∧
    ∀ row ∈ entry.2.before.auth.sessions, Known s₀ log row ∧
      ∀ row' ∈ s.auth.sessions, row'.id = row.id →
        row'.tokenFamilyId = row.tokenFamilyId ∧ row'.userId = row.userId

/-- From `s` to `s'` sessions go on, and the new ones are of families that were not known. -/
def Advances (s₀ : Database) (log : List (ι × Step)) (s s' : Database) : Prop :=
  ∀ row' ∈ s'.auth.sessions, (∃ row ∈ s.auth.sessions, Goes row row') ∨
    ∀ row, Known s₀ log row → row.tokenFamilyId ≠ row'.tokenFamilyId

section Step

variable {d : Deployment} {s₀ s s' : Database} {log : List (ι × Step)} {i : ι} {ev : Step}
  {row : SessionRow}

theorem Goes.refl (row : SessionRow) : Goes row row := ⟨.refl row, fun _ => rfl⟩

theorem Goes.trans {row' row'' : SessionRow} (h : Goes row row') (h' : Goes row' row'') :
    Goes row row'' := by
  constructor
  · exact h.same.trans h'.same
  · intro hrevoked
    have heq := h.revoked hrevoked
    subst heq
    exact h'.revoked hrevoked

theorem Goes.of_kept {row' : SessionRow} (h : row.Kept row') : Goes row row' := by
  rcases h with rfl | ⟨hnone, at', rfl⟩
  · exact .refl _
  · refine ⟨⟨rfl, rfl, rfl, fun _ => rfl⟩, ?_⟩
    rw [hnone]
    exact fun h => absurd h (by simp)

omit [DecidableEq ι] in
theorem Known.append {log' : List (ι × Step)} (h : Known s₀ log row) :
    Known s₀ (log ++ log') row := by
  rcases h with hold | ⟨entry, hentry, hstores⟩
  · exact Or.inl hold
  · exact Or.inr ⟨entry, List.mem_append_left _ hentry, hstores⟩

omit [DecidableEq ι] in
theorem Known.of_goes {row' : SessionRow} (h : Known s₀ log row) (hgoes : Goes row row') :
    Known s₀ log row' := by
  unfold Known
  rw [hgoes.same.id, hgoes.same.family]
  exact h

theorem Chart.eq_of_id (h : Chart d s₀ log s) {row row' : SessionRow}
    (hrow : row ∈ s.auth.sessions) (hrow' : row' ∈ s.auth.sessions) (hid : row.id = row'.id) :
    row = row' := List.inj_on_of_nodup_map h.ids hrow hrow' hid

/-- Sessions are changed within their identity, or go. -/
theorem Chart.carried (h : Chart d s₀ log s) (hdraws : Draws s₀ (log ++ [(i, ev)]) s')
    (hbefore : ev.before = s) (hnextId : s.auth.nextId ≤ s'.auth.nextId)
    {rows : List SessionRow} {g : SessionRow → SessionRow}
    (hrows : rows.Sublist s.auth.sessions) (hsessions : s'.auth.sessions = rows.map g)
    (hgoes : ∀ row ∈ rows, Goes row (g row))
    (hrecorded : ∀ row ∈ rows, ∃ c : RefreshClaims,
      (g row).refreshTokenHash = d.toPlatform.refreshTokenHash c ∧ c.family = row.tokenFamilyId ∧
        c.sub = row.userId) :
    Chart d s₀ (log ++ [(i, ev)]) s' ∧ Advances s₀ log s s' := by
  have hold : ∀ row' ∈ s'.auth.sessions, ∃ row ∈ rows, g row = row' ∧ row ∈ s.auth.sessions ∧
      Goes row row' := by
    intro row' hrow'
    rw [hsessions] at hrow'
    rcases List.mem_map.mp hrow' with ⟨row, hrow, rfl⟩
    exact ⟨row, hrow, rfl, hrows.subset hrow, hgoes row hrow⟩
  have hnodup : ∀ f : SessionRow → Uuid, (∀ row ∈ rows, f (g row) = f row) →
      (s.auth.sessions.map f).Nodup → (s'.auth.sessions.map f).Nodup := by
    intro f hf hnodup
    have hmap : rows.map (f ∘ g) = rows.map f := List.map_congr_left hf
    rw [hsessions, List.map_map, hmap]
    exact hnodup.sublist (hrows.map f)
  refine ⟨⟨hdraws, ?_, ?_, ?_, ?_, ?_⟩, ?_⟩
  · refine (Auth.accounted_of_rows h.accounted hnextId ?_ ?_).1
    · intro row' hrow'
      rcases hold row' hrow' with ⟨row, -, -, hmem, hgoes⟩
      exact ⟨row, hmem, hgoes.same⟩
    · intro row' hrow'
      rcases hold row' hrow' with ⟨row, hrow, rfl, -, hgoes⟩
      rcases hrecorded row hrow with ⟨c, hhash, hfamily, hsub⟩
      exact ⟨c, hhash, hfamily.trans hgoes.same.family.symm, hsub.trans hgoes.same.user.symm⟩
  · exact hnodup (·.id) (fun row hrow => (hgoes row hrow).same.id) h.ids
  · exact hnodup (·.tokenFamilyId) (fun row hrow => (hgoes row hrow).same.family) h.families
  · intro row' hrow'
    rcases hold row' hrow' with ⟨row, -, -, hmem, hgoes⟩
    exact ((h.known row hmem).of_goes hgoes).append
  · intro entry hentry
    rcases List.mem_append.mp hentry with hentry | hentry
    · have hpast := h.past entry hentry
      refine ⟨hpast.1, fun row hrow => ⟨(hpast.2 row hrow).1.append, ?_⟩⟩
      intro row' hrow' hid
      rcases hold row' hrow' with ⟨now, -, -, hmem, hgoes⟩
      rw [hgoes.same.family, hgoes.same.user]
      exact (hpast.2 row hrow).2 now hmem (hgoes.same.id.symm.trans hid)
    · rcases List.mem_singleton.mp hentry with rfl
      rw [hbefore]
      refine ⟨h.accounted, fun row hrow => ⟨(h.known row hrow).append, ?_⟩⟩
      intro row' hrow' hid
      rcases hold row' hrow' with ⟨now, -, -, hmem, hgoes⟩
      have hsame := h.eq_of_id hmem hrow (hgoes.same.id.symm.trans hid)
      subst hsame
      exact ⟨hgoes.same.family, hgoes.same.user⟩
  · intro row' hrow'
    rcases hold row' hrow' with ⟨row, -, -, hmem, hgoes⟩
    exact Or.inl ⟨row, hmem, hgoes⟩

/-- A session is added under fresh identifiers. -/
theorem Chart.added (h : Chart d s₀ log s) (hdraws : Draws s₀ (log ++ [(i, ev)]) s')
    (hbefore : ev.before = s) (hnextId : s.auth.nextId ≤ s'.auth.nextId)
    (hsessions : s'.auth.sessions = s.auth.sessions ++ [row])
    (hstores : ev.op.Stores row.id row.tokenFamilyId)
    (hdrawn : row.id < s'.auth.nextId ∧ row.tokenFamilyId < s'.auth.nextId)
    (hfresh : ∀ old, Known s₀ log old → old.id ≠ row.id ∧ old.tokenFamilyId ≠ row.tokenFamilyId)
    (hrecorded : ∃ c : RefreshClaims, row.refreshTokenHash = d.toPlatform.refreshTokenHash c ∧
      c.family = row.tokenFamilyId ∧ c.sub = row.userId) :
    Chart d s₀ (log ++ [(i, ev)]) s' ∧ Advances s₀ log s s' := by
  have hmem : ∀ row' ∈ s'.auth.sessions, row' ∈ s.auth.sessions ∨ row' = row := by
    intro row' hrow'
    rw [hsessions] at hrow'
    simpa using hrow'
  have hne : ∀ old ∈ s.auth.sessions, old.id ≠ row.id ∧ old.tokenFamilyId ≠ row.tokenFamilyId :=
    fun old hold => hfresh old (h.known old hold)
  have hnodup : ∀ f : SessionRow → Uuid, (∀ old ∈ s.auth.sessions, f old ≠ f row) →
      (s.auth.sessions.map f).Nodup → (s'.auth.sessions.map f).Nodup := by
    intro f hf hnodup
    rw [hsessions, List.map_append, List.nodup_append]
    refine ⟨hnodup, by simp, ?_⟩
    intro a ha b hb
    rcases List.mem_map.mp ha with ⟨old, hold, rfl⟩
    rcases List.mem_singleton.mp hb with rfl
    exact hf old hold
  refine ⟨⟨hdraws, ⟨?_, ?_, ?_, ?_⟩, ?_, ?_, ?_, ?_⟩, ?_⟩
  · intro row' hrow'
    rcases hmem row' hrow' with hold | rfl
    · have hlt := h.accounted.drawn row' hold
      exact ⟨hlt.1.trans_le hnextId, hlt.2.trans_le hnextId⟩
    · exact hdrawn
  · intro a ha b hb hid
    rcases hmem a ha with ha | rfl
    · rcases hmem b hb with hb | rfl
      · exact h.accounted.families a ha b hb hid
      · exact absurd hid (hne a ha).1
    · rcases hmem b hb with hb | rfl
      · exact absurd hid.symm (hne b hb).1
      · rfl
  · intro a ha b hb hfamily
    rcases hmem a ha with ha | rfl
    · rcases hmem b hb with hb | rfl
      · exact h.accounted.owners a ha b hb hfamily
      · exact absurd hfamily (hne a ha).2
    · rcases hmem b hb with hb | rfl
      · exact absurd hfamily.symm (hne b hb).2
      · rfl
  · intro row' hrow'
    rcases hmem row' hrow' with hold | rfl
    · exact h.accounted.recorded row' hold
    · exact hrecorded
  · exact hnodup (·.id) (fun old hold => (hne old hold).1) h.ids
  · exact hnodup (·.tokenFamilyId) (fun old hold => (hne old hold).2) h.families
  · intro row' hrow'
    rcases hmem row' hrow' with hold | rfl
    · exact (h.known row' hold).append
    · exact Or.inr ⟨(i, ev), List.mem_append_right _ (List.mem_singleton_self _), hstores⟩
  · intro entry hentry
    rcases List.mem_append.mp hentry with hentry | hentry
    · have hpast := h.past entry hentry
      refine ⟨hpast.1, fun old hold => ⟨(hpast.2 old hold).1.append, ?_⟩⟩
      intro row' hrow' hid
      rcases hmem row' hrow' with hmem' | rfl
      · exact (hpast.2 old hold).2 row' hmem' hid
      · exact absurd hid.symm (hfresh old (hpast.2 old hold).1).1
    · rcases List.mem_singleton.mp hentry with rfl
      rw [hbefore]
      refine ⟨h.accounted, fun old hold => ⟨(h.known old hold).append, ?_⟩⟩
      intro row' hrow' hid
      rcases hmem row' hrow' with hmem' | rfl
      · rw [h.eq_of_id hmem' hold hid]
        exact ⟨rfl, rfl⟩
      · exact absurd hid.symm (hne old hold).1
  · intro row' hrow'
    rcases hmem row' hrow' with hold | rfl
    · exact Or.inl ⟨row', hold, .refl row'⟩
    · exact Or.inr fun old hold => (hfresh old hold).2

/-- An operation that stores and renews no session. -/
theorem exec_carries {op : Op} (hop : op.Steady) (e : Env) (s : Database) :
    ∃ (rows : List SessionRow) (g : SessionRow → SessionRow), rows.Sublist s.auth.sessions ∧
      (exec d op e s).1.auth.sessions = rows.map g ∧ ∀ row : SessionRow, row.Kept (g row) := by
  have hsame : ∀ row : SessionRow, row.Kept (id row) := fun _ => Or.inl rfl
  cases op with
  | auth c => exact Auth.steady_sessions hop e s.auth
  | db q =>
      apply exec_db_store (I := fun s' => ∃ (rows : List SessionRow) (g : SessionRow → SessionRow),
        rows.Sublist s.auth.sessions ∧ s'.auth.sessions = rows.map g ∧
          ∀ row : SessionRow, row.Kept (g row))
      · exact ⟨s.auth.sessions, id, List.Sublist.refl _, (List.map_id _).symm, hsame⟩
      · intro _ _
        cases q with
        | revokeAllSessionsForUser userId =>
            refine ⟨s.auth.sessions, _, List.Sublist.refl _, rfl, fun row => ?_⟩
            split_ifs with hcond
            · rw [Bool.and_eq_true, Option.isNone_iff_eq_none] at hcond
              exact Or.inr ⟨hcond.2, _, rfl⟩
            · exact hsame row
        | recordReviewDecision entry =>
            have hrecord := record_same (f := fun s => s.auth.sessions) (fun _ _ _ => rfl) s
              (d.now e.now) entry
            exact ⟨s.auth.sessions, id, List.Sublist.refl _, hrecord.trans (List.map_id _).symm,
              hsame⟩
        | _ => exact ⟨s.auth.sessions, id, List.Sublist.refl _, (List.map_id _).symm, hsame⟩
  | _ => exact ⟨s.auth.sessions, id, List.Sublist.refl _, (List.map_id _).symm, hsame⟩

/-- **One operation of one of the requests.** -/
theorem Chart.step (hinj : Function.Injective d.toPlatform.refreshTokenHash)
    (h : Chart d s₀ log s) (hkept : KeptTo d log) {op : Op}
    (hcall : SessionCall d (Pool.own i log) op) (e : Env) :
    let s' := (exec d op e s).1
    Chart d s₀ (log ++ [(i, ⟨op, e, s, s'⟩)]) s' ∧ Advances s₀ log s s' := by
  intro s'
  have hdraws := h.draws.step (d := d) i op e
  have hnextId : s.auth.nextId ≤ s'.auth.nextId := exec_nextId_le op e s
  have hsame : s'.auth.sessions = s.auth.sessions →
      Chart d s₀ (log ++ [(i, ⟨op, e, s, s'⟩)]) s' ∧ Advances s₀ log s s' := fun hsame =>
    h.carried hdraws rfl hnextId (List.Sublist.refl _) (hsame.trans (List.map_id _).symm)
      (fun row _ => .refl row) fun row hrow => h.accounted.recorded row hrow
  by_cases hsteady : op.Steady
  · rcases exec_carries (d := d) hsteady e s with ⟨rows, g, hrows, hsessions, hg⟩
    refine h.carried hdraws rfl hnextId hrows hsessions (fun row _ => .of_kept (hg row)) ?_
    intro row hrow
    rcases h.accounted.recorded row (hrows.subset hrow) with ⟨c, hhash, hrest⟩
    refine ⟨c, ?_, hrest⟩
    rcases hg row with heq | ⟨-, at', heq⟩
    · rw [heq, hhash]
    · rw [heq, ← hhash]
  · cases op with
    | auth c =>
        cases hf : e.fails with
        | true =>
            apply hsame
            cases c with
            | db q =>
                have hexec := Auth.exec_db_of_fails (p := d.toPlatform) s.auth (q := q) hf
                exact congrArg (fun r => r.1.sessions) hexec
            | _ => exact absurd ⟨fun _ h => h, fun h => h⟩ hsteady
        | false =>
            have hcall' : Auth.SessionCall d.toPlatform (authSteps (Pool.own i log)) c := hcall
            cases hcall with
            | steady hop => exact absurd hop hsteady
            | @insert before since id c expiresAt agent ip createdBy split fresh drewId
                drewFamily =>
                have hstores : SessionCall d (Pool.own i log) (.auth (.db (.insertSession id c.sub
                    (d.toPlatform.refreshTokenHash c) c.family expiresAt agent ip createdBy))) :=
                  .insert id c expiresAt agent ip createdBy split fresh drewId drewFamily
                have hdrawn : ∀ n, Auth.Drew since n → n < s'.auth.nextId := by
                  rintro n ⟨a, ha, hdrew⟩
                  refine (h.draws.drawn i n ⟨a, ?_, hdrew⟩).2.trans_le hnextId
                  rw [split]
                  exact List.mem_append_right _ ha
                have hexec := Auth.exec_db_of_succeeds (p := d.toPlatform) s.auth
                  (q := .insertSession id c.sub (d.toPlatform.refreshTokenHash c) c.family expiresAt
                    agent ip createdBy) hf
                have hsessions : s'.auth.sessions = s.auth.sessions ++
                    [⟨id, c.sub, d.toPlatform.refreshTokenHash c, c.family,
                      d.toPlatform.now e.now, d.toPlatform.sessionExpiry expiresAt,
                      d.toPlatform.now e.now, none, agent, ip, 0, some createdBy⟩] :=
                  congrArg (fun r => r.1.sessions) hexec
                exact h.added hdraws rfl hnextId hsessions ⟨_, _, _, _, _, _, rfl⟩
                  ⟨hdrawn id drewId, hdrawn _ drewFamily⟩
                  (fun old hold => h.draws.fresh hkept hstores hold) ⟨c, rfl, rfl, rfl⟩
            | @rotate ev c c' session expiresAt seen found recorded family sub =>
                have howner : ∀ row ∈ s.auth.sessions, row.id = session.id →
                    row.tokenFamilyId = c.family ∧ row.userId = c.sub := by
                  rcases mem_authSteps.mp seen with ⟨ev', hev', c₁, -, rfl⟩
                  have hpast := h.past (i, ev') (Pool.mem_own.mp hev')
                  rcases Auth.mem_of_session found with ⟨hmem, hfamily⟩
                  rcases hpast.1.recorded session hmem with ⟨c₀, hhash, -, hsub⟩
                  have hc₀ : c = c₀ := hinj (recorded.symm.trans hhash)
                  intro row hrow hid
                  have hsame := (hpast.2 session hmem).2 row hrow hid
                  rw [hsame.1, hsame.2, hfamily, ← hsub, hc₀]
                  exact ⟨rfl, rfl⟩
                have hexec := Auth.exec_db_of_succeeds (p := d.toPlatform) s.auth
                  (q := .rotateSession session.id (d.toPlatform.refreshTokenHash c') expiresAt) hf
                refine h.carried hdraws rfl hnextId (List.Sublist.refl _)
                  (congrArg (fun r => r.1.sessions) hexec) ?_ ?_
                · intro row hrow
                  split_ifs with hcond
                  · rw [Bool.and_eq_true, Option.isNone_iff_eq_none] at hcond
                    refine ⟨⟨rfl, rfl, rfl, fun h => h⟩, ?_⟩
                    rw [hcond.2]
                    exact fun h => absurd h (by simp)
                  · exact .refl row
                · intro row hrow
                  split_ifs with hcond
                  · rw [Bool.and_eq_true, beq_iff_eq] at hcond
                    have hrow' := howner row hrow hcond.1
                    exact ⟨c', rfl, family.trans hrow'.1.symm, sub.trans hrow'.2.symm⟩
                  · exact h.accounted.recorded row hrow
    | _ => exact absurd trivial hsteady

end Step

/-! ## Every interleaving -/

/-- The requests at work on one database. -/
def contention (d : Deployment) (requests : ι → Request) (s : Database) :
    Pool ι Op Op.Res (Option Reply) Database :=
  ⟨fun i => handle d (requests i), s⟩

section Contention

variable {d : Deployment} {requests : ι → Request} {s₀ : Database}

theorem contention_keeps (s₀ : Database) (hcontends : ∀ i, (requests i).Contends)
    (schedule : List (ι × Env)) :
    (∀ i, (((contention d requests s₀).after (exec d) schedule).threads i).Guarantees (exec d)
      (SessionCall d) (fun _ _ => True)
        (Pool.own i ((contention d requests s₀).log (exec d) schedule))) ∧
      KeptTo d ((contention d requests s₀).log (exec d) schedule) :=
  Pool.guarantees (J := fun _ => SessionCall d) (Q := fun _ _ _ => True)
    (fun i => handle_sessionCalls (hcontends i)) schedule

theorem chart_nil (hs₀ : s₀.auth.Sound d.toPlatform) :
    Chart d s₀ ([] : List (ι × Step)) s₀ := by
  refine ⟨⟨Nat.le_refl _, ?_, ?_, ?_⟩, hs₀.accounted, hs₀.wellFormed.ids, hs₀.wellFormed.families,
    fun row hrow => Or.inl (hs₀.accounted.drawn row hrow), ?_⟩
  · rintro i n ⟨ev, hev, -⟩
    cases hev
  · rintro i j n ⟨ev, hev, -⟩
    cases hev
  · exact fun i => List.Pairwise.nil
  · intro entry hentry
    cases hentry

/-- The table is as it should be at any moment. -/
theorem contention_chart (hinj : Function.Injective d.toPlatform.refreshTokenHash)
    (hcontends : ∀ i, (requests i).Contends) (hs₀ : s₀.auth.Sound d.toPlatform)
    (schedule : List (ι × Env)) :
    Chart d s₀ ((contention d requests s₀).log (exec d) schedule)
      ((contention d requests s₀).after (exec d) schedule).store := by
  refine Pool.induction (P := fun log c => Chart d s₀ log c.store) (chart_nil hs₀) ?_ schedule
  intro schedule i e op next hthread ih
  have hkeeps := contention_keeps (d := d) s₀ hcontends schedule
  have hcall := hkeeps.1 i
  rw [hthread] at hcall
  exact (ih.step hinj hkeeps.2 hcall.1 e).1

/-- Between two moments sessions go on, and the new ones are of new families. -/
theorem contention_advances (hinj : Function.Injective d.toPlatform.refreshTokenHash)
    (hcontends : ∀ i, (requests i).Contends) (hs₀ : s₀.auth.Sound d.toPlatform)
    (before later : List (ι × Env)) :
    Advances s₀ ((contention d requests s₀).log (exec d) before)
      ((contention d requests s₀).after (exec d) before).store
      ((contention d requests s₀).after (exec d) (before ++ later)).store := by
  induction later using List.reverseRecOn with
  | nil =>
      rw [List.append_nil]
      exact fun row hrow => Or.inl ⟨row, hrow, .refl row⟩
  | append_singleton later turn ih =>
      rcases turn with ⟨i, e⟩
      rw [← List.append_assoc, Pool.after_append]
      show Advances s₀ _ _ (Pool.step (exec d) _ i e).store
      unfold Pool.step
      cases hthread : ((contention d requests s₀).after (exec d) (before ++ later)).threads i with
      | done reply => exact ih
      | call op next =>
          have hkeeps := contention_keeps (d := d) s₀ hcontends (before ++ later)
          have hcall := hkeeps.1 i
          rw [hthread] at hcall
          have hchart := contention_chart hinj hcontends hs₀ (before ++ later)
          have hstep := (hchart.step hinj hkeeps.2 hcall.1 e).2
          rw [Pool.log_append] at hstep
          intro row'' hrow''
          rcases hstep row'' hrow'' with ⟨row', hrow', hgoes'⟩ | hnew
          · rcases ih row' hrow' with ⟨row, hrow, hgoes⟩ | hnew
            · exact Or.inl ⟨row, hrow, hgoes.trans hgoes'⟩
            · refine Or.inr fun row hknown => ?_
              rw [hgoes'.same.family]
              exact hnew row hknown
          · exact Or.inr fun row hknown => hnew row hknown.append

/-- What the table of sessions is at a moment, and what has become of it at a later one. -/
structure Intact (d : Deployment) (s s' : Database) : Prop where
  /-- Identifiers and families are unique, -/
  ids : (s'.auth.sessions.map (·.id)).Nodup
  families : (s'.auth.sessions.map (·.tokenFamilyId)).Nodup
  /-- every recorded hash is that of a token of the session's own family and account, -/
  recorded : ∀ row ∈ s'.auth.sessions, ∃ c : RefreshClaims,
    row.refreshTokenHash = d.toPlatform.refreshTokenHash c ∧ c.family = row.tokenFamilyId ∧
      c.sub = row.userId
  /-- a session never changes hands, -/
  owners : ∀ row ∈ s.auth.sessions, ∀ row' ∈ s'.auth.sessions,
    row'.tokenFamilyId = row.tokenFamilyId → row'.id = row.id ∧ row'.userId = row.userId
  /-- and a revoked one is never changed again. -/
  revoked : ∀ row ∈ s.auth.sessions, row.revokedAt.isSome → ∀ row' ∈ s'.auth.sessions,
    row'.tokenFamilyId = row.tokenFamilyId → row' = row

/-- **The table stays a map under any overlap.** Whatever logins, refreshes and revocations do
between each other's statements, and whichever statements fail. -/
theorem contention_intact (hinj : Function.Injective d.toPlatform.refreshTokenHash)
    (hcontends : ∀ i, (requests i).Contends) (hs₀ : s₀.auth.Sound d.toPlatform)
    (before later : List (ι × Env)) :
    Intact d ((contention d requests s₀).after (exec d) before).store
      ((contention d requests s₀).after (exec d) (before ++ later)).store := by
  have hchart := contention_chart hinj hcontends hs₀ before
  have hchart' := contention_chart hinj hcontends hs₀ (before ++ later)
  have hadvances := contention_advances hinj hcontends hs₀ before later
  have hgoes : ∀ row ∈ ((contention d requests s₀).after (exec d) before).store.auth.sessions,
      ∀ row' ∈ ((contention d requests s₀).after (exec d) (before ++ later)).store.auth.sessions,
        row'.tokenFamilyId = row.tokenFamilyId → Goes row row' := by
    intro row hrow row' hrow' hfamily
    rcases hadvances row' hrow' with ⟨old, hold, hgoes⟩ | hnew
    · have hsame : old = row := List.inj_on_of_nodup_map hchart.families hold hrow
        (hgoes.same.family.symm.trans hfamily)
      subst hsame
      exact hgoes
    · exact absurd hfamily.symm (hnew row (hchart.known row hrow))
  constructor
  · exact hchart'.ids
  · exact hchart'.families
  · exact hchart'.accounted.recorded
  · intro row hrow row' hrow' hfamily
    have hsame := (hgoes row hrow row' hrow' hfamily).same
    exact ⟨hsame.id, hsame.user⟩
  · exact fun row hrow hrevoked row' hrow' hfamily =>
      (hgoes row hrow row' hrow' hfamily).revoked hrevoked

/-! ## The barrier -/

/-- The statement that revokes all sessions of the account. -/
def Op.RevokesAll (u : Uuid) : Op → Prop
  | .auth (.db (.revokeAllSessionsForUser userId)) => userId = u
  | .db (.revokeAllSessionsForUser key) => key.isId u = true
  | _ => False

/-- What has become of the sessions of `u` when those in `s` have been revoked and the
operations `log` have been performed since. -/
structure Barrier (d : Deployment) (u : Uuid) (s s' : Database) (log : List (ι × Step)) : Prop where
  /-- No token of their families is ever renewed, one handed out meanwhile included. -/
  refused : ∀ row ∈ s.auth.sessions, row.userId = u → ∀ c : RefreshClaims,
    c.family = row.tokenFamilyId → Refuses d s' c
  /-- A session in use has been stored since. -/
  later : ∀ row ∈ s'.auth.sessions, row.userId = u → row.revokedAt = none →
    ∃ entry ∈ log, entry.2.op.Stores row.id row.tokenFamilyId

theorem exec_revokesAll {u : Uuid} {op : Op} (hop : op.RevokesAll u) {e : Env}
    (hok : e.fails = false) (s : Database) :
    (exec d op e s).1.auth.sessions = s.auth.sessions.map fun row =>
      if row.userId = u ∧ row.revokedAt.isNone then
        { row with revokedAt := some (d.toPlatform.now e.now) }
      else row := by
  unfold Op.RevokesAll at hop
  split at hop
  next userId =>
    subst hop
    have hexec := Auth.exec_db_of_succeeds (p := d.toPlatform) s.auth
      (q := .revokeAllSessionsForUser userId) hok
    refine (congrArg (fun r => r.1.sessions) hexec).trans (List.map_congr_left fun row _ => ?_)
    simp
  next key =>
    rw [exec_db_of_succeeds hok rfl]
    refine List.map_congr_left fun row _ => ?_
    have hkey : key.isId row.userId = true ↔ row.userId = u := by
      constructor
      · exact fun h => Auth.Key.isId_inj h hop
      · rintro rfl
        exact hop
    simp [hkey]
  · exact hop.elim

/-- **Revocation is final.** Once a statement has revoked the sessions of an account, whichever
requests are under way, no session that was there is ever renewed again; one that is in use
later has been stored later. -/
theorem revocation_barrier (hinj : Function.Injective d.toPlatform.refreshTokenHash)
    (hcontends : ∀ i, (requests i).Contends) (hs₀ : s₀.auth.Sound d.toPlatform)
    {before : List (ι × Env)} {i : ι} {op : Op} {next : op.Res → Handler (Option Reply)} {u : Uuid}
    (hthread : ((contention d requests s₀).after (exec d) before).threads i = .call op next)
    (hop : op.RevokesAll u) {e : Env} (hok : e.fails = false) (later : List (ι × Env)) :
    Barrier d u ((contention d requests s₀).after (exec d) before).store
      ((contention d requests s₀).after (exec d) (before ++ (i, e) :: later)).store
      (((contention d requests s₀).after (exec d) (before ++ [(i, e)])).log (exec d) later) := by
  have hschedule : before ++ (i, e) :: later = (before ++ [(i, e)]) ++ later := by simp
  rw [hschedule]
  have hchart := contention_chart hinj hcontends hs₀ before
  have hchart' := contention_chart hinj hcontends hs₀ ((before ++ [(i, e)]) ++ later)
  have hintact := contention_intact hinj hcontends hs₀ (before ++ [(i, e)]) later
  have hadvances := contention_advances hinj hcontends hs₀ (before ++ [(i, e)]) later
  have hstep : ((contention d requests s₀).after (exec d) (before ++ [(i, e)])).store =
      (exec d op e ((contention d requests s₀).after (exec d) before).store).1 := by
    rw [Pool.after_append]
    show (Pool.step (exec d) _ i e).store = _
    unfold Pool.step
    rw [hthread]
  have hrevoked := exec_revokesAll (d := d) hop hok
    ((contention d requests s₀).after (exec d) before).store
  rw [← hstep] at hrevoked
  have hnextId : ((contention d requests s₀).after (exec d) before).store.auth.nextId ≤
      ((contention d requests s₀).after (exec d)
        ((before ++ [(i, e)]) ++ later)).store.auth.nextId := by
    have hexecutes :
        Executes (exec d) ((contention d requests s₀).after (exec d) before).store _ _ :=
      Pool.executes ([(i, e)] ++ later)
    rw [List.append_assoc, Pool.after_append]
    exact hexecutes.rel (T := fun s s' => s.auth.nextId ≤ s'.auth.nextId) (fun _ => Nat.le_refl _)
      Nat.le_trans fun ev _ hafter => by
        rw [hafter]
        exact exec_nextId_le ev.op ev.env ev.before
  constructor
  · intro row hrow huser c hfamily
    apply refuses_of_ended
    rw [hfamily]
    refine ⟨(hchart.accounted.drawn row hrow).2.trans_le hnextId, fun row' hrow' hfamily' => ?_⟩
    -- the row as the statement has left it
    have hleft : ∃ left ∈ ((contention d requests s₀).after (exec d)
        (before ++ [(i, e)])).store.auth.sessions,
        left.tokenFamilyId = row.tokenFamilyId ∧ left.revokedAt.isSome := by
      rw [hrevoked]
      refine ⟨_, List.mem_map_of_mem hrow, ?_⟩
      split_ifs with hcond
      · exact ⟨rfl, rfl⟩
      · refine ⟨rfl, ?_⟩
        simpa [huser, Option.isSome_iff_ne_none] using hcond
    rcases hleft with ⟨left, hleft, hsame, hsome⟩
    rw [hintact.revoked left hleft hsome row' hrow' (hfamily'.trans hsame.symm)]
    exact hsome
  · intro row' hrow' huser hlive
    rcases hadvances row' hrow' with ⟨left, hleft, hgoes⟩ | hnew
    · exfalso
      rw [hrevoked] at hleft
      rcases List.mem_map.mp hleft with ⟨row, hrow, heq⟩
      have hsome : left.revokedAt.isSome := by
        have huser' : left.userId = u := hgoes.same.user.symm.trans huser
        rw [← heq] at huser' ⊢
        split_ifs at huser' ⊢ with hcond
        · rfl
        · simpa [huser', Option.isSome_iff_ne_none] using hcond
      rw [hgoes.revoked hsome] at hlive
      rw [hlive] at hsome
      cases hsome
    · have hknown := hchart'.known row' hrow'
      rw [Pool.log_append] at hknown
      rcases hknown with hold | ⟨entry, hentry, hstores⟩
      · exact absurd rfl (hnew row' (Or.inl hold))
      · rcases List.mem_append.mp hentry with hentry | hentry
        · exact absurd rfl (hnew row' (Or.inr ⟨entry, hentry, hstores⟩))
        · exact ⟨entry, hentry, hstores⟩

end Contention

end Chart

/-! ## A sample -/

/-- The database after `Auth.sampleLogin`. -/
def sampleSignedIn : Database :=
  { sampleDatabase with
    auth := Auth.stateAfter (Auth.samplePlatform .sqlite) sampleDatabase.auth [Auth.sampleLogin] }

theorem sampleSignedIn_sound : sampleSignedIn.auth.Sound (sampleDeployment .sqlite).toPlatform :=
  ((Auth.sound_of_no_sessions rfl).stateAfter (Auth.samplePlatform_injective .sqlite)
    [Auth.sampleLogin]).1

/-- The session is refreshed while its owner signs out everywhere. -/
def sampleOverlap : Bool → Request
  | true => .auth (.logoutAll (sampleBearer Auth.sampleUser))
  | false => .auth (Auth.sampleRefresh (Timestamp.seconds 1111111111)).request

theorem sampleOverlap_contends : ∀ i, (sampleOverlap i).Contends := by
  intro i
  cases i
  · trivial
  · trivial

/-- One turn of a request. -/
def sampleTurn (i : Bool) : Bool × Env := (i, ⟨sampleNow, sampleNow, 0, false⟩)

theorem contention_intact_sample :
    Intact (sampleDeployment .sqlite)
      ((contention (sampleDeployment .sqlite) sampleOverlap sampleSignedIn).after
        (exec (sampleDeployment .sqlite)) [sampleTurn false, sampleTurn true]).store
      ((contention (sampleDeployment .sqlite) sampleOverlap sampleSignedIn).after
        (exec (sampleDeployment .sqlite)) ([sampleTurn false, sampleTurn true] ++
          [sampleTurn true, sampleTurn false])).store :=
  @contention_intact Bool _ (sampleDeployment .sqlite) sampleOverlap sampleSignedIn
    (Auth.samplePlatform_injective .sqlite) sampleOverlap_contends sampleSignedIn_sound
    [sampleTurn false, sampleTurn true] [sampleTurn true, sampleTurn false]

/-- The refresh has found the session when it is revoked. -/
theorem revocation_barrier_sample :
    Barrier (sampleDeployment .sqlite) 1
      ((contention (sampleDeployment .sqlite) sampleOverlap sampleSignedIn).after
        (exec (sampleDeployment .sqlite))
          [sampleTurn false, sampleTurn false, sampleTurn true]).store
      ((contention (sampleDeployment .sqlite) sampleOverlap sampleSignedIn).after
        (exec (sampleDeployment .sqlite)) ([sampleTurn false, sampleTurn false, sampleTurn true] ++
          sampleTurn true :: [sampleTurn false])).store
      (((contention (sampleDeployment .sqlite) sampleOverlap sampleSignedIn).after
        (exec (sampleDeployment .sqlite)) ([sampleTurn false, sampleTurn false, sampleTurn true] ++
          [sampleTurn true])).log (exec (sampleDeployment .sqlite)) [sampleTurn false]) :=
  @revocation_barrier Bool _ (sampleDeployment .sqlite) sampleOverlap sampleSignedIn
    (Auth.samplePlatform_injective .sqlite) sampleOverlap_contends sampleSignedIn_sound
    [sampleTurn false, sampleTurn false, sampleTurn true] true
    (.auth (.db (.revokeAllSessionsForUser 1))) _ 1 rfl rfl ⟨sampleNow, sampleNow, 0, false⟩ rfl
    [sampleTurn false]

end AnatoliaBis.App
