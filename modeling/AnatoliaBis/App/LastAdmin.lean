import AnatoliaBis.App.AccountRows

/-! # The last administrator

Seven routes can take an administrator away: four decisions on registrations, which
look at nothing, and three routes behind a count of the administrators. Any number of
requests, their statements interleaved: what keeps an administrator in place.
-/

namespace AnatoliaBis.App

open Atomic Program
open Auth (Env Headers Key)

/-! ## Administrators -/

/-- An approved `SYSTEM_ADMIN`, neither banned nor deleted. -/
def isActiveAdmin (row : Auth.UserRow) : Bool := countsAsAdmin row && row.isApproved

/-- The account is one of an active administrator. -/
def Database.ActiveAdmin (s : Database) (u : Uuid) : Prop :=
  ∃ row ∈ s.auth.users, row.id = u ∧ isActiveAdmin row = true

/-- `id` is the primary key of `users`. -/
def Database.Keyed (s : Database) : Prop := (s.auth.users.map (·.id)).Nodup

instance (s : Database) (u : Uuid) : Decidable (s.ActiveAdmin u) :=
  inferInstanceAs (Decidable (∃ row ∈ s.auth.users, row.id = u ∧ isActiveAdmin row = true))

instance (s : Database) : Decidable s.Keyed :=
  inferInstanceAs (Decidable (s.auth.users.map (·.id)).Nodup)

/-- The statement would leave the account no active administrator. -/
def Op.unseats (u : Uuid) : Op → Bool
  | .db (.updateUserFlags key isApproved isBanned _ role) =>
      key.isId u && !(isApproved && !isBanned && role == Role.systemAdmin)
  | .db (.deleteUser key) | .db (.softDeleteUser key) => key.isId u
  | _ => false

/-- The statement of the guard. -/
def Op.counts : Op → Bool
  | .db .countActiveSystemAdmins => true
  | _ => false

/-! ## What a statement does to the table -/

section Table

variable {d : Deployment} {s : Database} {op : Op} {e : Env} {key : Key} {u v : Uuid}

theorem unseats_moderated (h : op.unseats u = true) :
    ∃ key, op.moderated = some key ∧ key.isId u = true := by
  unfold Op.unseats at h
  split at h
  · exact ⟨_, rfl, (Bool.and_eq_true_iff.mp h).1⟩
  · exact ⟨_, rfl, h⟩
  · exact ⟨_, rfl, h⟩
  · cases h

/-- One statement unseats one account at most. -/
theorem unseats_unique (hu : op.unseats u = true) (hv : op.unseats v = true) : u = v := by
  rcases unseats_moderated hu with ⟨key, hkey, hid⟩
  rcases unseats_moderated hv with ⟨key', hkey', hid'⟩
  rw [hkey, Option.some.injEq] at hkey'
  subst hkey'
  exact isId_unique hid hid'

/-- Updating rows by id keeps the key. -/
theorem keyed_updateUser {f : Auth.UserRow → Auth.UserRow} {g : UserDetails → UserDetails}
    (hf : ∀ row, (f row).id = row.id) (hs : s.Keyed) : (s.updateUser key f g).Keyed := by
  have hids : (s.updateUser key f g).auth.users.map (·.id) = s.auth.users.map (·.id) := by
    unfold Database.updateUser
    dsimp only
    rw [List.map_map]
    refine List.map_congr_left fun row _ => ?_
    dsimp only [Function.comp_apply]
    split_ifs
    · exact hf row
    · rfl
  unfold Database.Keyed
  rw [hids]
  exact hs

theorem keyed_exec (hop : op.WritesAccounts → op.moderated.isSome) (hs : s.Keyed) :
    (exec d op e s).1.Keyed := by
  by_cases hw : op.WritesAccounts
  · cases op with
    | db q =>
        have hmoderated := hop hw
        cases hf : e.fails with
        | true =>
            rw [exec_db_of_fails hf]
            exact hs
        | false =>
            cases q with
            | updateUserFlags key isApproved isBanned banReason role =>
                rw [exec_db_of_succeeds hf rfl]
                exact keyed_updateUser (fun _ => rfl) hs
            | softDeleteUser key =>
                rw [exec_db_of_succeeds hf rfl]
                refine keyed_updateUser (fun row => ?_) hs
                split_ifs <;> rfl
            | deleteUser key =>
                rw [exec_db_of_succeeds hf rfl]
                exact hs.sublist (List.filter_sublist.map _)
            | _ => cases hmoderated
    | _ => exact hw.elim
  · unfold Database.Keyed
    rw [(accounts_exec hw e s).1]
    exact hs

/-- An administrator whom the statement does not unseat stays one. -/
theorem activeAdmin_exec (hop : op.WritesAccounts → op.moderated.isSome)
    (hunseats : e.fails = false → op.unseats u = false) (hs : s.ActiveAdmin u) :
    (exec d op e s).1.ActiveAdmin u := by
  rcases hs with ⟨row, hrow, rfl, hactive⟩
  by_cases hw : op.WritesAccounts
  · cases op with
    | db q =>
        have hmoderated := hop hw
        cases hf : e.fails with
        | true =>
            rw [exec_db_of_fails hf]
            exact ⟨row, hrow, rfl, hactive⟩
        | false =>
            cases q with
            | updateUserFlags key isApproved isBanned banReason role =>
                rw [exec_db_of_succeeds hf rfl]
                refine ⟨_, List.mem_map_of_mem hrow, ?_⟩
                by_cases hkey : key.isId row.id = true
                · -- it is written, but as an administrator
                  have hkept := hunseats hf
                  simp only [Op.unseats, hkey, Bool.true_and, Bool.not_eq_false',
                    Bool.and_eq_true, Bool.not_eq_true', beq_iff_eq] at hkept
                  rcases hkept with ⟨⟨rfl, rfl⟩, rfl⟩
                  rw [if_pos hkey]
                  unfold isActiveAdmin countsAsAdmin at hactive ⊢
                  simp only [Bool.and_eq_true] at hactive
                  simp [hactive.1.2]
                · rw [if_neg hkey]
                  exact ⟨rfl, hactive⟩
            | softDeleteUser key =>
                rw [exec_db_of_succeeds hf rfl]
                refine ⟨_, List.mem_map_of_mem hrow, ?_⟩
                rw [if_neg (Bool.not_eq_true _ ▸ hunseats hf)]
                exact ⟨rfl, hactive⟩
            | deleteUser key =>
                rw [exec_db_of_succeeds hf rfl]
                refine ⟨row, List.mem_filter.mpr ⟨hrow, ?_⟩, rfl, hactive⟩
                rw [show key.isId row.id = false from hunseats hf]
                rfl
            | _ => cases hmoderated
    | _ => exact hw.elim
  · refine ⟨row, ?_, rfl, hactive⟩
    rw [(accounts_exec hw e s).1]
    exact hrow

/-- Of several rows that are counted, one is not that of `u`. -/
theorem exists_counted_ne (hs : s.Keyed) (u : Uuid)
    (hcount : 1 < (s.auth.users.filter countsAsAdmin).length) :
    ∃ row ∈ s.auth.users, countsAsAdmin row = true ∧ row.id ≠ u := by
  have hids : ((s.auth.users.filter countsAsAdmin).map (·.id)).Nodup :=
    hs.sublist (List.filter_sublist.map _)
  have hmem : ∀ row ∈ s.auth.users.filter countsAsAdmin,
      row ∈ s.auth.users ∧ countsAsAdmin row = true := fun row h => List.mem_filter.mp h
  generalize s.auth.users.filter countsAsAdmin = counted at hcount hids hmem
  match counted with
  | [] => simp at hcount
  | [_] => simp at hcount
  | row :: row' :: rest =>
      by_cases hid : row.id = u
      · refine ⟨row', (hmem row' (by simp)).1, (hmem row' (by simp)).2, fun hid' => ?_⟩
        simp [hid, hid'] at hids
      · exact ⟨row, (hmem row (by simp)).1, (hmem row (by simp)).2, hid⟩

end Table

/-! ## What the seven routes do -/

/-- The decisions and the moderation of accounts. -/
def Request.Moderates : Request → Prop
  | .approveUser .. | .rejectUser .. | .quickApprove .. | .quickReject .. | .banUser ..
  | .deleteUser .. | .changeRole .. => True
  | _ => False

/-- The routes behind the guard. -/
def Request.guarded : Request → Bool
  | .banUser .. | .deleteUser .. | .changeRole .. => true
  | _ => false

/-- Every count that went through found more than one. -/
def Passed (h : List Step) : Prop :=
  ∀ c ∈ h, c.op.counts = true → c.env.fails = false →
    1 < (c.before.auth.users.filter countsAsAdmin).length

/-- A write of one of the seven routes: a statement of moderation, and behind the
guard only once every count is passed. -/
structure ModerationStep (guarded : Bool) (h : List Step) (op : Op) : Prop where
  moderates : op.WritesAccounts → op.moderated.isSome
  passed : guarded = true → op.WritesAccounts → Passed h

section Routes

variable {d : Deployment} {guarded : Bool} {headers : Headers} {id : String} {α : Type}
  {h : List Step} {R : α → Prop}

theorem passed_append {evs : List Step} (hh : Passed h)
    (hevs : ∀ ev ∈ evs, ev.op.counts = false) : Passed (h ++ evs) := by
  intro c hc hop
  rcases List.mem_append.mp hc with hc | hc
  · exact hh c hc hop
  · rw [hevs c hc] at hop
    cases hop

theorem quiet_step {op : Op} (hop : ¬ op.WritesAccounts) : ModerationStep guarded h op :=
  ⟨fun h => absurd h hop, fun _ h => absurd h hop⟩

/-- A part that writes no account. -/
theorem step_quiet {p : Handler α}
    (hp : p.Performs (exec d) (fun op => ¬ op.WritesAccounts) fun _ => True) :
    p.Guarantees (exec d) (ModerationStep guarded) (fun _ _ => True) h :=
  hp.guarantees (fun _ _ _ hop => quiet_step hop) fun _ _ _ _ => trivial

/-- A part that counts nothing. -/
theorem step_uncounted {p : Handler α} {P : Op → Prop} (hp : p.Performs (exec d) P R)
    (hP : ∀ op, P op → ¬ op.WritesAccounts ∧ op.counts = false)
    (hh : Passed h) :
    p.Guarantees (exec d) (ModerationStep guarded) (fun h' a => Passed h' ∧ R a) h :=
  hp.guarantees (fun _ op _ hop => quiet_step (hP op hop).1)
    fun _ _ hevs ha => ⟨passed_append hh fun ev hev => (hP _ (hevs ev hev)).2, ha⟩

/-- The moderation itself, where it is allowed. -/
theorem step_moderates {p : Handler α}
    (hp : p.Performs (exec d) (fun op => op.Finds ∨ op.moderated.isSome) R)
    (hh : guarded = true → Passed h) :
    p.Guarantees (exec d) (ModerationStep guarded) (fun _ _ => True) h := by
  have huncounted : ∀ op : Op, op.Finds ∨ op.moderated.isSome → op.counts = false := by
    intro op hop
    unfold Op.counts
    split
    · rcases hop with hop | hop
      · exact hop.elim
      · cases hop
    · rfl
  refine hp.guarantees (fun evs op hevs hop => ⟨fun hw => ?_, fun hg _ => ?_⟩)
    fun _ _ _ _ => trivial
  · exact hop.resolve_left fun hfinds => hfinds.looksUp.not_writes hw
  · exact passed_append (hh hg) fun ev hev => huncounted _ (hevs ev hev)

/-- The count: what it lets through has passed it. -/
theorem isLastAdmin_guarantees (hh : Passed h) :
    isLastAdmin.Guarantees (exec d) (ModerationStep guarded)
      (fun h' last => last = false → Passed h') h := by
  refine guarantees_query (quiet_step id) fun e s => ?_
  cases hf : e.fails with
  | true =>
      rw [exec_db_of_fails hf]
      intro _ c hc hop hsucceeds
      rcases List.mem_append.mp hc with hc | hc
      · exact hh c hc hop hsucceeds
      · rcases List.mem_singleton.mp hc with rfl
        rw [hf] at hsucceeds
        cases hsucceeds
  | false =>
      rw [exec_db_of_succeeds hf rfl]
      intro hlast c hc hop hsucceeds
      rcases List.mem_append.mp hc with hc | hc
      · exact hh c hc hop hsucceeds
      · rcases List.mem_singleton.mp hc with rfl
        exact not_le.mp (of_decide_eq_false hlast)

theorem step_guarded {target : Account} (hh : Passed h) :
    (wouldRemoveLastAdmin target).Guarantees (exec d) (ModerationStep guarded)
      (fun h' last => last = false → Passed h') h := by
  unfold wouldRemoveLastAdmin
  split_ifs
  · exact fun _ => hh
  · exact isLastAdmin_guarantees hh

theorem loadTarget_uncounted (hh : Passed h) :
    (loadTarget d id).Guarantees (exec d) (ModerationStep guarded) (fun h' _ => Passed h') h := by
  unfold loadTarget
  refine (step_uncounted (loadUserById_finds id) ?_ hh).bind fun h' found hh' => ?_
  · intro op hop
    refine ⟨hop.looksUp.not_writes, ?_⟩
    unfold Op.counts
    split
    · exact hop.elim
    · rfl
  · split
    · exact hh'.1
    · exact hh'.1

theorem guardTarget_guarantees (hh : Passed h) :
    (guardTarget d id).Guarantees (exec d) (ModerationStep guarded)
      (fun h' last => last = false → Passed h') h := by
  refine (loadTarget_uncounted hh).bind fun h' target hh' => ?_
  split
  · exact step_guarded hh'
  · exact fun _ => hh'

/-- An administrator calls the route: nothing is counted yet. -/
theorem adminOnly_guarantees {route : Handler Reply}
    (hroute : ∀ h, Passed h →
      route.Guarantees (exec d) (ModerationStep guarded) (fun _ _ => True) h) :
    (adminOnly headers route).Guarantees (exec d) (ModerationStep guarded) (fun _ _ => True) [] := by
  unfold adminOnly
  refine (step_uncounted (requireRole_draws headers _) ?_ (by simp [Passed])).bind
    fun h allowed hh => ?_
  · intro op hop
    refine ⟨hop.not_writes, ?_⟩
    unfold Op.counts
    split
    · exact hop.elim
    · rfl
  · split_ifs
    · exact hroute h hh.1
    · trivial

theorem banUser_moderates (reason : Option String) :
    (banUser d headers id reason).Guarantees (exec d) (ModerationStep true) (fun _ _ => True) [] := by
  refine adminOnly_guarantees fun h hh => ?_
  refine (guardTarget_guarantees hh).bind fun h₁ last hh₁ => ?_
  cases last with
  | true => trivial
  | false =>
      refine (step_moderates (updateUserFlags_moderates id _) fun _ => hh₁ rfl).bind
        fun h₂ updated _ => ?_
      split
      · exact step_quiet ((revokeAllSessionsForUser_quiet id).bind fun _ _ =>
          (authUserFromHeaders_quiet headers).bind fun _ _ => saveMandatory_quiet _ _ _)
      · trivial
      · trivial

theorem deleteUserRoute_moderates :
    (deleteUserRoute d headers id).Guarantees (exec d) (ModerationStep true)
      (fun _ _ => True) [] := by
  refine adminOnly_guarantees fun h hh => ?_
  refine (guardTarget_guarantees hh).bind fun h₁ last hh₁ => ?_
  cases last with
  | true => trivial
  | false =>
      refine (step_moderates (softDeleteUser_moderates id) fun _ => hh₁ rfl).bind
        fun h₂ deleted _ => ?_
      split
      · exact step_quiet ((revokeAllSessionsForUser_quiet id).bind fun _ _ =>
          (authUserFromHeaders_quiet headers).bind fun _ _ => (save_quiet _).bind fun _ _ => trivial)
      · trivial
      · trivial

theorem demotesLastAdmin_guarantees {target : Account} {role : String} (hh : Passed h) :
    (demotesLastAdmin target role).Guarantees (exec d) (ModerationStep guarded)
      (fun h' last => last = false → Passed h') h := by
  unfold demotesLastAdmin
  split_ifs
  · exact isLastAdmin_guarantees hh
  · exact fun _ => hh

theorem changeRole_moderates (role : String) :
    (changeRole d headers id role).Guarantees (exec d) (ModerationStep true)
      (fun _ _ => True) [] := by
  refine adminOnly_guarantees fun h hh => ?_
  split_ifs
  · trivial
  · refine (loadTarget_uncounted hh).bind fun h₁ target hh₁ => ?_
    split
    · trivial
    · split_ifs
      · trivial
      · refine (demotesLastAdmin_guarantees hh₁).bind fun h₂ last hh₂ => ?_
        cases last with
        | true => trivial
        | false =>
            refine (step_moderates (updateUserFlags_moderates id _) fun _ => hh₂ rfl).bind
              fun h₃ updated _ => ?_
            split
            · exact step_quiet ((revokeAllSessionsForUser_quiet id).bind fun _ _ =>
                (authUserFromHeaders_quiet headers).bind fun _ _ => saveMandatory_quiet _ _ _)
            · trivial
            · trivial

theorem unguarded : false = true → Passed h := fun hg => absurd hg Bool.false_ne_true

/-- The decisions look at no count. -/
theorem adminOnly_decides {route : Handler Reply}
    (hroute : ∀ h, route.Guarantees (exec d) (ModerationStep false) (fun _ _ => True) h) :
    (adminOnly headers route).Guarantees (exec d) (ModerationStep false) (fun _ _ => True) [] := by
  unfold adminOnly
  refine (step_quiet (requireRole_quiet headers _)).bind fun h allowed _ => ?_
  split_ifs
  · exact hroute h
  · trivial

theorem approveUser_moderates :
    (approveUser d headers id).Guarantees (exec d) (ModerationStep false) (fun _ _ => True) [] := by
  refine adminOnly_decides fun h => ?_
  refine (step_moderates (updateUserFlags_moderates id _) unguarded).bind fun h₁ updated _ => ?_
  split
  · exact step_quiet ((sendApproval_quiet _).bind fun _ _ =>
      (authUserFromHeaders_quiet headers).bind fun _ _ => (save_quiet _).bind fun _ _ => trivial)
  · trivial
  · trivial

theorem rejectUser_moderates :
    (rejectUser d headers id).Guarantees (exec d) (ModerationStep false) (fun _ _ => True) [] := by
  refine adminOnly_decides fun h => ?_
  refine (step_quiet (loadTarget_quiet id)).bind fun h₁ user _ => ?_
  refine (step_quiet (authUserFromHeaders_quiet headers)).bind fun h₂ actor _ => ?_
  refine (step_moderates (deleteUser_moderates id) unguarded).bind fun h₃ deleted _ => ?_
  split
  · split
    · exact step_quiet ((sendRejection_quiet _).bind fun _ _ => (save_quiet _).bind
        fun _ _ => trivial)
    · exact step_quiet ((save_quiet _).bind fun _ _ => trivial)
  · trivial
  · trivial

theorem quickApprove_moderates (token : LinkToken) :
    (quickApprove d headers token).Guarantees (exec d) (ModerationStep false)
      (fun _ _ => True) [] := by
  unfold quickApprove
  refine (step_quiet (consumeApprovalToken_quiet token _)).bind fun h consumed _ => ?_
  split
  · trivial
  · refine (step_moderates (updateUserFlags_moderates _ _) unguarded).bind
      fun h₁ updated _ => ?_
    split
    · exact step_quiet ((sendApproval_quiet _).bind fun _ _ => (save_quiet _).bind
        fun _ _ => trivial)
    · trivial
    · trivial

theorem quickReject_moderates (token : LinkToken) :
    (quickReject d headers token).Guarantees (exec d) (ModerationStep false)
      (fun _ _ => True) [] := by
  unfold quickReject
  refine (step_quiet (consumeApprovalToken_quiet token _)).bind fun h consumed _ => ?_
  split
  · trivial
  · refine (step_quiet (loadTarget_quiet _)).bind fun h₁ user _ => ?_
    refine (step_moderates (deleteUser_moderates _) unguarded).bind fun h₂ deleted _ => ?_
    split
    · refine (step_quiet (save_quiet _)).bind fun h₃ _ _ => ?_
      split
      · exact step_quiet ((sendRejection_quiet _).bind fun _ _ => trivial)
      · trivial
    · trivial
    · trivial

/-- All seven routes keep to the moderation of accounts. -/
theorem handle_moderates {request : Request} (hrequest : request.Moderates) :
    (handle d request).Guarantees (exec d) (ModerationStep request.guarded)
      (fun _ _ => True) [] := by
  cases request with
  | banUser headers id reason => exact (banUser_moderates reason).map fun _ _ _ => trivial
  | deleteUser headers id => exact deleteUserRoute_moderates.map fun _ _ _ => trivial
  | changeRole headers id role => exact (changeRole_moderates role).map fun _ _ _ => trivial
  | approveUser headers id => exact approveUser_moderates.map fun _ _ _ => trivial
  | rejectUser headers id => exact rejectUser_moderates.map fun _ _ _ => trivial
  | quickApprove headers token => exact (quickApprove_moderates token).map fun _ _ _ => trivial
  | quickReject headers token => exact (quickReject_moderates token).map fun _ _ _ => trivial
  | _ => exact hrequest.elim

end Routes

/-! ## Any number of requests -/

section Run

variable {ι : Type} [DecidableEq ι] {d : Deployment}

/-- An administrator is left. -/
def Database.HasAdmin (s : Database) : Prop := ∃ u, s.ActiveAdmin u

/-- A statement that goes through and unseats an active administrator meets this much:
a decision, another one; a guarded route, that it has counted, and that everyone
counted is an active administrator still. -/
def CarefulStep (guarded : Bool) (h : List Step) (ev : Step) : Prop :=
  ev.env.fails = false → ∀ row ∈ ev.before.auth.users,
    isActiveAdmin row = true → ev.op.unseats row.id = true →
      if guarded then
        ∃ c ∈ h, c.op.counts = true ∧ c.env.fails = false ∧
          ∀ counted ∈ c.before.auth.users,
            countsAsAdmin counted = true → ev.before.ActiveAdmin counted.id
      else ∃ other ∈ ev.before.auth.users, isActiveAdmin other = true ∧ other.id ≠ row.id

instance (guarded : Bool) (h : List Step) (ev : Step) : Decidable (CarefulStep guarded h ev) := by
  unfold CarefulStep
  infer_instance

def Careful (requests : ι → Request) (log : List (ι × Step)) : Prop :=
  ∀ l i ev r, log = l ++ (i, ev) :: r → CarefulStep (requests i).guarded (Pool.own i l) ev

theorem Careful.left {requests : ι → Request} {log log' : List (ι × Step)}
    (h : Careful requests (log ++ log')) : Careful requests log := by
  rintro l i ev r rfl
  exact h l i ev (r ++ log') (by simp)

/-- One step after the other. -/
theorem careful_of_getElem {requests : ι → Request} {log : List (ι × Step)}
    (h : ∀ n : Fin log.length,
      CarefulStep (requests log[n].1).guarded (Pool.own log[n].1 (log.take n)) log[n].2) :
    Careful requests log := by
  rintro l i ev r rfl
  simpa using h ⟨l.length, by simp⟩

/-- The requests, side by side. -/
def moderation (d : Deployment) (requests : ι → Request) (s : Database) :
    Pool ι Op Op.Res (Option Reply) Database :=
  ⟨fun i => handle d (requests i), s⟩

/-- One careful statement leaves an administrator. -/
theorem hasAdmin_step {guarded : Bool} {h : List Step} {op : Op} {e : Env} {s : Database}
    (hop : ModerationStep guarded h op) (hkeyed : ∀ c ∈ h, c.before.Keyed)
    (hcareful : CarefulStep guarded h ⟨op, e, s, (exec d op e s).1⟩) (hs : s.HasAdmin) :
    (exec d op e s).1.HasAdmin := by
  rcases hs with ⟨u, row, hrow, rfl, hactive⟩
  by_cases hunseats : e.fails = false ∧ op.unseats row.id = true
  · rcases hunseats with ⟨hf, hunseats⟩
    have hmeets := hcareful hf row hrow hactive hunseats
    have hother : ∃ v, v ≠ row.id ∧ s.ActiveAdmin v := by
      cases guarded with
      | true =>
          -- the count saw at least two, of which this one is one at most
          rw [if_pos rfl] at hmeets
          rcases hmeets with ⟨c, hc, hcounts, hsucceeds, hstill⟩
          rcases unseats_moderated hunseats with ⟨key, hkey, -⟩
          have hw : op.WritesAccounts := Op.writes_of_moderated (by rw [hkey]; rfl)
          rcases exists_counted_ne (hkeyed c hc) row.id (hop.passed rfl hw c hc hcounts hsucceeds)
            with ⟨counted, hcounted, hadmin, hne⟩
          exact ⟨counted.id, hne, hstill counted hcounted hadmin⟩
      | false =>
          rw [if_neg Bool.false_ne_true] at hmeets
          rcases hmeets with ⟨other, hother, hadmin, hne⟩
          exact ⟨other.id, hne, other, hother, rfl, hadmin⟩
    rcases hother with ⟨v, hne, hv⟩
    refine ⟨v, activeAdmin_exec hop.moderates (fun _ => ?_) hv⟩
    rw [← Bool.not_eq_true]
    exact fun hunseats' => hne (unseats_unique hunseats' hunseats)
  · refine ⟨row.id, activeAdmin_exec hop.moderates (fun hf => ?_) ⟨row, hrow, rfl, hactive⟩⟩
    rw [← Bool.not_eq_true]
    exact fun hunseats' => hunseats ⟨hf, hunseats'⟩

/-- The primary key and the administrators, along a run. -/
theorem hasAdmin_run {requests : ι → Request} (hrequests : ∀ i, (requests i).Moderates)
    {s : Database} (hs : s.HasAdmin) (hkeyed : s.Keyed) (schedule : List (ι × Env))
    (hcareful : Careful requests ((moderation d requests s).log (exec d) schedule)) :
    ((moderation d requests s).after (exec d) schedule).store.HasAdmin := by
  have hsteps := fun schedule => (Pool.guarantees (c := moderation d requests s)
    (J := fun i => ModerationStep (requests i).guarded) (Q := fun _ _ _ => True)
    (fun i => handle_moderates (hrequests i)) schedule)
  suffices h : (Careful requests ((moderation d requests s).log (exec d) schedule) →
      ((moderation d requests s).after (exec d) schedule).store.HasAdmin) ∧
        ((moderation d requests s).after (exec d) schedule).store.Keyed ∧
        ∀ entry ∈ (moderation d requests s).log (exec d) schedule, entry.2.before.Keyed from
    h.1 hcareful
  refine Pool.induction (P := fun log c => (Careful requests log → c.store.HasAdmin) ∧
    c.store.Keyed ∧ ∀ entry ∈ log, entry.2.before.Keyed) ?_ ?_ schedule
  · exact ⟨fun _ => hs, hkeyed, by simp⟩
  · rintro schedule i e op next hthread ⟨hadmin, hkeyed', hlog⟩
    have hop : ModerationStep (requests i).guarded
        (Pool.own i ((moderation d requests s).log (exec d) schedule)) op := by
      have hi := (hsteps schedule).1 i
      rw [hthread] at hi
      exact hi.1
    refine ⟨fun hcareful' => ?_, keyed_exec hop.moderates hkeyed', ?_⟩
    · refine hasAdmin_step hop (fun c hc => hlog (i, c) (Pool.mem_own.mp hc)) ?_
        (hadmin hcareful'.left)
      exact hcareful' _ i _ [] rfl
    · intro entry hentry
      rcases List.mem_append.mp hentry with hentry | hentry
      · exact hlog entry hentry
      · rcases List.mem_singleton.mp hentry with rfl
        exact hkeyed'

/-- **The last administrator.** Any number of decisions, bans, deletions and changes of
role, their statements interleaved: as long as every statement that unseats an active
administrator is careful, at least one is left at all times. -/
theorem admin_remains (d : Deployment) (requests : ι → Request)
    (hrequests : ∀ i, (requests i).Moderates) (s : Database) (hs : s.HasAdmin) (hkeyed : s.Keyed)
    (schedule : List (ι × Env))
    (hcareful : Careful requests ((moderation d requests s).log (exec d) schedule)) :
    ∀ earlier later, schedule = earlier ++ later →
      ((moderation d requests s).after (exec d) earlier).store.HasAdmin := by
  rintro earlier later rfl
  rw [Pool.log_append] at hcareful
  exact hasAdmin_run hrequests hs hkeyed earlier hcareful.left

end Run

/-- One administrator, by the other one. -/
def sampleBans (second : Bool) : Request :=
  if second then .banUser (sampleBearer sampleAdmin) sampleAdmin'.id.text none
  else .banUser (sampleBearer sampleAdmin') sampleAdmin.id.text none

/-- Both count two administrators before either writes. -/
def sampleBanSchedule : List (Bool × Env) :=
  ([false, false, false, true, true, true] ++ [false, false, true, true]).map
    fun i => (i, Auth.steadily sampleNow 0 0)

/-- The one ban, and then the other. -/
def sampleBanSequence : List (Bool × Env) :=
  (List.replicate 9 false ++ List.replicate 9 true).map fun i => (i, Auth.steadily sampleNow 0 0)

/-- A decision on the account of the only administrator there is. -/
def sampleApproval (_ : Unit) : Request :=
  .approveUser (sampleBearer sampleAdmin) sampleAdmin.id.text

def sampleLoneAdmin : Database :=
  { sampleDatabase with auth := { Auth.sampleServer with users := [sampleAdmin] } }

theorem admin_remains_sample :
    ((moderation (sampleDeployment .postgres) sampleBans sampleDatabase).after
      (exec (sampleDeployment .postgres)) sampleBanSequence).store.HasAdmin :=
  admin_remains (sampleDeployment .postgres) sampleBans (fun i => by cases i <;> trivial)
    sampleDatabase ⟨sampleAdmin.id, by decide⟩ (by decide) sampleBanSequence
    (careful_of_getElem (by decide +kernel)) sampleBanSequence [] (by simp)

/-- Two administrators ban each other at the same time, or the only one is approved
again as an operator: nobody is left. -/
theorem admin_lost :
    (sampleDatabase.HasAdmin ∧ ¬ ((moderation (sampleDeployment .postgres) sampleBans
        sampleDatabase).after (exec (sampleDeployment .postgres)) sampleBanSchedule).store.HasAdmin) ∧
      sampleLoneAdmin.HasAdmin ∧ ¬ ((moderation (sampleDeployment .postgres) sampleApproval
        sampleLoneAdmin).after (exec (sampleDeployment .postgres))
          (List.replicate 9 ((), Auth.steadily sampleNow 0 0))).store.HasAdmin := by
  have hnone : ∀ s : Database, s.auth.users.any isActiveAdmin = false → ¬ s.HasAdmin := by
    rintro s h ⟨u, row, hrow, -, hactive⟩
    rw [List.any_eq_false] at h
    exact h row hrow hactive
  refine ⟨⟨⟨sampleAdmin.id, by decide⟩, hnone _ (by decide +kernel)⟩,
    ⟨sampleAdmin.id, by decide⟩, hnone _ (by decide +kernel)⟩

end AnatoliaBis.App
