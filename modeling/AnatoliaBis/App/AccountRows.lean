import AnatoliaBis.App.Footprint

/-! # The row of an account

What the statements of a handler do to one account, and which of them leave all
accounts as they are.
-/

namespace AnatoliaBis.App

open Atomic Program
open Auth (Env Key)

variable {d : Deployment} {s : Database} {e : Env} {u : Uuid} {key : Key}

/-- The text stands for the account `u`. -/
def Deployment.Names (d : Deployment) (id : String) (u : Uuid) : Prop :=
  ∃ key, d.key id = some key ∧ key.isId u = true

/-- The row `load_user_by_id` finds for this id. -/
def Database.live (s : Database) (u : Uuid) : Option Account :=
  s.findAccount fun row => row.id == u && row.deletedAt.isNone

theorem isId_eq (h : key.isId u = true) (v : Uuid) : key.isId v = (v == u) := by
  by_cases hv : v = u
  · rw [hv, h, beq_self_eq_true]
  · rw [beq_eq_false_iff_ne.mpr hv, ← Bool.not_eq_true]
    exact fun hkey => hv (isId_unique hkey h)

theorem findAccount_eq_live (h : key.isId u = true) :
    s.findAccount (fun row => key.isId row.id && row.deletedAt.isNone) = s.live u := by
  unfold Database.live
  congr 1
  funext row
  rw [isId_eq h]

theorem live_id {account : Account} (h : s.live u = some account) : account.id = u := by
  rcases Option.map_eq_some_iff.mp h with ⟨row, hrow, rfl⟩
  have hfound := List.find?_some hrow
  simp only [Bool.and_eq_true, beq_iff_eq] at hfound
  exact hfound.1

/-! ## Look-ups -/

theorem exec_loadUserById (h : key.isId u = true) (hf : e.fails = false) :
    exec d (.db (.loadUserById key)) e s = (s, .ok (s.live u)) := by
  rw [exec_db_of_succeeds hf rfl, ← findAccount_eq_live h]
  rfl

/-! ## Writes -/

/-- A statement that rewrites the rows of one id. -/
theorem live_updateUser {f : Auth.UserRow → Auth.UserRow} {g : UserDetails → UserDetails}
    (hid : ∀ row, (f row).id = row.id) (hdeleted : ∀ row, (f row).deletedAt = row.deletedAt) :
    (s.updateUser key f g).live u = (s.live u).map fun account =>
      if key.isId u then ⟨f account.toUserRow, g account.toUserDetails⟩ else account := by
  have hcond : ((fun row : Auth.UserRow => row.id == u && row.deletedAt.isNone) ∘
      fun row => if key.isId row.id then f row else row) =
        fun row => row.id == u && row.deletedAt.isNone := by
    funext row
    dsimp only [Function.comp_apply]
    split_ifs
    · rw [hid, hdeleted]
    · rfl
  unfold Database.live Database.findAccount Database.updateUser
  dsimp only
  rw [List.find?_map, hcond, Option.map_map, Option.map_map]
  refine Option.map_congr fun row hrow => ?_
  have hfound := List.find?_some hrow
  simp only [Bool.and_eq_true, beq_iff_eq] at hfound
  simp only [Function.comp_apply, hfound.1]
  split_ifs with hkey
  · simp only [Database.account, hid, hfound.1, hkey, if_true]
  · simp only [Database.account, hfound.1, hkey, Bool.false_eq_true, if_false]

theorem live_updateUserPassword {hash : String} (hf : e.fails = false) :
    (exec d (.db (.updateUserPassword key hash)) e s).1.live u = (s.live u).map fun account =>
      if key.isId u then { account with passwordHash := hash } else account := by
  rw [exec_db_of_succeeds hf rfl]
  show (s.updateUser key (fun row => { row with passwordHash := hash }) fun details =>
    details).live u = _
  rw [live_updateUser]
  · exact fun _ => rfl
  · exact fun _ => rfl

theorem live_updateUserProfile {firstName passwordHash : String}
    {email encrypted lookupHash : Option String} (hf : e.fails = false)
    (hq : (Query.updateUserProfile key firstName email encrypted lookupHash
      passwordHash).violatesUnique s = false) :
    (exec d (.db (.updateUserProfile key firstName email encrypted lookupHash passwordHash)) e
        s).1.live u = (s.live u).map fun account =>
      if key.isId u then
        { account with firstName := firstName, email := email, passwordHash := passwordHash,
                       nationalIdEncrypted := encrypted, nationalIdLookupHash := lookupHash }
      else account := by
  rw [exec_db_of_succeeds hf hq]
  show (s.updateUser key (fun row => { row with firstName := firstName, email := email,
                                                passwordHash := passwordHash })
    fun details => { details with nationalIdEncrypted := encrypted,
                                  nationalIdLookupHash := lookupHash }).live u = _
  rw [live_updateUser]
  · exact fun _ => rfl
  · exact fun _ => rfl

/-- A deleted account is not found any more. -/
theorem live_softDeleteUser (h : key.isId u = true) (hf : e.fails = false) :
    (exec d (.db (.softDeleteUser key)) e s).1.live u = none := by
  rw [exec_db_of_succeeds hf rfl]
  unfold Database.live Database.findAccount
  rw [Option.map_eq_none_iff, List.find?_eq_none]
  intro row hrow
  rcases List.mem_map.mp hrow with ⟨row, -, rfl⟩
  by_cases hkey : key.isId row.id
  · rw [if_pos hkey]
    cases hdeleted : row.deletedAt with
    | none => simp [hdeleted]
    | some t => simp [hdeleted]
  · rw [if_neg hkey]
    intro hcond
    simp only [Bool.and_eq_true, beq_iff_eq] at hcond
    rw [hcond.1] at hkey
    exact hkey h

/-- Nothing but a write to `users` changes an account. -/
theorem accounts_exec {op : Op} (h : ¬ op.WritesAccounts) (e : Env) (s : Database) :
    (exec d op e s).1.auth.users = s.auth.users ∧ (exec d op e s).1.details = s.details := by
  cases op with
  | auth c => exact ⟨Auth.exec_users c, rfl⟩
  | db q =>
      apply exec_db_store (I := fun s' => s'.auth.users = s.auth.users ∧ s'.details = s.details)
        ⟨rfl, rfl⟩
      intro _ _
      cases q with
      | createUser | updateUserFlags | updateUserProfile | updateUserPassword | deleteUser
      | softDeleteUser => exact absurd trivial h
      | recordReviewDecision entry =>
          exact ⟨record_same (f := fun s => s.auth.users) (fun _ _ _ => rfl) s _ entry,
            record_same (f := Database.details) (fun _ _ _ => rfl) s _ entry⟩
      | _ => exact ⟨rfl, rfl⟩
  | _ => exact ⟨rfl, rfl⟩

theorem live_exec {op : Op} (h : ¬ op.WritesAccounts) (e : Env) (s : Database) :
    (exec d op e s).1.live u = s.live u := by
  rcases accounts_exec (d := d) h e s with ⟨husers, hdetails⟩
  unfold Database.live Database.findAccount Database.account
  rw [husers, hdetails]

/-! ## Without a write -/

/-- The operation is a write to `users`, and neither fails nor violates a key. -/
def StoresAccount (ev : Step) : Prop :=
  ev.op.WritesAccounts ∧ ∀ q, ev.op = .db q →
    ev.env.fails = false ∧ q.violatesUnique ev.before = false

theorem not_storesAccount {ev : Step} (h : ¬ ev.op.WritesAccounts) : ¬ StoresAccount ev :=
  mt And.left h

theorem live_after {ev : Step} (hev : ev.after = (exec d ev.op ev.env ev.before).1)
    (h : ¬ StoresAccount ev) : ev.after.live u = ev.before.live u := by
  rcases ev with ⟨op, e, s, s'⟩
  dsimp only at hev ⊢
  subst hev
  by_cases hop : op.WritesAccounts
  · cases op with
    | db q =>
        apply exec_db_store (I := fun s' => s'.live u = s.live u) rfl
        intro hf hq
        refine absurd ⟨hop, ?_⟩ h
        rintro q' ⟨⟩
        exact ⟨hf, hq⟩
    | _ => exact hop.elim
  · exact live_exec hop e s

section Executions

variable {s' : Database} {evs : List Step}

theorem live_of_executes (h : Executes (exec d) s evs s') (hevs : ∀ ev ∈ evs, ¬ StoresAccount ev) :
    s'.live u = s.live u :=
  h.rel (T := fun s s' : Database => s'.live u = s.live u) (fun _ => rfl) (fun h h' => h'.trans h)
    fun ev hev hafter => live_after hafter (hevs ev hev)

/-- Nor has it changed anywhere in the middle. -/
theorem live_before {ev : Step} (h : Executes (exec d) s evs s')
    (hevs : ∀ ev ∈ evs, ¬ StoresAccount ev) (hev : ev ∈ evs) : ev.before.live u = s.live u := by
  rcases List.append_of_mem hev with ⟨l, l', rfl⟩
  exact live_of_executes h.split.1 fun ev' hev' => hevs ev' (List.mem_append_left _ hev')

end Executions

end AnatoliaBis.App
