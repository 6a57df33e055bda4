import AnatoliaBis.App.Kept

/-! # Who gets which role

The roles a request can leave in `users` that were not there before. Only two
statements write one: an insert, and the update of the flags, which writes back what
was read where no role is given.
-/

namespace AnatoliaBis.App

open Atomic Program
open Auth (Env Headers Key)

/-- The account `u`, not deleted, has the role. -/
def Holds (s : Database) (u : Uuid) (role : String) : Prop :=
  ∃ row ∈ s.auth.users, row.id = u ∧ row.deletedAt.isNone ∧ row.role = role

/-- Every role that is held in the second store is one that the account held in the first,
or one that it is given, which makes an account only where that is allowed. -/
def GivesRoles (creates : Prop) (gives : Uuid → String → Prop) (s s' : Database) : Prop :=
  ∀ u role, Holds s' u role → Holds s u role ∨ gives u role ∧ (creates ∨ ∃ old, Holds s u old)

/-- The roles that the operation writes are given. -/
def Op.Confers (creates : Prop) (gives : Uuid → String → Prop) : Op → Prop
  | .db (.createUser user) => creates ∧ gives user.id user.role
  | .db (.updateUserFlags key _ _ _ role) => ∀ u, key.isId u = true → gives u role
  | _ => True

/-! ## Statements -/

section Statements

variable {d : Deployment} {creates : Prop} {gives : Uuid → String → Prop}
  {s s' s'' : Database} {op : Op}

theorem GivesRoles.refl (s : Database) : GivesRoles creates gives s s := fun _ _ => Or.inl

theorem GivesRoles.trans (h : GivesRoles creates gives s s')
    (h' : GivesRoles creates gives s' s'') : GivesRoles creates gives s s'' := by
  intro u role hrole
  rcases h' u role hrole with hrole | ⟨hgives, hcreates | ⟨old, hold⟩⟩
  · exact h u role hrole
  · exact Or.inr ⟨hgives, Or.inl hcreates⟩
  · rcases h u old hold with hold | ⟨-, hbefore⟩
    · exact Or.inr ⟨hgives, Or.inr ⟨old, hold⟩⟩
    · exact Or.inr ⟨hgives, hbefore⟩

/-- The same accounts, or some of them. -/
theorem givesRoles_of_subset (h : s'.auth.users ⊆ s.auth.users) :
    GivesRoles creates gives s s' := by
  rintro u role ⟨row, hrow, hholds⟩
  exact Or.inl ⟨row, h hrow, hholds⟩

/-- Rows that are rewritten have a role of their account, or one that it is given. -/
theorem givesRoles_updateUser {key : Key} {f : Auth.UserRow → Auth.UserRow}
    {g : UserDetails → UserDetails} (hid : ∀ row, (f row).id = row.id)
    (hlive : ∀ row, (f row).deletedAt.isNone → row.deletedAt.isNone)
    (hrole : ∀ row ∈ s.auth.users, key.isId row.id = true → row.deletedAt.isNone →
      Holds s row.id (f row).role ∨ gives row.id (f row).role) :
    GivesRoles creates gives s (s.updateUser key f g) := by
  rintro u role ⟨row', hrow', hu, hlive', rfl⟩
  rcases List.mem_map.mp hrow' with ⟨row, hrow, rfl⟩
  split_ifs at hu hlive' ⊢ with hkey
  · rw [← hu, hid]
    exact (hrole row hrow hkey (hlive row hlive')).imp_right fun hgives =>
      ⟨hgives, Or.inr ⟨row.role, row, hrow, rfl, hlive row hlive', rfl⟩⟩
  · exact Or.inl ⟨row, hrow, hu, hlive', rfl⟩

theorem givesRoles_exec (hop : op.Confers creates gives) (e : Env) (s : Database) :
    GivesRoles creates gives s (exec d op e s).1 := by
  by_cases hw : op.WritesAccounts
  · cases op with
    | db q =>
        apply exec_db_store (I := GivesRoles creates gives s) (.refl s)
        intro _ _
        cases q with
        | createUser user =>
            rintro u role ⟨row, hrow, rfl, hlive, rfl⟩
            rcases List.mem_append.mp hrow with hrow | hrow
            · exact Or.inl ⟨row, hrow, rfl, hlive, rfl⟩
            · rw [List.mem_singleton.mp hrow]
              exact Or.inr ⟨hop.2, Or.inl hop.1⟩
        | updateUserFlags key isApproved isBanned banReason role =>
            exact givesRoles_updateUser (fun _ => rfl) (fun _ => id) fun row _ hkey _ =>
              Or.inr (hop row.id hkey)
        | updateUserProfile key firstName email encrypted lookupHash passwordHash =>
            exact givesRoles_updateUser (fun _ => rfl) (fun _ => id) fun row hrow _ hlive =>
              Or.inl ⟨row, hrow, rfl, hlive, rfl⟩
        | updateUserPassword key passwordHash =>
            exact givesRoles_updateUser (fun _ => rfl) (fun _ => id) fun row hrow _ hlive =>
              Or.inl ⟨row, hrow, rfl, hlive, rfl⟩
        | softDeleteUser key =>
            -- it only takes accounts out of use
            refine givesRoles_updateUser (fun row => ?_) (fun row hlive => ?_)
              fun row hrow _ hlive => Or.inl ⟨row, hrow, rfl, hlive, ?_⟩
            · split_ifs <;> rfl
            · split_ifs at hlive with h
              · exact h
              · exact hlive
            · rw [if_pos hlive]
        | deleteUser key =>
            exact givesRoles_of_subset fun row hrow => (List.mem_filter.mp hrow).1
        | _ => exact hw.elim
    | _ => exact hw.elim
  · refine givesRoles_of_subset fun row hrow => ?_
    rwa [(accounts_exec hw e s).1] at hrow

end Statements

/-! ## Parts of a handler -/

section Parts

variable {d : Deployment} {creates : Prop} {gives : Uuid → String → Prop} {α β : Type}
  {headers : Headers} {id : String}

/-- The handler leaves no role behind that is not given. -/
abbrev Bestows (d : Deployment) (creates : Prop) (gives : Uuid → String → Prop)
    (h : Handler α) : Prop :=
  h.Keeps (exec d) (GivesRoles creates gives)

theorem Op.Own.confers {op : Op} (h : op.Own) : op.Confers creates gives := by
  unfold Op.Confers
  split
  · exact h.elim
  · exact h.elim
  · trivial

theorem Request.Writes.confers {request : Request} {op : Op} (h : request.Writes d op) :
    op.Confers creates gives := by
  unfold Request.Writes at h
  split at h
  all_goals trivial

theorem kept_givesRoles : Kept d (GivesRoles creates gives) where
  refl := GivesRoles.refl
  trans h h' := h.trans h'
  own _ hop := givesRoles_exec hop.confers

/-- Authentication writes no account. -/
theorem lift_bestows (h : Auth.Handler α) : Bestows d creates gives (lift h) := by
  induction h with
  | done a => exact Keeps.done GivesRoles.refl a
  | call op next ih =>
      have hop : (Op.auth op).Confers creates gives := trivial
      exact Keeps.call (fun h h' => h.trans h') (fun e s => givesRoles_exec hop e s) ih

/-- The write of `update_user_flags`, in the store that was read. -/
theorem givesRoles_flagsWrite {key : Key} {flags : FlagUpdate} {s : Database} {current : Account}
    (hkey : d.key id = some key) (h : ∀ role ∈ flags.role, ∀ u, d.Names id u → gives u role)
    (hfound : (s.findAccount fun row => key.isId row.id && row.deletedAt.isNone) = some current)
    (e : Env) :
    GivesRoles creates gives s (exec d (.db (.updateUserFlags key (flags.merge current).isApproved
      (flags.merge current).isBanned (flags.merge current).banReason
      (flags.merge current).role)) e s).1 := by
  cases hf : e.fails with
  | true =>
      rw [exec_db_of_fails hf]
      exact .refl s
  | false =>
      rw [exec_db_of_succeeds hf rfl]
      refine givesRoles_updateUser (fun _ => rfl) (fun _ h => h) fun row hrow hid _ => ?_
      cases hrole : flags.role with
      | none =>
          rcases Option.map_eq_some_iff.mp hfound with ⟨old, hold, rfl⟩
          have hcond := List.find?_some hold
          simp only [Bool.and_eq_true] at hcond
          refine Or.inl ⟨old, List.mem_of_find?_eq_some hold, isId_unique hcond.1 hid, hcond.2, ?_⟩
          exact ((merge_of_none flags (s.account old)).2.2.2 (by rw [hrole]; rfl)).symm
      | some role =>
          have hgiven : (flags.merge current).role = role := by
            unfold FlagUpdate.merge
            rw [hrole]
            rfl
          refine Or.inr ?_
          dsimp only
          rw [hgiven]
          exact h role (by rw [hrole]; rfl) row.id ⟨key, hkey, hid⟩

/-- Where no role is given, the one that was read is written back. -/
theorem updateUserFlags_bestows (flags : FlagUpdate)
    (h : ∀ role ∈ flags.role, ∀ u, d.Names id u → gives u role) :
    Bestows d creates gives (updateUserFlags d id flags) := by
  intro ω s
  have hwp : (updateUserFlags d id flags).wp (exec d) (fun _ => True)
      (fun _ _ s' => GivesRoles creates gives s s') s := by
    unfold updateUserFlags
    cases hkey : d.key id with
    | none =>
        have hload : loadUserById d id = .done (.ok none) := by
          unfold loadUserById
          rw [hkey]
          rfl
        rw [hload]
        exact .refl s
    | some key =>
        have hload : loadUserById d id = query (.loadUserById key) := by
          unfold loadUserById
          rw [hkey]
        rw [hload]
        intro e _
        dsimp only
        cases hf : e.fails with
        | true =>
            rw [exec_db_of_fails hf]
            exact .refl s
        | false =>
            rw [exec_db_of_succeeds hf rfl]
            dsimp only [Query.perform]
            cases hfound : s.findAccount fun row => key.isId row.id && row.deletedAt.isNone with
            | none => exact .refl s
            | some current =>
                simp only [Program.bind]
                intro e' _
                have hwrite : GivesRoles creates gives s _ := givesRoles_flagsWrite hkey h hfound e'
                generalize exec d (.db _) e' s = result at hwrite ⊢
                rcases result with ⟨s₁, written⟩
                cases written with
                | error err => exact hwrite
                | ok _ =>
                    have hread : (Op.db (.loadUserById key)).Confers creates gives := trivial
                    exact fun e'' _ => hwrite.trans (givesRoles_exec hread e'' s₁)
  exact wp_run hwp fun _ => trivial

theorem createUser_bestows (user : NewUser) (hc : creates) (h : ∀ u, gives u user.role) :
    Bestows d creates gives (createUser d user) := by
  refine createUser_keeps kept_givesRoles fun u => givesRoles_exec ?_
  exact ⟨hc, h u⟩

end Parts

/-! ## Requests -/

/-- The request may make an account. -/
def Request.Creates : Request → Prop
  | .register .. | .createUser .. => True
  | _ => False

/-- The role that a request gives an account. -/
def Request.gives (d : Deployment) : Request → Uuid → String → Prop
  | .register .., _, role => role = Role.pending
  | .approveUser .., _, role | .quickApprove .., _, role => role = Role.defaultApproved
  | .changeRole _ id given, u, role => d.Names id u ∧ role = given
  | .createUser _ payload, _, role =>
      role = if payload.isAdmin then Role.systemAdmin else Role.defaultApproved
  | _, _, _ => False

/-- **No request leaves a role behind that it does not give.** -/
theorem handle_bestows (d : Deployment) (request : Request) :
    Bestows d request.Creates (request.gives d) (handle d request) := by
  apply handle_keeps kept_givesRoles
  · exact fun r _ => lift_bestows _
  · intro id flags hflags
    apply updateUserFlags_bestows
    intro role hrole u hu
    cases request with
    | approveUser headers id' =>
        rcases hflags with ⟨rfl, rfl⟩
        exact (Option.some.inj hrole).symm
    | quickApprove headers token =>
        rcases hflags with ⟨-, rfl⟩
        exact (Option.some.inj hrole).symm
    | banUser headers id' reason =>
        rcases hflags with ⟨rfl, rfl⟩
        cases hrole
    | unbanUser headers id' =>
        rcases hflags with ⟨rfl, rfl⟩
        cases hrole
    | changeRole headers id' given =>
        rcases hflags with ⟨rfl, rfl⟩
        exact ⟨hu, (Option.some.inj hrole).symm⟩
    | _ => exact hflags.elim
  · intro user hrole
    cases request with
    | register headers payload => exact createUser_bestows user trivial fun _ => hrole
    | createUser headers payload => exact createUser_bestows user trivial fun _ => hrole
    | _ => exact hrole.elim
  · exact fun op hop => givesRoles_exec hop.confers

end AnatoliaBis.App
