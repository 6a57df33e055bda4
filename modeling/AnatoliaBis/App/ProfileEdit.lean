import AnatoliaBis.App.FlagUpdates

/-! # A profile edit beside a password reset

`update_user_route` writes the whole profile back, the password hash it has read
included. A reset of the password that comes in between is undone exactly then.
-/

namespace AnatoliaBis.App

open Atomic Program
open Auth (Env Headers Key)

/-! ## What the edit does -/

/-- The edit reads the row once before its only write, and carries the hash along. -/
structure EditStep (key : Key) (u : Uuid) (h : List Step) (op : Op) : Prop where
  writes : op.WritesAccounts → (∀ ev ∈ h, ¬ ev.op.WritesAccounts) ∧
    ∃ read ∈ h, ∃ row, read.op.Loads ∧ read.before.live u = some row ∧
      ∃ firstName email encrypted lookupHash,
        op = .db (.updateUserProfile key firstName email encrypted lookupHash row.passwordHash)
  loads : op.Loads → (∀ ev ∈ h, ¬ ev.op.Loads) ∨ ∃ ev ∈ h, ev.op.WritesAccounts

section Edit

variable {d : Deployment} {id : String} {key : Key} {u : Uuid} {headers : Headers} {α : Type}
  {h : List Step}

theorem editStep_of_quiet {op : Op} (hw : ¬ op.WritesAccounts) (hl : ¬ op.Loads) :
    EditStep key u h op :=
  ⟨fun h => absurd h hw, fun h => absurd h hl⟩

/-- Drawing random bytes or reading the clock. -/
theorem edit_draws {p : Handler α} {R : α → Prop} (hp : p.Performs (exec d) Op.Draws R) :
    p.Guarantees (exec d) (EditStep key u)
      (fun h' a => h ⊆ h' ∧ (∀ ev ∈ h', ev ∈ h ∨ ev.op.Draws) ∧ R a) h :=
  hp.guarantees (fun _ _ _ hop => editStep_of_quiet hop.not_writes hop.not_loads)
    fun _ _ hevs ha => ⟨List.subset_append_left _ _,
      fun ev hev => (List.mem_append.mp hev).imp_right (hevs ev), ha⟩

/-- Once the profile is written. -/
theorem edit_after {p : Handler α} {P : Op → Prop} {R : α → Prop} (hp : p.Performs (exec d) P R)
    (hP : ∀ op, P op → ¬ op.WritesAccounts) {w : Step} (hw : w ∈ h)
    (hwrites : w.op.WritesAccounts) {Q : List Step → α → Prop} (hQ : ∀ h' a, Q h' a) :
    p.Guarantees (exec d) (EditStep key u) Q h :=
  hp.guarantees (fun _ op _ hop => ⟨fun h => absurd h (hP op hop), fun _ =>
    Or.inr ⟨w, List.mem_append_left _ hw, hwrites⟩⟩) fun _ _ _ _ => hQ _ _

theorem writeProfile_guarantees (hkey : d.key id = some key) (payload : UpdateUserPayload)
    (current : Account) (nationalId : Option String × Option String)
    (hfresh : ∀ ev ∈ h, ¬ ev.op.WritesAccounts) {read : Step} (hread : read ∈ h)
    (hload : read.op.Loads) (hrow : read.before.live u = some current) :
    (writeProfile d headers id payload current nationalId current.passwordHash).Guarantees (exec d)
      (EditStep key u) (fun _ _ => True) h := by
  unfold writeProfile updateUserProfile
  rw [hkey, Program.bind_assoc]
  refine guarantees_query ?_ fun e s => ?_
  · refine ⟨fun _ => ⟨hfresh, read, hread, current, hload, hrow, _, _, _, _, rfl⟩, fun h => ?_⟩
    exact h.elim
  · refine edit_after (P := fun op => ¬ op.WritesAccounts) (R := fun _ => True) ?_ (fun _ h => h)
      (List.mem_append_right _ (List.mem_singleton_self _)) ?_ fun _ _ => trivial
    swap
    · trivial
    refine Performs.bind (R := fun _ => True) ?_ fun updated _ => ?_
    · split
      · trivial
      · exact (loadUserById_performs id).weaken fun _ h => h.not_writes
    · split
      · refine ((authUserFromHeaders_draws headers).weaken fun _ h => h.not_writes).bind
          fun actor _ => ?_
        exact (save_quiet _).bind fun _ _ => trivial
      · trivial
      · trivial

theorem nextNationalId_draws (payload : UpdateUserPayload) (current : Account) :
    (nextNationalId d payload current).Performs (exec d) Op.Draws fun _ => True := by
  unfold nextNationalId
  split
  · trivial
  · split_ifs
    · exact performs_perform trivial fun _ => trivial
    · trivial

theorem updateUserRoute_guarantees (hkey : d.key id = some key) (hid : key.isId u = true)
    {payload : UpdateUserPayload} (hpayload : payload.password.filter (· != "") = none) :
    (updateUserRoute d headers id payload).Guarantees (exec d) (EditStep key u)
      (fun _ _ => True) [] := by
  unfold updateUserRoute adminOnly
  refine (edit_draws (requireRole_draws headers _)).bind fun h allowed hh => ?_
  rcases hh with ⟨-, hdrawn, -⟩
  have hfresh : ∀ ev ∈ h, ev.op.Draws := fun ev hev => (hdrawn ev hev).resolve_left (by simp)
  split_ifs
  · unfold loadTarget loadUserById
    rw [hkey, Program.bind_assoc]
    refine guarantees_query ?_ fun e s => ?_
    · exact ⟨fun h => h.elim, fun _ => Or.inl fun ev hev => (hfresh ev hev).not_loads⟩
    · cases hf : e.fails with
      | true =>
          rw [exec_db_of_fails hf]
          trivial
      | false =>
          rw [exec_loadUserById hid hf]
          cases hrow : s.live u with
          | none => trivial
          | some current =>
              dsimp only [pure_eq_done, done_bind]
              refine (edit_draws (nextNationalId_draws payload current)).bind
                fun h' nationalId hh' => ?_
              rcases hh' with ⟨hsub, hnew, -⟩
              cases nationalId with
              | none => trivial
              | some nationalId =>
                  unfold nextPasswordHash
                  rw [hpayload]
                  refine writeProfile_guarantees hkey payload current nationalId ?_
                    (hsub (List.mem_append_right _ (List.mem_singleton_self _))) trivial hrow
                  intro ev hev
                  rcases hnew ev hev with hev | hev
                  · rcases List.mem_append.mp hev with hev | hev
                    · exact (hfresh ev hev).not_writes
                    · rcases List.mem_singleton.mp hev with rfl
                      exact fun h => h
                  · exact hev.not_writes
  · trivial

end Edit

/-! ## What the reset does -/

/-- A reset writes once, a password. -/
def ResetStep (h : List Step) (op : Op) : Prop :=
  op.WritesAccounts → (∀ ev ∈ h, ¬ ev.op.WritesAccounts) ∧
    ∃ key hash, op = .db (.updateUserPassword key hash)

/-- The password hash of the account `u` is set, and the row read again. -/
def ResetTo (u : Uuid) (hash : String) (h : List Step) : Prop :=
  ∃ l w again r key, h = l ++ w :: again :: r ∧ key.isId u = true ∧
    w.op = .db (.updateUserPassword key hash) ∧ w.env.fails = false ∧ (again.before.live u).isSome

section Reset

variable {d : Deployment} {headers : Headers} {h : List Step} {α : Type}

theorem reset_quiet {p : Handler α} {P : Op → Prop} {R : α → Prop} (hp : p.Performs (exec d) P R)
    (hP : ∀ op, P op → ¬ op.WritesAccounts) :
    p.Guarantees (exec d) ResetStep
      (fun h' a => (∃ evs : List Step, h' = h ++ evs ∧ ∀ ev ∈ evs, ¬ ev.op.WritesAccounts) ∧ R a)
      h :=
  hp.guarantees (fun _ op _ hop hw => absurd hw (hP op hop))
    fun evs _ hevs ha => ⟨⟨evs, rfl, fun ev hev => hP _ (hevs ev hev)⟩, ha⟩

/-- A successful reset has set a password. -/
def ResetDone (h : List Step) (reply : Reply) : Prop :=
  reply.status < 400 → ∃ u hash, ResetTo u hash h

theorem resetDone_of_failure (code messageKey : String) :
    ResetDone h (failure headers code messageKey) :=
  fun hok => absurd hok (failure_status _ _ _)

theorem setPassword_guarantees (userId : Uuid) (newPassword : String)
    (hfresh : ∀ ev ∈ h, ¬ ev.op.WritesAccounts) :
    (setPassword d headers userId newPassword).Guarantees (exec d) ResetStep ResetDone h := by
  refine guarantees_perform (fun h => h.elim) fun e s => ?_
  have hfresh' : ∀ ev ∈ h ++ [⟨.auth .random, e, s, (exec d (.auth .random) e s).1⟩],
      ¬ ev.op.WritesAccounts := by
    intro ev hev
    rcases List.mem_append.mp hev with hev | hev
    · exact hfresh ev hev
    · rcases List.mem_singleton.mp hev with rfl
      exact fun h => h
  split
  · exact resetDone_of_failure _ _
  next hashed _ =>
    unfold updateUserPassword loadUserById
    split
    · exact resetDone_of_failure _ _
    next key hkey =>
      have hid : key.isId userId = true := (isId_of_key_text hkey).mpr rfl
      rw [Program.bind_assoc]
      refine guarantees_query (fun _ => ⟨hfresh', key, hashed, rfl⟩) fun e' s' => ?_
      cases hf : e'.fails with
      | true =>
          rw [exec_db_of_fails hf]
          exact resetDone_of_failure _ _
      | false =>
          rw [exec_db_of_succeeds hf rfl]
          refine guarantees_query (fun h => h.elim) fun e'' s'' => ?_
          cases hf' : e''.fails with
          | true =>
              rw [exec_db_of_fails hf']
              exact resetDone_of_failure _ _
          | false =>
              rw [exec_loadUserById hid hf']
              cases hrow : s''.live userId with
              | none => exact resetDone_of_failure _ _
              | some user =>
                  dsimp only [pure_eq_done, done_bind]
                  have hrest : (revokeAllSessionsForUser d user.id.text >>= fun _ =>
                      save d (Auth.withUser (recorder d headers "AUTH_PASSWORD_RESET_COMPLETED"
                        "success") user.toUserRow) >>= fun _ =>
                        done (message "auth.passwordResetSuccess")).Performs (exec d)
                      (fun op => ¬ op.WritesAccounts) fun _ => True :=
                    ((revokeAllSessionsForUser_performs _).weaken fun _ h => h.not_writes).bind
                      fun _ _ => (save_quiet _).bind fun _ _ => trivial
                  refine (reset_quiet hrest fun _ h => h).mono (fun _ _ h => h) ?_
                  rintro h' reply ⟨⟨evs, rfl, -⟩, -⟩ -
                  rw [List.append_assoc, List.append_assoc]
                  refine ⟨userId, hashed, _, _, _, evs, key, rfl, hid, rfl, hf, ?_⟩
                  rw [hrow]
                  rfl

theorem resetPassword_guarantees (token newPassword : String) :
    (resetPassword d headers token newPassword).Guarantees (exec d) ResetStep ResetDone [] := by
  unfold resetPassword
  split_ifs
  · exact resetDone_of_failure _ _
  · refine guarantees_query (fun h => h.elim) fun e s => ?_
    split
    next row _ =>
      split_ifs
      · exact resetDone_of_failure _ _
      · refine guarantees_perform (fun h => h.elim) fun e' s' => ?_
        split_ifs
        · exact resetDone_of_failure _ _
        · refine guarantees_query (fun h => h.elim) fun e'' s'' => ?_
          split
          · refine setPassword_guarantees _ _ ?_
            simp only [List.nil_append, List.forall_mem_append, List.forall_mem_singleton]
            exact ⟨⟨fun h => h, fun h => h⟩, fun h => h⟩
          · exact resetDone_of_failure _ _
    · exact resetDone_of_failure _ _

end Reset

/-! ## Side by side -/

/-- The edit has read the row before the reset writes the password, and its own write
goes through after that. -/
def Straddles (log : List (Bool × Step)) : Prop :=
  ∃ l w r, log = l ++ (true, w) :: r ∧ w.op.WritesAccounts ∧
    (∃ read, (false, read) ∈ l ∧ read.op.Loads) ∧ ∃ write, (false, write) ∈ r ∧ StoresAccount write

/-- The password hash of an account. -/
def Database.passwordHash (s : Database) (u : Uuid) : Option String :=
  (s.live u).map (·.passwordHash)

section Race

variable {d : Deployment} {key : Key} {u : Uuid} {hash : String} {s s' : Database}
  {log : List (Bool × Step)}

/-- No statement of the two removes an account. -/
theorem live_isSome_of_executes {evs : List Step} (h : Executes (exec d) s evs s')
    (hevs : ∀ ev ∈ evs, ¬ ev.op.WritesAccounts ∨
      (∃ key firstName email encrypted lookupHash passwordHash, ev.op =
        .db (.updateUserProfile key firstName email encrypted lookupHash passwordHash)) ∨
      ∃ key hash, ev.op = .db (.updateUserPassword key hash)) :
    (s'.live u).isSome = (s.live u).isSome := by
  refine h.rel (T := fun s s' : Database => (s'.live u).isSome = (s.live u).isSome) (fun _ => rfl)
    (fun h h' => h'.trans h) fun ev hev hafter => ?_
  by_cases hstores : StoresAccount ev
  · rcases ev with ⟨op, e, s, s'⟩
    dsimp only at hafter ⊢
    subst hafter
    rcases hevs _ hev with hop | ⟨_, _, _, _, _, _, rfl⟩ | ⟨_, _, rfl⟩
    · exact absurd hstores.1 hop
    · rcases hstores.2 _ rfl with ⟨hf, hq⟩
      rw [live_updateUserProfile hf hq, Option.isSome_map]
    · rw [live_updateUserPassword (hstores.2 _ rfl).1, Option.isSome_map]
  · rw [live_after hafter hstores]

/-- The two handlers side by side, the reset having set a password of this account. -/
structure Race (d : Deployment) (key : Key) (u : Uuid) (hash : String) (s s' : Database)
    (log l r : List (Bool × Step)) (w : Step) : Prop where
  key_isId : key.isId u = true
  executes : Executes (exec d) s (log.map Prod.snd) s'
  edit : ∀ l ev r, log = l ++ (false, ev) :: r → EditStep key u (Pool.own false l) ev.op
  reset : ∀ l ev r, log = l ++ (true, ev) :: r → ResetStep (Pool.own true l) ev.op
  log_eq : log = l ++ (true, w) :: r
  write : ∃ key, key.isId u = true ∧ w.op = .db (.updateUserPassword key hash)
  write_succeeds : w.env.fails = false
  again : ∃ ev, (true, ev) ∈ r ∧ (ev.before.live u).isSome

namespace Race

variable {l r : List (Bool × Step)} {w : Step} (h : Race d key u hash s s' log l r w)

include h

theorem writes : w.op.WritesAccounts := by
  rcases h.write with ⟨_, -, hop⟩
  rw [hop]
  trivial

/-- The reset writes only once. -/
theorem reset_quiet_before {ev : Step} (hev : (true, ev) ∈ l) : ¬ ev.op.WritesAccounts :=
  (h.reset l w r h.log_eq h.writes).1 ev (Pool.mem_own.mpr hev)

theorem reset_quiet_after {ev : Step} (hev : (true, ev) ∈ r) : ¬ ev.op.WritesAccounts := by
  rcases List.append_of_mem hev with ⟨m, m', rfl⟩
  intro hwrites
  have hlog : log = (l ++ (true, w) :: m) ++ (true, ev) :: m' := by
    rw [h.log_eq]
    simp
  exact (h.reset _ _ _ hlog hwrites).1 w (by simp) h.writes

theorem kind {k : Bool} {ev : Step} (hev : (k, ev) ∈ log) : ¬ ev.op.WritesAccounts ∨
    (∃ key firstName email encrypted lookupHash passwordHash, ev.op =
      .db (.updateUserProfile key firstName email encrypted lookupHash passwordHash)) ∨
    ∃ key hash, ev.op = .db (.updateUserPassword key hash) := by
  rcases List.append_of_mem hev with ⟨m, m', hlog⟩
  by_cases hwrites : ev.op.WritesAccounts
  · cases k with
    | false =>
        rcases (h.edit m ev m' hlog).writes hwrites with ⟨-, _, -, _, -, -, _, _, _, _, hop⟩
        exact Or.inr (Or.inl ⟨_, _, _, _, _, _, hop⟩)
    | true => exact Or.inr (Or.inr (h.reset m ev m' hlog hwrites).2)
  · exact Or.inl hwrites

/-- Its password is there once written. -/
theorem hash_after : w.after.passwordHash u = some hash := by
  have hexec := h.executes
  rw [h.log_eq, List.map_append, List.map_cons] at hexec
  rcases hexec.split with ⟨-, hafter, hrest⟩
  -- the account is there, since it is found afterwards
  have hsome : (w.after.live u).isSome := by
    rcases h.again with ⟨again, hagain, hlive⟩
    rcases List.append_of_mem hagain with ⟨m, m', rfl⟩
    rw [List.map_append, List.map_cons] at hrest
    rwa [live_isSome_of_executes hrest.split.1] at hlive
    intro ev hev
    rcases List.mem_map.mp hev with ⟨⟨k, ev'⟩, hentry, rfl⟩
    refine h.kind (k := k) ?_
    rw [h.log_eq]
    simp [hentry]
  rcases h.write with ⟨key', hid, hop⟩
  rcases w with ⟨op, e, s, s'⟩
  dsimp only at hafter hop hsome ⊢
  subst hop
  rw [hafter, live_updateUserPassword h.write_succeeds, Option.isSome_map] at hsome
  rw [hafter]
  unfold Database.passwordHash
  rw [live_updateUserPassword h.write_succeeds]
  rcases Option.isSome_iff_exists.mp hsome with ⟨account, haccount⟩
  rw [haccount]
  simp [hid]

/-- Where `Straddles` looks. -/
theorem straddles_iff : Straddles log ↔ (∃ read, (false, read) ∈ l ∧ read.op.Loads) ∧
    ∃ write, (false, write) ∈ r ∧ StoresAccount write := by
  constructor
  · rintro ⟨l', w', r', hlog, hwrites, hread, hwrite⟩
    have hfirst := Pool.eq_of_first (P := fun entry : Bool × Step => entry.1 = true ∧
      entry.2.op.WritesAccounts) (h.log_eq.symm.trans hlog) ⟨rfl, h.writes⟩ ⟨rfl, hwrites⟩ ?_ ?_
    · rcases hfirst with ⟨rfl, -, rfl⟩
      exact ⟨hread, hwrite⟩
    · rintro ⟨k, ev⟩ hev ⟨rfl, hop⟩
      exact h.reset_quiet_before hev hop
    · rintro ⟨k, ev⟩ hev ⟨rfl, hop⟩
      exact (h.reset l' w' r' hlog hwrites).1 ev (Pool.mem_own.mpr hev) hop
  · rintro ⟨hread, hwrite⟩
    exact ⟨l, w, r, h.log_eq, h.writes, hread, hwrite⟩

/-- If the edit writes nothing afterwards the password stays. -/
theorem kept_of_no_write (hno : ¬ ∃ write, (false, write) ∈ r ∧ StoresAccount write) :
    s'.passwordHash u = some hash := by
  have hexec := h.executes
  rw [h.log_eq, List.map_append, List.map_cons] at hexec
  have hlive := live_of_executes (u := u) hexec.split.2.2 ?_
  · rw [← h.hash_after]
    unfold Database.passwordHash
    rw [hlive]
  · intro ev hev
    rcases List.mem_map.mp hev with ⟨⟨k, ev'⟩, hentry, rfl⟩
    cases k with
    | false => exact fun hstores => hno ⟨ev', hentry, hstores⟩
    | true => exact not_storesAccount (h.reset_quiet_after hentry)

/-- Around the edit's write nobody else writes. -/
theorem quiet_around {m m' : List (Bool × Step)} {write : Step}
    (hr : r = m ++ (false, write) :: m') (hwrites : write.op.WritesAccounts) :
    (∀ ev ∈ l.map Prod.snd, ¬ StoresAccount ev) ∧ (∀ ev ∈ m.map Prod.snd, ¬ StoresAccount ev) ∧
      ∀ ev ∈ m'.map Prod.snd, ¬ StoresAccount ev := by
  have hlog := h.log_eq
  rw [hr] at hlog
  have hfirst := ((h.edit (l ++ (true, w) :: m) write m' (by rw [hlog]; simp)).writes hwrites).1
  refine ⟨?_, ?_, ?_⟩
  · intro ev hev
    rcases List.mem_map.mp hev with ⟨⟨k, ev'⟩, hentry, rfl⟩
    refine not_storesAccount ?_
    cases k with
    | false => exact hfirst ev' (by simp [hentry])
    | true => exact h.reset_quiet_before hentry
  · intro ev hev
    rcases List.mem_map.mp hev with ⟨⟨k, ev'⟩, hentry, rfl⟩
    refine not_storesAccount ?_
    cases k with
    | false => exact hfirst ev' (by simp [hentry])
    | true => exact h.reset_quiet_after (by rw [hr]; simp [hentry])
  · intro ev hev
    rcases List.mem_map.mp hev with ⟨⟨k, ev'⟩, hentry, rfl⟩
    refine not_storesAccount ?_
    cases k with
    | false =>
        rcases List.append_of_mem hentry with ⟨p, p', rfl⟩
        intro hwrites'
        have hlog' : log = (l ++ (true, w) :: (m ++ (false, write) :: p)) ++ (false, ev') :: p' := by
          rw [hlog]
          simp
        exact ((h.edit _ ev' p' hlog').writes hwrites').1 write (by simp) hwrites
    | true => exact h.reset_quiet_after (by rw [hr]; simp [hentry])

/-- A write of the edit afterwards puts back what it has read. -/
theorem kept_iff_of_write {write : Step} (hwrite : (false, write) ∈ r)
    (hstores : StoresAccount write) :
    s'.passwordHash u = some hash ↔
      ((∃ read, (false, read) ∈ l ∧ read.op.Loads) → s.passwordHash u = some hash) := by
  rcases List.append_of_mem hwrite with ⟨m, m', hr⟩
  have hlog := h.log_eq
  rw [hr] at hlog
  have hedit := h.edit (l ++ (true, w) :: m) write m' (by rw [hlog]; simp)
  rcases hedit.writes hstores.1 with ⟨hfree, read, hread, row, hloads, hrow, _, _, _, _, hop⟩
  rcases h.quiet_around hr hstores.1 with ⟨hl, hm, hm'⟩
  have hexec := h.executes
  rw [hlog, List.map_append, List.map_cons, List.map_append, List.map_cons] at hexec
  rcases hexec.split with ⟨hbefore, -, hrest⟩
  rcases hrest.split with ⟨hbetween, hafter, hlast⟩
  -- what was read ends up in the row
  have hfinal : s'.passwordHash u = some row.passwordHash := by
    have hset := h.hash_after
    unfold Database.passwordHash at hset ⊢
    rcases Option.map_eq_some_iff.mp hset with ⟨account, haccount, -⟩
    rw [live_of_executes hlast hm', hafter]
    rw [← live_of_executes hbetween hm] at haccount
    rcases write with ⟨op, e, s₁, s₂⟩
    dsimp only at hop haccount ⊢
    subst hop
    rcases hstores.2 _ rfl with ⟨hf, hq⟩
    rw [live_updateUserProfile hf hq, haccount]
    simp [h.key_isId]
  rw [hfinal, Option.some.injEq]
  have hmem := Pool.mem_own.mp hread
  by_cases hearly : ∃ read, (false, read) ∈ l ∧ read.op.Loads
  · -- it was read before the reset's write
    rcases hearly with ⟨read₀, hread₀, hloads₀⟩
    have hmem' : (false, read) ∈ l := by
      rcases List.mem_append.mp hmem with hmem | hmem
      · exact hmem
      · rcases List.mem_cons.mp hmem with heq | hmem
        · cases heq
        · rcases List.append_of_mem hmem with ⟨p, p', rfl⟩
          have hlog' : log = (l ++ (true, w) :: p) ++ (false, read) ::
              (p' ++ (false, write) :: m') := by
            rw [hlog]
            simp
          rcases (h.edit _ _ _ hlog').loads hloads with hnone | ⟨ev, hev, hwrites⟩
          · exact absurd hloads₀ (hnone read₀ (by simp [hread₀]))
          · refine absurd hwrites (hfree ev ?_)
            simp only [Pool.own_append, List.mem_append, Pool.mem_own, List.mem_cons] at hev ⊢
            tauto
    have hlive := live_before (u := u) hbefore hl (List.mem_map_of_mem hmem')
    rw [hrow] at hlive
    rw [forall_prop_of_true ⟨read₀, hread₀, hloads₀⟩]
    unfold Database.passwordHash
    rw [← hlive, Option.map_some, Option.some.injEq]
  · -- it was read afterwards
    refine iff_of_true ?_ fun h => absurd h hearly
    have hmem' : (false, read) ∈ m := by
      rcases List.mem_append.mp hmem with hmem | hmem
      · exact absurd ⟨read, hmem, hloads⟩ hearly
      · rcases List.mem_cons.mp hmem with heq | hmem
        · cases heq
        · exact hmem
    have hlive := live_before (u := u) hbetween hm (List.mem_map_of_mem hmem')
    have hset := h.hash_after
    unfold Database.passwordHash at hset
    rw [← hlive, hrow, Option.map_some, Option.some.injEq] at hset
    exact hset

end Race

/-- The arguments of the two requests. -/
structure EditAndReset where
  editHeaders : Headers
  id : String
  payload : UpdateUserPayload
  resetHeaders : Headers
  token : String
  newPassword : String

/-- The edit and the reset, and the database they meet. -/
def editAndReset (d : Deployment) (x : EditAndReset) (s : Database) :
    Pool Bool Op Op.Res Reply Database where
  threads
    | false => updateUserRoute d x.editHeaders x.id x.payload
    | true => resetPassword d x.resetHeaders x.token x.newPassword
  store := s

/-- **A profile edit beside a password reset.** A successful reset has set the
password of some account; where that is the account edited, the password is there
afterwards if and only if the edit does not straddle the reset's write, or the
password was the same from the start. -/
theorem reset_kept_iff (d : Deployment) (x : EditAndReset) (s : Database) (u : Uuid)
    (hname : d.Names x.id u) (hpayload : x.payload.password.filter (· != "") = none)
    (schedule : List (Bool × Env)) (reply : Reply)
    (hreply : ((editAndReset d x s).after (exec d) schedule).answer true = some reply)
    (hok : reply.status < 400) :
    ∃ v hash, ResetTo v hash (Pool.own true ((editAndReset d x s).log (exec d) schedule)) ∧
      (v = u → (((editAndReset d x s).after (exec d) schedule).store.passwordHash u = some hash ↔
        ¬ Straddles ((editAndReset d x s).log (exec d) schedule) ∨
          s.passwordHash u = some hash)) := by
  rcases hname with ⟨key, hkey, hid⟩
  have hedit : ((editAndReset d x s).threads false).Guarantees (exec d) (EditStep key u)
      (fun _ _ => True) [] := updateUserRoute_guarantees hkey hid hpayload
  have hreset : ((editAndReset d x s).threads true).Guarantees (exec d) ResetStep ResetDone [] :=
    resetPassword_guarantees _ _
  have hall : ∀ i, ((editAndReset d x s).threads i).Guarantees (exec d)
      (fun h op => match i with | false => EditStep key u h op | true => ResetStep h op)
      (fun h reply => match i with | false => True | true => ResetDone h reply) [] := by
    intro i
    cases i with
    | false => exact hedit
    | true => exact hreset
  rcases Pool.guarantees hall schedule with ⟨hthreads, hsteps⟩
  have hdone := hthreads true
  rw [Pool.threads_of_answer hreply] at hdone
  rcases hdone hok with ⟨v, hash, hto⟩
  refine ⟨v, hash, hto, ?_⟩
  rintro rfl
  rcases hto with ⟨L, w, again, R, key', hown, hid', hop, hf, hsome⟩
  rcases Pool.own_eq_append hown with ⟨l, r, hlog, -, hr⟩
  have hrace : Race d key v hash s ((editAndReset d x s).after (exec d) schedule).store
      ((editAndReset d x s).log (exec d) schedule) l r w := by
    have hexec : Executes (exec d) s (((editAndReset d x s).log (exec d) schedule).map Prod.snd)
        ((editAndReset d x s).after (exec d) schedule).store :=
      Pool.executes (c := editAndReset d x s) schedule
    refine ⟨hid, hexec, fun l ev r h => hsteps l false ev r h,
      fun l ev r h => hsteps l true ev r h, hlog, ⟨key', hid', hop⟩, hf, again, ?_, hsome⟩
    rw [← Pool.mem_own, hr]
    exact List.mem_cons_self ..
  rw [hrace.straddles_iff, not_and_or]
  by_cases hwrite : ∃ write, (false, write) ∈ r ∧ StoresAccount write
  · rcases hwrite with ⟨write, hmem, hstores⟩
    rw [hrace.kept_iff_of_write hmem hstores, imp_iff_not_or,
      or_iff_left (not_not.mpr ⟨write, hmem, hstores⟩)]
  · exact iff_of_true (hrace.kept_of_no_write hwrite) (Or.inl (Or.inr hwrite))

end Race

/-- The token of a link that resets the reviewer's password. -/
def sampleResetRow : ApprovalTokenRow :=
  ⟨20, sampleReviewer.id, "17bc088ba1cc4705ebba48f1314d6f37199f936af4ef5a2be517a068f62ea263",
    passwordResetPurpose, sampleNow, Timestamp.seconds 1111119999, none, none⟩

def sampleResetDatabase : Database := { sampleDatabase with approvalTokens := [sampleResetRow] }

/-- A new nickname, and a new password. -/
def sampleEditAndReset : EditAndReset where
  editHeaders := sampleBearer sampleAdmin
  id := sampleReviewer.id.text
  payload := ⟨some "Ece", none, none, none⟩
  resetHeaders := Auth.sampleHeaders
  token := "00000-00000"
  newPassword := "Abcdef1!"

/-- The edit reads the row, the reset runs, and the edit writes the row. -/
def sampleStraddling : List (Bool × Env) :=
  (List.replicate 2 false ++ List.replicate 9 true ++ List.replicate 6 false).map fun i =>
    (i, Auth.steadily sampleNow 0 0)

/-- The edit after the reset. -/
def sampleOneByOne : List (Bool × Env) :=
  (List.replicate 9 true ++ List.replicate 8 false).map fun i => (i, Auth.steadily sampleNow 0 0)

theorem reset_kept_sample :
    let pool := editAndReset (sampleDeployment .postgres) sampleEditAndReset sampleResetDatabase
    let d := sampleDeployment .postgres
    ∃ v hash, ResetTo v hash (Pool.own true (pool.log (exec d) sampleOneByOne)) ∧
      (v = sampleReviewer.id →
        ((pool.after (exec d) sampleOneByOne).store.passwordHash sampleReviewer.id = some hash ↔
          ¬ Straddles (pool.log (exec d) sampleOneByOne) ∨
            sampleResetDatabase.passwordHash sampleReviewer.id = some hash)) :=
  reset_kept_iff (sampleDeployment .postgres) sampleEditAndReset sampleResetDatabase
    sampleReviewer.id ⟨.uuid 5, by decide +kernel, by decide⟩ rfl sampleOneByOne
    (message "auth.passwordResetSuccess") rfl (by decide)

/-- The reset succeeds, and the old password is back. -/
theorem old_password_back :
    let final := (editAndReset (sampleDeployment .postgres) sampleEditAndReset
      sampleResetDatabase).after (exec (sampleDeployment .postgres)) sampleStraddling
    (final.answer true).map (·.status) = some 200 ∧ (final.answer false).map (·.status) = some 200 ∧
      final.store.passwordHash sampleReviewer.id = some sampleReviewer.passwordHash ∧
      sampleReviewer.passwordHash ≠ samplePasswordHash := by
  decide +kernel

end AnatoliaBis.App
