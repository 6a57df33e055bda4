import AnatoliaBis.App.AccountRows

/-! # Concurrent flag updates

`update_user_flags` reads the row, merges the given flags into it, and writes all
four columns back. Two calls on one account, their statements interleaved: what one
call sets and the other leaves alone is there in the end exactly if the calls do not
overlap, or the row had it already.
-/

namespace AnatoliaBis.App

open Atomic Program
open Auth (Env Key)

/-! ## What a call sets -/

/-- The row has every value the update gives. -/
structure FlagUpdate.SetIn (flags : FlagUpdate) (row : Account) : Prop where
  isApproved : ∀ value ∈ flags.isApproved, row.isApproved = value
  isBanned : ∀ value ∈ flags.isBanned, row.isBanned = value
  banReason : ∀ value ∈ flags.banReason, row.banReason = some value
  role : ∀ value ∈ flags.role, row.role = value

/-- The values given by this update alone. -/
def FlagUpdate.only (flags other : FlagUpdate) : FlagUpdate where
  isApproved := if other.isApproved.isNone then flags.isApproved else none
  isBanned := if other.isBanned.isNone then flags.isBanned else none
  banReason := if other.banReason.isNone then flags.banReason else none
  role := if other.role.isNone then flags.role else none

/-- The updates set different fields. -/
def FlagUpdate.Disjoint (flags other : FlagUpdate) : Prop :=
  (flags.isApproved.isNone ∨ other.isApproved.isNone) ∧
    (flags.isBanned.isNone ∨ other.isBanned.isNone) ∧
    (flags.banReason.isNone ∨ other.banReason.isNone) ∧ (flags.role.isNone ∨ other.role.isNone)

/-- The account has every value the update gives. -/
def Database.Has (s : Database) (u : Uuid) (flags : FlagUpdate) : Prop :=
  ∃ row, s.live u = some row ∧ flags.SetIn row

section Merge

variable {flags other : FlagUpdate} {row row' : Account}

theorem setIn_merge (flags : FlagUpdate) (row : Account) : flags.SetIn (flags.merge row) := by
  constructor
  all_goals
    intro value h
    simp [FlagUpdate.merge, Option.mem_def.mp h]

theorem FlagUpdate.SetIn.only (h : flags.SetIn row) : (flags.only other).SetIn row := by
  constructor
  · intro value hvalue
    exact h.isApproved value (Option.mem_ite_none_right.mp hvalue).2
  · intro value hvalue
    exact h.isBanned value (Option.mem_ite_none_right.mp hvalue).2
  · intro value hvalue
    exact h.banReason value (Option.mem_ite_none_right.mp hvalue).2
  · intro value hvalue
    exact h.role value (Option.mem_ite_none_right.mp hvalue).2

/-- A field the update leaves alone is taken from the row that was read. -/
theorem merge_of_none (flags : FlagUpdate) (row : Account) :
    (flags.isApproved.isNone → (flags.merge row).isApproved = row.isApproved) ∧
    (flags.isBanned.isNone → (flags.merge row).isBanned = row.isBanned) ∧
    (flags.banReason.isNone → (flags.merge row).banReason = row.banReason) ∧
    (flags.role.isNone → (flags.merge row).role = row.role) := by
  refine ⟨fun h => ?_, fun h => ?_, fun h => ?_, fun h => ?_⟩
  all_goals
    rw [Option.isNone_iff_eq_none] at h
    simp [FlagUpdate.merge, h]

theorem FlagUpdate.SetIn.only_congr (h : (other.only flags).SetIn row)
    (happroved : flags.isApproved.isNone → row'.isApproved = row.isApproved)
    (hbanned : flags.isBanned.isNone → row'.isBanned = row.isBanned)
    (hreason : flags.banReason.isNone → row'.banReason = row.banReason)
    (hrole : flags.role.isNone → row'.role = row.role) : (other.only flags).SetIn row' := by
  constructor
  · intro value hvalue
    rw [happroved (Option.mem_ite_none_right.mp hvalue).1]
    exact h.isApproved value hvalue
  · intro value hvalue
    rw [hbanned (Option.mem_ite_none_right.mp hvalue).1]
    exact h.isBanned value hvalue
  · intro value hvalue
    rw [hreason (Option.mem_ite_none_right.mp hvalue).1]
    exact h.banReason value hvalue
  · intro value hvalue
    rw [hrole (Option.mem_ite_none_right.mp hvalue).1]
    exact h.role value hvalue

theorem only_setIn_merge :
    (other.only flags).SetIn (flags.merge row) ↔ (other.only flags).SetIn row := by
  rcases merge_of_none flags row with ⟨happroved, hbanned, hreason, hrole⟩
  constructor
  · intro h
    exact h.only_congr (fun hnone => (happroved hnone).symm) (fun hnone => (hbanned hnone).symm)
      (fun hnone => (hreason hnone).symm) (fun hnone => (hrole hnone).symm)
  · intro h
    exact h.only_congr happroved hbanned hreason hrole

/-- `UPDATE users SET is_approved = …, is_banned = …, ban_reason = …, role = …`. -/
def Account.withFlags (row next : Account) : Account :=
  { row with
    isApproved := next.isApproved
    isBanned := next.isBanned
    banReason := next.banReason
    role := next.role }

/-- Only the four columns count. -/
theorem setIn_withFlags {next : Account} :
    flags.SetIn (row.withFlags next) ↔ flags.SetIn next :=
  ⟨fun h => ⟨h.isApproved, h.isBanned, h.banReason, h.role⟩,
    fun h => ⟨h.isApproved, h.isBanned, h.banReason, h.role⟩⟩

end Merge

/-! ## One call -/

section Call

variable {d : Deployment} {id : String} {key : Key} {u : Uuid} {flags : FlagUpdate}

/-- The statement that writes a merged row. -/
def flagsWrite (key : Key) (next : Account) : Op :=
  .db (.updateUserFlags key next.isApproved next.isBanned next.banReason next.role)

/-- The statements of a call that went through: the row is read, written and read
again. -/
structure Carries (key : Key) (u : Uuid) (flags : FlagUpdate) (h : List Step)
    (read write : Step) (row : Account) : Prop where
  history : ∃ again, h = [read, write, again] ∧ again.op = .db (.loadUserById key)
  read_op : read.op = .db (.loadUserById key)
  read_live : read.before.live u = some row
  write_op : write.op = flagsWrite key (flags.merge row)
  write_succeeds : write.env.fails = false

theorem updateUserFlags_guarantees (hkey : d.key id = some key) (hid : key.isId u = true)
    (flags : FlagUpdate) :
    (updateUserFlags d id flags).Guarantees (exec d) (fun _ _ => True)
      (fun h answer => ∀ account, answer = .ok (some account) →
        ∃ read write row, Carries key u flags h read write row) [] := by
  have hload : loadUserById d id = query (.loadUserById key) := by
    unfold loadUserById
    rw [hkey]
  unfold updateUserFlags
  rw [hload]
  refine guarantees_query trivial fun e s => ?_
  cases hf : e.fails with
  | true =>
      rw [exec_db_of_fails hf]
      intro account h
      cases h
  | false =>
      rw [exec_loadUserById hid hf]
      cases hrow : s.live u with
      | none =>
          intro account h
          cases h
      | some row =>
          dsimp only
          rw [hkey]
          refine guarantees_query trivial fun e' s' => ?_
          cases hf' : e'.fails with
          | true =>
              rw [exec_db_of_fails hf']
              intro account h
              cases h
          | false =>
              rw [exec_db_of_succeeds hf' rfl]
              refine ⟨trivial, fun e'' s'' account _ => ?_⟩
              exact ⟨_, _, row, ⟨_, rfl, rfl⟩, rfl, hrow, rfl, hf'⟩

/-- What the write leaves behind. -/
theorem live_exec_flagsWrite {e : Env} {s : Database} (hid : key.isId u = true)
    (hf : e.fails = false) (next : Account) :
    (exec d (flagsWrite key next) e s).1.live u =
      (s.live u).map fun row => row.withFlags next := by
  unfold flagsWrite
  rw [exec_db_of_succeeds hf rfl]
  show (s.updateUser key (fun row => { row with isApproved := next.isApproved,
                                                isBanned := next.isBanned, role := next.role })
    fun details => { details with banReason := next.banReason }).live u = _
  rw [live_updateUser]
  · simp only [hid, if_true]
    rfl
  · exact fun _ => rfl
  · exact fun _ => rfl

theorem live_flagsWrite {ev : Step} {next : Account} (hid : key.isId u = true)
    (hev : ev.after = (exec d ev.op ev.env ev.before).1) (hop : ev.op = flagsWrite key next)
    (hf : ev.env.fails = false) :
    ev.after.live u = (ev.before.live u).map fun row => row.withFlags next := by
  rw [hev, hop]
  exact live_exec_flagsWrite hid hf next

end Call

/-! ## Two calls -/

/-- The arguments of a call. -/
structure FlagCall where
  id : String
  flags : FlagUpdate

/-- Two calls, and the database they meet. -/
def flagCalls (d : Deployment) (calls : Bool → FlagCall) (s : Database) :
    Pool Bool Op Op.Res (Except QueryError (Option Account)) Database :=
  ⟨fun i => updateUserFlags d (calls i).id (calls i).flags, s⟩

/-- The first write is `i`'s, and comes after `l`. -/
def FirstWrite (log l : List (Bool × Step)) (i : Bool) : Prop :=
  ∃ ev r, log = l ++ (i, ev) :: r ∧ ev.op.WritesAccounts ∧
    ∀ entry ∈ l, ¬ entry.2.op.WritesAccounts

section TwoCalls

variable {d : Deployment} {s s' : Database} {u : Uuid} {log l l' : List (Bool × Step)} {i j : Bool}

theorem FirstWrite.unique (h : FirstWrite log l i) (h' : FirstWrite log l' j) : l = l' ∧ i = j := by
  rcases h with ⟨ev, r, rfl, hev, hl⟩
  rcases h' with ⟨ev', r', heq, hev', hl'⟩
  rcases Pool.eq_of_first (P := fun entry => entry.2.op.WritesAccounts) heq hev hev' hl hl' with
    ⟨rfl, hentry, -⟩
  exact ⟨rfl, (Prod.mk.inj hentry).1⟩

/-- The call `i` writes first. -/
theorem kept_iff_of_order {calls : Bool → FlagCall} {keys : Bool → Key}
    (hkeys : ∀ i, (keys i).isId u = true) {m r : List (Bool × Step)}
    {read write : Bool → Step} {row : Bool → Account}
    (hcarries : ∀ i, Carries (keys i) u (calls i).flags (Pool.own i log) (read i) (write i) (row i))
    (hlog : log = l ++ (i, write i) :: (m ++ (!i, write !i) :: r))
    (hi : Pool.own i l = [read i]) (hj : Pool.own (!i) (l ++ m) = [read !i])
    (hl : ∀ ev ∈ l.map Prod.snd, ¬ StoresAccount ev)
    (hm : ∀ ev ∈ m.map Prod.snd, ¬ StoresAccount ev)
    (hr : ∀ ev ∈ r.map Prod.snd, ¬ StoresAccount ev)
    (hexec : Executes (exec d) s (log.map Prod.snd) s') :
    (∀ k, s'.Has u ((calls k).flags.only (calls !k).flags)) ↔
      Pool.own (!i) l = [] ∨ s.Has u ((calls i).flags.only (calls !i).flags) := by
  rw [hlog, List.map_append, List.map_cons, List.map_append, List.map_cons] at hexec
  rcases hexec.split with ⟨hbefore, hwrite, hrest⟩
  rcases hrest.split with ⟨hbetween, hwrite', hafter⟩
  -- the first call reads what was there, and writes it back merged
  have hread : s.live u = some (row i) := by
    have hmem : (i, read i) ∈ l := by
      rw [← Pool.mem_own, hi]
      exact List.mem_singleton_self _
    rw [← live_before hbefore hl (List.mem_map_of_mem hmem), (hcarries i).read_live]
  have hfirst : (write i).after.live u =
      some ((row i).withFlags ((calls i).flags.merge (row i))) := by
    rw [live_flagsWrite (hkeys i) hwrite (hcarries i).write_op (hcarries i).write_succeeds,
      live_of_executes hbefore hl, hread, Option.map_some]
  -- the second one writes last
  have hfinal : s'.live u = some (((row i).withFlags ((calls i).flags.merge (row i))).withFlags
      ((calls !i).flags.merge (row !i))) := by
    rw [live_of_executes hafter hr, live_flagsWrite (hkeys !i) hwrite' (hcarries !i).write_op
      (hcarries !i).write_succeeds, live_of_executes hbetween hm, hfirst, Option.map_some]
  have hhas : ∀ flags, s'.Has u flags ↔ flags.SetIn ((calls !i).flags.merge (row !i)) := by
    intro flags
    unfold Database.Has
    rw [hfinal]
    simp only [Option.some.injEq, exists_eq_left', setIn_withFlags]
  have hsecond : s'.Has u ((calls !i).flags.only (calls i).flags) :=
    (hhas _).mpr (setIn_merge _ _).only
  have hall : (∀ k, s'.Has u ((calls k).flags.only (calls !k).flags)) ↔
      ((calls i).flags.only (calls !i).flags).SetIn (row !i) := by
    rw [← only_setIn_merge, ← hhas]
    constructor
    · intro h
      exact h i
    · intro h k
      rcases Bool.eq_or_eq_not k i with rfl | rfl
      · exact h
      · rwa [Bool.not_not]
  rw [hall]
  have hmem : (!i, read !i) ∈ l ++ m := by
    rw [← Pool.mem_own, hj]
    exact List.mem_singleton_self _
  by_cases hstarted : Pool.own (!i) l = []
  · -- it has read what the first one wrote
    refine iff_of_true ?_ (Or.inl hstarted)
    have hmem' : (!i, read !i) ∈ m := by
      rcases List.mem_append.mp hmem with h | h
      · rw [← Pool.mem_own, hstarted] at h
        cases h
      · exact h
    have hlive := live_before (u := u) hbetween hm (List.mem_map_of_mem hmem')
    rw [(hcarries !i).read_live, hfirst, Option.some.injEq] at hlive
    rw [hlive, setIn_withFlags]
    exact (setIn_merge _ _).only
  · -- it has read what was there at first
    rw [or_iff_right hstarted]
    have hmem' : (!i, read !i) ∈ l := by
      rw [Pool.own_append, List.append_eq_singleton_iff] at hj
      rcases hj with ⟨h, -⟩ | ⟨h, -⟩
      · exact absurd h hstarted
      · rw [← Pool.mem_own, h]
        exact List.mem_singleton_self _
    have hlive := live_before (u := u) hbefore hl (List.mem_map_of_mem hmem')
    rw [(hcarries !i).read_live] at hlive
    unfold Database.Has
    rw [← hlive]
    simp only [Option.some.injEq, exists_eq_left']

/-- What is left of a call's history around its write. -/
theorem Carries.quiet {key : Key} {flags : FlagUpdate} {h : List Step} {read write : Step}
    {row : Account} (hc : Carries key u flags h read write row) :
    ∃ again, h = [read] ++ write :: [again] ∧ ¬ read.op.WritesAccounts ∧
      ¬ again.op.WritesAccounts := by
  rcases hc.history with ⟨again, hh, hagain⟩
  refine ⟨again, hh, ?_, ?_⟩
  · rw [hc.read_op]
    exact id
  · rw [hagain]
    exact id

/-- **Concurrent flag updates.** Of two acknowledged calls on one account, the values
that only one of them gives are all in the row in the end if and only if the call
that writes later had not begun when the other wrote, or the row had the other's
values from the start. -/
theorem flags_kept_iff (d : Deployment) (calls : Bool → FlagCall) (s : Database) (u : Uuid)
    (hnames : ∀ i, d.Names (calls i).id u) (schedule : List (Bool × Env))
    (hacknowledged : ∀ i, ∃ row, ((flagCalls d calls s).after (exec d) schedule).answer i =
      some (.ok (some row))) :
    (∀ i, ((flagCalls d calls s).after (exec d) schedule).store.Has u
        ((calls i).flags.only (calls !i).flags)) ↔
      ∃ i l, FirstWrite ((flagCalls d calls s).log (exec d) schedule) l i ∧
        (Pool.own (!i) l = [] ∨ s.Has u ((calls i).flags.only (calls !i).flags)) := by
  choose keys hkey hid using hnames
  have hall : ∀ i, ((flagCalls d calls s).threads i).Guarantees (exec d) (fun _ _ => True)
      (fun h answer => ∀ account, answer = .ok (some account) →
        ∃ read write row, Carries (keys i) u (calls i).flags h read write row) [] :=
    fun i => updateUserFlags_guarantees (hkey i) (hid i) (calls i).flags
  have hdone : ∀ i, ∃ read write row, Carries (keys i) u (calls i).flags
      (Pool.own i ((flagCalls d calls s).log (exec d) schedule)) read write row := by
    intro i
    rcases hacknowledged i with ⟨account, hanswer⟩
    have hi := (Pool.guarantees hall schedule).1 i
    rw [Pool.threads_of_answer hanswer] at hi
    exact hi account rfl
  choose read write row hcarries using hdone
  have hexec : Executes (exec d) s (((flagCalls d calls s).log (exec d) schedule).map Prod.snd)
      ((flagCalls d calls s).after (exec d) schedule).store :=
    Pool.executes (c := flagCalls d calls s) schedule
  generalize (flagCalls d calls s).log (exec d) schedule = log at *
  generalize ((flagCalls d calls s).after (exec d) schedule).store = s' at *
  have hwrites : ∀ i, (write i).op.WritesAccounts := by
    intro i
    rw [(hcarries i).write_op]
    trivial
  choose again hown hread hagain using fun i => (hcarries i).quiet
  -- whichever call writes first
  have horder : ∀ i l m r, log = l ++ (i, write i) :: (m ++ (!i, write !i) :: r) →
      Pool.own i l = [read i] → Pool.own i (m ++ r) = [again i] →
      Pool.own (!i) (l ++ m) = [read !i] → Pool.own (!i) r = [again !i] →
      ((∀ k, s'.Has u ((calls k).flags.only (calls !k).flags)) ↔
        ∃ i l, FirstWrite log l i ∧
          (Pool.own (!i) l = [] ∨ s.Has u ((calls i).flags.only (calls !i).flags))) := by
    intro i l m r hlog hi hi' hj hj'
    have hquiet : ∀ ev ∈ (l ++ (m ++ r)).map Prod.snd, ¬ ev.op.WritesAccounts := by
      intro ev hev
      rcases List.mem_map.mp hev with ⟨⟨k, ev'⟩, hentry, rfl⟩
      have hmem : ev' ∈ Pool.own k (l ++ (m ++ r)) := Pool.mem_own.mpr hentry
      rcases Bool.eq_or_eq_not k i with rfl | rfl
      · rw [Pool.own_append, hi, hi'] at hmem
        rcases List.mem_pair.mp hmem with rfl | rfl
        · exact hread k
        · exact hagain k
      · rw [← List.append_assoc, Pool.own_append, hj, hj'] at hmem
        rcases List.mem_pair.mp hmem with rfl | rfl
        · exact hread _
        · exact hagain _
    simp only [List.map_append, List.forall_mem_append] at hquiet
    rcases hquiet with ⟨hl, hm, hr⟩
    rw [kept_iff_of_order hid hcarries hlog hi hj (fun ev h => not_storesAccount (hl ev h))
      (fun ev h => not_storesAccount (hm ev h)) (fun ev h => not_storesAccount (hr ev h)) hexec]
    have hfirst : FirstWrite log l i :=
      ⟨write i, _, hlog, hwrites i, fun entry h => hl _ (List.mem_map_of_mem h)⟩
    constructor
    · intro h
      exact ⟨i, l, hfirst, h⟩
    · rintro ⟨i', l', hfirst', h⟩
      rcases hfirst'.unique hfirst with ⟨rfl, rfl⟩
      exact h
  rcases Pool.own_ordered Bool.false_ne_true (hown false) (hown true) with
    ⟨l, m, r, hlog, hl, hmr, hlm, hr⟩ | ⟨l, m, r, hlog, hl, hmr, hlm, hr⟩
  · exact horder false l m r hlog hl hmr hlm hr
  · exact horder true l m r hlog hl hmr hlm hr

end TwoCalls

/-- A ban and a change of role of the same account. -/
def sampleFlagCalls (second : Bool) : FlagCall where
  id := sampleReviewer.id.text
  flags := if second then ⟨none, none, none, some Role.auditor⟩ else ⟨none, some true, none, none⟩

/-- The change of role reads first and writes last. -/
def sampleFlagSchedule : List (Bool × Env) :=
  [true, false, false, false, true, true].map fun i => (i, Auth.steadily sampleNow 0 0)

/-- One call after the other. -/
def sampleFlagSequence : List (Bool × Env) :=
  [true, true, true, false, false, false].map fun i => (i, Auth.steadily sampleNow 0 0)

theorem flags_kept_sample :
    (∀ i, ((flagCalls (sampleDeployment .postgres) sampleFlagCalls sampleDatabase).after
        (exec (sampleDeployment .postgres)) sampleFlagSequence).store.Has sampleReviewer.id
        ((sampleFlagCalls i).flags.only (sampleFlagCalls !i).flags)) ↔
      ∃ i l, FirstWrite ((flagCalls (sampleDeployment .postgres) sampleFlagCalls
          sampleDatabase).log (exec (sampleDeployment .postgres)) sampleFlagSequence) l i ∧
        (Pool.own (!i) l = [] ∨ sampleDatabase.Has sampleReviewer.id
          ((sampleFlagCalls i).flags.only (sampleFlagCalls !i).flags)) :=
  flags_kept_iff (sampleDeployment .postgres) sampleFlagCalls sampleDatabase sampleReviewer.id
    (fun i => ⟨.uuid 5, by cases i <;> decide +kernel, by decide⟩) sampleFlagSequence
    (Bool.forall_bool.mpr ⟨⟨_, rfl⟩, ⟨_, rfl⟩⟩)

/-- The ban is acknowledged and undone. -/
theorem ban_lost :
    let final := (flagCalls (sampleDeployment .postgres) sampleFlagCalls sampleDatabase).after
      (exec (sampleDeployment .postgres)) sampleFlagSchedule
    (∀ i, ∃ row, final.answer i = some (.ok (some row))) ∧
      (sampleFlagCalls false).flags.Disjoint (sampleFlagCalls true).flags ∧
      ¬ final.store.Has sampleReviewer.id (sampleFlagCalls false).flags := by
  intro final
  refine ⟨Bool.forall_bool.mpr ⟨⟨_, rfl⟩, ⟨_, rfl⟩⟩, by unfold FlagUpdate.Disjoint; decide, ?_⟩
  rintro ⟨row, hrow, hset⟩
  have hunbanned : (final.store.live sampleReviewer.id).map (·.isBanned) = some false := by
    decide +kernel
  rw [hrow, Option.map_some, hset.isBanned true rfl] at hunbanned
  cases hunbanned

end AnatoliaBis.App
