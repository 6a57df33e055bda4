import AnatoliaBis.Org.Routes
import AnatoliaBis.Lib.Runs

/-! # Assigning memberships

The unique index over `(user_id, organization_id, organization_unit_id)` takes two absent
units to be different, so the conflict clause never meets a row without one. On PostgreSQL a
unit that is no UUID is dropped before the insert, and so is the whole assignment where the
user or the organization is none.
-/

namespace AnatoliaBis.Org

open Atomic Program
open Auth (Env)

/-! ## What a row records -/

/-- The three columns of the index. -/
def MembershipRow.key (row : MembershipRow) : String × String × Option String :=
  (row.userId, row.organizationId, row.organizationUnitId)

/-- The text that a column keeps of an id, if it can. -/
def keptId (d : App.Deployment) (id : String) : Option String :=
  match d.backend with
  | .postgres => (Uuid.parseStr id).map Uuid.text
  | .sqlite => some id

/-- The row is about this user, this organization and this unit, or no unit. -/
structure MembershipRow.Records (d : App.Deployment) (row : MembershipRow)
    (userId organizationId : String) (organizationUnitId : Option String) : Prop where
  user : keptId d userId = some row.userId
  organization : keptId d organizationId = some row.organizationId
  unit : organizationUnitId.map (keptId d) = row.organizationUnitId.map some

section Assign

variable {d : App.Deployment} {ω : Nat → Env} {e : Env} {s : Directory} {id : Uuid}
  {userId organizationId : String} {unit : Option String}

theorem membershipIds_eq :
    membershipIds d userId organizationId =
      (keptId d userId).bind fun user => (keptId d organizationId).map fun org => (user, org) := by
  unfold membershipIds keptId
  cases d.backend with
  | postgres => cases Uuid.parseStr userId <;> cases Uuid.parseStr organizationId <;> rfl
  | sqlite => rfl

theorem membershipIds_eq_some {user org : String} :
    membershipIds d userId organizationId = some (user, org) ↔
      keptId d userId = some user ∧ keptId d organizationId = some org := by
  rw [membershipIds_eq]
  cases keptId d userId <;> cases keptId d organizationId <;> simp

/-- The index finds a row only for a unit that is there. -/
theorem hasMembership_iff {user org : String} :
    s.hasMembership user org unit = true ↔
      unit.isSome = true ∧ (user, org, unit) ∈ s.memberships.map (·.key) := by
  unfold Directory.hasMembership MembershipRow.key
  rw [Bool.and_eq_true, List.any_eq_true, List.mem_map]
  simp only [Bool.and_eq_true, beq_iff_eq, Prod.mk.injEq, and_assoc]

variable (d e s id unit) in
/-- `INSERT … ON CONFLICT DO NOTHING`: an error, nothing, or a row. -/
theorem exec_assign_cases (user org : String) :
    let r := exec d (.db (.assignMembership id user org unit)) e s
    (r.2 ≠ .ok () ∧ r.1 = s) ∨
      r.2 = .ok () ∧
        (s.hasMembership user org unit = true ∧ r.1 = s ∨
          s.hasMembership user org unit = false ∧
            (d.backend = .postgres → s.hasOrganization org = true) ∧
            r.1 = s.setMemberships
              (s.memberships ++ [⟨id.text, user, org, unit, d.now e.now⟩])) := by
  simp only [exec]
  split_ifs with hfails hviolates
  · exact Or.inl ⟨by simp, rfl⟩
  · exact Or.inl ⟨by simp, rfl⟩
  · right
    refine ⟨rfl, ?_⟩
    simp only [Query.perform]
    cases hhas : s.hasMembership user org unit with
    | true => exact Or.inl ⟨rfl, if_pos rfl⟩
    | false =>
        refine Or.inr ⟨rfl, fun hpostgres => ?_, if_neg Bool.false_ne_true⟩
        by_contra horg
        rw [Bool.not_eq_true] at horg
        apply hviolates
        refine ⟨hpostgres, ?_⟩
        simp [Query.violates, hhas, horg]

variable (unit) in
/-- The identifier is drawn first. -/
theorem run_assignMembership (ω : Nat → Env) (s : Directory) {user org : String}
    (h : membershipIds d userId organizationId = some (user, org)) :
    ∃ s₁ : Directory, s₁.memberships = s.memberships ∧ s₁.organizations = s.organizations ∧
      (assignMembership d userId organizationId unit).run (exec d) ω s =
        ((exec d (.db (.assignMembership s.app.auth.nextId user org (unit.bind (keptId d))))
            (ω 1) s₁).2,
          (exec d (.db (.assignMembership s.app.auth.nextId user org (unit.bind (keptId d))))
            (ω 1) s₁).1) := by
  refine ⟨(exec d (.app (.auth .newId)) (ω 0) s).1, rfl, rfl, ?_⟩
  unfold assignMembership keptId
  rw [h]
  dsimp only
  cases hbackend : d.backend with
  | postgres =>
      have hunit : optionalId unit = unit.bind fun id => (Uuid.parseStr id).map Uuid.text := by
        unfold optionalId
        cases unit <;> rfl
      rw [hunit]
      rfl
  | sqlite =>
      have hunit : unit = unit.bind fun id => some id := by
        cases unit <;> rfl
      rw [← hunit]
      rfl

theorem run_assignMembership_of_dropped (ω : Nat → Env) (s : Directory)
    (h : membershipIds d userId organizationId = none) :
    (assignMembership d userId organizationId unit).run (exec d) ω s = (.ok (), s) := by
  unfold assignMembership
  rw [h]
  rfl

variable (d userId organizationId unit) in
/-- What an assignment does to the table. -/
theorem assign_cases (ω : Nat → Env) (s : Directory) :
    let r := (assignMembership d userId organizationId unit).run (exec d) ω s
    (r.1 ≠ .ok () ∧ r.2.memberships = s.memberships) ∨
      r.1 = .ok () ∧
        (membershipIds d userId organizationId = none ∧ r.2.memberships = s.memberships ∨
          ∃ user org, membershipIds d userId organizationId = some (user, org) ∧
            (s.hasMembership user org (unit.bind (keptId d)) = true ∧
                r.2.memberships = s.memberships ∨
              s.hasMembership user org (unit.bind (keptId d)) = false ∧
                (d.backend = .postgres → s.hasOrganization org = true) ∧
                ∃ row : MembershipRow, row.key = (user, org, unit.bind (keptId d)) ∧
                  r.2.memberships = s.memberships ++ [row])) := by
  dsimp only
  cases hids : membershipIds d userId organizationId with
  | none =>
      rw [run_assignMembership_of_dropped ω s hids]
      exact Or.inr ⟨rfl, Or.inl ⟨rfl, rfl⟩⟩
  | some ids =>
      rcases ids with ⟨user, org⟩
      rcases run_assignMembership unit ω s hids with
        ⟨s₁, hmemberships, horganizations, hrun⟩
      have hhas : s₁.hasMembership user org (unit.bind (keptId d)) =
          s.hasMembership user org (unit.bind (keptId d)) := by
        unfold Directory.hasMembership
        rw [hmemberships]
      have horg : s₁.hasOrganization org = s.hasOrganization org := by
        unfold Directory.hasOrganization
        rw [horganizations]
      have hcases := exec_assign_cases d (ω 1) s₁ s.app.auth.nextId
        (unit.bind (keptId d)) user org
      rw [hhas, horg] at hcases
      rw [hrun]
      rcases hcases with ⟨herror, hsame⟩ | ⟨hok, hfound | ⟨hnew, hthere, hinsert⟩⟩
      · exact Or.inl ⟨herror, by rw [hsame, hmemberships]⟩
      · refine Or.inr ⟨hok, Or.inr ⟨user, org, rfl, Or.inl ⟨hfound.1, ?_⟩⟩⟩
        rw [hfound.2, hmemberships]
      · refine Or.inr ⟨hok, Or.inr ⟨user, org, rfl, Or.inr ⟨hnew, hthere,
          ⟨Uuid.text s.app.auth.nextId, user, org, unit.bind (keptId d), d.now (ω 1).now⟩, rfl, ?_⟩⟩⟩
        rw [hinsert, ← hmemberships]
        rfl

/-- An assignment without a unit that breaks no constraint inserts a row. -/
theorem assign_inserts (hω : (ω 1).fails = false) {user org : String}
    (hids : membershipIds d userId organizationId = some (user, org))
    (hunit : unit.bind (keptId d) = none)
    (horg : d.backend = .postgres → s.hasOrganization org = true) :
    ∃ row s', (assignMembership d userId organizationId unit).run (exec d) ω s = (.ok (), s') ∧
      s'.memberships = s.memberships ++ [row] ∧ s'.organizations = s.organizations := by
  rcases run_assignMembership unit ω s hids with ⟨s₁, hmemberships, horganizations, hrun⟩
  have hvalid : ¬ (d.backend = .postgres ∧
      (Query.assignMembership s.app.auth.nextId user org none).violates s₁ = true) := by
    rintro ⟨hpostgres, hviolates⟩
    have hthere : s₁.hasOrganization org = true := by
      unfold Directory.hasOrganization
      rw [horganizations]
      exact horg hpostgres
    simp [Query.violates, hthere] at hviolates
  have hexec : exec d (.db (.assignMembership s.app.auth.nextId user org none)) (ω 1) s₁ =
      (s₁.setMemberships (s₁.memberships ++
        [⟨Uuid.text s.app.auth.nextId, user, org, none, d.now (ω 1).now⟩]), .ok ()) := by
    simp only [exec, hω, Bool.false_eq_true, if_false, if_neg hvalid]
    rfl
  rw [hunit, hexec] at hrun
  refine ⟨⟨Uuid.text s.app.auth.nextId, user, org, none, d.now (ω 1).now⟩, _, hrun, ?_, ?_⟩
  · rw [← hmemberships]
    rfl
  · exact horganizations

end Assign

/-! ## Once and twice -/

section Once

variable (d : App.Deployment) (s : Directory) (userId organizationId : String)
  (unit : Option String)

/-- Assigning twice is assigning once, and what reports success has left its row. -/
structure AssignedOnce : Prop where
  failed : ∀ ω, ((assignMembership d userId organizationId unit).run (exec d) ω s).1 ≠ .ok () →
    ((assignMembership d userId organizationId unit).run (exec d) ω s).2.memberships = s.memberships
  again : ∀ ω ω' s',
    (assignMembership d userId organizationId unit).run (exec d) ω s = (.ok (), s') →
      ((assignMembership d userId organizationId unit).run (exec d) ω' s').2.memberships =
        s'.memberships
  exact : ∀ ω s', (assignMembership d userId organizationId unit).run (exec d) ω s = (.ok (), s') →
    ∃ row ∈ s'.memberships, row.Records d userId organizationId unit

/-- The columns can keep the two ids, and a unit is given that the third can keep; PostgreSQL
refuses an organization that it does not have, so there the unit does not matter. -/
structure Assignable : Prop where
  user : (keptId d userId).isSome = true
  organization : (keptId d organizationId).isSome = true
  unit : (unit.bind (keptId d)).isSome = true ∨
    d.backend = .postgres ∧ (keptId d organizationId).any s.hasOrganization = false

variable {d s userId organizationId unit}

theorem Assignable.ids (h : Assignable d s userId organizationId unit) :
    membershipIds d userId organizationId ≠ none := by
  rcases Option.isSome_iff_exists.mp h.user with ⟨user, huser⟩
  rcases Option.isSome_iff_exists.mp h.organization with ⟨org, horg⟩
  rw [membershipIds_eq_some.mpr ⟨huser, horg⟩]
  exact nofun

/-- A row is inserted only with a unit. -/
theorem Assignable.unit_of_inserts (h : Assignable d s userId organizationId unit)
    {user org : String} (hids : membershipIds d userId organizationId = some (user, org))
    (horg : d.backend = .postgres → s.hasOrganization org = true) :
    (unit.bind (keptId d)).isSome = true := by
  rcases h.unit with hunit | ⟨hpostgres, hmissing⟩
  · exact hunit
  · rw [(membershipIds_eq_some.mp hids).2, Option.any_some, horg hpostgres] at hmissing
    cases hmissing

/-- An assignment that reports success leaves a row with the three columns. -/
theorem Assignable.inserted (h : Assignable d s userId organizationId unit) {ω : Nat → Env}
    {s' : Directory}
    (hrun : (assignMembership d userId organizationId unit).run (exec d) ω s = (.ok (), s')) :
    ∃ user org, membershipIds d userId organizationId = some (user, org) ∧
      s'.hasMembership user org (unit.bind (keptId d)) = true := by
  have hcases := assign_cases d userId organizationId unit ω s
  rw [hrun] at hcases
  rcases hcases with ⟨herror, -⟩ | ⟨-, ⟨hnone, -⟩ | ⟨user, org, hids, hrow⟩⟩
  · exact absurd rfl herror
  · exact absurd hnone h.ids
  · refine ⟨user, org, hids, ?_⟩
    rcases hrow with ⟨hfound, hsame⟩ | ⟨-, horg, row, hkey, hinsert⟩
    · unfold Directory.hasMembership at hfound ⊢
      rw [hsame]
      exact hfound
    · rw [hasMembership_iff]
      constructor
      · exact h.unit_of_inserts hids horg
      · rw [hinsert, List.map_append, ← hkey]
        simp

theorem Assignable.assignedOnce (h : Assignable d s userId organizationId unit) :
    AssignedOnce d s userId organizationId unit := by
  constructor
  · intro ω hfails
    rcases assign_cases d userId organizationId unit ω s with ⟨-, hsame⟩ | ⟨hok, -⟩
    · exact hsame
    · exact absurd hok hfails
  · intro ω ω' s' hrun
    rcases h.inserted hrun with ⟨user, org, hids, hhas⟩
    rcases assign_cases d userId organizationId unit ω' s' with
      ⟨-, hsame⟩ | ⟨-, ⟨hnone, -⟩ | ⟨user', org', hids', hrow⟩⟩
    · exact hsame
    · exact absurd hnone h.ids
    · rcases Option.some.inj (hids.symm.trans hids') with ⟨rfl, rfl⟩
      rcases hrow with ⟨-, hsame⟩ | ⟨hnew, -⟩
      · exact hsame
      · rw [hhas] at hnew
        cases hnew
  · intro ω s' hrun
    rcases h.inserted hrun with ⟨user, org, hids, hhas⟩
    rcases hasMembership_iff.mp hhas with ⟨hunit, hmem⟩
    rcases List.mem_map.mp hmem with ⟨row, hrow, hkey⟩
    rcases row with ⟨id, rowUser, rowOrg, rowUnit, createdAt⟩
    rcases hkey with ⟨⟩
    rcases membershipIds_eq_some.mp hids with ⟨huser, horg⟩
    refine ⟨_, hrow, huser, horg, ?_⟩
    cases unit with
    | none => cases hunit
    | some given =>
        rcases Option.isSome_iff_exists.mp hunit with ⟨kept, hkept⟩
        rw [Option.bind_some] at hkept
        simp [hkept]

/-- No more is assigned than was asked for, and only once: only there. -/
theorem AssignedOnce.assignable (h : AssignedOnce d s userId organizationId unit) :
    Assignable d s userId organizationId unit := by
  have hids : membershipIds d userId organizationId ≠ none := by
    intro hnone
    rcases h.exact (Auth.steadily 0 0) s (run_assignMembership_of_dropped _ s hnone) with
      ⟨row, -, hrow⟩
    rw [membershipIds_eq_some.mpr ⟨hrow.user, hrow.organization⟩] at hnone
    cases hnone
  rcases Option.ne_none_iff_exists'.mp hids with ⟨⟨user, org⟩, hsome⟩
  rcases membershipIds_eq_some.mp hsome with ⟨huser, horg⟩
  refine ⟨by rw [huser]; rfl, by rw [horg]; rfl, ?_⟩
  by_contra hneither
  rw [not_or, Bool.not_eq_true, Option.isSome_eq_false_iff, Option.isNone_iff_eq_none] at hneither
  rcases hneither with ⟨hunit, hthere⟩
  have hexists : d.backend = .postgres → s.hasOrganization org = true := by
    intro hpostgres
    by_contra hmissing
    apply hthere
    rw [horg, Option.any_some]
    exact ⟨hpostgres, Bool.eq_false_iff.mpr hmissing⟩
  -- the second assignment adds a second row
  rcases assign_inserts (ω := Auth.steadily 0 0) rfl hsome hunit hexists with
    ⟨row, s₁, hfirst, -, horganizations⟩
  have hexists' : d.backend = .postgres → s₁.hasOrganization org = true := by
    unfold Directory.hasOrganization
    rw [horganizations]
    exact hexists
  rcases assign_inserts (ω := Auth.steadily 0 0) rfl hsome hunit hexists' with
    ⟨row', s₂, hsecond, htable, -⟩
  have hsame := h.again _ (Auth.steadily 0 0) s₁ hfirst
  rw [hsecond] at hsame
  have hlength := congrArg List.length (htable.symm.trans hsame)
  rw [List.length_append] at hlength
  exact absurd hlength (Nat.succ_ne_self _)

end Once

/-- One organization, and nobody in it. -/
def sampleOffice : Directory where
  app := App.sampleDatabase
  organizations := [⟨Uuid.text 5, "Acme", App.sampleNow⟩]
  units := []
  memberships := []

/-- Without a unit the second call inserts a second row; a unit that is no UUID is assigned as
the whole organization. -/
theorem assign_widens :
    ¬ AssignedOnce (App.sampleDeployment .sqlite) sampleOffice "8" (Uuid.text 5) none ∧
      ¬ AssignedOnce (App.sampleDeployment .postgres) sampleOffice (Uuid.text 8) (Uuid.text 5)
        (some "north") := by
  constructor
  · intro h
    have hsame := h.again (Auth.steadily 0 0) (Auth.steadily 0 0) _ rfl
    exact absurd (congrArg List.length hsame) (by decide +kernel)
  · intro h
    have hok : ((assignMembership (App.sampleDeployment .postgres) (Uuid.text 8) (Uuid.text 5)
        (some "north")).run (exec (App.sampleDeployment .postgres)) (Auth.steadily 0 0)
        sampleOffice).1 = .ok () := by decide +kernel
    rcases h.exact _ _ (Prod.ext hok rfl) with ⟨row, -, hrow⟩
    have hunit := hrow.unit
    have hdropped : keptId (App.sampleDeployment .postgres) "north" = none := by decide +kernel
    rw [Option.map_some, hdropped] at hunit
    rcases Option.map_eq_some_iff.mp hunit.symm with ⟨kept, -, hkept⟩
    cases hkept

/-! ## Runs -/

/-- A call of one of the two functions that write the table. -/
inductive MembershipCall where
  | assign (userId organizationId : String) (organizationUnitId : Option String)
  | remove (userId organizationId : String)

def MembershipCall.handle (d : App.Deployment) :
    MembershipCall → Handler (Except App.QueryError Unit)
  | .assign userId organizationId organizationUnitId =>
      assignMembership d userId organizationId organizationUnitId
  | .remove userId organizationId => removeMembership d userId organizationId

/-- No two rows have the same user, organization and unit, no unit being one. -/
def Directory.HasDistinctMemberships (s : Directory) : Prop := (s.memberships.map (·.key)).Nodup

section Runs

variable {d : App.Deployment} {s : Directory} {userId organizationId : String}
  {unit : Option String}

theorem distinct_assign (ω : Nat → Env) (hs : s.HasDistinctMemberships)
    (h : Assignable d s userId organizationId unit) :
    ((assignMembership d userId organizationId unit).run (exec d) ω s).2.HasDistinctMemberships := by
  have hkeep {s' : Directory} (hsame : s'.memberships = s.memberships) :
      s'.HasDistinctMemberships := by
    unfold Directory.HasDistinctMemberships
    rw [hsame]
    exact hs
  rcases assign_cases d userId organizationId unit ω s with
    ⟨-, hsame⟩ | ⟨-, ⟨-, hsame⟩ | ⟨user, org, hids, hrow⟩⟩
  · exact hkeep hsame
  · exact hkeep hsame
  · rcases hrow with ⟨-, hsame⟩ | ⟨hnew, horg, row, hkey, hinsert⟩
    · exact hkeep hsame
    · have hfresh : row.key ∉ s.memberships.map (·.key) := by
        intro hmem
        rw [hkey] at hmem
        have hhas := hasMembership_iff.mpr ⟨h.unit_of_inserts hids horg, hmem⟩
        rw [hnew] at hhas
        cases hhas
      unfold Directory.HasDistinctMemberships
      rw [hinsert, List.map_append, List.map_singleton]
      exact List.nodup_append'.mpr ⟨hs, List.nodup_singleton _, by simpa using hfresh⟩

theorem distinct_remove (ω : Nat → Env) (hs : s.HasDistinctMemberships) :
    ((removeMembership d userId organizationId).run (exec d) ω s).2.HasDistinctMemberships := by
  unfold removeMembership
  cases membershipIds d userId organizationId with
  | none => exact hs
  | some ids =>
      simp only [query, run_call, run_done, exec]
      split_ifs
      · exact hs
      · exact hs
      · exact hs.sublist (List.filter_sublist.map _)

end Runs

/-- **Memberships are assigned once, and exactly, where every column can keep what is asked
for and a unit is.** -/
theorem memberships_exact (d : App.Deployment) :
    (∀ s userId organizationId unit, AssignedOnce d s userId organizationId unit ↔
      Assignable d s userId organizationId unit) ∧
    ∀ (s₀ : Directory) (run : List (Visit MembershipCall Env)), s₀.HasDistinctMemberships →
      (∀ s v, Visits (exec d) (MembershipCall.handle d) s₀ run s v →
        ∀ userId organizationId unit, v.request = .assign userId organizationId unit →
          Assignable d s userId organizationId unit) →
      (stateAfter (exec d) (MembershipCall.handle d) s₀ run).HasDistinctMemberships := by
  constructor
  · intro s userId organizationId unit
    exact ⟨AssignedOnce.assignable, Assignable.assignedOnce⟩
  · intro s₀ run hs₀ hrun
    apply stateAfter_invariant hs₀
    intro s v hvisit hs
    have hassign := hrun s v hvisit
    rcases v with ⟨call, ω⟩
    cases call with
    | assign userId organizationId unit => exact distinct_assign ω hs (hassign _ _ _ rfl)
    | remove userId organizationId => exact distinct_remove ω hs

end AnatoliaBis.Org
