import AnatoliaBis.Auth.Sessions
import AnatoliaBis.Org.Escalation
import AnatoliaBis.Org.Memberships

/-! # The hierarchy of units

A unit refers to its parent by an id that only PostgreSQL looks up, and never among the units
of the organization. A unit is created with an id that is new, so what a run can break is not
the order of the units but whom they refer to.
-/

namespace AnatoliaBis.Org

open Atomic Program Relation
open Auth (Env Headers trim)

/-! ## Leaves -/

section Leaf

variable {α : Type} {R R' : α → α → Prop} {x : α}

/-- Edges into a node that has no way out close no cycle. -/
theorem acyclic_of_leaf (hleaf : ∀ y, ¬ R' x y) (hold : ∀ a b, R' a b → b ≠ x → R a b)
    (hR : ∀ a, ¬ TransGen R a a) : ∀ a, ¬ TransGen R' a a := by
  have hpath {a b : α} (hab : TransGen R' a b) : b ≠ x → TransGen R a b := by
    induction hab with
    | single hab => exact fun hb => .single (hold _ _ hab hb)
    | @tail b c _ hbc ih =>
        intro hc
        have hb : b ≠ x := by
          rintro rfl
          exact hleaf _ hbc
        exact (ih hb).tail (hold _ _ hbc hc)
  intro a hcycle
  by_cases ha : a = x
  · rcases TransGen.head'_iff.mp hcycle with ⟨b, hab, -⟩
    exact hleaf b (ha ▸ hab)
  · exact hR a (hpath hcycle ha)

end Leaf

/-! ## The tables -/

namespace Directory

def IsParent (s : Directory) (parent child : String) : Prop :=
  ∃ row ∈ s.units, row.id = child ∧ row.parentUnitId = some parent

/-- The units are ordered, and each is below units of its own organization. -/
structure HasHierarchy (s : Directory) : Prop where
  acyclic : ∀ id, ¬ TransGen s.IsParent id id
  parents : ∀ row ∈ s.units, ∀ id, row.parentUnitId = some id →
    ∃ parent ∈ s.units, parent.id = id ∧ parent.organizationId = row.organizationId

/-- The ids of the units were drawn. -/
def HasDrawnUnits (s : Directory) : Prop :=
  ∀ row ∈ s.units, ∃ u < s.app.auth.nextId, row.id = Uuid.text u

/-- The two ids name an organization and a unit of it. -/
def HasParent (d : App.Deployment) (s : Directory) (organizationId parentUnitId : String) : Prop :=
  ∃ org id, keptId d organizationId = some org ∧ keptId d parentUnitId = some id ∧
    ∃ parent ∈ s.units, parent.id = id ∧ parent.organizationId = org

/-- PostgreSQL refuses the unit: an organization that is no UUID, a constraint, or a
reference to a row that is not there. -/
def RefusesUnit (d : App.Deployment) (s : Directory) (organizationId : String)
    (parentUnitId : Option String) (name : String) : Prop :=
  d.backend = .postgres ∧ ∀ org, keptId d organizationId = some org →
    maxNameLength < name.toList.length ∨ s.hasOrganization org = false ∨
      (parentUnitId.bind (keptId d)).any (fun id => !s.hasUnit id) = true

/-- A unit with a new id, below one of its organization or below none. -/
theorem HasHierarchy.insert {s s' : Directory} {row : OrganizationUnitRow}
    (hs : s.HasHierarchy) (hdrawn : s.HasDrawnUnits)
    (hid : row.id = Uuid.text s.app.auth.nextId) (hunits : s'.units = s.units ++ [row])
    (hparent : ∀ id, row.parentUnitId = some id →
      ∃ parent ∈ s.units, parent.id = id ∧ parent.organizationId = row.organizationId) :
    s'.HasHierarchy := by
  have hfresh : ∀ unit ∈ s.units, unit.id ≠ row.id := by
    intro unit hunit hsame
    rcases hdrawn unit hunit with ⟨u, hlt, hu⟩
    rw [hu, hid] at hsame
    exact hlt.ne (Uuid.text_injective hsame)
  have hmem : ∀ unit ∈ s'.units, unit ∈ s.units ∨ unit = row := by
    intro unit hunit
    rw [hunits] at hunit
    simpa using hunit
  have hparents : ∀ unit ∈ s'.units, ∀ id, unit.parentUnitId = some id →
      ∃ parent ∈ s.units, parent.id = id ∧ parent.organizationId = unit.organizationId := by
    intro unit hunit id hup
    rcases hmem unit hunit with hold | rfl
    · exact hs.parents unit hold id hup
    · exact hparent id hup
  constructor
  · apply acyclic_of_leaf (R := s.IsParent) (x := row.id)
    · -- nobody is below the new unit yet
      rintro id ⟨unit, hunit, -, hup⟩
      rcases hparents unit hunit _ hup with ⟨parent, hmember, hsame, -⟩
      exact hfresh parent hmember hsame
    · rintro a b ⟨unit, hunit, hb, hup⟩ hne
      rcases hmem unit hunit with hold | rfl
      · exact ⟨unit, hold, hb, hup⟩
      · exact absurd hb.symm hne
    · exact hs.acyclic
  · intro unit hunit id hup
    rcases hparents unit hunit id hup with ⟨parent, hmember, hsame⟩
    refine ⟨parent, ?_, hsame⟩
    rw [hunits]
    exact List.mem_append_left _ hmember

end Directory

/-! ## What leaves the units alone -/

/-- Identifiers are not taken back, and the units are the same. -/
structure SameUnits (s s' : Directory) : Prop where
  nextId_le : s.app.auth.nextId ≤ s'.app.auth.nextId
  units : s'.units = s.units

section SameUnits

variable {d : App.Deployment} {e : Env} {s s' s'' : Directory}

theorem SameUnits.refl (s : Directory) : SameUnits s s := ⟨Nat.le_refl _, rfl⟩

theorem SameUnits.trans (h : SameUnits s s') (h' : SameUnits s' s'') : SameUnits s s'' :=
  ⟨h.nextId_le.trans h'.nextId_le, h'.units.trans h.units⟩

theorem SameUnits.hierarchy (h : SameUnits s s') (hs : s.HasHierarchy) : s'.HasHierarchy := by
  have hparent : s'.IsParent = s.IsParent := by
    unfold Directory.IsParent
    rw [h.units]
  constructor
  · rw [hparent]
    exact hs.acyclic
  · rw [h.units]
    exact hs.parents

theorem SameUnits.drawn (h : SameUnits s s') (hs : s.HasDrawnUnits) : s'.HasDrawnUnits := by
  intro row hrow
  rw [h.units] at hrow
  rcases hs row hrow with ⟨u, hlt, hu⟩
  exact ⟨u, hlt.trans_le h.nextId_le, hu⟩

theorem app_nextId_le {s : App.Database} (op : App.Op) :
    s.auth.nextId ≤ (App.exec d op e s).1.auth.nextId := by
  cases op with
  | auth c => exact Auth.exec_nextId_le c
  | db q =>
      apply App.exec_db_store (I := fun s' => s.auth.nextId ≤ s'.auth.nextId) (Nat.le_refl _)
      intro _ _
      cases q with
      | recordReviewDecision entry =>
          exact (App.record_same (f := fun s => s.auth.nextId) (fun _ _ _ => rfl) s _ entry).ge
      | _ => exact Nat.le_refl _
  | _ => exact Nat.le_refl _

/-- An operation that inserts no unit. -/
def Op.KeepsUnits : Op → Prop
  | .db (.createOrganizationUnit ..) => False
  | _ => True

theorem exec_sameUnits {op : Op} (hop : op.KeepsUnits) : SameUnits s (exec d op e s).1 := by
  cases op with
  | app op => exact ⟨app_nextId_le op, rfl⟩
  | db q =>
      simp only [exec]
      split_ifs
      · exact SameUnits.refl s
      · exact SameUnits.refl s
      · cases q with
        | createOrganizationUnit id organizationId parentUnitId name => exact hop.elim
        | assignMembership id userId organizationId organizationUnitId =>
            simp only [Query.perform]
            split_ifs
            · exact SameUnits.refl s
            · exact ⟨Nat.le_refl _, rfl⟩
        | _ => exact ⟨Nat.le_refl _, rfl⟩

variable {α : Type} {R : α → Prop} {headers : Headers} {route : Handler Reply}

theorem performs_query {q : Query} {f : Except App.QueryError q.Res → Handler α}
    (hq : (Op.db q).KeepsUnits) (hf : ∀ r, (f r).Performs (exec d) Op.KeepsUnits R) :
    (query q >>= f).Performs (exec d) Op.KeepsUnits R :=
  ⟨hq, fun _ _ => hf _⟩

theorem performs_newId {f : Uuid → Handler α}
    (hf : ∀ id, (f id).Performs (exec d) Op.KeepsUnits R) :
    (perform (.app (.auth .newId)) >>= f).Performs (exec d) Op.KeepsUnits R :=
  ⟨trivial, fun _ _ => hf _⟩

theorem performs_lift (h : App.Handler α) :
    (lift h).Performs (exec d) Op.KeepsUnits fun _ => True := by
  induction h with
  | done a => trivial
  | call op next ih => exact ⟨trivial, fun _ _ => ih _⟩

theorem performs_orgAdminOnly (hroute : route.Performs (exec d) Op.KeepsUnits fun _ => True) :
    (orgAdminOnly headers route).Performs (exec d) Op.KeepsUnits fun _ => True := by
  refine (performs_lift _).bind fun allowed _ => ?_
  split_ifs
  · exact hroute
  · trivial

theorem performs_audited (action resourceType resourceId : String)
    (metadata : Option Json.Value) (reply : Reply) :
    (audited d headers action resourceType resourceId metadata reply).Performs (exec d)
      Op.KeepsUnits fun _ => True :=
  (performs_lift _).bind fun _ _ => (performs_lift _).bind fun _ _ => trivial

theorem performs_createOrganization (name : String) :
    (createOrganization d name).Performs (exec d) Op.KeepsUnits fun _ => True := by
  refine performs_newId fun id => performs_query trivial fun r => ?_
  cases r with
  | error err => trivial
  | ok row =>
      dsimp only
      cases d.backend with
      | postgres => trivial
      | sqlite =>
          refine performs_query trivial fun r => ?_
          rcases r with _ | _ | row <;> trivial

theorem performs_assignMembership (userId organizationId : String) (unit : Option String) :
    (assignMembership d userId organizationId unit).Performs (exec d) Op.KeepsUnits
      fun _ => True := by
  unfold assignMembership
  cases membershipIds d userId organizationId with
  | none => trivial
  | some ids =>
      refine performs_newId fun id => ?_
      cases d.backend with
      | postgres => exact ⟨trivial, fun _ _ => trivial⟩
      | sqlite => exact ⟨trivial, fun _ _ => trivial⟩

theorem performs_removeMembership (userId organizationId : String) :
    (removeMembership d userId organizationId).Performs (exec d) Op.KeepsUnits
      fun _ => True := by
  unfold removeMembership
  cases membershipIds d userId organizationId with
  | none => trivial
  | some ids => exact ⟨trivial, fun _ _ => trivial⟩

/-- Only one route creates units. -/
theorem performs_handle {r : Request} (hr : ∀ headers organizationId name parentUnitId,
    r ≠ .createUnit headers organizationId name parentUnitId) :
    (handle d r).Performs (exec d) Op.KeepsUnits fun _ => True := by
  cases r with
  | app r => exact (performs_lift _).map fun _ _ => trivial
  | createOrganization headers name =>
      refine Performs.map (performs_orgAdminOnly ?_) fun _ _ => trivial
      split_ifs
      · trivial
      · refine (performs_createOrganization _).bind fun r _ => ?_
        cases r with
        | error err => trivial
        | ok row => exact performs_audited ..
  | createUnit headers organizationId name parentUnitId => exact absurd rfl (hr _ _ _ _)
  | assignMembership headers userId organizationId organizationUnitId =>
      refine Performs.map (performs_orgAdminOnly ?_) fun _ _ => trivial
      refine (performs_assignMembership ..).bind fun r _ => ?_
      cases r with
      | error err => trivial
      | ok _ => exact performs_audited ..
  | removeMembership headers userId organizationId =>
      refine Performs.map (performs_orgAdminOnly ?_) fun _ _ => trivial
      refine (performs_removeMembership ..).bind fun r _ => ?_
      cases r with
      | error err => trivial
      | ok _ => exact performs_audited ..

theorem keeps_of_performs {h : Handler α} (hp : h.Performs (exec d) Op.KeepsUnits R) :
    h.Keeps (exec d) SameUnits := by
  refine Performs.keeps SameUnits.refl SameUnits.trans ?_ hp
  intro op e s hop
  exact exec_sameUnits hop

end SameUnits

/-! ## Creating a unit -/

section Create

variable {d : App.Deployment} {s : Directory} {organizationId name : String}
  {parentUnitId : Option String} {headers : Headers}

/-- The new row is in the table, once. -/
structure CreatesUnit (d : App.Deployment) (organizationId : String)
    (parentUnitId : Option String) (s s' : Directory) (row : OrganizationUnitRow) : Prop where
  id : row.id = Uuid.text s.app.auth.nextId
  organization : keptId d organizationId = some row.organizationId
  parent : row.parentUnitId = parentUnitId.bind (keptId d)
  nextId_lt : s.app.auth.nextId < s'.app.auth.nextId
  units : s'.units = s.units ++ [row]

variable (d s name) in
/-- `INSERT`: an error, or the row. -/
theorem exec_createUnit_cases (e : Env) (id : Uuid) (org : String) (parent : Option String) :
    let r := exec d (.db (.createOrganizationUnit id org parent name)) e s
    let refuses := d.backend = .postgres ∧ (maxNameLength < name.toList.length ∨
      s.hasOrganization org = false ∨ parent.any (fun id => !s.hasUnit id) = true)
    ((∃ err, r.2 = .error err) ∧ r.1 = s ∧ (e.fails = true ∨ refuses)) ∨
      ¬ refuses ∧ ∃ row : OrganizationUnitRow, row.id = id.text ∧ row.organizationId = org ∧
          row.parentUnitId = parent ∧ r = ({ s with units := s.units ++ [row] }, .ok row) := by
  have hrefuses : (Query.createOrganizationUnit id org parent name).violates s = true ↔
      maxNameLength < name.toList.length ∨ s.hasOrganization org = false ∨
        parent.any (fun id => !s.hasUnit id) = true := by
    simp only [Query.violates, Bool.or_eq_true, decide_eq_true_eq, Bool.not_eq_true', or_assoc]
  simp only [exec, hrefuses]
  split_ifs with hfails hviolates
  · exact Or.inl ⟨⟨_, rfl⟩, rfl, Or.inl hfails⟩
  · exact Or.inl ⟨⟨_, rfl⟩, rfl, Or.inr hviolates⟩
  · exact Or.inr ⟨hviolates, ⟨id.text, org, parent, name, d.now e.now⟩, rfl, rfl, rfl, rfl⟩

/-- The store once an identifier is drawn. -/
def Directory.drawn (s : Directory) : Directory :=
  { s with app := { s.app with auth := { s.app.auth with nextId := s.app.auth.nextId + 1 } } }

variable {α : Type} {ω : Nat → Env}

theorem run_newId (f : Uuid → Handler α) :
    (perform (.app (.auth .newId)) >>= f).run (exec d) ω s =
      (f s.app.auth.nextId).run (exec d) (fun n => ω (n + 1)) s.drawn := rfl

theorem run_query {q : Query} (f : Except App.QueryError q.Res → Handler α) :
    (query q >>= f).run (exec d) ω s =
      (f (exec d (.db q) (ω 0) s).2).run (exec d) (fun n => ω (n + 1))
        (exec d (.db q) (ω 0) s).1 := rfl

/-- The insert of a unit and what follows it: the answer is an error or the table has the row. -/
theorem insert_cases {org : String} (horg : keptId d organizationId = some org)
    {parent : Option String} (hparent : parentUnitId.bind (keptId d) = parent)
    {f : Except App.QueryError OrganizationUnitRow →
      Handler (Except App.QueryError (Option OrganizationUnitRow))}
    (hf : ∀ r, (f r).Performs (exec d) Op.KeepsUnits fun _ => True)
    (herror : ∀ err, f (.error err) = .done (.error err)) :
    let r := (query (.createOrganizationUnit s.app.auth.nextId org parent name) >>= f).run (exec d)
      ω s.drawn
    ((∀ row, r.1 ≠ .ok (some row)) ∧ SameUnits s r.2 ∧
        ((ω 0).fails = true ∨ s.RefusesUnit d organizationId parentUnitId name)) ∨
      ¬ s.RefusesUnit d organizationId parentUnitId name ∧
        ∃ row, CreatesUnit d organizationId parentUnitId s r.2 row := by
  subst hparent
  rw [run_query]
  rcases exec_createUnit_cases d s.drawn name (ω 0) s.app.auth.nextId org
    (parentUnitId.bind (keptId d)) with
    ⟨⟨err, hresult⟩, hsame, hreason⟩ | ⟨hallowed, row, hid, hrow, hup, hexec⟩
  · left
    rw [hresult, hsame, herror]
    refine ⟨fun _ => nofun, ⟨Nat.le_succ _, rfl⟩, hreason.imp_right ?_⟩
    rintro ⟨hbackend, hrefuses⟩
    refine ⟨hbackend, fun org' horg' => ?_⟩
    rcases Option.some.inj (horg.symm.trans horg') with rfl
    exact hrefuses
  · right
    have hkeeps := keeps_of_performs (hf (.ok row)) (fun n => ω (n + 1))
      { s.drawn with units := s.drawn.units ++ [row] }
    rw [hexec]
    refine ⟨fun hrefuses => hallowed ⟨hrefuses.1, hrefuses.2 org horg⟩, row, ?_⟩
    constructor
    · exact hid
    · rw [hrow]
      exact horg
    · exact hup
    · exact Nat.lt_of_succ_le hkeeps.nextId_le
    · exact hkeeps.units

variable (d organizationId name parentUnitId) in
/-- What `create_organization_unit` does to the table. -/
theorem createUnit_cases (ω : Nat → Env) (s : Directory) :
    let r := (createOrganizationUnit d organizationId parentUnitId name).run (exec d) ω s
    ((∀ row, r.1 ≠ .ok (some row)) ∧ SameUnits s r.2 ∧
        ((ω 1).fails = true ∨ s.RefusesUnit d organizationId parentUnitId name)) ∨
      ¬ s.RefusesUnit d organizationId parentUnitId name ∧
        ∃ row, CreatesUnit d organizationId parentUnitId s r.2 row := by
  unfold createOrganizationUnit
  cases hbackend : d.backend with
  | postgres =>
      have hparent : parentUnitId.bind (keptId d) = optionalId parentUnitId := by
        unfold optionalId keptId
        rw [hbackend]
        cases parentUnitId <;> rfl
      cases hparse : Uuid.parseStr organizationId with
      | none =>
          have horg : keptId d organizationId = none := by
            unfold keptId
            rw [hbackend, hparse]
            rfl
          refine Or.inl ⟨fun _ => nofun, SameUnits.refl s, Or.inr ⟨hbackend, fun org hkept => ?_⟩⟩
          rw [horg] at hkept
          cases hkept
      | some org =>
          have horg : keptId d organizationId = some org.text := by
            unfold keptId
            rw [hbackend, hparse]
            rfl
          dsimp only
          rw [run_newId]
          refine insert_cases horg hparent (fun r => ?_) ?_
          · cases r with
            | error err => trivial
            | ok row => trivial
          · intro err
            rfl
  | sqlite =>
      have hparent : parentUnitId.bind (keptId d) = parentUnitId := by
        unfold keptId
        rw [hbackend]
        cases parentUnitId <;> rfl
      have horg : keptId d organizationId = some organizationId := by
        unfold keptId
        rw [hbackend]
      dsimp only
      rw [run_newId]
      refine insert_cases horg hparent (fun r => ?_) ?_
      · cases r with
        | error err => trivial
        | ok row =>
            refine performs_query trivial fun r => ?_
            rcases r with _ | _ | row <;> trivial
      · intro err
        rfl

/-- A parent that is no unit of the organization is refused. -/
def RefusesStray (d : App.Deployment) (s : Directory) (organizationId : String)
    (parentUnitId : Option String) (name : String) : Prop :=
  ∀ id, parentUnitId = some id → ¬ s.HasParent d organizationId id → ∀ ω,
    let r := (createOrganizationUnit d organizationId parentUnitId name).run (exec d) ω s
    (∀ row, r.1 ≠ .ok (some row)) ∧ r.2.units = s.units

/-- A parent that is given is a unit of the organization, or PostgreSQL refuses the unit. -/
def ParentGiven (d : App.Deployment) (s : Directory) (organizationId : String)
    (parentUnitId : Option String) (name : String) : Prop :=
  ∀ id, parentUnitId = some id →
    s.HasParent d organizationId id ∨ s.RefusesUnit d organizationId parentUnitId name

theorem refusesStray_iff :
    RefusesStray d s organizationId parentUnitId name ↔
      ParentGiven d s organizationId parentUnitId name := by
  constructor
  · intro h id hid
    by_contra hneither
    rw [not_or] at hneither
    have hsame := (h id hid hneither.1 (Auth.steadily 0 0)).2
    rcases createUnit_cases d organizationId name parentUnitId (Auth.steadily 0 0) s with
      ⟨-, -, hreason⟩ | ⟨-, row, hrow⟩
    · rcases hreason with hfails | hrefuses
      · cases hfails
      · exact hneither.2 hrefuses
    · have hlength := congrArg List.length (hrow.units.symm.trans hsame)
      rw [List.length_append] at hlength
      exact absurd hlength (Nat.succ_ne_self _)
  · intro h id hid hstray ω
    have hrefuses := (h id hid).resolve_left hstray
    rcases createUnit_cases d organizationId name parentUnitId ω s with
      ⟨herror, hsame, -⟩ | ⟨hallowed, -⟩
    · exact ⟨herror, hsame.units⟩
    · exact absurd hrefuses hallowed

/-! ## The route -/

theorem CreatesUnit.later {s' s'' : Directory} {row : OrganizationUnitRow}
    (h : CreatesUnit d organizationId parentUnitId s s' row) (hlater : SameUnits s' s'') :
    CreatesUnit d organizationId parentUnitId s s'' row where
  id := h.id
  organization := h.organization
  parent := h.parent
  nextId_lt := h.nextId_lt.trans_le hlater.nextId_le
  units := hlater.units.trans h.units

variable (d headers) in
/-- The gate reads nothing of the store, and refuses or lets the route go on. -/
theorem run_orgAdminOnly_cases (route : Handler Reply) (ω : Nat → Env) (s : Directory) :
    (orgAdminOnly headers route).run (exec d) ω s = (.ofApp (App.forbidden headers), s) ∨
      ∃ ω', (orgAdminOnly headers route).run (exec d) ω s = route.run (exec d) ω' s := by
  have hstate : ((lift (App.requireRole headers .manageOrganizations)).run (exec d) ω s).2 = s := by
    unfold lift
    rw [(appPart d).run_embed, App.run_requireRole_snd]
    rfl
  unfold orgAdminOnly
  rw [run_bind, hstate]
  split_ifs
  · exact Or.inr ⟨_, rfl⟩
  · exact Or.inl rfl

variable (d organizationId name parentUnitId headers) in
/-- A unit is created, or the answer is a failure. -/
theorem createUnitRoute_cases (ω : Nat → Env) (s : Directory) :
    let r := (createUnitRoute d headers organizationId name parentUnitId).run (exec d) ω s
    (¬ r.1.status < 400 ∧ SameUnits s r.2) ∨
      Meets headers .manageOrganizations (ω 0) ∧ trim name ≠ "" ∧
        ¬ s.RefusesUnit d organizationId parentUnitId (trim name) ∧
        ∃ row, CreatesUnit d organizationId parentUnitId s r.2 row := by
  have hforbidden : ¬ (Reply.ofApp (App.forbidden headers)).status < 400 :=
    App.failure_status headers "FORBIDDEN" "errors.forbidden"
  have hinvalid : ¬ (Reply.ofApp (App.invalid headers)).status < 400 :=
    App.failure_status headers "VALIDATION_ERROR" "errors.validation"
  have hinternal : ¬ (Reply.ofApp (App.internal headers)).status < 400 :=
    App.failure_status headers "INTERNAL_ERROR" "errors.internal"
  by_cases hmeets : Meets headers .manageOrganizations (ω 0)
  · unfold createUnitRoute
    rcases run_orgAdminOnly_cases d headers (if trim name = "" then _ else _) ω s
      with hrefused | ⟨ω', hrun⟩
    · rw [hrefused]
      exact Or.inl ⟨hforbidden, SameUnits.refl s⟩
    · rw [hrun]
      split_ifs with hname
      · exact Or.inl ⟨hinvalid, SameUnits.refl s⟩
      · rw [run_bind]
        have hcases := createUnit_cases d organizationId (trim name) parentUnitId ω' s
        generalize (createOrganizationUnit d organizationId parentUnitId (trim name)).run (exec d)
          ω' s = r at hcases ⊢
        rcases r with ⟨result, s'⟩
        dsimp only at hcases ⊢
        rcases hcases with ⟨herror, hsame, -⟩ | ⟨hallowed, row, hrow⟩
        · left
          rcases result with err | _ | row
          · exact ⟨hinternal, hsame⟩
          · exact ⟨hinvalid, hsame⟩
          · exact absurd rfl (herror row)
        · refine Or.inr ⟨hmeets, hname, hallowed, row, hrow.later ?_⟩
          rcases result with err | _ | created
          · exact SameUnits.refl s'
          · exact SameUnits.refl s'
          · exact keeps_of_performs (performs_audited ..) _ _
  · unfold createUnitRoute
    rw [run_orgAdminOnly_of_not_meets hmeets]
    exact Or.inl ⟨hforbidden, SameUnits.refl s⟩

end Create

/-! ## Runs -/

/-- A request that gets as far as the database gives a unit of the organization as the parent,
or is refused there. -/
def Request.GivesParent (d : App.Deployment) (s : Directory) (v : Visit Request Env) : Prop :=
  match v.request with
  | .createUnit headers organizationId name parentUnitId =>
      Meets headers .manageOrganizations (v.env 0) → trim name ≠ "" →
        ParentGiven d s organizationId parentUnitId (trim name)
  | _ => True

/-- A request with a parent that is no unit of the organization is answered with a failure, and
creates nothing. -/
def Request.IsTurnedDown (d : App.Deployment) (s : Directory) (v : Visit Request Env) : Prop :=
  ∀ headers organizationId name parentUnitId,
    v.request = .createUnit headers organizationId name (some parentUnitId) →
      ¬ s.HasParent d organizationId parentUnitId →
        ¬ Accepted d s v ∧ (storeAfter d s v).units = s.units

section Runs

variable {d : App.Deployment} {s : Directory} {v : Visit Request Env}

theorem Request.GivesParent.isTurnedDown (h : Request.GivesParent d s v) :
    Request.IsTurnedDown d s v := by
  intro headers organizationId name parentUnitId hrequest hstray
  unfold Request.GivesParent at h
  rw [hrequest] at h
  have hrun : (handle d v.request).run (exec d) v.env s =
      (some ((createUnitRoute d headers organizationId name (some parentUnitId)).run (exec d) v.env
        s).1, ((createUnitRoute d headers organizationId name (some parentUnitId)).run (exec d)
          v.env s).2) := by
    rw [hrequest]
    exact run_map ..
  rcases createUnitRoute_cases d organizationId name (some parentUnitId) headers v.env s with
    ⟨hstatus, hsame⟩ | ⟨hmeets, hname, hallowed, -⟩
  · constructor
    · rintro ⟨reply, hreply, hlt⟩
      have hanswer : some _ = some reply := (congrArg Prod.fst hrun).symm.trans hreply
      rcases Option.some.inj hanswer with rfl
      exact hstatus hlt
    · exact (congrArg (fun r => r.2.units) hrun).trans hsame.units
  · exact absurd ((h hmeets hname parentUnitId rfl).resolve_left hstray) hallowed

/-- One request. -/
theorem Request.GivesParent.keeps (h : Request.GivesParent d s v) (hs : s.HasHierarchy)
    (hdrawn : s.HasDrawnUnits) :
    (storeAfter d s v).HasHierarchy ∧ (storeAfter d s v).HasDrawnUnits := by
  rcases v with ⟨request, ω⟩
  by_cases hcreates : ∃ headers organizationId name parentUnitId,
      request = .createUnit headers organizationId name parentUnitId
  · rcases hcreates with ⟨headers, organizationId, name, parentUnitId, rfl⟩
    have hstore : storeAfter d s ⟨.createUnit headers organizationId name parentUnitId, ω⟩ =
        ((createUnitRoute d headers organizationId name parentUnitId).run (exec d) ω s).2 :=
      congrArg Prod.snd (run_map ..)
    rw [hstore]
    rcases createUnitRoute_cases d organizationId name parentUnitId headers ω s with
      ⟨-, hsame⟩ | ⟨hmeets, hname, hallowed, row, hrow⟩
    · exact ⟨hsame.hierarchy hs, hsame.drawn hdrawn⟩
    · have hparent : ∀ id, row.parentUnitId = some id →
          ∃ parent ∈ s.units, parent.id = id ∧ parent.organizationId = row.organizationId := by
        intro id hid
        rcases Option.bind_eq_some_iff.mp (hrow.parent.symm.trans hid) with ⟨given, hgiven, hkept⟩
        rcases (h hmeets hname given hgiven).resolve_right hallowed with
          ⟨org, id', horg, hid', parent, hmember, hsame, hwithin⟩
        rcases Option.some.inj (hkept.symm.trans hid') with rfl
        rcases Option.some.inj (hrow.organization.symm.trans horg) with rfl
        exact ⟨parent, hmember, hsame, hwithin⟩
      constructor
      · exact hs.insert hdrawn hrow.id hrow.units hparent
      · intro unit hunit
        rw [hrow.units] at hunit
        rcases List.mem_append.mp hunit with hold | hnew
        · rcases hdrawn unit hold with ⟨u, hlt, hu⟩
          exact ⟨u, hlt.trans hrow.nextId_lt, hu⟩
        · rcases List.mem_singleton.mp hnew with rfl
          exact ⟨_, hrow.nextId_lt, hrow.id⟩
  · have hkeeps := keeps_of_performs (performs_handle (d := d) (r := request)
      fun headers organizationId name parentUnitId hrequest =>
        hcreates ⟨headers, organizationId, name, parentUnitId, hrequest⟩) ω s
    exact ⟨hkeeps.hierarchy hs, hkeeps.drawn hdrawn⟩

end Runs

/-! ## Two requests -/

/-- A system administrator creates a unit of the office. -/
def sampleUnit (parentUnitId : Option String) : Visit Request Env :=
  ⟨.createUnit { Auth.sampleHeaders with authorization := some (.access sampleClaims) }
    (Uuid.text 5) "Field" parentUnitId, sampleEnv⟩

theorem sampleOffice_hierarchy : sampleOffice.HasHierarchy ∧ sampleOffice.HasDrawnUnits := by
  refine ⟨⟨?_, nofun⟩, nofun⟩
  intro id hcycle
  rcases TransGen.head'_iff.mp hcycle with ⟨child, ⟨row, hrow, -⟩, -⟩
  cases hrow

end AnatoliaBis.Org
