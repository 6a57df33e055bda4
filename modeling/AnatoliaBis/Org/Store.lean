import AnatoliaBis.App.Requests

/-! # Organizations in the database

The tables of `db/org.rs` beside those of the application, and their statements.
Authorization reads `user_memberships` as pairs of a user and an organization; every
write of the table is handed on to it.
-/

namespace AnatoliaBis.Org

open Atomic
open Auth (Env)
open App (QueryError)

/-! ## Rows -/

/-- `db::OrganizationRow`. -/
structure OrganizationRow where
  id : String
  name : String
  createdAt : Timestamp
  deriving Repr, DecidableEq

/-- `db::OrganizationUnitRow`. -/
structure OrganizationUnitRow where
  id : String
  organizationId : String
  parentUnitId : Option String
  name : String
  createdAt : Timestamp
  deriving Repr, DecidableEq

/-- A row of `user_memberships`. -/
structure MembershipRow where
  id : String
  userId : String
  organizationId : String
  organizationUnitId : Option String
  createdAt : Timestamp
  deriving Repr, DecidableEq

/-- The membership of an account; a text that is no account's id is nobody's. -/
def MembershipRow.link (row : MembershipRow) : Option (Uuid × String) :=
  ((Uuid.parseStr row.userId).filter fun u => u.text == row.userId).map fun u =>
    (u, row.organizationId)

/-! ## State -/

structure Directory where
  app : App.Database
  organizations : List OrganizationRow
  units : List OrganizationUnitRow
  memberships : List MembershipRow

namespace Directory

/-- The table rewritten, for authorization too. -/
def setMemberships (s : Directory) (rows : List MembershipRow) : Directory :=
  { s with
    memberships := rows
    app := { s.app with auth := { s.app.auth with memberships := rows.filterMap (·.link) } } }

/-- Authorization reads the table. -/
def Linked (s : Directory) : Prop := s.app.auth.memberships = s.memberships.filterMap (·.link)

def hasOrganization (s : Directory) (id : String) : Bool := s.organizations.any (·.id == id)

def hasUnit (s : Directory) (id : String) : Bool := s.units.any (·.id == id)

end Directory

/-! ## SQL statements -/

/-- The statements of `db/org.rs`. -/
inductive Query where
  | createOrganization (id : Uuid) (name : String)
  | findOrganization (id : Uuid)
  | createOrganizationUnit (id : Uuid) (organizationId : String) (parentUnitId : Option String)
      (name : String)
  | findOrganizationUnit (id : Uuid)
  | assignMembership (id : Uuid) (userId organizationId : String)
      (organizationUnitId : Option String)
  | removeMembership (userId organizationId : String)
  deriving Repr, DecidableEq

/-- What a statement returns when it succeeds. -/
@[reducible] def Query.Res : Query → Type
  | .createOrganization .. => OrganizationRow
  | .findOrganization _ => Option OrganizationRow
  | .createOrganizationUnit .. => OrganizationUnitRow
  | .findOrganizationUnit _ => Option OrganizationUnitRow
  | .assignMembership .. | .removeMembership .. => Unit

/-- The length of a `VARCHAR(200)`, which SQLite does not check. -/
def maxNameLength : Nat := 200

/-- `idx_user_memberships_unique` has the three columns already: two absent units are
distinct to it. -/
def Directory.hasMembership (s : Directory) (userId organizationId : String)
    (organizationUnitId : Option String) : Bool :=
  organizationUnitId.isSome && s.memberships.any fun row =>
    row.userId == userId && row.organizationId == organizationId &&
      row.organizationUnitId == organizationUnitId

/-- A constraint of PostgreSQL that the insert breaks: a name that is too long, or a
reference to a row that is not there. A row that is left out breaks none. -/
def Query.violates (s : Directory) : Query → Bool
  | .createOrganization _ name => maxNameLength < name.toList.length
  | .createOrganizationUnit _ organizationId parentUnitId name =>
      maxNameLength < name.toList.length || !s.hasOrganization organizationId ||
        parentUnitId.any fun id => !s.hasUnit id
  | .assignMembership _ userId organizationId organizationUnitId =>
      !s.hasMembership userId organizationId organizationUnitId &&
        (!s.hasOrganization organizationId || organizationUnitId.any fun id => !s.hasUnit id)
  | _ => false

/-- One statement at the instant `now`. -/
def Query.perform (now : Timestamp) : (q : Query) → Directory → Directory × q.Res
  | .createOrganization id name, s =>
      let row : OrganizationRow := ⟨id.text, name, now⟩
      ({ s with organizations := s.organizations ++ [row] }, row)
  | .findOrganization id, s => (s, s.organizations.find? fun row => row.id == id.text)
  | .createOrganizationUnit id organizationId parentUnitId name, s =>
      let row : OrganizationUnitRow := ⟨id.text, organizationId, parentUnitId, name, now⟩
      ({ s with units := s.units ++ [row] }, row)
  | .findOrganizationUnit id, s => (s, s.units.find? fun row => row.id == id.text)
  | .assignMembership id userId organizationId organizationUnitId, s =>
      -- `ON CONFLICT DO NOTHING`, `INSERT OR IGNORE`
      (if s.hasMembership userId organizationId organizationUnitId then s
        else s.setMemberships
          (s.memberships ++ [⟨id.text, userId, organizationId, organizationUnitId, now⟩]), ())
  | .removeMembership userId organizationId, s =>
      (s.setMemberships (s.memberships.filter fun row =>
        !(row.userId == userId && row.organizationId == organizationId)), ())

/-! ## Operations -/

/-- The operations of a handler. -/
inductive Op where
  /-- An operation of `App`. -/
  | app (op : App.Op)
  | db (q : Query)

@[reducible] def Op.Res : Op → Type
  | .app op => op.Res
  | .db q => Except QueryError q.Res

/-- One operation. A statement that fails changes nothing. -/
def exec (d : App.Deployment) : (op : Op) → Env → Directory → Directory × op.Res
  | .app op, e, s => ({ s with app := (App.exec d op e s.app).1 }, (App.exec d op e s.app).2)
  | .db q, e, s =>
      if e.fails then (s, .error .failed)
      else if d.backend = .postgres ∧ q.violates s then (s, .error .failed)
      else ((q.perform (d.now e.now) s).1, .ok (q.perform (d.now e.now) s).2)

/-- A handler, or a part of one. -/
abbrev Handler (α : Type) := Program Op Op.Res α

/-- A single operation as a handler. -/
def perform (op : Op) : Handler op.Res := .call op .done

/-- A single statement as a handler. -/
def query (q : Query) : Handler (Except QueryError q.Res) := .call (.db q) .done

/-- A handler of `App`. -/
def lift {α : Type} (h : App.Handler α) : Handler α := h.embed Op.app fun _ r => r

/-- `App` works on its own tables. -/
def appPart (d : App.Deployment) : Part Op.app (fun _ r => r) (App.exec d) (exec d) where
  get s := s.app
  put a s := { s with app := a }
  get_put _ _ := rfl
  put_put _ _ _ := rfl
  put_get _ := rfl
  after _ _ _ := rfl
  result _ _ _ := rfl

/-! ## Memberships and authorization -/

section Linked

variable {d : App.Deployment} {e : Env} {s : Directory}

theorem Directory.linked_setMemberships (s : Directory) (rows : List MembershipRow) :
    (s.setMemberships rows).Linked := rfl

/-- No operation lets the two views of the table part. -/
theorem linked_exec (op : Op) (h : s.Linked) : (exec d op e s).1.Linked := by
  cases op with
  | app op => exact (App.exec_memberships op).trans h
  | db q =>
      simp only [exec]
      split_ifs
      · exact h
      · exact h
      · cases q with
        | assignMembership id userId organizationId organizationUnitId =>
            simp only [Query.perform]
            split_ifs
            · exact h
            · exact s.linked_setMemberships _
        | removeMembership userId organizationId => exact s.linked_setMemberships _
        | _ => exact h

end Linked

end AnatoliaBis.Org
