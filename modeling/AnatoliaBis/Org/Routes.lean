import AnatoliaBis.Org.Store

/-! # Administration of organizations

The routes of `org.rs` that write, the functions of `db/org.rs` behind them, and the
requests to the whole application with them.
-/

namespace AnatoliaBis.Org

open Atomic
open Auth (Headers trim)
open App (QueryError)

/-! ## Responses -/

/-- The bodies of the responses. -/
inductive Body where
  /-- An error, a message, or a body of the routes of `App`. -/
  | app (body : App.Body)
  | organization (row : OrganizationRow)
  | unit (row : OrganizationUnitRow)

structure Reply where
  status : Nat
  body : Body
  setCookie : Option Auth.SetCookie

/-- A response of the routes of `App`. -/
def Reply.ofApp (r : App.Reply) : Reply := ⟨r.status, .app r.body, r.setCookie⟩

/-- `Json(body).into_response()`. -/
def json (body : Body) : Reply := ⟨200, body, none⟩

/-! ## Writing organizations -/

/-- `db::create_organization`. On PostgreSQL the column default draws the identifier, and
`RETURNING` spares the second statement. -/
def createOrganization (d : App.Deployment) (name : String) :
    Handler (Except QueryError OrganizationRow) := do
  let id ← perform (.app (.auth .newId))
  match ← query (.createOrganization id name) with
  | .error err => return .error err
  | .ok row =>
      match d.backend with
      | .postgres => return .ok row
      | .sqlite =>
          match ← query (.findOrganization id) with
          | .error err => return .error err
          | .ok none => return .error .failed
          | .ok (some row) => return .ok row

/-- The text PostgreSQL keeps of an optional id; one that is no UUID is dropped. -/
def optionalId (id : Option String) : Option String :=
  (id.bind Uuid.parseStr).map Uuid.text

/-- `db::create_organization_unit`. -/
def createOrganizationUnit (d : App.Deployment) (organizationId : String)
    (parentUnitId : Option String) (name : String) :
    Handler (Except QueryError (Option OrganizationUnitRow)) :=
  match d.backend with
  | .postgres =>
      match Uuid.parseStr organizationId with
      | none => return .ok none
      | some organization => do
          let id ← perform (.app (.auth .newId))
          match ← query (.createOrganizationUnit id organization.text (optionalId parentUnitId)
            name) with
          | .error err => return .error err
          | .ok row => return .ok (some row)
  | .sqlite => do
      let id ← perform (.app (.auth .newId))
      match ← query (.createOrganizationUnit id organizationId parentUnitId name) with
      | .error err => return .error err
      | .ok _ =>
          match ← query (.findOrganizationUnit id) with
          | .error err => return .error err
          | .ok none => return .error .failed
          | .ok (some row) => return .ok (some row)

/-- The texts of a user's and an organization's id as the statements bind them. -/
def membershipIds (d : App.Deployment) (userId organizationId : String) :
    Option (String × String) :=
  match d.backend with
  | .postgres => do
      let user ← Uuid.parseStr userId
      let organization ← Uuid.parseStr organizationId
      return (user.text, organization.text)
  | .sqlite => some (userId, organizationId)

/-- `db::assign_membership`. On PostgreSQL an id that is no UUID ends it, without an
error. -/
def assignMembership (d : App.Deployment) (userId organizationId : String)
    (organizationUnitId : Option String) : Handler (Except QueryError Unit) :=
  match membershipIds d userId organizationId with
  | none => return .ok ()
  | some (user, organization) => do
      let id ← perform (.app (.auth .newId))
      match d.backend with
      | .postgres =>
          query (.assignMembership id user organization (optionalId organizationUnitId))
      | .sqlite => query (.assignMembership id user organization organizationUnitId)

/-- `db::remove_membership`. -/
def removeMembership (d : App.Deployment) (userId organizationId : String) :
    Handler (Except QueryError Unit) :=
  match membershipIds d userId organizationId with
  | none => return .ok ()
  | some (user, organization) => query (.removeMembership user organization)

/-! ## Routes -/

/-- `require_org_admin` in front of a route. -/
def orgAdminOnly (headers : Headers) (route : Handler Reply) : Handler Reply := do
  let allowed ← lift (App.requireRole headers .manageOrganizations)
  if allowed then route else return .ofApp (App.forbidden headers)

/-- The audit event of a route, best-effort, and its answer. -/
def audited (d : App.Deployment) (headers : Headers) (action resourceType resourceId : String)
    (metadata : Option Json.Value) (reply : Reply) : Handler Reply := do
  let actor ← lift (App.actorClaims headers)
  let recorder := (App.withActorOpt (App.recorder d headers action "success") actor).resource
    resourceType resourceId
  lift (App.save d ((metadata.map recorder.withMetadata).getD recorder))
  return reply

/-- `org::create_organization_route`. -/
def createOrganizationRoute (d : App.Deployment) (headers : Headers) (name : String) :
    Handler Reply :=
  orgAdminOnly headers <|
    if trim name = "" then return .ofApp (App.invalid headers)
    else do
      match ← createOrganization d (trim name) with
      | .ok row =>
          audited d headers "ORGANIZATION_CREATED" "organization" row.id none
            (json (.organization row))
      | .error _ => return .ofApp (App.internal headers)

/-- `org::create_unit_route`. -/
def createUnitRoute (d : App.Deployment) (headers : Headers) (organizationId name : String)
    (parentUnitId : Option String) : Handler Reply :=
  orgAdminOnly headers <|
    if trim name = "" then return .ofApp (App.invalid headers)
    else do
      match ← createOrganizationUnit d organizationId parentUnitId (trim name) with
      | .ok (some row) =>
          audited d headers "ORGANIZATION_UNIT_CREATED" "organization_unit" row.id none
            (json (.unit row))
      | .ok none => return .ofApp (App.invalid headers)
      | .error _ => return .ofApp (App.internal headers)

/-- The metadata of the two events about memberships. -/
def membershipMetadata (organizationId : String) : Json.Value :=
  .object [("organizationId", .string organizationId)]

/-- `org::assign_membership_route`. -/
def assignMembershipRoute (d : App.Deployment) (headers : Headers) (userId organizationId : String)
    (organizationUnitId : Option String) : Handler Reply :=
  orgAdminOnly headers do
    match ← assignMembership d userId organizationId organizationUnitId with
    | .ok _ =>
        audited d headers "MEMBERSHIP_ASSIGNED" "user" userId (membershipMetadata organizationId)
          (.ofApp (App.message "admin.org.membershipAssigned"))
    | .error _ => return .ofApp (App.internal headers)

/-- `org::remove_membership_route`. -/
def removeMembershipRoute (d : App.Deployment) (headers : Headers)
    (userId organizationId : String) : Handler Reply :=
  orgAdminOnly headers do
    match ← removeMembership d userId organizationId with
    | .ok _ =>
        audited d headers "MEMBERSHIP_REMOVED" "user" userId (membershipMetadata organizationId)
          (.ofApp (App.message "admin.org.membershipRemoved"))
    | .error _ => return .ofApp (App.internal headers)

/-! ## Requests -/

/-- A request to one of the routes above, or to one of `App`. -/
inductive Request where
  | app (request : App.Request)
  | createOrganization (headers : Headers) (name : String)
  | createUnit (headers : Headers) (organizationId name : String) (parentUnitId : Option String)
  | assignMembership (headers : Headers) (userId organizationId : String)
      (organizationUnitId : Option String)
  | removeMembership (headers : Headers) (userId organizationId : String)

/-- The handler of a request; the retention job answers nobody. -/
def handle (d : App.Deployment) : Request → Handler (Option Reply)
  | .app request => (lift (App.handle d request)).map (Option.map Reply.ofApp)
  | .createOrganization headers name => (createOrganizationRoute d headers name).map some
  | .createUnit headers organizationId name parentUnitId =>
      (createUnitRoute d headers organizationId name parentUnitId).map some
  | .assignMembership headers userId organizationId organizationUnitId =>
      (assignMembershipRoute d headers userId organizationId organizationUnitId).map some
  | .removeMembership headers userId organizationId =>
      (removeMembershipRoute d headers userId organizationId).map some

end AnatoliaBis.Org
