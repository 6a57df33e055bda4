import AnatoliaBis.Basic
import AnatoliaBis.Lib.Json
import AnatoliaBis.Lib.Separated

/-! # Audit events

The data of `audit.rs` and `db/audit.rs`: what a handler records
(`AuditRecorder`), what is inserted (`NewAuditEvent`), what is read back
(`AuditEventRow`), and the text a row's hash is computed over
(`canonicalEventString`). The hash function and the calendar texts of `chrono`
are parameters (`Externals`).
-/

namespace AnatoliaBis.Audit

/-- Code of other crates the audit trail calls. -/
structure Externals where
  /-- `hex::encode(Sha256::digest(value))`. -/
  sha256Hex : String → String
  /-- `DateTime::format("%Y-%m-%dT%H:%M:%S%.6fZ")`. -/
  formatMicros : Timestamp → String
  /-- `str::parse::<DateTime<Utc>>`. -/
  parseTimestamp : String → Option Timestamp

/-- `GENESIS_HASH`: the `previous_hash` of the first row. -/
def genesisHash : String :=
  "0000000000000000000000000000000000000000000000000000000000000000"

/-- The separator of `canonical_event_string`, SOH. -/
def sep : Char := '\x01'

/-- `db::NewAuditEvent`. -/
structure NewAuditEvent where
  actorUserId : Option String
  actorUserCode : Option String
  actorRole : Option String
  action : String
  requestId : String
  caseReference : Option String
  resourceType : Option String
  resourceId : Option String
  result : String
  source : Option String
  ipAddress : Option String
  userAgent : Option String
  metadata : Option String
  organizationId : Option String
  organizationUnitId : Option String
  deriving Repr, DecidableEq

/-- `canonical_timestamp`. -/
def canonicalTimestamp (x : Externals) (timestamp : Timestamp) : String :=
  x.formatMicros timestamp

/-- The fields of an event that enter the hash, an absent one as `""`. The two
organization columns are not among them. -/
def NewAuditEvent.hashedFields (event : NewAuditEvent) : List String :=
  [event.actorUserId.getD "",
    event.actorUserCode.getD "",
    event.actorRole.getD "",
    event.action,
    event.requestId,
    event.caseReference.getD "",
    event.resourceType.getD "",
    event.resourceId.getD "",
    event.result,
    event.source.getD "",
    event.ipAddress.getD "",
    event.userAgent.getD "",
    event.metadata.getD ""]

/-- `canonical_event_string`. -/
def canonicalEventString (x : Externals) (previousHash : String) (timestamp : Timestamp)
    (event : NewAuditEvent) : String :=
  Separated.join sep
    (previousHash :: canonicalTimestamp x timestamp :: event.hashedFields)

/-! ## The recorder -/

/-- `audit::AuditRecorder`. -/
structure AuditRecorder where
  action : String
  result : String
  requestId : String
  actorUserId : Option String
  actorUserCode : Option String
  actorRole : Option String
  caseReference : Option String
  resourceType : Option String
  resourceId : Option String
  source : Option String
  ipAddress : Option String
  userAgent : Option String
  metadata : Option Json.Value

namespace AuditRecorder

/-- `AuditRecorder::new`. -/
def new (action result requestId : String) : AuditRecorder where
  action := action
  result := result
  requestId := requestId
  actorUserId := none
  actorUserCode := none
  actorRole := none
  caseReference := none
  resourceType := none
  resourceId := none
  source := some "api"
  ipAddress := none
  userAgent := none
  metadata := none

/-- `AuditRecorder::actor_by_id`. -/
def actorById (r : AuditRecorder) (userId userCode role : String) : AuditRecorder :=
  { r with actorUserId := some userId, actorUserCode := some userCode, actorRole := some role }

/-- `AuditRecorder::resource`. -/
def resource (r : AuditRecorder) (resourceType resourceId : String) : AuditRecorder :=
  { r with resourceType := some resourceType, resourceId := some resourceId }

/-- `AuditRecorder::metadata`. -/
def withMetadata (r : AuditRecorder) (value : Json.Value) : AuditRecorder :=
  { r with metadata := some value }

/-- `AuditRecorder::to_new_event`. -/
def toNewEvent (r : AuditRecorder) (organizationId : Option String) : NewAuditEvent where
  actorUserId := r.actorUserId
  actorUserCode := r.actorUserCode
  actorRole := r.actorRole
  action := r.action
  requestId := r.requestId
  caseReference := r.caseReference
  resourceType := r.resourceType
  resourceId := r.resourceId
  result := r.result
  source := r.source
  ipAddress := r.ipAddress
  userAgent := r.userAgent
  metadata := r.metadata.map (·.text Json.compact)
  organizationId := organizationId
  organizationUnitId := none

end AuditRecorder

/-! ## Rows -/

/-- `db::AuditEventRow`: a row of `audit_events` as `SELECT` returns it. -/
structure AuditEventRow where
  id : String
  timestamp : String
  actorUserId : Option String
  actorUserCode : Option String
  actorRole : Option String
  action : String
  requestId : String
  caseReference : Option String
  resourceType : Option String
  resourceId : Option String
  result : String
  source : Option String
  ipAddress : Option String
  userAgent : Option String
  metadata : Option String
  organizationId : Option String
  organizationUnitId : Option String
  sequence : Option Nat
  previousHash : Option String
  eventHash : Option String
  deriving Repr, DecidableEq

namespace AuditEventRow

/-- The event `verify_chain` rebuilds from a row. -/
def event (row : AuditEventRow) : NewAuditEvent where
  actorUserId := row.actorUserId
  actorUserCode := row.actorUserCode
  actorRole := row.actorRole
  action := row.action
  requestId := row.requestId
  caseReference := row.caseReference
  resourceType := row.resourceType
  resourceId := row.resourceId
  result := row.result
  source := row.source
  ipAddress := row.ipAddress
  userAgent := row.userAgent
  metadata := row.metadata
  organizationId := row.organizationId
  organizationUnitId := row.organizationUnitId

/-- `row.previous_hash.clone().unwrap_or_default()`. -/
def storedPreviousHash (row : AuditEventRow) : String := row.previousHash.getD ""

/-- `row.event_hash.clone().unwrap_or_default()`. -/
def storedEventHash (row : AuditEventRow) : String := row.eventHash.getD ""

/-- The text the row's hash is recomputed from, if its timestamp can be read. -/
def canonicalText (x : Externals) (row : AuditEventRow) : Option String :=
  (x.parseTimestamp row.timestamp).map fun timestamp =>
    canonicalEventString x row.storedPreviousHash timestamp row.event

end AuditEventRow

/-! ## What the canonical text determines -/

/-- The previous hash stands in front and can be read back when it contains no
separator. -/
theorem canonicalEventString_inj {x : Externals} {p p' : String} {t t' : Timestamp}
    {event event' : NewAuditEvent} (hp : sep ∉ p.toList) (hp' : sep ∉ p'.toList) :
    canonicalEventString x p t event = canonicalEventString x p' t' event' ↔
      p = p' ∧ Separated.join sep (canonicalTimestamp x t :: event.hashedFields) =
        Separated.join sep (canonicalTimestamp x t' :: event'.hashedFields) :=
  Separated.join_cons_inj hp hp' (by simp) (by simp)

theorem sep_notMem_genesisHash : sep ∉ genesisHash.toList := by decide

end AnatoliaBis.Audit
