import AnatoliaBis.Audit.Event
import AnatoliaBis.Lib.HashChain
import AnatoliaBis.Lib.Program
import AnatoliaBis.Lib.Tabulated
import Mathlib.Data.List.Sort

/-! # The audit chain: verifying and writing it

`verify_chain` and, for SQLite, `insert_audit_event` of `db/audit.rs`. The
insert is a transaction of single statements, any of which can fail; the
verifier walks the rows in `sequence` order.

The abstract picture is an append-only list of events (`chainRows`): after any
number of inserts, committed or aborted, the chained rows of the table are the
chain of the committed events (`Represents`).
-/

namespace AnatoliaBis.Audit

open Atomic

/-! ## The verifier -/

/-- `ChainBreak`. -/
structure ChainBreak where
  sequence : Nat
  eventId : String
  reason : String
  deriving Repr, DecidableEq

/-- `ChainVerificationReport`. -/
structure ChainVerificationReport where
  eventsChecked : Nat
  intact : Bool
  breaks : List ChainBreak
  deriving Repr, DecidableEq

/-- The loop of `verify_chain`; `expected` is `expected_previous_hash`. -/
def verifyRows (x : Externals) : String → List AuditEventRow → List ChainBreak
  | _, [] => []
  | expected, row :: rows =>
      let brk (reason : String) : ChainBreak := ⟨row.sequence.getD 0, row.id, reason⟩
      let link :=
        if row.storedPreviousHash ≠ expected then
          [brk "previous_hash does not match the prior event's event_hash"]
        else []
      let own :=
        match row.canonicalText x with
        | none => [brk "stored timestamp is not parseable"]
        | some text =>
            if x.sha256Hex text ≠ row.storedEventHash then
              [brk "event_hash does not match this row's own recomputed fields"]
            else []
      link ++ own ++ verifyRows x row.storedEventHash rows

/-- `WHERE sequence IS NOT NULL ORDER BY sequence ASC`. -/
def selectChained (events : List AuditEventRow) : List AuditEventRow :=
  (events.filter (·.sequence.isSome)).insertionSort fun a b =>
    a.sequence.getD 0 ≤ b.sequence.getD 0

/-- `verify_chain`, on the rows of `audit_events` as its `SELECT` sees them. -/
def verifyChain (x : Externals) (events : List AuditEventRow) : ChainVerificationReport :=
  let rows := selectChained events
  let breaks := verifyRows x genesisHash rows
  { eventsChecked := rows.length, intact := breaks.isEmpty, breaks := breaks }

/-- The rows point at each other, starting from `g`. -/
def ChainedFrom (g : String) (rows : List AuditEventRow) : Prop :=
  HashChain.Linked AuditEventRow.storedPreviousHash AuditEventRow.storedEventHash g rows

/-- The stored hash is the hash of the row's own fields. -/
def Sealed (x : Externals) (row : AuditEventRow) : Prop :=
  (row.canonicalText x).map x.sha256Hex = some row.storedEventHash

theorem sealed_iff {x : Externals} {row : AuditEventRow} :
    Sealed x row ↔ ∃ text, row.canonicalText x = some text ∧
      x.sha256Hex text = row.storedEventHash := by
  simp [Sealed]

theorem verifyRows_eq_nil_iff {x : Externals} {g : String} {rows : List AuditEventRow} :
    verifyRows x g rows = [] ↔ ChainedFrom g rows ∧ ∀ row ∈ rows, Sealed x row := by
  induction rows generalizing g with
  | nil => simp [verifyRows, ChainedFrom]
  | cons row rows ih =>
      have hown : (match row.canonicalText x with
          | none => [ChainBreak.mk (row.sequence.getD 0) row.id
              "stored timestamp is not parseable"]
          | some text =>
              if x.sha256Hex text ≠ row.storedEventHash then
                [ChainBreak.mk (row.sequence.getD 0) row.id
                  "event_hash does not match this row's own recomputed fields"]
              else []) = [] ↔ Sealed x row := by
        cases ht : row.canonicalText x with
        | none => simp [Sealed, ht]
        | some text => simp [Sealed, ht]
      simp only [verifyRows, List.append_eq_nil_iff, hown, ih, ChainedFrom,
        HashChain.linked_cons, List.forall_mem_cons]
      constructor
      · rintro ⟨⟨hlink, hseal⟩, hrest, hall⟩
        exact ⟨⟨by simpa using hlink, hrest⟩, hseal, hall⟩
      · rintro ⟨⟨hlink, hrest⟩, hseal, hall⟩
        exact ⟨⟨by simpa using hlink, hseal⟩, hrest, hall⟩

/-- **The verdict.** A table is reported intact exactly when its chained rows
point at each other and carry the hash of their own fields. -/
theorem intact_iff {x : Externals} {events : List AuditEventRow} :
    (verifyChain x events).intact = true ↔
      ChainedFrom genesisHash (selectChained events) ∧
        ∀ row ∈ selectChained events, Sealed x row := by
  simp [verifyChain, verifyRows_eq_nil_iff]

/-! ## The insert on SQLite -/

/-- The tables an insert works on. `audit_chain_state` has its single row from
the migration on. -/
structure AuditTables where
  events : List AuditEventRow
  lastSequence : Nat
  lastHash : String

/-- Before the first insert: rows from before the chain existed, if any. -/
def AuditTables.Initial (t : AuditTables) : Prop :=
  (∀ row ∈ t.events, row.sequence = none) ∧ t.lastSequence = 0 ∧ t.lastHash = genesisHash

/-- The statements of the transaction. -/
inductive Statement where
  | begin
  | selectState
  | insertEvent (row : AuditEventRow)
  | updateState (sequence : Nat) (hash : String)
  | commit

abbrev Statement.Res : Statement → Type
  | .selectState => Except DbError (Nat × String)
  | _ => Except DbError Unit

/-- One statement; `fails` is the environment's choice. The insert can also
fail on the primary key or on the unique index over `sequence`. -/
def execStatement : (op : Statement) → (fails : Bool) → AuditTables → AuditTables × op.Res
  | .selectState, true, t => (t, .error .failed)
  | .selectState, false, t => (t, .ok (t.lastSequence, t.lastHash))
  | .insertEvent row, fails, t =>
      if fails ∨ t.events.any (fun r => r.id == row.id ||
          (r.sequence.isSome && r.sequence == row.sequence)) then
        (t, .error .failed)
      else ({ t with events := t.events ++ [row] }, .ok ())
  | .updateState _ _, true, t => (t, .error .failed)
  | .updateState sequence hash, false, t =>
      ({ t with lastSequence := sequence, lastHash := hash }, .ok ())
  | .begin, fails, t => (t, if fails then .error .failed else .ok ())
  | .commit, fails, t => (t, if fails then .error .failed else .ok ())

/-- A call of `insert_audit_event` on SQLite: the event, the clock, the fresh row id and which
of its statements fail. -/
structure Write where
  event : NewAuditEvent
  now : Timestamp
  rowId : String
  faults : Nat → Bool

/-- `Utc::now().trunc_subsecs(6)`. -/
def Write.timestamp (w : Write) : Timestamp := w.now.truncMicros

/-- The row an insert writes behind `previousHash`. -/
def Write.row (x : Externals) (w : Write) (previousHash : String) (sequence : Nat) :
    AuditEventRow where
  id := w.rowId
  timestamp := canonicalTimestamp x w.timestamp
  actorUserId := w.event.actorUserId
  actorUserCode := w.event.actorUserCode
  actorRole := w.event.actorRole
  action := w.event.action
  requestId := w.event.requestId
  caseReference := w.event.caseReference
  resourceType := w.event.resourceType
  resourceId := w.event.resourceId
  result := w.event.result
  source := w.event.source
  ipAddress := w.event.ipAddress
  userAgent := w.event.userAgent
  metadata := w.event.metadata
  organizationId := w.event.organizationId
  organizationUnitId := w.event.organizationUnitId
  sequence := some sequence
  previousHash := some previousHash
  eventHash := some (x.sha256Hex (canonicalEventString x previousHash w.timestamp w.event))

def stmt (op : Statement) : Program Statement Statement.Res op.Res :=
  .call op .done

/-- The body of the SQLite branch, `?` returning the error. -/
def insertStatements (x : Externals) (w : Write) :
    Program Statement Statement.Res (Except DbError Unit) := do
  let .ok _ ← stmt .begin | return .error .failed
  let .ok (lastSequence, lastHash) ← stmt .selectState | return .error .failed
  let sequence := lastSequence + 1
  let row := w.row x lastHash sequence
  let .ok _ ← stmt (.insertEvent row) | return .error .failed
  let .ok _ ← stmt (.updateState sequence row.storedEventHash) | return .error .failed
  let .ok _ ← stmt .commit | return .error .failed
  return .ok ()

/-- `insert_audit_event` on SQLite. -/
def insertAuditEvent (x : Externals) (w : Write) (t : AuditTables) :
    Except DbError Unit × AuditTables :=
  (insertStatements x w).transaction execStatement w.faults t

/-- The tables after the transactions of a history, one after the other. -/
def insertAll (x : Externals) (writes : List Write) (t : AuditTables) : AuditTables :=
  writes.foldl (fun t w => (insertAuditEvent x w t).2) t

/-- What a committed insert leaves behind. -/
def AuditTables.append (x : Externals) (t : AuditTables) (w : Write) : AuditTables where
  events := t.events ++ [w.row x t.lastHash (t.lastSequence + 1)]
  lastSequence := t.lastSequence + 1
  lastHash := (w.row x t.lastHash (t.lastSequence + 1)).storedEventHash

/-- **What an insert can do**: append its row and advance the tip, or fail at
some statement without a trace. -/
theorem insertAuditEvent_cases (x : Externals) (w : Write) (t : AuditTables) :
    insertAuditEvent x w t = (.ok (), t.append x w) ∨
      insertAuditEvent x w t = (.error .failed, t) := by
  unfold insertAuditEvent Program.transaction insertStatements stmt
  simp only [Program.call_bind, Program.done_bind, Program.run_call, execStatement]
  -- one case per statement: it fails, or the next one runs
  cases h0 : w.faults 0 with
  | true => right; simp
  | false =>
      cases h1 : w.faults 1 with
      | true => right; simp [h1, execStatement]
      | false =>
          simp only [Bool.false_eq_true, if_false, Program.run_call, h1, execStatement]
          split_ifs with hdup
          · right; simp
          · cases h3 : w.faults 3 with
            | true => right; simp [h3, execStatement]
            | false =>
                cases h4 : w.faults 4 with
                | true => right; simp [h3, h4, execStatement]
                | false => left; simp [h3, h4, execStatement, AuditTables.append]

/-! ## The chain of the committed events -/

/-- The rows of an append-only log of events. -/
def chainRows (x : Externals) (ws : List Write) : List AuditEventRow :=
  HashChain.build (fun prev n w => w.row x prev n) AuditEventRow.storedEventHash genesisHash 1 ws

theorem sequence_chainRows (x : Externals) (ws : List Write) :
    (chainRows x ws).map (fun r => r.sequence.getD 0) = List.range' 1 ws.length :=
  HashChain.number_build (fun _ _ _ => rfl) genesisHash 1 ws

/-- No column the verifier relies on is `NULL` in a row that was inserted. -/
structure AuditEventRow.Complete (row : AuditEventRow) : Prop where
  sequence : row.sequence = some (row.sequence.getD 0)
  previousHash : row.previousHash = some row.storedPreviousHash
  eventHash : row.eventHash = some row.storedEventHash

theorem complete_chainRows (x : Externals) (ws : List Write) :
    ∀ r ∈ chainRows x ws, r.Complete :=
  (HashChain.forall_mem_build_iff (fun _ _ _ _ => iff_true_intro ⟨rfl, rfl, rfl⟩)
    genesisHash 1).mpr fun _ _ => trivial

theorem linked_chainRows (x : Externals) (ws : List Write) :
    ChainedFrom genesisHash (chainRows x ws) :=
  HashChain.linked_build (fun _ _ _ => rfl) genesisHash 1 ws

/-- The row of a write carries its own hash when the stored timestamp is read
back as the one that was hashed. -/
theorem sealed_row {x : Externals} {w : Write}
    (hparse : x.parseTimestamp (canonicalTimestamp x w.timestamp) = some w.timestamp)
    (prev : String) (n : Nat) : Sealed x (w.row x prev n) := by
  rw [sealed_iff]
  refine ⟨canonicalEventString x prev w.timestamp w.event, ?_, rfl⟩
  simp [AuditEventRow.canonicalText, Write.row, hparse, AuditEventRow.storedPreviousHash,
    AuditEventRow.event]

theorem sealed_chainRows {x : Externals} {ws : List Write}
    (hparse : ∀ w ∈ ws, x.parseTimestamp (canonicalTimestamp x w.timestamp) = some w.timestamp) :
    ∀ row ∈ chainRows x ws, Sealed x row :=
  (HashChain.forall_mem_build_iff (fun w hw prev n => iff_true_intro (sealed_row (hparse w hw) prev n))
    genesisHash 1).mpr fun _ _ => trivial

/-- Rows numbered in order are already in the order of the verifier's query. -/
theorem insertionSort_of_sequence {rows : List AuditEventRow} {n k : Nat}
    (h : rows.map (fun r => r.sequence.getD 0) = List.range' n k) :
    rows.insertionSort (fun a b => a.sequence.getD 0 ≤ b.sequence.getD 0) = rows := by
  apply List.Pairwise.insertionSort_eq
  have hpw : (rows.map fun r => r.sequence.getD 0).Pairwise (· ≤ ·) := by
    rw [h]
    exact List.pairwise_le_range'
  exact List.pairwise_map.mp hpw

/-! ## Every history -/

/-- The table holds exactly the chain of the events `ws`. -/
structure Represents (x : Externals) (t : AuditTables) (ws : List Write) : Prop where
  rows : t.events.filter (·.sequence.isSome) = chainRows x ws
  sequence : t.lastSequence = ws.length
  hash : t.lastHash = HashChain.tip AuditEventRow.storedEventHash genesisHash (chainRows x ws)

theorem AuditTables.Initial.represents {x : Externals} {t : AuditTables} (h : t.Initial) :
    Represents x t [] where
  rows := by
    rw [List.filter_eq_nil_iff.mpr (by intro row hrow; simp [h.1 row hrow])]
    rfl
  sequence := h.2.1
  hash := h.2.2

theorem Represents.append {x : Externals} {t : AuditTables} {ws : List Write}
    (h : Represents x t ws) (w : Write) : Represents x (t.append x w) (ws ++ [w]) := by
  have hconcat : chainRows x (ws ++ [w]) =
      chainRows x ws ++ [w.row x t.lastHash (t.lastSequence + 1)] := by
    rw [chainRows, HashChain.build_concat, h.hash, h.sequence, Nat.add_comm 1]
    rfl
  constructor
  · rw [AuditTables.append, List.filter_append, h.rows, hconcat]
    simp [Write.row]
  · simp [AuditTables.append, h.sequence]
  · rw [hconcat, HashChain.tip_concat, AuditTables.append]

/-- **Refinement.** After any history, aborted transactions included, the table
holds the chain of the events that were committed. -/
theorem insertAll_represents {x : Externals} {t : AuditTables} {ws : List Write}
    (h : Represents x t ws) (writes : List Write) :
    ∃ committed, committed.Sublist writes ∧
      Represents x (insertAll x writes t) (ws ++ committed) := by
  induction writes generalizing t ws with
  | nil => exact ⟨[], List.Sublist.refl _, by simpa [insertAll] using h⟩
  | cons w writes ih =>
      rcases insertAuditEvent_cases x w t with hok | herr
      · obtain ⟨committed, hsub, hrep⟩ := ih (h.append w)
        refine ⟨w :: committed, hsub.cons_cons w, ?_⟩
        simpa [insertAll, hok] using hrep
      · obtain ⟨committed, hsub, hrep⟩ := ih h
        exact ⟨committed, hsub.cons w, by simpa [insertAll, herr] using hrep⟩

theorem Represents.selectChained {x : Externals} {t : AuditTables} {ws : List Write}
    (h : Represents x t ws) : selectChained t.events = chainRows x ws := by
  rw [Audit.selectChained, h.rows]
  exact insertionSort_of_sequence (sequence_chainRows x ws)

/-- What holds of the two audit tables between transactions. -/
structure ChainInvariant (x : Externals) (t : AuditTables) : Prop where
  /-- The sequence numbers are `1, …, n`, and `n` is the recorded one. -/
  sequences : (selectChained t.events).map (·.sequence) = (List.range' 1 t.lastSequence).map some
  /-- The first row points at the genesis value, every other at the row before it. -/
  linked : HashChain.Linked AuditEventRow.previousHash AuditEventRow.eventHash
    (some genesisHash) (selectChained t.events)
  /-- The recorded hash is the one of the last row, or the genesis value. -/
  tip : some t.lastHash = HashChain.tip AuditEventRow.eventHash (some genesisHash)
    (selectChained t.events)
  intact : (verifyChain x t.events).intact = true
  counted : (verifyChain x t.events).eventsChecked = t.lastSequence

theorem Represents.chainInvariant {x : Externals} {t : AuditTables} {ws : List Write}
    (h : Represents x t ws)
    (hparse : ∀ w ∈ ws, x.parseTimestamp (canonicalTimestamp x w.timestamp) = some w.timestamp) :
    ChainInvariant x t := by
  have hcomplete := complete_chainRows x ws
  constructor
  · rw [h.selectChained, h.sequence, ← sequence_chainRows x ws, List.map_map]
    exact List.map_congr_left fun r hr => (hcomplete r hr).sequence
  · rw [h.selectChained]
    exact (linked_chainRows x ws).image some (fun r hr => (hcomplete r hr).previousHash)
      fun r hr => (hcomplete r hr).eventHash
  · rw [h.selectChained, h.hash]
    exact (HashChain.tip_image some (fun r hr => (hcomplete r hr).eventHash) genesisHash).symm
  · rw [intact_iff, h.selectChained]
    exact ⟨linked_chainRows x ws, sealed_chainRows hparse⟩
  · simp [verifyChain, h.selectChained, h.sequence, chainRows]

/-- **The chain invariant.** Any number of writers, their transactions in any
serial order, any of them aborted at any statement: the invariant holds after
every one. `chrono` is assumed to read back the timestamps it wrote. -/
theorem insertAll_chainInvariant {x : Externals} {t : AuditTables} (h : t.Initial)
    (writes : List Write)
    (hparse : ∀ w ∈ writes,
      x.parseTimestamp (canonicalTimestamp x w.timestamp) = some w.timestamp) :
    ChainInvariant x (insertAll x writes t) := by
  obtain ⟨committed, hsub, hrep⟩ := insertAll_represents (x := x) h.represents writes
  exact hrep.chainInvariant fun w hw => hparse w (hsub.subset (by simpa using hw))

/-! ## A recorded history

Two logins at fixed instants, with the calendar texts and SHA-256 values they
really have; elsewhere the hash is an injective stand-in. -/

def sampleLogin : NewAuditEvent where
  actorUserId := some "00000000-0000-0000-0000-000000000001"
  actorUserCode := some "A1B2"
  actorRole := some "OPERATOR"
  action := "AUTH_LOGIN_SUCCESS"
  requestId := "req-1"
  caseReference := none
  resourceType := none
  resourceId := none
  result := "success"
  source := some "api"
  ipAddress := none
  userAgent := none
  metadata := none
  organizationId := none
  organizationUnitId := none

def sampleFailure : NewAuditEvent where
  actorUserId := none
  actorUserCode := none
  actorRole := none
  action := "AUTH_LOGIN_FAILED"
  requestId := "req-2"
  caseReference := none
  resourceType := none
  resourceId := none
  result := "failure"
  source := some "api"
  ipAddress := none
  userAgent := none
  metadata := some "\x7b\"reason\":\"unknown_account\",\"userCode\":\"ZZZZ\"\x7d"
  organizationId := none
  organizationUnitId := none

def sampleHash1 : String := "159a56b626d97189886fe032b4dca26ff2f6391966c8219b2914101a8639e3e8"
def sampleHash2 : String := "fc21d70020f05f1ceb7e34fd236f0258d68e3e8ba8b9fab9494043f47210885f"

def sampleTable : List (String × String) :=
  [(Separated.join sep
      (genesisHash :: "2009-02-13T23:31:30.123456Z" :: sampleLogin.hashedFields), sampleHash1),
    (Separated.join sep
      (sampleHash1 :: "2009-02-13T23:31:31.000000Z" :: sampleFailure.hashedFields), sampleHash2)]

def sampleExternals : Externals where
  sha256Hex := Tabulated.extend sampleTable
  formatMicros t :=
    if t = 1234567890123456000 then "2009-02-13T23:31:30.123456Z"
    else if t = 1234567891000000000 then "2009-02-13T23:31:31.000000Z"
    else ""
  parseTimestamp s :=
    if s = "2009-02-13T23:31:30.123456Z" then some 1234567890123456000
    else if s = "2009-02-13T23:31:31.000000Z" then some 1234567891000000000
    else none

def sampleWrite1 : Write :=
  ⟨sampleLogin, 1234567890123456789, "00000000-0000-0000-0000-00000000000a", fun _ => false⟩

def sampleWrite2 : Write :=
  ⟨sampleFailure, 1234567891000000000, "00000000-0000-0000-0000-00000000000b", fun _ => false⟩

/-- The second insert is tried twice; the first time its `UPDATE` fails. -/
def sampleWrites : List Write :=
  [sampleWrite1, { sampleWrite2 with faults := fun n => n == 3 }, sampleWrite2]

def emptyTables : AuditTables := ⟨[], 0, genesisHash⟩

theorem emptyTables_initial : emptyTables.Initial := ⟨by simp [emptyTables], rfl, rfl⟩

theorem insertAll_chainInvariant_sample :
    ChainInvariant sampleExternals (insertAll sampleExternals sampleWrites emptyTables) :=
  insertAll_chainInvariant emptyTables_initial sampleWrites (by decide)

example : (insertAll sampleExternals sampleWrites emptyTables).lastHash = sampleHash2 := by
  decide +kernel

end AnatoliaBis.Audit
