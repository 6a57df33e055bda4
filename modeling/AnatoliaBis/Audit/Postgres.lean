import AnatoliaBis.Audit.Tamper
import AnatoliaBis.Uuid

/-! # The audit chain on PostgreSQL

The Postgres branch of `insert_audit_event` hashes the event in memory but
stores it in typed columns: the actor in a `uuid` column, the metadata as
`jsonb`, the timestamp as `timestamptz`. `verify_chain` hashes what the columns
print. `pg_intact_iff` says for which events the two agree.
-/

namespace AnatoliaBis.Audit

/-- What the database does with values of its own types. -/
structure PgExternals where
  /-- `$14::jsonb`, the value a JSON text denotes. -/
  jsonbIn : String → Option Json.Value
  /-- A number as `numeric` prints it. -/
  numeric : Json.Number → Json.Number
  /-- `to_char("timestamp" AT TIME ZONE 'UTC', 'YYYY-MM-DD"T"HH24:MI:SS.US"Z"')`. -/
  toChar : Timestamp → String

/-- A row of `audit_events` in the types of its columns. -/
structure PgEventRow where
  id : Uuid
  timestamp : Timestamp
  actorUserId : Option Uuid
  actorUserCode : Option String
  actorRole : Option String
  action : String
  requestId : String
  caseReference : Option String
  resourceType : Option String
  resourceId : Option String
  result : String
  source : Option String
  ipAddress : Option String
  userAgent : Option String
  metadata : Option Json.Value
  organizationId : Option Uuid
  organizationUnitId : Option Uuid
  sequence : Option Nat
  previousHash : Option String
  eventHash : Option String

/-- `AUDIT_EVENT_COLUMNS_PG`: the columns as text. -/
def PgEventRow.select (pg : PgExternals) (row : PgEventRow) : AuditEventRow where
  id := row.id.text
  timestamp := pg.toChar row.timestamp
  actorUserId := row.actorUserId.map Uuid.text
  actorUserCode := row.actorUserCode
  actorRole := row.actorRole
  action := row.action
  requestId := row.requestId
  caseReference := row.caseReference
  resourceType := row.resourceType
  resourceId := row.resourceId
  result := row.result
  source := row.source
  ipAddress := row.ipAddress
  userAgent := row.userAgent
  metadata := row.metadata.map (·.text (Json.jsonb pg.numeric))
  organizationId := row.organizationId.map Uuid.text
  organizationUnitId := row.organizationUnitId.map Uuid.text
  sequence := row.sequence
  previousHash := row.previousHash
  eventHash := row.eventHash

structure PgTables where
  events : List PgEventRow
  lastSequence : Nat
  lastHash : String

def PgTables.Initial (t : PgTables) : Prop :=
  (∀ row ∈ t.events, row.sequence = none) ∧ t.lastSequence = 0 ∧ t.lastHash = genesisHash

/-- A call of `AuditRecorder::save`: the recorder, the resolved organization,
the clock and the id the database generates. -/
structure PgWrite where
  recorder : AuditRecorder
  organizationId : Option String
  now : Timestamp
  rowId : Uuid

def PgWrite.event (w : PgWrite) : NewAuditEvent := w.recorder.toNewEvent w.organizationId

def PgWrite.timestamp (w : PgWrite) : Timestamp := w.now.truncMicros

/-- The row an insert writes behind `previousHash`; a text that is no UUID
becomes `NULL`. -/
def PgWrite.row (x : Externals) (pg : PgExternals) (w : PgWrite) (previousHash : String)
    (sequence : Nat) : PgEventRow where
  id := w.rowId
  timestamp := w.timestamp
  actorUserId := w.event.actorUserId.bind Uuid.parseStr
  actorUserCode := w.event.actorUserCode
  actorRole := w.event.actorRole
  action := w.event.action
  requestId := w.event.requestId
  caseReference := w.event.caseReference
  resourceType := w.event.resourceType
  resourceId := w.event.resourceId
  result := w.event.result
  source := w.event.source
  ipAddress := w.event.ipAddress
  userAgent := w.event.userAgent
  metadata := w.event.metadata.bind pg.jsonbIn
  organizationId := w.event.organizationId.bind Uuid.parseStr
  organizationUnitId := w.event.organizationUnitId.bind Uuid.parseStr
  sequence := some sequence
  previousHash := some previousHash
  eventHash := some (x.sha256Hex (canonicalEventString x previousHash w.timestamp w.event))

/-- The `INSERT` fails on metadata that is no JSON. -/
def PgWrite.Accepted (pg : PgExternals) (w : PgWrite) : Prop :=
  ∀ text, w.event.metadata = some text → (pg.jsonbIn text).isSome

instance (pg : PgExternals) (w : PgWrite) : Decidable (w.Accepted pg) :=
  match h : w.event.metadata with
  | none => .isTrue (by intro text ht; simp [h] at ht)
  | some text => decidable_of_iff ((pg.jsonbIn text).isSome = true) (by simp [PgWrite.Accepted, h])

/-- `insert_audit_event` on Postgres. `SELECT … FOR UPDATE` makes concurrent
calls wait for each other, so a call is one step; one that fails rolls back. -/
def insertAuditEventPg (x : Externals) (pg : PgExternals) (w : PgWrite) (t : PgTables) :
    Except DbError Unit × PgTables :=
  if w.Accepted pg then
    let sequence := t.lastSequence + 1
    let row := w.row x pg t.lastHash sequence
    (.ok (), { events := t.events ++ [row], lastSequence := sequence,
               lastHash := (row.select pg).storedEventHash })
  else (.error .failed, t)

def insertAllPg (x : Externals) (pg : PgExternals) (writes : List PgWrite) (t : PgTables) :
    PgTables :=
  writes.foldl (fun t w => (insertAuditEventPg x pg w t).2) t

/-- `verify_chain` on Postgres. -/
def verifyChainPg (x : Externals) (pg : PgExternals) (t : PgTables) : ChainVerificationReport :=
  verifyChain x (t.events.map (·.select pg))

/-! ## The rows of a history -/

def chainRowsPg (x : Externals) (pg : PgExternals) (ws : List PgWrite) : List PgEventRow :=
  HashChain.build (fun prev n w => w.row x pg prev n)
    (fun row => (row.select pg).storedEventHash) genesisHash 1 ws

theorem chainRowsPg_concat {x : Externals} {pg : PgExternals} (ws : List PgWrite) (w : PgWrite) :
    chainRowsPg x pg (ws ++ [w]) = chainRowsPg x pg ws ++
      [w.row x pg (HashChain.tip (fun row => (row.select pg).storedEventHash) genesisHash
        (chainRowsPg x pg ws)) (ws.length + 1)] := by
  rw [chainRowsPg, HashChain.build_concat, Nat.add_comm 1]
  rfl

/-- After a history of accepted inserts the chained rows are its chain. -/
theorem insertAllPg_rows {x : Externals} {pg : PgExternals} {t : PgTables} (hinit : t.Initial)
    {ws : List PgWrite} (hacc : ∀ w ∈ ws, w.Accepted pg) :
    (insertAllPg x pg ws t).events.filter (·.sequence.isSome) = chainRowsPg x pg ws ∧
      (insertAllPg x pg ws t).lastSequence = ws.length ∧
      (insertAllPg x pg ws t).lastHash = HashChain.tip
        (fun row => (row.select pg).storedEventHash) genesisHash (chainRowsPg x pg ws) := by
  induction ws using List.reverseRecOn with
  | nil =>
      refine ⟨?_, hinit.2.1, hinit.2.2⟩
      exact List.filter_eq_nil_iff.mpr (by intro row hrow; simp [hinit.1 row hrow])
  | append_singleton ws w ih =>
      obtain ⟨hrows, hseq, hhash⟩ := ih fun v hv => hacc v (by simp [hv])
      have hstep : insertAllPg x pg (ws ++ [w]) t =
          (insertAuditEventPg x pg w (insertAllPg x pg ws t)).2 := by
        simp [insertAllPg]
      rw [hstep, insertAuditEventPg, if_pos (hacc w (by simp)), chainRowsPg_concat]
      dsimp only
      rw [List.filter_append, hrows, hseq, hhash, HashChain.tip_concat]
      refine ⟨by simp [PgWrite.row], by simp, rfl⟩

/-! ## When a row survives the columns -/

/-- The actor id is printed as it was given: absent, empty or canonical. -/
def ActorSurvives (actor : Option String) : Prop :=
  actor = none ∨ actor = some "" ∨ ∃ u : Uuid, u < 16 ^ 32 ∧ actor = some u.text

/-- The metadata is printed as it was given: absent or an empty object. -/
def MetadataSurvives (metadata : Option Json.Value) : Prop :=
  metadata = none ∨ metadata = some (.object [])

theorem actor_roundtrip_iff {actor : Option String} :
    ((actor.bind Uuid.parseStr).map Uuid.text).getD "" = actor.getD "" ↔ ActorSurvives actor := by
  cases actor with
  | none => simp [ActorSurvives]
  | some a =>
      have hempty : Uuid.parseStr "" = none := by decide
      simp only [ActorSurvives, Option.bind_some, Option.getD_some, Option.some.injEq,
        reduceCtorEq, false_or]
      cases hp : Uuid.parseStr a with
      | none =>
          simp only [Option.map_none, Option.getD_none]
          constructor
          · rintro rfl
            exact Or.inl rfl
          · rintro (rfl | ⟨u, hu, rfl⟩)
            · rfl
            · simp [Uuid.parseStr_text hu] at hp
      | some v =>
          simp only [Option.map_some, Option.getD_some]
          constructor
          · rintro rfl
            exact Or.inr ⟨v, Uuid.parseStr_lt hp, rfl⟩
          · rintro (rfl | ⟨u, hu, rfl⟩)
            · simp [hempty] at hp
            · rw [Uuid.parseStr_text hu] at hp
              rw [Option.some.inj hp]

/-- Metadata the recorder accepts is an object, and the database reads its text
as the value it was printed from. -/
structure MetadataReads (pg : PgExternals) (w : PgWrite) : Prop where
  isObject : ∀ v, w.recorder.metadata = some v → ∃ members, v = .object members
  reads : ∀ v, w.recorder.metadata = some v → pg.jsonbIn (v.text Json.compact) = some v

theorem MetadataReads.accepted {pg : PgExternals} {w : PgWrite} (h : MetadataReads pg w) :
    w.Accepted pg := by
  intro text htext
  obtain ⟨v, hv, rfl⟩ := Option.map_eq_some_iff.mp htext
  simp [h.reads v hv]

theorem MetadataReads.select {pg : PgExternals} {w : PgWrite} (h : MetadataReads pg w) :
    (w.event.metadata.bind pg.jsonbIn).map (·.text (Json.jsonb pg.numeric)) =
      w.recorder.metadata.map (·.text (Json.jsonb pg.numeric)) := by
  cases hm : w.recorder.metadata with
  | none => simp [PgWrite.event, AuditRecorder.toNewEvent, hm]
  | some v => simp [PgWrite.event, AuditRecorder.toNewEvent, hm, h.reads v hm]

theorem metadata_roundtrip_iff {pg : PgExternals} {w : PgWrite} (h : MetadataReads pg w) :
    (w.recorder.metadata.map (·.text (Json.jsonb pg.numeric))).getD "" =
        w.event.metadata.getD "" ↔
      MetadataSurvives w.recorder.metadata := by
  cases hm : w.recorder.metadata with
  | none => simp [PgWrite.event, AuditRecorder.toNewEvent, hm, MetadataSurvives]
  | some v =>
      obtain ⟨members, rfl⟩ := h.isObject v hm
      simp only [PgWrite.event, AuditRecorder.toNewEvent, hm, Option.map_some, Option.getD_some,
        MetadataSurvives, reduceCtorEq, false_or, Option.some.injEq, Json.Value.object.injEq]
      cases members with
      | nil =>
          rw [Json.Value.text, Json.Value.text, Json.chars_empty_object pg.numeric]
          simp
      | cons m ms =>
          constructor
          · intro heq
            exact absurd (String.ofList_injective heq).symm (Json.compact_ne_jsonb pg.numeric m ms)
          · intro hnil
            cases hnil

/-! ## When the verifier agrees -/

/-- The hashed fields between the actor and the metadata. -/
def NewAuditEvent.middleFields (event : NewAuditEvent) : List String :=
  [event.actorUserCode.getD "",
    event.actorRole.getD "",
    event.action,
    event.requestId,
    event.caseReference.getD "",
    event.resourceType.getD "",
    event.resourceId.getD "",
    event.result,
    event.source.getD "",
    event.ipAddress.getD "",
    event.userAgent.getD ""]

theorem hashedFields_eq (event : NewAuditEvent) :
    event.hashedFields =
      event.actorUserId.getD "" :: (event.middleFields ++ [event.metadata.getD ""]) := rfl

/-- Replacing a field by one without separators, and the last one as well, is
noticed in the joined text. -/
theorem join_ends_iff {c : Char} {a a' m m' : String} (front middle : List String)
    (ha : c ∉ a'.toList) (hm : c ∉ m.toList) (hm' : c ∉ m'.toList) :
    Separated.join c (front ++ a :: (middle ++ [m])) =
        Separated.join c (front ++ a' :: (middle ++ [m'])) ↔ a = a' ∧ m = m' := by
  rw [Separated.join_eq_iff (by simp) (by simp)]
  simp only [List.flatMap_cons, List.flatMap_append, List.flatMap_nil, List.append_nil,
    Separated.pieces_eq_singleton ha, Separated.pieces_eq_singleton hm,
    Separated.pieces_eq_singleton hm', List.append_cancel_left_eq]
  constructor
  · intro heq
    -- equally many pieces, so the first field is a single piece as well
    have hlen := congrArg List.length heq
    simp only [List.length_append, List.length_singleton] at hlen
    obtain ⟨hfirst, hrest⟩ := List.append_inj heq (by simp; omega)
    have hlast := (List.append_inj hrest rfl).2
    refine ⟨?_, String.toList_inj.mp (List.cons.inj hlast).1⟩
    rw [← Separated.pieces_eq_singleton ha] at hfirst
    exact Separated.pieces_inj.mp hfirst
  · rintro ⟨rfl, rfl⟩
    rw [Separated.pieces_eq_singleton ha]

theorem sep_notMem_of_printable {s : String} (h : ∀ c ∈ s.toList, Json.Printable c) :
    sep ∉ s.toList := by
  intro hs
  have := h sep hs
  revert this
  decide

theorem sep_notMem_actor (actor : Option Uuid) :
    sep ∉ ((actor.map Uuid.text).getD "").toList := by
  cases actor with
  | none => decide
  | some u =>
      intro h
      rcases Uuid.mem_text (by simpa using h) with hsep | ⟨d, hd, hsep⟩
      · revert hsep
        decide
      · have : ∀ d < 16, sep ≠ d.digitChar := by decide
        exact this d hd hsep

theorem sep_notMem_metadata {st : Json.Style} (hst : st.Printable) (v : Option Json.Value) :
    sep ∉ ((v.map (·.text st)).getD "").toList := by
  cases v with
  | none => simp
  | some v => exact sep_notMem_of_printable (Json.text_printable hst v)

/-- A row agrees with the event it was written from exactly when its actor and
its metadata survive their columns. -/
theorem sealed_select_iff {x : Externals} {pg : PgExternals} {w : PgWrite}
    (hinj : Function.Injective x.sha256Hex) (hread : MetadataReads pg w)
    (htime : x.parseTimestamp (pg.toChar w.timestamp) = some w.timestamp)
    (prev : String) (n : Nat) :
    Sealed x ((w.row x pg prev n).select pg) ↔
      ActorSurvives w.recorder.actorUserId ∧ MetadataSurvives w.recorder.metadata := by
  have hparse : x.parseTimestamp ((w.row x pg prev n).select pg).timestamp = some w.timestamp :=
    htime
  have hmiddle : ((w.row x pg prev n).select pg).event.middleFields = w.event.middleFields := rfl
  have hactor : ((w.row x pg prev n).select pg).event.actorUserId =
      (w.recorder.actorUserId.bind Uuid.parseStr).map Uuid.text := rfl
  have hmeta : ((w.row x pg prev n).select pg).event.metadata =
      w.recorder.metadata.map (·.text (Json.jsonb pg.numeric)) := hread.select
  have hfields : canonicalEventString x prev w.timestamp
        ((w.row x pg prev n).select pg).event = canonicalEventString x prev w.timestamp w.event ↔
      ActorSurvives w.recorder.actorUserId ∧ MetadataSurvives w.recorder.metadata := by
    have hjoin := join_ends_iff (a := w.event.actorUserId.getD "")
      [prev, canonicalTimestamp x w.timestamp] w.event.middleFields
      (sep_notMem_actor (w.recorder.actorUserId.bind Uuid.parseStr))
      (sep_notMem_metadata Json.compact_printable w.recorder.metadata)
      (sep_notMem_metadata (Json.jsonb_printable pg.numeric) w.recorder.metadata)
    rw [canonicalEventString, canonicalEventString, hashedFields_eq, hashedFields_eq, hmiddle,
      hactor, hmeta, eq_comm, ← actor_roundtrip_iff, ← metadata_roundtrip_iff hread]
    exact hjoin.trans (and_congr eq_comm eq_comm)
  rw [Sealed, AuditEventRow.canonicalText, hparse, Option.map_some, Option.map_some,
    Option.some.injEq, ← hfields]
  exact hinj.eq_iff

/-- **Writing and verifying agree exactly on plain events.** After a history of
inserts on a database without chained rows, the verifier reports the chain
intact, with every event counted, if and only if every event had an absent,
empty or canonical actor id and no metadata beyond an empty object. -/
theorem pg_intact_iff {x : Externals} {pg : PgExternals} (hinj : Function.Injective x.sha256Hex)
    {t : PgTables} (hinit : t.Initial) {ws : List PgWrite}
    (hread : ∀ w ∈ ws, MetadataReads pg w)
    (htime : ∀ w ∈ ws, x.parseTimestamp (pg.toChar w.timestamp) = some w.timestamp) :
    ((verifyChainPg x pg (insertAllPg x pg ws t)).intact = true ∧
        (verifyChainPg x pg (insertAllPg x pg ws t)).eventsChecked = ws.length) ↔
      ∀ w ∈ ws, ActorSurvives w.recorder.actorUserId ∧ MetadataSurvives w.recorder.metadata := by
  obtain ⟨hrows, -, -⟩ := insertAllPg_rows (x := x) hinit fun w hw => (hread w hw).accepted
  have hnumber : ((chainRowsPg x pg ws).map (·.select pg)).map (fun r => r.sequence.getD 0) =
      List.range' 1 ws.length := by
    rw [List.map_map]
    exact HashChain.number_build (fun _ _ _ => rfl) genesisHash 1 ws
  have hselect : selectChained ((insertAllPg x pg ws t).events.map (·.select pg)) =
      (chainRowsPg x pg ws).map (·.select pg) := by
    rw [selectChained, List.filter_map, ← insertionSort_of_sequence hnumber, ← hrows]
    rfl
  have hlink : ChainedFrom genesisHash ((chainRowsPg x pg ws).map (·.select pg)) :=
    (HashChain.linked_map (fun _ _ => rfl) (fun _ _ => rfl) genesisHash).mpr
      (HashChain.linked_build (fun _ _ _ => rfl) genesisHash 1 ws)
  have hcount : (verifyChainPg x pg (insertAllPg x pg ws t)).eventsChecked = ws.length := by
    simp [verifyChainPg, verifyChain, hselect, chainRowsPg]
  have hseal : (∀ row ∈ (chainRowsPg x pg ws).map (·.select pg), Sealed x row) ↔
      ∀ w ∈ ws, ActorSurvives w.recorder.actorUserId ∧ MetadataSurvives w.recorder.metadata := by
    rw [List.forall_mem_map, chainRowsPg]
    refine HashChain.forall_mem_build_iff ?_ genesisHash 1
    intro w hw prev n
    exact sealed_select_iff hinj (hread w hw) (htime w hw) prev n
  rw [verifyChainPg, intact_iff, hselect, hseal]
  exact ⟨fun h => h.1.2, fun h => ⟨⟨hlink, h⟩, hcount⟩⟩

/-! ## A failed login on PostgreSQL -/

def sampleMetadata : Json.Value :=
  .object [("reason", .string "unknown_account"), ("userCode", .string "ZZZZ")]

/-- What the login handler records for an unknown account. -/
def sampleRecorder : AuditRecorder :=
  (AuditRecorder.new "AUTH_LOGIN_FAILED" "failure" "req-2").withMetadata sampleMetadata

def samplePgWrite : PgWrite := ⟨sampleRecorder, none, 1234567891000000000, 11⟩

/-- SHA-256 of the text that is hashed on insert and of the one that is hashed
on verification. -/
def samplePgTable : List (String × String) :=
  [(Separated.join sep
      (genesisHash :: "2009-02-13T23:31:31.000000Z" :: sampleFailure.hashedFields),
      "23d3e0d5f90b99be745cc8a16c3cbb098d4181b1f9eb184100de6a2ce8bffcae"),
    (Separated.join sep
      (genesisHash :: "2009-02-13T23:31:31.000000Z" ::
        NewAuditEvent.hashedFields { sampleFailure with
          metadata := some "\x7b\"reason\": \"unknown_account\", \"userCode\": \"ZZZZ\"\x7d" }),
      "51c035d899c3d714794e7aae6619f7cac50db275dd67f8d18c4e76c84669adc3")]

def samplePgHashing : Externals :=
  { sampleExternals with sha256Hex := Tabulated.extend samplePgTable }

def samplePg : PgExternals where
  jsonbIn text := if text = sampleMetadata.text Json.compact then some sampleMetadata else none
  numeric := id
  toChar := sampleExternals.formatMicros

def emptyPgTables : PgTables := ⟨[], 0, genesisHash⟩

theorem emptyPgTables_initial : emptyPgTables.Initial := ⟨by simp [emptyPgTables], rfl, rfl⟩

theorem samplePgHashing_injective : Function.Injective samplePgHashing.sha256Hex :=
  Tabulated.extend_injective ⟨by decide +kernel, by decide +kernel⟩

theorem samplePgWrite_reads : MetadataReads samplePg samplePgWrite where
  isObject v hv := ⟨_, (Option.some.inj hv).symm⟩
  reads v hv := by
    rw [← Option.some.inj hv]
    simp [samplePg]

theorem pg_intact_iff_sample :
    ((verifyChainPg samplePgHashing samplePg
        (insertAllPg samplePgHashing samplePg [samplePgWrite] emptyPgTables)).intact = true ∧
        (verifyChainPg samplePgHashing samplePg
          (insertAllPg samplePgHashing samplePg [samplePgWrite] emptyPgTables)).eventsChecked =
            [samplePgWrite].length) ↔
      ∀ w ∈ [samplePgWrite],
        ActorSurvives w.recorder.actorUserId ∧ MetadataSurvives w.recorder.metadata :=
  pg_intact_iff samplePgHashing_injective emptyPgTables_initial
    (by intro w hw; rw [List.mem_singleton.mp hw]; exact samplePgWrite_reads)
    (by decide +kernel)

/-- A single failed login, recorded successfully: the verifier reports a break. -/
theorem failed_login_breaks_pg_chain :
    (insertAuditEventPg samplePgHashing samplePg samplePgWrite emptyPgTables).1 = .ok () ∧
      (verifyChainPg samplePgHashing samplePg
        (insertAuditEventPg samplePgHashing samplePg samplePgWrite emptyPgTables).2).intact =
          false := by
  constructor <;> decide +kernel

end AnatoliaBis.Audit
