import AnatoliaBis.App.Types
import AnatoliaBis.Instants
import AnatoliaBis.Lib.Select
import Mathlib.Data.String.Basic

/-! # Scoped lists

`db::list_searches_page` and `db::list_audit_events`: the conditions each backend
puts into its statements, the pages, and the organization scope that the two
routes hand down. A statement that the database fails to execute is an error and
shows nothing, so only statements that succeed are modelled here.
-/

namespace AnatoliaBis.App

open Select

/-! ## Tables -/

/-- A table whose `COUNT(*)` is an `i64`. -/
structure Table (α : Type) where
  rows : List α
  countable : rows.length < 2 ^ 63

/-- A row of `audit_events`: what `SELECT` returns, and the `timestamptz` column
that PostgreSQL prints as `timestamp`. -/
structure StoredAuditEvent extends Audit.AuditEventRow where
  instant : Timestamp

/-- `PageQuery`. -/
structure PageQuery where
  page : Option Int
  pageSize : Option Int
  deriving Repr, DecidableEq

/-! ## Conditions -/

/-- `push_search_org_scope_pg` and the last part of `push_audit_filter_pg`: ids
that do not parse are dropped. -/
def orgScopePg {α : Type} (org : α → Option String) (orgScope : Option (List String)) :
    List (Cond α) :=
  match orgScope with
  | none => []
  | some ids =>
      [(Cond.isNull org).or
        (Cond.within (fun row => (org row).bind Uuid.parseStr) (ids.filterMap Uuid.parseStr))]

/-- `push_search_org_scope_sqlite` and the last part of
`push_audit_filter_sqlite`: no `IN ()` is ever written. -/
def orgScopeSqlite {α : Type} (org : α → Option String) (orgScope : Option (List String)) :
    List (Cond α) :=
  match orgScope with
  | none => []
  | some [] => [Cond.isNull org]
  | some ids => [(Cond.isNull org).or (Cond.within org ids)]

def pushOrgScope {α : Type} (backend : Backend) (org : α → Option String)
    (orgScope : Option (List String)) : List (Cond α) :=
  match backend with
  | .postgres => orgScopePg org orgScope
  | .sqlite => orgScopeSqlite org orgScope

/-- `db::AuditEventFilter`. -/
structure AuditEventFilter where
  dateFrom : Option Instant
  dateTo : Option Instant
  actorUserId : Option String
  action : Option String
  caseReference : Option String
  resourceType : Option String
  result : Option String
  orgScope : Option (List String)
  deriving Repr, DecidableEq

/-- An optional filter, pushed if it is given. -/
def pushed {α β : Type} (filter : Option β) (cond : β → Cond α) : List (Cond α) :=
  (filter.map cond).toList

/-- The filters on plain columns, the same on both backends. -/
def pushAuditColumns (filter : AuditEventFilter) : List (Cond StoredAuditEvent) :=
  pushed filter.action (Cond.equals fun row => some row.action) ++
    pushed filter.caseReference (Cond.equals fun row => row.caseReference) ++
    pushed filter.resourceType (Cond.equals fun row => row.resourceType) ++
    pushed filter.result (Cond.equals fun row => some row.result)

/-- When the event occurred. -/
def StoredAuditEvent.occurred (row : StoredAuditEvent) : Int := (row.instant : Nat)

/-- The column `timestamp` on PostgreSQL. -/
def StoredAuditEvent.timestamptz (row : StoredAuditEvent) : Int :=
  Instant.timestamptz row.occurred

/-- `push_audit_filter_pg`: an actor that does not parse is not filtered for. -/
def pushAuditFilterPg (filter : AuditEventFilter) : List (Cond StoredAuditEvent) :=
  pushed filter.dateFrom
      (fun start => Cond.compare (fun row => some row.timestamptz) (start.timestamptz ≤ ·)) ++
    pushed filter.dateTo
      (fun stop => Cond.compare (fun row => some row.timestamptz) (· ≤ stop.timestamptz)) ++
    pushed (filter.actorUserId.bind Uuid.parseStr)
      (Cond.equals fun row => row.actorUserId.bind Uuid.parseStr) ++
    pushAuditColumns filter ++ pushOrgScope .postgres (·.organizationId) filter.orgScope

/-- `push_audit_filter_sqlite`: the dates are compared as texts, `toRfc3339` being
`DateTime::to_rfc3339`. -/
def pushAuditFilterSqlite (toRfc3339 : Instant → String) (filter : AuditEventFilter) :
    List (Cond StoredAuditEvent) :=
  pushed filter.dateFrom
      (fun start => Cond.compare (fun row => some row.timestamp) (toRfc3339 start ≤ ·)) ++
    pushed filter.dateTo
      (fun stop => Cond.compare (fun row => some row.timestamp) (· ≤ toRfc3339 stop)) ++
    pushed filter.actorUserId (Cond.equals fun row => row.actorUserId) ++
    pushAuditColumns filter ++ pushOrgScope .sqlite (·.organizationId) filter.orgScope

def pushAuditFilter (backend : Backend) (toRfc3339 : Instant → String)
    (filter : AuditEventFilter) : List (Cond StoredAuditEvent) :=
  match backend with
  | .postgres => pushAuditFilterPg filter
  | .sqlite => pushAuditFilterSqlite toRfc3339 filter

/-! ## Pages -/

/-- `SEARCH_PAGE_MAX_SIZE`, and the bound of `list_audit_events`. -/
def clampPageSize (pageSize : Int) : Int := min (max pageSize 1) 200

/-- `(page - 1) * page_size` in `i64`. -/
def pageOffset (page pageSize : Int) : Int := ((page - 1) * pageSize).bmod (2 ^ 64)

/-- One page and the number of all matching rows. A negative `OFFSET` is an error
on PostgreSQL and none on SQLite. -/
def listPage {α : Type} {r : α → α → Prop} (backend : Backend) (order : Arrangement r)
    (table : Table α) (conds : List (Cond α)) (page pageSize : Int) :
    Except DbError (List α × Nat) :=
  let page := max page 1
  let pageSize := clampPageSize pageSize
  let offset := pageOffset page pageSize
  if backend = .postgres ∧ offset < 0 then .error .failed
  else .ok (select conds order pageSize.toNat offset.toNat table.rows, count conds table.rows)

/-- `ORDER BY created_at DESC`. -/
def newerSearch (a b : SearchRow) : Prop := b.createdAt ≤ a.createdAt

/-- `db::list_searches_page`. -/
def listSearchesPage (backend : Backend) (order : Arrangement newerSearch)
    (table : Table SearchRow) (page pageSize : Int) (orgScope : Option (List String)) :
    Except DbError (List SearchRow × Nat) :=
  listPage backend order table (pushOrgScope backend (·.organizationId) orgScope) page pageSize

/-- `ORDER BY timestamp DESC`: instants on PostgreSQL, texts on SQLite. -/
def newerEvent (backend : Backend) (a b : StoredAuditEvent) : Prop :=
  match backend with
  | .postgres => b.instant ≤ a.instant
  | .sqlite => b.timestamp ≤ a.timestamp

/-- `db::list_audit_events`. -/
def listAuditEvents (backend : Backend) (toRfc3339 : Instant → String)
    (order : Arrangement (newerEvent backend)) (table : Table StoredAuditEvent)
    (filter : AuditEventFilter) (page pageSize : Int) :
    Except DbError (List StoredAuditEvent × Nat) :=
  listPage backend order table (pushAuditFilter backend toRfc3339 filter) page pageSize

/-! ## Routes -/

/-- `org_scope` in both routes: everything for `SYSTEM_ADMIN`, else `.ok()` of
`user_organization_ids`. -/
def orgScope (role : String) (lookup : Except DbError (List String)) : Option (List String) :=
  if role = Role.systemAdmin then none else lookup.toOption

/-- `DEFAULT_PAGE_SIZE`. -/
def defaultPageSize : Int := 50

/-- `search::list_searches_route`, from the outcome of the membership look-up on. -/
def listSearchesRoute (backend : Backend) (order : Arrangement newerSearch)
    (table : Table SearchRow) (role : String) (lookup : Except DbError (List String))
    (query : PageQuery) : Except DbError (List SearchRow × Nat) :=
  listSearchesPage backend order table (max (query.page.getD 1) 1)
    (query.pageSize.getD defaultPageSize) (orgScope role lookup)

/-- `audit::list_audit_events_route`, from the outcome of the membership look-up
on; `filter` holds what the query names. -/
def listAuditEventsRoute (backend : Backend) (toRfc3339 : Instant → String)
    (order : Arrangement (newerEvent backend)) (table : Table StoredAuditEvent) (role : String)
    (lookup : Except DbError (List String)) (filter : AuditEventFilter) (query : PageQuery) :
    Except DbError (List StoredAuditEvent × Nat) :=
  listAuditEvents backend toRfc3339 order table { filter with orgScope := orgScope role lookup }
    (max (query.page.getD 1) 1) (clampPageSize (query.pageSize.getD defaultPageSize))

/-! ## What the scope lets through -/

/-- The text of an id as the server stores it. -/
def IsCanonical (text : String) : Prop := ∃ u : Uuid, u < 16 ^ 32 ∧ text = u.text

theorem parseStr_eq_iff {s t : String} (hs : IsCanonical s) (ht : IsCanonical t) :
    Uuid.parseStr s = Uuid.parseStr t ↔ s = t := by
  rcases hs with ⟨u, hu, rfl⟩
  rcases ht with ⟨v, hv, rfl⟩
  rw [Uuid.parseStr_text hu, Uuid.parseStr_text hv, Option.some.injEq,
    Uuid.text_injective.eq_iff]

/-- Among canonical texts nothing is dropped and nothing confused. -/
theorem mem_filterMap_parseStr {ids : List String} (hids : ∀ id ∈ ids, IsCanonical id)
    {s : String} (hs : IsCanonical s) :
    (∃ u, Uuid.parseStr s = some u ∧ u ∈ ids.filterMap Uuid.parseStr) ↔ s ∈ ids := by
  constructor
  · intro h
    rcases h with ⟨u, hu, hmem⟩
    rcases List.mem_filterMap.mp hmem with ⟨id, hid, hparse⟩
    have heq : s = id := (parseStr_eq_iff hs (hids id hid)).mp (hu.trans hparse.symm)
    rw [heq]
    exact hid
  · intro hmem
    have hs' := hs
    rcases hs' with ⟨u, hu, rfl⟩
    have hparse := Uuid.parseStr_text hu
    exact ⟨u, hparse, List.mem_filterMap.mpr ⟨_, hmem, hparse⟩⟩

section Scope

variable {α : Type} {org : α → Option String} {row : α} {ids : List String}

theorem meets_orgScopePg (hids : ∀ id ∈ ids, IsCanonical id)
    (hrow : ∀ o ∈ org row, IsCanonical o) :
    meets (orgScopePg org (some ids)) row = (org row).all ids.contains := by
  unfold orgScopePg Cond.within
  rw [meets_singleton, Cond.holds_or, Cond.holds_isNull, Cond.holds_compare]
  cases horg : org row with
  | none => rfl
  | some o =>
      have hmem := mem_filterMap_parseStr hids (hrow o horg)
      rw [Bool.eq_iff_iff]
      simpa [Option.any_eq_true] using hmem

theorem meets_orgScopeSqlite :
    meets (orgScopeSqlite org (some ids)) row = (org row).all ids.contains := by
  cases ids with
  | nil =>
      unfold orgScopeSqlite
      rw [meets_singleton, Cond.holds_isNull]
      cases org row with
      | none => rfl
      | some o => rfl
  | cons id ids =>
      unfold orgScopeSqlite Cond.within
      rw [meets_singleton, Cond.holds_or, Cond.holds_isNull, Cond.holds_compare]
      cases org row with
      | none => rfl
      | some o =>
          rw [Bool.eq_iff_iff]
          simp

/-- **The pushed scope is the predicate on one object.** -/
theorem meets_pushOrgScope (backend : Backend) (org : α → Option String) (role : String)
    (hids : ∀ id ∈ ids, IsCanonical id) (hrow : ∀ o ∈ org row, IsCanonical o) :
    meets (pushOrgScope backend org (orgScope role (.ok ids))) row =
      canViewScopedResource role ids (org row) := by
  unfold orgScope canViewScopedResource
  by_cases hrole : role = Role.systemAdmin
  · -- nothing is pushed
    rw [if_pos hrole, beq_iff_eq.mpr hrole, Bool.true_or]
    cases backend with
    | postgres => rfl
    | sqlite => rfl
  · rw [if_neg hrole, beq_eq_false_iff_ne.mpr hrole, Bool.false_or]
    cases backend with
    | postgres => exact meets_orgScopePg hids hrow
    | sqlite => exact meets_orgScopeSqlite

end Scope

/-! ## What the other filters let through -/

/-- The row meets every filter but the scope. The bounds of the period are compared
in microseconds on PostgreSQL and as texts on SQLite. -/
def AuditEventFilter.matches (backend : Backend) (toRfc3339 : Instant → String)
    (filter : AuditEventFilter) (row : StoredAuditEvent) : Bool :=
  (match backend with
    | .postgres =>
        filter.dateFrom.all (fun start => decide (start.timestamptz ≤ row.timestamptz)) &&
        filter.dateTo.all fun stop => decide (row.timestamptz ≤ stop.timestamptz)
    | .sqlite => filter.dateFrom.all (fun start => decide (toRfc3339 start ≤ row.timestamp)) &&
        filter.dateTo.all fun stop => decide (row.timestamp ≤ toRfc3339 stop)) &&
    filter.actorUserId.all (fun actor => row.actorUserId == some actor) &&
    filter.action.all (fun action => row.action == action) &&
    filter.caseReference.all (fun reference => row.caseReference == some reference) &&
    filter.resourceType.all (fun resource => row.resourceType == some resource) &&
    filter.result.all fun result => row.result == result

theorem meets_pushed {α β : Type} (filter : Option β) (cond : β → Cond α) (row : α) :
    meets (pushed filter cond) row = filter.all fun v => (cond v).holds row := by
  unfold pushed
  cases filter with
  | none => rfl
  | some v => exact meets_singleton (cond v) row

theorem holds_equals {α : Type} (col : α → Option String) (v : String) (row : α) :
    (Cond.equals col v).holds row = (col row == some v) := by
  unfold Cond.equals
  rw [Cond.holds_compare]
  cases col row with
  | none => rfl
  | some w =>
      rw [Bool.eq_iff_iff]
      simp

/-- An actor named by its canonical text is looked for as such. -/
theorem meets_actorPg {actor : Option String} {row : StoredAuditEvent}
    (hactor : ∀ a ∈ actor, IsCanonical a) (hrow : ∀ a ∈ row.actorUserId, IsCanonical a) :
    meets (pushed (actor.bind Uuid.parseStr)
        (Cond.equals fun row : StoredAuditEvent => row.actorUserId.bind Uuid.parseStr)) row =
      actor.all fun a => row.actorUserId == some a := by
  rw [meets_pushed]
  cases actor with
  | none => rfl
  | some a =>
      have ha := hactor a rfl
      have ha' := ha
      rcases ha' with ⟨u, hu, rfl⟩
      rw [Option.bind_some, Uuid.parseStr_text hu, Option.all_some, Option.all_some]
      unfold Cond.equals
      rw [Cond.holds_compare]
      cases hcol : row.actorUserId with
      | none => rfl
      | some b =>
          have hb := parseStr_eq_iff (hrow b hcol) ha
          rw [Uuid.parseStr_text hu] at hb
          rw [Bool.eq_iff_iff]
          simpa [Option.any_eq_true] using hb

/-- **What the pushed conditions decide**: the other filters, and the predicate on
one object. -/
theorem meets_pushAuditFilter (backend : Backend) (toRfc3339 : Instant → String) (role : String)
    {ids : List String} {filter : AuditEventFilter} {row : StoredAuditEvent}
    (hids : ∀ id ∈ ids, IsCanonical id) (hactor : ∀ a ∈ filter.actorUserId, IsCanonical a)
    (hrow : ∀ o ∈ row.organizationId, IsCanonical o)
    (hrowActor : ∀ a ∈ row.actorUserId, IsCanonical a) :
    meets (pushAuditFilter backend toRfc3339
        { filter with orgScope := orgScope role (.ok ids) }) row =
      (filter.matches backend toRfc3339 row &&
        canViewScopedResource role ids row.organizationId) := by
  have hscope := meets_pushOrgScope backend
    (fun row : StoredAuditEvent => row.organizationId) role hids hrow
  cases backend with
  | postgres =>
      show meets (pushAuditFilterPg _) row = _
      unfold pushAuditFilterPg pushAuditColumns AuditEventFilter.matches
      simp only [meets_append, hscope, meets_actorPg hactor hrowActor, meets_pushed,
        Cond.holds_compare, holds_equals, Option.any_some, Bool.and_assoc]
      rfl
  | sqlite =>
      show meets (pushAuditFilterSqlite _ _) row = _
      unfold pushAuditFilterSqlite pushAuditColumns AuditEventFilter.matches
      simp only [meets_append, hscope, meets_pushed, Cond.holds_compare, holds_equals,
        Option.any_some, Bool.and_assoc]
      rfl

/-! ## All pages of a list -/

/-- The number of pages that are not empty. -/
def pageCount (total size : Nat) : Nat := (total + size - 1) / size

/-- The answers to the requests for the pages of a list show exactly the wanted
rows, and report their number. -/
structure Lists {α : Type} (size : Nat) (answer : Int → Except DbError (List α × Nat))
    (wanted : List α) : Prop where
  /-- Whatever page is asked for. -/
  sound : ∀ page rows total, answer page = .ok (rows, total) →
    total = wanted.length ∧ ∀ row ∈ rows, row ∈ wanted
  /-- The pages from the first to the last together. -/
  complete : ∃ rows : Nat → List α,
    (∀ i < max 1 (pageCount wanted.length size),
      answer ((i : Int) + 1) = .ok (rows i, wanted.length)) ∧
    ((List.range (max 1 (pageCount wanted.length size))).flatMap rows).Perm wanted

theorem clampPageSize_bounds (pageSize : Int) :
    1 ≤ (clampPageSize pageSize).toNat ∧ (clampPageSize pageSize).toNat ≤ 200 ∧
      ((clampPageSize pageSize).toNat : Int) = clampPageSize pageSize := by
  unfold clampPageSize
  omega

/-- The offsets of these pages do not overflow. -/
theorem pageOffset_of_lt {i size : Nat} (h : i * size < 2 ^ 63) :
    pageOffset ((i : Int) + 1) size = ((i * size : Nat) : Int) := by
  unfold pageOffset
  rw [Int.add_sub_cancel, ← Int.natCast_mul]
  apply Int.bmod_eq_of_le <;> omega

theorem mul_lt_of_lt_pageCount {total size i : Nat} (hsize : 1 ≤ size) (htotal : total < 2 ^ 63)
    (hi : i < max 1 (pageCount total size)) : i * size < 2 ^ 63 := by
  by_cases hzero : i = 0
  · rw [hzero, Nat.zero_mul]
    decide
  · have hlt : i < pageCount total size := by omega
    have hle : (i + 1) * size ≤ total + size - 1 := by
      unfold pageCount at hlt
      calc (i + 1) * size ≤ (total + size - 1) / size * size := Nat.mul_le_mul_right size hlt
        _ ≤ total + size - 1 := Nat.div_mul_le_self _ _
    rw [Nat.add_mul, Nat.one_mul] at hle
    omega

theorem le_pageCount_mul {total size : Nat} (hsize : 1 ≤ size) :
    total ≤ pageCount total size * size := by
  have hlt : total + size - 1 < (pageCount total size + 1) * size := by
    unfold pageCount
    exact Nat.lt_mul_of_div_lt (Nat.lt_succ_self _) hsize
  rw [Nat.add_mul, Nat.one_mul] at hlt
  omega

/-- The pages of a list are the rows that meet its conditions. -/
theorem listPage_lists {α : Type} {r : α → α → Prop} (backend : Backend)
    (order : Int → Arrangement r) (table : Table α) (conds : List (Cond α)) (pageSize : Int)
    (hrows : Orders r table.rows) :
    Lists (clampPageSize pageSize).toNat
      (fun page => listPage backend (order page) table conds page pageSize)
      (table.rows.filter (meets conds)) := by
  rcases clampPageSize_bounds pageSize with ⟨hsize, -, hcast⟩
  constructor
  · intro page rows total h
    unfold listPage at h
    dsimp only at h
    split_ifs at h
    rcases Prod.mk.inj (Except.ok.inj h) with ⟨rfl, rfl⟩
    refine ⟨rfl, fun row hrow => ?_⟩
    exact List.mem_filter.mpr (of_mem_select hrow)
  · have htotal : (table.rows.filter (meets conds)).length < 2 ^ 63 :=
      (List.length_filter_le _ _).trans_lt table.countable
    generalize hsize' : (clampPageSize pageSize).toNat = size at hsize hcast ⊢
    refine ⟨fun i => select conds (order ((i : Int) + 1)) size (i * size) table.rows, ?_, ?_⟩
    · intro i hi
      have hlt := mul_lt_of_lt_pageCount hsize htotal hi
      have hpage : max ((i : Int) + 1) 1 = (i : Int) + 1 := by omega
      have hnonneg : ¬ (((i * size : Nat) : Int) < 0) := by omega
      show listPage backend (order ((i : Int) + 1)) table conds ((i : Int) + 1) pageSize = _
      unfold listPage
      dsimp only
      rw [hpage, hsize', ← hcast, pageOffset_of_lt hlt, if_neg (fun h => hnonneg h.2),
        Int.toNat_natCast]
      rfl
    · apply flatMap_select hrows fun i => order ((i : Int) + 1)
      exact (le_pageCount_mul hsize).trans (Nat.mul_le_mul_right size (le_max_right 1 _))

/-- **Scoped lists show what the predicate on one object allows.** For a membership
list that was found, the pages of the search list and of the audit list are, on
either backend, the rows that meet the other filters and that
`can_view_scoped_resource` allows, and the totals are their number. -/
theorem list_scoping (backend : Backend) (role : String) (ids : List String)
    (hids : ∀ id ∈ ids, IsCanonical id) :
    (∀ (order : Int → Arrangement newerSearch) (table : Table SearchRow) (pageSize : Int),
      (∀ row ∈ table.rows, ∀ o ∈ row.organizationId, IsCanonical o) →
      Orders newerSearch table.rows →
      Lists (clampPageSize pageSize).toNat
        (fun page => listSearchesPage backend (order page) table page pageSize
          (orgScope role (.ok ids)))
        (table.rows.filter fun row => canViewScopedResource role ids row.organizationId)) ∧
    (∀ (toRfc3339 : Instant → String) (order : Int → Arrangement (newerEvent backend))
      (table : Table StoredAuditEvent) (filter : AuditEventFilter) (pageSize : Int),
      (∀ row ∈ table.rows, ∀ o ∈ row.organizationId, IsCanonical o) →
      (∀ row ∈ table.rows, ∀ a ∈ row.actorUserId, IsCanonical a) →
      (∀ a ∈ filter.actorUserId, IsCanonical a) →
      Orders (newerEvent backend) table.rows →
      Lists (clampPageSize pageSize).toNat
        (fun page => listAuditEvents backend toRfc3339 (order page) table
          { filter with orgScope := orgScope role (.ok ids) } page pageSize)
        (table.rows.filter fun row => filter.matches backend toRfc3339 row &&
          canViewScopedResource role ids row.organizationId)) := by
  constructor
  · intro order table pageSize hrows horder
    have hfilter : (table.rows.filter fun row =>
        canViewScopedResource role ids row.organizationId) =
        table.rows.filter (meets (pushOrgScope backend
          (fun row : SearchRow => row.organizationId) (orgScope role (.ok ids)))) := by
      apply List.filter_congr
      intro row hrow
      exact (meets_pushOrgScope backend (fun row : SearchRow => row.organizationId) role hids
        (hrows row hrow)).symm
    rw [hfilter]
    exact listPage_lists backend order table _ pageSize horder
  · intro toRfc3339 order table filter pageSize hrows hactors hactor horder
    have hfilter : (table.rows.filter fun row => filter.matches backend toRfc3339 row &&
        canViewScopedResource role ids row.organizationId) =
        table.rows.filter (meets (pushAuditFilter backend toRfc3339
          { filter with orgScope := orgScope role (.ok ids) })) := by
      apply List.filter_congr
      intro row hrow
      exact (meets_pushAuditFilter backend toRfc3339 role hids hactor (hrows row hrow)
        (hactors row hrow)).symm
    rw [hfilter]
    exact listPage_lists backend order table _ pageSize horder

/-- The search list with equal times in the order of the table. -/
def newestSearches : Arrangement newerSearch :=
  Arrangement.descending fun row : SearchRow => row.createdAt

/-- The audit list on SQLite, the same way. -/
def newestEvents : Arrangement (newerEvent .sqlite) :=
  Arrangement.descending fun row : StoredAuditEvent => row.timestamp

/-- Two searches, of two organizations. -/
def sampleSearches : Table SearchRow where
  rows :=
    [⟨⟨"V-1", "ID", 1, "Ada Demir", none, none, 5, some (Uuid.text 1)⟩, 7, .queued, 10⟩,
      ⟨⟨"V-2", "ID", 1, "Ada Demir", none, none, 5, some (Uuid.text 2)⟩, 8, .queued, 20⟩]
  countable := by decide

/-- The audit event of the first one. -/
def sampleAuditTable : Table StoredAuditEvent where
  rows :=
    [⟨⟨Uuid.text 9, "2005-03-18T01:58:29.000000Z", some (Uuid.text 1), some "OP-1",
      some Role.operator, "SEARCH_CREATED", "r-1", some "V-1", some "search", some (Uuid.text 7),
      "success", some "api", none, none, none, some (Uuid.text 1), none, some 1, none, none⟩,
      Timestamp.seconds 1111111109⟩]
  countable := by decide

/-- The text of the one instant the example asks about. -/
def sampleRfc3339 (t : Instant) : String :=
  if t = 1111111109000000000 then "2005-03-18T01:58:29+00:00" else ""

def sampleAuditFilter : AuditEventFilter where
  dateFrom := some 1111111109000000000
  dateTo := none
  actorUserId := some (Uuid.text 1)
  action := none
  caseReference := none
  resourceType := some "search"
  result := none
  orgScope := none

theorem list_scoping_sample :
    Lists 50 (fun page => listSearchesPage .sqlite newestSearches sampleSearches page 50
        (orgScope Role.operator (.ok [Uuid.text 1])))
      (sampleSearches.rows.filter fun row =>
        canViewScopedResource Role.operator [Uuid.text 1] row.organizationId) ∧
    Lists 50 (fun page => listAuditEvents .sqlite sampleRfc3339 newestEvents sampleAuditTable
        { sampleAuditFilter with orgScope := orgScope Role.operator (.ok [Uuid.text 1]) } page 50)
      (sampleAuditTable.rows.filter fun row =>
        sampleAuditFilter.matches .sqlite sampleRfc3339 row &&
          canViewScopedResource Role.operator [Uuid.text 1] row.organizationId) := by
  have hcanonical : ∀ u < 10, IsCanonical (Uuid.text u) := by
    intro u hu
    exact ⟨u, Nat.lt_trans hu (by decide), rfl⟩
  have hids : ∀ id ∈ [Uuid.text 1], IsCanonical id := by
    intro id hid
    rw [List.mem_singleton.mp hid]
    exact hcanonical 1 (by decide)
  rcases list_scoping .sqlite Role.operator [Uuid.text 1] hids with ⟨hsearches, haudit⟩
  constructor
  · apply hsearches (fun _ => newestSearches) sampleSearches 50
    · intro row hrow o ho
      rcases List.mem_pair.mp hrow with rfl | rfl
      · rw [← Option.some.inj ho]
        exact hcanonical 1 (by decide)
      · rw [← Option.some.inj ho]
        exact hcanonical 2 (by decide)
    · exact orders_of_nodup (by decide)
  · apply haudit sampleRfc3339 (fun _ => newestEvents) sampleAuditTable sampleAuditFilter 50
    · intro row hrow o ho
      rw [List.mem_singleton.mp hrow] at ho
      rw [← Option.some.inj ho]
      exact hcanonical 1 (by decide)
    · intro row hrow a ha
      rw [List.mem_singleton.mp hrow] at ha
      rw [← Option.some.inj ha]
      exact hcanonical 1 (by decide)
    · intro a ha
      rw [← Option.some.inj ha]
      exact hcanonical 1 (by decide)
    · exact orders_of_nodup (List.nodup_singleton _)

end AnatoliaBis.App
