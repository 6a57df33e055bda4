import AnatoliaBis.App.Listing

/-! # The two audit filters

`push_audit_filter_pg` compares the types of its columns, `push_audit_filter_sqlite` texts.
What a filter means is the same for both: `AuditEventFilter.Satisfied`. On which events they
come to different results, or to a wrong one, is `Misjudged`.
-/

namespace AnatoliaBis.App

open Select Instant TimeText

/-! ## Selecting -/

/-- The bounds of the period. -/
def AuditEventFilter.bounds (filter : AuditEventFilter) : List Instant :=
  filter.dateFrom.toList ++ filter.dateTo.toList

/-- The statement on either backend, without order and pages. PostgreSQL refuses a time that
is none of its own. -/
def selectAuditEvents (backend : Backend) (filter : AuditEventFilter)
    (rows : List StoredAuditEvent) : Except DbError (List StoredAuditEvent) :=
  if backend = .postgres ∧ ¬ ∀ t ∈ filter.bounds, IsTimestamptz t then .error .failed
  else .ok (rows.filter (meets (pushAuditFilter backend toRfc3339 filter)))

/-- An event as both backends hold it: the time in the form that the writer uses, to the
microsecond and in a year of four digits, the ids as PostgreSQL prints them. -/
structure StoredAuditEvent.Canonical (row : StoredAuditEvent) : Prop where
  timestamp : row.timestamp = canonicalText row.instant
  micros : row.occurred % 1000 = 0
  year : (date row.instant).year ≤ maxYear
  actor : ∀ a ∈ row.actorUserId, IsCanonical a
  organization : ∀ o ∈ row.organizationId, IsCanonical o

/-! ## What a filter says -/

/-- The text spells the id of a column. -/
def Spells (text : String) (column : Option String) : Prop :=
  ∃ u, Uuid.parseStr text = some u ∧ column = some u.text

/-- Every filter that is given holds of the event, the bounds as instants. -/
structure AuditEventFilter.Satisfied (filter : AuditEventFilter) (row : StoredAuditEvent) :
    Prop where
  notBefore : ∀ start ∈ filter.dateFrom, start ≤ row.occurred
  notAfter : ∀ stop ∈ filter.dateTo, row.occurred ≤ stop
  actor : ∀ a ∈ filter.actorUserId, Spells a row.actorUserId
  action : ∀ action ∈ filter.action, row.action = action
  caseReference : ∀ reference ∈ filter.caseReference, row.caseReference = some reference
  resourceType : ∀ resource ∈ filter.resourceType, row.resourceType = some resource
  result : ∀ result ∈ filter.result, row.result = result
  scope : ∀ ids ∈ filter.orgScope, ∀ o ∈ row.organizationId, ∃ id ∈ ids, Spells id (some o)

/-- The backends select the same events, and only events that the filter means. -/
structure FiltersAgree (filter : AuditEventFilter) (rows : List StoredAuditEvent) : Prop where
  same : selectAuditEvents .postgres filter rows = selectAuditEvents .sqlite filter rows
  sound : ∀ backend selected, selectAuditEvents backend filter rows = .ok selected →
    ∀ row ∈ selected, filter.Satisfied row

/-! ## What goes wrong -/

/-- SQLite drops the event although the filter means it: the upper bound lies in the
microsecond of the event or in a year of more than four digits, or an id is not spelled as it
is stored. -/
def AuditEventFilter.Drops (filter : AuditEventFilter) (row : StoredAuditEvent) : Prop :=
  (∃ stop ∈ filter.dateTo, stop / 1000 = row.occurred / 1000 ∨
      maxYear < stop.year) ∨
    (∃ a ∈ filter.actorUserId, row.actorUserId ≠ some a) ∨
      ∃ ids ∈ filter.orgScope, ∃ o ∈ row.organizationId, o ∉ ids

/-- What PostgreSQL takes a filter for: bounds in microseconds, and no actor if it does not
parse. -/
def AuditEventFilter.typed (filter : AuditEventFilter) : AuditEventFilter :=
  { filter with
    dateFrom := filter.dateFrom.map toMicros
    dateTo := filter.dateTo.map toMicros
    actorUserId := filter.actorUserId.filter fun a => (Uuid.parseStr a).isSome }

/-- PostgreSQL does not notice that the filter rules the event out: a bound was cut to a
microsecond, or the actor is not filtered for. -/
def AuditEventFilter.Widens (filter : AuditEventFilter) (row : StoredAuditEvent) : Prop :=
  (∃ start ∈ filter.dateFrom, row.occurred < start) ∨
    (∃ stop ∈ filter.dateTo, stop < row.occurred) ∨
      ∃ a ∈ filter.actorUserId, Uuid.parseStr a = none

/-- The events on which one of the backends is wrong. -/
inductive AuditEventFilter.Misjudged (filter : AuditEventFilter) (row : StoredAuditEvent) :
    Prop where
  /-- Not shown on SQLite. -/
  | dropped (satisfied : filter.Satisfied row) (drops : filter.Drops row)
  /-- Shown on SQLite before its time: the lower bound is later in the same microsecond, or in
  a year of more than four digits. -/
  | early (rest : { filter with dateFrom := none }.Satisfied row) (kept : ¬ filter.Drops row)
      (start : Instant) (bound : start ∈ filter.dateFrom)
      (later : row.occurred < start)
      (near : start / 1000 = row.occurred / 1000 ∨ maxYear < start.year)
  /-- Shown on PostgreSQL. -/
  | widened (typed : filter.typed.Satisfied row) (widens : filter.Widens row)

/-! ## The parts of a filter -/

section Parts

variable {filter : AuditEventFilter} {row : StoredAuditEvent}

/-- Plain columns are compared alike. -/
theorem meets_pushAuditColumns :
    meets (pushAuditColumns filter) row = true ↔
      (∀ action ∈ filter.action, row.action = action) ∧
        (∀ reference ∈ filter.caseReference, row.caseReference = some reference) ∧
        (∀ resource ∈ filter.resourceType, row.resourceType = some resource) ∧
        ∀ result ∈ filter.result, row.result = result := by
  unfold pushAuditColumns
  simp only [meets_append, meets_pushed, holds_equals, Bool.and_eq_true, Option.all_eq_true,
    beq_iff_eq, Option.some.injEq, and_assoc, Option.mem_def]

/-- The id of a canonical column. -/
theorem parses_iff_spells {column : Option String} {u : Uuid}
    (hcolumn : ∀ a ∈ column, IsCanonical a) :
    column.bind Uuid.parseStr = some u ↔ column = some u.text := by
  cases column with
  | none => simp
  | some b =>
      rcases hcolumn b rfl with ⟨v, hv, rfl⟩
      rw [Option.bind_some, Uuid.parseStr_text hv, Option.some.injEq, Option.some.injEq,
        Uuid.text_injective.eq_iff]

theorem spells_of_canonical {a : String} (h : IsCanonical a) : Spells a (some a) := by
  rcases h with ⟨u, hu, rfl⟩
  exact ⟨u, Uuid.parseStr_text hu, rfl⟩

/-- On PostgreSQL the scope is compared by value. -/
theorem meets_orgScopePg_iff {org : StoredAuditEvent → Option String}
    {orgScope : Option (List String)} (hrow : ∀ o ∈ org row, IsCanonical o) :
    meets (orgScopePg org orgScope) row = true ↔
      ∀ ids ∈ orgScope, ∀ o ∈ org row, ∃ id ∈ ids, Spells id (some o) := by
  cases orgScope with
  | none => simp [orgScopePg]
  | some ids =>
      unfold orgScopePg Cond.within
      rw [meets_singleton, Cond.holds_or, Cond.holds_isNull, Cond.holds_compare]
      cases horg : org row with
      | none => simp
      | some o =>
          rcases hrow o horg with ⟨u, hu, rfl⟩
          simp only [Option.isNone_some, Bool.false_or, Option.bind_some, Uuid.parseStr_text hu,
            Option.any_some, decide_eq_true_eq, List.mem_filterMap, Option.mem_def,
            Option.some.injEq, forall_eq']
          unfold Spells
          constructor
          · rintro ⟨id, hid, hparse⟩
            exact ⟨id, hid, u, hparse, rfl⟩
          · rintro ⟨id, hid, v, hparse, htext⟩
            rw [Uuid.text_injective (Option.some.inj htext)]
            exact ⟨id, hid, hparse⟩

/-- On SQLite it is compared as text. -/
theorem meets_orgScopeSqlite_iff {org : StoredAuditEvent → Option String}
    {orgScope : Option (List String)} :
    meets (orgScopeSqlite org orgScope) row = true ↔
      ∀ ids ∈ orgScope, ∀ o ∈ org row, o ∈ ids := by
  cases orgScope with
  | none => simp [orgScopeSqlite]
  | some ids =>
      rw [meets_orgScopeSqlite]
      cases org row with
      | none => simp
      | some o => simp

end Parts

/-! ## What each backend selects -/

section Backends

variable {filter : AuditEventFilter} {row : StoredAuditEvent}

/-- **PostgreSQL** takes the filter with its bounds in microseconds. -/
theorem meets_pushAuditFilterPg_iff (hrow : row.Canonical) :
    meets (pushAuditFilterPg filter) row = true ↔ filter.typed.Satisfied row := by
  have hsince : meets (pushed filter.dateFrom fun start =>
      Cond.compare (fun row : StoredAuditEvent => some row.timestamptz)
        (start.timestamptz ≤ ·)) row = true ↔
      ∀ start ∈ filter.typed.dateFrom, start ≤ row.occurred := by
    rw [meets_pushed, Option.all_eq_true]
    unfold AuditEventFilter.typed StoredAuditEvent.timestamptz
    simp [timestamptz_le_iff hrow.micros]
  have hstop : meets (pushed filter.dateTo fun stop =>
      Cond.compare (fun row : StoredAuditEvent => some row.timestamptz)
        (· ≤ stop.timestamptz)) row = true ↔
      ∀ stop ∈ filter.typed.dateTo, row.occurred ≤ stop := by
    rw [meets_pushed, Option.all_eq_true]
    unfold AuditEventFilter.typed StoredAuditEvent.timestamptz
    simp [le_timestamptz_iff hrow.micros]
  have hactor : meets (pushed (filter.actorUserId.bind Uuid.parseStr)
      (Cond.equals fun row : StoredAuditEvent => row.actorUserId.bind Uuid.parseStr)) row = true ↔
      ∀ a ∈ filter.typed.actorUserId, Spells a row.actorUserId := by
    rw [meets_pushed, Option.all_eq_true]
    unfold AuditEventFilter.typed Cond.equals Spells
    cases filter.actorUserId with
    | none => simp
    | some a =>
        cases hparse : Uuid.parseStr a with
        | none => simp [hparse]
        | some u =>
            have hcolumn := parses_iff_spells (u := u) hrow.actor
            simp [hparse, ← hcolumn, Option.any_eq_true]
  have hscope : meets (pushOrgScope .postgres (fun row : StoredAuditEvent => row.organizationId)
      filter.orgScope) row = true ↔
      ∀ ids ∈ filter.orgScope, ∀ o ∈ row.organizationId, ∃ id ∈ ids, Spells id (some o) :=
    meets_orgScopePg_iff hrow.organization
  unfold pushAuditFilterPg
  simp only [meets_append, Bool.and_eq_true]
  rw [hsince, hstop, hactor, meets_pushAuditColumns, hscope]
  constructor
  · rintro ⟨⟨⟨⟨h1, h2⟩, h3⟩, h4, h5, h6, h7⟩, h8⟩
    exact ⟨h1, h2, h3, h4, h5, h6, h7, h8⟩
  · rintro ⟨h1, h2, h3, h4, h5, h6, h7, h8⟩
    exact ⟨⟨⟨⟨h1, h2⟩, h3⟩, h4, h5, h6, h7⟩, h8⟩

theorem meets_dateFromSqlite (hrow : row.Canonical) :
    meets (pushed filter.dateFrom fun start =>
      Cond.compare (fun row : StoredAuditEvent => some row.timestamp)
        (toRfc3339 start ≤ ·)) row = true ↔
      ∀ start ∈ filter.dateFrom, start / 1000 ≤ row.occurred / 1000 ∨ maxYear < start.year := by
  rw [meets_pushed, Option.all_eq_true]
  refine forall₂_congr fun start _ => ?_
  rw [Cond.holds_compare, Option.any_some, decide_eq_true_eq, hrow.timestamp]
  exact toRfc3339_le_iff hrow.year start

theorem meets_dateToSqlite (hrow : row.Canonical) :
    meets (pushed filter.dateTo fun stop =>
      Cond.compare (fun row : StoredAuditEvent => some row.timestamp)
        (· ≤ toRfc3339 stop)) row = true ↔
      ∀ stop ∈ filter.dateTo, row.occurred / 1000 < stop / 1000 ∧ stop.year ≤ maxYear := by
  rw [meets_pushed, Option.all_eq_true]
  refine forall₂_congr fun stop _ => ?_
  rw [Cond.holds_compare, Option.any_some, decide_eq_true_eq, hrow.timestamp]
  exact le_toRfc3339_iff hrow.year stop

/-- **SQLite** drops events that it should show, and shows some too early. -/
theorem meets_pushAuditFilterSqlite_iff (hrow : row.Canonical) :
    meets (pushAuditFilterSqlite toRfc3339 filter) row = true ↔
      (∀ start ∈ filter.dateFrom, start / 1000 ≤ row.occurred / 1000 ∨ maxYear < start.year) ∧
        { filter with dateFrom := none }.Satisfied row ∧ ¬ filter.Drops row := by
  have hactor : meets (pushed filter.actorUserId
      (Cond.equals fun row : StoredAuditEvent => row.actorUserId)) row = true ↔
      ∀ a ∈ filter.actorUserId, row.actorUserId = some a := by
    rw [meets_pushed, Option.all_eq_true]
    simp [holds_equals]
  have hscope : meets (pushOrgScope .sqlite (fun row : StoredAuditEvent => row.organizationId)
      filter.orgScope) row = true ↔
      ∀ ids ∈ filter.orgScope, ∀ o ∈ row.organizationId, o ∈ ids :=
    meets_orgScopeSqlite_iff
  unfold pushAuditFilterSqlite
  simp only [meets_append, Bool.and_eq_true]
  rw [meets_dateFromSqlite hrow, meets_dateToSqlite hrow, hactor, meets_pushAuditColumns, hscope]
  constructor
  · rintro ⟨⟨⟨⟨h1, h2⟩, h3⟩, h4, h5, h6, h7⟩, h8⟩
    refine ⟨h1, ⟨by simp, ?_, ?_, h4, h5, h6, h7, ?_⟩, ?_⟩
    · intro stop hmem
      exact le_of_micros_lt (h2 stop hmem).1
    · intro a ha
      have hcolumn := h3 a ha
      rw [hcolumn]
      exact spells_of_canonical (hrow.actor a hcolumn)
    · intro ids hids o ho
      exact ⟨o, h8 ids hids o ho, spells_of_canonical (hrow.organization o ho)⟩
    · rintro (⟨stop, hmem, hnear⟩ | ⟨a, ha, hne⟩ | ⟨ids, hids, o, ho, hnot⟩)
      · rcases hnear with hsame | hlate
        · exact absurd hsame (h2 stop hmem).1.ne'
        · exact absurd (h2 stop hmem).2 hlate.not_ge
      · exact hne (h3 a ha)
      · exact hnot (h8 ids hids o ho)
  · rintro ⟨h1, hrest, hkept⟩
    refine ⟨⟨⟨⟨h1, ?_⟩, ?_⟩, hrest.action, hrest.caseReference, hrest.resourceType,
      hrest.result⟩, ?_⟩
    · intro stop hmem
      have hnear : ¬ (stop / 1000 = row.occurred / 1000 ∨ maxYear < stop.year) :=
        fun hnear => hkept (Or.inl ⟨stop, hmem, hnear⟩)
      rw [not_or, not_lt] at hnear
      exact ⟨micros_lt_of_le (hrest.notAfter stop hmem) hnear.1, hnear.2⟩
    · intro a ha
      by_contra hne
      exact hkept (Or.inr (Or.inl ⟨a, ha, hne⟩))
    · intro ids hids o ho
      by_contra hnot
      exact hkept (Or.inr (Or.inr ⟨ids, hids, o, ho, hnot⟩))

end Backends

/-! ## One event -/

section Event

variable {filter : AuditEventFilter} {row : StoredAuditEvent}

theorem satisfied_iff :
    filter.Satisfied row ↔ (∀ start ∈ filter.dateFrom, start ≤ row.occurred) ∧
      { filter with dateFrom := none }.Satisfied row := by
  constructor
  · intro h
    exact ⟨h.notBefore, nofun, h.notAfter, h.actor, h.action, h.caseReference, h.resourceType,
      h.result, h.scope⟩
  · rintro ⟨hstart, h⟩
    exact ⟨hstart, h.notAfter, h.actor, h.action, h.caseReference, h.resourceType, h.result,
      h.scope⟩

/-- What the filter means PostgreSQL shows. -/
theorem typed_satisfied (hrow : row.Canonical) (h : filter.Satisfied row) :
    filter.typed.Satisfied row := by
  have hwhole := toMicros_of_dvd hrow.micros
  refine ⟨?_, ?_, ?_, h.action, h.caseReference, h.resourceType, h.result, h.scope⟩
  · intro start hstart
    rcases Option.map_eq_some_iff.mp hstart with ⟨bound, hbound, rfl⟩
    rw [← timestamptz_le_iff hrow.micros]
    exact timestamptz_le_timestamptz (h.notBefore bound hbound)
  · intro stop hstop
    rcases Option.map_eq_some_iff.mp hstop with ⟨bound, hbound, rfl⟩
    rw [← le_timestamptz_iff hrow.micros]
    exact timestamptz_le_timestamptz (h.notAfter bound hbound)
  · intro a ha
    exact h.actor a (Option.mem_filter_iff.mp ha).1

/-- What else it shows it should not. -/
theorem satisfied_iff_of_typed (h : filter.typed.Satisfied row) :
    filter.Satisfied row ↔ ¬ filter.Widens row := by
  constructor
  · rintro hmeant (⟨start, hstart, hlater⟩ | ⟨stop, hstop, hearlier⟩ | ⟨a, ha, hparse⟩)
    · exact absurd (hmeant.notBefore start hstart) hlater.not_ge
    · exact absurd (hmeant.notAfter stop hstop) hearlier.not_ge
    · rcases hmeant.actor a ha with ⟨u, hu, -⟩
      rw [hparse] at hu
      cases hu
  · intro hkept
    refine ⟨?_, ?_, ?_, h.action, h.caseReference, h.resourceType, h.result, h.scope⟩
    · intro start hstart
      by_contra hlater
      exact hkept (Or.inl ⟨start, hstart, lt_of_not_ge hlater⟩)
    · intro stop hstop
      by_contra hearlier
      exact hkept (Or.inr (Or.inl ⟨stop, hstop, lt_of_not_ge hearlier⟩))
    · intro a ha
      cases hparse : Uuid.parseStr a with
      | none => exact absurd (Or.inr (Or.inr ⟨a, ha, hparse⟩)) hkept
      | some u =>
          apply h.actor a
          exact Option.mem_filter_iff.mpr ⟨ha, by rw [hparse]; rfl⟩

/-- What the filter means SQLite shows, unless it drops it. -/
theorem meets_sqlite_of_satisfied (hrow : row.Canonical) (h : filter.Satisfied row)
    (hkept : ¬ filter.Drops row) : meets (pushAuditFilterSqlite toRfc3339 filter) row = true := by
  rw [meets_pushAuditFilterSqlite_iff hrow]
  rw [satisfied_iff] at h
  refine ⟨fun start hstart => Or.inl ?_, h.2, hkept⟩
  exact Int.ediv_le_ediv (by decide) (h.1 start hstart)

/-- What else it shows it shows too early. -/
theorem satisfied_of_meets_sqlite (hrow : row.Canonical)
    (h : meets (pushAuditFilterSqlite toRfc3339 filter) row = true)
    (hjudged : ¬ filter.Misjudged row) : filter.Satisfied row := by
  rcases (meets_pushAuditFilterSqlite_iff hrow).mp h with ⟨hstart, hrest, hkept⟩
  refine satisfied_iff.mpr ⟨fun start hmem => ?_, hrest⟩
  by_contra hlater
  have hlt := lt_of_not_ge hlater
  apply hjudged
  refine .early hrest hkept start hmem hlt ?_
  rcases hstart start hmem with hle | hlate
  · exact Or.inl (le_antisymm hle (Int.ediv_le_ediv (by decide) hlt.le))
  · exact Or.inr hlate

/-- **Where both backends are right about an event.** -/
theorem judged_iff (hrow : row.Canonical) :
    ((meets (pushAuditFilterPg filter) row = true ↔
          meets (pushAuditFilterSqlite toRfc3339 filter) row = true) ∧
        (meets (pushAuditFilterPg filter) row = true → filter.Satisfied row)) ↔
      ¬ filter.Misjudged row := by
  rw [meets_pushAuditFilterPg_iff hrow]
  constructor
  · rintro ⟨hsame, hsound⟩ hmisjudged
    cases hmisjudged with
    | dropped hmeant hdrops =>
        have hshown := hsame.mp (typed_satisfied hrow hmeant)
        exact ((meets_pushAuditFilterSqlite_iff hrow).mp hshown).2.2 hdrops
    | early hrest hkept start hstart hlater hnear =>
        have hshown : meets (pushAuditFilterSqlite toRfc3339 filter) row = true := by
          refine (meets_pushAuditFilterSqlite_iff hrow).mpr ⟨fun bound hbound => ?_, hrest, hkept⟩
          rw [Option.mem_unique hbound hstart]
          exact hnear.imp_left le_of_eq
        have hmeant := hsound (hsame.mpr hshown)
        exact absurd (hmeant.notBefore start hstart) hlater.not_ge
    | widened htyped hwidens =>
        exact (satisfied_iff_of_typed htyped).mp (hsound htyped) hwidens
  · intro hjudged
    have hsound : filter.typed.Satisfied row → filter.Satisfied row := by
      intro htyped
      rw [satisfied_iff_of_typed htyped]
      exact fun hwidens => hjudged (.widened htyped hwidens)
    refine ⟨⟨fun htyped => ?_, fun hshown => ?_⟩, hsound⟩
    · have hmeant := hsound htyped
      apply meets_sqlite_of_satisfied hrow hmeant
      exact fun hdrops => hjudged (.dropped hmeant hdrops)
    · exact typed_satisfied hrow (satisfied_of_meets_sqlite hrow hshown hjudged)

end Event

/-- **The filters agree**, and show only what is asked for, if and only if PostgreSQL takes
the bounds and no event is misjudged. -/
theorem audit_filters_agree (filter : AuditEventFilter) (rows : List StoredAuditEvent)
    (hrows : ∀ row ∈ rows, row.Canonical) :
    FiltersAgree filter rows ↔
      (∀ t ∈ filter.bounds, IsTimestamptz t) ∧ ∀ row ∈ rows, ¬ filter.Misjudged row := by
  have hsqlite : selectAuditEvents .sqlite filter rows =
      .ok (rows.filter (meets (pushAuditFilterSqlite toRfc3339 filter))) := by
    unfold selectAuditEvents
    rw [if_neg (fun h => nomatch h.1)]
    rfl
  by_cases hbounds : ∀ t ∈ filter.bounds, IsTimestamptz t
  · have hpg : selectAuditEvents .postgres filter rows =
        .ok (rows.filter (meets (pushAuditFilterPg filter))) := by
      unfold selectAuditEvents
      rw [if_neg (fun h => h.2 hbounds)]
      rfl
    rw [and_iff_right hbounds]
    constructor
    · intro h row hrow
      refine (judged_iff (hrows row hrow)).mp ⟨?_, fun hshown => ?_⟩
      · have hlists := Except.ok.inj (hpg.symm.trans (h.same.trans hsqlite))
        have hmem : row ∈ rows.filter (meets (pushAuditFilterPg filter)) ↔
            row ∈ rows.filter (meets (pushAuditFilterSqlite toRfc3339 filter)) := by
          rw [hlists]
        rwa [List.mem_filter, List.mem_filter, and_iff_right hrow, and_iff_right hrow] at hmem
      · exact h.sound .postgres _ hpg row (List.mem_filter.mpr ⟨hrow, hshown⟩)
    · intro hjudged
      have hlists : rows.filter (meets (pushAuditFilterPg filter)) =
          rows.filter (meets (pushAuditFilterSqlite toRfc3339 filter)) := by
        apply List.filter_congr
        intro row hrow
        exact Bool.eq_iff_iff.mpr ((judged_iff (hrows row hrow)).mpr (hjudged row hrow)).1
      constructor
      · rw [hpg, hsqlite, hlists]
      · intro backend selected hselected row hrow
        have hshown : row ∈ rows.filter (meets (pushAuditFilterPg filter)) := by
          cases backend with
          | postgres => rwa [← Except.ok.inj (hpg.symm.trans hselected)] at hrow
          | sqlite => rwa [hlists, Except.ok.inj (hsqlite.symm.trans hselected)]
        rcases List.mem_filter.mp hshown with ⟨hmem, hmeets⟩
        exact ((judged_iff (hrows row hmem)).mpr (hjudged row hmem)).2 hmeets
  · have hpg : selectAuditEvents .postgres filter rows = .error .failed := by
      unfold selectAuditEvents
      rw [if_pos ⟨rfl, hbounds⟩]
    constructor
    · intro h
      have hsame := h.same
      rw [hpg, hsqlite] at hsame
      cases hsame
    · exact fun h => absurd h.1 hbounds

theorem sampleAuditTable_canonical : ∀ row ∈ sampleAuditTable.rows, row.Canonical := by
  intro row hrow
  rw [List.mem_singleton.mp hrow]
  have hone : IsCanonical (Uuid.text 1) := ⟨1, by decide, rfl⟩
  constructor
  · decide +kernel
  · decide
  · decide +kernel
  · intro a ha
    rw [← Option.some.inj ha]
    exact hone
  · intro o ho
    rw [← Option.some.inj ho]
    exact hone

theorem audit_filters_agree_sample :
    FiltersAgree sampleAuditFilter sampleAuditTable.rows ↔
      (∀ t ∈ sampleAuditFilter.bounds, IsTimestamptz t) ∧
        ∀ row ∈ sampleAuditTable.rows, ¬ sampleAuditFilter.Misjudged row :=
  audit_filters_agree sampleAuditFilter sampleAuditTable.rows sampleAuditTable_canonical

/-- Up to the very instant of the event, and for an actor that is no UUID. -/
theorem audit_filters_differ :
    ¬ FiltersAgree { sampleAuditFilter with dateTo := some 1111111109000000000 }
        sampleAuditTable.rows ∧
      ¬ FiltersAgree { sampleAuditFilter with actorUserId := some "OP-1" }
        sampleAuditTable.rows := by
  constructor
  · intro h
    have hcounts := congrArg (fun selected => selected.toOption.map List.length) h.same
    revert hcounts
    decide +kernel
  · intro h
    have hcounts := congrArg (fun selected => selected.toOption.map List.length) h.same
    revert hcounts
    decide +kernel

end AnatoliaBis.App
