import AnatoliaBis.App.Listing
import AnatoliaBis.App.Requests

/-! # All pages

`db::list_audit_events`, `db::list_searches_page` and `db::list_users_page` compute the
offset of a page in `i64`, and a release build wraps around without a word. The pages that
there are lie far below the end of the range; what is asked for need not.
-/

namespace AnatoliaBis.App

open Select

/-- A row of `users` with the column that `list_users_page` sorts by. -/
structure StoredUser extends Account where
  createdAt : Timestamp
  deriving DecidableEq

/-- `ORDER BY created_at DESC`. -/
def newerUser (a b : StoredUser) : Prop := b.createdAt ≤ a.createdAt

/-- `db::list_users_page`; `USER_PAGE_MAX_SIZE` is the bound of the other lists. -/
def listUsersPage (backend : Backend) (order : Arrangement newerUser) (table : Table StoredUser)
    (page pageSize : Int) : Except DbError (List StoredUser × Nat) :=
  listPage backend order table [Cond.isNull fun row => row.deletedAt] page pageSize

/-! ## What the pages of a list are -/

/-- The offset is the product that the code writes down, and the page of that place is
shown. -/
def Serves {α : Type} (size total : Nat) (pages : Nat → List α)
    (answer : Int64 → Except DbError (List α × Nat)) (page : Int64) : Prop :=
  pageOffset (max page.toInt 1) size = (max page.toInt 1 - 1) * size ∧
    answer page = .ok (pages (max page.toInt 1 - 1).toNat, total)

/-- The pages of a list: each wanted row is on exactly one, nothing follows the last one,
and a page number is answered by its page as long as the offset stays an `i64`. -/
structure Paginates {α : Type} (size : Nat) (answer : Int64 → Except DbError (List α × Nat))
    (wanted : List α) (pages : Nat → List α) : Prop where
  cover : ((List.range (pageCount wanted.length size)).flatMap pages).Perm wanted
  disjoint : wanted.Nodup → ∀ i j, i < j → j < pageCount wanted.length size →
    (pages i).Disjoint (pages j)
  later : ∀ i, pageCount wanted.length size ≤ i → pages i = []
  below : ∀ page, page.toInt < 1 → answer page = answer 1
  within : ∀ page, page.toInt ≤ (pageCount wanted.length size : Int) →
    Serves size wanted.length pages answer page
  serves_iff : ∀ page, Serves size wanted.length pages answer page ↔
    (max page.toInt 1 - 1) * size < 2 ^ 63
  always_iff : (∀ page, Serves size wanted.length pages answer page) ↔ size = 1

/-! ## The offset -/

/-- The offset is exact as long as it is an `i64`. -/
theorem pageOffset_eq_iff {page : Int} {size : Nat} (hpage : 1 ≤ page) :
    pageOffset page size = (page - 1) * size ↔ (page - 1) * size < 2 ^ 63 := by
  have hnonneg : 0 ≤ (page - 1) * size := Int.mul_nonneg (by omega) (by omega)
  unfold pageOffset
  constructor
  · intro h
    have hlt := Int.bmod_lt (x := (page - 1) * size) (m := 2 ^ 64) (by decide)
    omega
  · intro h
    apply Int.bmod_eq_of_le
    · omega
    · omega

/-- Of one-row pages every one has its offset. -/
theorem offsets_fit_iff {size : Nat} (hsize : 1 ≤ size) :
    (∀ page : Int64, (max page.toInt 1 - 1) * size < 2 ^ 63) ↔ size = 1 := by
  constructor
  · intro h
    have hlast := h Int64.maxValue
    rw [show max Int64.maxValue.toInt 1 - 1 = 2 ^ 63 - 2 from by decide] at hlast
    omega
  · intro h page
    have hpage := page.toInt_lt
    rw [h]
    omega

/-! ## The pages -/

section Pages

variable {α : Type} {r : α → α → Prop} {backend : Backend} {order : Int → Arrangement r}
  {table : Table α} {conds : List (Cond α)} {pageSize : Int}

theorem listPage_eq {page : Int} {size : Nat} (hsize : size = clampPageSize pageSize)
    (hfits : (max page 1 - 1) * size < 2 ^ 63) (o : Arrangement r) :
    listPage backend o table conds page pageSize =
      .ok (select conds o size ((max page 1 - 1).toNat * size) table.rows,
        count conds table.rows) := by
  have hoffset := (pageOffset_eq_iff (le_max_right page 1)).mpr hfits
  have hnonneg : 0 ≤ (max page 1 - 1) * size := Int.mul_nonneg (by omega) (by omega)
  unfold listPage
  dsimp only
  rw [← hsize, hoffset, if_neg (fun h => absurd h.2 (by omega)), Int.toNat_natCast,
    Int.toNat_mul (by omega) (by omega), Int.toNat_natCast]

/-- The pages that every answer is one of. -/
def pagesOf (order : Int → Arrangement r) (table : Table α) (conds : List (Cond α)) (size : Nat)
    (i : Nat) : List α :=
  select conds (order 0) size (i * size) table.rows

theorem serves_listPage_iff {size : Nat} (hsize : size = clampPageSize pageSize)
    (hrows : Orders r table.rows) (page : Int64) :
    Serves size (count conds table.rows) (pagesOf order table conds size)
        (fun page => listPage backend (order page.toInt) table conds page.toInt pageSize) page ↔
      (max page.toInt 1 - 1) * size < 2 ^ 63 := by
  unfold Serves
  rw [pageOffset_eq_iff (le_max_right page.toInt 1), and_iff_left_iff_imp]
  intro hfits
  dsimp only
  rw [listPage_eq hsize hfits]
  unfold pagesOf
  rw [select_arrangement hrows (order page.toInt) (order 0)]

/-- **Every list of the three is paginated**, as one statement about `listPage`. -/
theorem listPage_paginates (backend : Backend) (order : Int → Arrangement r) (table : Table α)
    (conds : List (Cond α)) (pageSize : Int) (hrows : Orders r table.rows) :
    Paginates (clampPageSize pageSize).toNat
      (fun page => listPage backend (order page.toInt) table conds page.toInt pageSize)
      (table.rows.filter (meets conds))
      (pagesOf order table conds (clampPageSize pageSize).toNat) := by
  rcases clampPageSize_bounds pageSize with ⟨hone, -, hsize⟩
  generalize (clampPageSize pageSize).toNat = size at hone hsize ⊢
  have htotal : (table.rows.filter (meets conds)).length < 2 ^ 63 :=
    (List.length_filter_le _ _).trans_lt table.countable
  have hcover : ((List.range (pageCount (table.rows.filter (meets conds)).length size)).flatMap
      (pagesOf order table conds size)).Perm (table.rows.filter (meets conds)) :=
    flatMap_select hrows (fun _ => order 0) (le_pageCount_mul hone)
  have hserves : ∀ page : Int64, Serves size (count conds table.rows)
      (pagesOf order table conds size)
      (fun page => listPage backend (order page.toInt) table conds page.toInt pageSize) page ↔
        (max page.toInt 1 - 1) * size < 2 ^ 63 :=
    serves_listPage_iff hsize hrows
  constructor
  · exact hcover
  · intro hnodup i j hij hj
    have hpairs := (List.nodup_flatMap.mp (hcover.nodup_iff.mpr hnodup)).2
    have hij' := List.pairwise_iff_getElem.mp hpairs i j
      (by rw [List.length_range]; omega) (by rw [List.length_range]; omega) hij
    simpa [Function.onFun] using hij'
  · intro i hi
    apply select_eq_nil
    exact (le_pageCount_mul hone).trans (Nat.mul_le_mul_right size hi)
  · intro page hpage
    have hfirst : max page.toInt 1 = max (1 : Int64).toInt 1 := by
      rw [show (1 : Int64).toInt = 1 from by decide]
      omega
    have hfits : (max (1 : Int64).toInt 1 - 1) * size < 2 ^ 63 := by
      rw [show max (1 : Int64).toInt 1 - 1 = 0 from by decide]
      omega
    rw [listPage_eq hsize hfits, listPage_eq hsize (by rwa [hfirst]), hfirst,
      select_arrangement hrows (order page.toInt) (order (1 : Int64).toInt)]
  · intro page hpage
    apply (hserves page).mpr
    have hlt : (max page.toInt 1 - 1).toNat * size < 2 ^ 63 := by
      apply mul_lt_of_lt_pageCount hone htotal
      omega
    have hcast : (max page.toInt 1 - 1) * size =
        (((max page.toInt 1 - 1).toNat * size : Nat) : Int) := by
      rw [Int.natCast_mul, Int.toNat_of_nonneg (by omega)]
    rw [hcast]
    omega
  · exact hserves
  · rw [← offsets_fit_iff hone]
    exact forall_congr' hserves

end Pages

/-- **Pagination.** On either backend the pages of the three lists partition the wanted
rows, whatever their number and size; a page number is answered by its page exactly where
the offset stays an `i64`, which for every number there is means pages of one row. -/
theorem lists_paginate (backend : Backend) (pageSize : Int) :
    (∀ (toRfc3339 : Instant → String) (order : Int → Arrangement (newerEvent backend))
      (table : Table StoredAuditEvent) (filter : AuditEventFilter),
      Orders (newerEvent backend) table.rows →
      ∃ pages, Paginates (clampPageSize pageSize).toNat
        (fun page => listAuditEvents backend toRfc3339 (order page.toInt) table filter page.toInt
          pageSize)
        (table.rows.filter (meets (pushAuditFilter backend toRfc3339 filter))) pages) ∧
    (∀ (order : Int → Arrangement newerSearch) (table : Table SearchRow)
      (orgScope : Option (List String)), Orders newerSearch table.rows →
      ∃ pages, Paginates (clampPageSize pageSize).toNat
        (fun page => listSearchesPage backend (order page.toInt) table page.toInt pageSize orgScope)
        (table.rows.filter (meets (pushOrgScope backend (·.organizationId) orgScope))) pages) ∧
    (∀ (order : Int → Arrangement newerUser) (table : Table StoredUser),
      Orders newerUser table.rows →
      ∃ pages, Paginates (clampPageSize pageSize).toNat
        (fun page => listUsersPage backend (order page.toInt) table page.toInt pageSize)
        (table.rows.filter fun row => row.deletedAt.isNone) pages) := by
  refine ⟨fun toRfc3339 order table filter hrows => ?_, fun order table orgScope hrows => ?_,
    fun order table hrows => ?_⟩
  · exact ⟨_, listPage_paginates backend order table _ pageSize hrows⟩
  · exact ⟨_, listPage_paginates backend order table _ pageSize hrows⟩
  · have hwanted : (table.rows.filter fun row => row.deletedAt.isNone) =
        table.rows.filter (meets [Cond.isNull fun row : StoredUser => row.deletedAt]) := by
      apply List.filter_congr
      intro row _
      rw [meets_singleton, Cond.holds_isNull]
    rw [hwanted]
    exact ⟨_, listPage_paginates backend order table _ pageSize hrows⟩

/-- The users, the newest first. -/
def newestUsers : Arrangement newerUser :=
  Arrangement.descending fun row : StoredUser => row.createdAt

def sampleUsers : Table StoredUser where
  rows := [⟨⟨sampleAdmin, ⟨none, none, none⟩⟩, 10⟩, ⟨⟨sampleReviewer, ⟨none, none, none⟩⟩, 20⟩]
  countable := by decide

theorem lists_paginate_sample :
    (∃ pages, Paginates 1
      (fun page => listAuditEvents .sqlite sampleRfc3339 newestEvents sampleAuditTable
        sampleAuditFilter page.toInt 1)
      (sampleAuditTable.rows.filter
        (meets (pushAuditFilter .sqlite sampleRfc3339 sampleAuditFilter))) pages) ∧
    (∃ pages, Paginates 1
      (fun page => listSearchesPage .sqlite newestSearches sampleSearches page.toInt 1 none)
      (sampleSearches.rows.filter
        (meets (pushOrgScope .sqlite (fun row : SearchRow => row.organizationId) none))) pages) ∧
    ∃ pages, Paginates 1
      (fun page => listUsersPage .sqlite newestUsers sampleUsers page.toInt 1)
      (sampleUsers.rows.filter fun row => row.deletedAt.isNone) pages := by
  rcases lists_paginate .sqlite 1 with ⟨haudit, hsearches, husers⟩
  refine ⟨?_, ?_, ?_⟩
  · exact haudit sampleRfc3339 (fun _ => newestEvents) sampleAuditTable sampleAuditFilter
      (orders_of_nodup (List.nodup_singleton _))
  · exact hsearches (fun _ => newestSearches) sampleSearches none (orders_of_nodup (by decide))
  · exact husers (fun _ => newestUsers) sampleUsers (orders_of_nodup (by decide))

/-- Of two searches in pages of four, page `2^62 + 1` is the first page again. -/
theorem later_page_shows_rows :
    pageCount sampleSearches.rows.length 4 = 1 ∧
      pageOffset 4611686018427387905 4 ≠ (4611686018427387905 - 1) * 4 ∧
      ∃ rows, rows ≠ [] ∧ listSearchesPage .postgres newestSearches sampleSearches
        4611686018427387905 4 none = .ok (rows, 2) := by
  refine ⟨by decide, by decide, select [] newestSearches 4 0 sampleSearches.rows, ?_, rfl⟩
  intro hnil
  have hlength := congrArg List.length hnil
  unfold select page at hlength
  rw [List.drop_zero, List.length_take, (newestSearches.perm _).length_eq] at hlength
  revert hlength
  decide

end AnatoliaBis.App
