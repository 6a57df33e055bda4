import AnatoliaBis.Audit.Chain

/-! # What the audit chain detects

Consequences of `intact_iff` for somebody who edits the stored rows. The hash
function enters through `HashAssumptions` only.

* `tip_commits`: the last hash fixes every canonical text of the table.
* `alteration_detected_iff`: editing one row goes unnoticed exactly when its
  canonical text does not change.
* `deletion_detected_iff`: removing rows goes unnoticed exactly when they are
  the last ones.
-/

namespace AnatoliaBis.Audit

/-- SHA-256, printed in hexadecimal, as an ideal hash function. -/
structure HashAssumptions (x : Externals) : Prop where
  injective : Function.Injective x.sha256Hex
  /-- `hex::encode` prints hexadecimal digits only. -/
  noSeparator : ∀ s, sep ∉ (x.sha256Hex s).toList
  notGenesis : ∀ s, x.sha256Hex s ≠ genesisHash

/-- The hash of the recorded history meets the assumptions. -/
theorem sample_hashAssumptions : HashAssumptions sampleExternals where
  injective := Tabulated.extend_injective ⟨by decide +kernel, by decide +kernel⟩
  noSeparator := Tabulated.notMem_extend (by decide) (by decide) (by decide +kernel)
  notGenesis := Tabulated.extend_ne (by decide +kernel) (by decide)

def sampleRow1 : AuditEventRow := sampleWrite1.row sampleExternals genesisHash 1
def sampleRow2 : AuditEventRow := sampleWrite2.row sampleExternals sampleHash1 2

/-! ## The tip commits to the history -/

/-- In a chain of sealed rows every previous hash is free of the separator. -/
theorem sep_notMem_storedPreviousHash {x : Externals} (hx : HashAssumptions x)
    {rows : List AuditEventRow} (hlink : ChainedFrom genesisHash rows)
    (hseal : ∀ row ∈ rows, Sealed x row) :
    ∀ row ∈ rows, sep ∉ row.storedPreviousHash.toList := by
  intro row hrow
  rcases hlink.prev_mem hrow with hgen | ⟨y, hy, hprev⟩
  · rw [hgen]
    exact sep_notMem_genesisHash
  · obtain ⟨text, -, hhash⟩ := sealed_iff.mp (hseal y hy)
    rw [hprev, ← hhash]
    exact hx.noSeparator text

theorem storedEventHash_ne_genesis {x : Externals} (hx : HashAssumptions x) {row : AuditEventRow}
    (h : Sealed x row) : row.storedEventHash ≠ genesisHash := by
  obtain ⟨text, -, hhash⟩ := sealed_iff.mp h
  exact hhash ▸ hx.notGenesis text

/-- A hash determines the text it was computed from, and with it the previous
hash in front of that text. -/
theorem hash_binds {x : Externals} (hx : HashAssumptions x) {row row' : AuditEventRow}
    (h : Sealed x row) (h' : Sealed x row') (hp : sep ∉ row.storedPreviousHash.toList)
    (hp' : sep ∉ row'.storedPreviousHash.toList)
    (heq : row.storedEventHash = row'.storedEventHash) :
    row.storedPreviousHash = row'.storedPreviousHash ∧
      row.canonicalText x = row'.canonicalText x := by
  obtain ⟨text, htext, hhash⟩ := sealed_iff.mp h
  obtain ⟨text', htext', hhash'⟩ := sealed_iff.mp h'
  have hsame : text = text' := hx.injective (by rw [hhash, hhash', heq])
  subst hsame
  refine ⟨?_, htext.trans htext'.symm⟩
  obtain ⟨t, -, ht⟩ := Option.map_eq_some_iff.mp htext
  obtain ⟨t', -, ht'⟩ := Option.map_eq_some_iff.mp htext'
  exact ((canonicalEventString_inj hp hp').mp (ht.trans ht'.symm)).1

/-- **The tip commits to the whole history.** Two tables without unchained rows,
both reported intact, whose last rows carry the same hash: they have the same
number of rows and, in sequence order, the same canonical texts. -/
theorem tip_commits {x : Externals} (hx : HashAssumptions x) {events events' : List AuditEventRow}
    (hall : ∀ row ∈ events, row.sequence.isSome) (hall' : ∀ row ∈ events', row.sequence.isSome)
    (hintact : (verifyChain x events).intact = true)
    (hintact' : (verifyChain x events').intact = true)
    {last last' : AuditEventRow} (hlast : (selectChained events).getLast? = some last)
    (hlast' : (selectChained events').getLast? = some last')
    (htip : last.eventHash = last'.eventHash) :
    events.length = events'.length ∧
      (selectChained events).map (·.canonicalText x) =
        (selectChained events').map (·.canonicalText x) := by
  obtain ⟨hlink, hseal⟩ := intact_iff.mp hintact
  obtain ⟨hlink', hseal'⟩ := intact_iff.mp hintact'
  have hprev := sep_notMem_storedPreviousHash hx hlink hseal
  have hprev' := sep_notMem_storedPreviousHash hx hlink' hseal'
  have tip_eq : ∀ {rows : List AuditEventRow} {r : AuditEventRow}, rows.getLast? = some r →
      HashChain.tip AuditEventRow.storedEventHash genesisHash rows = r.storedEventHash := by
    intro rows r h
    obtain ⟨init, rfl⟩ := List.getLast?_eq_some_iff.mp h
    exact HashChain.tip_concat genesisHash init r
  have hmap : (selectChained events).map (·.canonicalText x) =
      (selectChained events').map (·.canonicalText x) := by
    refine HashChain.tip_determines ?_ (fun r hr => storedEventHash_ne_genesis hx (hseal r hr))
      (fun r hr => storedEventHash_ne_genesis hx (hseal' r hr)) hlink hlink' ?_
    · intro r hr r' hr' heq
      exact hash_binds hx (hseal r hr) (hseal' r' hr') (hprev r hr) (hprev' r' hr') heq
    · rw [tip_eq hlast, tip_eq hlast', AuditEventRow.storedEventHash, htip]
      rfl
  have hlen : ∀ {rows : List AuditEventRow}, (∀ row ∈ rows, row.sequence.isSome) →
      (selectChained rows).length = rows.length := by
    intro rows h
    rw [selectChained, List.length_insertionSort, List.filter_eq_self.mpr h]
  refine ⟨?_, hmap⟩
  rw [← hlen hall, ← hlen hall']
  simpa using congrArg List.length hmap

/-- Two tables with the same tip that differ in an organization column. -/
theorem tip_commits_sample :
    [sampleRow1, sampleRow2].length =
        [{ sampleRow1 with organizationId := some "org-2" }, sampleRow2].length ∧
      (selectChained [sampleRow1, sampleRow2]).map (·.canonicalText sampleExternals) =
        (selectChained [{ sampleRow1 with organizationId := some "org-2" }, sampleRow2]).map
          (·.canonicalText sampleExternals) :=
  tip_commits sample_hashAssumptions (by decide +kernel) (by decide +kernel) (by decide +kernel)
    (by decide +kernel) (by decide +kernel : _ = some sampleRow2)
    (by decide +kernel : _ = some sampleRow2) rfl

/-! ## Editing one row -/

/-- What a row's canonical text determines: its timestamp and hashed fields, cut
at every separator. -/
def AuditEventRow.hashedPieces (x : Externals) (row : AuditEventRow) :
    Option (List (List Char)) :=
  (x.parseTimestamp row.timestamp).map fun timestamp =>
    (canonicalTimestamp x timestamp :: row.event.hashedFields).flatMap (Separated.pieces sep)

theorem canonicalText_eq_iff {x : Externals} {row row' : AuditEventRow}
    (hprev : row'.storedPreviousHash = row.storedPreviousHash) :
    row'.canonicalText x = row.canonicalText x ↔ row'.hashedPieces x = row.hashedPieces x := by
  have hjoin : ∀ t t' : Timestamp,
      canonicalEventString x row'.storedPreviousHash t' row'.event =
          canonicalEventString x row.storedPreviousHash t row.event ↔
        (canonicalTimestamp x t' :: row'.event.hashedFields).flatMap (Separated.pieces sep) =
          (canonicalTimestamp x t :: row.event.hashedFields).flatMap (Separated.pieces sep) := by
    intro t t'
    rw [canonicalEventString, canonicalEventString, hprev,
      Separated.join_eq_iff (by simp) (by simp)]
    simp only [List.flatMap_cons, List.append_cancel_left_eq]
  unfold AuditEventRow.canonicalText AuditEventRow.hashedPieces
  cases x.parseTimestamp row'.timestamp <;> cases x.parseTimestamp row.timestamp <;>
    simp [hjoin]

/-- An edit of the recorded content: the row's id, its place and its two hash
columns stay. -/
structure SameHashColumns (row row' : AuditEventRow) : Prop where
  id : row'.id = row.id
  sequence : row'.sequence = row.sequence
  previousHash : row'.previousHash = row.previousHash
  eventHash : row'.eventHash = row.eventHash

/-- The columns the links between rows are read from. -/
def AuditEventRow.hashColumns (row : AuditEventRow) : Option Nat × String × String :=
  (row.sequence, row.storedPreviousHash, row.storedEventHash)

theorem SameHashColumns.hashColumns_eq {row row' : AuditEventRow} (h : SameHashColumns row row') :
    row'.hashColumns = row.hashColumns := by
  simp [AuditEventRow.hashColumns, AuditEventRow.storedPreviousHash,
    AuditEventRow.storedEventHash, h.sequence, h.previousHash, h.eventHash]

/-- The verifier meets the rows in an order given by the hash columns alone. -/
theorem hashColumns_selectChained (events : List AuditEventRow) :
    (selectChained events).map (·.hashColumns) =
      ((events.map (·.hashColumns)).filter (·.1.isSome)).insertionSort
        fun a b => a.1.getD 0 ≤ b.1.getD 0 := by
  rw [List.filter_map]
  exact List.map_insertionSort (fun a b : AuditEventRow => a.sequence.getD 0 ≤ b.sequence.getD 0)
    (fun a b : Option Nat × String × String => a.1.getD 0 ≤ b.1.getD 0) _ _ fun _ _ _ _ => Iff.rfl

theorem chainedFrom_congr {events events' : List AuditEventRow}
    (h : events'.map (·.hashColumns) = events.map (·.hashColumns)) :
    ChainedFrom genesisHash (selectChained events') ↔
      ChainedFrom genesisHash (selectChained events) := by
  have hcols : ∀ l : List AuditEventRow, ChainedFrom genesisHash l ↔
      HashChain.Linked (fun c : Option Nat × String × String => c.2.1) (fun c => c.2.2) genesisHash
        (l.map (·.hashColumns)) := by
    intro l
    exact (@HashChain.linked_map _ _ AuditEventRow.storedPreviousHash
      AuditEventRow.storedEventHash _ (fun c => c.2.1) (fun c => c.2.2)
      AuditEventRow.hashColumns l (fun _ _ => rfl) (fun _ _ => rfl) genesisHash).symm
  rw [hcols, hcols, hashColumns_selectChained, hashColumns_selectChained, h]

theorem mem_selectChained {events : List AuditEventRow} {row : AuditEventRow} :
    row ∈ selectChained events ↔ row ∈ events ∧ row.sequence.isSome := by
  simp [selectChained]

/-- **Alteration.** In a table reported intact, change the content of one
chained row and nothing else. The verifier notices exactly when the list of
separator-free pieces of the hashed fields changes or the timestamp can no
longer be read: not when only the organization columns change, when an absent
value and an empty one are exchanged, or when text moves between fields together
with a separator. -/
theorem alteration_detected_iff {x : Externals} (hinj : Function.Injective x.sha256Hex)
    {before after : List AuditEventRow} {row row' : AuditEventRow}
    (hchained : row.sequence.isSome) (hsame : SameHashColumns row row')
    (hintact : (verifyChain x (before ++ row :: after)).intact = true) :
    (verifyChain x (before ++ row' :: after)).intact = false ↔
      row'.hashedPieces x ≠ row.hashedPieces x := by
  obtain ⟨hlink, hseal⟩ := intact_iff.mp hintact
  have hcols : (before ++ row' :: after).map (·.hashColumns) =
      (before ++ row :: after).map (·.hashColumns) := by
    simp [hsame.hashColumns_eq]
  have hlink' := (chainedFrom_congr hcols).mpr hlink
  have hprev : row'.storedPreviousHash = row.storedPreviousHash := by
    rw [AuditEventRow.storedPreviousHash, hsame.previousHash]
    rfl
  have hhash : row'.storedEventHash = row.storedEventHash := by
    rw [AuditEventRow.storedEventHash, hsame.eventHash]
    rfl
  have hrow : Sealed x row := hseal row (mem_selectChained.mpr ⟨by simp, hchained⟩)
  -- every other row is as it was, so the verdict is the edited row's own
  have hverdict : (verifyChain x (before ++ row' :: after)).intact = true ↔ Sealed x row' := by
    rw [intact_iff]
    constructor
    · rintro ⟨-, hall⟩
      exact hall row' (mem_selectChained.mpr ⟨by simp, by rw [hsame.sequence]; exact hchained⟩)
    · intro hseal'
      refine ⟨hlink', ?_⟩
      intro r hr
      obtain ⟨hmem, hsome⟩ := mem_selectChained.mp hr
      rw [List.mem_append, List.mem_cons] at hmem
      rcases hmem with hb | rfl | ha
      · exact hseal r (mem_selectChained.mpr ⟨by simp [hb], hsome⟩)
      · exact hseal'
      · exact hseal r (mem_selectChained.mpr ⟨by simp [ha], hsome⟩)
  have hseal_iff : Sealed x row' ↔ row'.canonicalText x = row.canonicalText x := by
    rw [Sealed, hhash, ← hrow]
    exact (Option.map_injective hinj).eq_iff
  rw [← Bool.not_eq_true, hverdict, hseal_iff, canonicalText_eq_iff hprev]

theorem alteration_detected_iff_sample :
    (verifyChain sampleExternals
        ([] ++ { sampleRow1 with action := "AUTH_LOGOUT" } :: [sampleRow2])).intact = false ↔
      AuditEventRow.hashedPieces sampleExternals { sampleRow1 with action := "AUTH_LOGOUT" } ≠
        sampleRow1.hashedPieces sampleExternals :=
  alteration_detected_iff sample_hashAssumptions.injective (by decide +kernel)
    ⟨rfl, rfl, rfl, rfl⟩ (by decide +kernel)

/-- A login moved to another organization: the edited table is still reported
intact. -/
theorem organization_change_undetected :
    Function.Injective sampleExternals.sha256Hex ∧
      (verifyChain sampleExternals [sampleRow1, sampleRow2]).intact = true ∧
      SameHashColumns sampleRow1 { sampleRow1 with organizationId := some "org-2" } ∧
      sampleRow1.organizationId ≠ some "org-2" ∧
      (verifyChain sampleExternals
        [{ sampleRow1 with organizationId := some "org-2" }, sampleRow2]).intact = true :=
  ⟨sample_hashAssumptions.injective, by decide +kernel, ⟨rfl, rfl, rfl, rfl⟩, by decide,
    by decide +kernel⟩

/-! ## Deleting rows -/

/-- On a list in strictly increasing order of `f`, pairs in list order are pairs
in the order of `f`. -/
theorem pairwise_iff_of_lt {α : Type} {R : α → α → Prop} {f : α → Nat} {l : List α}
    (hl : l.Pairwise fun a b => f a < f b) :
    l.Pairwise R ↔ ∀ a ∈ l, ∀ b ∈ l, f a < f b → R a b := by
  constructor
  · intro hR a ha b hb hab
    obtain ⟨i, hi, rfl⟩ := List.getElem_of_mem ha
    obtain ⟨j, hj, rfl⟩ := List.getElem_of_mem hb
    rcases Nat.lt_trichotomy i j with hij | rfl | hij
    · exact List.pairwise_iff_getElem.mp hR i j hi hj hij
    · exact absurd hab (lt_irrefl _)
    · have := List.pairwise_iff_getElem.mp hl j i hj hi hij
      omega
  · intro h
    exact hl.imp_of_mem fun ha hb hab => h _ ha _ hb hab

theorem sequence_lt_chainRows (x : Externals) (ws : List Write) :
    (chainRows x ws).Pairwise fun a b => a.sequence.getD 0 < b.sequence.getD 0 := by
  have hpw : ((chainRows x ws).map fun r => r.sequence.getD 0).Pairwise (· < ·) := by
    rw [sequence_chainRows]
    exact List.pairwise_lt_range'
  exact List.pairwise_map.mp hpw

theorem selectChained_filter {x : Externals} {t : AuditTables} {ws : List Write}
    (h : Represents x t ws) (keep : AuditEventRow → Bool) :
    selectChained (t.events.filter keep) = (chainRows x ws).filter keep := by
  rw [selectChained, List.filter_comm, h.rows]
  apply List.Pairwise.insertionSort_eq
  exact ((sequence_lt_chainRows x ws).imp fun hab => hab.le).filter keep

/-- **Deletion.** From a table written by any history of inserts, delete the
rows that `keep` rejects. The verifier notices exactly when a deleted chained
row comes before a kept one: deleting the last rows, or all of them, leaves an
intact chain, since the recorded tip is never looked at. -/
theorem deletion_detected_iff {x : Externals} (hx : HashAssumptions x) {t : AuditTables}
    (hinit : t.Initial) (writes : List Write)
    (hparse : ∀ w ∈ writes,
      x.parseTimestamp (canonicalTimestamp x w.timestamp) = some w.timestamp)
    (keep : AuditEventRow → Bool) :
    (verifyChain x ((insertAll x writes t).events.filter keep)).intact = false ↔
      ∃ d ∈ selectChained (insertAll x writes t).events, keep d = false ∧
        ∃ s ∈ selectChained (insertAll x writes t).events, keep s = true ∧
          d.sequence.getD 0 < s.sequence.getD 0 := by
  obtain ⟨ws, hsub, hrep⟩ := insertAll_represents (x := x) hinit.represents writes
  rw [List.nil_append] at hrep
  have hparse' : ∀ w ∈ ws,
      x.parseTimestamp (canonicalTimestamp x w.timestamp) = some w.timestamp :=
    fun w hw => hparse w (hsub.subset hw)
  obtain ⟨hlink, hseal⟩ := intact_iff.mp (hrep.chainInvariant hparse').intact
  rw [hrep.selectChained] at hlink hseal ⊢
  have hprev := sep_notMem_storedPreviousHash hx hlink hseal
  have hgen : ∀ r ∈ chainRows x ws, r.storedEventHash ≠ genesisHash :=
    fun r hr => storedEventHash_ne_genesis hx (hseal r hr)
  have hnodup := HashChain.nodup_hashes
    (fun r hr r' hr' heq =>
      (hash_binds hx (hseal r hr) (hseal r' hr') (hprev r hr) (hprev r' hr') heq).1) hgen hlink
  have hverdict : (verifyChain x ((insertAll x writes t).events.filter keep)).intact = true ↔
      ∀ a ∈ chainRows x ws, ∀ b ∈ chainRows x ws,
        a.sequence.getD 0 < b.sequence.getD 0 → keep b = true → keep a = true := by
    rw [intact_iff, selectChained_filter hrep, ← pairwise_iff_of_lt
      (sequence_lt_chainRows x ws), ← HashChain.filter_prefix_iff,
      ← HashChain.linked_sublist_iff List.filter_sublist hnodup hgen hlink]
    constructor
    · exact And.left
    · exact fun h => ⟨h, fun r hr => hseal r (List.mem_of_mem_filter hr)⟩
  rw [← Bool.not_eq_true, hverdict]
  push Not
  constructor
  · rintro ⟨d, hd, s, hs, hlt, hks, hkd⟩
    exact ⟨d, hd, by simpa using hkd, s, hs, hks, hlt⟩
  · rintro ⟨d, hd, hkd, s, hs, hks, hlt⟩
    exact ⟨d, hd, s, hs, hlt, hks, by simpa using hkd⟩

theorem deletion_detected_iff_sample :
    (verifyChain sampleExternals ((insertAll sampleExternals sampleWrites emptyTables).events.filter
        fun r => r.sequence != some 1)).intact = false ↔
      ∃ d ∈ selectChained (insertAll sampleExternals sampleWrites emptyTables).events,
        (d.sequence != some 1) = false ∧
          ∃ s ∈ selectChained (insertAll sampleExternals sampleWrites emptyTables).events,
            (s.sequence != some 1) = true ∧ d.sequence.getD 0 < s.sequence.getD 0 :=
  deletion_detected_iff sample_hashAssumptions emptyTables_initial sampleWrites
    (by decide +kernel) fun r => r.sequence != some 1

/-- The last row deleted, and all rows deleted: both tables are reported intact,
although `audit_chain_state` still records two events. -/
theorem tail_deletion_undetected :
    let t := insertAll sampleExternals sampleWrites emptyTables
    emptyTables.Initial ∧ t.lastSequence = 2 ∧
      (t.events.filter fun r => r.sequence != some 2) ≠ t.events ∧
      (verifyChain sampleExternals (t.events.filter fun r => r.sequence != some 2)).intact = true ∧
      (verifyChain sampleExternals (t.events.filter fun _ => false)).intact = true :=
  ⟨emptyTables_initial, by decide +kernel, by decide +kernel, by decide +kernel,
    by decide +kernel⟩

end AnatoliaBis.Audit
