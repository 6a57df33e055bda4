import AnatoliaBis.App.Footprint
import Mathlib.Data.List.MinMax

/-! # Owners stamped on new rows

A candidate, a search and an audit event belong to the organization its creator was
a member of first. Who that is, is looked up in a statement of its own before the
row is inserted; this follows the outcome of the look-up to the row.
-/

namespace AnatoliaBis.App

open Atomic Program
open Auth (Headers)

/-! ## Memberships -/

/-- A row of `user_memberships`, with the column no statement reads. -/
structure Membership where
  userId : Uuid
  organizationId : String
  createdAt : Timestamp
  deriving Repr, DecidableEq

/-- The organization of the first membership of a user that was created. -/
def firstOrganization (memberships : List Membership) (userId : Uuid) : Option String :=
  ((memberships.filter fun m => m.userId == userId).argmin (·.createdAt)).map (·.organizationId)

theorem firstOrganization_ne_none {memberships : List Membership} {userId : Uuid}
    (h : ∃ m ∈ memberships, m.userId = userId) : firstOrganization memberships userId ≠ none := by
  rcases h with ⟨m, hm, huser⟩
  have hmem : m ∈ memberships.filter fun m => m.userId == userId :=
    List.mem_filter.mpr ⟨hm, by rw [huser]; exact beq_self_eq_true userId⟩
  intro hnone
  rw [List.argmin_eq_none.mp (Option.map_eq_none_iff.mp hnone)] at hmem
  cases hmem

/-- The organizations of a user, in the order in which the database returns them. -/
def Database.organizationsOf (s : Database) (userId : Auth.Key) : List String :=
  (s.auth.memberships.filter fun m => userId.isId m.1).map Prod.snd

/-- The organization as the column keeps it: a UUID, or text. -/
def Deployment.storedOrganization (d : Deployment) (organizationId : Option String) :
    Option String :=
  match d.backend with
  | .postgres => (organizationId.bind Uuid.parseStr).map Uuid.text
  | .sqlite => organizationId

/-- What is stored is stored the same once more. -/
theorem storedOrganization_idem (d : Deployment) (organizationId : Option String) :
    d.storedOrganization (d.storedOrganization organizationId) =
      d.storedOrganization organizationId := by
  unfold Deployment.storedOrganization
  cases d.backend with
  | sqlite => rfl
  | postgres =>
      dsimp only
      cases hparse : organizationId.bind Uuid.parseStr with
      | none => rfl
      | some u =>
          rcases Option.bind_eq_some_iff.mp hparse with ⟨text, -, htext⟩
          rw [Option.map_some, Option.bind_some, Uuid.parseStr_text (Uuid.parseStr_lt htext)]
          rfl

/-! ## Look-ups and inserts of a handler -/

/-- What `.ok().flatten()` makes of the first organization a look-up returns. -/
def looked (ev : Step) : Option (Option String) :=
  match ev.op with
  | .auth (.db (.userOrganizationIds userId)) =>
      some (if ev.env.fails then none else (ev.before.organizationsOf userId).head?)
  | _ => none

/-- The outcome of the last look-up. -/
def lastLooked (h : List Step) : Option (Option String) := (h.filterMap looked).getLast?

/-- The owner of the row that an operation inserts. -/
def Op.stamp : Op → Option (Option String)
  | .db (.createCandidate row) => some row.organizationId
  | .db (.createQueuedSearch _ search) => some search.organizationId
  | .auth (.db (.insertAuditEvent event)) => some event.organizationId
  | _ => none

/-- Neither a look-up of memberships nor an insert. -/
def Op.Unmarked (op : Op) : Prop :=
  op.stamp = none ∧ ∀ userId, op ≠ .auth (.db (.userOrganizationIds userId))

theorem looked_of_unmarked {ev : Step} (h : ev.op.Unmarked) : looked ev = none := by
  unfold looked
  split
  next userId hop => exact absurd hop (h.2 userId)
  · rfl

section Last

variable {h h' : List Step} {ev : Step} {found : Option String}

theorem lastLooked_of_unmarked (hh : ∀ ev ∈ h', ev.op.Unmarked) :
    lastLooked (h ++ h') = lastLooked h := by
  unfold lastLooked
  rw [List.filterMap_append, List.filterMap_eq_nil_iff.mpr fun ev hev => looked_of_unmarked (hh ev hev),
    List.append_nil]

theorem lastLooked_concat (hev : looked ev = some found) :
    lastLooked (h ++ [ev]) = some found := by
  unfold lastLooked
  rw [List.filterMap_append, List.filterMap_cons, hev, List.filterMap_nil, List.getLast?_concat]

/-- The last look-up succeeded, and what it returned first is `first`. -/
def FoundFirst (d : Deployment) (first : Option String) (h : List Step) : Prop :=
  ∃ before ev later userId, h = before ++ ev :: later ∧
    ev.op = .auth (.db (.userOrganizationIds userId)) ∧ (∀ ev' ∈ later, looked ev' = none) ∧
    ev.env.fails = false ∧
    d.storedOrganization (ev.before.organizationsOf userId).head? = first

/-- The last look-up, in its place. -/
theorem lastLooked_eq_some (hlast : lastLooked h = some found) :
    ∃ before ev later, h = before ++ ev :: later ∧ looked ev = some found ∧
      ∀ ev' ∈ later, looked ev' = none := by
  induction h using List.reverseRecOn with
  | nil => cases hlast
  | append_singleton h ev ih =>
      cases hev : looked ev with
      | some found' =>
          rw [lastLooked_concat hev] at hlast
          refine ⟨h, ev, [], rfl, hev.trans hlast, ?_⟩
          intro ev' hev'
          cases hev'
      | none =>
          have hsame : lastLooked (h ++ [ev]) = lastLooked h := by
            unfold lastLooked
            rw [List.filterMap_append, List.filterMap_cons, hev, List.filterMap_nil,
              List.append_nil]
          rw [hsame] at hlast
          rcases ih hlast with ⟨before, ev', later, rfl, hev', hlater⟩
          refine ⟨before, ev', later ++ [ev], by simp, hev', ?_⟩
          intro ev'' hmem
          rcases List.mem_append.mp hmem with hmem | hmem
          · exact hlater ev'' hmem
          · rw [List.mem_singleton.mp hmem]
            exact hev

/-- A failing look-up finds nothing, a successful one the first organization. -/
theorem foundFirst_iff {d : Deployment} {first : Option String} (hfirst : first ≠ none)
    (hlast : lastLooked h = some found) :
    d.storedOrganization found = first ↔ FoundFirst d first h := by
  have hnone : d.storedOrganization none = none := by
    unfold Deployment.storedOrganization
    cases d.backend with
    | postgres => rfl
    | sqlite => rfl
  constructor
  · intro hfound
    rcases lastLooked_eq_some hlast with ⟨before, ev, later, rfl, hev, hlater⟩
    unfold looked at hev
    split at hev
    next userId hop =>
      have hhead := Option.some.inj hev
      cases hfails : ev.env.fails with
      | true =>
          -- nothing found, and so nothing stamped
          rw [hfails, if_pos rfl] at hhead
          rw [← hhead, hnone] at hfound
          exact absurd hfound.symm hfirst
      | false =>
          rw [hfails, if_neg Bool.false_ne_true] at hhead
          exact ⟨before, ev, later, userId, rfl, hop, hlater, hfails, by rw [hhead]; exact hfound⟩
    · cases hev
  · intro hfound
    rcases hfound with ⟨before, ev, later, userId, rfl, hop, hlater, hfails, hhead⟩
    have hev : looked ev = some (ev.before.organizationsOf userId).head? := by
      unfold looked
      rw [hop]
      dsimp only
      rw [hfails, if_neg Bool.false_ne_true]
    have hlast' : lastLooked (before ++ ev :: later) =
        some (ev.before.organizationsOf userId).head? := by
      have hsplit : before ++ ev :: later = (before ++ [ev]) ++ later := by simp
      unfold lastLooked
      rw [hsplit, List.filterMap_append, List.filterMap_eq_nil_iff.mpr hlater, List.append_nil]
      exact lastLooked_concat hev
    rw [← Option.some.inj (hlast'.symm.trans hlast)]
    exact hhead

end Last

/-! ## What the handlers stamp -/

/-- An insert carries what the last look-up found. -/
def Stamps (d : Deployment) (h : List Step) (op : Op) : Prop :=
  ∀ organizationId, op.stamp = some organizationId →
    ∃ found, lastLooked h = some found ∧
      d.storedOrganization organizationId = d.storedOrganization found

section Handlers

variable {d : Deployment} {α : Type} {h : List Step} {u : Uuid}

theorem stamps_of_unmarked {op : Op} (hop : op.Unmarked) : Stamps d h op := by
  intro organizationId hstamp
  rw [hop.1] at hstamp
  cases hstamp

theorem guarantees_of_unmarked {prog : Handler α} {R : α → Prop}
    (hp : prog.Performs (exec d) Op.Unmarked R) :
    prog.Guarantees (exec d) (Stamps d) (fun h' a => lastLooked h' = lastLooked h ∧ R a) h :=
  hp.guarantees (fun _ _ _ hop => stamps_of_unmarked hop)
    fun _ _ hevs ha => ⟨lastLooked_of_unmarked hevs, ha⟩

theorem stamps_of_lookup (userId : Auth.Key) :
    Stamps d h (.auth (.db (.userOrganizationIds userId))) := by
  intro organizationId hstamp
  cases hstamp

/-- The look-up itself. -/
theorem lookup_guarantees (userId : Auth.Key) :
    (lift (Auth.query (.userOrganizationIds userId))).Guarantees (exec d) (Stamps d)
      (fun h' lookup => lastLooked h' = some (match lookup with
        | .ok ids => ids.head?
        | .error _ => none)) h := by
  unfold lift Auth.query embed
  refine ⟨stamps_of_lookup userId, fun e s => ?_⟩
  show lastLooked _ = some _
  apply lastLooked_concat
  unfold looked
  dsimp only
  rw [exec_auth]
  cases hf : e.fails with
  | true =>
      rw [Auth.exec_db_of_fails s.auth hf]
      rfl
  | false =>
      rw [Auth.exec_db_of_succeeds s.auth hf]
      rfl

theorem primaryOrganizationId_guarantees (hkey : ∃ key, d.key u.text = some key) :
    (primaryOrganizationId d u).Guarantees (exec d) (Stamps d)
      (fun h' found => lastLooked h' = some found) h := by
  rcases hkey with ⟨key, hkey⟩
  unfold primaryOrganizationId userOrganizationIds
  rw [hkey]
  refine (lookup_guarantees key).bind fun h' lookup hlast => ?_
  cases lookup with
  | ok ids => exact hlast
  | error err => exact hlast

/-- The audit recorder looks up its actor. -/
theorem resolveOrganizationId_guarantees (hkey : ∃ key, d.key u.text = some key)
    {r : Audit.AuditRecorder} (hr : r.actorUserId = some u.text) :
    (lift (Auth.resolveOrganizationId d.toPlatform r)).Guarantees (exec d) (Stamps d)
      (fun h' found => lastLooked h' = some found) h := by
  rcases hkey with ⟨key, hkey⟩
  have hkey' : r.actorUserId.bind d.toPlatform.key = some key := by
    rw [hr, Option.bind_some]
    exact hkey
  unfold Auth.resolveOrganizationId
  rw [hkey']
  unfold lift
  rw [embed_bind]
  refine (lookup_guarantees key).bind fun h' lookup hlast => ?_
  cases lookup with
  | ok ids => exact hlast
  | error err => exact hlast

theorem save_guarantees (hkey : ∃ key, d.key u.text = some key) {r : Audit.AuditRecorder}
    (hr : r.actorUserId = some u.text) :
    (save d r).Guarantees (exec d) (Stamps d) (fun _ _ => True) h := by
  unfold save lift Auth.save
  rw [embed_bind]
  refine (resolveOrganizationId_guarantees hkey hr).bind fun h' found hlast => ?_
  refine ⟨fun organizationId hstamp => ⟨found, hlast, ?_⟩, fun _ _ => trivial⟩
  rw [← Option.some.inj hstamp]
  rfl

theorem lift_saveMandatory_stamps (hkey : ∃ key, d.key u.text = some key)
    {r : Audit.AuditRecorder} (hr : r.actorUserId = some u.text) :
    (lift (Auth.saveMandatory d.toPlatform r)).Guarantees (exec d) (Stamps d)
      (fun _ _ => True) h := by
  unfold lift Auth.saveMandatory
  rw [embed_bind]
  refine (resolveOrganizationId_guarantees hkey hr).bind fun h' found hlast => ?_
  refine ⟨fun organizationId hstamp => ⟨found, hlast, ?_⟩, fun e s => ?_⟩
  · rw [← Option.some.inj hstamp]
    rfl
  · cases (exec d (.auth (.db (.insertAuditEvent (r.toNewEvent found)))) e s).2 with
    | ok _ => trivial
    | error _ => trivial

theorem saveMandatory_stamps (hkey : ∃ key, d.key u.text = some key) (headers : Headers)
    {r : Audit.AuditRecorder} (hr : r.actorUserId = some u.text) (reply : Reply) :
    (saveMandatory d headers r reply).Guarantees (exec d) (Stamps d) (fun _ _ => True) h := by
  unfold saveMandatory
  refine (lift_saveMandatory_stamps hkey hr).bind fun h' stored _ => ?_
  cases stored with
  | ok _ => trivial
  | error _ => trivial

theorem Op.Draws.unmarked {op : Op} (hop : op.Draws) : op.Unmarked := by
  constructor
  · unfold Op.stamp
    split
    all_goals first | exact hop.elim | rfl
  · intro userId h
    rw [h] at hop
    exact hop

theorem Op.Finds.unmarked {op : Op} (hop : op.Finds) : op.Unmarked := by
  constructor
  · unfold Op.stamp
    split
    all_goals first | exact hop.elim | rfl
  · intro userId h
    rw [h] at hop
    exact hop

theorem unmarked_newId : (Op.auth .newId).Unmarked := ⟨rfl, fun _ h => nomatch h⟩

theorem unmarked_loadCandidateById (id : Auth.Key) : (Op.db (.loadCandidateById id)).Unmarked :=
  ⟨rfl, fun _ h => nomatch h⟩

theorem unmarked_findSearchById (id : Uuid) : (Op.db (.findSearchById id)).Unmarked :=
  ⟨rfl, fun _ h => nomatch h⟩

theorem actingName_unmarked (claims : Auth.Claims) :
    (actingName d claims).Performs (exec d) Op.Unmarked fun _ => True := by
  refine ((loadUserById_finds _).weaken fun _ hop => hop.unmarked).bind fun r _ => ?_
  split <;> trivial

/-- The row is inserted with the owner it is handed. -/
theorem createCandidate_stamps (referenceCode fullName : String) (notes : Option String)
    {found : Option String} (hlast : lastLooked h = some found) :
    (createCandidate d referenceCode fullName notes found).Guarantees (exec d) (Stamps d)
      (fun _ _ => True) h := by
  unfold createCandidate
  refine guarantees_perform (stamps_of_unmarked unmarked_newId) fun e s => ?_
  have hlast' : ∀ ev : Step, ev.op = .auth .newId → lastLooked (h ++ [ev]) = some found := by
    intro ev hev
    rw [lastLooked_of_unmarked (by simpa [hev] using unmarked_newId)]
    exact hlast
  cases hbackend : d.backend with
  | postgres =>
      refine guarantees_query (fun organizationId hstamp => ?_) fun e s => ?_
      · refine ⟨found, hlast' _ rfl, ?_⟩
        rw [← Option.some.inj hstamp, ← storedOrganization_idem d found]
        unfold Deployment.storedOrganization
        rw [hbackend]
      · split <;> trivial
  | sqlite =>
      refine guarantees_query (fun organizationId hstamp => ?_) fun e s => ?_
      · exact ⟨found, hlast' _ rfl, by rw [← Option.some.inj hstamp]⟩
      · split
        · trivial
        · refine guarantees_query (stamps_of_unmarked (unmarked_loadCandidateById _)) fun e s => ?_
          split <;> trivial

theorem createQueuedSearch_stamps (search : NewSearch)
    (hlast : lastLooked h = some search.organizationId) :
    (createQueuedSearch d search).Guarantees (exec d) (Stamps d) (fun _ _ => True) h := by
  unfold createQueuedSearch
  refine guarantees_perform (stamps_of_unmarked unmarked_newId) fun e s => ?_
  have hlast' : ∀ ev : Step, ev.op = .auth .newId →
      lastLooked (h ++ [ev]) = some search.organizationId := by
    intro ev hev
    rw [lastLooked_of_unmarked (by simpa [hev] using unmarked_newId)]
    exact hlast
  cases hbackend : d.backend with
  | postgres =>
      refine ⟨fun organizationId hstamp => ?_, fun e s => trivial⟩
      refine ⟨search.organizationId, hlast' _ rfl, ?_⟩
      rw [← Option.some.inj hstamp, ← storedOrganization_idem d search.organizationId]
      unfold Deployment.storedOrganization
      rw [hbackend]
  | sqlite =>
      refine guarantees_query (fun organizationId hstamp => ?_) fun e s => ?_
      · exact ⟨search.organizationId, hlast' _ rfl, by rw [← Option.some.inj hstamp]⟩
      · split
        · trivial
        · refine guarantees_query (stamps_of_unmarked (unmarked_findSearchById _)) fun e s => ?_
          split <;> trivial

/-- A route of a signed-in user, as a whole. -/
theorem signedIn_stamps {headers : Headers} {policy : Policy} {route : Auth.Claims → Handler Reply}
    (hroute : ∀ claims, headers.bearer = some claims.id → ∀ h,
      (route claims).Guarantees (exec d) (Stamps d) (fun _ _ => True) h) :
    (signedIn headers policy route).Guarantees (exec d) (Stamps d) (fun _ _ => True) h := by
  unfold signedIn
  refine (guarantees_of_unmarked ((authUserFromHeaders_draws headers).weaken
    fun _ hop => hop.unmarked)).bind fun h' claims hclaims => ?_
  cases claims with
  | none => trivial
  | some claims =>
      dsimp only
      split_ifs
      · exact hroute claims (hclaims.2 claims rfl) h'
      · trivial

theorem createCandidateRoute_stamps {headers : Headers} (hu : headers.bearer = some u)
    (hkey : ∃ key, d.key u.text = some key) (payload : CreateCandidatePayload) :
    (createCandidateRoute d headers payload).Guarantees (exec d) (Stamps d) (fun _ _ => True) h := by
  unfold createCandidateRoute
  refine signedIn_stamps fun claims hclaims h' => ?_
  have hid : claims.id = u := Option.some.inj (hclaims.symm.trans hu)
  dsimp only
  split_ifs
  · trivial
  · refine (primaryOrganizationId_guarantees (hid ▸ hkey)).bind fun h₁ found hlast => ?_
    refine (createCandidate_stamps _ _ _ hlast).bind fun h₂ created _ => ?_
    cases created with
    | ok candidate => exact saveMandatory_stamps hkey headers (congrArg some (congrArg _ hid)) _
    | error _ => trivial

theorem createSearch_stamps {headers : Headers} (hu : headers.bearer = some u)
    (hkey : ∃ key, d.key u.text = some key) (form : Option SearchForm) :
    (createSearch d headers form).Guarantees (exec d) (Stamps d) (fun _ _ => True) h := by
  unfold createSearch
  refine signedIn_stamps fun claims hclaims h' => ?_
  have hid : claims.id = u := Option.some.inj (hclaims.symm.trans hu)
  have hactor : some claims.id.text = some u.text := congrArg some (congrArg _ hid)
  split
  · trivial
  · dsimp only
    split
    · trivial
    · split
      · trivial
      · split_ifs
        · trivial
        · trivial
        · unfold queueSearch
          refine (guarantees_of_unmarked (actingName_unmarked claims)).bind fun h₁ name _ => ?_
          refine (primaryOrganizationId_guarantees (hid ▸ hkey)).bind fun h₂ found hlast => ?_
          refine (createQueuedSearch_stamps _ hlast).bind fun h₃ queued _ => ?_
          cases queued with
          | ok row => exact (save_guarantees hkey hactor).bind fun _ _ _ => trivial
          | error _ => exact (save_guarantees hkey hactor).bind fun _ _ _ => trivial

end Handlers

/-! ## The owner of a new row -/

/-- An inserted row belongs to the organization `first` exactly if the last look-up
succeeded and returned that one first. -/
def StampedBy (d : Deployment) (first : Option String) (h : List Step) (op : Op) : Prop :=
  ∀ stamp, op.stamp = some stamp → (d.storedOrganization stamp = first ↔ FoundFirst d first h)

theorem Stamps.stampedBy {d : Deployment} {first : Option String} (hfirst : first ≠ none)
    {h : List Step} {op : Op} (hop : Stamps d h op) : StampedBy d first h op := by
  intro stamp hstamp
  rcases hop stamp hstamp with ⟨found, hlast, heq⟩
  rw [heq]
  exact foundFirst_iff hfirst hlast

/-- **Owners.** Whatever else happens meanwhile, a candidate, a search or an audit
event that a member creates is stored for the organization of the first membership
exactly if the look-up before the insert succeeded and the database returned that
membership first. -/
theorem owner_stamped (d : Deployment) (u : Uuid) (hkey : ∃ key, d.key u.text = some key)
    (memberships : List Membership) (hmember : ∃ m ∈ memberships, m.userId = u) :
    (∀ headers payload, headers.bearer = some u →
      (createCandidateRoute d headers payload).Guarantees (exec d)
        (StampedBy d (firstOrganization memberships u)) (fun _ _ => True) []) ∧
    (∀ headers form, headers.bearer = some u →
      (createSearch d headers form).Guarantees (exec d)
        (StampedBy d (firstOrganization memberships u)) (fun _ _ => True) []) ∧
    ∀ r : Audit.AuditRecorder, r.actorUserId = some u.text →
      (save d r).Guarantees (exec d)
        (StampedBy d (firstOrganization memberships u)) (fun _ _ => True) [] ∧
      ∀ headers reply, (saveMandatory d headers r reply).Guarantees (exec d)
        (StampedBy d (firstOrganization memberships u)) (fun _ _ => True) [] := by
  have hfirst := firstOrganization_ne_none hmember
  have hweaken : ∀ {α : Type} {prog : Handler α},
      prog.Guarantees (exec d) (Stamps d) (fun _ _ => True) [] →
      prog.Guarantees (exec d) (StampedBy d (firstOrganization memberships u))
        (fun _ _ => True) [] :=
    fun hprog => hprog.mono (fun _ _ hop => hop.stampedBy hfirst) fun _ _ h => h
  refine ⟨fun headers payload hbearer => ?_, fun headers form hbearer => ?_, fun r hr => ⟨?_, ?_⟩⟩
  · exact hweaken (createCandidateRoute_stamps hbearer hkey payload)
  · exact hweaken (createSearch_stamps hbearer hkey form)
  · exact hweaken (save_guarantees hkey hr)
  · exact fun headers reply => hweaken (saveMandatory_stamps hkey headers hr reply)

/-- A member of two organizations. -/
def sampleMemberships : List Membership := [⟨1, Uuid.text 0xa, 10⟩, ⟨1, Uuid.text 0xb, 20⟩]

theorem owner_stamped_sample :
    (∀ headers payload, headers.bearer = some 1 →
      (createCandidateRoute (sampleDeployment .postgres) headers payload).Guarantees
        (exec (sampleDeployment .postgres))
        (StampedBy (sampleDeployment .postgres) (firstOrganization sampleMemberships 1))
        (fun _ _ => True) []) ∧
    (∀ headers form, headers.bearer = some 1 →
      (createSearch (sampleDeployment .postgres) headers form).Guarantees
        (exec (sampleDeployment .postgres))
        (StampedBy (sampleDeployment .postgres) (firstOrganization sampleMemberships 1))
        (fun _ _ => True) []) ∧
    ∀ r : Audit.AuditRecorder, r.actorUserId = some (Uuid.text 1) →
      (save (sampleDeployment .postgres) r).Guarantees (exec (sampleDeployment .postgres))
        (StampedBy (sampleDeployment .postgres) (firstOrganization sampleMemberships 1))
        (fun _ _ => True) [] ∧
      ∀ headers reply, (saveMandatory (sampleDeployment .postgres) headers r reply).Guarantees
        (exec (sampleDeployment .postgres))
        (StampedBy (sampleDeployment .postgres) (firstOrganization sampleMemberships 1))
        (fun _ _ => True) [] := by
  have hkey : (sampleDeployment .postgres).key (Uuid.text 1) = some (.uuid 1) := by decide +kernel
  exact owner_stamped (sampleDeployment .postgres) 1 ⟨_, hkey⟩ sampleMemberships
    ⟨_, List.mem_cons_self .., rfl⟩

/-- The same member, the later membership returned first. -/
def sampleMember : Database :=
  { sampleDatabase with auth := { sampleDatabase.auth with
      memberships := [(1, Uuid.text 0xb), (1, Uuid.text 0xa)] } }

/-- The candidates after the member has created one. -/
def sampleCreation (ω : Nat → Auth.Env) : List CandidateRow :=
  ((createCandidateRoute (sampleDeployment .sqlite) (sampleBearer Auth.sampleUser)
    ⟨"C-2", "Ada Demir", none⟩).run (exec (sampleDeployment .sqlite)) ω sampleMember).2.candidates

/-- No `ORDER BY`: the owner is the later organization. And where the look-up fails
there is none. -/
theorem owner_lost :
    sampleMember.auth.memberships.Perm
        (sampleMemberships.map fun m => (m.userId, m.organizationId)) ∧
      firstOrganization sampleMemberships 1 = some (Uuid.text 0xa) ∧
      (sampleCreation (Auth.steadily sampleNow 0)).map (·.organizationId) =
        [none, some (Uuid.text 0xb)] ∧
      (sampleCreation (Function.update (Auth.steadily sampleNow 0) 1
        ⟨sampleNow, sampleNow, 0, true⟩)).map (·.organizationId) = [none, none] := by
  refine ⟨List.Perm.swap _ _ _, ?_, ?_, ?_⟩
  · decide +kernel
  · decide +kernel
  · decide +kernel

end AnatoliaBis.App
