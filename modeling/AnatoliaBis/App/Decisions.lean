import AnatoliaBis.App.FourEyes
import AnatoliaBis.App.PasswordChange
import AnatoliaBis.App.StaleAccess
import AnatoliaBis.Auth.Issued

/-! # Decisions on registrations

An approval and a rejection, by an administrator or by a mailed link, look at no more of
the account than its id. Whether they come in time, before the account has been decided
on, is what keeps a row that searches and verification events refer to.
-/

namespace AnatoliaBis.App

open Atomic Program
open Auth (Env Headers Key)

/-! ## Accounts that are decided on -/

namespace Database

/-- The account has a row. -/
def HasRow (s : Database) (u : Uuid) : Prop := ∃ row ∈ s.auth.users, row.id = u

/-- The account is approved. -/
def Approved (s : Database) (u : Uuid) : Prop :=
  ∃ row ∈ s.auth.users, row.id = u ∧ row.isApproved = true

/-- The account is banned, or in a role other than that of an applicant. -/
def Placed (s : Database) (u : Uuid) : Prop :=
  ∃ row ∈ s.auth.users, row.id = u ∧ (row.isBanned = true ∨ row.role ≠ Role.pending)

/-- Whoever asked for a search or reviewed a match. -/
def RefersTo (s : Database) (u : Uuid) : Prop :=
  (∃ search ∈ s.searches, search.requestedBy = u) ∨
    ∃ event ∈ s.verificationEvents, event.reviewerUserId = u

instance (s : Database) (u : Uuid) : Decidable (s.HasRow u) :=
  inferInstanceAs (Decidable (∃ row ∈ s.auth.users, row.id = u))

instance (s : Database) (u : Uuid) : Decidable (s.Approved u) :=
  inferInstanceAs (Decidable (∃ row ∈ s.auth.users, row.id = u ∧ row.isApproved = true))

instance (s : Database) (u : Uuid) : Decidable (s.Placed u) :=
  inferInstanceAs (Decidable (∃ row ∈ s.auth.users, row.id = u ∧
    (row.isBanned = true ∨ row.role ≠ Role.pending)))

instance (s : Database) (u : Uuid) : Decidable (s.RefersTo u) :=
  inferInstanceAs (Decidable ((∃ search ∈ s.searches, search.requestedBy = u) ∨
    ∃ event ∈ s.verificationEvents, event.reviewerUserId = u))

/-- The row of the account, all its columns. -/
structure SameRow (u : Uuid) (s s' : Database) : Prop where
  users : s'.auth.users.filter (fun row => row.id == u) =
    s.auth.users.filter fun row => row.id == u
  details : s'.details u = s.details u
  trackingTokens : s'.trackingTokens u = s.trackingTokens u

end Database

/-- The access token in a body. -/
def Body.accessClaims : Body → Option Auth.Claims
  | .auth (.session (.access claims) _ _) => some claims
  | _ => none

/-- The account that a decision is about. -/
def Request.Decides (d : Deployment) : Request → Uuid → Prop
  | .approveUser _ id, u | .rejectUser _ id, u => d.Names id u
  | .quickApprove _ token, u | .quickReject _ token, u =>
      ∃ claims, token = .approval claims ∧ d.Names claims.userId.text u
  | _, _ => False

/-- The link is one for a registration, unused, and in time at both instants at which the
clock is read. -/
def Deployment.Redeemable (d : Deployment) (s : Database) (now now' : Timestamp)
    (token : LinkToken) : Prop :=
  ∃ claims row, token = .approval claims ∧ Auth.Unexpired claims.exp now ∧
    claims.purpose = approvalPurpose ∧
    (s.approvalTokens.find? fun row => row.tokenHash == d.sha256Hex (d.linkText token)) =
      some row ∧
    row.userId = claims.userId ∧ ¬ row.expiresAt < now' ∧ row.consumedAt = none

/-- A decision that is let through to the account. -/
def Request.Passes (d : Deployment) (s : Database) (ω : Nat → Env) : Request → Prop
  | .approveUser headers _ | .rejectUser headers _ =>
      ∃ claims, headers.authorization = some (.access claims) ∧
        Auth.Unexpired claims.exp (ω 0).now ∧ Policy.administerUsers.allows claims.role = true
  | .quickApprove _ token | .quickReject _ token =>
      d.Redeemable s (ω 0).now (ω 2).now token
  | _ => False

/-- The headers of a request that leaves a reference to the account of its token. -/
def Traffic.authored : Traffic → Option Headers
  | .app (.review headers ..) | .app (.createSearch headers _) => some headers
  | _ => none

section Runs

variable (d : Deployment) (s₀ : Database) (run : List (Visit Traffic Env))

/-- The account was approved in some state of the run. -/
def ApprovedOnce (u : Uuid) : Prop :=
  ∃ earlier later, run = earlier ++ later ∧ (d.after s₀ earlier).Approved u

/-- By the end of the run the account has been decided on: approved once, banned, or given
another role than `pending`. -/
def Decided (u : Uuid) : Prop := ApprovedOnce d s₀ run u ∨ (d.after s₀ run).Placed u

/-- Authentication handed the access token out during the run. -/
def HandedOut (claims : Auth.Claims) : Prop :=
  ∃ s request ω, Visits (exec d) (Traffic.handle d) s₀ run s ⟨.app (.auth request), ω⟩ ∧
    ∃ reply ∈ ((handle d (.auth request)).run (exec d) ω s).1,
      reply.body.accessClaims = some claims

/-- Next after the run comes no decision that is let through to an account decided on
already. -/
def InTime (v : Visit Traffic Env) : Prop :=
  ∀ request, v.request = .app request → request.Passes d (d.after s₀ run) v.env →
    ∀ u, request.Decides d u → ¬ Decided d s₀ run u

end Runs

/-! ## What a statement does to the row of an account -/

section Statements

variable {d : Deployment} {s s' s'' : Database} {u : Uuid} {key : Key}
  {f : Auth.UserRow → Auth.UserRow} {g : UserDetails → UserDetails}

namespace Database

theorem SameRow.refl (s : Database) : SameRow u s s := ⟨rfl, rfl, rfl⟩

theorem SameRow.trans (h : SameRow u s s') (h' : SameRow u s' s'') : SameRow u s s'' :=
  ⟨h'.users.trans h.users, h'.details.trans h.details, h'.trackingTokens.trans h.trackingTokens⟩

theorem hasRow_iff : s.HasRow u ↔ s.auth.users.filter (fun row => row.id == u) ≠ [] := by
  simp [HasRow, List.filter_eq_nil_iff]

theorem SameRow.hasRow (h : SameRow u s s') (hs : s.HasRow u) : s'.HasRow u := by
  rw [hasRow_iff] at hs ⊢
  rwa [h.users]

/-- Rows of other ids are written. -/
theorem sameRow_updateUser (hid : ∀ row, (f row).id = row.id) (hkey : key.isId u = false) :
    SameRow u s (s.updateUser key f g) := by
  refine ⟨?_, ?_, rfl⟩
  · have hcond : ((fun row : Auth.UserRow => row.id == u) ∘
        fun row => if key.isId row.id then f row else row) = fun row => row.id == u := by
      funext row
      dsimp only [Function.comp_apply]
      split_ifs
      · rw [hid]
      · rfl
    unfold updateUser
    dsimp only
    rw [List.filter_map, hcond]
    refine (List.map_congr_left fun row hrow => ?_).trans (List.map_id _)
    rw [List.mem_filter, beq_iff_eq] at hrow
    rw [hrow.2, hkey]
    rfl
  · unfold updateUser
    dsimp only
    rw [hkey]
    rfl

theorem hasRow_updateUser (hid : ∀ row, (f row).id = row.id) (hs : s.HasRow u) :
    (s.updateUser key f g).HasRow u := by
  rcases hs with ⟨row, hrow, rfl⟩
  refine ⟨_, List.mem_map_of_mem hrow, ?_⟩
  split_ifs
  · exact hid row
  · rfl

end Database

open Database

theorem sameRow_own {op : Op} (hop : op.Own) : op.KeptBy d (SameRow u) := by
  intro e s
  cases op with
  | auth c => exact ⟨congrArg _ (Auth.exec_users c), rfl, rfl⟩
  | db q =>
      apply exec_db_store (I := SameRow u s) (.refl s)
      intro _ _
      cases q with
      | createUser | setRegistrationTrackingToken | updateUserFlags | updateUserProfile
      | updateUserPassword | deleteUser | softDeleteUser | createQueuedSearch
      | recordReviewDecision => exact hop.elim
      | _ => exact ⟨rfl, rfl, rfl⟩
  | _ => exact ⟨rfl, rfl, rfl⟩

theorem kept_sameRow : Kept d (SameRow u) where
  refl := .refl
  trans h h' := h.trans h'
  own _ := sameRow_own

/-- A statement of a decision on another account. -/
theorem sameRow_updateUserFlags (hkey : key.isId u = false) (isApproved isBanned : Bool)
    (banReason : Option String) (role : String) :
    (Op.db (.updateUserFlags key isApproved isBanned banReason role)).KeptBy d (SameRow u) := by
  intro e s
  apply exec_db_store (I := SameRow u s) (.refl s)
  intro _ _
  show SameRow u s (s.updateUser key
    (fun row => { row with isApproved := isApproved, isBanned := isBanned, role := role })
    fun details => { details with banReason := banReason })
  exact sameRow_updateUser (fun _ => rfl) hkey

theorem sameRow_deleteUser (hkey : key.isId u = false) :
    (Op.db (.deleteUser key)).KeptBy d (SameRow u) := by
  intro e s
  apply exec_db_store (I := SameRow u s) (.refl s)
  refine fun _ _ => ⟨?_, rfl, rfl⟩
  show (s.auth.users.filter fun row => !key.isId row.id).filter (fun row => row.id == u) = _
  rw [List.filter_filter]
  refine List.filter_congr fun row _ => ?_
  cases hid : row.id == u with
  | true => rw [beq_iff_eq.mp hid, hkey]; rfl
  | false => rfl

/-- A relation of which only this much is known: the account goes on having a row. -/
def KeepsRow (u : Uuid) (s s' : Database) : Prop := s.HasRow u → s'.HasRow u

theorem kept_keepsRow : Kept d (KeepsRow u) where
  refl _ h := h
  trans h h' hs := h' (h hs)
  own _ hop e s := (sameRow_own hop e s).hasRow

/-- Only a deletion takes a row away. -/
theorem keepsRow_exec {op : Op} (hop : ∀ key, op = .db (.deleteUser key) → key.isId u = false) :
    op.KeptBy d (KeepsRow u) := by
  intro e s hs
  by_cases hw : op.WritesAccounts
  · cases op with
    | db q =>
        apply exec_db_store (I := fun s' => s'.HasRow u) hs
        intro _ _
        cases q with
        | createUser user =>
            rcases hs with ⟨row, hrow, hid⟩
            exact ⟨row, List.mem_append_left _ hrow, hid⟩
        | updateUserFlags key isApproved isBanned banReason role =>
            exact hasRow_updateUser (fun _ => rfl) hs
        | updateUserProfile key firstName email encrypted lookupHash passwordHash =>
            exact hasRow_updateUser (fun _ => rfl) hs
        | updateUserPassword key passwordHash => exact hasRow_updateUser (fun _ => rfl) hs
        | softDeleteUser key =>
            refine hasRow_updateUser (fun row => ?_) hs
            split_ifs <;> rfl
        | deleteUser key =>
            rcases hs with ⟨row, hrow, hid⟩
            refine ⟨row, List.mem_filter.mpr ⟨hrow, ?_⟩, hid⟩
            rw [hid, hop key rfl]
            rfl
        | _ => exact hw.elim
    | _ => exact hw.elim
  · unfold HasRow
    rw [(accounts_exec hw e s).1]
    exact hs

/-- New references are to accounts with `P`. -/
def AddsReferences (P : Uuid → Prop) (s s' : Database) : Prop :=
  ∀ u, s'.RefersTo u → s.RefersTo u ∨ P u

theorem addsReferences_of_same {P : Uuid → Prop} (hsearches : s'.searches = s.searches)
    (hevents : s'.verificationEvents = s.verificationEvents) : AddsReferences P s s' := by
  intro u hu
  unfold RefersTo at hu ⊢
  rw [hsearches, hevents] at hu
  exact Or.inl hu

/-- The account under which an operation records a search or a decision. -/
def Op.author : Op → Option Uuid
  | .db (.createQueuedSearch _ search) => some search.requestedBy
  | .db (.recordReviewDecision entry) => some entry.reviewedBy
  | _ => none

theorem addsReferences_exec {P : Uuid → Prop} {op : Op} (hop : ∀ u, op.author = some u → P u) :
    op.KeptBy d (AddsReferences P) := by
  intro e s
  cases op with
  | db q =>
      apply exec_db_store (I := AddsReferences P s) (addsReferences_of_same rfl rfl)
      intro _ _
      cases q with
      | createQueuedSearch id search =>
          rintro u (⟨found, hfound, rfl⟩ | hevent)
          · rcases List.mem_append.mp hfound with hfound | hfound
            · exact Or.inl (Or.inl ⟨found, hfound, rfl⟩)
            · rw [List.mem_singleton.mp hfound]
              exact Or.inr (hop _ rfl)
          · exact Or.inl (Or.inr hevent)
      | recordReviewDecision entry =>
          show AddsReferences P s (s.record (d.now e.now) entry).1
          rcases record_cases s (d.now e.now) entry with
            ⟨-, h⟩ | ⟨current, -, -, h⟩ | ⟨current, status, -, -, h⟩
          · rw [h]
            exact addsReferences_of_same rfl rfl
          · rw [h]
            exact addsReferences_of_same rfl rfl
          · rw [h]
            rintro u (hsearch' | ⟨event, hevent, rfl⟩)
            · exact Or.inl (Or.inl hsearch')
            · rcases List.mem_append.mp hevent with hevent | hevent
              · exact Or.inl (Or.inr ⟨event, hevent, rfl⟩)
              · rw [List.mem_singleton.mp hevent]
                exact Or.inr (hop _ rfl)
      | _ => exact addsReferences_of_same rfl rfl
  | _ => exact addsReferences_of_same rfl rfl

theorem kept_addsReferences {P : Uuid → Prop} : Kept d (AddsReferences P) where
  refl _ _ := Or.inl
  trans h h' u hu := (h' u hu).elim (h u) Or.inr
  own op hop := addsReferences_exec fun u hu => by
    unfold Op.author at hu
    split at hu
    · exact hop.elim
    · exact hop.elim
    · cases hu

end Statements

/-! ## Requests -/

/-- The four routes. -/
def Request.IsDecision : Request → Prop
  | .approveUser .. | .rejectUser .. | .quickApprove .. | .quickReject .. => True
  | _ => False

section Requests

open Database

variable {d : Deployment} {s : Database} {u : Uuid} {id : String} {key : Key} {ω : Nat → Env}
  {request : Request}

theorem isId_of_not_names (hkey : d.key id = some key) (hu : ¬ d.Names id u) :
    key.isId u = false := by
  rw [← Bool.not_eq_true]
  exact fun hid => hu ⟨key, hkey, hid⟩

/-- A decision writes no other account than the one it is about. -/
theorem decision_spares (hdecision : request.IsDecision) (hu : ¬ request.Decides d u) :
    (handle d request).Keeps (exec d) (SameRow u) := by
  apply handle_keeps kept_sameRow
  · rintro r rfl
    exact hdecision.elim
  · intro id flags hflags
    apply updateUserFlags_keeps kept_sameRow
    intro key isApproved isBanned banReason role hkey
    refine sameRow_updateUserFlags (isId_of_not_names hkey fun hname => hu ?_) _ _ _ _
    unfold Request.Flags at hflags
    split at hflags
    · rcases hflags with ⟨rfl, -⟩
      exact hname
    · rcases hflags with ⟨⟨claims, htoken, rfl⟩, -⟩
      exact ⟨claims, htoken, hname⟩
    · exact hdecision.elim
    · exact hdecision.elim
    · exact hdecision.elim
    · exact hflags.elim
  · intro user hinserts
    unfold Request.Inserts at hinserts
    split at hinserts
    · exact hdecision.elim
    · exact hdecision.elim
    · exact hinserts.elim
  · intro op hop
    unfold Request.Writes at hop
    split at hop
    all_goals try exact hdecision.elim
    · exact sameRow_deleteUser (isId_of_not_names hop hu)
    next headers token key =>
      rcases hop with ⟨claims, htoken, hkey⟩
      exact sameRow_deleteUser (isId_of_not_names hkey fun hname => hu ⟨claims, htoken, hname⟩)
    · exact hop.elim

theorem run_perform_bind {α : Type} (op : Op) (f : op.Res → Handler α) :
    (perform op >>= f).run (exec d) ω s =
      (f (exec d op (ω 0) s).2).run (exec d) (fun n => ω (n + 1)) (exec d op (ω 0) s).1 := rfl

theorem run_query_bind {α : Type} (q : Query) (f : Except QueryError q.Res → Handler α) :
    (query q >>= f).run (exec d) ω s =
      (f (exec d (.db q) (ω 0) s).2).run (exec d) (fun n => ω (n + 1))
        (exec d (.db q) (ω 0) s).1 := rfl

/-- Only a link that is redeemable is consumed. -/
theorem redeemable_of_consumed {token : LinkToken} {result : String}
    (h : ((consumeApprovalToken d token result).run (exec d) ω s).1 = some u) :
    d.Redeemable s (ω 0).now (ω 2).now token := by
  unfold consumeApprovalToken at h
  rw [run_perform_bind] at h
  have hclock : exec d (.auth .utcNow) (ω 0) s = (s, (ω 0).now) := rfl
  rw [hclock] at h
  dsimp only at h
  split at h
  · cases h
  next claims hclaims =>
    rw [run_query_bind] at h
    cases hf : (ω 1).fails with
    | true =>
        rw [exec_db_of_fails hf] at h
        cases h
    | false =>
        rw [exec_db_of_succeeds hf rfl] at h
        dsimp only [Query.perform] at h
        split at h
        next row hfound =>
          split_ifs at h with huser
          · rw [run_perform_bind] at h
            have hclock' : exec d (.auth .utcNow) (ω 2) s = (s, (ω 2).now) := rfl
            rw [hclock'] at h
            dsimp only at h
            split_ifs at h with hspent
            · cases h
            · rw [not_or] at hspent
              rcases claims_of_taken hclaims with ⟨htoken, hexp, hpurpose⟩
              exact ⟨claims, row, htoken, hexp, hpurpose, Except.ok.inj hfound,
                beq_iff_eq.mp huser, hspent.1, by simpa using hspent.2⟩
          · cases h
        · cases h

/-- A link that is not redeemable opens nothing. -/
theorem sameRow_of_unredeemable {token : LinkToken} {result : String}
    {f : Option Uuid → Handler Reply} {reply : Reply} (hnone : f none = .done reply)
    (h : ¬ d.Redeemable s (ω 0).now (ω 2).now token) :
    SameRow u s ((consumeApprovalToken d token result >>= f).run (exec d) ω s).2 := by
  have hsame : (consumeApprovalToken d token result).Keeps (exec d) (SameRow u) :=
    kept_sameRow.performs (consumeApprovalToken_own token result) fun _ hop => hop
  rw [run_bind]
  cases hconsumed : ((consumeApprovalToken d token result).run (exec d) ω s).1 with
  | none =>
      rw [hnone]
      exact hsame ω s
  | some u => exact absurd (redeemable_of_consumed hconsumed) h

/-- A decision that is not let through writes no account. -/
theorem refused_spares (hdecision : request.IsDecision) (h : ¬ request.Passes d s ω) :
    SameRow u s ((handle d request).run (exec d) ω s).2 := by
  cases request with
  | approveUser headers id =>
      unfold handle approveUser
      rw [run_map, run_adminOnly_of_refused h]
      exact .refl s
  | rejectUser headers id =>
      unfold handle rejectUser
      rw [run_map, run_adminOnly_of_refused h]
      exact .refl s
  | quickApprove headers token =>
      unfold handle quickApprove
      rw [run_map]
      exact sameRow_of_unredeemable rfl h
  | quickReject headers token =>
      unfold handle quickReject
      rw [run_map]
      exact sameRow_of_unredeemable rfl h
  | _ => exact hdecision.elim

/-- The row of an account that no decision let through is about. -/
theorem sameRow_handle (hdecision : request.IsDecision)
    (hu : request.Passes d s ω → ¬ request.Decides d u) :
    SameRow u s ((handle d request).run (exec d) ω s).2 := by
  by_cases hpasses : request.Passes d s ω
  · exact decision_spares hdecision (hu hpasses) ω s
  · exact refused_spares hdecision hpasses

/-- Only decisions delete a row. -/
theorem isDecision_of_writes {op : Op} (h : request.Writes d op)
    (hop : op = .db (.deleteUser key)) : request.IsDecision := by
  unfold Request.Writes at h
  split at h
  all_goals first | trivial | cases hop

/-- No other request takes a row away. -/
theorem undecided_keepsRow (hdecision : ¬ request.IsDecision) :
    (handle d request).Keeps (exec d) (KeepsRow u) := by
  apply handle_keeps kept_keepsRow
  · rintro r - ω s hs
    unfold lift
    rw [(authPart d).run_embed]
    unfold HasRow at hs ⊢
    rw [← Auth.run_users (Auth.handle d.toPlatform r) ω s.auth] at hs
    exact hs
  · intro id flags _
    apply updateUserFlags_keeps kept_keepsRow
    exact fun key isApproved isBanned banReason role _ => keepsRow_exec nofun
  · intro user _
    exact createUser_keeps kept_keepsRow fun v => keepsRow_exec nofun
  · exact fun op hop => keepsRow_exec fun key hkey =>
      absurd (isDecision_of_writes hop hkey) hdecision

theorem authored_of_writes {op : Op} (h : request.Writes d op) (hop : op.author = some u) :
    ∃ headers ∈ (Traffic.app request).authored, headers.bearer = some u := by
  unfold Request.Writes at h
  split at h
  all_goals try cases hop
  · exact ⟨_, rfl, h⟩
  · exact ⟨_, rfl, h⟩
  · exact h.elim

/-- A request refers to the account of its own token. -/
theorem handle_addsReferences :
    (handle d request).Keeps (exec d) (AddsReferences fun u =>
      ∃ headers ∈ (Traffic.app request).authored, headers.bearer = some u) := by
  apply handle_keeps kept_addsReferences
  · rintro r - ω s
    unfold lift
    rw [(authPart d).run_embed]
    exact addsReferences_of_same rfl rfl
  · intro id flags _
    apply updateUserFlags_keeps kept_addsReferences
    exact fun key isApproved isBanned banReason role _ => addsReferences_exec nofun
  · intro user _
    exact createUser_keeps kept_addsReferences fun v => addsReferences_exec nofun
  · exact fun op hop => addsReferences_exec fun u hu => authored_of_writes hop hu

/-- An access token is handed out to approved accounts only. -/
theorem approved_of_handed {request : Auth.Request} {claims : Auth.Claims}
    (h : ∃ reply ∈ ((handle d (.auth request)).run (exec d) ω s).1,
      reply.body.accessClaims = some claims) : s.Approved claims.id := by
  rcases h with ⟨reply, hreply, hclaims⟩
  rw [run_auth] at hreply
  rcases Option.map_eq_some_iff.mp hreply with ⟨response, hresponse, rfl⟩
  have hvouched := Auth.handle_vouched d.toPlatform s.auth.users request ω s.auth rfl response
    hresponse
  cases hbody : response.body with
  | session token user codes =>
      rw [hbody] at hvouched
      rcases hvouched with ⟨claims', row, rfl, ⟨⟨hcurrent, happroved⟩, -⟩, hid, -⟩
      have hsame : claims' = claims := by
        simpa [Reply.ofResponse, hbody, Body.accessClaims] using hclaims
      exact ⟨row, hcurrent.1, by rw [← hid, hsame], happroved⟩
  | _ => simp [Reply.ofResponse, hbody, Body.accessClaims] at hclaims

end Requests

/-! ## Runs -/

section Run

open Database

variable {d : Deployment} {s₀ : Database} {run : List (Visit Traffic Env)} {v : Visit Traffic Env}
  {u : Uuid}

theorem after_concat : d.after s₀ (run ++ [v]) =
    v.after (exec d) (Traffic.handle d) (d.after s₀ run) := by
  unfold Deployment.after
  rw [stateAfter_append]
  rfl

theorem InTime.keepsRow (h : InTime d s₀ run v) (hu : Decided d s₀ run u) :
    KeepsRow u (d.after s₀ run) (d.after s₀ (run ++ [v])) := by
  rw [after_concat]
  rcases v with ⟨request, ω⟩
  cases request with
  | app request =>
      by_cases hdecision : request.IsDecision
      · exact (sameRow_handle hdecision fun hpasses hdecides =>
          h request rfl hpasses u hdecides hu).hasRow
      · exact undecided_keepsRow hdecision ω _
  | forgotPassword headers identifier =>
      unfold Visit.after Traffic.handle
      rw [run_map]
      exact forgotPassword_keeps kept_keepsRow identifier ω _

theorem addsReferences_visit : AddsReferences (fun u =>
    ∃ headers ∈ v.request.authored, headers.bearer = some u) (d.after s₀ run)
      (d.after s₀ (run ++ [v])) := by
  rw [after_concat]
  rcases v with ⟨request, ω⟩
  cases request with
  | app request => exact handle_addsReferences ω _
  | forgotPassword headers identifier =>
      unfold Visit.after Traffic.handle
      rw [run_map]
      exact forgotPassword_keeps kept_addsReferences identifier ω _

theorem ApprovedOnce.concat (h : ApprovedOnce d s₀ run u) :
    ApprovedOnce d s₀ (run ++ [v]) u := by
  rcases h with ⟨earlier, later, rfl, happroved⟩
  exact ⟨earlier, later ++ [v], List.append_assoc _ _ _, happroved⟩

theorem approvedOnce_of_approved (h : (d.after s₀ run).Approved u) : ApprovedOnce d s₀ run u :=
  ⟨run, [], (List.append_nil run).symm, h⟩

theorem approvedOnce_concat (h : ApprovedOnce d s₀ (run ++ [v]) u) :
    ApprovedOnce d s₀ run u ∨ (d.after s₀ (run ++ [v])).Approved u := by
  rcases h with ⟨earlier, later, hrun, happroved⟩
  rcases List.eq_nil_or_concat later with rfl | ⟨later, last, rfl⟩
  · rw [List.append_nil] at hrun
    rw [hrun]
    exact Or.inr happroved
  · rw [List.concat_eq_append, ← List.append_assoc] at hrun
    exact Or.inl ⟨earlier, later, (List.append_inj' hrun rfl).1, happroved⟩

theorem handedOut_concat {claims : Auth.Claims} (h : HandedOut d s₀ (run ++ [v]) claims) :
    HandedOut d s₀ run claims ∨ (d.after s₀ run).Approved claims.id := by
  rcases h with ⟨s, request, ω, ⟨before, later, hrun, rfl⟩, hhanded⟩
  rcases List.eq_nil_or_concat later with rfl | ⟨later, last, rfl⟩
  · rcases List.append_inj' hrun rfl with ⟨rfl, -⟩
    exact Or.inr (approved_of_handed hhanded)
  · rw [List.concat_eq_append, ← List.cons_append, ← List.append_assoc] at hrun
    exact Or.inl ⟨_, request, ω, ⟨before, later, (List.append_inj' hrun rfl).1, rfl⟩, hhanded⟩

theorem authorization_of_bearer {headers : Headers} (h : headers.bearer = some u) :
    ∃ claims, headers.authorization = some (.access claims) ∧ claims.id = u := by
  unfold Auth.Headers.bearer at h
  split at h
  next claims hauth => exact ⟨claims, hauth, Option.some.inj h⟩
  · cases h

theorem HandedOut.cons {claims : Auth.Claims} (h : HandedOut d (d.after s₀ [v]) run claims) :
    HandedOut d s₀ (v :: run) claims := by
  rcases h with ⟨s, request, ω, hvisits, hhanded⟩
  exact ⟨s, request, ω, hvisits.cons, hhanded⟩

/-- Whoever was approved has a row, and only they hold tokens and are referred to. -/
structure Sound (d : Deployment) (s₀ : Database) (run : List (Visit Traffic Env)) : Prop where
  rows : ∀ u, ApprovedOnce d s₀ run u → (d.after s₀ run).HasRow u
  tokens : ∀ claims, HandedOut d s₀ run claims → ApprovedOnce d s₀ run claims.id
  references : ∀ u, (d.after s₀ run).RefersTo u → ApprovedOnce d s₀ run u

theorem sound_nil (hs₀ : ∀ u, s₀.RefersTo u → s₀.Approved u) : Sound d s₀ [] where
  rows u := by
    rintro ⟨earlier, later, hrun, row, hrow, hid, -⟩
    rw [(List.append_eq_nil_iff.mp hrun.symm).1] at hrow
    exact ⟨row, hrow, hid⟩
  tokens claims := by
    rintro ⟨s, request, ω, ⟨before, later, hrun, -⟩, -⟩
    simp at hrun
  references u hu := approvedOnce_of_approved (hs₀ u hu)

/-- One more request. -/
theorem Sound.concat (h : Sound d s₀ run)
    (htokens : ∀ headers ∈ v.request.authored, ∀ claims,
      headers.authorization = some (.access claims) → HandedOut d s₀ run claims)
    (htime : InTime d s₀ run v) : Sound d s₀ (run ++ [v]) where
  rows u hu := by
    rcases approvedOnce_concat hu with hbefore | ⟨row, hrow, hid, -⟩
    · exact htime.keepsRow (Or.inl hbefore) (h.rows u hbefore)
    · exact ⟨row, hrow, hid⟩
  tokens claims hclaims := by
    rcases handedOut_concat hclaims with hbefore | happroved
    · exact (h.tokens claims hbefore).concat
    · exact (approvedOnce_of_approved happroved).concat
  references u hu := by
    rcases addsReferences_visit u hu with hbefore | ⟨headers, hheaders, hbearer⟩
    · exact (h.references u hbefore).concat
    · rcases authorization_of_bearer hbearer with ⟨claims, hauth, rfl⟩
      exact (h.tokens claims (htokens headers hheaders claims hauth)).concat

/-- Every state of a run with genuine tokens and decisions in time is sound. -/
theorem sound_run (hs₀ : ∀ u, s₀.RefersTo u → s₀.Approved u)
    (htokens : ∀ earlier v later, run = earlier ++ v :: later →
      ∀ headers ∈ v.request.authored, ∀ claims,
        headers.authorization = some (.access claims) → HandedOut d s₀ earlier claims)
    (htime : ∀ earlier v later, run = earlier ++ v :: later → InTime d s₀ earlier v)
    (earlier later : List (Visit Traffic Env)) (hrun : run = earlier ++ later) :
    Sound d s₀ earlier := by
  induction earlier using List.reverseRecOn generalizing later with
  | nil => exact sound_nil hs₀
  | append_singleton earlier v ih =>
      have hrun' : run = earlier ++ v :: later := by rw [hrun, List.append_assoc]; rfl
      exact (ih _ hrun').concat (htokens earlier v later hrun') (htime earlier v later hrun')

/-- **Decisions in time.** Searches and reviews are asked for with access tokens that were
handed out before, and no decision that is let through is about an account decided on
already. Then in every state of the run each account that was once approved has its row, as
has each account that a search or a verification event refers to; and a decision leaves the
row of an account decided on as it is. -/
theorem decisions_in_time (d : Deployment) (s₀ : Database) (run : List (Visit Traffic Env))
    (hs₀ : ∀ u, s₀.RefersTo u → s₀.Approved u)
    (htokens : ∀ earlier v later, run = earlier ++ v :: later →
      ∀ headers ∈ v.request.authored, ∀ claims,
        headers.authorization = some (.access claims) → HandedOut d s₀ earlier claims)
    (htime : ∀ earlier v later, run = earlier ++ v :: later → InTime d s₀ earlier v) :
    ∀ earlier later, run = earlier ++ later →
      (∀ u, ApprovedOnce d s₀ earlier u → (d.after s₀ earlier).HasRow u) ∧
        (∀ u, (d.after s₀ earlier).RefersTo u → (d.after s₀ earlier).HasRow u) ∧
        ∀ v ∈ later.head?, ∀ request, v.request = .app request → request.IsDecision →
          ∀ u, Decided d s₀ earlier u →
            SameRow u (d.after s₀ earlier) (d.after s₀ (earlier ++ [v])) := by
  intro earlier later hrun
  have hsound := sound_run hs₀ htokens htime earlier later hrun
  refine ⟨hsound.rows, fun u hu => hsound.rows u (hsound.references u hu), ?_⟩
  intro v hv request hrequest hdecision u hu
  rcases later with _ | ⟨w, later⟩
  · cases hv
  · rcases Option.some.inj hv with rfl
    rw [after_concat]
    rcases w with ⟨w, ω⟩
    rcases hrequest with rfl
    exact sameRow_handle hdecision fun hpasses hdecides =>
      htime earlier _ later hrun request rfl hpasses u hdecides hu

end Run

instance (d : Deployment) (s₀ : Database) (run : List (Visit Traffic Env)) (u : Uuid) :
    Decidable (ApprovedOnce d s₀ run u) :=
  decidable_of_iff (∃ earlier ∈ run.inits, (d.after s₀ earlier).Approved u) (by
    simp only [List.mem_inits]
    constructor
    · rintro ⟨earlier, ⟨later, hrun⟩, happroved⟩
      exact ⟨earlier, later, hrun.symm, happroved⟩
    · rintro ⟨earlier, later, hrun, happroved⟩
      exact ⟨earlier, ⟨later, hrun.symm⟩, happroved⟩)

instance (d : Deployment) (s₀ : Database) (run : List (Visit Traffic Env)) (u : Uuid) :
    Decidable (Decided d s₀ run u) :=
  inferInstanceAs (Decidable (ApprovedOnce d s₀ run u ∨ (d.after s₀ run).Placed u))

/-! ## Examples -/

/-- No second factor is asked for. -/
def sampleOpenDeployment : Deployment :=
  { sampleDeployment .postgres with mfaRequiredRoles := [] }

/-- Somebody logs in. -/
def sampleSignIn (user : Auth.UserRow) : Visit Traffic Env :=
  ⟨.app (.auth (.login Auth.sampleHeaders user.userCode "U*U")), Auth.steadily sampleNow 0⟩

/-- The reviewer confirms the sample's match. -/
def sampleConfirmation : Visit Traffic Env :=
  ⟨.app (.review (sampleBearer sampleReviewer) (Uuid.text 0xab) ⟨Uuid.text 7, none, none⟩
    .confirmed), Auth.steadily sampleNow 0⟩

/-- The administrator rejects a registration. -/
def sampleRejection (u : Uuid) : Visit Traffic Env :=
  ⟨.app (.rejectUser (sampleBearer sampleAdmin) u.text), Auth.steadily sampleNow 0⟩

/-- Somebody who has registered. -/
def sampleApplicant : Auth.UserRow :=
  { sampleAccount 8 "NEW-1" Role.pending with isApproved := false }

/-- The accounts of the sample, and the applicant's. -/
def sampleApplied : Database :=
  { sampleDatabase with auth := { sampleDatabase.auth with
      users := sampleDatabase.auth.users ++ [sampleApplicant] } }

theorem handedOut_sample {s₀ : Database} {run : List (Visit Traffic Env)} {user : Auth.UserRow}
    (h : ((handle sampleOpenDeployment (.auth (.login Auth.sampleHeaders user.userCode "U*U"))).run
      (exec sampleOpenDeployment) (Auth.steadily sampleNow 0) s₀).1.bind
        (fun reply => reply.body.accessClaims) =
      some ⟨user.id, user.userCode, "", user.role, 1111112009⟩) :
    HandedOut sampleOpenDeployment s₀ (sampleSignIn user :: run)
      ⟨user.id, user.userCode, "", user.role, 1111112009⟩ := by
  rcases Option.bind_eq_some_iff.mp h with ⟨reply, hreply, hclaims⟩
  exact ⟨s₀, _, _, visits_cons_self, reply, hreply, hclaims⟩

theorem decisions_in_time_sample :
    (∀ u, ApprovedOnce sampleOpenDeployment sampleApplied
        [sampleSignIn sampleReviewer, sampleConfirmation] u →
      (sampleOpenDeployment.after sampleApplied
        [sampleSignIn sampleReviewer, sampleConfirmation]).HasRow u) ∧
      (∀ u, (sampleOpenDeployment.after sampleApplied
          [sampleSignIn sampleReviewer, sampleConfirmation]).RefersTo u →
        (sampleOpenDeployment.after sampleApplied
          [sampleSignIn sampleReviewer, sampleConfirmation]).HasRow u) ∧
      ∀ v ∈ [sampleRejection 8].head?, ∀ request, v.request = .app request →
        request.IsDecision → ∀ u, Decided sampleOpenDeployment sampleApplied
            [sampleSignIn sampleReviewer, sampleConfirmation] u →
          Database.SameRow u
            (sampleOpenDeployment.after sampleApplied
              [sampleSignIn sampleReviewer, sampleConfirmation])
            (sampleOpenDeployment.after sampleApplied
              ([sampleSignIn sampleReviewer, sampleConfirmation] ++ [v])) := by
  refine decisions_in_time sampleOpenDeployment sampleApplied
    [sampleSignIn sampleReviewer, sampleConfirmation, sampleRejection 8] ?_ ?_ ?_
    [sampleSignIn sampleReviewer, sampleConfirmation] [sampleRejection 8] rfl
  · rintro u (⟨search, hsearch, -⟩ | ⟨event, hevent, -⟩)
    · cases hsearch
    · cases hevent
  · refine cut_cons ?_ (cut_cons ?_ (cut_cons ?_ cut_nil))
    · rintro headers ⟨⟩
    · rintro headers ⟨⟩ claims ⟨⟩
      exact handedOut_sample (by decide +kernel)
    · rintro headers ⟨⟩
  · refine cut_cons ?_ (cut_cons ?_ (cut_cons ?_ cut_nil))
    · rintro request ⟨⟩ hpasses
      exact hpasses.elim
    · rintro request ⟨⟩ hpasses
      exact hpasses.elim
    · rintro request ⟨⟩ - u ⟨key, hkey, hid⟩
      rw [(isId_of_key_text hkey).mp hid]
      decide +kernel

/-- A reviewer confirms a match, and is rejected as an applicant: the account's row is gone,
and the event refers to nobody. -/
theorem reviewer_rejected :
    let earlier := [sampleSignIn sampleReviewer, sampleSignIn sampleAdmin, sampleConfirmation]
    let s := sampleOpenDeployment.after sampleDatabase earlier
    let s' := sampleOpenDeployment.after sampleDatabase (earlier ++ [sampleRejection 5])
    (∀ u, ¬ sampleDatabase.RefersTo u) ∧
      HandedOut sampleOpenDeployment sampleDatabase [sampleSignIn sampleReviewer]
        ⟨5, "REV-1", "", Role.reviewer, 1111112009⟩ ∧
      HandedOut sampleOpenDeployment sampleDatabase
        [sampleSignIn sampleReviewer, sampleSignIn sampleAdmin]
        ⟨3, "ADMIN-1", "", Role.systemAdmin, 1111112009⟩ ∧
      Decided sampleOpenDeployment sampleDatabase earlier 5 ∧ s.HasRow 5 ∧
      ¬ Database.SameRow 5 s s' ∧ s'.RefersTo 5 ∧ ¬ s'.HasRow 5 := by
  refine ⟨?_, handedOut_sample (by decide +kernel), ?_, by decide +kernel, by decide +kernel,
    ?_, by decide +kernel, by decide +kernel⟩
  · rintro u (⟨search, hsearch, -⟩ | ⟨event, hevent, -⟩)
    · cases hsearch
    · cases hevent
  · exact HandedOut.cons (handedOut_sample (by decide +kernel))
  · exact fun hsame => absurd (hsame.hasRow (by decide +kernel)) (by decide +kernel)

end AnatoliaBis.App
