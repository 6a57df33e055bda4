import AnatoliaBis.App.AccountRows

/-! # The status page of a registration

`auth::registration_status` is polled with the tracking token that a registration was
answered with. Beside all other requests, what it says is what the statements so far make of
the account that this token was issued for. A token that was never issued finds nothing.
-/

namespace AnatoliaBis.App

open Atomic Program
open Auth (Env Headers Key)

/-! ## The route -/

/-- Two flags of an account. -/
structure Standing where
  isApproved : Bool
  isBanned : Bool
  deriving Repr, DecidableEq

/-- `auth::RegistrationStatus`. -/
inductive RegistrationStatus where
  | approved
  | pending
  | banned
  | notFound
  deriving Repr, DecidableEq

/-- A ban comes first. -/
def Standing.status (standing : Standing) : RegistrationStatus :=
  if standing.isBanned then .banned else if standing.isApproved then .approved else .pending

/-- `db::RegistrationTrackingStatus`; the text of the expiry is parsed again. -/
structure RegistrationTrackingStatus extends Standing where
  expiresAt : Timestamp
  deriving Repr, DecidableEq

/-- The operations of the application, and the look-up of a tracking token. -/
inductive StatusOp where
  | app (op : Op)
  | loadTracking (token : String)

@[reducible] def StatusOp.Res : StatusOp → Type
  | .app op => op.Res
  | .loadTracking _ => Except QueryError (Option RegistrationTrackingStatus)

/-- `SELECT … FROM users WHERE registration_tracking_token = …`. -/
def Database.tracked (d : Deployment) (s : Database) (token : String) :
    Option RegistrationTrackingStatus := do
  let row ← s.auth.users.find? fun row => (s.trackingTokens row.id).any fun t => t.1 == token
  let ticket ← s.trackingTokens row.id
  return ⟨⟨row.isApproved, row.isBanned⟩, d.sessionExpiry ticket.2⟩

/-- One operation. -/
def execStatus (d : Deployment) : (op : StatusOp) → Env → Database → Database × op.Res
  | .app op, e, s => exec d op e s
  | .loadTracking token, e, s => (s, if e.fails then .error .failed else .ok (s.tracked d token))

abbrev StatusHandler (α : Type) := Program StatusOp StatusOp.Res α

abbrev StatusStep := Event StatusOp Env Database

/-- `auth::registration_status`. -/
def registrationStatus (token : String) : StatusHandler RegistrationStatus :=
  .call (.loadTracking token) fun found =>
    match found with
    | .ok (some row) =>
        .call (.app (.auth .utcNow)) fun now =>
          .done (if row.expiresAt < now then .notFound else row.toStanding.status)
    | _ => .done .notFound

/-- A request of the application, or a poll of the status page. -/
inductive StatusRequest where
  | app (request : Request)
  | poll (token : String)

/-- A response of the application, or a status. -/
inductive StatusReply where
  | reply (r : Reply)
  | status (status : RegistrationStatus)

/-- The handler of a request. -/
def StatusRequest.handle (d : Deployment) : StatusRequest → StatusHandler (Option StatusReply)
  | .app request =>
      ((App.handle d request).embed StatusOp.app fun _ r => r).map (Option.map .reply)
  | .poll token => (registrationStatus token).map fun status => some (.status status)

/-! ## What statements make of a registration -/

/-- An account as the status page sees it: its flags while it is there, and its tracking token
with the expiry. -/
structure Registration where
  standing : Option Standing
  ticket : Option (String × Timestamp)
  deriving Repr, DecidableEq

/-- The row of the account. -/
def registration (s : Database) (u : Uuid) : Registration where
  standing := (s.auth.users.find? fun row => row.id == u).map fun row =>
    ⟨row.isApproved, row.isBanned⟩
  ticket := s.trackingTokens u

/-- The statement neither failed nor violated a key. -/
def tookEffect (q : Query) (ev : StatusStep) : Bool := !ev.env.fails && !q.violatesUnique ev.before

/-- What a statement that took effect makes of the registration of `u`. -/
def Registration.write (u : Uuid) (r : Registration) : Query → Registration
  | .createUser account =>
      if account.id == u then
        { r with standing := r.standing.or (some ⟨account.isApproved, account.isBanned⟩) }
      else r
  | .updateUserFlags key isApproved isBanned _ _ =>
      if key.isId u then { r with standing := r.standing.map fun _ => ⟨isApproved, isBanned⟩ }
      else r
  | .deleteUser key => if key.isId u then { r with standing := none } else r
  | .setRegistrationTrackingToken id token expiresAt =>
      if id == u then { r with ticket := some (token, expiresAt) } else r
  | _ => r

/-- One more operation. -/
def Registration.next (u : Uuid) (r : Registration) (ev : StatusStep) : Registration :=
  match ev.op with
  | .app (.db q) => if tookEffect q ev then r.write u q else r
  | _ => r

/-- What has become of the registration of `u` after the operations `log`. -/
def registered (s₀ : Database) (u : Uuid) (log : List StatusStep) : Registration :=
  log.foldl (Registration.next u) (registration s₀ u)

section Rows

variable {d : Deployment} {s : Database} {u : Uuid} {key : Key} {f : Auth.UserRow → Auth.UserRow}
  {g : UserDetails → UserDetails}

/-- The row of `u` among rows that keep their ids. -/
theorem find_updateUser (hid : ∀ row, (f row).id = row.id) :
    (s.updateUser key f g).auth.users.find? (fun row => row.id == u) =
      (s.auth.users.find? fun row => row.id == u).map fun row =>
        if key.isId u then f row else row := by
  have hcond : ((fun row : Auth.UserRow => row.id == u) ∘
      fun row => if key.isId row.id then f row else row) = fun row => row.id == u := by
    funext row
    dsimp only [Function.comp_apply]
    split_ifs
    · rw [hid]
    · rfl
  unfold Database.updateUser
  dsimp only
  rw [List.find?_map, hcond]
  apply Option.map_congr
  intro row hrow
  have hfound := List.find?_some hrow
  simp only [beq_iff_eq] at hfound
  rw [hfound]

theorem registration_updateUser (hid : ∀ row, (f row).id = row.id)
    (happroved : ∀ row, (f row).isApproved = row.isApproved)
    (hbanned : ∀ row, (f row).isBanned = row.isBanned) :
    registration (s.updateUser key f g) u = registration s u := by
  have hstanding : ((s.updateUser key f g).auth.users.find? fun row => row.id == u).map
      (fun row => (⟨row.isApproved, row.isBanned⟩ : Standing)) =
        (s.auth.users.find? fun row => row.id == u).map
          fun row => ⟨row.isApproved, row.isBanned⟩ := by
    rw [find_updateUser hid, Option.map_map]
    apply Option.map_congr
    intro row _
    dsimp only [Function.comp_apply]
    split_ifs
    · rw [happroved, hbanned]
    · rfl
  unfold registration
  rw [hstanding]
  rfl

/-- A condition on ids finds the first row of its id. -/
theorem find_id_of_find {p : Uuid → Bool} {rows : List Auth.UserRow} {row : Auth.UserRow}
    (h : rows.find? (fun row => p row.id) = some row) :
    rows.find? (fun row' => row'.id == row.id) = some row := by
  induction rows with
  | nil => cases h
  | cons first rows ih =>
      cases hp : p first.id with
      | true =>
          rw [List.find?_cons_of_pos (p := fun row : Auth.UserRow => p row.id) hp] at h
          cases h
          exact List.find?_cons_of_pos (beq_self_eq_true _)
      | false =>
          have hfirst : ¬ p first.id = true := by simp [hp]
          rw [List.find?_cons_of_neg (p := fun row : Auth.UserRow => p row.id) hfirst] at h
          have hrow := List.find?_some h
          have hne : ¬ (first.id == row.id) = true := by
            intro heq
            rw [beq_iff_eq.mp heq, hrow] at hp
            cases hp
          rw [List.find?_cons_of_neg (p := fun row' : Auth.UserRow => row'.id == row.id) hne]
          exact ih h

theorem registration_createUser (now : Timestamp) (account : Account) :
    registration ((Query.createUser account).perform d now s).1 u =
      (registration s u).write u (.createUser account) := by
  unfold Registration.write registration
  dsimp only [Query.perform]
  rw [List.find?_append, List.find?_singleton]
  split_ifs with hid
  · cases s.auth.users.find? fun row => row.id == u with
    | none => rfl
    | some row => rfl
  · rw [Option.or_none]

theorem registration_updateUserFlags (now : Timestamp) (isApproved isBanned : Bool)
    (banReason : Option String) (role : String) :
    registration ((Query.updateUserFlags key isApproved isBanned banReason role).perform d now s).1
        u = (registration s u).write u
          (.updateUserFlags key isApproved isBanned banReason role) := by
  have hfind : (s.updateUser key
      (fun row => { row with isApproved := isApproved, isBanned := isBanned, role := role })
      fun details => { details with banReason := banReason }).auth.users.find?
        (fun row => row.id == u) = _ := find_updateUser fun _ => rfl
  unfold Registration.write registration
  dsimp only [Query.perform]
  rw [hfind, Option.map_map]
  split_ifs with hkey
  · rw [Option.map_map]
    rfl
  · rfl

theorem registration_softDeleteUser (now : Timestamp) :
    registration ((Query.softDeleteUser key).perform d now s).1 u = registration s u := by
  apply registration_updateUser
  · intro row
    split_ifs
    · rfl
    · rfl
  · intro row
    split_ifs
    · rfl
    · rfl
  · intro row
    split_ifs
    · rfl
    · rfl

theorem registration_deleteUser (now : Timestamp) :
    registration ((Query.deleteUser key).perform d now s).1 u =
      (registration s u).write u (.deleteUser key) := by
  unfold Registration.write registration
  dsimp only [Query.perform]
  split_ifs with hkey
  · have hnone : (s.auth.users.filter fun row => !key.isId row.id).find?
        (fun row => row.id == u) = none := by
      rw [List.find?_eq_none]
      intro row hrow hid
      have hkept := (List.mem_filter.mp hrow).2
      rw [beq_iff_eq.mp hid, hkey] at hkept
      cases hkept
    rw [hnone]
    rfl
  · have hsame : (s.auth.users.filter fun row => !key.isId row.id).find?
        (fun row => row.id == u) = s.auth.users.find? fun row => row.id == u := by
      rw [List.find?_filter]
      congr 1
      funext row
      by_cases hrow : row.id = u
      · simp [hrow, hkey]
      · simp [hrow]
    rw [hsame]

theorem registration_setRegistrationTrackingToken (now : Timestamp) (id : Uuid) (token : String)
    (expiresAt : Timestamp) :
    registration ((Query.setRegistrationTrackingToken id token expiresAt).perform d now s).1 u =
      (registration s u).write u (.setRegistrationTrackingToken id token expiresAt) := by
  unfold Registration.write registration
  dsimp only [Query.perform]
  split_ifs with hid
  · rw [beq_iff_eq.mp hid, Function.update_self]
  · have hne : u ≠ id := fun heq => hid (beq_iff_eq.mpr heq.symm)
    rw [Function.update_of_ne hne]

/-- One statement that takes effect. -/
theorem registration_perform (now : Timestamp) (q : Query) :
    registration (q.perform d now s).1 u = (registration s u).write u q := by
  cases q with
  | createUser account => exact registration_createUser now account
  | updateUserFlags key isApproved isBanned banReason role =>
      exact registration_updateUserFlags now isApproved isBanned banReason role
  | updateUserProfile => exact registration_updateUser (fun _ => rfl) (fun _ => rfl) fun _ => rfl
  | updateUserPassword => exact registration_updateUser (fun _ => rfl) (fun _ => rfl) fun _ => rfl
  | softDeleteUser key => exact registration_softDeleteUser now
  | deleteUser key => exact registration_deleteUser now
  | setRegistrationTrackingToken id token expiresAt =>
      exact registration_setRegistrationTrackingToken now id token expiresAt
  | recordReviewDecision entry =>
      exact record_same (f := fun s => registration s u) (fun _ _ _ => rfl) s _ entry
  | _ => rfl

/-- One operation of the application. -/
theorem registration_exec (op : Op) (e : Env) (s : Database) :
    registration (exec d op e s).1 u =
      (registration s u).next u ⟨.app op, e, s, (exec d op e s).1⟩ := by
  cases op with
  | auth c =>
      have husers : (exec d (.auth c) e s).1.auth.users = s.auth.users := Auth.exec_users c
      unfold Registration.next registration
      dsimp only
      rw [husers]
      rfl
  | db q =>
      unfold Registration.next tookEffect
      dsimp only
      -- a statement that fails or violates a key leaves the row as it was
      cases hf : e.fails with
      | true =>
          rw [exec_db_of_fails hf]
          rfl
      | false =>
          cases hq : q.violatesUnique s with
          | true =>
              rw [exec_db_of_violates hf hq]
              rfl
          | false =>
              rw [exec_db_of_succeeds hf hq]
              exact registration_perform e.now q
  | send mail => rfl
  | enrollImage bytes => rfl

/-- The row of an account is what the statements so far make of it. -/
theorem registered_executes {s' : Database} {evs : List StatusStep}
    (h : Executes (execStatus d) s evs s') : registration s' u = registered s u evs := by
  induction h with
  | nil s => rfl
  | cons op e s rest ih =>
      rw [ih]
      unfold registered
      rw [List.foldl_cons]
      cases op with
      | app op =>
          have hstep : registration (execStatus d (.app op) e s).1 u =
              (registration s u).next u ⟨.app op, e, s, (execStatus d (.app op) e s).1⟩ :=
            registration_exec op e s
          rw [hstep]
      | loadTracking token => rfl

/-- The look-up finds an account that the token was issued for, if there is one. -/
theorem tracked_cases (s : Database) (token : String) :
    (∃ u standing expiresAt, registration s u = ⟨some standing, some (token, expiresAt)⟩ ∧
        s.tracked d token = some ⟨standing, d.sessionExpiry expiresAt⟩) ∨
      (s.tracked d token = none ∧
        ∀ u standing expiresAt, registration s u ≠ ⟨some standing, some (token, expiresAt)⟩) := by
  unfold Database.tracked
  cases hfound : s.auth.users.find? fun row =>
      (s.trackingTokens row.id).any fun t => t.1 == token with
  | none =>
      refine Or.inr ⟨rfl, ?_⟩
      intro u standing expiresAt hregistration
      have hstanding := congrArg Registration.standing hregistration
      have hticket : s.trackingTokens u = some (token, expiresAt) :=
        congrArg Registration.ticket hregistration
      rcases Option.map_eq_some_iff.mp hstanding with ⟨row, hrow, -⟩
      have hid := List.find?_some hrow
      simp only [beq_iff_eq] at hid
      apply List.find?_eq_none.mp hfound row (List.mem_of_find?_eq_some hrow)
      rw [hid, hticket]
      simp
  | some row =>
      have hany := List.find?_some hfound
      have hrow := find_id_of_find (p := fun id =>
        (s.trackingTokens id).any fun t => t.1 == token) hfound
      cases hticket : s.trackingTokens row.id with
      | none =>
          rw [hticket] at hany
          cases hany
      | some ticket =>
          rw [hticket] at hany
          have htoken : ticket.1 = token := beq_iff_eq.mp hany
          refine Or.inl ⟨row.id, ⟨row.isApproved, row.isBanned⟩, ticket.2, ?_, ?_⟩
          · unfold registration
            rw [hrow, hticket, ← htoken]
            rfl
          · simp only [Option.bind_eq_bind, Option.bind_some, hticket]
            rfl

end Rows

/-! ## Where a token comes from -/

theorem ticket_next {u : Uuid} {r : Registration} {ev : StatusStep} {token : String}
    {expiresAt : Timestamp} (h : (r.next u ev).ticket = some (token, expiresAt)) :
    r.ticket = some (token, expiresAt) ∨
      ev.op = .app (.db (.setRegistrationTrackingToken u token expiresAt)) := by
  unfold Registration.next at h
  split at h
  next q hop =>
    split_ifs at h
    · unfold Registration.write at h
      split at h
      · split_ifs at h
        · exact Or.inl h
        · exact Or.inl h
      · split_ifs at h
        · exact Or.inl h
        · exact Or.inl h
      · split_ifs at h
        · exact Or.inl h
        · exact Or.inl h
      -- the one statement that issues a token
      · split_ifs at h with hid
        · rcases Prod.mk.inj (Option.some.inj h) with ⟨rfl, rfl⟩
          rw [beq_iff_eq.mp hid] at hop
          exact Or.inr hop
        · exact Or.inl h
      · exact Or.inl h
    · exact Or.inl h
  · exact Or.inl h

/-- A token was there at the start, or it has been issued since. -/
theorem ticket_registered {s₀ : Database} {u : Uuid} {evs : List StatusStep} {token : String}
    {expiresAt : Timestamp} (h : (registered s₀ u evs).ticket = some (token, expiresAt)) :
    s₀.trackingTokens u = some (token, expiresAt) ∨
      ∃ ev ∈ evs, ev.op = .app (.db (.setRegistrationTrackingToken u token expiresAt)) := by
  induction evs using List.reverseRecOn with
  | nil => exact Or.inl h
  | append_singleton evs ev ih =>
      unfold registered at h
      rw [List.foldl_append] at h
      rcases ticket_next h with hbefore | hissued
      · rcases ih hbefore with hstart | ⟨ev', hev', hissued⟩
        · exact Or.inl hstart
        · exact Or.inr ⟨ev', List.mem_append_left _ hev', hissued⟩
      · exact Or.inr ⟨ev, by simp, hissued⟩

/-! ## Polls beside everything else -/

/-- A poll looks the token up and reads the clock. -/
def StatusOp.Asks : StatusOp → Prop
  | .loadTracking _ | .app (.auth .utcNow) => True
  | _ => False

/-- What a poll answers after the history `h` of its own operations. -/
def Polled (d : Deployment) (token : String) (h : List StatusStep) (status : RegistrationStatus) :
    Prop :=
  ∃ read rest, h = read :: rest ∧ read.op = .loadTracking token ∧
    (status = .notFound ∧ (read.env.fails = true ∨ read.before.tracked d token = none) ∨
      ∃ row clock, read.before.tracked d token = some row ∧ rest = [clock] ∧
        clock.op = .app (.auth .utcNow) ∧
          status = if row.expiresAt < clock.env.now then .notFound else row.toStanding.status)

theorem registrationStatus_polled (d : Deployment) (token : String) :
    (registrationStatus token).Guarantees (execStatus d) (fun _ op => op.Asks)
      (Polled d token) [] := by
  refine ⟨trivial, fun e s => ?_⟩
  dsimp only [execStatus]
  cases hf : e.fails with
  | true => exact ⟨_, [], rfl, rfl, Or.inl ⟨rfl, Or.inl hf⟩⟩
  | false =>
      cases hfound : s.tracked d token with
      | none => exact ⟨_, [], rfl, rfl, Or.inl ⟨rfl, Or.inr hfound⟩⟩
      | some row =>
          refine ⟨trivial, fun e' s' => ?_⟩
          exact ⟨_, _, rfl, rfl, Or.inr ⟨row, _, hfound, rfl, rfl, rfl⟩⟩

namespace StatusRequest

/-- What a request may do. -/
def May : StatusRequest → List StatusStep → StatusOp → Prop
  | .app _, _, _ => True
  | .poll _, _, op => op.Asks

/-- What a request may answer. -/
def Says (d : Deployment) : StatusRequest → List StatusStep → Option StatusReply → Prop
  | .app _, _, _ => True
  | .poll token, h, answer => ∀ status, answer = some (.status status) → Polled d token h status

end StatusRequest

theorem statusRequest_guarantees (d : Deployment) (request : StatusRequest) :
    (request.handle d).Guarantees (execStatus d) request.May (request.Says d) [] := by
  cases request with
  | app request => exact (guarantees_grows _ _).mono (fun _ _ _ => trivial) fun _ _ _ => trivial
  | poll token =>
      apply (registrationStatus_polled d token).map
      intro h status hpolled status' heq
      cases heq
      exact hpolled

section Pools

variable {ι : Type} [DecidableEq ι]

/-- Requests handled at the same time on one database. -/
def statusPool (d : Deployment) (requests : ι → StatusRequest) (s : Database) :
    Pool ι StatusOp StatusOp.Res (Option StatusReply) Database :=
  ⟨fun i => (requests i).handle d, s⟩

/-- The status that the clock and the registration of an account call for. -/
def statusAt (d : Deployment) (standing : Standing) (expiresAt now : Timestamp) :
    RegistrationStatus :=
  if d.sessionExpiry expiresAt < now then .notFound else standing.status

/-- A poll of `i` is told the status of an account that the token was issued for, as the
statements before its look-up have left it. Nothing is found where there is no such account, or
the look-up fails. -/
def PollTold (d : Deployment) (s₀ : Database) (log : List (ι × StatusStep)) (i : ι)
    (token : String) (status : RegistrationStatus) : Prop :=
  ∃ before read later, log = before ++ (i, read) :: later ∧ read.op = .loadTracking token ∧
    (status = .notFound ∧ (read.env.fails = true ∨ ∀ u standing expiresAt,
        registered s₀ u (before.map Prod.snd) ≠ ⟨some standing, some (token, expiresAt)⟩) ∨
      ∃ u standing expiresAt clock,
        registered s₀ u (before.map Prod.snd) = ⟨some standing, some (token, expiresAt)⟩ ∧
          (i, clock) ∈ later ∧ clock.op = .app (.auth .utcNow) ∧
            status = statusAt d standing expiresAt clock.env.now)

/-- What polls are answered in a run. -/
structure StatusTold (d : Deployment) (requests : ι → StatusRequest) (s₀ : Database)
    (log : List (ι × StatusStep)) (answer : ι → Option (Option StatusReply)) : Prop where
  told : ∀ i token status, requests i = .poll token →
    answer i = some (some (.status status)) → PollTold d s₀ log i token status
  /-- Whoever finds anything holds a token that was issued. -/
  issued : ∀ i token status, requests i = .poll token →
    answer i = some (some (.status status)) → status ≠ .notFound →
      ∃ u expiresAt, s₀.trackingTokens u = some (token, expiresAt) ∨ ∃ entry ∈ log,
        entry.2.op = .app (.db (.setRegistrationTrackingToken u token expiresAt))
  /-- A poll changes nothing. -/
  silent : ∀ before i ev later token, log = before ++ (i, ev) :: later →
    requests i = .poll token → ev.after = ev.before

theorem told_of_polled {d : Deployment} {s₀ s : Database} {log : List (ι × StatusStep)} {i : ι}
    {token : String} {status : RegistrationStatus}
    (hrun : Executes (execStatus d) s₀ (log.map Prod.snd) s)
    (hpolled : Polled d token (Pool.own i log) status) :
    PollTold d s₀ log i token status := by
  rcases hpolled with ⟨read, rest, hown, hop, htold⟩
  rcases Pool.own_eq_append (h := []) hown with ⟨before, later, hlog, -, hlater⟩
  -- the row that is looked at is what the statements before have made of it
  have hstore : ∀ u, registration read.before u = registered s₀ u (before.map Prod.snd) := by
    intro u
    rw [hlog, List.map_append, List.map_cons] at hrun
    exact registered_executes hrun.split.1
  refine ⟨before, read, later, hlog, hop, ?_⟩
  rcases htold with ⟨hnone, hwhy⟩ | ⟨row, clock, hrow, hrest, hclock, hstatus⟩
  · refine Or.inl ⟨hnone, hwhy.imp_right fun hempty => ?_⟩
    intro u standing expiresAt hregistered
    rw [← hstore] at hregistered
    rcases tracked_cases read.before token with ⟨u', standing', expiresAt', -, hsome⟩ | hnobody
    · rw [hempty] at hsome
      cases hsome
    · exact hnobody.2 u standing expiresAt hregistered
  · rcases tracked_cases read.before token with
      ⟨u, standing, expiresAt, hregistration, hsome⟩ | hnobody
    · rw [hrow] at hsome
      cases hsome
      have hmem : (i, clock) ∈ later := by
        rw [← Pool.mem_own, hlater, hrest]
        exact List.mem_singleton_self _
      have hregistered : registered s₀ u (before.map Prod.snd) =
          ⟨some standing, some (token, expiresAt)⟩ := (hstore u).symm.trans hregistration
      exact Or.inr ⟨u, standing, expiresAt, clock, hregistered, hmem, hclock, hstatus⟩
    · rw [hnobody.1] at hrow
      cases hrow

theorem asks_silent {d : Deployment} {op : StatusOp} (h : op.Asks) (e : Env) (s : Database) :
    (execStatus d op e s).1 = s := by
  unfold StatusOp.Asks at h
  split at h
  · rfl
  · rfl
  · exact h.elim

/-- Polls tell what has become of a registration, in every interleaving. -/
theorem status_replays (d : Deployment) (requests : ι → StatusRequest) (s₀ : Database)
    (schedule : List (ι × Env)) :
    StatusTold d requests s₀ ((statusPool d requests s₀).log (execStatus d) schedule)
      ((statusPool d requests s₀).after (execStatus d) schedule).answer := by
  have hkept := Pool.guarantees (c := statusPool d requests s₀) (J := fun i => (requests i).May)
    (Q := fun i => (requests i).Says d) (fun i => statusRequest_guarantees d (requests i)) schedule
  have hrun : Executes (execStatus d) s₀
      (((statusPool d requests s₀).log (execStatus d) schedule).map Prod.snd)
      ((statusPool d requests s₀).after (execStatus d) schedule).store :=
    Pool.executes (c := statusPool d requests s₀) schedule
  set log := (statusPool d requests s₀).log (execStatus d) schedule
  have htold : ∀ i token status, requests i = .poll token →
      ((statusPool d requests s₀).after (execStatus d) schedule).answer i =
        some (some (.status status)) → PollTold d s₀ log i token status := by
    intro i token status hpoll hanswer
    have hanswered := hkept.1 i
    rw [Pool.threads_of_answer hanswer, guarantees_done, hpoll] at hanswered
    exact told_of_polled hrun (hanswered status rfl)
  constructor
  · exact htold
  · intro i token status hpoll hanswer hfound
    rcases htold i token status hpoll hanswer with ⟨before, read, later, hlog, -, hcases⟩
    rcases hcases with ⟨hnone, -⟩ | ⟨u, standing, expiresAt, clock, hregistered, -⟩
    · exact absurd hnone hfound
    · have hticket : (registered s₀ u (before.map Prod.snd)).ticket = some (token, expiresAt) := by
        rw [hregistered]
      refine ⟨u, expiresAt, (ticket_registered hticket).imp_right ?_⟩
      rintro ⟨ev, hev, hissued⟩
      rcases List.mem_map.mp hev with ⟨entry, hentry, rfl⟩
      exact ⟨entry, by rw [hlog]; exact List.mem_append_left _ hentry, hissued⟩
  · intro before i ev later token hlog hpoll
    have hasks := hkept.2 before i ev later hlog
    rw [hpoll] at hasks
    rw [hlog, List.map_append, List.map_cons] at hrun
    rw [hrun.split.2.1]
    exact asks_silent hasks ev.env ev.before

end Pools

end AnatoliaBis.App
