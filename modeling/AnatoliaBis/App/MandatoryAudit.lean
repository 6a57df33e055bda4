import AnatoliaBis.App.Footprint
import AnatoliaBis.App.FourEyes

/-! # Mandatory audit

The actions of which a success must not be reported unless an audit event of it is
stored, and what their routes store on every path, whatever fails.
-/

namespace AnatoliaBis.App

open Atomic Program
open Auth (Env Headers)

/-! ## What is due -/

/-- An audit event that must exist; the resource is left open where the action has
none. -/
structure Due where
  action : String
  actor : Option String
  resource : Option (String × String)
  deriving Repr, DecidableEq

/-- The event is one of that action, for that actor and resource. -/
def Due.Matches (due : Due) (event : Audit.NewAuditEvent) : Prop :=
  event.action = due.action ∧ event.result = "success" ∧ event.actorUserId = due.actor ∧
    ∀ resource ∈ due.resource,
      event.resourceType = some resource.1 ∧ event.resourceId = some resource.2

instance (due : Due) (event : Audit.NewAuditEvent) : Decidable (due.Matches event) := by
  unfold Due.Matches
  infer_instance

/-- Such an event is stored. -/
def Database.Records (s : Database) (due : Due) : Prop :=
  ∃ event ∈ s.auth.auditEvents, due.Matches event

instance (s : Database) (due : Due) : Decidable (s.Records due) := by
  unfold Database.Records
  infer_instance

/-- The user of the bearer token, as an actor. -/
def actorOf (headers : Headers) : Option String := headers.bearer.map Uuid.text

/-- The text of the id a key stands for. -/
def keyText : Auth.Key → String
  | .uuid id => Uuid.text id
  | .text id => id

/-- What a request to a mandatory action must leave behind when it is answered in
this way. -/
def Request.due (d : Deployment) (request : Request) (reply : Reply) : Option Due :=
  match request, reply.body with
  | .review headers _ _ decision, .searchCandidate row =>
      some ⟨reviewAction decision row.status, actorOf headers,
        some ("search_candidate", row.id.text)⟩
  | .banUser headers id _, _ => some ⟨"USER_BANNED", actorOf headers, some ("user", id)⟩
  | .unbanUser headers id, _ => some ⟨"USER_UNBANNED", actorOf headers, some ("user", id)⟩
  | .deleteUser headers id, _ => some ⟨"USER_DELETED", actorOf headers, some ("user", id)⟩
  | .changeRole headers id _, _ => some ⟨"USER_ROLE_CHANGED", actorOf headers, some ("user", id)⟩
  | .auth (.enrollConfirm headers _), _ => some ⟨"MFA_ENABLED", actorOf headers, none⟩
  | .auth (.challengeEnrollConfirm _ mfaToken _), _ =>
      some ⟨"MFA_ENABLED", (mfaToken.subject .enrollment).map Uuid.text, none⟩
  | .auth (.disable headers _ _), _ => some ⟨"MFA_DISABLED", actorOf headers, none⟩
  | .auth (.mfaResetRoute headers id), _ =>
      some ⟨"MFA_RESET_BY_ADMIN", actorOf headers, (d.key id).map fun key => ("user", keyText key)⟩
  | .createCandidate headers _, .candidate row =>
      some ⟨"CANDIDATE_CREATED", actorOf headers, some ("candidate", row.id.text)⟩
  | .uploadReferencePhoto headers candidateId _, _ =>
      some ⟨"CANDIDATE_REFERENCE_PHOTO_ENROLLED", actorOf headers, some ("candidate", candidateId)⟩
  | .revokeTemplate headers candidateId _, _ =>
      some ⟨"CANDIDATE_TEMPLATE_REVOKED", actorOf headers, some ("candidate", candidateId)⟩
  | _, _ => none

/-! ## What a path covers -/

/-- The bearer token is accepted whenever the clock is read. -/
def AcceptedThroughout (headers : Headers) (evs : List Step) : Prop :=
  ∀ ev ∈ evs, ev.op = .auth .utcNow →
    (headers.authorization.bind (Auth.Token.accessClaims ev.env.now)).isSome

/-- No audit event fails to be stored. -/
def AuditsSucceed (evs : List Step) : Prop := ∀ ev ∈ evs, ev.op.Audits → ev.env.fails = false

/-- The second factor of this user is not enabled. -/
def Database.Pending (s : Database) (u : Uuid) : Prop :=
  ∀ row ∈ s.auth.mfaCredentials u, row.enabledAt = none

/-- The paths on which a success comes with its event. -/
def Request.Covers (request : Request) (s : Database) (evs : List Step) : Prop :=
  match request with
  | .banUser headers _ _ | .unbanUser headers _ | .changeRole headers _ _
  | .auth (.mfaResetRoute headers _) => AcceptedThroughout headers evs
  -- the event of a deletion is best-effort
  | .deleteUser headers _ => AcceptedThroughout headers evs ∧ AuditsSucceed evs
  -- a second factor that is already enabled is confirmed once more without an event
  | .auth (.enrollConfirm headers _) => ∀ u ∈ headers.bearer, s.Pending u
  | .auth (.challengeEnrollConfirm _ mfaToken _) => ∀ u ∈ mfaToken.subject .enrollment, s.Pending u
  | _ => True

/-! ## Stored events stay -/

section Stay

variable {d : Deployment} {α β : Type} {due : Due}

/-- Only an insert writes `audit_events`. -/
theorem auditEvents_exec {op : Op} (hop : ¬ op.Audits) (e : Env) (s : Database) :
    (exec d op e s).1.auth.auditEvents = s.auth.auditEvents := by
  cases op with
  | auth c =>
      show (Auth.exec d.toPlatform c e s.auth).1.auditEvents = s.auth.auditEvents
      cases c with
      | db q =>
          simp only [Auth.exec]
          split_ifs
          · rfl
          · cases q with
            | insertAuditEvent event => exact absurd trivial hop
            | _ =>
                simp only [Auth.Query.perform, Auth.Server.updateMfaCredential,
                  Auth.Server.upsertMfaCredential, Auth.Server.setMfaCredential,
                  Auth.Server.updateSessions, Auth.Server.revokeSessions]
                all_goals split <;> rfl
      | _ => rfl
  | db q =>
      simp only [exec]
      split_ifs
      · rfl
      · rfl
      · cases q with
        | recordReviewDecision entry =>
            show (s.record (d.now e.now) entry).1.auth.auditEvents = _
            rcases record_cases s (d.now e.now) entry with
              ⟨-, h⟩ | ⟨_, -, -, h⟩ | ⟨_, _, -, -, h⟩ <;> rw [h]
        | _ => rfl
  | _ => rfl

theorem auditEvents_mem {op : Op} {e : Env} {s : Database} {event : Audit.NewAuditEvent}
    (h : event ∈ s.auth.auditEvents) : event ∈ (exec d op e s).1.auth.auditEvents := by
  by_cases hop : op.Audits
  · unfold Op.Audits at hop
    split at hop
    next inserted =>
      show event ∈ (Auth.exec d.toPlatform _ e s.auth).1.auditEvents
      cases hf : e.fails with
      | true => rwa [Auth.exec_db_of_fails _ hf]
      | false =>
          rw [Auth.exec_db_of_succeeds _ hf]
          exact List.mem_append_left _ h
    · exact hop.elim
  · rwa [auditEvents_exec hop]

theorem records_run {s : Database} (h : s.Records due) (p : Handler α) (ω : Nat → Env) :
    (p.run (exec d) ω s).2.Records due := by
  induction p generalizing ω s with
  | done a => exact h
  | call op next ih =>
      rcases h with ⟨event, hevent, hmatches⟩
      exact ih _ ⟨event, auditEvents_mem hevent, hmatches⟩ _

end Stay

/-! ## Routes that always store their event -/

/-- A success comes with the event due for it. -/
def Stores (d : Deployment) (due : Reply → Option Due) (p : Handler Reply) : Prop :=
  ∀ ω s k, (p.run (exec d) ω s).1.status < 400 → due (p.run (exec d) ω s).1 = some k →
    (p.run (exec d) ω s).2.Records k

section Stores

variable {d : Deployment} {due : Reply → Option Due} {α : Type}

theorem stores_bind {p : Handler α} {f : α → Handler Reply} {P : Op → Prop} {R : α → Prop}
    (hp : p.Performs (exec d) P R) (hf : ∀ a, R a → Stores d due (f a)) :
    Stores d due (p >>= f) := by
  intro ω s
  rw [run_bind]
  exact hf _ (hp.run_result ω s) _ _

theorem stores_then {p : Handler α} {f : α → Handler Reply} (hf : ∀ a, Stores d due (f a)) :
    Stores d due (p >>= f) := by
  intro ω s
  rw [run_bind]
  exact hf _ _ _

theorem stores_failure (headers : Headers) (code messageKey : String) :
    Stores d due (return failure headers code messageKey) :=
  fun _ _ _ h => absurd h (failure_status _ _ _)

/-- Once its event is stored a handler may go on in any way. -/
theorem stores_audited {r : Audit.AuditRecorder} {g : Except Auth.ApiError Unit → Handler Reply}
    (hr : ∀ ω s, ∀ k ∈ due ((g (.ok ())).run (exec d) ω s).1, ∀ org, k.Matches (r.toNewEvent org))
    (hfails : ∀ err, Stores d due (g (.error err))) :
    Stores d due (lift (Auth.saveMandatory d.toPlatform r) >>= g) := by
  intro ω s k
  rcases run_auth_saveMandatory d.toPlatform r ω s.auth with ⟨org, e, hrun⟩
  unfold lift
  rw [run_bind, (authPart d).run_embed]
  simp only [authPart, hrun]
  split_ifs
  · exact hfails _ _ _ k
  · intro _ hk
    exact records_run ⟨_, List.mem_append_right _ (List.mem_singleton_self _), hr _ _ k hk org⟩ _ _

theorem stores_saveMandatory {headers : Headers} {r : Audit.AuditRecorder} {reply : Reply}
    (hr : ∀ k ∈ due reply, ∀ org, k.Matches (r.toNewEvent org)) :
    Stores d due (saveMandatory d headers r reply) :=
  stores_audited (fun _ _ => hr) fun _ => stores_failure _ _ _

variable {headers : Headers}

/-- Behind a bearer token the actor is its user. -/
theorem stores_signedIn {policy : Policy} {route : Auth.Claims → Handler Reply}
    (hroute : ∀ claims, actorOf headers = some claims.id.text → Stores d due (route claims)) :
    Stores d due (signedIn headers policy route) := by
  refine stores_bind (authUserFromHeaders_performs headers) fun claims hclaims => ?_
  split
  · exact stores_failure _ _ _
  next claims =>
    split_ifs
    · refine hroute claims ?_
      unfold actorOf
      rw [hclaims claims rfl]
      rfl
    · exact stores_failure _ _ _

theorem review_stores (candidateId : String) (payload : ReviewPayload) (decision : Decision) :
    Stores d (Request.due d (.review headers candidateId payload decision))
      (review d headers candidateId payload decision) := by
  refine stores_bind (authUserFromHeaders_performs headers) fun claims hclaims => ?_
  split
  · exact stores_failure _ _ _
  next claims =>
    refine stores_bind (requireRole_performs headers _) fun allowed _ => ?_
    split_ifs
    · refine stores_bind (actingName_performs claims) fun name _ => ?_
      refine stores_bind (program_performs d ⟨payload.searchId, candidateId, decision, claims.id,
        name, payload.reason, payload.notes, Auth.requestId headers⟩) fun outcome _ => ?_
      match outcome with
      | .error err => exact stores_failure _ _ _
      | .ok .notFound => exact stores_failure _ _ _
      | .ok .sameReviewerForbidden =>
          exact stores_bind (save_performs _) fun _ _ => stores_failure _ _ _
      | .ok (.applied row) =>
          refine stores_saveMandatory fun k hk org => ?_
          rcases Option.mem_some_iff.mp hk with rfl
          refine ⟨rfl, rfl, ?_, ?_⟩
          · unfold actorOf
            rw [hclaims claims rfl]
            rfl
          · rintro _ ⟨⟩
            exact ⟨rfl, rfl⟩
    · exact stores_failure _ _ _

theorem createCandidate_stores (payload : CreateCandidatePayload) :
    Stores d (Request.due d (.createCandidate headers payload))
      (createCandidateRoute d headers payload) := by
  refine stores_signedIn fun claims hactor => ?_
  dsimp only
  split_ifs
  · exact stores_failure _ _ _
  · refine stores_then fun organizationId => stores_then fun created => ?_
    cases created with
    | error err => exact stores_failure _ _ _
    | ok candidate =>
        refine stores_saveMandatory fun k hk org => ?_
        rcases Option.mem_some_iff.mp hk with rfl
        refine ⟨rfl, rfl, hactor.symm, ?_⟩
        rintro _ ⟨⟩
        exact ⟨rfl, rfl⟩

theorem uploadReferencePhoto_stores (candidateId : String) (image : Option (List UInt8)) :
    Stores d (Request.due d (.uploadReferencePhoto headers candidateId image))
      (uploadReferencePhoto d headers candidateId image) := by
  refine stores_signedIn fun claims hactor => stores_then fun found => ?_
  split
  · exact stores_failure _ _ _
  · exact stores_failure _ _ _
  next candidate =>
    refine stores_then fun authorized => ?_
    split_ifs
    · exact stores_failure _ _ _
    · split
      · exact stores_failure _ _ _
      · split
        · exact stores_failure _ _ _
        · refine stores_then fun enrolled => ?_
          split
          · exact stores_failure _ _ _
          · refine stores_then fun inserted => ?_
            split
            · refine stores_audited (fun ω s k hk org => ?_) fun err => stores_failure _ _ _
              rcases Option.mem_some_iff.mp hk with rfl
              refine ⟨rfl, rfl, hactor.symm, ?_⟩
              rintro _ ⟨⟩
              exact ⟨rfl, rfl⟩
            · exact stores_failure _ _ _

theorem revokeTemplate_stores (candidateId templateId : String) :
    Stores d (Request.due d (.revokeTemplate headers candidateId templateId))
      (revokeTemplateRoute d headers candidateId templateId) := by
  refine stores_signedIn fun claims hactor => stores_then fun found => ?_
  split
  · refine stores_then fun authorized => ?_
    split_ifs
    · exact stores_failure _ _ _
    · refine stores_then fun revoked => ?_
      split
      · refine stores_saveMandatory fun k hk org => ?_
        rcases Option.mem_some_iff.mp hk with rfl
        refine ⟨rfl, rfl, hactor.symm, ?_⟩
        rintro _ ⟨⟩
        exact ⟨rfl, rfl⟩
      · exact stores_failure _ _ _
      · exact stores_failure _ _ _
  · exact stores_failure _ _ _

/-- An error of authentication is no success either. -/
theorem error_status (e : Auth.ApiError) : ¬ (Reply.ofResponse e.intoResponse).status < 400 :=
  Nat.not_lt.mpr (authStatusCode_ge e)

theorem stores_error (e : Auth.ApiError) : Stores d due (answered (return e.intoResponse)) :=
  fun _ _ _ h => absurd h (error_status e)

theorem removeOwnCredential_stores {claims : Auth.Claims} (password code : String)
    (hactor : actorOf headers = some claims.id.text) :
    Stores d (Request.due d (.auth (.disable headers password code)))
      (answered (Auth.removeOwnCredential d.toPlatform headers claims)) := by
  unfold Auth.removeOwnCredential
  rw [answered_bind]
  refine stores_then fun removed => ?_
  split
  · exact stores_error _
  · rw [answered_bind]
    refine stores_audited (fun ω s k hk org => ?_) fun err => stores_error _
    rcases Option.mem_some_iff.mp hk with rfl
    exact ⟨rfl, rfl, hactor.symm, nofun⟩

theorem disable_stores (password code : String) :
    Stores d (Request.due d (.auth (.disable headers password code)))
      (answered (Auth.disable d.toPlatform headers password code)) := by
  unfold Auth.disable
  rw [answered_bind]
  refine stores_bind (authUserFromHeaders_performs headers) fun claims hclaims => ?_
  split
  · exact stores_error _
  next claims =>
    have hactor : actorOf headers = some claims.id.text := by
      unfold actorOf
      rw [hclaims claims rfl]
      rfl
    rw [answered_bind]
    refine stores_then fun user => ?_
    split
    · exact stores_error _
    · split_ifs
      · rw [answered_bind]
        refine stores_then fun verified => ?_
        split
        · exact removeOwnCredential_stores password code hactor
        · exact removeOwnCredential_stores password code hactor
        · exact stores_error _
      · exact stores_error _

end Stores

/-! ## Routes whose event depends on the path -/

/-- Neither reading the clock nor storing an audit event. -/
def Op.Plain (op : Op) : Prop := op ≠ .auth .utcNow ∧ ¬ op.Audits

theorem Op.LooksUp.plain {op : Op} (h : op.LooksUp) : op.Plain := by
  constructor
  · rintro rfl
    exact h
  · intro haudits
    unfold Op.Audits at haudits
    split at haudits
    · exact h
    · exact haudits

theorem Op.WritesAccounts.plain {op : Op} (h : op.WritesAccounts) : op.Plain := by
  constructor
  · rintro rfl
    exact h
  · intro haudits
    unfold Op.Audits at haudits
    split at haudits
    · exact h
    · exact haudits

theorem Op.Revokes.plain {op : Op} (h : op.Revokes) : op.Plain := by
  constructor
  · rintro rfl
    exact h
  · intro haudits
    unfold Op.Audits at haudits
    split at haudits
    · exact h
    · exact haudits

theorem writes_plain (op : Op) (h : op.LooksUp ∨ op.WritesAccounts) : op.Plain :=
  h.elim (fun h => h.plain) fun h => h.plain

/-- A success has its event exactly if there was one before or the path covers it. -/
def Accounts (s₀ : Database) (due : Reply → Option Due) (C : List Step → Prop)
    (evs : List Step) (reply : Reply) (s : Database) : Prop :=
  reply.status < 400 → ∀ k, due reply = some k → (s.Records k ↔ s₀.Records k ∨ C evs)

theorem records_append {s s₀ : Database} {event : Audit.NewAuditEvent} {k : Due}
    (h : s.auth.auditEvents = s₀.auth.auditEvents ++ [event]) :
    s.Records k ↔ s₀.Records k ∨ k.Matches event := by
  unfold Database.Records
  rw [h]
  constructor
  · rintro ⟨event', hmem, hmatches⟩
    rcases List.mem_append.mp hmem with hmem | hmem
    · exact Or.inl ⟨event', hmem, hmatches⟩
    · rcases List.mem_singleton.mp hmem with rfl
      exact Or.inr hmatches
  · rintro (⟨event', hmem, hmatches⟩ | hmatches)
    · exact ⟨event', List.mem_append_left _ hmem, hmatches⟩
    · exact ⟨event, List.mem_append_right _ (List.mem_singleton_self _), hmatches⟩

theorem records_congr {s s₀ : Database} {k : Due}
    (h : s.auth.auditEvents = s₀.auth.auditEvents) : s.Records k ↔ s₀.Records k := by
  unfold Database.Records
  rw [h]

section Paths

variable {d : Deployment} {due : Reply → Option Due} {C : List Step → Prop} {α : Type}
  {headers : Headers} {s s₀ : Database}

theorem accounts_of_refusal {evs : List Step} {reply : Reply} (h : ¬ reply.status < 400) :
    Accounts s₀ due C evs reply s := fun hstatus => absurd hstatus h

theorem plain_wp {p : Handler α} {R : α → Prop} (hp : p.Performs (exec d) Op.Plain R)
    (s : Database) :
    p.wp (exec d) (fun _ => True) (fun evs a s' => (∀ ev ∈ evs, ev.op.Plain) ∧ R a ∧
      s'.auth.auditEvents = s.auth.auditEvents) s := by
  refine hp.wp_same (f := fun s : Database => s.auth.auditEvents) ?_ s
  intro op e s hop
  exact auditEvents_exec hop.2 e s

/-- A part that is plain leaves both sides as they are. -/
theorem accounts_bind {p : Handler α} {f : α → Handler Reply} {R : α → Prop}
    (hp : p.Performs (exec d) Op.Plain R)
    (hC : ∀ evs evs', (∀ ev ∈ evs, ev.op.Plain) → (C (evs ++ evs') ↔ C evs'))
    (hs : s.auth.auditEvents = s₀.auth.auditEvents)
    (hf : ∀ a s', R a → s'.auth.auditEvents = s₀.auth.auditEvents →
      (f a).wp (exec d) (fun _ => True) (Accounts s₀ due C) s') :
    (p >>= f).wp (exec d) (fun _ => True) (Accounts s₀ due C) s := by
  refine wp_bind_of (plain_wp hp s) fun evs a s' h => ?_
  rcases h with ⟨hevs, ha, hsame⟩
  refine wp_mono (fun evs' reply s'' hacc hstatus k hk => ?_) (hf a s' ha (hsame.trans hs))
  rw [hC evs evs' hevs]
  exact hacc hstatus k hk

/-- Reading the bearer token. -/
theorem wp_bearer {token : Auth.Token} (h : headers.authorization = some token)
    {f : Option Auth.Claims → Handler α} {Q : List Step → α → Database → Prop} :
    (lift (Auth.authUserFromHeaders headers) >>= f).wp (exec d) (fun _ => True) Q s ↔
      ∀ e, True → (f (token.accessClaims e.now)).wp (exec d) (fun _ => True)
        (fun evs => Q (⟨.auth .utcNow, e, s, s⟩ :: evs)) s := by
  unfold Auth.authUserFromHeaders
  rw [h]
  rfl

/-- Storing an audit event, with what is made of the result. -/
theorem wp_insertAudit {r : Audit.AuditRecorder} {prog : Auth.Handler α}
    {k : Except DbError Unit → α} (hprog : prog = Auth.resolveOrganizationId d.toPlatform r >>=
      fun org => Auth.query (.insertAuditEvent (r.toNewEvent org)) >>= fun stored =>
        .done (k stored)) :
    (lift prog).wp (exec d) (fun _ => True)
      (fun evs a s' => ∃ stored org, a = k stored ∧ (∀ ev ∈ evs, ev.op ≠ .auth .utcNow) ∧
        match stored with
        | .error _ => ¬ AuditsSucceed evs ∧ s'.auth.auditEvents = s.auth.auditEvents
        | .ok _ => AuditsSucceed evs ∧
            s'.auth.auditEvents = s.auth.auditEvents ++ [r.toNewEvent org]) s := by
  unfold lift
  rw [hprog, embed_bind]
  have hplain := (resolveOrganizationId_performs (d := d) r).weaken fun _ hop => hop.plain
  refine wp_bind_of (plain_wp hplain s) fun evs org s' h e _ => ?_
  rcases h with ⟨hevs, -, hsame⟩
  have hclock : ∀ s'' s''' : Database, ∀ ev ∈ evs ++ [⟨.auth (.db (.insertAuditEvent
      (r.toNewEvent org))), e, s'', s'''⟩], ev.op ≠ .auth .utcNow := by
    intro s'' s''' ev hev
    rcases List.mem_append.mp hev with hev | hev
    · exact (hevs ev hev).1
    · rcases List.mem_singleton.mp hev with rfl
      nofun
  have hsucceed : ∀ s'' s''' : Database, AuditsSucceed (evs ++ [⟨.auth (.db (.insertAuditEvent
      (r.toNewEvent org))), e, s'', s'''⟩]) ↔ e.fails = false := by
    intro s'' s'''
    constructor
    · intro h
      exact h _ (List.mem_append_right _ (List.mem_singleton_self _)) trivial
    · intro hf ev hev haudits
      rcases List.mem_append.mp hev with hev | hev
      · exact absurd haudits (hevs ev hev).2
      · rcases List.mem_singleton.mp hev with rfl
        exact hf
  cases hf : e.fails with
  | true =>
      have hexec : exec d (.auth (.db (.insertAuditEvent (r.toNewEvent org)))) e s' =
          (s', .error .failed) := by
        rw [exec_auth, Auth.exec_db_of_fails _ hf]
      dsimp only
      rw [hexec]
      refine ⟨.error .failed, org, rfl, hclock _ _, ?_, hsame⟩
      rw [hsucceed, hf]
      nofun
  | false =>
      have hexec : exec d (.auth (.db (.insertAuditEvent (r.toNewEvent org)))) e s' =
          ({ s' with auth := { s'.auth with
            auditEvents := s'.auth.auditEvents ++ [r.toNewEvent org] } }, .ok ()) := by
        rw [exec_auth, Auth.exec_db_of_succeeds _ hf]
        rfl
      dsimp only
      rw [hexec]
      refine ⟨.ok (), org, rfl, hclock _ _, (hsucceed _ _).mpr hf, ?_⟩
      show s'.auth.auditEvents ++ _ = _
      rw [hsame]

theorem saveMandatory_wp (r : Audit.AuditRecorder) :
    (lift (Auth.saveMandatory d.toPlatform r)).wp (exec d) (fun _ => True)
      (fun evs a s' => (∀ ev ∈ evs, ev.op ≠ .auth .utcNow) ∧
        ((∃ err, a = .error err) ∨ a = .ok () ∧
          ∃ org, s'.auth.auditEvents = s.auth.auditEvents ++ [r.toNewEvent org])) s := by
  refine wp_mono ?_ (wp_insertAudit (r := r) (k := fun stored : Except DbError Unit => match stored with
    | .ok _ => (Except.ok () : Except Auth.ApiError Unit)
    | .error _ => .error ⟨"AUDIT_WRITE_FAILED", "errors.auditWriteFailed", ""⟩) ?_)
  · rintro evs a s' ⟨stored, org, rfl, hclock, h⟩
    cases stored with
    | error err => exact ⟨hclock, Or.inl ⟨_, rfl⟩⟩
    | ok _ => exact ⟨hclock, Or.inr ⟨rfl, org, h.2⟩⟩
  · unfold Auth.saveMandatory
    congr 1
    funext org
    congr 1
    funext stored
    cases stored <;> rfl

/-- A best-effort event is stored unless its insert fails. -/
theorem save_wp (r : Audit.AuditRecorder) :
    (save d r).wp (exec d) (fun _ => True)
      (fun evs _ s' => (∀ ev ∈ evs, ev.op ≠ .auth .utcNow) ∧
        ((¬ AuditsSucceed evs ∧ s'.auth.auditEvents = s.auth.auditEvents) ∨
          AuditsSucceed evs ∧
            ∃ org, s'.auth.auditEvents = s.auth.auditEvents ++ [r.toNewEvent org])) s := by
  unfold save
  refine wp_mono ?_ (wp_insertAudit (r := r) (k := fun _ : Except DbError Unit => ()) rfl)
  · rintro evs a s' ⟨stored, org, -, hclock, h⟩
    cases stored with
    | error err => exact ⟨hclock, Or.inl h⟩
    | ok _ => exact ⟨hclock, Or.inr ⟨h.1, org, h.2⟩⟩

/-! ### Conditions on the path -/

section Conditions

variable {evs evs' : List Step}

theorem accepted_append (h : ∀ ev ∈ evs, ev.op ≠ .auth .utcNow) :
    AcceptedThroughout headers (evs ++ evs') ↔ AcceptedThroughout headers evs' := by
  constructor
  · intro hall ev hev
    exact hall ev (List.mem_append_right _ hev)
  · intro hall ev hev hop
    rcases List.mem_append.mp hev with hev | hev
    · exact absurd hop (h ev hev)
    · exact hall ev hev hop

theorem accepted_cons {token : Auth.Token} (h : headers.authorization = some token) {e : Env} :
    AcceptedThroughout headers (⟨.auth .utcNow, e, s, s⟩ :: evs) ↔
      (token.accessClaims e.now).isSome ∧ AcceptedThroughout headers evs := by
  unfold AcceptedThroughout
  simp only [List.forall_mem_cons, h, Option.bind_some, true_implies]

theorem succeed_append (h : ∀ ev ∈ evs, ¬ ev.op.Audits) :
    AuditsSucceed (evs ++ evs') ↔ AuditsSucceed evs' := by
  constructor
  · intro hall ev hev
    exact hall ev (List.mem_append_right _ hev)
  · intro hall ev hev hop
    rcases List.mem_append.mp hev with hev | hev
    · exact absurd hop (h ev hev)
    · exact hall ev hev hop

end Conditions

/-- The condition of the routes of an administrator. -/
def AdminPath (headers : Headers) (strict : Bool) (evs : List Step) : Prop :=
  AcceptedThroughout headers evs ∧ (strict → AuditsSucceed evs)

theorem adminPath_append {strict : Bool} (evs evs' : List Step) (h : ∀ ev ∈ evs, ev.op.Plain) :
    AdminPath headers strict (evs ++ evs') ↔ AdminPath headers strict evs' := by
  unfold AdminPath
  rw [accepted_append fun ev hev => (h ev hev).1, succeed_append fun ev hev => (h ev hev).2]

theorem adminPath_cons {token : Auth.Token} (h : headers.authorization = some token)
    {strict : Bool} {e : Env} {evs : List Step} :
    AdminPath headers strict (⟨.auth .utcNow, e, s, s⟩ :: evs) ↔
      (token.accessClaims e.now).isSome ∧ AdminPath headers strict evs := by
  have hsilent : ∀ ev ∈ ([⟨.auth .utcNow, e, s, s⟩] : List Step), ¬ ev.op.Audits := by
    simp [Op.Audits]
  have hclock : AuditsSucceed (⟨.auth .utcNow, e, s, s⟩ :: evs) ↔ AuditsSucceed evs :=
    succeed_append hsilent
  unfold AdminPath
  rw [accepted_cons h, hclock, and_assoc]

/-! ### Routes of an administrator -/

/-- Behind the bearer token, its first reading was accepted. -/
theorem accounts_bearer {f : Option Auth.Claims → Handler Reply} {strict : Bool}
    (hnone : ∃ bad, f none = .done bad ∧ ¬ bad.status < 400)
    (hsome : ∀ c, headers.authorization = some (.access c) →
      (f (some c)).wp (exec d) (fun _ => True) (Accounts s due (AdminPath headers strict)) s) :
    (lift (Auth.authUserFromHeaders headers) >>= f).wp (exec d) (fun _ => True)
      (Accounts s due (AdminPath headers strict)) s := by
  rcases hnone with ⟨bad, hbad, hstatus⟩
  cases htoken : headers.authorization with
  | none =>
      have hnone : lift (Auth.authUserFromHeaders headers) = .done none := by
        unfold Auth.authUserFromHeaders
        rw [htoken]
        rfl
      rw [hnone, done_bind, hbad, wp_done]
      exact accounts_of_refusal hstatus
  | some token =>
      refine (wp_bearer htoken).mpr fun e _ => ?_
      cases hclaims : token.accessClaims e.now with
      | none =>
          rw [hbad, wp_done]
          exact accounts_of_refusal hstatus
      | some claims =>
          have haccess := (Auth.Token.accessClaims_eq_some.mp hclaims).1
          rw [haccess] at htoken hclaims
          refine wp_mono (fun evs reply s' hacc hok k hk => ?_) (hsome claims htoken)
          rw [hacc hok k hk, adminPath_cons htoken, hclaims]
          simp

theorem accounts_adminOnly {route : Handler Reply} {strict : Bool}
    (hroute : ∀ c, headers.authorization = some (.access c) →
      route.wp (exec d) (fun _ => True) (Accounts s due (AdminPath headers strict)) s) :
    (adminOnly headers route).wp (exec d) (fun _ => True)
      (Accounts s due (AdminPath headers strict)) s := by
  unfold adminOnly requireRole
  rw [Program.bind_assoc]
  refine accounts_bearer ⟨_, rfl, failure_status _ _ _⟩ fun c htoken => ?_
  simp only [pure_eq_done, done_bind, Option.any_some]
  split_ifs
  · exact hroute c htoken
  · exact accounts_of_refusal (failure_status _ _ _)

/-- The recorder of the event due, up to the actor, which is the claims decoded at
the end. -/
structure Due.RecordedBy (k : Due) (c : Auth.Claims) (r : Option Auth.Claims → Audit.AuditRecorder) :
    Prop where
  actor : k.actor = some c.id.text
  fields : ∀ actor, (r actor).action = k.action ∧ (r actor).result = "success" ∧
    (r actor).actorUserId = actor.map (·.id.text)
  resource : ∀ actor, ∀ resource ∈ k.resource,
    (r actor).resourceType = some resource.1 ∧ (r actor).resourceId = some resource.2

/-- The event is the one due exactly if the token was accepted once more. -/
theorem Due.RecordedBy.matches_iff {k : Due} {c : Auth.Claims}
    {r : Option Auth.Claims → Audit.AuditRecorder} (h : k.RecordedBy c r) (now : Timestamp)
    (org : Option String) :
    k.Matches ((r ((Auth.Token.access c).accessClaims now)).toNewEvent org) ↔
      ((Auth.Token.access c).accessClaims now).isSome := by
  cases hclaims : (Auth.Token.access c).accessClaims now with
  | none =>
      refine iff_of_false (fun hmatches => ?_) (by simp)
      have hactor := hmatches.2.2.1
      rw [h.actor] at hactor
      cases hactor.symm.trans (h.fields none).2.2
  | some claims =>
      rcases Auth.Token.access.inj (Auth.Token.accessClaims_eq_some.mp hclaims).1 with rfl
      rcases h.fields (some c) with ⟨haction, hresult, hactor⟩
      exact iff_of_true ⟨haction, hresult, hactor.trans h.actor.symm, h.resource _⟩ rfl

/-- The end of such a route: the token is decoded once more and names the actor of
a mandatory event. -/
theorem accounts_mandatory {c : Auth.Claims} (htoken : headers.authorization = some (.access c))
    {r : Option Auth.Claims → Audit.AuditRecorder} {g : Except Auth.ApiError Unit → Handler Reply}
    {reply : Reply} (hok : g (.ok ()) = .done reply)
    (hfails : ∀ err, ∃ bad, g (.error err) = .done bad ∧ ¬ bad.status < 400)
    (hr : ∀ k ∈ due reply, k.RecordedBy c r)
    (hs : s.auth.auditEvents = s₀.auth.auditEvents) :
    (lift (Auth.authUserFromHeaders headers) >>= fun actor =>
      lift (Auth.saveMandatory d.toPlatform (r actor)) >>= g).wp (exec d) (fun _ => True)
      (Accounts s₀ due (AdminPath headers false)) s := by
  refine (wp_bearer htoken).mpr fun e _ => ?_
  refine wp_bind_of (saveMandatory_wp _) fun evs stored s' h => ?_
  rcases h with ⟨hclock, ⟨err, rfl⟩ | ⟨rfl, org, hstored⟩⟩
  · rcases hfails err with ⟨bad, hbad, hstatus⟩
    rw [hbad, wp_done]
    exact accounts_of_refusal hstatus
  · rw [hok, wp_done, List.append_nil]
    intro _ k hk
    rw [hs] at hstored
    rw [records_append hstored, (hr k hk).matches_iff, adminPath_cons htoken]
    unfold AdminPath
    have hrest : AcceptedThroughout headers evs := fun ev hev hop => absurd hop (hclock ev hev)
    simp [hrest]

/-- The same with a best-effort event. -/
theorem accounts_save {c : Auth.Claims} (htoken : headers.authorization = some (.access c))
    {r : Option Auth.Claims → Audit.AuditRecorder} {reply : Reply}
    (hr : ∀ k ∈ due reply, k.RecordedBy c r)
    (hs : s.auth.auditEvents = s₀.auth.auditEvents) :
    (lift (Auth.authUserFromHeaders headers) >>= fun actor =>
      save d (r actor) >>= fun _ => return reply).wp (exec d) (fun _ => True)
      (Accounts s₀ due (AdminPath headers true)) s := by
  refine (wp_bearer htoken).mpr fun e _ => ?_
  refine wp_bind_of (save_wp _) fun evs _ s' h => ?_
  rcases h with ⟨hclock, h⟩
  have hrest : AcceptedThroughout headers evs := fun ev hev hop => absurd hop (hclock ev hev)
  rw [pure_eq_done, wp_done, List.append_nil]
  intro _ k hk
  rw [adminPath_cons htoken]
  unfold AdminPath
  rcases h with ⟨hfails, hsame⟩ | ⟨hsucceed, org, hstored⟩
  · rw [records_congr (hsame.trans hs)]
    simp [hfails]
  · rw [hs] at hstored
    rw [records_append hstored, (hr k hk).matches_iff]
    simp [hrest, hsucceed]

/-- The events of the routes about an account. -/
theorem userEvent_recordedBy {c : Auth.Claims} (htoken : headers.authorization = some (.access c))
    (action id : String) :
    (⟨action, actorOf headers, some ("user", id)⟩ : Due).RecordedBy c
      fun actor => userEvent d headers action actor id := by
  refine ⟨?_, fun actor => ?_, fun actor => ?_⟩
  · unfold actorOf Auth.Headers.bearer
    rw [htoken]
    rfl
  · cases actor <;> exact ⟨rfl, rfl, rfl⟩
  · rintro _ ⟨⟩
    exact ⟨rfl, rfl⟩

theorem Due.RecordedBy.withMetadata {k : Due} {c : Auth.Claims}
    {r : Option Auth.Claims → Audit.AuditRecorder} (h : k.RecordedBy c r) (value : Json.Value) :
    k.RecordedBy c fun actor => (r actor).withMetadata value :=
  ⟨h.actor, h.fields, h.resource⟩

theorem banUser_accounts (id : String) (reason : Option String) :
    (banUser d headers id reason).wp (exec d) (fun _ => True)
      (Accounts s (Request.due d (.banUser headers id reason)) (AdminPath headers false)) s := by
  refine accounts_adminOnly fun c htoken => ?_
  refine accounts_bind ((guardTarget_performs id).weaken fun _ h => h.plain) adminPath_append rfl
    fun guarded s₁ _ hs₁ => ?_
  cases guarded with
  | true => exact accounts_of_refusal (failure_status _ _ _)
  | false =>
      refine accounts_bind ((updateUserFlags_performs id _).weaken writes_plain) adminPath_append hs₁
        fun updated s₂ _ hs₂ => ?_
      match updated with
      | .error err => exact accounts_of_refusal (failure_status _ _ _)
      | .ok none => exact accounts_of_refusal (failure_status _ _ _)
      | .ok (some user) =>
          refine accounts_bind ((revokeAllSessionsForUser_performs id).weaken fun _ h => h.plain)
            adminPath_append hs₂ fun _ s₃ _ hs₃ => ?_
          refine accounts_mandatory htoken rfl (fun err => ⟨_, rfl, failure_status _ _ _⟩) ?_ hs₃
          rintro k ⟨⟩
          exact (userEvent_recordedBy htoken _ _).withMetadata _

theorem unbanUser_accounts (id : String) :
    (unbanUser d headers id).wp (exec d) (fun _ => True)
      (Accounts s (Request.due d (.unbanUser headers id)) (AdminPath headers false)) s := by
  refine accounts_adminOnly fun c htoken => ?_
  refine accounts_bind ((updateUserFlags_performs id _).weaken writes_plain) adminPath_append rfl
    fun updated s₁ _ hs₁ => ?_
  match updated with
  | .error err => exact accounts_of_refusal (failure_status _ _ _)
  | .ok none => exact accounts_of_refusal (failure_status _ _ _)
  | .ok (some user) =>
      refine accounts_mandatory htoken rfl (fun err => ⟨_, rfl, failure_status _ _ _⟩) ?_ hs₁
      rintro k ⟨⟩
      exact userEvent_recordedBy htoken _ _

theorem applyRole_accounts {c : Auth.Claims} (htoken : headers.authorization = some (.access c))
    (id previousRole role : String) (hs : s.auth.auditEvents = s₀.auth.auditEvents) :
    (applyRole d headers id previousRole role).wp (exec d) (fun _ => True)
      (Accounts s₀ (Request.due d (.changeRole headers id role)) (AdminPath headers false)) s := by
  refine accounts_bind ((updateUserFlags_performs id _).weaken writes_plain) adminPath_append hs
    fun updated s₁ _ hs₁ => ?_
  match updated with
  | .error err => exact accounts_of_refusal (failure_status _ _ _)
  | .ok none => exact accounts_of_refusal (failure_status _ _ _)
  | .ok (some user) =>
      refine accounts_bind ((revokeAllSessionsForUser_performs id).weaken fun _ h => h.plain)
        adminPath_append hs₁ fun _ s₂ _ hs₂ => ?_
      refine accounts_mandatory htoken rfl (fun err => ⟨_, rfl, failure_status _ _ _⟩) ?_ hs₂
      rintro k ⟨⟩
      exact (userEvent_recordedBy htoken _ _).withMetadata _

theorem changeRole_accounts (id role : String) :
    (changeRole d headers id role).wp (exec d) (fun _ => True)
      (Accounts s (Request.due d (.changeRole headers id role)) (AdminPath headers false)) s := by
  refine accounts_adminOnly fun c htoken => ?_
  split_ifs
  · exact accounts_of_refusal (failure_status _ _ _)
  · refine accounts_bind ((loadTarget_performs id).weaken fun _ h => h.plain) adminPath_append rfl
      fun target s₁ _ hs₁ => ?_
    split
    · exact accounts_of_refusal (failure_status _ _ _)
    next target =>
      split_ifs
      · exact accounts_of_refusal (failure_status _ _ _)
      · refine accounts_bind ((demotesLastAdmin_performs target role).weaken fun _ h => h.plain)
          adminPath_append hs₁ fun demotes s₂ _ hs₂ => ?_
        split_ifs
        · exact accounts_of_refusal (failure_status _ _ _)
        · exact applyRole_accounts htoken id target.role role hs₂

theorem deleteUser_accounts (id : String) :
    (deleteUserRoute d headers id).wp (exec d) (fun _ => True)
      (Accounts s (Request.due d (.deleteUser headers id)) (AdminPath headers true)) s := by
  refine accounts_adminOnly fun c htoken => ?_
  refine accounts_bind ((guardTarget_performs id).weaken fun _ h => h.plain) adminPath_append rfl
    fun guarded s₁ _ hs₁ => ?_
  cases guarded with
  | true => exact accounts_of_refusal (failure_status _ _ _)
  | false =>
      refine accounts_bind ((softDeleteUser_performs id).weaken writes_plain) adminPath_append hs₁
        fun deleted s₂ _ hs₂ => ?_
      match deleted with
      | .error err => exact accounts_of_refusal (failure_status _ _ _)
      | .ok false => exact accounts_of_refusal (failure_status _ _ _)
      | .ok true =>
          refine accounts_bind ((revokeAllSessionsForUser_performs id).weaken fun _ h => h.plain)
            adminPath_append hs₂ fun _ s₃ _ hs₃ => ?_
          refine accounts_save htoken ?_ hs₃
          rintro k ⟨⟩
          exact userEvent_recordedBy htoken _ _

/-! ### Resetting a second factor -/

/-- A statement of authentication other than the insert of an audit event. -/
theorem plain_of_query {q : Auth.Query} (hq : ∀ event, q ≠ .insertAuditEvent event) :
    Op.Plain (.auth (.db q)) := by
  constructor
  · intro h
    cases h
  · intro haudits
    unfold Op.Audits at haudits
    split at haudits
    next event heq =>
      cases heq
      exact hq _ rfl
    · exact haudits

theorem deleteMfaCredential_performs (u : Uuid) :
    (lift (Auth.deleteMfaCredential u)).Performs (exec d) Op.Plain fun _ => True := by
  refine (authPart d).performs_embed
    (P := fun op => op = .db (.deleteMfaCredential u) ∨ op = .db (.deleteRecoveryCodes u)) ?_ ?_
  · unfold Auth.deleteMfaCredential
    refine Auth.performs_query (Or.inl rfl) fun e s => ?_
    split
    · trivial
    · exact ⟨Or.inr rfl, fun _ _ => trivial⟩
  · rintro op (rfl | rfl)
    · exact plain_of_query fun event h => by cases h
    · exact plain_of_query fun event h => by cases h

/-- Whoever is found by a key has the id the key stands for. -/
theorem authLoadTarget_performs (id : String) :
    (lift (Auth.loadTarget d.toPlatform id)).Performs (exec d) Op.Plain
      fun target => ∀ user ∈ target, (d.key id).map keyText = some user.id.text := by
  refine (authPart d).performs_embed (P := fun op => ∃ key, op = .db (.loadUserById key)) ?_ ?_
  · unfold Auth.loadTarget
    cases hkey : d.key id with
    | none => simp
    | some key =>
        refine Auth.performs_query ⟨key, rfl⟩ fun e s => ?_
        cases hf : e.fails with
        | true =>
            rw [Auth.exec_db_of_fails _ hf]
            simp
        | false =>
            rw [Auth.exec_db_of_succeeds _ hf]
            intro user huser
            have hfound := List.find?_some huser
            simp only [Bool.and_eq_true] at hfound
            rw [Option.map_some]
            cases key with
            | uuid u => rw [beq_iff_eq.mp hfound.1]; rfl
            | text t => exact congrArg some (beq_iff_eq.mp hfound.1).symm
  · rintro op ⟨key, rfl⟩
    exact plain_of_query fun event h => by cases h

theorem resetTarget_accounts {c : Auth.Claims} (htoken : headers.authorization = some (.access c))
    {id : String} {target : Auth.UserRow} (htarget : (d.key id).map keyText = some target.id.text)
    (hs : s.auth.auditEvents = s₀.auth.auditEvents) :
    (answered (Auth.resetTarget d.toPlatform headers target)).wp (exec d) (fun _ => True)
      (Accounts s₀ (Request.due d (.auth (.mfaResetRoute headers id)))
        (AdminPath headers false)) s := by
  unfold Auth.resetTarget
  rw [answered_bind]
  refine accounts_bind (deleteMfaCredential_performs target.id) adminPath_append hs
    fun removed s₁ _ hs₁ => ?_
  cases removed with
  | error err => exact accounts_of_refusal (error_status _)
  | ok _ =>
      dsimp only
      rw [answered_bind]
      simp only [answered_bind]
      refine accounts_mandatory htoken rfl
        (fun err => ⟨_, rfl, error_status _⟩) ?_ hs₁
      rintro k ⟨⟩
      refine ⟨?_, fun actor => ?_, fun actor => ?_⟩
      · unfold actorOf Auth.Headers.bearer
        rw [htoken]
        rfl
      · cases actor <;> exact ⟨rfl, rfl, rfl⟩
      · intro resource hresource
        rcases Option.mem_map.mp hresource with ⟨key, hkey, rfl⟩
        rw [Option.mem_def.mp hkey, Option.map_some, Option.some.injEq] at htarget
        exact ⟨rfl, congrArg some htarget.symm⟩

theorem mfaReset_accounts (id : String) :
    (answered (Auth.mfaResetRoute d.toPlatform headers id)).wp (exec d) (fun _ => True)
      (Accounts s (Request.due d (.auth (.mfaResetRoute headers id)))
        (AdminPath headers false)) s := by
  have hrefused : ∀ (e : Auth.ApiError) (s' : Database),
      (answered (return e.intoResponse)).wp (exec d) (fun _ => True)
        (Accounts s (Request.due d (.auth (.mfaResetRoute headers id)))
          (AdminPath headers false)) s' := fun e s' =>
    accounts_of_refusal (error_status e)
  unfold Auth.mfaResetRoute
  rw [answered_bind]
  refine accounts_bearer ⟨_, rfl, error_status _⟩ fun c htoken => ?_
  split_ifs
  · rw [answered_bind]
    refine accounts_bind (authLoadTarget_performs id) adminPath_append rfl
      fun target s₁ htarget hs₁ => ?_
    cases target with
    | none => exact hrefused _ _
    | some target => exact resetTarget_accounts htoken (htarget target rfl) hs₁
  · exact hrefused _ _

/-! ### Enabling a second factor -/

/-- The operations that confirm a pending credential. -/
def Op.Enables : Op → Prop
  | .auth (.compareCode _) | .auth (.totpCheck ..) | .auth .random
  | .auth (.db (.enableEmailMfaCredential ..)) | .auth (.db (.enableMfaCredential ..))
  | .auth (.db (.deleteRecoveryCodes _)) | .auth (.db (.insertRecoveryCode ..)) => True
  | _ => False

theorem Op.Enables.plain {op : Op} (h : op.Enables) : op.Plain := by
  constructor
  · rintro rfl
    exact h
  · intro haudits
    unfold Op.Audits at haudits
    split at haudits
    · exact h
    · exact haudits

/-- The same class among the operations of authentication. -/
def Enables (c : Auth.Call) : Prop := (Op.auth c).Enables

theorem insertRecoveryCodes_enables (u : Uuid) (hashes : List String) :
    (Auth.insertRecoveryCodes u hashes).Performs (Auth.exec d.toPlatform) Enables
      fun _ => True := by
  induction hashes with
  | nil => trivial
  | cons hash hashes ih =>
      refine Auth.performs_query trivial fun e s => ?_
      split
      · trivial
      · exact ih

theorem issueRecoveryCodes_enables (u : Uuid) :
    (Auth.issueRecoveryCodes d.toPlatform u).Performs (Auth.exec d.toPlatform) Enables
      fun outcome => outcome ≠ .ok .alreadyEnabled := by
  have hreplace : ∀ hashes, (Auth.replaceRecoveryCodes u hashes).Performs
      (Auth.exec d.toPlatform) Enables fun _ => True := by
    intro hashes
    refine Auth.performs_query trivial fun e s => ?_
    split
    · trivial
    · exact insertRecoveryCodes_enables u hashes
  refine Auth.performs_perform trivial fun e s => (hreplace _).bind fun replaced _ => ?_
  split <;> simp

theorem enablePending_enables (u : Uuid) (accountName code : String)
    (pending : Auth.MfaCredentialRow) :
    (Auth.enablePending d.toPlatform u accountName code pending).Performs
      (Auth.exec d.toPlatform) Enables fun _ => True := by
  unfold Auth.enablePending
  split
  · refine Auth.performs_perform trivial fun e s => Auth.performs_query trivial fun e s => ?_
    split <;> trivial
  · split
    · refine Auth.performs_perform trivial fun e s => ?_
      have hmatches : (Auth.totpCodeMatches pending.secret accountName code).Performs
          (Auth.exec d.toPlatform) Enables fun _ => True := by
        unfold Auth.totpCodeMatches
        split
        · trivial
        · exact ⟨trivial, fun _ _ => trivial⟩
      refine hmatches.bind fun ok _ => ?_
      split
      · refine Auth.performs_query trivial fun e s => ?_
        split <;> trivial
      · trivial
    · trivial

/-- A confirmation reports the credential as enabled by an earlier one exactly if
it was found enabled. -/
def ConfirmedFrom (s : Database) (u : Uuid) :
    Except Auth.ApiError Auth.ConfirmOutcome → Prop
  | .ok .alreadyEnabled => ¬ s.Pending u
  | .ok (.enabled _) => s.Pending u
  | .error _ => True

theorem confirmEnrollment_wp (u : Uuid) (accountName code : String) :
    (lift (Auth.confirmEnrollment d.toPlatform u accountName code)).wp (exec d) (fun _ => True)
      (fun _ outcome s' => ConfirmedFrom s u outcome ∧
        s'.auth.auditEvents = s.auth.auditEvents) s := by
  intro e _
  dsimp only
  cases hf : e.fails with
  | true =>
      rw [exec_auth, Auth.exec_db_of_fails _ hf]
      exact ⟨trivial, rfl⟩
  | false =>
      rw [exec_auth, Auth.exec_db_of_succeeds _ hf]
      cases hrow : s.auth.mfaCredentials u with
      | none =>
          simp only [Auth.Query.perform, hrow]
          exact ⟨trivial, rfl⟩
      | some pending =>
          simp only [Auth.Query.perform, hrow, Program.bind]
          cases henabled : pending.enabledAt.isSome with
          | true =>
              refine ⟨fun hpending => ?_, rfl⟩
              rw [hpending pending hrow] at henabled
              cases henabled
          | false =>
              have hpending : s.Pending u := by
                intro row hmem
                rw [hrow, Option.mem_some_iff] at hmem
                rw [← hmem]
                exact Option.not_isSome_iff_eq_none.mp (by simp [henabled])
              refine wp_mono (fun evs outcome s' h => ?_)
                (plain_wp (R := fun outcome => outcome ≠ .ok .alreadyEnabled) ?_ s)
              · rcases h with ⟨-, houtcome, hsame⟩
                refine ⟨?_, hsame⟩
                unfold ConfirmedFrom
                split
                · exact absurd rfl houtcome
                · exact hpending
                · trivial
              · refine (authPart d).performs_embed (P := Enables) ?_ fun c h => Op.Enables.plain h
                refine (enablePending_enables u accountName code pending).bind fun enabled _ => ?_
                split
                · simp
                · simp
                · exact issueRecoveryCodes_enables u

/-- An insert of another event changes nothing. -/
theorem records_exec {op : Op} {k : Due}
    (hop : ∀ event, op = .auth (.db (.insertAuditEvent event)) → ¬ k.Matches event) (e : Env)
    (s : Database) : (exec d op e s).1.Records k ↔ s.Records k := by
  by_cases haudits : op.Audits
  · unfold Op.Audits at haudits
    split at haudits
    next event =>
      cases hf : e.fails with
      | true => rw [exec_auth, Auth.exec_db_of_fails _ hf]
      | false =>
          have hstored : (exec d (.auth (.db (.insertAuditEvent event))) e s).1.auth.auditEvents =
              s.auth.auditEvents ++ [event] := by
            rw [exec_auth, Auth.exec_db_of_succeeds _ hf]
            rfl
          rw [records_append hstored, or_iff_left (hop event rfl)]
    · exact haudits.elim
  · exact records_congr (auditEvents_exec haudits e s)

/-- Every audit event inserted has this action. -/
def Logs (action : String) (c : Auth.Call) : Prop :=
  ∀ event, c = .db (.insertAuditEvent event) → event.action = action

theorem logs_of_ne {action : String} {c : Auth.Call}
    (h : ∀ event, c ≠ .db (.insertAuditEvent event)) : Logs action c :=
  fun event heq => absurd heq (h event)

theorem save_logs (r : Audit.AuditRecorder) :
    (Auth.save d.toPlatform r).Performs (Auth.exec d.toPlatform) (Logs r.action) fun _ => True := by
  have hresolve : (Auth.resolveOrganizationId d.toPlatform r).Performs (Auth.exec d.toPlatform)
      (Logs r.action) fun _ => True := by
    unfold Auth.resolveOrganizationId
    split
    · trivial
    · refine Auth.performs_query (logs_of_ne fun _ h => by cases h) fun e s => ?_
      split <;> trivial
  refine hresolve.bind fun org _ => Auth.performs_query ?_ fun e s => trivial
  rintro event ⟨⟩
  rfl

theorem createSession_logs (u : Uuid) (hash : String) (family : Uuid) (expiresAt : Timestamp)
    (userAgent ipAddress : Option String) (createdBy action : String) :
    (Auth.createSession d.toPlatform u hash family expiresAt userAgent ipAddress createdBy).Performs
      (Auth.exec d.toPlatform) (Logs action) fun _ => True := by
  refine Auth.performs_perform (logs_of_ne fun _ h => by cases h) fun e s =>
    Auth.performs_query (logs_of_ne fun _ h => by cases h) fun e s => ?_
  split
  · trivial
  · split
    · trivial
    · refine Auth.performs_query (logs_of_ne fun _ h => by cases h) fun e s => ?_
      split <;> trivial

theorem issueSession_logs (user : Auth.UserRow) (action : String) :
    (Auth.issueSession d.toPlatform user headers).Performs (Auth.exec d.toPlatform) (Logs action)
      fun _ => True := by
  refine Auth.performs_perform (logs_of_ne fun _ h => by cases h) fun e s =>
    Auth.performs_perform (logs_of_ne fun _ h => by cases h) fun e s =>
      Auth.performs_perform (logs_of_ne fun _ h => by cases h) fun e s => ?_
  refine (createSession_logs ..).bind fun created _ => ?_
  split
  · trivial
  · exact Auth.performs_perform (logs_of_ne fun _ h => by cases h) fun e s => trivial

theorem completeLogin_logs (headers : Headers) (user : Auth.UserRow) (codes : Option (List String)) :
    (Auth.completeLogin d.toPlatform user headers codes).Performs (Auth.exec d.toPlatform)
      (Logs "AUTH_LOGIN_SUCCESS") fun _ => True := by
  have hfinish : ∀ pair, (Auth.completeLogin.finish d.toPlatform user headers codes pair).Performs
      (Auth.exec d.toPlatform) (Logs "AUTH_LOGIN_SUCCESS") fun _ => True := by
    intro pair
    have hsave := save_logs (d := d) (Auth.withHeaders d.toPlatform (Auth.withUser
      (Audit.AuditRecorder.new "AUTH_LOGIN_SUCCESS" "success" (Auth.requestId headers)) user)
      headers)
    exact hsave.bind fun _ _ => trivial
  refine (issueSession_logs user _).bind fun issued _ => ?_
  split
  · exact hfinish _
  · -- the retry
    refine (issueSession_logs user _).bind fun issued _ => ?_
    split
    · exact hfinish _
    · trivial

/-- A login that is completed stores no event of another action. -/
theorem completeLogin_records {k : Due} (hk : k.action ≠ "AUTH_LOGIN_SUCCESS") (headers : Headers)
    (user : Auth.UserRow) (codes : Option (List String)) (s : Database) :
    (answered (Auth.completeLogin d.toPlatform user headers codes)).wp (exec d) (fun _ => True)
      (fun _ _ s' => s'.Records k ↔ s.Records k) s := by
  have hperforms : (lift (Auth.completeLogin d.toPlatform user headers codes)).Performs (exec d)
      (fun op => ∀ event, op = .auth (.db (.insertAuditEvent event)) → ¬ k.Matches event)
      fun _ => True := by
    refine (authPart d).performs_embed (completeLogin_logs headers user codes) ?_
    intro c hc event heq hmatches
    exact hk (hmatches.1.symm.trans (hc event (Op.auth.inj heq)))
  have hwp := Performs.wp (E := fun _ => True)
    (T := fun s s' : Database => s'.Records k ↔ s.Records k) (fun _ => Iff.rfl)
    (fun h h' => h'.trans h) (fun op e s _ hop => records_exec hop e s) hperforms s
  exact wp_map (wp_mono (fun evs a s' h => h.2.2) hwp)

/-- Where every path is covered it is enough that the event gets stored. -/
theorem accounts_of_stores {p : Handler Reply} (hp : Stores d due p) (hC : ∀ evs, C evs)
    (s : Database) : p.wp (exec d) (fun _ => True) (Accounts s₀ due C) s := by
  have : Nonempty Env := ⟨⟨0, 0, 0, false⟩⟩
  refine wp_of_run fun ω hstatus k hk => ?_
  exact iff_of_true (hp ω s k hstatus hk) (Or.inr (hC _))

theorem enrollConfirm_accounts (code : String) :
    (answered (Auth.enrollConfirm d.toPlatform headers code)).wp (exec d) (fun _ => True)
      (Accounts s (Request.due d (.auth (.enrollConfirm headers code)))
        fun _ => ∀ u ∈ headers.bearer, s.Pending u) s := by
  have hrefused : ∀ (e : Auth.ApiError) (s' : Database),
      (answered (return e.intoResponse)).wp (exec d) (fun _ => True)
        (Accounts s (Request.due d (.auth (.enrollConfirm headers code)))
          fun _ => ∀ u ∈ headers.bearer, s.Pending u) s' := fun e s' =>
    accounts_of_refusal (error_status e)
  unfold Auth.enrollConfirm
  rw [answered_bind]
  cases htoken : headers.authorization with
  | none =>
      unfold Auth.authUserFromHeaders
      rw [htoken]
      exact hrefused _ _
  | some token =>
      refine (wp_bearer htoken).mpr fun e _ => ?_
      cases hclaims : token.accessClaims e.now with
      | none => exact hrefused _ _
      | some claims =>
          have hbearer : headers.bearer = some claims.id := by
            unfold Auth.Headers.bearer
            rw [htoken, (Auth.Token.accessClaims_eq_some.mp hclaims).1]
          dsimp only
          rw [answered_bind]
          refine wp_bind_of (confirmEnrollment_wp claims.id claims.userCode code)
            fun evs outcome s' h => ?_
          rcases h with ⟨houtcome, hsame⟩
          match outcome with
          | .error err => exact hrefused _ _
          | .ok .alreadyEnabled =>
              intro _ k hk
              rw [records_congr hsame, iff_self_or]
              exact fun hpending => absurd (hpending _ hbearer) houtcome
          | .ok (.enabled codes) =>
              rw [answered_bind]
              refine accounts_of_stores (stores_audited (fun ω s'' k hk org => ?_)
                fun err => stores_error _) (fun _ u hu => ?_) _
              · rcases Option.mem_some_iff.mp hk with rfl
                refine ⟨rfl, rfl, ?_, fun _ h => by cases h⟩
                unfold actorOf
                rw [hbearer]
                rfl
              · rw [hbearer, Option.mem_some_iff] at hu
                rw [← hu]
                exact houtcome

/-- The user a challenge token is about, found again and in order. -/
theorem loadUserOrUnauthorized_wp (u : Uuid) :
    (lift (Auth.loadUserOrUnauthorized u)).wp (exec d) (fun _ => True)
      (fun _ user s' => s' = s ∧ ∀ x ∈ user, x.id = u) s := by
  have hload : (Auth.loadUser u).Performs (Auth.exec d.toPlatform)
      (fun c => c = .db (.loadUserById (.uuid u))) fun user => ∀ x ∈ user, x.id = u := by
    refine Auth.performs_query rfl fun e s => ?_
    cases hr : (Auth.exec d.toPlatform (.db (.loadUserById (.uuid u))) e s).2 with
    | error err => simp
    | ok user =>
        intro x hx
        have hx' : user = some x := hx
        exact Auth.exec_loadUserById (hr.trans (by rw [hx']))
  have hperforms : (Auth.loadUserOrUnauthorized u).Performs (Auth.exec d.toPlatform)
      (fun c => c = .db (.loadUserById (.uuid u))) fun user => ∀ x ∈ user, x.id = u :=
    hload.bind fun user huser x hx => huser x (Option.filter_eq_some_iff.mp hx).1
  have hlifted : (lift (Auth.loadUserOrUnauthorized u)).Performs (exec d)
      (fun op => op = .auth (.db (.loadUserById (.uuid u)))) fun user => ∀ x ∈ user, x.id = u :=
    (authPart d).performs_embed hperforms fun c hc => congrArg Op.auth hc
  have hwp := Performs.wp (E := fun _ => True) (T := fun s s' : Database => s' = s) (fun _ => rfl)
    (fun h h' => h'.trans h) (fun op e s _ hop => by
      rcases hop with rfl
      cases hf : e.fails with
      | true => rw [exec_auth, Auth.exec_db_of_fails _ hf]
      | false => rw [exec_auth, Auth.exec_db_of_succeeds _ hf]; rfl) hlifted s
  exact wp_mono (fun evs user s' h => ⟨h.2.2, h.2.1⟩) hwp

theorem challengeEnrollConfirm_accounts (mfaToken : Auth.Token) (code : String) :
    (answered (Auth.challengeEnrollConfirm d.toPlatform headers mfaToken code)).wp (exec d)
      (fun _ => True)
      (Accounts s (Request.due d (.auth (.challengeEnrollConfirm headers mfaToken code)))
        fun _ => ∀ u ∈ mfaToken.subject .enrollment, s.Pending u) s := by
  have hrefused : ∀ (e : Auth.ApiError) (s' : Database),
      (answered (return e.intoResponse)).wp (exec d) (fun _ => True)
        (Accounts s (Request.due d (.auth (.challengeEnrollConfirm headers mfaToken code)))
          fun _ => ∀ u ∈ mfaToken.subject .enrollment, s.Pending u) s' := fun e s' =>
    accounts_of_refusal (error_status e)
  unfold Auth.challengeEnrollConfirm
  rw [answered_bind]
  refine wp_bind_of (S := fun _ subject s' => s' = s ∧
    ∀ u ∈ subject, mfaToken.subject .enrollment = some u) ?_ fun evs subject s₁ h => ?_
  · intro e _
    refine ⟨rfl, fun u hu => ?_⟩
    rcases Auth.Token.challengeUser_eq_some.mp hu with ⟨exp, rfl, -⟩
    rfl
  · rcases h with ⟨rfl, hsubject⟩
    cases subject with
    | none => exact hrefused _ _
    | some u =>
        dsimp only
        rw [answered_bind]
        refine wp_bind_of (loadUserOrUnauthorized_wp u) fun evs' found s₂ h => ?_
        rcases h with ⟨rfl, hfound⟩
        cases found with
        | none => exact hrefused _ _
        | some user =>
            rcases hfound user rfl with rfl
            dsimp only
            rw [answered_bind]
            refine wp_bind_of (confirmEnrollment_wp user.id user.userCode code)
              fun evs'' outcome s' h => ?_
            rcases h with ⟨houtcome, hsame⟩
            have huser := hsubject _ rfl
            match outcome with
            | .error err => exact hrefused _ _
            | .ok .alreadyEnabled =>
                -- the retry only completes the login
                have hother := completeLogin_records (d := d) (k :=
                  ⟨"MFA_ENABLED", (mfaToken.subject .enrollment).map Uuid.text, none⟩)
                  (by show "MFA_ENABLED" ≠ "AUTH_LOGIN_SUCCESS"; decide) headers user none s'
                refine wp_mono (fun evs reply s'' h _ k hk => ?_) hother
                rcases Option.some.inj hk with rfl
                rw [h, records_congr hsame, iff_self_or]
                exact fun hpending => absurd (hpending _ huser) houtcome
            | .ok (.enabled codes) =>
                dsimp only [Auth.finishEnrollment]
                rw [answered_bind]
                refine accounts_of_stores (stores_audited (fun ω s'' k hk org => ?_)
                  fun err => stores_error _) (fun _ u hu => ?_) _
                · rcases Option.mem_some_iff.mp hk with rfl
                  refine ⟨rfl, rfl, ?_, fun _ h => by cases h⟩
                  rw [huser]
                  rfl
                · rw [huser, Option.mem_some_iff] at hu
                  rw [← hu]
                  exact houtcome

end Paths

/-! ## All mandatory actions -/

section Handlers

variable {d : Deployment} {request : Request} {ω : Nat → Env} {s : Database}

/-- A request is its route. -/
theorem run_handle {p : Handler Reply} (hp : handle d request = p.map some) :
    (handle d request).run (exec d) ω s =
      (some (p.run (exec d) ω s).1, (p.run (exec d) ω s).2) := by
  rw [hp, run_map]

theorem accounted_of_wp {p : Handler Reply} {C : List Step → Prop}
    (hp : handle d request = p.map some)
    (hwp : p.wp (exec d) (fun _ => True) (Accounts s (request.due d) C) s) {reply : Reply} {k : Due}
    (hreply : ((handle d request).run (exec d) ω s).1 = some reply) (hok : reply.status < 400)
    (hk : request.due d reply = some k) :
    ((handle d request).run (exec d) ω s).2.Records k ↔
      s.Records k ∨ C ((handle d request).trace (exec d) ω s) := by
  have hacc := wp_run hwp (ω := ω) fun _ => trivial
  rw [run_handle hp, Option.some.injEq] at hreply
  rw [hreply] at hacc
  rw [run_handle hp, hp, trace_map]
  exact hacc hok k hk

theorem accounted_of_stores {p : Handler Reply} (hp : handle d request = p.map some)
    (hstores : Stores d (request.due d) p) {reply : Reply} {k : Due}
    (hreply : ((handle d request).run (exec d) ω s).1 = some reply) (hok : reply.status < 400)
    (hk : request.due d reply = some k) :
    ((handle d request).run (exec d) ω s).2.Records k ↔ s.Records k ∨ True :=
  accounted_of_wp hp (accounts_of_stores hstores (fun _ => trivial) s) hreply hok hk

/-- A request of authentication is its route. -/
theorem handle_auth {r : Auth.Request} {p : Auth.Handler Auth.Response}
    (hp : Auth.handle d.toPlatform r = p.map some) :
    handle d (.auth r) = (answered p).map some := by
  show (lift (Auth.handle d.toPlatform r)).map (Option.map Reply.ofResponse) = _
  unfold answered lift
  rw [hp, embed_map, map_map, map_map]
  rfl

end Handlers

/-- What a run leaves missing: a success without its event. -/
def Misses (d : Deployment) (request : Request) (ω : Nat → Env) (s : Database) : Prop :=
  ∃ reply ∈ ((handle d request).run (exec d) ω s).1, reply.status < 400 ∧
    ∃ k ∈ request.due d reply, ¬ ((handle d request).run (exec d) ω s).2.Records k

instance (d : Deployment) (request : Request) (ω : Nat → Env) (s : Database) :
    Decidable (Misses d request ω s) := by
  unfold Misses
  infer_instance

/-- A success comes with its audit event exactly if such an event was there before,
or the path covers it. -/
theorem success_audited_iff (d : Deployment) (request : Request) (ω : Nat → Env) (s : Database)
    (reply : Reply) (k : Due) (hreply : ((handle d request).run (exec d) ω s).1 = some reply)
    (hok : reply.status < 400) (hk : request.due d reply = some k) :
    ((handle d request).run (exec d) ω s).2.Records k ↔
      s.Records k ∨ request.Covers s ((handle d request).trace (exec d) ω s) := by
  have hadmin : ∀ (headers : Headers) (evs : List Step),
      AdminPath headers false evs ↔ AcceptedThroughout headers evs := by
    intro headers evs
    simp [AdminPath]
  match request with
  | .banUser headers id reason =>
      rw [accounted_of_wp rfl (banUser_accounts id reason) hreply hok hk, hadmin]
      rfl
  | .unbanUser headers id =>
      rw [accounted_of_wp rfl (unbanUser_accounts id) hreply hok hk, hadmin]
      rfl
  | .changeRole headers id role =>
      rw [accounted_of_wp rfl (changeRole_accounts id role) hreply hok hk, hadmin]
      rfl
  | .deleteUser headers id =>
      rw [accounted_of_wp rfl (deleteUser_accounts id) hreply hok hk]
      simp only [AdminPath, true_implies]
      rfl
  | .auth (.mfaResetRoute headers id) =>
      rw [accounted_of_wp (handle_auth rfl) (mfaReset_accounts id) hreply hok hk, hadmin]
      rfl
  | .auth (.enrollConfirm headers code) =>
      exact accounted_of_wp (handle_auth rfl) (enrollConfirm_accounts code) hreply hok hk
  | .auth (.challengeEnrollConfirm headers mfaToken code) =>
      exact accounted_of_wp (handle_auth rfl) (challengeEnrollConfirm_accounts mfaToken code)
        hreply hok hk
  | .auth (.disable headers password code) =>
      exact accounted_of_stores (handle_auth rfl) (disable_stores password code) hreply hok hk
  | .review headers candidateId payload decision =>
      exact accounted_of_stores rfl (review_stores candidateId payload decision) hreply hok hk
  | .createCandidate headers payload =>
      exact accounted_of_stores rfl (createCandidate_stores payload) hreply hok hk
  | .uploadReferencePhoto headers candidateId image =>
      exact accounted_of_stores rfl (uploadReferencePhoto_stores candidateId image) hreply hok hk
  | .revokeTemplate headers candidateId templateId =>
      exact accounted_of_stores rfl (revokeTemplate_stores candidateId templateId) hreply hok hk
  | .auth (.login ..) | .auth (.enroll ..) | .auth (.enrollResend ..) | .auth (.challengeEnroll ..)
  | .auth (.challengeEnrollResend ..) | .auth (.challengeRequestCode ..)
  | .auth (.challengeVerify ..) | .auth (.refresh ..) | .auth (.logout ..) | .auth (.logoutAll ..)
  | .auth (.revokeOwnSession ..) | .auth .purgeExpiredAuthRecords | .register .. | .resetPassword ..
  | .approveUser .. | .rejectUser .. | .quickApprove .. | .quickReject .. | .createUser ..
  | .updateUser .. | .createSearch .. =>
      cases hk

/-- An account banned by an administrator. -/
def sampleBan : Request := .banUser (sampleBearer sampleAdmin) sampleReviewer.id.text none

theorem success_audited_sample :
    (((handle (sampleDeployment .sqlite) sampleBan).run (exec (sampleDeployment .sqlite))
        (Auth.steadily sampleNow 0) sampleDatabase).2.Records
      ⟨"USER_BANNED", some (Uuid.text 3), some ("user", Uuid.text 5)⟩) ↔
      sampleDatabase.Records ⟨"USER_BANNED", some (Uuid.text 3), some ("user", Uuid.text 5)⟩ ∨
        sampleBan.Covers sampleDatabase ((handle (sampleDeployment .sqlite) sampleBan).trace
          (exec (sampleDeployment .sqlite)) (Auth.steadily sampleNow 0) sampleDatabase) :=
  success_audited_iff (sampleDeployment .sqlite) sampleBan (Auth.steadily sampleNow 0)
    sampleDatabase (message "admin.userBanned") _ rfl (by decide) (by decide)

/-- A pending TOTP credential of an administrator. -/
def samplePending : Database :=
  { sampleDatabase with auth := { sampleDatabase.auth with
      mfaCredentials := Function.update (fun _ => none) sampleAdmin.id
        (some ⟨"GEZDGNBVGY3TQOJQGEZDGNBVGY3TQOJQ", .totp, none, none, none, none⟩) } }

def sampleConfirm : Request := .auth (.enrollConfirm (sampleBearer sampleAdmin) "081804")

/-- Time stands still, and the `n`-th operation fails. -/
def failingAt (n : Nat) (now : Timestamp) : Nat → Env := fun k => ⟨now, now, 0, k == n⟩

/-- The event of a deletion is lost; and a confirmation whose event could not be
stored is answered as a success when it is repeated. -/
theorem success_unaudited :
    (∃ n, Misses (sampleDeployment .sqlite)
      (.deleteUser (sampleBearer sampleAdmin) sampleReviewer.id.text) (failingAt n sampleNow)
      sampleDatabase) ∧
    ∃ n reply s', (handle (sampleDeployment .sqlite) sampleConfirm).run
        (exec (sampleDeployment .sqlite)) (failingAt n sampleNow) samplePending =
          (some reply, s') ∧ reply.status = 500 ∧
      Misses (sampleDeployment .sqlite) sampleConfirm (Auth.steadily sampleNow 0) s' := by
  refine ⟨⟨6, by decide +kernel⟩, 18, _, _, rfl, by decide +kernel, by decide +kernel⟩

end AnatoliaBis.App
