import AnatoliaBis.App.AccountRows
import AnatoliaBis.App.Requests
import AnatoliaBis.Lib.Pool

/-! # Links that act once

The link of a registration and the link of a password reset each stand for a row of
`approval_tokens`. A request with a link writes to `users` only after it has consumed that
row, and consuming is one statement; so, however the statements of any number of such
requests interleave, a row lets one request through at most.
-/

namespace AnatoliaBis.App

open Atomic Program
open Auth (Env Headers Key trim)

/-! ## Requests with a link -/

inductive LinkJob where
  | approve (headers : Headers) (token : LinkToken)
  | reject (headers : Headers) (token : LinkToken)
  | reset (headers : Headers) (token newPassword : String)

namespace LinkJob

variable (d : Deployment)

def handle : LinkJob → Handler Reply
  | .approve headers token => quickApprove d headers token
  | .reject headers token => quickReject d headers token
  | .reset headers token newPassword => resetPassword d headers token newPassword

/-- The hash that the row of the link is looked up by. -/
def hash : LinkJob → String
  | .approve _ token | .reject _ token => d.sha256Hex (d.linkText token)
  | .reset _ token _ => d.sha256Hex (trim token)

/-- What a link must be issued for. -/
def purpose : LinkJob → String
  | .approve .. | .reject .. => approvalPurpose
  | .reset .. => passwordResetPurpose

/-- The link is for this handler: its signed claims say so, or the row does. -/
def Fits : LinkJob → ApprovalTokenRow → Prop
  | .approve _ token, _ | .reject _ token, _ =>
      ∃ claims, token = .approval claims ∧ claims.purpose = approvalPurpose
  | .reset .., row => row.purpose = passwordResetPurpose

/-- What the request has seen of the row before it consumes it. -/
structure Admits (job : LinkJob) (h : List Step) (row : ApprovalTokenRow) : Prop where
  hash : row.tokenHash = job.hash d
  fits : job.Fits row
  unconsumed : row.consumedAt = none
  found : ∃ ev ∈ h, row ∈ ev.before.approvalTokens
  unexpired : ∃ ev ∈ h, ev.op = .auth .utcNow ∧ ¬ row.expiresAt < ev.env.now

end LinkJob

/-- The statement takes effect on the row `x`: it is there, and not consumed yet. -/
structure Consumes (x : Uuid) (ev : Step) : Prop where
  op : ∃ result, ev.op = .db (.consumeApprovalToken x result)
  succeeds : ev.env.fails = false
  held : ∃ row ∈ ev.before.approvalTokens, row.id = x ∧ row.consumedAt = none

/-- Neither writing to `users` nor to `approval_tokens`. -/
def Op.Idle : Op → Prop
  | .db (.consumeApprovalToken ..) | .db (.createApprovalToken ..) => False
  | op => ¬ op.WritesAccounts

/-- Leaving the links alone. -/
def Op.SparesLinks (op : Op) : Prop := op.Idle ∨ op.WritesAccounts

/-- What a request with a link may do after the history `h`. -/
structure LinkJob.May (d : Deployment) (job : LinkJob) (h : List Step) (op : Op) : Prop where
  consumes : ∀ x result, op = .db (.consumeApprovalToken x result) →
    ∃ row, row.id = x ∧ job.Admits d h row
  writes : op.WritesAccounts → ∃ x, ∃ ev ∈ h, Consumes x ev
  creates : ∀ id userId hash purpose expiresAt,
    op ≠ .db (.createApprovalToken id userId hash purpose expiresAt)

/-! ## What the requests keep to -/

section Guarantees

variable {d : Deployment} {job : LinkJob} {h : List Step} {headers : Headers} {α : Type}

theorem Op.Idle.may {op : Op} (hop : op.Idle) : job.May d h op := by
  constructor
  · rintro x result rfl
    exact hop.elim
  · intro hwrites
    unfold Op.Idle at hop
    split at hop
    · exact hop.elim
    · exact hop.elim
    · exact absurd hwrites hop
  · rintro id userId hash purpose expiresAt rfl
    exact hop.elim

theorem Op.LooksUp.idle {op : Op} (hop : op.LooksUp) : op.Idle := by
  unfold Op.LooksUp at hop
  split at hop
  · exact id
  · exact id
  · exact id
  · exact id
  · exact id
  · exact hop.elim

theorem Op.Audits.idle {op : Op} (hop : op.Audits) : op.Idle := by
  unfold Op.Audits at hop
  split at hop
  · exact id
  · exact hop.elim

theorem Op.Revokes.idle {op : Op} (hop : op.Revokes) : op.Idle := by
  unfold Op.Revokes at hop
  split at hop
  · exact id
  · exact hop.elim

/-- Nothing is asked of what comes after the consumption, but that it leaves the links
alone. -/
theorem guarantees_after {p : Handler α} {R : α → Prop}
    (hp : p.Performs (exec d) Op.SparesLinks R) (hconsumed : ∃ x, ∃ ev ∈ h, Consumes x ev) :
    p.Guarantees (exec d) (job.May d) (fun _ _ => True) h := by
  apply hp.guarantees
  · intro evs op _ hop
    rcases hop with hidle | hwrites
    · exact hidle.may
    · rcases hconsumed with ⟨x, ev, hev, hconsumes⟩
      refine ⟨?_, fun _ => ⟨x, ev, List.mem_append_left _ hev, hconsumes⟩, ?_⟩
      · rintro x result rfl
        exact hwrites.elim
      · rintro id userId hash purpose expiresAt rfl
        exact hwrites.elim
  · exact fun _ _ _ _ => trivial

theorem found_of_ok {hash : String} {e : Env} {s : Database} {row : ApprovalTokenRow}
    (hfound : (exec d (.db (.findApprovalTokenByHash hash)) e s).2 = .ok (some row)) :
    row ∈ s.approvalTokens ∧ row.tokenHash = hash := by
  cases hf : e.fails with
  | true =>
      rw [exec_db_of_fails hf] at hfound
      cases hfound
  | false =>
      rw [exec_db_of_succeeds hf rfl] at hfound
      injection hfound with hfound
      have hfirst : (s.approvalTokens.find? fun row => row.tokenHash == hash) = some row := hfound
      have hcond := List.find?_some hfirst
      exact ⟨List.mem_of_find?_eq_some hfirst, beq_iff_eq.mp hcond⟩

theorem consumes_of_ok {x : Uuid} {result : String} {e : Env} {s : Database}
    (hok : (exec d (.db (.consumeApprovalToken x result)) e s).2 = .ok true) :
    Consumes x ⟨.db (.consumeApprovalToken x result), e, s,
      (exec d (.db (.consumeApprovalToken x result)) e s).1⟩ := by
  cases hf : e.fails with
  | true =>
      rw [exec_db_of_fails hf] at hok
      cases hok
  | false =>
      rw [exec_db_of_succeeds hf rfl] at hok
      injection hok with hany
      rcases List.any_eq_true.mp hany with ⟨row, hrow, hcond⟩
      simp only [Bool.and_eq_true, beq_iff_eq, Option.isNone_iff_eq_none] at hcond
      exact ⟨⟨result, rfl⟩, hf, row, hrow, hcond⟩

/-- The statement that consumes the row, once the row and the clock have been seen. -/
theorem may_consume {row : ApprovalTokenRow} (result : String) (hadmits : job.Admits d h row) :
    job.May d h (.db (.consumeApprovalToken row.id result)) := by
  refine ⟨?_, False.elim, ?_⟩
  · rintro x result' heq
    injection heq with heq
    injection heq with hid
    exact ⟨row, hid, hadmits⟩
  · intro id userId hash purpose expiresAt heq
    injection heq with heq
    cases heq

theorem consumeApprovalToken_guarantees {token : LinkToken} (result : String)
    (hhash : job.hash d = d.sha256Hex (d.linkText token))
    (hfits : ∀ claims row, token = .approval claims → claims.purpose = approvalPurpose →
      job.Fits row) :
    (consumeApprovalToken d token result).Guarantees (exec d) (job.May d)
      (fun h claimed => claimed.isSome → ∃ x, ∃ ev ∈ h, Consumes x ev) [] := by
  have hclock : (Op.auth .utcNow).Idle := id
  have hfind : (Op.db (.findApprovalTokenByHash (d.sha256Hex (d.linkText token)))).Idle := id
  have hnone : ∀ h : List Step, (none : Option Uuid).isSome →
      ∃ x, ∃ ev ∈ h, Consumes x ev := fun _ hsome => absurd hsome Bool.false_ne_true
  refine guarantees_perform hclock.may fun e s => ?_
  split
  · exact hnone _
  next claims hclaims =>
    refine guarantees_query hfind.may fun e₁ s₁ => ?_
    split
    next row hfound =>
      rcases found_of_ok hfound with ⟨hrow, hrowHash⟩
      split_ifs with huser
      · refine guarantees_perform hclock.may fun e₂ s₂ => ?_
        split_ifs with hspent
        · exact hnone _
        · rw [not_or] at hspent
          rcases claims_of_taken hclaims with ⟨htoken, -, hpurpose⟩
          refine guarantees_query (may_consume result ?_) fun e₃ s₃ => ?_
          · exact ⟨hrowHash.trans hhash.symm, hfits claims row htoken hpurpose,
              by simpa using hspent.2,
              ⟨_, List.mem_append_left _ List.mem_concat_self, hrow⟩,
              ⟨_, List.mem_concat_self, rfl, hspent.1⟩⟩
          split
          next hok =>
            have hconsumes := consumes_of_ok hok
            exact fun _ => ⟨row.id, _, List.mem_concat_self, hconsumes⟩
          · exact hnone _
      · exact hnone _
    · exact hnone _

/-! ## The three handlers -/

theorem save_spares (r : Audit.AuditRecorder) :
    (save d r).Performs (exec d) Op.SparesLinks fun _ => True :=
  (save_performs r).weaken fun _ h => Or.inl (h.elim (·.idle) (·.idle))

theorem updateUserPassword_spares (id passwordHash : String) :
    (updateUserPassword d id passwordHash).Performs (exec d) Op.SparesLinks fun _ => True := by
  unfold updateUserPassword
  split
  · trivial
  · refine performs_query (Or.inr trivial) fun updated => ?_
    split
    · trivial
    · exact (loadUserById_performs _).weaken fun _ h => Or.inl h.idle

/-- `reset_password`, the link consumed. -/
theorem setPassword_spares (userId : Uuid) (newPassword : String) :
    (setPassword d headers userId newPassword).Performs (exec d) Op.SparesLinks fun _ => True := by
  have hdraw : (Op.auth .random).SparesLinks := Or.inl id
  refine performs_perform hdraw fun salt => ?_
  split
  · trivial
  · apply (updateUserPassword_spares _ _).bind
    intro updated _
    split
    · apply ((revokeAllSessionsForUser_performs _).weaken fun _ h => Or.inl h.idle).bind
      exact fun _ _ => (save_spares _).bind fun _ _ => trivial
    · trivial

theorem quickApprove_may (token : LinkToken) :
    (quickApprove d headers token).Guarantees (exec d)
      ((LinkJob.approve headers token).May d) (fun _ _ => True) [] := by
  have hmail : ∀ user, (sendApproval user).Performs (exec d) Op.SparesLinks fun _ => True := by
    intro user
    unfold sendApproval
    split
    · trivial
    · exact ⟨Or.inl id, fun _ _ => trivial⟩
  have hconsume : (consumeApprovalToken d token "approved").Guarantees (exec d)
      ((LinkJob.approve headers token).May d) _ [] :=
    consumeApprovalToken_guarantees "approved" rfl fun claims _ h h' => ⟨claims, h, h'⟩
  apply hconsume.bind
  intro h claimed hconsumed
  split
  · trivial
  next userId =>
    refine guarantees_after (R := fun _ => True) ?_ (hconsumed rfl)
    have hflags : (updateUserFlags d userId.text approval).Performs (exec d) Op.SparesLinks
        fun _ => True := (updateUserFlags_performs _ _).weaken fun _ h => h.imp (·.idle) id
    apply hflags.bind
    intro updated _
    split
    · exact (hmail _).bind fun _ _ => (save_spares _).bind fun _ _ => trivial
    · trivial
    · trivial

theorem quickReject_may (token : LinkToken) :
    (quickReject d headers token).Guarantees (exec d)
      ((LinkJob.reject headers token).May d) (fun _ _ => True) [] := by
  have hmail : ∀ user, (sendRejection user).Performs (exec d) Op.SparesLinks fun _ => True := by
    intro user
    unfold sendRejection
    split
    · trivial
    · exact ⟨Or.inl id, fun _ _ => trivial⟩
  have hconsume : (consumeApprovalToken d token "rejected").Guarantees (exec d)
      ((LinkJob.reject headers token).May d) _ [] :=
    consumeApprovalToken_guarantees "rejected" rfl fun claims _ h h' => ⟨claims, h, h'⟩
  apply hconsume.bind
  intro h claimed hconsumed
  split
  · trivial
  next userId =>
    refine guarantees_after (R := fun _ => True) ?_ (hconsumed rfl)
    apply ((loadTarget_performs userId.text).weaken fun _ h => Or.inl h.idle).bind
    intro user _
    have hdelete : (deleteUser d userId.text).Performs (exec d) Op.SparesLinks fun _ => True := by
      unfold deleteUser
      split
      · trivial
      · exact ⟨Or.inr trivial, fun _ _ => trivial⟩
    apply hdelete.bind
    intro deleted _
    split
    · apply (save_spares _).bind
      intro _ _
      split
      · exact (hmail _).bind fun _ _ => trivial
      · trivial
    · trivial
    · trivial

theorem resetPassword_may (token newPassword : String) :
    (resetPassword d headers token newPassword).Guarantees (exec d)
      ((LinkJob.reset headers token newPassword).May d) (fun _ _ => True) [] := by
  have hclock : (Op.auth .utcNow).Idle := id
  have hfind : (Op.db (.findApprovalTokenByHash (d.sha256Hex (trim token)))).Idle := id
  unfold resetPassword
  split_ifs
  · trivial
  · refine guarantees_query hfind.may fun e s => ?_
    split
    next row hfound =>
      rcases found_of_ok hfound with ⟨hrow, hrowHash⟩
      split_ifs with hspent
      · trivial
      · rw [not_or, not_not] at hspent
        refine guarantees_perform hclock.may fun e₁ s₁ => ?_
        split_ifs with hexpired
        · trivial
        · refine guarantees_query (may_consume "reset" ?_) fun e₂ s₂ => ?_
          · exact ⟨hrowHash, hspent.1, by simpa using hspent.2,
              ⟨_, List.mem_append_left _ List.mem_concat_self, hrow⟩,
              ⟨_, List.mem_concat_self, rfl, hexpired⟩⟩
          split
          next hok =>
            have hconsumes := consumes_of_ok hok
            exact guarantees_after (setPassword_spares _ _) ⟨row.id, _, List.mem_concat_self, hconsumes⟩
          · trivial
    · trivial

theorem LinkJob.handle_may (job : LinkJob) :
    (job.handle d).Guarantees (exec d) (job.May d) (fun _ _ => True) [] := by
  cases job with
  | approve headers token => exact quickApprove_may token
  | reject headers token => exact quickReject_may token
  | reset headers token newPassword => exact resetPassword_may token newPassword

end Guarantees

/-! ## The rows of the links -/

/-- The same link, a consumed one staying so. -/
structure SameLink (row row' : ApprovalTokenRow) : Prop where
  id : row'.id = row.id
  hash : row'.tokenHash = row.tokenHash
  purpose : row'.purpose = row.purpose
  expiry : row'.expiresAt = row.expiresAt
  unconsumed : row'.consumedAt = none → row.consumedAt = none

/-- No link is added, and none is restored. -/
def LinksKept (s s' : Database) : Prop :=
  ∀ row' ∈ s'.approvalTokens, ∃ row ∈ s.approvalTokens, SameLink row row'

section Rows

variable {d : Deployment} {s s' s'' : Database} {x : Uuid} {ev : Step}

theorem LinksKept.refl (s : Database) : LinksKept s s :=
  fun row hrow => ⟨row, hrow, rfl, rfl, rfl, rfl, fun h => h⟩

theorem LinksKept.trans (h : LinksKept s s') (h' : LinksKept s' s'') : LinksKept s s'' := by
  intro row'' hrow''
  rcases h' row'' hrow'' with ⟨row', hrow', hsame'⟩
  rcases h row' hrow' with ⟨row, hrow, hsame⟩
  exact ⟨row, hrow, hsame'.id.trans hsame.id, hsame'.hash.trans hsame.hash,
    hsame'.purpose.trans hsame.purpose, hsame'.expiry.trans hsame.expiry,
    fun hnone => hsame.unconsumed (hsame'.unconsumed hnone)⟩

theorem linksKept_of_same (h : s'.approvalTokens = s.approvalTokens) : LinksKept s s' := by
  intro row hrow
  rw [h] at hrow
  exact LinksKept.refl s row hrow

theorem linksKept_exec {op : Op} (h : ∀ id userId hash purpose expiresAt,
    op ≠ .db (.createApprovalToken id userId hash purpose expiresAt)) (e : Env) (s : Database) :
    LinksKept s (exec d op e s).1 := by
  cases op with
  | db q =>
      apply exec_db_store (I := LinksKept s) (.refl s)
      intro _ _
      cases q with
      | createApprovalToken id userId hash purpose expiresAt =>
          exact absurd rfl (h id userId hash purpose expiresAt)
      | consumeApprovalToken x result =>
          intro row' hrow'
          rcases List.mem_map.mp hrow' with ⟨row, hrow, rfl⟩
          refine ⟨row, hrow, ?_⟩
          split_ifs
          · exact ⟨rfl, rfl, rfl, rfl, nofun⟩
          · exact ⟨rfl, rfl, rfl, rfl, fun h => h⟩
      | recordReviewDecision entry =>
          exact linksKept_of_same
            (record_same (f := Database.approvalTokens) (fun _ _ _ => rfl) s _ entry)
      | _ => exact linksKept_of_same rfl
  | _ => exact linksKept_of_same rfl

/-- A row that is consumed is not consumed again. -/
theorem Consumes.spent (h : Consumes x ev) (hafter : ev.after = (exec d ev.op ev.env ev.before).1)
    (hkept : LinksKept ev.after s) :
    ∀ row ∈ s.approvalTokens, row.id = x → row.consumedAt ≠ none := by
  rcases ev with ⟨op, e, s₀, s₁⟩
  rcases h with ⟨⟨result, rfl⟩, hf, -⟩
  intro row' hrow' hid hnone
  rcases hkept row' hrow' with ⟨row, hrow, hsame⟩
  rw [hafter, exec_db_of_succeeds hf rfl] at hrow
  rcases List.mem_map.mp hrow with ⟨old, hold, rfl⟩
  have hunconsumed := hsame.unconsumed hnone
  have hidOld := hsame.id
  split_ifs at hunconsumed hidOld with hcond
  · rw [hunconsumed, ← hidOld, hid] at hcond
    simp at hcond

end Rows

/-! ## Any number of requests -/

/-- Nobody else signs: a text that is signed for approval was issued for approval. -/
def Database.SignedAsIssued (d : Deployment) (s : Database) : Prop :=
  ∀ row ∈ s.approvalTokens, ∀ claims : ApprovalClaims, claims.purpose = approvalPurpose →
    row.tokenHash = d.sha256Hex (d.linkText (.approval claims)) → row.purpose = approvalPurpose

section Pools

variable {ι : Type} [DecidableEq ι]

def linkPool (d : Deployment) (jobs : ι → LinkJob) (s : Database) :
    Pool ι Op Op.Res Reply Database := ⟨fun i => (jobs i).handle d, s⟩

/-- A request that writes to `users` has consumed a link before; no two requests consume the
same one; and a link is consumed by a request it was issued for, which found it neither
consumed nor, when it looked at the clock, expired. -/
structure LinksActOnce (d : Deployment) (jobs : ι → LinkJob) (s : Database)
    (log : List (ι × Step)) : Prop where
  gated : ∀ before i ev later, log = before ++ (i, ev) :: later → StoresAccount ev →
    ∃ x link, (i, link) ∈ before ∧ Consumes x link
  once : ∀ x i j link link', (i, link) ∈ log → (j, link') ∈ log → Consumes x link →
    Consumes x link' → i = j
  admitted : ∀ before i link later x, log = before ++ (i, link) :: later → Consumes x link →
    ∃ row ∈ s.approvalTokens, row.id = x ∧ row.tokenHash = (jobs i).hash d ∧
      row.purpose = (jobs i).purpose ∧ row.consumedAt = none ∧
        ∃ clock, (i, clock) ∈ before ∧ clock.op = .auth .utcNow ∧
          ¬ row.expiresAt < clock.env.now

variable {d : Deployment} {jobs : ι → LinkJob} {s : Database}

/-- Where signatures are not forged, the row of a link that fits is one for its handler. -/
theorem LinkJob.Fits.purpose {job : LinkJob} {row row' : ApprovalTokenRow}
    (hsigned : ∀ claims : ApprovalClaims, claims.purpose = approvalPurpose →
      row.tokenHash = d.sha256Hex (d.linkText (.approval claims)) → row.purpose = approvalPurpose)
    (hhash : row.tokenHash = job.hash d) (hpurpose : row'.purpose = row.purpose)
    (hfits : job.Fits row') : row.purpose = job.purpose := by
  cases job with
  | approve headers token =>
      rcases hfits with ⟨claims, rfl, hclaims⟩
      exact hsigned claims hclaims hhash
  | reject headers token =>
      rcases hfits with ⟨claims, rfl, hclaims⟩
      exact hsigned claims hclaims hhash
  | reset headers token newPassword => exact hpurpose.symm.trans hfits

/-- Each operation is one the request may do after those that it has done. -/
theorem linkPool_may (schedule : List (ι × Env)) (before : List (ι × Step)) (i : ι) (ev : Step)
    (later : List (ι × Step))
    (hlog : (linkPool d jobs s).log (exec d) schedule = before ++ (i, ev) :: later) :
    (jobs i).May d (Pool.own i before) ev.op :=
  (Pool.guarantees (c := linkPool d jobs s) (fun i => (jobs i).handle_may)
    schedule).2 before i ev later hlog

theorem linksKept_of_executes (jobs : ι → LinkJob) (s : Database) (schedule : List (ι × Env))
    {s₁ s₂ : Database} {l : List (ι × Step)} (hexecutes : Executes (exec d) s₁ (l.map Prod.snd) s₂)
    (hl : l ⊆ (linkPool d jobs s).log (exec d) schedule) : LinksKept s₁ s₂ := by
  apply hexecutes.rel .refl fun h h' => h.trans h'
  intro ev hev hafter
  rcases List.mem_map.mp hev with ⟨⟨i, ev⟩, hentry, rfl⟩
  rcases List.append_of_mem (hl hentry) with ⟨before, later, hlog⟩
  rw [hafter]
  exact linksKept_exec (linkPool_may schedule before i ev later hlog).creates ev.env ev.before

/-- What lies in front of an operation, and between it and a later one. -/
theorem links_around {schedule : List (ι × Env)} {before later : List (ι × Step)} {i : ι}
    {ev : Step} (hlog : (linkPool d jobs s).log (exec d) schedule = before ++ (i, ev) :: later) :
    LinksKept s ev.before ∧ ev.after = (exec d ev.op ev.env ev.before).1 ∧
      ∀ middle j ev' rest, later = middle ++ (j, ev') :: rest → LinksKept ev.after ev'.before := by
  have hexecutes : Executes (exec d) s
      (((linkPool d jobs s).log (exec d) schedule).map Prod.snd) _ :=
    Pool.executes (c := linkPool d jobs s) schedule
  rw [hlog, List.map_append, List.map_cons] at hexecutes
  rcases hexecutes.split with ⟨hfirst, hafter, hrest⟩
  refine ⟨linksKept_of_executes jobs s schedule hfirst ?_, hafter, ?_⟩
  · rw [hlog]
    exact List.subset_append_left _ _
  · rintro middle j ev' rest rfl
    rw [List.map_append, List.map_cons] at hrest
    apply linksKept_of_executes jobs s schedule hrest.split.1
    rw [hlog]
    intro entry hentry
    simp [hentry]

/-- **Links act once**, whatever the order of the statements and whichever of them fail. -/
theorem links_act_once (d : Deployment) (jobs : ι → LinkJob) (s : Database)
    (hs : s.SignedAsIssued d) (schedule : List (ι × Env)) :
    LinksActOnce d jobs s ((linkPool d jobs s).log (exec d) schedule) := by
  constructor
  · intro before i ev later hlog hstores
    have hmay := linkPool_may schedule before i ev later hlog
    rcases hmay.writes hstores.1 with ⟨x, link, hlink, hconsumes⟩
    exact ⟨x, link, Pool.mem_own.mp hlink, hconsumes⟩
  · -- of two consumptions the later one would find the link consumed
    have hnot : ∀ before i link middle j link' rest x,
        (linkPool d jobs s).log (exec d) schedule =
          before ++ (i, link) :: (middle ++ (j, link') :: rest) →
        Consumes x link → ¬ Consumes x link' := by
      intro before i link middle j link' rest x hlog hconsumes hconsumes'
      rcases links_around hlog with ⟨-, hafter, hlater⟩
      rcases hconsumes'.held with ⟨row, hrow, hid, hunconsumed⟩
      exact hconsumes.spent hafter (hlater middle j link' rest rfl) row hrow hid hunconsumed
    intro x i j link link' hi hj hconsumes hconsumes'
    rcases List.append_of_mem hi with ⟨before, later, hlog⟩
    rw [hlog] at hj
    rcases List.mem_append.mp hj with hj | hj
    · rcases List.append_of_mem hj with ⟨first, middle, rfl⟩
      rw [List.append_assoc, List.cons_append] at hlog
      exact absurd hconsumes (hnot _ _ _ _ _ _ _ x hlog hconsumes')
    · rcases List.mem_cons.mp hj with hsame | hj
      · exact (Prod.mk.inj hsame).1.symm
      · rcases List.append_of_mem hj with ⟨middle, rest, rfl⟩
        exact absurd hconsumes' (hnot _ _ _ _ _ _ _ x hlog hconsumes)
  · intro before i link later x hlog hconsumes
    have hmay := linkPool_may schedule before i link later hlog
    rcases hconsumes.op with ⟨result, hop⟩
    rcases hmay.consumes x result hop with ⟨seen, rfl, hadmits⟩
    -- the row that it saw and the row that it consumes are one
    rcases hadmits.found with ⟨look, hlook, hseen⟩
    rcases List.append_of_mem (Pool.mem_own.mp hlook) with ⟨first, middle, rfl⟩
    rw [List.append_assoc, List.cons_append] at hlog
    rcases (links_around hlog).1 seen hseen with ⟨row, hrow, hsame⟩
    have hhash := hsame.hash.symm.trans hadmits.hash
    refine ⟨row, hrow, hsame.id.symm, hhash, ?_, ?_, ?_⟩
    · exact hadmits.fits.purpose (hs row hrow) hhash hsame.purpose
    · exact hsame.unconsumed hadmits.unconsumed
    · rcases hadmits.unexpired with ⟨clock, hclock, hop', hunexpired⟩
      exact ⟨clock, Pool.mem_own.mp hclock, hop', hsame.expiry ▸ hunexpired⟩

end Pools

/-- The link of an approval mail. -/
def sampleLink : ApprovalClaims := ⟨1, approvalPurpose, 0, 1111370309⟩

def sampleLinkText : String :=
  "eyJ0eXAiOiJKV1QiLCJhbGciOiJIUzI1NiJ9.eyJ1c2VyX2lkIjoiMDAwMDAwMDAtMDAwMC0wMDAwLTA" ++
  "wMDAtMDAwMDAwMDAwMDAxIiwicHVycG9zZSI6InJlZ2lzdHJhdGlvbl9hcHByb3ZhbCIsImp0aSI6IjA" ++
  "wMDAwMDAwMDAwMDAwMDAwMDAwMDAwMDAwMDAwMDAwIiwiZXhwIjoxMTExMzcwMzA5fQ.fE2l7qRnJi27" ++
  "3BBOnKb86ZPvuOoVOb6JdSEpZqIDIPg"

def sampleLinkHash : String := "36e301f463ce2088ba96098cd8ef2f5bf60b037d9daf4ffc45bef4150d715203"

def sampleLinkDeployment : Deployment :=
  { sampleDeployment .sqlite with
    sha256Hex := Tabulated.extend ((sampleLinkText, sampleLinkHash) :: Auth.sampleDigestTable)
    approvalTokenText := fun claims => if claims = sampleLink then sampleLinkText else "" }

/-- An applicant, and the row of the link. -/
def sampleInvited : Database :=
  { sampleDatabase with approvalTokens := [⟨20, 1, sampleLinkHash, approvalPurpose, sampleNow,
    Timestamp.seconds 1111370309, none, none⟩] }

/-- Both buttons of the mail. -/
def sampleClicks (second : Bool) : LinkJob :=
  if second then .reject Auth.sampleHeaders (.approval sampleLink)
  else .approve Auth.sampleHeaders (.approval sampleLink)

/-- Both requests have looked the link up before either consumes it. -/
def sampleClickSchedule : List (Bool × Env) :=
  ((List.replicate 3 [false, true]).flatten ++ List.replicate 6 false ++ List.replicate 6 true).map
    fun i => (i, Auth.steadily sampleNow 0 0)

theorem links_act_once_sample :
    LinksActOnce sampleLinkDeployment sampleClicks sampleInvited
      ((linkPool sampleLinkDeployment sampleClicks sampleInvited).log (exec sampleLinkDeployment)
        sampleClickSchedule) := by
  refine links_act_once sampleLinkDeployment sampleClicks sampleInvited ?_ sampleClickSchedule
  intro row hrow claims _ _
  rw [List.mem_singleton.mp hrow]

/-- The first click decides. -/
example : (((linkPool sampleLinkDeployment sampleClicks sampleInvited).after
    (exec sampleLinkDeployment) sampleClickSchedule).store.approvalTokens.map (·.result)) =
      [some "approved"] := by
  decide +kernel

end AnatoliaBis.App
