import AnatoliaBis.Auth.Devices
import AnatoliaBis.Auth.Replay

/-! # What a request does to the sessions, others running beside it

Between two statements of a handler other handlers may store, renew, revoke and remove
sessions. `SessionCall` is what any request of authentication keeps to all the same: a
session is stored under identifiers that the handler has drawn for it, and renewed only
where the handler has seen the presented token recorded.
-/

namespace AnatoliaBis.Auth

open Atomic Program

/-- What a handler does to the sessions after the history `h` of its own operations. -/
inductive SessionCall (p : Platform) (h : List Step) : Call → Prop
  /-- It revokes or removes them at most. -/
  | steady {op : Call} (hop : op.Steady) : SessionCall p h op
  /-- It stores one, both identifiers drawn since it last stored one. -/
  | insert {before since : List Step} (id : Uuid) (c : RefreshClaims) (expiresAt : Timestamp)
      (agent ip : Option String) (createdBy : String) (split : h = before ++ since)
      (fresh : ∀ ev ∈ since, ∀ u, ¬ ev.op.Issues u) (drewId : Drew since id)
      (drewFamily : Drew since c.family) :
      SessionCall p h (.db (.insertSession id c.sub (p.refreshTokenHash c) c.family expiresAt
        agent ip createdBy))
  /-- It renews the one it has found for the presented token. -/
  | rotate {ev : Step} (c d : RefreshClaims) (session : SessionRow) (expiresAt : Timestamp)
      (seen : ev ∈ h) (found : ev.before.session c.family = some session)
      (recorded : session.refreshTokenHash = p.refreshTokenHash c) (family : d.family = c.family)
      (sub : d.sub = c.sub) :
      SessionCall p h (.db (.rotateSession session.id (p.refreshTokenHash d) expiresAt))

section Parts

variable {p : Platform} {α : Type} {R : α → Prop} {h : List Step} {headers : Headers}

theorem guarantees_of_steady {prog : Handler α} (hp : prog.Performs (exec p) Call.Steady R) :
    prog.Guarantees (exec p) (SessionCall p) (fun _ a => R a) h :=
  hp.guarantees (fun _ _ _ hop => .steady hop) fun _ _ _ ha => ha

theorem guarantees_quiet {prog : Handler α} (hp : prog.Performs (exec p) Call.Quiet R) :
    prog.Guarantees (exec p) (SessionCall p) (fun _ a => R a) h :=
  guarantees_of_steady (hp.weaken fun _ => Call.Quiet.steady)

theorem steady_newId : Call.newId.Steady := Call.Quiet.steady trivial

theorem steady_utcNow : Call.utcNow.Steady := Call.Quiet.steady trivial

/-- `create_session`, both identifiers drawn in `since` or by itself. -/
theorem createSession_sessionCalls (before : List Step) {since : List Step} (c : RefreshClaims)
    (expiresAt : Timestamp) (agent ip : Option String) (createdBy : String)
    (hfresh : ∀ ev ∈ since, ∀ u, ¬ ev.op.Issues u) (hfamily : Drew since c.family) :
    (createSession p c.sub (p.refreshTokenHash c) c.family expiresAt agent ip createdBy).Guarantees
      (exec p) (SessionCall p) (fun _ _ => True) (before ++ since) := by
  apply guarantees_perform (.steady steady_newId)
  intro e s
  have hsplit : before ++ since ++ [⟨.newId, e, s, (exec p .newId e s).1⟩] =
      before ++ (since ++ [⟨.newId, e, s, (exec p .newId e s).1⟩]) := List.append_assoc ..
  refine guarantees_query (.insert _ c expiresAt agent ip createdBy hsplit ?_ ?_ ?_)
    fun e' s' => ?_
  · intro ev hev u
    rcases List.mem_append.mp hev with hev | hev
    · exact hfresh ev hev u
    · rcases List.mem_singleton.mp hev with rfl
      exact fun h => h
  · exact ⟨_, List.mem_append_right _ (List.mem_singleton_self _), rfl, rfl⟩
  · rcases hfamily with ⟨ev, hev, hdrew⟩
    exact ⟨ev, List.mem_append_left _ hev, hdrew⟩
  · split
    · trivial
    · split
      · trivial
      · have hfind : (Call.db (.findSessionById (exec p .newId e s).2)).Steady :=
          Call.Quiet.steady trivial
        apply guarantees_query (.steady hfind)
        intro e'' s''
        split <;> trivial

theorem issueSession_sessionCalls (user : UserRow) (h : List Step) :
    (issueSession p user headers).Guarantees (exec p) (SessionCall p) (fun _ _ => True) h := by
  apply guarantees_perform (.steady steady_newId)
  intro e₁ s₁
  apply guarantees_perform (.steady steady_utcNow)
  intro e₂ s₂
  apply guarantees_perform (.steady steady_newId)
  intro e₃ s₃
  let since : List Step := [⟨.newId, e₁, s₁, (exec p .newId e₁ s₁).1⟩, ⟨.utcNow, e₂, s₂, s₂⟩,
    ⟨.newId, e₃, s₃, (exec p .newId e₃ s₃).1⟩]
  have hfresh : ∀ ev ∈ since, ∀ u, ¬ ev.op.Issues u := by simp [since, Call.Issues]
  have hdrew : Drew since s₁.nextId := ⟨_, List.mem_cons_self, rfl, rfl⟩
  have hcreate := createSession_sessionCalls (p := p) h
    ⟨user.id, s₁.nextId, s₃.nextId, (e₂.now + Timestamp.days refreshTokenTtlDays).timestamp⟩
    (e₂.now + Timestamp.days refreshTokenTtlDays) (userAgent headers) (clientIp p headers) "login"
    hfresh hdrew
  have hhistory : h ++ [⟨.newId, e₁, s₁, (exec p .newId e₁ s₁).1⟩] ++
      [⟨.utcNow, e₂, s₂, (exec p .utcNow e₂ s₂).1⟩] ++
      [⟨.newId, e₃, s₃, (exec p .newId e₃ s₃).1⟩] = h ++ since := by simp [since]
  rw [hhistory]
  refine hcreate.bind fun h' created _ => ?_
  split
  · trivial
  · exact guarantees_perform (.steady steady_utcNow) fun _ _ => trivial

end Parts

/-! ## The requests -/

section Requests

variable {p : Platform} {h : List Step} (headers : Headers)

theorem completeLogin_sessionCalls (user : UserRow) (codes : Option (List String))
    (h : List Step) :
    (completeLogin p user headers codes).Guarantees (exec p) (SessionCall p)
      (fun _ _ => True) h := by
  have hfinish : ∀ pair (h : List Step),
      (completeLogin.finish p user headers codes pair).Guarantees (exec p) (SessionCall p)
        (fun _ _ => True) h := by
    intro pair h
    exact guarantees_quiet ((save_performs _).bind fun _ _ => trivial)
  refine (issueSession_sessionCalls user h).bind fun h₁ r _ => ?_
  split
  · exact hfinish _ _
  · -- the retry
    refine (issueSession_sessionCalls user h₁).bind fun h₂ r _ => ?_
    split
    · exact hfinish _ _
    · trivial

theorem login_sessionCalls (userCode password : String) (h : List Step) :
    (login p headers userCode password).Guarantees (exec p) (SessionCall p)
      (fun _ _ => True) h := by
  have hrefuse : ∀ user result reason err (h : List Step),
      (refuseLogin p headers user result reason err).Guarantees (exec p) (SessionCall p)
        (fun _ _ => True) h := fun _ _ _ _ _ => guarantees_quiet (refuseLogin_performs ..)
  have hopen : ∀ user (h : List Step), (openSession p headers user).Guarantees (exec p)
      (SessionCall p) (fun _ _ => True) h := by
    intro user h
    refine (issueSession_sessionCalls user h).bind fun h₁ r _ => ?_
    split
    · trivial
    · exact guarantees_quiet ((save_performs _).bind fun _ _ => trivial)
  have huser : ∀ user (h : List Step), (loginUser p headers user).Guarantees (exec p)
      (SessionCall p) (fun _ _ => True) h := by
    intro user h
    refine (guarantees_quiet (loginMfaOutcome_performs user)).bind fun h₁ outcome _ => ?_
    by_cases hnot : outcome = .notRequired
    · subst hnot
      exact hopen user h₁
    · exact guarantees_quiet (loginChallenge_performs headers user hnot)
  refine (guarantees_quiet (checkLimits_performs (loginLimits_key_ne headers userCode))).bind
    fun h₁ allowed _ => ?_
  split
  · have hload : ∀ code, (Call.db (.loadUserByCode code)).Steady :=
      fun _ => Call.Quiet.steady trivial
    apply guarantees_query (.steady (hload _))
    intro e s
    split
    · trivial
    · exact guarantees_quiet ((save_performs _).bind fun _ _ => trivial)
    · split
      · exact hrefuse ..
      · split
        · exact hrefuse ..
        · split
          · exact hrefuse ..
          · exact huser _ _
  · trivial

/-- A challenge token and the account it names, in front of a handler. -/
theorem guarantees_challenge {token : Token} {purpose : Purpose} {r r' : Response}
    {f : UserRow → Handler Response}
    (hf : ∀ user h, (f user).Guarantees (exec p) (SessionCall p) (fun _ _ => True) h)
    {g : Option Uuid → Handler Response} {g' : Option UserRow → Handler Response}
    (hnone : g none = done r) (hsome : ∀ u, g (some u) = loadUserOrUnauthorized u >>= g')
    (hnone' : g' none = done r') (hsome' : ∀ user, g' (some user) = f user) (h : List Step) :
    (decodeChallengeToken token purpose >>= g).Guarantees (exec p) (SessionCall p)
      (fun _ _ => True) h := by
  refine (guarantees_quiet (decodeChallengeToken_performs token purpose)).bind
    fun h₁ userId _ => ?_
  cases userId with
  | none =>
      rw [hnone]
      trivial
  | some userId =>
      rw [hsome]
      refine (guarantees_quiet (loadUserOrUnauthorized_performs userId)).bind
        fun h₂ found _ => ?_
      cases found with
      | none =>
          rw [hnone']
          trivial
      | some user =>
          rw [hsome']
          exact hf user h₂

theorem challengeEnrollConfirm_sessionCalls (token : Token) (code : String) (h : List Step) :
    (challengeEnrollConfirm p headers token code).Guarantees (exec p) (SessionCall p)
      (fun _ _ => True) h := by
  have hconfirm : ∀ user : UserRow, (confirmEnrollment p user.id user.userCode code).Performs
      (exec p) Call.Steady fun _ => True := by
    intro user
    apply (confirmEnrollment_performs user.id user.userCode code).weaken
    rintro op (hquiet | hop)
    · exact hquiet.steady
    · exact .of_not_rotates (fun _ => hop.not_issues) hop.not_rotates
  refine guarantees_challenge (f := fun user => confirmEnrollment p user.id user.userCode code >>=
    fun outcome => finishEnrollment p headers user outcome) ?_ rfl (fun _ => rfl) rfl
    (fun _ => rfl) h
  intro user h₁
  refine (guarantees_of_steady (hconfirm user)).bind fun h₂ outcome _ => ?_
  unfold finishEnrollment
  split
  · trivial
  · exact completeLogin_sessionCalls headers user _ h₂
  · refine (guarantees_quiet (saveMandatory_performs _)).bind fun h₃ r _ => ?_
    split
    · trivial
    · exact completeLogin_sessionCalls headers user _ h₃

theorem challengeVerify_sessionCalls (token : Token) (code : String) (h : List Step) :
    (challengeVerify p headers token code).Guarantees (exec p) (SessionCall p)
      (fun _ _ => True) h := by
  have hverify : ∀ user : UserRow, (verifyCode p user.id user.userCode code).Performs (exec p)
      Call.Steady fun _ => True := by
    intro user
    apply (verifyCode_performs user.id user.userCode code).weaken
    rintro op (hquiet | hop)
    · exact hquiet.steady
    · exact .of_not_rotates (fun _ => hop.not_issues) hop.not_rotates
  refine guarantees_challenge (f := _) ?_ rfl (fun _ => rfl) rfl (fun _ => rfl) h
  intro user h₁
  have hcheck : ∀ key maxAttempts window, (Call.rateCheck key maxAttempts window).Steady :=
    fun _ _ _ => ⟨fun _ h => h, fun h => h⟩
  apply guarantees_perform (.steady (hcheck _ _ _))
  intro e s
  split
  · refine (guarantees_of_steady (hverify user)).bind fun h₂ outcome _ => ?_
    unfold finishVerification
    split
    · exact completeLogin_sessionCalls headers user none h₂
    · refine (guarantees_quiet (save_performs _)).bind fun h₃ _ _ => ?_
      exact completeLogin_sessionCalls headers user none h₃
    · exact guarantees_quiet ((save_performs _).bind fun _ _ => trivial)
  · trivial

theorem refreshSession_sessionCalls {c : RefreshClaims} {session : SessionRow} {ev : Step}
    (hev : ev ∈ h) (hfound : ev.before.session c.family = some session) :
    (refreshSession p headers c session).Guarantees (exec p) (SessionCall p)
      (fun _ _ => True) h := by
  have hquiet : ∀ (r : Audit.AuditRecorder) (a : Response) (h : List Step),
      (save p r >>= fun _ => done a).Guarantees (exec p) (SessionCall p) (fun _ _ => True) h :=
    fun r a h => guarantees_quiet ((save_performs r).bind fun _ _ => trivial)
  unfold refreshSession
  split_ifs with hreuse
  · exact guarantees_query (.steady (steady_revokeSessionFamily _)) fun e s => hquiet ..
  · simp only [Bool.or_eq_true, bne_iff_ne, not_or, not_not] at hreuse
    apply guarantees_perform (.steady steady_utcNow)
    intro e₁ s₁
    split_ifs
    · exact guarantees_query (.steady (steady_revokeSession _)) fun e s => trivial
    · have hload : (Call.db (.loadUserById (.uuid c.sub))).Steady := Call.Quiet.steady trivial
      apply guarantees_query (.steady hload)
      intro e₂ s₂
      split
      next user huser =>
        split_ifs
        · exact guarantees_query (.steady (steady_revokeSession _)) fun e s => hquiet ..
        · have hid : user.id = c.sub := exec_loadUserById huser
          apply guarantees_perform (.steady steady_utcNow)
          intro e₃ s₃
          apply guarantees_perform (.steady steady_newId)
          intro e₄ s₄
          refine guarantees_query (.rotate c _ session _ (List.mem_append_left _
            (List.mem_append_left _ (List.mem_append_left _ (List.mem_append_left _ hev)))) hfound
            hreuse.2 rfl hid) fun e₅ s₅ => ?_
          · split
            · trivial
            · exact guarantees_perform (.steady steady_utcNow) fun _ _ => hquiet ..
      · trivial

theorem refresh_sessionCalls (h : List Step) :
    (refresh p headers).Guarantees (exec p) (SessionCall p) (fun _ _ => True) h := by
  unfold refresh
  split
  · trivial
  · apply guarantees_perform (.steady steady_utcNow)
    intro e₁ s₁
    split
    · trivial
    next c _ =>
      have hfind : (Call.db (.findSessionByFamily c.family)).Steady := Call.Quiet.steady trivial
      apply guarantees_query (.steady hfind)
      intro e₂ s₂
      split
      next session hsession =>
        refine refreshSession_sessionCalls headers
          (List.mem_append_right _ (List.mem_singleton_self _)) ?_
        cases hf : e₂.fails with
        | true =>
            rw [exec_db_of_fails _ hf] at hsession
            cases hsession
        | false =>
            rw [exec_db_of_succeeds _ hf] at hsession
            injection hsession
      · trivial

/-- **Whatever the others do**, a request keeps to this. -/
theorem handle_sessionCalls (request : Request) (h : List Step) :
    (handle p request).Guarantees (exec p) (SessionCall p) (fun _ _ => True) h := by
  cases hopens : request.opens with
  | false =>
      exact (guarantees_of_steady (handle_steady hopens)).mono (fun _ _ h => h) fun _ _ h => h
  | true =>
      cases request with
      | login headers userCode password =>
          exact (login_sessionCalls headers userCode password h).map fun _ _ _ => trivial
      | challengeVerify headers token code =>
          exact (challengeVerify_sessionCalls headers token code h).map fun _ _ _ => trivial
      | challengeEnrollConfirm headers token code =>
          exact (challengeEnrollConfirm_sessionCalls headers token code h).map fun _ _ _ => trivial
      | refresh headers => exact (refresh_sessionCalls headers h).map fun _ _ _ => trivial
      | _ => cases hopens

end Requests

end AnatoliaBis.Auth
