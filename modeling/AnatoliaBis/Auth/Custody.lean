import AnatoliaBis.Auth.Issued
import AnatoliaBis.Auth.Rotation

/-! # Whose session a refresh token belongs to

Rotation compares the presented token with the recorded hash, never the token's account
with the session's. That they agree all the same is an invariant of the table
(`Server.Accounted`): every recorded hash is that of a token of the session's own account.
It is kept by every request, whichever of its statements fail, and so is what follows for
tokens already handed out: their family is their account's (`Server.Holds`), and once its
sessions are revoked it stays so (`Server.Ended`).
-/

namespace AnatoliaBis.Auth

open Atomic Program

/-! ## The table and its accounts -/

/-- Identifiers have been drawn; the identifier of a row determines its family, the family
the account; and every recorded hash is that of a token of the family and the account. -/
structure Server.Accounted (p : Platform) (s : Server) : Prop where
  drawn : ∀ row ∈ s.sessions, row.id < s.nextId ∧ row.tokenFamilyId < s.nextId
  families : ∀ row ∈ s.sessions, ∀ row' ∈ s.sessions, row.id = row'.id →
    row.tokenFamilyId = row'.tokenFamilyId
  owners : ∀ row ∈ s.sessions, ∀ row' ∈ s.sessions, row.tokenFamilyId = row'.tokenFamilyId →
    row.userId = row'.userId
  recorded : ∀ row ∈ s.sessions, ∃ c : RefreshClaims,
    row.refreshTokenHash = p.refreshTokenHash c ∧ c.family = row.tokenFamilyId ∧
      c.sub = row.userId

/-- A row and what became of it: still the same session, and not revived. -/
structure SameSession (row row' : SessionRow) : Prop where
  id : row'.id = row.id
  family : row'.tokenFamilyId = row.tokenFamilyId
  user : row'.userId = row.userId
  revoked : row.revokedAt.isSome → row'.revokedAt.isSome

/-- From `s` to `s'` every session is of a fresh family or was there before. -/
structure Onward (s s' : Server) : Prop where
  nextId_le : s.nextId ≤ s'.nextId
  rows : ∀ row' ∈ s'.sessions, s.nextId ≤ row'.tokenFamilyId ∨
    ∃ row ∈ s.sessions, SameSession row row'

/-- The sessions of the token's family are its account's. -/
def Server.Holds (s : Server) (c : RefreshClaims) : Prop :=
  c.family < s.nextId ∧ ∀ row ∈ s.sessions, row.tokenFamilyId = c.family → row.userId = c.sub

/-- The family has been drawn, and no session of it is in use. -/
def Server.Ended (s : Server) (f : Uuid) : Prop :=
  f < s.nextId ∧ ∀ row ∈ s.sessions, row.tokenFamilyId = f → row.revokedAt.isSome

section Onward

variable {s s' s'' : Server}

theorem SameSession.refl (row : SessionRow) : SameSession row row := ⟨rfl, rfl, rfl, fun h => h⟩

theorem SameSession.trans {row row' row'' : SessionRow} (h : SameSession row row')
    (h' : SameSession row' row'') : SameSession row row'' :=
  ⟨h'.id.trans h.id, h'.family.trans h.family, h'.user.trans h.user,
    fun hrevoked => h'.revoked (h.revoked hrevoked)⟩

theorem Onward.refl (s : Server) : Onward s s :=
  ⟨Nat.le_refl _, fun row hrow => Or.inr ⟨row, hrow, .refl row⟩⟩

theorem Onward.trans (h : Onward s s') (h' : Onward s' s'') : Onward s s'' := by
  constructor
  · exact h.nextId_le.trans h'.nextId_le
  · intro row'' hrow''
    rcases h'.rows row'' hrow'' with hfresh | ⟨row', hrow', hsame'⟩
    · exact Or.inl (h.nextId_le.trans hfresh)
    · rcases h.rows row' hrow' with hfresh | ⟨row, hrow, hsame⟩
      · rw [← hsame'.family] at hfresh
        exact Or.inl hfresh
      · exact Or.inr ⟨row, hrow, hsame.trans hsame'⟩

/-- A session of a family that had been drawn was there before. -/
theorem Onward.old (h : Onward s s') {f : Uuid} (hf : f < s.nextId) {row' : SessionRow}
    (hrow' : row' ∈ s'.sessions) (hfamily : row'.tokenFamilyId = f) :
    ∃ row ∈ s.sessions, SameSession row row' := by
  rcases h.rows row' hrow' with hfresh | hold
  · rw [hfamily] at hfresh
    exact absurd hf (Nat.not_lt.mpr hfresh)
  · exact hold

theorem Server.Holds.onward {c : RefreshClaims} (hc : s.Holds c) (h : Onward s s') :
    s'.Holds c := by
  constructor
  · exact hc.1.trans_le h.nextId_le
  · intro row' hrow' hfamily
    rcases h.old hc.1 hrow' hfamily with ⟨row, hrow, hsame⟩
    rw [hsame.user]
    exact hc.2 row hrow (hsame.family.symm.trans hfamily)

theorem Server.Ended.onward {f : Uuid} (hf : s.Ended f) (h : Onward s s') : s'.Ended f := by
  constructor
  · exact hf.1.trans_le h.nextId_le
  · intro row' hrow' hfamily
    rcases h.old hf.1 hrow' hfamily with ⟨row, hrow, hsame⟩
    exact hsame.revoked (hf.2 row hrow (hsame.family.symm.trans hfamily))

end Onward

/-- What the handlers keep: the invariant, and nothing is revived or changes hands. -/
def Accounts (p : Platform) (s s' : Server) : Prop :=
  s.Accounted p → s'.Accounted p ∧ Onward s s'

section Accounts

variable {p : Platform} {s s' s'' : Server}

theorem Accounts.refl (s : Server) : Accounts p s s := fun h => ⟨h, .refl s⟩

theorem Accounts.trans (h : Accounts p s s') (h' : Accounts p s' s'') : Accounts p s s'' := by
  intro hs
  have hfirst := h hs
  have hsecond := h' hfirst.1
  exact ⟨hsecond.1, hfirst.2.trans hsecond.2⟩

/-- Where no session is added, what is left to see is what is recorded. -/
theorem accounted_of_rows (hs : s.Accounted p) (hn : s.nextId ≤ s'.nextId)
    (hrows : ∀ row' ∈ s'.sessions, ∃ row ∈ s.sessions, SameSession row row')
    (hrecorded : ∀ row' ∈ s'.sessions, ∃ c : RefreshClaims,
      row'.refreshTokenHash = p.refreshTokenHash c ∧ c.family = row'.tokenFamilyId ∧
        c.sub = row'.userId) : s'.Accounted p ∧ Onward s s' := by
  refine ⟨⟨?_, ?_, ?_, hrecorded⟩, hn, ?_⟩
  · intro row' hrow'
    rcases hrows row' hrow' with ⟨row, hrow, hsame⟩
    rw [hsame.id, hsame.family]
    have hdrawn := hs.drawn row hrow
    exact ⟨hdrawn.1.trans_le hn, hdrawn.2.trans_le hn⟩
  · intro row₁ hrow₁ row₂ hrow₂ hid
    rcases hrows row₁ hrow₁ with ⟨old₁, hold₁, hsame₁⟩
    rcases hrows row₂ hrow₂ with ⟨old₂, hold₂, hsame₂⟩
    rw [hsame₁.id, hsame₂.id] at hid
    rw [hsame₁.family, hsame₂.family]
    exact hs.families old₁ hold₁ old₂ hold₂ hid
  · intro row₁ hrow₁ row₂ hrow₂ hfamily
    rcases hrows row₁ hrow₁ with ⟨old₁, hold₁, hsame₁⟩
    rcases hrows row₂ hrow₂ with ⟨old₂, hold₂, hsame₂⟩
    rw [hsame₁.family, hsame₂.family] at hfamily
    rw [hsame₁.user, hsame₂.user]
    exact hs.owners old₁ hold₁ old₂ hold₂ hfamily
  · intro row' hrow'
    rcases hrows row' hrow' with ⟨row, hrow, hsame⟩
    exact Or.inr ⟨row, hrow, hsame⟩

/-- Rows that are revoked at most, or go. -/
theorem accounts_of_rows (hn : s.nextId ≤ s'.nextId)
    (hrows : ∀ row' ∈ s'.sessions, ∃ row ∈ s.sessions, SameSession row row' ∧
      row'.refreshTokenHash = row.refreshTokenHash) : Accounts p s s' := by
  intro hs
  apply accounted_of_rows hs hn
  · intro row' hrow'
    rcases hrows row' hrow' with ⟨row, hrow, hsame, -⟩
    exact ⟨row, hrow, hsame⟩
  · intro row' hrow'
    rcases hrows row' hrow' with ⟨row, hrow, hsame, hhash⟩
    rw [hhash, hsame.family, hsame.user]
    exact hs.recorded row hrow

theorem accounts_of_same (hn : s.nextId ≤ s'.nextId) (hs : s'.sessions = s.sessions) :
    Accounts p s s' := by
  apply accounts_of_rows hn
  intro row hrow
  rw [hs] at hrow
  exact ⟨row, hrow, .refl row, rfl⟩

theorem accounts_revokeSessions (cond : SessionRow → Bool) (now : Timestamp) (s : Server) :
    Accounts p s (s.revokeSessions cond now) := by
  apply accounts_of_rows
  · exact Nat.le_refl _
  intro row' hrow'
  rcases List.mem_map.mp hrow' with ⟨row, hrow, rfl⟩
  refine ⟨row, hrow, ?_⟩
  split_ifs
  · exact ⟨⟨rfl, rfl, rfl, fun _ => rfl⟩, rfl⟩
  · exact ⟨.refl row, rfl⟩

/-- Storing a new hash. -/
def Call.Renews : Call → Prop
  | .db (.rotateSession ..) => True
  | _ => False

/-- Neither storing a session nor renewing one. -/
def Call.Steady (op : Call) : Prop := (∀ u, ¬ op.Issues u) ∧ ¬ op.Renews

theorem Call.Steady.of_not_rotates {op : Call} (hissues : ∀ u, ¬ op.Issues u)
    (h : ¬ op.Rotates) : op.Steady := by
  refine ⟨hissues, ?_⟩
  intro hrenews
  unfold Call.Renews at hrenews
  split at hrenews
  · exact h trivial
  · exact hrenews

theorem Call.Quiet.steady {op : Call} (h : op.Quiet) : op.Steady :=
  .of_not_rotates (fun _ => h.not_issues) h.not_rotates

theorem steady_revokeSession (id : Uuid) : (Call.db (.revokeSession id)).Steady :=
  ⟨fun _ h => h, fun h => h⟩

theorem steady_revokeSessionFamily (family : Uuid) :
    (Call.db (.revokeSessionFamily family)).Steady := ⟨fun _ h => h, fun h => h⟩

/-- A steady operation revokes or removes sessions at most. -/
theorem accounts_exec {op : Call} (h : op.Steady) (e : Env) (s : Server) :
    Accounts p s (exec p op e s).1 := by
  by_cases hrotates : op.Rotates
  · cases op with
    | db q =>
        cases hf : e.fails with
        | true =>
            rw [exec_db_of_fails _ hf]
            exact .refl s
        | false =>
            rw [exec_db_of_succeeds _ hf]
            cases q with
            | rotateSession id hash expiresAt => exact absurd trivial h.2
            | revokeSession id => exact accounts_revokeSessions _ _ s
            | revokeSessionFamily family => exact accounts_revokeSessions _ _ s
            | revokeAllSessionsForUser userId => exact accounts_revokeSessions _ _ s
            | revokeSessionOwnedByUser id userId => exact accounts_revokeSessions _ _ s
            | purgeExpiredSessions =>
                apply accounts_of_rows
                · exact Nat.le_refl _
                intro row hrow
                exact ⟨row, (List.mem_filter.mp hrow).1, .refl row, rfl⟩
            | _ => exact hrotates.elim
    | _ => exact hrotates.elim
  · exact accounts_of_same (exec_nextId_le op) (exec_sessions h.1 hrotates)

theorem accounts_of_performs {α : Type} {P : Call → Prop} {R : α → Prop} {h : Handler α}
    (hp : h.Performs (exec p) P R) (hP : ∀ op, P op → op.Steady) :
    h.Keeps (exec p) (Accounts p) :=
  hp.keeps .refl (fun h h' => h.trans h') fun op e s hop => accounts_exec (hP op hop) e s

theorem accounts_of_quiet {α : Type} {R : α → Prop} {h : Handler α}
    (hp : h.Performs (exec p) Call.Quiet R) : h.Keeps (exec p) (Accounts p) :=
  accounts_of_performs hp fun _ => Call.Quiet.steady

end Accounts

/-! ## New sessions -/

/-- The refresh token of a response that opens or renews a session. -/
def Response.handsOver (r : Response) : Option RefreshClaims :=
  match r.body, r.setCookie with
  | .session .., some (.refreshToken (.refresh c)) => some c
  | _, _ => none

/-- Whatever the handler meets, it keeps the invariant, and a token it hands over is of its
own account's family. -/
def Hands (p : Platform) (h : Handler Response) : Prop :=
  ∀ ω s, s.Accounted p →
    let ended := h.run (exec p) ω s
    ended.2.Accounted p ∧ Onward s ended.2 ∧ ∀ c ∈ ended.1.handsOver, ended.2.Holds c

section Hands

variable {p : Platform} {s : Server}

theorem hands_done {r : Response} (h : r.handsOver = none) : Hands p (.done r) := by
  intro ω s hs
  refine ⟨hs, .refl s, ?_⟩
  intro c hc
  have hr : r.handsOver = some c := hc
  rw [h] at hr
  cases hr

theorem hands_after {α : Type} {part : Handler α} {f : α → Handler Response}
    (hpart : part.Keeps (exec p) (Accounts p)) (hf : ∀ a, Hands p (f a)) :
    Hands p (part >>= f) := by
  intro ω s hs
  rw [run_bind]
  have hfirst := hpart ω s hs
  have hsecond := hf (part.run (exec p) ω s).1 (fun n => ω (n + (part.trace (exec p) ω s).length))
    _ hfirst.1
  exact ⟨hsecond.1, hfirst.2.trans hsecond.2.1, hsecond.2.2⟩

/-- One more row, its three identifiers drawn just before. -/
theorem accounts_insert {t : Server} {row : SessionRow} {c : RefreshClaims}
    (hsessions : t.sessions = s.sessions ++ [row]) (hn : t.nextId = s.nextId + 3)
    (hfamily : row.tokenFamilyId = s.nextId) (hid : row.id = s.nextId + 2)
    (hhash : row.refreshTokenHash = p.refreshTokenHash c) (hc : c.family = s.nextId)
    (huser : c.sub = row.userId) (hs : s.Accounted p) :
    t.Accounted p ∧ Onward s t ∧ t.Holds c := by
  have hle : s.nextId ≤ t.nextId := by omega
  have hlt : s.nextId < t.nextId := by omega
  have hmem : ∀ row' ∈ t.sessions, row' ∈ s.sessions ∨ row' = row := by
    intro row' hrow'
    rw [hsessions] at hrow'
    simpa using hrow'
  have hnew : ∀ old ∈ s.sessions, old.tokenFamilyId ≠ row.tokenFamilyId ∧ old.id ≠ row.id := by
    intro old hold
    have hdrawn := hs.drawn old hold
    rw [hfamily, hid]
    exact ⟨hdrawn.2.ne, (Nat.lt_add_right 2 hdrawn.1).ne⟩
  refine ⟨⟨?_, ?_, ?_, ?_⟩, ⟨hle, ?_⟩, ?_, ?_⟩
  · intro row' hrow'
    rcases hmem row' hrow' with hold | rfl
    · have hdrawn := hs.drawn row' hold
      exact ⟨hdrawn.1.trans_le hle, hdrawn.2.trans_le hle⟩
    · rw [hid, hfamily, hn]
      exact ⟨Nat.add_lt_add_left (by decide) _, Nat.lt_add_of_pos_right (by decide)⟩
  · intro row₁ hrow₁ row₂ hrow₂ heq
    rcases hmem row₁ hrow₁ with hold₁ | rfl
    · rcases hmem row₂ hrow₂ with hold₂ | rfl
      · exact hs.families row₁ hold₁ row₂ hold₂ heq
      · exact absurd heq (hnew row₁ hold₁).2
    · rcases hmem row₂ hrow₂ with hold₂ | rfl
      · exact absurd heq.symm (hnew row₂ hold₂).2
      · rfl
  · intro row₁ hrow₁ row₂ hrow₂ heq
    rcases hmem row₁ hrow₁ with hold₁ | rfl
    · rcases hmem row₂ hrow₂ with hold₂ | rfl
      · exact hs.owners row₁ hold₁ row₂ hold₂ heq
      · exact absurd heq (hnew row₁ hold₁).1
    · rcases hmem row₂ hrow₂ with hold₂ | rfl
      · exact absurd heq.symm (hnew row₂ hold₂).1
      · rfl
  · intro row' hrow'
    rcases hmem row' hrow' with hold | rfl
    · exact hs.recorded row' hold
    · exact ⟨c, hhash, hc.trans hfamily.symm, huser⟩
  · intro row' hrow'
    rcases hmem row' hrow' with hold | rfl
    · exact Or.inr ⟨row', hold, .refl row'⟩
    · exact Or.inl hfamily.ge
  · rw [hc]
    exact hlt
  · intro row' hrow' heq
    rcases hmem row' hrow' with hold | rfl
    · rw [hc, ← hfamily] at heq
      exact absurd heq (hnew row' hold).1
    · exact huser.symm

/-- `create_session`, the family and the token just drawn. -/
theorem createSession_accounts (u : Uuid) (exp : Nat) (expiresAt : Timestamp)
    (agent ip : Option String) (createdBy : String) (ω : Nat → Env) (hs : s.Accounted p) :
    let ended := (createSession p u (p.refreshTokenHash ⟨u, s.nextId, s.nextId + 1, exp⟩) s.nextId
      expiresAt agent ip createdBy).run (exec p) ω { s with nextId := s.nextId + 2 }
    ended.2.Accounted p ∧ Onward s ended.2 ∧
      (ended.1 = .ok () → ended.2.Holds ⟨u, s.nextId, s.nextId + 1, exp⟩) := by
  unfold createSession
  rw [run_perform_bind, exec_newId, run_query_bind]
  cases hf : (ω 1).fails with
  | true =>
      rw [exec_db_of_fails _ hf]
      have hsame : Accounts p s { s with nextId := s.nextId + 2 + 1 } :=
        accounts_of_same (Nat.le_add_right s.nextId 3) rfl
      exact ⟨(hsame hs).1, (hsame hs).2, nofun⟩
  | false =>
      rw [exec_db_of_succeeds _ hf]
      dsimp only [Query.perform]
      have hinsert : Server.Accounted p _ ∧ Onward s _ ∧ Server.Holds _ _ :=
        accounts_insert (s := s) (t := { s with
          sessions := s.sessions ++ [⟨s.nextId + 2, u,
            p.refreshTokenHash ⟨u, s.nextId, s.nextId + 1, exp⟩, s.nextId, p.now (ω 1).now,
            p.sessionExpiry expiresAt, p.now (ω 1).now, none, agent, ip, 0, some createdBy⟩]
          nextId := s.nextId + 3 }) (c := ⟨u, s.nextId, s.nextId + 1, exp⟩)
          rfl rfl rfl rfl rfl rfl rfl hs
      cases p.backend with
      | postgres => exact ⟨hinsert.1, hinsert.2.1, fun _ => hinsert.2.2⟩
      | sqlite =>
          dsimp only
          rw [run_query_bind]
          cases hf' : (ω 2).fails with
          | true =>
              rw [exec_db_of_fails _ hf']
              exact ⟨hinsert.1, hinsert.2.1, nofun⟩
          | false =>
              rw [exec_db_of_succeeds _ hf']
              exact ⟨hinsert.1, hinsert.2.1, fun _ => hinsert.2.2⟩

/-- `issue_session`: the refresh token it returns is of a family of its own. -/
theorem issueSession_holds (user : UserRow) (headers : Headers) (ω : Nat → Env)
    (hs : s.Accounted p) :
    let ended := (issueSession p user headers).run (exec p) ω s
    ended.2.Accounted p ∧ Onward s ended.2 ∧
      ∀ pair, ended.1 = .ok pair → ∃ c, pair.2 = .refresh c ∧ ended.2.Holds c := by
  intro ended
  have hcreated := createSession_accounts (p := p) user.id
    ((ω 1).now + Timestamp.days refreshTokenTtlDays).timestamp
    ((ω 1).now + Timestamp.days refreshTokenTtlDays) (userAgent headers) (clientIp p headers)
    "login" (fun n => ω (n + 3)) hs
  have hended : ended = (createSession .. >>= _).run (exec p) (fun n => ω (n + 3))
    { s with nextId := s.nextId + 2 } := rfl
  rw [run_bind] at hended
  rw [hended]
  split
  · exact ⟨hcreated.1, hcreated.2.1, nofun⟩
  next hok =>
    refine ⟨hcreated.1, hcreated.2.1, ?_⟩
    rintro _ ⟨⟩
    exact ⟨_, rfl, hcreated.2.2 hok⟩

/-- What follows `issue_session` hands over the token it returned, or none. -/
theorem hands_issueSession {user : UserRow} {headers : Headers}
    {f : Except ApiError (Token × Token) → Handler Response}
    (herror : ∀ err, Hands p (f (.error err)))
    (hok : ∀ pair, (f (.ok pair)).Performs (exec p) Call.Quiet fun r =>
      ∀ c, pair.2 = .refresh c → r.handsOver = some c) :
    Hands p (issueSession p user headers >>= f) := by
  intro ω s hs
  rw [run_bind]
  have hissued := issueSession_holds user headers ω hs
  generalize (fun n => ω (n + _)) = ω'
  generalize (issueSession p user headers).run (exec p) ω s = issued at hissued ⊢
  rcases issued with ⟨result, s'⟩
  cases result with
  | error err =>
      have hrest := herror err ω' s' hissued.1
      exact ⟨hrest.1, hissued.2.1.trans hrest.2.1, hrest.2.2⟩
  | ok pair =>
      rcases hissued.2.2 pair rfl with ⟨c, hpair, hc⟩
      have hrest := accounts_of_quiet (hok pair) ω' s' hissued.1
      refine ⟨hrest.1, hissued.2.1.trans hrest.2, ?_⟩
      intro c' hc'
      rw [(hok pair).run_result ω' s' c hpair] at hc'
      rcases Option.some.inj hc' with rfl
      exact hc.onward hrest.2

theorem finish_hands (user : UserRow) (headers : Headers) (codes : Option (List String))
    (pair : Token × Token) :
    (completeLogin.finish p user headers codes pair).Performs (exec p) Call.Quiet fun r =>
      ∀ c, pair.2 = .refresh c → r.handsOver = some c := by
  apply (save_performs _).bind
  intro _ _ c hc
  rcases pair with ⟨access, _⟩
  cases hc
  rfl

theorem completeLogin_hands (user : UserRow) (headers : Headers) (codes : Option (List String)) :
    Hands p (completeLogin p user headers codes) := by
  apply hands_issueSession
  · intro err
    apply hands_issueSession
    · exact fun err => hands_done rfl
    · exact finish_hands user headers codes
  · exact finish_hands user headers codes

theorem openSession_hands (user : UserRow) (headers : Headers) :
    Hands p (openSession p headers user) := by
  apply hands_issueSession
  · exact fun err => hands_done rfl
  · intro pair
    apply (save_performs _).bind
    intro _ _ c hc
    rcases pair with ⟨access, _⟩
    cases hc
    rfl

/-- An audit event and a refusal. -/
theorem hands_save_done (r : Audit.AuditRecorder) {a : Response} (ha : a.handsOver = none) :
    Hands p (save p r >>= fun _ => done a) :=
  hands_after (accounts_of_quiet (save_performs r)) fun _ => hands_done ha

theorem loginUser_hands (headers : Headers) (user : UserRow) :
    Hands p (loginUser p headers user) := by
  have hsign : ∀ purpose, (signChallengeToken user.id purpose).Performs (exec p) Call.Quiet
      fun _ => True := fun purpose => performs_perform trivial fun _ _ => trivial
  apply hands_after (accounts_of_quiet (loginMfaOutcome_performs user))
  intro outcome
  cases outcome with
  | notRequired => exact openSession_hands user headers
  | challengeRequired method =>
      apply hands_after (accounts_of_quiet (hsign _))
      intro token
      cases method with
      | totp => exact hands_done rfl
      | email =>
          exact hands_after (accounts_of_quiet (sendLoginChallengeEmailCode_performs user))
            fun _ => hands_done rfl
  | enrollmentRequired =>
      exact hands_after (accounts_of_quiet (hsign _)) fun _ => hands_done rfl

theorem login_hands (headers : Headers) (userCode password : String) :
    Hands p (login p headers userCode password) := by
  apply hands_after (accounts_of_quiet (checkLimits_performs (loginLimits_key_ne headers userCode)))
  intro allowed
  split
  · apply hands_after (accounts_of_quiet (query_performs (P := Call.Quiet)
      (q := .loadUserByCode _) trivial))
    intro found
    split
    · exact hands_done rfl
    · exact hands_save_done _ rfl
    next user =>
      split_ifs
      · exact hands_save_done _ rfl
      · exact hands_save_done _ rfl
      · exact hands_save_done _ rfl
      · exact loginUser_hands headers user
  · exact hands_done rfl

theorem challengeVerify_hands (headers : Headers) (token : Token) (code : String) :
    Hands p (challengeVerify p headers token code) := by
  apply hands_after (accounts_of_quiet (decodeChallengeToken_performs token .login))
  intro found
  split
  · exact hands_done rfl
  · apply hands_after (accounts_of_quiet (loadUserOrUnauthorized_performs _))
    intro found
    split
    · exact hands_done rfl
    next user =>
      have hcheck : (perform (.rateCheck (mfaVerifyKey user.id) 8 quarterHour)).Keeps (exec p)
          (Accounts p) := fun ω s => accounts_of_same (Nat.le_refl _) rfl
      apply hands_after hcheck
      intro allowed
      split
      · have hverify := verifyCode_performs (p := p) user.id user.userCode code
        apply hands_after (accounts_of_performs hverify ?_)
        · intro outcome
          unfold finishVerification
          split
          · exact completeLogin_hands user headers none
          · exact hands_after (accounts_of_quiet (save_performs _)) fun _ =>
              completeLogin_hands user headers none
          · exact hands_save_done _ rfl
        · rintro op (hquiet | hverifies)
          · exact hquiet.steady
          · exact .of_not_rotates (fun _ => hverifies.not_issues) hverifies.not_rotates
      · exact hands_done rfl

theorem challengeEnrollConfirm_hands (headers : Headers) (token : Token) (code : String) :
    Hands p (challengeEnrollConfirm p headers token code) := by
  apply hands_after (accounts_of_quiet (decodeChallengeToken_performs token .enrollment))
  intro found
  split
  · exact hands_done rfl
  · apply hands_after (accounts_of_quiet (loadUserOrUnauthorized_performs _))
    intro found
    split
    · exact hands_done rfl
    next user =>
      have hconfirm := confirmEnrollment_performs (p := p) user.id user.userCode code
      apply hands_after (accounts_of_performs hconfirm ?_)
      · intro outcome
        unfold finishEnrollment
        split
        · exact hands_done rfl
        · exact completeLogin_hands user headers none
        · apply hands_after (accounts_of_quiet (saveMandatory_performs _))
          intro saved
          split
          · exact hands_done rfl
          · exact completeLogin_hands user headers _
      · rintro op (hquiet | hconfirms)
        · exact hquiet.steady
        · exact .of_not_rotates (fun _ => hconfirms.not_issues) hconfirms.not_rotates

end Hands

/-! ## Renewed sessions -/

section Refresh

variable {p : Platform} {s : Server} {headers : Headers} {c : RefreshClaims} {session : SessionRow}

/-- The session of the presented token: it is of the token's account. -/
structure Presented (p : Platform) (s : Server) (c : RefreshClaims) (session : SessionRow) :
    Prop where
  mem : session ∈ s.sessions
  family : session.tokenFamilyId = c.family
  hash : session.refreshTokenHash = p.refreshTokenHash c

theorem Presented.user (hinj : Function.Injective p.refreshTokenHash) (hs : s.Accounted p)
    (h : Presented p s c session) : session.userId = c.sub := by
  rcases hs.recorded session h.mem with ⟨c', hhash, -, hsub⟩
  rw [h.hash] at hhash
  rw [hinj hhash]
  exact hsub.symm

/-- The new hash is that of a token of the same family and account. -/
theorem accounts_rotate (hinj : Function.Injective p.refreshTokenHash) (hs : s.Accounted p)
    (h : Presented p s c session) {d : RefreshClaims} (hfamily : d.family = c.family)
    (hsub : d.sub = c.sub) (expiresAt now : Timestamp) :
    let s' := s.updateSessions (fun row => row.id == session.id && row.revokedAt.isNone) fun row =>
      { row with refreshTokenHash := p.refreshTokenHash d, expiresAt := expiresAt,
                 lastUsedAt := now, rotationCounter := row.rotationCounter + 1 }
    s'.Accounted p ∧ Onward s s' ∧ s'.Holds d := by
  intro s'
  have huser := h.user hinj hs
  have hrows : ∀ row' ∈ s'.sessions, ∃ row ∈ s.sessions, SameSession row row' ∧
      (row'.refreshTokenHash = row.refreshTokenHash ∨
        row.id = session.id ∧ row'.refreshTokenHash = p.refreshTokenHash d) := by
    intro row' hrow'
    rcases List.mem_map.mp hrow' with ⟨row, hrow, rfl⟩
    refine ⟨row, hrow, ?_⟩
    split_ifs with hcond
    · simp only [Bool.and_eq_true, beq_iff_eq] at hcond
      exact ⟨⟨rfl, rfl, rfl, fun h => h⟩, Or.inr ⟨hcond.1, rfl⟩⟩
    · exact ⟨.refl row, Or.inl rfl⟩
  -- a row of the session's identifier is of its family, and so of its account
  have howner : ∀ row ∈ s.sessions, row.id = session.id →
      row.tokenFamilyId = c.family ∧ row.userId = c.sub := by
    intro row hrow hid
    have hsame := hs.families row hrow session h.mem hid
    exact ⟨hsame.trans h.family, (hs.owners row hrow session h.mem hsame).trans huser⟩
  have hn : s.nextId ≤ s'.nextId := Nat.le_refl _
  have hkept : s'.Accounted p ∧ Onward s s' := by
    apply accounted_of_rows hs hn
    · intro row' hrow'
      rcases hrows row' hrow' with ⟨row, hrow, hsame, -⟩
      exact ⟨row, hrow, hsame⟩
    · intro row' hrow'
      rcases hrows row' hrow' with ⟨row, hrow, hsame, hhash | ⟨hid, hhash⟩⟩
      · rw [hhash, hsame.family, hsame.user]
        exact hs.recorded row hrow
      · have hrow := howner row hrow hid
        rw [hhash, hsame.family, hsame.user, hrow.1, hrow.2]
        exact ⟨d, rfl, hfamily, hsub⟩
  refine ⟨hkept.1, hkept.2, ?_, ?_⟩
  · rw [hfamily, ← h.family]
    exact (hs.drawn session h.mem).2
  · intro row' hrow' heq
    rcases hrows row' hrow' with ⟨row, hrow, hsame, -⟩
    have hsession : row.tokenFamilyId = session.tokenFamilyId := by
      rw [← hsame.family, heq, hfamily, h.family]
    rw [hsame.user, hsub, ← huser]
    exact hs.owners row hrow session h.mem hsession

/-- The end of `refresh`. -/
theorem rotateTokens_hands (hinj : Function.Injective p.refreshTokenHash) {user : UserRow}
    (ω : Nat → Env) (hs : s.Accounted p) (h : Presented p s c session) (huser : user.id = c.sub) :
    let ended := (rotateTokens p headers c session user).run (exec p) ω s
    ended.2.Accounted p ∧ Onward s ended.2 ∧ ∀ d ∈ ended.1.handsOver, ended.2.Holds d := by
  intro ended
  let expiresAt := (ω 0).now + Timestamp.days refreshTokenTtlDays
  let d : RefreshClaims := ⟨user.id, c.family, s.nextId, expiresAt.timestamp⟩
  have hended : ended = (query (.rotateSession session.id (p.refreshTokenHash d) expiresAt) >>=
      _).run (exec p) (fun n => ω (n + 2)) { s with nextId := s.nextId + 1 } := rfl
  rw [run_query_bind] at hended
  have hdrawn : Accounts p s { s with nextId := s.nextId + 1 } :=
    accounts_of_same (Nat.le_succ _) rfl
  have hs₁ := hdrawn hs
  cases hf : (ω 2).fails with
  | true =>
      rw [exec_db_of_fails _ hf] at hended
      rw [hended]
      exact ⟨hs₁.1, hs₁.2, nofun⟩
  | false =>
      rw [exec_db_of_succeeds _ hf] at hended
      have hpresented : Presented p { s with nextId := s.nextId + 1 } c session :=
        ⟨h.mem, h.family, h.hash⟩
      have hrotated := accounts_rotate (d := d) hinj hs₁.1 hpresented rfl huser
        (p.sessionExpiry expiresAt) (p.now (ω 2).now)
      have hrest : (signAccess user >>= fun accessToken =>
          save p (withHeaders p (withUser (Audit.AuditRecorder.new "AUTH_REFRESH_SUCCESS" "success"
            (requestId headers)) user) headers) >>= fun _ =>
          done (sessionResponse (.access accessToken) (.refresh d) user none)).Performs (exec p)
          Call.Quiet fun r => r.handsOver = some d :=
        performs_perform trivial fun _ _ => (save_performs _).bind fun _ _ => rfl
      have hkept := accounts_of_quiet hrest (fun n => ω (n + 3)) _ hrotated.1
      have hhanded := hrest.run_result (fun n => ω (n + 3))
      rw [hended]
      refine ⟨hkept.1, (hs₁.2.trans hrotated.2.1).trans hkept.2, ?_⟩
      intro d' hd'
      rcases Option.some.inj ((hhanded _).symm.trans hd') with rfl
      exact hrotated.2.2.onward hkept.2

/-- A statement that revokes, in front of a refusal. -/
theorem hands_revoke {q : Query} (hq : (Call.db q).Steady) {f : Except DbError q.Res → Handler Response}
    (hf : ∀ r, Hands p (f r)) : Hands p (query q >>= f) :=
  hands_after (accounts_of_performs (query_performs (P := Call.Steady) hq) fun _ h => h) hf

theorem refreshSession_hands (hinj : Function.Injective p.refreshTokenHash) (ω : Nat → Env)
    (hs : s.Accounted p) (hmem : session ∈ s.sessions) (hfamily : session.tokenFamilyId = c.family) :
    let ended := (refreshSession p headers c session).run (exec p) ω s
    ended.2.Accounted p ∧ Onward s ended.2 ∧ ∀ d ∈ ended.1.handsOver, ended.2.Holds d := by
  have hrefuse : ∀ id, Hands p (query (.revokeSession id) >>= fun _ => done (unauthorized headers)) :=
    fun id => hands_revoke (steady_revokeSession id) fun _ => hands_done rfl
  unfold refreshSession
  split_ifs with hreuse
  · have hdetected : Hands p (reuseDetected p headers c) :=
      hands_revoke (steady_revokeSessionFamily _) fun _ => hands_save_done _ rfl
    exact hdetected ω s hs
  · simp only [Bool.or_eq_true, bne_iff_ne, not_or, not_not] at hreuse
    rw [run_perform_bind, exec_utcNow]
    dsimp only
    split_ifs
    · exact hrefuse session.id _ s hs
    · rw [run_query_bind]
      cases hf : (ω 1).fails with
      | true =>
          rw [exec_db_of_fails _ hf]
          exact ⟨hs, .refl s, nofun⟩
      | false =>
          rw [exec_db_of_succeeds _ hf]
          dsimp only [Query.perform]
          cases hfound : s.users.find? fun u => (Key.uuid c.sub).isId u.id && u.deletedAt.isNone with
          | none => exact ⟨hs, .refl s, nofun⟩
          | some user =>
              have hcond := List.find?_some hfound
              simp only [Key.isId, Bool.and_eq_true, beq_iff_eq] at hcond
              dsimp only
              split_ifs
              · have hbanned := hands_revoke (p := p)
                  (steady_revokeSession session.id) fun _ => hands_save_done (withHeaders p (withUser
                    (Audit.AuditRecorder.new "AUTH_REFRESH_FAILED" "denied" (requestId headers))
                    user) headers) (a := unauthorized headers) rfl
                exact hbanned _ s hs
              · exact rotateTokens_hands hinj _ hs ⟨hmem, hfamily, hreuse.2⟩ hcond.1

theorem refresh_hands (hinj : Function.Injective p.refreshTokenHash) (headers : Headers) :
    Hands p (refresh p headers) := by
  unfold refresh
  split
  · exact hands_done rfl
  next token htoken =>
    have hclock : (perform .utcNow).Keeps (exec p) (Accounts p) := fun _ s => .refl s
    apply hands_after hclock
    intro now
    split
    · exact hands_done rfl
    next c hclaims =>
      intro ω s hs
      rw [run_query_bind]
      cases hf : (ω 0).fails with
      | true =>
          rw [exec_db_of_fails _ hf]
          exact ⟨hs, .refl s, nofun⟩
      | false =>
          rw [exec_db_of_succeeds _ hf]
          dsimp only [Query.perform]
          cases hfound : s.sessions.find? fun row => row.tokenFamilyId == c.family with
          | none => exact ⟨hs, .refl s, nofun⟩
          | some session =>
              have hfamily := List.find?_some hfound
              exact refreshSession_hands hinj _ hs (List.mem_of_find?_eq_some hfound)
                (beq_iff_eq.mp hfamily)

end Refresh

/-! ## Every request -/

section Requests

variable {p : Platform}

theorem logout_steady (headers : Headers) :
    (logout p headers).Performs (exec p) Call.Steady fun _ => True := by
  have hsave : ∀ r, (save p r).Performs (exec p) Call.Steady fun _ => True :=
    fun r => (save_performs r).weaken fun _ => Call.Quiet.steady
  have hclock : Call.utcNow.Steady := Call.Quiet.steady trivial
  have hfind : ∀ family, (Call.db (.findSessionByFamily family)).Steady :=
    fun _ => Call.Quiet.steady trivial
  unfold logout
  split
  · trivial
  · apply performs_perform hclock
    intro e s
    split
    · trivial
    · apply performs_query (hfind _)
      intro e s
      split
      · exact performs_query (steady_revokeSession _) fun e s => (hsave _).bind fun _ _ => trivial
      · trivial

theorem logoutAll_steady (headers : Headers) :
    (logoutAll p headers).Performs (exec p) Call.Steady fun _ => True := by
  refine performs_authUser headers trivial (fun _ => Call.Quiet.steady) fun claims _ => ?_
  apply performs_query
  · exact ⟨fun _ h => h, fun h => h⟩
  intro e s
  exact ((save_performs _).weaken fun _ => Call.Quiet.steady).bind fun _ _ => trivial

theorem revokeOwnSession_steady (headers : Headers) (sessionId : String) :
    (revokeOwnSession p headers sessionId).Performs (exec p) Call.Steady fun _ => True := by
  refine performs_authUser headers trivial (fun _ => Call.Quiet.steady) fun claims _ => ?_
  have hrevoke : (revokeSessionOwnedByUser p sessionId claims.id).Performs (exec p) Call.Steady
      fun _ => True := by
    unfold revokeSessionOwnedByUser
    split
    · trivial
    · exact query_performs ⟨fun _ h => h, fun h => h⟩
  apply hrevoke.bind
  intro revoked _
  split
  · exact ((save_performs _).weaken fun _ => Call.Quiet.steady).bind fun _ _ => trivial
  · trivial
  · trivial

/-- A request that opens or renews a session. -/
def Request.opens : Request → Bool
  | .login .. | .challengeVerify .. | .challengeEnrollConfirm .. | .refresh _ => true
  | _ => false

/-- Any other request stores and renews no session. -/
theorem handle_steady {request : Request} (h : request.opens = false) :
    (handle p request).Performs (exec p) Call.Steady fun _ => True := by
  have hfootprint := handle_performs p request
  cases request with
  | login | challengeVerify | challengeEnrollConfirm | refresh => cases h
  | logout headers => exact (logout_steady headers).map fun _ _ => trivial
  | logoutAll headers => exact (logoutAll_steady headers).map fun _ _ => trivial
  | revokeOwnSession headers id => exact (revokeOwnSession_steady headers id).map fun _ _ => trivial
  | purgeExpiredAuthRecords =>
      have hpurge : (Call.db .purgeExpiredSessions).Steady := ⟨fun _ h => h, fun h => h⟩
      exact (query_performs hpurge).map fun _ _ => trivial
  | enroll headers method =>
      apply hfootprint.weaken
      rintro op (hquiet | ⟨u, -, hop⟩)
      · exact hquiet.steady
      · exact .of_not_rotates (fun _ => hop.not_issues) hop.not_rotates
  | challengeEnroll headers token method =>
      apply hfootprint.weaken
      rintro op (hquiet | ⟨u, -, hop⟩)
      · exact hquiet.steady
      · exact .of_not_rotates (fun _ => hop.not_issues) hop.not_rotates
  | enrollConfirm headers code =>
      apply hfootprint.weaken
      rintro op (hquiet | ⟨u, -, hop⟩)
      · exact hquiet.steady
      · exact .of_not_rotates (fun _ => hop.not_issues) hop.not_rotates
  | disable headers password code =>
      apply hfootprint.weaken
      rintro op (hquiet | ⟨u, -, hop | hop⟩)
      · exact hquiet.steady
      · exact .of_not_rotates (fun _ => hop.not_issues) hop.not_rotates
      · exact .of_not_rotates (fun _ => hop.not_issues) hop.not_rotates
  | mfaResetRoute headers id =>
      apply hfootprint.weaken
      rintro op (hquiet | ⟨u, hop⟩)
      · exact hquiet.steady
      · exact .of_not_rotates (fun _ => hop.not_issues) hop.not_rotates
  | enrollResend | challengeEnrollResend | challengeRequestCode =>
      apply hfootprint.weaken
      rintro op (hquiet | hop)
      · exact hquiet.steady
      · exact hop.elim

theorem handsOver_eq_none {r : Response} {P : UserRow → Prop} (h : r.body.Vouched P)
    (hP : ∀ user, ¬ P user) : r.handsOver = none := by
  rcases r with ⟨status, body, cookie⟩
  cases body with
  | session access user codes =>
      rcases h with ⟨claims, user, -, huser, -⟩
      exact absurd huser (hP user)
  | _ => rfl

theorem not_signsIn {request : Request} (h : request.opens = false) (user : UserRow) :
    ¬ request.SignsIn p user := by
  cases request with
  | login | challengeVerify | challengeEnrollConfirm | refresh => cases h
  | _ => exact fun h => h

/-- **Whatever is requested and whatever fails**, the table stays accounted for, sessions go
on as they may, and a token that is handed over is of its own account's family. -/
theorem handle_hands (hinj : Function.Injective p.refreshTokenHash) (request : Request)
    (ω : Nat → Env) (s : Server) (hs : s.Accounted p) :
    let ended := (handle p request).run (exec p) ω s
    ended.2.Accounted p ∧ Onward s ended.2 ∧
      ∀ r ∈ ended.1, ∀ c ∈ r.handsOver, ended.2.Holds c := by
  have hsome : ∀ {h : Handler Response}, Hands p h →
      let ended := (h.map some).run (exec p) ω s
      ended.2.Accounted p ∧ Onward s ended.2 ∧
        ∀ r ∈ ended.1, ∀ c ∈ r.handsOver, ended.2.Holds c := by
    intro h hh
    rw [run_map]
    have hended := hh ω s hs
    refine ⟨hended.1, hended.2.1, ?_⟩
    rintro _ ⟨⟩
    exact hended.2.2
  cases hopens : request.opens with
  | true =>
      cases request with
      | login headers userCode password => exact hsome (login_hands headers userCode password)
      | challengeVerify headers token code => exact hsome (challengeVerify_hands headers token code)
      | challengeEnrollConfirm headers token code =>
          exact hsome (challengeEnrollConfirm_hands headers token code)
      | refresh headers => exact hsome (refresh_hands hinj headers)
      | _ => cases hopens
  | false =>
      have hkept := accounts_of_performs (handle_steady hopens) (fun _ h => h) ω s hs
      refine ⟨hkept.1, hkept.2, ?_⟩
      intro r hr c hc
      have hvouched := handle_vouched p s.users request ω s rfl r hr
      rw [handsOver_eq_none hvouched fun user h => not_signsIn hopens user h.2] at hc
      cases hc

end Requests

/-! ## Revoked accounts -/

section Ended

variable {p : Platform} {s : Server} {c : RefreshClaims}

theorem accounted_of_no_sessions (h : s.sessions = []) : s.Accounted p := by
  constructor <;> simp [h]

/-- Once every session of the account is revoked, the families of its tokens are ended. -/
theorem Server.Holds.ended (h : s.Holds c)
    (hrevoked : ∀ row ∈ s.sessions, row.userId = c.sub → row.revokedAt.isSome) :
    s.Ended c.family :=
  ⟨h.1, fun row hrow hfamily => hrevoked row hrow (h.2 row hrow hfamily)⟩

/-- A token of an ended family is refused, whatever fails meanwhile. -/
theorem refresh_of_ended {headers : Headers} (hcookie : headers.refreshCookie = some (.refresh c))
    (h : s.Ended c.family) (ω : Nat → Env) :
    ((refresh p headers).run (exec p) ω s).1 = unauthorized headers := by
  unfold refresh
  rw [hcookie]
  dsimp only
  rw [run_perform_bind, exec_utcNow]
  dsimp only [Token.refreshClaims]
  split_ifs
  · dsimp only
    rw [run_query_bind]
    cases hf : (ω 1).fails with
    | true =>
        rw [exec_db_of_fails _ hf]
        rfl
    | false =>
        rw [exec_db_of_succeeds _ hf]
        dsimp only [Query.perform]
        cases hfound : s.sessions.find? fun row => row.tokenFamilyId == c.family with
        | none => rfl
        | some session =>
            have hfamily := List.find?_some hfound
            have hrevoked := h.2 session (List.mem_of_find?_eq_some hfound) (beq_iff_eq.mp hfamily)
            dsimp only
            unfold refreshSession
            rw [hrevoked, Bool.true_or, if_pos rfl]
            unfold reuseDetected
            rw [run_query_bind, run_bind]
            rfl
  · rfl

end Ended

end AnatoliaBis.Auth
