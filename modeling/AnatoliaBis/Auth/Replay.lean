import AnatoliaBis.Auth.Rotation
import AnatoliaBis.Lib.Pool

/-! # Refreshes at the same time

Any number of `refresh` requests, their statements interleaved. Look-up and
rotation are separate statements, and the rotation asks neither for the hash that
was looked up nor for the number of rows it changed; `accepted_once` says what
holds as long as every rotation finds the session as its request saw it.
-/

namespace AnatoliaBis.Auth

open Atomic Program

/-! ## One request among others -/

/-- A rotation that was carried out. -/
def Rotation (ev : Step) (id : Uuid) (hash : String) : Prop :=
  ev.env.fails = false ∧ ∃ expiresAt, ev.op = .db (.rotateSession id hash expiresAt)

/-- The identifier was drawn in this history. -/
def Drew (h : List Step) (jti : Nat) : Prop := ∃ ev ∈ h, ev.op = .newId ∧ ev.before.nextId = jti

/-- The operations `refresh` performs after the history `h`. -/
inductive RefreshCall (p : Platform) (headers : Headers) (h : List Step) : Call → Prop
  | quiet {op : Call} (hop : op.Quiet) : RefreshCall p headers h op
  | revoke (id : Uuid) : RefreshCall p headers h (.db (.revokeSession id))
  | revokeFamily (family : Uuid) : RefreshCall p headers h (.db (.revokeSessionFamily family))
  | rotate (id : Uuid) (c d : RefreshClaims) (expiresAt : Timestamp)
      (first : ∀ ev ∈ h, ∀ id hash, ¬ Rotation ev id hash)
      (presented : headers.refreshCookie = some (.refresh c)) (drawn : Drew h d.jti)
      (family : d.family = c.family) :
      RefreshCall p headers h (.db (.rotateSession id (p.refreshTokenHash d) expiresAt))

/-- The answers of `refresh` after the history `h`: a token pair only after a
rotation to that very token. -/
def RefreshAnswer (p : Platform) (headers : Headers) (h : List Step) (r : Response) : Prop :=
  r.status = 200 → ∃ c d, headers.refreshCookie = some (.refresh c) ∧ d.family = c.family ∧
    r.setCookie = some (.refreshToken (.refresh d)) ∧
    ∃ ev ∈ h, ∃ id, Rotation ev id (p.refreshTokenHash d)

section Front

variable {p : Platform} {α : Type} {J : List Step → Call → Prop} {Q : List Step → α → Prop}
  {h : List Step}

theorem guarantees_perform {op : Call} {f : op.Res → Handler α} (hJ : J h op)
    (hf : ∀ e s, (f (exec p op e s).2).Guarantees (exec p) J Q
      (h ++ [⟨op, e, s, (exec p op e s).1⟩])) :
    (perform op >>= f).Guarantees (exec p) J Q h :=
  ⟨hJ, hf⟩

theorem guarantees_query {q : Query} {f : Except DbError q.Res → Handler α} (hJ : J h (.db q))
    (hf : ∀ e s, (f (exec p (.db q) e s).2).Guarantees (exec p) J Q
      (h ++ [⟨.db q, e, s, (exec p (.db q) e s).1⟩])) :
    (query q >>= f).Guarantees (exec p) J Q h :=
  ⟨hJ, hf⟩

end Front

section Guarantee

variable {p : Platform} {headers : Headers} {h : List Step}

theorem answer_unauthorized : RefreshAnswer p headers h (unauthorized headers) := by
  intro hstatus
  simp at hstatus

/-- Quiet operations at the end of the handler. -/
theorem guarantees_of_quiet {α : Type} {prog : Handler α} {R : α → Prop}
    {Q : List Step → α → Prop} (hp : prog.Performs (exec p) Call.Quiet R)
    (hQ : ∀ evs a, R a → Q (h ++ evs) a) :
    prog.Guarantees (exec p) (RefreshCall p headers) Q h :=
  hp.guarantees (fun _ _ _ hop => .quiet hop) fun evs a _ ha => hQ evs a ha

/-- An audit event and a fixed answer. -/
theorem guarantees_save_done {r : Audit.AuditRecorder} {a : Response}
    (ha : ∀ evs, RefreshAnswer p headers (h ++ evs) a) :
    (save p r >>= fun _ => done a).Guarantees (exec p) (RefreshCall p headers)
      (RefreshAnswer p headers) h := by
  refine guarantees_of_quiet (R := fun a' => a' = a) ((save_performs r).bind fun _ _ => rfl) ?_
  rintro evs a' rfl
  exact ha evs

theorem rotateTokens_guarantees {c : RefreshClaims} {session : SessionRow} {user : UserRow}
    (hcookie : headers.refreshCookie = some (.refresh c))
    (hfirst : ∀ ev ∈ h, ∀ id hash, ¬ Rotation ev id hash) :
    (rotateTokens p headers c session user).Guarantees (exec p) (RefreshCall p headers)
      (RefreshAnswer p headers) h := by
  refine guarantees_perform (.quiet trivial) fun e₁ s₁ =>
    guarantees_perform (.quiet trivial) fun e₂ s₂ =>
    guarantees_query (.rotate _ c _ _ ?_ hcookie ?_ rfl) fun e₃ s₃ => ?_
  · intro ev hev id hash
    rcases List.mem_append.mp hev with hev | hev
    · rcases List.mem_append.mp hev with hev | hev
      · exact hfirst ev hev id hash
      · rcases List.mem_singleton.mp hev with rfl
        rintro ⟨-, expiresAt, hop⟩
        cases hop
    · rcases List.mem_singleton.mp hev with rfl
      rintro ⟨-, expiresAt, hop⟩
      cases hop
  · exact ⟨_, List.mem_append_right _ (List.mem_singleton_self _), rfl, rfl⟩
  · by_cases hf : e₃.fails
    · simp only [exec_db_of_fails _ hf]
      intro hstatus
      simp [internalError, ApiError.intoResponse, ApiError.statusCode] at hstatus
    · rw [Bool.not_eq_true] at hf
      simp only [exec_db_of_succeeds _ hf]
      refine guarantees_perform (.quiet trivial) fun e₄ s₄ =>
        guarantees_save_done fun evs _ => ⟨c, _, hcookie, ?_, rfl, ?_⟩
      · rfl
      · refine ⟨_, List.mem_append_left _ (List.mem_append_left _ (List.mem_append_right _
          (List.mem_singleton_self _))), session.id, hf, _, rfl⟩

theorem refreshSession_guarantees {c : RefreshClaims} {session : SessionRow}
    (hcookie : headers.refreshCookie = some (.refresh c))
    (hfirst : ∀ ev ∈ h, ∀ id hash, ¬ Rotation ev id hash) :
    (refreshSession p headers c session).Guarantees (exec p) (RefreshCall p headers)
      (RefreshAnswer p headers) h := by
  have hnot : ∀ {op : Call} (e : Env) (s : Server),
      (∀ id hash exp, op ≠ .db (.rotateSession id hash exp)) →
      ∀ {h' : List Step}, (∀ ev ∈ h', ∀ id hash, ¬ Rotation ev id hash) →
      ∀ ev ∈ h' ++ [⟨op, e, s, (exec p op e s).1⟩], ∀ id hash, ¬ Rotation ev id hash := by
    intro op e s hop h' hh' ev hev id hash
    rcases List.mem_append.mp hev with hev | hev
    · exact hh' ev hev id hash
    · rcases List.mem_singleton.mp hev with rfl
      rintro ⟨-, expiresAt, heq⟩
      exact hop _ _ _ heq
  unfold refreshSession
  split_ifs with hreuse
  · exact guarantees_query (.revokeFamily _) fun e s =>
      guarantees_save_done fun _ => answer_unauthorized
  · refine guarantees_perform (.quiet trivial) fun e₁ s₁ => ?_
    split_ifs with hexpired
    · exact guarantees_query (.revoke _) fun e s => answer_unauthorized
    · refine guarantees_query (.quiet trivial) fun e₂ s₂ => ?_
      split
      next user =>
        split_ifs with hbad
        · exact guarantees_query (.revoke _) fun e s =>
            guarantees_save_done fun _ => answer_unauthorized
        · refine rotateTokens_guarantees hcookie ?_
          exact hnot e₂ s₂ (by simp) (hnot e₁ s₁ (by simp) hfirst)
      · exact answer_unauthorized

theorem refresh_guarantees : (refresh p headers).Guarantees (exec p) (RefreshCall p headers)
    (RefreshAnswer p headers) [] := by
  unfold refresh
  split
  · intro hstatus
    simp [ApiError.intoResponse, ApiError.statusCode] at hstatus
  next token hcookie =>
    refine guarantees_perform (.quiet trivial) fun e₁ s₁ => ?_
    simp only [exec_utcNow]
    split
    · exact answer_unauthorized
    next c hclaims =>
      rcases Token.refreshClaims_eq_some.mp hclaims with ⟨rfl, -⟩
      refine guarantees_query (.quiet trivial) fun e₂ s₂ => ?_
      split
      · refine refreshSession_guarantees hcookie ?_
        intro ev hev id hash
        rintro ⟨-, expiresAt, hop⟩
        simp only [List.nil_append, List.mem_append, List.mem_singleton] at hev
        rcases hev with rfl | rfl <;> cases hop
      · exact answer_unauthorized

end Guarantee

/-! ## All of them together -/

/-- If the step is a rotation, its session is still unrevoked and still records
the token the request presented. -/
def InTime (p : Platform) (headers : Headers) (ev : Step) : Prop :=
  match ev.op, headers.refreshCookie with
  | .db (.rotateSession id _ _), some (.refresh c) => ev.env.fails = false →
      ∃ row ∈ ev.before.sessions,
        row.id = id ∧ row.refreshTokenHash = p.refreshTokenHash c ∧ row.revokedAt = none
  | _, _ => True

/-- `InTime`, decided for any operation and cookie. -/
def decideInTime (p : Platform) (ev : Step) (op : Call) (cookie : Option Token) :
    Decidable (match op, cookie with
      | .db (.rotateSession id _ _), some (.refresh c) => ev.env.fails = false →
          ∃ row ∈ ev.before.sessions,
            row.id = id ∧ row.refreshTokenHash = p.refreshTokenHash c ∧ row.revokedAt = none
      | _, _ => True) := by
  split <;> infer_instance

instance (p : Platform) (headers : Headers) (ev : Step) : Decidable (InTime p headers ev) :=
  decideInTime p ev ev.op headers.refreshCookie

/-- Every rotation is in time. -/
def RotatesInTime {ι : Type} (p : Platform) (headers : ι → Headers) (log : List (ι × Step)) :
    Prop :=
  ∀ entry ∈ log, InTime p (headers entry.1) entry.2

section Pool

variable {ι : Type} [DecidableEq ι]

/-- Request `i` has rotated its session. -/
def HasRotated (log : List (ι × Step)) (i : ι) : Prop :=
  ∃ ev ∈ Pool.own i log, ∃ id hash, Rotation ev id hash

/-- What has been drawn, recorded and spent so far. -/
structure Tally (p : Platform) (headers : ι → Headers) (s₀ : Server) (log : List (ι × Step))
    (s : Server) : Prop where
  wellFormed : s.WellFormed p
  nextId_le : s₀.nextId ≤ s.nextId
  drawn : ∀ i n, Drew (Pool.own i log) n → s₀.nextId ≤ n ∧ n < s.nextId
  drawnOnce : ∀ i j n, Drew (Pool.own i log) n → Drew (Pool.own j log) n → i = j
  /-- A recorded token is an old one or that of a request that has rotated. -/
  installed : ∀ row ∈ s.sessions, ∃ d : RefreshClaims,
    row.refreshTokenHash = p.refreshTokenHash d ∧
      (d.jti < s₀.nextId ∨ ∃ i, Drew (Pool.own i log) d.jti ∧ HasRotated log i)
  /-- So is a token that was spent. -/
  origin : ∀ i c, HasRotated log i → (headers i).refreshCookie = some (.refresh c) →
    c.jti < s₀.nextId ∨ ∃ k, Drew (Pool.own k log) c.jti ∧ HasRotated log k
  /-- A token that was spent is recorded nowhere. -/
  spent : ∀ i c, HasRotated log i → (headers i).refreshCookie = some (.refresh c) →
    ∀ row ∈ s.sessions, row.refreshTokenHash ≠ p.refreshTokenHash c

variable {p : Platform} {headers : ι → Headers} {s₀ s : Server} {log : List (ι × Step)} {i : ι}
  {op : Call} {e : Env}

theorem drew_snoc {j : ι} {n : Nat} {ev : Step} :
    Drew (Pool.own j (log ++ [(i, ev)])) n ↔
      Drew (Pool.own j log) n ∨ j = i ∧ ev.op = .newId ∧ ev.before.nextId = n := by
  unfold Drew
  constructor
  · rintro ⟨ev', hev', hop, hn⟩
    rw [Pool.mem_own, List.mem_append] at hev'
    rcases hev' with hev' | hev'
    · exact Or.inl ⟨ev', Pool.mem_own.mpr hev', hop, hn⟩
    · rcases Prod.mk.inj (List.mem_singleton.mp hev') with ⟨rfl, rfl⟩
      exact Or.inr ⟨rfl, hop, hn⟩
  · rintro (⟨ev', hev', hop, hn⟩ | ⟨rfl, hop, hn⟩)
    · exact ⟨ev', Pool.mem_own.mpr (List.mem_append_left _ (Pool.mem_own.mp hev')), hop, hn⟩
    · exact ⟨ev, by simp, hop, hn⟩

theorem hasRotated_snoc {j : ι} {ev : Step} :
    HasRotated (log ++ [(i, ev)]) j ↔
      HasRotated log j ∨ j = i ∧ ∃ id hash, Rotation ev id hash := by
  unfold HasRotated
  constructor
  · rintro ⟨ev', hev', hrotation⟩
    rw [Pool.mem_own, List.mem_append] at hev'
    rcases hev' with hev' | hev'
    · exact Or.inl ⟨ev', Pool.mem_own.mpr hev', hrotation⟩
    · rcases Prod.mk.inj (List.mem_singleton.mp hev') with ⟨rfl, rfl⟩
      exact Or.inr ⟨rfl, hrotation⟩
  · rintro (⟨ev', hev', hrotation⟩ | ⟨rfl, hrotation⟩)
    · exact ⟨ev', Pool.mem_own.mpr (List.mem_append_left _ (Pool.mem_own.mp hev')), hrotation⟩
    · exact ⟨ev, by simp, hrotation⟩

namespace Tally

theorem start (hwf : s₀.WellFormed p) : Tally p headers s₀ [] s₀ := by
  refine ⟨hwf, Nat.le_refl _, ?_, ?_, ?_, ?_, ?_⟩
  · rintro i n ⟨ev, hev, -⟩
    simp at hev
  · rintro i j n ⟨ev, hev, -⟩
    simp at hev
  · intro row hrow
    rcases hwf.recorded row hrow with ⟨d, hd, -, hjti⟩
    exact ⟨d, hd, Or.inl hjti⟩
  · rintro i c ⟨ev, hev, -⟩
    simp at hev
  · rintro i c ⟨ev, hev, -⟩
    simp at hev

/-- What any operation adds to the draws. -/
theorem draws (h : Tally p headers s₀ log s) :
    (∀ j n, Drew (Pool.own j (log ++ [(i, ⟨op, e, s, (exec p op e s).1⟩)])) n →
      s₀.nextId ≤ n ∧ n < (exec p op e s).1.nextId) ∧
    ∀ j k n, Drew (Pool.own j (log ++ [(i, ⟨op, e, s, (exec p op e s).1⟩)])) n →
      Drew (Pool.own k (log ++ [(i, ⟨op, e, s, (exec p op e s).1⟩)])) n → j = k := by
  constructor
  · intro j n hdrew
    rcases drew_snoc.mp hdrew with hdrew | ⟨-, hop, hn⟩
    · exact ⟨(h.drawn j n hdrew).1, (h.drawn j n hdrew).2.trans_le (exec_nextId_le op)⟩
    · dsimp only at hop hn
      subst hop hn
      exact ⟨h.nextId_le, Nat.lt_succ_self _⟩
  · intro j k n hj hk
    rcases drew_snoc.mp hj with hold | ⟨hji, -, hnj⟩
    · rcases drew_snoc.mp hk with hold' | ⟨-, -, hnk⟩
      · exact h.drawnOnce j k n hold hold'
      · -- an identifier drawn before is not drawn again
        exact absurd hnk (h.drawn j n hold).2.ne'
    · rcases drew_snoc.mp hk with hold' | ⟨hki, -, -⟩
      · exact absurd hnj (h.drawn k n hold').2.ne'
      · exact hji.trans hki.symm

/-- An operation that rewrites rows but no hash. -/
theorem keep (h : Tally p headers s₀ log s)
    (hnot : ∀ id hash, ¬ Rotation ⟨op, e, s, (exec p op e s).1⟩ id hash)
    {g : SessionRow → SessionRow} (hs : (exec p op e s).1.sessions = s.sessions.map g)
    (hg : ∀ row, (g row).id = row.id ∧ (g row).tokenFamilyId = row.tokenFamilyId ∧
      (g row).refreshTokenHash = row.refreshTokenHash) :
    Tally p headers s₀ (log ++ [(i, ⟨op, e, s, (exec p op e s).1⟩)]) (exec p op e s).1 := by
  have hrotated : ∀ j, HasRotated (log ++ [(i, ⟨op, e, s, (exec p op e s).1⟩)]) j →
      HasRotated log j := by
    intro j hj
    rcases hasRotated_snoc.mp hj with hj | ⟨-, id, hash, hrotation⟩
    · exact hj
    · exact absurd hrotation (hnot id hash)
  have hgrows : ∀ n, (∃ k, Drew (Pool.own k log) n ∧ HasRotated log k) →
      ∃ k, Drew (Pool.own k (log ++ [(i, ⟨op, e, s, (exec p op e s).1⟩)])) n ∧
        HasRotated (log ++ [(i, ⟨op, e, s, (exec p op e s).1⟩)]) k := by
    rintro n ⟨k, hdrew, hk⟩
    exact ⟨k, drew_snoc.mpr (Or.inl hdrew), hasRotated_snoc.mpr (Or.inl hk)⟩
  refine ⟨?_, h.nextId_le.trans (exec_nextId_le op), h.draws.1, h.draws.2, ?_, ?_, ?_⟩
  · refine h.wellFormed.of_map hs (exec_nextId_le op) (fun row _ => (hg row).1)
      (fun row _ => (hg row).2.1) fun row hrow => ?_
    rcases h.wellFormed.recorded row hrow with ⟨d, hd, hfamily, hjti⟩
    exact ⟨d, (hg row).2.2.trans hd, hfamily, hjti.trans_le (exec_nextId_le op)⟩
  · intro row' hrow'
    rw [hs] at hrow'
    rcases List.mem_map.mp hrow' with ⟨row, hrow, rfl⟩
    rcases h.installed row hrow with ⟨d, hd, horigin⟩
    exact ⟨d, (hg row).2.2.trans hd, horigin.imp_right (hgrows _)⟩
  · intro j c hj hcookie
    exact (h.origin j c (hrotated j hj) hcookie).imp_right (hgrows _)
  · intro j c hj hcookie row' hrow'
    rw [hs] at hrow'
    rcases List.mem_map.mp hrow' with ⟨row, hrow, rfl⟩
    rw [(hg row).2.2]
    exact h.spent j c (hrotated j hj) hcookie row hrow

/-- A token that a request has just drawn and not yet recorded is neither an old
one nor that of a request that has rotated. -/
theorem fresh (h : Tally p headers s₀ log s) (hfirst : ¬ HasRotated log i) {n : Nat}
    (hdrew : Drew (Pool.own i log) n) :
    ¬ (n < s₀.nextId ∨ ∃ k, Drew (Pool.own k log) n ∧ HasRotated log k) := by
  rintro (hlt | ⟨k, hk, hrotated⟩)
  · exact absurd hlt (Nat.not_lt_of_le (h.drawn i n hdrew).1)
  · rcases h.drawnOnce i k n hdrew hk with rfl
    exact hfirst hrotated

/-- The token recorded in a row is of the row's family. -/
theorem family_eq (hinj : Function.Injective p.refreshTokenHash) (h : Tally p headers s₀ log s)
    {row : SessionRow} (hrow : row ∈ s.sessions) {c : RefreshClaims}
    (hc : row.refreshTokenHash = p.refreshTokenHash c) : row.tokenFamilyId = c.family := by
  rcases h.wellFormed.recorded row hrow with ⟨d, hd, hfamily, -⟩
  rcases hinj (hd.symm.trans hc) with rfl
  exact hfamily.symm

/-- A rotation in time: the presented token gives way to the one just drawn. -/
theorem rotate (hinj : Function.Injective p.refreshTokenHash) (h : Tally p headers s₀ log s)
    {c d : RefreshClaims} {expiresAt : Timestamp} {row : SessionRow}
    (hsucceeds : e.fails = false) (hfirst : ¬ HasRotated log i)
    (hcookie : (headers i).refreshCookie = some (.refresh c)) (hdrew : Drew (Pool.own i log) d.jti)
    (hfamily : d.family = c.family) (hrow : row ∈ s.sessions) (hunrevoked : row.revokedAt = none)
    (hrecorded : row.refreshTokenHash = p.refreshTokenHash c)
    (hop : op = .db (.rotateSession row.id (p.refreshTokenHash d) expiresAt)) :
    Tally p headers s₀ (log ++ [(i, ⟨op, e, s, (exec p op e s).1⟩)]) (exec p op e s).1 ∧
      ∃ row' ∈ (exec p op e s).1.sessions, row'.tokenFamilyId = d.family ∧
        row'.refreshTokenHash = p.refreshTokenHash d := by
  have hafter : (exec p op e s).1.sessions = s.sessions.map fun row' =>
      if row'.id == row.id && row'.revokedAt.isNone then
        { row' with refreshTokenHash := p.refreshTokenHash d, expiresAt := p.sessionExpiry expiresAt,
                    lastUsedAt := p.now e.now, rotationCounter := row'.rotationCounter + 1 }
      else row' := by
    rw [hop, exec_db_of_succeeds s hsucceeds]
    rfl
  have hrowfamily : row.tokenFamilyId = d.family := (h.family_eq hinj hrow hrecorded).trans hfamily.symm
  -- the one row that is rewritten
  have hchanged : ∀ row' ∈ s.sessions, (row'.id == row.id && row'.revokedAt.isNone) = true →
      row' = row := by
    intro row' hrow' hcond
    rw [Bool.and_eq_true, beq_iff_eq] at hcond
    exact h.wellFormed.eq_of_id hrow' hrow hcond.1
  have hrotation : Rotation ⟨op, e, s, (exec p op e s).1⟩ row.id (p.refreshTokenHash d) :=
    ⟨hsucceeds, expiresAt, hop⟩
  have hrotated : HasRotated (log ++ [(i, ⟨op, e, s, (exec p op e s).1⟩)]) i :=
    hasRotated_snoc.mpr (Or.inr ⟨rfl, _, _, hrotation⟩)
  have hgrows : ∀ n, (∃ k, Drew (Pool.own k log) n ∧ HasRotated log k) →
      ∃ k, Drew (Pool.own k (log ++ [(i, ⟨op, e, s, (exec p op e s).1⟩)])) n ∧
        HasRotated (log ++ [(i, ⟨op, e, s, (exec p op e s).1⟩)]) k := by
    rintro n ⟨k, hk, hr⟩
    exact ⟨k, drew_snoc.mpr (Or.inl hk), hasRotated_snoc.mpr (Or.inl hr)⟩
  have horigin : c.jti < s₀.nextId ∨ ∃ k, Drew (Pool.own k log) c.jti ∧ HasRotated log k := by
    rcases h.installed row hrow with ⟨c', hc', horigin⟩
    rcases hinj (hrecorded.symm.trans hc') with rfl
    exact horigin
  have hfresh := h.fresh hfirst hdrew
  refine ⟨⟨?_, h.nextId_le.trans (exec_nextId_le op), h.draws.1, h.draws.2, ?_, ?_, ?_⟩, ?_⟩
  · refine h.wellFormed.of_map hafter (exec_nextId_le op) ?_ ?_ fun row' hrow' => ?_
    · intro row' _
      split_ifs <;> rfl
    · intro row' _
      split_ifs <;> rfl
    · split_ifs with hcond
      · rcases hchanged row' hrow' hcond with rfl
        exact ⟨d, rfl, hrowfamily.symm, (h.drawn i _ hdrew).2.trans_le (exec_nextId_le op)⟩
      · rcases h.wellFormed.recorded row' hrow' with ⟨c', hc', hf, hjti⟩
        exact ⟨c', hc', hf, hjti.trans_le (exec_nextId_le op)⟩
  · intro row'' hrow''
    rw [hafter] at hrow''
    rcases List.mem_map.mp hrow'' with ⟨row', hrow', rfl⟩
    split_ifs with hcond
    · exact ⟨d, rfl, Or.inr ⟨i, drew_snoc.mpr (Or.inl hdrew), hrotated⟩⟩
    · rcases h.installed row' hrow' with ⟨c', hc', horigin'⟩
      exact ⟨c', hc', horigin'.imp_right (hgrows _)⟩
  · intro j c' hj hcookie'
    rcases hasRotated_snoc.mp hj with hold | ⟨rfl, -⟩
    · exact (h.origin j c' hold hcookie').imp_right (hgrows _)
    · have hc' : c' = c := by simpa using hcookie'.symm.trans hcookie
      rw [hc']
      exact horigin.imp_right (hgrows _)
  · intro j c' hj hcookie' row'' hrow'' hhash
    rw [hafter] at hrow''
    rcases List.mem_map.mp hrow'' with ⟨row', hrow', rfl⟩
    rcases hasRotated_snoc.mp hj with hold | ⟨rfl, -⟩
    · -- spent before: it would have to be the token just drawn
      split_ifs at hhash with hcond
      · rcases hinj hhash with rfl
        exact hfresh (h.origin j d hold hcookie')
      · exact h.spent j c' hold hcookie' row' hrow' hhash
    · -- spent just now: its row has been rewritten
      have hc' : c' = c := by simpa using hcookie'.symm.trans hcookie
      subst hc'
      split_ifs at hhash with hcond
      · rcases hinj hhash with rfl
        exact hfresh horigin
      · have hsame : row' = row := h.wellFormed.eq_of_family hrow' hrow
          ((h.family_eq hinj hrow' hhash).trans (h.family_eq hinj hrow hrecorded).symm)
        subst hsame
        simp [hunrevoked] at hcond
  · refine ⟨_, by rw [hafter]; exact List.mem_map_of_mem hrow, ?_, ?_⟩
    · simp [hunrevoked, hrowfamily]
    · simp [hunrevoked]

end Tally

/-- The requests, and the state they meet. -/
def refreshes (p : Platform) (headers : ι → Headers) (s₀ : Server) :
    Pool ι Call Call.Res Response Server :=
  ⟨fun i => refresh p (headers i), s₀⟩

/-- Right after a rotation the session of the token's family records the token. -/
def RecordsAfter (p : Platform) (log : List (ι × Step)) : Prop :=
  ∀ i ev id (d : RefreshClaims), (i, ev) ∈ log → Rotation ev id (p.refreshTokenHash d) →
    ev.after.Records p d

/-- Two requests that rotated on the same token are one. -/
def RotatesOnce (headers : ι → Headers) (log : List (ι × Step)) : Prop :=
  ∀ i j c, HasRotated log i → HasRotated log j → (headers i).refreshCookie = some (.refresh c) →
    (headers j).refreshCookie = some (.refresh c) → i = j

/-- Operations that are no rotation rewrite no hash. -/
theorem sessions_of_refreshCall {h : List Step} {headers : Headers} (hop : RefreshCall p headers h op)
    (hnot : ∀ id hash, ¬ Rotation ⟨op, e, s, (exec p op e s).1⟩ id hash) :
    ∃ g : SessionRow → SessionRow, (exec p op e s).1.sessions = s.sessions.map g ∧
      ∀ row, (g row).id = row.id ∧ (g row).tokenFamilyId = row.tokenFamilyId ∧
        (g row).refreshTokenHash = row.refreshTokenHash := by
  have hrevoke : ∀ (cond : SessionRow → Bool) now, ∃ g : SessionRow → SessionRow,
      (s.revokeSessions cond now).sessions = s.sessions.map g ∧
        ∀ row, (g row).id = row.id ∧ (g row).tokenFamilyId = row.tokenFamilyId ∧
          (g row).refreshTokenHash = row.refreshTokenHash := by
    intro cond now
    refine ⟨_, rfl, fun row => ?_⟩
    split_ifs <;> exact ⟨rfl, rfl, rfl⟩
  have hnone : ∀ s' : Server, s'.sessions = s.sessions → ∃ g : SessionRow → SessionRow,
      s'.sessions = s.sessions.map g ∧
        ∀ row, (g row).id = row.id ∧ (g row).tokenFamilyId = row.tokenFamilyId ∧
          (g row).refreshTokenHash = row.refreshTokenHash :=
    fun s' hs => ⟨id, by rw [hs, List.map_id], fun _ => ⟨rfl, rfl, rfl⟩⟩
  by_cases hf : e.fails
  · cases op with
    | db q =>
        refine hnone _ ?_
        rw [exec_db_of_fails s hf]
    | _ => exact hnone _ rfl
  · rw [Bool.not_eq_true] at hf
    cases hop with
    | quiet hquiet => exact hnone _ (exec_sessions (fun _ => hquiet.not_issues) hquiet.not_rotates)
    | revoke id =>
        rw [exec_db_of_succeeds s hf]
        exact hrevoke _ _
    | revokeFamily family =>
        rw [exec_db_of_succeeds s hf]
        exact hrevoke _ _
    | rotate id c d expiresAt => exact absurd ⟨hf, expiresAt, rfl⟩ (hnot id _)

/-- The tally is right as long as every rotation so far was in time. -/
theorem tally_log (hinj : Function.Injective p.refreshTokenHash) (hwf : s₀.WellFormed p)
    (schedule : List (ι × Env)) :
    let log := (refreshes p headers s₀).log (exec p) schedule
    RotatesInTime p headers log →
      Tally p headers s₀ log ((refreshes p headers s₀).after (exec p) schedule).store ∧
        RecordsAfter p log ∧ RotatesOnce headers log := by
  have hguarantees : ∀ i, ((refreshes p headers s₀).threads i).Guarantees (exec p)
      (RefreshCall p (headers i)) (RefreshAnswer p (headers i)) [] := fun i => refresh_guarantees
  refine Pool.induction (c := refreshes p headers s₀) (P := fun log pool =>
    RotatesInTime p headers log → Tally p headers s₀ log pool.store ∧ RecordsAfter p log ∧
      RotatesOnce headers log) ?_ ?_ schedule
  · refine fun _ => ⟨Tally.start hwf, ?_, ?_⟩
    · intro i ev id d hmem
      simp at hmem
    · rintro i j c ⟨ev, hev, -⟩
      simp at hev
  · intro schedule i e op next hthread ih htime
    rcases ih fun entry hentry => htime entry (List.mem_append_left _ hentry) with
      ⟨htally, hrecords, honce⟩
    -- what this request may do after its own history
    have hcall := (Pool.guarantees hguarantees schedule).1 i
    rw [hthread] at hcall
    have hop := hcall.1
    clear hcall ih
    generalize (refreshes p headers s₀).log (exec p) schedule = log at *
    generalize ((refreshes p headers s₀).after (exec p) schedule).store = s at *
    by_cases hrotation : ∃ id hash, Rotation ⟨op, e, s, (exec p op e s).1⟩ id hash
    · rcases hrotation with ⟨id, hash, hr⟩
      rcases hr with ⟨hsucceeds, expiresAt, hopeq⟩
      dsimp only at hsucceeds hopeq
      cases hop with
      | quiet hquiet =>
          rw [hopeq] at hquiet
          exact hquiet.elim
      | revoke => cases hopeq
      | revokeFamily => cases hopeq
      | rotate id' c d expiresAt' first hcookie hdrew hfamily =>
          have hfirst : ¬ HasRotated log i := by
            rintro ⟨ev, hev, id'', hash'', hr⟩
            exact first ev hev id'' hash'' hr
          have hintime := htime _ (List.mem_append_right _ (List.mem_singleton_self _))
          simp only [InTime, hcookie] at hintime
          rcases hintime hsucceeds with ⟨row, hrow, hid, hrecorded, hunrevoked⟩
          rcases htally.rotate hinj hsucceeds hfirst hcookie hdrew hfamily hrow hunrevoked
            hrecorded (by rw [hid]) with ⟨htally', row', hrow', hfamily', hhash'⟩
          refine ⟨htally', ?_, ?_⟩
          · intro j ev id'' d' hmem hr
            rcases List.mem_append.mp hmem with hmem | hmem
            · exact hrecords j ev id'' d' hmem hr
            · rcases Prod.mk.inj (List.mem_singleton.mp hmem) with ⟨rfl, rfl⟩
              rcases hr with ⟨-, expiresAt'', heq⟩
              simp only [Call.db.injEq, Query.rotateSession.injEq] at heq
              rcases hinj heq.2.1 with rfl
              refine ⟨row', ?_, hhash'⟩
              rw [← hfamily']
              exact htally'.wellFormed.session_of_mem hrow'
          · -- another request on the same token would find it recorded nowhere
            have hnew : ∀ j, HasRotated log j →
                (headers j).refreshCookie = some (.refresh c) → False := fun j hj hcookiej =>
              htally.spent j c hj hcookiej row hrow hrecorded
            intro j k c' hj hk hcookiej hcookiek
            rcases hasRotated_snoc.mp hj with hold | ⟨rfl, -⟩
            · rcases hasRotated_snoc.mp hk with hold' | ⟨rfl, -⟩
              · exact honce j k c' hold hold' hcookiej hcookiek
              · rcases Token.refresh.inj (Option.some.inj (hcookie.symm.trans hcookiek)) with rfl
                exact (hnew j hold hcookiej).elim
            · rcases hasRotated_snoc.mp hk with hold' | ⟨hki, -⟩
              · rcases Token.refresh.inj (Option.some.inj (hcookie.symm.trans hcookiej)) with rfl
                exact (hnew k hold' hcookiek).elim
              · exact hki.symm
    · have hnot : ∀ id hash, ¬ Rotation ⟨op, e, s, (exec p op e s).1⟩ id hash :=
        fun id hash h => hrotation ⟨id, hash, h⟩
      rcases sessions_of_refreshCall hop hnot with ⟨g, hs, hg⟩
      refine ⟨htally.keep hnot hs hg, ?_, ?_⟩
      · intro j ev id d hmem hr
        rcases List.mem_append.mp hmem with hmem | hmem
        · exact hrecords j ev id d hmem hr
        · rcases Prod.mk.inj (List.mem_singleton.mp hmem) with ⟨rfl, rfl⟩
          exact absurd hr (hnot id _)
      · intro j k c hj hk
        have hold : ∀ j, HasRotated (log ++ [(i, ⟨op, e, s, (exec p op e s).1⟩)]) j →
            HasRotated log j := by
          intro j hj
          rcases hasRotated_snoc.mp hj with hj | ⟨-, hj⟩
          · exact hj
          · exact absurd hj hrotation
        exact honce j k c (hold j hj) (hold k hk)

/-- What single use of refresh tokens means for requests at the same time. -/
structure AcceptedOnce (p : Platform) (headers : ι → Headers) (log : List (ι × Step))
    (pool : Pool ι Call Call.Res Response Server) : Prop where
  /-- A token leads to at most one accepted response. -/
  once : ∀ i j c r r', (headers i).refreshCookie = some (.refresh c) →
    (headers j).refreshCookie = some (.refresh c) → pool.answer i = some r →
    pool.answer j = some r' → r.status = 200 → r'.status = 200 → i = j
  /-- The token handed out is the one recorded right after the request's rotation. -/
  recorded : ∀ i r, pool.answer i = some r → r.status = 200 →
    ∃ d ev id, r.setCookie = some (.refreshToken (.refresh d)) ∧ (i, ev) ∈ log ∧
      Rotation ev id (p.refreshTokenHash d) ∧ ev.after.Records p d

/-- **Single use.** However the statements of any number of refreshes interleave
and whichever of them fail: as long as every rotation is in time, a token is
accepted once. -/
theorem accepted_once (hinj : Function.Injective p.refreshTokenHash) (hwf : s₀.WellFormed p)
    (schedule : List (ι × Env))
    (htime : RotatesInTime p headers ((refreshes p headers s₀).log (exec p) schedule)) :
    AcceptedOnce p headers ((refreshes p headers s₀).log (exec p) schedule)
      ((refreshes p headers s₀).after (exec p) schedule) := by
  rcases tally_log hinj hwf schedule htime with ⟨-, hrecords, honce⟩
  have hanswer : ∀ i r, ((refreshes p headers s₀).after (exec p) schedule).answer i = some r →
      RefreshAnswer p (headers i)
        (Pool.own i ((refreshes p headers s₀).log (exec p) schedule)) r := by
    intro i r hr
    have hall : ∀ i, ((refreshes p headers s₀).threads i).Guarantees (exec p)
        (RefreshCall p (headers i)) (RefreshAnswer p (headers i)) [] := fun i => refresh_guarantees
    have hdone := (Pool.guarantees hall schedule).1 i
    rw [Pool.threads_of_answer hr] at hdone
    exact hdone
  constructor
  · intro i j c r r' hi hj hr hr' hok hok'
    rcases hanswer i r hr hok with ⟨-, d, -, -, -, ev, hev, id, hrotation⟩
    rcases hanswer j r' hr' hok' with ⟨-, d', -, -, -, ev', hev', id', hrotation'⟩
    exact honce i j c ⟨ev, hev, id, _, hrotation⟩ ⟨ev', hev', id', _, hrotation'⟩ hi hj
  · intro i r hr hok
    rcases hanswer i r hr hok with ⟨c, d, -, -, hset, ev, hev, id, hrotation⟩
    rw [Pool.mem_own] at hev
    exact ⟨d, ev, id, hset, hev, hrotation, hrecords i ev id d hev hrotation⟩

end Pool

/-! ## Sample interleavings -/

/-- The state after `sampleLogin`. -/
def sampleSession : Server := sampleLogin.after (samplePlatform .sqlite) sampleServer

theorem sampleSession_wellFormed : sampleSession.WellFormed (samplePlatform .sqlite) :=
  (visit_evolves (fun _ => rfl) (wellFormed_of_no_sessions rfl)).wellFormed

/-- Two requests with the token of that login. -/
def samplePair : Bool → Headers := fun _ =>
  { sampleHeaders with refreshCookie := some (.refresh sampleClaims1) }

/-- Turns at one instant. -/
def turns (order : List Bool) : List (Bool × Env) :=
  order.map fun i => (i, steadily (Timestamp.seconds 1111111111) 0 0)

/-- One request after the other. -/
def sampleSerial : List (Bool × Env) := turns (List.replicate 10 false ++ List.replicate 10 true)

/-- Statement by statement. -/
def sampleAlternating : List (Bool × Env) := turns (List.replicate 10 [false, true]).flatten

theorem accepted_once_sample :
    AcceptedOnce (samplePlatform .sqlite) samplePair
      ((refreshes (samplePlatform .sqlite) samplePair sampleSession).log
        (exec (samplePlatform .sqlite)) sampleSerial)
      ((refreshes (samplePlatform .sqlite) samplePair sampleSession).after
        (exec (samplePlatform .sqlite)) sampleSerial) := by
  refine accepted_once (samplePlatform_injective .sqlite) sampleSession_wellFormed _ ?_
  unfold RotatesInTime
  decide +kernel

/-- The same token, accepted twice. -/
theorem concurrent_refreshes_both_accepted :
    Function.Injective (samplePlatform .sqlite).refreshTokenHash ∧
      sampleSession.WellFormed (samplePlatform .sqlite) ∧
      ¬ AcceptedOnce (samplePlatform .sqlite) samplePair
        ((refreshes (samplePlatform .sqlite) samplePair sampleSession).log
          (exec (samplePlatform .sqlite)) sampleAlternating)
        ((refreshes (samplePlatform .sqlite) samplePair sampleSession).after
          (exec (samplePlatform .sqlite)) sampleAlternating) := by
  refine ⟨samplePlatform_injective .sqlite, sampleSession_wellFormed, fun h => ?_⟩
  have hboth : ∀ i, (((refreshes (samplePlatform .sqlite) samplePair sampleSession).after
      (exec (samplePlatform .sqlite)) sampleAlternating).answer i).map (·.status) = some 200 := by
    decide +kernel
  rcases Option.map_eq_some_iff.mp (hboth false) with ⟨r, hr, hok⟩
  rcases Option.map_eq_some_iff.mp (hboth true) with ⟨r', hr', hok'⟩
  exact Bool.false_ne_true (h.once false true sampleClaims1 r r' rfl rfl hr hr' hok hok')

end AnatoliaBis.Auth
