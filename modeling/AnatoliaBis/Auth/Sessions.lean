import AnatoliaBis.Auth.Footprint
import Mathlib.Data.List.Nodup

/-! # The sessions table over a run

`find_session_by_family` makes the table a map from families to sessions
(`Server.session`). `Server.WellFormed` is what keeps it one; `Later` says how a
session can differ between two moments of a run; `Evolves` says both of one visit
and which families it leaves alone.
-/

namespace AnatoliaBis.Auth

open Atomic Program

/-! ## The table as a map -/

/-- The row `find_session_by_family` finds. -/
def Server.session (s : Server) (family : Uuid) : Option SessionRow :=
  s.sessions.find? fun row => row.tokenFamilyId == family

/-- Families and identifiers are unique and have been drawn, and every recorded
hash is that of a refresh token of the family, drawn before. -/
structure Server.WellFormed (p : Platform) (s : Server) : Prop where
  families : (s.sessions.map (·.tokenFamilyId)).Nodup
  ids : (s.sessions.map (·.id)).Nodup
  drawn : ∀ row ∈ s.sessions, row.id < s.nextId ∧ row.tokenFamilyId < s.nextId
  recorded : ∀ row ∈ s.sessions, ∃ c : RefreshClaims,
    row.refreshTokenHash = p.refreshTokenHash c ∧ c.family = row.tokenFamilyId ∧ c.jti < s.nextId

section Map

variable {p : Platform} {s : Server} {f : Uuid} {row : SessionRow}

theorem mem_of_session (h : s.session f = some row) :
    row ∈ s.sessions ∧ row.tokenFamilyId = f :=
  ⟨List.mem_of_find?_eq_some h, by simpa using List.find?_some h⟩

theorem session_eq_none_iff : s.session f = none ↔ ∀ row ∈ s.sessions, row.tokenFamilyId ≠ f := by
  simp [Server.session]

namespace Server.WellFormed

theorem eq_of_family (h : s.WellFormed p) {row' : SessionRow} (hrow : row ∈ s.sessions)
    (hrow' : row' ∈ s.sessions) (heq : row.tokenFamilyId = row'.tokenFamilyId) : row = row' :=
  List.inj_on_of_nodup_map h.families hrow hrow' heq

theorem eq_of_id (h : s.WellFormed p) {row' : SessionRow} (hrow : row ∈ s.sessions)
    (hrow' : row' ∈ s.sessions) (heq : row.id = row'.id) : row = row' :=
  List.inj_on_of_nodup_map h.ids hrow hrow' heq

/-- Every row is the session of its family. -/
theorem session_of_mem (h : s.WellFormed p) (hrow : row ∈ s.sessions) :
    s.session row.tokenFamilyId = some row := by
  cases hs : s.session row.tokenFamilyId with
  | none => exact absurd rfl (session_eq_none_iff.mp hs row hrow)
  | some row' =>
      rcases mem_of_session hs with ⟨hmem, hfamily⟩
      rw [h.eq_of_family hmem hrow hfamily]

theorem family_lt (h : s.WellFormed p) (hs : s.session f = some row) : f < s.nextId := by
  rcases mem_of_session hs with ⟨hmem, rfl⟩
  exact (h.drawn row hmem).2

end Server.WellFormed

end Map

/-! ## How sessions go on -/

/-- A session and what becomes of it once `n` identifiers have been drawn: it
stays revoked, and a new hash is that of a token drawn later. -/
structure Continues (p : Platform) (n : Nat) (row row' : SessionRow) : Prop where
  revoked : row.revokedAt.isSome → row'.revokedAt.isSome
  hash : row'.refreshTokenHash = row.refreshTokenHash ∨
    ∃ c : RefreshClaims, row'.refreshTokenHash = p.refreshTokenHash c ∧ n ≤ c.jti

/-- The state `s'` comes after `s` in a run. -/
structure Later (p : Platform) (s s' : Server) : Prop where
  users_eq : s'.users = s.users
  nextId_le : s.nextId ≤ s'.nextId
  session : ∀ f row', s'.session f = some row' →
    s.nextId ≤ f ∨ ∃ row, s.session f = some row ∧ Continues p s.nextId row row'

section Later

variable {p : Platform} {s s' s'' : Server}

theorem Continues.refl (n : Nat) (row : SessionRow) : Continues p n row row :=
  ⟨id, Or.inl rfl⟩

theorem Continues.trans {n n' : Nat} {row row' row'' : SessionRow} (hn : n ≤ n')
    (h : Continues p n row row') (h' : Continues p n' row' row'') : Continues p n row row'' := by
  refine ⟨fun hr => h'.revoked (h.revoked hr), ?_⟩
  rcases h'.hash with heq | ⟨c, hc, hjti⟩
  · rw [heq]
    exact h.hash
  · exact Or.inr ⟨c, hc, hn.trans hjti⟩

theorem Later.refl (s : Server) : Later p s s :=
  ⟨rfl, Nat.le_refl _, fun _ row h => Or.inr ⟨row, h, Continues.refl _ row⟩⟩

theorem Later.trans (h : Later p s s') (h' : Later p s' s'') : Later p s s'' := by
  refine ⟨h'.users_eq.trans h.users_eq, h.nextId_le.trans h'.nextId_le, ?_⟩
  intro f row'' hrow''
  rcases h'.session f row'' hrow'' with hf | ⟨row', hrow', hc'⟩
  · exact Or.inl (h.nextId_le.trans hf)
  · rcases h.session f row' hrow' with hf | ⟨row, hrow, hc⟩
    · exact Or.inl hf
    · exact Or.inr ⟨row, hrow, hc.trans h.nextId_le hc'⟩

end Later

/-- A visit about the families `A`: the table stays a map, every session goes on
as it may, and the families outside `A` see no change. -/
structure Evolves (p : Platform) (A : Uuid → Prop) (s s' : Server) : Prop where
  later : Later p s s'
  wellFormed : s'.WellFormed p
  others : ∀ f, ¬ A f → s'.session f = s.session f

/-- From `s` to `s'` nothing happens to sessions and accounts. -/
structure SameSessions (s s' : Server) : Prop where
  sessions_eq : s'.sessions = s.sessions
  users_eq : s'.users = s.users
  nextId_le : s.nextId ≤ s'.nextId

theorem SameSessions.refl (s : Server) : SameSessions s s := ⟨rfl, rfl, Nat.le_refl _⟩

theorem SameSessions.trans {s s' s'' : Server} (h : SameSessions s s')
    (h' : SameSessions s' s'') : SameSessions s s'' :=
  ⟨h'.sessions_eq.trans h.sessions_eq, h'.users_eq.trans h.users_eq,
    h.nextId_le.trans h'.nextId_le⟩

/-! ## New sessions -/

/-- From `s` to `s'` sessions of fresh families are added, if any. -/
structure Extends (p : Platform) (s s' : Server) : Prop where
  users_eq : s'.users = s.users
  nextId_le : s.nextId ≤ s'.nextId
  added : ∃ rows, s'.sessions = s.sessions ++ rows ∧ ∀ row ∈ rows, s.nextId ≤ row.tokenFamilyId
  wellFormed : s.WellFormed p → s'.WellFormed p

section Extends

variable {p : Platform} {s s' s'' : Server}

theorem Server.WellFormed.of_same (h : s.WellFormed p) (hs : SameSessions s s') :
    s'.WellFormed p := by
  rcases hs with ⟨hs, -, hn⟩
  refine ⟨by rw [hs]; exact h.families, by rw [hs]; exact h.ids, ?_, ?_⟩
  · intro row hrow
    rw [hs] at hrow
    rcases h.drawn row hrow with ⟨hid, hfamily⟩
    exact ⟨hid.trans_le hn, hfamily.trans_le hn⟩
  · intro row hrow
    rw [hs] at hrow
    rcases h.recorded row hrow with ⟨c, hc, hfamily, hjti⟩
    exact ⟨c, hc, hfamily, hjti.trans_le hn⟩

theorem SameSessions.extends (h : SameSessions s s') : Extends p s s' :=
  ⟨h.users_eq, h.nextId_le, ⟨[], by simp [h.sessions_eq], by simp⟩, fun hwf => hwf.of_same h⟩

theorem Extends.refl (s : Server) : Extends p s s := (SameSessions.refl s).extends

theorem Extends.trans (h : Extends p s s') (h' : Extends p s' s'') : Extends p s s'' := by
  refine ⟨h'.users_eq.trans h.users_eq, h.nextId_le.trans h'.nextId_le, ?_,
    fun hwf => h'.wellFormed (h.wellFormed hwf)⟩
  rcases h.added with ⟨rows, hs, hrows⟩
  rcases h'.added with ⟨rows', hs', hrows'⟩
  refine ⟨rows ++ rows', by rw [hs', hs, List.append_assoc], ?_⟩
  intro row hrow
  rcases List.mem_append.mp hrow with hrow | hrow
  · exact hrows row hrow
  · exact h.nextId_le.trans (hrows' row hrow)

theorem Extends.session_eq (h : Extends p s s') {f : Uuid} (hf : f < s.nextId) :
    s'.session f = s.session f := by
  rcases h.added with ⟨rows, hs, hrows⟩
  have hnone : rows.find? (fun row => row.tokenFamilyId == f) = none := by
    refine List.find?_eq_none.mpr fun row hrow => ?_
    have hne : row.tokenFamilyId ≠ f := (hf.trans_le (hrows row hrow)).ne'
    simpa using hne
  simp [Server.session, hs, List.find?_append, hnone]

theorem Extends.evolves (h : Extends p s s') (hwf : s.WellFormed p) :
    Evolves p (fun f => s.nextId ≤ f) s s' := by
  refine ⟨⟨h.users_eq, h.nextId_le, fun f row' hrow' => ?_⟩, h.wellFormed hwf,
    fun f hf => h.session_eq (Nat.lt_of_not_le hf)⟩
  by_cases hf : s.nextId ≤ f
  · exact Or.inl hf
  · rw [h.session_eq (Nat.lt_of_not_le hf)] at hrow'
    exact Or.inr ⟨row', hrow', Continues.refl _ row'⟩

end Extends

/-! ## Changed sessions -/

/-- A row and the same row rewritten while the identifiers from `n` to `n'` are
drawn. -/
structure Revision (p : Platform) (n n' : Nat) (row row' : SessionRow) : Prop where
  id_eq : row'.id = row.id
  family_eq : row'.tokenFamilyId = row.tokenFamilyId
  revoked : row.revokedAt.isSome → row'.revokedAt.isSome
  hash : row'.refreshTokenHash = row.refreshTokenHash ∨
    ∃ c : RefreshClaims, row'.refreshTokenHash = p.refreshTokenHash c ∧
      c.family = row.tokenFamilyId ∧ n ≤ c.jti ∧ c.jti < n'

/-- From `s` to `s'` rows of the families `A` are rewritten. -/
structure Revises (p : Platform) (A : Uuid → Prop) (s s' : Server) : Prop where
  users_eq : s'.users = s.users
  nextId_le : s.nextId ≤ s'.nextId
  revised : ∃ g : SessionRow → SessionRow, s'.sessions = s.sessions.map g ∧
    ∀ row ∈ s.sessions, Revision p s.nextId s'.nextId row (g row) ∧
      (¬ A row.tokenFamilyId → g row = row)

section Revises

variable {p : Platform} {A : Uuid → Prop} {s s' : Server}

theorem Revision.refl {n n' : Nat} (row : SessionRow) : Revision p n n' row row :=
  ⟨rfl, rfl, id, Or.inl rfl⟩

theorem Revision.continues {n n' : Nat} {row row' : SessionRow} (h : Revision p n n' row row') :
    Continues p n row row' := by
  refine ⟨h.revoked, ?_⟩
  rcases h.hash with heq | ⟨c, hc, -, hjti, -⟩
  · exact Or.inl heq
  · exact Or.inr ⟨c, hc, hjti⟩

theorem Revises.andThen {s'' : Server} (h : Revises p A s s') (h' : SameSessions s' s'') :
    Revises p A s s'' := by
  rcases h.revised with ⟨g, hs, hg⟩
  refine ⟨h'.users_eq.trans h.users_eq, h.nextId_le.trans h'.nextId_le, g,
    h'.sessions_eq.trans hs, fun row hrow => ⟨?_, (hg row hrow).2⟩⟩
  have hrevision := (hg row hrow).1
  refine ⟨hrevision.id_eq, hrevision.family_eq, hrevision.revoked, ?_⟩
  rcases hrevision.hash with heq | ⟨c, hc, hfamily, hge, hlt⟩
  · exact Or.inl heq
  · exact Or.inr ⟨c, hc, hfamily, hge, hlt.trans_le h'.nextId_le⟩

theorem SameSessions.revises (h : SameSessions s s') : Revises p A s s' := by
  refine ⟨h.users_eq, h.nextId_le, id, by rw [List.map_id, h.sessions_eq], ?_⟩
  exact fun row _ => ⟨Revision.refl row, fun _ => rfl⟩

/-- Rows are revoked. -/
theorem revises_revokeSessions {cond : SessionRow → Bool} (now : Timestamp)
    (h : ∀ row ∈ s.sessions, cond row → A row.tokenFamilyId) :
    Revises p A s (s.revokeSessions cond now) := by
  refine ⟨rfl, Nat.le_refl _, _, rfl, fun row hrow => ?_⟩
  by_cases hcond : cond row && row.revokedAt.isNone
  · rw [if_pos hcond]
    refine ⟨⟨rfl, rfl, fun _ => rfl, Or.inl rfl⟩, fun hA => ?_⟩
    rw [Bool.and_eq_true] at hcond
    exact absurd (h row hrow hcond.1) hA
  · rw [if_neg hcond]
    exact ⟨Revision.refl row, fun _ => rfl⟩

/-- Rewriting rows within their families and looking one up commute. -/
theorem find_map_family {g : SessionRow → SessionRow} {rows : List SessionRow}
    (h : ∀ row ∈ rows, (g row).tokenFamilyId = row.tokenFamilyId) (f : Uuid) :
    (rows.map g).find? (fun row => row.tokenFamilyId == f) =
      (rows.find? fun row => row.tokenFamilyId == f).map g := by
  induction rows with
  | nil => rfl
  | cons row rows ih =>
      have hrest := ih fun row' hrow' => h row' (List.mem_cons_of_mem _ hrow')
      have hfirst := h row (List.mem_cons_self ..)
      by_cases hf : row.tokenFamilyId = f
      · simp [hfirst, hf]
      · simp [hfirst, hf, hrest]

/-- Rewriting rows keeps the table a map, as long as identifiers and families stay. -/
theorem Server.WellFormed.of_map (hwf : s.WellFormed p) {g : SessionRow → SessionRow}
    (hs : s'.sessions = s.sessions.map g) (hn : s.nextId ≤ s'.nextId)
    (hid : ∀ row ∈ s.sessions, (g row).id = row.id)
    (hfamily : ∀ row ∈ s.sessions, (g row).tokenFamilyId = row.tokenFamilyId)
    (hrecorded : ∀ row ∈ s.sessions, ∃ c : RefreshClaims,
      (g row).refreshTokenHash = p.refreshTokenHash c ∧ c.family = row.tokenFamilyId ∧
        c.jti < s'.nextId) : s'.WellFormed p := by
  refine ⟨?_, ?_, ?_, ?_⟩
  · have hsame : s'.sessions.map (·.tokenFamilyId) = s.sessions.map (·.tokenFamilyId) := by
      rw [hs, List.map_map]
      exact List.map_congr_left hfamily
    rw [hsame]
    exact hwf.families
  · have hsame : s'.sessions.map (·.id) = s.sessions.map (·.id) := by
      rw [hs, List.map_map]
      exact List.map_congr_left hid
    rw [hsame]
    exact hwf.ids
  · intro row' hrow'
    rw [hs] at hrow'
    rcases List.mem_map.mp hrow' with ⟨row, hrow, rfl⟩
    rcases hwf.drawn row hrow with ⟨hidlt, hfamilylt⟩
    rw [hid row hrow, hfamily row hrow]
    exact ⟨hidlt.trans_le hn, hfamilylt.trans_le hn⟩
  · intro row' hrow'
    rw [hs] at hrow'
    rcases List.mem_map.mp hrow' with ⟨row, hrow, rfl⟩
    rw [hfamily row hrow]
    exact hrecorded row hrow

theorem Revises.evolves (h : Revises p A s s') (hwf : s.WellFormed p) : Evolves p A s s' := by
  rcases h.revised with ⟨g, hs, hg⟩
  have hsession : ∀ f, s'.session f = (s.session f).map g := by
    intro f
    rw [Server.session, hs]
    exact find_map_family (fun row hrow => (hg row hrow).1.family_eq) f
  refine ⟨⟨h.users_eq, h.nextId_le, ?_⟩, hwf.of_map hs h.nextId_le
    (fun row hrow => (hg row hrow).1.id_eq) (fun row hrow => (hg row hrow).1.family_eq) ?_, ?_⟩
  · intro f row' hrow'
    rw [hsession] at hrow'
    rcases Option.map_eq_some_iff.mp hrow' with ⟨row, hrow, rfl⟩
    exact Or.inr ⟨row, hrow, (hg row (mem_of_session hrow).1).1.continues⟩
  · intro row hrow
    rcases (hg row hrow).1.hash with heq | ⟨c, hc, hfamily, -, hjti⟩
    · rcases hwf.recorded row hrow with ⟨c, hc, hfamily, hjti⟩
      exact ⟨c, heq.trans hc, hfamily, hjti.trans_le h.nextId_le⟩
    · exact ⟨c, hc, hfamily, hjti⟩
  · intro f hf
    rw [hsession]
    cases hrow : s.session f with
    | none => rfl
    | some row =>
        rcases mem_of_session hrow with ⟨hmem, rfl⟩
        rw [Option.map_some, (hg row hmem).2 hf]

end Revises

/-! ## Requests that change no existing session -/

section Additions

variable {p : Platform} {e : Env} {s : Server}

/-- Only two kinds of operations reach the table. -/
theorem exec_sessions {op : Call} (hissues : ∀ u, ¬ op.Issues u) (hrotates : ¬ op.Rotates) :
    (exec p op e s).1.sessions = s.sessions := by
  cases op with
  | db q =>
      simp only [exec]
      split_ifs
      · rfl
      · cases q with
        | insertSession id u hash family expiresAt agent ip createdBy =>
            exact absurd rfl (hissues u)
        | rotateSession | revokeSession | revokeSessionFamily | revokeAllSessionsForUser
        | revokeSessionOwnedByUser | purgeExpiredSessions => exact absurd trivial hrotates
        | updateEmailMfaCode | enableEmailMfaCredential | consumeEmailMfaCode
        | enableMfaCredential | touchMfaLastUsed =>
            simp only [Query.perform, Server.updateMfaCredential]
            split <;> rfl
        | _ => rfl
  | _ => rfl

/-- Identifiers are never taken back. -/
theorem exec_nextId_le (op : Call) : s.nextId ≤ (exec p op e s).1.nextId := by
  cases op with
  | newId => exact Nat.le_succ _
  | db q =>
      simp only [exec]
      split_ifs
      · exact Nat.le_refl _
      · cases q with
        | updateEmailMfaCode | enableEmailMfaCredential | consumeEmailMfaCode
        | enableMfaCredential | touchMfaLastUsed =>
            simp only [Query.perform, Server.updateMfaCredential]
            split <;> exact Nat.le_refl _
        | _ => exact Nat.le_refl _
  | _ => exact Nat.le_refl _

/-- A handler that stores and changes no session. -/
theorem sameSessions_of_performs {α : Type} {P : Call → Prop} {R : α → Prop} {h : Handler α}
    (hp : h.Performs (exec p) P R) (hP : ∀ op, P op → (∀ u, ¬ op.Issues u) ∧ ¬ op.Rotates) :
    h.Keeps (exec p) SameSessions := by
  refine Performs.keeps (T := SameSessions) SameSessions.refl SameSessions.trans ?_ hp
  intro op e s hop
  rcases hP op hop with ⟨hissues, hrotates⟩
  exact ⟨exec_sessions hissues hrotates, exec_users op, exec_nextId_le op⟩

theorem sameSessions_of_quiet {α : Type} {R : α → Prop} {h : Handler α}
    (hp : h.Performs (exec p) Call.Quiet R) : h.Keeps (exec p) SameSessions :=
  sameSessions_of_performs hp fun _ hop =>
    ⟨fun _ => Call.Quiet.not_issues hop, Call.Quiet.not_rotates hop⟩

theorem extends_of_performs {α : Type} {P : Call → Prop} {R : α → Prop} {h : Handler α}
    (hp : h.Performs (exec p) P R) (hP : ∀ op, P op → (∀ u, ¬ op.Issues u) ∧ ¬ op.Rotates) :
    h.Keeps (exec p) (Extends p) :=
  fun ω s => (sameSessions_of_performs hp hP ω s).extends

theorem extends_of_quiet {α : Type} {R : α → Prop} {h : Handler α}
    (hp : h.Performs (exec p) Call.Quiet R) : h.Keeps (exec p) (Extends p) :=
  fun ω s => (sameSessions_of_quiet hp ω s).extends

/-- One more row, its three identifiers drawn just before. -/
theorem extends_insert {s' : Server} {row : SessionRow} {u : Uuid} {exp : Nat}
    (hs : s'.sessions = s.sessions ++ [row]) (hu : s'.users = s.users)
    (hn : s'.nextId = s.nextId + 3) (hfamily : row.tokenFamilyId = s.nextId)
    (hid : row.id = s.nextId + 2)
    (hhash : row.refreshTokenHash = p.refreshTokenHash ⟨u, s.nextId, s.nextId + 1, exp⟩) :
    Extends p s s' := by
  refine ⟨hu, by omega, ⟨[row], hs, by simp [hfamily]⟩, fun hwf => ⟨?_, ?_, ?_, ?_⟩⟩
  · rw [hs, List.map_append, List.nodup_append]
    refine ⟨hwf.families, List.nodup_singleton _, ?_⟩
    intro f hf f' hf'
    rcases List.mem_map.mp hf with ⟨row', hrow', rfl⟩
    rw [List.map_singleton, List.mem_singleton] at hf'
    rw [hf', hfamily]
    exact (hwf.drawn row' hrow').2.ne
  · rw [hs, List.map_append, List.nodup_append]
    refine ⟨hwf.ids, List.nodup_singleton _, ?_⟩
    intro i hi i' hi'
    rcases List.mem_map.mp hi with ⟨row', hrow', rfl⟩
    rw [List.map_singleton, List.mem_singleton] at hi'
    rw [hi', hid]
    have hlt := (hwf.drawn row' hrow').1
    exact (Nat.lt_add_right 2 hlt).ne
  · intro row' hrow'
    rw [hs] at hrow'
    rcases List.mem_append.mp hrow' with hold | hnew
    · have hle : s.nextId ≤ s'.nextId := by omega
      rcases hwf.drawn row' hold with ⟨hid', hfamily'⟩
      exact ⟨hid'.trans_le hle, hfamily'.trans_le hle⟩
    · rcases List.mem_singleton.mp hnew with rfl
      rw [hid, hfamily, hn]
      exact ⟨Nat.add_lt_add_left (by decide) _, Nat.lt_add_of_pos_right (by decide)⟩
  · intro row' hrow'
    rw [hs] at hrow'
    rcases List.mem_append.mp hrow' with hold | hnew
    · rcases hwf.recorded row' hold with ⟨c, hc, hf, hjti⟩
      exact ⟨c, hc, hf, by omega⟩
    · rcases List.mem_singleton.mp hnew with rfl
      exact ⟨_, hhash, hfamily.symm, by simp [hn]⟩

/-- `create_session`, the family and the token just drawn. -/
theorem createSession_extends (s : Server) (u : Uuid) (exp : Nat) (expiresAt : Timestamp)
    (agent ip : Option String) (createdBy : String) (ω : Nat → Env) :
    Extends p s ((createSession p u (p.refreshTokenHash ⟨u, s.nextId, s.nextId + 1, exp⟩) s.nextId
      expiresAt agent ip createdBy).run (exec p) ω { s with nextId := s.nextId + 2 }).2 := by
  unfold createSession
  rw [run_perform_bind, exec_newId, run_query_bind]
  by_cases hf : (ω 1).fails
  · rw [exec_db_of_fails _ hf]
    exact SameSessions.extends ⟨rfl, rfl, Nat.le_add_right s.nextId 3⟩
  · rw [exec_db_of_succeeds _ (by simpa using hf)]
    dsimp only [Query.perform]
    cases p.backend with
    | postgres => exact extends_insert rfl rfl rfl rfl rfl rfl
    | sqlite =>
        dsimp only
        rw [run_query_bind]
        by_cases hf' : (ω 2).fails
        · rw [exec_db_of_fails _ hf']
          exact extends_insert rfl rfl rfl rfl rfl rfl
        · rw [exec_db_of_succeeds _ (by simpa using hf')]
          exact extends_insert rfl rfl rfl rfl rfl rfl

/-- `issue_session` adds a session of a fresh family, or none. -/
theorem issueSession_extends (user : UserRow) (headers : Headers) :
    (issueSession p user headers).Keeps (exec p) (Extends p) := by
  intro ω s
  have hsession := createSession_extends (p := p) s user.id
    ((ω 1).now + Timestamp.days refreshTokenTtlDays).timestamp
    ((ω 1).now + Timestamp.days refreshTokenTtlDays) (userAgent headers) (clientIp p headers)
    "login" (fun n => ω (n + 3))
  show Extends p s (Program.run (exec p) (createSession .. >>= _) (fun n => ω (n + 3))
    { s with nextId := s.nextId + 2 }).2
  rw [run_bind]
  refine hsession.trans ?_
  split
  · exact Extends.refl _
  · exact Extends.refl _

/-- The end of `complete_login` and of `login`. -/
theorem completeLogin_extends (user : UserRow) (headers : Headers)
    (codes : Option (List String)) : (completeLogin p user headers codes).Keeps (exec p) (Extends p) := by
  have hfinish : ∀ pair, (completeLogin.finish p user headers codes pair).Keeps (exec p)
      (Extends p) := fun pair =>
    extends_of_quiet (R := fun _ => True) ((save_performs _).bind fun _ _ => trivial)
  refine (issueSession_extends user headers).bind Extends.trans fun r => ?_
  split
  · exact hfinish _
  · refine (issueSession_extends user headers).bind Extends.trans fun r => ?_
    split
    · exact hfinish _
    · exact Keeps.done Extends.refl _

theorem openSession_extends (user : UserRow) (headers : Headers) :
    (openSession p headers user).Keeps (exec p) (Extends p) := by
  refine (issueSession_extends user headers).bind Extends.trans fun r => ?_
  split
  · exact Keeps.done Extends.refl _
  · exact extends_of_quiet (R := fun _ => True) ((save_performs _).bind fun _ _ => trivial)

theorem login_extends (headers : Headers) (userCode password : String) :
    (login p headers userCode password).Keeps (exec p) (Extends p) := by
  refine (extends_of_quiet (checkLimits_performs (loginLimits_key_ne headers userCode))).bind
    Extends.trans fun allowed => ?_
  split
  · refine (extends_of_quiet (query_performs (P := Call.Quiet) (q := .loadUserByCode _)
      trivial)).bind Extends.trans fun found => ?_
    split
    · exact Keeps.done Extends.refl _
    · exact extends_of_quiet (R := fun _ => True) ((save_performs _).bind fun _ _ => trivial)
    next user =>
      split_ifs
      · exact extends_of_quiet (refuseLogin_performs ..)
      · exact extends_of_quiet (refuseLogin_performs ..)
      · exact extends_of_quiet (refuseLogin_performs ..)
      · refine (extends_of_quiet (loginMfaOutcome_performs user)).bind Extends.trans
          fun outcome => ?_
        by_cases hout : outcome = .notRequired
        · subst hout
          exact openSession_extends user headers
        · exact extends_of_quiet (loginChallenge_performs headers user hout)
  · exact Keeps.done Extends.refl _

theorem challengeVerify_extends (headers : Headers) (token : Token) (code : String) :
    (challengeVerify p headers token code).Keeps (exec p) (Extends p) := by
  refine (extends_of_quiet (decodeChallengeToken_performs token .login)).bind Extends.trans
    fun found => ?_
  split
  · exact Keeps.done Extends.refl _
  · refine (extends_of_quiet (loadUserOrUnauthorized_performs _)).bind Extends.trans
      fun found => ?_
    split
    · exact Keeps.done Extends.refl _
    next user =>
      have hcheck : (perform (.rateCheck (mfaVerifyKey user.id) 8 quarterHour)).Keeps (exec p)
          (Extends p) := fun ω s => SameSessions.extends ⟨rfl, rfl, Nat.le_refl _⟩
      refine hcheck.bind Extends.trans fun allowed => ?_
      split
      · refine (extends_of_performs (verifyCode_performs ..) ?_).bind Extends.trans
          fun outcome => ?_
        · rintro op (hq | hv)
          · exact ⟨fun _ => hq.not_issues, hq.not_rotates⟩
          · exact ⟨fun _ => hv.not_issues, hv.not_rotates⟩
        · unfold finishVerification
          split
          · exact completeLogin_extends user headers none
          · exact (extends_of_quiet (save_performs _)).bind Extends.trans fun _ =>
              completeLogin_extends user headers none
          · exact extends_of_quiet (R := fun _ => True) ((save_performs _).bind fun _ _ => trivial)
      · exact Keeps.done Extends.refl _

theorem challengeEnrollConfirm_extends (headers : Headers) (token : Token) (code : String) :
    (challengeEnrollConfirm p headers token code).Keeps (exec p) (Extends p) := by
  refine (extends_of_quiet (decodeChallengeToken_performs token .enrollment)).bind Extends.trans
    fun found => ?_
  split
  · exact Keeps.done Extends.refl _
  · refine (extends_of_quiet (loadUserOrUnauthorized_performs _)).bind Extends.trans
      fun found => ?_
    split
    · exact Keeps.done Extends.refl _
    next user =>
      refine (extends_of_performs (confirmEnrollment_performs ..) ?_).bind Extends.trans
        fun outcome => ?_
      · rintro op (hq | hc)
        · exact ⟨fun _ => hq.not_issues, hq.not_rotates⟩
        · exact ⟨fun _ => hc.not_issues, hc.not_rotates⟩
      · unfold finishEnrollment
        split
        · exact Keeps.done Extends.refl _
        · exact completeLogin_extends user headers none
        · refine (extends_of_quiet (saveMandatory_performs _)).bind Extends.trans fun r => ?_
          split
          · exact Keeps.done Extends.refl _
          · exact completeLogin_extends user headers _

end Additions

end AnatoliaBis.Auth
