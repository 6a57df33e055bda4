import AnatoliaBis.Auth.Routes

/-! # Steps that deal with codes

Which code a step sends, accepts or issues, and all that any step does to the
emailed code of a user (`codeStep`) and to the recovery codes (`recoveryStep`).
-/

namespace AnatoliaBis.Auth

open Atomic

/-! ## What a step does with codes -/

/-- The emailed code that the step puts in place: user, digest and expiry. -/
def sending (p : Platform) (ev : Step) : Option (Uuid × String × String) :=
  match ev.op with
  | .db (.upsertPendingEmailMfaCredential u digest expiresAt) =>
      if ev.env.fails then none else some (u, digest, expiresAt)
  | .db (.updateEmailMfaCode u digest expiresAt) =>
      if !ev.env.fails && (Query.perform p ev.env.now (.updateEmailMfaCode u digest expiresAt)
        ev.before).2 then some (u, digest, expiresAt) else none
  | _ => none

/-- The emailed code that the step accepts. -/
def taking (p : Platform) (ev : Step) : Option (Uuid × String) :=
  match ev.op with
  | .db (.consumeEmailMfaCode u digest) =>
      if !ev.env.fails && (Query.perform p ev.env.now (.consumeEmailMfaCode u digest)
        ev.before).2 then some (u, digest) else none
  | .db (.enableEmailMfaCredential u digest) =>
      if !ev.env.fails && (Query.perform p ev.env.now (.enableEmailMfaCredential u digest)
        ev.before).2 then some (u, digest) else none
  | _ => none

/-- Whose recovery codes the step deletes. -/
def dropping (ev : Step) : Option Uuid :=
  match ev.op with
  | .db (.deleteRecoveryCodes u) => if ev.env.fails then none else some u
  | _ => none

/-- The recovery code that the step issues. -/
def issuing (ev : Step) : Option (Uuid × String) :=
  match ev.op with
  | .db (.insertRecoveryCode u digest) => if ev.env.fails then none else some (u, digest)
  | _ => none

/-- The recovery code that the step accepts. -/
def spending (p : Platform) (ev : Step) : Option (Uuid × String) :=
  match ev.op with
  | .db (.consumeRecoveryCode u digest) =>
      if !ev.env.fails && (Query.perform p ev.env.now (.consumeRecoveryCode u digest)
        ev.before).2 then some (u, digest) else none
  | _ => none

/-! ## The emailed code a row holds -/

/-- Digest and expiry. -/
def MfaCredentialRow.emailedCode (row : MfaCredentialRow) : Option (String × Option CodeExpiry) :=
  if row.method = .email then row.emailCodeHash.map fun digest => (digest, row.emailCodeExpiresAt)
  else none

def Server.emailedCode (s : Server) (u : Uuid) : Option (String × Option CodeExpiry) :=
  (s.mfaCredentials u).bind (·.emailedCode)

/-- What both statements that take a code look for. -/
theorem MfaCredentialRow.acceptsEmailCode_iff {row : MfaCredentialRow} {now : Timestamp}
    {digest : String} :
    row.acceptsEmailCode now digest = true ↔
      ∃ x, row.emailedCode = some (digest, some x) ∧ x.after now = true := by
  unfold acceptsEmailCode emailedCode
  rcases row with ⟨secret, method, hash, expiry, enabledAt, lastUsedAt⟩
  cases method with
  | totp => simp
  | email =>
      cases hash with
      | none => simp
      | some hash =>
          cases expiry with
          | none => simp
          | some x =>
              simp only [beq_self_eq_true, Bool.true_and, Option.any_some, Bool.and_eq_true,
                beq_iff_eq, Option.some.injEq, if_true, Option.map_some, Prod.mk.injEq]
              constructor
              · rintro ⟨rfl, hafter⟩
                exact ⟨x, ⟨rfl, rfl⟩, hafter⟩
              · rintro ⟨x', ⟨rfl, rfl⟩, hafter⟩
                exact ⟨rfl, hafter⟩

section Rows

variable {p : Platform} {s : Server} {u v : Uuid}

theorem emailedCode_setMfaCredential (row : Option MfaCredentialRow) :
    (s.setMfaCredential v row).emailedCode u =
      if u = v then row.bind (·.emailedCode) else s.emailedCode u := by
  unfold Server.emailedCode Server.setMfaCredential
  dsimp only
  split_ifs with huv
  · rw [huv, Function.update_self]
  · rw [Function.update_of_ne huv]

/-- What an `UPDATE` did, by the number of its rows. -/
theorem updateMfaCredential_cases (s : Server) (v : Uuid) (cond : MfaCredentialRow → Bool)
    (f : MfaCredentialRow → MfaCredentialRow) :
    (∃ row, s.mfaCredentials v = some row ∧ cond row = true ∧
        s.updateMfaCredential v cond f = (s.setMfaCredential v (some (f row)), true)) ∨
      s.updateMfaCredential v cond f = (s, false) := by
  unfold Server.updateMfaCredential
  cases hrow : (s.mfaCredentials v).filter cond with
  | none => exact Or.inr rfl
  | some row =>
      rcases Option.filter_eq_some_iff.mp hrow with ⟨hrow', hcond⟩
      exact Or.inl ⟨row, hrow', hcond, rfl⟩

/-- An `UPDATE` that leaves the code of its row alone. -/
theorem emailedCode_updateMfaCredential {cond : MfaCredentialRow → Bool}
    {f : MfaCredentialRow → MfaCredentialRow} (hf : ∀ row, (f row).emailedCode = row.emailedCode) :
    (s.updateMfaCredential v cond f).1.emailedCode u = s.emailedCode u := by
  rcases updateMfaCredential_cases s v cond f with
    ⟨row, hrow, -, hupdate⟩ | hupdate
  · rw [hupdate, emailedCode_setMfaCredential]
    split_ifs with huv
    · rw [Option.bind_some, hf, huv, Server.emailedCode, hrow, Option.bind_some]
    · rfl
  · rw [hupdate]

end Rows

/-! ## What a step does to the emailed code of a user -/

/-- All there is: no code comes but by being sent, and one that is accepted was in
place, in time, and is gone. -/
inductive CodeStep (p : Platform) (u : Uuid) (ev : Step) : Prop
  | quiet (hsending : ∀ digest x, sending p ev ≠ some (u, digest, x))
      (htaking : ∀ digest, taking p ev ≠ some (u, digest))
      (hkeeps : ∀ code, ev.after.emailedCode u = some code → ev.before.emailedCode u = some code)
  | sends (digest x : String) (hsending : sending p ev = some (u, digest, x))
      (htaking : taking p ev = none)
      (hafter : ev.after.emailedCode u = some (digest, some (p.codeExpiry x)))
  | takes (digest : String) (x : CodeExpiry) (hsending : sending p ev = none)
      (htaking : taking p ev = some (u, digest))
      (hbefore : ev.before.emailedCode u = some (digest, some x))
      (hintime : x.after (p.now ev.env.now) = true) (hafter : ev.after.emailedCode u = none)

section CodeStep

variable {p : Platform} {e : Env} {s : Server} {u : Uuid}

/-- The step with which an operation runs. -/
def stepOf (p : Platform) (op : Call) (e : Env) (s : Server) : Step :=
  ⟨op, e, s, (exec p op e s).1⟩

/-- A statement that leaves the codes alone. -/
theorem codeStep_of_same {op : Call} (hsending : sending p (stepOf p op e s) = none)
    (htaking : taking p (stepOf p op e s) = none)
    (hsame : (exec p op e s).1.emailedCode u = s.emailedCode u) :
    CodeStep p u (stepOf p op e s) := by
  refine .quiet ?_ ?_ ?_
  · intro digest x
    simp [hsending]
  · intro digest
    simp [htaking]
  · intro code hcode
    exact hsame ▸ hcode

/-- An `UPDATE` that takes the code of its row. -/
theorem codeStep_of_takes {v : Uuid} {digest : String} {q : Query}
    {f : MfaCredentialRow → MfaCredentialRow}
    (hsending : sending p (stepOf p (.db q) e s) = none)
    (htaking : taking p (stepOf p (.db q) e s) =
      if (s.updateMfaCredential v (·.acceptsEmailCode (p.now e.now) digest) f).2
        then some (v, digest) else none)
    (hafter : (exec p (.db q) e s).1 =
      (s.updateMfaCredential v (·.acceptsEmailCode (p.now e.now) digest) f).1)
    (hf : ∀ row, (f row).emailedCode = none) : CodeStep p u (stepOf p (.db q) e s) := by
  rcases updateMfaCredential_cases s v (·.acceptsEmailCode (p.now e.now) digest) f with
    ⟨row, hrow, haccepts, hupdate⟩ | hupdate
  · simp only [hupdate, if_true] at htaking hafter
    have hafter' : (exec p (.db q) e s).1.emailedCode u =
        if u = v then none else s.emailedCode u := by
      rw [hafter, emailedCode_setMfaCredential, Option.bind_some, hf]
    by_cases huv : u = v
    · subst huv
      rcases MfaCredentialRow.acceptsEmailCode_iff.mp haccepts with ⟨x, hcode, hx⟩
      refine .takes digest x hsending htaking ?_ hx ?_
      · show s.emailedCode u = _
        rw [Server.emailedCode, hrow, Option.bind_some, hcode]
      · rw [if_pos rfl] at hafter'
        exact hafter'
    · rw [if_neg huv] at hafter'
      refine .quiet ?_ ?_ ?_
      · intro digest' x
        simp [hsending]
      · intro digest' heq
        rw [htaking] at heq
        exact huv (Prod.mk.inj (Option.some.inj heq)).1.symm
      · intro code hcode
        exact hafter' ▸ hcode
  · simp only [hupdate, Bool.false_eq_true, if_false] at htaking hafter
    refine codeStep_of_same hsending htaking ?_
    rw [hafter]

/-- The step lemma. -/
theorem codeStep (op : Call) : CodeStep p u (stepOf p op e s) := by
  cases op with
  | db q =>
      cases hf : e.fails with
      | true =>
          have hfails := exec_db_of_fails (p := p) (q := q) s hf
          refine codeStep_of_same ?_ ?_ (by rw [hfails])
          · cases q <;> simp [sending, stepOf, hf]
          · cases q <;> simp [taking, stepOf, hf]
      | false =>
          have hsucceeds := exec_db_of_succeeds (p := p) (q := q) s hf
          cases q with
          | upsertPendingMfaCredential v secret =>
              refine .quiet (by simp [sending, stepOf]) (by simp [taking, stepOf]) ?_
              intro code hcode
              simp only [stepOf, hsucceeds, Query.perform, Server.upsertMfaCredential,
                emailedCode_setMfaCredential] at hcode ⊢
              split_ifs at hcode with huv
              · cases hcode
              · exact hcode
          | upsertPendingEmailMfaCredential v digest x =>
              have hafter : (exec p (.db (.upsertPendingEmailMfaCredential v digest x)) e
                  s).1.emailedCode u =
                  if u = v then some (digest, some (p.codeExpiry x)) else s.emailedCode u := by
                rw [hsucceeds]
                exact emailedCode_setMfaCredential _
              by_cases huv : u = v
              · subst huv
                rw [if_pos rfl] at hafter
                exact .sends digest x (by simp [sending, stepOf, hf]) rfl hafter
              · rw [if_neg huv] at hafter
                refine .quiet ?_ (by simp [taking, stepOf]) ?_
                · intro digest' x'
                  simp [sending, stepOf, hf, Ne.symm huv]
                · intro code hcode
                  exact hafter ▸ hcode
          | updateEmailMfaCode v digest x =>
              rcases updateMfaCredential_cases s v (fun row => row.method == .email)
                  (fun row => { row with emailCodeHash := some digest,
                                         emailCodeExpiresAt := some (p.codeExpiry x) }) with
                ⟨row, hrow, hmethod, hupdate⟩ | hupdate
              · rw [beq_iff_eq] at hmethod
                have hafter : (exec p (.db (.updateEmailMfaCode v digest x)) e s).1.emailedCode u =
                    if u = v then some (digest, some (p.codeExpiry x)) else s.emailedCode u := by
                  rw [hsucceeds]
                  simp only [Query.perform, hupdate, emailedCode_setMfaCredential]
                  simp [MfaCredentialRow.emailedCode, hmethod]
                have hsending : sending p (stepOf p (.db (.updateEmailMfaCode v digest x)) e s) =
                    some (v, digest, x) := by
                  simp [sending, stepOf, hf, Query.perform, hupdate]
                by_cases huv : u = v
                · subst huv
                  rw [if_pos rfl] at hafter
                  exact .sends digest x hsending rfl hafter
                · rw [if_neg huv] at hafter
                  refine .quiet ?_ (by simp [taking, stepOf]) ?_
                  · intro digest' x'
                    simp [hsending, Ne.symm huv]
                  · intro code hcode
                    exact hafter ▸ hcode
              · refine codeStep_of_same ?_ rfl ?_
                · simp [sending, stepOf, Query.perform, hupdate]
                · rw [hsucceeds]
                  simp only [Query.perform, hupdate]
          | enableEmailMfaCredential v digest =>
              refine codeStep_of_takes rfl ?_ (by rw [hsucceeds]; rfl) ?_
              · simp only [taking, stepOf, hf, Bool.not_false, Bool.true_and]
                rfl
              · intro row
                simp [MfaCredentialRow.emailedCode]
          | consumeEmailMfaCode v digest =>
              refine codeStep_of_takes rfl ?_ (by rw [hsucceeds]; rfl) ?_
              · simp only [taking, stepOf, hf, Bool.not_false, Bool.true_and]
                rfl
              · intro row
                simp [MfaCredentialRow.emailedCode]
          | enableMfaCredential v secret =>
              refine codeStep_of_same rfl rfl ?_
              rw [hsucceeds]
              exact emailedCode_updateMfaCredential fun _ => rfl
          | touchMfaLastUsed v =>
              refine codeStep_of_same rfl rfl ?_
              rw [hsucceeds]
              exact emailedCode_updateMfaCredential fun _ => rfl
          | deleteMfaCredential v =>
              refine .quiet (by simp [sending, stepOf]) (by simp [taking, stepOf]) ?_
              intro code hcode
              simp only [stepOf, hsucceeds, Query.perform, emailedCode_setMfaCredential] at hcode ⊢
              split_ifs at hcode with huv
              · cases hcode
              · exact hcode
          | _ => exact codeStep_of_same rfl rfl (by rw [hsucceeds]; rfl)
  | _ => exact codeStep_of_same rfl rfl rfl

theorem codeStep_of_after {ev : Step} (h : ev.after = (exec p ev.op ev.env ev.before).1) :
    CodeStep p u ev := by
  rcases ev with ⟨op, e, s, s'⟩
  dsimp only at h
  subst h
  exact codeStep op

end CodeStep

/-! ## What a step does to the recovery codes -/

section RecoveryStep

variable {p : Platform} {e : Env} {s : Server}

/-- All that a step does to the recovery codes. -/
inductive RecoveryStep (p : Platform) (ev : Step) : Prop
  | quiet (hdropping : dropping ev = none) (hissuing : issuing ev = none)
      (hspending : spending p ev = none)
      (hafter : ev.after.recoveryCodes = ev.before.recoveryCodes)
  | deletes (v : Uuid) (hdropping : dropping ev = some v) (hissuing : issuing ev = none)
      (hspending : spending p ev = none)
      (hafter : ev.after.recoveryCodes = ev.before.recoveryCodes.filter (·.userId != v))
  | issues (v : Uuid) (digest : String) (hdropping : dropping ev = none)
      (hissuing : issuing ev = some (v, digest))
      (hspending : spending p ev = none)
      (hafter : ev.after.recoveryCodes = ev.before.recoveryCodes ++ [⟨v, digest, none⟩])
  | spends (v : Uuid) (digest : String) (now : Timestamp) (hdropping : dropping ev = none)
      (hissuing : issuing ev = none)
      (hspending : spending p ev =
        if ev.before.recoveryCodes.any (·.isUnused v digest) then some (v, digest) else none)
      (hafter : ev.after.recoveryCodes = ev.before.recoveryCodes.map fun row =>
        if row.isUnused v digest then { row with usedAt := some now } else row)

@[simp] theorem updateMfaCredential_recoveryCodes {s : Server} {v : Uuid}
    {cond : MfaCredentialRow → Bool} {f : MfaCredentialRow → MfaCredentialRow} :
    (s.updateMfaCredential v cond f).1.recoveryCodes = s.recoveryCodes := by
  rcases updateMfaCredential_cases s v cond f with
    ⟨row, -, -, hupdate⟩ | hupdate
  · rw [hupdate]
    rfl
  · rw [hupdate]

theorem recoveryStep (op : Call) : RecoveryStep p (stepOf p op e s) := by
  cases op with
  | db q =>
      cases hf : e.fails with
      | true =>
          refine .quiet ?_ ?_ ?_ ?_
          · cases q <;> simp [dropping, stepOf, hf]
          · cases q <;> simp [issuing, stepOf, hf]
          · cases q <;> simp [spending, stepOf, hf]
          · simp only [stepOf, exec_db_of_fails s hf]
      | false =>
          have hsucceeds := exec_db_of_succeeds (p := p) (q := q) s hf
          cases q with
          | deleteRecoveryCodes v =>
              refine .deletes v ?_ rfl rfl ?_
              · simp [dropping, stepOf, hf]
              · simp only [stepOf, hsucceeds, Query.perform]
          | insertRecoveryCode v digest =>
              refine .issues v digest rfl ?_ rfl ?_
              · simp [issuing, stepOf, hf]
              · simp only [stepOf, hsucceeds, Query.perform]
          | consumeRecoveryCode v digest =>
              refine .spends v digest (p.now e.now) rfl rfl ?_ ?_
              · simp only [spending, stepOf, hf, Bool.not_false, Bool.true_and, Query.perform]
                rfl
              · simp only [stepOf, hsucceeds, Query.perform]
          | _ =>
              refine .quiet rfl rfl rfl ?_
              simp only [stepOf, hsucceeds, Query.perform, updateMfaCredential_recoveryCodes]
              try rfl
  | _ => exact .quiet rfl rfl rfl rfl

end RecoveryStep

end AnatoliaBis.Auth
