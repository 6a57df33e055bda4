import AnatoliaBis.Auth.Routes
import AnatoliaBis.Lib.Mediation

/-! # What a request has to show

The gates in front of the routes of authentication: an access token, of some role, a
challenge token, a refresh cookie, or nothing. A gate is passed at the instant at
which the request reads the clock.
-/

namespace AnatoliaBis.Auth

open Atomic Program

/-! ## Gates -/

/-- What stands in front of a route. -/
inductive Gate where
  | open
  | bearer (headers : Headers) (allows : String → Bool)
  | challenge (mfaToken : Token) (purpose : Purpose)
  | cookie (headers : Headers)

/-- What the gate asks for is there, and valid at this instant. -/
def Gate.Opens (now : Timestamp) : Gate → Prop
  | .open => True
  | .bearer headers allows => ∃ token ∈ headers.authorization, ∃ claims ∈ token.accessClaims now,
      allows claims.role = true
  | .challenge mfaToken purpose => (mfaToken.challengeUser now purpose).isSome = true
  | .cookie headers => ∃ token ∈ headers.refreshCookie, (token.refreshClaims now).isSome = true

/-- The status of an answer at a closed gate. A logout without a cookie is no error. -/
def Gate.Refuses (status : Nat) : Gate → Prop
  | .open | .cookie _ => True
  | .bearer .. | .challenge .. => status = 401 ∨ status = 403

/-- The gate of a route. -/
def Request.gate : Request → Gate
  | .login .. | .purgeExpiredAuthRecords => .open
  | .enroll headers _ | .enrollResend headers | .enrollConfirm headers _ | .disable headers _ _
  | .logoutAll headers | .revokeOwnSession headers _ => .bearer headers fun _ => true
  | .challengeEnroll _ mfaToken _ | .challengeEnrollResend _ mfaToken
  | .challengeEnrollConfirm _ mfaToken _ => .challenge mfaToken .enrollment
  | .challengeRequestCode _ mfaToken | .challengeVerify _ mfaToken _ => .challenge mfaToken .login
  | .refresh headers | .logout headers => .cookie headers
  | .mfaResetRoute headers _ => .bearer headers canAdministerUsers

/-! ## Guarded programs

A program of this or of a larger store, with the operation `clock` to read the clock. -/

section Guards

variable {Op Op' σ σ' α β ι : Type} {Res : Op → Type} {Res' : Op' → Type}

/-- What a closed gate lets through. -/
def Gate.Free (g : Gate) (clock op : Op) : Prop := g = .open ∨ op = clock

/-- The look at the clock that finds the gate open. -/
def Gate.Passes (g : Gate) (clock : Op) (ev : Event Op Env σ) : Prop :=
  ev.op = clock ∧ g.Opens ev.env.now

/-- The gate mediates the program. -/
def Gate.Guards (g : Gate) (exec : (op : Op) → Env → σ → σ × Res op) (clock : Op)
    (refuses : α → Prop) (prog : Program Op Res α) (h : List (Event Op Env σ)) : Prop :=
  prog.Mediated exec (g.Free clock) (g.Passes clock) refuses h

variable {exec : (op : Op) → Env → σ → σ × Res op} {exec' : (op : Op') → Env → σ' → σ' × Res' op}
  {inj : Op → Op'} {out : ∀ op, Res' (inj op) → Res op} {clock : Op} {g : Gate}
  {refuses : α → Prop} {prog : Program Op Res α}

/-- The gate of a part guards it wherever it is performed. -/
theorem Gate.Guards.embed (hprog : g.Guards exec clock refuses prog [])
    (p : Part inj out exec exec') (h : List (Event Op' Env σ')) :
    g.Guards exec' (inj clock) refuses (prog.embed inj out) h := by
  rw [← List.append_nil h]
  apply Mediated.prepend
  apply p.mediated_embed hprog
  · intro op hop
    exact hop.imp id fun hclock => by rw [hclock]
  · rintro ev ev' hsees ⟨hop, hopens⟩
    constructor
    · rw [hsees.op, hop]
    · rw [hsees.env]
      exact hopens

theorem Gate.Guards.some {status : α → Nat}
    (hprog : g.Guards exec clock (fun r => g.Refuses (status r)) prog []) :
    g.Guards exec clock (fun answer => ∀ r ∈ answer, g.Refuses (status r))
      (prog.map Option.some) [] := by
  apply Mediated.map hprog
  intro r hr r' hr'
  rw [← Option.some.inj hr']
  exact hr

/-- Nothing is asked for in front of an open route. -/
theorem open_guards (status : α → Nat) (prog : Program Op Res (Option α)) :
    Gate.open.Guards exec clock (fun answer => ∀ r ∈ answer, Gate.open.Refuses (status r))
      prog [] :=
  mediated_of_free (fun _ => Or.inl rfl) (fun _ _ _ => trivial) prog

/-- What the gates of requests are good for that are handled side by side: behind a closed
gate nothing is read, written or sent, and nothing is answered but a refusal. -/
structure Sealed (exec : (op : Op) → Env → σ → σ × Res op) (clock : Op) (gate : ι → Gate)
    (status : α → Nat) [DecidableEq ι] (log : List (ι × Event Op Env σ))
    (after : Pool ι Op Res (Option α) σ) : Prop where
  operations : ∀ l i ev l', log = l ++ (i, ev) :: l' → gate i ≠ .open → ev.op ≠ clock →
    Passed ((gate i).Passes clock) (Pool.own i l)
  changes : ∀ l i ev l', log = l ++ (i, ev) :: l' → gate i ≠ .open → ev.after ≠ ev.before →
    Passed ((gate i).Passes clock) (Pool.own i l)
  answers : ∀ i a, after.answer i = Option.some (Option.some a) →
    (gate i).Refuses (status a) ∨ Passed ((gate i).Passes clock) (Pool.own i log)

/-- Guarded programs side by side. -/
theorem sealed_of_guards [DecidableEq ι] {c : Pool ι Op Res (Option α) σ} {gate : ι → Gate}
    {status : α → Nat} (hclock : ∀ e s, (exec clock e s).1 = s)
    (hc : ∀ i, (gate i).Guards exec clock (fun answer => ∀ r ∈ answer,
      (gate i).Refuses (status r)) (c.threads i) []) (schedule : List (ι × Env)) :
    Sealed exec clock gate status (c.log exec schedule) (c.after exec schedule) := by
  have hpool := Pool.mediated hc schedule
  have hoperations : ∀ l i ev l', c.log exec schedule = l ++ (i, ev) :: l' → gate i ≠ .open →
      ev.op ≠ clock → Passed ((gate i).Passes clock) (Pool.own i l) := by
    intro l i ev l' hlog hgate hop
    rcases hpool.1 l i ev l' hlog with hfree | hpassed
    · rcases hfree with hopen | hclock
      · exact absurd hopen hgate
      · exact absurd hclock hop
    · exact hpassed
  constructor
  · exact hoperations
  · intro l i ev l' hlog hgate hchanges
    apply hoperations l i ev l' hlog hgate
    intro hop
    have hmem : ev ∈ (c.log exec schedule).map Prod.snd := by
      rw [hlog]
      simp
    have hafter := (Pool.executes (c := c) schedule).after_eq hmem
    rcases ev with ⟨op, e, s, s'⟩
    dsimp only at hop hafter hchanges
    rw [hafter, hop, hclock] at hchanges
    exact hchanges rfl
  · intro i a ha
    rcases hpool.2 i (Option.some a) ha with hrefuses | hpassed
    · exact Or.inl (hrefuses a rfl)
    · exact Or.inr hpassed

end Guards

/-! ## The routes of authentication -/

section Routes

variable {p : Platform} {α : Type} {h : List Step} {headers : Headers} {allows : String → Bool}

/-- A look at the clock, in front of what a closed gate lets through. -/
theorem guards_utcNow {g : Gate} {refuses : α → Prop} {f : Timestamp → Handler α}
    (hf : ∀ now h, g.Opens now ∨ g.Guards (exec p) .utcNow refuses (f now) h) :
    g.Guards (exec p) .utcNow refuses (perform .utcNow >>= f) h := by
  refine ⟨Or.inl (Or.inr rfl), fun e s => ?_⟩
  rcases hf e.now (h ++ [⟨.utcNow, e, s, s⟩]) with hopens | hrest
  · apply mediated_of_passed
    exact ⟨⟨.utcNow, e, s, s⟩, List.mem_append_right _ (List.mem_singleton_self _), rfl, hopens⟩
  · exact hrest

/-- Without a token that is allowed, none is returned that is. -/
theorem authUserFromHeaders_guarded :
    (Gate.bearer headers allows).Guards (exec p) .utcNow
      (fun found => ∀ c ∈ found, allows c.role = false) (authUserFromHeaders headers) h := by
  unfold authUserFromHeaders
  cases htoken : headers.authorization with
  | none =>
      apply mediated_done
      intro c hc
      cases hc
  | some token =>
      apply guards_utcNow
      intro now h
      by_cases hopens : (Gate.bearer headers allows).Opens now
      · exact Or.inl hopens
      · right
        apply mediated_done
        intro c hc
        rw [← Bool.not_eq_true]
        intro hallows
        exact hopens ⟨token, htoken, c, hc, hallows⟩

/-- A route of whoever holds an access token. -/
theorem bearer_guards {route : Option Claims → Handler Response}
    (hnone : route none = return unauthorized headers) :
    (Gate.bearer headers fun _ => true).Guards (exec p) .utcNow
      (fun r => (Gate.bearer headers fun _ => true).Refuses r.status)
      (authUserFromHeaders headers >>= route) [] := by
  apply Mediated.bind authUserFromHeaders_guarded
  intro found h hfound
  cases found with
  | none =>
      rw [hnone]
      exact mediated_done (Or.inl rfl)
  | some claims =>
      have hfalse : true = false := hfound claims rfl
      cases hfalse

/-- A route of a login in progress. -/
theorem challenge_guards {mfaToken : Token} {purpose : Purpose}
    {route : Option Uuid → Handler Response} (hnone : route none = return unauthorized headers) :
    (Gate.challenge mfaToken purpose).Guards (exec p) .utcNow
      (fun r => (Gate.challenge mfaToken purpose).Refuses r.status)
      (decodeChallengeToken mfaToken purpose >>= route) [] := by
  unfold decodeChallengeToken
  rw [bind_assoc]
  apply guards_utcNow
  intro now h
  rw [pure_eq_done, done_bind]
  cases huser : mfaToken.challengeUser now purpose with
  | none =>
      right
      rw [hnone]
      exact mediated_done (Or.inl rfl)
  | some userId =>
      left
      show (mfaToken.challengeUser now purpose).isSome = true
      rw [huser]
      rfl

theorem refresh_guarded (headers : Headers) :
    (Gate.cookie headers).Guards (exec p) .utcNow (fun _ => True) (refresh p headers) [] := by
  unfold refresh
  cases htoken : headers.refreshCookie with
  | none => exact mediated_done trivial
  | some token =>
      apply guards_utcNow
      intro now h
      cases hclaims : token.refreshClaims now with
      | none => exact Or.inr (mediated_done trivial)
      | some claims =>
          left
          refine ⟨token, htoken, ?_⟩
          rw [hclaims]
          rfl

theorem logout_guarded (headers : Headers) :
    (Gate.cookie headers).Guards (exec p) .utcNow (fun _ => True) (logout p headers) [] := by
  unfold logout
  cases htoken : headers.refreshCookie with
  | none => exact mediated_done trivial
  | some token =>
      apply guards_utcNow
      intro now h
      cases hclaims : token.refreshClaims now with
      | none => exact Or.inr (mediated_done trivial)
      | some claims =>
          left
          refine ⟨token, htoken, ?_⟩
          rw [hclaims]
          rfl

theorem mfaResetRoute_guarded (id : String) :
    (Gate.bearer headers canAdministerUsers).Guards (exec p) .utcNow
      (fun r => (Gate.bearer headers canAdministerUsers).Refuses r.status)
      (mfaResetRoute p headers id) [] := by
  unfold mfaResetRoute
  apply Mediated.bind authUserFromHeaders_guarded
  intro found h hnone
  have hany : (found.any fun claims => canAdministerUsers claims.role) = false := by
    cases found with
    | none => rfl
    | some claims => exact hnone claims rfl
  rw [if_neg (by rw [hany]; exact Bool.false_ne_true)]
  exact mediated_done (Or.inr rfl)

end Routes

/-- Every request is mediated by its gate. -/
theorem handle_guarded (p : Platform) (request : Request) :
    request.gate.Guards (exec p) .utcNow
      (fun answer => ∀ r ∈ answer, request.gate.Refuses r.status) (handle p request) [] := by
  cases request with
  | login headers userCode password => exact open_guards _ _
  | purgeExpiredAuthRecords => exact open_guards _ _
  | enroll headers method => exact Gate.Guards.some (bearer_guards rfl)
  | enrollResend headers => exact Gate.Guards.some (bearer_guards rfl)
  | enrollConfirm headers code => exact Gate.Guards.some (bearer_guards rfl)
  | disable headers password code => exact Gate.Guards.some (bearer_guards rfl)
  | logoutAll headers => exact Gate.Guards.some (bearer_guards rfl)
  | revokeOwnSession headers sessionId => exact Gate.Guards.some (bearer_guards rfl)
  | challengeEnroll headers mfaToken method => exact Gate.Guards.some (challenge_guards rfl)
  | challengeEnrollResend headers mfaToken => exact Gate.Guards.some (challenge_guards rfl)
  | challengeEnrollConfirm headers mfaToken code => exact Gate.Guards.some (challenge_guards rfl)
  | challengeRequestCode headers mfaToken => exact Gate.Guards.some (challenge_guards rfl)
  | challengeVerify headers mfaToken code => exact Gate.Guards.some (challenge_guards rfl)
  | refresh headers => exact (refresh_guarded headers).some
  | logout headers => exact (logout_guarded headers).some
  | mfaResetRoute headers id => exact (mfaResetRoute_guarded id).some

end AnatoliaBis.Auth
