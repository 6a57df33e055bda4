import AnatoliaBis.App.AccountRows
import AnatoliaBis.NationalId

/-! # The first administrator

`seed_admin` makes the first `SYSTEM_ADMIN` of a platform, for whoever holds the seed
token, and closes itself once there is one. It runs here side by side with every other
request. An account is seeded only under the configured token and code, and only after the
seeding request itself has counted no active administrator, or could not count; and two
requests never both seed one unless the account is removed in between.
-/

namespace AnatoliaBis.App

open Atomic Program
open Auth (Env Headers Key trim)
open NationalId (asBytes)

/-! ## Comparing the token -/

/-- `constant_time_eq`. -/
def constantTimeEq (a b : String) : Bool :=
  if (asBytes a).length ≠ (asBytes b).length then false
  else ((asBytes a).zip (asBytes b)).foldl (fun diff p => diff ||| (p.1 ^^^ p.2)) 0 == 0

theorem asBytes_injective {a b : String} (h : asBytes a = asBytes b) : a = b := by
  have hdata : a.toByteArray.data = b.toByteArray.data := Array.toList_inj.mp h
  exact String.toByteArray_inj.mp (ByteArray.ext hdata)

/-- The bits of the difference are only ever added to. -/
theorem foldl_diff_eq_zero {l : List (UInt8 × UInt8)} {diff : UInt8} :
    l.foldl (fun diff p => diff ||| (p.1 ^^^ p.2)) diff = 0 ↔
      diff = 0 ∧ ∀ p ∈ l, p.1 = p.2 := by
  induction l generalizing diff with
  | nil => simp
  | cons p l ih =>
      rw [List.foldl_cons, ih, UInt8.or_eq_zero_iff, UInt8.xor_eq_zero_iff]
      simp only [List.mem_cons, forall_eq_or_imp]
      tauto

theorem eq_of_zip {l l' : List UInt8} (hlen : l.length = l'.length)
    (h : ∀ p ∈ l.zip l', p.1 = p.2) : l = l' := by
  apply List.ext_getElem hlen
  intro n hn hn'
  apply h (l[n], l'[n])
  rw [List.mem_iff_getElem]
  exact ⟨n, by rw [List.length_zip]; omega, List.getElem_zip⟩

/-- Comparing every byte compares the texts. -/
theorem constantTimeEq_iff {a b : String} : constantTimeEq a b = true ↔ a = b := by
  unfold constantTimeEq
  constructor
  · intro h
    split_ifs at h with hlen
    rw [beq_iff_eq, foldl_diff_eq_zero] at h
    exact asBytes_injective (eq_of_zip (not_not.mp hlen) h.2)
  · intro h
    subst h
    rw [if_neg (not_not.mpr rfl), beq_iff_eq, foldl_diff_eq_zero]
    constructor
    · rfl
    · intro p hp
      rw [List.zip_eq_zipWith, List.zipWith_self, List.mem_map] at hp
      rcases hp with ⟨x, -, rfl⟩
      rfl

/-! ## The route -/

/-- The environment variables `seed_admin` reads. -/
structure Bootstrap where
  adminSeedToken : Option String
  bootstrapEnabled : Option String
  adminUserCode : Option String
  adminPassword : Option String
  adminEmail : Option String
  deriving Repr, DecidableEq

namespace Bootstrap

/-- The token presented is the one that is configured. -/
def accepts (b : Bootstrap) (token : Option String) : Bool :=
  let expected := b.adminSeedToken.getD ""
  !(expected == "" || !constantTimeEq (token.getD "") expected)

/-- `bootstrap_explicitly_enabled`. -/
def reopened (b : Bootstrap) : Bool := b.bootstrapEnabled == some "true"

/-- The code of the account that is seeded. -/
def code (d : Deployment) (b : Bootstrap) : Option String :=
  b.adminUserCode.map fun code => d.toUppercase (trim code)

end Bootstrap

/-- The refusal, and its audit event. -/
def seedDenied (d : Deployment) (headers : Headers) (metadata : Option Json.Value) :
    Handler Reply := do
  save d { recorder d headers "ADMIN_SEED_FAILED" "denied" with metadata := metadata }
  return forbidden headers

/-- There is an administrator already; a count that fails counts nobody. -/
def isBootstrapped (b : Bootstrap) : Handler Bool :=
  if b.reopened then return false
  else do
    match ← query .countActiveSystemAdmins with
    | .ok count => return decide (0 < count)
    | .error _ => return false

/-- The account of `seed_admin`. -/
def seededUser (d : Deployment) (code email hashed : String) : NewUser :=
  ⟨d.toUppercase (trim code), some email, "System", "Administrator", none, none, hashed,
    Role.systemAdmin, true⟩

/-- `seed_admin` once it may create the account. -/
def createSeeded (d : Deployment) (b : Bootstrap) (headers : Headers) : Handler Reply :=
  match b.adminUserCode, b.adminPassword, b.adminEmail with
  | some code, some password, some email =>
      if trim code == "" || password == "" || email == "" then return invalid headers
      else do
        let salt ← perform (.auth .random)
        match d.bcryptHash password salt with
        | none => return internal headers
        | some hashed =>
            match ← createUser d (seededUser d code email hashed) with
            | .ok (some user) =>
                save d ((recorder d headers "ADMIN_SEED_USED" "success").resource "user"
                  user.id.text)
                return message "admin.adminCreated"
            | .ok none => return internal headers
            -- the expected way to ask whether this has been done already
            | .error .unique => return message "admin.alreadySeeded"
            | .error .failed => return internal headers
  | _, _, _ => return invalid headers

/-- `admin::seed_admin`, with the text of the header `x-seed-token`. -/
def seedAdmin (d : Deployment) (b : Bootstrap) (headers : Headers) (token : Option String) :
    Handler Reply := do
  let allowed ← perform (.auth (.rateCheck "seed-admin" 5 Auth.quarterHour))
  if allowed then
    if b.accepts token then
      let bootstrapped ← isBootstrapped b
      if bootstrapped then
        seedDenied d headers (some (.object [("reason", .string "already_bootstrapped")]))
      else createSeeded d b headers
    else seedDenied d headers none
  else return failure headers "RATE_LIMITED" "errors.rateLimited"

/-! ## What a seeding request keeps to -/

/-- The account is the configured one, and the token presented opens it. -/
structure Bootstrap.Grants (d : Deployment) (b : Bootstrap) (token : Option String)
    (account : Account) : Prop where
  presented : ∃ secret, b.adminSeedToken = some secret ∧ secret ≠ "" ∧ token = some secret
  code : b.code d = some account.userCode
  role : account.role = Role.systemAdmin

/-- The request has looked for an administrator and has found none, or could not look. -/
def FoundNobody (h : List Step) : Prop :=
  ∃ ev ∈ h, ev.op = .db .countActiveSystemAdmins ∧
    (ev.env.fails = true ∨ ∀ row ∈ ev.before.auth.users, countsAsAdmin row = false)

/-- What a seeding request does to the accounts after the history `h` of its own operations. -/
def SeedCall (d : Deployment) (b : Bootstrap) (token : Option String) (h : List Step) :
    Op → Prop
  | .db (.createUser account) => b.Grants d token account ∧ (b.reopened = true ∨ FoundNobody h)
  | _ => True

/-- The configured account is stored: the statement neither fails nor violates a key. -/
def Seeds (d : Deployment) (b : Bootstrap) (ev : Step) : Prop :=
  ∃ account, ev.op = .db (.createUser account) ∧ b.code d = some account.userCode ∧
    ev.env.fails = false ∧ (Query.createUser account).violatesUnique ev.before = false

/-- A seeding request says that it has created the account only if it has. -/
def SeedAnswer (d : Deployment) (b : Bootstrap) (h : List Step) (reply : Reply) : Prop :=
  reply = message "admin.adminCreated" → ∃ ev ∈ h, Seeds d b ev

theorem Bootstrap.accepts_iff {b : Bootstrap} {token : Option String} :
    b.accepts token = true ↔
      ∃ secret, b.adminSeedToken = some secret ∧ secret ≠ "" ∧ token = some secret := by
  unfold Bootstrap.accepts
  simp only [Bool.not_eq_true', Bool.or_eq_false_iff, beq_eq_false_iff_ne, Bool.not_eq_false',
    constantTimeEq_iff]
  constructor
  · rintro ⟨hset, hsame⟩
    cases hsecret : b.adminSeedToken with
    | none =>
        rw [hsecret] at hset
        exact absurd rfl hset
    | some secret =>
        rw [hsecret, Option.getD_some] at hset hsame
        cases token with
        | none => exact absurd hsame.symm hset
        | some text =>
            have htext : text = secret := hsame
            exact ⟨secret, rfl, hset, congrArg some htext⟩
  · rintro ⟨secret, hsecret, hset, rfl⟩
    rw [hsecret]
    exact ⟨hset, rfl⟩

section Keeps

variable {d : Deployment} {b : Bootstrap} {token : Option String} {headers : Headers}
  {h h' : List Step}

theorem FoundNobody.append (hfound : FoundNobody h) : FoundNobody (h ++ h') := by
  rcases hfound with ⟨ev, hev, hcount⟩
  exact ⟨ev, List.mem_append_left _ hev, hcount⟩

theorem seedCall_of_not_writes {op : Op} (hop : ¬ op.WritesAccounts) : SeedCall d b token h op := by
  unfold SeedCall
  split
  · exact absurd trivial hop
  · trivial

theorem seedAnswer_of_ne {reply : Reply} (hne : reply ≠ message "admin.adminCreated") :
    SeedAnswer d b h reply := fun heq => absurd heq hne

theorem failure_ne_message (code messageKey key : String) :
    failure headers code messageKey ≠ message key := by
  intro heq
  have hstatus := failure_status headers code messageKey
  rw [heq] at hstatus
  exact hstatus (show 200 < 400 by decide)

theorem seedAnswer_failure (code messageKey : String) :
    SeedAnswer d b h (failure headers code messageKey) :=
  seedAnswer_of_ne (failure_ne_message _ _ _)

/-- What runs between the two ends of a request without writing to `users`. -/
theorem quiet_guarantees {α : Type} {p : Handler α} {Q : List Step → α → Prop}
    (hp : p.Performs (exec d) (fun op => ¬ op.WritesAccounts) fun _ => True)
    (hQ : ∀ evs a, Q (h ++ evs) a) : p.Guarantees (exec d) (SeedCall d b token) Q h :=
  hp.guarantees (fun _ _ _ hop => seedCall_of_not_writes hop) fun evs a _ _ => hQ evs a

theorem saveThen_guarantees (r : Audit.AuditRecorder) {reply : Reply}
    (hreply : ∀ evs, SeedAnswer d b (h ++ evs) reply) :
    (save d r >>= fun _ => (return reply : Handler Reply)).Guarantees (exec d)
      (SeedCall d b token) (SeedAnswer d b) h := by
  have hsave : (save d r).Guarantees (exec d) (SeedCall d b token)
      (fun h' _ => ∃ evs, h' = h ++ evs) h :=
    quiet_guarantees (save_quiet r) fun evs _ => ⟨evs, rfl⟩
  apply hsave.bind
  rintro h' a ⟨evs, rfl⟩
  exact hreply evs

theorem seedDenied_guarantees (metadata : Option Json.Value) :
    (seedDenied d headers metadata).Guarantees (exec d) (SeedCall d b token) (SeedAnswer d b) h :=
  saveThen_guarantees _ fun _ => seedAnswer_failure _ _

/-- The statement that stores the account comes after everything the request has looked at. -/
theorem createUser_guarantees {user : NewUser} (hcode : b.code d = some user.userCode)
    (hcall : ∀ id evs, SeedCall d b token (h ++ evs) (.db (.createUser (user.account id)))) :
    (createUser d user).Guarantees (exec d) (SeedCall d b token)
      (fun h' r => ∀ account, r = .ok (some account) → ∃ ev ∈ h', Seeds d b ev) h := by
  have hdraws : (Op.auth .newId).Draws := trivial
  apply guarantees_perform (seedCall_of_not_writes hdraws.not_writes)
  intro e s
  apply guarantees_query (hcall _ _)
  intro e' s'
  set account := user.account (exec d (.auth .newId) e s).2
  have hstored : ∀ a, (exec d (.db (.createUser account)) e' s').2 = .ok a →
      Seeds d b
        ⟨.db (.createUser account), e', s', (exec d (.db (.createUser account)) e' s').1⟩ := by
    intro a ha
    cases hf : e'.fails with
    | true =>
        rw [exec_db_of_fails hf] at ha
        cases ha
    | false =>
        cases hq : (Query.createUser account).violatesUnique s' with
        | true =>
            rw [exec_db_of_violates hf hq] at ha
            cases ha
        | false => exact ⟨account, rfl, hcode, hf, hq⟩
  split
  next err herr =>
    intro account' hok
    cases hok
  next a hok =>
    have hmem : ∀ evs, ∃ ev ∈ h ++ [⟨.auth .newId, e, s, (exec d (.auth .newId) e s).1⟩] ++
        [⟨.db (.createUser account), e', s', (exec d (.db (.createUser account)) e' s').1⟩] ++ evs,
        Seeds d b ev := by
      intro evs
      refine ⟨_, ?_, hstored a hok⟩
      simp
    cases d.backend with
    | postgres =>
        intro _ _
        simpa using hmem []
    | sqlite =>
        -- the row is read back, which writes nothing
        apply quiet_guarantees ((loadUserById_performs _).mono
          (fun _ hop => Op.LooksUp.not_writes hop) fun _ hr => hr)
        intro evs _ _ _
        exact hmem evs

theorem isBootstrapped_guarantees :
    (isBootstrapped b).Guarantees (exec d) (SeedCall d b token)
      (fun h' found => found = false → b.reopened = true ∨ FoundNobody h') h := by
  unfold isBootstrapped
  split_ifs with hopen
  · exact fun _ => Or.inl hopen
  · apply guarantees_query trivial
    intro e s
    have hlast : (e.fails = true ∨ ∀ row ∈ s.auth.users, countsAsAdmin row = false) →
        ∀ s', FoundNobody (h ++ [⟨.db .countActiveSystemAdmins, e, s, s'⟩]) := by
      intro hnone s'
      exact ⟨_, List.mem_append_right _ (List.mem_singleton_self _), rfl, hnone⟩
    cases hf : e.fails with
    | true =>
        rw [exec_db_of_fails hf]
        exact fun _ => Or.inr (hlast (Or.inl hf) _)
    | false =>
        rw [exec_db_of_succeeds hf rfl]
        intro hzero
        refine Or.inr (hlast (Or.inr ?_) _)
        intro row hrow
        by_contra hcounts
        have hmem : row ∈ s.auth.users.filter countsAsAdmin :=
          List.mem_filter.mpr ⟨hrow, by simpa using hcounts⟩
        have hpos : 0 < (s.auth.users.filter countsAsAdmin).length :=
          List.length_pos_of_mem hmem
        exact absurd hzero (by simpa [Query.perform] using hpos)

theorem createSeeded_guarantees (htoken : b.accepts token = true)
    (hnobody : b.reopened = true ∨ FoundNobody h) :
    (createSeeded d b headers).Guarantees (exec d) (SeedCall d b token) (SeedAnswer d b) h := by
  unfold createSeeded
  split
  next code password email hcode _ _ =>
    split_ifs
    · exact seedAnswer_failure _ _
    · have hdraws : (Op.auth .random).Draws := trivial
      apply guarantees_perform (seedCall_of_not_writes hdraws.not_writes)
      intro e s
      split
      · exact seedAnswer_failure _ _
      next hashed _ =>
        have hconfigured : b.code d = some (d.toUppercase (trim code)) := by
          unfold Bootstrap.code
          rw [hcode]
          rfl
        have hcall : ∀ id evs, SeedCall d b token
            (h ++ [⟨.auth .random, e, s, (exec d (.auth .random) e s).1⟩] ++ evs)
              (.db (.createUser ((seededUser d code email hashed).account id))) := by
          intro id evs
          constructor
          · exact ⟨Bootstrap.accepts_iff.mp htoken, hconfigured, rfl⟩
          · rw [List.append_assoc]
            exact hnobody.imp_right FoundNobody.append
        have hcreates := createUser_guarantees hconfigured hcall
        apply hcreates.bind
        intro h' r hr
        split
        next user =>
          apply saveThen_guarantees
          intro evs _
          rcases hr user rfl with ⟨ev, hev, hseeds⟩
          exact ⟨ev, List.mem_append_left _ hev, hseeds⟩
        · exact seedAnswer_failure _ _
        · exact seedAnswer_of_ne (by simp [message, json])
        · exact seedAnswer_failure _ _
  · exact seedAnswer_failure _ _

/-- A seeding request creates an account only for whoever holds the token, and only after it
has found nobody. -/
theorem seedAdmin_guarantees :
    (seedAdmin d b headers token).Guarantees (exec d) (SeedCall d b token) (SeedAnswer d b)
      [] := by
  apply guarantees_perform trivial
  intro e s
  split_ifs with hallowed htoken
  · apply isBootstrapped_guarantees.bind
    intro h' found hfound
    split_ifs with hclosed
    · exact seedDenied_guarantees _
    · exact createSeeded_guarantees htoken (hfound (by simpa using hclosed))
  · exact seedDenied_guarantees _
  · exact seedAnswer_failure _ _

end Keeps

/-! ## The seeded account stays -/

section Account

variable {d : Deployment} {code : String} {s : Database} {e : Env}

/-- An account has the code. -/
def Database.HasCode (s : Database) (code : String) : Prop :=
  ∃ row ∈ s.auth.users, row.userCode = code

/-- The operation removes an account with the code. -/
def Removes (code : String) (ev : Step) : Prop :=
  ∃ key, ev.op = .db (.deleteUser key) ∧
    ∃ row ∈ ev.before.auth.users, row.userCode = code ∧ key.isId row.id = true

/-- No code is ever rewritten. -/
theorem hasCode_updateUser {key : Key} {f : Auth.UserRow → Auth.UserRow}
    {g : UserDetails → UserDetails} (hf : ∀ row, (f row).userCode = row.userCode)
    (hs : s.HasCode code) : (s.updateUser key f g).HasCode code := by
  rcases hs with ⟨row, hrow, hcode⟩
  refine ⟨_, List.mem_map_of_mem hrow, ?_⟩
  split_ifs
  · rw [hf, hcode]
  · exact hcode

/-- An account is found under its code until it is removed. -/
theorem hasCode_exec {op : Op} (hop : ¬ Removes code ⟨op, e, s, (exec d op e s).1⟩)
    (hs : s.HasCode code) : (exec d op e s).1.HasCode code := by
  by_cases hwrites : op.WritesAccounts
  · unfold Op.WritesAccounts at hwrites
    split at hwrites
    · apply exec_db_store (I := fun s' => s'.HasCode code) hs
      intro _ _
      rcases hs with ⟨row, hrow, hcode⟩
      exact ⟨row, List.mem_append_left _ hrow, hcode⟩
    · exact exec_db_store (I := fun s' => s'.HasCode code) hs fun _ _ =>
        hasCode_updateUser (fun _ => rfl) hs
    · exact exec_db_store (I := fun s' => s'.HasCode code) hs fun _ _ =>
        hasCode_updateUser (fun _ => rfl) hs
    · exact exec_db_store (I := fun s' => s'.HasCode code) hs fun _ _ =>
        hasCode_updateUser (fun _ => rfl) hs
    next key =>
      -- only a deletion takes rows away
      apply exec_db_store (I := fun s' => s'.HasCode code) hs
      intro _ _
      rcases hs with ⟨row, hrow, hcode⟩
      refine ⟨row, List.mem_filter.mpr ⟨hrow, ?_⟩, hcode⟩
      rw [Bool.not_eq_true', ← Bool.not_eq_true]
      exact fun hkey => hop ⟨key, rfl, row, hrow, hcode, hkey⟩
    · apply exec_db_store (I := fun s' => s'.HasCode code) hs
      intro _ _
      apply hasCode_updateUser _ hs
      intro row
      split_ifs <;> rfl
    · exact hwrites.elim
  · have husers : (exec d op e s).1.auth.users = s.auth.users := (accounts_exec hwrites e s).1
    unfold Database.HasCode
    rw [husers]
    exact hs

/-- After the account is stored, its code is taken. -/
theorem Seeds.hasCode {b : Bootstrap} {ev : Step} (h : Seeds d b ev)
    (hev : ev.after = (exec d ev.op ev.env ev.before).1) (hcode : b.code d = some code) :
    ev.after.HasCode code := by
  rcases ev with ⟨op, e, s, s'⟩
  rcases h with ⟨account, rfl, hconfigured, hf, hq⟩
  dsimp only at hev hf hq
  rw [hev, exec_db_of_succeeds hf hq]
  refine ⟨account.toUserRow, List.mem_append_right _ (List.mem_singleton_self _), ?_⟩
  exact Option.some.inj (hconfigured.symm.trans hcode)

/-- Where the code is taken, the account is not stored. -/
theorem Seeds.not_hasCode {b : Bootstrap} {ev : Step} (h : Seeds d b ev)
    (hcode : b.code d = some code) : ¬ ev.before.HasCode code := by
  rintro ⟨row, hrow, hrowCode⟩
  rcases h with ⟨account, -, hconfigured, -, hq⟩
  have haccount : account.userCode = code := Option.some.inj (hconfigured.symm.trans hcode)
  have htaken : ev.before.auth.users.any
      (fun row => row.id == account.id || row.userCode == account.userCode) = true := by
    rw [List.any_eq_true]
    exact ⟨row, hrow, by simp [hrowCode, haccount]⟩
  simp [Query.violatesUnique, htaken] at hq

theorem hasCode_executes {s' : Database} {evs : List Step}
    (h : Executes (exec d) s evs s') (hkept : ∀ ev ∈ evs, ¬ Removes code ev)
    (hs : s.HasCode code) : s'.HasCode code := by
  have hrel := h.rel (T := fun s s' => s.HasCode code → s'.HasCode code) (fun _ h => h)
    (fun h h' hs => h' (h hs)) ?_
  · exact hrel hs
  · intro ev hev hafter hbefore
    have hkeep := hkept ev hev
    rcases ev with ⟨op, e, s, s'⟩
    dsimp only at hafter
    subst hafter
    exact hasCode_exec hkeep hbefore

end Account

/-! ## Side by side with everything else -/

/-- A request of the application, or one to seed the first administrator. -/
inductive BootRequest where
  | app (request : Request)
  | seed (headers : Headers) (token : Option String)

namespace BootRequest

/-- The handler of a request. -/
def handle (d : Deployment) (b : Bootstrap) : BootRequest → Handler (Option Reply)
  | .app request => App.handle d request
  | .seed headers token => (seedAdmin d b headers token).map some

/-- What a request may do to the accounts. -/
def May (d : Deployment) (b : Bootstrap) : BootRequest → List Step → Op → Prop
  | .app _, _, _ => True
  | .seed _ token, h, op => SeedCall d b token h op

/-- What a request may answer. -/
def Tells (d : Deployment) (b : Bootstrap) : BootRequest → List Step → Option Reply → Prop
  | .app _, _, _ => True
  | .seed .., h, answer => ∀ reply, answer = some reply → SeedAnswer d b h reply

end BootRequest

theorem bootRequest_guarantees {d : Deployment} {b : Bootstrap} (request : BootRequest) :
    (request.handle d b).Guarantees (exec d) (request.May d b) (request.Tells d b) [] := by
  cases request with
  | app request =>
      exact (guarantees_grows _ _).mono (fun _ _ _ => trivial) fun _ _ _ => trivial
  | seed headers token =>
      apply seedAdmin_guarantees.map
      intro h' reply hreply reply' heq
      cases heq
      exact hreply

section Pools

variable {ι : Type} [DecidableEq ι]

/-- Requests handled at the same time on one database. -/
def bootPool (d : Deployment) (b : Bootstrap) (requests : ι → BootRequest) (s : Database) :
    Pool ι Op Op.Res (Option Reply) Database :=
  ⟨fun i => (requests i).handle d b, s⟩

/-- What the operations `log` and the answers of a group of requests show of the seeding. -/
structure SeedsOnce (d : Deployment) (b : Bootstrap) (requests : ι → BootRequest)
    (log : List (ι × Step)) (answer : ι → Option (Option Reply)) : Prop where
  /-- Only the configured account, only for whoever holds the token, and only where the request
  has found nobody before, or the bootstrap is reopened. -/
  authorised : ∀ before i ev later headers token account, log = before ++ (i, ev) :: later →
    requests i = .seed headers token → ev.op = .db (.createUser account) →
      b.Grants d token account ∧ (b.reopened = true ∨ FoundNobody (Pool.own i before))
  /-- Two requests both create the account only if it is removed in between. -/
  once : ∀ i j headers token headers' token', i ≠ j → requests i = .seed headers token →
    requests j = .seed headers' token' →
      answer i = some (some (message "admin.adminCreated")) →
        answer j = some (some (message "admin.adminCreated")) →
          ∃ code entry, b.code d = some code ∧ entry ∈ log ∧ Removes code entry.2

variable {d : Deployment} {b : Bootstrap}

omit [DecidableEq ι] in
/-- Between two operations that store the account, it is removed. -/
theorem removed_between {s s' : Database} {log l m r : List (ι × Step)} {i j : ι} {ev ev' : Step}
    {code : String} (h : Executes (exec d) s (log.map Prod.snd) s')
    (hlog : log = l ++ (i, ev) :: (m ++ (j, ev') :: r)) (hcode : b.code d = some code)
    (hev : Seeds d b ev) (hev' : Seeds d b ev') : ∃ entry ∈ log, Removes code entry.2 := by
  by_contra hkept
  rw [hlog, List.map_append, List.map_cons, List.map_append, List.map_cons] at h
  rcases h.split with ⟨-, hafter, hrest⟩
  have hbetween : Executes (exec d) ev.after (m.map Prod.snd) ev'.before := hrest.split.1
  have hm : ∀ gone ∈ m.map Prod.snd, ¬ Removes code gone := by
    intro gone hgone hremoves
    rcases List.mem_map.mp hgone with ⟨entry, hentry, rfl⟩
    exact hkept ⟨entry, by rw [hlog]; simp [hentry], hremoves⟩
  have hstays := hasCode_executes hbetween hm (hev.hasCode hafter hcode)
  exact hev'.not_hasCode hcode hstays

end Pools

end AnatoliaBis.App
