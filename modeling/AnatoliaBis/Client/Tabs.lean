import AnatoliaBis.Auth.Types
import Mathlib.Logic.Function.Basic

/-! # Signing out of all tabs

The client keeps its access token in the memory of a tab (`apiClient.ts`), and signing out
of one tab is told to the others over a `BroadcastChannel` (`authBroadcast.ts`,
`AuthContext.tsx`). Tabs, the answers to their requests and the messages between them come
in any order here. Once a sign-out is through, a tab that listens and has no message left
holds no token, unless it was granted a session since.
-/

namespace AnatoliaBis.Client

open Auth (PublicUser)

/-! ## Messages -/

/-- `AuthBroadcastMessage`. -/
structure AuthBroadcastMessage where
  type : String
  deriving Repr, DecidableEq

/-- What `postSignedOut` posts. -/
def signedOutMessage : AuthBroadcastMessage := ⟨"signed-out"⟩

def isSignedOutMessage (message : AuthBroadcastMessage) : Bool := message.type == "signed-out"

/-! ## A tab -/

/-- `AuthContextValue.status`. -/
inductive Status where
  | loading
  | signedOut
  | signedIn
  deriving Repr, DecidableEq

/-- The requests whose answers change what a tab holds. -/
inductive Call where
  | refresh
  | login (rememberMe : Bool)
  | completeMfaChallenge (rememberMe : Bool)
  | completeMfaEnrollmentChallenge (rememberMe : Bool)
  | logout
  | logoutAll
  deriving Repr, DecidableEq

/-- How a request ends. -/
inductive Answer where
  /-- `LoginResponse`. -/
  | session (accessToken : String) (user : PublicUser) (recoveryCodes : Option (List String))
  /-- The other two outcomes of `login`. -/
  | secondFactor
  | done
  | error
  deriving Repr, DecidableEq

/-- The answers that a request can be given. -/
def Call.accepts : Call → Answer → Bool
  | _, .error => true
  | .logout, .done | .logoutAll, .done => true
  | .logout, _ | .logoutAll, _ => false
  | .login _, .secondFactor => true
  | _, .session .. => true
  | _, _ => false

/-- `logout` and `logoutAll` post a message. -/
def Call.signsOut : Call → Bool
  | .logout | .logoutAll => true
  | _ => false

/-- A tab: `currentAccessToken`, the state of `AuthProvider`, the messages that its channel has
not delivered yet, and its requests in flight. -/
structure Tab where
  currentAccessToken : Option String
  user : Option PublicUser
  status : Status
  rememberedUserCode : String
  pendingRecoveryCodes : Option (List String)
  /-- `broadcastRef.current`, which a browser without `BroadcastChannel` leaves `null`. -/
  channel : Option (List AuthBroadcastMessage)
  inFlight : List Call
  deriving Repr, DecidableEq

namespace Tab

/-- A tab as it is mounted: it asks for its session right away. -/
def mounted (remembered : Option String) (hasChannel : Bool) : Tab where
  currentAccessToken := none
  user := none
  status := .loading
  rememberedUserCode := remembered.getD ""
  pendingRecoveryCodes := none
  channel := if hasChannel then some [] else none
  inFlight := [.refresh]

/-- `setAccessToken(null); setUser(null); setStatus('signed-out')`. -/
def signOut (tab : Tab) : Tab :=
  { tab with currentAccessToken := none, user := none, status := .signedOut }

/-- `setAccessToken(accessToken); setUser(user); setStatus('signed-in')`. -/
def signIn (tab : Tab) (accessToken : String) (user : PublicUser) : Tab :=
  { tab with currentAccessToken := some accessToken, user := some user, status := .signedIn }

/-- `applySession`, as far as the tab goes. -/
def applySession (tab : Tab) (accessToken : String) (user : PublicUser) (rememberMe : Bool) : Tab :=
  { tab.signIn accessToken user with
    rememberedUserCode := if rememberMe then user.userCode else "" }

/-- `setPendingRecoveryCodes(recoveryCodes)`, if there are any. -/
def showRecoveryCodes (tab : Tab) (recoveryCodes : Option (List String)) : Tab :=
  match recoveryCodes with
  | some (code :: codes) => { tab with pendingRecoveryCodes := some (code :: codes) }
  | _ => tab

/-- What follows the answer to a request. -/
def settle (tab : Tab) : Call → Answer → Tab
  | .refresh, .session accessToken user _ => tab.signIn accessToken user
  -- `user` is left as it is
  | .refresh, _ => { tab with currentAccessToken := none, status := .signedOut }
  | .login rememberMe, .session accessToken user _ => tab.applySession accessToken user rememberMe
  | .completeMfaChallenge rememberMe, .session accessToken user _ =>
      tab.applySession accessToken user rememberMe
  | .completeMfaEnrollmentChallenge rememberMe, .session accessToken user recoveryCodes =>
      (tab.showRecoveryCodes recoveryCodes).applySession accessToken user rememberMe
  -- whether the server could be reached or not
  | .logout, _ | .logoutAll, _ => tab.signOut
  | _, _ => tab

/-- The message at the head of the queue. -/
def deliver (tab : Tab) : Tab :=
  match tab.channel with
  | some (message :: messages) =>
      let tab := { tab with channel := some messages }
      if isSignedOutMessage message then tab.signOut else tab
  | _ => tab

/-- A message is posted to the channel of a tab. -/
def receive (tab : Tab) (message : AuthBroadcastMessage) : Tab :=
  { tab with channel := tab.channel.map (· ++ [message]) }

/-- The header that the request interceptor sets. -/
def authorization (tab : Tab) : Option String :=
  (tab.currentAccessToken.filter (· != "")).map ("Bearer " ++ ·)

end Tab

/-- What `applySession` leaves in `localStorage`; `refresh` writes nothing there. -/
def Call.remembers (remembered : Option String) : Call → Answer → Option String
  | .login rememberMe, .session _ user _ | .completeMfaChallenge rememberMe, .session _ user _
  | .completeMfaEnrollmentChallenge rememberMe, .session _ user _ =>
      if rememberMe then some user.userCode else none
  | _, _ => remembered

/-! ## A browser -/

/-- The tabs, and the item of `localStorage` that they share. -/
structure Browser (ι : Type) where
  tabs : ι → Option Tab
  remembered : Option String

/-- One thing that happens. -/
inductive Step (ι : Type) where
  /-- A tab is opened or reloaded, in a browser that has channels or has none. -/
  | load (i : ι) (hasChannel : Bool)
  | close (i : ι)
  | send (i : ι) (call : Call)
  /-- The `k`-th request in flight is answered. -/
  | answer (i : ι) (k : Nat) (answer : Answer)
  | deliver (i : ι)
  | acknowledgeRecoveryCodes (i : ι)
  deriving Repr, DecidableEq

namespace Browser

variable {ι : Type} [DecidableEq ι]

/-- No tab is open. -/
def empty : Browser ι := ⟨fun _ => none, none⟩

def update (b : Browser ι) (i : ι) (f : Tab → Tab) : Browser ι :=
  { b with tabs := Function.update b.tabs i ((b.tabs i).map f) }

/-- `postSignedOut`: a channel does not hear what it posts itself. -/
def postSignedOut (b : Browser ι) (i : ι) : Browser ι :=
  { b with tabs := fun j =>
      if j = i then b.tabs j else (b.tabs j).map (·.receive signedOutMessage) }

/-- The `k`-th request of a tab is answered. -/
def settle (b : Browser ι) (i : ι) (tab : Tab) (call : Call) (k : Nat) (answer : Answer) :
    Browser ι :=
  let settled : Browser ι :=
    { tabs := Function.update b.tabs i
        (some { tab.settle call answer with inFlight := tab.inFlight.eraseIdx k })
      remembered := Call.remembers b.remembered call answer }
  if call.signsOut && tab.channel.isSome then settled.postSignedOut i else settled

/-- One step. -/
def step (b : Browser ι) : Step ι → Browser ι
  | .load i hasChannel =>
      { b with tabs := Function.update b.tabs i (some (.mounted b.remembered hasChannel)) }
  | .close i => { b with tabs := Function.update b.tabs i none }
  | .send i call => b.update i fun tab => { tab with inFlight := tab.inFlight ++ [call] }
  | .answer i k answer =>
      match b.tabs i with
      | none => b
      | some tab =>
          match tab.inFlight[k]? with
          | none => b
          | some call => if call.accepts answer then b.settle i tab call k answer else b
  | .deliver i => b.update i Tab.deliver
  | .acknowledgeRecoveryCodes i => b.update i fun tab => { tab with pendingRecoveryCodes := none }

/-- The browser after a run. -/
def after (b : Browser ι) (run : List (Step ι)) : Browser ι := run.foldl step b

/-! ## What a step does to a tab -/

/-- The `k`-th request of a tab with a channel is a sign-out, and ends so. -/
def SignsOut (b : Browser ι) (i : ι) (k : Nat) (answer : Answer) : Prop :=
  ∃ tab call, b.tabs i = some tab ∧ tab.inFlight[k]? = some call ∧ call.signsOut = true ∧
    call.accepts answer = true ∧ tab.channel.isSome = true

/-- The tab is open, and has a channel. -/
def Listens (b : Browser ι) (j : ι) : Prop :=
  ∃ tab, b.tabs j = some tab ∧ tab.channel.isSome = true

/-- What a step can make of the tab `j`. -/
inductive Becomes (b : Browser ι) (j : ι) : Step ι → Tab → Prop where
  | same {step : Step ι} {tab : Tab} : b.tabs j = some tab → Becomes b j step tab
  | loaded (hasChannel : Bool) :
      Becomes b j (.load j hasChannel) (.mounted b.remembered hasChannel)
  | sent {tab : Tab} (call : Call) : b.tabs j = some tab →
      Becomes b j (.send j call) { tab with inFlight := tab.inFlight ++ [call] }
  | delivered {tab : Tab} : b.tabs j = some tab → Becomes b j (.deliver j) tab.deliver
  | acknowledged {tab : Tab} : b.tabs j = some tab →
      Becomes b j (.acknowledgeRecoveryCodes j) { tab with pendingRecoveryCodes := none }
  | answered {tab : Tab} {call : Call} (k : Nat) (answer : Answer) : b.tabs j = some tab →
      call.accepts answer = true →
        Becomes b j (.answer j k answer)
          { tab.settle call answer with inFlight := tab.inFlight.eraseIdx k }
  | told {tab : Tab} (i : ι) (k : Nat) (answer : Answer) : i ≠ j → b.SignsOut i k answer →
      b.tabs j = some tab → Becomes b j (.answer i k answer) (tab.receive signedOutMessage)

theorem tabs_settle (b : Browser ι) (i j : ι) (tab : Tab) (call : Call) (k : Nat)
    (answer : Answer) : (b.settle i tab call k answer).tabs j =
      if j = i then some { tab.settle call answer with inFlight := tab.inFlight.eraseIdx k }
      else if call.signsOut = true ∧ tab.channel.isSome = true then
        (b.tabs j).map (·.receive signedOutMessage)
      else b.tabs j := by
  unfold settle postSignedOut
  dsimp only
  by_cases hj : j = i
  · subst hj
    rw [if_pos rfl]
    split_ifs
    · dsimp only
      rw [if_pos rfl, Function.update_self]
    · dsimp only
      rw [Function.update_self]
  · rw [if_neg hj]
    simp only [Bool.and_eq_true]
    split_ifs
    · dsimp only
      rw [if_neg hj, Function.update_of_ne hj]
    · dsimp only
      rw [Function.update_of_ne hj]

theorem update_cases {b : Browser ι} {i j : ι} {f : Tab → Tab} {tab : Tab}
    (h : (b.update i f).tabs j = some tab) :
    b.tabs j = some tab ∨ j = i ∧ ∃ tab', b.tabs j = some tab' ∧ tab = f tab' := by
  unfold update at h
  dsimp only at h
  rw [Function.update_apply] at h
  split_ifs at h with hj
  · subst hj
    rcases Option.map_eq_some_iff.mp h with ⟨tab', htab', heq⟩
    exact Or.inr ⟨rfl, tab', htab', heq.symm⟩
  · exact Or.inl h

theorem becomes_of_step {b : Browser ι} {j : ι} {step : Step ι} {tab : Tab}
    (h : (b.step step).tabs j = some tab) : b.Becomes j step tab := by
  cases step with
  | load i hasChannel =>
      unfold Browser.step at h
      dsimp only at h
      rw [Function.update_apply] at h
      split_ifs at h with hj
      · subst hj
        cases h
        exact .loaded hasChannel
      · exact .same h
  | close i =>
      unfold Browser.step at h
      dsimp only at h
      rw [Function.update_apply] at h
      split_ifs at h
      exact .same h
  | send i call =>
      rcases update_cases h with htab | ⟨rfl, tab, htab, rfl⟩
      · exact .same htab
      · exact .sent call htab
  | deliver i =>
      rcases update_cases h with htab | ⟨rfl, tab, htab, rfl⟩
      · exact .same htab
      · exact .delivered htab
  | acknowledgeRecoveryCodes i =>
      rcases update_cases h with htab | ⟨rfl, tab, htab, rfl⟩
      · exact .same htab
      · exact .acknowledged htab
  | answer i k answer =>
      unfold Browser.step at h
      dsimp only at h
      split at h
      · exact .same h
      next tab₁ htab₁ =>
        split at h
        · exact .same h
        next call hcall =>
          split_ifs at h with haccepts
          · rw [tabs_settle] at h
            -- the tab that called, a tab that hears of it, and any other
            split_ifs at h with hj hposts
            · subst hj
              cases h
              exact .answered k answer htab₁ haccepts
            · rcases Option.map_eq_some_iff.mp h with ⟨tab, htab, rfl⟩
              have hout : b.SignsOut i k answer :=
                ⟨tab₁, call, htab₁, hcall, hposts.1, haccepts, hposts.2⟩
              exact .told i k answer (Ne.symm hj) hout htab
            · exact .same h
          · exact .same h

end Browser

/-! ## Tabs that are signed out -/

/-- The tab holds nothing of a session. -/
structure Tab.IsSignedOut (tab : Tab) : Prop where
  token : tab.currentAccessToken = none
  user : tab.user = none
  status : tab.status ≠ .signedIn

/-- A sign-out has yet to be delivered. -/
def Tab.Awaits (tab : Tab) : Prop :=
  ∃ messages, tab.channel = some messages ∧ signedOutMessage ∈ messages

/-- A token is held exactly while the tab shows that somebody is signed in, and then it shows
who. -/
structure Tab.IsCoherent (tab : Tab) : Prop where
  token : tab.currentAccessToken.isSome = true ↔ tab.status = .signedIn
  user : tab.status = .signedIn → tab.user.isSome = true

/-- The tab is granted a session. -/
def Step.Grants {ι : Type} (j : ι) : Step ι → Prop
  | .answer i _ (.session ..) => i = j
  | _ => False

theorem Tab.IsSignedOut.of_signOut (tab : Tab) : tab.signOut.IsSignedOut :=
  ⟨rfl, rfl, fun h => nomatch h⟩

theorem Tab.IsSignedOut.authorization {tab : Tab} (h : tab.IsSignedOut) :
    tab.authorization = none := by
  unfold Tab.authorization
  rw [h.token]
  rfl

/-- An answer without a session signs nobody in, and delivers nothing. -/
theorem Tab.settled_cases (tab : Tab) (call : Call) {answer : Answer}
    (hanswer : ∀ token user codes, answer ≠ .session token user codes) :
    tab.settle call answer = tab ∨ tab.settle call answer = tab.signOut ∨
      tab.settle call answer = { tab with currentAccessToken := none, status := .signedOut } := by
  cases answer with
  | session token user codes => exact absurd rfl (hanswer token user codes)
  | secondFactor | done | error =>
      cases call with
      | refresh => exact Or.inr (Or.inr rfl)
      | login | completeMfaChallenge | completeMfaEnrollmentChallenge => exact Or.inl rfl
      | logout | logoutAll => exact Or.inr (Or.inl rfl)

namespace Tab

variable {tab : Tab}

theorem settle_of_signsOut {call : Call} (h : call.signsOut = true) (answer : Answer) :
    tab.settle call answer = tab.signOut := by
  cases call with
  | logout | logoutAll => rfl
  | refresh | login | completeMfaChallenge | completeMfaEnrollmentChallenge => cases h

theorem channel_showRecoveryCodes (codes : Option (List String)) :
    (tab.showRecoveryCodes codes).channel = tab.channel := by
  unfold showRecoveryCodes
  split
  · rfl
  · rfl

/-- Only messages come and go through a channel. -/
theorem channel_settle (call : Call) (answer : Answer) :
    (tab.settle call answer).channel = tab.channel := by
  unfold settle
  split
  · rfl
  · rfl
  · rfl
  · rfl
  · exact channel_showRecoveryCodes _
  · rfl
  · rfl
  · rfl

/-- Only these four fields say what has become of a session. -/
theorem told_of_same {tab' : Tab} (h : tab.IsSignedOut ∨ tab.Awaits)
    (htoken : tab'.currentAccessToken = tab.currentAccessToken) (huser : tab'.user = tab.user)
    (hstatus : tab'.status = tab.status) (hchannel : tab'.channel = tab.channel) :
    tab'.IsSignedOut ∨ tab'.Awaits := by
  rcases h with hsigned | ⟨messages, hmessages, hmem⟩
  · left
    constructor
    · rw [htoken, hsigned.token]
    · rw [huser, hsigned.user]
    · rw [hstatus]
      exact hsigned.status
  · exact Or.inr ⟨messages, hchannel.trans hmessages, hmem⟩

theorem deliver_told (h : tab.IsSignedOut ∨ tab.Awaits) :
    tab.deliver.IsSignedOut ∨ tab.deliver.Awaits := by
  unfold deliver
  split
  next message messages hchannel =>
    dsimp only
    split_ifs with hout
    · exact Or.inl (.of_signOut _)
    · rcases h with hsigned | ⟨queued, hqueued, hmem⟩
      · exact Or.inl ⟨hsigned.token, hsigned.user, hsigned.status⟩
      · rw [hchannel] at hqueued
        cases hqueued
        rcases List.mem_cons.mp hmem with hhead | htail
        · rw [← hhead] at hout
          exact absurd rfl hout
        · exact Or.inr ⟨messages, rfl, htail⟩
  · exact h

theorem Awaits.of_deliver (h : tab.deliver.Awaits) : tab.Awaits := by
  unfold deliver at h
  split at h
  next message messages hchannel =>
    dsimp only at h
    have hwaits : ∃ queued, some messages = some queued ∧ signedOutMessage ∈ queued := by
      split_ifs at h
      · exact h
      · exact h
    rcases hwaits with ⟨queued, hqueued, hmem⟩
    cases hqueued
    exact ⟨_, hchannel, List.mem_cons_of_mem _ hmem⟩
  · exact h

theorem IsCoherent.of_none (htoken : tab.currentAccessToken = none)
    (hstatus : tab.status ≠ .signedIn) : tab.IsCoherent := by
  constructor
  · rw [htoken]
    constructor
    · intro h
      cases h
    · exact fun h => absurd h hstatus
  · exact fun h => absurd h hstatus

theorem IsCoherent.of_signOut (tab : Tab) : tab.signOut.IsCoherent :=
  .of_none rfl fun h => nomatch h

theorem IsCoherent.deliver (h : tab.IsCoherent) : tab.deliver.IsCoherent := by
  unfold Tab.deliver
  split
  · dsimp only
    split_ifs
    · exact .of_signOut _
    · exact ⟨h.token, h.user⟩
  · exact h

theorem IsCoherent.settle (h : tab.IsCoherent) (call : Call) (answer : Answer) :
    (tab.settle call answer).IsCoherent := by
  have hsignedIn : ∀ token user (tab' : Tab), tab'.currentAccessToken = some token →
      tab'.user = some user → tab'.status = .signedIn → tab'.IsCoherent := by
    intro token user tab' htoken huser hstatus
    constructor
    · rw [htoken, hstatus]
      exact ⟨fun _ => rfl, fun _ => rfl⟩
    · intro _
      rw [huser]
      rfl
  unfold Tab.settle
  split
  · exact hsignedIn _ _ _ rfl rfl rfl
  · exact .of_none rfl fun h => nomatch h
  · exact hsignedIn _ _ _ rfl rfl rfl
  · exact hsignedIn _ _ _ rfl rfl rfl
  · exact hsignedIn _ _ _ rfl rfl rfl
  · exact .of_signOut _
  · exact .of_signOut _
  · exact h

end Tab

/-! ## Runs -/

namespace Browser

variable {ι : Type} [DecidableEq ι] {b : Browser ι} {i j : ι} {step : Step ι} {tab : Tab}

/-- The tab is signed out, or is about to hear that it is. -/
def Told (b : Browser ι) (j : ι) : Prop :=
  ∀ tab, b.tabs j = some tab → tab.IsSignedOut ∨ tab.Awaits

theorem coherent_step (h : ∀ tab, b.tabs j = some tab → tab.IsCoherent)
    (hstep : (b.step step).tabs j = some tab) : tab.IsCoherent := by
  cases becomes_of_step hstep with
  | same htab => exact h _ htab
  | loaded hasChannel => exact .of_none rfl fun h => nomatch h
  | sent call htab => exact ⟨(h _ htab).token, (h _ htab).user⟩
  | delivered htab => exact (h _ htab).deliver
  | acknowledged htab => exact ⟨(h _ htab).token, (h _ htab).user⟩
  | @answered tab call k answer htab _ =>
      have hsettled := (h _ htab).settle call answer
      exact ⟨hsettled.token, hsettled.user⟩
  | told i k answer _ _ htab => exact ⟨(h _ htab).token, (h _ htab).user⟩

/-- Only a session that is granted to the tab takes it out of being signed out. -/
theorem told_step (h : b.Told j) (hgrants : ¬ step.Grants j) : (b.step step).Told j := by
  intro tab hnow
  cases becomes_of_step hnow with
  | same htab => exact h _ htab
  | loaded hasChannel => exact Or.inl ⟨rfl, rfl, fun h => nomatch h⟩
  | sent call htab => exact Tab.told_of_same (h _ htab) rfl rfl rfl rfl
  | delivered htab => exact Tab.deliver_told (h _ htab)
  | acknowledged htab => exact Tab.told_of_same (h _ htab) rfl rfl rfl rfl
  | @answered tab call k answer htab _ =>
      have hanswer : ∀ token user codes, answer ≠ .session token user codes := by
        rintro token user codes rfl
        exact hgrants rfl
      rcases tab.settled_cases call hanswer with hsame | hout | hrefused
      · rw [hsame]
        exact Tab.told_of_same (h _ htab) rfl rfl rfl rfl
      · rw [hout]
        exact Or.inl ⟨rfl, rfl, fun h => nomatch h⟩
      · rw [hrefused]
        exact (h _ htab).imp_left fun hsigned => ⟨rfl, hsigned.user, fun h => nomatch h⟩
  | told i k answer _ _ htab =>
      rcases h _ htab with hsigned | ⟨messages, hchannel, hmem⟩
      · exact Or.inl ⟨hsigned.token, hsigned.user, hsigned.status⟩
      · refine Or.inr ⟨messages ++ [signedOutMessage], ?_, List.mem_append_left _ hmem⟩
        unfold Tab.receive
        dsimp only
        rw [hchannel]
        rfl

/-- A sign-out is told to every tab that listens. -/
theorem told_of_signsOut {k : ℕ} {answer : Answer} (h : b.SignsOut i k answer)
    (hj : b.Listens j) : (b.step (.answer i k answer)).Told j := by
  rcases h with ⟨tab₁, call, htab₁, hcall, hout, haccepts, hchannel⟩
  have hstep : b.step (.answer i k answer) = b.settle i tab₁ call k answer := by
    simp only [Browser.step, htab₁, hcall, haccepts, if_true]
  intro tab htab
  rw [hstep, tabs_settle] at htab
  split_ifs at htab with hji hposts
  -- a channel does not hear itself, but the tab that posts signs itself out
  · cases htab
    rw [Tab.settle_of_signsOut hout]
    exact Or.inl ⟨rfl, rfl, fun h => nomatch h⟩
  · rcases Option.map_eq_some_iff.mp htab with ⟨tab₂, htab₂, rfl⟩
    rcases hj with ⟨tab₃, htab₃, hlistens⟩
    rw [htab₂] at htab₃
    cases htab₃
    rcases Option.isSome_iff_exists.mp hlistens with ⟨messages, hmessages⟩
    refine Or.inr ⟨messages ++ [signedOutMessage], ?_, by simp⟩
    unfold Tab.receive
    dsimp only
    rw [hmessages]
    rfl
  · exact absurd ⟨hout, hchannel⟩ hposts

/-- A message in a queue was there before, or has just been posted by another tab. -/
theorem awaits_step (h : (b.step step).tabs j = some tab) (hawaits : tab.Awaits) :
    (∃ tab, b.tabs j = some tab ∧ tab.Awaits) ∨
      ∃ i k answer, step = .answer i k answer ∧ i ≠ j ∧ b.SignsOut i k answer := by
  cases becomes_of_step h with
  | same htab => exact Or.inl ⟨_, htab, hawaits⟩
  | loaded hasChannel =>
      rcases hawaits with ⟨messages, hchannel, hmem⟩
      unfold Tab.mounted at hchannel
      dsimp only at hchannel
      split_ifs at hchannel
      cases hchannel
      cases hmem
  | sent call htab => exact Or.inl ⟨_, htab, hawaits⟩
  | delivered htab => exact Or.inl ⟨_, htab, hawaits.of_deliver⟩
  | acknowledged htab => exact Or.inl ⟨_, htab, hawaits⟩
  | @answered tab call k answer htab _ =>
      rcases hawaits with ⟨messages, hchannel, hmem⟩
      have hbefore : tab.channel = some messages := by
        rw [← Tab.channel_settle call answer]
        exact hchannel
      exact Or.inl ⟨tab, htab, messages, hbefore, hmem⟩
  | told i k answer hij hout _ => exact Or.inr ⟨i, k, answer, rfl, hij, hout⟩

theorem after_append (run run' : List (Step ι)) :
    b.after (run ++ run') = (b.after run).after run' := List.foldl_append

theorem told_after {run : List (Step ι)} (h : b.Told j) (hgrants : ∀ step ∈ run, ¬ step.Grants j) :
    (b.after run).Told j := by
  induction run generalizing b with
  | nil => exact h
  | cons step run ih =>
      apply ih (told_step h (hgrants step (List.mem_cons_self ..)))
      intro later hlater
      exact hgrants later (List.mem_cons_of_mem _ hlater)

theorem coherent_after (run : List (Step ι)) :
    ∀ tab, ((empty : Browser ι).after run).tabs j = some tab → tab.IsCoherent := by
  induction run using List.reverseRecOn with
  | nil =>
      intro tab htab
      cases htab
  | append_singleton run step ih =>
      intro tab htab
      rw [after_append] at htab
      exact coherent_step ih htab

/-- No tab is told to sign out unless another one has signed out. -/
theorem asked_after (run : List (Step ι)) :
    ∀ tab, ((empty : Browser ι).after run).tabs j = some tab → tab.Awaits →
      ∃ before i k answer later, run = before ++ .answer i k answer :: later ∧ i ≠ j ∧
        ((empty : Browser ι).after before).SignsOut i k answer := by
  induction run using List.reverseRecOn with
  | nil =>
      intro tab htab
      cases htab
  | append_singleton run step ih =>
      intro tab htab hawaits
      rw [after_append] at htab
      rcases awaits_step htab hawaits with ⟨tab', htab', hawaits'⟩ | ⟨i, k, answer, rfl, hij, hout⟩
      · rcases ih tab' htab' hawaits' with ⟨before, i, k, answer, later, rfl, hij, hout⟩
        refine ⟨before, i, k, answer, later ++ [step], ?_, hij, hout⟩
        rw [List.append_assoc]
        rfl
      · exact ⟨run, i, k, answer, [], rfl, hij, hout⟩

/-- What the tabs of a browser have in common in a run. -/
structure SignsOutEverywhere (run : List (Step ι)) : Prop where
  coherent : ∀ j tab, ((empty : Browser ι).after run).tabs j = some tab → tab.IsCoherent
  /-- After a sign-out a tab that listened to it, and has no sign-out left to hear, is signed out
  and sends no token, if no session has been granted to it since. -/
  reaches : ∀ before i k answer later j, run = before ++ .answer i k answer :: later →
    ((empty : Browser ι).after before).SignsOut i k answer →
      ((empty : Browser ι).after before).Listens j → (∀ step ∈ later, ¬ step.Grants j) →
        ∀ tab, ((empty : Browser ι).after run).tabs j = some tab → ¬ tab.Awaits →
          tab.IsSignedOut ∧ tab.authorization = none
  /-- A sign-out is heard only of another tab. -/
  asked : ∀ j tab, ((empty : Browser ι).after run).tabs j = some tab → tab.Awaits →
    ∃ before i k answer later, run = before ++ .answer i k answer :: later ∧ i ≠ j ∧
      ((empty : Browser ι).after before).SignsOut i k answer

/-- Signing out of one tab signs out of all that listen, whatever comes in between. -/
theorem signs_out_everywhere (run : List (Step ι)) : SignsOutEverywhere run := by
  constructor
  · exact fun j => coherent_after run
  · intro before i k answer later j hrun hout hlistens hgrants tab htab hawaits
    have htold : ((empty : Browser ι).after run).Told j := by
      rw [hrun, after_append]
      have hheard := told_of_signsOut hout hlistens
      exact told_after (b := Browser.step _ (.answer i k answer)) hheard hgrants
    have hsigned : tab.IsSignedOut := (htold tab htab).resolve_right hawaits
    exact ⟨hsigned, hsigned.authorization⟩
  · exact fun j => asked_after run

end Browser

/-! ## A run -/

def sampleUser : PublicUser := ⟨1, "OPERATOR1", none, "OPERATOR", "Ada", "Kaya"⟩

/-- Two tabs are restored, one of them signs out, and the other one hears of it. -/
def sampleRun : List (Step Bool) :=
  [.load false true, .load true true, .answer false 0 (.session "a" sampleUser none),
    .answer true 0 (.session "b" sampleUser none), .send false .logout, .answer false 0 .error,
    .deliver true]

example : (((Browser.empty : Browser Bool).after (sampleRun.take 6)).tabs true).map
    (·.authorization) = some (some "Bearer b") := by decide

example : (((Browser.empty : Browser Bool).after sampleRun).tabs true).map
    (·.authorization) = some none := by decide

end AnatoliaBis.Client
