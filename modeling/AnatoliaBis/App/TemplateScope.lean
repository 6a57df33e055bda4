import AnatoliaBis.App.AccountRows

/-! # Whose template is revoked

The route that revokes a template authorizes the candidate of its path, and the update names
the template alone. So it stays inside that candidate exactly where no active template of
another one has the id.
-/

namespace AnatoliaBis.App

open Atomic Program
open Auth (Env Headers Key)

/-- What one revocation may do: a success is about a template of the candidate, and no
template of another one changes. -/
structure RevokesInside (d : Deployment) (candidateId templateId : String) (s : Database)
    (ended : Reply × Database) : Prop where
  own : ended.1.status < 400 → ∃ row ∈ s.templates, d.Names templateId row.id ∧
    d.Names candidateId row.candidateId ∧
      ∃ row' ∈ ended.2.templates, row'.id = row.id ∧ row'.candidateId = row.candidateId ∧
        row'.revokedAt.isSome
  frame : List.Forall₂ (fun row row' => d.Names candidateId row.candidateId ∨ row' = row)
    s.templates ended.2.templates

/-- The update is executed, and an active template of another candidate has the id. -/
def RevokesElsewhere (d : Deployment) (candidateId : String) (s : Database) (ev : Step) : Prop :=
  ∃ key, ev.op = .db (.revokeTemplate key) ∧ ev.env.fails = false ∧
    ∃ row ∈ s.templates, key.isId row.id = true ∧ row.revokedAt = none ∧
      ¬ d.Names candidateId row.candidateId

/-- Writes to `biometric_templates`. -/
def Op.WritesTemplates : Op → Prop
  | .db (.insertTemplate ..) | .db (.revokeTemplate _) => True
  | _ => False

variable {d : Deployment} {candidateId templateId : String} {headers : Headers} {s s' : Database}

theorem exec_templates {op : Op} (h : ¬ op.WritesTemplates) (e : Env) (s : Database) :
    (exec d op e s).1.templates = s.templates := by
  cases op with
  | db q =>
      apply exec_db_store (I := fun s' => s'.templates = s.templates) rfl
      intro _ _
      cases q with
      | insertTemplate | revokeTemplate => exact absurd trivial h
      | recordReviewDecision entry =>
          exact record_same (f := Database.templates) (fun _ _ _ => rfl) s _ entry
      | _ => rfl
  | _ => rfl

theorem Op.Draws.not_writesTemplates {op : Op} (h : op.Draws) : ¬ op.WritesTemplates := by
  intro hw
  unfold Op.WritesTemplates at hw
  split at hw
  all_goals first | exact h | exact hw

theorem Op.LooksUp.not_writesTemplates {op : Op} (h : op.LooksUp) : ¬ op.WritesTemplates := by
  intro hw
  unfold Op.WritesTemplates at hw
  split at hw
  all_goals first | exact h | exact hw

theorem Op.Audits.not_writesTemplates {op : Op} (h : op.Audits) : ¬ op.WritesTemplates := by
  intro hw
  unfold Op.WritesTemplates at hw
  split at hw
  all_goals first | exact h | exact hw

theorem audits_not_writesTemplates (op : Op) (h : op.LooksUp ∨ op.Audits) :
    ¬ op.WritesTemplates := by
  rcases h with h | h
  · exact h.not_writesTemplates
  · exact h.not_writesTemplates

/-! ## One part after the other -/

/-- So far no template was written. -/
def TemplatesKept (s : Database) (evs : List Step) (s' : Database) : Prop :=
  (∀ ev ∈ evs, ¬ ev.op.WritesTemplates) ∧ s'.templates = s.templates

/-- What is to be shown of the whole run. -/
def InsideIff (d : Deployment) (candidateId templateId : String) (s : Database) (evs : List Step)
    (reply : Reply) (s' : Database) : Prop :=
  RevokesInside d candidateId templateId s (reply, s') ↔
    ¬ ∃ ev ∈ evs, RevokesElsewhere d candidateId s ev

theorem templatesKept_of_performs {α : Type} {P : Op → Prop} {R : α → Prop} {h : Handler α}
    (hh : h.Performs (exec d) P R) (hP : ∀ op, P op → ¬ op.WritesTemplates) (s : Database) :
    h.wp (exec d) (fun _ => True) (fun evs _ s' => TemplatesKept s evs s') s := by
  have hsame := (hh.weaken hP).wp_same (E := fun _ => True) (f := Database.templates)
    (fun op e s hop => exec_templates hop e s) s
  exact wp_mono (fun evs a s' h => ⟨h.1, h.2.2⟩) hsame

theorem TemplatesKept.append {s'' : Database} {evs evs' : List Step} (h : TemplatesKept s evs s')
    (h' : TemplatesKept s' evs' s'') : TemplatesKept s (evs ++ evs') s'' := by
  constructor
  · intro ev hev
    rcases List.mem_append.mp hev with hev | hev
    · exact h.1 ev hev
    · exact h'.1 ev hev
  · exact h'.2.trans h.2

theorem not_elsewhere {ev : Step} (h : ¬ ev.op.WritesTemplates) :
    ¬ RevokesElsewhere d candidateId s ev := by
  rintro ⟨key, hop, -⟩
  rw [hop] at h
  exact h trivial

theorem frame_refl {P : BiometricTemplateRow → Prop} (rows : List BiometricTemplateRow) :
    List.Forall₂ (fun row row' => P row ∨ row' = row) rows rows := by
  apply List.forall₂_same.mpr
  exact fun row _ => Or.inr rfl

/-- A refusal that wrote nothing. -/
theorem insideIff_of_kept {evs : List Step} {reply : Reply} (h : TemplatesKept s evs s')
    (hreply : ¬ reply.status < 400) : InsideIff d candidateId templateId s evs reply s' := by
  constructor
  · rintro - ⟨ev, hev, helse⟩
    exact not_elsewhere (h.1 ev hev) helse
  · intro _
    constructor
    · exact fun hok => absurd hok hreply
    · rw [h.2]
      exact frame_refl _

theorem InsideIff.after {evs evs' : List Step} {reply : Reply} {s'' : Database}
    (h : TemplatesKept s evs s') (h' : InsideIff d candidateId templateId s' evs' reply s'') :
    InsideIff d candidateId templateId s (evs ++ evs') reply s'' := by
  have hinside : RevokesInside d candidateId templateId s (reply, s'') ↔
      RevokesInside d candidateId templateId s' (reply, s'') := by
    constructor
    · exact fun ⟨hown, hframe⟩ => ⟨by rwa [h.2], by rwa [h.2]⟩
    · exact fun ⟨hown, hframe⟩ => ⟨by rwa [h.2] at hown, by rwa [h.2] at hframe⟩
  have helse : (∃ ev ∈ evs ++ evs', RevokesElsewhere d candidateId s ev) ↔
      ∃ ev ∈ evs', RevokesElsewhere d candidateId s' ev := by
    constructor
    · rintro ⟨ev, hev, hrevokes⟩
      rcases List.mem_append.mp hev with hev | hev
      · exact absurd hrevokes (not_elsewhere (h.1 ev hev))
      · unfold RevokesElsewhere at hrevokes ⊢
        exact ⟨ev, hev, by rwa [h.2]⟩
    · rintro ⟨ev, hev, hrevokes⟩
      unfold RevokesElsewhere at hrevokes ⊢
      exact ⟨ev, List.mem_append_right evs hev, by rwa [h.2] at hrevokes⟩
  unfold InsideIff
  rw [hinside, helse]
  exact h'

/-- The rest of a handler, once a part of it left the templates alone. -/
theorem insideIff_bind {α : Type} {P : Op → Prop} {R : α → Prop} {p : Handler α}
    {f : α → Handler Reply} (hp : p.Performs (exec d) P R)
    (hP : ∀ op, P op → ¬ op.WritesTemplates)
    (hf : ∀ a s', (f a).wp (exec d) (fun _ => True) (InsideIff d candidateId templateId s') s')
    (s : Database) :
    (p >>= f).wp (exec d) (fun _ => True) (InsideIff d candidateId templateId s) s := by
  refine wp_bind_of (templatesKept_of_performs hp hP s) fun evs a s' h => ?_
  exact wp_mono (fun evs' reply s'' h' => h'.after h) (hf a s')

theorem TemplatesKept.refl (s : Database) : TemplatesKept s [] s := by
  constructor
  · intro ev hev
    cases hev
  · rfl

theorem insideIff_refusal {reply : Reply} (hreply : ¬ reply.status < 400) (s : Database) :
    (pure reply : Handler Reply).wp (exec d) (fun _ => True)
      (InsideIff d candidateId templateId s) s := by
  rw [pure_eq_done, wp_done]
  exact insideIff_of_kept (TemplatesKept.refl s) hreply

/-! ## The update -/

/-- A template after the update. -/
def revokedAs (now : Timestamp) (key : Key) (row : BiometricTemplateRow) : BiometricTemplateRow :=
  if key.isId row.id && row.revokedAt.isNone then { row with revokedAt := some now } else row

theorem exec_revokeTemplate {key : Key} {e : Env} (h : e.fails = false) (s : Database) :
    (exec d (.db (.revokeTemplate key)) e s).1.templates =
        s.templates.map (revokedAs (d.now e.now) key) ∧
      (exec d (.db (.revokeTemplate key)) e s).2 =
        .ok (s.templates.any fun row => key.isId row.id && row.revokedAt.isNone) := by
  rw [exec_db_of_succeeds h rfl]
  exact ⟨rfl, rfl⟩

theorem revokedAs_eq_self_iff {now : Timestamp} {key : Key} {row : BiometricTemplateRow} :
    revokedAs now key row = row ↔ ¬ (key.isId row.id = true ∧ row.revokedAt = none) := by
  unfold revokedAs
  constructor
  · rintro h ⟨hkey, hactive⟩
    rw [hkey, hactive] at h
    have hstamp := congrArg BiometricTemplateRow.revokedAt h
    rw [hactive] at hstamp
    cases hstamp
  · intro h
    rw [if_neg]
    intro hcond
    rw [Bool.and_eq_true, Option.isNone_iff_eq_none] at hcond
    exact h hcond

/-- The update, and what follows it. -/
theorem insideIff_of_revoked {key : Key} (hkey : d.key templateId = some key) (e : Env)
    {evs : List Step} {reply : Reply}
    (h : TemplatesKept (exec d (.db (.revokeTemplate key)) e s).1 evs s')
    (hreply : reply.status < 400 → (exec d (.db (.revokeTemplate key)) e s).2 = .ok true) :
    InsideIff d candidateId templateId s
      (⟨.db (.revokeTemplate key), e, s, (exec d (.db (.revokeTemplate key)) e s).1⟩ :: evs)
      reply s' := by
  cases hfails : e.fails with
  | true =>
      rw [exec_db_of_fails hfails] at h hreply ⊢
      constructor
      · rintro - ⟨ev, hev, helse⟩
        rcases List.mem_cons.mp hev with rfl | hev
        · rcases helse with ⟨-, -, hsucceeds, -⟩
          rw [hfails] at hsucceeds
          cases hsucceeds
        · exact not_elsewhere (h.1 ev hev) helse
      · intro _
        constructor
        · intro hok
          cases hreply hok
        · rw [h.2]
          exact frame_refl _
  | false =>
      have hupdate : (exec d (.db (.revokeTemplate key)) e s).1.templates = _ ∧
          (exec d (.db (.revokeTemplate key)) e s).2 = _ := exec_revokeTemplate hfails s
      have htemplates := h.2.trans hupdate.1
      constructor
      · rintro ⟨-, hframe⟩ ⟨ev, hev, helse⟩
        rcases List.mem_cons.mp hev with rfl | hev
        · rcases helse with ⟨key', hop, -, row, hrow, hid, hactive, hforeign⟩
          cases hop
          rw [htemplates, List.forall₂_map_right_iff, List.forall₂_same] at hframe
          rcases hframe row hrow with hmine | hsame
          · exact hforeign hmine
          · exact revokedAs_eq_self_iff.mp hsame ⟨hid, hactive⟩
        · exact not_elsewhere (h.1 ev hev) helse
      · intro hnone
        have hmine : ∀ row ∈ s.templates, key.isId row.id = true → row.revokedAt = none →
            d.Names candidateId row.candidateId := by
          intro row hrow hid hactive
          by_contra hforeign
          exact hnone ⟨_, List.mem_cons_self, key, rfl, hfails, row, hrow, hid, hactive, hforeign⟩
        constructor
        · intro hok
          have hany := hupdate.2.symm.trans (hreply hok)
          rw [Except.ok.injEq, List.any_eq_true] at hany
          rcases hany with ⟨row, hrow, hcond⟩
          rw [Bool.and_eq_true, Option.isNone_iff_eq_none] at hcond
          refine ⟨row, hrow, ⟨key, hkey, hcond.1⟩, hmine row hrow hcond.1 hcond.2,
            revokedAs (d.now e.now) key row, ?_, ?_⟩
          · rw [htemplates]
            exact List.mem_map_of_mem hrow
          · simp [revokedAs, hcond]
        · rw [htemplates, List.forall₂_map_right_iff, List.forall₂_same]
          intro row hrow
          by_cases hid : key.isId row.id = true ∧ row.revokedAt = none
          · exact Or.inl (hmine row hrow hid.1 hid.2)
          · exact Or.inr (revokedAs_eq_self_iff.mpr hid)

/-! ## The route -/

theorem loadCandidateById_performs (id : String) :
    (loadCandidateById d id).Performs (exec d) (fun op => ¬ op.WritesTemplates)
      fun _ => True := by
  unfold loadCandidateById
  split
  · trivial
  · exact ⟨fun h => h, fun _ _ => trivial⟩

theorem authorizeCandidateScope_performs (claims : Auth.Claims) (candidate : CandidateRow) :
    (authorizeCandidateScope d claims candidate).Performs (exec d)
      (fun op => ¬ op.WritesTemplates) fun _ => True := by
  have hlookup : (userOrganizationIds d claims.id).Performs (exec d)
      (fun op => ¬ op.WritesTemplates) fun _ => True := by
    unfold userOrganizationIds
    split
    · trivial
    · exact ⟨fun h => h, fun _ _ => trivial⟩
  refine hlookup.bind fun r _ => ?_
  split <;> trivial

theorem revokeTemplateRoute_wp (headers : Headers) (candidateId templateId : String)
    (s : Database) :
    (revokeTemplateRoute d headers candidateId templateId).wp (exec d) (fun _ => True)
      (InsideIff d candidateId templateId s) s := by
  refine insideIff_bind (authUserFromHeaders_draws headers) (fun _ h => h.not_writesTemplates)
    (fun claims s => ?_) s
  cases claims with
  | none => exact insideIff_refusal (failure_status _ _ _) s
  | some claims =>
      dsimp only
      split_ifs
      swap
      · exact insideIff_refusal (failure_status _ _ _) s
      refine insideIff_bind (loadCandidateById_performs candidateId) (fun _ h => h)
        (fun found s => ?_) s
      split
      swap
      · exact insideIff_refusal (failure_status _ _ _) s
      next candidate =>
      refine insideIff_bind (authorizeCandidateScope_performs claims candidate) (fun _ h => h)
        (fun authorized s => ?_) s
      split_ifs
      · exact insideIff_refusal (failure_status _ _ _) s
      · unfold revokeTemplate
        split
        · exact insideIff_refusal (failure_status _ _ _) s
        next key hkey =>
          refine wp_bind_of (S := fun evs r s' => ∃ e, evs =
            [⟨.db (.revokeTemplate key), e, s, s'⟩] ∧ (s', r) =
              exec d (.db (.revokeTemplate key)) e s) (fun e _ => ⟨e, rfl, rfl⟩) ?_
          rintro evs r s₁ ⟨e, rfl, hexec⟩
          obtain ⟨rfl, rfl⟩ := Prod.mk.inj hexec
          split
          next hdone =>
            refine wp_mono (fun evs reply s' h => ?_) (templatesKept_of_performs
              (saveMandatory_performs headers _ _) audits_not_writesTemplates _)
            exact insideIff_of_revoked hkey e h fun _ => hdone
          next =>
            rw [pure_eq_done, wp_done]
            exact insideIff_of_revoked hkey e (TemplatesKept.refl _) fun hok =>
              absurd hok (failure_status _ _ _)
          next =>
            rw [pure_eq_done, wp_done]
            exact insideIff_of_revoked hkey e (TemplatesKept.refl _) fun hok =>
              absurd hok (failure_status _ _ _)

/-- A candidate of the operator's organization, and one of another organization with
a template. -/
def sampleTemplates : Database :=
  { sampleDatabase with
    auth := { sampleDatabase.auth with memberships := [(1, Uuid.text 0xa)] }
    candidates := [⟨0xab, "C-1", "Ada Demir", none, some (Uuid.text 0xa)⟩,
      ⟨0xcd, "C-2", "Eda Kurt", none, some (Uuid.text 0xb)⟩]
    templates := [⟨0xe, 0xcd, "arcface", "1", 512, "", .ofInt 1, none,
      Timestamp.seconds 1111111100, none⟩] }

/-- The template of the other candidate is revoked under the path of the first. -/
def sampleRevocation : Reply × Database :=
  (revokeTemplateRoute (sampleDeployment .sqlite) (sampleBearer Auth.sampleUser)
    (Uuid.text 0xab) (Uuid.text 0xe)).run (exec (sampleDeployment .sqlite))
      (Auth.steadily sampleNow 0) sampleTemplates

end AnatoliaBis.App
