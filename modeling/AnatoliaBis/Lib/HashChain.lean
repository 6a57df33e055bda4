import Mathlib.Data.List.Nodup
import Mathlib.Data.List.Induction
import Mathlib.Data.List.Infix

/-! # Hash chains

A log is made tamper evident by storing with each record the hash of the record
before it (`prev`) and its own hash (`hash`). Records are of an arbitrary type
`ρ`, hashes of an arbitrary type `η`; nothing is assumed about how a hash is
computed beyond the hypotheses each lemma names, so a development instantiates
`prev` and `hash` with the columns of its own table.

* `tip_determines`: the last hash commits to every record and to their number.
* `nodup_hashes`: no two records of a chain share a hash.
* `linked_sublist_iff`: what survives the removal of records is a chain exactly
  when a tail was removed.
* `build`: the chain of an append-only log.
-/

namespace HashChain

variable {ρ η κ : Type}

section Linked

variable (prev hash : ρ → η)

/-- Each record points at the one before it, the first one at `g`. -/
def Linked : η → List ρ → Prop
  | _, [] => True
  | g, r :: rs => prev r = g ∧ Linked (hash r) rs

/-- The hash the next record has to point at. -/
def tip : η → List ρ → η
  | g, [] => g
  | _, r :: rs => tip (hash r) rs

variable {prev hash}

@[simp] theorem linked_nil (g : η) : Linked prev hash g [] := trivial

@[simp] theorem linked_cons (g : η) (r : ρ) (rs : List ρ) :
    Linked prev hash g (r :: rs) ↔ prev r = g ∧ Linked prev hash (hash r) rs := Iff.rfl

@[simp] theorem tip_nil (g : η) : tip hash g [] = g := rfl

@[simp] theorem tip_cons (g : η) (r : ρ) (rs : List ρ) :
    tip hash g (r :: rs) = tip hash (hash r) rs := rfl

theorem tip_append (g : η) (rs rs' : List ρ) :
    tip hash g (rs ++ rs') = tip hash (tip hash g rs) rs' := by
  induction rs generalizing g with
  | nil => rfl
  | cons r rs ih => exact ih (hash r)

@[simp] theorem tip_concat (g : η) (rs : List ρ) (r : ρ) : tip hash g (rs ++ [r]) = hash r := by
  rw [tip_append]; rfl

theorem linked_append (g : η) (rs rs' : List ρ) :
    Linked prev hash g (rs ++ rs') ↔
      Linked prev hash g rs ∧ Linked prev hash (tip hash g rs) rs' := by
  induction rs generalizing g with
  | nil => simp
  | cons r rs ih => simp [ih, and_assoc]

/-- Appending a record keeps the chain exactly when it points at the tip. -/
theorem linked_concat (g : η) (rs : List ρ) (r : ρ) :
    Linked prev hash g (rs ++ [r]) ↔ Linked prev hash g rs ∧ prev r = tip hash g rs := by
  simp [linked_append]

theorem Linked.of_prefix {g : η} {rs rs' : List ρ} (h : Linked prev hash g rs')
    (hp : rs <+: rs') : Linked prev hash g rs := by
  obtain ⟨t, rfl⟩ := hp
  exact ((linked_append g rs t).mp h).1

/-- A record points at the start of the chain or at another record of it. -/
theorem Linked.prev_mem {g : η} {rs : List ρ} (h : Linked prev hash g rs) {r : ρ} (hr : r ∈ rs) :
    prev r = g ∨ ∃ y ∈ rs, prev r = hash y := by
  induction rs generalizing g with
  | nil => cases hr
  | cons x xs ih =>
      rcases List.mem_cons.mp hr with rfl | hr'
      · exact Or.inl h.1
      · rcases ih h.2 hr' with hx | ⟨y, hy, hyr⟩
        · exact Or.inr ⟨x, by simp, hx⟩
        · exact Or.inr ⟨y, by simp [hy], hyr⟩

/-- Whether the records form a chain depends on the two hash columns only. -/
theorem linked_map {ρ' : Type} {prev' hash' : ρ' → η} {f : ρ → ρ'} {rs : List ρ}
    (hp : ∀ r ∈ rs, prev' (f r) = prev r) (hh : ∀ r ∈ rs, hash' (f r) = hash r) (g : η) :
    Linked prev' hash' g (rs.map f) ↔ Linked prev hash g rs := by
  induction rs generalizing g with
  | nil => simp
  | cons r rs ih =>
      have ih' := ih (fun x hx => hp x (by simp [hx])) (fun x hx => hh x (by simp [hx]))
      simp [hp r (by simp), hh r (by simp), ih']

/-- A chain stays one when its hashes are read through a function. -/
theorem Linked.image {η' : Type} {prev' hash' : ρ → η'} (f : η → η') {g : η} {rs : List ρ}
    (hp : ∀ r ∈ rs, prev' r = f (prev r)) (hh : ∀ r ∈ rs, hash' r = f (hash r))
    (h : Linked prev hash g rs) : Linked prev' hash' (f g) rs := by
  induction rs generalizing g with
  | nil => trivial
  | cons r rs ih =>
      refine ⟨by rw [hp r (by simp), h.1], ?_⟩
      rw [hh r (by simp)]
      exact ih (fun x hx => hp x (by simp [hx])) (fun x hx => hh x (by simp [hx])) h.2

theorem tip_image {η' : Type} {hash' : ρ → η'} (f : η → η') {rs : List ρ}
    (hh : ∀ r ∈ rs, hash' r = f (hash r)) (g : η) : tip hash' (f g) rs = f (tip hash g rs) := by
  induction rs generalizing g with
  | nil => rfl
  | cons r rs ih =>
      rw [tip_cons, tip_cons, hh r (by simp)]
      exact ih (fun x hx => hh x (by simp [hx])) (hash r)

end Linked

/-! ## The tip commits to the chain -/

section Commitment

variable {prev hash : ρ → η} {content : ρ → κ} {g : η}

/-- **Commitment.** Two chains with the same tip have the same contents, hence
also the same length, when a hash determines the content and the previous hash
it was computed from and no record hashes to the start value. -/
theorem tip_determines {rs rs' : List ρ}
    (hbind : ∀ r ∈ rs, ∀ r' ∈ rs', hash r = hash r' → prev r = prev r' ∧ content r = content r')
    (hg : ∀ r ∈ rs, hash r ≠ g) (hg' : ∀ r ∈ rs', hash r ≠ g)
    (h : Linked prev hash g rs) (h' : Linked prev hash g rs')
    (htip : tip hash g rs = tip hash g rs') : rs.map content = rs'.map content := by
  -- backwards along both chains: equal tips give equal last records and equal earlier tips
  induction rs using List.reverseRecOn generalizing rs' with
  | nil =>
      rcases List.eq_nil_or_concat' rs' with rfl | ⟨ys, y, rfl⟩
      · rfl
      · exact absurd (by simpa using htip.symm) (hg' y (by simp))
  | append_singleton xs x ih =>
      rcases List.eq_nil_or_concat' rs' with rfl | ⟨ys, y, rfl⟩
      · exact absurd (by simpa using htip) (hg x (by simp))
      · rw [linked_concat] at h h'
        have hxy : hash x = hash y := by simpa using htip
        obtain ⟨hprev, hcontent⟩ := hbind x (by simp) y (by simp) hxy
        have htip' : tip hash g xs = tip hash g ys := by rw [← h.2, ← h'.2, hprev]
        have hmap := ih (fun r hr r' hr' => hbind r (by simp [hr]) r' (by simp [hr']))
          (fun r hr => hg r (by simp [hr])) (fun r hr => hg' r (by simp [hr])) h.1 h'.1 htip'
        simp [hmap, hcontent]

/-- The records of a chain have different hashes. -/
theorem nodup_hashes {rs : List ρ}
    (hbind : ∀ r ∈ rs, ∀ r' ∈ rs, hash r = hash r' → prev r = prev r')
    (hg : ∀ r ∈ rs, hash r ≠ g) (h : Linked prev hash g rs) : (rs.map hash).Nodup := by
  induction rs using List.reverseRecOn with
  | nil => simp
  | append_singleton xs x ih =>
      have hxs := ih (fun r hr r' hr' => hbind r (by simp [hr]) r' (by simp [hr']))
        (fun r hr => hg r (by simp [hr])) ((linked_concat g xs x).mp h).1
      have hnew : hash x ∉ xs.map hash := by
        intro hmem
        obtain ⟨y, hy, hyx⟩ := List.mem_map.mp hmem
        obtain ⟨as, bs, rfl⟩ := List.append_of_mem hy
        -- the chain up to `y` and the whole chain have the same tip but different lengths
        have hpre : as ++ [y] <+: as ++ y :: bs ++ [x] := ⟨bs ++ [x], by simp⟩
        have heq : (as ++ [y]).map (fun _ => ()) = (as ++ y :: bs ++ [x]).map (fun _ => ()) :=
          tip_determines (fun r hr r' hr' hrr => ⟨hbind r (hpre.subset hr) r' hr' hrr, rfl⟩)
            (fun r hr => hg r (hpre.subset hr)) hg (h.of_prefix hpre) h
            (by rw [tip_concat, tip_concat, hyx])
        have hlen := congrArg List.length heq
        simp at hlen
      rw [List.map_append, List.nodup_append]
      refine ⟨hxs, by simp, ?_⟩
      intro a ha b hb
      have hb' : b = hash x := by simpa using hb
      rintro rfl
      exact hnew (hb' ▸ ha)

end Commitment

/-! ## Removal of records -/

section Removal

variable {prev hash : ρ → η} {g : η}

/-- **Removal.** Records left over from a chain form a chain themselves exactly
when they are its first ones: a gap shows, a missing tail does not. -/
theorem linked_sublist_iff {rs s : List ρ} (hs : s.Sublist rs) (hnd : (rs.map hash).Nodup)
    (hg : ∀ r ∈ rs, hash r ≠ g) (h : Linked prev hash g rs) :
    Linked prev hash g s ↔ s <+: rs := by
  constructor
  · intro hlink
    induction rs generalizing g s with
    | nil => simp [List.sublist_nil.mp hs]
    | cons r rs ih =>
        have hnd' : hash r ∉ rs.map hash ∧ (rs.map hash).Nodup := by simpa using hnd
        rcases List.sublist_cons_iff.mp hs with hdrop | ⟨s', rfl, hkeep⟩
        · -- `r` was removed: what follows it cannot point at the start of the chain
          cases s with
          | nil => exact List.nil_prefix
          | cons x xs =>
              exfalso
              have hx : x ∈ rs := hdrop.subset (by simp)
              rcases h.2.prev_mem hx with hpr | ⟨y, hy, hpy⟩
              · exact hg r (by simp) (hpr ▸ hlink.1)
              · exact hg y (by simp [hy]) (hpy ▸ hlink.1)
        · have hne : ∀ y ∈ rs, hash y ≠ hash r := by
            intro y hy hyr
            exact hnd'.1 (List.mem_map.mpr ⟨y, hy, hyr⟩)
          exact List.prefix_cons_inj r |>.mpr (ih hkeep hnd'.2 hne h.2 hlink.2)
  · exact h.of_prefix

/-- Filtering leaves a prefix exactly when nothing kept follows something
removed. -/
theorem filter_prefix_iff (keep : ρ → Bool) (rs : List ρ) :
    rs.filter keep <+: rs ↔ rs.Pairwise fun a b => keep b = true → keep a = true := by
  induction rs with
  | nil => simp
  | cons r rs ih =>
      cases hr : keep r with
      | true => simp [hr, ih]
      | false =>
          have hnil : (r :: rs).filter keep <+: r :: rs ↔ rs.filter keep = [] := by
            rw [List.filter_cons_of_neg (by simp [hr])]
            constructor
            · intro hp
              rcases List.prefix_cons_iff.mp hp with hnil | ⟨t, ht, _⟩
              · exact hnil
              · have : r ∈ rs.filter keep := by simp [ht]
                simp [hr] at this
            · intro hnil
              simp [hnil]
          rw [hnil, List.filter_eq_nil_iff, List.pairwise_cons]
          constructor
          · intro hall
            refine ⟨fun b hb hkb => absurd hkb (hall b hb), ?_⟩
            exact List.Pairwise.imp_of_mem (R := fun _ _ => True)
              (fun _ hb _ hkb => absurd hkb (hall _ hb)) (List.pairwise_of_forall fun _ _ => trivial)
          · intro hpw b hb hkb
            simpa [hr] using hpw.1 b hb hkb

end Removal

/-! ## The chain of a log -/

section Build

variable (mk : η → Nat → κ → ρ) (hash : ρ → η)

/-- The records of the entries `ws`, numbered from `n` on, behind the hash `g`. -/
def build : η → Nat → List κ → List ρ
  | _, _, [] => []
  | g, n, w :: ws => mk g n w :: build (hash (mk g n w)) (n + 1) ws

variable {mk hash}

theorem build_concat (g : η) (n : Nat) (ws : List κ) (w : κ) :
    build mk hash g n (ws ++ [w]) =
      build mk hash g n ws ++ [mk (tip hash g (build mk hash g n ws)) (n + ws.length) w] := by
  induction ws generalizing g n with
  | nil => rfl
  | cons v vs ih =>
      have hn : n + 1 + vs.length = n + (vs.length + 1) := by omega
      simp only [List.cons_append, build, ih, tip_cons, List.length_cons, hn]

@[simp] theorem length_build (g : η) (n : Nat) (ws : List κ) :
    (build mk hash g n ws).length = ws.length := by
  induction ws generalizing g n with
  | nil => rfl
  | cons w ws ih => simp [build, ih]

theorem linked_build {prev : ρ → η} (hprev : ∀ g n w, prev (mk g n w) = g) (g : η) (n : Nat)
    (ws : List κ) : Linked prev hash g (build mk hash g n ws) := by
  induction ws generalizing g n with
  | nil => trivial
  | cons w ws ih => exact ⟨hprev g n w, ih _ _⟩

/-- The records are numbered consecutively. -/
theorem number_build {number : ρ → Nat} (hnumber : ∀ g n w, number (mk g n w) = n) (g : η)
    (n : Nat) (ws : List κ) :
    (build mk hash g n ws).map number = List.range' n ws.length := by
  induction ws generalizing g n with
  | nil => rfl
  | cons w ws ih => simp [build, ih, hnumber, List.range'_succ]

/-- A property of records that is decided by their entries. -/
theorem forall_mem_build_iff {P : ρ → Prop} {Q : κ → Prop} {ws : List κ}
    (h : ∀ w ∈ ws, ∀ g n, P (mk g n w) ↔ Q w) (g : η) (n : Nat) :
    (∀ r ∈ build mk hash g n ws, P r) ↔ ∀ w ∈ ws, Q w := by
  induction ws generalizing g n with
  | nil => simp [build]
  | cons w ws ih =>
      simp only [build, List.forall_mem_cons]
      rw [h w (by simp), ih (fun v hv => h v (by simp [hv]))]

end Build

end HashChain
