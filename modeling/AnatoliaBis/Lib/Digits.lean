import Mathlib.Data.Nat.Digits.Defs
import Mathlib.Data.List.Lex

/-! # Fixed-width numerals

Formats that print a number with a fixed number of digits (`%02d`, `%.3f`,
hexadecimal dumps) are big-endian positional numerals of known width. Their
texts can be compared as texts: on numbers that fit the width, the
lexicographic order of the digit lists is the order of the numbers.
-/

namespace Numeral

/-- The `w` low digits of `n` in base `b`, most significant first. -/
def digits (b : Nat) : Nat → Nat → List Nat
  | 0, _ => []
  | w + 1, n => n / b ^ w % b :: digits b w n

/-- The digits as characters, `0`–`9` and then lower-case letters. -/
def chars (b w n : Nat) : List Char :=
  (digits b w n).map Nat.digitChar

@[simp] theorem length_digits (b w n : Nat) : (digits b w n).length = w := by
  induction w with
  | zero => rfl
  | succ w ih => simp [digits, ih]

@[simp] theorem length_chars (b w n : Nat) : (chars b w n).length = w := by
  simp [chars]

theorem digits_lt {b : Nat} (hb : 0 < b) (w n : Nat) : ∀ d ∈ digits b w n, d < b := by
  induction w with
  | zero => intro d hd; cases hd
  | succ w ih =>
      intro d hd
      rcases List.mem_cons.mp hd with rfl | hd'
      · exact Nat.mod_lt _ hb
      · exact ih d hd'

/-- The numeral only depends on the number modulo `b ^ w`. -/
theorem digits_mod (b w n : Nat) : digits b w (n % b ^ w) = digits b w n := by
  have step : ∀ v, v ≤ w → digits b v (n % b ^ w) = digits b v n := by
    intro v
    induction v with
    | zero => intro _; rfl
    | succ v ih =>
        intro hv
        have hw : b ^ w = b ^ v * (b * b ^ (w - (v + 1))) := by
          rw [← mul_assoc, ← pow_succ, ← pow_add, Nat.add_sub_cancel' hv]
        have hd : n % b ^ w / b ^ v % b = n / b ^ v % b := by
          rw [hw, Nat.mod_mul_right_div_self, Nat.mod_mul_right_mod]
        simp only [digits, hd, ih (Nat.le_of_succ_le hv)]
  exact step w le_rfl

/-- A numeral is its high digits followed by its low ones. -/
theorem digits_add (b w v n : Nat) :
    digits b (w + v) n = digits b w (n / b ^ v) ++ digits b v n := by
  induction w with
  | zero => simp [digits]
  | succ w ih =>
      rw [Nat.add_right_comm]
      simp only [digits, List.cons_append, ih, Nat.div_div_eq_div_mul, ← pow_add, Nat.add_comm v w]

theorem chars_add (b w v n : Nat) :
    chars b (w + v) n = chars b w (n / b ^ v) ++ chars b v n := by
  simp [chars, digits_add]

/-- **Order.** Numbers that fit the width are ordered as their numerals are,
compared lexicographically. -/
theorem digits_lt_digits {b : Nat} (hb : 0 < b) {w n m : Nat} (hm : m < b ^ w) (h : n < m) :
    digits b w n < digits b w m := by
  induction w generalizing n m with
  | zero =>
      have : m = 0 := by simpa using hm
      omega
  | succ w ih =>
      have hpos : 0 < b ^ w := Nat.pow_pos hb
      have hdm : m / b ^ w < b := Nat.div_lt_of_lt_mul (by simpa [pow_succ] using hm)
      have hdn : n / b ^ w ≤ m / b ^ w := Nat.div_le_div_right h.le
      simp only [digits, List.cons_lt_cons_iff]
      rw [Nat.mod_eq_of_lt hdm, Nat.mod_eq_of_lt (lt_of_le_of_lt hdn hdm)]
      rcases Nat.lt_or_eq_of_le hdn with hlt | heq
      · exact Or.inl hlt
      · -- equal leading digit: the remainders decide
        right
        refine ⟨heq, ?_⟩
        have hn := Nat.div_add_mod n (b ^ w)
        have hm' := Nat.div_add_mod m (b ^ w)
        rw [heq] at hn
        have hmod : n % b ^ w < m % b ^ w := by omega
        have := ih (Nat.mod_lt m hpos) hmod
        rwa [digits_mod, digits_mod] at this

theorem digits_injOn {b : Nat} (hb : 0 < b) {w n m : Nat} (hn : n < b ^ w) (hm : m < b ^ w)
    (h : digits b w n = digits b w m) : n = m := by
  rcases Nat.lt_trichotomy n m with hlt | heq | hgt
  · exact absurd h (ne_of_lt (digits_lt_digits hb hm hlt))
  · exact heq
  · exact absurd h.symm (ne_of_lt (digits_lt_digits hb hn hgt))

/-! ## Digit characters -/

theorem digitChar_lt_digitChar {d e : Nat} (he : e < 10) (h : d < e) :
    d.digitChar < e.digitChar := by
  have : ∀ e < 10, ∀ d < e, d.digitChar < e.digitChar := by decide
  exact this e he d h

theorem digitChar_injOn {d e : Nat} (hd : d < 16) (he : e < 16)
    (h : d.digitChar = e.digitChar) : d = e := by
  have : ∀ d < 16, ∀ e < 16, d.digitChar = e.digitChar → d = e := by decide
  exact this d hd e he h

/-- Up to base sixteen, numbers that fit the width have different numerals. -/
theorem chars_injOn {b : Nat} (hb : 0 < b) (hb' : b ≤ 16) {w n m : Nat} (hn : n < b ^ w)
    (hm : m < b ^ w) (h : chars b w n = chars b w m) : n = m := by
  have cancel : ∀ ds es : List Nat, (∀ d ∈ ds, d < 16) → (∀ e ∈ es, e < 16) →
      ds.map Nat.digitChar = es.map Nat.digitChar → ds = es := by
    intro ds
    induction ds with
    | nil =>
        intro es _ _ heq
        exact (List.map_eq_nil_iff.mp heq.symm).symm
    | cons d ds ih =>
        intro es hds hes heq
        cases es with
        | nil => simp at heq
        | cons e es =>
            obtain ⟨hde, hrest⟩ := List.cons.inj heq
            rw [digitChar_injOn (hds d (by simp)) (hes e (by simp)) hde,
              ih es (fun x hx => hds x (by simp [hx])) (fun x hx => hes x (by simp [hx])) hrest]
  have below : ∀ k, ∀ d ∈ digits b w k, d < 16 :=
    fun k d hd => lt_of_lt_of_le (digits_lt hb w k d hd) hb'
  exact digits_injOn hb hn hm (cancel _ _ (below n) (below m) h)

/-- Decimal texts of the same width are ordered as the numbers are. -/
theorem chars_lt_chars {w n m : Nat} (hm : m < 10 ^ w) (h : n < m) :
    chars 10 w n < chars 10 w m := by
  have mono : ∀ ds es : List Nat, (∀ e ∈ es, e < 10) → ds < es →
      ds.map Nat.digitChar < es.map Nat.digitChar := by
    intro ds
    induction ds with
    | nil =>
        intro es _ hlt
        cases es with
        | nil => exact absurd hlt (List.lt_irrefl _)
        | cons e es => simp
    | cons d ds ih =>
        intro es hes hlt
        cases es with
        | nil => exact absurd hlt (by simp)
        | cons e es =>
            simp only [List.map_cons, List.cons_lt_cons_iff] at hlt ⊢
            rcases hlt with hlt | ⟨rfl, hlt⟩
            · exact Or.inl (digitChar_lt_digitChar (hes e (by simp)) hlt)
            · exact Or.inr ⟨rfl, ih es (fun x hx => hes x (by simp [hx])) hlt⟩
  exact mono _ _ (digits_lt (by omega) w m) (digits_lt_digits (by omega) hm h)

/-! ## Texts of equal length -/

/-- Comparing two concatenations whose first parts have the same length. -/
theorem append_lt_append_iff {α : Type} [LT α] {a a' b b' : List α}
    (h : a.length = a'.length) : a ++ b < a' ++ b' ↔ a < a' ∨ a = a' ∧ b < b' := by
  induction a generalizing a' with
  | nil =>
      have : a' = [] := List.length_eq_zero_iff.mp h.symm
      subst this
      simp
  | cons x xs ih =>
      cases a' with
      | nil => simp at h
      | cons y ys =>
          simp only [List.cons_append, List.cons_lt_cons_iff, List.cons.injEq,
            ih (Nat.succ.inj h)]
          constructor
          · rintro (hlt | ⟨rfl, hlt | ⟨rfl, hb⟩⟩)
            · exact Or.inl (Or.inl hlt)
            · exact Or.inl (Or.inr ⟨rfl, hlt⟩)
            · exact Or.inr ⟨⟨rfl, rfl⟩, hb⟩
          · rintro ((hlt | ⟨rfl, hlt⟩) | ⟨⟨rfl, rfl⟩, hb⟩)
            · exact Or.inl hlt
            · exact Or.inr ⟨rfl, Or.inl hlt⟩
            · exact Or.inr ⟨rfl, Or.inr ⟨rfl, hb⟩⟩

/-- Comparing two texts that begin with a number of `w` digits: by the numbers,
and where these are the same by what follows. -/
theorem field_lt_iff {w n m : Nat} {rest rest' : List Char} (hn : n < 10 ^ w) (hm : m < 10 ^ w) :
    chars 10 w n ++ rest < chars 10 w m ++ rest' ↔ n < m ∨ n = m ∧ rest < rest' := by
  have hinj : chars 10 w n = chars 10 w m ↔ n = m :=
    ⟨chars_injOn (by omega) (by omega) hn hm, fun h => by rw [h]⟩
  rw [append_lt_append_iff (by simp), hinj]
  constructor
  · rintro (hlt | heq)
    · -- the numbers in any other order would contradict `hlt`
      rcases Nat.lt_trichotomy n m with h | h | h
      · exact Or.inl h
      · rw [h] at hlt
        exact absurd hlt (List.lt_irrefl _)
      · exact absurd hlt (List.lt_asymm (chars_lt_chars hn h))
    · exact Or.inr heq
  · rintro (hlt | heq)
    · exact Or.inl (chars_lt_chars hm hlt)
    · exact Or.inr heq

end Numeral
