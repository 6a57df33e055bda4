import AnatoliaBis.Lib.Digits

/-! # UUIDs and their texts

Identifiers of rows are version 4 UUIDs. The model takes an identifier to be a
number: the 128 bits of a UUID below `16 ^ 32`, and beyond that only what keeps
the supply of fresh identifiers unlimited. `text` is `Uuid::to_string`, which is
also what PostgreSQL prints for `id::text`; `parseStr` is `Uuid::parse_str`,
which accepts several other spellings.
-/

namespace AnatoliaBis

abbrev Uuid := Nat

namespace Uuid

/-- Thirty-two hexadecimal digits; more only for numbers that are no UUIDs. -/
def width (u : Uuid) : Nat := if u < 16 ^ 32 then 32 else u

def digits (u : Uuid) : List Char := Numeral.chars 16 (width u) u

/-- Groups of 8, 4, 4, 4 and 12 digits. -/
def hyphenate (ds : List Char) : List Char :=
  ds.take 8 ++ '-' :: ((ds.drop 8).take 4 ++ '-' :: ((ds.drop 12).take 4 ++
    '-' :: ((ds.drop 16).take 4 ++ '-' :: ds.drop 20)))

/-- `Uuid::to_string`. -/
def text (u : Uuid) : String := String.ofList (hyphenate (digits u))

/-! ## Parsing -/

def hexDigit? (c : Char) : Option Nat :=
  if '0' ≤ c ∧ c ≤ '9' then some (c.toNat - '0'.toNat)
  else if 'a' ≤ c ∧ c ≤ 'f' then some (c.toNat - 'a'.toNat + 10)
  else if 'A' ≤ c ∧ c ≤ 'F' then some (c.toNat - 'A'.toNat + 10)
  else none

def parseHexFrom : Nat → List Char → Option Nat
  | acc, [] => some acc
  | acc, c :: cs =>
      match hexDigit? c with
      | some d => parseHexFrom (acc * 16 + d) cs
      | none => none

/-- `parse_simple`: thirty-two digits. -/
def parseSimple (cs : List Char) : Option Uuid :=
  if cs.length = 32 then parseHexFrom 0 cs else none

/-- `parse_hyphenated`: thirty-six characters with hyphens in four places. -/
def parseHyphenated (cs : List Char) : Option Uuid :=
  if cs.length = 36 ∧ cs[8]? = some '-' ∧ cs[13]? = some '-' ∧ cs[18]? = some '-' ∧
      cs[23]? = some '-' then
    parseHexFrom 0 (cs.take 8 ++ ((cs.drop 9).take 4 ++ ((cs.drop 14).take 4 ++
      ((cs.drop 19).take 4 ++ cs.drop 24))))
  else none

/-- `Uuid::parse_str`: digits alone, hyphenated, hyphenated in braces or as a
URN. The crate branches on the number of bytes; every text it accepts is ASCII,
so counting characters comes to the same. -/
def parseStr (s : String) : Option Uuid :=
  let cs := s.toList
  if cs.length = 32 then parseSimple cs
  else if cs.length = 36 then parseHyphenated cs
  else if cs.length = 38 ∧ cs.head? = some '{' ∧ cs.getLast? = some '}' then
    parseHyphenated ((cs.drop 1).take 36)
  else if cs.length = 45 ∧ cs.take 9 = "urn:uuid:".toList then parseHyphenated (cs.drop 9)
  else none

/-! ## The text determines the identifier -/

theorem lt_width (u : Uuid) : u < 16 ^ width u := by
  unfold width
  split_ifs with h
  · exact h
  · exact Nat.lt_pow_self (by omega)

theorem width_of_lt {u : Uuid} (h : u < 16 ^ 32) : width u = 32 := if_pos h

/-- The five groups, put together again. -/
theorem groups (ds : List Char) :
    ds.take 8 ++ ((ds.drop 8).take 4 ++ ((ds.drop 12).take 4 ++ ((ds.drop 16).take 4 ++
      ds.drop 20))) = ds := by
  have h4 : (ds.drop 16).take 4 ++ ds.drop 20 = ds.drop 16 := by
    simpa [List.drop_drop] using List.take_append_drop 4 (ds.drop 16)
  have h3 : (ds.drop 12).take 4 ++ ds.drop 16 = ds.drop 12 := by
    simpa [List.drop_drop] using List.take_append_drop 4 (ds.drop 12)
  have h2 : (ds.drop 8).take 4 ++ ds.drop 12 = ds.drop 8 := by
    simpa [List.drop_drop] using List.take_append_drop 4 (ds.drop 8)
  rw [h4, h3, h2, List.take_append_drop]

/-- Dropping the hyphens gives the digits back. -/
theorem filter_hyphenate {ds : List Char} (h : '-' ∉ ds) :
    (hyphenate ds).filter (· != '-') = ds := by
  have keep : ∀ l : List Char, l ⊆ ds → l.filter (· != '-') = l := by
    intro l hl
    rw [List.filter_eq_self]
    intro c hc
    have hne : c ≠ '-' := fun he => h (he ▸ hl hc)
    simpa using hne
  have sub : ∀ i k, (ds.drop i).take k ⊆ ds := by
    intro i k c hc
    exact List.drop_subset i ds (List.take_subset k _ hc)
  simp only [hyphenate, List.filter_append, bne_self_eq_false, Bool.false_eq_true,
    not_false_eq_true, List.filter_cons_of_neg, keep _ (List.take_subset 8 ds), keep _ (sub 8 4),
    keep _ (sub 12 4), keep _ (sub 16 4), keep _ (List.drop_subset 20 ds)]
  exact groups ds

theorem hexDigit?_digitChar {d : Nat} (h : d < 16) : hexDigit? d.digitChar = some d := by
  have : ∀ d < 16, hexDigit? d.digitChar = some d := by decide
  exact this d h

theorem parseHexFrom_chars (acc w n : Nat) :
    parseHexFrom acc (Numeral.chars 16 w n) = some (acc * 16 ^ w + n % 16 ^ w) := by
  induction w generalizing acc with
  | zero => simp [Numeral.chars, Numeral.digits, parseHexFrom, Nat.mod_one]
  | succ w ih =>
      have hd := hexDigit?_digitChar (Nat.mod_lt (n / 16 ^ w) (by omega : 16 > 0))
      have hstep : parseHexFrom acc (Numeral.chars 16 (w + 1) n) =
          parseHexFrom (acc * 16 + n / 16 ^ w % 16) (Numeral.chars 16 w n) := by
        simp only [Numeral.chars, Numeral.digits, List.map_cons, parseHexFrom, hd]
      rw [hstep, ih, Nat.mod_pow_succ]
      congr 1
      ring

theorem parseHexFrom_digits (u : Uuid) : parseHexFrom 0 (digits u) = some u := by
  rw [digits, parseHexFrom_chars, Nat.mod_eq_of_lt (lt_width u)]
  simp

theorem hyphen_notMem_digits (u : Uuid) : '-' ∉ digits u := by
  intro h
  obtain ⟨d, hd, hch⟩ := List.mem_map.mp h
  have hlt := Numeral.digits_lt (by omega : 0 < 16) _ _ d hd
  have : ∀ d < 16, d.digitChar ≠ '-' := by decide
  exact this d hlt hch

/-- Different identifiers have different texts. -/
theorem text_injective : Function.Injective text := by
  intro u v h
  have hds : digits u = digits v := by
    rw [← filter_hyphenate (hyphen_notMem_digits u), ← filter_hyphenate (hyphen_notMem_digits v),
      String.ofList_injective h]
  have huv := parseHexFrom_digits u
  rw [hds, parseHexFrom_digits] at huv
  exact (Option.some.inj huv).symm

/-- A text consists of hexadecimal digits and hyphens. -/
theorem mem_text {u : Uuid} {c : Char} (h : c ∈ (text u).toList) :
    c = '-' ∨ ∃ d < 16, c = d.digitChar := by
  have hdigit : ∀ x ∈ digits u, ∃ d < 16, x = d.digitChar := by
    intro x hx
    obtain ⟨d, hd, rfl⟩ := List.mem_map.mp hx
    exact ⟨d, Numeral.digits_lt (by omega) _ _ d hd, rfl⟩
  simp only [text, String.toList_ofList, hyphenate, List.mem_append, List.mem_cons] at h
  rcases h with h | rfl | h | rfl | h | rfl | h | rfl | h
  · exact Or.inr (hdigit c (List.take_subset _ _ h))
  · exact Or.inl rfl
  · exact Or.inr (hdigit c (List.drop_subset _ _ (List.take_subset _ _ h)))
  · exact Or.inl rfl
  · exact Or.inr (hdigit c (List.drop_subset _ _ (List.take_subset _ _ h)))
  · exact Or.inl rfl
  · exact Or.inr (hdigit c (List.drop_subset _ _ (List.take_subset _ _ h)))
  · exact Or.inl rfl
  · exact Or.inr (hdigit c (List.drop_subset _ _ h))

/-! ## Parsing a canonical text -/

theorem length_hyphenate {ds : List Char} (h : ds.length = 32) : (hyphenate ds).length = 36 := by
  simp [hyphenate, h]

theorem parseHyphenated_hyphenate {ds : List Char} (h : ds.length = 32) :
    parseHyphenated (hyphenate ds) = parseHexFrom 0 ds := by
  -- name the groups, so that every cut falls on the end of one of them
  obtain ⟨a, ha⟩ : ∃ a, ds.take 8 = a := ⟨_, rfl⟩
  obtain ⟨b, hb⟩ : ∃ b, (ds.drop 8).take 4 = b := ⟨_, rfl⟩
  obtain ⟨c, hc⟩ : ∃ c, (ds.drop 12).take 4 = c := ⟨_, rfl⟩
  obtain ⟨d, hd⟩ : ∃ d, (ds.drop 16).take 4 = d := ⟨_, rfl⟩
  obtain ⟨e, he⟩ : ∃ e, ds.drop 20 = e := ⟨_, rfl⟩
  have la : a.length = 8 := by rw [← ha]; simp [h]
  have lb : b.length = 4 := by rw [← hb]; simp [h]
  have lc : c.length = 4 := by rw [← hc]; simp [h]
  have ld : d.length = 4 := by rw [← hd]; simp [h]
  have le : e.length = 12 := by rw [← he]; simp [h]
  have hds := groups ds
  rw [ha, hb, hc, hd, he] at hds
  rw [hyphenate, ha, hb, hc, hd, he, ← hds]
  have hcond : ∀ l : List Char, ('-' :: l)[0]? = some '-' := fun _ => rfl
  simp (disch := omega) [parseHyphenated, List.drop_append, List.drop_of_length_le,
    List.getElem?_append_right, la, lb, lc, ld, le, hcond]

/-- A canonical text is read back as the identifier it spells. -/
theorem parseStr_text {u : Uuid} (h : u < 16 ^ 32) : parseStr (text u) = some u := by
  have hds : (digits u).length = 32 := by simp [digits, width_of_lt h]
  have hlen := length_hyphenate hds
  rw [parseStr, text]
  simp only [String.toList_ofList, hlen]
  rw [if_neg (by omega), if_pos trivial, parseHyphenated_hyphenate hds, parseHexFrom_digits]

/-- A canonical text is read back as nothing else. -/
theorem eq_of_parseStr_text {u v : Uuid} (h : parseStr (text v) = some u) : u = v := by
  by_cases hv : v < 16 ^ 32
  · rw [parseStr_text hv] at h
    exact (Option.some.inj h).symm
  · -- more digits than any accepted spelling has
    exfalso
    have hlen : (text v).toList.length = v + 4 := by
      have hds : (digits v).length = v := by
        rw [digits, Numeral.length_chars, width, if_neg hv]
      simp only [text, String.toList_ofList, hyphenate, List.length_append, List.length_cons,
        List.length_take, List.length_drop, hds]
      omega
    have hbig : ∀ n < 16 ^ 32, v + 4 ≠ n := by
      intro n hn he
      have hle : v ≤ n := he ▸ Nat.le_add_right v 4
      exact hv (hle.trans_lt hn)
    unfold parseStr at h
    simp only [hlen] at h
    rw [if_neg (hbig 32 (by norm_num)), if_neg (hbig 36 (by norm_num)),
      if_neg fun hc => hbig 38 (by norm_num) hc.1,
      if_neg fun hc => hbig 45 (by norm_num) hc.1] at h
    cases h

theorem hexDigit?_lt {c : Char} {d : Nat} (h : hexDigit? c = some d) : d < 16 := by
  have le_toNat : ∀ {x y : Char}, x ≤ y → x.toNat ≤ y.toNat := fun hxy => hxy
  unfold hexDigit? at h
  split_ifs at h with h1 h2 h3
  · have := le_toNat h1.2
    simp at h this
    omega
  · have := le_toNat h2.2
    simp at h this
    omega
  · have := le_toNat h3.2
    simp at h this
    omega

theorem parseHexFrom_lt {acc n : Nat} {cs : List Char} (h : parseHexFrom acc cs = some n) :
    n < (acc + 1) * 16 ^ cs.length := by
  induction cs generalizing acc with
  | nil =>
      have : acc = n := by simpa [parseHexFrom] using h
      simp [this]
  | cons c cs ih =>
      unfold parseHexFrom at h
      split at h
      next d hd =>
        have hn := ih h
        have hle : (acc * 16 + d + 1) * 16 ^ cs.length ≤ (acc + 1) * 16 * 16 ^ cs.length :=
          Nat.mul_le_mul_right _ (by have := hexDigit?_lt hd; omega)
        rw [List.length_cons, pow_succ]
        calc n < (acc * 16 + d + 1) * 16 ^ cs.length := hn
          _ ≤ (acc + 1) * 16 * 16 ^ cs.length := hle
          _ = (acc + 1) * (16 ^ cs.length * 16) := by ring
      next => cases h

/-- Whatever is accepted is a UUID. -/
theorem parseStr_lt {s : String} {u : Uuid} (h : parseStr s = some u) : u < 16 ^ 32 := by
  have simple : ∀ {cs : List Char}, parseSimple cs = some u → u < 16 ^ 32 := by
    intro cs hs
    unfold parseSimple at hs
    split_ifs at hs with hlen
    simpa [hlen] using parseHexFrom_lt hs
  have hyphenated : ∀ {cs : List Char}, parseHyphenated cs = some u → u < 16 ^ 32 := by
    intro cs hs
    unfold parseHyphenated at hs
    split_ifs at hs with hlen
    simpa [hlen.1] using parseHexFrom_lt hs
  unfold parseStr at h
  dsimp only at h
  split_ifs at h
  · exact simple h
  all_goals exact hyphenated h

end Uuid

end AnatoliaBis
