import Mathlib.Data.List.Sort

/-! # JSON texts

A JSON value has many texts. Two of them are printed by widely used software
and differ only in layout: the compact form (no blanks, members in the order of
the map) and the form PostgreSQL gives a `jsonb` column when it is cast to text
(a blank after each `,` and `:`, members reordered by key length, numbers
rewritten as `numeric`). Both come from one printer, parameterised by `Style`.

`compact_ne_jsonb`: on an object with at least one member the two texts are
never the same.
-/

namespace Json

/-- Not a control character. -/
def Printable (c : Char) : Prop := 0x20 ≤ c.toNat

instance (c : Char) : Decidable (Printable c) :=
  Nat.decLe 0x20 c.toNat

/-- A number, known by the decimal text it is printed as. -/
structure Number where
  text : String
  starts : ∃ c cs, text.toList = c :: cs ∧ (c = '-' ∨ c.isDigit)
  printable : ∀ c ∈ text.toList, Printable c

/-- An integer. -/
def Number.ofInt (n : Int) : Number where
  text := String.ofList ((if n < 0 then ['-'] else []) ++ Nat.toDigits 10 n.natAbs)
  starts := by
    rcases List.exists_cons_of_ne_nil (Nat.toDigits_ne_nil (n := n.natAbs) (b := 10)) with
      ⟨c, cs, h⟩
    have hc : c.isDigit :=
      Nat.isDigit_of_mem_toDigits (b := 10) (n := n.natAbs) (by omega) (by omega) (by simp [h])
    by_cases hn : n < 0
    · exact ⟨'-', Nat.toDigits 10 n.natAbs, by simp [hn], Or.inl rfl⟩
    · exact ⟨c, cs, by simp [hn, h], Or.inr hc⟩
  printable := by
    intro c hc
    rw [String.toList_ofList, List.mem_append] at hc
    rcases hc with hc | hc
    · split_ifs at hc
      · rcases List.mem_singleton.mp hc with rfl
        decide
      · simp at hc
    · have hdigit := Nat.isDigit_of_mem_toDigits (by omega) (by omega) hc
      simp only [Char.isDigit, Bool.and_eq_true, decide_eq_true_eq] at hdigit
      exact le_trans (by decide) (UInt32.le_iff_toNat_le.mp hdigit.1)

/-- A JSON value; the members of an object are listed in the order of its map. -/
inductive Value where
  | null
  | bool (b : Bool)
  | number (n : Number)
  | string (s : String)
  | array (items : List Value)
  | object (members : List (String × Value))

/-- What distinguishes one text form from another. -/
structure Style where
  comma : List Char
  colon : List Char
  order : List (String × List Char) → List (String × List Char)
  number : Number → Number

/-- A character inside a string literal. -/
def escapeChar (c : Char) : List Char :=
  if c = '"' then ['\\', '"']
  else if c = '\\' then ['\\', '\\']
  else if c = '\x08' then ['\\', 'b']
  else if c = '\x0c' then ['\\', 'f']
  else if c = '\n' then ['\\', 'n']
  else if c = '\r' then ['\\', 'r']
  else if c = '\t' then ['\\', 't']
  else if c.toNat < 0x20 then
    ['\\', 'u', '0', '0', (c.toNat / 16).digitChar, (c.toNat % 16).digitChar]
  else [c]

/-- A string literal without its opening quote. -/
def literalTail (s : String) : List Char :=
  s.toList.flatMap escapeChar ++ ['"']

/-- A string literal. -/
def quote (s : String) : List Char :=
  '"' :: literalTail s

def sepBy (sep : List Char) (parts : List (List Char)) : List Char :=
  (parts.intersperse sep).flatten

/-- An object, from its keys and the texts of its members. -/
def objectChars (st : Style) (members : List (String × List Char)) : List Char :=
  '{' :: sepBy st.comma (members.map fun m => quote m.1 ++ st.colon ++ m.2) ++ ['}']

mutual

/-- The text of a value. -/
def Value.chars (st : Style) : Value → List Char
  | .null => "null".toList
  | .bool true => "true".toList
  | .bool false => "false".toList
  | .number n => (st.number n).text.toList
  | .string s => quote s
  | .array items => '[' :: sepBy st.comma (itemChars st items) ++ [']']
  | .object members => objectChars st (st.order (memberChars st members))

def itemChars (st : Style) : List Value → List (List Char)
  | [] => []
  | v :: vs => v.chars st :: itemChars st vs

def memberChars (st : Style) : List (String × Value) → List (String × List Char)
  | [] => []
  | (k, v) :: ms => (k, v.chars st) :: memberChars st ms

end

/-- No blanks, members in map order. -/
def compact : Style where
  comma := [',']
  colon := [':']
  order := id
  number := id

/-- The order in which `jsonb` keeps the keys of an object. -/
def jsonbKeyLe (a b : String) : Prop :=
  a.utf8ByteSize < b.utf8ByteSize ∨ (a.utf8ByteSize = b.utf8ByteSize ∧ a ≤ b)

instance (a b : String) : Decidable (jsonbKeyLe a b) :=
  inferInstanceAs (Decidable (_ ∨ _))

/-- The text of a `jsonb` value; `numeric` is how the database prints a number
it has read. -/
def jsonb (numeric : Number → Number) : Style where
  comma := [',', ' ']
  colon := [':', ' ']
  order := List.insertionSort fun a b => jsonbKeyLe a.1 b.1
  number := numeric

/-- The text of a value as a string. -/
def Value.text (st : Style) (v : Value) : String :=
  String.ofList (v.chars st)

/-! ## Skipping a literal -/

/-- What follows the first unescaped quote. -/
def afterQuote : List Char → List Char
  | [] => []
  | '\\' :: _ :: cs => afterQuote cs
  | c :: cs => if c = '"' then cs else afterQuote cs

theorem afterQuote_escaped (c : Char) (cs : List Char) :
    afterQuote ('\\' :: c :: cs) = afterQuote cs := by
  rw [afterQuote]

theorem afterQuote_plain {c : Char} (hq : c ≠ '"') (hb : c ≠ '\\') (cs : List Char) :
    afterQuote (c :: cs) = afterQuote cs := by
  rw [afterQuote, if_neg hq]
  intro _ _ h
  exact absurd h hb

theorem digitChar_plain {d : Nat} (h : d < 16) : d.digitChar ≠ '"' ∧ d.digitChar ≠ '\\' := by
  have : ∀ d < 16, d.digitChar ≠ '"' ∧ d.digitChar ≠ '\\' := by decide
  exact this d h

theorem afterQuote_escapeChar (c : Char) (cs : List Char) :
    afterQuote (escapeChar c ++ cs) = afterQuote cs := by
  by_cases hq : c = '"'
  · simp [escapeChar, hq, afterQuote_escaped]
  by_cases hb : c = '\\'
  · simp [escapeChar, hb, afterQuote_escaped]
  simp only [escapeChar, if_neg hq, if_neg hb]
  split_ifs with h3 h4 h5 h6 h7 hctrl
  any_goals exact afterQuote_escaped _ cs
  · -- a control character: five plain characters follow the backslash
    have hhi := digitChar_plain (d := c.toNat / 16) (by omega)
    have hlo := digitChar_plain (d := c.toNat % 16) (by omega)
    simp only [List.cons_append, List.nil_append]
    rw [afterQuote_escaped, afterQuote_plain (by decide) (by decide),
      afterQuote_plain (by decide) (by decide), afterQuote_plain hhi.1 hhi.2,
      afterQuote_plain hlo.1 hlo.2]
  · exact afterQuote_plain hq hb cs

/-- A literal is skipped up to its own closing quote, whatever it spells. -/
theorem afterQuote_literalTail (s : String) (cs : List Char) :
    afterQuote (literalTail s ++ cs) = cs := by
  have aux : ∀ l : List Char, afterQuote (l.flatMap escapeChar ++ '"' :: cs) = cs := by
    intro l
    induction l with
    | nil => rfl
    | cons c l ih =>
        rw [List.flatMap_cons, List.append_assoc, afterQuote_escapeChar, ih]
  simpa [literalTail] using aux s.toList

/-! ## No control characters

Both forms escape them, so a text never contains one. -/

theorem digitChar_printable {d : Nat} (h : d < 16) : Printable d.digitChar := by
  have : ∀ d < 16, Printable d.digitChar := by decide
  exact this d h

/-- A literal list is checked character by character. -/
theorem printable_of_all {l : List Char} (h : l.all fun c => decide (Printable c)) :
    ∀ c ∈ l, Printable c := by
  simpa using h

theorem escapeChar_printable (c : Char) : ∀ x ∈ escapeChar c, Printable x := by
  unfold escapeChar
  split_ifs with h1 h2 h3 h4 h5 h6 h7 hctrl
  any_goals (apply printable_of_all; decide)
  · have hhi := digitChar_printable (d := c.toNat / 16) (by omega)
    have hlo := digitChar_printable (d := c.toNat % 16) (by omega)
    have hfix : Printable '\\' ∧ Printable 'u' ∧ Printable '0' := by decide
    simp [hhi, hlo, hfix]
  · intro x hx
    rw [List.mem_singleton.mp hx]
    exact Nat.le_of_not_lt hctrl

theorem quote_printable (s : String) : ∀ c ∈ quote s, Printable c := by
  intro c hc
  have hq : Printable '"' := by decide
  simp only [quote, literalTail, List.mem_cons, List.mem_append, List.mem_flatMap,
    List.not_mem_nil, or_false] at hc
  rcases hc with rfl | ⟨a, -, ha⟩ | rfl
  · exact hq
  · exact escapeChar_printable a c ha
  · exact hq

theorem sepBy_printable {sep : List Char} {parts : List (List Char)}
    (hsep : ∀ c ∈ sep, Printable c) (hparts : ∀ part ∈ parts, ∀ c ∈ part, Printable c) :
    ∀ c ∈ sepBy sep parts, Printable c := by
  induction parts with
  | nil => intro c hc; cases hc
  | cons part parts ih =>
      intro c hc
      cases parts with
      | nil =>
          have hc' : c ∈ part := by simpa [sepBy] using hc
          exact hparts part (by simp) c hc'
      | cons p ps =>
          have hc' : c ∈ part ∨ c ∈ sep ∨ c ∈ sepBy sep (p :: ps) := by
            simpa [sepBy, List.intersperse_cons_cons] using hc
          rcases hc' with h | h | h
          · exact hparts part (by simp) c h
          · exact hsep c h
          · exact ih (fun q hq => hparts q (by simp [hq])) c h

/-- What a style must satisfy for its texts to be free of control characters. -/
structure Style.Printable (st : Style) : Prop where
  comma : ∀ c ∈ st.comma, Json.Printable c
  colon : ∀ c ∈ st.colon, Json.Printable c
  order : ∀ l, ∀ m ∈ st.order l, m ∈ l

theorem compact_printable : compact.Printable where
  comma := printable_of_all (by decide)
  colon := printable_of_all (by decide)
  order := fun _ _ h => h

theorem jsonb_printable (numeric : Number → Number) : (jsonb numeric).Printable where
  comma := printable_of_all (l := [',', ' ']) (by decide)
  colon := printable_of_all (l := [':', ' ']) (by decide)
  order := fun _ _ h => (List.mem_insertionSort _).mp h

mutual

theorem chars_printable {st : Style} (h : st.Printable) :
    ∀ v : Value, ∀ c ∈ v.chars st, Printable c
  | .null => by simp only [Value.chars]; exact printable_of_all (by decide)
  | .bool true => by simp only [Value.chars]; exact printable_of_all (by decide)
  | .bool false => by simp only [Value.chars]; exact printable_of_all (by decide)
  | .number n => by
      simp only [Value.chars]
      exact (st.number n).printable
  | .string s => by
      simp only [Value.chars]
      exact quote_printable s
  | .array items => by
      have hitems := sepBy_printable h.comma (itemChars_printable h items)
      have hbr : Printable '[' ∧ Printable ']' := by decide
      intro c hc
      simp only [Value.chars, List.mem_append, List.mem_cons, List.not_mem_nil, or_false] at hc
      rcases hc with (rfl | hc) | rfl
      · exact hbr.1
      · exact hitems c hc
      · exact hbr.2
  | .object members => by
      have hparts : ∀ part ∈ (st.order (memberChars st members)).map
          (fun m => quote m.1 ++ st.colon ++ m.2), ∀ c ∈ part, Printable c := by
        intro part hpart c hc
        obtain ⟨m, hm, rfl⟩ := List.mem_map.mp hpart
        simp only [List.mem_append] at hc
        rcases hc with (hc | hc) | hc
        · exact quote_printable m.1 c hc
        · exact h.colon c hc
        · exact memberChars_printable h members m (h.order _ m hm) c hc
      have hbr : Printable '{' ∧ Printable '}' := by decide
      intro c hc
      simp only [Value.chars, objectChars, List.mem_append, List.mem_cons, List.not_mem_nil,
        or_false] at hc
      rcases hc with (rfl | hc) | rfl
      · exact hbr.1
      · exact sepBy_printable h.comma hparts c hc
      · exact hbr.2

theorem itemChars_printable {st : Style} (h : st.Printable) :
    ∀ vs : List Value, ∀ part ∈ itemChars st vs, ∀ c ∈ part, Printable c
  | [] => by simp [itemChars]
  | v :: vs => by
      intro part hpart
      rcases List.mem_cons.mp (by simpa only [itemChars] using hpart) with rfl | hpart'
      · exact chars_printable h v
      · exact itemChars_printable h vs part hpart'

theorem memberChars_printable {st : Style} (h : st.Printable) :
    ∀ ms : List (String × Value), ∀ m ∈ memberChars st ms, ∀ c ∈ m.2, Printable c
  | [] => by simp [memberChars]
  | (k, v) :: ms => by
      intro m hm
      rcases List.mem_cons.mp (by simpa only [memberChars] using hm) with rfl | hm'
      · exact chars_printable h v
      · exact memberChars_printable h ms m hm'

end

/-- The text of a value contains no control character. -/
theorem text_printable {st : Style} (h : st.Printable) (v : Value) :
    ∀ c ∈ (v.text st).toList, Printable c := by
  simpa [Value.text] using chars_printable h v

/-! ## The two forms differ -/

/-- A compact text does not start with a blank. -/
theorem compact_head (v : Value) : ∃ c cs, v.chars compact = c :: cs ∧ c ≠ ' ' := by
  cases v with
  | null => exact ⟨_, _, rfl, by decide⟩
  | bool b => cases b <;> exact ⟨_, _, rfl, by decide⟩
  | number n =>
      obtain ⟨c, cs, hc, hstart⟩ := n.starts
      refine ⟨c, cs, by simpa [Value.chars, compact] using hc, ?_⟩
      rintro rfl
      revert hstart
      decide
  | string s => exact ⟨_, _, rfl, by decide⟩
  | array items => exact ⟨'[', _, rfl, by decide⟩
  | object members => exact ⟨'{', _, rfl, by decide⟩

theorem sepBy_cons (sep part : List Char) (parts : List (List Char)) :
    ∃ rest, sepBy sep (part :: parts) = part ++ rest := by
  cases parts with
  | nil => exact ⟨[], by simp [sepBy]⟩
  | cons p ps =>
      exact ⟨sep ++ sepBy sep (p :: ps), by simp [sepBy, List.intersperse_cons_cons]⟩

theorem objectChars_cons (st : Style) (m : String × List Char)
    (ms : List (String × List Char)) :
    ∃ rest, objectChars st (m :: ms) =
      '{' :: '"' :: (literalTail m.1 ++ (st.colon ++ (m.2 ++ rest))) := by
  obtain ⟨rest, hrest⟩ := sepBy_cons st.comma (quote m.1 ++ st.colon ++ m.2)
    (ms.map fun m => quote m.1 ++ st.colon ++ m.2)
  exact ⟨rest ++ ['}'], by rw [objectChars, List.map_cons, hrest]; simp [quote]⟩

/-- An object without members is printed the same way in every form. -/
theorem chars_empty_object (numeric : Number → Number) :
    (Value.object []).chars compact = (Value.object []).chars (jsonb numeric) := rfl

/-- **The two forms never agree on an object with a member**: behind the first
key the compact form goes on with the member's value, the other with a blank. -/
theorem compact_ne_jsonb (numeric : Number → Number) (m : String × Value)
    (ms : List (String × Value)) :
    (Value.object (m :: ms)).chars compact ≠ (Value.object (m :: ms)).chars (jsonb numeric) := by
  intro heq
  simp only [Value.chars, memberChars] at heq
  -- the reordered members are still not empty
  obtain ⟨m', ms', hsorted⟩ : ∃ m' ms', (jsonb numeric).order
      ((m.1, m.2.chars (jsonb numeric)) :: memberChars (jsonb numeric) ms) = m' :: ms' := by
    apply List.exists_cons_of_length_pos
    simp [jsonb, List.orderedInsert_length]
  obtain ⟨rest, hleft⟩ := objectChars_cons compact (m.1, m.2.chars compact) (memberChars compact ms)
  obtain ⟨rest', hright⟩ := objectChars_cons (jsonb numeric) m' ms'
  obtain ⟨c, cs, hc, hblank⟩ := compact_head m.2
  rw [hsorted, hright, show compact.order = id from rfl, id_eq, hleft] at heq
  have htails := congrArg afterQuote (List.cons.inj (List.cons.inj heq).2).2
  rw [afterQuote_literalTail, afterQuote_literalTail, hc] at htails
  have hhead : c = ' ' := (List.cons.inj (List.cons.inj htails).2).1
  exact hblank hhead

end Json
