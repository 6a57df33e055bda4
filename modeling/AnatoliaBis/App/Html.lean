import AnatoliaBis.App.Types
import AnatoliaBis.Lib.Escape

/-! # Text in pages and mails

`email::escape_html` replaces five characters one after the other over the whole text, the
ampersand first. No entity holds a character that is replaced after it, so that is the same
as escaping every character by itself.
-/

namespace AnatoliaBis.App

/-- The replacements of `escape_html`, in its order. -/
def htmlEscapes : List (Char × List Char) :=
  [('&', "&amp;".toList), ('<', "&lt;".toList), ('>', "&gt;".toList), ('"', "&quot;".toList),
    ('\'', "&#39;".toList)]

/-- The entities that take the place of a character. -/
def htmlEntities : List String := ["&amp;", "&lt;", "&gt;", "&quot;", "&#39;"]

/-- The escape of a single character. -/
def escapeChar (c : Char) : String :=
  if c = '&' then "&amp;"
  else if c = '<' then "&lt;"
  else if c = '>' then "&gt;"
  else if c = '"' then "&quot;"
  else if c = '\'' then "&#39;"
  else String.ofList [c]

theorem escapeHtml_eq_replaceAll (value : String) :
    escapeHtml value = String.ofList (Escape.replaceAll htmlEscapes value.toList) := rfl

theorem escapeChar_eq_word (c : Char) : (escapeChar c).toList = Escape.word htmlEscapes c := by
  unfold escapeChar Escape.word htmlEscapes
  simp only [Escape.word]
  split_ifs <;> first | rfl | exact String.toList_ofList

theorem htmlEscapes_settled : Escape.Settled htmlEscapes := by decide

/-- An entity starts with an ampersand, and has no other. -/
theorem entity_shape : ∀ e ∈ htmlEscapes, String.ofList e.2 ∈ htmlEntities ∧
    ∃ rest, e.2 = '&' :: rest ∧ '&' ∉ rest := by
  intro e he
  have hshape : ∀ e ∈ htmlEscapes, String.ofList e.2 ∈ htmlEntities ∧
      e.2 = '&' :: e.2.tail ∧ '&' ∉ e.2.tail := by decide
  obtain ⟨hentity, hcons, htail⟩ := hshape e he
  exact ⟨hentity, e.2.tail, hcons, htail⟩

/-- No character's escape is a prefix of another's. -/
theorem word_prefixFree : Escape.PrefixFree (Escape.word htmlEscapes) := by
  have hentities : ∀ e ∈ htmlEscapes, ∀ e' ∈ htmlEscapes, e.2 <+: e'.2 → e.1 = e'.1 := by decide
  have hamp : ∃ e ∈ htmlEscapes, e.1 = '&' := ⟨_, List.mem_cons_self, rfl⟩
  intro x y h
  rcases Escape.word_cases htmlEscapes x with ⟨e, he, hx, hwx⟩ | ⟨hx, hwx⟩
  · obtain ⟨-, rest, hamp', -⟩ := entity_shape e he
    rcases Escape.word_cases htmlEscapes y with ⟨e', he', hy, hwy⟩ | ⟨hy, hwy⟩
    · rw [hwx, hwy] at h
      exact hx.symm.trans ((hentities e he e' he' h).trans hy)
    · -- an entity is no prefix of a character that stays
      rw [hwx, hwy, hamp', List.cons_prefix_cons] at h
      obtain ⟨e', he', hkey⟩ := hamp
      exact absurd (hkey.trans h.1) (hy e' he')
  · rcases Escape.word_cases htmlEscapes y with ⟨e', he', hy, hwy⟩ | ⟨hy, hwy⟩
    · obtain ⟨-, rest, hamp', -⟩ := entity_shape e' he'
      rw [hwx, hwy, hamp', List.cons_prefix_cons] at h
      obtain ⟨e, he, hkey⟩ := hamp
      exact absurd (hkey.trans h.1.symm) (hx e he)
    · rw [hwx, hwy, List.cons_prefix_cons] at h
      exact h.1

theorem word_ne_nil (c : Char) : Escape.word htmlEscapes c ≠ [] := by
  intro hnil
  rcases Escape.word_cases htmlEscapes c with ⟨e, he, -, hword⟩ | ⟨-, hword⟩
  · obtain ⟨-, rest, hcons, -⟩ := entity_shape e he
    rw [hword, hcons] at hnil
    cases hnil
  · rw [hword] at hnil
    cases hnil

theorem toList_escapeHtml (value : String) :
    (escapeHtml value).toList = value.toList.flatMap (Escape.word htmlEscapes) := by
  rw [escapeHtml_eq_replaceAll, String.toList_ofList, Escape.replaceAll_eq htmlEscapes_settled]

/-- **Escaping a text is escaping its characters.** What comes out holds none of the
characters that HTML reads, each ampersand in it begins an entity, and the text can be told
from it. -/
theorem escapeHtml_exact :
    (∀ value : String, (escapeHtml value).toList =
      value.toList.flatMap fun c => (escapeChar c).toList) ∧
    (∀ value : String, ∀ c ∈ ['<', '>', '"', '\''], c ∉ (escapeHtml value).toList) ∧
    (∀ (value : String) (before after : List Char),
      (escapeHtml value).toList = before ++ '&' :: after →
        ∃ entity ∈ htmlEntities, entity.toList <+: '&' :: after) ∧
    Function.Injective escapeHtml := by
  refine ⟨?_, ?_, ?_, ?_⟩
  · intro value
    have hword : (fun c => (escapeChar c).toList) = Escape.word htmlEscapes :=
      funext escapeChar_eq_word
    rw [toList_escapeHtml, hword]
  · intro value c hc
    have htable : ∀ c ∈ ['<', '>', '"', '\''],
        (∃ e ∈ htmlEscapes, e.1 = c) ∧ ∀ e ∈ htmlEscapes, c ∉ e.2 := by simp [htmlEscapes]
    rw [toList_escapeHtml]
    exact Escape.notMem_flatMap_word (htable c hc).1 (htable c hc).2 _
  · intro value before after h
    rw [toList_escapeHtml] at h
    obtain ⟨x, -, start, rest, hword, hrest⟩ := Escape.exists_word_of_flatMap_eq h
    rcases Escape.word_cases htmlEscapes x with ⟨e, he, -, hx⟩ | ⟨hkeys, hx⟩
    · -- the ampersand is the one at the head of the entity
      obtain ⟨hentity, tail, hcons, htail⟩ := entity_shape e he
      rw [hx, hcons] at hword
      cases start with
      | nil =>
          refine ⟨String.ofList e.2, hentity, ?_⟩
          rw [String.toList_ofList, hcons, hword, List.nil_append, List.cons_prefix_cons]
          exact ⟨rfl, hrest⟩
      | cons z start =>
          have hmem : '&' ∈ tail := by
            rw [(List.cons.inj hword).2]
            exact List.mem_append_right _ List.mem_cons_self
          exact absurd hmem htail
    · -- an ampersand does not stay
      rw [hx] at hword
      have hmem : '&' ∈ [x] := by
        rw [hword]
        exact List.mem_append_right _ List.mem_cons_self
      exact absurd (List.mem_singleton.mp hmem) (hkeys _ List.mem_cons_self)
  · intro value value' h
    have htext : value.toList.flatMap (Escape.word htmlEscapes) =
        value'.toList.flatMap (Escape.word htmlEscapes) := by
      rw [← toList_escapeHtml, ← toList_escapeHtml, h]
    exact String.toList_inj.mp (Escape.flatMap_injective word_prefixFree word_ne_nil htext)

example : escapeHtml "a&lt;<b" = "a&amp;lt;&lt;b" := by decide

end AnatoliaBis.App
