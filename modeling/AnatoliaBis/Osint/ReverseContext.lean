import AnatoliaBis.Cases.Types
import AnatoliaBis.Osint.Breaker
import Mathlib.Data.List.Infix

/-! # From a matching page to a context search

`google_vision.rs` turns a web detection into evidence items, `query_builder.rs`
decides from an item's title and snippet whether its title may seed a text search,
and `run_auto_osint` collects those searches. The query builder looks for the words
"full image match" or "partial image match" in the snippet; the provider reports its
match counts as details and leaves every snippet empty. So no item ever seeds a
search (`agrees_iff`).
-/

namespace AnatoliaBis.Osint

open Auth (trim)
open Cases (EvidenceDetail EvidenceItem ProviderOutcome)

/-! ## The provider -/

/-- `WebPage`; of a `WebImage` only the URL is there. -/
structure WebPage where
  url : String
  pageTitle : Option String
  fullMatchingImages : List String
  partialMatchingImages : List String
  deriving Repr, DecidableEq

/-- `WebDetection`, without the visually similar images, which nothing reads. -/
structure WebDetection where
  fullMatchingImages : List String
  partialMatchingImages : List String
  pagesWithMatchingImages : List WebPage
  bestGuessLabels : List String
  deriving Repr, DecidableEq

/-- `AnnotateResponse`. -/
structure AnnotateResponse where
  webDetection : Option WebDetection
  error : Option String
  deriving Repr, DecidableEq

/-- `MAX_RESULTS`. -/
def maxResults : Nat := 20

/-- `provider_name` of every item. -/
def visionProvider : String := "google-vision-web-detection"

def countDetail (key : String) (count : Nat) : EvidenceDetail :=
  ⟨key, .object [("count", .number (.ofInt count))]⟩

def bestGuessDetail (label : String) : EvidenceDetail :=
  ⟨"osint.evidence.detail.bestGuess", .object [("label", .string label)]⟩

/-- The page has a full or partial match. -/
def WebPage.matches (page : WebPage) : Bool :=
  page.fullMatchingImages.length != 0 || page.partialMatchingImages.length != 0

/-- The title a page's item gets: the page's own, unless it is blank. -/
def WebPage.title (page : WebPage) : String :=
  (page.pageTitle.filter fun v => trim v != "").getD ""

/-- The item pushed for a page. -/
def pageItem (bestGuess : Option String) (page : WebPage) : EvidenceItem where
  sourceType := "reverse_image"
  providerName := visionProvider
  title := page.title
  titleKey :=
    if (page.pageTitle.filter fun v => trim v != "").isSome then none
    else some "osint.evidence.title.webPageWithMatch"
  titleParams := none
  url := some page.url
  snippet := none
  details :=
    (if page.fullMatchingImages.length > 0 then
      [countDetail "osint.evidence.detail.fullMatches" page.fullMatchingImages.length] else []) ++
    (if page.partialMatchingImages.length > 0 then
      [countDetail "osint.evidence.detail.partialMatches" page.partialMatchingImages.length]
      else []) ++
    (bestGuess.map bestGuessDetail).toList
  confidence := if page.fullMatchingImages.length > 0 then 95 / 100 else 75 / 100

/-- The item pushed for a matching image without a page. -/
def imageItem (titleKey : String) (confidence : Rat) (bestGuess : Option String) (url : String) :
    EvidenceItem where
  sourceType := "reverse_image"
  providerName := visionProvider
  title := ""
  titleKey := some titleKey
  titleParams := none
  url := some url
  snippet := none
  details := (bestGuess.map bestGuessDetail).toList
  confidence := confidence

/-- What a loop guarded by `seen_urls.insert` goes through: the first element of
each URL that has not been seen. -/
def firstSeen {α : Type} (url : α → String) : List String → List α → List α
  | _, [] => []
  | seen, a :: rest =>
      if url a ∈ seen then firstSeen url seen rest
      else a :: firstSeen url (url a :: seen) rest

namespace WebDetection

variable (web : WebDetection)

def bestGuess : Option String := web.bestGuessLabels.head?

/-- The pages an item is pushed for. -/
def pages : List WebPage :=
  firstSeen WebPage.url [] (web.pagesWithMatchingImages.filter WebPage.matches)

def fullImages : List String := firstSeen id (web.pages.map WebPage.url) web.fullMatchingImages

def partialImages : List String :=
  firstSeen id (web.pages.map WebPage.url ++ web.fullImages) web.partialMatchingImages

/-- The items that stem from no page. -/
def imageItems : List EvidenceItem :=
  web.fullImages.map
      (imageItem "osint.evidence.title.fullMatchingImage" (95 / 100) web.bestGuess) ++
    web.partialImages.map
      (imageItem "osint.evidence.title.partialMatchingImage" (75 / 100) web.bestGuess)

/-- All items, cut off at `MAX_RESULTS`. -/
def items : List EvidenceItem :=
  (web.pages.map (pageItem web.bestGuess) ++ web.imageItems).take maxResults

/-- The pages whose item is among them. -/
def producedPages : List WebPage := web.pages.take maxResults

end WebDetection

/-- What `annotate` makes of a response. -/
def annotate (responses : List AnnotateResponse) : Except OsintError (List EvidenceItem) :=
  match responses.head? with
  | none => .ok []
  | some first =>
      match first.error with
      | some message => .error (.providerUnavailable message)
      | none => .ok ((first.webDetection.map WebDetection.items).getD [])

/-! ## The query builder -/

/-- `normalized`. -/
def normalized (value : String) : String :=
  ((trim value).map Char.toLower).map fun c => if c = '\n' ∨ c = '\r' ∨ c = '\t' then ' ' else c

/-- `str::trim_start_matches`, at most `fuel` times. -/
def trimStartMatches (pattern : List Char) : (fuel : Nat) → List Char → List Char
  | 0, text => text
  | fuel + 1, text =>
      if pattern <+: text then trimStartMatches pattern fuel (text.drop pattern.length) else text

/-- The words that name any picture of a person. -/
def genericWords : List String :=
  ["screenshot", "screen shot", "screen capture", "photo", "image", "picture", "person", "people",
    "man", "woman", "face", "selfie", "gentleman", "lady", "portrait"]

/-- The titles the provider once made up itself. -/
def genericTitles : List String :=
  ["full matching image", "partial matching image", "visually similar image",
    "web page containing a matching image"]

/-- `is_generic_visual_context`. -/
def isGenericVisualContext (value : String) : Bool :=
  let lower := normalized value
  let bestGuess := "best guess:".toList
  if lower = "" then true
  else if bestGuess <+: lower.toList then
    genericWords.contains
      (trim (String.ofList (trimStartMatches bestGuess lower.toList.length lower.toList)))
  else (genericTitles ++ genericWords).contains lower

/-- `has_explicit_image_match`. -/
def hasExplicitImageMatch (value : String) : Bool :=
  "full image match".toList <:+: (normalized value).toList ||
    "partial image match".toList <:+: (normalized value).toList

/-- `usable`. -/
def usable (value : String) : Option String :=
  if (trim value).utf8ByteSize < 3 ∨ isGenericVisualContext (trim value) then none
  else some (String.ofList ((trim value).toList.take 180))

/-- `build_reverse_context_query`. -/
def buildReverseContextQuery (title : String) (snippet : Option String) : Option String :=
  match snippet with
  | none => none
  | some snippet => if hasExplicitImageMatch snippet then usable title else none

example : buildReverseContextQuery "Sedat Peker'in örgütü"
    (some "1 partial image match(es) · best guess: gentleman") = some "Sedat Peker'in örgütü" := by
  decide +kernel

/-- What an item contributes, with the arguments `run_auto_osint` passes. -/
def contextQuery (item : EvidenceItem) : Option String :=
  buildReverseContextQuery item.title item.snippet

/-- The context searches of `run_auto_osint`. -/
def contextQueries (eligibleCount : Nat) (reverseOutcomes : List ProviderOutcome) : List String :=
  let items := reverseOutcomes.flatMap ProviderOutcome.items
  if eligibleCount = 0 ∧ items.length ≠ 0 then ((items.filterMap contextQuery).eraseDups).take 3
  else []

/-- What it takes to seed a search. -/
theorem buildReverseContextQuery_isSome_iff {title : String} {snippet : Option String} :
    (buildReverseContextQuery title snippet).isSome ↔
      (∃ s ∈ snippet, hasExplicitImageMatch s = true) ∧ (usable title).isSome := by
  cases snippet with
  | none => simp [buildReverseContextQuery]
  | some s =>
      simp only [buildReverseContextQuery, Option.mem_some_iff, exists_eq_left']
      split_ifs with h <;> simp [h]

/-! ## Do the two agree? -/

/-- Provider and query builder agree on a web detection: the items of its matching
pages with a usable title seed searches, and no other item does. -/
structure Agrees (web : WebDetection) : Prop where
  seeds : ∀ page ∈ web.producedPages, (usable page.title).isSome →
    (contextQuery (pageItem web.bestGuess page)).isSome
  searches : (∃ page ∈ web.producedPages, (usable page.title).isSome) →
    contextQueries 0 [⟨visionProvider, web.items, none⟩] ≠ []
  onlyPages : ∀ item ∈ web.imageItems, contextQuery item = none

/-- No item of the provider seeds a search. -/
theorem contextQuery_items {web : WebDetection} {item : EvidenceItem} (h : item ∈ web.items) :
    contextQuery item = none := by
  have hsnippet : item.snippet = none := by
    rcases List.mem_append.mp (List.mem_of_mem_take h) with hpage | himage
    · rcases List.mem_map.mp hpage with ⟨page, -, rfl⟩
      rfl
    · rcases List.mem_append.mp himage with himage | himage
      · rcases List.mem_map.mp himage with ⟨url, -, rfl⟩
        rfl
      · rcases List.mem_map.mp himage with ⟨url, -, rfl⟩
        rfl
  refine Option.not_isSome_iff_eq_none.mp fun hsome => ?_
  rcases (buildReverseContextQuery_isSome_iff.mp hsome).1 with ⟨s, hs, -⟩
  rw [hsnippet] at hs
  cases hs

theorem pageItem_mem_items {web : WebDetection} {page : WebPage} (h : page ∈ web.producedPages) :
    pageItem web.bestGuess page ∈ web.items := by
  unfold WebDetection.items
  rw [List.take_append, ← List.map_take]
  exact List.mem_append_left _ (List.mem_map_of_mem h)

/-- **When they agree**: only where there is nothing to agree on, no matching page
with a usable title. -/
theorem agrees_iff (web : WebDetection) :
    Agrees web ↔ ∀ page ∈ web.producedPages, usable page.title = none := by
  constructor
  · intro h page hpage
    by_contra husable
    have hseeds := h.seeds page hpage (Option.isSome_iff_ne_none.mpr husable)
    rw [contextQuery_items (pageItem_mem_items hpage)] at hseeds
    cases hseeds
  · intro h
    have hnone : ∀ page ∈ web.producedPages, ¬ (usable page.title).isSome := by
      intro page hpage
      rw [h page hpage]
      exact Bool.false_ne_true
    refine ⟨fun page hpage husable => absurd husable (hnone page hpage), ?_, ?_⟩
    · rintro ⟨page, hpage, husable⟩
      exact absurd husable (hnone page hpage)
    · intro item hitem
      rcases List.mem_append.mp hitem with hitem | hitem
      · rcases List.mem_map.mp hitem with ⟨url, -, rfl⟩
        rfl
      · rcases List.mem_map.mp hitem with ⟨url, -, rfl⟩
        rfl

/-- A page with one full match, as the tests of the provider have it. -/
def sampleDetection : WebDetection where
  fullMatchingImages := ["https://example.test/photo.jpg"]
  partialMatchingImages := []
  pagesWithMatchingImages := [⟨"https://example.test/person", some "Example profile",
    ["https://example.test/photo.jpg"], []⟩]
  bestGuessLabels := ["example person"]

/-- Its title would do, but no search is made of it. -/
theorem strong_match_not_searched :
    (sampleDetection.producedPages.map fun page => usable page.title) =
        [some "Example profile"] ∧
      contextQueries 0 [⟨visionProvider, sampleDetection.items, none⟩] = [] ∧
      ¬ Agrees sampleDetection := by
  refine ⟨by decide +kernel, by decide +kernel, fun h => ?_⟩
  refine h.searches ?_ (by decide +kernel)
  decide +kernel

end AnatoliaBis.Osint
