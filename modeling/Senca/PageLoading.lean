import Senca.BrowserRuntime

/-!
# What the client pages load

The four pages that list resources, with the fetch function of each as its
effect body runs it: the decoded answers of its endpoints go in, and the
list handed to the state setter or a thrown error comes out. An answer is
an array of resources or the server's error object, which is what the
routers send.
-/

namespace Senca.PageLoading

open BrowserRuntime JsonValue

/-- A resource as a page receives it, the members of one object. -/
abbrev Resource := List (String×Json)

/-- The decoded answer of an endpoint. -/
inductive Answer where
  /-- An array of resources. -/
  | array (items : List Resource)
  /-- An object, such as `{ error: text }`. -/
  | object (members : Resource)

namespace Answer

/-- `Array.isArray(data)`. -/
def isArray : Answer → Bool
  | array _ => true
  | object _ => false

/-- The resources of an answer, none in an object. -/
def items : Answer → List Resource
  | array items => items
  | object _ => []

/-- `Array.isArray(data) ? data : []`. -/
def orEmpty (data : Answer) : List Resource := if data.isArray then data.items else []

/-- `data.map(f)`: an object has no such method. -/
def map (data : Answer) (f : Resource → Resource) : Js Answer :=
  match data with
  | array items => pure (array (items.map f))
  | object _ => throw ⟨"data.map is not a function"⟩

/-- `Array.isArray(data) ? data.map(f) : []`. -/
def mapOrEmpty (data : Answer) (f : Resource → Resource) : Js Answer :=
  if data.isArray then data.map f else pure (array [])

theorem mapOrEmpty_eq (data : Answer) (f : Resource → Resource) :
    data.mapOrEmpty f = .ok (array (data.items.map f)) := by
  cases data <;> rfl

theorem orEmpty_eq (data : Answer) : data.orEmpty = data.items := by
  cases data <;> rfl

end Answer

/-! ### Dates of the tweets page -/

/-- `item.name`, none being undefined. -/
def field (item : Resource) (name : String) : Option Json := item.lookup name

/-- The chain of alternatives for `date` in `getDate`. -/
def dateField (item : Resource) : Option Json := firstTruthy [
  field item "publishedAt",
  field item "createdAt",
  field item "date",
  field item "created_at",
  field item "published_at",
  field item "timestamp",
  (field item "snippet").bind (Json.member? · "publishedAt"),
  field item "pubDate"]

/-- `getDate`: null, or a date that may be invalid. Numbers are taken for
seconds. -/
def getDate (browser : Browser) (item : Resource) : Js (Option (Option ℤ)) :=
  match dateField item with
  | none => pure none
  | some date =>
    if truthy (some date) then
      match date with
      | .int n => some <$> newDate browser (.int (n*1000))
      | .float q => some <$> newDate browser (.float (q*1000))
      | date => some <$> newDate browser date
    else pure none

/-- The comparator of `sortedCombined`: newest first, undated last. -/
def compareDates (browser : Browser) (a b : Resource) : Js (Option ℤ) := do
  let dateA ← getDate browser a
  let dateB ← getDate browser b
  match dateA,dateB with
  | none,_ => pure (some 1)
  | _,none => pure (some (-1))
  | some dateA,some dateB => pure (do
    let timeB ← dateB
    let timeA ← dateA
    pure (timeB-timeA))

/-- The date of an item is made without throwing. -/
def Datable (item : Resource) : Bool := !(dateField item).any hidesToString

theorem hidesToString_of_falsy {value : Json} (h : truthy (some value) = false) :
    hidesToString value = false := by
  cases value <;> first | rfl | cases h

theorem getDate_isOk (browser : Browser) (item : Resource) :
    (getDate browser item).isOk = Datable item := by
  unfold getDate Datable
  cases dateField item with
  | none => rfl
  | some date =>
    rw [Option.any_some]
    cases ht : truthy (some date) with
    | true =>
      dsimp only
      rw [if_pos ht]
      cases date <;> rw [isOk_map,newDate_isOk] <;> rfl
    | false =>
      dsimp only
      rw [if_neg (by rw [ht]; decide),hidesToString_of_falsy ht]
      rfl

/-- Without a truthy alternative there is no date. -/
theorem getDate_of_falsy {browser : Browser} {item : Resource}
    (h : truthy (dateField item) = false) : getDate browser item = .ok none := by
  rw [getDate]
  cases hf : dateField item with
  | none => rfl
  | some date =>
    rw [hf] at h
    dsimp only
    rw [if_neg (by rw [h]; decide)]
    rfl

theorem compareDates_isOk (browser : Browser) (a b : Resource) :
    (compareDates browser a b).isOk = (Datable a && Datable b) := by
  rw [compareDates,isOk_bind _ _ (Datable b),getDate_isOk]
  intro dateA
  rw [isOk_bind _ _ true,getDate_isOk,Bool.and_true]
  intro dateB
  cases dateA <;> cases dateB <;> rfl

/-- The sort of the tweets page throws exactly on two or more items one of
which has no date. -/
theorem sort_isOk (browser : Browser) (items : List Resource) :
    (browser.sort (compareDates browser) items).isOk = true ↔
      items.length ≤ 1 ∨ ∀ item ∈ items, Datable item = true := by
  constructor
  · intro h
    by_contra hno
    rw [not_or] at hno
    obtain ⟨hlen,hall⟩ := hno
    simp only [not_forall] at hall
    obtain ⟨item,hitem,hd⟩ := hall
    have hthrows := browser.sort_throws (compareDates browser) items item (by omega) hitem (by
      intro b
      simp [compareDates_isOk,hd])
    rw [h] at hthrows
    cases hthrows
  · rintro (hlen | hall)
    · rw [browser.sort_short _ _ hlen]
      rfl
    · obtain ⟨sorted,hs,-⟩ := browser.sort_returns (compareDates browser) items fun a ha b hb => by
        rw [compareDates_isOk,hall a ha,hall b hb]
        rfl
      rw [hs]
      rfl

/-- A sort that returns only reorders. -/
theorem sort_perm {browser : Browser} {items sorted : List Resource}
    (h : browser.sort (compareDates browser) items = .ok sorted) : sorted.Perm items := by
  have hok : (browser.sort (compareDates browser) items).isOk = true := by rw [h]; rfl
  rcases (sort_isOk browser items).mp hok with hlen | hall
  · rw [browser.sort_short _ _ hlen] at h
    cases h
    exact .refl _
  · obtain ⟨sorted',hs,hp⟩ := browser.sort_returns (compareDates browser) items fun a ha b hb => by
      rw [compareDates_isOk,hall a ha,hall b hb]
      rfl
    rw [h] at hs
    cases hs
    exact hp

/-! ### The fetch functions -/

/-- `{ ...item, dataSource: source }`. -/
def withSource (source : String) (item : Resource) : Resource :=
  setMember item "dataSource" (.str source)

/-- `({ createdAt, date, ...rest }) => rest`. -/
def withoutDates (item : Resource) : Resource :=
  item.filter (fun m => m.1 ≠ "createdAt" ∧ m.1 ≠ "date")

/-- `fetchAll` of `BlogsReposPage.js`: each answer is guarded before its map.
Logging `data[0]` throws on neither kind of answer. -/
def blogsReposFetchAll (devtoData githubData hfData newsData : Answer) : Js (List Resource) := do
  let devto ← devtoData.mapOrEmpty (withSource "devto-resources")
  let github ← githubData.mapOrEmpty (withSource "github-resources")
  let hf ← hfData.mapOrEmpty (withSource "huggingface-resources")
  let news ← newsData.mapOrEmpty (withSource "newsapi-resources")
  pure (devto.items++github.items++hf.items++news.items)

/-- `fetchAllPapers` of `ResearchPapersPage.js`. -/
def fetchAllPapers (papersData arxivData : Answer) : Js (List Resource) :=
  pure (papersData.orEmpty++arxivData.orEmpty)

/-- `fetchTutorials` of `TutorialsPage.js`; none leaves the state alone. -/
def fetchTutorials (data : Answer) : Js (Option (List Resource)) :=
  if data.isArray then do
    let tutorialsWithoutDates ← data.map withoutDates
    pure (some tutorialsWithoutDates.items)
  else pure none

/-- `fetchAll` of `TweetsPodcastsVideosPage.js`: the guards come after the
maps. -/
def tweetsFetchAll (browser : Browser) (spotifyData tweetsData ytData : Answer) :
    Js (List Resource) := do
  let spotifyWithSource ← spotifyData.map (withSource "podcast")
  let tweetsWithSource ← tweetsData.map (withSource "tweet")
  let ytWithSource ← ytData.map (withSource "youtube")
  let combined := spotifyWithSource.orEmpty++tweetsWithSource.orEmpty++ytWithSource.orEmpty
  browser.sort (compareDates browser) combined

/-- The pages that list resources. -/
inductive Page where
  | blogsRepos
  | researchPapers
  | tutorials
  | tweetsPodcastsVideos
  deriving DecidableEq

/-- The fetch of a page, from the answer of each endpoint. An error is
caught and logged, and like none it sets nothing. -/
def Page.fetch (browser : Browser) (page : Page) (answers : String → Answer) :
    Js (Option (List Resource)) :=
  match page with
  | .blogsRepos => some <$> blogsReposFetchAll (answers "/api/devto-resources")
      (answers "/api/github-resources") (answers "/api/huggingface-resources")
      (answers "/api/newsapi-resources")
  | .researchPapers => some <$> fetchAllPapers (answers "/api/papers-resources")
      (answers "/api/arxiv-resources")
  | .tutorials => fetchTutorials (answers "/api/tools1-resources")
  | .tweetsPodcastsVideos => some <$> tweetsFetchAll browser (answers "/api/spotify1-resources")
      (answers "/api/tweet-resources") (answers "/api/youtube-resources")

/-- The endpoints of a page, each with what the page makes of an item of it. -/
def Page.endpoints : Page → List (String×(Resource → Resource))
  | .blogsRepos => [
    ("/api/devto-resources",withSource "devto-resources"),
    ("/api/github-resources",withSource "github-resources"),
    ("/api/huggingface-resources",withSource "huggingface-resources"),
    ("/api/newsapi-resources",withSource "newsapi-resources")]
  | .researchPapers => [("/api/papers-resources",id),("/api/arxiv-resources",id)]
  | .tutorials => [("/api/tools1-resources",withoutDates)]
  | .tweetsPodcastsVideos => [
    ("/api/spotify1-resources",withSource "podcast"),
    ("/api/tweet-resources",withSource "tweet"),
    ("/api/youtube-resources",withSource "youtube")]

/-- The items of the endpoints that answered with an array, as the page
marks them. -/
def expected (page : Page) (answers : String → Answer) : List Resource :=
  page.endpoints.flatMap (fun e => (answers e.1).items.map e.2)

/-- The items of the endpoints that answered with an array, as they came. -/
def received (page : Page) (answers : String → Answer) : List Resource :=
  page.endpoints.flatMap (fun e => (answers e.1).items)

/-! ### Partial failure -/

/-- The resources of a freshly mounted page once its fetch is done. -/
def loaded (browser : Browser) (page : Page) (answers : String → Answer) : List Resource :=
  match page.fetch browser answers with
  | .ok (some resources) => resources
  | _ => []

/-- The page holds exactly the items of the endpoints that answered with an
array. -/
def Isolates (browser : Browser) (page : Page) (answers : String → Answer) : Prop :=
  (loaded browser page answers).Perm (expected page answers)

/-- A mark changes no member the date is read from. -/
theorem dateField_withSource (source : String) (item : Resource) :
    dateField (withSource source item) = dateField item := by
  simp only [dateField,field,withSource]
  iterate 8 rw [lookup_setMember_ne _ _ (by decide)]

theorem datable_withSource (source : String) (item : Resource) :
    Datable (withSource source item) = Datable item := by
  rw [Datable,Datable,dateField_withSource]

section Tweets

variable (browser : Browser) (answers : String → Answer)

/-- Arrays from all three endpoints are combined and sorted. -/
theorem fetch_tweets_of_isArray
    (h : ∀ e ∈ Page.tweetsPodcastsVideos.endpoints, (answers e.1).isArray = true) :
    Page.fetch browser .tweetsPodcastsVideos answers =
      some <$> browser.sort (compareDates browser) (expected .tweetsPodcastsVideos answers) := by
  simp only [Page.endpoints,List.forall_mem_cons] at h
  obtain ⟨hspotify,htweets,hyt,-⟩ := h
  simp only [Page.fetch,expected,Page.endpoints,List.flatMap_cons,List.flatMap_nil,
    List.append_nil]
  cases hs : answers "/api/spotify1-resources" with
  | object m => simp [hs,Answer.isArray] at hspotify
  | array spotify =>
    cases ht : answers "/api/tweet-resources" with
    | object m => simp [ht,Answer.isArray] at htweets
    | array tweets =>
      cases hy : answers "/api/youtube-resources" with
      | object m => simp [hy,Answer.isArray] at hyt
      | array yt =>
        simp only [Answer.items,← List.append_assoc]
        rfl

/-- One error object and nothing is set. -/
theorem fetch_tweets_of_object
    (h : ∃ e ∈ Page.tweetsPodcastsVideos.endpoints, (answers e.1).isArray = false) :
    ∃ error, Page.fetch browser .tweetsPodcastsVideos answers = .error error := by
  simp only [Page.endpoints,List.mem_cons,List.not_mem_nil,or_false,exists_eq_or_imp,
    exists_eq_left] at h
  simp only [Page.fetch,tweetsFetchAll]
  cases hs : answers "/api/spotify1-resources" with
  | object m => exact ⟨_,rfl⟩
  | array spotify =>
    cases ht : answers "/api/tweet-resources" with
    | object m => exact ⟨_,rfl⟩
    | array tweets =>
      cases hy : answers "/api/youtube-resources" with
      | object m => exact ⟨_,rfl⟩
      | array yt => simp [hs,ht,hy,Answer.isArray] at h

end Tweets

/-- The other pages guard every answer before they use it. -/
theorem loaded_of_guarded (browser : Browser) {page : Page}
    (h : page ≠ .tweetsPodcastsVideos) (answers : String → Answer) :
    loaded browser page answers = expected page answers := by
  cases page with
  | blogsRepos =>
    simp only [loaded,Page.fetch,blogsReposFetchAll,Answer.mapOrEmpty_eq,expected,Page.endpoints,
      List.flatMap_cons,List.flatMap_nil,List.append_nil]
    simp only [bind,Except.bind,pure,Except.pure,Functor.map,Except.map,Answer.items,
      List.append_assoc]
  | researchPapers =>
    simp only [loaded,Page.fetch,fetchAllPapers,Answer.orEmpty_eq,expected,Page.endpoints,
      List.flatMap_cons,List.flatMap_nil,List.append_nil,List.map_id]
    rfl
  | tutorials =>
    simp only [loaded,Page.fetch,fetchTutorials,expected,Page.endpoints,List.flatMap_cons,
      List.flatMap_nil,List.append_nil]
    cases answers "/api/tools1-resources" <;> rfl
  | tweetsPodcastsVideos => exact absurd rfl h

/-- Whatever a page sets on a fetch is its marked items in some order. -/
theorem fetch_perm {browser : Browser} {page : Page} {answers : String → Answer}
    {resources : List Resource} (h : page.fetch browser answers = .ok (some resources)) :
    resources.Perm (expected page answers) := by
  by_cases hpage : page = .tweetsPodcastsVideos
  · subst hpage
    by_cases harrays : ∀ e ∈ Page.tweetsPodcastsVideos.endpoints, (answers e.1).isArray = true
    · rw [fetch_tweets_of_isArray _ _ harrays] at h
      cases hs : browser.sort (compareDates browser) (expected .tweetsPodcastsVideos answers) with
      | error e =>
        rw [hs] at h
        cases h
      | ok sorted =>
        rw [hs] at h
        cases h
        exact sort_perm hs
    · obtain ⟨error,herror⟩ := fetch_tweets_of_object browser answers (by simpa using harrays)
      rw [h] at herror
      cases herror
  · have hl := loaded_of_guarded browser hpage answers
    rw [loaded,h] at hl
    exact hl ▸ .refl _

/-- A mark leaves every member alone but the source and two dates. -/
theorem field_mark {page : Page} {e : String×(Resource → Resource)} (he : e ∈ page.endpoints)
    {name : String} (hn : name ∉ ["dataSource","createdAt","date"]) (item : Resource) :
    field (e.2 item) name = field item name := by
  simp only [List.mem_cons,List.not_mem_nil,or_false,not_or] at hn
  obtain ⟨hsource,hcreated,hdate⟩ := hn
  have hwith : ∀ source, field (withSource source item) name = field item name :=
    fun _ => lookup_setMember_ne _ _ hsource
  have hwithout : field (withoutDates item) name = field item name := by
    have hsplit : withoutDates item =
        (item.filter (fun m => m.1 ≠ "date")).filter (fun m => m.1 ≠ "createdAt") := by
      rw [withoutDates,List.filter_filter]
      congr 1
      funext m
      simp
    rw [field,hsplit,lookup_filter_ne _ hcreated,lookup_filter_ne _ hdate]
    rfl
  cases page <;> simp only [Page.endpoints,List.mem_cons,List.not_mem_nil,or_false] at he
  · rcases he with rfl | rfl | rfl | rfl <;> exact hwith _
  · rcases he with rfl | rfl <;> rfl
  · subst he
    exact hwithout
  · rcases he with rfl | rfl | rfl <;> exact hwith _

theorem expected_eq_nil_iff (page : Page) (answers : String → Answer) :
    expected page answers = [] ↔ received page answers = [] := by
  simp [expected,received]

theorem expected_length (page : Page) (answers : String → Answer) :
    (expected page answers).length = (received page answers).length := by
  simp [expected,received,List.length_flatMap]

theorem forall_expected_datable (answers : String → Answer) :
    (∀ item ∈ expected .tweetsPodcastsVideos answers, Datable item = true) ↔
      ∀ item ∈ received .tweetsPodcastsVideos answers, Datable item = true := by
  simp [expected,received,Page.endpoints,datable_withSource,or_imp,forall_and]

/-- For every browser, page and combination of answers: the items of the
endpoints that answered with an array are what the page holds, except on the
tweets page, where each endpoint must answer with an array and the dates of
two or more items must be readable, unless there is no item at all. -/
theorem page_isolates_iff (browser : Browser) (page : Page) (answers : String → Answer) :
    Isolates browser page answers ↔
      (page = .tweetsPodcastsVideos →
        (∀ e ∈ page.endpoints, (answers e.1).isArray = true) ∧
            ((received page answers).length ≤ 1 ∨
              ∀ item ∈ received page answers, Datable item = true) ∨
          received page answers = []) := by
  by_cases hpage : page = .tweetsPodcastsVideos
  · subst hpage
    simp only [forall_const]
    by_cases harrays : ∀ e ∈ Page.tweetsPodcastsVideos.endpoints, (answers e.1).isArray = true
    · have hsort := sort_isOk browser (expected .tweetsPodcastsVideos answers)
      rw [expected_length,forall_expected_datable] at hsort
      rw [and_iff_right harrays,← hsort,Isolates,loaded,fetch_tweets_of_isArray _ _ harrays]
      cases hs : browser.sort (compareDates browser) (expected .tweetsPodcastsVideos answers) with
      | ok sorted => exact iff_of_true (sort_perm hs) (.inl rfl)
      | error e =>
        rw [← expected_eq_nil_iff]
        change List.Perm [] _ ↔ false = true ∨ _
        rw [List.nil_perm,or_iff_right Bool.false_ne_true]
    · have hobject : ∃ e ∈ Page.tweetsPodcastsVideos.endpoints, (answers e.1).isArray = false := by
        simpa using harrays
      obtain ⟨error,herror⟩ := fetch_tweets_of_object browser answers hobject
      rw [Isolates,loaded,herror,List.nil_perm,expected_eq_nil_iff]
      simp only [harrays,false_and,false_or]
  · rw [Isolates,loaded_of_guarded browser hpage]
    simp [hpage]

/-- The podcasts answer with their router's failure text, the tweets with one
resource, the videos with none. -/
def podcastsFail : String → Answer
  | "/api/spotify1-resources" => .object [("error",.str "Failed to fetch Spotify resources")]
  | "/api/tweet-resources" => .array [[("title",.str "Agents today")]]
  | _ => .array []

theorem podcastsFail_not_isolates :
    ¬Isolates sampleBrowser .tweetsPodcastsVideos podcastsFail := by
  intro h
  have hlength := List.Perm.length_eq h
  revert hlength
  decide

end Senca.PageLoading
