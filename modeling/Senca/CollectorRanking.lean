import Senca.ScraperCollectors

/-!
# The cut at ten of the keyword collectors

A collector visits (keyword, item) pairs, keeps and scores some of them and
returns the ten best. One abstract collector covers the seven scrapers. What
its loop body reads of an item is a reading, and its result is the cut of the
stable ranking of the visited items that the reading keeps; so it names a
resource twice exactly when two visited items of it rank among the first ten,
and otherwise leaves a resource out only behind ten others.
-/

namespace Senca.CollectorRanking

open FaultLoops JsonValue PythonOrder PythonRuntime ScraperCollectors StableRanking

/-- What differs between the keyword collectors. -/
structure Collector (τ ι ρ : Type) where
  /-- What a page without items does to the page loop. -/
  onEmpty : OnEmpty
  /-- The fetched page of a keyword. -/
  page : String → ℕ → Py (Option (List τ))
  /-- The page numbers. -/
  pages : List ℕ
  /-- The loop body: the record appended for an item, if any. -/
  body : String → τ → Py (List ι)
  /-- The field the list is sorted by. -/
  score : ι → Json
  /-- The resource a record denotes: its link, or the id of a tweet. -/
  resource : ι → ρ

variable {τ ι ρ : Type} (c : Collector τ ι ρ) (keywords : List String)

/-- The pairs the loops visit. -/
def Collector.visited : Py (List (String×τ)) := visits c.onEmpty c.page c.pages keywords

/-- The list the loops build. -/
def Collector.collect : Py (List ι) := gatherKeywords c.onEmpty c.page c.pages c.body keywords

/-- The ten best of the list the loops build. -/
def Collector.topTen : Py (List ι) := do
  let combined ← c.collect keywords
  let sorted ← sortReverse c.score combined
  pure (sorted.take 10)

/-- The comparison key of a record. -/
def Collector.key (item : ι) : SortKey := sortKey (c.score item)

/-- The record of one visited pair; none when the body keeps or returns nothing. -/
def Collector.record (v : String×τ) : List ι :=
  match c.body v.1 v.2 with
  | .ok part => part
  | .error _ => []

/-- The loops return exactly when the visit does and no visited item makes
the body raise. -/
theorem Collector.collect_returns :
    Returns (c.collect keywords) ↔
      ∃ visited, c.visited keywords = .ok visited ∧
        ∀ v ∈ visited, Returns (c.body v.1 v.2) :=
  gatherKeywords_returns

/-! ### Readings -/

/-- What a loop body reads of an upstream item. -/
structure Reading (τ ρ : Type) where
  /-- The members that the body needs, apart from those of the score, are there. -/
  readable : τ → Bool
  /-- The date of the item, where the collector looks at it, lets it in. -/
  kept : τ → Bool
  /-- The score for a keyword. -/
  score : String → τ → Py Json
  /-- The resource the item denotes. -/
  resource : τ → ρ

/-- The score of a visited pair, null where there is none. -/
def Reading.scoreOf (r : Reading τ ρ) (v : String×τ) : Json :=
  match r.score v.1 v.2 with
  | .ok score => score
  | .error _ => .null

/-- What a visited pair is ranked by. -/
def Reading.key (r : Reading τ ρ) (v : String×τ) : SortKey := sortKey (r.scoreOf v)

/-- The body appends one record for each item that is kept, with the score and
the resource of the item, and raises exactly where the reading does. -/
structure Collector.Reads (r : Reading τ ρ) : Prop where
  /-- The body returns on the items that can be read and, when kept, scored. -/
  returns : ∀ kw item, Returns (c.body kw item) ↔
    r.readable item = true ∧ (r.kept item = true → Returns (r.score kw item))
  /-- The other items are passed over. -/
  passed : ∀ kw item part, r.kept item = false → c.body kw item = .ok part → part = []
  /-- A kept item gives one record. -/
  appended : ∀ kw item part, r.kept item = true → c.body kw item = .ok part →
    ∃ record, part = [record] ∧ r.score kw item = .ok (c.score record) ∧
      c.resource record = r.resource item

/-- The items the loops visit, with their keywords. -/
def Collector.visitedPairs : List (String×τ) :=
  match c.visited keywords with
  | .ok visited => visited
  | .error _ => []

/-- The visited items that are kept, in the order in which they are met. -/
def Collector.seen (r : Reading τ ρ) : List (String×τ) :=
  (c.visitedPairs keywords).filter (fun v => r.kept v.2)

/-- The body turns a visited item into a record. -/
def Collector.Makes (v : String×τ) (record : ι) : Prop := c.body v.1 v.2 = .ok [record]

/-- Every page is answered, every visited item can be read, and scored when it is
kept, and the scores can be compared. -/
structure Collector.Completes (r : Reading τ ρ) : Prop where
  /-- No fetch raises. -/
  answered : Returns (c.visited keywords)
  /-- No item raises. -/
  read : ∀ v ∈ c.visitedPairs keywords,
    r.readable v.2 = true ∧ (r.kept v.2 = true → Returns (r.score v.1 v.2))
  /-- Sorting does not raise. -/
  ordered : Sortable ((c.seen keywords r).map r.scoreOf)

section Readings

variable {c} {keywords} {r : Reading τ ρ}

/-- The record of a kept item has its score. -/
theorem Collector.Reads.scoreOf (h : c.Reads r) {v : String×τ} {record : ι}
    (hv : r.kept v.2 = true) (hmakes : c.Makes v record) : c.score record = r.scoreOf v := by
  obtain ⟨made,hmade,hscore,-⟩ := h.appended v.1 v.2 _ hv hmakes
  obtain rfl := List.singleton_injective hmade
  rw [Reading.scoreOf,hscore]

/-- The record of a kept item denotes its resource. -/
theorem Collector.Reads.resource (h : c.Reads r) {v : String×τ} {record : ι}
    (hv : r.kept v.2 = true) (hmakes : c.Makes v record) :
    c.resource record = r.resource v.2 := by
  obtain ⟨made,hmade,-,hres⟩ := h.appended v.1 v.2 _ hv hmakes
  obtain rfl := List.singleton_injective hmade
  exact hres

/-- The loops append the records of the items that are kept. -/
theorem Collector.Reads.collect (h : c.Reads r) {combined : List ι}
    (hc : c.collect keywords = .ok combined) :
    List.Forall₂ (fun v record => r.kept v.2 = true ∧ c.Makes v record)
      (c.seen keywords r) combined := by
  obtain ⟨visited,hv,hg⟩ := gatherKeywords_eq_ok.mp hc
  rw [Collector.seen,Collector.visitedPairs,show c.visited keywords = .ok visited from hv]
  refine gather_filter (fun v part => h.passed v.1 v.2 part) (fun v part hkept hpart => ?_) hg
  obtain ⟨record,hrecord,-⟩ := h.appended v.1 v.2 part hkept hpart
  exact ⟨record,hrecord⟩

/-- The ten best are the records of the first ten of the ranking. -/
theorem Collector.Reads.topTen (h : c.Reads r) {top : List ι}
    (htop : c.topTen keywords = .ok top) :
    List.Forall₂ (fun v record => r.kept v.2 = true ∧ c.Makes v record)
      ((sortDesc r.key (c.seen keywords r)).take 10) top := by
  obtain ⟨combined,hc,hrest⟩ := bind_eq_ok.mp htop
  obtain ⟨sorted,hs,hcut⟩ := bind_eq_ok.mp hrest
  obtain ⟨-,rfl⟩ := sortReverse_eq_ok.mp hs
  rw [← pure_eq_ok.mp hcut]
  refine List.forall₂_take 10 (sortDesc_forall₂ (fun v record hmade => ?_) (h.collect hc))
  exact congrArg sortKey (h.scoreOf hmade.1 hmade.2).symm

/-- So their resources are those of the first ten. -/
theorem Collector.Reads.topTen_resources (h : c.Reads r) {top : List ι}
    (htop : c.topTen keywords = .ok top) :
    top.map c.resource =
      ((sortDesc r.key (c.seen keywords r)).take 10).map (fun v => r.resource v.2) :=
  map_of_forall₂ (fun _ _ hmade => h.resource hmade.1 hmade.2) (h.topTen htop)

/-- A run returns exactly when nothing on its way raises. -/
theorem Collector.Reads.completes (h : c.Reads r) :
    Returns (c.topTen keywords) ↔ c.Completes keywords r := by
  have hpairs : ∀ {visited}, c.visited keywords = .ok visited →
      c.visitedPairs keywords = visited := by
    intro visited hv
    rw [Collector.visitedPairs,hv]
  have hordered : ∀ {combined}, c.collect keywords = .ok combined →
      (Returns (sortReverse c.score combined) ↔ Sortable ((c.seen keywords r).map r.scoreOf)) := by
    intro combined hc
    rw [sortReverse_returns,
      map_of_forall₂ (fun _ _ hmade => h.scoreOf hmade.1 hmade.2) (h.collect hc)]
  constructor
  · rintro ⟨top,htop⟩
    obtain ⟨combined,hc,hrest⟩ := bind_eq_ok.mp htop
    obtain ⟨sorted,hs,-⟩ := bind_eq_ok.mp hrest
    obtain ⟨visited,hv,hall⟩ := (c.collect_returns keywords).mp ⟨combined,hc⟩
    refine ⟨⟨visited,hv⟩,fun v hmem => ?_,(hordered hc).mp ⟨sorted,hs⟩⟩
    exact (h.returns v.1 v.2).mp (hall v (hpairs hv ▸ hmem))
  · rintro ⟨⟨visited,hv⟩,hread,hsorted⟩
    obtain ⟨combined,hc⟩ := (c.collect_returns keywords).mpr ⟨visited,hv,fun v hmem =>
      (h.returns v.1 v.2).mpr (hread v ((hpairs hv).symm ▸ hmem))⟩
    obtain ⟨sorted,hs⟩ := (hordered hc).mpr hsorted
    exact ⟨sorted.take 10,bind_eq_ok.mpr ⟨combined,hc,bind_eq_ok.mpr ⟨sorted,hs,rfl⟩⟩⟩

end Readings

/-- Whenever a run returns, its list is a distinct top ten of the visited items
that are kept. -/
def ReturnsDistinctTop (r : Reading τ ρ) (run : Py (List ι)) : Prop :=
  ∀ top, run = .ok top →
    DistinctTop r.key (fun v => r.resource v.2) 10 (c.seen keywords r) (top.map c.resource)

/-- Every repeat of a resource is outranked: of two visited items of one resource
that are kept, one has ten such items ranked before it. -/
def RepeatsBehindTen (r : Reading τ ρ) : Prop :=
  RepeatsOutranked r.key (fun v => r.resource v.2) 10 (c.seen keywords r)

/-- When a run returns, and when its list is a distinct top ten. -/
structure DistinctExactly (r : Reading τ ρ) (run : Py (List ι)) : Prop where
  /-- The run returns exactly when nothing on its way raises. -/
  returns : Returns run ↔ c.Completes keywords r
  /-- Its list is a distinct top ten exactly when every repeat is outranked. -/
  distinct : ReturnsDistinctTop c keywords r run ↔
    (c.Completes keywords r → RepeatsBehindTen c keywords r)

/-- So it is for every collector with a reading. -/
theorem Collector.Reads.distinctExactly {c : Collector τ ι ρ} {r : Reading τ ρ}
    (h : c.Reads r) (keywords : List String) :
    DistinctExactly c keywords r (c.topTen keywords) := by
  refine ⟨h.completes,?_⟩
  have hiff := distinctTop_iff r.key (fun v => r.resource v.2) 10 (c.seen keywords r)
  constructor
  · intro hdistinct hcompletes
    obtain ⟨top,htop⟩ := h.completes.mpr hcompletes
    have hd := hdistinct top htop
    rw [h.topTen_resources htop] at hd
    exact hiff.mp hd
  · intro hrepeats top htop
    rw [h.topTen_resources htop]
    exact hiff.mpr (hrepeats (h.completes.mp ⟨top,htop⟩))

/-! ### The seven collectors -/

/-- The collector of `devto.py`. -/
def devtoCollector (py : Interpreter) (now : ℤ) (request : String → ℕ → Py HttpResponse)
    (pages : ℕ) : Collector Json DevtoItem Json :=
  ⟨.stop,devtoPage request,pageNumbers pages,devtoBody py now,
    DevtoItem.relevanceScore,DevtoItem.url⟩

/-- The collector of `news_api.py`. -/
def newsCollector (py : Interpreter) (now : ℤ) (request : String → ℕ → Py HttpResponse)
    (pages : ℕ) : Collector Json NewsItem Json :=
  ⟨.stop,newsPage request,pageNumbers pages,newsBody py now,
    NewsItem.relevanceScore,NewsItem.url⟩

/-- The collector of `fetch_papers.py`. -/
def paperCollector (py : Interpreter) (now : ℤ) (request : String → ℕ → Py HttpResponse)
    (pages : ℕ) : Collector Json PaperItem Json :=
  ⟨.skip,paperPage request,pageNumbers pages,paperBody py now,
    PaperItem.relevanceScore,PaperItem.url⟩

/-- The collector of `github.py`. -/
def githubCollector (py : Interpreter) (now : ℤ) (request : String → Py HttpResponse) :
    Collector Json GithubItem Json :=
  ⟨.skip,githubPage request,[1],githubBody py now,GithubItem.relevanceScore,GithubItem.url⟩

/-- The collector of `spotify1.py`. -/
def podcastCollector (py : Interpreter) (now : ℤ) (request : String → Py HttpResponse) :
    Collector Json PodcastItem Json :=
  ⟨.skip,podcastPage request,[1],podcastBody py now,
    PodcastItem.relevanceScore,PodcastItem.link⟩

/-- The collector of `scrape.py`. -/
def arxivCollector (py : Interpreter) (now : ℤ)
    (request : String → Py (ℕ×Option (List ArxivEntry))) :
    Collector ArxivEntry ArxivItem String :=
  ⟨.skip,arxivPage request,[1],arxivBody py now,ArxivItem.relevanceScore,ArxivItem.link⟩

/-- The collector of `tweets.py`. -/
def tweetCollector (py : Interpreter) (now : ℤ)
    (search : String → Py (Option (List Tweet))) : Collector Tweet TweetItem ℤ :=
  ⟨.skip,tweetPage search,[1],tweetBody py now,TweetItem.relevanceScore,TweetItem.id⟩

/-- The collected items of a result, without their summaries. -/
def itemsOf (run : Py (List (Summarised ι))) : Py (List ι) :=
  run.map (List.map Summarised.item)

/-- The closing loop adds a summary to each of the ten and never raises. -/
theorem itemsOf_withSummaries (ollama : Ollama) (text : ι → String) (run : Py (List ι)) :
    itemsOf (run >>= fun top => pure (withSummaries ollama text top)) = run := by
  cases run with
  | error e => rfl
  | ok top =>
    rw [ok_bind]
    exact congrArg Except.ok (withSummaries_item ollama text top)

/-- One of two results that are returned together. -/
theorem itemsOf_map_eq_ok {α : Type} {run : Py α} {half : α → List (Summarised ι)}
    {top : List ι} : itemsOf (run.map half) = .ok top ↔
      ∃ both, run = .ok both ∧ (half both).map Summarised.item = top := by
  simp only [itemsOf,map_eq_ok,exists_exists_and_eq_and]

theorem returns_itemsOf_map {α : Type} {run : Py α} {half : α → List (Summarised ι)} :
    Returns (itemsOf (run.map half)) ↔ Returns run := by
  simp only [itemsOf,returns_map]

section Functions

variable (py : Interpreter) (now : ℤ) (ollama : Ollama) (pages : ℕ)
  (paged : String → ℕ → Py HttpResponse) (request : String → Py HttpResponse)
  (authorised : String → String → Py HttpResponse)
  (feed : String → Py (ℕ×Option (List ArxivEntry)))
  (search : String → Py (Option (List Tweet)))

theorem getDevto_items :
    itemsOf (getDevtoBlogsAllKeywords py now ollama paged pages keywords) =
      (devtoCollector py now paged pages).topTen keywords := by
  rw [← itemsOf_withSummaries ollama
    (fun item => py.str item.title++"\n"++py.str item.description) (Collector.topTen _ _)]
  simp only [getDevtoBlogsAllKeywords,Collector.topTen,bind_assoc,pure_bind]
  rfl

theorem getNews_items :
    itemsOf (getTopAiBlogsAllKeywords py now ollama paged pages keywords) =
      (newsCollector py now paged pages).topTen keywords := by
  rw [← itemsOf_withSummaries ollama (fun item =>
    py.str item.title++" from "++py.str item.source++": "++py.str item.description)
    (Collector.topTen _ _)]
  simp only [getTopAiBlogsAllKeywords,Collector.topTen,bind_assoc,pure_bind]
  rfl

theorem getGithub_items :
    itemsOf (getTopAiProjectsAllKeywords py now ollama request keywords) =
      (githubCollector py now request).topTen keywords := by
  rw [← itemsOf_withSummaries ollama
    (fun item => py.str item.name++":\n"++py.str item.description) (Collector.topTen _ _)]
  simp only [getTopAiProjectsAllKeywords,Collector.topTen,bind_assoc,pure_bind]
  rfl

/-- Once a token is obtained; without one the function raises. -/
theorem getPodcasts_items (bearer : String) :
    itemsOf (getAiPodcastsAllKeywords py now ollama (.ok bearer) authorised keywords) =
      (podcastCollector py now (authorised bearer)).topTen keywords := by
  rw [← itemsOf_withSummaries ollama (fun item =>
    py.str item.name++" by "++py.str item.publisher++". "++py.str item.description)
    (Collector.topTen _ _)]
  simp only [getAiPodcastsAllKeywords,Collector.topTen,bind_assoc,pure_bind]
  rfl

theorem getArxiv_items :
    itemsOf (getRecentAiPapersAllKeywords py now ollama feed keywords) =
      (arxivCollector py now feed).topTen keywords := by
  rw [← itemsOf_withSummaries ollama (fun item => item.title++":\n"++item.summary)
    (Collector.topTen _ _)]
  simp only [getRecentAiPapersAllKeywords,Collector.topTen,bind_assoc,pure_bind]
  rfl

theorem getTweets_items : getTopAiTweetsAllKeywords py now search keywords =
    (tweetCollector py now search).topTen keywords := rfl

/-- An empty list of papers is returned as it is, which sorting would do too. -/
theorem getPapers_items :
    itemsOf (getTopAiPapersAllKeywords py now ollama paged pages keywords) =
      (paperCollector py now paged pages).topTen keywords := by
  rw [← itemsOf_withSummaries ollama
    (fun item => py.str item.title++"\n"++py.str item.abstract) (Collector.topTen _ _)]
  simp only [getTopAiPapersAllKeywords,Collector.topTen,bind_assoc,pure_bind]
  refine congrArg (fun k => itemsOf (collectPapers py now paged pages keywords >>= k))
    (funext fun combined => ?_)
  cases combined with
  | nil => rfl
  | cons first rest => rfl

end Functions

end Senca.CollectorRanking
