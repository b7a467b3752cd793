import Senca.CollectorRanking

/-!
# What the keyword collectors read of an upstream item

For each of the seven scrapers the members its loop body needs, the items its
date window lets in, the score and the resource of an item, and that the body
appends one record with them. From it follows when a run returns and when
what it returns is a distinct top ten.
-/

namespace Senca.ItemReadings

open CollectorRanking FaultLoops JsonValue PythonRuntime PythonText ScraperCollectors
open StableRanking

/-- A body that raises on the items that cannot be read, passes over those that are
not kept, and appends the record of each of the others once it is scored. -/
theorem reads_of_body {τ ι ρ : Type} {c : Collector τ ι ρ} {r : Reading τ ρ}
    (record : String → τ → Json → ι)
    (hraises : ∀ kw item, r.readable item = false → ¬Returns (c.body kw item))
    (hpassed : ∀ kw item, r.readable item = true → r.kept item = false →
      c.body kw item = .ok [])
    (hkept : ∀ kw item, r.readable item = true → r.kept item = true →
      c.body kw item = do pure [record kw item (← r.score kw item)])
    (hscore : ∀ kw item score, c.score (record kw item score) = score)
    (hresource : ∀ kw item score, c.resource (record kw item score) = r.resource item) :
    c.Reads r where
  returns kw item := by
    cases hreadable : r.readable item with
    | false => simpa using hraises kw item hreadable
    | true =>
      cases hk : r.kept item with
      | false => simp [hpassed kw item hreadable hk]
      | true =>
        rw [hkept kw item hreadable hk,returns_bind]
        simp [Returns]
  passed kw item part hk hpart := by
    cases hreadable : r.readable item with
    | false => exact absurd ⟨part,hpart⟩ (hraises kw item hreadable)
    | true => exact (Except.ok.inj ((hpassed kw item hreadable hk).symm.trans hpart)).symm
  appended kw item part hk hpart := by
    cases hreadable : r.readable item with
    | false => exact absurd ⟨part,hpart⟩ (hraises kw item hreadable)
    | true =>
      rw [hkept kw item hreadable hk] at hpart
      obtain ⟨score,hs,hrecord⟩ := bind_eq_ok.mp hpart
      obtain rfl := pure_eq_ok.mp hrecord
      exact ⟨_,rfl,by rw [hs,hscore],hresource kw item score⟩

/-! ### devto.py -/

/-- An article falls into the week that `devto.py` keeps. -/
def devtoKept (py : Interpreter) (now : ℤ) (item : Json) : Bool :=
  decide (now-days 7 ≤ devtoDate py now ((item.member? "published_at").getD (.str "")))

/-- What `devto.py` reads of an article. -/
def devtoReading (py : Interpreter) (now : ℤ) : Reading Json Json where
  readable item := isObject item &&
    (!devtoKept py now item || isObject ((item.member? "user").getD (.obj [])))
  kept := devtoKept py now
  score kw item := calculateDevtoRelevance py item kw
  resource item := (item.member? "url").getD (.str "No URL")

theorem devto_reads (py : Interpreter) (now : ℤ) (request : String → ℕ → Py HttpResponse)
    (pages : ℕ) : (devtoCollector py now request pages).Reads (devtoReading py now) := by
  have hwindow : ∀ members : List (String×Json), devtoKept py now (.obj members) = true ↔
      ¬devtoDate py now ((members.lookup "published_at").getD (.str "")) < now-days 7 := by
    intro members
    simp [devtoKept]
  refine reads_of_body (fun kw item score => {
      keyword := kw
      title := (item.member? "title").getD (.str "No Title")
      url := (item.member? "url").getD (.str "No URL")
      author := (((item.member? "user").getD (.obj [])).member? "username").getD
        (.str "Unknown Author")
      description := (item.member? "description").getD (.str "No Description")
      relevanceScore := score
      image := orElse ((item.member? "cover_image").getD .null) (.str "No image")
      createdAt := py.isoformat now })
    (fun kw item h => ?_) (fun kw item h hk => ?_) (fun kw item h hk => ?_)
    (fun _ _ _ => rfl) (fun _ _ _ => rfl)
  · cases item with
    | obj members =>
      simp only [devtoReading,isObject,Bool.true_and,Bool.or_eq_false_iff,Bool.not_eq_false',
        Json.member?_obj] at h
      simp only [devtoCollector,devtoBody,get_obj,ok_bind,if_neg ((hwindow members).mp h.1),
        get_eq_error h.2,error_bind]
      simp [returns_bind]
    | _ => exact not_returns_error PyError.attributeError
  · cases item with
    | obj members =>
      have hold := not_not.mp (mt (hwindow members).mpr (Bool.eq_false_iff.mp hk))
      simp only [devtoCollector,devtoBody,get_obj,ok_bind,if_pos hold]
      rfl
    | _ => simp [devtoReading,isObject] at h
  · cases item with
    | obj members =>
      have huser : isObject ((members.lookup "user").getD (.obj [])) = true := by
        have hk' : devtoKept py now (.obj members) = true := hk
        simpa [devtoReading,isObject,hk'] using h
      cases hu : (members.lookup "user").getD (.obj []) with
      | obj user =>
        simp only [devtoCollector,devtoReading,devtoBody,get_obj,ok_bind,
          if_neg ((hwindow members).mp hk),hu,Json.member?_obj]
      | _ => simp [hu,isObject] at huser
    | _ => simp [devtoReading,isObject] at h

/-! ### news_api.py -/

/-- What `news_api.py` reads of an article. -/
def newsReading (py : Interpreter) : Reading Json Json where
  readable item := isObject ((item.member? "source").getD (.obj []))
  kept _ := true
  score kw item := calculateBlogRelevance py item kw
  resource item := (item.member? "url").getD (.str "No URL")

theorem news_reads (py : Interpreter) (now : ℤ) (request : String → ℕ → Py HttpResponse)
    (pages : ℕ) : (newsCollector py now request pages).Reads (newsReading py) := by
  refine reads_of_body (fun kw item score => {
      keyword := kw
      title := (item.member? "title").getD (.str "No Title")
      author := (item.member? "author").getD (.str "Unknown")
      publishedAt := (item.member? "publishedAt").getD (.str "")
      source := (((item.member? "source").getD (.obj [])).member? "name").getD (.str "Unknown")
      description := (item.member? "description").getD (.str "")
      url := (item.member? "url").getD (.str "No URL")
      image := orElse ((item.member? "urlToImage").getD .null) (.str "No image")
      relevanceScore := score
      createdAt := py.isoformat now })
    (fun kw item h => ?_) (fun kw item h hk => absurd hk (by simp [newsReading]))
    (fun kw item h _ => ?_) (fun _ _ _ => rfl) (fun _ _ _ => rfl)
  · cases item with
    | obj members =>
      have hsource : isObject ((members.lookup "source").getD (.obj [])) = false := h
      simp only [newsCollector,newsBody,get_obj,ok_bind,get_eq_error hsource,error_bind]
      simp [returns_bind]
    | _ => simp [newsReading,Json.member?,isObject] at h
  · cases item with
    | obj members =>
      cases hs : (members.lookup "source").getD (.obj []) with
      | obj source =>
        simp only [newsCollector,newsReading,newsBody,get_obj,ok_bind,hs,Json.member?_obj]
      | _ => simp [newsReading,hs,isObject] at h
    | _ => rfl

/-! ### fetch_papers.py -/

/-- A paper has a date that parses and falls into the two months that
`fetch_papers.py` keeps. -/
def paperKept (py : Interpreter) (now : ℤ) (item : Json) : Bool :=
  match item.member? "published" with
  | some (.str s) => s ≠ "" && (py.strptime s "%Y-%m-%d").any
      (fun pubDate => midnight (now-days 60) ≤ midnight pubDate)
  | _ => false

theorem paperKept_iff {py : Interpreter} {now : ℤ} {members : List (String×Json)} :
    paperKept py now (.obj members) = true ↔ ∃ s pubDate,
      members.lookup "published" = some (.str s) ∧ s ≠ "" ∧
        py.strptime s "%Y-%m-%d" = some pubDate ∧
        midnight (now-days 60) ≤ midnight pubDate := by
  unfold paperKept
  rw [Json.member?_obj]
  cases members.lookup "published" with
  | none => simp
  | some value =>
    cases value with
    | str s => cases hp : py.strptime s "%Y-%m-%d" <;> simp [hp]
    | _ => simp

/-- What `fetch_papers.py` reads of a paper. -/
def paperReading (py : Interpreter) (now : ℤ) : Reading Json Json where
  readable item := isObject item &&
    (!truthy ((item.member? "published").getD (.str "")) ||
      isText ((item.member? "published").getD (.str "")))
  kept := paperKept py now
  score kw item := calculatePaperRelevance py item kw
  resource item := orElse ((item.member? "url_pdf").getD .null)
    ((item.member? "url_abs").getD .null)

/-- An undated paper, or one outside the window, is passed over unscored. -/
theorem paperBody_passed {py : Interpreter} {now : ℤ} {members : List (String×Json)} (kw : String)
    (h : (paperReading py now).readable (.obj members) = true)
    (hkept : ¬paperKept py now (.obj members) = true) :
    paperBody py now kw (.obj members) = .ok [] := by
  simp only [paperBody,get_obj,ok_bind]
  simp only [paperReading,isObject,Bool.true_and,Json.member?_obj] at h
  by_cases hpub : truthy ((members.lookup "published").getD (.str "")) = true
  · cases hs : members.lookup "published" with
    | none => simp [hs,truthy] at hpub
    | some value =>
      cases value with
      | str s =>
        have hne : s ≠ "" := by simpa [hs,truthy] using hpub
        cases hparse : py.strptime s "%Y-%m-%d" with
        | none => simp [truthy,hne,hparse,pure,Except.pure]
        | some pubDate =>
          have hwindow : ¬midnight (now-days 60) ≤ midnight pubDate :=
            fun hw => hkept (paperKept_iff.mpr ⟨s,pubDate,hs,hne,hparse,hw⟩)
          simp only [Option.getD_some,truthy,hne,ne_eq,not_false_eq_true,decide_true,
            Bool.not_true,Bool.false_eq_true,if_false,hparse,if_neg hwindow]
          rfl
      | _ => simp [hs] at hpub h; simp [hpub,isText] at h
  · simp [hpub,pure,Except.pure]

theorem paper_reads (py : Interpreter) (now : ℤ) (request : String → ℕ → Py HttpResponse)
    (pages : ℕ) : (paperCollector py now request pages).Reads (paperReading py now) := by
  refine reads_of_body (fun kw item score => {
      keyword := kw
      title := (item.member? "title").getD .null
      authors := (item.member? "authors").getD .null
      abstract := (item.member? "abstract").getD .null
      date := (item.member? "published").getD (.str "")
      url := orElse ((item.member? "url_pdf").getD .null) ((item.member? "url_abs").getD .null)
      relevanceScore := score
      image := "No image"
      createdAt := py.isoformat now })
    (fun kw item h => ?_) (fun kw item h hk => ?_) (fun kw item h hk => ?_)
    (fun _ _ _ => rfl) (fun _ _ _ => rfl)
  · cases item with
    | obj members =>
      simp only [paperReading,isObject,Bool.true_and,Json.member?_obj,Bool.or_eq_false_iff,
        Bool.not_eq_false'] at h
      simp only [paperCollector,paperBody,get_obj,ok_bind,h.1]
      cases hs : (members.lookup "published").getD (.str "") with
      | str s => simp [hs,isText] at h
      | _ => simp
    | _ => exact not_returns_error PyError.attributeError
  · cases item with
    | obj members => exact paperBody_passed kw h (Bool.eq_false_iff.mp hk)
    | _ => simp [paperReading,isObject] at h
  · cases item with
    | obj members =>
      obtain ⟨s,pubDate,hs,hne,hparse,hwindow⟩ := paperKept_iff.mp hk
      simp only [paperCollector,paperReading,paperBody,get_obj,ok_bind,hs,Option.getD_some,
        truthy,hne,ne_eq,not_false_eq_true,decide_true,Bool.not_true,Bool.false_eq_true,
        if_false,hparse,if_pos hwindow,Json.member?_obj]
    | _ => simp [paperReading,isObject] at h

/-! ### github.py -/

/-- What `github.py` reads of a repository. -/
def githubReading (py : Interpreter) : Reading Json Json where
  readable item := isObject ((item.member? "owner").getD (.obj []))
  kept _ := true
  score _ item := do
    let stars ← get item "stargazers_count" (.int 0)
    let forks ← get item "forks_count" (.int 0)
    calculateRepoRelevance py stars forks
  resource item := (item.member? "html_url").getD .null

theorem github_reads (py : Interpreter) (now : ℤ) (request : String → Py HttpResponse) :
    (githubCollector py now request).Reads (githubReading py) := by
  refine reads_of_body (fun kw item score => {
      keyword := kw
      name := (item.member? "name").getD .null
      url := (item.member? "html_url").getD .null
      description := (item.member? "description").getD .null
      stars := (item.member? "stargazers_count").getD (.int 0)
      forks := (item.member? "forks_count").getD (.int 0)
      lastUpdated := (item.member? "updated_at").getD .null
      relevanceScore := score
      image := (((item.member? "owner").getD (.obj [])).member? "avatar_url").getD
        (.str "No image")
      createdAt := py.isoformat now })
    (fun kw item h => ?_) (fun kw item h hk => absurd hk (by simp [githubReading]))
    (fun kw item h _ => ?_) (fun _ _ _ => rfl) (fun _ _ _ => rfl)
  · cases item with
    | obj members =>
      have howner : isObject ((members.lookup "owner").getD (.obj [])) = false := h
      simp only [githubCollector,githubBody,get_obj,ok_bind,get_eq_error howner,error_bind]
      simp [returns_bind]
    | _ => simp [githubReading,Json.member?,isObject] at h
  · cases item with
    | obj members =>
      cases hs : (members.lookup "owner").getD (.obj []) with
      | obj owner =>
        simp only [githubCollector,githubReading,githubBody,get_obj,ok_bind,hs,Json.member?_obj]
      | _ => simp [githubReading,hs,isObject] at h
    | _ => rfl

/-! ### spotify1.py -/

/-- What `spotify1.py` reads of a show. -/
def podcastReading (py : Interpreter) : Reading Json Json where
  readable item := isObject ((item.member? "external_urls").getD (.obj []))
  kept _ := true
  score kw item := calculatePodcastRelevance py item kw
  resource item :=
    (((item.member? "external_urls").getD (.obj [])).member? "spotify").getD (.str "")

theorem podcast_reads (py : Interpreter) (now : ℤ) (request : String → Py HttpResponse) :
    (podcastCollector py now request).Reads (podcastReading py) := by
  refine reads_of_body (fun kw item score => {
      keyword := kw
      name := (item.member? "name").getD (.str "")
      description := (item.member? "description").getD (.str "")
      publisher := (item.member? "publisher").getD (.str "")
      link := (((item.member? "external_urls").getD (.obj [])).member? "spotify").getD (.str "")
      popularity := (item.member? "popularity").getD (.int 0)
      relevanceScore := score
      image := "No image"
      createdAt := py.isoformat now })
    (fun kw item h => ?_) (fun kw item h hk => absurd hk (by simp [podcastReading]))
    (fun kw item h _ => ?_) (fun _ _ _ => rfl) (fun _ _ _ => rfl)
  · cases item with
    | obj members =>
      have hurls : isObject ((members.lookup "external_urls").getD (.obj [])) = false := h
      simp only [podcastCollector,podcastBody,get_obj,ok_bind,get_eq_error hurls,error_bind]
      simp [returns_bind]
    | _ => simp [podcastReading,Json.member?,isObject] at h
  · cases item with
    | obj members =>
      cases hs : (members.lookup "external_urls").getD (.obj []) with
      | obj urls =>
        simp only [podcastCollector,podcastReading,podcastBody,get_obj,ok_bind,hs,
          Json.member?_obj]
      | _ => simp [podcastReading,hs,isObject] at h
    | _ => rfl

/-! ### scrape.py -/

/-- What `scrape.py` reads of an entry of the feed. -/
def arxivReading (py : Interpreter) (now : ℤ) : Reading ArxivEntry String where
  readable entry := entry.title.isSome && entry.summary.isSome && entry.published.isSome &&
    entry.authors.all Option.isSome && entry.id.isSome
  kept entry := decide (py.strftimeDate (now-days 30) ≤
    String.ofList ((entry.published.getD "").toList.take 10))
  score kw entry := calculateArxivRelevance py (entry.title.getD "")
    (String.ofList (strip (entry.summary.getD "").toList)) (entry.authors.map (·.getD "")) kw
  resource entry := entry.id.getD ""

/-- The names of the authors, when each has one. -/
theorem gather_authors {authors : List (Option String)} (h : authors.all Option.isSome = true) :
    gather (fun a => do pure [← textOf a]) authors = .ok (authors.map (·.getD "")) := by
  rw [List.map_eq_flatMap]
  refine gather_eq_flatMap fun a ha => ?_
  obtain ⟨name,rfl⟩ := Option.isSome_iff_exists.mp (List.all_eq_true.mp h a ha)
  rfl

theorem arxiv_reads (py : Interpreter) (now : ℤ)
    (request : String → Py (ℕ×Option (List ArxivEntry))) :
    (arxivCollector py now request).Reads (arxivReading py now) := by
  have hbody : ∀ kw entry, (arxivReading py now).readable entry = true →
      arxivBody py now kw entry =
        if (arxivReading py now).kept entry = true then do
          let score ← (arxivReading py now).score kw entry
          pure [{
            keyword := kw
            title := entry.title.getD ""
            summary := String.ofList (strip (entry.summary.getD "").toList)
            publishedDate := String.ofList ((entry.published.getD "").toList.take 10)
            authors := entry.authors.map (·.getD "")
            link := entry.id.getD ""
            relevanceScore := score
            image := "No image"
            createdAt := py.isoformat now }]
        else pure [] := by
    rintro kw ⟨title,summary,published,id,authors⟩ h
    simp only [arxivReading,Bool.and_eq_true,Option.isSome_iff_exists] at h
    obtain ⟨⟨⟨⟨⟨_,rfl⟩,_,rfl⟩,_,rfl⟩,hauthors⟩,_,rfl⟩ := h
    simp only [arxivReading,arxivBody,textOf_some,ok_bind,gather_authors hauthors,Option.getD_some,
      decide_eq_true_eq]
  refine reads_of_body (fun kw entry score => {
      keyword := kw
      title := entry.title.getD ""
      summary := String.ofList (strip (entry.summary.getD "").toList)
      publishedDate := String.ofList ((entry.published.getD "").toList.take 10)
      authors := entry.authors.map (·.getD "")
      link := entry.id.getD ""
      relevanceScore := score
      image := "No image"
      createdAt := py.isoformat now })
    (fun kw entry h => ?_)
    (fun kw entry h hk => (hbody kw entry h).trans (if_neg (by simp [hk])))
    (fun kw entry h hk => (hbody kw entry h).trans (if_pos hk))
    (fun _ _ _ => rfl) (fun _ _ _ => rfl)
  obtain ⟨title,summary,published,id,authors⟩ := entry
  change ¬Returns (arxivBody py now kw _)
  rintro ⟨part,hpart⟩
  simp only [arxivBody,bind_eq_ok] at hpart
  obtain ⟨t,ht,s,hs,p,hp,names,hnames,link,hlink,-⟩ := hpart
  have hsome : ∀ {text : Option String} {read}, textOf text = .ok read → text.isSome = true := by
    rintro (_ | text) read hread
    · cases hread
    · rfl
  have hall : authors.all Option.isSome = true := by
    rw [List.all_eq_true]
    intro a ha
    obtain ⟨_,hone⟩ := gather_returns.mp ⟨names,hnames⟩ a ha
    obtain ⟨name,hname,-⟩ := bind_eq_ok.mp hone
    exact hsome hname
  simp [arxivReading,hsome ht,hsome hs,hsome hp,hsome hlink,hall] at h

/-! ### tweets.py -/

/-- What `tweets.py` reads of a tweet. -/
def tweetReading (py : Interpreter) : Reading Tweet ℤ where
  readable _ := true
  kept _ := true
  score _ tw := do
    let likes ← get tw.publicMetrics "like_count" (.int 0)
    let retweets ← get tw.publicMetrics "retweet_count" (.int 0)
    let replies ← get tw.publicMetrics "reply_count" (.int 0)
    let views ← get tw.publicMetrics "impression_count" (.int 0)
    calculateRelevanceTweet py likes retweets replies views
  resource tw := tw.id

theorem tweet_reads (py : Interpreter) (now : ℤ)
    (search : String → Py (Option (List Tweet))) :
    (tweetCollector py now search).Reads (tweetReading py) := by
  refine reads_of_body (fun kw tw score => {
      keyword := kw
      id := tw.id
      text := tw.text
      authorId := tw.authorId
      tweetCreatedAt := tw.createdAt
      likes := (tw.publicMetrics.member? "like_count").getD (.int 0)
      retweets := (tw.publicMetrics.member? "retweet_count").getD (.int 0)
      replies := (tw.publicMetrics.member? "reply_count").getD (.int 0)
      views := (tw.publicMetrics.member? "impression_count").getD (.int 0)
      relevanceScore := score
      image := "No image"
      createdAt := py.isoformat now })
    (fun kw tw h => absurd h (by simp [tweetReading]))
    (fun kw tw h hk => absurd hk (by simp [tweetReading]))
    (fun kw tw _ _ => ?_) (fun _ _ _ => rfl) (fun _ _ _ => rfl)
  obtain ⟨id,text,authorId,createdAt,metrics⟩ := tw
  cases metrics with
  | obj members =>
    simp only [tweetCollector,tweetReading,tweetBody,get_obj,ok_bind,Json.member?_obj]
  | _ => rfl

/-! ### The seven collectors -/

section Functions

variable (py : Interpreter) (now : ℤ) (ollama : Ollama) (pages : ℕ) (keywords : List String)
  (paged : String → ℕ → Py HttpResponse) (request : String → Py HttpResponse)
  (authorised : String → String → Py HttpResponse)
  (feed : String → Py (ℕ×Option (List ArxivEntry)))
  (search : String → Py (Option (List Tweet)))

/-- The seven collectors return on the upstream answers in which nothing raises,
and return a distinct top ten exactly on those of them in which every repeated
resource is outranked by ten visited items. -/
theorem collectors_distinct_iff (bearer : String) :
    DistinctExactly (devtoCollector py now paged pages) keywords (devtoReading py now)
      (itemsOf (getDevtoBlogsAllKeywords py now ollama paged pages keywords)) ∧
    DistinctExactly (githubCollector py now request) keywords (githubReading py)
      (itemsOf (getTopAiProjectsAllKeywords py now ollama request keywords)) ∧
    DistinctExactly (paperCollector py now paged pages) keywords (paperReading py now)
      (itemsOf (getTopAiPapersAllKeywords py now ollama paged pages keywords)) ∧
    DistinctExactly (newsCollector py now paged pages) keywords (newsReading py)
      (itemsOf (getTopAiBlogsAllKeywords py now ollama paged pages keywords)) ∧
    DistinctExactly (arxivCollector py now feed) keywords (arxivReading py now)
      (itemsOf (getRecentAiPapersAllKeywords py now ollama feed keywords)) ∧
    DistinctExactly (podcastCollector py now (authorised bearer)) keywords (podcastReading py)
      (itemsOf (getAiPodcastsAllKeywords py now ollama (.ok bearer) authorised keywords)) ∧
    DistinctExactly (tweetCollector py now search) keywords (tweetReading py)
      (getTopAiTweetsAllKeywords py now search keywords) := by
  rw [getDevto_items,getGithub_items,getPapers_items,getNews_items,getArxiv_items,
    getPodcasts_items,getTweets_items]
  exact ⟨(devto_reads py now paged pages).distinctExactly keywords,
    (github_reads py now request).distinctExactly keywords,
    (paper_reads py now paged pages).distinctExactly keywords,
    (news_reads py now paged pages).distinctExactly keywords,
    (arxiv_reads py now feed).distinctExactly keywords,
    (podcast_reads py now (authorised bearer)).distinctExactly keywords,
    (tweet_reads py now search).distinctExactly keywords⟩

end Functions

/-- One repository that every search answers with. -/
def sharedRepository : Json := .obj [("name",.str "lean"),
  ("html_url",.str "https://github.com/leanprover/lean4"),("stargazers_count",.int 5),
  ("forks_count",.int 1),("owner",.obj [])]

/-- The answer of every search. -/
def sharedSearch (_ : String) : Py HttpResponse :=
  .ok ⟨200,.ok (.obj [("items",.arr [sharedRepository])])⟩

/-- Two keywords that find one repository return it twice. -/
theorem sharedRepository_twice :
    ¬ReturnsDistinctTop (githubCollector sampleInterpreter 0 sharedSearch) ["ai","llm"]
      (githubReading sampleInterpreter)
      (itemsOf (getTopAiProjectsAllKeywords sampleInterpreter 0 (fun _ _ => .ok "")
        sharedSearch ["ai","llm"])) := by
  intro h
  have hlinks : [Json.str "https://github.com/leanprover/lean4",
      Json.str "https://github.com/leanprover/lean4"].Nodup := (h _ rfl).nodup
  simp at hlinks

end Senca.ItemReadings
