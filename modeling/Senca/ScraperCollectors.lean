import Senca.PythonRuntime
import Senca.PythonText

/-!
# The scrapers' fetch, score and collect functions

Every collector runs over its keywords, the pages of each and the items of
each page, scores what it keeps, sorts the lot by score and takes ten. The
answers of the upstream services are parameters: a function from keyword
and page to a response or a raised exception. `now` is the local time at
which the run reads its clock, in microseconds.
-/

namespace Senca.ScraperCollectors

open FaultLoops JsonValue PythonRuntime PythonText

/-- What `requests.get` hands back. -/
structure HttpResponse where
  /-- The status code. -/
  statusCode : ℕ
  /-- `resp.json()`, which raises on a body that is not JSON. -/
  json : Py Json

/-! ### Summaries -/

/-- `result.stdout` of `subprocess.run` with `text=True`: what the process wrote, with
its line ends translated. -/
def capturedStdout (stdout : String) : List Char := universalNewlines false stdout.toList

/-- What the scrapers do with the text the model writes to stdout. -/
def extractSummary (stdout : String) : String :=
  let output := strip (capturedStdout stdout)
  if "<think>".toList <:+: output ∧ "</think>".toList <:+: output then
    let parts := split "</think>".toList output
    if 1 < parts.length then String.ofList (strip (parts.getLastD []))
    else String.ofList output
  else String.ofList output

/-- `ollama run` on its n-th call: the text written to stdout, or the message
of a raised exception. -/
abbrev Ollama := ℕ → String → Except String String

/-- The prompt of every scraper but `tools1.py`. -/
def summaryPrompt (text : String) (maxWords : ℕ) : String :=
  "Summarize below text in plain English using no more than "++toString maxWords++
    " words, no filler:\n\n"++text

/-- `summarize_with_deepseek_r1`, given the prompt it builds; never raises. -/
def summarizeWithDeepseekR1 (ollama : Ollama) (call : ℕ) (prompt : String) : String :=
  match ollama call prompt with
  | .ok stdout => extractSummary stdout
  | .error message => "Error: "++message

/-- An item to which `summary_50_words` has been added. -/
structure Summarised (ι : Type) where
  /-- The collected item. -/
  item : ι
  /-- The value of `summary_50_words`. -/
  summary50Words : String

/-- The closing loop over the ten items. -/
def withSummaries {ι : Type} (ollama : Ollama) (text : ι → String) (top : List ι) :
    List (Summarised ι) :=
  top.zipIdx.map (fun entry =>
    ⟨entry.1,summarizeWithDeepseekR1 ollama entry.2 (summaryPrompt (text entry.1) 50)⟩)

@[simp] theorem withSummaries_item {ι : Type} (ollama : Ollama) (text : ι → String)
    (top : List ι) : (withSummaries ollama text top).map Summarised.item = top := by
  rw [withSummaries,List.map_map]
  exact List.zipIdx_map_fst 0 top

/-- `range(1, pages + 1)`. -/
def pageNumbers (pages : ℕ) : List ℕ := List.range' 1 pages

/-- `if not answer: break` or `continue`, else `for item in answer`. -/
def nonemptyPage (answer : Json) : Py (Option (List Json)) :=
  if truthy answer then do
    let items ← iterate answer
    pure (some items)
  else pure none

/-- `0.5 * n` for a length, which always converts to a float. -/
def halfOf (py : Interpreter) (n : ℕ) : Json := .float (py.roundFloat (1/2*(n : ℚ)))

/-! ### devto.py -/

/-- An entry of `combined` in `devto.py`. -/
structure DevtoItem where
  keyword : String
  title : Json
  url : Json
  author : Json
  description : Json
  relevanceScore : Json
  image : Json
  createdAt : String

/-- `calculate_devto_relevance`. -/
def calculateDevtoRelevance (py : Interpreter) (article : Json) (keyword : String) :
    Py Json := do
  let score := Json.int 0
  let reac ← get article "positive_reactions_count" (.int 0)
  let comm ← get article "comments_count" (.int 0)
  let score ← py.add score (← py.add reac comm)
  let title ← py.lowerOf (← get article "title" (.str ""))
  let desc ← py.lowerOf (← get article "description" (.str ""))
  let score ← if isIn keyword title then py.add score (.int 2) else pure score
  if isIn keyword desc then py.add score (.int 1) else pure score

/-- `fetch_devto_for_keyword`; `get` is the request for a tag and a page. -/
def fetchDevtoForKeyword (request : String → ℕ → Py HttpResponse) (keyword : String)
    (page : ℕ) : Py Json := do
  let resp ← request keyword page
  if resp.statusCode = 200 then resp.json else pure (.arr [])

/-- The publication time of an article; every failure to parse it reads as now. -/
def devtoDate (py : Interpreter) (now : ℤ) (published : Json) : ℤ :=
  match published with
  | .str s => (py.strptime s "%Y-%m-%dT%H:%M:%SZ").getD now
  | _ => now

/-- The loop body of `get_devto_blogs_all_keywords`. -/
def devtoBody (py : Interpreter) (now : ℤ) (kw : String) (art : Json) :
    Py (List DevtoItem) := do
  let published ← get art "published_at" (.str "")
  if devtoDate py now published < now-days 7 then pure []
  else do
    let score ← calculateDevtoRelevance py art kw
    let title ← get art "title" (.str "No Title")
    let url ← get art "url" (.str "No URL")
    let author ← get (← get art "user" (.obj [])) "username" (.str "Unknown Author")
    let description ← get art "description" (.str "No Description")
    let cover ← get art "cover_image" .null
    pure [{
      keyword := kw
      title := title
      url := url
      author := author
      description := description
      relevanceScore := score
      image := orElse cover (.str "No image")
      createdAt := py.isoformat now }]

/-- One page of articles, leaving the page loop when there are none. -/
def devtoPage (request : String → ℕ → Py HttpResponse) (kw : String) (pg : ℕ) :
    Py (Option (List Json)) := do
  let articles ← fetchDevtoForKeyword request kw pg
  nonemptyPage articles

/-- The list `combined` of `get_devto_blogs_all_keywords`. -/
def collectDevto (py : Interpreter) (now : ℤ) (request : String → ℕ → Py HttpResponse)
    (pagesToFetch : ℕ) (keywords : List String) : Py (List DevtoItem) :=
  gatherKeywords .stop (devtoPage request) (pageNumbers pagesToFetch) (devtoBody py now) keywords

/-- `get_devto_blogs_all_keywords`. -/
def getDevtoBlogsAllKeywords (py : Interpreter) (now : ℤ) (ollama : Ollama)
    (request : String → ℕ → Py HttpResponse) (pagesToFetch : ℕ) (keywords : List String) :
    Py (List (Summarised DevtoItem)) := do
  let combined ← collectDevto py now request pagesToFetch keywords
  let sorted ← sortReverse DevtoItem.relevanceScore combined
  pure (withSummaries ollama
    (fun item => py.str item.title++"\n"++py.str item.description) (sorted.take 10))

/-! ### news_api.py -/

/-- An entry of `combined` in `news_api.py`. -/
structure NewsItem where
  keyword : String
  title : Json
  author : Json
  publishedAt : Json
  source : Json
  description : Json
  url : Json
  image : Json
  relevanceScore : Json
  createdAt : String

/-- The sources that raise an article's score. -/
def trustedSources : List String := ["techcrunch","mit technology review","venturebeat","wired"]

/-- `calculate_blog_relevance`. -/
def calculateBlogRelevance (py : Interpreter) (article : Json) (keyword : String) :
    Py Json := do
  let title ← py.lowerOf (← get article "title" (.str ""))
  let desc ← py.lowerOf (← get article "description" (.str ""))
  let sourceName ← py.lowerOf (← get (← get article "source" (.obj [])) "name" (.str ""))
  let score : ℤ := 0
  let score := if isIn (py.lower keyword) title then score+2 else score
  let score := if isIn (py.lower keyword) desc then score+1 else score
  let score := if trustedSources.any (fun ts => isIn ts sourceName) then score+2 else score
  pure (.int score)

/-- `fetch_newsapi_for_keyword`; every exception reads as no articles. -/
def fetchNewsapiForKeyword (request : String → ℕ → Py HttpResponse) (keyword : String)
    (page : ℕ) : Json :=
  let answer : Py Json := do
    let resp ← request keyword page
    if resp.statusCode = 200 then get (← resp.json) "articles" (.arr []) else pure (.arr [])
  match answer with
  | .ok articles => articles
  | .error _ => .arr []

/-- The loop body of `get_top_ai_blogs_all_keywords`. -/
def newsBody (py : Interpreter) (now : ℤ) (kw : String) (art : Json) : Py (List NewsItem) := do
  let score ← calculateBlogRelevance py art kw
  let toImage ← get art "urlToImage" .null
  let title ← get art "title" (.str "No Title")
  let author ← get art "author" (.str "Unknown")
  let publishedAt ← get art "publishedAt" (.str "")
  let source ← get (← get art "source" (.obj [])) "name" (.str "Unknown")
  let description ← get art "description" (.str "")
  let url ← get art "url" (.str "No URL")
  pure [{
    keyword := kw
    title := title
    author := author
    publishedAt := publishedAt
    source := source
    description := description
    url := url
    image := orElse toImage (.str "No image")
    relevanceScore := score
    createdAt := py.isoformat now }]

/-- One page of articles, leaving the page loop when there are none. -/
def newsPage (request : String → ℕ → Py HttpResponse) (kw : String) (pg : ℕ) :
    Py (Option (List Json)) := nonemptyPage (fetchNewsapiForKeyword request kw pg)

/-- The list `combined` of `get_top_ai_blogs_all_keywords`. -/
def collectNews (py : Interpreter) (now : ℤ) (request : String → ℕ → Py HttpResponse)
    (pages : ℕ) (keywords : List String) : Py (List NewsItem) :=
  gatherKeywords .stop (newsPage request) (pageNumbers pages) (newsBody py now) keywords

/-- `get_top_ai_blogs_all_keywords`. -/
def getTopAiBlogsAllKeywords (py : Interpreter) (now : ℤ) (ollama : Ollama)
    (request : String → ℕ → Py HttpResponse) (pages : ℕ) (keywords : List String) :
    Py (List (Summarised NewsItem)) := do
  let combined ← collectNews py now request pages keywords
  let sorted ← sortReverse NewsItem.relevanceScore combined
  pure (withSummaries ollama (fun item =>
    py.str item.title++" from "++py.str item.source++": "++py.str item.description)
    (sorted.take 10))

/-! ### fetch_papers.py -/

/-- An entry of `combined` in `fetch_papers.py`. -/
structure PaperItem where
  keyword : String
  title : Json
  authors : Json
  abstract : Json
  date : Json
  url : Json
  relevanceScore : Json
  image : String
  createdAt : String

/-- `calculate_paper_relevance`. -/
def calculatePaperRelevance (py : Interpreter) (paper : Json) (keyword : String) :
    Py Json := do
  let title ← py.lowerOf (← get paper "title" (.str ""))
  let abstract ← py.lowerOf (← get paper "abstract" (.str ""))
  let authors ← get paper "authors" (.arr [])
  let score := halfOf py (← len authors)
  let score ← if isIn (py.lower keyword) title then py.add score (.int 2) else pure score
  if isIn (py.lower keyword) abstract then py.add score (.int 1) else pure score

/-- `fetch_papers_for_keyword`; the progress print takes the length of the results. -/
def fetchPapersForKeyword (request : String → ℕ → Py HttpResponse) (keyword : String)
    (page : ℕ) : Py Json := do
  let resp ← request keyword page
  if resp.statusCode = 200 then do
    let results ← get (← resp.json) "results" (.arr [])
    let _found ← len results
    pure results
  else pure (.arr [])

/-- `replace(hour=0, minute=0, second=0, microsecond=0)`. -/
def midnight (t : ℤ) : ℤ := t-t%microsPerDay

/-- The loop body of `get_top_ai_papers_all_keywords`. -/
def paperBody (py : Interpreter) (now : ℤ) (kw : String) (paper : Json) :
    Py (List PaperItem) := do
  let pubStr ← get paper "published" (.str "")
  if !truthy pubStr then pure []
  else
    match pubStr with
    | .str s =>
      match py.strptime s "%Y-%m-%d" with
      | none => pure []
      | some pubDate =>
        if midnight (now-days 60) ≤ midnight pubDate then do
          let score ← calculatePaperRelevance py paper kw
          let title ← get paper "title" .null
          let authors ← get paper "authors" .null
          let abstract ← get paper "abstract" .null
          let pdf ← get paper "url_pdf" .null
          let abs ← get paper "url_abs" .null
          pure [{
            keyword := kw
            title := title
            authors := authors
            abstract := abstract
            date := pubStr
            url := orElse pdf abs
            relevanceScore := score
            image := "No image"
            createdAt := py.isoformat now }]
        else pure []
    | _ => .error .typeError

/-- One page of papers; an empty page does not end the page loop. -/
def paperPage (request : String → ℕ → Py HttpResponse) (kw : String) (pg : ℕ) :
    Py (Option (List Json)) := do
  let papers ← fetchPapersForKeyword request kw pg
  nonemptyPage papers

/-- The list `combined` of `get_top_ai_papers_all_keywords`. -/
def collectPapers (py : Interpreter) (now : ℤ) (request : String → ℕ → Py HttpResponse)
    (pagesToFetch : ℕ) (keywords : List String) : Py (List PaperItem) :=
  gatherKeywords .skip (paperPage request) (pageNumbers pagesToFetch) (paperBody py now) keywords

/-- `get_top_ai_papers_all_keywords`. -/
def getTopAiPapersAllKeywords (py : Interpreter) (now : ℤ) (ollama : Ollama)
    (request : String → ℕ → Py HttpResponse) (pagesToFetch : ℕ) (keywords : List String) :
    Py (List (Summarised PaperItem)) := do
  let combined ← collectPapers py now request pagesToFetch keywords
  if combined.isEmpty then pure []
  else do
    let sorted ← sortReverse PaperItem.relevanceScore combined
    pure (withSummaries ollama
      (fun item => py.str item.title++"\n"++py.str item.abstract) (sorted.take 10))

/-! ### github.py -/

/-- An entry of `combined` in `github.py`. -/
structure GithubItem where
  keyword : String
  name : Json
  url : Json
  description : Json
  stars : Json
  forks : Json
  lastUpdated : Json
  relevanceScore : Json
  image : Json
  createdAt : String

/-- `calculate_repo_relevance`. -/
def calculateRepoRelevance (py : Interpreter) (stars forks : Json) : Py Json := do
  py.add stars (← py.mul (.int 2) forks)

/-- `fetch_github_repos_for_keyword`, one request for each keyword. -/
def fetchGithubReposForKeyword (request : String → Py HttpResponse) (keyword : String) :
    Py Json := do
  let resp ← request keyword
  if resp.statusCode = 200 then get (← resp.json) "items" (.arr []) else pure (.arr [])

/-- The loop body of `get_top_ai_projects_all_keywords`. -/
def githubBody (py : Interpreter) (now : ℤ) (kw : String) (r : Json) :
    Py (List GithubItem) := do
  let stars ← get r "stargazers_count" (.int 0)
  let forks ← get r "forks_count" (.int 0)
  let score ← calculateRepoRelevance py stars forks
  let owner ← get r "owner" (.obj [])
  let imageUrl ← get owner "avatar_url" (.str "No image")
  let name ← get r "name" .null
  let url ← get r "html_url" .null
  let description ← get r "description" .null
  let updated ← get r "updated_at" .null
  pure [{
    keyword := kw
    name := name
    url := url
    description := description
    stars := stars
    forks := forks
    lastUpdated := updated
    relevanceScore := score
    image := imageUrl
    createdAt := py.isoformat now }]

/-- The one page of repositories of a keyword, iterated without a check. -/
def githubPage (request : String → Py HttpResponse) (kw : String) (_ : ℕ) :
    Py (Option (List Json)) := do
  let repos ← iterate (← fetchGithubReposForKeyword request kw)
  pure (some repos)

/-- The list `combined` of `get_top_ai_projects_all_keywords`. -/
def collectGithub (py : Interpreter) (now : ℤ) (request : String → Py HttpResponse)
    (keywords : List String) : Py (List GithubItem) :=
  gatherKeywords .skip (githubPage request) [1] (githubBody py now) keywords

/-- `get_top_ai_projects_all_keywords`. -/
def getTopAiProjectsAllKeywords (py : Interpreter) (now : ℤ) (ollama : Ollama)
    (request : String → Py HttpResponse) (keywords : List String) :
    Py (List (Summarised GithubItem)) := do
  let combined ← collectGithub py now request keywords
  let sorted ← sortReverse GithubItem.relevanceScore combined
  pure (withSummaries ollama
    (fun item => py.str item.name++":\n"++py.str item.description) (sorted.take 10))

/-! ### spotify1.py -/

/-- An entry of `combined` in `spotify1.py`. -/
structure PodcastItem where
  keyword : String
  name : Json
  description : Json
  publisher : Json
  link : Json
  popularity : Json
  relevanceScore : Json
  image : String
  createdAt : String

/-- `calculate_podcast_relevance`. -/
def calculatePodcastRelevance (py : Interpreter) (showObj : Json) (keyword : String) :
    Py Json := do
  let baseScore ← get showObj "popularity" (.int 50)
  let nameLower ← py.lowerOf (← get showObj "name" (.str ""))
  let descLower ← py.lowerOf (← get showObj "description" (.str ""))
  let extra : ℤ := 0
  let extra := if isIn (py.lower keyword) nameLower then extra+10 else extra
  let extra := if isIn (py.lower keyword) descLower then extra+5 else extra
  py.add baseScore (.int extra)

/-- `fetch_spotify_podcasts_for_keyword` with the token already obtained. -/
def fetchSpotifyPodcastsForKeyword (request : String → Py HttpResponse) (keyword : String) :
    Py Json := do
  let r ← request keyword
  if r.statusCode = 200 then
    get (← get (← r.json) "shows" (.obj [])) "items" (.arr [])
  else pure (.arr [])

/-- The loop body of `get_ai_podcasts_all_keywords`. -/
def podcastBody (py : Interpreter) (now : ℤ) (kw : String) (item : Json) :
    Py (List PodcastItem) := do
  let score ← calculatePodcastRelevance py item kw
  let name ← get item "name" (.str "")
  let description ← get item "description" (.str "")
  let publisher ← get item "publisher" (.str "")
  let link ← get (← get item "external_urls" (.obj [])) "spotify" (.str "")
  let popularity ← get item "popularity" (.int 0)
  pure [{
    keyword := kw
    name := name
    description := description
    publisher := publisher
    link := link
    popularity := popularity
    relevanceScore := score
    image := "No image"
    createdAt := py.isoformat now }]

/-- The one page of shows of a keyword, iterated without a check. -/
def podcastPage (request : String → Py HttpResponse) (kw : String) (_ : ℕ) :
    Py (Option (List Json)) := do
  let shows ← iterate (← fetchSpotifyPodcastsForKeyword request kw)
  pure (some shows)

/-- The list `combined` of `get_ai_podcasts_all_keywords`. -/
def collectPodcasts (py : Interpreter) (now : ℤ) (request : String → Py HttpResponse)
    (keywords : List String) : Py (List PodcastItem) :=
  gatherKeywords .skip (podcastPage request) [1] (podcastBody py now) keywords

/-- `get_ai_podcasts_all_keywords`; `token` is `get_spotify_token()`. -/
def getAiPodcastsAllKeywords (py : Interpreter) (now : ℤ) (ollama : Ollama)
    (token : Py String) (request : String → String → Py HttpResponse)
    (keywords : List String) : Py (List (Summarised PodcastItem)) := do
  let token ← token
  let combined ← collectPodcasts py now (request token) keywords
  let sorted ← sortReverse PodcastItem.relevanceScore combined
  pure (withSummaries ollama (fun item =>
    py.str item.name++" by "++py.str item.publisher++". "++py.str item.description)
    (sorted.take 10))

/-! ### scrape.py -/

/-- One `entry` of the arXiv feed; none is an element that is not there. -/
structure ArxivEntry where
  title : Option String
  summary : Option String
  published : Option String
  id : Option String
  /-- The `name` of each `author`. -/
  authors : List (Option String)

/-- An entry of `combined` in `scrape.py`. -/
structure ArxivItem where
  keyword : String
  title : String
  summary : String
  publishedDate : String
  authors : List String
  link : String
  relevanceScore : Json
  image : String
  createdAt : String

/-- `element.text`, where `element` may be None. -/
def textOf : Option String → Py String
  | some text => .ok text
  | none => .error .attributeError

@[simp] theorem textOf_some (text : String) : textOf (some text) = .ok text := rfl

/-- `calculate_arxiv_relevance`. -/
def calculateArxivRelevance (py : Interpreter) (title summary : String)
    (authors : List String) (keyword : String) : Py Json := do
  let tLower := py.lower title
  let sLower := py.lower summary
  let score := halfOf py authors.length
  let score ← if isIn keyword tLower then py.add score (.int 2) else pure score
  if isIn keyword sLower then py.add score (.int 1) else pure score

/-- The URL `fetch_arxiv_for_keyword` builds. -/
def arxivUrl (keyword : String) (maxResults : ℤ) : String :=
  let encodedKw := String.ofList (keyword.toList.map (fun c => if c = ' ' then '+' else c))
  "http://export.arxiv.org/api/query?search_query=all:"++encodedKw++
    "&start=0&max_results="++toString maxResults++
    "&sortBy=submittedDate&sortOrder=descending"

/-- `fetch_arxiv_for_keyword` with its answer parsed: none is None or empty
content, and every exception of the request reads as None. -/
def fetchArxivForKeyword (request : String → Py (ℕ×Option (List ArxivEntry)))
    (keyword : String) (maxResults : ℤ) : Option (List ArxivEntry) :=
  match request (arxivUrl keyword maxResults) with
  | .ok (status,content) => if status = 200 then content else none
  | .error _ => none

/-- The loop body of `get_recent_ai_papers_all_keywords`. -/
def arxivBody (py : Interpreter) (now : ℤ) (kw : String) (entry : ArxivEntry) :
    Py (List ArxivItem) := do
  let title ← textOf entry.title
  let summary := String.ofList (strip (← textOf entry.summary).toList)
  let pubdate := String.ofList ((← textOf entry.published).toList.take 10)
  let authors ← gather (fun a => do pure [← textOf a]) entry.authors
  let link ← textOf entry.id
  if py.strftimeDate (now-days 30) ≤ pubdate then do
    let score ← calculateArxivRelevance py title summary authors kw
    pure [{
      keyword := kw
      title := title
      summary := summary
      publishedDate := pubdate
      authors := authors
      link := link
      relevanceScore := score
      image := "No image"
      createdAt := py.isoformat now }]
  else pure []

/-- The one feed of a keyword, skipped when there is no data. -/
def arxivPage (request : String → Py (ℕ×Option (List ArxivEntry))) (kw : String) (_ : ℕ) :
    Py (Option (List ArxivEntry)) := pure (fetchArxivForKeyword request kw 10)

/-- The list `combined` of `get_recent_ai_papers_all_keywords`. -/
def collectArxiv (py : Interpreter) (now : ℤ)
    (request : String → Py (ℕ×Option (List ArxivEntry))) (keywords : List String) :
    Py (List ArxivItem) :=
  gatherKeywords .skip (arxivPage request) [1] (arxivBody py now) keywords

/-- `get_recent_ai_papers_all_keywords`. -/
def getRecentAiPapersAllKeywords (py : Interpreter) (now : ℤ) (ollama : Ollama)
    (request : String → Py (ℕ×Option (List ArxivEntry))) (keywords : List String) :
    Py (List (Summarised ArxivItem)) := do
  let combined ← collectArxiv py now request keywords
  let sorted ← sortReverse ArxivItem.relevanceScore combined
  pure (withSummaries ollama (fun item => item.title++":\n"++item.summary) (sorted.take 10))

/-! ### tweets.py -/

/-- A tweet as tweepy returns it. -/
structure Tweet where
  id : ℤ
  text : String
  authorId : Json
  createdAt : Json
  publicMetrics : Json

/-- An entry of `combined` in `tweets.py`. -/
structure TweetItem where
  keyword : String
  id : ℤ
  text : String
  authorId : Json
  tweetCreatedAt : Json
  likes : Json
  retweets : Json
  replies : Json
  views : Json
  relevanceScore : Json
  image : String
  createdAt : String

/-- `calculate_relevance_tweet`. -/
def calculateRelevanceTweet (py : Interpreter) (likes retweets replies impressions : Json) :
    Py Json := do
  let weighted (tenths : ℚ) (count : Json) : Py Json :=
    py.mul (.float (py.roundFloat (tenths/10))) count
  let score ← py.add (← weighted 4 likes) (← weighted 3 retweets)
  let score ← py.add score (← weighted 2 replies)
  py.add score (← weighted 1 impressions)

/-- The query `fetch_tweets_for_keyword` sends. -/
def tweetQuery (keyword : String) : String :=
  let queryStr := "("++keyword++") lang:en"
  if 500 < queryStr.toList.length then
    String.ofList (queryStr.toList.take 500)++" ) lang:en"
  else queryStr

/-- `fetch_tweets_for_keyword`; every exception reads as no tweets. -/
def fetchTweetsForKeyword (search : String → Py (Option (List Tweet))) (keyword : String) :
    List Tweet :=
  match search (tweetQuery keyword) with
  | .ok (some tweets) => tweets
  | _ => []

/-- The loop body of `get_top_ai_tweets_all_keywords`. -/
def tweetBody (py : Interpreter) (now : ℤ) (kw : String) (tw : Tweet) :
    Py (List TweetItem) := do
  let metrics := tw.publicMetrics
  let likes ← get metrics "like_count" (.int 0)
  let retweets ← get metrics "retweet_count" (.int 0)
  let replies ← get metrics "reply_count" (.int 0)
  let views ← get metrics "impression_count" (.int 0)
  let score ← calculateRelevanceTweet py likes retweets replies views
  pure [{
    keyword := kw
    id := tw.id
    text := tw.text
    authorId := tw.authorId
    tweetCreatedAt := tw.createdAt
    likes := likes
    retweets := retweets
    replies := replies
    views := views
    relevanceScore := score
    image := "No image"
    createdAt := py.isoformat now }]

/-- The tweets found for a keyword. -/
def tweetPage (search : String → Py (Option (List Tweet))) (kw : String) (_ : ℕ) :
    Py (Option (List Tweet)) := pure (some (fetchTweetsForKeyword search kw))

/-- The list `combined` of `get_top_ai_tweets_all_keywords`. -/
def collectTweets (py : Interpreter) (now : ℤ) (search : String → Py (Option (List Tweet)))
    (keywords : List String) : Py (List TweetItem) :=
  gatherKeywords .skip (tweetPage search) [1] (tweetBody py now) keywords

/-- `get_top_ai_tweets_all_keywords`; tweets get no summary. -/
def getTopAiTweetsAllKeywords (py : Interpreter) (now : ℤ)
    (search : String → Py (Option (List Tweet))) (keywords : List String) :
    Py (List TweetItem) := do
  let combined ← collectTweets py now search keywords
  let sorted ← sortReverse TweetItem.relevanceScore combined
  pure (sorted.take 10)

/-! ### tools1.py -/

/-- An item of `get_ai_tools`. -/
structure ToolItem where
  title : String
  link : String
  summary : String
  createdAt : String

/-- The prompt of `tools1.py`. -/
def toolPrompt (text : String) (maxWords : ℕ) : String :=
  "Summarize what this AI tool does in "++toString maxWords++
    " words or less, focusing on its main features and use cases:\n\n"++text

/-- `extract_tools_from_section` with a next-section marker. -/
def extractToolsFromSection (content sectionMarker nextSectionMarker : List Char) :
    List (List Char×List Char) :=
  match suffixFrom sectionMarker content with
  | none => []
  | some suffix => (findLinks (textBefore nextSectionMarker suffix)).take 2

/-- The section table of `get_ai_tools`. -/
def toolSections : List (String×String) := [
  ("## Text","### Models"),
  ("## Code","## Image"),
  ("## Image","## Video"),
  ("## Video","## Audio"),
  ("## Audio","### AI Voice Cloning"),
  ("### Marketing AI Tools","### Phone Calls"),
  ("### Phone Calls","### Speech")]

/-- The links that are kept, stripped, in the order of the sections. -/
def toolLinks (content : List Char) : List (String×String) :=
  toolSections.flatMap (fun sections =>
    ((extractToolsFromSection content sections.1.toList sections.2.toList).filter
      (fun tool => !(["#","Contents","Models"].any
        (fun header => decide (header.toList <:+: tool.1))))).map
      (fun tool => (String.ofList (strip tool.1),String.ofList (strip tool.2))))

/-- `get_ai_tools` on the text of the markdown file. -/
def getAiTools (py : Interpreter) (now : ℤ) (ollama : Ollama) (content : String) :
    List ToolItem :=
  (toolLinks content.toList).zipIdx.map (fun tool => {
    title := tool.1.1
    link := tool.1.2
    summary := summarizeWithDeepseekR1 ollama tool.2
      (toolPrompt ("Describe the AI tool "++tool.1.1++" located at "++tool.1.2) 75)
    createdAt := py.isoformat now })

end Senca.ScraperCollectors
