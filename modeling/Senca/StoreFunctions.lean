import Senca.RetryNetwork
import Senca.ServerRoutes
import Senca.YoutubeVideos

/-!
# The twelve functions that post items to the server

Every `store_*_in_db` builds one object for each item and posts the list to
its default endpoint; two of them ask for the base URL first, and the news
one retries. The HTTP error a scraper gets is printed and swallowed, so a
store function is its effect on the server. `pageEndpoint` is the URL the
client page for that kind of resource fetches, on the same server.
-/

namespace Senca.StoreFunctions

open FaultLoops JsonValue MongooseStore PythonRuntime RetryNetwork ScraperCollectors
  ServerRoutes YoutubeVideos

/-- An entry of `ds_combined` in `huggingface.py`. -/
structure DatasetItem where
  keyword : String
  id : Json
  likes : Json
  downloads : Json
  lastModified : Json
  relevanceScore : Json
  image : String
  createdAt : String

/-- An entry of `sp_combined` in `huggingface.py`. -/
structure SpaceItem where
  keyword : String
  id : Json
  likes : Json
  views : Json
  lastModified : Json
  relevanceScore : Json
  image : String
  createdAt : String

/-- An entry of `tools` in `tools.py`, which keeps a tool only when its name
and its link are not empty. -/
structure SupertoolItem where
  name : String
  link : String
  summary : String
  createdAt : String

/-- The store functions, by scraper. -/
inductive StoreFunction where
  | devto
  | github
  | fetchPapers
  | hfDatasets
  | hfSpaces
  | newsApi
  | scrape
  | spotify1
  | tweets
  | youtube
  | tools1
  | tools
  deriving DecidableEq

namespace StoreFunction

/-- The items a store function is given. -/
def Item : StoreFunction → Type
  | devto => Summarised DevtoItem
  | github => Summarised GithubItem
  | fetchPapers => Summarised PaperItem
  | hfDatasets => Summarised DatasetItem
  | hfSpaces => Summarised SpaceItem
  | newsApi => Summarised NewsItem
  | scrape => Summarised ArxivItem
  | spotify1 => Summarised PodcastItem
  | tweets => TweetItem
  | youtube => Summarised VideoItem
  | tools1 => ToolItem
  | tools => SupertoolItem

/-- The path of the default endpoint. -/
def endpoint : StoreFunction → String
  | devto => "/api/devto-resources"
  | github => "/api/github-resources"
  | fetchPapers => "/api/paper-resources"
  | hfDatasets => "/api/huggingface-datasets"
  | hfSpaces => "/api/huggingface-spaces"
  | newsApi => "/api/newsapi-resources"
  | scrape => "/api/arxiv-resources"
  | spotify1 => "/api/spotify1-resources"
  | tweets => "/api/tweet-resources"
  | youtube => "/api/youtube-resources"
  | tools1 => "/api/tools1-resources"
  | tools => "/api/ai-tools"

/-- The path the client page for the same kind of resource fetches. -/
def pageEndpoint : StoreFunction → String
  | devto => "/api/devto-resources"
  | github => "/api/github-resources"
  | fetchPapers => "/api/papers-resources"
  | hfDatasets => "/api/huggingface-resources"
  | hfSpaces => "/api/huggingface-resources"
  | newsApi => "/api/newsapi-resources"
  | scrape => "/api/arxiv-resources"
  | spotify1 => "/api/spotify1-resources"
  | tweets => "/api/tweet-resources"
  | youtube => "/api/youtube-resources"
  | tools1 => "/api/tools1-resources"
  | tools => "/api/tools1-resources"

end StoreFunction

/-! ### Payloads -/

/-- The object ten of the store functions post for an item. -/
def resourceElement (title link image summary resourceBy createdAt : Json) : Json := .obj [
  ("title",title),
  ("link",link),
  ("image",image),
  ("summary",summary),
  ("resourceBy",resourceBy),
  ("createdAt",createdAt)]

/-- `', '.join(authors) if authors else 'Unknown'`. -/
def joinedAuthors (authors : Json) : Py Json :=
  if truthy authors then do
    let names ← joinWith ", " (← iterate authors)
    pure (.str names)
  else pure (.str "Unknown")

/-- The object `store_newsapi_in_db` posts for an article. -/
def newsElement (it : Summarised NewsItem) : Json :=
  resourceElement it.item.title it.item.url it.item.image (.str it.summary50Words)
    (orElse it.item.author it.item.source) (.str it.item.createdAt)

/-- The object posted for an item. -/
def StoreFunction.element (py : Interpreter) : (f : StoreFunction) → f.Item → Py Json
  | .devto,(it : Summarised DevtoItem) => pure (resourceElement it.item.title it.item.url
      it.item.image (.str it.summary50Words) it.item.author (.str it.item.createdAt))
  | .github,(it : Summarised GithubItem) => pure (resourceElement it.item.name it.item.url
      it.item.image (.str it.summary50Words) (.str "Repo Owner") (.str it.item.createdAt))
  | .fetchPapers,(it : Summarised PaperItem) => do
    let authors ← joinedAuthors it.item.authors
    pure (resourceElement it.item.title it.item.url (.str it.item.image)
      (.str it.summary50Words) authors (.str it.item.createdAt))
  | .hfDatasets,(it : Summarised DatasetItem) => pure (resourceElement it.item.id
      (.str ("https://huggingface.co/datasets/"++py.str it.item.id)) (.str it.item.image)
      (.str it.summary50Words) (.str "HuggingFace user") (.str it.item.createdAt))
  | .hfSpaces,(it : Summarised SpaceItem) => pure (resourceElement it.item.id
      (.str ("https://huggingface.co/spaces/"++py.str it.item.id)) (.str it.item.image)
      (.str it.summary50Words) (.str "HuggingFace user") (.str it.item.createdAt))
  | .newsApi,(it : Summarised NewsItem) => pure (newsElement it)
  | .scrape,(it : Summarised ArxivItem) => pure (resourceElement (.str it.item.title)
      (.str it.item.link) (.str it.item.image) (.str it.summary50Words)
      (.str (it.item.authors.headD "Unknown")) (.str it.item.createdAt))
  | .spotify1,(it : Summarised PodcastItem) => pure (resourceElement it.item.name it.item.link
      (.str it.item.image) (.str it.summary50Words) it.item.publisher (.str it.item.createdAt))
  | .tweets,(it : TweetItem) => pure (resourceElement
      (.str (if it.text = "" then "No Title" else String.ofList (it.text.toList.take 80)++"..."))
      (.str ("https://twitter.com/i/web/status/"++py.str (.int it.id))) (.str it.image) (.str "")
      (.str ("AuthorID:"++py.str it.authorId)) (.str it.createdAt))
  | .youtube,(it : Summarised VideoItem) => pure (resourceElement it.item.title
      (.str it.item.url) it.item.image (.str it.summary50Words) it.item.channel
      (.str it.item.createdAt))
  | .tools1,(it : ToolItem) => pure (.obj [("title",.str it.title),("link",.str it.link),
      ("summary",.str it.summary),("createdAt",.str it.createdAt)])
  | .tools,(it : SupertoolItem) => pure (.obj [("name",.str it.name),("link",.str it.link),
      ("summary",.str it.summary),("createdAt",.str it.createdAt)])

/-- The list a store function posts. -/
def StoreFunction.payload (py : Interpreter) (f : StoreFunction) (items : List f.Item) :
    Py (List Json) :=
  gather (fun it => do pure [← f.element py it]) items

/-! ### Posting -/

/-- The length of an encoded JSON body. -/
abbrev WireSize := Json → ℕ

/-- `requests.post(endpoint, json=payload)`. -/
def postRequest (wireSize : WireSize) (path : String) (elements : List Json) : Request :=
  ⟨.post,path,some (.arr elements),wireSize (.arr elements)⟩

/-- `requests.get(url)`, by a scraper or by a page. -/
def getRequest (path : String) : Request := ⟨.get,path,none,0⟩

/-- `raise_for_status()` and `json()` both return. -/
def succeeds (r : Response) : Bool := r.status < 400 && r.body.isSome

/-- The server's part in one attempt of the newsapi loop. -/
def newsServe (lib : Mongoose) (wireSize : WireSize) (elements : List Json) (env : Env)
    (server : Server) : Response×Server :=
  handle lib env server (postRequest wireSize StoreFunction.newsApi.endpoint elements)

/-- The loop of `store_newsapi_in_db` over the outcomes of its attempts. -/
def storeNewsapi (lib : Mongoose) (wireSize : WireSize) (elements : List Json)
    (maxRetries : ℤ) (outcome : ℕ → Outcome Env) (server : Server) : Report Server :=
  postWithRetries (newsServe lib wireSize elements) succeeds maxRetries.toNat outcome server

/-- The server after a store function has run, when no message is lost. An
exception raised while the payload is built leaves the function. -/
def StoreFunction.storeInDb (lib : Mongoose) (py : Interpreter) (wireSize : WireSize)
    (envs : ℕ → Env) (f : StoreFunction) (items : List f.Item) (server : Server) :
    Py Server := do
  let elements ← f.payload py items
  let post := postRequest wireSize f.endpoint elements
  match f with
  | .newsApi =>
    pure (storeNewsapi lib wireSize elements 3 (fun k => .served (envs k) true) server).server
  | .spotify1 | .tools1 =>
    if items.isEmpty then pure server
    else
      -- the base URL is not mounted; its 404 raises nothing
      let server := (handle lib (envs 0) server (getRequest "/api")).2
      pure (handle lib (envs 0) server post).2
  | _ => pure (handle lib (envs 0) server post).2

/-- What the page for a kind of resource fetches. -/
def StoreFunction.pageAnswer (lib : Mongoose) (env : Env) (f : StoreFunction)
    (server : Server) : Response :=
  (handle lib env server (getRequest f.pageEndpoint)).1

/-! ### One post -/

/-- The batch fits the body limit and its route accepts every element. -/
def Storable (lib : Mongoose) (wireSize : WireSize) (route : Route) (elements : List Json) :
    Prop :=
  elements ≠ [] ∧ wireSize (.arr elements) ≤ bodyLimit ∧
    ∀ e ∈ elements, lib.accepts route.schema e = true

/-- Objects that leave the choice of their id to the database. -/
def WithoutIds (elements : List Json) : Prop :=
  ∀ e ∈ elements, ∃ members, e = .obj members ∧ members.lookup "_id" = none

variable {lib : Mongoose} {wireSize : WireSize} {env : Env} {server : Server} {route : Route}
  {path : String} {elements : List Json}

theorem expressJson_post (h : wireSize (.arr elements) ≤ bodyLimit) :
    expressJson (postRequest wireSize path elements) = .ok (.arr elements) :=
  if_neg (Nat.not_lt.mpr h)

theorem expressJson_tooLarge (h : ¬wireSize (.arr elements) ≤ bodyLimit) :
    expressJson (postRequest wireSize path elements) = .error ⟨413,none⟩ :=
  if_pos (Nat.lt_of_not_le h)

/-- A storable batch is answered with a success and added whole. -/
theorem handle_post_storable (hmount : mounts.lookup path = some route)
    (hs : Storable lib wireSize route elements) (hids : WithoutIds elements)
    (hw : ∀ i, env.writeFails i = false) (hd : ∀ i j, env.newId i = env.newId j → i = j)
    (hu : ∀ i, ∀ doc ∈ server route, doc.id ≠ env.newId i) :
    ∃ docs, lib.castAll route.schema env 0 elements = some docs ∧
      succeeds (handle lib env server (postRequest wireSize path elements)).1 = true ∧
      (handle lib env server (postRequest wireSize path elements)).2 =
        Function.update server route (server route++docs) := by
  obtain ⟨hne,hfit,haccept⟩ := hs
  have hsome : (lib.castAll route.schema env 0 elements).isSome = true := by
    rw [Mongoose.castAll_isSome,List.all_eq_true]
    exact haccept
  obtain ⟨docs,hdocs⟩ := Option.isSome_iff_exists.mp hsome
  have hcount : writtenCount env (server route) 0 docs = docs.length :=
    writtenCount_of_generated hw hd docs (server route) 0
      (Mongoose.castAll_ids hdocs hids) (fun k doc hdoc => by
        rw [Nat.zero_add]
        exact hu k doc hdoc)
  refine ⟨docs,hdocs,?_,?_⟩
  · unfold handle
    rw [expressJson_post hfit]
    simp only [postRequest,hmount]
    cases elements with
    | nil => exact absurd rfl hne
    | cons first rest =>
      simp [postHandler,Mongoose.insertMany,hdocs,writeAll_eq,hcount,succeeds]
  · unfold handle
    rw [expressJson_post hfit]
    simp only [postRequest,hmount,postHandler_arr,hdocs,Option.elim_some,hcount,
      List.take_length]

/-- Any other post is answered with an error and changes nothing. -/
theorem handle_post_refused
    (h : ∀ route, mounts.lookup path = some route → ¬Storable lib wireSize route elements) :
    succeeds (handle lib env server (postRequest wireSize path elements)).1 = false ∧
      (handle lib env server (postRequest wireSize path elements)).2 = server := by
  unfold handle
  by_cases hfit : wireSize (.arr elements) ≤ bodyLimit
  · rw [expressJson_post hfit]
    cases hmount : mounts.lookup path with
    | none => simp [postRequest,hmount,succeeds]
    | some route =>
      have hrefused := h route hmount
      simp only [postRequest,hmount]
      cases elements with
      | nil => simp [postHandler,succeeds]
      | cons first rest =>
        have hnone : lib.castAll route.schema env 0 (first::rest) = none := by
          rw [← Option.not_isSome_iff_eq_none,Mongoose.castAll_isSome,List.all_eq_true]
          exact fun haccept => hrefused ⟨by simp,hfit,haccept⟩
        simp [postHandler,Mongoose.insertMany,hnone,succeeds]
  · rw [expressJson_tooLarge hfit]
    simp [succeeds]

end Senca.StoreFunctions
