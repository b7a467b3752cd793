import Mathlib.Algebra.Order.BigOperators.Group.List
import Senca.Deployment
import Senca.HubCollectors
import Senca.ToolHarvest

/-!
# Whole runs of the scrapers

The `__main__` block of each script, from the answers of its sources to the
collections of the server. A run appends a bounded number of documents to the
collection behind one page, or to none; it reads nothing of the others, so
the order in which the scripts of a round run is of no consequence. What a
run stored is on the page at the next visit, and a click on it leads to the
item that was found.

The scripts run as they are installed: `BACKEND_URL` and `API_ENDPOINT` are not
set, so that each posts to its default endpoint, and the server answers every
request.
-/

namespace Senca.ScraperRuns

open BrowserRuntime Deployment FaultLoops GrowingLogs HubCollectors JsonValue KeywordFiles
  MongooseStore PageLoading PythonCase PythonRuntime PythonText ResourceCards RetryNetwork
  ScraperCollectors ServerRoutes StoreDelivery StoreFunctions StoredSearch ToolHarvest
  YoutubeVideos

/-! ### The scripts -/

/-- What one run of a script finds besides its sources, where neither
`BACKEND_URL` nor `API_ENDPOINT` is set. -/
structure World where
  /-- The database library of the server. -/
  lib : Mongoose
  /-- The interpreter. -/
  py : Interpreter
  /-- Its case tables. -/
  tables : CaseTables
  /-- The length of an encoded body. -/
  wireSize : WireSize
  /-- The language model. -/
  ollama : Ollama
  /-- The time of the run. -/
  now : ℤ
  /-- The keyword file. -/
  keywordFile : Option (List Char)
  /-- The circumstances of each attempt to store. -/
  envs : StoreFunction → ℕ → Env

/-- The scripts, each with the answers of its sources. -/
inductive Script where
  | devto (request : String → ℕ → Py HttpResponse)
  | fetchPapers (request : String → ℕ → Py HttpResponse)
  | github (request : String → Py HttpResponse)
  | huggingface (datasets spaces : String → Py HttpResponse)
  | newsApi (request : String → ℕ → Py HttpResponse)
  | scrape (request : String → Py (ℕ×Option (List ArxivEntry)))
  | spotify1 (token : Py String) (request : String → String → Py HttpResponse)
  | tweets (search : String → Py (Option (List Tweet)))
  | youtube (answers : String → KeywordAnswers)
  /-- The text of `tools1.md`, none when it cannot be read. -/
  | tools1 (file : Option String)
  | tools (site : Site)

/-- A dataset as `store_hf_datasets_in_db` reads it. -/
def datasetItem (it : Summarised HubItem) : Summarised DatasetItem :=
  ⟨⟨it.item.keyword,it.item.id,it.item.likes,it.item.count,it.item.lastModified,
    it.item.relevanceScore,it.item.image,it.item.createdAt⟩,it.summary50Words⟩

/-- A space as `store_hf_spaces_in_db` reads it. -/
def spaceItem (it : Summarised HubItem) : Summarised SpaceItem :=
  ⟨⟨it.item.keyword,it.item.id,it.item.likes,it.item.count,it.item.lastModified,
    it.item.relevanceScore,it.item.image,it.item.createdAt⟩,it.summary50Words⟩

/-- The server after a store function, which leaves it alone when it raises. -/
def store (w : World) (f : StoreFunction) (items : List f.Item) (server : Server) : Server :=
  match f.storeInDb w.lib w.py w.wireSize (w.envs f) items server with
  | .ok server' => server'
  | .error _ => server

/-- `if items: store(items)`. -/
def storeAny (w : World) (f : StoreFunction) (items : List f.Item) (server : Server) : Server :=
  if items.isEmpty then server else store w f items server

/-- Collect, then store; what collecting raises ends the script or is printed. -/
def collectAndStore (w : World) (f : StoreFunction) (items : Py (List f.Item))
    (server : Server) : Server :=
  match items with
  | .ok items => storeAny w f items server
  | .error _ => server

/-- `read_markdown_file` and `get_ai_tools`. -/
def readAiTools (w : World) (file : Option String) : List ToolItem :=
  let content := file.getD ""
  if content = "" then [] else getAiTools w.py w.now w.ollama content

/-- What a script whose endpoint is mounted collects, and the store function
it hands that to. -/
def harvest (w : World) : Script → Option ((f : StoreFunction)×Py (List f.Item))
  | .devto request => some ⟨.devto,getDevtoBlogsAllKeywords w.py w.now w.ollama request 2
      (loadAllDevtoKeywords w.tables w.keywordFile)⟩
  | .github request => some ⟨.github,getTopAiProjectsAllKeywords w.py w.now w.ollama request
      (loadAllGithubKeywords w.keywordFile)⟩
  | .newsApi request => some ⟨.newsApi,getTopAiBlogsAllKeywords w.py w.now w.ollama request 1
      (loadAllNewsapiKeywords w.keywordFile)⟩
  | .scrape request => some ⟨.scrape,getRecentAiPapersAllKeywords w.py w.now w.ollama request
      (loadAllArxivKeywords w.tables w.keywordFile)⟩
  | .spotify1 token request => some ⟨.spotify1,getAiPodcastsAllKeywords w.py w.now w.ollama
      token request (loadAllSpotifyKeywords w.keywordFile)⟩
  | .tweets search => some ⟨.tweets,getTopAiTweetsAllKeywords w.py w.now search
      (loadAllTwitterKeywords w.keywordFile)⟩
  | .youtube answers => some ⟨.youtube,getTopAiVideosAllKeywords w.py w.now w.ollama
      ((loadYoutubeKeywords w.tables w.keywordFile).map (fun kw => (kw,answers kw)))⟩
  | .tools1 file => some ⟨.tools1,.ok (readAiTools w file)⟩
  | _ => none

/-- `__main__` of `fetch_papers.py`. -/
def mainFetchPapers (w : World) (request : String → ℕ → Py HttpResponse) : Server → Server :=
  collectAndStore w .fetchPapers (getTopAiPapersAllKeywords w.py w.now w.ollama request 3
    (loadAllPaperKeywords w.keywordFile))

/-- `__main__` of `huggingface.py`: datasets are stored before spaces. -/
def mainHuggingface (w : World) (datasets spaces : String → Py HttpResponse)
    (server : Server) : Server :=
  match getTopDatasetsAndSpacesAllKeywords w.py w.now w.ollama datasets spaces
      (loadAllHuggingfaceKeywords w.keywordFile) with
  | .ok (ds,sp) =>
    -- building the payload of the datasets raises nothing
    storeAny w .hfSpaces (sp.map spaceItem) (storeAny w .hfDatasets (ds.map datasetItem) server)
  | .error _ => server

/-- `__main__` of `tools.py`: its calls, of which the server sees the post. -/
def mainTools (w : World) (site : Site) (server : Server) : Server :=
  (scrapeSupertools ⟨w.tables,w.keywordFile,w.ollama,w.py.isoformat w.now⟩ site).calls.foldl
    (fun server c =>
      match c with
      | .post tools => store w .tools tools server
      | _ => server) server

/-- The server after the `__main__` block of a script that posts to its default
endpoint. -/
def main (w : World) (script : Script) (server : Server) : Server :=
  match script,harvest w script with
  | .fetchPapers request,_ => mainFetchPapers w request server
  | .huggingface datasets spaces,_ => mainHuggingface w datasets spaces server
  | .tools site,_ => mainTools w site server
  | _,some ⟨f,items⟩ => collectAndStore w f items server
  | _,none => server

/-! ### What a run appends -/

/-- The document was cast from the element. -/
def CastFrom (lib : Mongoose) {schema : Schema} (doc : Document schema) (element : Json) : Prop :=
  ∃ now id, lib.castDocument schema now id element = some doc

/-- From one state to another at most a number of documents, cast from elements
of some source, are appended to at most one collection. -/
structure Appends (lib : Mongoose) (target : Option Route) (source : Json → Prop) (n : ℕ)
    (s t : Server) : Prop where
  others : ∀ route, some route ≠ target → t route = s route
  added : ∀ route, some route = target → ∃ docs, t route = s route++docs ∧ docs.length ≤ n ∧
    ∀ doc ∈ docs, ∃ element, source element ∧ CastFrom lib doc element

section Appends

variable {lib : Mongoose} {target : Option Route} {source source' : Json → Prop} {n m : ℕ}
  {s t u : Server}

theorem Appends.refl : Appends lib target source 0 s s :=
  ⟨fun _ _ => rfl,fun _ _ => ⟨[],(List.append_nil _).symm,le_refl 0,fun _ h => nomatch h⟩⟩

theorem Appends.trans (h : Appends lib target source n s t)
    (h' : Appends lib target source m t u) : Appends lib target source (n+m) s u := by
  refine ⟨fun route hne => (h'.others route hne).trans (h.others route hne),fun route heq => ?_⟩
  obtain ⟨docs,hdocs,hlen,hcast⟩ := h.added route heq
  obtain ⟨more,hmore,hlen',hcast'⟩ := h'.added route heq
  refine ⟨docs++more,?_,?_,?_⟩
  · rw [hmore,hdocs,List.append_assoc]
  · rw [List.length_append]
    omega
  · intro doc hdoc
    rcases List.mem_append.mp hdoc with hdoc | hdoc
    · exact hcast doc hdoc
    · exact hcast' doc hdoc

theorem Appends.mono (h : Appends lib target source n s t) (hn : n ≤ m)
    (hsource : ∀ element, source element → source' element) :
    Appends lib target source' m s t := by
  refine ⟨h.others,fun route heq => ?_⟩
  obtain ⟨docs,hdocs,hlen,hcast⟩ := h.added route heq
  refine ⟨docs,hdocs,hlen.trans hn,fun doc hdoc => ?_⟩
  obtain ⟨element,he,hc⟩ := hcast doc hdoc
  exact ⟨element,hsource element he,hc⟩

/-- A request stores no more documents than it posts elements. -/
theorem stored_length {lib : Mongoose} {route : Route} {env : Env}
    {coll : List (Document route.schema)} {req : Request} :
    (stored lib route env coll req).length ≤ ((posted route req).getD []).length := by
  rw [stored,castPosted]
  cases hposted : posted route req with
  | none => exact Nat.zero_le _
  | some elements =>
    rw [Option.bind_some]
    cases hcast : lib.castAll route.schema env 0 elements with
    | none => exact Nat.zero_le _
    | some docs =>
      have hlen := (Mongoose.castAll_forall₂ hcast).length_eq
      dsimp only
      rw [List.length_take,Option.getD_some]
      omega

/-- What a request stores was cast from what it posts. -/
theorem mem_stored {lib : Mongoose} {route : Route} {env : Env}
    {coll : List (Document route.schema)} {req : Request} {doc : Document route.schema}
    (h : doc ∈ stored lib route env coll req) :
    ∃ elements, posted route req = some elements ∧ ∃ element ∈ elements,
      CastFrom lib doc element := by
  rw [stored,castPosted] at h
  cases hposted : posted route req with
  | none =>
    rw [hposted] at h
    cases h
  | some elements =>
    rw [hposted,Option.bind_some] at h
    cases hcast : lib.castAll route.schema env 0 elements with
    | none =>
      rw [hcast] at h
      cases h
    | some docs =>
      rw [hcast] at h
      obtain ⟨element,helement,k,hk⟩ := partner_of_mem
        (Mongoose.castAll_forall₂ hcast).flip (List.mem_of_mem_take h)
      exact ⟨elements,rfl,element,helement,env.now,_,hk⟩

/-- An array reaches the router it was posted to, as it was posted. -/
theorem posted_cases {req : Request} {route : Route} {elements : List Json}
    (h : posted route req = some elements) :
    mounts.lookup req.path = some route ∧ req.body = some (.arr elements) := by
  rw [posted,expressJson] at h
  cases hbody : req.body with
  | none =>
    cases hmount : mounts.lookup req.path <;> simp [hbody,hmount] at h
  | some body =>
    rw [hbody] at h
    by_cases hlimit : bodyLimit < req.bytes
    · simp [hlimit] at h
    · cases body with
      | arr items =>
        cases hmount : mounts.lookup req.path with
        | none => simp [hlimit,hmount] at h
        | some target =>
          cases hmethod : req.method with
          | get => simp [hlimit,hmount,hmethod] at h
          | post =>
            have hboth : target = route ∧ items = elements := by
              simpa [hlimit,hmount,hmethod] using h
            exact ⟨by rw [hboth.1],by rw [hboth.2]⟩
      | obj members => cases hmount : mounts.lookup req.path <;> simp [hlimit,hmount] at h
      | _ => simp [hlimit] at h

end Appends

/-- How often a store function posts at most. -/
def attempts : StoreFunction → ℕ
  | .newsApi => 3
  | _ => 1

/-- The element is posted for one of the items. -/
def PostedFor (py : Interpreter) (f : StoreFunction) (items : List f.Item) (element : Json) :
    Prop :=
  ∃ it ∈ items, f.element py it = .ok element

/-- The collection behind the page of a script, none when no router is mounted
where it posts. -/
def Script.target : Script → Option Route
  | .devto _ => some .devto
  | .github _ => some .github
  | .newsApi _ => some .newsapi
  | .scrape _ => some .scrape
  | .spotify1 _ _ => some .spotify1
  | .tweets _ => some .tweets
  | .youtube _ => some .youtube
  | .tools1 _ => some .tools1
  | _ => none

/-- The most documents a run appends: ten items are stored, two tools of each
of seven sections, and the news three times when the answers fail. -/
def Script.limit : Script → ℕ
  | .newsApi _ => 30
  | .tools1 _ => 14
  | _ => 10

/-- The element is posted for an item that the script collected. -/
def Collected (w : World) (script : Script) (element : Json) : Prop :=
  ∃ f items, harvest w script = some ⟨f,.ok items⟩ ∧ PostedFor w.py f items element

@[simp] theorem withSummaries_length {ι : Type} (ollama : Ollama) (text : ι → String)
    (top : List ι) : (withSummaries ollama text top).length = top.length := by
  simp [withSummaries]

/-- A collector that sorts and cuts returns ten items at most. -/
theorem top_length {ι κ : Type} {combined : Py (List ι)} {finish : List ι → List κ}
    (hfinish : ∀ sorted, (finish sorted).length ≤ 10) {sort : List ι → Py (List ι)}
    {items : List κ}
    (h : (do let combined ← combined; let sorted ← sort combined; pure (finish sorted)) =
      Except.ok items) : items.length ≤ 10 := by
  obtain ⟨all,-,hrest⟩ := bind_eq_ok.mp h
  obtain ⟨sorted,-,htop⟩ := bind_eq_ok.mp hrest
  rw [← pure_eq_ok.mp htop]
  exact hfinish sorted

theorem toolLinks_length (content : List Char) : (toolLinks content).length ≤ 14 := by
  have hsection : ∀ sections : String×String,
      (((extractToolsFromSection content sections.1.toList sections.2.toList).filter
        (fun tool => !(["#","Contents","Models"].any
          (fun header => decide (header.toList <:+: tool.1))))).map
        (fun tool => (String.ofList (strip tool.1),String.ofList (strip tool.2)))).length ≤ 2 := by
    intro sections
    rw [List.length_map]
    refine (List.length_filter_le _ _).trans ?_
    rw [extractToolsFromSection]
    split
    · exact Nat.zero_le _
    · exact List.length_take_le _ _
  rw [toolLinks,List.length_flatMap]
  refine (List.sum_le_card_nsmul _ 2 ?_).trans ?_
  · intro n hn
    obtain ⟨sections,-,rfl⟩ := List.mem_map.mp hn
    exact hsection sections
  · rw [List.length_map]
    decide

theorem readAiTools_length (w : World) (file : Option String) :
    (readAiTools w file).length ≤ 14 := by
  rw [readAiTools]
  split
  · exact Nat.zero_le _
  · rw [getAiTools,List.length_map,List.length_zipIdx]
    exact toolLinks_length _

/-- What a script collects fits its limit. -/
theorem harvest_limit (w : World) (script : Script) {f : StoreFunction} {items : List f.Item}
    (h : harvest w script = some ⟨f,.ok items⟩) : attempts f*items.length ≤ script.limit := by
  have hcut : ∀ {ι : Type} (ollama : Ollama) (text : ι → String) (sorted : List ι),
      (withSummaries ollama text (sorted.take 10)).length ≤ 10 := fun ollama text sorted => by
    rw [withSummaries_length]
    exact List.length_take_le _ _
  have hten : ∀ n, n ≤ 10 → 1*n ≤ 10 := by omega
  cases script with
  | devto request =>
    obtain ⟨rfl,hitems⟩ := Sigma.mk.inj (Option.some.inj h)
    exact hten _ (top_length (hcut _ _) (eq_of_heq hitems))
  | github request =>
    obtain ⟨rfl,hitems⟩ := Sigma.mk.inj (Option.some.inj h)
    exact hten _ (top_length (hcut _ _) (eq_of_heq hitems))
  | newsApi request =>
    obtain ⟨rfl,hitems⟩ := Sigma.mk.inj (Option.some.inj h)
    exact Nat.mul_le_mul_left 3 (top_length (hcut _ _) (eq_of_heq hitems))
  | scrape request =>
    obtain ⟨rfl,hitems⟩ := Sigma.mk.inj (Option.some.inj h)
    exact hten _ (top_length (hcut _ _) (eq_of_heq hitems))
  | spotify1 token request =>
    obtain ⟨rfl,hitems⟩ := Sigma.mk.inj (Option.some.inj h)
    obtain ⟨bearer,-,hrest⟩ := bind_eq_ok.mp (eq_of_heq hitems)
    exact hten _ (top_length (hcut _ _) hrest)
  | tweets search =>
    obtain ⟨rfl,hitems⟩ := Sigma.mk.inj (Option.some.inj h)
    exact hten _ (top_length (fun sorted => List.length_take_le 10 sorted) (eq_of_heq hitems))
  | youtube answers =>
    obtain ⟨rfl,hitems⟩ := Sigma.mk.inj (Option.some.inj h)
    obtain ⟨sorted,-,htop⟩ := bind_eq_ok.mp (eq_of_heq hitems)
    rw [← pure_eq_ok.mp htop]
    exact hten _ (hcut _ _ sorted)
  | tools1 file =>
    obtain ⟨rfl,hitems⟩ := Sigma.mk.inj (Option.some.inj h)
    rw [← Except.ok.inj (eq_of_heq hitems)]
    exact (Nat.one_mul _).le.trans (readAiTools_length w file)
  | fetchPapers request => cases h
  | huggingface datasets spaces => cases h
  | tools site => cases h

/-- A script that is harvested stores what it collected, behind its page. -/
theorem harvest_target {w : World} {script : Script} {f : StoreFunction}
    {items : Py (List f.Item)} (h : harvest w script = some ⟨f,items⟩) :
    agrees f = true ∧ script.target = some (pageRoute f) ∧
      ∀ server, main w script server = collectAndStore w f items server := by
  cases script <;> cases h <;> exact ⟨rfl,rfl,fun _ => rfl⟩

end Senca.ScraperRuns
