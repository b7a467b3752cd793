import Senca.ScraperRuns

/-!
# Rounds of the scrapers

A round is a list of runs, in any order and any number. The collection behind
a page is what the runs of its own script alone make of it, whatever else ran
before, after or in between; and since a run sends the server nothing but
requests, it is a stretch of a run of the deployed system.
-/

namespace Senca.ScraperRounds

open BrowserRuntime Deployment FaultLoops GrowingLogs JsonValue KeywordFiles MongooseStore
  PythonRuntime ResourceCards RetryNetwork ScraperCollectors ScraperRuns ServerRoutes StoreDelivery
  StoreFunctions StoredSearch
open PageLoading hiding expected

/-! ### Requests -/

/-- The server after some requests. -/
def serveAll (lib : Mongoose) (s : Server) (requests : List (Env×Request)) : Server :=
  requests.foldl (fun s r => (handle lib r.1 s r.2).2) s

/-- Some requests lead from one state of the server to another. -/
def Requests (lib : Mongoose) (s t : Server) : Prop := ∃ requests, t = serveAll lib s requests

section Requests

variable {lib : Mongoose} {s t u : Server}

theorem Requests.refl (s : Server) : Requests lib s s := ⟨[],rfl⟩

theorem Requests.trans (h : Requests lib s t) (h' : Requests lib t u) : Requests lib s u := by
  obtain ⟨first,rfl⟩ := h
  obtain ⟨second,rfl⟩ := h'
  exact ⟨first++second,(List.foldl_append).symm⟩

theorem Requests.one (env : Env) (s : Server) (req : Request) :
    Requests lib s (handle lib env s req).2 :=
  ⟨[(env,req)],rfl⟩

theorem foldl_requests {ι : Type} {step : Server → ι → Server}
    (hstep : ∀ s i, Requests lib s (step s i)) (l : List ι) (s : Server) :
    Requests lib s (l.foldl step s) := by
  induction l generalizing s with
  | nil => exact Requests.refl s
  | cons i l ih => exact (hstep s i).trans (ih (step s i))

/-- The system serves requests. -/
theorem Requests.run (h : Requests lib s t) (browser : Browser) (tabs : ℕ → Option Tab) :
    ∃ requests : List (Env×Request), runSystem lib browser ⟨s,tabs⟩
      (requests.map (fun r => .request r.1 r.2)) = ⟨t,tabs⟩ := by
  obtain ⟨requests,rfl⟩ := h
  refine ⟨requests,?_⟩
  induction requests generalizing s with
  | nil => rfl
  | cons r requests ih => exact ih

end Requests

theorem store_requests (w : World) (f : StoreFunction) (items : List f.Item) (s : Server) :
    Requests w.lib s (store w f items s) := by
  rw [store,StoreFunction.storeInDb]
  cases f.payload w.py items with
  | error e => exact Requests.refl s
  | ok elements =>
    rw [ok_bind]
    cases f with
    | newsApi =>
      obtain ⟨m,-,hserver⟩ := @postLoop_server _ _ _ (newsServe w.lib w.wireSize elements)
        succeeds (fun k => .served (w.envs .newsApi k) true) 3 0 ⟨none,0,0,s⟩
      change Requests _ s (postLoop _ _ _ 3 0 ⟨none,0,0,s⟩).server
      rw [hserver]
      exact foldl_requests (fun s k => Requests.one (w.envs .newsApi k) s _) _ s
    | spotify1 =>
      dsimp only
      by_cases hnone : items.isEmpty = true
      · rw [if_pos hnone]
        exact Requests.refl s
      · rw [if_neg hnone]
        exact (Requests.one _ s _).trans (Requests.one _ _ _)
    | tools1 =>
      dsimp only
      by_cases hnone : items.isEmpty = true
      · rw [if_pos hnone]
        exact Requests.refl s
      · rw [if_neg hnone]
        exact (Requests.one _ s _).trans (Requests.one _ _ _)
    | _ => exact Requests.one _ s _

theorem storeAny_requests (w : World) (f : StoreFunction) (items : List f.Item) (s : Server) :
    Requests w.lib s (storeAny w f items s) := by
  rw [storeAny]
  split
  · exact Requests.refl s
  · exact store_requests w f items s

theorem collectAndStore_requests (w : World) (f : StoreFunction) (items : Py (List f.Item))
    (s : Server) : Requests w.lib s (collectAndStore w f items s) := by
  cases items with
  | error e => exact Requests.refl s
  | ok items => exact storeAny_requests w f items s

/-- All that a script does to the server it does by requests. -/
theorem main_requests (w : World) (script : Script) (s : Server) :
    Requests w.lib s (main w script s) := by
  cases hharvest : harvest w script with
  | some collected =>
    rw [(@harvest_target w script collected.1 collected.2 hharvest).2.2]
    exact collectAndStore_requests w collected.1 collected.2 s
  | none =>
    cases script with
    | fetchPapers request => exact collectAndStore_requests w .fetchPapers _ s
    | huggingface datasets spaces =>
      change Requests _ s (mainHuggingface w datasets spaces s)
      rw [mainHuggingface]
      split
      · exact (storeAny_requests w .hfDatasets _ s).trans (storeAny_requests w .hfSpaces _ _)
      · exact Requests.refl s
    | tools site =>
      refine foldl_requests (fun s c => ?_) _ s
      cases c with
      | post tools => exact store_requests w .tools tools s
      | _ => exact Requests.refl s
    | _ => cases hharvest

/-! ### One run touches one collection -/

/-- A post reads and changes the collection its path is mounted for. -/
theorem handle_own {lib : Mongoose} {env : Env} {s t : Server} {req : Request} {route : Route}
    (hmount : mounts.lookup req.path = some route) (hst : s route = t route) :
    (handle lib env s req).1 = (handle lib env t req).1 ∧
      (handle lib env s req).2 route = (handle lib env t req).2 route := by
  refine ⟨?_,by rw [handle_collection,handle_collection,hst]⟩
  rw [handle,handle]
  cases expressJson req with
  | error answer => rfl
  | ok body =>
    dsimp only
    rw [hmount]
    cases hmethod : req.method <;> dsimp only <;> rw [hst]

/-- The server after some runs, each with its own circumstances. -/
def round (runs : List (World×Script)) (s : Server) : Server :=
  runFrom (fun s run => main run.1 run.2 s) s runs

/-- What a reader gets of an item: its heading, the text below it and where a
click leads. -/
def readCard (browser : CardBrowser) (page : Page) (item : Resource) :
    Js (Option Json×Option Json×Option Json) := do
  let card ← resourceCard browser (pagePath page) item
  let address ← handleCardClick item
  pure (card.title,card.summary,address)

/-- The same of a collected item with a title, a link and a summary. -/
def viewCard (v : String×String×String) : Option Json×Option Json×Option Json :=
  (some (.str v.1),some (.str v.2.2),if v.2.1 = "#" then none else some (.str v.2.1))

/-- Visited after a run, a page shows what it would have shown before, and one
card for each of some views. -/
def AddsCards (w : World) (browser : CardBrowser) (script : Script) (page : Page) (s : Server)
    (views : List (String×String×String)) : Prop :=
  ∀ (tabs : ℕ → Option Tab) (i : ℕ) (envs envs' : Route → Env),
    ∃ (requests : List (Env×Request)) (before after : Tab),
      runSystem w.lib browser.toBrowser ⟨s,tabs⟩
        (requests.map (fun r => .request r.1 r.2)) = ⟨main w script s,tabs⟩ ∧
      (runSystem w.lib browser.toBrowser ⟨s,tabs⟩ (visit i page envs)).tabs i = some before ∧
      (runSystem w.lib browser.toBrowser ⟨s,tabs⟩
        (requests.map (fun r => .request r.1 r.2)++visit i page envs')).tabs i = some after ∧
      before.view.Settled ∧ after.view.Settled ∧
      (after.view.value.map (readCard browser page)).Perm
        (before.view.value.map (readCard browser page)++views.map (fun v => .ok (viewCard v)))

section Screens

variable {lib : Mongoose} {browser : CardBrowser}

/-- A document that shows a view has its card. -/
theorem readCard_stored {route : Route} {doc : Document route.schema}
    {v : String×String×String} (h : shown (lib.render doc) = expected v) :
    readCard browser (pageOf route) (shownForm route (lib.members doc)) = .ok (viewCard v) := by
  obtain ⟨title,link,-,-,hcard⟩ := stored_cards lib browser route doc
  have hrendered : ∀ name, name ≠ "_id" → name ≠ "__v" →
      (lib.render doc).member? name = rendered lib doc name := fun _ => lib.render_member? doc
  rw [shown,hrendered "title" (by decide) (by decide),hrendered "link" (by decide) (by decide),
    hrendered "summary" (by decide) (by decide)] at h
  obtain ⟨htitle,hlink,hsummary⟩ : rendered lib doc "title" = some (.str v.1) ∧
      rendered lib doc "link" = some (.str v.2.1) ∧
      rendered lib doc "summary" = some (.str v.2.2) := by
    simpa [expected] using h
  have ht : title = v.1 := by
    rw [rendered,hcard.titleStored] at htitle
    simpa [Mongoose.renderValue] using htitle
  have hl : link = v.2.1 := by
    rw [rendered,hcard.linkStored] at hlink
    simpa [Mongoose.renderValue] using hlink
  rw [readCard,hcard.shows,hcard.clicked,viewCard,← hsummary,← ht,← hl]
  rfl

theorem map_readCard {route : Route} {docs : List (Document route.schema)}
    {views : List (String×String×String)}
    (h : docs.map (fun doc => shown (lib.render doc)) = views.map expected) :
    docs.map (fun doc => readCard browser (pageOf route) (shownForm route (lib.members doc))) =
      views.map (fun v => .ok (viewCard v)) := by
  induction docs generalizing views with
  | nil =>
    cases views with
    | nil => rfl
    | cons v views => cases h
  | cons doc docs ih =>
    cases views with
    | nil => cases h
    | cons v views =>
      obtain ⟨hfirst,hrest⟩ := List.cons_eq_cons.mp h
      rw [List.map_cons,List.map_cons,readCard_stored hfirst,ih hrest]

/-- More documents in one collection of a page are as many more items. -/
theorem forms_update (s : Server) (route : Route) (docs : List (Document route.schema)) :
    (forms lib (pageOf route) (Function.update s route (s route++docs))).Perm
      (forms lib (pageOf route) s++docs.map (fun doc => shownForm route (lib.members doc))) := by
  have hall : ∀ routes : List Route, routes.Nodup → route ∈ routes →
      (routes.flatMap (fun r => (Function.update s route (s route++docs) r).map
        (fun doc => shownForm r (lib.members doc)))).Perm
      (routes.flatMap (fun r => (s r).map (fun doc => shownForm r (lib.members doc)))++
        docs.map (fun doc => shownForm route (lib.members doc))) := by
    intro routes hnodup hmem
    induction routes with
    | nil => cases hmem
    | cons r rest ih =>
      obtain ⟨hr,hrest⟩ := List.nodup_cons.mp hnodup
      rw [List.flatMap_cons,List.flatMap_cons]
      by_cases hsame : r = route
      · subst hsame
        have hothers : rest.flatMap (fun q => (Function.update s r (s r++docs) q).map
              (fun doc => shownForm q (lib.members doc))) =
            rest.flatMap (fun q => (s q).map (fun doc => shownForm q (lib.members doc))) := by
          refine List.flatMap_congr fun q hq => ?_
          have hother : q ≠ r := fun h => hr (h ▸ hq)
          rw [Function.update_of_ne hother]
        rw [Function.update_self,hothers,List.map_append,List.append_assoc,List.append_assoc]
        exact List.perm_append_comm.append_left _
      · rw [Function.update_of_ne hsame,List.append_assoc]
        have hin : route ∈ rest := (List.mem_cons.mp hmem).resolve_left fun h => hsame h.symm
        exact (ih hrest hin).append_left _
  exact hall (routesOf (pageOf route)) (by cases route <;> decide) (by cases route <;> decide)

variable {w : World} {script : Script} {s : Server} {f : StoreFunction} {items : List f.Item}
  {views : List (String×String×String)}

/-- A run that the server keeps nothing of adds no card. -/
theorem not_addsCards {page : Page} (hmain : main w script s = s) (hne : views ≠ []) :
    ¬AddsCards w browser script page s views := by
  intro h
  obtain ⟨requests,before,after,hrun,hbefore,hafter,-,-,hperm⟩ :=
    h (fun _ => none) 0 (fun _ => sampleEnv 0) (fun _ => sampleEnv 0)
  rw [runSystem_append,hrun,hmain,hbefore] at hafter
  obtain rfl := Option.some.inj hafter
  have hlength := hperm.length_eq
  rw [List.length_append,List.length_map,List.length_map] at hlength
  exact hne (List.eq_nil_of_length_eq_zero (by omega))

/-- A run whose documents are appended adds their cards. -/
theorem addsCards_of_stored {route : Route} {docs : List (Document route.schema)}
    (hmain : main w script s = Function.update s route (s route++docs))
    (hdocs : docs.map (fun doc => shown (w.lib.render doc)) = views.map expected) :
    AddsCards w browser script (pageOf route) s views := by
  intro tabs i envs envs'
  obtain ⟨requests,hrun⟩ := (main_requests w script s).run browser.toBrowser tabs
  obtain ⟨before,hbefore,-,hsettled,hvalue,-⟩ :=
    visit_shows w.lib browser.toBrowser ⟨s,tabs⟩ i (pageOf route) envs
  obtain ⟨after,hafter,-,hsettled',hvalue',-⟩ :=
    visit_shows w.lib browser.toBrowser ⟨main w script s,tabs⟩ i (pageOf route) envs'
  refine ⟨requests,before,after,hrun,hbefore,?_,hsettled,hsettled',?_⟩
  · rw [runSystem_append,hrun]
    exact hafter
  · rw [hmain] at hvalue'
    refine ((hvalue'.trans (forms_update s route docs)).map _).trans ?_
    rw [List.map_append,List.map_map]
    exact List.Perm.append (hvalue.map _).symm (.of_eq (map_readCard hdocs))

/-- For every script that collected at least one item, all with a title, a link
and a summary, whatever the collections hold and whichever pages are open:
visited after the run its page has exactly one card more for each item, that
leads where the item was found, when and only when the batch fits the body
limit and its other fields cast. -/
theorem addsCards_iff (w : World) (browser : CardBrowser) (script : Script) (s : Server)
    (f : StoreFunction) (items : List f.Item) (views : List (String×String×String))
    (hharvest : harvest w script = some ⟨f,.ok items⟩) (hne : items ≠ [])
    (hviews : List.Forall₂ (fun it v => view w.py f it = some v) items views)
    (hh : (w.envs f 0).Healthy (s (pageRoute f))) :
    AddsCards w browser script (pageOf (pageRoute f)) s views ↔
      Deliverable w.lib w.py w.wireSize f items := by
  obtain ⟨hagrees,-,hmain⟩ := harvest_target hharvest
  have hstore : main w script s = store w f items s := by
    rw [hmain,collectAndStore,storeAny,if_neg (by simpa using hne)]
  obtain ⟨elements,hp⟩ := payload_ok w.py hagrees items
  have hstorable := @storable_iff w.lib _ w.wireSize _ _ _ hagrees hne _ hp hviews
  constructor
  · intro hadds
    by_contra hnot
    have hvne : views ≠ [] := by
      rintro rfl
      cases hviews
      exact hne rfl
    refine not_addsCards ?_ hvne hadds
    rw [hstore,store,storeInDb_refused hp fun _ hs =>
      hnot ⟨hagrees,elements,hp,hstorable.mp hs⟩]
  · rintro ⟨-,elements',hp',hfits⟩
    rw [hp] at hp'
    obtain rfl := Except.ok.inj hp'
    obtain ⟨docs,hdocs,hstored⟩ := storeInDb_stored hagrees hp (hstorable.mpr hfits) hh
    refine addsCards_of_stored ?_ (map_shown_docs hagrees hp hviews hdocs)
    rw [hstore,store,hstored]

/-- A browser that writes every date alike. -/
def sampleCardBrowser : CardBrowser := { sampleBrowser with
  toLocaleDateString := fun _ => "Feb 1, 2025" }

/-- A world with one keyword in its file. -/
def sampleWorld : World where
  lib := sampleMongoose
  py := sampleInterpreter
  tables := sampleTables
  wireSize _ := 500
  ollama _ _ := .ok "A show."
  now := 0
  keywordFile := some "ai".toList
  envs _ _ := sampleEnv 1

/-- A search that finds two shows. -/
def sampleShowSearch (_ _ : String) : Py HttpResponse := .ok ⟨200,.ok (.obj [("shows",.obj
  [("items",.arr [
    .obj [("name",.str "Talks"),("description",.str "weekly"),
      ("external_urls",.obj [("spotify",.str "https://open.spotify.com/show/1")])],
    .obj [("name",.str "Notes"),("description",.str "monthly"),
      ("external_urls",.obj [("spotify",.str "https://open.spotify.com/show/2")])]])])])⟩

/-- The two collected shows. -/
def sampleShows : List (Summarised PodcastItem) := [
  sampleShowItem "Talks" "weekly" "https://open.spotify.com/show/1",
  sampleShowItem "Notes" "monthly" "https://open.spotify.com/show/2"]

/-- What the run of the podcast scraper collects. -/
theorem sampleWorld_harvest : harvest sampleWorld (.spotify1 (.ok "") sampleShowSearch) =
    some ⟨.spotify1,.ok sampleShows⟩ := by
  have hcollect : collectPodcasts sampleInterpreter 0 (sampleShowSearch "") ["ai"] =
      .ok (sampleShows.map Summarised.item) := rfl
  have hitems : getAiPodcastsAllKeywords sampleInterpreter 0 sampleWorld.ollama (.ok "")
      sampleShowSearch ["ai"] = .ok sampleShows := by
    rw [getAiPodcastsAllKeywords,ok_bind,hcollect,ok_bind,
      sortReverse_returns_of_num (by simp [sampleShows,sampleShowItem,num?]),ok_bind,
      StableRanking.sortDesc_of_pairwise _ (by simp [sampleShows,sampleShowItem])]
    rfl
  have hkeywords : loadAllSpotifyKeywords sampleWorld.keywordFile = ["ai"] := by decide
  rw [harvest,hkeywords]
  exact congrArg
    (fun items => some (⟨.spotify1,items⟩ : (f : StoreFunction)×Py (List f.Item))) hitems

/-- A podcast and a blog post that were stored earlier. -/
def heldServer : Server
  | .spotify1 => [⟨0,[("title",.str "Earlier"),("link",.str "https://open.spotify.com/show/0"),
      ("createdAt",.date 1735689600000)],by decide,by decide⟩]
  | .devto => [⟨0,[("title",.str "Agents"),("link",.str "https://dev.to/a"),
      ("createdAt",.date 1735689600000)],by decide,by decide⟩]
  | _ => []

theorem heldServer_healthy (base : ℕ) (route : Route) :
    (sampleEnv (base+1)).Healthy (heldServer route) := by
  refine ⟨fun _ => rfl,rfl,sampleEnv_distinct (base+1),fun i doc hdoc => ?_⟩
  have hid : doc.id = 0 := by
    cases route <;> simp only [heldServer,List.mem_singleton,List.not_mem_nil] at hdoc <;>
      rw [hdoc]
  have hlt : 0 < base+1+i := by omega
  exact hid.trans_ne hlt.ne

/-- Both shows are added to the page of the stored podcast. -/
theorem addsCards_sampleWorld : AddsCards sampleWorld sampleCardBrowser
    (.spotify1 (.ok "") sampleShowSearch) .tweetsPodcastsVideos heldServer
    [("Talks","https://open.spotify.com/show/1","A show."),
      ("Notes","https://open.spotify.com/show/2","A show.")] := by
  refine (addsCards_iff sampleWorld sampleCardBrowser _ heldServer .spotify1 _ _
    sampleWorld_harvest (List.cons_ne_nil _ _) (List.Forall₂.cons rfl (List.Forall₂.cons rfl
      List.Forall₂.nil)) (heldServer_healthy 0 .spotify1)).mpr ⟨rfl,_,rfl,by decide,?_⟩
  intro e he path hp _
  rcases List.mem_pair.mp he with rfl | rfl <;> revert path <;> decide

end Screens

end Senca.ScraperRounds
