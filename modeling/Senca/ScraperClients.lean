import Senca.InterleavedClients
import Senca.ScraperRounds

/-!
# Scripts that run at the same time

A script sends its requests one after the other: most send one post, two of
them a GET before it, the news script repeats its post until it is answered
with a success. Scripts that run at the same time have their requests served
in some order. Those that store in different collections do not disturb each
other: in every order each makes of its collection what it makes of it alone.
As in whole runs, every script posts to its default endpoint and every request
is answered.
-/

namespace Senca.ScraperClients

open Deployment FaultLoops GrowingLogs HubCollectors InterleavedClients JsonValue KeywordFiles
  MongooseStore PythonRuntime ScraperCollectors ScraperRounds ScraperRuns ServerRoutes
  StoreDelivery StoreFunctions ToolHarvest
open RetryNetwork (Report attempt postLoop)
open Client (alone retries)

/-! ### The server -/

/-- A request with the circumstances under which it is served. -/
abbrev Sent := Mongoose×Env×Request

/-- The server serves a request. -/
def serveSent (s : Server) (r : Sent) : Response×Server := handle r.1 r.2.1 s r.2.2

/-- The collection a request is about. -/
def sentTarget (r : Sent) : Option Route := mounts.lookup r.2.2.path

/-- A request does not change what it is not about. -/
theorem handle_others {lib : Mongoose} {env : Env} {s : Server} {req : Request} {route : Route}
    (hne : some route ≠ mounts.lookup req.path) : (handle lib env s req).2 route = s route := by
  have hnone : stored lib route env (s route) req = [] :=
    List.eq_nil_iff_forall_not_mem.mpr fun doc hdoc => by
      obtain ⟨elements,hposted,-⟩ := mem_stored hdoc
      exact hne (posted_cases hposted).1.symm
  rw [handle_collection,hnone,List.append_nil]

/-- A request to a path that is not mounted is answered without a look at the
collections. -/
theorem handle_unmounted {lib : Mongoose} {env : Env} {s t : Server} {req : Request}
    (h : mounts.lookup req.path = none) :
    (handle lib env s req).1 = (handle lib env t req).1 := by
  rw [handle,handle]
  cases expressJson req with
  | error answer => rfl
  | ok body =>
    dsimp only
    rw [h]

/-- The server is a local service. -/
theorem serveSent_local : Local serveSent sentTarget := by
  refine ⟨fun r => ⟨fun s route hne => handle_others hne,fun s t route hroute hst => ?_⟩,
    fun s t r route hroute hst => ?_,fun s t r hnone => handle_unmounted hnone⟩
  · exact (handle_own hroute.symm hst).2
  · exact (handle_own hroute.symm hst).1

/-! ### Scripts as clients -/

/-- `store(items)`, request by request. -/
def storeClient (w : World) (f : StoreFunction) (items : List f.Item) : Client Sent Response :=
  match f.payload w.py items with
  | .error _ => .done
  | .ok elements =>
    let post (k : ℕ) : Sent := (w.lib,w.envs f k,postRequest w.wireSize f.endpoint elements)
    match f with
    | .newsApi => retries succeeds post 3 0
    | .spotify1 | .tools1 =>
      if items.isEmpty then .done
      else .send (w.lib,w.envs f 0,getRequest "/api") (fun _ => .send (post 0) (fun _ => .done))
    | _ => .send (post 0) (fun _ => .done)

/-- `if items: store(items)`. -/
def storeAnyClient (w : World) (f : StoreFunction) (items : List f.Item) :
    Client Sent Response :=
  if items.isEmpty then .done else storeClient w f items

/-- Collect, then store. -/
def collectClient (w : World) (f : StoreFunction) (items : Py (List f.Item)) :
    Client Sent Response :=
  match items with
  | .ok items => storeAnyClient w f items
  | .error _ => .done

/-- The calls of `tools.py`, of which the server sees the post. -/
def callsClient (w : World) : List Call → Client Sent Response
  | [] => .done
  | .post tools::calls => (storeClient w .tools tools).andThen (callsClient w calls)
  | _::calls => callsClient w calls

/-- The calls of a run of `tools.py`. -/
def toolCalls (w : World) (site : Site) : List Call :=
  (scrapeSupertools ⟨w.tables,w.keywordFile,w.ollama,w.py.isoformat w.now⟩ site).calls

/-- The `__main__` block of a script that posts to its default endpoint, request
by request. -/
def scriptClient (w : World) (script : Script) : Client Sent Response :=
  match script,harvest w script with
  | .fetchPapers request,_ => collectClient w .fetchPapers (getTopAiPapersAllKeywords w.py w.now
      w.ollama request 3 (loadAllPaperKeywords w.keywordFile))
  | .huggingface datasets spaces,_ =>
    match getTopDatasetsAndSpacesAllKeywords w.py w.now w.ollama datasets spaces
        (loadAllHuggingfaceKeywords w.keywordFile) with
    | .ok (ds,sp) => (storeAnyClient w .hfDatasets (ds.map datasetItem)).andThen
        (storeAnyClient w .hfSpaces (sp.map spaceItem))
    | .error _ => .done
  | .tools site,_ => callsClient w (toolCalls w site)
  | _,some ⟨f,items⟩ => collectClient w f items
  | _,none => .done

/-- The GETs a store function sends before it posts. -/
def gets : StoreFunction → ℕ
  | .spotify1 => 1
  | .tools1 => 1
  | _ => 0

/-- The requests a script sends at most. -/
def turns (w : World) : Script → ℕ
  | .newsApi _ => 3
  | .spotify1 _ _ => 2
  | .tools1 _ => 2
  | .huggingface _ _ => 2
  | .tools site => (toolCalls w site).length
  | _ => 1

/-- A script collects one batch and stores it, or is one of the two that do more. -/
theorem script_forms (w : World) (script : Script) :
    (∃ f items, scriptClient w script = collectClient w f items ∧
      main w script = collectAndStore w f items ∧
      mounts.lookup f.endpoint = script.target ∧ turns w script = attempts f*1+gets f*1 ∧
      (script.target = none ∨ harvest w script = some ⟨f,items⟩)) ∨
    (∃ datasets spaces, script = .huggingface datasets spaces) ∨ ∃ site, script = .tools site := by
  cases script with
  | huggingface datasets spaces => exact .inr (.inl ⟨datasets,spaces,rfl⟩)
  | tools site => exact .inr (.inr ⟨site,rfl⟩)
  | fetchPapers request =>
    exact .inl ⟨.fetchPapers,_,rfl,rfl,endpoint_mounted .fetchPapers,rfl,.inl rfl⟩
  | tools1 file =>
    exact .inl ⟨.tools1,.ok (readAiTools w file),rfl,rfl,endpoint_mounted .tools1,rfl,.inr rfl⟩
  | devto request => exact .inl ⟨.devto,_,rfl,rfl,endpoint_mounted .devto,rfl,.inr rfl⟩
  | github request => exact .inl ⟨.github,_,rfl,rfl,endpoint_mounted .github,rfl,.inr rfl⟩
  | newsApi request => exact .inl ⟨.newsApi,_,rfl,rfl,endpoint_mounted .newsApi,rfl,.inr rfl⟩
  | scrape request => exact .inl ⟨.scrape,_,rfl,rfl,endpoint_mounted .scrape,rfl,.inr rfl⟩
  | spotify1 token request =>
    exact .inl ⟨.spotify1,_,rfl,rfl,endpoint_mounted .spotify1,rfl,.inr rfl⟩
  | tweets search => exact .inl ⟨.tweets,_,rfl,rfl,endpoint_mounted .tweets,rfl,.inr rfl⟩
  | youtube answers => exact .inl ⟨.youtube,_,rfl,rfl,endpoint_mounted .youtube,rfl,.inr rfl⟩

/-! ### Alone a client does what its script does -/

theorem alone_retries {w : World} {elements : List Json} (n k : ℕ) (report : Report Server) :
    (retries succeeds (fun k => (w.lib,w.envs .newsApi k,
        postRequest w.wireSize StoreFunction.newsApi.endpoint elements)) n k).alone serveSent
          report.server =
      (postLoop (newsServe w.lib w.wireSize elements) succeeds
        (fun k => .served (w.envs .newsApi k) true) n k report).server := by
  induction n generalizing k report with
  | zero => rfl
  | succ n ih =>
    have hserved : serveSent report.server (w.lib,w.envs .newsApi k,
        postRequest w.wireSize StoreFunction.newsApi.endpoint elements) =
          newsServe w.lib w.wireSize elements (w.envs .newsApi k) report.server := rfl
    have hattempt : attempt (newsServe w.lib w.wireSize elements) succeeds report.server
        (.served (w.envs .newsApi k) true) =
          (succeeds (newsServe w.lib w.wireSize elements (w.envs .newsApi k) report.server).1,
            (newsServe w.lib w.wireSize elements (w.envs .newsApi k) report.server).2) := rfl
    rw [retries,alone,postLoop,hattempt,hserved]
    dsimp only
    split
    · rfl
    · split
      · rename_i hn
        subst hn
        rfl
      · exact ih (k+1) ⟨report.result,report.posts+1,report.slept+2^k,_⟩

theorem alone_store (w : World) (f : StoreFunction) (items : List f.Item) (s : Server) :
    (storeClient w f items).alone serveSent s = store w f items s := by
  rw [storeClient,store,StoreFunction.storeInDb]
  cases f.payload w.py items with
  | error e => rfl
  | ok elements =>
    rw [ok_bind]
    cases f with
    | newsApi => exact alone_retries 3 0 ⟨none,0,0,s⟩
    | spotify1 =>
      dsimp only
      split <;> rfl
    | tools1 =>
      dsimp only
      split <;> rfl
    | _ => rfl

theorem alone_storeAny (w : World) (f : StoreFunction) (items : List f.Item) (s : Server) :
    (storeAnyClient w f items).alone serveSent s = storeAny w f items s := by
  rw [storeAnyClient,storeAny]
  split
  · rfl
  · exact alone_store w f items s

theorem alone_collect (w : World) (f : StoreFunction) (items : Py (List f.Item)) (s : Server) :
    (collectClient w f items).alone serveSent s = collectAndStore w f items s := by
  cases items with
  | error e => rfl
  | ok items => exact alone_storeAny w f items s

theorem alone_calls (w : World) (calls : List Call) (s : Server) :
    (callsClient w calls).alone serveSent s = calls.foldl (fun server c =>
      match c with
      | .post tools => store w .tools tools server
      | _ => server) s := by
  induction calls generalizing s with
  | nil => rfl
  | cons c calls ih =>
    cases c with
    | post tools =>
      have hstore := alone_store w .tools tools s
      exact (Client.alone_andThen _ _ _ s).trans
        ((ih _).trans (congrArg (fun s => calls.foldl _ s) hstore))
    | _ => exact ih s

/-- Its requests, served one after the other, are the run of the script. -/
theorem alone_script (w : World) (script : Script) (s : Server) :
    (scriptClient w script).alone serveSent s = main w script s := by
  rcases script_forms w script with ⟨f,items,hclient,hmain,-⟩ | ⟨datasets,spaces,rfl⟩ | ⟨site,rfl⟩
  · rw [hclient,hmain]
    exact alone_collect w f items s
  · change _ = mainHuggingface w datasets spaces s
    rw [mainHuggingface,scriptClient]
    cases getTopDatasetsAndSpacesAllKeywords w.py w.now w.ollama datasets spaces
        (loadAllHuggingfaceKeywords w.keywordFile) with
    | error e => rfl
    | ok both =>
      exact (Client.alone_andThen _ _ _ s).trans (by rw [alone_storeAny,alone_storeAny])
  · exact alone_calls w (toolCalls w site) s

/-! ### What a script sends -/

/-- What it posts reaches that collection. -/
theorem target_of_posted {home : Option Route} {r : Sent} {route : Route} {elements : List Json}
    (h : StaysAt sentTarget home r) (hposted : posted route r.2.2 = some elements) :
    home = some route := by
  have hmount : sentTarget r = some route := (posted_cases hposted).1
  rcases h with hnone | heq
  · rw [hmount] at hnone
    cases hnone
  · exact heq.symm.trans hmount

/-- A request of a store function. -/
structure PostsFor (w : World) (f : StoreFunction) (items : List f.Item) (r : Sent) : Prop where
  lib : r.1 = w.lib
  form : r.2.2 = getRequest "/api" ∨ ∃ elements, f.payload w.py items = .ok elements ∧
    r.2.2 = postRequest w.wireSize f.endpoint elements

theorem api_unmounted : mounts.lookup "/api" = none := by decide

theorem posted_getRequest (route : Route) (path : String) :
    posted route (getRequest path) = none := by
  rw [posted]
  cases hmount : mounts.lookup path <;> simp [getRequest,expressJson,hmount]

section PostsFor

variable {w : World} {f : StoreFunction} {items : List f.Item} {r : Sent}

theorem PostsFor.stays (h : PostsFor w f items r) :
    StaysAt sentTarget (mounts.lookup f.endpoint) r := by
  rcases h.form with hget | ⟨elements,-,hpost⟩
  · exact .inl (by rw [sentTarget,hget]; exact api_unmounted)
  · exact .inr (by rw [sentTarget,hpost]; rfl)

/-- What reaches a router is the payload. -/
theorem PostsFor.posts (h : PostsFor w f items r) (route : Route) (elements : List Json)
    (hposted : posted route r.2.2 = some elements) :
    ∀ element ∈ elements, PostedFor w.py f items element := by
  rcases h.form with hget | ⟨payload,hp,hpost⟩
  · rw [hget,posted_getRequest] at hposted
    cases hposted
  · rw [hpost] at hposted
    have hbody := (posted_cases hposted).2
    cases hbody
    exact fun _ helement => partner_of_mem (gather_one_eq_ok.mp hp).flip helement

end PostsFor

theorem sends_store (w : World) (f : StoreFunction) (items : List f.Item) :
    (storeClient w f items).Sends (PostsFor w f items) := by
  rw [storeClient]
  cases hp : f.payload w.py items with
  | error e => trivial
  | ok elements =>
    have hpost : ∀ k, PostsFor w f items
        (w.lib,w.envs f k,postRequest w.wireSize f.endpoint elements) :=
      fun _ => ⟨rfl,.inr ⟨elements,hp,rfl⟩⟩
    have hget : PostsFor w f items (w.lib,w.envs f 0,getRequest "/api") := ⟨rfl,.inl rfl⟩
    cases f with
    | newsApi => exact Client.sends_retries hpost 3 0
    | spotify1 =>
      dsimp only
      split
      · trivial
      · exact ⟨hget,fun _ => ⟨hpost 0,fun _ => trivial⟩⟩
    | tools1 =>
      dsimp only
      split
      · trivial
      · exact ⟨hget,fun _ => ⟨hpost 0,fun _ => trivial⟩⟩
    | _ => exact ⟨hpost 0,fun _ => trivial⟩

theorem sends_storeAny (w : World) (f : StoreFunction) (items : List f.Item) :
    (storeAnyClient w f items).Sends (PostsFor w f items) := by
  rw [storeAnyClient]
  split
  · trivial
  · exact sends_store w f items

/-- A request of a script. -/
structure SentBy (w : World) (script : Script) (r : Sent) : Prop where
  lib : r.1 = w.lib
  stays : StaysAt sentTarget script.target r
  posts : script.target ≠ none → ∀ route elements, posted route r.2.2 = some elements →
    ∀ element ∈ elements, Collected w script element

theorem sentBy_unmounted {w : World} {script : Script} {f : StoreFunction} {items : List f.Item}
    (htarget : script.target = none) (hf : mounts.lookup f.endpoint = none) (r : Sent)
    (h : PostsFor w f items r) : SentBy w script r :=
  ⟨h.lib,by rw [htarget,← hf]; exact h.stays,fun hne => absurd htarget hne⟩

theorem sends_calls (w : World) {script : Script} (htarget : script.target = none)
    (calls : List Call) : (callsClient w calls).Sends (SentBy w script) := by
  induction calls with
  | nil => trivial
  | cons c calls ih =>
    cases c with
    | post tools =>
      have hpost := (sends_store w .tools tools).mono
        (sentBy_unmounted htarget (endpoint_mounted .tools))
      exact Client.sends_andThen hpost ih
    | _ => exact ih

/-- A script posts what it collected, and stays at the collection behind its page. -/
theorem sends_script (w : World) (script : Script) :
    (scriptClient w script).Sends (SentBy w script) := by
  rcases script_forms w script with
    ⟨f,items,hclient,-,htarget,-,hharvest⟩ | ⟨datasets,spaces,rfl⟩ | ⟨site,rfl⟩
  · rw [hclient]
    cases items with
    | error e => trivial
    | ok items =>
      refine (sends_storeAny w f items).mono fun r hr => ⟨hr.lib,htarget ▸ hr.stays,?_⟩
      intro hne route elements hposted element helement
      exact ⟨f,items,hharvest.resolve_left hne,hr.posts route elements hposted element helement⟩
  · rw [scriptClient]
    cases getTopDatasetsAndSpacesAllKeywords w.py w.now w.ollama datasets spaces
        (loadAllHuggingfaceKeywords w.keywordFile) with
    | error e => trivial
    | ok both =>
      have hnone : (Script.huggingface datasets spaces).target = none := rfl
      have hdatasets := (sends_storeAny w .hfDatasets (both.1.map datasetItem)).mono
        (sentBy_unmounted hnone (endpoint_mounted .hfDatasets))
      have hspaces := (sends_storeAny w .hfSpaces (both.2.map spaceItem)).mono
        (sentBy_unmounted hnone (endpoint_mounted .hfSpaces))
      exact Client.sends_andThen hdatasets hspaces
  · exact sends_calls w rfl (toolCalls w site)

/-! ### How much a script sends -/

section Costs

variable {cost : Sent → ℕ} {w : World} {each get : ℕ}

/-- A store function does not spend more than its posts, and its GETs, may cost. -/
theorem within_store {f : StoreFunction} {items : List f.Item}
    (hpost : ∀ elements, f.payload w.py items = .ok elements → ∀ k,
      cost (w.lib,w.envs f k,postRequest w.wireSize f.endpoint elements) ≤ each)
    (hget : cost (w.lib,w.envs f 0,getRequest "/api") ≤ get) :
    (storeClient w f items).Within cost (attempts f*each+gets f*get) := by
  rw [storeClient]
  cases hp : f.payload w.py items with
  | error e => trivial
  | ok elements =>
    have heach := hpost elements hp
    cases f with
    | newsApi => exact (Client.within_retries heach 3 0).mono (Nat.le_add_right _ _)
    | spotify1 =>
      dsimp only
      split
      · trivial
      · refine ⟨hget.trans ?_,fun _ => ⟨(heach 0).trans ?_,fun _ => trivial⟩⟩
        · simp [gets]
        · simp only [attempts,gets,Nat.one_mul]
          omega
    | tools1 =>
      dsimp only
      split
      · trivial
      · refine ⟨hget.trans ?_,fun _ => ⟨(heach 0).trans ?_,fun _ => trivial⟩⟩
        · simp [gets]
        · simp only [attempts,gets,Nat.one_mul]
          omega
    | _ =>
      refine ⟨(heach 0).trans ?_,fun _ => trivial⟩
      simp [attempts,gets]

theorem within_collect {f : StoreFunction} {items : Py (List f.Item)}
    (hpost : ∀ collected, items = .ok collected → ∀ elements,
      f.payload w.py collected = .ok elements → ∀ k,
        cost (w.lib,w.envs f k,postRequest w.wireSize f.endpoint elements) ≤ each)
    (hget : cost (w.lib,w.envs f 0,getRequest "/api") ≤ get) :
    (collectClient w f items).Within cost (attempts f*each+gets f*get) := by
  cases items with
  | error e => trivial
  | ok items =>
    rw [collectClient,storeAnyClient]
    split
    · trivial
    · exact within_store (hpost items rfl) hget

/-- The calls post once each at most. -/
theorem within_calls (calls : List Call) :
    (callsClient w calls).Within (fun _ => 1) calls.length := by
  induction calls with
  | nil => trivial
  | cons c calls ih =>
    cases c with
    | post tools =>
      have hpost : (storeClient w .tools tools).Within (fun _ => 1)
          (attempts .tools*1+gets .tools*1) := within_store (fun _ _ _ => le_refl 1) (le_refl 1)
      have hboth := Client.within_andThen hpost ih
      rwa [Nat.add_comm] at hboth
    | _ => exact ih.mono (Nat.le_succ _)

/-- A script sends as many requests as it may have turns. -/
theorem within_script (w : World) (script : Script) :
    (scriptClient w script).Within (fun _ => 1) (turns w script) := by
  rcases script_forms w script with
    ⟨f,items,hclient,-,-,hturns,-⟩ | ⟨datasets,spaces,rfl⟩ | ⟨site,rfl⟩
  · rw [hclient,hturns]
    exact within_collect (fun _ _ _ _ _ => le_refl 1) (le_refl 1)
  · rw [scriptClient]
    cases getTopDatasetsAndSpacesAllKeywords w.py w.now w.ollama datasets spaces
        (loadAllHuggingfaceKeywords w.keywordFile) with
    | error e => trivial
    | ok both =>
      have hone : ∀ {f : StoreFunction} (items : List f.Item), attempts f*1+gets f*1 = 1 →
          (storeAnyClient w f items).Within (fun _ => 1) 1 := by
        intro f items hf
        have hitems : (collectClient w f (.ok items)).Within (fun _ => 1)
            (attempts f*1+gets f*1) :=
          within_collect (fun _ _ _ _ _ => le_refl 1) (le_refl 1)
        rwa [hf] at hitems
      exact Client.within_andThen (hone _ rfl) (hone _ rfl)
  · exact within_calls (toolCalls w site)

/-- The elements a request posts to a router. -/
def addsAt (route : Route) (r : Sent) : ℕ := ((posted route r.2.2).getD []).length

theorem addsAt_post {lib : Mongoose} {env : Env} {wireSize : WireSize} {path : String}
    {elements : List Json} {route : Route} :
    addsAt route (lib,env,postRequest wireSize path elements) ≤ elements.length := by
  rw [addsAt]
  cases hposted : posted route (postRequest wireSize path elements) with
  | none => exact Nat.zero_le _
  | some elements' =>
    cases (posted_cases hposted).2
    exact le_refl _

/-- A script posts no more than its limit to the collection behind its page, and
nothing to another one. -/
theorem adds_script (w : World) (script : Script) (route : Route) :
    (scriptClient w script).Within (addsAt route)
      (if script.target = some route then script.limit else 0) := by
  have hget : ∀ env, addsAt route (w.lib,env,getRequest "/api") = 0 := fun env => by
    rw [addsAt,posted_getRequest]
    rfl
  by_cases htarget : script.target = some route
  · rw [if_pos htarget]
    rcases script_forms w script with
      ⟨f,items,hclient,-,-,-,hnone | hharvest⟩ | ⟨datasets,spaces,rfl⟩ | ⟨site,rfl⟩
    · rw [hnone] at htarget
      cases htarget
    · rw [hclient]
      cases items with
      | error e => trivial
      | ok items =>
        have hpost : ∀ elements, f.payload w.py items = .ok elements → ∀ k,
            addsAt route (w.lib,w.envs f k,postRequest w.wireSize f.endpoint elements) ≤
              items.length := fun elements hp k =>
          addsAt_post.trans (gather_one_eq_ok.mp hp).length_eq.ge
        have hspent : (collectClient w f (.ok items)).Within (addsAt route)
            (attempts f*items.length+gets f*0) := by
          refine within_collect (fun collected hcollected => ?_) (hget _).le
          cases hcollected
          exact hpost
        exact hspent.mono (harvest_limit w script hharvest)
    · cases htarget
    · cases htarget
  · rw [if_neg htarget]
    refine Client.within_free ((sends_script w script).mono fun r hr => ?_) 0
    rw [addsAt]
    cases hposted : posted route r.2.2 with
    | none => rfl
    | some elements => exact absurd (target_of_posted hr.stays hposted) htarget

end Costs

/-! ### Scripts at the same time -/

section Concurrent

variable {ι : Type}

/-- The scripts before any of them was served. -/
def launch (runs : ι → World×Script) (server : Server) : System ι Sent Response Server :=
  ⟨fun i => scriptClient (runs i).1 (runs i).2,server⟩

/-- The collections after a schedule of turns. -/
def concurrent [DecidableEq ι] (runs : ι → World×Script) (server : Server)
    (schedule : List ι) : Server :=
  (runFrom (turn serveSent) (launch runs server) schedule).state

/-- From one state to another each collection grew by what the scripts behind
its page collected, within their limits; and where there was one such script and
it had its turns, it is what this script makes of it alone. -/
structure RunsApart [DecidableEq ι] [Fintype ι] (runs : ι → World×Script) (schedule : List ι)
    (s t : Server) : Prop where
  added : ∀ route, ∃ docs, t route = s route++docs ∧
    docs.length ≤ ∑ i, (if (runs i).2.target = some route then (runs i).2.limit else 0) ∧
    ∀ doc ∈ docs, ∃ i, (runs i).2.target = some route ∧ ∃ element,
      Collected (runs i).1 (runs i).2 element ∧ CastFrom (runs i).1.lib doc element
  alone : ∀ i route, (runs i).2.target = some route →
    (∀ j ≠ i, (runs j).2.target ≠ some route) →
      turns (runs i).1 (runs i).2 ≤ schedule.count i → t route = main (runs i).1 (runs i).2 s route

/-- Each collection grew by what the scripts behind its page collected. -/
def AddedBy (runs : ι → World×Script) (s t : Server) : Prop :=
  ∀ route, ∃ docs, t route = s route++docs ∧ ∀ doc ∈ docs, ∃ i,
    (runs i).2.target = some route ∧ ∃ element,
      Collected (runs i).1 (runs i).2 element ∧ CastFrom (runs i).1.lib doc element

theorem addedBy_refl (runs : ι → World×Script) (s : Server) : AddedBy runs s s :=
  fun _ => ⟨[],(List.append_nil _).symm,fun _ hdoc => absurd hdoc List.not_mem_nil⟩

theorem addedBy_serve {runs : ι → World×Script} {s t : Server} {r : Sent}
    (hr : ∃ i, SentBy (runs i).1 (runs i).2 r) (h : AddedBy runs s t) :
    AddedBy runs s (serveSent t r).2 := by
  intro route
  obtain ⟨docs,hdocs,hfrom⟩ := h route
  obtain ⟨i,hsent⟩ := hr
  refine ⟨docs++stored r.1 route r.2.1 (t route) r.2.2,?_,fun doc hdoc => ?_⟩
  · rw [serveSent,handle_collection,hdocs,List.append_assoc]
  · rcases List.mem_append.mp hdoc with hdoc | hdoc
    · exact hfrom doc hdoc
    · obtain ⟨elements,hposted,element,helement,hcast⟩ := mem_stored hdoc
      have htarget := target_of_posted hsent.stays hposted
      have hne : (runs i).2.target ≠ none := by simp [htarget]
      exact ⟨i,htarget,element,hsent.posts hne route elements hposted element helement,
        hsent.lib ▸ hcast⟩

theorem launch_sends (runs : ι → World×Script) (server : Server) (i : ι) :
    ((launch runs server).clients i).Sends (SentBy (runs i).1 (runs i).2) :=
  sends_script (runs i).1 (runs i).2

section Schedules

variable [DecidableEq ι] {runs : ι → World×Script} {server : Server} {schedule : List ι}

/-- A script that had its turns sends nothing any more. -/
theorem launch_done {i : ι} (h : turns (runs i).1 (runs i).2 ≤ schedule.count i) :
    (runFrom (turn serveSent) (launch runs server) schedule).clients i = .done :=
  runFrom_turn_done schedule ((within_script (runs i).1 (runs i).2).mono h)

theorem concurrent_addedBy (runs : ι → World×Script) (server : Server) (schedule : List ι) :
    AddedBy runs server (concurrent runs server schedule) := by
  have hkeeping : Keeping (fun r => ∃ i, SentBy (runs i).1 (runs i).2 r)
      (AddedBy runs server) (launch runs server) :=
    ⟨fun i => (launch_sends runs server i).mono fun r hr => ⟨i,hr⟩,addedBy_refl runs server⟩
  have hserve : ∀ (s : Server) (r : Sent), (∃ i, SentBy (runs i).1 (runs i).2 r) →
      AddedBy runs server s → AddedBy runs server (serveSent s r).2 :=
    fun _ _ => addedBy_serve
  exact (runFrom_turn_keeping hserve hkeeping schedule).2

theorem concurrent_length [Fintype ι] (runs : ι → World×Script) (server : Server)
    (schedule : List ι) (route : Route) :
    (concurrent runs server schedule route).length ≤ (server route).length+
      ∑ i, (if (runs i).2.target = some route then (runs i).2.limit else 0) := by
  have hcost : ∀ (s : Server) (r : Sent),
      ((serveSent s r).2 route).length ≤ (s route).length+addsAt route r := by
    intro s r
    rw [serveSent,handle_collection,List.length_append]
    exact Nat.add_le_add_left stored_length _
  have hbudget : ∀ i, ((launch runs server).clients i).Within (addsAt route)
      (if (runs i).2.target = some route then (runs i).2.limit else 0) :=
    fun i => adds_script (runs i).1 (runs i).2 route
  exact @runFrom_turn_bounded _ _ _ _ _ _ _ _ _ (fun s : Server => (s route).length)
    hcost _ hbudget schedule

theorem concurrent_alone {i : ι} {route : Route} (htarget : (runs i).2.target = some route)
    (hothers : ∀ j ≠ i, (runs j).2.target ≠ some route)
    (hturns : turns (runs i).1 (runs i).2 ≤ schedule.count i) :
    concurrent runs server schedule route = main (runs i).1 (runs i).2 server route := by
  have hown : ((launch runs server).clients i).Sends (StaysAt sentTarget (some route)) :=
    (launch_sends runs server i).mono fun r hr => htarget ▸ hr.stays
  have hspared : ∀ j ≠ i, ((launch runs server).clients j).Sends (Spares sentTarget route) :=
    fun j hj => (launch_sends runs server j).mono fun r hr => hr.stays.spares (hothers j hj)
  have halone := runFrom_turn_alone serveSent_local hown hspared schedule
  rw [launch_done hturns] at halone
  exact halone.trans (congrFun (alone_script (runs i).1 (runs i).2 server) route)

end Schedules

/-- For any scripts that run at the same time, whatever their sources answer,
and in whatever order the server gets their requests. -/
theorem concurrent_runsApart [DecidableEq ι] [Fintype ι] (runs : ι → World×Script)
    (server : Server) (schedule : List ι) :
    RunsApart runs schedule server (concurrent runs server schedule) := by
  refine ⟨fun route => ?_,fun i route htarget hothers hturns =>
    concurrent_alone htarget hothers hturns⟩
  obtain ⟨docs,hdocs,hfrom⟩ := concurrent_addedBy runs server schedule route
  have hlen := concurrent_length runs server schedule route
  rw [hdocs,List.length_append] at hlen
  exact ⟨docs,hdocs,Nat.le_of_add_le_add_left hlen,hfrom⟩

/-- For any scripts of which no two store in one collection, whatever the server
held before: all having had their turns, in any order, the collections are what
the scripts leave that run one after the other, in any order. -/
theorem concurrent_eq_round [DecidableEq ι] (runs : ι → World×Script) (server : Server)
    (schedule order : List ι)
    (hdistinct : ∀ i j route, (runs i).2.target = some route →
      (runs j).2.target = some route → i = j)
    (hturns : ∀ i, turns (runs i).1 (runs i).2 ≤ schedule.count i) (horder : order.Nodup)
    (hall : ∀ i, i ∈ order) :
    concurrent runs server schedule = ScraperRounds.round (order.map runs) server := by
  have hhome : ∀ i, ((launch runs server).clients i).Sends
      (StaysAt sentTarget (runs i).2.target) :=
    fun i => (launch_sends runs server i).mono fun r hr => hr.stays
  have hscript : (fun (s : Server) i => ((launch runs server).clients i).alone serveSent s) =
      fun s i => main (runs i).1 (runs i).2 s := by
    funext s i
    exact alone_script (runs i).1 (runs i).2 s
  rw [concurrent,runFrom_turn_serial serveSent_local hhome hdistinct horder hall
    fun i => launch_done (hturns i),hscript]
  unfold ScraperRounds.round runFrom
  rw [List.foldl_map]
  rfl

end Concurrent

/-- A file with one tool. -/
def sampleToolFile : String := "# Tools\n## Code\n[Pilot](https://pilot.example)\n## Image"

/-- The podcast script finds two shows, the tools script one tool. -/
def sampleRuns : Fin 2 → World×Script
  | 0 => (sampleWorld,.spotify1 (.ok "") sampleShowSearch)
  | 1 => ({ sampleWorld with ollama := fun _ _ => .ok "Writes code." },.tools1 sampleToolFile)

/-- What the second script collects. -/
theorem sampleToolFile_harvest : harvest (sampleRuns 1).1 (sampleRuns 1).2 =
    some ⟨.tools1,.ok [⟨"Pilot","https://pilot.example","Writes code.",sampleTime⟩]⟩ := by
  have hlinks : toolLinks sampleToolFile.toList = [("Pilot","https://pilot.example")] := by
    decide
  have hne : sampleToolFile ≠ "" := by decide
  change some (⟨.tools1,.ok (readAiTools _ (some sampleToolFile))⟩ :
    (f : StoreFunction)×Py (List f.Item)) = _
  rw [readAiTools,Option.getD_some,if_neg hne,getAiTools,hlinks]
  rfl

/-- Their requests alternate, on a server that holds documents; each posts what
it collected. -/
theorem concurrent_sampleRuns :
    (harvest (sampleRuns 0).1 (sampleRuns 0).2 = some ⟨.spotify1,.ok sampleShows⟩ ∧
      harvest (sampleRuns 1).1 (sampleRuns 1).2 =
        some ⟨.tools1,.ok [⟨"Pilot","https://pilot.example","Writes code.",sampleTime⟩]⟩) ∧
    concurrent sampleRuns heldServer [1,0,1,0] =
      ScraperRounds.round ([0,1].map sampleRuns) heldServer := by
  have hdistinct : ∀ i j, (sampleRuns i).2.target = (sampleRuns j).2.target → i = j := by decide
  exact ⟨⟨sampleWorld_harvest,sampleToolFile_harvest⟩,
    concurrent_eq_round sampleRuns heldServer [1,0,1,0] [0,1]
      (fun i j _ hi hj => hdistinct i j (hi.trans hj.symm)) (by decide) (by decide) (by decide)⟩

end Senca.ScraperClients
