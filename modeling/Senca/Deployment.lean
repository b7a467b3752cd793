import Senca.GrowingLogs
import Senca.ResourceCards

/-!
# The deployed system

One server and any number of open pages. Requests of scrapers or anyone else,
the opening of a page, the service of each of its GETs, the completion of its
fetch and what its user does come in any order; a page fetches its endpoints
in parallel, so that its answers are read from the collections at different
moments of a run. The collections only grow, which decides what a page can
show: documents stored by now, and all that were stored before it was opened.
-/

namespace Senca.Deployment

open BrowserRuntime DerivedView GrowingLogs JsonValue MongooseStore PageLoading PageSearch
  ResourceCards ServerRoutes StoreFunctions StoredSearch

/-! ### Answers -/

/-- The members of an object. -/
def members? : Json → Option Resource
  | .obj members => some members
  | _ => none

/-- `res.json()`, none when it rejects. The routers send objects and arrays of
objects. -/
def decode (r : Response) : Option Answer :=
  match r.body with
  | some (.arr items) => (items.mapM members?).map .array
  | some (.obj members) => some (.object members)
  | _ => none

/-! ### Open pages -/

/-- The fetch that a page starts when it is mounted. -/
inductive Progress where
  /-- `Promise.all` waits, or the bodies are still read. -/
  | waiting
  /-- The fetch function ran to its end or into its `catch`. -/
  | done
  /-- A request or the reading of a body failed. -/
  | failed
  deriving DecidableEq

/-- A mounted page. -/
structure Tab where
  /-- Which page it is. -/
  page : Page
  /-- The answers that were served so far. -/
  arrived : String → Option Answer
  /-- How far the fetch is. -/
  progress : Progress
  /-- The state of the component. -/
  view : PageState

/-- A page that has just been mounted. -/
def openTab (browser : Browser) (page : Page) : Tab :=
  ⟨page,fun _ => none,.waiting,mounted browser page⟩

/-- The answers of a tab, read when all have arrived. -/
def Tab.answers (tab : Tab) (path : String) : Answer := (tab.arrived path).getD (.object [])

/-- What the user does, and React's own scheduling. -/
inductive Input where
  | setSearchTerm (searchTerm : String)
  | clickCategory (category : Category)
  | runEffects

/-- The event of the page. -/
def Input.event : Input → PageEvent
  | .setSearchTerm searchTerm => .setSearchTerm searchTerm
  | .clickCategory category => .clickCategory category
  | .runEffects => .runEffects

/-- A component after an event of its page. -/
def advance (browser : Browser) (page : Page) (view : PageState) (e : PageEvent) : PageState :=
  DerivedView.run (component browser page) view (changes browser page e)

/-- The answer to one of the GETs of a tab; each is sent once. -/
def Tab.receive (path : String) (r : Response) (tab : Tab) : Tab :=
  if tab.progress = .waiting ∧ path ∈ tab.page.endpoints.map Prod.fst ∧
      tab.arrived path = none then
    match decode r with
    | some answer => { tab with arrived := Function.update tab.arrived path (some answer) }
    | none => { tab with progress := .failed }
  else tab

/-- A fetch that is still under way fails. -/
def Tab.fail (tab : Tab) : Tab :=
  if tab.progress = .waiting then { tab with progress := .failed } else tab

/-- Every endpoint of the page has answered. -/
def Tab.Complete (tab : Tab) : Prop :=
  ∀ e ∈ tab.page.endpoints, (tab.arrived e.1).isSome = true

instance (tab : Tab) : Decidable tab.Complete := by
  unfold Tab.Complete
  infer_instance

/-- The fetch completes once all answers are there. -/
def Tab.complete (browser : Browser) (tab : Tab) : Tab :=
  if tab.progress = .waiting ∧ tab.Complete then
    { tab with
      progress := .done
      view := advance browser tab.page tab.view (.fetchCompletes tab.answers) }
  else tab

/-- The user or React acts on a tab. -/
def Tab.act (browser : Browser) (input : Input) (tab : Tab) : Tab :=
  { tab with view := advance browser tab.page tab.view input.event }

/-! ### The system -/

/-- The collections and the open pages. -/
structure State where
  /-- The collections. -/
  server : Server
  /-- The open pages. -/
  tabs : ℕ → Option Tab

/-- What can happen next. -/
inductive Event where
  /-- Anyone sends a request. -/
  | request (env : Env) (req : Request)
  /-- A page is mounted, in place of the one that was there. -/
  | openPage (i : ℕ) (page : Page)
  /-- A page is unmounted. -/
  | close (i : ℕ)
  /-- The GET of an endpoint is served to a page. -/
  | answer (i : ℕ) (path : String) (env : Env)
  /-- A request of the fetch fails on its way. -/
  | fetchFails (i : ℕ)
  /-- The fetch completes. -/
  | fetchCompletes (i : ℕ)
  /-- The user or React acts. -/
  | act (i : ℕ) (input : Input)

/-- A change of one tab, if it is open. -/
def onTab (s : State) (i : ℕ) (f : Tab → Tab) : State :=
  { s with tabs := Function.update s.tabs i ((s.tabs i).map f) }

/-- One event. -/
def step (lib : Mongoose) (browser : Browser) (s : State) : Event → State
  | .request env req => { s with server := (handle lib env s.server req).2 }
  | .openPage i page =>
    { s with tabs := Function.update s.tabs i (some (openTab browser page)) }
  | .close i => { s with tabs := Function.update s.tabs i none }
  | .answer i path env =>
    let out := handle lib env s.server (getRequest path)
    onTab { s with server := out.2 } i (Tab.receive path out.1)
  | .fetchFails i => onTab s i Tab.fail
  | .fetchCompletes i => onTab s i (Tab.complete browser)
  | .act i input => onTab s i (Tab.act browser input)

/-- The server before anyone opened a page. -/
def start (server : Server) : State := ⟨server,fun _ => none⟩

/-- A run of the system. -/
abbrev runSystem (lib : Mongoose) (browser : Browser) (s : State) (events : List Event) : State :=
  runFrom (step lib browser) s events

/-! ### What a GET brings -/

/-- The routers a page fetches from. -/
def routesOf : Page → List Route
  | .blogsRepos => [.devto,.github,.huggingface,.newsapi]
  | .researchPapers => [.fetchpapers,.scrape]
  | .tutorials => [.tools1]
  | .tweetsPodcastsVideos => [.spotify1,.tweets,.youtube]

theorem endpoints_eq (page : Page) : page.endpoints =
    (routesOf page).map (fun route => (mountPath route,shownForm route)) := by
  cases page <;> rfl

theorem mem_paths {page : Page} {path : String} :
    path ∈ page.endpoints.map Prod.fst ↔ ∃ route ∈ routesOf page, mountPath route = path := by
  rw [endpoints_eq,List.map_map,List.mem_map]
  rfl

theorem pageOf_routesOf {page : Page} {route : Route} (h : route ∈ routesOf page) :
    pageOf route = page := by
  cases page <;> simp only [routesOf,List.mem_cons,List.not_mem_nil,or_false] at h
  · rcases h with rfl | rfl | rfl | rfl <;> rfl
  · rcases h with rfl | rfl <;> rfl
  · subst h
    rfl
  · rcases h with rfl | rfl | rfl <;> rfl

/-- An answer that is an error object, or that lists a collection as it was at
some moment between two states. -/
def Served (lib : Mongoose) (moments : Server → Prop) (s t : Server) (route : Route)
    (answer : Answer) : Prop :=
  answer.isArray = false ∨
    ∃ held, ReadBetween moments s t route held ∧ answer = .array ((find held).map lib.members)

variable {lib : Mongoose} {browser : Browser} {moments : Server → Prop}

theorem mapM_members (items : List Resource) : (items.map Json.obj).mapM members? = some items := by
  induction items with
  | nil => rfl
  | cons item rest ih => simp [List.mapM_cons,members?,ih]

/-- A GET changes nothing. -/
theorem handle_get (env : Env) (server : Server) (path : String) :
    (handle lib env server (getRequest path)).2 = server := by
  rw [handle]
  cases h : mounts.lookup path <;> simp [getRequest,expressJson,h]

/-- A GET reads the collection as it is. -/
theorem decode_get (env : Env) {server : Server} (hnow : moments server) (route : Route) :
    ∃ answer, decode (handle lib env server (getRequest (mountPath route))).1 = some answer ∧
      Served lib moments server server route answer ∧
        (env.readFails = false → answer.isArray = true) := by
  have hanswer : (handle lib env server (getRequest (mountPath route))).1 =
      getHandler lib route env (server route) := by
    simp [handle,getRequest,expressJson,mounts_mountPath]
  rw [hanswer]
  cases hreads : env.readFails with
  | true =>
    refine ⟨.object [("error",.str ("Failed to fetch "++route.resourcesText))],?_,.inl rfl,
      fun h => absurd h (by decide)⟩
    rw [getHandler,if_pos hreads]
    rfl
  | false =>
    refine ⟨.array ((find (server route)).map lib.members),?_,
      .inr ⟨_,readBetween_now (Grows.refl _) hnow route,rfl⟩,fun _ => rfl⟩
    rw [getHandler,if_neg (by rw [hreads]; decide),decode]
    have hitems : (find (server route)).map lib.render =
        ((find (server route)).map lib.members).map Json.obj := by
      rw [List.map_map]
      rfl
    simp only [hitems,mapM_members,Option.map_some]

theorem Served.mono {s t u : Server} {route : Route} {answer : Answer}
    (h : Served lib moments s t route answer) (hg : Grows t u) :
    Served lib moments s u route answer :=
  h.imp id fun ⟨held,hread,heq⟩ => ⟨held,hread.mono hg,heq⟩

theorem Served.weaken {s t u : Server} {route : Route} {answer : Answer}
    (h : Served lib moments t u route answer) (hg : Grows s t) :
    Served lib moments s u route answer :=
  h.imp id fun ⟨held,hread,heq⟩ => ⟨held,hread.weaken hg,heq⟩

/-- A document is searchable as it is sent. -/
theorem searchable_members {route : Route} (doc : Document route.schema) :
    Searchable (lib.members doc) := by
  have h := searchable_stored lib doc
  refine ⟨?_,?_,?_⟩
  · rw [HasTitle,← @field_shownForm route _ (by decide)]
    exact h.title
  · rw [Textual,← @field_shownForm route _ (by decide)]
    exact h.description
  · rw [Textual,← @field_shownForm route _ (by decide)]
    exact h.author

theorem Served.searchable {s t : Server} {route : Route} {answer : Answer}
    (h : Served lib moments s t route answer) : ∀ item ∈ answer.items, Searchable item := by
  rcases h with hobject | ⟨held,-,rfl⟩
  · cases answer with
    | array items => cases hobject
    | object members => simp [Answer.items]
  · intro item hitem
    obtain ⟨doc,-,rfl⟩ := List.mem_map.mp hitem
    exact searchable_members doc

/-! ### What holds of an open page -/

/-- What a tab has, when its fetch began after one state and the present one is
another. -/
structure Tab.Sound (lib : Mongoose) (browser : Browser) (moments : Server → Prop)
    (s t : Server) (tab : Tab) : Prop where
  /-- Its answers were read in between. -/
  served : ∀ route answer, tab.arrived (mountPath route) = some answer →
    Served lib moments s t route answer
  /-- Other paths were not asked. -/
  asked : ∀ path, (tab.arrived path).isSome = true → path ∈ tab.page.endpoints.map Prod.fst
  /-- It did not complete its fetch before all answers were there. -/
  filled : tab.progress = .done → tab.Complete
  /-- Its view is that of a run of the page, with no load but its own. -/
  ran : ∃ events, tab.view = runPage browser tab.page events ∧
    ∀ answers, PageEvent.fetchCompletes answers ∈ events →
      tab.progress = .done ∧ answers = tab.answers
  /-- It holds what its fetch function made of the answers. -/
  loaded : tab.view.loaded =
    if tab.progress = .done then PageLoading.loaded browser tab.page tab.answers else []
  /-- What is on its screen is among what it holds. -/
  shown : tab.view.value.Subperm tab.view.loaded

section Tabs

variable {s t u : Server} {tab : Tab}

theorem Tab.Sound.mono (h : tab.Sound lib browser moments s t) (hg : Grows t u) :
    tab.Sound lib browser moments s u :=
  { h with served := fun route answer ha => (h.served route answer ha).mono hg }

theorem mounted_eq (page : Page) : mounted browser page = runPage browser page [] := rfl

theorem advance_run (page : Page) (events : List PageEvent) (e : PageEvent) :
    advance browser page (runPage browser page events) e = runPage browser page (events++[e]) := by
  rw [runPage_append,List.flatMap_singleton]
  rfl

/-- All that a tab received is searchable. -/
theorem Tab.Sound.answers_searchable (h : tab.Sound lib browser moments s t) :
    (PageEvent.fetchCompletes tab.answers).Searchable := by
  intro path item hitem
  rw [Tab.answers] at hitem
  cases harrived : tab.arrived path with
  | none =>
    rw [harrived] at hitem
    simp [Answer.items] at hitem
  | some answer =>
    rw [harrived,Option.getD_some] at hitem
    obtain ⟨route,-,rfl⟩ := mem_paths.mp (h.asked path (by rw [harrived]; rfl))
    exact (h.served route answer harrived).searchable item hitem

/-- A page stays up. -/
theorem Tab.Sound.alive (h : tab.Sound lib browser moments s t) : tab.view.crashed = false := by
  obtain ⟨events,hview,hloads⟩ := h.ran
  rw [hview]
  refine runPage_alive fun e he => ?_
  cases e with
  | fetchCompletes answers =>
    rw [(hloads answers he).2]
    exact h.answers_searchable
  | _ => trivial

theorem openTab_sound (moments : Server → Prop) (s t : Server) (page : Page) :
    (openTab browser page).Sound lib browser moments s t where
  served _ _ h := nomatch h
  asked _ h := nomatch h
  filled h := nomatch h
  ran := ⟨[],rfl,fun _ h => nomatch h⟩
  loaded := (commit_inputs _ _).1
  shown := by
    have hmount : (mounted browser page).value.Subperm (mounted browser page).loaded :=
      commit_shows (R := fun data value => List.Subperm value data)
        (fun _ _ _ hd => (filteredData_sublist hd).subperm) (List.Subperm.refl [])
    exact hmount

/-- An event of a page is at most one change of its component. -/
theorem changes_cases (page : Page) (e : PageEvent) :
    changes browser page e = [] ∨ ∃ change, changes browser page e = [change] := by
  cases e with
  | fetchCompletes answers =>
    simp only [changes]
    split
    · exact .inr ⟨_,rfl⟩
    · exact .inl rfl
  | setSearchTerm searchTerm => exact .inr ⟨_,rfl⟩
  | clickCategory category =>
    simp only [changes]
    split
    · exact .inr ⟨_,rfl⟩
    · exact .inl rfl
  | runEffects => exact .inr ⟨_,rfl⟩

/-- What is shown stays among what is held, if a load finds the page empty. -/
theorem advance_shows {page : Page} {view : PageState} {e : PageEvent}
    (h : view.value.Subperm view.loaded)
    (hload : ∀ answers, e = .fetchCompletes answers → view.loaded = []) :
    (advance browser page view e).value.Subperm (advance browser page view e).loaded := by
  rw [advance]
  rcases @changes_cases browser page e with hnone | ⟨change,hone⟩
  · rwa [hnone]
  · rw [hone]
    refine step_shows (R := fun data value => List.Subperm value data)
      (fun _ _ _ hd => (filteredData_sublist hd).subperm) h ?_
    rintro data direct rfl value hvalue
    cases e with
    | fetchCompletes answers =>
      rw [hload answers rfl] at hvalue
      simp only [changes] at hone
      split at hone
      · obtain ⟨rfl,rfl⟩ := Event.load.inj (List.singleton_inj.mp hone)
        split
        · exact .refl _
        · rw [List.subperm_nil.mp hvalue]
          exact List.nil_subperm
      · cases hone
    | setSearchTerm searchTerm => cases hone
    | clickCategory category =>
      simp only [changes] at hone
      split at hone <;> cases hone
    | runEffects => cases hone

/-- Only a fetch changes what a page holds. -/
theorem advance_loaded {page : Page} {view : PageState} (input : Input)
    (h : (advance browser page view input.event).crashed = false) :
    (advance browser page view input.event).loaded = view.loaded := by
  rw [advance] at h ⊢
  rcases @changes_cases browser page input.event with hnone | ⟨change,hone⟩
  · rw [hnone]
    rfl
  · rw [hone,run_singleton] at h ⊢
    cases input with
    | setSearchTerm searchTerm =>
      obtain rfl := List.singleton_inj.mp hone
      exact (step_control h).1
    | clickCategory category =>
      simp only [Input.event,changes] at hone
      split at hone
      · obtain rfl := List.singleton_inj.mp hone
        exact (step_control h).1
      · cases hone
    | runEffects =>
      obtain rfl := List.singleton_inj.mp hone
      exact (step_runEffects h).2.1

/-- An empty page holds after its fetch what the fetch function made. -/
theorem advance_fetch {page : Page} {view : PageState} {answers : String → Answer}
    (hempty : view.loaded = [])
    (h : (advance browser page view (.fetchCompletes answers)).crashed = false) :
    (advance browser page view (.fetchCompletes answers)).loaded =
      PageLoading.loaded browser page answers := by
  rw [advance,changes] at h ⊢
  rw [PageLoading.loaded]
  cases hfetch : page.fetch browser answers with
  | error e => exact hempty
  | ok result =>
    cases result with
    | none => exact hempty
    | some resources =>
      rw [hfetch] at h
      dsimp only at h ⊢
      rw [run_singleton] at h ⊢
      exact (step_load h).1

/-- After one more event a page is still that of a run and still up. -/
theorem Tab.Sound.advance_alive (h : tab.Sound lib browser moments s t) {e : PageEvent}
    (he : e.Searchable) : (advance browser tab.page tab.view e).crashed = false := by
  obtain ⟨events,hview,hloads⟩ := h.ran
  rw [hview,advance_run]
  refine runPage_alive fun f hf => ?_
  rcases List.mem_append.mp hf with hf | hf
  · cases f with
    | fetchCompletes answers =>
      rw [(hloads answers hf).2]
      exact h.answers_searchable
    | _ => trivial
  · rwa [List.mem_singleton.mp hf]

theorem mountPath_injective : Function.Injective mountPath := by
  intro route other h
  have hlookup := mounts_mountPath route
  rw [h,mounts_mountPath] at hlookup
  exact (Option.some.inj hlookup).symm

theorem Tab.Sound.act (h : tab.Sound lib browser moments s t) (input : Input) :
    (tab.act browser input).Sound lib browser moments s t := by
  have hsearchable : input.event.Searchable := by cases input <;> trivial
  have halive := h.advance_alive hsearchable
  have hnofetch : ∀ answers, input.event ≠ .fetchCompletes answers := by
    cases input <;> exact fun _ h => nomatch h
  refine ⟨h.served,h.asked,h.filled,?_,?_,?_⟩
  · obtain ⟨events,hview,hloads⟩ := h.ran
    refine ⟨events++[input.event],?_,fun answers hmem => ?_⟩
    · change advance browser tab.page tab.view input.event = runPage browser tab.page _
      rw [← advance_run,← hview]
    · rcases List.mem_append.mp hmem with hmem | hmem
      · exact hloads answers hmem
      · exact absurd (List.mem_singleton.mp hmem).symm (hnofetch answers)
  · exact (advance_loaded input halive).trans h.loaded
  · exact advance_shows h.shown fun answers he => absurd he (hnofetch answers)

theorem Tab.Sound.fail (h : tab.Sound lib browser moments s t) :
    tab.fail.Sound lib browser moments s t := by
  rw [Tab.fail]
  split
  · rename_i hwaiting
    refine ⟨h.served,h.asked,(fun hdone => nomatch hdone),?_,?_,h.shown⟩
    · obtain ⟨events,hview,hloads⟩ := h.ran
      refine ⟨events,hview,fun answers hmem => ?_⟩
      have hdone := (hloads answers hmem).1
      rw [hwaiting] at hdone
      cases hdone
    · rw [h.loaded,hwaiting]
      rfl
  · exact h

theorem Tab.Sound.complete (h : tab.Sound lib browser moments s t) :
    (tab.complete browser).Sound lib browser moments s t := by
  rw [Tab.complete]
  split
  · rename_i hready
    obtain ⟨hwaiting,hcomplete⟩ := hready
    have hempty : tab.view.loaded = [] := by
      rw [h.loaded,hwaiting]
      rfl
    refine ⟨h.served,h.asked,fun _ => hcomplete,?_,?_,?_⟩
    · obtain ⟨events,hview,hloads⟩ := h.ran
      refine ⟨events++[.fetchCompletes tab.answers],?_,fun answers hmem => ⟨rfl,?_⟩⟩
      · change advance browser tab.page tab.view _ = runPage browser tab.page _
        rw [← advance_run,← hview]
      · rcases List.mem_append.mp hmem with hmem | hmem
        · exact (hloads answers hmem).2
        · exact PageEvent.fetchCompletes.inj (List.mem_singleton.mp hmem)
    · exact advance_fetch hempty (h.advance_alive h.answers_searchable)
    · exact advance_shows h.shown fun _ _ => hempty
  · exact h

/-- An answer that is served now was read after the fetch began. -/
theorem Tab.Sound.receive (h : tab.Sound lib browser moments s t) (hg : Grows s t)
    (hnow : moments t) (env : Env) (path : String) :
    (tab.receive path (handle lib env t (getRequest path)).1).Sound lib browser moments s t := by
  rw [Tab.receive]
  split
  · rename_i hguard
    obtain ⟨hwaiting,hpath,-⟩ := hguard
    obtain ⟨route,-,rfl⟩ := mem_paths.mp hpath
    obtain ⟨answer,hdecode,hserved,-⟩ := @decode_get lib moments env t hnow route
    rw [hdecode]
    dsimp only
    refine ⟨?_,?_,?_,?_,?_,h.shown⟩
    · intro other a ha
      dsimp only at ha
      by_cases hother : other = route
      · subst hother
        rw [Function.update_self] at ha
        exact Option.some.inj ha ▸ hserved.weaken hg
      · rw [Function.update_of_ne (fun he => hother (mountPath_injective he))] at ha
        exact h.served other a ha
    · intro asked hasked
      dsimp only at hasked
      by_cases hsame : asked = mountPath route
      · rw [hsame]
        exact hpath
      · rw [Function.update_of_ne hsame] at hasked
        exact h.asked asked hasked
    · intro hdone
      rw [hwaiting] at hdone
      cases hdone
    · obtain ⟨events,hview,hloads⟩ := h.ran
      refine ⟨events,hview,fun answers hmem => ?_⟩
      have hdone := (hloads answers hmem).1
      rw [hwaiting] at hdone
      cases hdone
    · rw [h.loaded,hwaiting]
      rfl
  · exact h

/-! ### What a page lists -/

/-- The documents of some of a page's routers, as the page holds them. -/
def listed (lib : Mongoose) (page : Page) (reads : Route → Bool) (held : Server) :
    List Resource :=
  (routesOf page).flatMap (fun route =>
    if reads route then (held route).map (fun doc => shownForm route (lib.members doc)) else [])

/-- The routers that answered a tab with their documents. -/
def Tab.reads (tab : Tab) (route : Route) : Bool := (tab.answers (mountPath route)).isArray

theorem expected_eq (page : Page) (answers : String → Answer) : expected page answers =
    (routesOf page).flatMap (fun route =>
      (answers (mountPath route)).items.map (shownForm route)) := by
  rw [expected,endpoints_eq,List.flatMap_map]

/-- Every answer is a snapshot of its collection. -/
theorem Tab.Sound.snapshots (h : tab.Sound lib browser moments s t) (hg : Grows s t)
    (hnow : moments t) (hcomplete : tab.Complete) :
    ∃ held : Server, (∀ route, ReadBetween moments s t route (held route)) ∧
      (expected tab.page tab.answers).Perm (listed lib tab.page tab.reads held) := by
  have hroute : ∀ route, ∃ held, ReadBetween moments s t route held ∧
      (route ∈ routesOf tab.page → tab.reads route = true →
        tab.answers (mountPath route) = .array ((find held).map lib.members)) := by
    intro route
    by_cases hasked : route ∈ routesOf tab.page ∧ tab.reads route = true
    · have hendpoint : (mountPath route,shownForm route) ∈ tab.page.endpoints := by
        rw [endpoints_eq]
        exact List.mem_map.mpr ⟨route,hasked.1,rfl⟩
      obtain ⟨answer,harrived⟩ := Option.isSome_iff_exists.mp (hcomplete _ hendpoint)
      have hanswer : tab.answers (mountPath route) = answer := by
        rw [Tab.answers,harrived,Option.getD_some]
      rcases h.served route answer harrived with hobject | ⟨held,hread,hheld⟩
      · have hreads := hasked.2
        rw [Tab.reads,hanswer,hobject] at hreads
        cases hreads
      · exact ⟨held,hread,fun _ _ => hanswer.trans hheld⟩
    · exact ⟨t route,readBetween_now hg hnow route,fun hmem hreads => absurd ⟨hmem,hreads⟩ hasked⟩
  choose held hread hanswer using hroute
  refine ⟨held,hread,?_⟩
  rw [expected_eq,listed]
  refine List.Perm.flatMap_left _ fun route hmem => ?_
  cases hreads : tab.reads route with
  | true =>
    rw [hanswer route hmem hreads,if_pos rfl,Answer.items,List.map_map]
    exact (find_perm _).map _
  | false =>
    have hnone : (tab.answers (mountPath route)).items = [] := by
      rw [Tab.reads] at hreads
      cases hcases : tab.answers (mountPath route) with
      | array items =>
        rw [hcases] at hreads
        cases hreads
      | object members => rfl
    rw [hnone,if_neg Bool.false_ne_true]
    exact .refl _

/-- The tweets page gets nothing from its fetch when one router failed it. -/
def Tab.Blocked (tab : Tab) : Prop :=
  tab.page = .tweetsPodcastsVideos ∧ ∃ route ∈ routesOf tab.page, tab.reads route = false

theorem mem_listed {page : Page} {reads : Route → Bool} {held : Server} {item : Resource} :
    item ∈ listed lib page reads held ↔ ∃ route ∈ routesOf page, reads route = true ∧
      ∃ doc ∈ held route, shownForm route (lib.members doc) = item := by
  rw [listed,List.mem_flatMap]
  refine exists_congr fun route => and_congr_right fun _ => ?_
  cases reads route <;> simp

/-- A fetch function lists the answers, unless it is blocked. -/
theorem loaded_cases (browser : Browser) {held : Server}
    (hheld : (expected tab.page tab.answers).Perm (listed lib tab.page tab.reads held)) :
    (tab.Blocked → PageLoading.loaded browser tab.page tab.answers = []) ∧
      (¬tab.Blocked → (PageLoading.loaded browser tab.page tab.answers).Perm
        (listed lib tab.page tab.reads held)) := by
  by_cases hpage : tab.page = .tweetsPodcastsVideos
  · constructor
    · rintro ⟨-,route,hroute,hreads⟩
      have hendpoint : (mountPath route,shownForm route) ∈ Page.tweetsPodcastsVideos.endpoints := by
        rw [endpoints_eq,← hpage]
        exact List.mem_map.mpr ⟨route,hroute,rfl⟩
      obtain ⟨error,herror⟩ := fetch_tweets_of_object browser tab.answers ⟨_,hendpoint,hreads⟩
      rw [hpage,PageLoading.loaded,herror]
    · intro hblocked
      have hreads : ∀ route ∈ routesOf tab.page, tab.reads route = true := fun route hroute =>
        Bool.eq_true_of_not_eq_false fun hfails => hblocked ⟨hpage,route,hroute,hfails⟩
      have hdates : ∀ item ∈ expected tab.page tab.answers, Datable item = true := by
        intro item hitem
        obtain ⟨route,hroute,-,doc,-,rfl⟩ := mem_listed.mp (hheld.mem_iff.mp hitem)
        exact datable_stored (by rw [pageOf_routesOf hroute,hpage]; decide)
      have hok := (sort_isOk browser _).mpr (.inr hdates)
      rw [hpage] at hok hheld hreads ⊢
      have hfetch := fetch_tweets_of_isArray browser tab.answers (by
        rw [endpoints_eq]
        intro e he
        obtain ⟨route,hroute,rfl⟩ := List.mem_map.mp he
        exact hreads route hroute)
      cases hsort : browser.sort (compareDates browser)
          (expected .tweetsPodcastsVideos tab.answers) with
      | error error =>
        rw [hsort] at hok
        cases hok
      | ok sorted =>
        rw [hsort] at hfetch
        rw [PageLoading.loaded,hfetch]
        exact (sort_perm hsort).trans hheld
  · refine ⟨fun hblocked => absurd hblocked.1 hpage,fun _ => ?_⟩
    rw [loaded_of_guarded browser hpage]
    exact hheld

/-- A tab lists what each of its routers held at some moment of its fetch. -/
def Tab.HoldsSnapshots (lib : Mongoose) (moments : Server → Prop) (s t : Server) (tab : Tab) :
    Prop :=
  ∃ held : Server, (∀ route, ReadBetween moments s t route (held route)) ∧
    (tab.Blocked → tab.view.loaded = []) ∧
    (¬tab.Blocked → tab.view.loaded.Perm (listed lib tab.page tab.reads held))

theorem Tab.Sound.holdsSnapshots (h : tab.Sound lib browser moments s t) (hg : Grows s t)
    (hnow : moments t) (hdone : tab.progress = .done) :
    tab.HoldsSnapshots lib moments s t := by
  obtain ⟨held,hread,hheld⟩ := h.snapshots hg hnow (h.filled hdone)
  have hloaded := h.loaded
  rw [if_pos hdone] at hloaded
  rw [Tab.HoldsSnapshots,hloaded]
  exact ⟨held,hread,loaded_cases browser hheld⟩

/-- What all routers of a page hold, as the page holds it. -/
def forms (lib : Mongoose) (page : Page) (held : Server) : List Resource :=
  listed lib page (fun _ => true) held

theorem subperm_flatMap {α β : Type} {f g : α → List β} (l : List α)
    (h : ∀ a ∈ l, (f a).Subperm (g a)) : (l.flatMap f).Subperm (l.flatMap g) := by
  induction l with
  | nil => exact .refl _
  | cons a l ih =>
    rw [List.flatMap_cons,List.flatMap_cons]
    exact (h a List.mem_cons_self).append (ih fun b hb => h b (List.mem_cons_of_mem a hb))

/-- Longer collections and fewer failures list more. -/
theorem listed_mono {page : Page} {reads reads' : Route → Bool} {held held' : Server}
    (hreads : ∀ route ∈ routesOf page, reads route = true → reads' route = true)
    (hheld : ∀ route, held route <+: held' route) :
    (listed lib page reads held).Subperm (listed lib page reads' held') := by
  refine subperm_flatMap _ fun route hroute => ?_
  cases hr : reads route with
  | false =>
    rw [if_neg Bool.false_ne_true]
    exact List.nil_subperm
  | true =>
    rw [if_pos rfl,if_pos (hreads route hroute hr)]
    exact ((hheld route).map _).sublist.subperm

/-- A tab holds documents that are stored now, each once. -/
theorem Tab.Sound.holds_current (h : tab.Sound lib browser moments s t) (hg : Grows s t)
    (hnow : moments t) : tab.view.loaded.Subperm (forms lib tab.page t) := by
  by_cases hdone : tab.progress = .done
  · obtain ⟨held,hread,hblocked,hlisted⟩ := h.holdsSnapshots hg hnow hdone
    by_cases hb : tab.Blocked
    · rw [hblocked hb]
      exact List.nil_subperm
    · exact (hlisted hb).subperm.trans
        (listed_mono (fun _ _ _ => rfl) fun route => (hread route).before)
  · rw [h.loaded,if_neg hdone]
    exact List.nil_subperm

end Tabs

/-! ### Whole runs -/

section Runs

variable {s : State} {i : ℕ} {since : Server}

theorem step_grows (s : State) (e : Event) : Grows s.server (step lib browser s e).server := by
  cases e with
  | request env req =>
    intro route
    change s.server route <+: (handle lib env s.server req).2 route
    rw [handle_collection]
    exact List.prefix_append _ _
  | answer i path env =>
    change Grows s.server (handle lib env s.server (getRequest path)).2
    rw [handle_get]
    exact Grows.refl _
  | _ => exact Grows.refl _

/-- What holds at one place, of a fetch that began after some state. -/
structure SoundAt (lib : Mongoose) (browser : Browser) (moments : Server → Prop) (i : ℕ)
    (since : Server) (s : State) : Prop where
  grows : Grows since s.server
  now : moments s.server
  tab : ∀ tab, s.tabs i = some tab → tab.Sound lib browser moments since s.server

theorem soundAt_update {j : ℕ} {new : Option Tab} (h : SoundAt lib browser moments i since s)
    (hnew : i = j → ∀ tab, new = some tab → tab.Sound lib browser moments since s.server) :
    SoundAt lib browser moments i since { s with tabs := Function.update s.tabs j new } := by
  refine ⟨h.grows,h.now,fun tab htab => ?_⟩
  dsimp only at htab
  by_cases hj : i = j
  · rw [hj,Function.update_self] at htab
    exact hnew hj tab htab
  · rw [Function.update_of_ne hj] at htab
    exact h.tab tab htab

theorem soundAt_onTab {j : ℕ} {f : Tab → Tab} (h : SoundAt lib browser moments i since s)
    (hf : ∀ tab, tab.Sound lib browser moments since s.server →
      (f tab).Sound lib browser moments since s.server) :
    SoundAt lib browser moments i since (onTab s j f) := by
  refine soundAt_update h ?_
  rintro rfl tab htab
  obtain ⟨old,hold,rfl⟩ := Option.map_eq_some_iff.mp htab
  exact hf old (h.tab old hold)

/-- Whatever happens next. -/
theorem step_soundAt (s : State) (e : Event) (hnext : moments (step lib browser s e).server)
    (h : SoundAt lib browser moments i since s) :
    SoundAt lib browser moments i since (step lib browser s e) := by
  cases e with
  | request env req =>
    have hg : Grows s.server (handle lib env s.server req).2 :=
      @step_grows lib browser s (.request env req)
    exact ⟨h.grows.trans hg,hnext,fun tab htab => (h.tab tab htab).mono hg⟩
  | openPage j page =>
    refine soundAt_update h fun _ tab htab => ?_
    obtain rfl := Option.some.inj htab
    exact openTab_sound moments since s.server page
  | close j => exact soundAt_update h fun _ _ htab => nomatch htab
  | answer j path env =>
    rw [step,handle_get]
    exact soundAt_onTab h fun tab htab => htab.receive h.grows h.now env path
  | fetchFails j => exact soundAt_onTab h fun tab htab => htab.fail
  | fetchCompletes j => exact soundAt_onTab h fun tab htab => htab.complete
  | act j input => exact soundAt_onTab h fun tab htab => htab.act input

theorem runSystem_cons (s : State) (e : Event) (events : List Event) :
    runSystem lib browser s (e::events) =
      runSystem lib browser (step lib browser s e) events := rfl

theorem runSystem_append (s : State) (events more : List Event) :
    runSystem lib browser s (events++more) =
      runSystem lib browser (runSystem lib browser s events) more :=
  runFrom_append _ s events more

/-- The states of the server in a run. -/
def Moments (lib : Mongoose) (browser : Browser) (s : State) (events : List Event)
    (server : Server) : Prop :=
  ∃ u, Passes (step lib browser) s events u ∧ u.server = server

theorem runSystem_soundAt (h : SoundAt lib browser moments i since s) (events : List Event)
    (hmoments : ∀ server, Moments lib browser s events server → moments server) :
    SoundAt lib browser moments i since (runSystem lib browser s events) :=
  runFrom_passing (P := SoundAt lib browser moments i since)
    (fun u e hu => step_soundAt u e (hmoments _ ⟨_,hu,rfl⟩)) h

theorem start_soundAt (server : Server) (i : ℕ) (hnow : moments server) :
    SoundAt lib browser moments i server (start server) :=
  ⟨Grows.refl _,hnow,fun _ h => nomatch h⟩

/-- Opening a page begins a fetch, of which all that follows is known. -/
theorem opened_soundAt (s : State) (i : ℕ) (page : Page) (events : List Event) :
    SoundAt lib browser (Moments lib browser s (.openPage i page::events)) i s.server
      (runSystem lib browser s (.openPage i page::events)) := by
  have hlater : ∀ server, Moments lib browser (step lib browser s (.openPage i page)) events
      server → Moments lib browser s (.openPage i page::events) server := by
    rintro server ⟨u,⟨past,hpast,hu⟩,hserver⟩
    exact ⟨u,⟨_::past,List.cons_prefix_cons.mpr ⟨rfl,hpast⟩,hu⟩,hserver⟩
  refine runSystem_soundAt (s := step lib browser s (.openPage i page))
    ⟨Grows.refl _,⟨s,passes_start _ _,rfl⟩,?_⟩ events hlater
  intro tab htab
  have hopened : Function.update s.tabs i (some (openTab browser page)) i = some tab := htab
  rw [Function.update_self] at hopened
  obtain rfl := Option.some.inj hopened
  exact openTab_sound _ _ _ page

/-- What holds at every place of a run from the start. -/
theorem started_soundAt (server : Server) (events : List Event) (i : ℕ) :
    SoundAt lib browser (Moments lib browser (start server) events) i server
      (runSystem lib browser (start server) events) :=
  runSystem_soundAt (start_soundAt server i ⟨_,passes_start _ _,rfl⟩) events fun _ h => h

end Runs

/-! ### What is on the screens -/

/-- An open page whatever happened so far. -/
structure Tab.Current (lib : Mongoose) (browser : CardBrowser) (t : Server) (tab : Tab) : Prop where
  /-- Nothing took it down. -/
  up : tab.view.crashed = false
  /-- It shows documents that are stored, each once. -/
  stored : tab.view.value.Subperm (forms lib tab.page t)
  /-- It shows none before its fetch is done. -/
  empty : tab.progress ≠ .done → tab.view.value = []
  /-- What it shows has a card. -/
  cards : ∀ item ∈ tab.view.value, ∃ card,
    resourceCard browser (pagePath tab.page) item = .ok card

/-- So are all open pages. -/
def ScreensCurrent (lib : Mongoose) (browser : CardBrowser) (s : State) : Prop :=
  ∀ i tab, s.tabs i = some tab → tab.Current lib browser s.server

theorem Tab.Sound.current {s t : Server} {tab : Tab} {browser : CardBrowser}
    (h : tab.Sound lib browser.toBrowser moments s t) (hg : Grows s t) (hnow : moments t) :
    tab.Current lib browser t := by
  have hstored : tab.view.value.Subperm (forms lib tab.page t) :=
    h.shown.trans (h.holds_current hg hnow)
  refine ⟨h.alive,hstored,fun hdone => ?_,fun item hitem => ?_⟩
  · have hshown := h.shown
    rw [h.loaded,if_neg hdone] at hshown
    exact List.subperm_nil.mp hshown
  · obtain ⟨route,hroute,-,doc,-,rfl⟩ := mem_listed.mp (hstored.subset hitem)
    obtain ⟨title,link,-,-,hcard⟩ := stored_cards lib browser route doc
    have hshows := hcard.shows
    rw [pageOf_routesOf hroute] at hshows
    exact ⟨_,hshows⟩

/-- For every order of requests, openings, answers, failures and inputs: no page
is ever down, and each shows only documents its routers store at that moment,
each once and each with a card. -/
theorem run_screensCurrent (lib : Mongoose) (browser : CardBrowser) (server : Server)
    (events : List Event) :
    ScreensCurrent lib browser (runSystem lib browser.toBrowser (start server) events) := by
  intro i tab htab
  have hsound := @started_soundAt lib browser.toBrowser server events i
  exact (hsound.tab tab htab).current hsound.grows hsound.now

/-! ### What a fetch has to show -/

/-- Every tab at a place whose fetch is done lists what its routers held at
some moment since then. -/
def HeldSince (lib : Mongoose) (moments : Server → Prop) (i : ℕ) (since : Server) (s : State) :
    Prop :=
  ∀ tab, s.tabs i = some tab → tab.progress = .done →
    tab.HoldsSnapshots lib moments since s.server

/-- For every run before and after a page is opened: once its fetch is done it
lists, for each router that answered, the collection as it was at a moment
between the opening and now, so all that was stored before the opening, and it
lists nothing when it is the tweets page and one router failed. -/
theorem run_heldSince (lib : Mongoose) (browser : Browser) (server : Server)
    (before after : List Event) (i : ℕ) (page : Page) :
    HeldSince lib (Moments lib browser (runSystem lib browser (start server) before)
        (.openPage i page::after)) i (runSystem lib browser (start server) before).server
      (runSystem lib browser (start server) (before++.openPage i page::after)) := by
  intro tab htab hdone
  rw [runSystem_append] at htab ⊢
  have hsound := @opened_soundAt lib browser (runSystem lib browser (start server) before) i page
    after
  exact (hsound.tab tab htab).holdsSnapshots hsound.grows hsound.now hdone

/-- Of two loads of a page the later one lists all that the earlier one lists,
unless a router failed it that did not fail the earlier one. -/
def LaterListsMore (i j : ℕ) (s t : State) : Prop :=
  ∀ earlier later, s.tabs i = some earlier → t.tabs j = some later →
    later.page = earlier.page → later.progress = .done →
    (∀ route ∈ routesOf earlier.page, earlier.reads route = true → later.reads route = true) →
    earlier.view.loaded.Subperm later.view.loaded

/-- For every run and every page in it: one that is opened afterwards, at any
place and with any traffic in between, does not lose a document. -/
theorem run_laterListsMore (lib : Mongoose) (browser : Browser) (server : Server)
    (before after : List Event) (i j : ℕ) (page : Page) :
    LaterListsMore i j (runSystem lib browser (start server) before)
      (runSystem lib browser (start server) (before++.openPage j page::after)) := by
  intro earlier later hearlier hlater hpage hdone hreads
  rw [runSystem_append] at hlater
  have hbefore := @started_soundAt lib browser server before i
  have hafter := @opened_soundAt lib browser (runSystem lib browser (start server) before) j page
    after
  obtain ⟨held,hheld,-,hlisted⟩ :=
    (hafter.tab later hlater).holdsSnapshots hafter.grows hafter.now hdone
  have hsound := hbefore.tab earlier hearlier
  by_cases hfirst : earlier.progress = .done ∧ ¬earlier.Blocked
  · obtain ⟨first,hfirstHeld,-,hfirstListed⟩ :=
      hsound.holdsSnapshots hbefore.grows hbefore.now hfirst.1
    -- a router that fails the later tweets page failed the earlier one as well
    have hblocked : ¬later.Blocked := by
      rintro ⟨htweets,route,hroute,hfails⟩
      rw [hpage] at htweets hroute
      refine hfirst.2 ⟨htweets,route,hroute,Bool.eq_false_iff.mpr fun hread => ?_⟩
      exact Bool.false_ne_true (hfails.symm.trans (hreads route hroute hread))
    refine (hfirstListed hfirst.2).subperm.trans
      (List.Subperm.trans ?_ (hlisted hblocked).symm.subperm)
    rw [hpage]
    exact listed_mono hreads fun route => (hfirstHeld route).continues (hheld route)
  · have hempty : earlier.view.loaded = [] := by
      by_cases hstill : earlier.progress = .done
      · obtain ⟨-,-,hblock,-⟩ := hsound.holdsSnapshots hbefore.grows hbefore.now hstill
        exact hblock (not_not.mp fun hb => hfirst ⟨hstill,hb⟩)
      · rw [hsound.loaded,if_neg hstill]
    rw [hempty]
    exact List.nil_subperm

/-! ### What a settled page shows -/

/-- The category under which a page shows what a router sends. -/
def routeKind : Route → Option Category
  | .devto => some .blogs
  | .github => some .projects
  | .huggingface => some .projects
  | .newsapi => some .news
  | .tweets => some .tweet
  | .youtube => some .youtube
  | .spotify1 => some .podcast
  | _ => none

theorem kind_shownForm {route : Route} (h : categories (pageOf route) ≠ []) (item : Resource) :
    kind (shownForm route item) = routeKind route := by
  have hsource : ∀ source, kind (withSource source item) = kindOfSource source := fun source => by
    rw [kind,field,withSource,lookup_setMember_self]
  cases route <;> first | exact hsource _ | exact absurd rfl h

/-- The term occurs in the title of a document, and its router sends what the
category stands for. -/
def storedMatches (browser : Browser) (controls : Controls) (route : Route)
    (doc : Document route.schema) : Bool :=
  storedIncludes browser controls.searchTerm doc "title" &&
    (controls.selectedCategory = .all || routeKind route = some controls.selectedCategory)

theorem matches_stored {controls : Controls} {route : Route} (doc : Document route.schema)
    (h : controls.selectedCategory ∈ Category.all::categories (pageOf route)) :
    Matches browser controls (shownForm route (lib.members doc)) =
      storedMatches browser controls route doc := by
  rw [Matches,found_stored,storedMatches]
  by_cases hbuttons : categories (pageOf route) = []
  · rw [hbuttons,List.mem_singleton] at h
    simp [h]
  · rw [kind_shownForm hbuttons]

/-- The documents of some of a page's routers that match its controls. -/
def found (lib : Mongoose) (browser : Browser) (page : Page) (reads : Route → Bool)
    (controls : Controls) (held : Server) : List Resource :=
  (routesOf page).flatMap (fun route =>
    if reads route then
      ((held route).filter (storedMatches browser controls route)).map
        (fun doc => shownForm route (lib.members doc))
    else [])

theorem listed_filter {page : Page} {reads : Route → Bool} {controls : Controls}
    (h : controls.selectedCategory ∈ Category.all::categories page) (held : Server) :
    (listed lib page reads held).filter (Matches browser controls) =
      found lib browser page reads controls held := by
  rw [listed,found,List.filter_flatMap]
  refine List.flatMap_congr fun route hroute => ?_
  cases reads route with
  | false => rfl
  | true =>
    rw [if_pos rfl,if_pos rfl,List.filter_map]
    congr 1
    refine List.filter_congr fun doc _ => ?_
    exact matches_stored doc (by rwa [pageOf_routesOf hroute])

/-- A settled tab lists what its routers held at some moment of its fetch, and
shows of it the documents that match its controls. -/
def Tab.ShowsFound (lib : Mongoose) (browser : Browser) (moments : Server → Prop)
    (s t : Server) (tab : Tab) : Prop :=
  ∃ held : Server, (∀ route, ReadBetween moments s t route (held route)) ∧
    tab.view.loaded.Perm (listed lib tab.page tab.reads held) ∧
    tab.view.value.Perm (found lib browser tab.page tab.reads tab.view.controls held)

theorem Tab.Sound.showsFound {s t : Server} {tab : Tab} (h : tab.Sound lib browser moments s t)
    (hg : Grows s t) (hnow : moments t) (hdone : tab.progress = .done)
    (hsettled : tab.view.Settled) (hblocked : ¬tab.Blocked) :
    tab.ShowsFound lib browser moments s t := by
  obtain ⟨held,hread,-,hlisted⟩ := h.holdsSnapshots hg hnow hdone
  have hperm := hlisted hblocked
  obtain ⟨events,hview,-⟩ := h.ran
  have hcategory := selectedCategory_mem browser tab.page events
  rw [← hview] at hcategory
  have htitles : ∀ item ∈ tab.view.loaded, HasTitle item := by
    intro item hitem
    obtain ⟨route,-,-,doc,-,rfl⟩ := mem_listed.mp (hperm.mem_iff.mp hitem)
    exact (searchable_stored lib doc).title
  have hvalue : tab.view.value = tab.view.loaded.filter (Matches browser tab.view.controls) := by
    rw [hview] at hsettled htitles ⊢
    exact settled_value htitles hsettled
  refine ⟨held,hread,hperm,?_⟩
  rw [hvalue,← listed_filter hcategory]
  exact hperm.filter _

/-- So do all settled tabs at a place whose fetch is done and was not blocked. -/
def SettledShowFound (lib : Mongoose) (browser : Browser) (moments : Server → Prop) (i : ℕ)
    (since : Server) (s : State) : Prop :=
  ∀ tab, s.tabs i = some tab → tab.progress = .done → tab.view.Settled → ¬tab.Blocked →
    tab.ShowsFound lib browser moments since s.server

/-- For every run before and after a page is opened, whatever is typed, clicked
or posted meanwhile. -/
theorem run_settledShowFound (lib : Mongoose) (browser : Browser) (server : Server)
    (before after : List Event) (i : ℕ) (page : Page) :
    SettledShowFound lib browser
      (Moments lib browser (runSystem lib browser (start server) before)
        (.openPage i page::after)) i (runSystem lib browser (start server) before).server
      (runSystem lib browser (start server) (before++.openPage i page::after)) := by
  intro tab htab hdone hsettled hblocked
  rw [runSystem_append] at htab ⊢
  have hsound := @opened_soundAt lib browser (runSystem lib browser (start server) before) i page
    after
  exact (hsound.tab tab htab).showsFound hsound.grows hsound.now hdone hsettled hblocked

/-! ### A visit -/

/-- An environment whose reads succeed. -/
def reading (env : Env) : Env := { env with readFails := false }

/-- The GETs of some routers, served in order. -/
def serve (i : ℕ) (envs : Route → Env) (routes : List Route) : List Event :=
  routes.map (fun route => .answer i (mountPath route) (reading (envs route)))

/-- A page is opened, its GETs are served, its fetch completes and its effects
run. -/
def visit (i : ℕ) (page : Page) (envs : Route → Env) : List Event :=
  .openPage i page::(serve i envs (routesOf page)++[.fetchCompletes i,.act i .runEffects])

/-- A fresh tab that some routers have answered, all with documents. -/
structure Tab.Answered (browser : Browser) (page : Page) (routes : List Route) (tab : Tab) :
    Prop where
  samePage : tab.page = page
  waiting : tab.progress = .waiting
  fresh : tab.view = mounted browser page
  arrays : ∀ route answer, tab.arrived (mountPath route) = some answer → answer.isArray = true
  answered : ∀ route ∈ routes, (tab.arrived (mountPath route)).isSome = true

theorem Tab.Answered.receive {page : Page} {routes : List Route} {tab : Tab}
    (h : tab.Answered browser page routes) (env : Env) (server : Server) {route : Route}
    (hroute : route ∈ routesOf page) :
    (tab.receive (mountPath route)
      (handle lib (reading env) server (getRequest (mountPath route))).1).Answered
        browser page (route::routes) := by
  obtain ⟨answer,hdecode,-,harray⟩ :=
    @decode_get lib (· = server) (reading env) server rfl route
  have hpath : mountPath route ∈ tab.page.endpoints.map Prod.fst := by
    rw [h.samePage]
    exact mem_paths.mpr ⟨route,hroute,rfl⟩
  rw [Tab.receive,hdecode]
  by_cases hfirst : tab.arrived (mountPath route) = none
  · rw [if_pos ⟨h.waiting,hpath,hfirst⟩]
    refine ⟨h.samePage,h.waiting,h.fresh,fun other a ha => ?_,fun other hother => ?_⟩
    · dsimp only at ha
      by_cases hsame : mountPath other = mountPath route
      · rw [hsame,Function.update_self] at ha
        exact Option.some.inj ha ▸ harray rfl
      · rw [Function.update_of_ne hsame] at ha
        exact h.arrays other a ha
    · dsimp only
      by_cases hsame : mountPath other = mountPath route
      · rw [hsame,Function.update_self]
        rfl
      · rw [Function.update_of_ne hsame]
        rcases List.mem_cons.mp hother with rfl | hother
        · exact absurd rfl hsame
        · exact h.answered other hother
  · rw [if_neg fun hguard => hfirst hguard.2.2]
    refine ⟨h.samePage,h.waiting,h.fresh,h.arrays,fun other hother => ?_⟩
    rcases List.mem_cons.mp hother with rfl | hother
    · exact Option.isSome_iff_ne_none.mpr hfirst
    · exact h.answered other hother

/-- One more GET of a tab is served. -/
theorem answer_answered {i : ℕ} {page : Page} {asked : List Route} (env : Env) {route : Route}
    (hroute : route ∈ routesOf page) {s : State} {tab : Tab} (htab : s.tabs i = some tab)
    (h : tab.Answered browser page asked) :
    ∃ tab', (step lib browser s (.answer i (mountPath route) (reading env))).tabs i = some tab' ∧
      tab'.Answered browser page (route::asked) ∧
      (step lib browser s (.answer i (mountPath route) (reading env))).server = s.server := by
  have hreceive := @Tab.Answered.receive lib browser _ _ _ h env s.server route hroute
  refine ⟨_,?_,hreceive,handle_get _ _ _⟩
  simp only [step,onTab,htab,Function.update_self,Option.map_some]

theorem serve_answered {i : ℕ} {page : Page} (envs : Route → Env) {routes asked : List Route}
    (hroutes : ∀ route ∈ routes, route ∈ routesOf page) {s : State} {tab : Tab}
    (htab : s.tabs i = some tab) (h : tab.Answered browser page asked) :
    ∃ tab', (runSystem lib browser s (serve i envs routes)).tabs i = some tab' ∧
      tab'.Answered browser page (routes.reverse++asked) ∧
      (runSystem lib browser s (serve i envs routes)).server = s.server := by
  induction routes generalizing s tab asked with
  | nil => exact ⟨tab,htab,h,rfl⟩
  | cons route rest ih =>
    obtain ⟨next,hnext,hanswered,hserver⟩ := @answer_answered lib browser _ _ _ (envs route)
      route (hroutes route List.mem_cons_self) _ _ htab h
    obtain ⟨tab',htab',hall,hend⟩ :=
      ih (fun r hr => hroutes r (List.mem_cons_of_mem _ hr)) hnext hanswered
    refine ⟨tab',htab',?_,hend.trans hserver⟩
    rwa [List.reverse_cons,List.append_assoc]

theorem opened_answered (s : State) (i : ℕ) (page : Page) :
    (step lib browser s (.openPage i page)).tabs i = some (openTab browser page) ∧
      (openTab browser page).Answered browser page [] := by
  refine ⟨?_,rfl,rfl,rfl,fun _ _ ha => (nomatch ha),fun _ hr => (nomatch hr)⟩
  simp only [step,Function.update_self]

/-- A page that is up after its fetch and its effects shows all that it holds. -/
theorem fetched_shows_all {page : Page} {answers : String → Answer}
    (halive : (runPage browser page [.fetchCompletes answers,.runEffects]).crashed = false)
    (ht : ∀ item ∈ (runPage browser page [.fetchCompletes answers,.runEffects]).loaded,
      HasTitle item) :
    (runPage browser page [.fetchCompletes answers,.runEffects]).Settled ∧
      (runPage browser page [.fetchCompletes answers,.runEffects]).value =
        (runPage browser page [.fetchCompletes answers,.runEffects]).loaded := by
  have hsettled : (runPage browser page [.fetchCompletes answers,.runEffects]).Settled := by
    have hsplit := runPage_append browser page [.fetchCompletes answers] [.runEffects]
    rw [List.flatMap_singleton,changes,run_singleton] at hsplit
    rw [List.singleton_append] at hsplit
    rw [hsplit] at halive ⊢
    exact (step_runEffects halive).1
  refine ⟨hsettled,(showsMatching_of_settled ht hsettled).everything ?_⟩
  refine run_controls (Q := fun k : Controls => k = ⟨"",.all⟩) ?_ rfl
  -- neither event changes the controls
  intro change hmem
  obtain ⟨event,hevent,hchange⟩ := List.mem_flatMap.mp hmem
  simp only [List.mem_cons,List.not_mem_nil,or_false] at hevent
  rcases hevent with rfl | rfl
  · simp only [changes] at hchange
    split at hchange <;> simp at hchange
  · simp [changes] at hchange

/-- What a fetch reads while nothing is written. -/
theorem eq_of_readBetween {s held : Server}
    (h : ∀ route, ReadBetween moments s s route (held route)) : held = s :=
  funext fun route => ((h route).before.eq_of_length_le (h route).after.length_le)

theorem Tab.Answered.reads {page : Page} {tab : Tab} {routes : List Route}
    (h : tab.Answered browser page routes) {route : Route} (hroute : route ∈ routes) :
    tab.reads route = true := by
  obtain ⟨answer,harrived⟩ := Option.isSome_iff_exists.mp (h.answered route hroute)
  rw [Tab.reads,Tab.answers,harrived,Option.getD_some]
  exact h.arrays route answer harrived

theorem complete_keeps (tab : Tab) : (tab.complete browser).page = tab.page ∧
    (tab.complete browser).reads = tab.reads := by
  rw [Tab.complete]
  split <;> exact ⟨rfl,rfl⟩

/-- The tab that the GETs left behind, once its fetch is done and its effects
have run. -/
theorem Tab.Answered.visited {page : Page} {tab : Tab}
    (h : tab.Answered browser page (routesOf page).reverse) :
    (tab.complete browser).progress = .done ∧
      ((tab.complete browser).act browser .runEffects).view =
        runPage browser page [.fetchCompletes tab.answers,.runEffects] := by
  have hcomplete : tab.Complete := by
    intro e he
    rw [h.samePage,endpoints_eq] at he
    obtain ⟨route,hroute,rfl⟩ := List.mem_map.mp he
    exact h.answered route (List.mem_reverse.mpr hroute)
  have hdone : tab.complete browser = { tab with
      progress := .done
      view := advance browser tab.page tab.view (.fetchCompletes tab.answers) } :=
    if_pos ⟨h.waiting,hcomplete⟩
  rw [hdone]
  refine ⟨rfl,?_⟩
  change advance browser tab.page (advance browser tab.page tab.view _) .runEffects = _
  rw [h.samePage,h.fresh,mounted_eq,advance_run,advance_run]
  rfl

/-- In every state, reachable or not: a visit during which the reads succeed
ends with a settled page that shows exactly what is stored, and it writes
nothing. -/
theorem visit_shows (lib : Mongoose) (browser : Browser) (s : State) (i : ℕ) (page : Page)
    (envs : Route → Env) :
    ∃ tab, (runSystem lib browser s (visit i page envs)).tabs i = some tab ∧ tab.page = page ∧
      tab.view.Settled ∧ tab.view.value.Perm (forms lib page s.server) ∧
      (runSystem lib browser s (visit i page envs)).server = s.server := by
  obtain ⟨hopened,hnone⟩ := @opened_answered lib browser s i page
  obtain ⟨tab,htab,hanswered,hserver⟩ := @serve_answered lib browser i page envs (routesOf page) []
    (fun _ h => h) _ _ hopened hnone
  rw [List.append_nil] at hanswered
  obtain ⟨hdone,hview⟩ := hanswered.visited
  have hend : runSystem lib browser s (visit i page envs) =
      onTab (onTab (runSystem lib browser (step lib browser s (.openPage i page))
        (serve i envs (routesOf page))) i (Tab.complete browser)) i
          (Tab.act browser .runEffects) := by
    rw [visit,runSystem_cons,runSystem_append]
    rfl
  have hfinal : (runSystem lib browser s (visit i page envs)).tabs i =
      some ((tab.complete browser).act browser .runEffects) := by
    rw [hend]
    simp only [onTab,Function.update_self,htab,Option.map_some]
  have hsame : (runSystem lib browser s (visit i page envs)).server = s.server := by
    rw [hend]
    exact hserver
  obtain ⟨hpage,hkept⟩ := @complete_keeps browser tab
  have hreads : ∀ route ∈ routesOf page, (tab.complete browser).reads route = true := by
    intro route hroute
    rw [hkept]
    exact hanswered.reads (List.mem_reverse.mpr hroute)
  have hat : SoundAt lib browser (Moments lib browser s (visit i page envs)) i s.server
      (runSystem lib browser s (visit i page envs)) := opened_soundAt s i page _
  have hsound := hat.tab _ hfinal
  obtain ⟨held,hread,-,hlisted⟩ := hsound.holdsSnapshots hat.grows hat.now hdone
  rw [hsame] at hread
  obtain rfl := eq_of_readBetween hread
  have hall : listed lib page (tab.complete browser).reads s.server = forms lib page s.server := by
    refine List.flatMap_congr fun route hroute => ?_
    rw [hreads route hroute]
  have hlist : ((tab.complete browser).act browser .runEffects).view.loaded.Perm
      (forms lib page s.server) := by
    rw [← hall]
    have hown := hlisted (fun hblocked => by
      obtain ⟨route,hroute,hfails⟩ := hblocked.2
      have hroute' : route ∈ routesOf page := by
        rw [← hanswered.samePage,← hpage]
        exact hroute
      exact Bool.false_ne_true (hfails.symm.trans (hreads route hroute')))
    rwa [show ((tab.complete browser).act browser .runEffects).page = page from
      hpage.trans hanswered.samePage] at hown
  have halive := hsound.alive
  rw [hview] at halive hlist
  have htitles : ∀ item ∈ (runPage browser page [.fetchCompletes tab.answers,
      .runEffects]).loaded, HasTitle item := by
    intro item hitem
    obtain ⟨route,-,-,doc,-,rfl⟩ := mem_listed.mp (hlist.mem_iff.mp hitem)
    exact (searchable_stored lib doc).title
  obtain ⟨hsettled,hvalue⟩ := fetched_shows_all halive htitles
  refine ⟨_,hfinal,hpage.trans hanswered.samePage,?_,?_,hsame⟩
  · rwa [hview]
  · rwa [hview,hvalue]

end Senca.Deployment
