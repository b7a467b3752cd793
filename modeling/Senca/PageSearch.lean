import Senca.DerivedView
import Senca.PageLoading

/-!
# Search and category buttons of the client pages

A page holds its loaded resources, the search term, the selected category
and the list it shows. `BlogsReposPage` filters in each rendering; the other
pages keep `filteredData` as state that an effect rewrites, and the tweets
page also writes it when its fetch completes. The filters are the source's,
with every way they can throw; what a page is meant to show is stated apart
from them.
-/

namespace Senca.PageSearch

open BrowserRuntime DerivedView FaultLoops JsonValue PageLoading

/-! ### The filters -/

/-- `x || y`. -/
def jsOr (x y : Js Bool) : Js Bool := do
  if ← x then pure true else y

/-- `item.name?.toLowerCase().includes(searchTerm.toLowerCase())`. -/
def fieldIncludes (browser : Browser) (searchTerm : String) (item : Resource) (name : String) :
    Js Bool :=
  match field item name with
  | none | some .null => pure false
  | some (.str s) => pure (includes (browser.toLowerCase s) (browser.toLowerCase searchTerm))
  | some _ => throw ⟨"toLowerCase is not a function"⟩

/-- The three alternatives every page searches. -/
def itemIncludes (browser : Browser) (searchTerm : String) (item : Resource) : Js Bool :=
  jsOr (fieldIncludes browser searchTerm item "title")
    (jsOr (fieldIncludes browser searchTerm item "description")
      (fieldIncludes browser searchTerm item "author"))

/-- The search condition of a page. -/
def matchesSearch (browser : Browser) (page : Page) (searchTerm : String)
    (item : Resource) : Js Bool :=
  match page with
  | .blogsRepos => jsOr (pure (decide (searchTerm = ""))) (itemIncludes browser searchTerm item)
  | _ => itemIncludes browser searchTerm item

/-- `items.filter(keep)` with a condition that may throw. -/
def filterJs {α : Type} (keep : α → Js Bool) : List α → Js (List α)
  | [] => pure []
  | a::rest => do
    let kept ← keep a
    let results ← filterJs keep rest
    pure (if kept then a::results else results)

/-- The values of `selectedCategory`. -/
inductive Category where
  | all
  | blogs
  | projects
  | news
  | tweet
  | youtube
  | podcast
  deriving DecidableEq

/-- The buttons of a page. -/
def categories : Page → List Category
  | .blogsRepos => [.all,.blogs,.projects,.news]
  | .tweetsPodcastsVideos => [.all,.tweet,.youtube,.podcast]
  | _ => []

/-- `item.dataSource === source`. -/
def hasSource (item : Resource) (source : String) : Bool :=
  match field item "dataSource" with
  | some (.str s) => s = source
  | _ => false

/-- The `switch` of a page over the selected category. -/
def inCategory (page : Page) (selectedCategory : Category) (item : Resource) : Bool :=
  match page,selectedCategory with
  | .blogsRepos,.blogs => hasSource item "devto-resources"
  | .blogsRepos,.projects =>
    hasSource item "github-resources" || hasSource item "huggingface-resources"
  | .blogsRepos,.news => hasSource item "newsapi-resources"
  | .tweetsPodcastsVideos,.tweet => hasSource item "tweet"
  | .tweetsPodcastsVideos,.youtube => hasSource item "youtube"
  | .tweetsPodcastsVideos,.podcast => hasSource item "podcast"
  | _,_ => true

/-- The state set by the search box and the buttons. -/
structure Controls where
  /-- The text of the search box. -/
  searchTerm : String
  /-- The category clicked last. -/
  selectedCategory : Category
  deriving DecidableEq

/-- `blogReposData.filter(…)`, in each rendering. -/
def blogsReposFilter (browser : Browser) (blogReposData : List Resource) (controls : Controls) :
    Js (List Resource) :=
  filterJs (fun item => do
    let found ← matchesSearch browser .blogsRepos controls.searchTerm item
    if !found then pure false
    else if controls.selectedCategory = .all then pure true
    else pure (inCategory .blogsRepos controls.selectedCategory item)) blogReposData

/-- The search effect of the pages without buttons. -/
def searchFilter (browser : Browser) (page : Page) (resources : List Resource)
    (controls : Controls) : Js (List Resource) :=
  filterJs (matchesSearch browser page controls.searchTerm) resources

/-- The effect of the tweets page: the search, then the category. -/
def tweetsFilter (browser : Browser) (resources : List Resource) (controls : Controls) :
    Js (List Resource) := do
  let results ← searchFilter browser .tweetsPodcastsVideos resources controls
  if controls.selectedCategory ≠ .all then
    pure (results.filter (inCategory .tweetsPodcastsVideos controls.selectedCategory))
  else pure results

/-- The list a page computes from its resources and controls. -/
def filteredData (browser : Browser) (page : Page) (resources : List Resource)
    (controls : Controls) : Js (List Resource) :=
  match page with
  | .blogsRepos => blogsReposFilter browser resources controls
  | .tweetsPodcastsVideos => tweetsFilter browser resources controls
  | _ => searchFilter browser page resources controls

/-! ### The pages as state machines -/

/-- A page as a component with a derived list. -/
def component (browser : Browser) (page : Page) :
    Component (List Resource) Controls (List Resource) JsError where
  timing := match page with
    | .blogsRepos => .render
    | _ => .effect
  derive := filteredData browser page

/-- The state of a mounted page. -/
abbrev PageState := View (List Resource) Controls (List Resource)

/-- What happens to a page. -/
inductive PageEvent where
  /-- The fetch of the page completes. -/
  | fetchCompletes (answers : String → Answer)
  /-- The search box changes. -/
  | setSearchTerm (searchTerm : String)
  /-- A category button is clicked. -/
  | clickCategory (category : Category)
  /-- React runs the effects of the last commit. -/
  | runEffects

/-- The state changes of an event. A fetch that throws is logged only, a
click needs a button, and the tweets page sets its shown list on load. -/
def changes (browser : Browser) (page : Page) :
    PageEvent → List (Event (List Resource) Controls (List Resource))
  | .fetchCompletes answers =>
    match page.fetch browser answers with
    | .ok (some resources) =>
      [.load resources (if page = .tweetsPodcastsVideos then some resources else none)]
    | _ => []
  | .setSearchTerm searchTerm => [.control fun k => { k with searchTerm := searchTerm }]
  | .clickCategory category =>
    if category ∈ categories page then
      [.control fun k => { k with selectedCategory := category }]
    else []
  | .runEffects => [.runEffects]

/-- A page after its first commit. -/
def mounted (browser : Browser) (page : Page) : PageState :=
  mount (component browser page) [] ⟨"",.all⟩ []

/-- A page after a run of events. -/
def runPage (browser : Browser) (page : Page) (events : List PageEvent) : PageState :=
  DerivedView.run (component browser page) (mounted browser page)
    (events.flatMap (changes browser page))

/-! ### What a page is meant to show -/

/-- The lowered term occurs in a member that is a string. -/
def occurs (browser : Browser) (searchTerm : String) (item : Resource) (name : String) : Bool :=
  match field item name with
  | some (.str s) => includes (browser.toLowerCase s) (browser.toLowerCase searchTerm)
  | _ => false

/-- The term occurs in the title, the description or the author. -/
def Found (browser : Browser) (searchTerm : String) (item : Resource) : Bool :=
  ["title","description","author"].any (occurs browser searchTerm item)

/-- The kind of resource a source delivers. -/
def kindOfSource : String → Option Category
  | "devto-resources" => some .blogs
  | "github-resources" => some .projects
  | "huggingface-resources" => some .projects
  | "newsapi-resources" => some .news
  | "tweet" => some .tweet
  | "youtube" => some .youtube
  | "podcast" => some .podcast
  | _ => none

/-- The kind of a loaded resource. -/
def kind (item : Resource) : Option Category :=
  match field item "dataSource" with
  | some (.str s) => kindOfSource s
  | _ => none

/-- The resource matches the term in title, description or author, and the
category is its kind or stands for every kind. -/
def Matches (browser : Browser) (controls : Controls) (item : Resource) : Bool :=
  Found browser controls.searchTerm item &&
    (controls.selectedCategory = .all || kind item = some controls.selectedCategory)

/-- The member is a string. -/
def HasTitle (item : Resource) : Prop := ∃ s, field item "title" = some (.str s)

/-- A member that is searched is absent, null or a string. -/
def Textual (item : Resource) (name : String) : Prop :=
  ∀ value, field item name = some value → value = .null ∨ ∃ s, value = .str s

/-- The title is a string, and so are the description and the author where
there are any. -/
structure Searchable (item : Resource) : Prop where
  title : HasTitle item
  description : Textual item "description"
  author : Textual item "author"

/-- What is typed. -/
def PageEvent.typed? : PageEvent → Option String
  | .setSearchTerm searchTerm => some searchTerm
  | _ => none

/-- The category of a button that is clicked. -/
def PageEvent.clicked? (page : Page) : PageEvent → Option Category
  | .clickCategory category => if category ∈ categories page then some category else none
  | _ => none

/-- The resources of a fetch that ends without an error. -/
def PageEvent.fetched? (browser : Browser) (page : Page) : PageEvent → Option (List Resource)
  | .fetchCompletes answers =>
    match page.fetch browser answers with
    | .ok (some resources) => some resources
    | _ => none
  | _ => none

/-- The last of what the events of a run bring, or what there was before. -/
def lastOf {β : Type} (brings : PageEvent → Option β) (before : β) (events : List PageEvent) : β :=
  (events.filterMap brings).getLastD before

/-- The term typed last and the category clicked last. -/
def lastControls (page : Page) (events : List PageEvent) : Controls :=
  ⟨lastOf PageEvent.typed? "" events,lastOf (PageEvent.clicked? page) .all events⟩

/-- What was fetched last. -/
def lastFetched (browser : Browser) (page : Page) (events : List PageEvent) : List Resource :=
  lastOf (PageEvent.fetched? browser page) [] events

/-- Every resource a fetch receives is searchable. -/
def PageEvent.Searchable : PageEvent → Prop
  | .fetchCompletes answers => ∀ path, ∀ item ∈ (answers path).items, PageSearch.Searchable item
  | _ => True

/-! ### The filters find what they are meant to find -/

section Filters

variable {browser : Browser} {searchTerm : String} {item : Resource}

/-- A condition that returns tells whether the term occurs. -/
theorem fieldIncludes_ok {name : String} {b : Bool}
    (h : fieldIncludes browser searchTerm item name = .ok b) :
    b = occurs browser searchTerm item name := by
  unfold fieldIncludes at h
  unfold occurs
  split at h <;> cases h <;> simp_all

/-- It returns on every member that may be searched. -/
theorem fieldIncludes_textual {name : String} (h : Textual item name) :
    fieldIncludes browser searchTerm item name = .ok (occurs browser searchTerm item name) := by
  unfold fieldIncludes occurs
  cases hf : field item name with
  | none => rfl
  | some value =>
    rcases h value hf with rfl | ⟨s,rfl⟩ <;> rfl

theorem jsOr_ok {x y : Js Bool} {b p q : Bool} (h : jsOr x y = .ok b)
    (hx : ∀ b, x = .ok b → b = p) (hy : ∀ b, y = .ok b → b = q) : b = (p || q) := by
  obtain ⟨v,hxv,hrest⟩ := bind_eq_ok.mp h
  obtain rfl := hx v hxv
  cases v with
  | true =>
    cases hrest
    rfl
  | false => exact hy b hrest

theorem itemIncludes_ok {b : Bool} (h : itemIncludes browser searchTerm item = .ok b) :
    b = Found browser searchTerm item := by
  simp only [Found,List.any_cons,List.any_nil,Bool.or_false]
  exact jsOr_ok h (fun _ => fieldIncludes_ok) fun _ h' =>
    jsOr_ok h' (fun _ => fieldIncludes_ok) (fun _ => fieldIncludes_ok)

theorem HasTitle.textual (h : HasTitle item) : Textual item "title" := by
  obtain ⟨s,hs⟩ := h
  intro value hv
  rw [hs] at hv
  exact .inr ⟨s,(Option.some.inj hv).symm⟩

/-- A searchable resource is searched without a throw. -/
theorem itemIncludes_searchable (h : Searchable item) :
    itemIncludes browser searchTerm item =
      .ok (Found browser searchTerm item) := by
  rw [itemIncludes,fieldIncludes_textual h.title.textual,fieldIncludes_textual h.description,
    fieldIncludes_textual h.author]
  simp only [Found,List.any_cons,List.any_nil,Bool.or_false]
  cases occurs browser searchTerm item "title" <;>
    cases occurs browser searchTerm item "description" <;> rfl

/-- The empty term occurs in every title. -/
theorem found_empty (h : HasTitle item) : Found browser "" item = true := by
  obtain ⟨s,hs⟩ := h
  have htitle : occurs browser "" item "title" = true := by
    rw [occurs,hs,browser.toLowerCase_empty]
    exact includes_empty _
  simp [Found,htitle]

/-- On a resource with a title every page searches the three members. -/
theorem matchesSearch_ok {page : Page} {b : Bool} (ht : HasTitle item)
    (h : matchesSearch browser page searchTerm item = .ok b) :
    b = Found browser searchTerm item := by
  cases page with
  | blogsRepos =>
    -- the empty term is taken for a match before any member is read
    by_cases he : searchTerm = ""
    · subst he
      cases h
      exact (found_empty ht).symm
    · rw [matchesSearch] at h
      simp only [he,decide_false] at h
      exact itemIncludes_ok h
  | _ => exact itemIncludes_ok h

theorem matchesSearch_searchable {page : Page} (h : Searchable item) :
    matchesSearch browser page searchTerm item =
      .ok (Found browser searchTerm item) := by
  cases page with
  | blogsRepos =>
    by_cases he : searchTerm = ""
    · subst he
      rw [found_empty h.title]
      rfl
    · rw [matchesSearch]
      simp only [he,decide_false]
      exact itemIncludes_searchable h
  | _ => exact itemIncludes_searchable h

variable {α : Type} {keep : α → Js Bool} {p : α → Bool}

/-- A filter that returns keeps what its condition answered. -/
theorem filterJs_ok {items kept : List α} (h : filterJs keep items = .ok kept)
    (hp : ∀ a ∈ items, ∀ b, keep a = .ok b → b = p a) : kept = items.filter p := by
  induction items generalizing kept with
  | nil =>
    cases h
    rfl
  | cons a rest ih =>
    obtain ⟨b,hk,hrest⟩ := bind_eq_ok.mp h
    obtain ⟨results,hr,hkept⟩ := bind_eq_ok.mp hrest
    cases hkept
    obtain rfl := ih hr fun c hc => hp c (List.mem_cons_of_mem a hc)
    rw [hp a List.mem_cons_self b hk,List.filter_cons]

theorem filterJs_returns {items : List α} (h : ∀ a ∈ items, ∃ b, keep a = .ok b) :
    ∃ kept, filterJs keep items = .ok kept := by
  induction items with
  | nil => exact ⟨[],rfl⟩
  | cons a rest ih =>
    obtain ⟨b,hb⟩ := h a List.mem_cons_self
    obtain ⟨kept,hk⟩ := ih fun c hc => h c (List.mem_cons_of_mem a hc)
    refine ⟨if b then a::kept else kept,?_⟩
    rw [filterJs,hb,hk]
    rfl

theorem filterJs_sublist {items kept : List α} (h : filterJs keep items = .ok kept) :
    kept.Sublist items := by
  induction items generalizing kept with
  | nil =>
    cases h
    exact .slnil
  | cons a rest ih =>
    obtain ⟨b,-,hrest⟩ := bind_eq_ok.mp h
    obtain ⟨results,hr,hkept⟩ := bind_eq_ok.mp hrest
    cases hkept
    cases b with
    | true => exact (ih hr).cons_cons a
    | false => exact (ih hr).cons a

/-- Whatever a page computes it takes from its resources, in their order. -/
theorem filteredData_sublist {page : Page} {resources shown : List Resource}
    {controls : Controls} (h : filteredData browser page resources controls = .ok shown) :
    shown.Sublist resources := by
  cases page with
  | tweetsPodcastsVideos =>
    obtain ⟨results,hr,hrest⟩ := bind_eq_ok.mp h
    have hsub : results.Sublist resources := filterJs_sublist hr
    split at hrest <;> cases hrest
    · exact List.filter_sublist.trans hsub
    · exact hsub
  | _ => exact filterJs_sublist h

/-- A resource has a source text, or no source at all and then no kind. -/
theorem source_cases (item : Resource) :
    (∃ s, (∀ source, hasSource item source = decide (s = source)) ∧ kind item = kindOfSource s) ∨
      (∀ source, hasSource item source = false) ∧ kind item = none := by
  unfold hasSource kind
  split
  · rename_i s hs
    exact .inl ⟨s,fun _ => rfl,rfl⟩
  · exact .inr ⟨fun _ => rfl,rfl⟩

/-- The switch of a page with buttons asks for the kind of a resource. -/
theorem inCategory_iff {page : Page} {category : Category} (hc : category ∈ categories page)
    (hall : category ≠ .all) :
    inCategory page category item = true ↔ kind item = some category := by
  rcases source_cases item with ⟨s,hsource,hkind⟩ | ⟨hsource,hkind⟩
  · cases page <;> cases category <;>
      first
      | exact absurd rfl hall
      | exact absurd hc (by decide)
      | simp only [inCategory,hsource,hkind,kindOfSource]; split <;> simp_all
  · cases page <;> cases category <;>
      first
      | exact absurd rfl hall
      | exact absurd hc (by decide)
      | simp [inCategory,hsource,hkind]

theorem matches_all {controls : Controls} (h : controls.selectedCategory = .all) :
    Matches browser controls = Found browser controls.searchTerm := by
  funext item
  simp [Matches,h]

/-- A page that computes its list shows the resources that match, where each
has a title and the category has a button. -/
theorem filteredData_ok {page : Page} {resources shown : List Resource} {controls : Controls}
    (h : filteredData browser page resources controls = .ok shown)
    (ht : ∀ item ∈ resources, HasTitle item)
    (hc : controls.selectedCategory ∈ Category.all::categories page) :
    shown = resources.filter (Matches browser controls) := by
  have hsearch : ∀ {page results},
      searchFilter browser page resources controls = .ok results →
        results = resources.filter (Found browser controls.searchTerm) :=
    fun h => filterJs_ok h fun item hitem _ => matchesSearch_ok (ht item hitem)
  have hbutton : ∀ item, controls.selectedCategory ≠ .all →
      inCategory page controls.selectedCategory item =
        (controls.selectedCategory = .all || kind item = some controls.selectedCategory) := by
    intro item hall
    rw [Bool.eq_iff_iff,inCategory_iff (List.mem_of_ne_of_mem hall hc) hall]
    simp [hall]
  cases page with
  | blogsRepos =>
    refine filterJs_ok h fun item hitem b hb => ?_
    obtain ⟨found,hfound,hb⟩ := bind_eq_ok.mp hb
    rw [Matches,← matchesSearch_ok (ht item hitem) hfound]
    cases found with
    | false =>
      cases hb
      rfl
    | true =>
      by_cases hall : controls.selectedCategory = .all
      · rw [if_neg (by decide),if_pos hall] at hb
        cases hb
        simp [hall]
      · rw [if_neg (by decide),if_neg hall] at hb
        cases hb
        rw [hbutton item hall,Bool.true_and]
  | tweetsPodcastsVideos =>
    obtain ⟨results,hr,hrest⟩ := bind_eq_ok.mp h
    rw [hsearch hr] at hrest
    by_cases hall : controls.selectedCategory = .all
    · rw [if_neg (by simpa using hall)] at hrest
      cases hrest
      rw [matches_all hall]
    · rw [if_pos hall] at hrest
      cases hrest
      rw [List.filter_filter]
      refine List.filter_congr fun item _ => ?_
      rw [hbutton item hall,Matches,Bool.and_comm]
  | _ =>
    have hall : controls.selectedCategory = .all := by simpa [categories] using hc
    rw [hsearch h,matches_all hall]

/-- A page whose resources are searchable computes its list. -/
theorem filteredData_returns {page : Page} {resources : List Resource} {controls : Controls}
    (h : ∀ item ∈ resources, Searchable item) :
    ∃ shown, filteredData browser page resources controls = .ok shown := by
  have hsearch : ∀ page, ∃ results, searchFilter browser page resources controls = .ok results :=
    fun page => filterJs_returns fun item hitem => ⟨_,matchesSearch_searchable (h item hitem)⟩
  cases page with
  | blogsRepos =>
    refine filterJs_returns fun item hitem => ?_
    rw [matchesSearch_searchable (h item hitem)]
    cases Found browser controls.searchTerm item with
    | false => exact ⟨_,rfl⟩
    | true =>
      change ∃ b, (if controls.selectedCategory = .all then _ else _) = _
      by_cases hall : controls.selectedCategory = .all
      · exact ⟨true,if_pos hall⟩
      · exact ⟨_,if_neg hall⟩
  | tweetsPodcastsVideos =>
    obtain ⟨results,hr⟩ := hsearch .tweetsPodcastsVideos
    rw [filteredData,tweetsFilter,hr]
    change ∃ shown, (if controls.selectedCategory ≠ .all then _ else _) = _
    by_cases hall : controls.selectedCategory ≠ .all
    · exact ⟨_,if_pos hall⟩
    · exact ⟨results,if_neg hall⟩
  | researchPapers => exact hsearch .researchPapers
  | tutorials => exact hsearch .tutorials

end Filters

/-- Splitting a list by a key whose values are all listed only reorders it. -/
theorem flatMap_filter_perm {α κ : Type} [DecidableEq κ] {key : α → Option κ} {keys : List κ}
    (hn : keys.Nodup) {items : List α} (h : ∀ a ∈ items, ∃ c ∈ keys, key a = some c) :
    (keys.flatMap (fun c => items.filter (fun a => key a = some c))).Perm items := by
  induction keys generalizing items with
  | nil =>
    cases items with
    | nil => exact .refl _
    | cons a rest =>
      obtain ⟨c,hc,-⟩ := h a List.mem_cons_self
      cases hc
  | cons c keys ih =>
    obtain ⟨hc,hn⟩ := List.nodup_cons.mp hn
    rw [List.flatMap_cons]
    refine List.Perm.trans ?_ (List.filter_append_perm (fun a => key a = some c) items)
    refine List.Perm.append_left _ ?_
    have hothers : ∀ d ∈ keys, items.filter (fun a => key a = some d) =
        (items.filter (fun a => !decide (key a = some c))).filter (fun a => key a = some d) := by
      intro d hd
      rw [List.filter_filter]
      refine List.filter_congr fun a _ => ?_
      by_cases hk : key a = some d
      · have hdc : d ≠ c := fun he => hc (he ▸ hd)
        simp [hk,hdc]
      · simp [hk]
    rw [List.flatMap_congr hothers]
    refine ih hn fun a ha => ?_
    obtain ⟨hmem,hne⟩ := List.mem_filter.mp ha
    obtain ⟨d,hd,hk⟩ := h a hmem
    rcases List.mem_cons.mp hd with rfl | hd
    · simp [hk] at hne
    · exact ⟨d,hd,hk⟩

/-! ### Runs of events -/

section Runs

variable {browser : Browser} {page : Page} {events : List PageEvent}

theorem runPage_append (browser : Browser) (page : Page) (events more : List PageEvent) :
    runPage browser page (events++more) =
      DerivedView.run (component browser page) (runPage browser page events)
        (more.flatMap (changes browser page)) := by
  rw [runPage,List.flatMap_append,run_append]
  rfl

/-- The resources of a page came with one of its fetches. -/
theorem loads_changes {P : List Resource → Prop}
    (h : ∀ answers, .fetchCompletes answers ∈ events → ∀ resources,
      page.fetch browser answers = .ok (some resources) → P resources) :
    Loads P (events.flatMap (changes browser page)) := by
  intro resources direct hmem
  obtain ⟨event,hevent,hchange⟩ := List.mem_flatMap.mp hmem
  cases event with
  | fetchCompletes answers =>
    simp only [changes] at hchange
    split at hchange
    · rename_i resources' hf
      obtain ⟨rfl,-⟩ := Event.load.inj (List.mem_singleton.mp hchange)
      exact h answers hevent resources hf
    · cases hchange
  | setSearchTerm searchTerm => cases List.mem_singleton.mp hchange
  | clickCategory category =>
    simp only [changes] at hchange
    split at hchange
    · cases List.mem_singleton.mp hchange
    · cases hchange
  | runEffects => cases List.mem_singleton.mp hchange

/-- Only a category with a button is ever selected. -/
theorem keeps_changes (browser : Browser) (page : Page) (events : List PageEvent) :
    Keeps (fun k : Controls => k.selectedCategory ∈ Category.all::categories page)
      (events.flatMap (changes browser page)) := by
  intro change hmem k hk
  obtain ⟨event,-,hchange⟩ := List.mem_flatMap.mp hmem
  cases event with
  | fetchCompletes answers =>
    simp only [changes] at hchange
    split at hchange
    · cases List.mem_singleton.mp hchange
    · cases hchange
  | setSearchTerm searchTerm =>
    obtain rfl := Event.control.inj (List.mem_singleton.mp hchange)
    exact hk
  | clickCategory category =>
    simp only [changes] at hchange
    split at hchange
    · rename_i hc
      obtain rfl := Event.control.inj (List.mem_singleton.mp hchange)
      exact List.mem_cons_of_mem _ hc
    · cases hchange
  | runEffects => cases List.mem_singleton.mp hchange

theorem selectedCategory_mem (browser : Browser) (page : Page) (events : List PageEvent) :
    (runPage browser page events).controls.selectedCategory ∈ Category.all::categories page :=
  run_controls (Q := fun k : Controls => k.selectedCategory ∈ Category.all::categories page)
    (keeps_changes browser page events) List.mem_cons_self

theorem lastOf_concat {β : Type} (brings : PageEvent → Option β) (before : β)
    (events : List PageEvent) (e : PageEvent) :
    lastOf brings before (events++[e]) = (brings e).getD (lastOf brings before events) := by
  rw [lastOf,lastOf,List.filterMap_append]
  cases he : brings e with
  | none => rw [List.filterMap_cons_none he,List.filterMap_nil,List.append_nil,Option.getD_none]
  | some found =>
    rw [List.filterMap_cons_some he,List.filterMap_nil,List.getLastD_concat,Option.getD_some]

/-- A page that is up holds what was fetched last, under the controls that were
typed and clicked last. -/
theorem runPage_inputs (h : (runPage browser page events).crashed = false) :
    (runPage browser page events).controls = lastControls page events ∧
      (runPage browser page events).loaded = lastFetched browser page events := by
  induction events using List.reverseRecOn with
  | nil => exact (commit_inputs (component browser page) _).symm
  | append_singleton events e ih =>
    rw [runPage_append,List.flatMap_singleton] at h ⊢
    obtain ⟨hcontrols,hloaded⟩ := ih (run_alive_start h)
    rw [lastControls,lastFetched,lastOf_concat,lastOf_concat,lastOf_concat]
    cases e with
    | fetchCompletes answers =>
      simp only [changes,PageEvent.typed?,PageEvent.clicked?,PageEvent.fetched?] at h ⊢
      cases hfetch : page.fetch browser answers with
      | error e => exact ⟨hcontrols,hloaded⟩
      | ok result =>
        cases result with
        | none => exact ⟨hcontrols,hloaded⟩
        | some resources =>
          rw [hfetch] at h
          dsimp only at h ⊢
          rw [run_singleton] at h ⊢
          exact ⟨(step_load h).2.trans hcontrols,(step_load h).1⟩
    | setSearchTerm searchTerm =>
      rw [changes,run_singleton] at h ⊢
      obtain ⟨hsame,hchanged⟩ := step_control h
      exact ⟨hchanged.trans (by rw [hcontrols]; rfl),hsame.trans hloaded⟩
    | clickCategory category =>
      simp only [changes,PageEvent.clicked?] at h ⊢
      by_cases hbutton : category ∈ categories page
      · rw [if_pos hbutton,run_singleton] at h ⊢
        rw [if_pos hbutton]
        obtain ⟨hsame,hchanged⟩ := step_control h
        exact ⟨hchanged.trans (by rw [hcontrols]; rfl),hsame.trans hloaded⟩
      · rw [if_neg hbutton,if_neg hbutton]
        exact ⟨hcontrols,hloaded⟩
    | runEffects =>
      rw [changes,run_singleton] at h ⊢
      obtain ⟨-,hsame,hkept⟩ := step_runEffects h
      exact ⟨hkept.trans hcontrols,hsame.trans hloaded⟩

/-- A mark leaves a searchable resource searchable. -/
theorem Searchable.mark {item : Resource} (h : Searchable item)
    {e : String×(Resource → Resource)} (he : e ∈ page.endpoints) : Searchable (e.2 item) := by
  have htextual : ∀ {name}, name ∉ ["dataSource","createdAt","date"] → Textual item name →
      Textual (e.2 item) name := by
    intro name hn ht
    rw [Textual,field_mark he hn]
    exact ht
  refine ⟨?_,htextual (by decide) h.description,htextual (by decide) h.author⟩
  rw [HasTitle,field_mark he (by decide)]
  exact h.title

/-- What a page sets on a fetch of searchable resources is searchable. -/
theorem fetch_searchable {answers : String → Answer} {resources : List Resource}
    (hs : (PageEvent.fetchCompletes answers).Searchable)
    (h : page.fetch browser answers = .ok (some resources)) :
    ∀ item ∈ resources, Searchable item := by
  intro item hitem
  have hmem := (fetch_perm h).mem_iff.mp hitem
  obtain ⟨e,he,hmap⟩ := List.mem_flatMap.mp hmem
  obtain ⟨raw,hraw,rfl⟩ := List.mem_map.mp hmap
  exact (hs e.1 raw hraw).mark he

/-- What a page with buttons sets on a fetch has the kind of a button. -/
theorem fetch_kind {answers : String → Answer} {resources : List Resource}
    (hbuttons : categories page ≠ [])
    (h : page.fetch browser answers = .ok (some resources)) :
    ∀ item ∈ resources, ∃ c ∈ (categories page).tail, kind item = some c := by
  have hsource : ∀ (source : String) (item : Resource),
      kind (withSource source item) = kindOfSource source := by
    intro source item
    rw [kind,field,withSource,lookup_setMember_self]
  intro item hitem
  have hmem := (fetch_perm h).mem_iff.mp hitem
  obtain ⟨e,he,hmap⟩ := List.mem_flatMap.mp hmem
  obtain ⟨raw,hraw,rfl⟩ := List.mem_map.mp hmap
  cases page <;> simp only [Page.endpoints,List.mem_cons,List.not_mem_nil,or_false] at he
  · rcases he with rfl | rfl | rfl | rfl <;> exact ⟨_,by decide,hsource _ raw⟩
  · exact absurd rfl hbuttons
  · exact absurd rfl hbuttons
  · rcases he with rfl | rfl | rfl <;> exact ⟨_,by decide,hsource _ raw⟩

theorem loaded_searchable (h : ∀ e ∈ events, e.Searchable) :
    ∀ item ∈ (runPage browser page events).loaded, Searchable item :=
  run_loaded (P := fun resources => ∀ item ∈ resources, Searchable item)
    (loads_changes fun _ hevent _ hf => fetch_searchable (h _ hevent) hf) (by simp)

theorem loaded_kind (hbuttons : categories page ≠ []) :
    ∀ item ∈ (runPage browser page events).loaded,
      ∃ c ∈ (categories page).tail, kind item = some c :=
  run_loaded (P := fun resources => ∀ item ∈ resources,
      ∃ c ∈ (categories page).tail, kind item = some c)
    (loads_changes fun _ _ _ hf => fetch_kind hbuttons hf) (by simp)

/-- A page that only ever receives searchable resources stays up. -/
theorem runPage_alive (h : ∀ e ∈ events, e.Searchable) :
    (runPage browser page events).crashed = false :=
  run_alive (P := fun resources => ∀ item ∈ resources, Searchable item) (Q := fun _ => True)
    (loads_changes fun _ hevent _ hf => fetch_searchable (h _ hevent) hf)
    (fun _ _ _ _ => trivial) (by simp) trivial
    (fun _ _ hs _ => filteredData_returns hs)

/-- A settled page shows the loaded resources that match. -/
theorem settled_value (ht : ∀ item ∈ (runPage browser page events).loaded, HasTitle item)
    (hs : (runPage browser page events).Settled) :
    (runPage browser page events).value =
      (runPage browser page events).loaded.filter
        (Matches browser (runPage browser page events).controls) :=
  filteredData_ok (derived_run (component browser page) [] ⟨"",.all⟩ []
    (events.flatMap (changes browser page)) hs) ht (selectedCategory_mem browser page events)

/-- A term is typed, a category clicked and the effects run. -/
def select (searchTerm : String) (category : Category) : List PageEvent :=
  [.setSearchTerm searchTerm,.clickCategory category,.runEffects]

/-- The list shown once a term and a category are selected. -/
def shownUnder (browser : Browser) (page : Page) (events : List PageEvent)
    (searchTerm : String) (category : Category) : List Resource :=
  (runPage browser page (events++select searchTerm category)).value

/-- A selection leaves a page that is up settled, with the same resources under
the new controls. -/
theorem select_settled {searchTerm : String} {category : Category}
    (halive : (runPage browser page (events++select searchTerm category)).crashed = false)
    (hc : category ∈ categories page) :
    (runPage browser page (events++select searchTerm category)).Settled ∧
      (runPage browser page (events++select searchTerm category)).loaded =
        (runPage browser page events).loaded ∧
      (runPage browser page (events++select searchTerm category)).controls =
        ⟨searchTerm,category⟩ := by
  have hchanges : (select searchTerm category).flatMap (changes browser page) =
      [fun k => { k with searchTerm := searchTerm },
        fun k => { k with selectedCategory := category }].map .control++[.runEffects] := by
    simp [select,changes,hc]
  rw [runPage_append,hchanges] at halive ⊢
  exact run_changes _ halive

theorem shownUnder_eq (ht : ∀ item ∈ (runPage browser page events).loaded, HasTitle item)
    {searchTerm : String} {category : Category}
    (halive : (runPage browser page (events++select searchTerm category)).crashed = false)
    (hc : category ∈ categories page) :
    shownUnder browser page events searchTerm category =
      (runPage browser page events).loaded.filter (Matches browser ⟨searchTerm,category⟩) := by
  obtain ⟨hsettled,hloaded,hcontrols⟩ := select_settled halive hc
  rw [shownUnder,settled_value (by rwa [hloaded]) hsettled,hloaded,hcontrols]

/-- What a settled page shows. -/
structure ShowsMatching (browser : Browser) (s : PageState) : Prop where
  /-- The loaded resources that match, in their order. -/
  shown : s.value = s.loaded.filter (Matches browser s.controls)
  /-- All of them under the empty term and the first category. -/
  everything : s.controls = ⟨"",.all⟩ → s.value = s.loaded

/-- The specific categories divide among them what the first one shows. -/
structure DividesByCategory (browser : Browser) (page : Page) (events : List PageEvent)
    (searchTerm : String) : Prop where
  /-- No resource is shown under two of them. -/
  disjoint : (categories page).tail.Pairwise (fun c d =>
    (shownUnder browser page events searchTerm c).Disjoint
      (shownUnder browser page events searchTerm d))
  /-- Together they show what is shown under all. -/
  together : ((categories page).tail.flatMap
    (shownUnder browser page events searchTerm)).Perm
      (shownUnder browser page events searchTerm .all)

theorem showsMatching_of_settled
    (ht : ∀ item ∈ (runPage browser page events).loaded, HasTitle item)
    (hs : (runPage browser page events).Settled) :
    ShowsMatching browser (runPage browser page events) := by
  refine ⟨settled_value ht hs,fun hcontrols => ?_⟩
  rw [settled_value ht hs,hcontrols,matches_all rfl,List.filter_eq_self]
  exact fun item hitem => found_empty (ht item hitem)

theorem dividesByCategory {searchTerm : String}
    (ht : ∀ item ∈ (runPage browser page events).loaded, HasTitle item)
    (halive : ∀ c ∈ categories page,
      (runPage browser page (events++select searchTerm c)).crashed = false)
    (hbuttons : categories page ≠ []) :
    DividesByCategory browser page events searchTerm := by
  have hnodup : (categories page).tail.Nodup := by cases page <;> decide
  have hspecific : ∀ c ∈ (categories page).tail, c ∈ categories page ∧ c ≠ .all := by
    cases page <;> decide
  have hall : Category.all ∈ categories page := by
    cases page <;> first | decide | exact absurd rfl hbuttons
  have hshown : ∀ c ∈ (categories page).tail, shownUnder browser page events searchTerm c =
      ((runPage browser page events).loaded.filter (Found browser searchTerm)).filter
        (fun item => kind item = some c) := by
    intro c hc
    have hbutton := (hspecific c hc).1
    rw [shownUnder_eq ht (halive c hbutton) hbutton,List.filter_filter]
    refine List.filter_congr fun item _ => ?_
    simp [Matches,(hspecific c hc).2,Bool.and_comm]
  constructor
  · refine hnodup.imp_of_mem fun {c d} hc hd hne => ?_
    rw [hshown c hc,hshown d hd]
    intro item hitem hitem'
    have hkc : kind item = some c := by simpa using (List.mem_filter.mp hitem).2
    have hkd : kind item = some d := by simpa using (List.mem_filter.mp hitem').2
    exact hne (Option.some.inj (hkc.symm.trans hkd))
  · rw [shownUnder_eq ht (halive .all hall) hall,matches_all rfl]
    rw [List.flatMap_congr hshown]
    exact flatMap_filter_perm hnodup fun item hitem =>
      loaded_kind hbuttons item (List.mem_of_mem_filter hitem)

end Runs

/-- For every browser, page and run of events after which every loaded resource
has a title: a settled page shows exactly the resources that match its term
and category, and for every term its categories divide what it shows. A page
that receives searchable resources only, as the schemas make them, stays up
and settles when its effects run. A page that is up holds what it fetched last,
under the term typed last and the category clicked last. -/
theorem runs_show_matching (browser : Browser) (page : Page) (events : List PageEvent) :
    ((∀ item ∈ (runPage browser page events).loaded, HasTitle item) →
      ((runPage browser page events).Settled →
        ShowsMatching browser (runPage browser page events)) ∧
      ∀ searchTerm, categories page ≠ [] →
        (∀ c ∈ categories page,
          (runPage browser page (events++select searchTerm c)).crashed = false) →
        DividesByCategory browser page events searchTerm) ∧
    ((∀ e ∈ events, e.Searchable) →
      (runPage browser page events).crashed = false ∧
        (runPage browser page (events++[.runEffects])).Settled) ∧
    ((runPage browser page events).crashed = false →
      (runPage browser page events).controls = lastControls page events ∧
        (runPage browser page events).loaded = lastFetched browser page events) := by
  refine ⟨fun ht => ⟨showsMatching_of_settled ht,fun searchTerm hbuttons halive =>
    dividesByCategory ht halive hbuttons⟩,fun h => ⟨runPage_alive h,?_⟩,runPage_inputs⟩
  have halive : (runPage browser page (events++[.runEffects])).crashed = false :=
    runPage_alive (by simpa [PageEvent.Searchable,or_imp,forall_and] using h)
  rw [runPage_append] at halive ⊢
  exact (run_changes [] halive).1

/-- One tweet and one video. -/
def sampleAnswers : String → Answer
  | "/api/tweet-resources" => .array [[("title",.str "Agents today")]]
  | "/api/youtube-resources" => .array
    [[("title",.str "Intro"),("createdAt",.str "2025-02-01T12:00:00.000Z")]]
  | _ => .array []

/-- The fetch completes after the user typed. -/
def sampleEvents : List PageEvent :=
  [.setSearchTerm "agents",.runEffects,.fetchCompletes sampleAnswers,.runEffects]

theorem sampleAnswers_searchable (path : String) :
    ∀ item ∈ (sampleAnswers path).items, Searchable item := by
  have htitled : ∀ title rest, field rest "description" = none → field rest "author" = none →
      Searchable (("title",.str title)::rest) := by
    intro title rest hd ha
    refine ⟨⟨title,rfl⟩,?_,?_⟩
    · intro value hv
      rw [field,List.lookup_cons] at hv
      exact absurd (hd.symm.trans hv) (by simp)
    · intro value hv
      rw [field,List.lookup_cons] at hv
      exact absurd (ha.symm.trans hv) (by simp)
  unfold sampleAnswers
  split
  · simpa [Answer.items] using htitled "Agents today" [] rfl rfl
  · simpa [Answer.items] using htitled "Intro" _ rfl rfl
  · simp [Answer.items]

theorem runs_show_matching_sample :
    ShowsMatching sampleBrowser (runPage sampleBrowser .tweetsPodcastsVideos sampleEvents) ∧
      DividesByCategory sampleBrowser .tweetsPodcastsVideos sampleEvents "agents" := by
  have hevents : ∀ e ∈ sampleEvents, e.Searchable := by
    simpa [sampleEvents,PageEvent.Searchable] using sampleAnswers_searchable
  have hselect : ∀ c ∈ categories .tweetsPodcastsVideos,
      (runPage sampleBrowser .tweetsPodcastsVideos
        (sampleEvents++select "agents" c)).crashed = false := fun c _ =>
    (runs_show_matching sampleBrowser .tweetsPodcastsVideos
      (sampleEvents++select "agents" c)).2.1
        (by simpa [select,PageEvent.Searchable,or_imp,forall_and] using hevents) |>.1
  obtain ⟨hshows,hdivides⟩ :=
    (runs_show_matching sampleBrowser .tweetsPodcastsVideos sampleEvents).1
      (fun item hitem => (loaded_searchable hevents item hitem).title)
  exact ⟨hshows ⟨rfl,rfl⟩,hdivides "agents" (by decide) hselect⟩

end Senca.PageSearch
