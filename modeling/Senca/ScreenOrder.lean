import Senca.DateOrder
import Senca.Deployment

/-!
# The order of the cards on a screen

A router sends its documents newest first, and three pages list their routers
one after the other; the fourth sorts what all of its routers sent by the date
it reads from each. A settled page keeps that order whatever is typed or
clicked.
-/

namespace Senca.ScreenOrder

open BrowserRuntime ConsistentSort DateOrder Deployment GrowingLogs JsonValue MongooseStore
  PageLoading PageSearch ResourceCards ServerRoutes StableRanking StoredSearch

/-- The documents are in the order in which a router sends them. -/
def Newest {schema : Schema} (docs : List (Document schema)) : Prop :=
  docs.Pairwise (GeKey createdAtKey)

/-- A tab shows, router after router, some stored documents, newest first. -/
def ByRouter (lib : Mongoose) (t : Server) (tab : Tab) : Prop :=
  ∃ docs : Server, (∀ route, Newest (docs route) ∧ (docs route).Subperm (t route)) ∧
    tab.view.value = forms lib tab.page docs

/-- A document of some router. -/
abbrev Stored := (route : Route)×Document route.schema

/-- A document as its page shows it. -/
def Stored.form (lib : Mongoose) (d : Stored) : Resource := shownForm d.1 (lib.members d.2)

/-- The browser reads from a document the date that was stored. -/
def Legible (lib : Mongoose) (browser : Browser) {schema : Schema} (doc : Document schema) :
    Prop :=
  ∃ date, doc.value? "createdAt" = some (.date date) ∧ lib.isoOfDate date ≠ "" ∧
    browser.parseDate (lib.isoOfDate date) = some date

/-- A tab shows documents of all its routers together, newest first. -/
def ByDate (lib : Mongoose) (t : Server) (tab : Tab) : Prop :=
  ∃ docs : List Stored, (∀ d ∈ docs, d.2 ∈ t d.1) ∧
    docs.Pairwise (GeKey (fun d : Stored => createdAtKey d.2)) ∧
    tab.view.value = docs.map (Stored.form lib)

section Order

variable {lib : Mongoose} {moments : Server → Prop} {s t : Server} {tab : Tab}

/-- What a settled tab shows is what it holds and matches. -/
theorem value_eq_filter {browser : Browser} (h : tab.Sound lib browser moments s t)
    (hg : Grows s t) (hnow : moments t) (hsettled : tab.view.Settled) :
    tab.view.value = tab.view.loaded.filter (Matches browser tab.view.controls) := by
  have htitles : ∀ item ∈ tab.view.loaded, HasTitle item := by
    intro item hitem
    obtain ⟨route,-,-,doc,-,rfl⟩ := mem_listed.mp ((h.holds_current hg hnow).subset hitem)
    exact (searchable_stored lib doc).title
  obtain ⟨events,hview,-⟩ := h.ran
  rw [hview] at hsettled htitles ⊢
  exact settled_value htitles hsettled

/-- What arrived from a router is newest first. -/
theorem answer_newest {browser : Browser} (h : tab.Sound lib browser moments s t) (route : Route) :
    ∃ docs : List (Document route.schema), Newest docs ∧ docs.Subperm (t route) ∧
      (tab.answers (mountPath route)).items.map (shownForm route) =
        docs.map (fun doc => shownForm route (lib.members doc)) := by
  have hempty : ∃ docs : List (Document route.schema), Newest docs ∧ docs.Subperm (t route) ∧
      ([] : List Resource) = docs.map (fun doc => shownForm route (lib.members doc)) :=
    ⟨[],List.Pairwise.nil,List.nil_subperm,rfl⟩
  rw [Tab.answers]
  cases harrived : tab.arrived (mountPath route) with
  | none => exact hempty
  | some answer =>
    rw [Option.getD_some]
    rcases h.served route answer harrived with hobject | ⟨held,hread,rfl⟩
    · cases answer with
      | array items => cases hobject
      | object members => exact hempty
    · refine ⟨find held,sortDesc_pairwise _ _,?_,?_⟩
      · exact (find_perm held).subperm.trans hread.before.sublist.subperm
      · rw [Answer.items,List.map_map]
        rfl

/-- A tab that holds nothing shows nothing. -/
theorem value_of_empty {browser : Browser} (h : tab.Sound lib browser moments s t)
    (hempty : tab.view.loaded = []) : tab.view.value = [] := by
  have hshown := h.shown
  rw [hempty] at hshown
  exact List.subperm_nil.mp hshown

/-- A page without a sort. -/
theorem byRouter_of_settled {browser : Browser} (h : tab.Sound lib browser moments s t)
    (hg : Grows s t) (hnow : moments t) (hsettled : tab.view.Settled)
    (hpage : tab.page ≠ .tweetsPodcastsVideos) : ByRouter lib t tab := by
  by_cases hdone : tab.progress = .done
  · choose docs hnewest hsub hdocs using fun route => answer_newest h route
    refine ⟨fun route => (docs route).filter (fun doc =>
        Matches browser tab.view.controls (shownForm route (lib.members doc))),fun route => ?_,?_⟩
    · exact ⟨(hnewest route).filter _,List.filter_sublist.subperm.trans (hsub route)⟩
    · have hloaded := h.loaded
      rw [if_pos hdone,loaded_of_guarded browser hpage,expected_eq] at hloaded
      rw [value_eq_filter h hg hnow hsettled,hloaded,List.filter_flatMap,forms,listed]
      refine List.flatMap_congr fun route _ => ?_
      rw [hdocs,List.filter_map,if_pos rfl]
      rfl
  · have hloaded := h.loaded
    rw [if_neg hdone] at hloaded
    refine ⟨fun _ => [],fun route => ⟨List.Pairwise.nil,List.nil_subperm⟩,?_⟩
    rw [value_of_empty h hloaded,forms,listed]
    simp

/-- The date the page reads from a legible document. -/
theorem dateOf_legible {browser : Browser} {route : Route} {doc : Document route.schema}
    (hpage : pageOf route ≠ .tutorials) (h : Legible lib browser doc) :
    HasDate (shownForm route (lib.members doc)) ∧ ∃ date : ℤ,
      dateOf browser (shownForm route (lib.members doc)) = some date ∧
        createdAtKey doc = (date : WithBot ℤ) := by
  obtain ⟨date,hvalue,hne,hparse⟩ := h
  have hrendered : rendered lib doc "createdAt" = some (.str (lib.isoOfDate date)) := by
    rw [rendered,hvalue]
    rfl
  have hfield : dateField (shownForm route (lib.members doc)) =
      some (.str (lib.isoOfDate date)) := by
    rw [dateField_stored hpage,hrendered,if_pos (truthy_str hne)]
  refine ⟨⟨by rw [hfield,truthy_str hne],datable_stored hpage⟩,date,?_,?_⟩
  · rw [dateOf,getDate,hfield]
    dsimp only
    rw [if_pos (truthy_str hne)]
    simp only [newDate,hparse]
    rfl
  · rw [createdAtKey,hvalue]

/-- Items that are the forms of documents. -/
theorem exists_forms {P : Stored → Prop} {items : List Resource}
    (h : ∀ item ∈ items, ∃ d : Stored, P d ∧ d.form lib = item) :
    ∃ docs : List Stored, (∀ d ∈ docs, P d) ∧ items = docs.map (Stored.form lib) := by
  induction items with
  | nil => exact ⟨[],(fun _ hd => nomatch hd),rfl⟩
  | cons item rest ih =>
    obtain ⟨d,hd,rfl⟩ := h item List.mem_cons_self
    obtain ⟨docs,hdocs,rfl⟩ := ih fun other hother => h other (List.mem_cons_of_mem _ hother)
    exact ⟨d::docs,List.forall_mem_cons.mpr ⟨hd,hdocs⟩,rfl⟩

/-- What the page that sorts holds is sorted by what it reads. -/
theorem loaded_sorted {browser : SortingBrowser} (h : tab.Sound lib browser.toBrowser moments s t)
    (hg : Grows s t) (hnow : moments t) (hpage : tab.page = .tweetsPodcastsVideos)
    (hlegible : ∀ route ∈ routesOf tab.page, ∀ doc ∈ t route,
      Legible lib browser.toBrowser doc) :
    tab.view.loaded.Pairwise (fun a b => ∀ timeA ∈ dateOf browser.toBrowser a,
      ∀ timeB ∈ dateOf browser.toBrowser b, timeB ≤ timeA) := by
  have hdates : ∀ item ∈ tab.view.loaded, HasDate item ∧
      (dateOf browser.toBrowser item).isSome = true := by
    intro item hitem
    obtain ⟨route,hroute,-,doc,hdoc,rfl⟩ := mem_listed.mp ((h.holds_current hg hnow).subset hitem)
    have hne : pageOf route ≠ .tutorials := by
      rw [pageOf_routesOf hroute,hpage]
      decide
    obtain ⟨hdate,date,hread,-⟩ := dateOf_legible hne (hlegible route hroute doc hdoc)
    exact ⟨hdate,by rw [hread]; rfl⟩
  have hloaded := h.loaded
  by_cases hdone : tab.progress = .done
  · rw [if_pos hdone,hpage,PageLoading.loaded] at hloaded
    by_cases hreads : ∀ e ∈ Page.tweetsPodcastsVideos.endpoints,
        (tab.answers e.1).isArray = true
    · rw [fetch_tweets_of_isArray browser.toBrowser tab.answers hreads] at hloaded
      cases hsort : browser.sort (compareDates browser.toBrowser)
          (expected .tweetsPodcastsVideos tab.answers) with
      | error e =>
        rw [hsort] at hloaded
        rw [hloaded]
        exact List.Pairwise.nil
      | ok sorted =>
        rw [hsort] at hloaded
        obtain rfl : tab.view.loaded = sorted := hloaded
        have hmem : ∀ item ∈ expected .tweetsPodcastsVideos tab.answers,
            item ∈ tab.view.loaded := fun item hitem => (sort_perm hsort).mem_iff.mpr hitem
        have hreturns : ∀ a ∈ expected .tweetsPodcastsVideos tab.answers,
            ∀ b ∈ expected .tweetsPodcastsVideos tab.answers,
            (compareDates browser.toBrowser a b).isOk = true := by
          intro a ha b hb
          rw [compareDates_isOk,(hdates a (hmem a ha)).1.2,(hdates b (hmem b hb)).1.2]
          rfl
        -- all dates are read, so the comparator is consistent and the sort newest first
        obtain ⟨-,dated,undated,hsplit,-,hundated,hordered⟩ := (newestFirst_sorted_iff
          (fun a ha b hb => comparison_of_hasDate (hdates a (hmem a ha)).1 (hdates b (hmem b hb)).1)
          (fun hc => browser.sort_consistent _ _ _ ⟨hreturns,hc⟩ hsort)).mpr
            (.inl fun item hitem => (hdates item (hmem item hitem)).2)
        have hnone : undated = [] := by
          refine List.eq_nil_iff_forall_not_mem.mpr fun item hitem => ?_
          have hsome := (hdates item (by rw [hsplit]; exact List.mem_append_right _ hitem)).2
          rw [hundated item hitem] at hsome
          cases hsome
        rw [hsplit,hnone,List.append_nil]
        exact hordered
    · simp only [not_forall,Bool.not_eq_true] at hreads
      obtain ⟨e,he,hobject⟩ := hreads
      obtain ⟨error,hfails⟩ := fetch_tweets_of_object browser.toBrowser tab.answers ⟨e,he,hobject⟩
      rw [hfails] at hloaded
      rw [hloaded]
      exact List.Pairwise.nil
  · rw [if_neg hdone] at hloaded
    rw [hloaded]
    exact List.Pairwise.nil

/-- The page that sorts. -/
theorem byDate_of_settled {browser : SortingBrowser}
    (h : tab.Sound lib browser.toBrowser moments s t) (hg : Grows s t) (hnow : moments t)
    (hsettled : tab.view.Settled) (hpage : tab.page = .tweetsPodcastsVideos)
    (hlegible : ∀ route ∈ routesOf tab.page, ∀ doc ∈ t route,
      Legible lib browser.toBrowser doc) : ByDate lib t tab := by
  have hforms : ∀ item ∈ tab.view.value, ∃ d : Stored,
      (d.2 ∈ t d.1 ∧ d.1 ∈ routesOf tab.page) ∧ d.form lib = item := by
    intro item hitem
    obtain ⟨route,hroute,-,doc,hdoc,rfl⟩ :=
      mem_listed.mp ((h.shown.trans (h.holds_current hg hnow)).subset hitem)
    exact ⟨⟨route,doc⟩,⟨hdoc,hroute⟩,rfl⟩
  obtain ⟨docs,hdocs,hvalue⟩ := exists_forms hforms
  refine ⟨docs,fun d hd => (hdocs d hd).1,?_,hvalue⟩
  have hordered : tab.view.value.Pairwise (fun a b => ∀ timeA ∈ dateOf browser.toBrowser a,
      ∀ timeB ∈ dateOf browser.toBrowser b, timeB ≤ timeA) := by
    rw [value_eq_filter h hg hnow hsettled]
    exact (loaded_sorted h hg hnow hpage hlegible).filter _
  rw [hvalue,List.pairwise_map] at hordered
  have hread : ∀ d ∈ docs, ∃ date : ℤ, dateOf browser.toBrowser (d.form lib) = some date ∧
      createdAtKey d.2 = (date : WithBot ℤ) := by
    intro d hd
    obtain ⟨hdoc,hroute⟩ := hdocs d hd
    have hne : pageOf d.1 ≠ .tutorials := by
      rw [pageOf_routesOf hroute,hpage]
      decide
    exact (dateOf_legible hne (hlegible d.1 hroute d.2 hdoc)).2
  refine hordered.imp_of_mem fun {a b} ha hb hab => ?_
  obtain ⟨dateA,hdateA,hkeyA⟩ := hread a ha
  obtain ⟨dateB,hdateB,hkeyB⟩ := hread b hb
  rw [GeKey,hkeyA,hkeyB]
  exact WithBot.coe_le_coe.mpr (hab dateA hdateA dateB hdateB)

end Order

/-- Every settled page keeps the order of its kind. -/
def ScreensOrdered (lib : Mongoose) (browser : Browser) (s : State) : Prop :=
  ∀ i tab, s.tabs i = some tab → tab.view.Settled →
    (tab.page ≠ .tweetsPodcastsVideos → ByRouter lib s.server tab) ∧
    (tab.page = .tweetsPodcastsVideos →
      (∀ route ∈ routesOf tab.page, ∀ doc ∈ s.server route, Legible lib browser doc) →
        ByDate lib s.server tab)

/-- For every order of requests, openings, answers and inputs: three pages show
router after router, each newest first, and the fourth shows all newest first
as long as the browser reads the dates that are stored. -/
theorem run_screensOrdered (lib : Mongoose) (browser : SortingBrowser) (server : Server)
    (events : List Event) : ScreensOrdered lib browser.toBrowser
      (runSystem lib browser.toBrowser (start server) events) := by
  intro i tab htab hsettled
  have hsound := @started_soundAt lib browser.toBrowser server events i
  have htabSound := hsound.tab tab htab
  exact ⟨fun hpage => byRouter_of_settled htabSound hsound.grows hsound.now hsettled hpage,
    fun hpage hlegible =>
      byDate_of_settled htabSound hsound.grows hsound.now hsettled hpage hlegible⟩

end Senca.ScreenOrder
