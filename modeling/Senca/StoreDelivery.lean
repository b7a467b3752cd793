import Senca.CollectorRanking
import Senca.StoreFunctions

/-!
# From a scraper's items to the page that shows them

A store function delivers its items when the page's endpoint returns, after
the post, what it returned before and one document for each item with that
item's title, link and summary. Scraper, mounts, models and pages agree
for eight of the twelve functions; for these a batch is delivered exactly
when it fits the body limit and its optional fields can be cast. Since one
rejected element rejects the batch, the same decides whether a good item
survives the others of its batch.
-/

namespace Senca.StoreDelivery

open CollectorRanking FaultLoops JsonValue MongooseStore PythonRuntime RetryNetwork
  ScraperCollectors ServerRoutes StoreFunctions YoutubeVideos

/-- The router behind the page for a kind of resource. -/
def pageRoute : StoreFunction → Route
  | .devto => .devto
  | .github => .github
  | .fetchPapers => .fetchpapers
  | .hfDatasets => .huggingface
  | .hfSpaces => .huggingface
  | .newsApi => .newsapi
  | .scrape => .scrape
  | .spotify1 => .spotify1
  | .tweets => .tweets
  | .youtube => .youtube
  | .tools1 => .tools1
  | .tools => .tools1

/-- The functions whose default endpoint is the one their page fetches: all
but papers, the two of Hugging Face and `tools.py`. -/
def agrees (f : StoreFunction) : Bool :=
  !([.fetchPapers,.hfDatasets,.hfSpaces,.tools] : List StoreFunction).contains f

theorem pageEndpoint_mounted (f : StoreFunction) :
    mounts.lookup f.pageEndpoint = some (pageRoute f) := by
  cases f <;> rfl

theorem endpoint_mounted (f : StoreFunction) :
    mounts.lookup f.endpoint = if agrees f then some (pageRoute f) else none := by
  cases f <;> rfl

/-! ### Views -/

/-- Two nonempty strings and a summary. -/
def strings (title link : Json) (summary : String) : Option (String×String×String) :=
  match title,link with
  | .str t,.str l => if t ≠ "" ∧ l ≠ "" then some (t,l,summary) else none
  | _,_ => none

/-- The title, link and summary of an item, when the fields they come from are
nonempty strings; for a tool so is the summary. Tweets have no summary. -/
def view (py : Interpreter) : (f : StoreFunction) → f.Item → Option (String×String×String)
  | .devto,(it : Summarised DevtoItem) => strings it.item.title it.item.url it.summary50Words
  | .github,(it : Summarised GithubItem) => strings it.item.name it.item.url it.summary50Words
  | .fetchPapers,(it : Summarised PaperItem) =>
    strings it.item.title it.item.url it.summary50Words
  | .hfDatasets,(it : Summarised DatasetItem) => strings it.item.id
    (.str ("https://huggingface.co/datasets/"++py.str it.item.id)) it.summary50Words
  | .hfSpaces,(it : Summarised SpaceItem) => strings it.item.id
    (.str ("https://huggingface.co/spaces/"++py.str it.item.id)) it.summary50Words
  | .newsApi,(it : Summarised NewsItem) => strings it.item.title it.item.url it.summary50Words
  | .scrape,(it : Summarised ArxivItem) =>
    strings (.str it.item.title) (.str it.item.link) it.summary50Words
  | .spotify1,(it : Summarised PodcastItem) =>
    strings it.item.name it.item.link it.summary50Words
  | .tweets,(it : TweetItem) => if it.text = "" then none else
      some (String.ofList (it.text.toList.take 80)++"...",
        "https://twitter.com/i/web/status/"++py.str (.int it.id),"")
  | .youtube,(it : Summarised VideoItem) =>
    strings it.item.title (.str it.item.url) it.summary50Words
  | .tools1,(it : ToolItem) =>
    if it.summary ≠ "" then strings (.str it.title) (.str it.link) it.summary else none
  | .tools,(it : SupertoolItem) =>
    if it.summary ≠ "" then strings (.str it.name) (.str it.link) it.summary else none

/-- Title, link and summary of a document as a page reads them. -/
def shown (doc : Json) : Option Json×Option Json×Option Json :=
  (doc.member? "title",doc.member? "link",doc.member? "summary")

/-- A view as it is read from a document. -/
def expected (v : String×String×String) : Option Json×Option Json×Option Json :=
  (some (.str v.1),some (.str v.2.1),some (.str v.2.2))

/-- Members that offer a view to a schema. -/
structure Offers (route : Route) (members : List (String×Json)) (v : String×String×String) :
    Prop where
  title : members.lookup "title" = some (.str v.1)
  link : members.lookup "link" = some (.str v.2.1)
  summary : members.lookup "summary" = some (.str v.2.2)
  titleSet : v.1 ≠ ""
  linkSet : v.2.1 ≠ ""
  summarySet : route = .tools1 → v.2.2 ≠ ""

theorem strings_eq_some {title link : Json} {summary : String} {v : String×String×String}
    (h : strings title link summary = some v) :
    title = .str v.1 ∧ link = .str v.2.1 ∧ summary = v.2.2 ∧ v.1 ≠ "" ∧ v.2.1 ≠ "" := by
  unfold strings at h
  split at h
  · split at h
    · rename_i hne
      cases h
      exact ⟨rfl,rfl,rfl,hne.1,hne.2⟩
    · cases h
  · cases h

/-- An element whose members come from `resourceElement` offers its strings. -/
theorem offers_resourceElement {route : Route} (hroute : route ≠ .tools1)
    {title link image resourceBy createdAt : Json} {summary : String}
    {v : String×String×String} (h : strings title link summary = some v) :
    ∃ members, (pure (resourceElement title link image (.str summary) resourceBy createdAt) :
      Py Json) = .ok (.obj members) ∧ Offers route members v := by
  obtain ⟨rfl,rfl,rfl,ht,hl⟩ := strings_eq_some h
  exact ⟨_,rfl,rfl,rfl,rfl,ht,hl,fun hr => absurd hr hroute⟩

/-- The element of a good item offers its view to the route of its page. -/
theorem element_offers (py : Interpreter) {f : StoreFunction} (hf : agrees f = true)
    {it : f.Item} {v : String×String×String} (h : view py f it = some v) :
    ∃ members, f.element py it = .ok (.obj members) ∧ Offers (pageRoute f) members v := by
  cases f with
  | tweets =>
    simp only [view] at h
    split at h
    · cases h
    · rename_i hne
      cases h
      refine ⟨_,rfl,congrArg (fun t => some (Json.str t)) (if_neg hne),rfl,rfl,?_,?_,
        by simp [pageRoute]⟩
      · exact fun h => absurd (String.append_eq_empty_iff.mp h).2 (by decide)
      · exact fun h => absurd (String.append_eq_empty_iff.mp h).1 (by decide)
  | tools1 =>
    simp only [view] at h
    split at h
    · rename_i hne
      obtain ⟨ht,hl,hs,htne,hlne⟩ := strings_eq_some h
      refine ⟨_,rfl,?_,?_,?_,htne,hlne,fun _ => hs ▸ hne⟩
      · exact congrArg some ht
      · exact congrArg some hl
      · exact congrArg (fun x => some (Json.str x)) hs
    · cases h
  | fetchPapers => simp [agrees] at hf
  | hfDatasets => simp [agrees] at hf
  | hfSpaces => simp [agrees] at hf
  | tools => simp [agrees] at hf
  | _ => exact offers_resourceElement (by decide) h

/-- Every element is an object without an `_id`. -/
theorem element_object (py : Interpreter) {f : StoreFunction} (hf : agrees f = true)
    (it : f.Item) : ∃ members, f.element py it = .ok (.obj members) ∧
      members.lookup "_id" = none := by
  cases f <;> first | exact ⟨_,rfl,rfl⟩ | simp [agrees] at hf

/-! ### The effect of a store function -/

section Stores

variable {lib : Mongoose} {py : Interpreter} {wireSize : WireSize} {envs : ℕ → Env}
  {server : Server} {f : StoreFunction} {items : List f.Item} {elements : List Json}

theorem payload_withoutIds (hf : agrees f = true) (hp : f.payload py items = .ok elements) :
    WithoutIds elements := by
  have hall := gather_one_eq_ok.mp hp
  clear hp
  induction hall with
  | nil => simp [WithoutIds]
  | cons he _ ih =>
    obtain ⟨members,hm,hid⟩ := element_object py hf _
    rw [hm] at he
    cases he
    exact List.forall_mem_cons.mpr ⟨⟨members,rfl,hid⟩,ih⟩

/-- A storable payload is added to the collection behind the page. -/
theorem storeInDb_stored (hf : agrees f = true) (hp : f.payload py items = .ok elements)
    (hs : Storable lib wireSize (pageRoute f) elements)
    (hh : (envs 0).Healthy (server (pageRoute f))) :
    ∃ docs, lib.castAll (pageRoute f).schema (envs 0) 0 elements = some docs ∧
      f.storeInDb lib py wireSize envs items server =
        .ok (Function.update server (pageRoute f) (server (pageRoute f)++docs)) := by
  have hmount : mounts.lookup f.endpoint = some (pageRoute f) := by
    rw [endpoint_mounted,if_pos hf]
  obtain ⟨docs,hdocs,hok,hafter⟩ := handle_post_storable hmount hs (payload_withoutIds hf hp)
    hh.writes hh.distinct hh.unused
  refine ⟨docs,hdocs,?_⟩
  have hne : items ≠ [] := by
    rintro rfl
    cases hp
    exact hs.1 rfl
  rw [StoreFunction.storeInDb,hp,ok_bind]
  cases f with
  | newsApi =>
    have hfirst : (storeNewsapi lib wireSize elements 3 (fun k => .served (envs k) true)
        server).server = (newsServe lib wireSize elements (envs 0) server).2 :=
      postWithRetries_first (by decide) rfl hok
    exact congrArg Except.ok (hfirst.trans hafter)
  | spotify1 =>
    simp only [List.isEmpty_iff,hne,if_false]
    exact congrArg Except.ok hafter
  | tools1 =>
    simp only [List.isEmpty_iff,hne,if_false]
    exact congrArg Except.ok hafter
  | _ => exact congrArg Except.ok hafter

/-- Any other payload changes nothing. -/
theorem storeInDb_refused (hp : f.payload py items = .ok elements)
    (h : agrees f = true → ¬Storable lib wireSize (pageRoute f) elements) :
    f.storeInDb lib py wireSize envs items server = .ok server := by
  have hrefused : ∀ env, succeeds (handle lib env server
        (postRequest wireSize f.endpoint elements)).1 = false ∧
      (handle lib env server (postRequest wireSize f.endpoint elements)).2 = server := by
    intro env
    apply handle_post_refused
    intro route hroute
    rw [endpoint_mounted] at hroute
    split at hroute
    · rename_i hf
      cases hroute
      exact h hf
    · cases hroute
  rw [StoreFunction.storeInDb,hp,ok_bind]
  cases f with
  | newsApi => exact congrArg Except.ok (postLoop_refused hrefused 3 0 rfl)
  | spotify1 =>
    simp only
    split
    · rfl
    · exact congrArg Except.ok (hrefused (envs 0)).2
  | tools1 =>
    simp only
    split
    · rfl
    · exact congrArg Except.ok (hrefused (envs 0)).2
  | _ => exact congrArg Except.ok (hrefused (envs 0)).2

/-- The page gets every document of its collection. -/
theorem pageAnswer_eq {env : Env} (hr : env.readFails = false) :
    f.pageAnswer lib env server =
      ⟨200,some (.arr ((find (server (pageRoute f))).map lib.render))⟩ := by
  simp [StoreFunction.pageAnswer,handle,expressJson,getRequest,pageEndpoint_mounted,getHandler,hr]

/-! ### What a stored element shows -/

theorem titlePath_mem (route : Route) :
    (⟨"title",.string,true,false⟩ : SchemaPath) ∈ route.schema.paths := by
  cases route <;> decide

theorem linkPath_mem (route : Route) :
    (⟨"link",.string,true,false⟩ : SchemaPath) ∈ route.schema.paths := by
  cases route <;> decide

theorem summaryPath_mem (route : Route) :
    (⟨"summary",.string,decide (route = .tools1),false⟩ : SchemaPath) ∈ route.schema.paths := by
  cases route <;> decide

/-- The document of an element that offers a view shows it. -/
theorem shown_render {route : Route} {members : List (String×Json)} {v : String×String×String}
    (ho : Offers route members v) {now : Date} {generated : ObjectId}
    {doc : Document route.schema}
    (hd : lib.castDocument route.schema now generated (.obj members) = some doc) :
    shown (lib.render doc) = expected v := by
  have hvalue := Mongoose.castDocument_value? hd
  have htitle := hvalue _ (titlePath_mem route)
  rw [Mongoose.castPath_str rfl ho.title (fun _ => ho.titleSet)] at htitle
  have hlink := hvalue _ (linkPath_mem route)
  rw [Mongoose.castPath_str rfl ho.link (fun _ => ho.linkSet)] at hlink
  have hsummary := hvalue _ (summaryPath_mem route)
  rw [Mongoose.castPath_str rfl ho.summary
    (fun hr => ho.summarySet (of_decide_eq_true hr))] at hsummary
  rw [shown,lib.render_member? doc (by decide) (by decide),
    lib.render_member? doc (by decide) (by decide),lib.render_member? doc (by decide) (by decide),
    ← Option.some.inj htitle,← Option.some.inj hlink,← Option.some.inj hsummary]
  rfl

/-- The fields of an element besides title, link and summary can be cast. -/
def OptionalFieldsCast (lib : Mongoose) (route : Route) (element : Json) : Prop :=
  ∀ path ∈ route.schema.paths, path.name ∉ ["title","link","summary"] →
    (lib.castPath 0 path ((elementMembers element).getD [])).isSome = true

theorem viewPath_string (route : Route) : ∀ path ∈ route.schema.paths,
    path.name ∈ ["title","link","summary"] → path.type = .string ∧
      (path.name = "summary" → path.required = true → route = .tools1) := by
  cases route <;> decide

/-- An element that offers a view is accepted exactly when its other fields cast. -/
theorem accepts_iff {route : Route} {members : List (String×Json)} {v : String×String×String}
    (ho : Offers route members v) (hid : members.lookup "_id" = none) :
    lib.accepts route.schema (.obj members) = true ↔
      OptionalFieldsCast lib route (.obj members) := by
  simp only [Mongoose.accepts,elementMembers,Mongoose.castId,hid,Option.isSome_some,Bool.true_and,
    List.all_eq_true,OptionalFieldsCast,Option.getD_some]
  constructor
  · exact fun h path hp _ => h path hp
  · intro h path hp
    by_cases hname : path.name ∈ ["title","link","summary"]
    · obtain ⟨htype,hreq⟩ := viewPath_string route path hp hname
      simp only [List.mem_cons,List.not_mem_nil,or_false] at hname
      rcases hname with hn | hn | hn
      · rw [Mongoose.castPath_str htype (hn ▸ ho.title) (fun _ => ho.titleSet)]
        rfl
      · rw [Mongoose.castPath_str htype (hn ▸ ho.link) (fun _ => ho.linkSet)]
        rfl
      · rw [Mongoose.castPath_str htype (hn ▸ ho.summary)
          (fun hr => ho.summarySet (hreq hn hr))]
        rfl
    · exact h path hp hname

/-- Related lists have a partner for each element. -/
theorem partner_of_mem {α β : Type} {R : α → β → Prop} {l : List α} {l' : List β}
    (h : List.Forall₂ R l l') {a : α} (ha : a ∈ l) : ∃ b ∈ l', R a b := by
  induction h with
  | nil => cases ha
  | cons hab _ ih =>
    rcases List.mem_cons.mp ha with rfl | ha
    · exact ⟨_,List.mem_cons_self,hab⟩
    · obtain ⟨b,hb,hr⟩ := ih ha
      exact ⟨b,List.mem_cons_of_mem _ hb,hr⟩

/-- Where the endpoints agree, a payload is always built. -/
theorem payload_ok (py : Interpreter) (hf : agrees f = true) (items : List f.Item) :
    ∃ elements, f.payload py items = .ok elements := by
  apply gather_returns.mpr
  intro it _
  obtain ⟨members,hm,-⟩ := element_object py hf it
  exact ⟨[.obj members],by rw [hm]; rfl⟩

/-- The stored documents of a batch of good items show their views in order. -/
theorem map_shown_docs (hf : agrees f = true) (hp : f.payload py items = .ok elements)
    {views : List (String×String×String)}
    (hviews : List.Forall₂ (fun it v => view py f it = some v) items views)
    {env : Env} {i : ℕ} {docs : List (Document (pageRoute f).schema)}
    (hd : lib.castAll (pageRoute f).schema env i elements = some docs) :
    docs.map (fun doc => shown (lib.render doc)) = views.map expected := by
  have helements := gather_one_eq_ok.mp hp
  have hdocs := Mongoose.castAll_forall₂ hd
  clear hp hd
  induction hviews generalizing elements docs with
  | nil =>
    cases helements
    cases hdocs
    rfl
  | cons hv _ ih =>
    cases helements with
    | cons he helements =>
      cases hdocs with
      | cons hdoc hdocs =>
        obtain ⟨k,hk⟩ := hdoc
        obtain ⟨members,hm,ho⟩ := element_offers py hf hv
        rw [hm] at he
        cases he
        rw [List.map_cons,List.map_cons,shown_render ho hk,ih helements hdocs]

end Stores

/-! ### Delivery to the page -/

section Delivery

variable (lib : Mongoose) (py : Interpreter) (wireSize : WireSize) (envs : ℕ → Env)
  (server : Server) (f : StoreFunction) (items : List f.Item)

/-- After the store function has run, the page's endpoint returns what it
returned before and one document for each view. -/
def Delivered (views : List (String×String×String)) : Prop :=
  ∃ server' prior docs,
    f.storeInDb lib py wireSize envs items server = .ok server' ∧
    f.pageAnswer lib (envs 0) server = ⟨200,some (.arr prior)⟩ ∧
    f.pageAnswer lib (envs 0) server' = ⟨200,some (.arr docs)⟩ ∧
    (docs.map shown).Perm (prior.map shown++views.map expected)

/-- The endpoints agree, the encoded batch fits the body limit, and every
image, author and date in it casts to its path. -/
def Deliverable : Prop :=
  agrees f = true ∧ ∃ elements, f.payload py items = .ok elements ∧
    wireSize (.arr elements) ≤ bodyLimit ∧
    ∀ e ∈ elements, OptionalFieldsCast lib (pageRoute f) e

variable {lib py wireSize envs server f items} {views : List (String×String×String)}

/-- A server that is left as it was shows no new item. -/
theorem not_delivered_of_unchanged (hne : views ≠ [])
    (h : f.storeInDb lib py wireSize envs items server = .ok server) :
    ¬Delivered lib py wireSize envs server f items views := by
  rintro ⟨server',prior,docs,hstore,hprior,hdocs,hperm⟩
  rw [h] at hstore
  obtain rfl := Except.ok.inj hstore
  rw [hprior] at hdocs
  cases hdocs
  have hlen := hperm.length_eq
  simp only [List.length_append,List.length_map] at hlen
  exact hne (List.eq_nil_of_length_eq_zero (by omega))

/-- A storable batch of good items is delivered. -/
theorem delivered_of_storable (hf : agrees f = true) {elements : List Json}
    (hp : f.payload py items = .ok elements)
    (hs : Storable lib wireSize (pageRoute f) elements)
    (hh : (envs 0).Healthy (server (pageRoute f)))
    (hviews : List.Forall₂ (fun it v => view py f it = some v) items views) :
    Delivered lib py wireSize envs server f items views := by
  obtain ⟨docs,hdocs,hstore⟩ := storeInDb_stored hf hp hs hh
  refine ⟨_,_,_,hstore,pageAnswer_eq hh.reads,pageAnswer_eq hh.reads,?_⟩
  rw [Function.update_self,List.map_map,List.map_map,← map_shown_docs hf hp hviews hdocs]
  refine ((find_perm _).map _).trans ?_
  rw [List.map_append]
  exact List.Perm.append_right _ ((find_perm _).map _).symm

/-- The elements of good items are accepted when their other fields cast. -/
theorem storable_iff (hf : agrees f = true) (hne : items ≠ []) {elements : List Json}
    (hp : f.payload py items = .ok elements)
    (hviews : List.Forall₂ (fun it v => view py f it = some v) items views) :
    Storable lib wireSize (pageRoute f) elements ↔
      wireSize (.arr elements) ≤ bodyLimit ∧
        ∀ e ∈ elements, OptionalFieldsCast lib (pageRoute f) e := by
  have helements := gather_one_eq_ok.mp hp
  have haccept : ∀ e ∈ elements, (lib.accepts (pageRoute f).schema e = true ↔
      OptionalFieldsCast lib (pageRoute f) e) := by
    intro e he
    obtain ⟨it,hit,hite⟩ := partner_of_mem helements.flip he
    obtain ⟨v,-,hv⟩ := partner_of_mem hviews hit
    obtain ⟨members,hm,ho⟩ := element_offers py hf hv
    obtain ⟨members',hm',hid⟩ := element_object py hf it
    rw [hite] at hm hm'
    cases hm
    cases hm'
    exact accepts_iff ho hid
  have hnonempty : elements ≠ [] := by
    rintro rfl
    cases helements
    exact hne rfl
  constructor
  · rintro ⟨-,hfit,hall⟩
    exact ⟨hfit,fun e he => (haccept e he).mp (hall e he)⟩
  · rintro ⟨hfit,hall⟩
    exact ⟨hnonempty,hfit,fun e he => (haccept e he).mpr (hall e he)⟩

/-- For every store function and every nonempty list of items whose title,
link and summary are nonempty strings: the items are delivered to the page
exactly when the endpoints agree, the batch fits the body limit and its
optional fields cast. -/
theorem delivered_iff_deliverable (lib : Mongoose) (py : Interpreter) (wireSize : WireSize)
    (envs : ℕ → Env) (server : Server) (f : StoreFunction) (items : List f.Item)
    (views : List (String×String×String)) (hne : items ≠ [])
    (hviews : List.Forall₂ (fun it v => view py f it = some v) items views)
    (hh : (envs 0).Healthy (server (pageRoute f))) :
    Delivered lib py wireSize envs server f items views ↔
      Deliverable lib py wireSize f items := by
  have hvne : views ≠ [] := by
    rintro rfl
    cases hviews
    exact hne rfl
  constructor
  · intro h
    obtain ⟨server',prior,docs,hstore,-⟩ := id h
    obtain ⟨elements,hp,-⟩ := bind_eq_ok.mp hstore
    by_cases hdeliverable : agrees f = true ∧ Storable lib wireSize (pageRoute f) elements
    · obtain ⟨hf,hs⟩ := hdeliverable
      exact ⟨hf,elements,hp,(storable_iff hf hne hp hviews).mp hs⟩
    · exact absurd h (not_delivered_of_unchanged hvne
        (storeInDb_refused hp (fun hf hs => hdeliverable ⟨hf,hs⟩)))
  · rintro ⟨hf,elements,hp,hcast⟩
    exact delivered_of_storable hf hp ((storable_iff hf hne hp hviews).mpr hcast) hh hviews

/-- One paper with a title, a link and a summary. -/
def samplePaper : Summarised PaperItem := ⟨{
  keyword := "ai", title := .str "Proofs", authors := .arr [.str "A",.str "B"],
  abstract := .str "an abstract", date := .str "2025-01-20",
  url := .str "https://arxiv.org/pdf/1", relevanceScore := .int 3, image := "No image",
  createdAt := sampleTime },"A summary."⟩

/-- Its default endpoint is not mounted, so it is not delivered. -/
theorem samplePaper_not_delivered :
    view sampleInterpreter .fetchPapers samplePaper =
        some ("Proofs","https://arxiv.org/pdf/1","A summary.") ∧
      ¬Delivered sampleMongoose sampleInterpreter (fun _ => 500) (fun _ => sampleEnv 1)
        emptyServer .fetchPapers [samplePaper]
        [("Proofs","https://arxiv.org/pdf/1","A summary.")] :=
  ⟨rfl,not_delivered_of_unchanged (by simp) rfl⟩

/-- One post of dev.to. -/
def samplePost : Summarised DevtoItem := ⟨{
  keyword := "ai", title := .str "Agents", url := .str "https://dev.to/a",
  author := .str "A. Writer", description := .str "a post", relevanceScore := .int 3,
  image := .str "No image", createdAt := sampleTime },"A post."⟩

/-- The positions of a batch get different ids. -/
theorem sampleEnv_distinct (base i j : ℕ)
    (hij : (sampleEnv base).newId i = (sampleEnv base).newId j) : i = j := by
  change base+i = base+j at hij
  omega

theorem sampleEnv_healthy (base : ℕ) (route : Route) :
    (sampleEnv base).Healthy (emptyServer route) :=
  ⟨fun _ => rfl,rfl,sampleEnv_distinct base,by simp [emptyServer]⟩

theorem delivered_iff_deliverable_samplePost :
    Delivered sampleMongoose sampleInterpreter (fun _ => 500) (fun _ => sampleEnv 1)
      emptyServer .devto [samplePost] [("Agents","https://dev.to/a","A post.")] := by
  refine (delivered_iff_deliverable sampleMongoose sampleInterpreter (fun _ => 500)
    (fun _ => sampleEnv 1) emptyServer .devto [samplePost] [("Agents","https://dev.to/a","A post.")]
    (by simp) (List.Forall₂.cons rfl List.Forall₂.nil)
    (sampleEnv_healthy 1 (pageRoute .devto))).mpr ?_
  refine ⟨rfl,_,rfl,by decide,?_⟩
  intro e he
  obtain rfl := List.mem_singleton.mp he
  intro path hp _
  revert path
  decide

end Delivery

/-! ### The good items of a batch -/

section Batches

variable (lib : Mongoose) (py : Interpreter) (wireSize : WireSize) (envs : ℕ → Env)
  (server : Server) (f : StoreFunction) (items : List f.Item)

/-- After the store call, every item with a title and a link (and a tool with
a summary) is among the documents the call added. -/
def KeepsGood : Prop :=
  ∃ server' added, f.storeInDb lib py wireSize envs items server = .ok server' ∧
    server' (pageRoute f) = server (pageRoute f)++added ∧
    ∀ it ∈ items, ∀ v, view py f it = some v →
      ∃ doc ∈ added, shown (lib.render doc) = expected v

/-- The encoded batch fits the body limit and the model accepts every element. -/
def WholeBatchAccepted : Prop :=
  ∃ elements, f.payload py items = .ok elements ∧ wireSize (.arr elements) ≤ bodyLimit ∧
    ∀ e ∈ elements, lib.accepts (pageRoute f).schema e = true

variable {lib py wireSize envs server f items}

theorem keepsGood_of_accepted (hf : agrees f = true) (hne : items ≠ [])
    (hh : (envs 0).Healthy (server (pageRoute f)))
    (h : WholeBatchAccepted lib py wireSize f items) :
    KeepsGood lib py wireSize envs server f items := by
  obtain ⟨elements,hp,hfit,haccept⟩ := h
  have helements := gather_one_eq_ok.mp hp
  have hnonempty : elements ≠ [] := by
    rintro rfl
    cases helements
    exact hne rfl
  obtain ⟨docs,hdocs,hstore⟩ := storeInDb_stored hf hp ⟨hnonempty,hfit,haccept⟩ hh
  refine ⟨_,docs,hstore,Function.update_self _ _ _,?_⟩
  intro it hit v hv
  obtain ⟨e,he,hite⟩ := partner_of_mem helements hit
  obtain ⟨doc,hdoc,k,hk⟩ := partner_of_mem (Mongoose.castAll_forall₂ hdocs) he
  obtain ⟨members,hm,ho⟩ := element_offers py hf hv
  rw [hite] at hm
  cases hm
  exact ⟨doc,hdoc,shown_render ho hk⟩

/-- A call that changes nothing keeps no good item. -/
theorem keepsGood_of_unchanged (h : f.storeInDb lib py wireSize envs items server = .ok server) :
    KeepsGood lib py wireSize envs server f items ↔ ∀ it ∈ items, view py f it = none := by
  constructor
  · rintro ⟨server',added,hstore,hadded,hgood⟩ it hit
    rw [h] at hstore
    obtain rfl := Except.ok.inj hstore
    obtain rfl := List.self_eq_append_right.mp hadded
    cases hv : view py f it with
    | none => rfl
    | some v =>
      obtain ⟨doc,hdoc,-⟩ := hgood it hit v hv
      cases hdoc
  · intro hnone
    refine ⟨server,[],h,by simp,?_⟩
    intro it hit v hv
    rw [hnone it hit] at hv
    cases hv

/-- Where the endpoints agree, acceptance of the whole batch decides. -/
theorem keepsGood_iff (hf : agrees f = true) (hh : (envs 0).Healthy (server (pageRoute f))) :
    KeepsGood lib py wireSize envs server f items ↔
      WholeBatchAccepted lib py wireSize f items ∨ ∀ it ∈ items, view py f it = none := by
  obtain ⟨elements,hp⟩ := payload_ok py hf items
  by_cases hs : Storable lib wireSize (pageRoute f) elements
  · have hne : items ≠ [] := by
      rintro rfl
      cases hp
      exact hs.1 rfl
    have haccepted : WholeBatchAccepted lib py wireSize f items := ⟨elements,hp,hs.2⟩
    exact ⟨fun _ => Or.inl haccepted,fun _ => keepsGood_of_accepted hf hne hh haccepted⟩
  · rw [keepsGood_of_unchanged (storeInDb_refused hp (fun _ => hs))]
    constructor
    · exact Or.inr
    · rintro (⟨elements',hp',hfit,haccept⟩ | hnone)
      · rw [hp] at hp'
        obtain rfl := Except.ok.inj hp'
        have hnil : elements = [] := by
          by_contra hne
          exact hs ⟨hne,hfit,haccept⟩
        subst hnil
        have helements := gather_one_eq_ok.mp hp
        cases helements
        simp
      · exact hnone

/-- For every list of podcasts, tools, repositories or articles: the good items
are in the collection after the store call exactly when the whole batch is
accepted, or there is no good item. -/
theorem goodItems_kept_iff (lib : Mongoose) (py : Interpreter) (wireSize : WireSize)
    (envs : ℕ → Env) (server : Server) (f : StoreFunction)
    (hf : f ∈ ([.spotify1,.tools1,.github,.newsApi] : List StoreFunction))
    (items : List f.Item) (hh : (envs 0).Healthy (server (pageRoute f))) :
    KeepsGood lib py wireSize envs server f items ↔
      WholeBatchAccepted lib py wireSize f items ∨ ∀ it ∈ items, view py f it = none := by
  have hagrees : agrees f = true := by
    revert hf
    cases f <;> decide
  exact keepsGood_iff hagrees hh

end Batches

/-! ### A show without a link -/

/-- Two shows of one search, the second without external URLs. -/
def sampleShowsSearch (_ _ : String) : Py HttpResponse := .ok ⟨200,.ok (.obj [("shows",.obj
  [("items",.arr [
    .obj [("name",.str "Talks"),("description",.str "weekly"),
      ("external_urls",.obj [("spotify",.str "https://open.spotify.com/show/1")])],
    .obj [("name",.str "Notes"),("description",.str "monthly")]])])])⟩

/-- What the collector makes of a show. -/
def sampleShowItem (name description link : String) : Summarised PodcastItem := ⟨{
  keyword := "ai", name := .str name, description := .str description, publisher := .str "",
  link := .str link, popularity := .int 0, relevanceScore := .int 50, image := "No image",
  createdAt := sampleTime },"A show."⟩

/-- The two collected shows. -/
def sampleShowItems : List (Summarised PodcastItem) := [
  sampleShowItem "Talks" "weekly" "https://open.spotify.com/show/1",
  sampleShowItem "Notes" "monthly" ""]

/-- The podcast collector returns both shows, the first of them good, and
neither is stored. -/
theorem linklessShow_discards_batch :
    getAiPodcastsAllKeywords sampleInterpreter 0 (fun _ _ => .ok "A show.") (.ok "")
        sampleShowsSearch ["ai"] = .ok sampleShowItems ∧
      ¬KeepsGood sampleMongoose sampleInterpreter (fun _ => 500) (fun _ => sampleEnv 1)
        emptyServer .spotify1 sampleShowItems := by
  constructor
  · have hcollect : collectPodcasts sampleInterpreter 0 (sampleShowsSearch "") ["ai"] =
        .ok (sampleShowItems.map Summarised.item) := rfl
    rw [getAiPodcastsAllKeywords,ok_bind,hcollect,ok_bind,
      sortReverse_returns_of_num (by simp [sampleShowItems,sampleShowItem,num?]),ok_bind,
      StableRanking.sortDesc_of_pairwise _ (by simp [sampleShowItems,sampleShowItem])]
    rfl
  have hrefused : ∀ elements, StoreFunction.spotify1.payload sampleInterpreter sampleShowItems =
      .ok elements → ¬Storable sampleMongoose (fun _ => 500) .spotify1 elements := by
    rintro elements helements ⟨-,-,haccepts⟩
    cases helements
    have hlast := haccepts _ (List.mem_cons_of_mem _ List.mem_cons_self)
    revert hlast
    decide
  intro hkeeps
  have hgood := (keepsGood_of_unchanged (storeInDb_refused rfl fun _ => hrefused _ rfl)).mp
    hkeeps _ List.mem_cons_self
  revert hgood
  decide

/-- A show whose name is a number. -/
def numberedShow : Summarised PodcastItem :=
  { sampleShowItem "" "daily" "https://open.spotify.com/show/42" with item.name := .int 42 }

/-- With it the batch is stored, and so the good show. -/
theorem goodItems_kept_iff_numberedShow :
    view sampleInterpreter .spotify1 numberedShow = none ∧
    KeepsGood sampleMongoose sampleInterpreter (fun _ => 500) (fun _ => sampleEnv 1) emptyServer
      .spotify1 [sampleShowItem "Talks" "weekly" "https://open.spotify.com/show/1",numberedShow] := by
  refine ⟨rfl,(goodItems_kept_iff sampleMongoose sampleInterpreter (fun _ => 500)
    (fun _ => sampleEnv 1) emptyServer .spotify1 (by decide) _
    (sampleEnv_healthy 1 .spotify1)).mpr (Or.inl ⟨_,rfl,by decide,?_⟩)⟩
  intro e he
  rcases List.mem_pair.mp he with rfl | rfl <;> decide

end Senca.StoreDelivery
