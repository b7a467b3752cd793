import Senca.PageSearch
import Senca.ServerRoutes

/-!
# Searching what the server stores

The documents of a router, as its GET sends them and as the page that shows
them holds them, under the search condition of that page. The schemas name
the descriptive text `summary` and the author `resourceBy`; the pages search
`description` and `author`.
-/

namespace Senca.StoredSearch

open BrowserRuntime JsonValue MongooseStore PageLoading PageSearch ServerRoutes

/-- The path under which a router is mounted. -/
def mountPath : Route → String
  | .devto => "/api/devto-resources"
  | .github => "/api/github-resources"
  | .youtube => "/api/youtube-resources"
  | .huggingface => "/api/huggingface-resources"
  | .fetchpapers => "/api/papers-resources"
  | .newsapi => "/api/newsapi-resources"
  | .spotify1 => "/api/spotify1-resources"
  | .scrape => "/api/arxiv-resources"
  | .tweets => "/api/tweet-resources"
  | .tools1 => "/api/tools1-resources"

theorem mounts_mountPath (route : Route) : mounts.lookup (mountPath route) = some route := by
  cases route <;> decide

/-- The page that fetches from a router. -/
def pageOf : Route → Page
  | .devto | .github | .huggingface | .newsapi => .blogsRepos
  | .fetchpapers | .scrape => .researchPapers
  | .tools1 => .tutorials
  | .spotify1 | .tweets | .youtube => .tweetsPodcastsVideos

/-- What the page of a router makes of a resource it receives from it. -/
def shownForm (route : Route) (item : Resource) : Resource :=
  match (pageOf route).endpoints.lookup (mountPath route) with
  | some mark => mark item
  | none => item

/-- The page of a router fetches from the router's path. -/
theorem mountPath_endpoint (route : Route) :
    ∃ mark, (pageOf route).endpoints.lookup (mountPath route) = some mark := by
  cases route <;> exact ⟨_,rfl⟩

/-- The term occurs in the text stored at a path. -/
def storedIncludes (browser : Browser) (searchTerm : String) {schema : Schema}
    (doc : Document schema) (name : String) : Bool :=
  match doc.value? name with
  | some (.str s) => includes (browser.toLowerCase s) (browser.toLowerCase searchTerm)
  | _ => false

/-- The search sees a stored document: when the term occurs in its title, its
summary or the name it is by, the document passes the search of its page. -/
def SeesStored (lib : Mongoose) (browser : Browser) (route : Route)
    (doc : Document route.schema) (searchTerm : String) : Prop :=
  ["title","summary","resourceBy"].any (storedIncludes browser searchTerm doc) = true →
    matchesSearch browser (pageOf route) searchTerm (shownForm route (lib.members doc)) =
      .ok true

section Documents

variable (lib : Mongoose) {route : Route} (doc : Document route.schema)

/-- Pages change no member but the source and two dates. -/
theorem field_shownForm {name : String} (hn : name ∉ ["dataSource","createdAt","date"])
    (item : Resource) : field (shownForm route item) name = field item name := by
  obtain ⟨mark,hmark⟩ := mountPath_endpoint route
  obtain ⟨before,after,hsplit,-⟩ := List.lookup_eq_some_iff.mp hmark
  rw [shownForm,hmark]
  exact field_mark (e := (mountPath route,mark)) (by rw [hsplit]; simp) hn item

/-- A stored document arrives with its title. -/
theorem field_title : ∃ s, doc.value? "title" = some (.str s) ∧
    field (shownForm route (lib.members doc)) "title" = some (.str s) := by
  have hpath : ⟨"title",.string,true,false⟩ ∈ route.schema.paths := by
    cases route <;> exact List.mem_cons_self
  obtain ⟨s,-,hs⟩ := doc.value?_required hpath rfl rfl
  refine ⟨s,hs,?_⟩
  rw [field_shownForm (by decide),field,lib.members_lookup doc (by decide) (by decide),hs]
  rfl

/-- The members searched beside the title are in no schema. -/
theorem field_outside {name : String} (hn : name ∈ ["description","author"]) :
    field (shownForm route (lib.members doc)) name = none := by
  have houtside : name ∉ route.schema.paths.map SchemaPath.name := by
    simp only [List.mem_cons,List.not_mem_nil,or_false] at hn
    rcases hn with rfl | rfl <;> cases route <;> decide
  have hkeys : name ∉ ["dataSource","createdAt","date"] ∧ name ≠ "_id" ∧ name ≠ "__v" := by
    simp only [List.mem_cons,List.not_mem_nil,or_false] at hn
    rcases hn with rfl | rfl <;> decide
  rw [field_shownForm hkeys.1,field,lib.members_lookup doc hkeys.2.1 hkeys.2.2,
    doc.value?_eq_none houtside]
  rfl

/-- What the server stores is searchable. -/
theorem searchable_stored : Searchable (shownForm route (lib.members doc)) := by
  obtain ⟨s,-,hs⟩ := field_title lib doc
  have hnone : ∀ name ∈ ["description","author"],
      Textual (shownForm route (lib.members doc)) name := by
    intro name hn value hv
    rw [field_outside lib doc hn] at hv
    cases hv
  exact ⟨⟨s,hs⟩,hnone _ (by decide),hnone _ (by decide)⟩

/-- Of a stored document the search finds the title and nothing else. -/
theorem found_stored (browser : Browser) (searchTerm : String) :
    Found browser searchTerm (shownForm route (lib.members doc)) =
      storedIncludes browser searchTerm doc "title" := by
  obtain ⟨s,hvalue,hs⟩ := field_title lib doc
  have hdescription : field (shownForm route (lib.members doc)) "description" = none :=
    field_outside lib doc (by decide)
  have hauthor : field (shownForm route (lib.members doc)) "author" = none :=
    field_outside lib doc (by decide)
  simp only [Found,List.any_cons,List.any_nil,occurs,storedIncludes,hs,hvalue,hdescription,
    hauthor,Bool.or_false]

end Documents

/-- For every document a router can hold and every term: the search of its page
sees the document exactly when the term occurs in the title, or in neither
the summary nor the name it is by. -/
theorem seesStored_iff (lib : Mongoose) (browser : Browser) (route : Route)
    (doc : Document route.schema) (searchTerm : String) :
    SeesStored lib browser route doc searchTerm ↔
      storedIncludes browser searchTerm doc "title" = true ∨
        storedIncludes browser searchTerm doc "summary" = false ∧
          storedIncludes browser searchTerm doc "resourceBy" = false := by
  rw [SeesStored,matchesSearch_searchable (searchable_stored lib doc),found_stored]
  simp only [List.any_cons,List.any_nil,Except.ok.injEq]
  cases storedIncludes browser searchTerm doc "title" <;>
    cases storedIncludes browser searchTerm doc "summary" <;>
      cases storedIncludes browser searchTerm doc "resourceBy" <;> decide

/-- A post on a subject its title does not name. -/
def weeklyPost : Request := ⟨.post,"/api/devto-resources",some (.arr [.obj [
  ("title",.str "Weekly"),("link",.str "https://dev.to/a"),("image",.str "No image"),
  ("summary",.str "All about agents."),("resourceBy",.str "A. Writer"),
  ("createdAt",.str sampleTime)]]),200⟩

/-- It is stored, and the search for its subject misses it. -/
theorem weeklyPost_not_seen :
    ¬∀ doc ∈ (handle sampleMongoose (sampleEnv 1) emptyServer weeklyPost).2 .devto,
      SeesStored sampleMongoose sampleBrowser .devto doc "agents" := by
  unfold SeesStored
  decide +kernel

end Senca.StoredSearch
