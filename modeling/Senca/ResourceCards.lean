import Senca.CardDates
import Senca.StoreDelivery
import Senca.StoredSearch

/-!
# The card of a resource

All that `ResourceCard.js` computes from a resource: the picture and its
fallbacks, the date badge, the texts React is given as children and the
address a click opens. Every step can throw on some JSON value; on what a
router stores none does, whatever was posted.
-/

namespace Senca.ResourceCards

open BrowserRuntime CardDates JsonValue MongooseStore PageLoading ServerRoutes StoredSearch

/-! ### ResourceCard.js -/

/-- A browser that also writes dates. -/
structure CardBrowser extends Browser where
  /-- `date.toLocaleDateString('en-US', …)`, none being an invalid date. -/
  toLocaleDateString : Option ℤ → String

/-- The picture of a card: an imported file or the address of an image. -/
inductive Picture where
  | blog1
  | blog2
  | blog3
  | blog4
  | blog5
  | blog7
  /-- `resource.image`. -/
  | own (image : String)
  deriving DecidableEq

/-- `value.method` of a truthy value: among JSON values only strings have it. -/
def textMethod (value : Option Json) (method : String) : Js String :=
  match value with
  | some (.str s) => pure s
  | _ => throw ⟨method++" is not a function"⟩

/-- `link.startsWith('/api/')`. -/
def startsWithApi (link : String) : Bool := "/api/".toList.isPrefixOf link.toList

/-- The `switch` over the endpoint of an API link. -/
def endpointPicture : Option String → Picture
  | some "devto-resources" => .blog1
  | some "github-resources" => .blog1
  | some "huggingface-resources" => .blog1
  | some "newsapi-resources" => .blog1
  | some "papers-resources" => .blog2
  | some "arxiv-resources" => .blog2
  | some "spotify1-resources" => .blog5
  | some "tweet-resources" => .blog3
  | some "youtube-resources" => .blog4
  | some "tools1-resources" => .blog7
  | _ => .blog1

/-- The tests of `getDefaultImage` on a link outside the API. -/
def hostPicture (link : String) : Picture :=
  if includes link "spotify.com" then .blog5
  else if includes link "twitter.com" then .blog3
  else if includes link "youtube.com" then .blog4
  else if includes link "arxiv.org" then .blog2
  else .blog1

/-- `getDefaultImage`. -/
def getDefaultImage (pathname : String) (link : Option Json) : Js Picture :=
  if pathname = "/tutorials" then pure .blog7
  else if !truthy link then pure .blog1
  else do
    let link ← textMethod link "link.startsWith"
    if startsWithApi link then
      pure (endpointPicture (((link.toList.splitOn '/')[2]?).map String.ofList))
    else pure (hostPicture link)

/-- `displayImage`. -/
def displayImage (browser : Browser) (pathname : String) (image link : Option Json) :
    Js Picture :=
  if !truthy image then getDefaultImage pathname link
  else do
    let image ← textMethod image "image.toLowerCase"
    if includes (browser.toLowerCase image) "no image" then getDefaultImage pathname link
    else pure (.own image)

/-- `text.replace(/(\d+)/, '$1th')`. -/
def withOrdinal (text : String) : String :=
  let before := text.toList.takeWhile (fun c => !c.isDigit)
  let rest := text.toList.dropWhile (fun c => !c.isDigit)
  let digits := rest.takeWhile Char.isDigit
  if digits = [] then text
  else String.ofList (before++digits++"th".toList++rest.dropWhile Char.isDigit)

mutual

/-- React renders the value as a child; an object it refuses. -/
def isChild : Json → Bool
  | .arr items => areChildren items
  | .obj _ => false
  | _ => true

/-- The same of the items of an array. -/
def areChildren : List Json → Bool
  | [] => true
  | value::rest => isChild value && areChildren rest

end

/-- `{value}` between two tags. -/
def child (value : Option Json) : Js (Option Json) :=
  if value.all isChild then pure value
  else throw ⟨"Objects are not valid as a React child"⟩

/-- What a card shows. -/
structure Card where
  /-- The picture on the left. -/
  picture : Picture
  /-- The heading. -/
  title : Option Json
  /-- The text of the date badge, none without a badge. -/
  badge : Option String
  /-- The text below. -/
  summary : Option Json

/-- `ResourceCard` up to the state of the pointer. -/
def resourceCard (browser : CardBrowser) (pathname : String) (resource : Resource) :
    Js Card := do
  let isTools ← isToolsResource pathname resource
  let dateToDisplay ← getResourceDate browser.toBrowser pathname resource
  let formattedDate := dateToDisplay.map (fun date =>
    withOrdinal (browser.toLocaleDateString date))
  let picture ← displayImage browser.toBrowser pathname (field resource "image")
    (field resource "link")
  let title ← child (field resource "title")
  let summary ← child (field resource "summary")
  pure {
    picture := picture
    title := title
    badge := if isTools then none else formattedDate.filter (· ≠ "")
    summary := summary }

/-- `getClickableLink`. -/
def getClickableLink (resource : Resource) (link : Option Json) : Js (Option Json) :=
  if !truthy link then pure (some (.str "#"))
  else do
    let text ← textMethod link "link.startsWith"
    if startsWithApi text then pure (field resource "link")
    else pure link

/-- `url && url !== '#'`. -/
def opens (url : Option Json) : Bool :=
  match url with
  | some (.str "#") => false
  | url => truthy url

/-- `handleCardClick`: the address handed to `window.open`, if it is called. -/
def handleCardClick (resource : Resource) : Js (Option Json) := do
  let url ← getClickableLink resource (field resource "link")
  if opens url then pure url else pure none

/-! ### Links that are texts -/

section Links

variable {browser : CardBrowser} {pathname : String} {resource : Resource} {link : String}

/-- The fallback picture of a nonempty link. -/
def fallbackPicture (pathname link : String) : Picture :=
  if pathname = "/tutorials" then .blog7
  else if startsWithApi link then
    endpointPicture (((link.toList.splitOn '/')[2]?).map String.ofList)
  else hostPicture link

theorem truthy_str {s : String} (h : s ≠ "") : truthy (some (.str s)) = true := by
  simp [truthy,h]

theorem getDefaultImage_str (hlink : link ≠ "") :
    getDefaultImage pathname (some (.str link)) = .ok (fallbackPicture pathname link) := by
  rw [getDefaultImage,fallbackPicture,truthy_str hlink]
  split
  · rfl
  · simp only [Bool.not_true,Bool.false_eq_true,if_false,textMethod]
    by_cases hapi : startsWithApi link = true
    · simp [hapi]
    · simp [hapi]

/-- The picture of a resource whose image is a text, null or absent. -/
def pictureOf (browser : Browser) (pathname link : String) : Option Json → Picture
  | some (.str image) =>
    if image = "" ∨ includes (browser.toLowerCase image) "no image" = true then
      fallbackPicture pathname link
    else .own image
  | _ => fallbackPicture pathname link

theorem displayImage_of_textual (browser : Browser) (hlink : link ≠ "") {image : Option Json}
    (himage : ∀ value, image = some value → value = .null ∨ ∃ s, value = .str s) :
    displayImage browser pathname image (some (.str link)) =
      .ok (pictureOf browser pathname link image) := by
  cases image with
  | none => exact getDefaultImage_str hlink
  | some value =>
    rcases himage value rfl with rfl | ⟨s,rfl⟩
    · exact getDefaultImage_str hlink
    · rw [displayImage,pictureOf]
      by_cases hs : s = ""
      · subst hs
        exact getDefaultImage_str hlink
      · rw [truthy_str hs]
        simp only [Bool.not_true,Bool.false_eq_true,if_false,textMethod,hs,false_or]
        change (if includes (browser.toLowerCase s) "no image" = true then _ else _) = _
        by_cases hno : includes (browser.toLowerCase s) "no image" = true
        · rw [if_pos hno,if_pos hno]
          exact getDefaultImage_str hlink
        · rw [if_neg hno,if_neg hno]
          rfl

/-- A click opens a nonempty link, unless it is the placeholder. -/
theorem handleCardClick_str (h : field resource "link" = some (.str link)) (hlink : link ≠ "") :
    handleCardClick resource = .ok (if link = "#" then none else some (.str link)) := by
  have hurl : getClickableLink resource (field resource "link") = .ok (some (.str link)) := by
    rw [getClickableLink,h,truthy_str hlink]
    simp only [Bool.not_true,Bool.false_eq_true,if_false,textMethod]
    by_cases hapi : startsWithApi link = true
    · simp [hapi,pure,Except.pure,bind,Except.bind]
    · simp [hapi,pure,Except.pure,bind,Except.bind]
  rw [handleCardClick,hurl]
  by_cases hplaceholder : link = "#"
  · subst hplaceholder
    rfl
  · have hopens : opens (some (.str link)) = true := by
      unfold opens
      split
      · rename_i heq
        exact absurd (by injection heq with h; injection h) hplaceholder
      · exact truthy_str hlink
    rw [if_neg hplaceholder]
    change (if opens (some (.str link)) = true then _ else _) = _
    rw [if_pos hopens]
    rfl

end Links

/-! ### Stored documents -/

/-- The path of a page in `App.js`. -/
def pagePath : Page → String
  | .blogsRepos => "/blogs-repos"
  | .researchPapers => "/research-papers"
  | .tutorials => "/tutorials"
  | .tweetsPodcastsVideos => "/tweets-podcasts-videos"

section Documents

variable (lib : Mongoose) (browser : CardBrowser) {route : Route} (doc : Document route.schema)

/-- The JSON form of the value at a path. -/
def rendered (name : String) : Option Json := (doc.value? name).map lib.renderValue

/-- The text of the date a document was created at. -/
def createdText : Option String :=
  ((shownDate browser.toBrowser (rendered lib doc "createdAt")).map (fun date =>
    withOrdinal (browser.toLocaleDateString date))).filter (· ≠ "")

/-- The card of a stored document: its own texts, its image unless that is
missing or says there is none, and the date it was created at unless it is a
tool or links to the tools list. -/
def storedCard (title link : String) : Card where
  picture := pictureOf browser.toBrowser (pagePath (pageOf route)) link
    (rendered lib doc "image")
  title := some (.str title)
  badge :=
    if pageOf route = .tutorials ∨ includes link "tools1-resources" = true then none
    else createdText lib browser doc
  summary := rendered lib doc "summary"

/-- The page of a document shows it, and a click on it leads to its link. -/
structure CardOf (title link : String) : Prop where
  titleStored : doc.value? "title" = some (.str title)
  linkStored : doc.value? "link" = some (.str link)
  shows : resourceCard browser (pagePath (pageOf route))
    (shownForm route (lib.members doc)) = .ok (storedCard lib browser doc title link)
  clicked : handleCardClick (shownForm route (lib.members doc)) =
    .ok (if link = "#" then none else some (.str link))

variable {doc} {lib}

theorem field_rendered {name : String}
    (hn : name ∉ ["dataSource","createdAt","date","_id","__v"]) :
    field (shownForm route (lib.members doc)) name = rendered lib doc name := by
  simp only [List.mem_cons,not_or,List.not_mem_nil] at hn
  rw [field_shownForm (by simp [hn]),field,lib.members_lookup doc hn.2.2.2.1 hn.2.2.2.2.1]
  rfl

/-- Whatever is stored is sent as a text or as null. -/
theorem rendered_textual {name : String} {value : Json}
    (h : rendered lib doc name = some value) : value = .null ∨ ∃ s, value = .str s := by
  obtain ⟨stored,-,rfl⟩ := Option.map_eq_some_iff.mp h
  cases stored with
  | null => exact .inl rfl
  | str s => exact .inr ⟨s,rfl⟩
  | date d => exact .inr ⟨lib.isoOfDate d,rfl⟩

theorem rendered_eq_none {name : String} (hn : name ∉ resourcePaths.map SchemaPath.name) :
    rendered lib doc name = none := by
  have houtside : name ∉ route.schema.paths.map SchemaPath.name := by
    simp only [resourcePaths,List.map_cons,List.map_nil,List.mem_cons,not_or] at hn
    cases route <;> simp [Route.schema,devtoResourceSchema,githubResourceSchema,
      youtubeResourceSchema,huggingFaceResourceSchema,fetchPapersResourceSchema,
      newsApiResourceSchema,spotify1ResourceSchema,scrapeResourceSchema,tweetsResourceSchema,
      tools1ResourceSchema,resourceSchema,resourcePaths,toolPaths,hn]
  rw [rendered,doc.value?_eq_none houtside]
  rfl

/-- Only the tools page removes dates. -/
theorem field_createdAt (hpage : pageOf route ≠ .tutorials) {name : String}
    (hn : name ≠ "dataSource") (item : Resource) :
    field (shownForm route item) name = field item name := by
  cases route <;> first
    | exact absurd rfl hpage
    | rfl
    | exact lookup_setMember_ne _ _ hn

/-- The one date field of a document is the one it was created at. -/
theorem possibleDateFields_stored (hpage : pageOf route ≠ .tutorials) :
    possibleDateFields (shownForm route (lib.members doc)) =
      [none,rendered lib doc "createdAt",none,none,none,none,none,none,none] := by
  have hfield : ∀ {name : String}, name ≠ "dataSource" → name ≠ "_id" → name ≠ "__v" →
      field (shownForm route (lib.members doc)) name = rendered lib doc name := by
    intro name hsource hid hv
    rw [field_createdAt hpage hsource,field,lib.members_lookup doc hid hv]
    rfl
  have houtside : ∀ name, name ∉ resourcePaths.map SchemaPath.name →
      rendered lib doc name = none := fun _ => rendered_eq_none
  rw [possibleDateFields]
  iterate 9 rw [hfield (by decide) (by decide) (by decide)]
  rw [houtside "publishedAt" (by decide),houtside "date" (by decide),
    houtside "created_at" (by decide),houtside "published_at" (by decide),
    houtside "timestamp" (by decide),houtside "snippet" (by decide),
    houtside "pubDate" (by decide),houtside "published_time" (by decide)]
  rfl

theorem shownDate_stored (hpage : pageOf route ≠ .tutorials) :
    shownDate browser.toBrowser
        ((possibleDateFields (shownForm route (lib.members doc))).find? present).join =
      shownDate browser.toBrowser (rendered lib doc "createdAt") := by
  rw [possibleDateFields_stored hpage,List.find?_cons_of_neg (by decide)]
  cases hpresent : present (rendered lib doc "createdAt") with
  | true =>
    rw [List.find?_cons_of_pos hpresent]
    rfl
  | false =>
    have hfalsy : truthy (rendered lib doc "createdAt") = false :=
      Bool.eq_false_of_not_eq_true fun htruthy => by
        rw [present_of_truthy htruthy] at hpresent
        cases hpresent
    rw [List.find?_cons_of_neg (by rw [hpresent]; decide),shownDate_of_falsy hfalsy]
    rfl

/-- What the tweets page sorts a document by. -/
theorem dateField_stored (hpage : pageOf route ≠ .tutorials) :
    dateField (shownForm route (lib.members doc)) =
      if truthy (rendered lib doc "createdAt") = true then rendered lib doc "createdAt"
      else none := by
  have hfields : dateFields (shownForm route (lib.members doc)) =
      [none,rendered lib doc "createdAt",none,none,none,none,none,none] := by
    have h : dateFields (shownForm route (lib.members doc))++
          [field (shownForm route (lib.members doc)) "published_time"] =
        [none,rendered lib doc "createdAt",none,none,none,none,none,none]++[none] :=
      possibleDateFields_stored hpage
    exact (List.append_inj' h rfl).1
  change firstTruthy (dateFields _) = _
  rw [hfields]
  rfl

/-- The page can make a date of it. -/
theorem datable_stored (hpage : pageOf route ≠ .tutorials) :
    Datable (shownForm route (lib.members doc)) = true := by
  rw [Datable,dateField_stored hpage]
  split
  · cases hcreated : rendered lib doc "createdAt" with
    | none => rfl
    | some value => rcases rendered_textual hcreated with rfl | ⟨s,rfl⟩ <;> rfl
  · rfl

theorem child_of_textual {value : Option Json}
    (h : ∀ v, value = some v → v = .null ∨ ∃ s, v = .str s) : child value = .ok value := by
  cases value with
  | none => rfl
  | some v => rcases h v rfl with rfl | ⟨s,rfl⟩ <;> rfl

/-- The test for a tool on a stored document. -/
theorem isToolsResource_stored {item : Resource} {link : String}
    (hlink : field item "link" = some (.str link)) (hne : link ≠ "") (page : Page) :
    isToolsResource (pagePath page) item =
      .ok (decide (page = .tutorials ∨ includes link "tools1-resources" = true)) := by
  have hpath : (pagePath page == "/tutorials") = decide (page = .tutorials) := by
    cases page <;> decide
  rw [isToolsResource,hlink,if_pos (truthy_str hne),hpath]
  change pure (includes link "tools1-resources" || decide (page = .tutorials)) = _
  rw [Bool.decide_or,Bool.decide_eq_true,Bool.or_comm]
  rfl

theorem getResourceDate_stored {link : String}
    (hlink : field (shownForm route (lib.members doc)) "link" = some (.str link))
    (hne : link ≠ "") :
    getResourceDate browser.toBrowser (pagePath (pageOf route))
        (shownForm route (lib.members doc)) =
      .ok (if pageOf route = .tutorials ∨ includes link "tools1-resources" = true then none
        else shownDate browser.toBrowser (rendered lib doc "createdAt")) := by
  by_cases htools : pageOf route = .tutorials ∨ includes link "tools1-resources" = true
  · rw [getResourceDate,isToolsResource_stored hlink hne,if_pos htools,decide_eq_true htools]
    rfl
  · obtain ⟨hpage,hmarker⟩ := not_or.mp htools
    have hplain : PlainLink (shownForm route (lib.members doc)) := by
      rw [PlainLink,hlink]
      exact Bool.eq_false_of_not_eq_true hmarker
    have hpath : pagePath (pageOf route) ≠ "/tutorials" := by
      generalize pageOf route = page at hpage
      cases page <;> first | exact absurd rfl hpage | decide
    rw [getResourceDate_of_plainLink hplain hpath,shownDate_stored browser hpage,if_neg htools]

/-- Whatever document a router can hold: its page renders the card. -/
theorem resourceCard_stored {title link : String} (ht : doc.value? "title" = some (.str title))
    (hl : doc.value? "link" = some (.str link)) (hne : link ≠ "") :
    resourceCard browser (pagePath (pageOf route)) (shownForm route (lib.members doc)) =
      .ok (storedCard lib browser doc title link) := by
  have htitle : field (shownForm route (lib.members doc)) "title" = some (.str title) := by
    rw [field_rendered (by decide),rendered,ht]
    rfl
  have hlink : field (shownForm route (lib.members doc)) "link" = some (.str link) := by
    rw [field_rendered (by decide),rendered,hl]
    rfl
  have himage : displayImage browser.toBrowser (pagePath (pageOf route))
      (field (shownForm route (lib.members doc)) "image") (some (.str link)) =
      .ok (pictureOf browser.toBrowser (pagePath (pageOf route)) link
        (rendered lib doc "image")) := by
    rw [field_rendered (by decide)]
    exact displayImage_of_textual _ hne fun _ => rendered_textual
  have hsummary : child (field (shownForm route (lib.members doc)) "summary") =
      .ok (rendered lib doc "summary") := by
    rw [field_rendered (by decide)]
    exact child_of_textual fun _ => rendered_textual
  rw [resourceCard,isToolsResource_stored hlink hne,
    getResourceDate_stored browser hlink hne,htitle,hlink,himage,hsummary,storedCard,createdText]
  by_cases htools : pageOf route = .tutorials ∨ includes link "tools1-resources" = true
  · rw [if_pos htools,if_pos htools,decide_eq_true htools]
    rfl
  · rw [if_neg htools,if_neg htools,decide_eq_false htools]
    rfl

/-- For every document in the collection of a router, whatever was posted to
get it there: the page of the router renders its card, with its own title and
summary, and a click on the card opens the stored link unless that is the
placeholder. -/
theorem stored_cards (lib : Mongoose) (browser : CardBrowser) (route : Route)
    (doc : Document route.schema) :
    ∃ title link, title ≠ "" ∧ link ≠ "" ∧ CardOf lib browser doc title link := by
  obtain ⟨title,htne,ht⟩ := doc.value?_required (StoreDelivery.titlePath_mem route) rfl rfl
  obtain ⟨link,hlne,hl⟩ := doc.value?_required (StoreDelivery.linkPath_mem route) rfl rfl
  have hlink : field (shownForm route (lib.members doc)) "link" = some (.str link) := by
    rw [field_rendered (by decide),rendered,hl]
    rfl
  exact ⟨title,link,htne,hlne,ht,hl,resourceCard_stored browser ht hl hlne,
    handleCardClick_str hlink hlne⟩

end Documents

end Senca.ResourceCards
