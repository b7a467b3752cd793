import Senca.HubCollectors
import Senca.ScraperRuns
import Senca.VideoRanking

/-!
# What scrapers carry from answers to posts

Between the answer of a source and the body of a post a scraper only takes
values apart, writes texts and puts them into one flat object. So the elements
it posts belong to every class of values that its sources keep to, when the
class holds the texts and is given by the parts of a list or object.
-/

namespace Senca.CarriedValues

open CollectorRanking FaultLoops HubCollectors JsonValue KeywordFiles PythonRuntime
  ScraperCollectors ScraperRuns StableRanking StoreFunctions VideoRanking YoutubeFilters
  YoutubeVideos

/-- A class that holds null and the texts, a list when it holds the items, and
an object when it holds the values and the keys differ. -/
structure ValueClass (P : Json → Prop) : Prop where
  null : P .null
  text : ∀ s, P (.str s)
  arr_iff : ∀ {items}, P (.arr items) ↔ ∀ item ∈ items, P item
  obj_iff : ∀ {members}, P (.obj members) ↔
    (members.map Prod.fst).Nodup ∧ ∀ m ∈ members, P m.2

/-! ### Taking apart -/

section Parts

variable {P : Json → Prop} {value found default a b : Json} {key : String}

theorem ValueClass.noItems (hP : ValueClass P) : P (.arr []) :=
  hP.arr_iff.mpr fun _ hitem => absurd hitem List.not_mem_nil

theorem ValueClass.noMembers (hP : ValueClass P) : P (.obj []) :=
  hP.obj_iff.mpr ⟨List.nodup_nil,fun _ hm => absurd hm List.not_mem_nil⟩

theorem ValueClass.member (hP : ValueClass P) {members : List (String×Json)}
    (h : P (.obj members)) (hfound : members.lookup key = some found) : P found := by
  obtain ⟨before,after,rfl,-⟩ := List.lookup_eq_some_iff.mp hfound
  exact (hP.obj_iff.mp h).2 (key,found) (by simp)

theorem ValueClass.get (hP : ValueClass P) (hvalue : P value) (hdefault : P default)
    (h : PythonRuntime.get value key default = .ok found) : P found := by
  cases value with
  | obj members =>
    rw [get_obj] at h
    rw [← Except.ok.inj h]
    cases hlookup : members.lookup key with
    | none => exact hdefault
    | some inner => exact hP.member hvalue hlookup
  | _ => cases h

theorem ValueClass.subscript (hP : ValueClass P) (hvalue : P value)
    (h : PythonRuntime.subscript value key = .ok found) : P found := by
  cases value with
  | obj members => exact hP.member hvalue (subscript_eq_ok.mp h)
  | _ => cases h

theorem ValueClass.iterate (hP : ValueClass P) (hvalue : P value) {items : List Json}
    (h : PythonRuntime.iterate value = .ok items) : ∀ item ∈ items, P item := by
  rcases iterate_eq_ok h with rfl | htexts
  · exact hP.arr_iff.mp hvalue
  · intro item hitem
    obtain ⟨s,rfl⟩ := htexts item hitem
    exact hP.text s

theorem orElse_in (ha : P a) (hb : P b) : P (orElse a b) := by
  rw [orElse]
  split
  · exact ha
  · exact hb

theorem ValueClass.nonemptyPage (hP : ValueClass P) (hvalue : P value) {items : List Json}
    (h : ScraperCollectors.nonemptyPage value = .ok (some items)) : ∀ item ∈ items, P item := by
  rw [ScraperCollectors.nonemptyPage] at h
  split at h
  · obtain ⟨found,hfound,hitems⟩ := bind_eq_ok.mp h
    obtain rfl := Option.some.inj (pure_eq_ok.mp hitems)
    exact hP.iterate hvalue hfound
  · cases h

/-- The object that is posted. -/
theorem ValueClass.resourceElement (hP : ValueClass P)
    {title link image summary resourceBy createdAt : Json} (htitle : P title) (hlink : P link)
    (himage : P image) (hsummary : P summary) (hby : P resourceBy) (hat : P createdAt) :
    P (StoreFunctions.resourceElement title link image summary resourceBy createdAt) := by
  refine hP.obj_iff.mpr ⟨by simp,?_⟩
  simp only [List.forall_mem_cons]
  exact ⟨htitle,hlink,himage,hsummary,hby,hat,fun _ hm => absurd hm List.not_mem_nil⟩

end Parts

/-! ### Answers -/

/-- What a request is answered is in the class. -/
def AnswerIn (P : Json → Prop) (answer : Py HttpResponse) : Prop :=
  ∀ resp, answer = .ok resp → ∀ body, resp.json = .ok body → P body

/-- So is all that the sources of a script answer, as far as it is JSON. -/
def SourcesIn (P : Json → Prop) : Script → Prop
  | .devto request => ∀ kw pg, AnswerIn P (request kw pg)
  | .fetchPapers request => ∀ kw pg, AnswerIn P (request kw pg)
  | .github request => ∀ kw, AnswerIn P (request kw)
  | .huggingface datasets spaces => (∀ kw, AnswerIn P (datasets kw)) ∧ ∀ kw, AnswerIn P (spaces kw)
  | .newsApi request => ∀ kw pg, AnswerIn P (request kw pg)
  | .spotify1 _ request => ∀ bearer kw, AnswerIn P (request bearer kw)
  | .youtube answers => ∀ kw ids body, (answers kw).videos ids = .ok body → P body
  | _ => True

/-- The element of an item is in the class. -/
def ElementIn (P : Json → Prop) (py : Interpreter) (f : StoreFunction) (it : f.Item) : Prop :=
  ∀ element, f.element py it = .ok element → P element

/-! ### Collectors -/

section Collectors

variable {P : Json → Prop} {ι ρ : Type} {keywords : List String}

/-- What holds of all that the body makes of items of the class holds of the
ten that are returned. -/
theorem topTen_in {c : Collector Json ι ρ} {Q : ι → Prop}
    (hpage : ∀ kw pg found, c.page kw pg = .ok (some found) → ∀ item ∈ found, P item)
    (hbody : ∀ kw item part, P item → c.body kw item = .ok part → ∀ it ∈ part, Q it)
    {top : List ι} (h : c.topTen keywords = .ok top) : ∀ it ∈ top, Q it := by
  intro it hit
  obtain ⟨combined,hcombined,hrest⟩ := bind_eq_ok.mp h
  obtain ⟨sorted,hsorted,htop⟩ := bind_eq_ok.mp hrest
  obtain ⟨-,rfl⟩ := sortReverse_eq_ok.mp hsorted
  rw [← pure_eq_ok.mp htop] at hit
  have hcollected : it ∈ combined :=
    (sortDesc_perm _ combined).mem_iff.mp (List.mem_of_mem_take hit)
  obtain ⟨visited,hvisited,hgather⟩ := gatherKeywords_eq_ok.mp hcombined
  obtain ⟨v,hv,part,hpart,hmem⟩ := mem_of_gather hgather hcollected
  obtain ⟨-,pg,-,found,hfound,hitem⟩ := mem_of_visits hvisited hv
  exact hbody v.1 v.2 part (hpage v.1 pg found hfound v.2 hitem) hpart it hmem

/-- The same of a run that adds summaries. -/
theorem itemsOf_in {Q : ι → Prop} {run : Py (List (Summarised ι))} {c : Collector Json ι ρ}
    (hrun : itemsOf run = c.topTen keywords)
    (hpage : ∀ kw pg found, c.page kw pg = .ok (some found) → ∀ item ∈ found, P item)
    (hbody : ∀ kw item part, P item → c.body kw item = .ok part → ∀ it ∈ part, Q it)
    {items : List (Summarised ι)} (h : run = .ok items) : ∀ it ∈ items, Q it.item := by
  intro it hit
  have htop : c.topTen keywords = .ok (items.map Summarised.item) := by
    rw [← hrun,h]
    rfl
  exact topTen_in hpage hbody htop it.item (List.mem_map_of_mem hit)

end Collectors

/-! ### Bodies of loops -/

section Bodies

variable {P : Json → Prop} {py : Interpreter} {now : ℤ} {kw : String} {item : Json}

theorem devtoBody_in (hP : ValueClass P) {part : List DevtoItem} (hitem : P item)
    (h : devtoBody py now kw item = .ok part) :
    ∀ it ∈ part, P it.title ∧ P it.url ∧ P it.image ∧ P it.author := by
  obtain ⟨published,-,h⟩ := bind_eq_ok.mp h
  by_cases hold : devtoDate py now published < now-days 7
  · rw [if_pos hold] at h
    cases h
    exact fun _ hit => absurd hit List.not_mem_nil
  · rw [if_neg hold] at h
    obtain ⟨score,-,h⟩ := bind_eq_ok.mp h
    obtain ⟨title,htitle,h⟩ := bind_eq_ok.mp h
    obtain ⟨url,hurl,h⟩ := bind_eq_ok.mp h
    obtain ⟨user,huser,h⟩ := bind_eq_ok.mp h
    obtain ⟨author,hauthor,h⟩ := bind_eq_ok.mp h
    obtain ⟨description,-,h⟩ := bind_eq_ok.mp h
    obtain ⟨cover,hcover,h⟩ := bind_eq_ok.mp h
    cases h
    intro it hit
    rw [List.mem_singleton.mp hit]
    have huserIn := hP.get hitem hP.noMembers huser
    exact ⟨hP.get hitem (hP.text _) htitle,hP.get hitem (hP.text _) hurl,
      orElse_in (hP.get hitem hP.null hcover) (hP.text _),hP.get huserIn (hP.text _) hauthor⟩

theorem newsBody_in (hP : ValueClass P) {part : List NewsItem} (hitem : P item)
    (h : newsBody py now kw item = .ok part) :
    ∀ it ∈ part, P it.title ∧ P it.url ∧ P it.image ∧ P it.author ∧ P it.source := by
  obtain ⟨score,-,h⟩ := bind_eq_ok.mp h
  obtain ⟨toImage,himage,h⟩ := bind_eq_ok.mp h
  obtain ⟨title,htitle,h⟩ := bind_eq_ok.mp h
  obtain ⟨author,hauthor,h⟩ := bind_eq_ok.mp h
  obtain ⟨publishedAt,-,h⟩ := bind_eq_ok.mp h
  obtain ⟨outer,houter,h⟩ := bind_eq_ok.mp h
  obtain ⟨source,hsource,h⟩ := bind_eq_ok.mp h
  obtain ⟨description,-,h⟩ := bind_eq_ok.mp h
  obtain ⟨url,hurl,h⟩ := bind_eq_ok.mp h
  cases h
  intro it hit
  rw [List.mem_singleton.mp hit]
  have houterIn := hP.get hitem hP.noMembers houter
  exact ⟨hP.get hitem (hP.text _) htitle,hP.get hitem (hP.text _) hurl,
    orElse_in (hP.get hitem hP.null himage) (hP.text _),hP.get hitem (hP.text _) hauthor,
    hP.get houterIn (hP.text _) hsource⟩

theorem paperBody_in (hP : ValueClass P) {part : List PaperItem} (hitem : P item)
    (h : paperBody py now kw item = .ok part) : ∀ it ∈ part, P it.title ∧ P it.url := by
  have hnone : ∀ {part : List PaperItem}, (pure [] : Py (List PaperItem)) = .ok part →
      ∀ it ∈ part, P it.title ∧ P it.url := by
    intro part hpart
    cases hpart
    exact fun _ hit => absurd hit List.not_mem_nil
  obtain ⟨pubStr,-,h⟩ := bind_eq_ok.mp h
  split at h
  · exact hnone h
  · cases pubStr with
    | str s =>
      dsimp only at h
      cases hdate : py.strptime s "%Y-%m-%d" with
      | none =>
        rw [hdate] at h
        exact hnone h
      | some pubDate =>
        rw [hdate] at h
        dsimp only at h
        split at h
        · obtain ⟨score,-,h⟩ := bind_eq_ok.mp h
          obtain ⟨title,htitle,h⟩ := bind_eq_ok.mp h
          obtain ⟨authors,-,h⟩ := bind_eq_ok.mp h
          obtain ⟨abstract,-,h⟩ := bind_eq_ok.mp h
          obtain ⟨pdf,hpdf,h⟩ := bind_eq_ok.mp h
          obtain ⟨abs,habs,h⟩ := bind_eq_ok.mp h
          cases h
          intro it hit
          rw [List.mem_singleton.mp hit]
          exact ⟨hP.get hitem hP.null htitle,
            orElse_in (hP.get hitem hP.null hpdf) (hP.get hitem hP.null habs)⟩
        · exact hnone h
    | _ => cases h

theorem githubBody_in (hP : ValueClass P) {part : List GithubItem} (hitem : P item)
    (h : githubBody py now kw item = .ok part) :
    ∀ it ∈ part, P it.name ∧ P it.url ∧ P it.image := by
  obtain ⟨stars,-,h⟩ := bind_eq_ok.mp h
  obtain ⟨forks,-,h⟩ := bind_eq_ok.mp h
  obtain ⟨score,-,h⟩ := bind_eq_ok.mp h
  obtain ⟨owner,howner,h⟩ := bind_eq_ok.mp h
  obtain ⟨imageUrl,himage,h⟩ := bind_eq_ok.mp h
  obtain ⟨name,hname,h⟩ := bind_eq_ok.mp h
  obtain ⟨url,hurl,h⟩ := bind_eq_ok.mp h
  obtain ⟨description,-,h⟩ := bind_eq_ok.mp h
  obtain ⟨updated,-,h⟩ := bind_eq_ok.mp h
  cases h
  intro it hit
  rw [List.mem_singleton.mp hit]
  have hownerIn := hP.get hitem hP.noMembers howner
  exact ⟨hP.get hitem hP.null hname,hP.get hitem hP.null hurl,
    hP.get hownerIn (hP.text _) himage⟩

theorem podcastBody_in (hP : ValueClass P) {part : List PodcastItem} (hitem : P item)
    (h : podcastBody py now kw item = .ok part) :
    ∀ it ∈ part, P it.name ∧ P it.link ∧ P it.publisher := by
  obtain ⟨score,-,h⟩ := bind_eq_ok.mp h
  obtain ⟨name,hname,h⟩ := bind_eq_ok.mp h
  obtain ⟨description,-,h⟩ := bind_eq_ok.mp h
  obtain ⟨publisher,hpublisher,h⟩ := bind_eq_ok.mp h
  obtain ⟨urls,hurls,h⟩ := bind_eq_ok.mp h
  obtain ⟨link,hlink,h⟩ := bind_eq_ok.mp h
  obtain ⟨popularity,-,h⟩ := bind_eq_ok.mp h
  cases h
  intro it hit
  rw [List.mem_singleton.mp hit]
  have hurlsIn := hP.get hitem hP.noMembers hurls
  exact ⟨hP.get hitem (hP.text _) hname,hP.get hurlsIn (hP.text _) hlink,
    hP.get hitem (hP.text _) hpublisher⟩

theorem hubBody_in (hP : ValueClass P) {countField : String} {part : List HubItem}
    (hitem : P item) (h : hubBody countField py now kw item = .ok part) :
    ∀ it ∈ part, P it.id := by
  obtain ⟨lastMod,-,h⟩ := bind_eq_ok.mp h
  split at h
  · cases h
    exact fun _ hit => absurd hit List.not_mem_nil
  · obtain ⟨likes,-,h⟩ := bind_eq_ok.mp h
    obtain ⟨id,hid,h⟩ := bind_eq_ok.mp h
    obtain ⟨count,-,h⟩ := bind_eq_ok.mp h
    cases h
    intro it hit
    rw [List.mem_singleton.mp hit]
    exact hP.get hitem hP.null hid

/-- Besides its own title a video's item carries what its snippet holds. -/
theorem processVideo_in (hP : ValueClass P) {channels : Json → Py Json} {video : Json}
    {it : VideoItem} (hvideo : P video) (h : processVideo py now channels video = .ok (some it)) :
    P it.title ∧ P it.image ∧ P it.channel := by
  obtain ⟨f,-⟩ := facts_of_accepted h
  have hsnippet : P (.obj f.snippet) :=
    hP.subscript hvideo (subscript_eq_ok.mpr f.snippet_eq)
  have hfield : ∀ {key default}, P default → P ((f.snippet.lookup key).getD default) :=
    fun hdefault => hP.get hsnippet hdefault (get_obj _ _ _)
  have hchannelId : subscript (.obj f.snippet) "channelId" = .ok f.channelId :=
    subscript_eq_ok.mpr f.channelId_eq
  simp only [processVideo,subscript_eq_ok.mpr f.statistics_eq,subscript_eq_ok.mpr f.snippet_eq,
    hchannelId,get_obj,ok_bind,f.views_eq,f.title_eq,f.description_eq,Interpreter.lowerOf,asText,
    f.channel_eq,f.channelItems_eq,accepted_item] at h
  obtain ⟨-,-,-,-,-,-,-,hfound,h⟩ := h
  have hsubscribers := f.subscriberCount_eq (by simpa using hfound)
  simp only [hsubscribers,ok_bind,accepted_item,f.likes_eq,f.comments_eq] at h
  obtain ⟨score,-,h⟩ := bind_eq_ok.mp h.2
  simp only [bind_eq_ok,pure_eq_ok] at h
  obtain ⟨videoId,-,high,hhigh,image,himage,hitem⟩ := h
  obtain rfl := Option.some.inj hitem
  have hhighIn := hP.get (hfield hP.noMembers) hP.noMembers hhigh
  exact ⟨hP.text f.title,hP.get hhighIn (hP.text _) himage,hfield (hP.text _)⟩

/-- The videos of a keyword. -/
theorem searchAndRank_in (hP : ValueClass P) {answers : KeywordAnswers} {maxResults : ℕ}
    {results : List VideoItem} (hvideos : ∀ ids body, answers.videos ids = .ok body → P body)
    (h : searchAndRank py now kw answers maxResults = .ok results) :
    ∀ it ∈ results, P it.title ∧ P it.image ∧ P it.channel := by
  obtain ⟨_,-,h⟩ := bind_eq_ok.mp h
  obtain ⟨_,-,h⟩ := bind_eq_ok.mp h
  obtain ⟨_,-,h⟩ := bind_eq_ok.mp h
  obtain ⟨videoIds,-,h⟩ := bind_eq_ok.mp h
  split at h
  · cases h
    exact fun _ hit => absurd hit List.not_mem_nil
  · obtain ⟨joined,-,h⟩ := bind_eq_ok.mp h
    obtain ⟨stats,hstats,h⟩ := bind_eq_ok.mp h
    obtain ⟨items,hitems,h⟩ := bind_eq_ok.mp h
    obtain ⟨videos,hlist,h⟩ := bind_eq_ok.mp h
    obtain ⟨all,hall,h⟩ := bind_eq_ok.mp h
    obtain ⟨sorted,hsorted,h⟩ := bind_eq_ok.mp h
    obtain ⟨-,rfl⟩ := sortReverse_eq_ok.mp hsorted
    cases h
    have hitemsIn := hP.get (hvideos joined stats hstats) hP.noItems hitems
    have hvideoIn := hP.iterate hitemsIn hlist
    intro it hit
    have hany : it ∈ all :=
      (sortDesc_perm _ all).mem_iff.mp (List.mem_of_mem_take hit)
    obtain ⟨entry,hentry,part,hpart,hmem⟩ := mem_of_gather hall hany
    have hentryIn : P entry.1 := hvideoIn _ (List.fst_mem_of_mem_zipIdx hentry)
    cases hprocess : processVideo py now (answers.channels entry.2) entry.1 with
    | error e =>
      rw [tryVideo,hprocess] at hpart
      obtain ⟨_,-,hpart⟩ := bind_eq_ok.mp hpart
      cases hpart
      exact absurd hmem List.not_mem_nil
    | ok found =>
      rw [tryVideo,hprocess] at hpart
      cases found with
      | none =>
        cases hpart
        exact absurd hmem List.not_mem_nil
      | some video =>
        cases hpart
        rw [List.mem_singleton.mp hmem]
        exact processVideo_in hP hentryIn hprocess

theorem addVideos_forall {Q : VideoItem → Prop} {data : List VideoItem} {state : Selection}
    (hstate : ∀ it ∈ state.combined, Q it) (hdata : ∀ it ∈ data, Q it) :
    ∀ it ∈ (addVideos state data).combined, Q it := by
  induction data generalizing state with
  | nil => exact hstate
  | cons video rest ih =>
    have hrest := fun it hit => hdata it (List.mem_cons_of_mem video hit)
    rw [addVideos]
    cases hashKey? video.videoId with
    | none => exact hstate
    | some key =>
      dsimp only
      split
      · exact ih hstate hrest
      · refine ih (fun it hit => ?_) hrest
        rcases List.mem_append.mp hit with hit | hit
        · exact hstate it hit
        · rw [List.mem_singleton.mp hit]
          exact hdata video List.mem_cons_self

/-- All that is selected. -/
theorem selectVideos_in (hP : ValueClass P) {keywords : List (String×KeywordAnswers)}
    {state : Selection}
    (hstate : ∀ it ∈ state.combined, P it.title ∧ P it.image ∧ P it.channel)
    (hvideos : ∀ keyword ∈ keywords, ∀ ids body, keyword.2.videos ids = .ok body → P body) :
    ∀ it ∈ (selectVideos py now state keywords).combined,
      P it.title ∧ P it.image ∧ P it.channel := by
  induction keywords generalizing state with
  | nil => exact hstate
  | cons keyword rest ih =>
    obtain ⟨kw,answers⟩ := keyword
    have hrest := fun keyword hkeyword => hvideos keyword (List.mem_cons_of_mem _ hkeyword)
    rw [selectVideos]
    cases hfetch : fetchYoutubeForKeyword py now kw answers 5 with
    | error e => exact ih hstate hrest
    | ok data =>
      refine ih (addVideos_forall hstate ?_) hrest
      obtain ⟨_,-,hdata⟩ := bind_eq_ok.mp hfetch
      cases hranked : searchAndRank py now kw answers 5 with
      | ok results =>
        rw [hranked] at hdata
        cases hdata
        exact searchAndRank_in hP (hvideos _ List.mem_cons_self) hranked
      | error e =>
        rw [hranked] at hdata
        cases hdata
        exact fun _ hit => absurd hit List.not_mem_nil

end Bodies

/-! ### Pages -/

section Pages

variable {P : Json → Prop} {paged : String → ℕ → Py HttpResponse}
  {request : String → Py HttpResponse} {kw : String} {found : List Json}

theorem devtoPage_in (hP : ValueClass P) (hrequest : ∀ kw pg, AnswerIn P (paged kw pg))
    (pg : ℕ) (h : devtoPage paged kw pg = .ok (some found)) : ∀ item ∈ found, P item := by
  obtain ⟨articles,harticles,h⟩ := bind_eq_ok.mp h
  refine hP.nonemptyPage ?_ h
  obtain ⟨resp,hresp,harticles⟩ := bind_eq_ok.mp harticles
  split at harticles
  · exact hrequest kw pg resp hresp articles harticles
  · cases harticles
    exact hP.noItems

theorem newsPage_in (hP : ValueClass P) (hrequest : ∀ kw pg, AnswerIn P (paged kw pg))
    (pg : ℕ) (h : newsPage paged kw pg = .ok (some found)) : ∀ item ∈ found, P item := by
  refine hP.nonemptyPage ?_ h
  unfold fetchNewsapiForKeyword
  dsimp only
  split
  · rename_i articles harticles
    obtain ⟨resp,hresp,harticles⟩ := bind_eq_ok.mp harticles
    split at harticles
    · obtain ⟨body,hbody,harticles⟩ := bind_eq_ok.mp harticles
      exact hP.get (hrequest kw pg resp hresp body hbody) hP.noItems harticles
    · cases harticles
      exact hP.noItems
  · exact hP.noItems

theorem paperPage_in (hP : ValueClass P) (hrequest : ∀ kw pg, AnswerIn P (paged kw pg))
    (pg : ℕ) (h : paperPage paged kw pg = .ok (some found)) : ∀ item ∈ found, P item := by
  obtain ⟨papers,hpapers,h⟩ := bind_eq_ok.mp h
  refine hP.nonemptyPage ?_ h
  obtain ⟨resp,hresp,hpapers⟩ := bind_eq_ok.mp hpapers
  split at hpapers
  · obtain ⟨body,hbody,hpapers⟩ := bind_eq_ok.mp hpapers
    obtain ⟨results,hresults,hpapers⟩ := bind_eq_ok.mp hpapers
    obtain ⟨_,-,hpapers⟩ := bind_eq_ok.mp hpapers
    cases hpapers
    exact hP.get (hrequest kw pg resp hresp body hbody) hP.noItems hresults
  · cases hpapers
    exact hP.noItems

theorem githubPage_in (hP : ValueClass P) (hrequest : ∀ kw, AnswerIn P (request kw))
    (pg : ℕ) (h : githubPage request kw pg = .ok (some found)) : ∀ item ∈ found, P item := by
  obtain ⟨repos,hrepos,h⟩ := bind_eq_ok.mp h
  obtain ⟨items,hitems,h⟩ := bind_eq_ok.mp h
  cases h
  refine hP.iterate ?_ hitems
  obtain ⟨resp,hresp,hrepos⟩ := bind_eq_ok.mp hrepos
  split at hrepos
  · obtain ⟨body,hbody,hrepos⟩ := bind_eq_ok.mp hrepos
    exact hP.get (hrequest kw resp hresp body hbody) hP.noItems hrepos
  · cases hrepos
    exact hP.noItems

theorem podcastPage_in (hP : ValueClass P) (hrequest : ∀ kw, AnswerIn P (request kw))
    (pg : ℕ) (h : podcastPage request kw pg = .ok (some found)) : ∀ item ∈ found, P item := by
  obtain ⟨shows,hshows,h⟩ := bind_eq_ok.mp h
  obtain ⟨items,hitems,h⟩ := bind_eq_ok.mp h
  cases h
  refine hP.iterate ?_ hitems
  obtain ⟨resp,hresp,hshows⟩ := bind_eq_ok.mp hshows
  split at hshows
  · obtain ⟨body,hbody,hshows⟩ := bind_eq_ok.mp hshows
    obtain ⟨inner,hinner,hshows⟩ := bind_eq_ok.mp hshows
    have hinnerIn := hP.get (hrequest kw resp hresp body hbody) hP.noMembers hinner
    exact hP.get hinnerIn hP.noItems hshows
  · cases hshows
    exact hP.noItems

theorem hubPage_in (hP : ValueClass P) (hrequest : ∀ kw, AnswerIn P (request kw))
    (pg : ℕ) (h : hubPage request kw pg = .ok (some found)) : ∀ item ∈ found, P item := by
  obtain ⟨items,hitems,h⟩ := bind_eq_ok.mp h
  cases h
  refine hP.iterate ?_ hitems
  rw [fetchHfForKeyword]
  cases hresp : request kw with
  | error e => exact hP.noItems
  | ok resp =>
    dsimp only
    split
    · cases hbody : resp.json with
      | error e => exact hP.noItems
      | ok body => exact hrequest kw resp hresp body hbody
    · exact hP.noItems

end Pages

/-! ### What a script posts -/

section Posts

variable {P : Json → Prop} {py : Interpreter} {now : ℤ} {ollama : Ollama} {pages : ℕ}
  {keywords : List String}

theorem joinedAuthors_text {authors names : Json} (h : joinedAuthors authors = .ok names) :
    ∃ s, names = .str s := by
  rw [joinedAuthors] at h
  split at h
  · obtain ⟨_,-,h⟩ := bind_eq_ok.mp h
    obtain ⟨text,-,h⟩ := bind_eq_ok.mp h
    exact ⟨text,(pure_eq_ok.mp h).symm⟩
  · exact ⟨_,(pure_eq_ok.mp h).symm⟩

theorem papers_in (hP : ValueClass P) {request : String → ℕ → Py HttpResponse}
    (hrequest : ∀ kw pg, AnswerIn P (request kw pg)) {items : List (Summarised PaperItem)}
    (h : getTopAiPapersAllKeywords py now ollama request pages keywords = .ok items) :
    ∀ it ∈ items, ElementIn P py .fetchPapers it := by
  intro it hit element helement
  obtain ⟨htitle,hurl⟩ := itemsOf_in (getPapers_items _ _ _ _ _ _)
    (fun _ pg _ hpage => paperPage_in hP hrequest pg hpage)
    (fun _ _ _ hitem hpart => paperBody_in hP hitem hpart) h it hit
  obtain ⟨authors,hauthors,helement⟩ := bind_eq_ok.mp helement
  obtain ⟨names,rfl⟩ := joinedAuthors_text hauthors
  cases helement
  exact hP.resourceElement htitle hurl (hP.text _) (hP.text _) (hP.text _) (hP.text _)

theorem hub_in (hP : ValueClass P) {datasets spaces : String → Py HttpResponse}
    (hdatasets : ∀ kw, AnswerIn P (datasets kw)) (hspaces : ∀ kw, AnswerIn P (spaces kw))
    {both : List (Summarised HubItem)×List (Summarised HubItem)}
    (h : getTopDatasetsAndSpacesAllKeywords py now ollama datasets spaces keywords = .ok both) :
    (∀ it ∈ both.1.map datasetItem, ElementIn P py .hfDatasets it) ∧
      ∀ it ∈ both.2.map spaceItem, ElementIn P py .hfSpaces it := by
  obtain ⟨htopDs,htopSp⟩ := getTop_eq_ok h
  constructor
  · intro it hit element helement
    obtain ⟨ds,hds,rfl⟩ := List.mem_map.mp hit
    have hid := topTen_in (c := datasetCollector py now datasets)
      (fun _ pg _ hpage => hubPage_in hP hdatasets pg hpage)
      (fun _ _ _ hitem hpart => hubBody_in hP hitem hpart) htopDs _ (List.mem_map_of_mem hds)
    cases helement
    exact hP.resourceElement hid (hP.text _) (hP.text _) (hP.text _) (hP.text _) (hP.text _)
  · intro it hit element helement
    obtain ⟨sp,hsp,rfl⟩ := List.mem_map.mp hit
    have hid := topTen_in (c := spaceCollector py now spaces)
      (fun _ pg _ hpage => hubPage_in hP hspaces pg hpage)
      (fun _ _ _ hitem hpart => hubBody_in hP hitem hpart) htopSp _ (List.mem_map_of_mem hsp)
    cases helement
    exact hP.resourceElement hid (hP.text _) (hP.text _) (hP.text _) (hP.text _) (hP.text _)

theorem tools_in (hP : ValueClass P) (tool : SupertoolItem) : ElementIn P py .tools tool := by
  intro element helement
  cases helement
  exact hP.obj_iff.mpr ⟨by simp,by simp [hP.text]⟩

/-- For every script that is harvested. -/
theorem harvest_in (hP : ValueClass P) (w : World) {script : Script}
    (hsources : SourcesIn P script) {f : StoreFunction} {items : List f.Item}
    (h : harvest w script = some ⟨f,.ok items⟩) : ∀ it ∈ items, ElementIn P w.py f it := by
  cases script with
  | devto request =>
    obtain ⟨rfl,hitems⟩ := Sigma.mk.inj (Option.some.inj h)
    intro it hit element helement
    obtain ⟨htitle,hurl,himage,hauthor⟩ := itemsOf_in (getDevto_items _ _ _ _ _ _)
      (fun _ pg _ hpage => devtoPage_in hP hsources pg hpage)
      (fun _ _ _ hitem hpart => devtoBody_in hP hitem hpart) (eq_of_heq hitems) it hit
    cases helement
    exact hP.resourceElement htitle hurl himage (hP.text _) hauthor (hP.text _)
  | github request =>
    obtain ⟨rfl,hitems⟩ := Sigma.mk.inj (Option.some.inj h)
    intro it hit element helement
    obtain ⟨hname,hurl,himage⟩ := itemsOf_in (getGithub_items _ _ _ _ _)
      (fun _ pg _ hpage => githubPage_in hP hsources pg hpage)
      (fun _ _ _ hitem hpart => githubBody_in hP hitem hpart) (eq_of_heq hitems) it hit
    cases helement
    exact hP.resourceElement hname hurl himage (hP.text _) (hP.text _) (hP.text _)
  | newsApi request =>
    obtain ⟨rfl,hitems⟩ := Sigma.mk.inj (Option.some.inj h)
    intro it hit element helement
    obtain ⟨htitle,hurl,himage,hauthor,hsource⟩ := itemsOf_in (getNews_items _ _ _ _ _ _)
      (fun _ pg _ hpage => newsPage_in hP hsources pg hpage)
      (fun _ _ _ hitem hpart => newsBody_in hP hitem hpart) (eq_of_heq hitems) it hit
    cases helement
    exact hP.resourceElement htitle hurl himage (hP.text _) (orElse_in hauthor hsource) (hP.text _)
  | scrape request =>
    obtain ⟨rfl,-⟩ := Sigma.mk.inj (Option.some.inj h)
    intro it hit element helement
    cases helement
    exact hP.resourceElement (hP.text _) (hP.text _) (hP.text _) (hP.text _) (hP.text _) (hP.text _)
  | spotify1 token request =>
    obtain ⟨rfl,hitems⟩ := Sigma.mk.inj (Option.some.inj h)
    obtain ⟨bearer,hbearer,-⟩ := bind_eq_ok.mp (eq_of_heq hitems)
    subst hbearer
    intro it hit element helement
    obtain ⟨hname,hlink,hpublisher⟩ := itemsOf_in (getPodcasts_items _ _ _ _ _ bearer)
      (fun _ pg _ hpage => podcastPage_in hP (hsources bearer) pg hpage)
      (fun _ _ _ hitem hpart => podcastBody_in hP hitem hpart) (eq_of_heq hitems) it hit
    cases helement
    exact hP.resourceElement hname hlink (hP.text _) (hP.text _) hpublisher (hP.text _)
  | tweets search =>
    obtain ⟨rfl,-⟩ := Sigma.mk.inj (Option.some.inj h)
    intro it hit element helement
    cases helement
    exact hP.resourceElement (hP.text _) (hP.text _) (hP.text _) (hP.text _) (hP.text _) (hP.text _)
  | youtube answers =>
    obtain ⟨rfl,hitems⟩ := Sigma.mk.inj (Option.some.inj h)
    obtain ⟨sorted,hsorted,htop⟩ := bind_eq_ok.mp (eq_of_heq hitems)
    obtain ⟨-,rfl⟩ := sortReverse_eq_ok.mp hsorted
    obtain rfl := pure_eq_ok.mp htop
    have hselected := @selectVideos_in P w.py w.now hP
      ((loadYoutubeKeywords w.tables w.keywordFile).map (fun kw => (kw,answers kw))) ⟨[],[]⟩
      (fun _ hit => absurd hit List.not_mem_nil) (fun keyword hkeyword => by
        obtain ⟨kw,-,rfl⟩ := List.mem_map.mp hkeyword
        exact hsources kw)
    intro it hit element helement
    have hitem := List.mem_map_of_mem (f := Summarised.item) hit
    rw [withSummaries_item] at hitem
    obtain ⟨htitle,himage,hchannel⟩ := hselected it.item
      ((sortDesc_perm _ _).mem_iff.mp (List.mem_of_mem_take hitem))
    cases helement
    exact hP.resourceElement htitle (hP.text _) himage (hP.text _) hchannel (hP.text _)
  | tools1 file =>
    obtain ⟨rfl,-⟩ := Sigma.mk.inj (Option.some.inj h)
    intro it hit element helement
    cases helement
    exact hP.obj_iff.mpr ⟨by simp,by simp [hP.text]⟩
  | fetchPapers request => cases h
  | huggingface datasets spaces => cases h
  | tools site => cases h

end Posts

end Senca.CarriedValues
