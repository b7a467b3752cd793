import Senca.CollectorRanking
import Senca.FirstOccurrences
import Senca.YoutubeVideos

/-!
# The videos a run selects

What the nested handlers of `youtube.py` leave of a run: each keyword gives
the five best of its videos whose own processing passes, and nothing when a
call fails or lacks its list; the seen-set keeps the first occurrence of
each id over the keywords, and the result is the ten best of those. A
video that raises, or a keyword that fails, changes nothing else. The one
fault that reaches further is an id that cannot be hashed: it hides the
rest of its keyword's list.
-/

namespace Senca.YoutubeSelection

open CollectorRanking FaultLoops FirstOccurrences JsonValue PythonRuntime ScraperCollectors
  StableRanking YoutubeVideos

/-! ### What a keyword offers -/

/-- The id a search item carries, when it is a string. -/
def videoIdOf (item : Json) : Option String :=
  match (item.member? "id").bind (fun id => id.member? "videoId") with
  | some (.str s) => some s
  | _ => none

/-- The ids found by a search that answers with a list of items that all
carry one. -/
def searchedIds (keyword : String) (answers : KeywordAnswers) : Option (List String) :=
  match answers.search (searchQuery keyword) with
  | .ok resp => (listAt ["items"] resp).bind (fun items => items.mapM videoIdOf)
  | .error _ => none

/-- The videos listed for a keyword: none when the search or the videos call
fails or lacks its list, and no videos when nothing was found. -/
def listedVideos (keyword : String) (answers : KeywordAnswers) : Option (List Json) :=
  match searchedIds keyword answers with
  | none => none
  | some [] => some []
  | some ids =>
    match answers.videos (String.intercalate "," ids) with
    | .ok resp => listAt ["items"] resp
    | .error _ => none

/-- The listed videos, each with the channels call made for it. -/
def calls (answers : KeywordAnswers) (videos : List Json) : List (Json×(Json → Py Json)) :=
  videos.zipIdx.map (fun entry => (entry.1,answers.channels entry.2))

variable (py : Interpreter) (now : ℤ)

/-- What one video contributes: its item when it passes all filters without
raising. -/
def outcome (call : Json×(Json → Py Json)) : List VideoItem :=
  match processVideo py now call.2 call.1 with
  | .ok (some item) => [item]
  | _ => []

/-- The items of the videos that pass, in the order of the answer. -/
def passing (answers : KeywordAnswers) (videos : List Json) : List VideoItem :=
  (calls answers videos).flatMap (outcome py now)

/-- The calls for a keyword succeed and answer with their lists. -/
def answered (keyword : String×KeywordAnswers) : Bool :=
  keyword.2.build.isOk && (listedVideos keyword.1 keyword.2).isSome

/-- The best of the passing videos of a keyword. -/
def keywordVideos (maxResults : ℕ) (keyword : String×KeywordAnswers) : List VideoItem :=
  match keyword.2.build,listedVideos keyword.1 keyword.2 with
  | .ok _,some videos =>
    (sortDesc VideoItem.relevanceScore (passing py now keyword.2 videos)).take maxResults
  | _,_ => []

/-- Every listed video is an object. -/
def ListsObjects (keyword : String×KeywordAnswers) : Prop :=
  ∀ videos, listedVideos keyword.1 keyword.2 = some videos → ∀ v ∈ videos, isObject v = true

/-! ### The calls of one keyword -/

/-- The items of an answer as the code reads them: its list, or without one
nothing but strings. -/
theorem iterate_items {resp : Json} {items : List Json}
    (h : (do iterate (← get resp "items" (.arr [])) : Py (List Json)) = .ok items) :
    listAt ["items"] resp = some items ∨ ∀ item ∈ items, ∃ s, item = .str s := by
  obtain ⟨value,hv,hi⟩ := bind_eq_ok.mp h
  rcases iterate_eq_ok hi with rfl | hs
  · left
    cases resp with
    | obj members =>
      rw [get_obj] at hv
      cases hl : members.lookup "items" with
      | none =>
        rw [hl] at hv
        cases hv
        simp [listAt,hl]
      | some found =>
        rw [hl] at hv
        cases hv
        simp [listAt,hl]
    | _ => simp [PythonRuntime.get] at hv
  · exact Or.inr hs

/-- An answer with a list is read as that list. -/
theorem iterate_of_listAt {resp : Json} {items : List Json}
    (h : listAt ["items"] resp = some items) :
    (do iterate (← get resp "items" (.arr [])) : Py (List Json)) = .ok items := by
  rw [listAt_key h]
  rfl

/-- The id the code subscripts out of a search item. -/
def idValue (item : Json) : Py Json := do subscript (← subscript item "id") "videoId"

theorem idValue_eq_ok {item found : Json} :
    idValue item = .ok found ↔
      (item.member? "id").bind (fun id => id.member? "videoId") = some found := by
  simp only [idValue,bind_eq_ok,subscript_eq_ok,Option.bind_eq_some_iff]

theorem videoIdOf_eq_some {item : Json} {id : String} (h : videoIdOf item = some id) :
    idValue item = .ok (.str id) := by
  rw [idValue_eq_ok]
  unfold videoIdOf at h
  split at h
  · rename_i s hs
    cases h
    exact hs
  · cases h

/-- Items that all carry an id are read as their ids. -/
theorem gather_idValue_of_ids {items : List Json} {ids : List String}
    (h : items.mapM videoIdOf = some ids) :
    gather (fun item => do pure [← idValue item]) items = .ok (ids.map .str) := by
  induction items generalizing ids with
  | nil =>
    simp at h
    subst h
    rfl
  | cons item rest ih =>
    simp only [List.mapM_cons,Option.bind_eq_bind,Option.bind_eq_some_iff] at h
    obtain ⟨id,hid,later,hl,hids⟩ := h
    cases hids
    exact gather_cons_eq_ok.mpr
      ⟨[.str id],later.map .str,by rw [videoIdOf_eq_some hid]; rfl,ih hl,rfl⟩

/-- String ids join. -/
theorem joinWith_str (ids : List String) :
    joinWith "," (ids.map .str) = .ok (String.intercalate "," ids) := by
  have hgather : gather (fun id => do pure [← asText id]) (ids.map .str) = .ok ids := by
    rw [gather_map]
    exact gather_singleton ids
  rw [joinWith,hgather]
  rfl

/-- When some item carries no string id, reading or joining the ids raises. -/
theorem not_joined_of_missing {items : List Json} (h : items.mapM videoIdOf = none)
    {videoIds : List Json}
    (hg : gather (fun item => do pure [← idValue item]) items = .ok videoIds) :
    videoIds ≠ [] ∧ ¬Returns (joinWith "," videoIds) := by
  have hbad : ∃ w ∈ videoIds, ¬Returns (asText w) := by
    induction items generalizing videoIds with
    | nil => simp at h
    | cons item rest ih =>
      obtain ⟨here,later,hh,hl,rfl⟩ := gather_cons_eq_ok.mp hg
      obtain ⟨w,hw,hhere⟩ := bind_eq_ok.mp hh
      obtain rfl := pure_eq_ok.mp hhere
      cases hid : videoIdOf item with
      | none =>
        refine ⟨w,by simp,?_⟩
        rintro ⟨s,hs⟩
        cases w with
        | str t =>
          rw [idValue_eq_ok] at hw
          simp [videoIdOf,hw] at hid
        | _ => simp [asText] at hs
      | some id =>
        have hrest : rest.mapM videoIdOf = none := by
          cases hr : rest.mapM videoIdOf with
          | none => rfl
          | some ids => simp [List.mapM_cons,hid,hr] at h
        obtain ⟨w',hw',hbad⟩ := ih hrest hl
        exact ⟨w',by simp [hw'],hbad⟩
  obtain ⟨w,hw,hbad⟩ := hbad
  refine ⟨List.ne_nil_of_mem hw,?_⟩
  intro hret
  obtain ⟨ids,hids,-⟩ := returns_bind.mp hret
  obtain ⟨s,hs,-⟩ := returns_bind.mp (gather_returns.mp ⟨ids,hids⟩ w hw)
  exact hbad ⟨s,hs⟩

/-- The tail of the block: filter, score and rank the listed videos. -/
def rankVideos (answers : KeywordAnswers) (maxResults : ℕ) (videos : List Json) :
    Py (List VideoItem) := do
  let results ← gather (fun entry => tryVideo py now (answers.channels entry.2) entry.1)
    videos.zipIdx
  let sorted ← sortReverse (fun v => Json.float v.relevanceScore) results
  pure (sorted.take maxResults)

/-- The block is a search, the joining of its ids, a videos call and the tail. -/
theorem searchAndRank_eq (keyword : String) (answers : KeywordAnswers) (maxResults : ℕ) :
    searchAndRank py now keyword answers maxResults = (do
      let resp ← answers.search (searchQuery keyword)
      let items ← (do iterate (← get resp "items" (.arr [])) : Py (List Json))
      let videoIds ← gather (fun item => do pure [← idValue item]) items
      if videoIds.isEmpty then pure []
      else do
        let stats ← answers.videos (← joinWith "," videoIds)
        let videos ← (do iterate (← get stats "items" (.arr [])) : Py (List Json))
        rankVideos py now answers maxResults videos) := by
  simp only [searchAndRank,rankVideos,idValue,bind_assoc]

/-- A video that is an object never raises out of its `try`. -/
theorem tryVideo_object {video : Json} (h : isObject video = true)
    (channels : Json → Py Json) :
    tryVideo py now channels video = .ok (outcome py now (video,channels)) := by
  unfold tryVideo outcome
  cases hp : processVideo py now channels video with
  | ok found => cases found <;> simp
  | error e =>
    cases video with
    | obj members => simp [pure,Except.pure]
    | _ => simp [isObject] at h

/-- Anything else does. -/
theorem tryVideo_nonObject {video : Json} (h : isObject video = false)
    (channels : Json → Py Json) : ¬Returns (tryVideo py now channels video) := by
  have hraises : ∃ e, tryVideo py now channels video = .error e := by
    cases video with
    | obj members => cases h
    | _ => exact ⟨_,rfl⟩
  obtain ⟨e,he⟩ := hraises
  rw [he]
  exact not_returns_error e

/-- Listed objects are filtered, scored and ranked. -/
theorem rankVideos_objects (answers : KeywordAnswers) (maxResults : ℕ) {videos : List Json}
    (h : ∀ v ∈ videos, isObject v = true) :
    rankVideos py now answers maxResults videos = .ok
      ((sortDesc VideoItem.relevanceScore (passing py now answers videos)).take maxResults) := by
  have hgather : gather (fun entry => tryVideo py now (answers.channels entry.2) entry.1)
      videos.zipIdx = .ok (passing py now answers videos) := by
    rw [passing,calls,List.flatMap_map]
    apply gather_eq_flatMap
    intro entry hentry
    exact tryVideo_object py now (h entry.1 (List.fst_mem_of_mem_zipIdx hentry)) _
  rw [rankVideos,hgather,ok_bind,sortReverse_float,ok_bind]
  rfl

/-- Strings in place of videos leave nothing. -/
theorem rankVideos_strings (answers : KeywordAnswers) (maxResults : ℕ) {videos : List Json}
    (h : ∀ v ∈ videos, ∃ s, v = .str s) {out : List VideoItem}
    (hout : rankVideos py now answers maxResults videos = .ok out) : out = [] := by
  cases videos with
  | nil =>
    simp only [rankVideos,List.zipIdx_nil,gather_nil,ok_bind,sortReverse_float] at hout
    cases hout
    simp
  | cons v rest =>
    obtain ⟨s,rfl⟩ := h v (by simp)
    obtain ⟨results,hresults,-⟩ := bind_eq_ok.mp hout
    have hall := gather_returns.mp ⟨results,hresults⟩ (.str s,0) (by simp)
    exact absurd hall (tryVideo_nonObject py now rfl _)

/-- When the calls answer with their lists, the block is its tail. -/
theorem searchAndRank_eq_rankVideos {keyword : String} {answers : KeywordAnswers}
    (maxResults : ℕ) {videos : List Json} (hl : listedVideos keyword answers = some videos) :
    searchAndRank py now keyword answers maxResults =
      rankVideos py now answers maxResults videos := by
  rw [searchAndRank_eq]
  unfold listedVideos searchedIds at hl
  cases hs : answers.search (searchQuery keyword) with
  | error e => simp [hs] at hl
  | ok resp =>
    cases hi : listAt ["items"] resp with
    | none => simp [hs,hi] at hl
    | some items =>
      cases hids : items.mapM videoIdOf with
      | none => simp [hs,hi,hids] at hl
      | some ids =>
        rw [ok_bind,iterate_of_listAt hi,ok_bind,gather_idValue_of_ids hids,ok_bind]
        simp only [hs,hi,Option.bind_some,hids] at hl
        cases ids with
        | nil =>
          cases hl
          simp [rankVideos,sortReverse_float]
        | cons id rest =>
          cases hv : answers.videos (String.intercalate "," (id::rest)) with
          | error e => simp [hv] at hl
          | ok stats =>
            simp only [hv] at hl
            rw [if_neg (by simp),joinWith_str,ok_bind,hv,ok_bind,iterate_of_listAt hl,ok_bind]

/-- So it returns the ranked videos. -/
theorem searchAndRank_listed {keyword : String} {answers : KeywordAnswers} (maxResults : ℕ)
    {videos : List Json} (hl : listedVideos keyword answers = some videos)
    (hobjects : ∀ v ∈ videos, isObject v = true) :
    searchAndRank py now keyword answers maxResults = .ok
      ((sortDesc VideoItem.relevanceScore (passing py now answers videos)).take maxResults) := by
  rw [searchAndRank_eq_rankVideos py now maxResults hl,
    rankVideos_objects py now answers maxResults hobjects]

/-- A listed video that is no object empties the keyword. -/
theorem searchAndRank_nonObject {keyword : String} {answers : KeywordAnswers} (maxResults : ℕ)
    {videos : List Json} (hl : listedVideos keyword answers = some videos)
    {v : Json} (hv : v ∈ videos) (hobject : isObject v = false) :
    ¬Returns (searchAndRank py now keyword answers maxResults) := by
  rw [searchAndRank_eq_rankVideos py now maxResults hl,rankVideos]
  intro h
  obtain ⟨results,hresults,-⟩ := returns_bind.mp h
  obtain ⟨i,hi⟩ := List.mem_iff_getElem?.mp hv
  exact tryVideo_nonObject py now hobject _ (gather_returns.mp ⟨results,hresults⟩ (v,i)
    (List.mem_zipIdx_iff_getElem?.mpr hi))

/-- When they do not, the block raises or returns nothing. -/
theorem searchAndRank_unlisted {keyword : String} {answers : KeywordAnswers} {maxResults : ℕ}
    (hl : listedVideos keyword answers = none) {out : List VideoItem}
    (hout : searchAndRank py now keyword answers maxResults = .ok out) : out = [] := by
  rw [searchAndRank_eq] at hout
  obtain ⟨resp,hs,hout⟩ := bind_eq_ok.mp hout
  obtain ⟨items,hitems,hout⟩ := bind_eq_ok.mp hout
  obtain ⟨videoIds,hids,hout⟩ := bind_eq_ok.mp hout
  by_cases hempty : videoIds.isEmpty = true
  · rw [if_pos hempty] at hout
    exact (pure_eq_ok.mp hout).symm
  rw [if_neg hempty] at hout
  obtain ⟨joined,hjoin,hout⟩ := bind_eq_ok.mp hout
  obtain ⟨stats,hv,hout⟩ := bind_eq_ok.mp hout
  obtain ⟨videos,hvideos,hranked⟩ := bind_eq_ok.mp hout
  rcases iterate_items hitems with hi | hstr
  · unfold listedVideos searchedIds at hl
    rw [hs] at hl
    simp only [hi,Option.bind_some] at hl
    cases hm : items.mapM videoIdOf with
    | none => exact absurd ⟨joined,hjoin⟩ (not_joined_of_missing hm hids).2
    | some ids =>
      rw [gather_idValue_of_ids hm] at hids
      obtain rfl := Except.ok.inj hids
      rw [joinWith_str] at hjoin
      obtain rfl := Except.ok.inj hjoin
      rw [hm] at hl
      cases ids with
      | nil => simp at hempty
      | cons id rest =>
        simp only [hv] at hl
        rcases iterate_items hvideos with hlist | hstrings
        · simp [hlist] at hl
        · exact rankVideos_strings py now answers maxResults hstrings hranked
  · cases items with
    | nil =>
      cases hids
      simp at hempty
    | cons item rest =>
      obtain ⟨s,rfl⟩ := hstr item (by simp)
      have hall := gather_returns.mp ⟨videoIds,hids⟩ (.str s) (by simp)
      simp [idValue,subscript] at hall

/-- What a keyword adds to the run: its best videos, whatever raised. -/
theorem fetch_eq {keyword : String×KeywordAnswers} (h : ListsObjects keyword)
    (maxResults : ℕ) :
    fetchYoutubeForKeyword py now keyword.1 keyword.2 maxResults =
      keyword.2.build.map (fun _ => keywordVideos py now maxResults keyword) := by
  unfold fetchYoutubeForKeyword keywordVideos
  cases hb : keyword.2.build with
  | error e => rfl
  | ok _ =>
    rw [ok_bind]
    cases hl : listedVideos keyword.1 keyword.2 with
    | some videos =>
      rw [searchAndRank_listed py now maxResults hl (h videos hl)]
      rfl
    | none =>
      cases hr : searchAndRank py now keyword.1 keyword.2 maxResults with
      | ok out =>
        rw [searchAndRank_unlisted py now hl hr]
        rfl
      | error e => rfl

/-! ### The seen-set -/

/-- The id can be a member of a set. -/
def hashable (video : VideoItem) : Bool := (hashKey? video.videoId).isSome

/-- The key of an id, with a default for one that has none. -/
def idKey (video : VideoItem) : HashKey := (hashKey? video.videoId).getD .null

/-- The state of the loop after a prefix of the videos: the first occurrence
of each id, and exactly the ids met. -/
structure Tracks (state : Selection) (prior : List VideoItem) : Prop where
  /-- `combined` holds the first occurrences. -/
  combined : state.combined = firstOccurrences idKey prior
  /-- `seen_videos` holds their ids. -/
  seen : ∀ k, k ∈ state.seenVideos ↔ k ∈ prior.map idKey

/-- One keyword's videos are added up to the first id that cannot be hashed. -/
theorem addVideos_tracks {state : Selection} {prior : List VideoItem}
    (h : Tracks state prior) (data : List VideoItem) :
    Tracks (addVideos state data) (prior++data.takeWhile hashable) := by
  induction data generalizing state prior with
  | nil => simpa [addVideos] using h
  | cons video rest ih =>
    cases hk : hashKey? video.videoId with
    | none =>
      have hstop : hashable video = false := by simp [hashable,hk]
      simpa [addVideos,hk,hstop] using h
    | some key =>
      have hkey : idKey video = key := by simp [idKey,hk]
      have hgo : hashable video = true := by simp [hashable,hk]
      rw [List.takeWhile_cons_of_pos hgo,List.append_cons]
      by_cases hseen : key ∈ state.seenVideos
      · have hprior : idKey video ∈ prior.map idKey := by
          rw [hkey]
          exact (h.seen key).mp hseen
        simp only [addVideos,hk,if_pos hseen]
        apply ih
        constructor
        · rw [firstOccurrences_append_singleton,if_pos hprior]
          exact h.combined
        · intro k
          rw [h.seen,List.map_append,List.mem_append,List.map_singleton,List.mem_singleton]
          constructor
          · exact Or.inl
          · rintro (hk' | rfl)
            · exact hk'
            · exact hprior
      · have hprior : idKey video ∉ prior.map idKey := by
          rw [hkey]
          exact fun hmem => hseen ((h.seen key).mpr hmem)
        simp only [addVideos,hk,if_neg hseen]
        apply ih
        constructor
        · rw [firstOccurrences_append_singleton,if_neg hprior]
          exact congrArg (·++[video]) h.combined
        · intro k
          rw [List.mem_cons,h.seen,List.map_append,List.mem_append,List.map_singleton,
            List.mem_singleton,hkey,or_comm]

/-- The videos a run offers to its seen-set. -/
def offered (keywords : List (String×KeywordAnswers)) : List VideoItem :=
  keywords.flatMap (fun keyword => (keywordVideos py now 5 keyword).takeWhile hashable)

/-- After all keywords the loop holds the first occurrences of what was offered. -/
theorem selectVideos_tracks {state : Selection} {prior : List VideoItem}
    (h : Tracks state prior) {keywords : List (String×KeywordAnswers)}
    (hobjects : ∀ keyword ∈ keywords, ListsObjects keyword) :
    Tracks (selectVideos py now state keywords) (prior++offered py now keywords) := by
  induction keywords generalizing state prior with
  | nil => simpa [selectVideos,offered] using h
  | cons keyword rest ih =>
    obtain ⟨kw,answers⟩ := keyword
    have hfetch := fetch_eq py now (hobjects (kw,answers) (by simp)) 5
    have hrest : ∀ keyword ∈ rest, ListsObjects keyword :=
      fun k hk => hobjects k (List.mem_cons_of_mem _ hk)
    rw [offered,List.flatMap_cons,← List.append_assoc]
    unfold selectVideos
    cases hb : answers.build with
    | error e =>
      have hnone : keywordVideos py now 5 (kw,answers) = [] := by simp [keywordVideos,hb]
      rw [hfetch,hb,hnone,List.takeWhile_nil,List.append_nil]
      exact ih h hrest
    | ok _ =>
      rw [hfetch,hb]
      exact ih (addVideos_tracks h _) hrest

/-! ### Whole runs -/

/-- Some of the videos whose processing raises are deleted from the answer,
and with them the channels calls made for them. -/
structure DropsRaising (keyword keyword' : String×KeywordAnswers) : Prop where
  /-- The client is built as before. -/
  build : keyword'.2.build = keyword.2.build
  /-- A keyword without a list stays without one. -/
  unlisted : listedVideos keyword.1 keyword.2 = none → listedVideos keyword'.1 keyword'.2 = none
  /-- A list loses only videos that raise. -/
  listed : ∀ videos, listedVideos keyword.1 keyword.2 = some videos →
    ∃ videos' keep, listedVideos keyword'.1 keyword'.2 = some videos' ∧
      (∀ call, keep call = false → (processVideo py now call.2 call.1).isOk = false) ∧
      calls keyword'.2 videos' = (calls keyword.2 videos).filter keep

@[simp] theorem calls_fst (answers : KeywordAnswers) (videos : List Json) :
    (calls answers videos).map Prod.fst = videos := by
  rw [calls,List.map_map]
  exact List.zipIdx_map_fst 0 videos

/-- A raising video contributes nothing, so dropping it changes nothing. -/
theorem flatMap_outcome_filter {keep : Json×(Json → Py Json) → Bool}
    (h : ∀ call, keep call = false → (processVideo py now call.2 call.1).isOk = false)
    (l : List (Json×(Json → Py Json))) :
    (l.filter keep).flatMap (outcome py now) = l.flatMap (outcome py now) := by
  induction l with
  | nil => rfl
  | cons call l ih =>
    cases hk : keep call with
    | true => rw [List.filter_cons_of_pos hk,List.flatMap_cons,List.flatMap_cons,ih]
    | false =>
      have hraises := h call hk
      have hnone : outcome py now call = [] := by
        unfold outcome
        cases hp : processVideo py now call.2 call.1 with
        | ok found => simp [hp,Except.isOk,Except.toBool] at hraises
        | error e => rfl
      rw [List.filter_cons_of_neg (by simp [hk]),List.flatMap_cons,hnone,List.nil_append,ih]

theorem DropsRaising.keywordVideos_eq {keyword keyword' : String×KeywordAnswers}
    (h : DropsRaising py now keyword keyword') (maxResults : ℕ) :
    keywordVideos py now maxResults keyword' = keywordVideos py now maxResults keyword := by
  unfold keywordVideos
  rw [h.build]
  cases keyword.2.build with
  | error e => rfl
  | ok _ =>
    cases hl : listedVideos keyword.1 keyword.2 with
    | none => rw [h.unlisted hl]
    | some videos =>
      obtain ⟨videos',keep,hl',hkeep,hcalls⟩ := h.listed videos hl
      rw [hl']
      simp only [passing]
      rw [hcalls,flatMap_outcome_filter py now hkeep]

theorem DropsRaising.listsObjects {keyword keyword' : String×KeywordAnswers}
    (h : DropsRaising py now keyword keyword') (hobjects : ListsObjects keyword) :
    ListsObjects keyword' := by
  intro videos' hl' v hv
  cases hl : listedVideos keyword.1 keyword.2 with
  | none =>
    rw [h.unlisted hl] at hl'
    cases hl'
  | some videos =>
    obtain ⟨videos'',keep,hl'',-,hcalls⟩ := h.listed videos hl
    rw [hl''] at hl'
    obtain rfl := Option.some.inj hl'
    rw [← calls_fst keyword'.2 videos'',hcalls] at hv
    obtain ⟨call,hcall,rfl⟩ := List.mem_map.mp hv
    apply hobjects videos hl
    rw [← calls_fst keyword.2 videos]
    exact List.mem_map_of_mem (List.mem_of_mem_filter hcall)

theorem listsObjects_dropsRaising {keywords keywords' : List (String×KeywordAnswers)}
    (h : List.Forall₂ (DropsRaising py now) keywords keywords')
    (hobjects : ∀ keyword ∈ keywords, ListsObjects keyword) :
    ∀ keyword' ∈ keywords', ListsObjects keyword' := by
  induction h with
  | nil => simp
  | cons hk _ ih =>
    rw [List.forall_mem_cons] at hobjects ⊢
    exact ⟨hk.listsObjects py now hobjects.1,ih hobjects.2⟩

/-- Deleting raising videos everywhere changes nothing that is offered. -/
theorem offered_dropsRaising {keywords keywords' : List (String×KeywordAnswers)}
    (h : List.Forall₂ (DropsRaising py now) keywords keywords') :
    offered py now keywords' = offered py now keywords := by
  induction h with
  | nil => rfl
  | cons hk _ ih =>
    unfold offered at ih ⊢
    rw [List.flatMap_cons,List.flatMap_cons,hk.keywordVideos_eq,ih]

/-- Deleting keywords that fail changes nothing that is offered. -/
theorem offered_filter_answered (keywords : List (String×KeywordAnswers)) :
    offered py now (keywords.filter answered) = offered py now keywords := by
  induction keywords with
  | nil => rfl
  | cons keyword rest ih =>
    unfold offered at ih ⊢
    cases ha : answered keyword with
    | true => rw [List.filter_cons_of_pos ha,List.flatMap_cons,List.flatMap_cons,ih]
    | false =>
      have hnone : keywordVideos py now 5 keyword = [] := by
        unfold keywordVideos
        cases hb : keyword.2.build with
        | error e => rfl
        | ok _ =>
          cases hl : listedVideos keyword.1 keyword.2 with
          | none => rfl
          | some videos => simp [answered,hb,hl,Except.isOk,Except.toBool] at ha
      rw [List.filter_cons_of_neg (by simp [ha]),List.flatMap_cons,hnone,List.takeWhile_nil,
        List.nil_append,ih]

/-- The ten best first occurrences. -/
def selected (keywords : List (String×KeywordAnswers)) : List VideoItem :=
  (sortDesc VideoItem.relevanceScore (firstOccurrences idKey (offered py now keywords))).take 10

/-- A run returns its selection. -/
theorem getTopAiVideos_items (ollama : Ollama) {keywords : List (String×KeywordAnswers)}
    (hobjects : ∀ keyword ∈ keywords, ListsObjects keyword) :
    itemsOf (getTopAiVideosAllKeywords py now ollama keywords) =
      .ok (selected py now keywords) := by
  have hstart : Tracks ⟨[],[]⟩ [] := ⟨rfl,by simp⟩
  have htracks := selectVideos_tracks py now hstart hobjects
  rw [List.nil_append] at htracks
  simp only [getTopAiVideosAllKeywords,sortReverse_float,ok_bind,htracks.combined]
  exact congrArg Except.ok (withSummaries_item ollama _ _)

/-- Whatever algorithm sorts the first occurrences stably by falling score,
its first ten entries are what a run returns. -/
theorem getTopAiVideos_stable (ollama : Ollama) {keywords : List (String×KeywordAnswers)}
    (hobjects : ∀ keyword ∈ keywords, ListsObjects keyword) {sorted : List VideoItem}
    (hsorted : IsStableDesc VideoItem.relevanceScore
      (firstOccurrences idKey (offered py now keywords)) sorted) :
    itemsOf (getTopAiVideosAllKeywords py now ollama keywords) = .ok (sorted.take 10) := by
  rw [getTopAiVideos_items py now ollama hobjects,selected,hsorted.eq_sortDesc]

/-- For every keyword list and all answers whose videos are objects, a run
returns the ten best of the first occurrences of what the keywords offer,
with distinct ids, scores that never increase and as many entries as there
are ids up to ten; deleting videos that raise, or keywords that fail,
leaves the result as it is. -/
theorem run_returns_selected (ollama : Ollama) (keywords : List (String×KeywordAnswers))
    (hobjects : ∀ keyword ∈ keywords, ListsObjects keyword) :
    itemsOf (getTopAiVideosAllKeywords py now ollama keywords) =
        .ok (selected py now keywords) ∧
      ((selected py now keywords).map idKey).Nodup ∧
      (selected py now keywords).Pairwise (fun a b => b.relevanceScore ≤ a.relevanceScore) ∧
      (selected py now keywords).length =
        min 10 ((offered py now keywords).map idKey).dedup.length ∧
      (∀ keywords', List.Forall₂ (DropsRaising py now) keywords keywords' →
        itemsOf (getTopAiVideosAllKeywords py now ollama keywords') =
          .ok (selected py now keywords)) ∧
      itemsOf (getTopAiVideosAllKeywords py now ollama (keywords.filter answered)) =
        .ok (selected py now keywords) := by
  refine ⟨getTopAiVideos_items py now ollama hobjects,?_,?_,?_,?_,?_⟩
  · have hperm := (sortDesc_perm VideoItem.relevanceScore
      (firstOccurrences idKey (offered py now keywords))).map idKey
    have hnodup := hperm.nodup_iff.mpr
      (nodup_keys_firstOccurrences idKey (offered py now keywords))
    exact hnodup.sublist ((List.take_sublist _ _).map idKey)
  · exact (sortDesc_pairwise _ _).sublist (List.take_sublist _ _)
  · rw [selected,List.length_take,length_sortDesc,length_firstOccurrences]
  · intro keywords' hdrops
    rw [getTopAiVideos_items py now ollama (listsObjects_dropsRaising py now hdrops hobjects),
      selected,selected,
      offered_dropsRaising py now hdrops]
  · rw [getTopAiVideos_items py now ollama
      (fun keyword hk => hobjects keyword (List.mem_of_mem_filter hk)),selected,selected,
      offered_filter_answered]

/-- A video with an id and counts that pass every filter. -/
def sampleVideo (id : Json) : Json := .obj [("id",id),
  ("statistics",.obj [("viewCount",.str "200000")]),
  ("snippet",.obj [("title",.str "Lecture"),("channelId",.str "c")])]

/-- A search that finds two videos. -/
def sharedAnswers : KeywordAnswers where
  build := .ok ()
  search _ := .ok (.obj [("items",.arr [.obj [("id",.obj [("videoId",.str "a")])],
    .obj [("id",.obj [("videoId",.str "b")])]])])
  videos _ := .ok (.obj [("items",.arr [sampleVideo (.str "a"),sampleVideo (.str "b")])])
  channels _ _ := .ok (.obj [("items",.arr [.obj [("statistics",
    .obj [("subscriberCount",.str "100000")])]])])

/-- Two keywords that both find them. -/
def sharedKeywords : List (String×KeywordAnswers) := [("ai",sharedAnswers),("ml",sharedAnswers)]

theorem sharedKeywords_listsObjects : ∀ keyword ∈ sharedKeywords, ListsObjects keyword := by
  intro keyword hk videos hl v hv
  rcases List.mem_pair.mp hk with rfl | rfl <;> cases hl <;>
    rcases List.mem_pair.mp hv with rfl | rfl <;> rfl

/-- Each video is returned once. -/
theorem run_returns_selected_sample :
    (offered sampleInterpreter 0 sharedKeywords).map idKey =
      [.text "a",.text "b",.text "a",.text "b"] ∧
    ∃ videos, itemsOf (getTopAiVideosAllKeywords sampleInterpreter 0 (fun _ _ => .ok "")
      sharedKeywords) = .ok videos ∧ videos.map idKey = [.text "a",.text "b"] :=
  ⟨by decide +kernel,_,(run_returns_selected sampleInterpreter 0 (fun _ _ => .ok "")
    sharedKeywords sharedKeywords_listsObjects).1,by decide +kernel⟩

/-! ### A keyword with a damaged id -/

/-- A search that finds one id and two videos listed for it, the first of
which carries an array for an id. -/
def sampleAnswers : KeywordAnswers where
  build := .ok ()
  search _ := .ok (.obj [("items",.arr [.obj [("id",.obj [("videoId",.str "a")])]])])
  videos _ := .ok (.obj [("items",.arr [sampleVideo (.arr []),sampleVideo (.str "b")])])
  channels _ _ := .ok (.obj [("items",.arr [.obj [("statistics",
    .obj [("subscriberCount",.str "100000")])]])])

theorem sampleAnswers_listsObjects : ListsObjects ("ai",sampleAnswers) := by
  intro videos hl v hv
  cases hl
  simp only [List.mem_cons,List.not_mem_nil,or_false] at hv
  rcases hv with rfl | rfl <;> rfl

open Classical in
/-- The array ends its keyword's loop: both videos pass every filter, and
neither is returned. -/
theorem unhashableId_hides_rest :
    ListsObjects ("ai",sampleAnswers) ∧
      itemsOf (getTopAiVideosAllKeywords sampleInterpreter 0 (fun _ _ => .ok "")
        [("ai",sampleAnswers)]) ≠
      .ok ((sortDesc VideoItem.relevanceScore (firstOccurrences VideoItem.videoId
        ([("ai",sampleAnswers)].flatMap (keywordVideos sampleInterpreter 0 5)))).take 10) := by
  refine ⟨sampleAnswers_listsObjects,?_⟩
  have hoffered : offered sampleInterpreter 0 [("ai",sampleAnswers)] = [] :=
    List.eq_nil_of_length_eq_zero (by decide +kernel)
  have hlen : (keywordVideos sampleInterpreter 0 5 ("ai",sampleAnswers)).length = 2 := by
    decide +kernel
  rw [getTopAiVideos_items sampleInterpreter 0 (fun _ _ => .ok "") (fun keyword hk => by
    rw [List.mem_singleton.mp hk]
    exact sampleAnswers_listsObjects),selected,hoffered]
  intro h
  have hempty := congrArg List.length (Except.ok.inj h)
  rw [List.flatMap_singleton,List.length_take,List.length_take,length_sortDesc,length_sortDesc,
    length_firstOccurrences,length_firstOccurrences] at hempty
  cases hv : keywordVideos sampleInterpreter 0 5 ("ai",sampleAnswers) with
  | nil => simp [hv] at hlen
  | cons first rest =>
    have hmem : first.videoId ∈
        ((keywordVideos sampleInterpreter 0 5 ("ai",sampleAnswers)).map
          VideoItem.videoId).dedup := by simp [hv]
    have hpos := List.length_pos_of_mem hmem
    simp only [List.map_nil,List.dedup_nil,List.length_nil] at hempty
    omega

end Senca.YoutubeSelection
