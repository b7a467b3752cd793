import Mathlib.Tactic.GCongr
import Mathlib.Tactic.Linarith
import Mathlib.Tactic.Positivity
import Senca.YoutubeFilters

/-!
# The ranking of the videos of a keyword

In exact arithmetic the relevance of a video is a number between 0 and 1 that
grows with its likes and with the subscribers of its channel, and no division
in it is by zero. So the stable reverse sort and every cut put a video behind
one it dominates only in a tie, and then in the order of the response.
-/

namespace Senca.VideoRanking

open FaultLoops JsonValue PythonRuntime StableRanking YoutubeFilters YoutubeSelection
  YoutubeVideos

/-! ### Scores -/

/-- Floats that are exact rationals. -/
structure ExactArithmetic (py : Interpreter) : Prop where
  floatOfInt : ∀ n, py.floatOfInt n = some (n : ℚ)
  roundFloat : ∀ q, py.roundFloat q = q

/-- Division that fails where ZeroDivisionError is raised. -/
def checkedDiv (a b : ℚ) : Option ℚ := if b = 0 then none else some (a/b)

/-- `calculate_youtube_relevance` in exact arithmetic; none is a division by
zero. -/
def checkedRelevance (v l s : ℚ) : Option ℚ := do
  let vNormalized := min (← checkedDiv v 1000000) 1
  let lNormalized := min (← checkedDiv l 50000) 1
  let sNormalized := min (← checkedDiv s 1000000) 1
  let engagement ← if 100000 ≤ v then checkedDiv l v else some 0
  let eNormalized := min (engagement*100) 1
  some (1/2*vNormalized+1/4*eNormalized+15/100*lNormalized+1/10*sNormalized)

/-- The likes relative to the views, from 100000 views on. -/
def engagement (v l : ℚ) : ℚ := if 100000 ≤ v then l/v else 0

/-- The weighted formula. -/
def relevance (v l s : ℚ) : ℚ :=
  1/2*min (v/1000000) 1+1/4*min (engagement v l*100) 1+15/100*min (l/50000) 1+
    1/10*min (s/1000000) 1

/-- No division is by zero. -/
theorem checkedRelevance_eq (v l s : ℚ) :
    checkedRelevance v l s = some (relevance v l s) := by
  by_cases hv : 100000 ≤ v
  · have hne : v ≠ 0 := by
      intro h
      norm_num [h] at hv
    simp [checkedRelevance,checkedDiv,relevance,engagement,hv,hne]
  · simp [checkedRelevance,checkedDiv,relevance,engagement,hv]

/-- The score of the code. -/
theorem calculateYoutubeRelevance_eq {py : Interpreter} (hexact : ExactArithmetic py)
    (views likes comments favorites subscribers : ℤ) :
    calculateYoutubeRelevance py views likes comments favorites subscribers =
      .ok (relevance views likes subscribers) := by
  have hfloat (n : ℤ) : floatOrZero py n = .ok (n : ℚ) := by
    rw [floatOrZero]
    split
    · rename_i h
      simp [h,pure,Except.pure]
    · simp [Interpreter.toFloat,hexact.floatOfInt]
  simp only [calculateYoutubeRelevance,hfloat,ok_bind,hexact.roundFloat]
  rfl

/-- More likes never engage less. -/
theorem engagement_mono {v l l' : ℚ} (h : l ≤ l') : engagement v l ≤ engagement v l' := by
  unfold engagement
  split
  · gcongr
  · exact le_rfl

/-- More likes and subscribers never lower a score. -/
theorem relevance_mono {v l l' s s' : ℚ} (hl : l ≤ l') (hs : s ≤ s') :
    relevance v l s ≤ relevance v l' s' := by
  have hengagement := engagement_mono (v := v) hl
  unfold relevance
  gcongr

theorem min_one_mem {x : ℚ} (h : 0 ≤ x) : 0 ≤ min x 1 ∧ min x 1 ≤ 1 :=
  ⟨le_min h zero_le_one,min_le_right x 1⟩

/-- Counts give scores from 0 to 1. -/
theorem relevance_mem {v l s : ℚ} (hv : 0 ≤ v) (hl : 0 ≤ l) (hs : 0 ≤ s) :
    0 ≤ relevance v l s ∧ relevance v l s ≤ 1 := by
  have hengagement : 0 ≤ engagement v l := by
    unfold engagement
    split
    · positivity
    · exact le_rfl
  have h₁ := min_one_mem (show 0 ≤ v/1000000 by positivity)
  have h₂ := min_one_mem (show 0 ≤ engagement v l*100 by positivity)
  have h₃ := min_one_mem (show 0 ≤ l/50000 by positivity)
  have h₄ := min_one_mem (show 0 ≤ s/1000000 by positivity)
  unfold relevance
  constructor <;> linarith

/-! ### Accepted videos -/

variable {py : Interpreter} {now : ℤ} {channels : Json → Py Json} {video : Json}
  {item : VideoItem}

/-- What the score of an accepted video is computed from. -/
theorem score_of_accepted (f : VideoFacts py channels video)
    (h : processVideo py now channels video = .ok (some item)) :
    50000 ≤ f.views ∧ 50000 ≤ f.subscriberCount ∧
      calculateYoutubeRelevance py f.views f.likes f.comments 0 f.subscriberCount =
        .ok item.relevanceScore := by
  have hchannelId : subscript (.obj f.snippet) "channelId" = .ok f.channelId :=
    subscript_eq_ok.mpr f.channelId_eq
  simp only [processVideo,subscript_eq_ok.mpr f.statistics_eq,subscript_eq_ok.mpr f.snippet_eq,
    hchannelId,get_obj,ok_bind,f.views_eq,f.title_eq,f.description_eq,Interpreter.lowerOf,asText,
    f.channel_eq,f.channelItems_eq,accepted_item] at h
  obtain ⟨hviews,-,-,-,-,-,-,hfound,h⟩ := h
  have hsubscribers := f.subscriberCount_eq (by simpa using hfound)
  simp only [hsubscribers,ok_bind,accepted_item,f.likes_eq,f.comments_eq] at h
  obtain ⟨hfew,h⟩ := h
  obtain ⟨score,hscore,h⟩ := bind_eq_ok.mp h
  refine ⟨not_lt.mp hviews,not_lt.mp hfew,?_⟩
  rw [hscore]
  simp only [bind_eq_ok,pure_eq_ok] at h
  obtain ⟨videoId,-,high,-,image,-,hitem⟩ := h
  obtain rfl := Option.some.inj hitem
  rfl

/-! ### Cuts -/

/-- `items[:stop]`; a negative stop counts from the end. -/
def sliceTo {α : Type} (items : List α) (stop : ℤ) : List α :=
  items.take (if 0 ≤ stop then stop.toNat else items.length-(-stop).toNat)

/-- A slice has as many items as its stop asks for, from the front or without as many
at the end, and all of a list that is shorter. -/
theorem length_sliceTo {α : Type} (items : List α) (stop : ℤ) : (sliceTo items stop).length =
    if 0 ≤ stop then min stop.toNat items.length else items.length-(-stop).toNat := by
  rw [sliceTo,List.length_take]
  split
  · rfl
  · exact Nat.min_eq_left (Nat.sub_le _ _)

theorem map_sliceTo {α β : Type} (f : α → β) (items : List α) (stop : ℤ) :
    (sliceTo items stop).map f = sliceTo (items.map f) stop := by
  rw [sliceTo,sliceTo,List.map_take,List.length_map]

/-- The `try` block of `fetch_youtube_for_keyword` with its last cut given. -/
def searchAndCut (py : Interpreter) (now : ℤ) (keyword : String) (answers : KeywordAnswers)
    (cut : List VideoItem → List VideoItem) : Py (List VideoItem) := do
  let searchResp ← answers.search (searchQuery keyword)
  let items ← iterate (← get searchResp "items" (.arr []))
  let videoIds ← gather (fun item => do pure [← subscript (← subscript item "id") "videoId"])
    items
  if videoIds.isEmpty then pure []
  else do
    let statsResp ← answers.videos (← joinWith "," videoIds)
    let videos ← iterate (← get statsResp "items" (.arr []))
    let results ← gather (fun entry => tryVideo py now (answers.channels entry.2) entry.1)
      videos.zipIdx
    let sorted ← sortReverse (fun v => Json.float v.relevanceScore) results
    pure (cut sorted)

/-- `fetch_youtube_for_keyword` for every integer max_results. -/
def fetchYoutubeSliced (py : Interpreter) (now : ℤ) (keyword : String)
    (answers : KeywordAnswers) (maxResults : ℤ) : Py (List VideoItem) := do
  answers.build
  match searchAndCut py now keyword answers (sliceTo · maxResults) with
  | .ok results => pure results
  | .error _ => pure []

/-- For a natural number it is the function modelled before. -/
theorem fetchYoutubeSliced_natCast (py : Interpreter) (now : ℤ) (keyword : String)
    (answers : KeywordAnswers) (maxResults : ℕ) :
    fetchYoutubeSliced py now keyword answers maxResults =
      fetchYoutubeForKeyword py now keyword answers maxResults := by
  have hcut : (fun items : List VideoItem => sliceTo items maxResults) =
      (List.take maxResults) := by
    funext items
    simp [sliceTo]
  rw [fetchYoutubeSliced,hcut]
  rfl

/-! ### Positions -/

/-- The accepted videos of a response, each with its position. -/
def positions (py : Interpreter) (now : ℤ) (answers : KeywordAnswers) (videos : List Json) :
    List (VideoItem×ℕ) :=
  located (fun entry => outcome py now (entry.1,answers.channels entry.2)) videos

/-- They are the passing videos. -/
theorem positions_map_fst (answers : KeywordAnswers) (videos : List Json) :
    (positions py now answers videos).map Prod.fst = passing py now answers videos := by
  rw [positions,located_map_fst,passing,calls,List.flatMap_map]

/-- Their positions increase. -/
theorem positions_pairwise (py : Interpreter) (now : ℤ) (answers : KeywordAnswers)
    (videos : List Json) :
    (positions py now answers videos).Pairwise (fun p q => p.2 < q.2) :=
  located_pairwise (fun _ => length_outcome_le now _) videos

/-- The videos a fetch returns, with their positions; a listed video that is
no object empties the keyword. -/
def returned (py : Interpreter) (now : ℤ) (answers : KeywordAnswers) (videos : List Json)
    (maxResults : ℤ) : List (VideoItem×ℕ) :=
  if videos.all isObject then
    sliceTo (sortDesc (VideoItem.relevanceScore∘Prod.fst) (positions py now answers videos))
      maxResults
  else []

/-- The block cuts what it has ranked. -/
theorem searchAndCut_eq (py : Interpreter) (now : ℤ) (keyword : String)
    (answers : KeywordAnswers) (cut : List VideoItem → List VideoItem) (hnil : cut [] = []) :
    searchAndCut py now keyword answers cut =
      cut <$> searchAndCut py now keyword answers id := by
  simp only [searchAndCut,map_bind,apply_ite (cut <$> ·),map_pure,hnil,id]

theorem searchAndRank_eq_cut (py : Interpreter) (now : ℤ) (keyword : String)
    (answers : KeywordAnswers) (n : ℕ) : searchAndRank py now keyword answers n =
      List.take n <$> searchAndCut py now keyword answers id :=
  searchAndCut_eq py now keyword answers (List.take n) List.take_nil

/-- Listed objects are ranked. -/
theorem searchAndCut_listed {keyword : String} {answers : KeywordAnswers} {videos : List Json}
    (hl : listedVideos keyword answers = some videos)
    (hobjects : ∀ v ∈ videos, isObject v = true) : searchAndCut py now keyword answers id =
      .ok (sortDesc VideoItem.relevanceScore (passing py now answers videos)) := by
  have hcuts (n : ℕ) := searchAndRank_listed py now n hl hobjects
  simp only [searchAndRank_eq_cut] at hcuts
  cases hall : searchAndCut py now keyword answers id with
  | error e =>
    rw [hall] at hcuts
    cases hcuts 0
  | ok ranking =>
    -- a cut behind the last video leaves both as they are
    set sorted := sortDesc VideoItem.relevanceScore (passing py now answers videos)
    have htake := hcuts (ranking.length+sorted.length)
    rw [hall,List.take_of_length_le (Nat.le_add_left _ _)] at htake
    have hranking : ranking.take (ranking.length+sorted.length) = sorted := Except.ok.inj htake
    rw [List.take_of_length_le (Nat.le_add_right _ _)] at hranking
    rw [hranking]

/-- A listed video that is no object is never ranked. -/
theorem searchAndCut_nonObject {keyword : String} {answers : KeywordAnswers}
    {videos : List Json} (hl : listedVideos keyword answers = some videos) {v : Json}
    (hv : v ∈ videos) (hobject : isObject v = false) :
    ∃ e, searchAndCut py now keyword answers id = .error e := by
  have hraises := searchAndRank_nonObject py now 0 hl hv hobject
  rw [searchAndRank_eq_cut] at hraises
  cases hall : searchAndCut py now keyword answers id with
  | error e => exact ⟨e,rfl⟩
  | ok ranking =>
    rw [hall] at hraises
    exact absurd ⟨_,rfl⟩ hraises

/-- What a fetch returns. -/
theorem fetchYoutubeSliced_eq {keyword : String} {answers : KeywordAnswers}
    {videos : List Json} (hbuild : answers.build = .ok ())
    (hl : listedVideos keyword answers = some videos) (maxResults : ℤ) :
    fetchYoutubeSliced py now keyword answers maxResults =
      .ok ((returned py now answers videos maxResults).map Prod.fst) := by
  rw [fetchYoutubeSliced,hbuild,ok_bind,
    searchAndCut_eq py now keyword answers (sliceTo · maxResults) List.take_nil,returned]
  by_cases hobjects : videos.all isObject = true
  · rw [searchAndCut_listed hl (List.all_eq_true.mp hobjects),if_pos hobjects,map_sliceTo,
      ← sortDesc_map,positions_map_fst]
    rfl
  · obtain ⟨v,hv,hobject⟩ : ∃ v ∈ videos, isObject v = false := by
      simpa using hobjects
    obtain ⟨e,he⟩ := searchAndCut_nonObject hl hv hobject
    rw [he,if_neg hobjects]
    rfl

/-! ### Dominance -/

/-- An accepted video of a response. -/
structure Accepted (py : Interpreter) (now : ℤ) (answers : KeywordAnswers) (videos : List Json)
    where
  /-- Its position. -/
  position : ℕ
  video : Json
  item : VideoItem
  listed : videos[position]? = some video
  accepted : processVideo py now (answers.channels position) video = .ok (some item)
  /-- What it holds. -/
  facts : VideoFacts py (answers.channels position) video
  /-- Its likes are a count. -/
  likes : 0 ≤ facts.likes

variable {answers : KeywordAnswers} {videos : List Json}

/-- Its score in exact arithmetic, computed without a division by zero. -/
def Accepted.exactScore (a : Accepted py now answers videos) : Option ℚ :=
  checkedRelevance a.facts.views a.facts.likes a.facts.subscriberCount

/-- The occurrence that is ranked. -/
def Accepted.entry (a : Accepted py now answers videos) : VideoItem×ℕ := (a.item,a.position)

/-- Equal views, and at least as many likes and subscribers. -/
structure Accepted.Dominates (a b : Accepted py now answers videos) : Prop where
  views : a.facts.views = b.facts.views
  likes : b.facts.likes ≤ a.facts.likes
  subscribers : b.facts.subscriberCount ≤ a.facts.subscriberCount

theorem Accepted.score_eq (hexact : ExactArithmetic py) (a : Accepted py now answers videos) :
    a.item.relevanceScore =
      relevance a.facts.views a.facts.likes a.facts.subscriberCount := by
  have hscore := (score_of_accepted a.facts a.accepted).2.2
  rw [calculateYoutubeRelevance_eq hexact] at hscore
  exact (Except.ok.inj hscore).symm

theorem Accepted.exactScore_eq (hexact : ExactArithmetic py)
    (a : Accepted py now answers videos) : a.exactScore = some a.item.relevanceScore := by
  rw [exactScore,checkedRelevance_eq,a.score_eq hexact]

theorem Accepted.score_mem (hexact : ExactArithmetic py) (a : Accepted py now answers videos) :
    0 ≤ a.item.relevanceScore ∧ a.item.relevanceScore ≤ 1 := by
  obtain ⟨hviews,hsubscribers,-⟩ := score_of_accepted a.facts a.accepted
  have hlikes := a.likes
  have hviews' : 0 ≤ a.facts.views := by omega
  have hsubscribers' : 0 ≤ a.facts.subscriberCount := by omega
  rw [a.score_eq hexact]
  exact relevance_mem (by exact_mod_cast hviews') (by exact_mod_cast hlikes)
    (by exact_mod_cast hsubscribers')

theorem Accepted.Dominates.score_le (hexact : ExactArithmetic py)
    {a b : Accepted py now answers videos} (h : a.Dominates b) :
    b.item.relevanceScore ≤ a.item.relevanceScore := by
  have hlikes := h.likes
  have hsubscribers := h.subscribers
  rw [a.score_eq hexact,b.score_eq hexact,h.views]
  exact relevance_mono (by exact_mod_cast hlikes) (by exact_mod_cast hsubscribers)

theorem Accepted.mem_positions (a : Accepted py now answers videos) :
    a.entry ∈ positions py now answers videos := by
  refine mem_located.mpr ⟨a.video,a.listed,?_⟩
  rw [entry,outcome,a.accepted]
  exact List.mem_singleton_self _

/-- Of two accepted videos the first is ranked before the second, unless they
are tied and the second is listed first. -/
structure RespectsDominance (maxResults : ℤ) (a b : Accepted py now answers videos) :
    Prop where
  /-- The first scores at least as high. -/
  score : b.item.relevanceScore ≤ a.item.relevanceScore
  /-- Both scores lie between 0 and 1. -/
  bounds : (0 ≤ a.item.relevanceScore ∧ a.item.relevanceScore ≤ 1) ∧
    0 ≤ b.item.relevanceScore ∧ b.item.relevanceScore ≤ 1
  /-- No division by zero occurs. -/
  divisions : a.exactScore = some a.item.relevanceScore ∧
    b.exactScore = some b.item.relevanceScore
  /-- When only the second is returned, they are tied and it comes first in
  the response. -/
  leftOut : b.entry ∈ returned py now answers videos maxResults →
    a.entry ∉ returned py now answers videos maxResults →
    b.item.relevanceScore = a.item.relevanceScore ∧ b.position < a.position
  /-- So when the second is returned before the first. -/
  order : [b.entry,a.entry].Sublist (returned py now answers videos maxResults) →
    b.item.relevanceScore = a.item.relevanceScore ∧ b.position < a.position

/-- A dominated video that outranks is tied and first in the response. -/
theorem tied_of_outranks {a b : Accepted py now answers videos}
    (hscore : b.item.relevanceScore ≤ a.item.relevanceScore)
    (h : Outranks VideoItem.relevanceScore b.entry a.entry) :
    b.item.relevanceScore = a.item.relevanceScore ∧ b.position < a.position :=
  h.resolve_left (not_lt.mpr hscore)

/-- For every videos response, every max_results and every two accepted
videos of it, the first of which dominates the second, in exact arithmetic. -/
theorem fetch_respects_dominance {py : Interpreter} (hexact : ExactArithmetic py) (now : ℤ)
    (keyword : String) (answers : KeywordAnswers) {videos : List Json}
    (hl : listedVideos keyword answers = some videos) (maxResults : ℤ) {result : List VideoItem}
    (hresult : fetchYoutubeSliced py now keyword answers maxResults = .ok result)
    (a b : Accepted py now answers videos) (h : a.Dominates b) :
    result = (returned py now answers videos maxResults).map Prod.fst ∧
      RespectsDominance maxResults a b := by
  have hscore := h.score_le hexact
  have hranked := sortDesc_outranks VideoItem.relevanceScore
    (positions_pairwise py now answers videos)
  have hreturned : result = (returned py now answers videos maxResults).map Prod.fst := by
    obtain ⟨_,hbuild,-⟩ := bind_eq_ok.mp hresult
    rw [fetchYoutubeSliced_eq hbuild hl] at hresult
    exact (Except.ok.inj hresult).symm
  refine ⟨hreturned,hscore,⟨a.score_mem hexact,b.score_mem hexact⟩,
    ⟨a.exactScore_eq hexact,b.exactScore_eq hexact⟩,?_,?_⟩
  · intro hb ha
    by_cases hobjects : videos.all isObject = true
    · rw [returned,if_pos hobjects] at hb ha
      exact tied_of_outranks hscore
        (rel_of_mem_take hranked hb ((mem_sortDesc _).mpr a.mem_positions) ha)
    · rw [returned,if_neg hobjects] at hb
      cases hb
  · intro hsublist
    by_cases hobjects : videos.all isObject = true
    · rw [returned,if_pos hobjects] at hsublist
      exact tied_of_outranks hscore (rel_of_sublist hranked hsublist)
    · rw [returned,if_neg hobjects] at hsublist
      cases hsublist

/-- Two videos that differ in nothing. -/
def twinVideos : List Json := [titledVideo "Lecture",titledVideo "Lecture"]

/-- The answers that list them. -/
def twinAnswers : KeywordAnswers :=
  { sampleAnswers with videos := fun _ => .ok (.obj [("items",.arr twinVideos)]) }

/-- The one at a position. -/
def twin (item : VideoItem) (i : ℕ) (hi : twinVideos[i]? = some (titledVideo "Lecture"))
    (h : processVideo sampleInterpreter 0 (twinAnswers.channels i) (titledVideo "Lecture") =
      .ok (some item)) : Accepted sampleInterpreter 0 twinAnswers twinVideos :=
  ⟨i,titledVideo "Lecture",item,hi,h,titledFacts "Lecture",le_rfl⟩

theorem fetch_respects_dominance_twins :
    ∃ a b : Accepted sampleInterpreter 0 twinAnswers twinVideos,
      b.position < a.position ∧ RespectsDominance 1 a b := by
  obtain ⟨item,hitem⟩ := ((titledFacts "Lecture").accepts_iff 0 sampleInterpreter_asciiCase).mpr
    ⟨titledFacts_plain (by decide) (by decide) (by decide),titledFacts_lecture_noTerm,
      titledFacts_scorable _⟩
  have hdominates : (twin item 1 rfl hitem).Dominates (twin item 0 rfl hitem) :=
    ⟨rfl,le_rfl,le_rfl⟩
  exact ⟨_,_,Nat.zero_lt_one,(fetch_respects_dominance ⟨fun _ => rfl,fun _ => rfl⟩ 0 "ai"
    twinAnswers rfl 1 (fetchYoutubeSliced_eq rfl rfl 1) _ _ hdominates).2⟩

end Senca.VideoRanking
