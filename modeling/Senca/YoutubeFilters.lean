import Mathlib.Algebra.Order.BigOperators.Group.List
import Senca.PythonCase
import Senca.YoutubeSelection

/-!
# Which videos the filters accept

One video read as `fetch_youtube_for_keyword` reads it, and the exact
condition under which its item enters the result. From it: what the test of
capitals on the lower-cased title and the prefixes of questions with a blank
are worth, and what raw substring tests reject although no listed term occurs
as a word.
-/

namespace Senca.YoutubeFilters

open FaultLoops JsonValue PythonCase PythonRuntime StableRanking YoutubeSelection YoutubeVideos

/-- The case methods on ASCII texts. -/
structure AsciiCase (py : Interpreter) : Prop where
  /-- Lower-casing maps the capital letters. -/
  lower : ∀ s, ascii s.toList = true → py.lower s = String.ofList (s.toList.map Char.toLower)
  /-- There is a capital letter and no small one. -/
  isupper : ∀ s, ascii s.toList = true →
    py.isupper s = (s.toList.any Char.isUpper && !s.toList.any Char.isLower)

/-! ### Lower-cased ASCII titles -/

section Titles

variable {text : List Char}

theorem isAscii_of_ascii (h : ascii text = true) : ∀ c ∈ text, isAscii c = true :=
  List.all_eq_true.mp h

theorem ascii_map_toLower (h : ascii text = true) : ascii (text.map Char.toLower) = true := by
  refine List.all_eq_true.mpr fun d hd => ?_
  obtain ⟨c,hc,rfl⟩ := List.mem_map.mp hd
  exact ascii_cases (p := fun c => decide (c.toLower.toNat < 128) = true) (by decide +kernel) c
    (isAscii_of_ascii h c hc)

theorem map_toLower_twice (h : ascii text = true) :
    (text.map Char.toLower).map Char.toLower = text.map Char.toLower := by
  rw [List.map_map,List.map_inj_left]
  intro c hc
  exact ascii_cases (p := fun c => c.toLower.toLower = c.toLower) (by decide +kernel) c
    (isAscii_of_ascii h c hc)

/-- A lower-cased text has no capital letter. -/
theorem any_isUpper_map_toLower (h : ascii text = true) :
    (text.map Char.toLower).any Char.isUpper = false := by
  rw [List.any_eq_false]
  intro d hd
  obtain ⟨c,hc,rfl⟩ := List.mem_map.mp hd
  rw [ascii_cases (p := fun c => c.toLower.isUpper = false) (by decide +kernel) c
    (isAscii_of_ascii h c hc)]
  exact Bool.false_ne_true

/-- Lower-casing keeps the number of a mark that is not a letter. -/
theorem count_map_toLower (h : ascii text = true) {mark : Char}
    (hmark : ∀ n < 128, (Char.ofNat n).toLower = mark ↔ Char.ofNat n = mark) :
    (text.map Char.toLower).count mark = text.count mark := by
  induction text with
  | nil => rfl
  | cons c rest ih =>
    rw [ascii,List.all_cons,Bool.and_eq_true] at h
    have hc := ascii_cases (p := fun c => c.toLower = mark ↔ c = mark) hmark c h.1
    rw [List.map_cons,List.count_cons,List.count_cons,ih h.2]
    simp only [beq_iff_eq,hc]

/-- Outside ASCII there is nothing to count. -/
theorem count_of_ascii (h : ascii text = true) {c : Char} (hc : isAscii c = false) :
    text.count c = 0 := by
  refine List.count_eq_zero.mpr fun hmem => ?_
  rw [isAscii_of_ascii h c hmem] at hc
  cases hc

end Titles

/-! ### One video -/

/-- A video with well-typed fields, and the answer of its channel lookup. -/
structure VideoFacts (py : Interpreter) (channels : Json → Py Json) (video : Json) where
  statistics : List (String×Json)
  snippet : List (String×Json)
  title : String
  description : String
  views : ℤ
  likes : ℤ
  comments : ℤ
  id : Json
  channelId : Json
  image : Json
  /-- The answer of the channel lookup. -/
  channel : Json
  /-- Its items, if any. -/
  channelItems : Json
  subscriberCount : ℤ
  statistics_eq : video.member? "statistics" = some (.obj statistics)
  snippet_eq : video.member? "snippet" = some (.obj snippet)
  title_eq : (snippet.lookup "title").getD (.str "") = .str title
  description_eq : (snippet.lookup "description").getD (.str "") = .str description
  views_eq : py.int ((statistics.lookup "viewCount").getD (.int 0)) = .ok views
  likes_eq : py.int ((statistics.lookup "likeCount").getD (.int 0)) = .ok likes
  comments_eq : py.int ((statistics.lookup "commentCount").getD (.int 0)) = .ok comments
  id_eq : video.member? "id" = some id
  channelId_eq : snippet.lookup "channelId" = some channelId
  image_eq : (do
    let thumbnails ← get (.obj snippet) "thumbnails" (.obj [])
    get (← get thumbnails "high" (.obj [])) "url" (.str "")) = .ok image
  channel_eq : channels channelId = .ok channel
  channelItems_eq : get channel "items" .null = .ok channelItems
  subscriberCount_eq : truthy channelItems = true → subscribers py channel = .ok subscriberCount

namespace VideoFacts

variable {py : Interpreter} {channels : Json → Py Json} {video : Json}
  (f : VideoFacts py channels video)

/-- The default language is absent or English. -/
def English : Prop :=
  f.snippet.lookup "defaultLanguage" = none ∨ f.snippet.lookup "defaultLanguage" = some (.str "en")

/-- A title with a question mark that starts, in lower case, with one of the words. -/
def AsksWith (words : List String) : Prop :=
  (∃ word ∈ words, word.toList <+: (py.lower f.title).toList) ∧ '?' ∈ f.title.toList

/-- A question that the code takes for a headline. -/
def Headline : Prop := f.AsksWith ["why ","how ","what if","when "]

/-- A title that starts with why, how, what if or when and has a question mark. -/
def Question : Prop := f.AsksWith ["why","how","what if","when"]

/-- The filters other than the lists of terms, the questions and the capitals. -/
structure Basic : Prop where
  views : 50000 ≤ f.views
  ascii : ascii f.title.toList = true ∧ ascii (f.description.toList.take 100) = true
  english : f.English
  marks : countChar f.title '!' ≤ 1 ∧ countChar f.title '?' ≤ 1
  channel : truthy f.channelItems = true ∧ 50000 ≤ f.subscriberCount

/-- The filters other than the lists of terms and the capitals, with the questions as
the code sees them. -/
structure Plain : Prop extends f.Basic where
  headline : ¬f.Headline

variable {f} in
/-- Every headline of the code is a question. -/
theorem Headline.question (h : f.Headline) : f.Question := by
  obtain ⟨⟨word,hword,hstart⟩,hmark⟩ := h
  refine ⟨?_,hmark⟩
  have hshort : ∀ word ∈ ["why ","how ","what if","when "],
      ∃ short ∈ ["why","how","what if","when"], short.toList <+: word.toList := by decide
  obtain ⟨short,hmem,hshorter⟩ := hshort word hword
  exact ⟨short,hmem,hshorter.trans hstart⟩

/-- An outlet name in the title, or a skip keyword in one of the two texts;
a term is found in a text in the given sense. -/
def HasTerm (found : List Char → List Char → Prop) : Prop :=
  (∃ outlet ∈ newsOutlets, found outlet.toList (py.lower f.title).toList) ∨
    ∃ kw ∈ skipKeywords, found kw.toList (py.lower f.title).toList ∨
      found kw.toList (py.lower f.description).toList

instance (found : List Char → List Char → Prop) [DecidableRel found] :
    Decidable (f.HasTerm found) :=
  inferInstanceAs (Decidable (_ ∨ _))

variable {f} in
theorem HasTerm.imp {found found' : List Char → List Char → Prop} (h : f.HasTerm found)
    (hle : ∀ {term text : List Char}, found term text → found' term text) :
    f.HasTerm found' := by
  rcases h with ⟨outlet,houtlet,hfound⟩ | ⟨kw,hkw,htitle | hdescription⟩
  · exact Or.inl ⟨outlet,houtlet,hle hfound⟩
  · exact Or.inr ⟨kw,hkw,Or.inl (hle htitle)⟩
  · exact Or.inr ⟨kw,hkw,Or.inr (hle hdescription)⟩

/-- The title has capital letters and no small ones. -/
def Capitals : Prop :=
  f.title.toList.any Char.isUpper = true ∧ f.title.toList.any Char.isLower = false

/-- The counts are small enough for floats, so scoring does not raise. -/
def Scorable : Prop :=
  ∀ n ∈ [f.views,f.likes,f.comments,f.subscriberCount], n = 0 ∨ (py.floatOfInt n).isSome = true

end VideoFacts

/-! ### Acceptance -/

theorem floatOrZero_returns {py : Interpreter} {n : ℤ} :
    Returns (floatOrZero py n) ↔ n = 0 ∨ (py.floatOfInt n).isSome = true := by
  rw [floatOrZero]
  split
  · rename_i h
    simp [h]
  · rename_i h
    rw [Interpreter.toFloat]
    cases py.floatOfInt n <;> simp [h]

/-- Scoring raises only where a count is too large for a float. -/
theorem calculateYoutubeRelevance_returns {py : Interpreter} {views likes comments subs : ℤ} :
    Returns (calculateYoutubeRelevance py views likes comments 0 subs) ↔
      ∀ n ∈ [views,likes,comments,subs], n = 0 ∨ (py.floatOfInt n).isSome = true := by
  simp only [calculateYoutubeRelevance,returns_bind,returns_pure,and_true,List.forall_mem_cons,
    List.not_mem_nil,false_implies,implies_true,← floatOrZero_returns]
  simp only [Returns,exists_and_right]

/-- A filter lets a video on only when its test fails. -/
theorem accepted_item {p : Prop} [Decidable p] {rest : Py (Option VideoItem)} {item : VideoItem} :
    (if p then pure none else rest) = .ok (some item) ↔ ¬p ∧ rest = .ok (some item) := by
  by_cases h : p
  · simp [h,pure,Except.pure]
  · simp [h]

theorem accepted_ite {p : Prop} [Decidable p] {rest : Py (Option VideoItem)} :
    (∃ item, (if p then pure none else rest) = .ok (some item)) ↔
      ¬p ∧ ∃ item, rest = .ok (some item) := by
  simp only [accepted_item,exists_and_left]

/-- The fields of an accepted video are well typed, and its item has its id. -/
theorem facts_of_accepted {py : Interpreter} {now : ℤ} {channels : Json → Py Json}
    {video : Json} {item : VideoItem}
    (h : processVideo py now channels video = .ok (some item)) :
    ∃ f : VideoFacts py channels video, f.id = item.videoId := by
  unfold processVideo at h
  obtain ⟨statistics,hstatistics,h⟩ := bind_eq_ok.mp h
  obtain ⟨viewCount,hviewCount,h⟩ := bind_eq_ok.mp h
  obtain ⟨views,hviews,h⟩ := bind_eq_ok.mp h
  obtain ⟨-,h⟩ := accepted_item.mp h
  obtain ⟨snippet,hsnippet,h⟩ := bind_eq_ok.mp h
  obtain ⟨_,_,h⟩ := bind_eq_ok.mp h
  obtain ⟨_,_,h⟩ := bind_eq_ok.mp h
  obtain ⟨_,_,h⟩ := bind_eq_ok.mp h
  obtain ⟨_,_,h⟩ := bind_eq_ok.mp h
  obtain ⟨title,htitle,h⟩ := bind_eq_ok.mp h
  obtain ⟨titleOrig,htitleOrig,h⟩ := bind_eq_ok.mp h
  obtain ⟨description,hdescription,h⟩ := bind_eq_ok.mp h
  obtain ⟨descriptionOrig,hdescriptionOrig,h⟩ := bind_eq_ok.mp h
  obtain ⟨-,h⟩ := accepted_item.mp h
  obtain ⟨language,-,h⟩ := bind_eq_ok.mp h
  obtain ⟨-,h⟩ := accepted_item.mp h
  obtain ⟨-,h⟩ := accepted_item.mp h
  obtain ⟨-,h⟩ := accepted_item.mp h
  obtain ⟨-,h⟩ := accepted_item.mp h
  obtain ⟨-,h⟩ := accepted_item.mp h
  obtain ⟨channelId,hchannelId,h⟩ := bind_eq_ok.mp h
  obtain ⟨channel,hchannel,h⟩ := bind_eq_ok.mp h
  obtain ⟨channelItems,hchannelItems,h⟩ := bind_eq_ok.mp h
  obtain ⟨-,h⟩ := accepted_item.mp h
  obtain ⟨subscriberCount,hsubscribers,h⟩ := bind_eq_ok.mp h
  obtain ⟨-,h⟩ := accepted_item.mp h
  obtain ⟨again,hagain,h⟩ := bind_eq_ok.mp h
  obtain ⟨likeCount,hlikeCount,h⟩ := bind_eq_ok.mp h
  obtain ⟨likes,hlikes,h⟩ := bind_eq_ok.mp h
  obtain ⟨commentCount,hcommentCount,h⟩ := bind_eq_ok.mp h
  obtain ⟨comments,hcomments,h⟩ := bind_eq_ok.mp h
  obtain ⟨_,_,h⟩ := bind_eq_ok.mp h
  obtain ⟨videoId,hvideoId,h⟩ := bind_eq_ok.mp h
  obtain ⟨_,_,h⟩ := bind_eq_ok.mp h
  obtain ⟨thumbnails,hthumbnails,h⟩ := bind_eq_ok.mp h
  obtain ⟨high,hhigh,h⟩ := bind_eq_ok.mp h
  obtain ⟨image,himage,h⟩ := bind_eq_ok.mp h
  obtain rfl := Option.some.inj (pure_eq_ok.mp h)
  obtain rfl := Except.ok.inj (hstatistics.symm.trans hagain)
  obtain ⟨statistics,rfl,rfl⟩ := get_eq_ok hviewCount
  obtain ⟨snippet,rfl,rfl⟩ := get_eq_ok htitle
  rw [get_obj] at hlikeCount hcommentCount hdescription
  obtain rfl := Except.ok.inj hlikeCount
  obtain rfl := Except.ok.inj hcommentCount
  obtain rfl := Except.ok.inj hdescription
  exact ⟨{
    statistics := statistics
    snippet := snippet
    title := titleOrig
    description := descriptionOrig
    views := views
    likes := likes
    comments := comments
    id := videoId
    channelId := channelId
    image := image
    channel := channel
    channelItems := channelItems
    subscriberCount := subscriberCount
    statistics_eq := subscript_eq_ok.mp hstatistics
    snippet_eq := subscript_eq_ok.mp hsnippet
    title_eq := asText_eq_ok htitleOrig
    description_eq := asText_eq_ok hdescriptionOrig
    views_eq := hviews
    likes_eq := hlikes
    comments_eq := hcomments
    id_eq := subscript_eq_ok.mp hvideoId
    channelId_eq := subscript_eq_ok.mp hchannelId
    image_eq := bind_eq_ok.mpr ⟨thumbnails,hthumbnails,bind_eq_ok.mpr ⟨high,hhigh,himage⟩⟩
    channel_eq := hchannel
    channelItems_eq := hchannelItems
    subscriberCount_eq := fun _ => hsubscribers },rfl⟩

namespace VideoFacts

variable {py : Interpreter} {channels : Json → Py Json} {video : Json}
  (f : VideoFacts py channels video) (now : ℤ)

theorem english_iff : ¬(!match (f.snippet.lookup "defaultLanguage").getD (.str "en") with
    | .str s => decide (s = "en")
    | _ => false) = true ↔ f.English := by
  rw [English]
  cases f.snippet.lookup "defaultLanguage" with
  | none => simp
  | some language => cases language <;> simp

/-- The filters in the words of the code, and a score. -/
theorem processVideo_accepts : (∃ item, processVideo py now channels video = .ok (some item)) ↔
    ¬f.views < 50000 ∧ ¬nonAscii f.title f.description = true ∧ f.English ∧
      ¬newsOutlets.any (fun outlet => isIn outlet (py.lower (py.lower f.title))) = true ∧
      ¬questionHeadline py (py.lower f.title) = true ∧
      ¬hasSkipKeyword (py.lower f.title) (py.lower f.description) = true ∧
      ¬clickbait py (py.lower f.title) = true ∧
      truthy f.channelItems = true ∧ ¬f.subscriberCount < 50000 ∧ f.Scorable := by
  have hchannelId : subscript (.obj f.snippet) "channelId" = .ok f.channelId :=
    subscript_eq_ok.mpr f.channelId_eq
  simp only [processVideo,subscript_eq_ok.mpr f.statistics_eq,subscript_eq_ok.mpr f.snippet_eq,
    hchannelId,get_obj,ok_bind,f.views_eq,f.title_eq,f.description_eq,Interpreter.lowerOf,asText,
    f.channel_eq,f.channelItems_eq,accepted_ite]
  refine and_congr_right fun _ => and_congr_right fun _ => and_congr f.english_iff
    (and_congr_right fun _ => and_congr_right fun _ => and_congr_right fun _ =>
      and_congr_right fun _ => ?_)
  cases hfound : truthy f.channelItems with
  | false => simp
  | true =>
    -- behind the filters only the score can raise
    have himage := f.image_eq
    rw [get_obj,ok_bind] at himage
    obtain ⟨high,hhigh,hurl⟩ := bind_eq_ok.mp himage
    simp only [f.subscriberCount_eq hfound,ok_bind,accepted_ite,f.likes_eq,f.comments_eq,
      subscript_eq_ok.mpr f.id_eq,hhigh,hurl,Bool.not_true,Bool.false_eq_true,not_false_eq_true,
      true_and,Scorable,← calculateYoutubeRelevance_returns]
    refine and_congr_right fun _ => ⟨?_,?_⟩
    · rintro ⟨item,hitem⟩
      obtain ⟨score,hscore,-⟩ := bind_eq_ok.mp hitem
      exact ⟨score,hscore⟩
    · rintro ⟨score,hscore⟩
      rw [hscore]
      exact ⟨_,rfl⟩

/-- Of an ASCII title the test of capitals and the counts of emoji never
apply: lower-casing has left no capital letter, and there is no emoji. -/
theorem clickbait_iff (hcase : AsciiCase py) {title : String} (h : ascii title.toList = true) :
    clickbait py (py.lower title) = true ↔ 1 < countChar title '!' ∨ 1 < countChar title '?' := by
  have hlower := ascii_map_toLower h
  have hcount : ∀ {mark : Char},
      (∀ n < 128, (Char.ofNat n).toLower = mark ↔ Char.ofNat n = mark) →
        countChar (py.lower title) mark = countChar title mark := by
    intro mark hmark
    rw [hcase.lower title h,countChar,countChar,String.toList_ofList,count_map_toLower h hmark]
  have hemoji : ∀ {c : Char}, isAscii c = false → countChar (py.lower title) c = 0 := by
    intro c hc
    rw [hcase.lower title h,countChar,String.toList_ofList]
    exact count_of_ascii hlower hc
  have hupper : py.isupper (py.lower title) = false := by
    rw [hcase.lower title h,hcase.isupper _ (by rw [String.toList_ofList]; exact hlower),
      String.toList_ofList,any_isUpper_map_toLower h,Bool.false_and]
  rw [clickbait,hupper,hcount (by decide +kernel),hcount (by decide +kernel),
    hemoji (by decide),hemoji (by decide),hemoji (by decide)]
  simp

/-- Lower-casing an ASCII title twice is lower-casing it once. -/
theorem lower_lower (hcase : AsciiCase py) {title : String} (h : ascii title.toList = true) :
    py.lower (py.lower title) = py.lower title := by
  have hlower := ascii_map_toLower h
  rw [hcase.lower title h,hcase.lower _ (by rw [String.toList_ofList]; exact hlower),
    String.toList_ofList,map_toLower_twice h]

theorem questionHeadline_iff (hcase : AsciiCase py) (h : ascii f.title.toList = true) :
    questionHeadline py (py.lower f.title) = true ↔ f.Headline := by
  have hcount : countChar (py.lower f.title) '?' = countChar f.title '?' := by
    rw [hcase.lower _ h,countChar,countChar,String.toList_ofList,
      count_map_toLower h (by decide +kernel)]
  rw [questionHeadline,lower_lower hcase h,hcount,Headline,AsksWith,Bool.and_eq_true,
    List.any_eq_true,decide_eq_true_eq,countChar,List.count_pos_iff]
  simp only [startswith,decide_eq_true_eq]

theorem hasTerm_iff : f.HasTerm (·<:+:·) ↔
    newsOutlets.any (fun outlet => isIn outlet (py.lower f.title)) = true ∨
      hasSkipKeyword (py.lower f.title) (py.lower f.description) = true := by
  rw [HasTerm,hasSkipKeyword,List.any_eq_true,List.any_eq_true]
  simp only [isIn,Bool.or_eq_true,decide_eq_true_eq]

/-- A video is accepted exactly when it passes the plain filters, no listed
term is a substring of its lower-cased texts, and its counts can be scored. -/
theorem accepts_iff (hcase : AsciiCase py) :
    (∃ item, processVideo py now channels video = .ok (some item)) ↔
      f.Plain ∧ ¬f.HasTerm (·<:+:·) ∧ f.Scorable := by
  rw [f.processVideo_accepts]
  by_cases hascii : nonAscii f.title f.description = true
  · refine iff_of_false (fun h => h.2.1 hascii) (fun h => ?_)
    have hplain := h.1.ascii
    rw [nonAscii,hplain.1,hplain.2] at hascii
    cases hascii
  · have htexts : ascii f.title.toList = true ∧
        ascii (f.description.toList.take 100) = true := by
      simpa [nonAscii] using hascii
    rw [lower_lower hcase htexts.1,f.questionHeadline_iff hcase htexts.1,
      clickbait_iff hcase htexts.1,f.hasTerm_iff,not_or,not_or]
    constructor
    · rintro ⟨hviews,-,henglish,houtlets,hheadline,hskip,hmarks,hfound,hsubs,hscorable⟩
      have hbasic : f.Basic := ⟨not_lt.mp hviews,htexts,henglish,
        ⟨not_lt.mp hmarks.1,not_lt.mp hmarks.2⟩,hfound,not_lt.mp hsubs⟩
      exact ⟨⟨hbasic,hheadline⟩,⟨houtlets,hskip⟩,hscorable⟩
    · rintro ⟨hplain,⟨houtlets,hskip⟩,hscorable⟩
      exact ⟨not_lt.mpr hplain.views,hascii,hplain.english,houtlets,hplain.headline,hskip,
        ⟨not_lt.mpr hplain.marks.1,not_lt.mpr hplain.marks.2⟩,hplain.channel.1,
        not_lt.mpr hplain.channel.2,hscorable⟩

/-- The video as its original texts are to be judged. -/
def Judged : Prop := f.Basic ∧ ¬f.Question ∧ ¬f.HasTerm (·<:+:·) ∧ ¬f.Capitals

end VideoFacts

/-! ### The result of a keyword -/

section Results

variable {py : Interpreter} (now : ℤ) {keyword : String} {answers : KeywordAnswers}
  {videos : List Json} {maxResults : ℕ}

theorem outcome_ne_nil_iff {call : Json×(Json → Py Json)} : outcome py now call ≠ [] ↔
    ∃ item, processVideo py now call.2 call.1 = .ok (some item) := by
  unfold outcome
  cases processVideo py now call.2 call.1 with
  | error e => simp
  | ok found => cases found <;> simp

theorem length_outcome_le (call : Json×(Json → Py Json)) : (outcome py now call).length ≤ 1 := by
  unfold outcome
  split <;> simp

/-- The item of a video, with its id, stands in a result. -/
def InResult (py : Interpreter) (now : ℤ) (result : List VideoItem)
    (call : Json×(Json → Py Json)) : Prop :=
  ∃ item ∈ result, outcome py now call = [item] ∧ call.1.member? "id" = some item.videoId

theorem length_passing_le (answers : KeywordAnswers) (videos : List Json) :
    (passing py now answers videos).length ≤ videos.length := by
  have hsum : ((calls answers videos).map (fun call => (outcome py now call).length)).sum ≤
      (calls answers videos).length := by
    have hle := List.sum_le_card_nsmul
      ((calls answers videos).map (fun call => (outcome py now call).length)) 1
      (List.forall_mem_map.mpr fun call _ => length_outcome_le now call)
    simpa using hle
  rw [passing,List.length_flatMap]
  simpa [calls] using hsum

/-- A listed video is in the ranking when its own processing gives an item. -/
theorem inResult_iff {call : Json×(Json → Py Json)} (h : call ∈ calls answers videos) :
    InResult py now (sortDesc VideoItem.relevanceScore (passing py now answers videos)) call
      ↔ ∃ item, processVideo py now call.2 call.1 = .ok (some item) := by
  rw [← outcome_ne_nil_iff now]
  constructor
  · rintro ⟨item,-,hitem,-⟩
    rw [hitem]
    exact List.cons_ne_nil _ _
  · intro hne
    obtain ⟨item,hitem⟩ := (outcome_ne_nil_iff now).mp hne
    have houtcome : outcome py now call = [item] := by rw [outcome,hitem]
    obtain ⟨f,hid⟩ := facts_of_accepted hitem
    refine ⟨item,(mem_sortDesc _).mpr (List.mem_flatMap.mpr ⟨call,h,?_⟩),houtcome,
      hid ▸ f.id_eq⟩
    rw [houtcome]
    exact List.mem_singleton_self item

end Results

/-- The API answers for a keyword with a list of objects. -/
structure ListedResponse (keyword : String) (answers : KeywordAnswers) where
  /-- The listed videos. -/
  videos : List Json
  build_eq : answers.build = .ok ()
  listed_eq : listedVideos keyword answers = some videos
  objects : ∀ v ∈ videos, isObject v = true

namespace ListedResponse

variable {py : Interpreter} {keyword : String} {answers : KeywordAnswers}
  (r : ListedResponse keyword answers) (now : ℤ)

/-- The result is a cut of the ranking of all accepted videos. -/
theorem fetch_eq (maxResults : ℕ) : fetchYoutubeForKeyword py now keyword answers maxResults =
    .ok ((sortDesc VideoItem.relevanceScore (passing py now answers r.videos)).take
      maxResults) := by
  rw [fetchYoutubeForKeyword,r.build_eq,ok_bind,
    searchAndRank_listed py now maxResults r.listed_eq r.objects]
  rfl

/-- With room for every listed video nothing is cut. -/
theorem fetch_eq_of_le {maxResults : ℕ} (hmax : r.videos.length ≤ maxResults) :
    fetchYoutubeForKeyword py now keyword answers maxResults =
      .ok (sortDesc VideoItem.relevanceScore (passing py now answers r.videos)) := by
  rw [r.fetch_eq now,List.take_of_length_le]
  rw [length_sortDesc]
  exact (length_passing_le now answers r.videos).trans hmax

end ListedResponse

/-- The answers list well-typed videos, and no channel lookup raises. -/
structure WellTypedResponse (py : Interpreter) (keyword : String) (answers : KeywordAnswers)
    extends ListedResponse keyword answers where
  /-- What each video holds. -/
  facts : ∀ call ∈ calls answers videos, VideoFacts py call.2 call.1

/-! ### A response with one video -/

/-- A popular video of a large channel with nothing remarkable but its title. -/
def titledVideo (title : String) : Json := .obj [("id",.str "v"),
  ("statistics",.obj [("viewCount",.str "200000")]),
  ("snippet",.obj [("title",.str title),("channelId",.str "c")])]

/-- The answers that list this video. -/
def titledAnswers (title : String) : KeywordAnswers :=
  { sampleAnswers with videos := fun _ => .ok (.obj [("items",.arr [titledVideo title])]) }

/-- The call that processes the video of a title. -/
def titledCall (title : String) : Json×(Json → Py Json) :=
  (titledVideo title,(titledAnswers title).channels 0)

/-- What the video holds. -/
def titledFacts (title : String) :
    VideoFacts sampleInterpreter ((titledAnswers title).channels 0) (titledVideo title) where
  statistics := [("viewCount",.str "200000")]
  snippet := [("title",.str title),("channelId",.str "c")]
  title := title
  description := ""
  views := 200000
  likes := 0
  comments := 0
  id := .str "v"
  channelId := .str "c"
  image := .str ""
  channel := .obj [("items",.arr [.obj [("statistics",.obj [("subscriberCount",.str "100000")])]])]
  channelItems := .arr [.obj [("statistics",.obj [("subscriberCount",.str "100000")])]]
  subscriberCount := 100000
  statistics_eq := rfl
  snippet_eq := rfl
  title_eq := rfl
  description_eq := rfl
  views_eq := by decide +kernel
  likes_eq := rfl
  comments_eq := rfl
  id_eq := rfl
  channelId_eq := rfl
  image_eq := rfl
  channel_eq := rfl
  channelItems_eq := rfl
  subscriberCount_eq := fun _ => by decide +kernel

/-- The response with this one video. -/
def titledResponse (title : String) :
    WellTypedResponse sampleInterpreter "ai" (titledAnswers title) where
  videos := [titledVideo title]
  build_eq := rfl
  listed_eq := rfl
  objects := List.forall_mem_singleton.mpr rfl
  facts := fun _ h => List.mem_singleton.mp h ▸ titledFacts title

theorem sampleInterpreter_asciiCase : AsciiCase sampleInterpreter where
  lower _ _ := rfl
  isupper _ _ := rfl

/-- An ASCII title that asks nothing and exclaims at most once passes. -/
theorem titledFacts_plain {title : String} (hascii : ascii title.toList = true)
    (hask : '?' ∉ title.toList) (hmarks : countChar title '!' ≤ 1) :
    (titledFacts title).Plain where
  views := (by decide : (50000 : ℤ) ≤ 200000)
  ascii := ⟨hascii,rfl⟩
  english := Or.inl rfl
  marks := ⟨hmarks,(List.count_eq_zero.mpr hask).trans_le zero_le_one⟩
  channel := ⟨rfl,(by decide : (50000 : ℤ) ≤ 100000)⟩
  headline h := hask h.2

/-- No listed term is a substring of the word lecture. -/
theorem titledFacts_lecture_noTerm : ¬(titledFacts "Lecture").HasTerm (·<:+:·) := by
  decide +kernel

theorem titledFacts_scorable (title : String) : (titledFacts title).Scorable :=
  fun _ _ => Or.inr rfl

/-! ### Titles in capitals -/

namespace WellTypedResponse

variable {py : Interpreter} {keyword : String} {answers : KeywordAnswers}
  (r : WellTypedResponse py keyword answers) (now : ℤ) {maxResults : ℕ}

/-- Exactly the videos that are judged acceptable are in the result. -/
def FiltersExactly (maxResults : ℕ) : Prop :=
  ∃ result, fetchYoutubeForKeyword py now keyword answers maxResults = .ok result ∧
    ∀ call (h : call ∈ calls answers r.videos),
      InResult py now result call ↔ (r.facts call h).Judged

/-- For every response with well-typed videos and room for all of them: the
result holds exactly the acceptable videos when, of the videos that pass all
filters of the code but that of capitals, exactly those that ask a question or
are in capitals cannot be scored. -/
theorem filtersExactly_iff (hcase : AsciiCase py) (hmax : r.videos.length ≤ maxResults) :
    r.FiltersExactly now maxResults ↔ ∀ call (h : call ∈ calls answers r.videos),
      (r.facts call h).Plain → ¬(r.facts call h).HasTerm (·<:+:·) →
        ((r.facts call h).Question ∨ (r.facts call h).Capitals ↔
          ¬(r.facts call h).Scorable) := by
  rw [FiltersExactly,r.fetch_eq_of_le now hmax]
  constructor
  · rintro ⟨result,hresult,hexact⟩ call h hplain hterm
    obtain rfl := Except.ok.inj hresult
    have hiff := hexact call h
    rw [inResult_iff now h,(r.facts call h).accepts_iff now hcase,VideoFacts.Judged] at hiff
    constructor
    · rintro hformat hscorable
      obtain ⟨-,hquestion,-,hcapitals⟩ := hiff.mp ⟨hplain,hterm,hscorable⟩
      exact hformat.elim hquestion hcapitals
    · intro hscorable
      by_contra hformat
      obtain ⟨hquestion,hcapitals⟩ := not_or.mp hformat
      exact hscorable (hiff.mpr ⟨hplain.toBasic,hquestion,hterm,hcapitals⟩).2.2
  · intro hcondition
    refine ⟨_,rfl,fun call h => ?_⟩
    rw [inResult_iff now h,(r.facts call h).accepts_iff now hcase,VideoFacts.Judged]
    constructor
    · rintro ⟨hplain,hterm,hscorable⟩
      obtain ⟨hquestion,hcapitals⟩ :=
        not_or.mp fun hformat => (hcondition call h hplain hterm).mp hformat hscorable
      exact ⟨hplain.toBasic,hquestion,hterm,hcapitals⟩
    · rintro ⟨hbasic,hquestion,hterm,hcapitals⟩
      have hplain : (r.facts call h).Plain := ⟨hbasic,fun hheadline => hquestion hheadline.question⟩
      refine ⟨hplain,hterm,?_⟩
      by_contra hscorable
      exact ((hcondition call h hplain hterm).mpr hscorable).elim hquestion hcapitals

end WellTypedResponse

theorem WellTypedResponse.filtersExactly_iff_lecture :
    (titledResponse "Lecture").FiltersExactly 0 1 := by
  refine ((titledResponse "Lecture").filtersExactly_iff 0 sampleInterpreter_asciiCase
    le_rfl).mpr fun call h _ _ => ?_
  obtain rfl := List.mem_singleton.mp h
  have hsmall : ¬(titledFacts "Lecture").Capitals := fun hcapitals =>
    Bool.false_ne_true (hcapitals.2.symm.trans (by decide))
  have hstatement : ¬(titledFacts "Lecture").Question := fun hquestion =>
    absurd hquestion.2 (by decide)
  exact iff_of_false (not_or.mpr ⟨hstatement,hsmall⟩)
    (not_not_intro (titledFacts_scorable "Lecture"))

/-- A title in capitals is lower-cased before it is tested for capitals. -/
theorem capitalsTitle_kept : ¬(titledResponse "PYTHON COURSE").FiltersExactly 0 1 := by
  rintro ⟨result,hresult,hexact⟩
  obtain rfl := Except.ok.inj
    (((titledResponse "PYTHON COURSE").fetch_eq_of_le 0 le_rfl).symm.trans hresult)
  have hcall := List.mem_singleton_self (titledCall "PYTHON COURSE")
  have haccepted := ((titledFacts "PYTHON COURSE").accepts_iff 0 sampleInterpreter_asciiCase).mpr
    ⟨titledFacts_plain (by decide) (by decide) (by decide),by decide +kernel,
      titledFacts_scorable _⟩
  have hjudged := (hexact _ hcall).mp ((inResult_iff 0 hcall).mpr haccepted)
  have hcapitals : (titledFacts "PYTHON COURSE").Capitals := ⟨by decide,by decide⟩
  exact hjudged.2.2.2 hcapitals

/-! ### Terms inside longer words -/

/-- The term stands in the text as a word or phrase of its own: what is next
to it, if anything, is no letter. -/
def WholeWord (letter : Char → Bool) (term text : List Char) : Prop :=
  ∃ i ≤ text.length, term <+: text.drop i ∧
    ((text.take i).getLast?.all fun c => !letter c) = true ∧
    ((text.drop (i+term.length)).head?.all fun c => !letter c) = true

instance (letter : Char → Bool) : DecidableRel (WholeWord letter) :=
  fun _ _ => inferInstanceAs (Decidable (∃ i ≤ _,_))

/-- Such a term is a substring. -/
theorem WholeWord.isInfix {letter : Char → Bool} {term text : List Char}
    (h : WholeWord letter term text) : term <:+: text := by
  obtain ⟨i,-,hterm,-⟩ := h
  exact hterm.isInfix.trans (List.drop_suffix i text).isInfix

/-- The video is not rejected: it stands in the ranking from which the result
for every number of videos is cut. -/
def Kept (py : Interpreter) (now : ℤ) (keyword : String) (answers : KeywordAnswers)
    (call : Json×(Json → Py Json)) : Prop :=
  ∃ ranking, (∀ maxResults, fetchYoutubeForKeyword py now keyword answers maxResults =
    .ok (ranking.take maxResults)) ∧ InResult py now ranking call

namespace ListedResponse

variable {py : Interpreter} {keyword : String} {answers : KeywordAnswers}
  (r : ListedResponse keyword answers) (now : ℤ) {call : Json×(Json → Py Json)}

theorem kept_iff (h : call ∈ calls answers r.videos) : Kept py now keyword answers call ↔
    ∃ item, processVideo py now call.2 call.1 = .ok (some item) := by
  constructor
  · rintro ⟨ranking,-,item,-,hitem,-⟩
    refine (outcome_ne_nil_iff now).mp ?_
    rw [hitem]
    exact List.cons_ne_nil _ _
  · intro haccepted
    exact ⟨_,r.fetch_eq now,(inResult_iff now h).mpr haccepted⟩

/-- For every listed video with well-typed fields that passes the plain
filters and holds no listed term as a word: it is kept exactly when no term
is a substring either, and its counts can be scored. -/
theorem keepsVideo_iff (hcase : AsciiCase py) (h : call ∈ calls answers r.videos)
    (f : VideoFacts py call.2 call.1) (letter : Char → Bool) :
    (f.Plain → ¬f.HasTerm (WholeWord letter) → Kept py now keyword answers call) ↔
      (f.Plain → ¬f.HasTerm (WholeWord letter) → ¬f.HasTerm (·<:+:·) ∧ f.Scorable) := by
  refine forall_congr' fun hplain => forall_congr' fun _ => ?_
  rw [r.kept_iff now h,f.accepts_iff now hcase]
  exact and_iff_right hplain

end ListedResponse

theorem ListedResponse.keepsVideo_iff_lecture :
    Kept sampleInterpreter 0 "ai" (titledAnswers "Lecture") (titledCall "Lecture") :=
  ((titledResponse "Lecture").keepsVideo_iff 0 sampleInterpreter_asciiCase
    (List.mem_singleton_self _) (titledFacts "Lecture") Char.isAlpha).mpr
    (fun _ _ => ⟨titledFacts_lecture_noTerm,titledFacts_scorable _⟩)
    (titledFacts_plain (by decide) (by decide) (by decide))
    (fun h => titledFacts_lecture_noTerm (h.imp WholeWord.isInfix))

/-- Three letters in the middle of an ordinary word reject a course. -/
theorem softwareTitle_rejected :
    (titledFacts "Software engineering course").Plain ∧
      ¬(titledFacts "Software engineering course").HasTerm (WholeWord Char.isAlpha) ∧
      ¬Kept sampleInterpreter 0 "ai" (titledAnswers "Software engineering course")
        (titledCall "Software engineering course") := by
  refine ⟨titledFacts_plain (by decide) (by decide) (by decide),by decide +kernel,fun h => ?_⟩
  have haccepted := ((titledResponse "Software engineering course").kept_iff 0
    (List.mem_singleton_self _)).mp h
  have hterm := (((titledFacts "Software engineering course").accepts_iff 0
    sampleInterpreter_asciiCase).mp haccepted).2.1
  exact hterm (by decide +kernel)

end Senca.YoutubeFilters
