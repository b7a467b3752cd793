import Senca.ScraperCollectors

/-!
# Fetching, filtering and scoring the videos of a keyword

`fetch_youtube_for_keyword` runs one search, one videos call and, for each
video that passes the text filters, one channels call. The three calls are
parameters that answer any JSON or raise. A video whose processing raises
is reported and skipped; anything else that raises empties the keyword.
-/

namespace Senca.YoutubeVideos

open FaultLoops JsonValue PythonRuntime ScraperCollectors

/-- The answers of the YouTube API while one keyword is processed. -/
structure KeywordAnswers where
  /-- `build('youtube', 'v3', ...)`. -/
  build : Py Unit
  /-- The search call, for its query. -/
  search : String → Py Json
  /-- The videos call, for its joined ids. -/
  videos : String → Py Json
  /-- The channels call made for the video at a position, for its channel id. -/
  channels : ℕ → Json → Py Json

/-- An entry of `results`. -/
structure VideoItem where
  videoId : Json
  title : Json
  url : String
  channel : Json
  channelId : Json
  image : Json
  createdAt : String
  viewCount : ℤ
  relevanceScore : ℚ

/-! ### Filters -/

/-- `news_outlets`. -/
def newsOutlets : List String :=
  ["cnn","fox","bbc","reuters","bloomberg","cnbc","news","daily","headlines","report",
    "geo news"]

/-- `skip_keywords`. -/
def skipKeywords : List String := [
  "breaking news","headlines","news update","latest news",
  "breaking","exclusive","alert","live update",
  "shocking","incredible","amazing","you won't believe",
  "mind blowing","revolutionary","disrupting","game changer",
  "china vs","us vs","war","conflict","crisis",
  "controversy","scandal","leaked","exposed",
  "warning","emergency","threat","dangerous",
  "stock market","stocks","market crash","financial crisis",
  "investment","crypto","bitcoin","price prediction",
  "must watch","share this","gone wrong","exposed",
  "secret","hack","trick","clickbait","viral"]

/-- `all(ord(c) < 128 for c in text)`. -/
def ascii (text : List Char) : Bool := text.all (fun c => c.toNat < 128)

/-- A title or the first 100 characters of a description that are not ASCII. -/
def nonAscii (titleOrig descriptionOrig : String) : Bool :=
  !ascii titleOrig.toList || !ascii (descriptionOrig.toList.take 100)

/-- A headline in the form of a question. -/
def questionHeadline (py : Interpreter) (title : String) : Bool :=
  ["why ","how ","what if","when "].any (fun p => startswith (py.lower title) p) &&
    0 < countChar title '?'

/-- A skip keyword in one of the two lower-cased texts. -/
def hasSkipKeyword (title description : String) : Bool :=
  skipKeywords.any (fun kw => isIn kw title || isIn kw description)

/-- Clickbait formatting, judged on the lower-cased title. -/
def clickbait (py : Interpreter) (title : String) : Bool :=
  py.isupper title || 1 < countChar title '!' || 1 < countChar title '?' ||
    0 < countChar title '🔥' || 0 < countChar title '😱' || 0 < countChar title '💥'

/-! ### Scores -/

/-- `float(n) if n else 0`. -/
def floatOrZero (py : Interpreter) (n : ℤ) : Py ℚ :=
  if n = 0 then pure 0 else py.toFloat (.int n)

/-- `calculate_youtube_relevance`; every operation is one of floats. -/
def calculateYoutubeRelevance (py : Interpreter)
    (views likes comments _favorites subscriberCount : ℤ) : Py ℚ := do
  let v ← floatOrZero py views
  let l ← floatOrZero py likes
  let _c ← floatOrZero py comments
  let s ← floatOrZero py subscriberCount
  let div (a b : ℚ) := py.roundFloat (a/b)
  let mul (a b : ℚ) := py.roundFloat (a*b)
  let add (a b : ℚ) := py.roundFloat (a+b)
  let vNormalized := min (div v 1000000) 1
  let lNormalized := min (div l 50000) 1
  let sNormalized := min (div s 1000000) 1
  let engagement := if 100000 ≤ v then div l v else 0
  let eNormalized := min (mul engagement 100) 1
  pure (add (add (add (mul (1/2) vNormalized) (mul (1/4) eNormalized))
    (mul (py.roundFloat (15/100)) lNormalized)) (mul (py.roundFloat (1/10)) sNormalized))

/-! ### One video -/

/-- `channel_resp['items'][0]['statistics'].get('subscriberCount', 0)`. -/
def subscribers (py : Interpreter) (channelResp : Json) : Py ℤ := do
  let first ← subscriptIndex (← subscript channelResp "items") 0
  py.int (← get (← subscript first "statistics") "subscriberCount" (.int 0))

/-- The body of the loop over videos up to the append; none is a `continue`. -/
def processVideo (py : Interpreter) (now : ℤ) (channels : Json → Py Json) (video : Json) :
    Py (Option VideoItem) := do
  let viewCount ← py.int (← get (← subscript video "statistics") "viewCount" (.int 0))
  if viewCount < 50000 then pure none
  else do
    let snippet ← subscript video "snippet"
    let title ← py.lowerOf (← get snippet "title" (.str ""))
    let description ← py.lowerOf (← get snippet "description" (.str ""))
    -- both texts are strings here, since `lower` has been called on them
    let titleOrig ← asText (← get snippet "title" (.str ""))
    let descriptionOrig ← asText (← get snippet "description" (.str ""))
    if nonAscii titleOrig descriptionOrig then pure none
    else do
      let language ← get snippet "defaultLanguage" (.str "en")
      if !(match language with | .str s => s = "en" | _ => false) then pure none
      else if newsOutlets.any (fun outlet => isIn outlet (py.lower title)) then pure none
      else if questionHeadline py title then pure none
      else if hasSkipKeyword title description then pure none
      else if clickbait py title then pure none
      else do
        let channelId ← subscript snippet "channelId"
        let channelResp ← channels channelId
        if !truthy (← get channelResp "items" .null) then pure none
        else do
          let subscriberCount ← subscribers py channelResp
          if subscriberCount < 50000 then pure none
          else do
            let statistics ← subscript video "statistics"
            let likeCount ← py.int (← get statistics "likeCount" (.int 0))
            let commentCount ← py.int (← get statistics "commentCount" (.int 0))
            let score ← calculateYoutubeRelevance py viewCount likeCount commentCount 0
              subscriberCount
            let videoId ← subscript video "id"
            let channel ← get snippet "channelTitle" (.str "")
            let thumbnails ← get snippet "thumbnails" (.obj [])
            let image ← get (← get thumbnails "high" (.obj [])) "url" (.str "")
            pure (some {
              videoId := videoId
              title := .str titleOrig
              url := "https://www.youtube.com/watch?v="++py.str videoId
              channel := channel
              channelId := channelId
              image := image
              createdAt := py.isoformat now
              viewCount := viewCount
              relevanceScore := score })

/-- The `try` around one video. Its handler asks the video for its id, which
raises again when the video is no object. -/
def tryVideo (py : Interpreter) (now : ℤ) (channels : Json → Py Json) (video : Json) :
    Py (List VideoItem) :=
  match processVideo py now channels video with
  | .ok (some item) => .ok [item]
  | .ok none => .ok []
  | .error _ => do
    let _ ← get video "id" .null
    pure []

/-! ### One keyword -/

/-- The query of the search call. -/
def searchQuery (keyword : String) : String :=
  keyword++" (lecture OR course OR tutorial OR explanation OR guide)"

/-- The `try` block of `fetch_youtube_for_keyword`. -/
def searchAndRank (py : Interpreter) (now : ℤ) (keyword : String) (answers : KeywordAnswers)
    (maxResults : ℕ) : Py (List VideoItem) := do
  let searchResp ← answers.search (searchQuery keyword)
  let items ← iterate (← get searchResp "items" (.arr []))
  let videoIds ← gather (fun item => do pure [← subscript (← subscript item "id") "videoId"])
    items
  if videoIds.isEmpty then pure []
  else do
    let statsResp ← answers.videos (← joinWith "," videoIds)
    let videos ← iterate (← get statsResp "items" (.arr []))
    let results ← gather (fun entry => tryVideo py now (answers.channels entry.2) entry.1)
      videos.zipIdx
    let sorted ← sortReverse (fun v => Json.float v.relevanceScore) results
    pure (sorted.take maxResults)

/-- `fetch_youtube_for_keyword`. -/
def fetchYoutubeForKeyword (py : Interpreter) (now : ℤ) (keyword : String)
    (answers : KeywordAnswers) (maxResults : ℕ) : Py (List VideoItem) := do
  answers.build
  match searchAndRank py now keyword answers maxResults with
  | .ok results => pure results
  | .error _ => pure []

/-! ### All keywords -/

/-- What a set compares: null, a number by value, or a string. -/
inductive HashKey where
  /-- None. -/
  | null
  /-- A number; equal numbers of different types are one key. -/
  | num (value : ℚ)
  /-- A string. -/
  | text (value : String)
  deriving DecidableEq

/-- The key of a hashable value; lists and dictionaries have none. -/
def hashKey? : Json → Option HashKey
  | .null => some .null
  | .str s => some (.text s)
  | .arr _ => none
  | .obj _ => none
  | value => (num? value).map (fun x => .num x.value)

/-- The two variables the loop over keywords carries. -/
structure Selection where
  /-- `combined`. -/
  combined : List VideoItem
  /-- `seen_videos`. -/
  seenVideos : List HashKey

/-- The loop over the videos of one keyword. An id that cannot be hashed
raises, and the handler of the keyword keeps what was added before. -/
def addVideos (state : Selection) : List VideoItem → Selection
  | [] => state
  | video::rest =>
    match hashKey? video.videoId with
    | none => state
    | some key =>
      if key ∈ state.seenVideos then addVideos state rest
      else addVideos ⟨state.combined++[video],key::state.seenVideos⟩ rest

/-- The loop over the keywords, each with the answers given for it. -/
def selectVideos (py : Interpreter) (now : ℤ) (state : Selection) :
    List (String×KeywordAnswers) → Selection
  | [] => state
  | (kw,answers)::rest =>
    match fetchYoutubeForKeyword py now kw answers 5 with
    | .ok data => selectVideos py now (addVideos state data) rest
    | .error _ => selectVideos py now state rest

/-- `get_top_ai_videos_all_keywords`. -/
def getTopAiVideosAllKeywords (py : Interpreter) (now : ℤ) (ollama : Ollama)
    (keywords : List (String×KeywordAnswers)) : Py (List (Summarised VideoItem)) := do
  let state := selectVideos py now ⟨[],[]⟩ keywords
  let sorted ← sortReverse (fun v => Json.float v.relevanceScore) state.combined
  pure (withSummaries ollama (fun item =>
    py.str item.title++" from channel "++py.str item.channel) (sorted.take 10))

end Senca.YoutubeVideos
