import Senca.KeywordFiles
import Senca.PythonRuntime

/-!
# The podcast episodes that match the keywords

`get_ai_podcasts_all_keywords` counts, for each entry of one feed, the
keywords that occur in its title and description, and returns the ten entries
with the highest counts. The count does not see the order of the keywords, so
two files with the same non-blank lines give the same list but for the keyword
named last.
-/

namespace Senca.PodcastRanking

open FaultLoops JsonValue KeywordFiles PythonRuntime PythonText StableRanking

/-! ### podcasts.py -/

/-- An entry of the parsed feed; none is a field that it does not have. -/
structure FeedEntry where
  title : Option String
  description : Option String
  link : Option String
  published : Option String

/-- An entry of `combined`. -/
structure PodcastMatch where
  title : String
  link : String
  published : String
  keywordMatch : Option String
  relevanceScore : ℤ

/-- `entry.name`: a missing attribute raises. -/
def fieldOf : Option String → Py String
  | some text => .ok text
  | none => .error .attributeError

/-- `(title + " " + desc).lower()`. -/
def textLower (py : Interpreter) (title : String) (description : Option String) : String :=
  py.lower (title++" "++description.getD "")

/-- `best_score` and `best_keyword` after the loop over the keywords. -/
def scanKeywords (py : Interpreter) (text : String) :
    ℤ×Option String → List String → ℤ×Option String
  | best,[] => best
  | (bestScore,bestKeyword),kw::rest =>
    if isIn (py.lower kw) text then scanKeywords py text (bestScore+1,some kw) rest
    else scanKeywords py text (bestScore,bestKeyword) rest

/-- The body of the loop over the entries. -/
def matchEntry (py : Interpreter) (keywords : List String) (entry : FeedEntry) :
    Py (List PodcastMatch) := do
  let title ← fieldOf entry.title
  let best := scanKeywords py (textLower py title entry.description) (0,none) keywords
  if 0 < best.1 then do
    let link ← fieldOf entry.link
    pure [{
      title := title
      link := link
      published := entry.published.getD "No date available"
      keywordMatch := best.2
      relevanceScore := best.1 }]
  else pure []

/-- `get_ai_podcasts_all_keywords` for the entries of the feed and the keyword
file. -/
def getAiPodcastsAllKeywords (py : Interpreter) (entries : List FeedEntry)
    (file : Option (List Char)) : Py (List PodcastMatch) :=
  if entries.isEmpty then pure []
  else do
    let keywords := loadAllPodcastKeywords file
    let combined ← gather (matchEntry py keywords) entries
    let sorted ← sortReverse (fun m => Json.int m.relevanceScore) combined
    pure (sorted.take 10)

/-! ### Loaded keywords -/

/-- How many keywords, with multiplicity, occur in a title and description. -/
def hits (py : Interpreter) (keywords : List String) (title : String)
    (description : Option String) : ℕ :=
  keywords.countP (fun kw => isIn (py.lower kw) (textLower py title description))

/-- An entry and what is collected for it. -/
structure Matches (py : Interpreter) (keywords : List String) (entry : FeedEntry)
    (m : PodcastMatch) : Prop where
  title : entry.title = some m.title
  link : entry.link = some m.link
  published : m.published = entry.published.getD "No date available"
  score : m.relevanceScore = hits py keywords m.title entry.description
  positive : 0 < m.relevanceScore

variable {py : Interpreter} {keywords keywords' : List String} {entry : FeedEntry}

/-- Every entry has a title, and every entry with hits a link. -/
def Readable (py : Interpreter) (keywords : List String) (entries : List FeedEntry) : Prop :=
  ∀ entry ∈ entries, ∃ title, entry.title = some title ∧
    (0 < hits py keywords title entry.description → entry.link.isSome = true)

/-- What the body collects for an entry, when it does not raise. -/
def collected (py : Interpreter) (keywords : List String) (entry : FeedEntry) :
    List PodcastMatch :=
  match matchEntry py keywords entry with
  | .ok found => found
  | .error _ => []

/-- The collected entries with their positions in the feed. -/
def places (py : Interpreter) (keywords : List String) (entries : List FeedEntry) :
    List (PodcastMatch×ℕ) :=
  located (fun entry => collected py keywords entry.1) entries

/-- The ten best places. -/
def best (py : Interpreter) (keywords : List String) (entries : List FeedEntry) :
    List (PodcastMatch×ℕ) :=
  (sortDesc (PodcastMatch.relevanceScore∘Prod.fst) (places py keywords entries)).take 10

section Ranked

variable {entries : List FeedEntry} {m : PodcastMatch} {i : ℕ}
  (hbody : ∀ entry ∈ entries, matchEntry py keywords entry = .ok (collected py keywords entry))

include hbody

end Ranked

end Senca.PodcastRanking
