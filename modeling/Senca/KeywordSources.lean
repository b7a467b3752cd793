import Senca.KeywordHarvest
import Senca.PythonRuntime
import Senca.WordCounts

/-!
# Where `combine_keywords` gets its keywords

The tags of dev.to and the most common words of many feeds are gathered in one
set. A request that fails costs the keywords of its source and no others; a
tag or an arXiv entry without the expected fields, or a text that the HTML
parser rejects, ends the run before the file is opened. Otherwise the file
holds, in order, the clean ones among all that was found, and every scraper
reads back just these.
-/

namespace Senca.KeywordSources

open FaultLoops JsonValue KeywordFiles KeywordHarvest PythonCase PythonRuntime PythonText WordCounts

/-- An entry of a feed; a missing attribute is none. -/
structure FeedEntry where
  title : Option (List Char)
  summary : Option (List Char)

/-- What the script imports. -/
structure Libraries extends TextTables where
  /-- `BeautifulSoup(text, "html.parser").get_text()`. -/
  getText : List Char → Py (List Char)
  /-- `word_tokenize`. -/
  wordTokenize : List Char → List (List Char)
  /-- `stopwords.words("english")`. -/
  stopwords : List (List Char)
  /-- The members of a set, in the order in which it is iterated. -/
  setOrder : List (List Char) → List (List Char)
  /-- Whitespace has no case. -/
  lower_isSpace : ∀ c, isSpace c = true → lower c = [c]
  /-- A token is a piece of the text between whitespace; only quotation marks
  would be rewritten. -/
  token_infix : ∀ text, (∀ c ∈ text, allowed c = true ∨ isSpace c = true) →
    ∀ token ∈ wordTokenize text, token <:+: text ∧ ∀ c ∈ token, isSpace c = false
  /-- A set has the members that were added. -/
  mem_setOrder : ∀ members kw, kw ∈ setOrder members ↔ kw ∈ members

/-- What the sources answer; none is a request that fails. -/
structure Sources where
  /-- The status and the JSON body of the tags, none when it is not JSON. -/
  devtoTags : Option (ℕ×Option Json)
  /-- The status and the entries for a search and a number of results. -/
  arxiv : String → ℕ → Option (ℕ×List FeedEntry)
  /-- The entries of the Google AI blog. -/
  googleFeed : Option (List FeedEntry)
  /-- The entries of the OpenAI blog. -/
  openaiFeed : Option (List FeedEntry)

/-! ### open.py -/

/-- The words of `EXCLUDE_WORDS` besides the stop words. -/
def fillerWords : List String := [
  "using","used","approach","method","paper","result",
  "model","models","learning","study","data","research","use",
  "new"]

/-- `" ".join(text_corpus)`. -/
def joined (corpus : List (List Char)) : List Char := [' '].intercalate corpus

/-- `re.sub(r"[^a-zA-Z0-9\s\-]", " ", text)`. -/
def onlyAllowed (text : List Char) : List Char :=
  text.map (fun c => if allowed c || isSpace c then c else ' ')

/-- `t not in EXCLUDE_WORDS and len(t) > 2 and len(t) < 25`. -/
def counted (libs : Libraries) (token : List Char) : Bool :=
  !(libs.stopwords.contains token || fillerWords.contains (String.ofList token)) &&
    2 < token.length && token.length < 25

/-- The list `filtered`. -/
def filteredTokens (libs : Libraries) (corpus : List (List Char)) : Py (List (List Char)) := do
  let text ← libs.getText (joined corpus)
  pure ((libs.wordTokenize (libs.lowerText (onlyAllowed text))).filter (counted libs))

/-- The list `ai_related`, of the n most common words. -/
def relatedWords (libs : Libraries) (n : ℕ) (corpus : List (List Char)) :
    Py (List (List Char)) := do
  let filtered ← filteredTokens libs corpus
  pure ((commonWords n filtered).filter (isAiRelated libs.toTextTables))

/-- `raise_for_status()`, whose exception is caught like that of the request. -/
def answered {α : Type} (answer : Option (ℕ×α)) : Option α :=
  answer.bind (fun r => if 400 ≤ r.1 ∧ r.1 < 600 then none else some r.2)

/-- An attribute of an entry. -/
def getAttribute (value : Option (List Char)) : Py (List Char) :=
  match value with
  | some text => pure text
  | none => throw .attributeError

/-- `get_arxiv_keywords`. -/
def getArxivKeywords (libs : Libraries) (request : String → ℕ → Option (ℕ×List FeedEntry))
    (query : String) (maxResults : ℕ) : Py (List (List Char)) :=
  match answered (request ("all:"++query) maxResults) with
  | none => pure []
  | some entries => do
    let corpus ← gather (fun e => do
      let title ← getAttribute e.title
      let summary ← getAttribute e.summary
      pure [title,summary]) entries
    relatedWords libs 3000 corpus

/-- `item.get("name", "").strip().lower()`. -/
def tagName (libs : Libraries) (item : Json) : Py (List Char) := do
  match ← get item "name" (.str "") with
  | .str name => pure (libs.lowerText (strip name.toList))
  | _ => throw .attributeError

/-- `get_devto_ai_tags`; a body that is not JSON is a failed request. -/
def getDevtoAiTags (libs : Libraries) (answer : Option (ℕ×Option Json)) :
    Py (List (List Char)) :=
  match (answered answer).join with
  | none => pure []
  | some data => do
    let items ← iterate data
    let relevantTags ← gather (fun item => do
      let tag ← tagName libs item
      pure (if isAiRelated libs.toTextTables tag then [tag] else [])) items
    pure (libs.setOrder relevantTags)

/-- The attributes that entries have. -/
def texts (entries : List FeedEntry) : List (List Char) :=
  entries.flatMap (fun e => e.title.toList++e.summary.toList)

/-- What the two blog functions do, given what `feedparser` returned. -/
def blogKeywords (libs : Libraries) (feed : Option (List FeedEntry)) (maxEntries : ℕ) :
    Py (List (List Char)) :=
  match feed with
  | none => pure []
  | some entries => relatedWords libs 1000 (texts (entries.take maxEntries))

/-- `get_google_ai_blog_keywords`. -/
def getGoogleAiBlogKeywords (libs : Libraries) (src : Sources) (maxEntries : ℕ) :
    Py (List (List Char)) := blogKeywords libs src.googleFeed maxEntries

/-- `get_openai_blog_keywords`. -/
def getOpenaiBlogKeywords (libs : Libraries) (src : Sources) (maxEntries : ℕ) :
    Py (List (List Char)) := blogKeywords libs src.openaiFeed maxEntries

/-- `arxiv_queries`. -/
def arxivQueries : List String := [
  "artificial intelligence",
  "machine learning",
  "deep learning",
  "computer vision",
  "natural language processing",
  "transformers",
  "generative AI",
  "robotics",
  "autonomous systems",
  "data science",
  "federated learning",
  "adversarial",
  "supervised learning",
  "unsupervised learning",
  "semi-supervised learning",
  "self-supervised learning",
  "bayesian networks",
  "automl",
  "language models",
  "prompt engineering",
  "foundation models",
  "large language models",
  "transfer learning",
  "reinforcement learning"]

/-- The set `all_keywords`. -/
def allKeywords (libs : Libraries) (src : Sources) : Py (List (List Char)) := do
  let devtoTags ← getDevtoAiTags libs src.devtoTags
  let arxivWords ← gather (fun q => getArxivKeywords libs src.arxiv q 800) arxivQueries
  let googleAiWords ← getGoogleAiBlogKeywords libs src 50
  let openaiWords ← getOpenaiBlogKeywords libs src 30
  pure (libs.setOrder (devtoTags++arxivWords++googleAiWords++openaiWords))

/-- The keyword file after a run of `open.py`. -/
def mainOpen (libs : Libraries) (src : Sources) (file : Option (List Char)) :
    Option (List Char) :=
  match allKeywords libs src with
  | .ok keywords => some (combineKeywords libs.toTextTables keywords)
  | .error _ => file

/-! ### What the sources offer -/

/-- The word is counted in the texts, and fewer than n words are more common. -/
def Common (libs : Libraries) (n : ℕ) (corpus : List (List Char)) (kw : List Char) : Prop :=
  ∃ words, filteredTokens libs corpus = .ok words ∧ kw ∈ words ∧
    words.dedup.countP (MoreCommon words · kw) < n

/-- A keyword that some source offers. -/
inductive FoundBy (libs : Libraries) (src : Sources) : List Char → Prop where
  /-- The name of a tag. -/
  | tag {data : Json} {items : List Json} {members : List (String×Json)} {name : String}
      (hdata : answered src.devtoTags = some (some data)) (hitems : iterate data = .ok items)
      (hitem : .obj members ∈ items)
      (hname : (members.lookup "name").getD (.str "") = .str name) :
      FoundBy libs src (libs.lowerText (strip name.toList))
  /-- A common word of the papers for one of the queries. -/
  | arxiv {q : String} {entries : List FeedEntry} {kw : List Char} (hq : q ∈ arxivQueries)
      (hanswer : answered (src.arxiv ("all:"++q) 800) = some entries)
      (hcommon : Common libs 3000 (texts entries) kw) : FoundBy libs src kw
  /-- A common word of the first fifty posts. -/
  | google {entries : List FeedEntry} {kw : List Char} (hfeed : src.googleFeed = some entries)
      (hcommon : Common libs 1000 (texts (entries.take 50)) kw) : FoundBy libs src kw
  /-- A common word of the first thirty posts. -/
  | openai {entries : List FeedEntry} {kw : List Char} (hfeed : src.openaiFeed = some entries)
      (hcommon : Common libs 1000 (texts (entries.take 30)) kw) : FoundBy libs src kw

/-- The HTML parser accepts the texts of some entries. -/
def Parses (libs : Libraries) (entries : List FeedEntry) : Prop :=
  Returns (libs.getText (joined (texts entries)))

/-- A tag is an object whose name, if it has one, is a string. -/
def HasTagName (item : Json) : Prop :=
  ∃ members name, item = .obj members ∧ (members.lookup "name").getD (.str "") = .str name

/-- What was answered has the expected fields. -/
structure Readable (libs : Libraries) (src : Sources) : Prop where
  tags : ∀ data, answered src.devtoTags = some (some data) →
    ∃ items, iterate data = .ok items ∧ ∀ item ∈ items, HasTagName item
  arxiv : ∀ q ∈ arxivQueries, ∀ entries, answered (src.arxiv ("all:"++q) 800) = some entries →
    (∀ e ∈ entries, e.title.isSome = true ∧ e.summary.isSome = true) ∧ Parses libs entries
  google : ∀ entries, src.googleFeed = some entries → Parses libs (entries.take 50)
  openai : ∀ entries, src.openaiFeed = some entries → Parses libs (entries.take 30)

section Words

variable {libs : Libraries} {n : ℕ} {corpus : List (List Char)} {words : List (List Char)}
  {kw : List Char}

/-- The words that are returned are the common ones about AI. -/
theorem relatedWords_eq_ok (h : relatedWords libs n corpus = .ok words) :
    kw ∈ words ↔ Common libs n corpus kw ∧ isAiRelated libs.toTextTables kw = true := by
  obtain ⟨filtered,hfiltered,hwords⟩ := bind_eq_ok.mp h
  rw [← pure_eq_ok.mp hwords,List.mem_filter,mem_commonWords]
  constructor
  · rintro ⟨hcommon,hrelated⟩
    exact ⟨⟨filtered,hfiltered,hcommon⟩,hrelated⟩
  · rintro ⟨⟨other,hother,hcommon⟩,hrelated⟩
    rw [hfiltered] at hother
    obtain rfl := Except.ok.inj hother
    exact ⟨hcommon,hrelated⟩

theorem relatedWords_returns : Returns (relatedWords libs n corpus) ↔
    Returns (libs.getText (joined corpus)) := by
  rw [relatedWords,filteredTokens,returns_bind]
  constructor
  · rintro ⟨filtered,h,-⟩
    obtain ⟨text,htext,-⟩ := bind_eq_ok.mp h
    exact ⟨text,htext⟩
  · rintro ⟨text,htext⟩
    exact ⟨_,by rw [htext,ok_bind]; rfl,returns_pure _⟩

theorem ascii_of_allowed {c : Char} (h : allowed c = true) : isAscii c = true := by
  rw [allowed,Bool.or_eq_true,Bool.or_eq_true,decide_eq_true_eq] at h
  rcases h with (h | h) | rfl
  · simp only [isAscii,decide_eq_true_eq,Char.toNat]
    rcases Bool.or_eq_true_iff.mp h with h | h
    · have hle : c.val ≤ ('Z').val := (of_decide_eq_true h).2
      exact Nat.lt_of_le_of_lt (UInt32.le_iff_toNat_le.mp hle) (by decide)
    · have hle : c.val ≤ ('z').val := of_decide_eq_true (Bool.and_eq_true_iff.mp h).2
      exact Nat.lt_of_le_of_lt (UInt32.le_iff_toNat_le.mp hle) (by decide)
  · simp only [Char.isDigit,Bool.and_eq_true,decide_eq_true_eq,UInt32.le_iff_toNat_le] at h
    simp only [isAscii,decide_eq_true_eq,Char.toNat]
    exact Nat.lt_of_le_of_lt h.2 (by decide)
  · decide

/-- What is counted was gathered from a lower-cased text. -/
theorem Common.raw (h : Common libs n corpus kw) : RawKeyword libs.toTextTables kw := by
  obtain ⟨words,hwords,hkw,-⟩ := h
  obtain ⟨text,-,hfiltered⟩ := bind_eq_ok.mp hwords
  rw [← pure_eq_ok.mp hfiltered] at hkw
  have htoken := List.mem_of_mem_filter hkw
  have hchar : ∀ c ∈ libs.lowerText (onlyAllowed text), isSpace c = true ∨
      (allowed c = true ∧ c.toLower = c) := by
    intro c hc
    obtain ⟨d,hd,hdc⟩ := CaseTables.mem_lowerFrom hc
    obtain ⟨e,-,rfl⟩ := List.mem_map.mp hd
    have hkept : allowed (if allowed e || isSpace e then e else ' ') = true ∨
        isSpace (if allowed e || isSpace e then e else ' ') = true := by
      split
      · rename_i hor
        exact Bool.or_eq_true_iff.mp hor
      · exact .inr (by decide)
    generalize (if allowed e || isSpace e then e else ' ') = d at hdc hkept
    rcases hkept with hd | hd
    · have hascii := ascii_of_allowed hd
      have hne : d ≠ 'Σ' := by
        rintro rfl
        exact absurd hascii (by decide)
      rw [CaseTables.Becomes,if_neg hne,libs.lower_ascii d hascii,List.mem_singleton] at hdc
      have hlower : allowed d.toLower = true ∧ d.toLower.toLower = d.toLower :=
        ascii_cases (p := fun d => allowed d = true →
          allowed d.toLower = true ∧ d.toLower.toLower = d.toLower) (by decide +kernel) d hascii hd
      rw [hdc]
      exact .inr hlower
    · have hne : d ≠ 'Σ' := by
        rintro rfl
        exact absurd hd (by decide)
      rw [CaseTables.Becomes,if_neg hne,libs.lower_isSpace d hd,List.mem_singleton] at hdc
      rw [hdc]
      exact .inl hd
  obtain ⟨hpart,hspace⟩ := libs.token_infix _ (fun c hc =>
    (hchar c hc).elim .inr fun h => .inl h.1) kw htoken
  refine .token kw (CaseTables.lowerFrom_of_ascii fun c hc => ?_) hspace
  rcases hchar c (hpart.subset hc) with h | ⟨hallowed,hlower⟩
  · rw [hspace c hc] at h
    cases h
  · exact ⟨ascii_of_allowed hallowed,hlower⟩

theorem FoundBy.raw {src : Sources} (h : FoundBy libs src kw) :
    RawKeyword libs.toTextTables kw := by
  cases h with
  | tag => exact .tag _
  | arxiv _ _ hcommon => exact hcommon.raw
  | google _ hcommon => exact hcommon.raw
  | openai _ hcommon => exact hcommon.raw

end Words

/-! ### The sources -/

section Sources

variable {libs : Libraries} {words : List (List Char)} {kw : List Char}

theorem getAttribute_eq_ok {value : Option (List Char)} {text : List Char} :
    getAttribute value = .ok text ↔ value = some text := by
  cases value with
  | none => simp [getAttribute,throw,throwThe,MonadExceptOf.throw]
  | some found => simp [getAttribute]

/-- The corpus of arXiv is collected when every entry has its two texts. -/
theorem arxivCorpus_eq_ok {entries : List FeedEntry} {corpus : List (List Char)} :
    gather (fun e => do
      let title ← getAttribute e.title
      let summary ← getAttribute e.summary
      pure [title,summary]) entries = .ok corpus ↔
    (∀ e ∈ entries, e.title.isSome = true ∧ e.summary.isSome = true) ∧
      corpus = texts entries := by
  induction entries generalizing corpus with
  | nil =>
    rw [gather_nil]
    constructor
    · intro h
      exact ⟨(fun _ he => nomatch he),(Except.ok.inj h).symm⟩
    · rintro ⟨-,hcorpus⟩
      rw [hcorpus]
      rfl
  | cons e rest ih =>
    rw [gather_cons_eq_ok,List.forall_mem_cons]
    constructor
    · rintro ⟨here,later,hhere,hlater,rfl⟩
      obtain ⟨title,htitle,hrest⟩ := bind_eq_ok.mp hhere
      obtain ⟨summary,hsummary,hpair⟩ := bind_eq_ok.mp hrest
      rw [getAttribute_eq_ok] at htitle hsummary
      obtain ⟨hall,rfl⟩ := ih.mp hlater
      refine ⟨⟨⟨by rw [htitle]; rfl,by rw [hsummary]; rfl⟩,hall⟩,?_⟩
      rw [← pure_eq_ok.mp hpair]
      change _ = (e.title.toList++e.summary.toList)++texts rest
      rw [htitle,hsummary]
      rfl
    · rintro ⟨⟨⟨htitle,hsummary⟩,hall⟩,rfl⟩
      obtain ⟨title,htitle⟩ := Option.isSome_iff_exists.mp htitle
      obtain ⟨summary,hsummary⟩ := Option.isSome_iff_exists.mp hsummary
      refine ⟨[title,summary],texts rest,?_,ih.mpr ⟨hall,rfl⟩,?_⟩
      · rw [htitle,hsummary]
        rfl
      · change (e.title.toList++e.summary.toList)++texts rest = _
        rw [htitle,hsummary]
        rfl

theorem getArxivKeywords_returns {request : String → ℕ → Option (ℕ×List FeedEntry)}
    {q : String} {n : ℕ} : Returns (getArxivKeywords libs request q n) ↔
      ∀ entries, answered (request ("all:"++q) n) = some entries →
        (∀ e ∈ entries, e.title.isSome = true ∧ e.summary.isSome = true) ∧
          Parses libs entries := by
  rw [getArxivKeywords]
  cases answered (request ("all:"++q) n) with
  | none => simp
  | some entries =>
    dsimp only
    rw [returns_bind]
    constructor
    · rintro ⟨corpus,hcorpus,hreturns⟩ other hother
      obtain rfl := Option.some.inj hother
      obtain ⟨hall,rfl⟩ := arxivCorpus_eq_ok.mp hcorpus
      exact ⟨hall,relatedWords_returns.mp hreturns⟩
    · intro h
      obtain ⟨hall,hparses⟩ := h entries rfl
      exact ⟨texts entries,arxivCorpus_eq_ok.mpr ⟨hall,rfl⟩,relatedWords_returns.mpr hparses⟩

theorem mem_getArxivKeywords {request : String → ℕ → Option (ℕ×List FeedEntry)} {q : String}
    {n : ℕ} (h : getArxivKeywords libs request q n = .ok words) : kw ∈ words ↔
      (∃ entries, answered (request ("all:"++q) n) = some entries ∧
        Common libs 3000 (texts entries) kw) ∧ isAiRelated libs.toTextTables kw = true := by
  rw [getArxivKeywords] at h
  cases hanswer : answered (request ("all:"++q) n) with
  | none =>
    rw [hanswer] at h
    obtain rfl := pure_eq_ok.mp h
    simp
  | some entries =>
    rw [hanswer] at h
    obtain ⟨corpus,hcorpus,hwords⟩ := bind_eq_ok.mp h
    obtain ⟨-,rfl⟩ := arxivCorpus_eq_ok.mp hcorpus
    rw [relatedWords_eq_ok hwords]
    simp

theorem blogKeywords_returns {feed : Option (List FeedEntry)} {n : ℕ} :
    Returns (blogKeywords libs feed n) ↔
      ∀ entries, feed = some entries → Parses libs (entries.take n) := by
  cases feed with
  | none => simp [blogKeywords]
  | some entries =>
    rw [blogKeywords,relatedWords_returns]
    simp [Parses]

theorem mem_blogKeywords {feed : Option (List FeedEntry)} {n : ℕ}
    (h : blogKeywords libs feed n = .ok words) : kw ∈ words ↔
      (∃ entries, feed = some entries ∧ Common libs 1000 (texts (entries.take n)) kw) ∧
        isAiRelated libs.toTextTables kw = true := by
  cases feed with
  | none =>
    obtain rfl := pure_eq_ok.mp h
    simp
  | some entries =>
    rw [blogKeywords] at h
    rw [relatedWords_eq_ok h]
    simp

/-- A tag has a name when its item is an object with a string or without one. -/
theorem tagName_eq_ok {item : Json} {tag : List Char} : tagName libs item = .ok tag ↔
    ∃ members name, item = .obj members ∧ (members.lookup "name").getD (.str "") = .str name ∧
      tag = libs.lowerText (strip name.toList) := by
  rw [tagName]
  cases item with
  | obj members =>
    rw [get_obj,ok_bind]
    cases hname : (members.lookup "name").getD (.str "") with
    | str name =>
      dsimp only
      rw [pure_eq_ok]
      constructor
      · rintro rfl
        exact ⟨members,name,rfl,hname,rfl⟩
      · rintro ⟨other,name',hother,hname',rfl⟩
        cases hother
        rw [hname] at hname'
        cases hname'
        rfl
    | _ => simp [hname,throw,throwThe,MonadExceptOf.throw]
  | _ => simp [PythonRuntime.get]

theorem getDevtoAiTags_returns {answer : Option (ℕ×Option Json)} :
    Returns (getDevtoAiTags libs answer) ↔ ∀ data, answered answer = some (some data) →
      ∃ items, iterate data = .ok items ∧ ∀ item ∈ items, HasTagName item := by
  have hitem : ∀ item, Returns (do
      let tag ← tagName libs item
      pure (if isAiRelated libs.toTextTables tag then [tag] else []) : Py _) ↔
      HasTagName item := by
    intro item
    rw [returns_bind]
    constructor
    · rintro ⟨tag,htag,-⟩
      obtain ⟨members,name,hmembers,hname,-⟩ := tagName_eq_ok.mp htag
      exact ⟨members,name,hmembers,hname⟩
    · rintro ⟨members,name,hmembers,hname⟩
      exact ⟨_,tagName_eq_ok.mpr ⟨members,name,hmembers,hname,rfl⟩,returns_pure _⟩
  rw [getDevtoAiTags]
  cases hanswer : answered answer with
  | none => simp
  | some body =>
    cases body with
    | none => simp
    | some data =>
      rw [Option.join_some]
      dsimp only
      rw [returns_bind]
      constructor
      · rintro ⟨items,hitems,hrest⟩ other hother
        cases hother
        obtain ⟨tags,htags,-⟩ := returns_bind.mp hrest
        have hall := gather_returns.mp ⟨tags,htags⟩
        exact ⟨items,hitems,fun item hmem => (hitem item).mp (hall item hmem)⟩
      · intro h
        obtain ⟨items,hitems,hall⟩ := h data rfl
        obtain ⟨tags,htags⟩ := gather_returns.mpr fun item hmem => (hitem item).mpr (hall item hmem)
        exact ⟨items,hitems,returns_bind.mpr ⟨tags,htags,returns_pure _⟩⟩

theorem mem_getDevtoAiTags {answer : Option (ℕ×Option Json)}
    (h : getDevtoAiTags libs answer = .ok words) : kw ∈ words ↔
      (∃ data items members name, answered answer = some (some data) ∧
        iterate data = .ok items ∧ Json.obj members ∈ items ∧
        (members.lookup "name").getD (.str "") = .str name ∧
        kw = libs.lowerText (strip name.toList)) ∧
      isAiRelated libs.toTextTables kw = true := by
  rw [getDevtoAiTags] at h
  cases hanswer : answered answer with
  | none =>
    rw [hanswer] at h
    obtain rfl := pure_eq_ok.mp h
    simp
  | some body =>
    rw [hanswer] at h
    cases body with
    | none =>
      obtain rfl := pure_eq_ok.mp h
      simp
    | some data =>
      obtain ⟨items,hitems,hrest⟩ := bind_eq_ok.mp h
      obtain ⟨tags,htags,hwords⟩ := bind_eq_ok.mp hrest
      rw [← pure_eq_ok.mp hwords,libs.mem_setOrder,mem_gather htags]
      constructor
      · rintro ⟨item,hmem,here,hhere,hkw⟩
        obtain ⟨tag,htag,hkept⟩ := bind_eq_ok.mp hhere
        obtain ⟨members,name,rfl,hname,rfl⟩ := tagName_eq_ok.mp htag
        rw [← pure_eq_ok.mp hkept] at hkw
        split at hkw
        · rename_i hrelated
          rw [List.mem_singleton.mp hkw]
          exact ⟨⟨data,items,members,name,rfl,hitems,hmem,hname,rfl⟩,hrelated⟩
        · cases hkw
      · rintro ⟨⟨other,items',members,name,hother,hitems',hmem,hname,rfl⟩,hrelated⟩
        cases hother
        rw [hitems] at hitems'
        obtain rfl := Except.ok.inj hitems'
        refine ⟨.obj members,hmem,[libs.lowerText (strip name.toList)],?_,List.mem_singleton_self _⟩
        rw [tagName_eq_ok.mpr ⟨members,name,rfl,hname,rfl⟩,ok_bind,if_pos hrelated]
        rfl

theorem allKeywords_returns {src : Sources} :
    Returns (allKeywords libs src) ↔ Readable libs src := by
  rw [allKeywords,returns_bind]
  constructor
  · rintro ⟨tags,htags,hrest⟩
    obtain ⟨papers,hpapers,hrest⟩ := returns_bind.mp hrest
    obtain ⟨google,hgoogle,hrest⟩ := returns_bind.mp hrest
    obtain ⟨openai,hopenai,-⟩ := returns_bind.mp hrest
    refine ⟨getDevtoAiTags_returns.mp ⟨tags,htags⟩,fun q hq => ?_,
      blogKeywords_returns.mp ⟨google,hgoogle⟩,blogKeywords_returns.mp ⟨openai,hopenai⟩⟩
    exact getArxivKeywords_returns.mp (gather_returns.mp ⟨papers,hpapers⟩ q hq)
  · intro h
    obtain ⟨tags,htags⟩ := getDevtoAiTags_returns.mpr h.tags
    obtain ⟨papers,hpapers⟩ := gather_returns.mpr fun q hq =>
      getArxivKeywords_returns.mpr (h.arxiv q hq)
    obtain ⟨google,hgoogle⟩ := blogKeywords_returns.mpr h.google
    obtain ⟨openai,hopenai⟩ := blogKeywords_returns.mpr h.openai
    refine ⟨tags,htags,returns_bind.mpr ⟨papers,hpapers,returns_bind.mpr ⟨google,hgoogle,?_⟩⟩⟩
    exact returns_bind.mpr ⟨openai,hopenai,returns_pure _⟩

/-- The set has the keywords that some source offers. -/
theorem mem_allKeywords {src : Sources} (h : allKeywords libs src = .ok words) :
    kw ∈ words ↔ FoundBy libs src kw ∧ isAiRelated libs.toTextTables kw = true := by
  obtain ⟨tags,htags,hrest⟩ := bind_eq_ok.mp h
  obtain ⟨papers,hpapers,hrest⟩ := bind_eq_ok.mp hrest
  obtain ⟨google,hgoogle,hrest⟩ := bind_eq_ok.mp hrest
  obtain ⟨openai,hopenai,hwords⟩ := bind_eq_ok.mp hrest
  rw [← pure_eq_ok.mp hwords,libs.mem_setOrder,List.mem_append,List.mem_append,List.mem_append,
    mem_getDevtoAiTags htags,mem_gather hpapers,mem_blogKeywords hgoogle,mem_blogKeywords hopenai]
  constructor
  · rintro (((⟨⟨data,items,members,name,hdata,hitems,hmem,hname,rfl⟩,hrelated⟩ |
        ⟨q,hq,part,hpart,hkw⟩) | ⟨⟨entries,hfeed,hcommon⟩,hrelated⟩) |
        ⟨⟨entries,hfeed,hcommon⟩,hrelated⟩)
    · exact ⟨.tag hdata hitems hmem hname,hrelated⟩
    · obtain ⟨⟨entries,hanswer,hcommon⟩,hrelated⟩ := (mem_getArxivKeywords hpart).mp hkw
      exact ⟨.arxiv hq hanswer hcommon,hrelated⟩
    · exact ⟨.google hfeed hcommon,hrelated⟩
    · exact ⟨.openai hfeed hcommon,hrelated⟩
  · rintro ⟨hfound,hrelated⟩
    cases hfound with
    | tag hdata hitems hitem hname =>
      exact .inl (.inl (.inl ⟨⟨_,_,_,_,hdata,hitems,hitem,hname,rfl⟩,hrelated⟩))
    | @arxiv q entries _ hq hanswer hcommon =>
      obtain ⟨part,hpart⟩ := gather_returns.mp ⟨papers,hpapers⟩ q hq
      exact .inl (.inl (.inr ⟨q,hq,part,hpart,
        (mem_getArxivKeywords hpart).mpr ⟨⟨entries,hanswer,hcommon⟩,hrelated⟩⟩))
    | google hfeed hcommon => exact .inl (.inr ⟨⟨_,hfeed,hcommon⟩,hrelated⟩)
    | openai hfeed hcommon => exact .inr ⟨⟨_,hfeed,hcommon⟩,hrelated⟩

end Sources

/-! ### The file -/

/-- What a run makes of the keyword file. -/
structure HarvestOf (libs : Libraries) (src : Sources) (file file' : Option (List Char)) :
    Prop where
  /-- A run that meets something unexpected leaves the file as it was. -/
  stopped : ¬Readable libs src → file' = file
  /-- Any other run writes the clean keywords that some source offers, in order
  and each once, and every scraper reads these back. -/
  written : Readable libs src → ∃ keywords, file' = some (written keywords) ∧
    keywords.Pairwise (· < ·) ∧
    (∀ kw, kw ∈ keywords ↔ CleanKeyword libs.toTextTables kw ∧ FoundBy libs src kw) ∧
    (keywords ≠ [] → ∀ loader,
      load libs.toCaseTables loader file' = keywords.map String.ofList)

/-- Whatever the sources answer, whichever requests fail and in whatever order
the set is iterated. -/
theorem mainOpen_harvests (libs : Libraries) (src : Sources) (file : Option (List Char)) :
    HarvestOf libs src file (mainOpen libs src file) := by
  rw [mainOpen]
  cases hall : allKeywords libs src with
  | error e =>
    have hnot : ¬Readable libs src := fun h => by
      obtain ⟨words,hwords⟩ := allKeywords_returns.mpr h
      rw [hall] at hwords
      cases hwords
    exact ⟨fun _ => rfl,fun h => absurd h hnot⟩
  | ok words =>
    have hreadable : Readable libs src := allKeywords_returns.mp ⟨words,hall⟩
    have hraw : ∀ kw ∈ words, RawKeyword libs.toTextTables kw := fun kw hkw =>
      ((mem_allKeywords hall).mp hkw).1.raw
    refine ⟨fun h => absurd hreadable h,fun _ => ⟨cleaned libs.toTextTables words,rfl,
      cleaned_pairwise,fun kw => ?_,fun hne loader => ?_⟩⟩
    · rw [mem_cleaned_iff hraw]
      constructor
      · rintro ⟨hkw,hclean⟩
        exact ⟨hclean,((mem_allKeywords hall).mp hkw).1⟩
      · rintro ⟨hclean,hfound⟩
        exact ⟨(mem_allKeywords hall).mpr ⟨hfound,hclean.related⟩,hclean⟩
    · exact cleaned_readBack hraw hne loader

end Senca.KeywordSources
