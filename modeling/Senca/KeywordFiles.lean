import Senca.PythonCase

/-!
# The keyword loaders

Eleven scrapers read a file with one keyword on each line. A keyword stands
bare, in double quotes, or in quotes with a comma behind. All loaders strip
the line and then quotes and commas together, some of them lower-case on
the way; `load_keywords` of `tools.py` strips the quotes before the commas
and so keeps the closing quote of the third form.
-/

namespace Senca.KeywordFiles

open PythonCase PythonText TextScanning

/-! ### Reading a file -/

/-- The lines of a translated text, each with its line end; the line collected
so far is kept reversed. -/
def linesFrom : List Char → List Char → List (List Char)
  | [],[] => []
  | line,[] => [line.reverse]
  | line,c::rest =>
    if c = '\n' then (c::line).reverse::linesFrom [] rest else linesFrom (c::line) rest

/-- `for line in f` and `f.readlines()`. -/
def readLines (text : List Char) : List (List Char) := linesFrom [] (universalNewlines false text)

/-! ### The loaders -/

/-- A double quote or a comma. -/
def isWrapper (c : Char) : Bool := c = '"' || c = ','

/-- `text.strip('",')`. -/
def stripWrappers (text : List Char) : List Char := trim isWrapper text

/-- The keywords of a file: what is left of its lines, without the empty ones. -/
def keywordsOf (decode : List Char → List Char) (text : List Char) : List (List Char) :=
  ((readLines text).map decode).filter (· ≠ [])

/-- The common shape of the loaders: one answer for a file that is not there,
one for a file without keywords. -/
def loadWith (decode : List Char → List Char) (missing empty : List String)
    (file : Option (List Char)) : List String :=
  match file with
  | none => missing
  | some text =>
    let keywords := keywordsOf decode text
    if keywords = [] then empty else keywords.map String.ofList

/-- `line.strip().strip('",')`. -/
def decodeLine (line : List Char) : List Char := stripWrappers (strip line)

/-- `line.strip().lower().strip('",')`. -/
def decodeLowered (tables : CaseTables) (line : List Char) : List Char :=
  stripWrappers (tables.lowerText (strip line))

/-- `load_all_devto_keywords` of `devto.py`. -/
def loadAllDevtoKeywords (tables : CaseTables) : Option (List Char) → List String :=
  loadWith (decodeLowered tables) ["ai"] ["ai"]

/-- `load_all_keywords` of `fetch_papers.py`. -/
def loadAllPaperKeywords : Option (List Char) → List String :=
  loadWith decodeLine ["artificial intelligence"] ["artificial intelligence"]

/-- `load_all_github_keywords` of `github.py`. -/
def loadAllGithubKeywords : Option (List Char) → List String :=
  loadWith decodeLine ["artificial intelligence"] ["artificial intelligence"]

/-- `load_all_keywords` of `huggingface.py`. -/
def loadAllHuggingfaceKeywords : Option (List Char) → List String :=
  loadWith decodeLine ["AI"] ["AI"]

/-- `load_all_newsapi_keywords` of `news_api.py`. -/
def loadAllNewsapiKeywords : Option (List Char) → List String :=
  loadWith decodeLine ["artificial intelligence"] ["artificial intelligence"]

/-- `load_all_arxiv_keywords` of `scrape.py`. -/
def loadAllArxivKeywords (tables : CaseTables) : Option (List Char) → List String :=
  loadWith (decodeLowered tables) ["artificial intelligence","machine learning"]
    ["artificial intelligence"]

/-- `load_all_spotify_keywords` of `spotify1.py`. -/
def loadAllSpotifyKeywords : Option (List Char) → List String :=
  loadWith decodeLine ["Artificial Intelligence"] ["Artificial Intelligence"]

/-- `load_all_twitter_keywords` of `tweets.py`. -/
def loadAllTwitterKeywords : Option (List Char) → List String :=
  loadWith decodeLine ["AI","Artificial Intelligence"] ["AI"]

/-- `load_all_podcast_keywords` of `podcasts.py`. -/
def loadAllPodcastKeywords : Option (List Char) → List String :=
  loadWith decodeLine ["AI","Artificial Intelligence"] ["AI","Artificial Intelligence"]

/-- `load_youtube_keywords` of `youtube.py`. -/
def loadYoutubeKeywords (tables : CaseTables) : Option (List Char) → List String :=
  loadWith (fun line => tables.lowerText (decodeLine line)) ["artificial intelligence news"]
    ["artificial intelligence news"]

/-- `line.strip().strip('"').strip(',')`. -/
def decodeToolLine (line : List Char) : List Char :=
  trim (· = ',') (trim (· = '"') (strip line))

/-- `load_keywords` of `tools.py`: the missing file raises inside its `try`, and
the keywords are lower-cased after the empty ones are dropped. -/
def loadKeywords (tables : CaseTables) (file : Option (List Char)) : List String :=
  match file with
  | none => []
  | some text => (keywordsOf decodeToolLine text).map (fun k => String.ofList (tables.lowerText k))

/-- The scrapers with a loader of their own. -/
inductive Loader where
  | devto
  | fetchPapers
  | github
  | huggingface
  | newsApi
  | scrape
  | spotify1
  | tweets
  | podcasts
  | youtube
  | tools
  deriving DecidableEq

/-- The loader of a scraper. -/
def load (tables : CaseTables) : Loader → Option (List Char) → List String
  | .devto => loadAllDevtoKeywords tables
  | .fetchPapers => loadAllPaperKeywords
  | .github => loadAllGithubKeywords
  | .huggingface => loadAllHuggingfaceKeywords
  | .newsApi => loadAllNewsapiKeywords
  | .scrape => loadAllArxivKeywords tables
  | .spotify1 => loadAllSpotifyKeywords
  | .tweets => loadAllTwitterKeywords
  | .podcasts => loadAllPodcastKeywords
  | .youtube => loadYoutubeKeywords tables
  | .tools => loadKeywords tables

/-- The loaders that lower-case. -/
def lowers : Loader → Bool
  | .devto => true
  | .scrape => true
  | .youtube => true
  | .tools => true
  | _ => false

/-- A keyword as a loader hands it on. -/
def cased (tables : CaseTables) (loader : Loader) (keyword : List Char) : List Char :=
  if lowers loader then tables.lowerText keyword else keyword

/-! ### The lines of a file -/

/-- A line feed or a carriage return. -/
def isNewline (c : Char) : Bool := c = '\n' || c = '\r'

section Lines

variable {decode : List Char → List Char} {text : List Char}

/-- Line ends do not reach the keywords: they are those of the pieces between
line ends, where the two characters of one line end leave an empty piece. -/
theorem filter_linesFrom (hline : ∀ line, decode (line++['\n']) = decode line)
    (hnil : decode [] = []) (afterReturn : Bool) (line : List Char)
    (hstart : afterReturn = true → line = []) :
    ((linesFrom line (universalNewlines afterReturn text)).map decode).filter (· ≠ []) =
      ((text.splitOnPPrepend isNewline line).map decode).filter (· ≠ []) := by
  induction text generalizing afterReturn line with
  | nil =>
    cases line with
    | nil => simp [universalNewlines,linesFrom,hnil]
    | cons c line => rfl
  | cons c rest ih =>
    have hrest : ∀ flag, ((linesFrom [] (universalNewlines flag rest)).map decode).filter
        (· ≠ []) = ((rest.splitOnP isNewline).map decode).filter (· ≠ []) :=
      fun flag => ih flag [] fun _ => rfl
    have hend : ∀ flag, ((linesFrom line ('\n'::universalNewlines flag rest)).map decode).filter
        (· ≠ []) = ((line.reverse::rest.splitOnP isNewline).map decode).filter (· ≠ []) := by
      intro flag
      have hlines : linesFrom line ('\n'::universalNewlines flag rest) =
          (line.reverse++['\n'])::linesFrom [] (universalNewlines flag rest) := by
        cases line <;> simp [linesFrom]
      rw [hlines,List.map_cons,List.map_cons,hline,List.filter_cons,List.filter_cons,hrest]
    by_cases hreturn : c = '\r'
    · rw [universalNewlines,if_pos hreturn,
        List.splitOnPPrepend_cons_pos (by simp [isNewline,hreturn]),hend]
    rw [universalNewlines,if_neg hreturn]
    by_cases hfeed : c = '\n'
    · rw [List.splitOnPPrepend_cons_pos (by simp [isNewline,hfeed])]
      by_cases hafter : afterReturn = true
      · obtain rfl := hstart hafter
        rw [if_pos ⟨hfeed,hafter⟩,hrest]
        simp [hnil]
      · rw [if_neg fun h => hafter h.2,hfeed,hend]
    · rw [if_neg fun h => hfeed h.1,
        List.splitOnPPrepend_cons_neg (by simp [isNewline,hreturn,hfeed]),
        ← ih false (c::line) fun h => absurd h Bool.false_ne_true]
      cases line <;> simp [linesFrom,hfeed]

/-- The keywords of a file, for a decoder that strips the line first. -/
theorem keywordsOf_strip {decode : List Char → List Char} (hnil : decode [] = [])
    (text : List Char) :
    keywordsOf (fun line => decode (strip line)) text =
      ((text.splitOnP isNewline).map (fun line => decode (strip line))).filter (· ≠ []) := by
  refine filter_linesFrom (fun line => ?_) ?_ false [] fun h => absurd h Bool.false_ne_true
  · have hfeed : strip (line++['\n']) = strip line :=
      trim_append_right (List.forall_mem_singleton.mpr (by decide))
    rw [hfeed]
  · exact hnil

end Lines

/-! ### Written keywords -/

/-- The three forms of a keyword on a line. -/
inductive Form where
  /-- The keyword alone. -/
  | bare
  /-- In double quotes. -/
  | quoted
  /-- In double quotes, with a comma behind. -/
  | quotedComma
  deriving DecidableEq

/-- A keyword in one of the forms. -/
structure Entry where
  /-- How it is written. -/
  form : Form
  /-- The keyword. -/
  keyword : List Char

/-- The text of an entry. -/
def Entry.written (entry : Entry) : List Char :=
  match entry.form with
  | .bare => entry.keyword
  | .quoted => '"'::entry.keyword++['"']
  | .quotedComma => '"'::entry.keyword++['"',',']

/-- A text that is not empty and neither starts nor ends with whitespace, a
double quote or a comma. -/
structure Keyword (keyword : List Char) : Prop where
  /-- It has a character. -/
  ne_nil : keyword ≠ []
  /-- No whitespace at its ends. -/
  spaces : Trimmed isSpace keyword
  /-- No quotes or commas at its ends. -/
  wrappers : Trimmed isWrapper keyword

/-- The lines of a file that holds the entries, one on a line, with whitespace
around and blank lines between. -/
inductive Writes : List (List Char) → List Entry → Prop where
  /-- The end of the file. -/
  | nil : Writes [] []
  /-- A blank line. -/
  | blank {line lines entries} (hline : ∀ c ∈ line, isSpace c = true)
      (h : Writes lines entries) : Writes (line::lines) entries
  /-- A line with an entry. -/
  | entry {lines entries} (left right : List Char) (entry : Entry)
      (hl : ∀ c ∈ left, isSpace c = true) (hr : ∀ c ∈ right, isSpace c = true)
      (h : Writes lines entries) :
      Writes ((left++entry.written++right)::lines) (entry::entries)

section Written

variable {entry : Entry} {keyword : List Char}

theorem wrappers_around (form : Form) :
    ∃ before after, (∀ k, (Entry.mk form k).written = before++k++after) ∧
      (∀ c ∈ before, isWrapper c = true) ∧ ∀ c ∈ after, isWrapper c = true := by
  cases form with
  | bare =>
    exact ⟨[],[],fun k => by simp [Entry.written],List.forall_mem_nil _,List.forall_mem_nil _⟩
  | quoted =>
    have hquote : ∀ c ∈ ['"'], isWrapper c = true := List.forall_mem_singleton.mpr rfl
    exact ⟨['"'],['"'],fun k => rfl,hquote,hquote⟩
  | quotedComma =>
    exact ⟨['"'],['"',','],fun k => rfl,List.forall_mem_singleton.mpr rfl,
      List.all_eq_true.mp rfl⟩

/-- An entry starts and ends without whitespace. -/
theorem written_trimmed (h : Keyword entry.keyword) : Trimmed isSpace entry.written := by
  obtain ⟨form,keyword⟩ := entry
  cases form with
  | bare => exact h.spaces
  | quoted => exact trimmed_between (by decide) (by decide) keyword
  | quotedComma =>
    have hwritten : (Entry.mk .quotedComma keyword).written = '"'::((keyword++['"'])++[',']) := by
      simp [Entry.written]
    rw [hwritten]
    exact trimmed_between (by decide) (by decide) _

theorem stripWrappers_written (form : Form) (h : Trimmed isWrapper keyword) :
    stripWrappers (Entry.mk form keyword).written = keyword := by
  obtain ⟨before,after,hwritten,hb,ha⟩ := wrappers_around form
  rw [stripWrappers,hwritten,trim_surround hb ha,trim_eq_self h]

/-- The lines of a file lead to its entries, each decoded on its own. -/
theorem keywordsOf_writes (decode : List Char → List Char) {value : Entry → List Char}
    (hnil : decode [] = []) {text : List Char} {entries : List Entry}
    (hw : Writes (text.splitOnP isNewline) entries) (hk : ∀ e ∈ entries, Keyword e.keyword)
    (hvalue : ∀ e ∈ entries, decode e.written = value e) (hne : ∀ e ∈ entries, value e ≠ []) :
    keywordsOf (fun line => decode (strip line)) text = entries.map value := by
  rw [keywordsOf_strip hnil]
  generalize text.splitOnP isNewline = lines at hw
  induction hw with
  | nil => rfl
  | @blank line lines entries hline h ih =>
    have hblank : strip line = [] := by
      have htrim : trim isSpace (line++[]) = trim isSpace [] := trim_append_left hline
      rwa [List.append_nil] at htrim
    rw [List.map_cons,List.filter_cons_of_neg (by simp [hblank,hnil]),ih hk hvalue hne]
  | @entry lines entries left right entry hl hr h ih =>
    rw [List.forall_mem_cons] at hk hvalue hne
    have hstrip : strip (left++entry.written++right) = entry.written := by
      rw [strip_eq,trim_surround hl hr]
      exact trim_eq_self (written_trimmed hk.1)
    rw [List.map_cons,hstrip,hvalue.1,List.filter_cons_of_pos (by simpa using hne.1),List.map_cons,
      ih hk.2 hvalue.2 hne.2]

end Written

/-! ### What the loaders return -/

section Load

variable {tables : CaseTables} {keyword : List Char}

theorem wrapper_sign {c : Char} (h : isWrapper c = true) : CaseTables.Sign c := by
  rcases (by simpa [isWrapper] using h : c = '"' ∨ c = ',') with rfl | rfl
  · exact ⟨by decide,by decide,by decide⟩
  · exact ⟨by decide,by decide,by decide⟩

/-- Lower-casing leaves the form of an entry alone. -/
theorem lowerText_written (tables : CaseTables) (form : Form) (keyword : List Char) :
    tables.lowerText (Entry.mk form keyword).written =
      (Entry.mk form (tables.lowerText keyword)).written := by
  have hquote : CaseTables.Sign '"' := wrapper_sign (by decide)
  have hcomma : CaseTables.Sign ',' := wrapper_sign (by decide)
  have hopen : ∀ rest, tables.lowerText ('"'::rest) = '"'::tables.lowerText rest :=
    fun rest => CaseTables.lowerFrom_append hquote false [] rest
  have hclose : ∀ rest, tables.lowerText (keyword++ '"'::rest) =
      tables.lowerText keyword++ '"'::tables.lowerText rest :=
    fun rest => CaseTables.lowerFrom_append hquote false keyword rest
  cases form with
  | bare => rfl
  | quoted =>
    change tables.lowerText ('"'::(keyword++['"'])) = _
    rw [hopen,hclose]
    rfl
  | quotedComma =>
    change tables.lowerText ('"'::(keyword++ '"'::[','])) = _
    rw [hopen,hclose]
    have : tables.lowerText [','] = ',' ::tables.lowerText [] :=
      CaseTables.lowerFrom_append hcomma false [] []
    rw [this]
    rfl

/-- A lower-cased keyword neither starts nor ends with a quote or a comma. -/
theorem lowerText_wrappers (h : Trimmed isWrapper keyword) :
    Trimmed isWrapper (tables.lowerText keyword) := by
  have hnot : ∀ {c d : Char}, isWrapper c = false → tables.Becomes c d → isWrapper d = false := by
    intro c d hc hcd
    cases hd : isWrapper d with
    | false => rfl
    | true => rw [← hd,← (wrapper_sign hd).of_becomes hcd,hc]
  constructor
  · intro d hd
    obtain ⟨c,hc,hcd⟩ := CaseTables.head?_lowerFrom hd
    exact hnot (h.first c hc) hcd
  · intro d hd
    obtain ⟨c,hc,hcd⟩ := CaseTables.getLast?_lowerFrom hd
    exact hnot (h.last c hc) hcd

/-- What `tools.py` makes of an entry: the third form keeps its closing quote. -/
def toolKeyword (entry : Entry) : List Char :=
  match entry.form with
  | .quotedComma => entry.keyword++['"']
  | _ => entry.keyword

theorem decodeToolLine_written {entry : Entry} (h : Keyword entry.keyword) :
    trim (· = ',') (trim (· = '"') entry.written) = toolKeyword entry := by
  obtain ⟨form,keyword⟩ := entry
  have hnot : ∀ {c}, isWrapper c = false → decide (c = '"') = false ∧ decide (c = ',') = false := by
    intro c hc
    simpa [isWrapper] using hc
  have hquote : Trimmed (· = '"') keyword :=
    ⟨fun c hc => (hnot (h.wrappers.first c hc)).1,fun c hc => (hnot (h.wrappers.last c hc)).1⟩
  have hcomma : Trimmed (· = ',') keyword :=
    ⟨fun c hc => (hnot (h.wrappers.first c hc)).2,fun c hc => (hnot (h.wrappers.last c hc)).2⟩
  cases form with
  | bare => exact (congrArg _ (trim_eq_self hquote)).trans (trim_eq_self hcomma)
  | quoted =>
    have hwritten : (Entry.mk .quoted keyword).written = ['"']++keyword++['"'] := rfl
    have hmark : ∀ c ∈ ['"'], decide (c = '"') = true := List.forall_mem_singleton.mpr rfl
    rw [hwritten,trim_surround hmark hmark,trim_eq_self hquote]
    exact trim_eq_self hcomma
  | quotedComma =>
    have hwritten : (Entry.mk .quotedComma keyword).written =
        ['"']++((keyword++['"'])++[',']) := by simp [Entry.written]
    -- the comma shields the closing quote
    have hshielded : Trimmed (· = '"') ((keyword++['"'])++[',']) := by
      constructor
      · rw [List.append_assoc,List.head?_append_of_ne_nil _ h.ne_nil]
        exact hquote.first
      · rw [List.getLast?_append_of_ne_nil _ (List.cons_ne_nil _ _)]
        exact (Option.any_eq_false _ _).mp rfl
    have hopen : Trimmed (· = ',') (keyword++['"']) := by
      constructor
      · rw [List.head?_append_of_ne_nil _ h.ne_nil]
        exact hcomma.first
      · rw [List.getLast?_append_of_ne_nil _ (List.cons_ne_nil _ _)]
        exact (Option.any_eq_false _ _).mp rfl
    rw [hwritten,trim_append_left (List.forall_mem_singleton.mpr rfl),trim_eq_self hshielded,
      trim_append_right (List.forall_mem_singleton.mpr rfl),trim_eq_self hopen]
    rfl

variable {text : List Char} {entries : List Entry}

/-- A loader of the common shape returns what it decodes of the entries. -/
theorem loadWith_writes (decode : List Char → List Char) {value : Entry → List Char}
    (hnil : decode [] = []) (hw : Writes (text.splitOnP isNewline) entries) (hne : entries ≠ [])
    (hk : ∀ e ∈ entries, Keyword e.keyword)
    (hvalue : ∀ e ∈ entries, decode e.written = value e) (hvalues : ∀ e ∈ entries, value e ≠ [])
    (missing empty : List String) :
    loadWith (fun line => decode (strip line)) missing empty (some text) =
      entries.map (fun e => String.ofList (value e)) := by
  rw [loadWith,keywordsOf_writes decode hnil hw hk hvalue hvalues,if_neg (by simpa using hne),
    List.map_map]
  rfl

theorem loadKeywords_writes (hw : Writes (text.splitOnP isNewline) entries)
    (hk : ∀ e ∈ entries, Keyword e.keyword) :
    loadKeywords tables (some text) =
      entries.map (fun e => String.ofList (tables.lowerText (toolKeyword e))) := by
  have hdecode : ∀ e ∈ entries, trim (· = ',') (trim (· = '"') e.written) = toolKeyword e :=
    fun e he => decodeToolLine_written (hk e he)
  have hkeyword : ∀ e ∈ entries, toolKeyword e ≠ [] := by
    intro e he
    unfold toolKeyword
    split
    · exact List.append_ne_nil_of_right_ne_nil _ (List.cons_ne_nil _ _)
    · exact (hk e he).ne_nil
  have hkeywords : keywordsOf (fun line => trim (· = ',') (trim (· = '"') (strip line))) text =
      entries.map toolKeyword :=
    keywordsOf_writes (fun l => trim (· = ',') (trim (· = '"') l)) rfl hw hk hdecode hkeyword
  have hload : loadKeywords tables (some text) =
      (keywordsOf (fun line => trim (· = ',') (trim (· = '"') (strip line))) text).map
        (fun k => String.ofList (tables.lowerText k)) := rfl
  rw [hload,hkeywords,List.map_map]
  rfl

/-- What a loader makes of an entry. -/
def loaded (tables : CaseTables) (loader : Loader) (entry : Entry) : List Char :=
  cased tables loader (if loader = .tools then toolKeyword entry else entry.keyword)

/-- Every loader returns what it makes of the entries of a file, in their order. -/
theorem load_writes (tables : CaseTables) (loader : Loader)
    (hw : Writes (text.splitOnP isNewline) entries) (hne : entries ≠ [])
    (hk : ∀ e ∈ entries, Keyword e.keyword) :
    load tables loader (some text) =
      entries.map (fun e => String.ofList (loaded tables loader e)) := by
  have hstrip : ∀ e ∈ entries, stripWrappers e.written = e.keyword :=
    fun e he => stripWrappers_written e.form (hk e he).wrappers
  have hkeyword : ∀ e ∈ entries, e.keyword ≠ [] := fun e he => (hk e he).ne_nil
  have hlower : ∀ e ∈ entries, tables.lowerText e.keyword ≠ [] :=
    fun e he => CaseTables.lowerFrom_ne_nil (hkeyword e he)
  have hlowered : ∀ e ∈ entries, stripWrappers (tables.lowerText e.written) =
      tables.lowerText e.keyword := by
    intro e he
    rw [lowerText_written tables e.form e.keyword]
    exact stripWrappers_written e.form (lowerText_wrappers (hk e he).wrappers)
  -- the three decoders of the loaders other than that of tools.py
  have hplain : ∀ missing empty, loadWith decodeLine missing empty (some text) =
      entries.map (fun e => String.ofList e.keyword) :=
    loadWith_writes stripWrappers rfl hw hne hk hstrip hkeyword
  have hbefore : ∀ missing empty, loadWith (decodeLowered tables) missing empty (some text) =
      entries.map (fun e => String.ofList (tables.lowerText e.keyword)) :=
    loadWith_writes (fun l => stripWrappers (tables.lowerText l)) rfl hw hne hk hlowered hlower
  have hafter : loadYoutubeKeywords tables (some text) =
      entries.map (fun e => String.ofList (tables.lowerText e.keyword)) :=
    loadWith_writes (fun l => tables.lowerText (stripWrappers l)) rfl hw hne hk
      (fun e he => congrArg _ (hstrip e he)) hlower _ _
  cases loader with
  | tools => exact loadKeywords_writes hw hk
  | devto => exact hbefore ["ai"] _
  | scrape => exact hbefore ["artificial intelligence","machine learning"] _
  | youtube => exact hafter
  | fetchPapers => exact hplain ["artificial intelligence"] _
  | github => exact hplain ["artificial intelligence"] _
  | huggingface => exact hplain ["AI"] _
  | newsApi => exact hplain ["artificial intelligence"] _
  | spotify1 => exact hplain ["Artificial Intelligence"] _
  | tweets => exact hplain ["AI","Artificial Intelligence"] _
  | podcasts => exact hplain ["AI","Artificial Intelligence"] _

/-- A loader hands the keyword of an entry on, except that `tools.py` spoils
the third form. -/
theorem loaded_eq_iff (tables : CaseTables) (loader : Loader) (entry : Entry) :
    loaded tables loader entry = cased tables loader entry.keyword ↔
      (loader = .tools → entry.form ≠ .quotedComma) := by
  obtain ⟨form,keyword⟩ := entry
  by_cases htools : loader = .tools
  · subst htools
    rw [loaded,if_pos rfl,forall_prop_of_true rfl]
    cases form with
    | quotedComma =>
      have hquote : tables.lowerText (keyword++['"']) =
          tables.lowerText keyword++ '"'::tables.lowerText [] :=
        CaseTables.lowerFrom_append (wrapper_sign (by decide)) false keyword []
      refine iff_of_false (fun h => ?_) (fun h => h rfl)
      have hlength := congrArg List.length (hquote.symm.trans h)
      simp [cased,lowers] at hlength
    | _ => exact iff_of_true rfl fun h => nomatch h
  · rw [loaded,if_neg htools]
    exact iff_of_true rfl fun h => absurd h htools

end Load

/-- A loader returns the keywords of a file exactly when it is not that of
`tools.py` or no keyword of the file is in quotes with a comma behind. -/
theorem load_eq_iff (tables : CaseTables) (loader : Loader) {text : List Char}
    {entries : List Entry} (hw : Writes (text.splitOnP isNewline) entries) (hne : entries ≠ [])
    (hk : ∀ e ∈ entries, Keyword e.keyword) :
    load tables loader (some text) =
        entries.map (fun e => String.ofList (cased tables loader e.keyword)) ↔
      (loader = .tools → ∀ e ∈ entries, e.form ≠ .quotedComma) := by
  rw [load_writes tables loader hw hne hk,List.map_inj_left]
  simp only [String.ofList_inj,loaded_eq_iff]
  exact ⟨fun h htools e he => h e he htools,fun h e he htools => h htools e he⟩

/-- Lower-casing of ASCII alone. -/
def sampleTables : CaseTables where
  lower c := if isAscii c then [c.toLower] else [c]
  cased c := isAscii c && c.isAlpha
  ignorable c := isAscii c && ['\'','.',':','^','`'].contains c
  lower_ascii c hc := by rw [if_pos hc]
  cased_ascii c hc := by rw [hc,Bool.true_and]
  ignorable_ascii c hc := by rw [hc,Bool.true_and,List.contains_iff_mem]
  lower_other c hc d hd hascii := by
    rw [if_neg (by rw [hc]; decide),List.mem_singleton] at hd
    rw [hd,hc] at hascii
    cases hascii
  lower_ne_nil c := by
    split <;> exact List.cons_ne_nil _ _
  lower_space c d hd hspace := by
    cases hc : isAscii c with
    | true =>
      rw [if_pos hc,List.mem_singleton] at hd
      rw [hd] at hspace
      exact ascii_cases (p := fun c => isSpace c.toLower = true → isSpace c = true)
        (by decide +kernel) c hc hspace
    | false =>
      rw [if_neg (by rw [hc]; decide),List.mem_singleton] at hd
      rwa [← hd]

/-- A bare keyword, a blank line and a quoted keyword. -/
def sampleFile : List Char := "  AI \r\n\r\n\"machine learning\"\n".toList

/-- The entries of the two lines. -/
def sampleEntries : List Entry :=
  [⟨.bare,"AI".toList⟩,⟨.quoted,"machine learning".toList⟩]

theorem sampleFile_writes : Writes (sampleFile.splitOnP isNewline) sampleEntries := by
  have hlines : sampleFile.splitOnP isNewline =
      ["  AI ".toList,[],[],[],"\"machine learning\"".toList,[]] := by decide +kernel
  rw [hlines]
  have hnone : ∀ c ∈ ([] : List Char), isSpace c = true := List.forall_mem_nil _
  refine .entry "  ".toList " ".toList ⟨.bare,"AI".toList⟩ (List.all_eq_true.mp rfl)
    (List.all_eq_true.mp rfl) (.blank hnone (.blank hnone (.blank hnone ?_)))
  exact .entry [] [] ⟨.quoted,"machine learning".toList⟩ hnone hnone (.blank hnone .nil)

theorem load_eq_iff_sample : load sampleTables .tools (some sampleFile) =
    sampleEntries.map (fun e => String.ofList (cased sampleTables .tools e.keyword)) := by
  have hkeywords : ∀ e ∈ sampleEntries, Keyword e.keyword := by
    intro e he
    rcases List.mem_pair.mp he with rfl | rfl <;>
      exact ⟨by decide,trimmed_of_ends (by decide) (by decide),
        trimmed_of_ends (by decide) (by decide)⟩
  exact (load_eq_iff sampleTables .tools sampleFile_writes (by decide) hkeywords).mpr
    fun _ => by decide

/-- The keyword file of the repository starts with such a line. -/
theorem commaLine_not_loaded :
    load sampleTables .tools (some "\"artificial intelligence\",\n".toList) ≠
      [String.ofList (cased sampleTables .tools "artificial intelligence".toList)] := by
  decide +kernel

end Senca.KeywordFiles
