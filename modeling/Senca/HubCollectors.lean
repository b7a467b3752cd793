import Senca.ItemReadings

/-!
# The Hugging Face collectors

`huggingface.py` visits the datasets and the spaces of each keyword in one
loop and ranks the two lists by their likes. Each half is a keyword
collector of its own.
-/

namespace Senca.HubCollectors

open CollectorRanking FaultLoops ItemReadings JsonValue PythonRuntime ScraperCollectors

/-! ### huggingface.py -/

/-- An entry of `ds_combined` or `sp_combined`. -/
structure HubItem where
  keyword : String
  id : Json
  likes : Json
  /-- `downloads` of a dataset, `views` of a space. -/
  count : Json
  lastModified : Json
  relevanceScore : Json
  image : String
  createdAt : String

/-- The fetch functions: every failure is caught and reads as no items. -/
def fetchHfForKeyword (request : String → Py HttpResponse) (keyword : String) : Json :=
  match request keyword with
  | .error _ => .arr []
  | .ok r =>
    if r.statusCode = 200 then
      match r.json with
      | .ok body => body
      | .error _ => .arr []
    else .arr []

/-- The modification time; every failure to parse it reads as now. -/
def hubDate (py : Interpreter) (now : ℤ) (lastMod : Json) : ℤ :=
  match lastMod with
  | .str s => (py.strptime s "%Y-%m-%dT%H:%M:%S.%fZ").getD now
  | _ => now

/-- The loop bodies, which differ in one field. -/
def hubBody (countField : String) (py : Interpreter) (now : ℤ) (kw : String) (d : Json) :
    Py (List HubItem) := do
  let lastMod ← get d "lastModified" .null
  if truthy lastMod = true ∧ hubDate py now lastMod < now-days 14 then pure []
  else do
    let likes ← get d "likes" (.int 0)
    let id ← get d "id" .null
    let count ← get d countField .null
    pure [{
      keyword := kw
      id := id
      likes := likes
      count := count
      lastModified := lastMod
      relevanceScore := likes
      image := "No image"
      createdAt := py.isoformat now }]

/-- The body of the loop over datasets. -/
def datasetBody : Interpreter → ℤ → String → Json → Py (List HubItem) := hubBody "downloads"

/-- The body of the loop over spaces. -/
def spaceBody : Interpreter → ℤ → String → Json → Py (List HubItem) := hubBody "viewerCount"

/-- One round of the keyword loop: its datasets, then its spaces. -/
def hubRound (py : Interpreter) (now : ℤ) (datasets spaces : String → Py HttpResponse)
    (kw : String) : Py (List HubItem×List HubItem) := do
  let ds ← iterate (fetchHfForKeyword datasets kw)
  let dsPart ← gather (datasetBody py now kw) ds
  let sp ← iterate (fetchHfForKeyword spaces kw)
  let spPart ← gather (spaceBody py now kw) sp
  pure (dsPart,spPart)

/-- The lists `ds_combined` and `sp_combined`. -/
def collectHub (py : Interpreter) (now : ℤ) (datasets spaces : String → Py HttpResponse)
    (keywords : List String) : Py (List HubItem×List HubItem) := do
  let rounds ← gather (fun kw => do pure [← hubRound py now datasets spaces kw]) keywords
  pure (rounds.flatMap Prod.fst,rounds.flatMap Prod.snd)

/-- `get_top_datasets_and_spaces_all_keywords`. -/
def getTopDatasetsAndSpacesAllKeywords (py : Interpreter) (now : ℤ) (ollama : Ollama)
    (datasets spaces : String → Py HttpResponse) (keywords : List String) :
    Py (List (Summarised HubItem)×List (Summarised HubItem)) := do
  let (dsCombined,spCombined) ← collectHub py now datasets spaces keywords
  let dsSorted ← sortReverse HubItem.relevanceScore dsCombined
  let spSorted ← sortReverse HubItem.relevanceScore spCombined
  let topDs := dsSorted.take 10
  let topSp := spSorted.take 10
  pure (
    withSummaries ollama (fun item => py.str item.id++" has "++py.str item.likes++
      " likes and "++py.str item.count++" downloads.") topDs,
    withSummaries (fun call => ollama (topDs.length+call)) (fun item => py.str item.id++
      " has "++py.str item.likes++" likes and "++py.str item.count++" views.") topSp)

/-! ### The two halves as collectors -/

/-- The items of a keyword are its only page. -/
def hubPage (request : String → Py HttpResponse) (kw : String) (_ : ℕ) :
    Py (Option (List Json)) := do
  let items ← iterate (fetchHfForKeyword request kw)
  pure (some items)

/-- The collector of the datasets. -/
def datasetCollector (py : Interpreter) (now : ℤ) (datasets : String → Py HttpResponse) :
    Collector Json HubItem Json :=
  ⟨.skip,hubPage datasets,[1],datasetBody py now,HubItem.relevanceScore,HubItem.id⟩

/-- The collector of the spaces. -/
def spaceCollector (py : Interpreter) (now : ℤ) (spaces : String → Py HttpResponse) :
    Collector Json HubItem Json :=
  ⟨.skip,hubPage spaces,[1],spaceBody py now,HubItem.relevanceScore,HubItem.id⟩

variable {py : Interpreter} {now : ℤ} {datasets spaces : String → Py HttpResponse}

/-- A page loop over one page. -/
theorem gatherPages_hubPage {request : String → Py HttpResponse} {kw : String}
    {body : Json → Py (List HubItem)} {part : List HubItem} :
    gatherPages .skip (hubPage request kw) body [1] = .ok part ↔
      ∃ items, iterate (fetchHfForKeyword request kw) = .ok items ∧
        gather body items = .ok part := by
  simp only [gatherPages,hubPage,bind_assoc,pure_bind,bind_pure,List.append_nil,bind_eq_ok]

/-- A round is a round of each of the two collectors. -/
theorem hubRound_eq_ok {kw : String} {parts : List HubItem×List HubItem} :
    hubRound py now datasets spaces kw = .ok parts ↔
      gatherPages .skip (hubPage datasets kw) (datasetBody py now kw) [1] = .ok parts.1 ∧
        gatherPages .skip (hubPage spaces kw) (spaceBody py now kw) [1] = .ok parts.2 := by
  rw [gatherPages_hubPage,gatherPages_hubPage]
  simp only [hubRound,bind_eq_ok,pure_eq_ok]
  constructor
  · rintro ⟨ds,hds,dsPart,hdsPart,sp,hsp,spPart,hspPart,rfl⟩
    exact ⟨⟨ds,hds,hdsPart⟩,sp,hsp,hspPart⟩
  · rintro ⟨⟨ds,hds,hdsPart⟩,sp,hsp,hspPart⟩
    exact ⟨ds,hds,_,hdsPart,sp,hsp,_,hspPart,rfl⟩

/-- The loops collect what the two collectors collect. -/
theorem collectHub_eq_ok {keywords : List String} {combined : List HubItem×List HubItem} :
    collectHub py now datasets spaces keywords = .ok combined ↔
      (datasetCollector py now datasets).collect keywords = .ok combined.1 ∧
        (spaceCollector py now spaces).collect keywords = .ok combined.2 := by
  obtain ⟨dsCombined,spCombined⟩ := combined
  simp only [collectHub,bind_eq_ok,pure_eq_ok,Prod.mk.injEq]
  rw [Collector.collect,Collector.collect,gatherKeywords,gatherKeywords]
  induction keywords generalizing dsCombined spCombined with
  | nil => simp [eq_comm]
  | cons kw rest ih =>
    rw [gather_cons_eq_ok,gather_cons_eq_ok]
    constructor
    · rintro ⟨rounds,hrounds,rfl,rfl⟩
      obtain ⟨round,others,hround,hothers,rfl⟩ := gather_cons_one.mp hrounds
      obtain ⟨hds,hsp⟩ := hubRound_eq_ok.mp hround
      obtain ⟨hdsRest,hspRest⟩ := (ih _ _).mp ⟨others,hothers,rfl,rfl⟩
      exact ⟨⟨_,_,hds,hdsRest,rfl⟩,_,_,hsp,hspRest,rfl⟩
    · rintro ⟨⟨_,_,hds,hdsRest,rfl⟩,_,_,hsp,hspRest,rfl⟩
      obtain ⟨others,hothers,rfl,rfl⟩ := (ih _ _).mpr ⟨hdsRest,hspRest⟩
      exact ⟨_,gather_cons_one.mpr ⟨(_,_),others,hubRound_eq_ok.mpr ⟨hds,hsp⟩,hothers,rfl⟩,rfl,rfl⟩

/-- A run that returns gives the ten best of each collector. -/
theorem getTop_eq_ok {ollama : Ollama} {keywords : List String}
    {top : List (Summarised HubItem)×List (Summarised HubItem)}
    (h : getTopDatasetsAndSpacesAllKeywords py now ollama datasets spaces keywords = .ok top) :
    (datasetCollector py now datasets).topTen keywords = .ok (top.1.map Summarised.item) ∧
      (spaceCollector py now spaces).topTen keywords = .ok (top.2.map Summarised.item) := by
  obtain ⟨⟨dsCombined,spCombined⟩,hcombined,h⟩ := bind_eq_ok.mp h
  obtain ⟨dsSorted,hds,h⟩ := bind_eq_ok.mp h
  obtain ⟨spSorted,hsp,h⟩ := bind_eq_ok.mp h
  obtain rfl := pure_eq_ok.mp h
  obtain ⟨hdsAll,hspAll⟩ := collectHub_eq_ok.mp hcombined
  refine ⟨bind_eq_ok.mpr ⟨_,hdsAll,bind_eq_ok.mpr ⟨_,hds,?_⟩⟩,
    bind_eq_ok.mpr ⟨_,hspAll,bind_eq_ok.mpr ⟨_,hsp,?_⟩⟩⟩
  · rw [pure_eq_ok,withSummaries_item]
  · rw [pure_eq_ok,withSummaries_item]

/-- A run returns exactly when both collectors do. -/
theorem getTop_returns {ollama : Ollama} {keywords : List String} :
    Returns (getTopDatasetsAndSpacesAllKeywords py now ollama datasets spaces keywords) ↔
      Returns ((datasetCollector py now datasets).topTen keywords) ∧
        Returns ((spaceCollector py now spaces).topTen keywords) := by
  constructor
  · rintro ⟨top,htop⟩
    exact ⟨⟨_,(getTop_eq_ok htop).1⟩,_,(getTop_eq_ok htop).2⟩
  · rintro ⟨⟨dsTop,hds⟩,spTop,hsp⟩
    obtain ⟨dsCombined,hdsAll,hds⟩ := bind_eq_ok.mp hds
    obtain ⟨spCombined,hspAll,hsp⟩ := bind_eq_ok.mp hsp
    obtain ⟨dsSorted,hds,-⟩ := bind_eq_ok.mp hds
    obtain ⟨spSorted,hsp,-⟩ := bind_eq_ok.mp hsp
    exact ⟨_,bind_eq_ok.mpr ⟨(dsCombined,spCombined),collectHub_eq_ok.mpr ⟨hdsAll,hspAll⟩,
      bind_eq_ok.mpr ⟨dsSorted,hds,bind_eq_ok.mpr ⟨spSorted,hsp,rfl⟩⟩⟩⟩

/-! ### What the bodies read -/

/-- An item without a date, or of the two weeks that `huggingface.py` keeps. -/
def hubKept (py : Interpreter) (now : ℤ) (item : Json) : Bool :=
  !(truthy ((item.member? "lastModified").getD .null) &&
    decide (hubDate py now ((item.member? "lastModified").getD .null) < now-days 14))

/-- What `huggingface.py` reads of a dataset or a space. -/
def hubReading (py : Interpreter) (now : ℤ) : Reading Json Json where
  readable := isObject
  kept := hubKept py now
  score _ item := get item "likes" (.int 0)
  resource item := (item.member? "id").getD .null

theorem hub_reads (py : Interpreter) (now : ℤ) (page : String → ℕ → Py (Option (List Json)))
    (countField : String) :
    Collector.Reads ⟨.skip,page,[1],hubBody countField py now,HubItem.relevanceScore,HubItem.id⟩
      (hubReading py now) := by
  have hwindow : ∀ members : List (String×Json), hubKept py now (.obj members) = true ↔
      ¬(truthy ((members.lookup "lastModified").getD .null) = true ∧
        hubDate py now ((members.lookup "lastModified").getD .null) < now-days 14) := by
    intro members
    rw [hubKept,Json.member?_obj,Bool.not_eq_true',Bool.and_eq_false_iff,decide_eq_false_iff_not,
      not_and_or,Bool.not_eq_true]
  refine reads_of_body (fun kw item score => {
      keyword := kw
      id := (item.member? "id").getD .null
      likes := score
      count := (item.member? countField).getD .null
      lastModified := (item.member? "lastModified").getD .null
      relevanceScore := score
      image := "No image"
      createdAt := py.isoformat now })
    (fun kw item h => ?_) (fun kw item h hk => ?_) (fun kw item h hk => ?_)
    (fun _ _ _ => rfl) (fun _ _ _ => rfl)
  · change ¬Returns (hubBody countField py now kw item)
    rw [hubBody,get_eq_error h]
    exact not_returns_error PyError.attributeError
  · cases item with
    | obj members =>
      have hold := not_not.mp (mt (hwindow members).mpr (Bool.eq_false_iff.mp hk))
      simp only [hubBody,get_obj,ok_bind,if_pos hold]
      rfl
    | _ => cases h
  · cases item with
    | obj members =>
      simp only [hubBody,hubReading,get_obj,ok_bind,if_neg ((hwindow members).mp hk),
        Json.member?_obj]
    | _ => cases h

end Senca.HubCollectors
