import Senca.KeywordFiles
import Senca.StoreFunctions
import Senca.TracedCalls

/-!
# Harvesting tools with a browser

`tools.py` drives a browser over a page of tools. Every call of the driver can
fail: starting it, loading the page, finding the elements, and each read of an
element. Whatever fails, a driver that was started is quit once, after its
last other call, and an element whose reads fail costs no other element.
-/

namespace Senca.ToolHarvest

open KeywordFiles PythonCase PythonRuntime PythonText ScraperCollectors StoreFunctions TracedCalls

/-! ### tools.py -/

/-- The calls `tools.py` makes. -/
inductive Call where
  /-- `ChromeDriverManager().install()`. -/
  | install
  /-- `webdriver.Chrome(…)`. -/
  | start
  /-- `driver.get(url)`. -/
  | load
  /-- `WebDriverWait(driver, 20).until(…)`. -/
  | wait
  /-- `driver.find_elements(…)`. -/
  | findElements
  /-- A call about one element, by its position. -/
  | element (i : ℕ)
  /-- `driver.page_source`. -/
  | pageSource
  /-- `driver.quit()`. -/
  | quit
  /-- `requests.post(endpoint, json=tools)`. -/
  | post (tools : List SupertoolItem)
  /-- The file is written. -/
  | save (tools : List SupertoolItem)

/-- A computation of `tools.py`. -/
abbrev Harvest := Traced Call PyError

/-- What the driver answers about one element. -/
structure Element where
  /-- `driver.execute_script(…, element)`. -/
  scroll : Py Unit
  /-- `element.text`. -/
  text : Py String
  /-- `element.find_element(By.TAG_NAME, "a")`. -/
  link : Py Unit
  /-- `link_elem.get_attribute("href")`, none being None. -/
  href : Py (Option String)
  /-- The search for the title. -/
  title : Py Unit
  /-- The search for the description. -/
  desc : Py Unit
  /-- `title_elem.text`. -/
  titleText : Py String
  /-- `desc_elem.text`. -/
  descText : Py String

/-- What the driver answers in one run. -/
structure Site where
  install : Py Unit
  start : Py Unit
  load : Py Unit
  wait : Py Unit
  elements : Py (List Element)
  pageSource : Py Unit
  quit : Py Unit

/-- What a run finds outside the driver. -/
structure Surroundings where
  /-- The case tables of the interpreter. -/
  tables : CaseTables
  /-- The keyword file. -/
  keywordFile : Option (List Char)
  /-- The language model. -/
  ollama : Ollama
  /-- `datetime.datetime.now().isoformat()`. -/
  createdAt : String

/-- `fetch_supertools`: whether a driver is returned. -/
def fetchSupertools (site : Site) : Harvest Bool := do
  let created ← attempt (do
    call .install site.install
    call .start site.start)
  match created with
  -- without a driver there is nothing to quit
  | .error _ => pure false
  | .ok _ =>
    let loaded ← attempt (do
      call .load site.load
      call .wait site.wait)
    match loaded with
    | .ok _ => pure true
    | .error _ => do
      call .quit site.quit
      pure false

/-- `is_ai_related`. -/
def isAiRelated (tables : CaseTables) (text : String) (keywords : List String) : Bool :=
  let text := tables.lowerText text.toList
  keywords.any (fun keyword => decide (tables.lowerText keyword.toList <:+: text))

/-- The inner `try` of the loop: name, link and description of an element. -/
def readTool (i : ℕ) (element : Element) : Harvest (String×Option String×String) := do
  call (.element i) element.link
  let link ← call (.element i) element.href
  call (.element i) element.title
  call (.element i) element.desc
  let name ← call (.element i) element.titleText
  let description ← call (.element i) element.descText
  pure (String.ofList (strip name.toList),link,String.ofList (strip description.toList))

/-- The entry of a tool; the model was called once for each entry before it. -/
def entry (o : Surroundings) (tools : List SupertoolItem) (name link description : String) :
    SupertoolItem where
  name := name
  link := link
  summary := summarizeWithDeepseekR1 o.ollama tools.length
    (summaryPrompt (name++": "++description) 50)
  createdAt := o.createdAt

/-- The list of tools after an element of which these were read. -/
def addTool (o : Surroundings) (tools : List SupertoolItem) :
    String×Option String×String → List SupertoolItem
  | (name,some link,description) =>
    if name ≠ "" ∧ link ≠ "" then tools++[entry o tools name link description] else tools
  | (_,none,_) => tools

/-- The outer `try` of the loop. -/
def processElement (o : Surroundings) (keywords : List String) (tools : List SupertoolItem)
    (i : ℕ) (element : Element) : Harvest (List SupertoolItem) := do
  call (.element i) element.scroll
  let textContent ← call (.element i) element.text
  if isAiRelated o.tables textContent keywords then
    orElse (do
      let read ← readTool i element
      pure (addTool o tools read)) (fun _ => pure tools)
  else pure tools

/-- The loop over the elements. -/
def processAll (o : Surroundings) (keywords : List String) :
    List SupertoolItem → ℕ → List Element → Harvest (List SupertoolItem)
  | tools,_,[] => pure tools
  | tools,i,element::rest => do
    let tools ← orElse (processElement o keywords tools i element) (fun _ => pure tools)
    processAll o keywords tools (i+1) rest

/-- `parse_tools`. -/
def parseTools (o : Surroundings) (site : Site) : Harvest (List SupertoolItem) :=
  let keywords := loadKeywords o.tables o.keywordFile
  andFinally
    (orElse (do
      let elements ← call .findElements site.elements
      processAll o keywords [] 1 elements) (fun _ => do
        -- the preview of the page may raise once more
        call .pageSource site.pageSource
        pure []))
    (call .quit site.quit)

/-- `scrape_supertools`. A failed post or file is printed. -/
def scrapeSupertools (o : Surroundings) (site : Site) : Harvest Unit := do
  let driver ← fetchSupertools site
  if driver then do
    let tools ← parseTools o site
    if tools.isEmpty then pure ()
    else do
      call (.post tools) (.ok ())
      call (.save tools) (.ok ())
  else pure ()

variable {o : Surroundings} {site : Site}

/-! ### The life of the driver -/

/-- The call needs a running driver. -/
def Call.Drives : Call → Prop
  | .load => True
  | .wait => True
  | .findElements => True
  | .element _ => True
  | .pageSource => True
  | _ => False

theorem readTool_only (i : ℕ) (element : Element) : Only Call.Drives (readTool i element) :=
  (only_call trivial _).bind fun _ => (only_call trivial _).bind fun _ =>
    (only_call trivial _).bind fun _ => (only_call trivial _).bind fun _ =>
      (only_call trivial _).bind fun _ => (only_call trivial _).bind fun _ => only_pure _

theorem processElement_only (keywords : List String) (tools : List SupertoolItem) (i : ℕ)
    (element : Element) : Only Call.Drives (processElement o keywords tools i element) := by
  refine (only_call trivial _).bind fun _ => (only_call trivial _).bind fun text => ?_
  split
  · exact ((readTool_only i element).bind fun _ => only_pure _).orElse fun _ => only_pure _
  · exact only_pure _

theorem processAll_only (keywords : List String) (tools : List SupertoolItem) (i : ℕ)
    (elements : List Element) : Only Call.Drives (processAll o keywords tools i elements) := by
  induction elements generalizing tools i with
  | nil => exact only_pure _
  | cons element rest ih =>
    exact ((processElement_only keywords tools i element).orElse fun _ => only_pure _).bind
      fun tools => ih tools (i+1)

/-- Parsing uses the driver and then quits it, whatever fails. -/
theorem parseTools_calls (o : Surroundings) (site : Site) :
    ∃ uses, (parseTools o site).calls = uses++[.quit] ∧ ∀ c ∈ uses, c.Drives :=
  ⟨_,rfl,((only_call trivial _).bind fun elements => processAll_only _ [] 1 elements).orElse
    fun _ => (only_call trivial _).bind fun _ => only_pure _⟩

/-- Nothing is reported, or the parsed tools are, first to the server and then
to the file. -/
def Reported (o : Surroundings) (site : Site) (calls : List Call) : Prop :=
  calls = [] ∨ ∃ tools, tools ≠ [] ∧ (parseTools o site).result = .ok tools ∧
    calls = [.post tools,.save tools]

/-- A driver that starts is used, quit once, and not touched again; what is
reported is reported after that. A driver that does not start is not quit. -/
def QuitsOnce (o : Surroundings) (site : Site) (calls : List Call) : Prop :=
  match site.install,site.start with
  | .ok _,.ok _ => ∃ uses after, calls = .install::.start::(uses++.quit::after) ∧
      (∀ c ∈ uses, c.Drives) ∧ Reported o site after
  | .ok _,.error _ => calls = [.install,.start]
  | .error _,_ => calls = [.install]

theorem fetchSupertools_uninstalled (site : Site) {e : PyError}
    (h : site.install = .error e) : fetchSupertools site = ⟨[.install],.ok false⟩ := by
  obtain ⟨install,start,load,wait,elements,pageSource,quit⟩ := site
  dsimp only at h
  subst h
  rfl

theorem fetchSupertools_unstarted (site : Site) {a : Unit} {e : PyError}
    (hinstall : site.install = .ok a) (hstart : site.start = .error e) :
    fetchSupertools site = ⟨[.install,.start],.ok false⟩ := by
  obtain ⟨install,start,load,wait,elements,pageSource,quit⟩ := site
  dsimp only at hinstall hstart
  subst hinstall hstart
  rfl

/-- A driver that starts is returned, or used and quit. -/
theorem fetchSupertools_started (site : Site) {a b : Unit} (hinstall : site.install = .ok a)
    (hstart : site.start = .ok b) :
    ∃ uses, (∀ c ∈ uses, c.Drives) ∧
      ((fetchSupertools site).calls = .install::.start::uses ∧
          (fetchSupertools site).result = .ok true ∨
        (fetchSupertools site).calls = .install::.start::(uses++[.quit]) ∧
          (fetchSupertools site).result = site.quit.map (fun _ => false)) := by
  obtain ⟨install,start,load,wait,elements,pageSource,quit⟩ := site
  dsimp only at hinstall hstart
  subst hinstall hstart
  cases load with
  | error e =>
    refine ⟨[.load],by simp [Call.Drives],.inr ?_⟩
    cases quit <;> exact ⟨rfl,rfl⟩
  | ok _ =>
    cases wait with
    | error e =>
      refine ⟨[.load,.wait],by simp [Call.Drives],.inr ?_⟩
      cases quit <;> exact ⟨rfl,rfl⟩
    | ok _ => exact ⟨[.load,.wait],by simp [Call.Drives],.inl ⟨rfl,rfl⟩⟩

/-- What follows a returned driver. -/
def afterFetch (o : Surroundings) (site : Site) : Harvest Unit := do
  let tools ← parseTools o site
  if tools.isEmpty then pure ()
  else do
    call (.post tools) (.ok ())
    call (.save tools) (.ok ())

theorem afterFetch_calls (o : Surroundings) (site : Site) :
    ∃ uses after, (afterFetch o site).calls = uses++.quit::after ∧
      (∀ c ∈ uses, c.Drives) ∧ Reported o site after := by
  obtain ⟨uses,hcalls,huses⟩ := parseTools_calls o site
  cases hresult : (parseTools o site).result with
  | error e =>
    refine ⟨uses,[],?_,huses,.inl rfl⟩
    rw [afterFetch,bind_of_error hresult,hcalls]
  | ok tools =>
    rw [afterFetch,bind_of_ok hresult,hcalls]
    dsimp only
    split
    · refine ⟨uses,[],?_,huses,.inl rfl⟩
      rw [calls_pure,List.append_nil]
    · rename_i hne
      refine ⟨uses,[.post tools,.save tools],?_,huses,
        .inr ⟨tools,by simpa using hne,hresult,rfl⟩⟩
      rw [List.append_assoc]
      rfl

/-- For every pattern of failures. -/
theorem scrapeSupertools_quitsOnce (o : Surroundings) (site : Site) :
    QuitsOnce o site (scrapeSupertools o site).calls := by
  have hscrape : scrapeSupertools o site =
      fetchSupertools site >>= fun driver => if driver then afterFetch o site else pure () := rfl
  rw [QuitsOnce]
  cases hinstall : site.install with
  | error e =>
    rw [hscrape,fetchSupertools_uninstalled site hinstall]
    rfl
  | ok a =>
    cases hstart : site.start with
    | error e =>
      rw [hscrape,fetchSupertools_unstarted site hinstall hstart]
      rfl
    | ok b =>
      obtain ⟨uses,huses,⟨hcalls,hresult⟩ | ⟨hcalls,hresult⟩⟩ :=
        fetchSupertools_started site hinstall hstart
      · obtain ⟨more,after,hafter,hmore,hreports⟩ := afterFetch_calls o site
        refine ⟨uses++more,after,?_,?_,hreports⟩
        · rw [hscrape,bind_of_ok hresult,hcalls]
          simp [hafter]
        · simpa [or_imp,forall_and] using ⟨huses,hmore⟩
      · refine ⟨uses,[],?_,huses,.inl rfl⟩
        cases hquit : site.quit with
        | error e =>
          rw [hquit] at hresult
          rw [hscrape,bind_of_error hresult,hcalls]
        | ok _ =>
          rw [hquit] at hresult
          rw [hscrape,bind_of_ok hresult,hcalls]
          simp

/-! ### What is harvested -/

/-- Name, link and description of an element all of whose reads succeed and
whose text names a keyword; name and link are not empty. -/
def candidate (o : Surroundings) (keywords : List String) (element : Element) :
    Option (String×String×String) := do
  element.scroll.toOption
  let text ← element.text.toOption
  guard (isAiRelated o.tables text keywords)
  element.link.toOption
  let href ← element.href.toOption
  element.title.toOption
  element.desc.toOption
  let titleText ← element.titleText.toOption
  let descText ← element.descText.toOption
  let link ← href
  let name := String.ofList (strip titleText.toList)
  if name ≠ "" ∧ link ≠ "" then pure (name,link,String.ofList (strip descText.toList))
  else none

/-- The list after one more candidate. -/
def appendTool (o : Surroundings) (tools : List SupertoolItem)
    (tool : String×String×String) : List SupertoolItem :=
  tools++[entry o tools tool.1 tool.2.1 tool.2.2]

/-- One element adds its candidate, or nothing and raises nothing. -/
theorem processElement_result (o : Surroundings) (keywords : List String)
    (tools : List SupertoolItem) (i : ℕ) (element : Element) :
    (orElse (processElement o keywords tools i element) (fun _ => pure tools)).result =
      .ok ((candidate o keywords element).elim tools (appendTool o tools)) := by
  obtain ⟨scroll,text,link,href,title,desc,titleText,descText⟩ := element
  rw [result_orElse,processElement,result_bind,result_call]
  cases scroll with
  | error e => rfl
  | ok _ =>
    cases text with
    | error e => rfl
    | ok text =>
      by_cases hrelated : isAiRelated o.tables text keywords = true
      · simp only [Except.bind,result_bind,result_call,hrelated,if_true,result_orElse,readTool,
          candidate,Except.toOption,guard_true,Option.bind_eq_bind,Option.bind_some]
        -- the first read that fails decides
        rcases link with e | _
        · rfl
        rcases href with e | href
        · rfl
        rcases title with e | _
        · rfl
        rcases desc with e | _
        · rfl
        rcases titleText with e | titleText
        · rfl
        rcases descText with e | descText
        · rfl
        cases href with
        | none => rfl
        | some link =>
          change Except.ok (addTool o tools _) = Except.ok ((if _ then _ else _ :
            Option (String×String×String)).elim tools (appendTool o tools))
          by_cases hkept : String.ofList (strip titleText.toList) ≠ "" ∧ link ≠ ""
          · rw [addTool,if_pos hkept,if_pos hkept]
            rfl
          · rw [addTool,if_neg hkept,if_neg hkept]
            rfl
      · simp [Except.bind,result_bind,hrelated,candidate,Except.toOption,guard]

/-- The loop appends the candidates in order. -/
theorem processAll_result (o : Surroundings) (keywords : List String)
    (tools : List SupertoolItem) (i : ℕ) (elements : List Element) :
    (processAll o keywords tools i elements).result =
      .ok ((elements.filterMap (candidate o keywords)).foldl (appendTool o) tools) := by
  induction elements generalizing tools i with
  | nil => rfl
  | cons element rest ih =>
    rw [processAll,result_bind,processElement_result]
    change (processAll o keywords _ (i+1) rest).result = _
    rw [ih]
    cases hc : candidate o keywords element with
    | none => rw [List.filterMap_cons_none hc,Option.elim_none]
    | some tool => rw [List.filterMap_cons_some hc,Option.elim_some,List.foldl_cons]

/-- The tools of some candidates; the model is asked once for each. -/
def toolsOf (o : Surroundings) (candidates : List (String×String×String)) :
    List SupertoolItem :=
  candidates.zipIdx.map (fun c => {
    name := c.1.1
    link := c.1.2.1
    summary := summarizeWithDeepseekR1 o.ollama c.2
      (summaryPrompt (c.1.1++": "++c.1.2.2) 50)
    createdAt := o.createdAt })

theorem foldl_appendTool (o : Surroundings) (candidates : List (String×String×String)) :
    candidates.foldl (appendTool o) [] = toolsOf o candidates := by
  induction candidates using List.reverseRecOn with
  | nil => rfl
  | append_singleton candidates tool ih =>
    rw [List.foldl_append,ih,List.foldl_cons,List.foldl_nil,appendTool,toolsOf,toolsOf,
      List.zipIdx_append,List.map_append,Nat.zero_add]
    congr 1
    simp [entry]

/-- The tools are those of the candidates among the elements, in order; only a
failure to list the elements at all, and then to show the page, is an error. -/
def Harvests (o : Surroundings) (site : Site) : Prop :=
  (parseTools o site).result =
    match site.elements with
    | .ok elements =>
      .ok (toolsOf o (elements.filterMap (candidate o (loadKeywords o.tables o.keywordFile))))
    | .error _ => site.pageSource.map (fun _ => [])

/-- For every pattern of failures, so the reads of an element that fail cost no
other element. -/
theorem parseTools_harvests (o : Surroundings) (site : Site) : Harvests o site := by
  rw [Harvests,parseTools]
  dsimp only [andFinally]
  rw [result_orElse,result_bind,result_call]
  cases site.elements with
  | error e =>
    rw [show (Except.error e : Py (List Element)).bind _ = Except.error e from rfl]
    dsimp only
    rw [result_bind,result_call]
    cases site.pageSource <;> rfl
  | ok elements =>
    dsimp only
    rw [← foldl_appendTool]
    simp only [Except.bind,processAll_result]

end Senca.ToolHarvest
