import Senca.CalendarText
import Senca.HubCollectors

/-!
# The time windows of devto.py and huggingface.py

Both collectors compare a timestamp in UTC, read as naive, with the naive
local time, and take a text in any but one layout for the present. Which of
the visited items that lets in, and when the items that are returned are
those of the window before the run.
-/

namespace Senca.RecencyWindow

open CalendarText CollectorRanking FaultLoops HubCollectors ItemReadings JsonValue
open PythonRuntime ScraperCollectors StableRanking

/-! ### Date checks -/

/-- The date check of a collector. -/
structure DateCheck where
  /-- The member that holds the timestamp. -/
  field : String
  /-- The layouts that are read; the others count as now. -/
  reads : Stamp → Bool
  /-- The length of the window. -/
  span : ℤ

namespace DateCheck

variable (check : DateCheck) (utcNow offset : ℤ) (item : Json) (stamp : Stamp)

/-- The item carries a timestamp. -/
def Carries : Prop := item.member? check.field = some (.str (String.ofList stamp.text))

/-- The instant lies in the window before the run. -/
def Within : Prop := ((utcNow-check.span : ℤ) : ℚ) ≤ stamp.instant ∧ stamp.instant ≤ utcNow

/-- What the check amounts to at a local time that is ahead by an offset. -/
def Passes : Prop := check.reads stamp = true → utcNow+offset-check.span ≤ stamp.micros

/-- The item carries a timestamp of the window. -/
def ItemWithin : Prop := ∃ stamp, check.Carries item stamp ∧ check.Within utcNow stamp

/-- The check on an item, which lets in what carries no timestamp. -/
def lets : Bool :=
  match item.member? check.field with
  | some (.str s) => (readStamp s.toList).all (fun stamp =>
      !check.reads stamp || decide (utcNow+offset-check.span ≤ stamp.micros))
  | _ => true

variable {check} {item} {stamp}

/-- Of a fraction of at most six digits the microseconds decide. -/
theorem within_iff (h : stamp.fraction.length ≤ 6) :
    check.Within utcNow stamp ↔
      utcNow-check.span ≤ stamp.micros ∧ stamp.micros ≤ utcNow := by
  rw [Within,← Stamp.micros_eq_instant h]
  norm_cast

/-- An item carries one timestamp. -/
theorem Carries.unique {other : Stamp} (h : check.Carries item stamp)
    (h' : check.Carries item other) : stamp = other := by
  have htext := Json.str.inj (Option.some.inj (h.symm.trans h'))
  exact Stamp.text_injective (String.ofList_injective htext)

theorem Carries.lets_iff (h : check.Carries item stamp) :
    check.lets utcNow offset item = true ↔ check.Passes utcNow offset stamp := by
  have hfield : item.member? check.field = some (.str (String.ofList stamp.text)) := h
  simp only [lets,hfield,String.toList_ofList,readStamp_text,Option.all_some,Passes]
  cases check.reads stamp <;> simp

end DateCheck

/-- `strptime` on timestamps in UTC with the two formats of the collectors. -/
structure ReadsStamps (py : Interpreter) : Prop where
  /-- Without `%f` the text has no fraction. -/
  seconds : ∀ stamp : Stamp,
    py.strptime (String.ofList stamp.text) "%Y-%m-%dT%H:%M:%SZ" =
      if stamp.fraction = [] then some stamp.micros else none
  /-- `%f` stands for one to six digits. -/
  fraction : ∀ stamp : Stamp,
    py.strptime (String.ofList stamp.text) "%Y-%m-%dT%H:%M:%S.%fZ" =
      if stamp.fraction ≠ [] ∧ stamp.fraction.length ≤ 6 then some stamp.micros else none

/-- The check of `devto.py`. -/
def devtoCheck : DateCheck :=
  ⟨"published_at",fun stamp => decide (stamp.fraction = []),days 7⟩

/-- The check of `huggingface.py`. -/
def hubCheck : DateCheck :=
  ⟨"lastModified",fun stamp => decide (stamp.fraction ≠ [] ∧ stamp.fraction.length ≤ 6),days 14⟩

/-- An item that carries a timestamp is an object. -/
theorem DateCheck.Carries.exists_members {check : DateCheck} {item : Json} {stamp : Stamp}
    (h : check.Carries item stamp) : ∃ members, item = .obj members ∧
      members.lookup check.field = some (.str (String.ofList stamp.text)) := by
  cases item with
  | obj members => exact ⟨members,rfl,h⟩
  | _ => cases h

/-- A date that reads as now is never older than the window. -/
theorem DateCheck.passes_iff {check : DateCheck} {utcNow offset date : ℤ} {stamp : Stamp}
    (hspan : 0 ≤ check.span)
    (hdate : date = if check.reads stamp = true then stamp.micros else utcNow+offset) :
    check.Passes utcNow offset stamp ↔ ¬date < utcNow+offset-check.span := by
  rw [Passes,hdate,not_lt]
  split
  · rename_i hreads
    simp [hreads]
  · rename_i hreads
    simp [hreads,hspan]

section Windows

variable {py : Interpreter} {utcNow offset : ℤ} {item : Json} {stamp : Stamp}

/-- The window of `devto.py` is the check at the local time. -/
theorem devto_window (hpy : ReadsStamps py) (h : devtoCheck.Carries item stamp) :
    (devtoReading py (utcNow+offset)).kept item = true ↔
      devtoCheck.Passes utcNow offset stamp := by
  obtain ⟨members,rfl,hfield⟩ := h.exists_members
  have hdate : devtoDate py (utcNow+offset) (.str (String.ofList stamp.text)) =
      if devtoCheck.reads stamp = true then stamp.micros else utcNow+offset := by
    rw [devtoDate,hpy.seconds]
    by_cases hf : stamp.fraction = [] <;> simp [devtoCheck,hf]
  rw [DateCheck.passes_iff (by decide) hdate,not_lt]
  change devtoKept py (utcNow+offset) (.obj members) = true ↔ _
  rw [devtoKept,Json.member?_obj,show members.lookup "published_at" = _ from hfield,
    Option.getD_some,decide_eq_true_eq]
  rfl

/-- So is that of `huggingface.py`. -/
theorem hub_window (hpy : ReadsStamps py) (h : hubCheck.Carries item stamp) :
    (hubReading py (utcNow+offset)).kept item = true ↔ hubCheck.Passes utcNow offset stamp := by
  obtain ⟨members,rfl,hfield⟩ := h.exists_members
  have hdate : hubDate py (utcNow+offset) (.str (String.ofList stamp.text)) =
      if hubCheck.reads stamp = true then stamp.micros else utcNow+offset := by
    rw [hubDate,hpy.fraction]
    by_cases hf : stamp.fraction ≠ [] ∧ stamp.fraction.length ≤ 6 <;> simp [hubCheck,hf]
  rw [DateCheck.passes_iff (by decide) hdate]
  have htruthy : truthy (.str (String.ofList stamp.text)) = true := by
    simpa [truthy] using stamp.text_ne_nil
  change hubKept py (utcNow+offset) (.obj members) = true ↔ _
  rw [hubKept,Json.member?_obj,show members.lookup "lastModified" = _ from hfield,
    Option.getD_some,htruthy,Bool.true_and,Bool.not_eq_true',decide_eq_false_iff_not]
  rfl

end Windows

/-! ### Runs -/

section Runs

variable {ι ρ : Type} (c : Collector Json ι ρ) (r : Reading Json ρ) (keywords : List String)

/-- The visited items that the check lets in. -/
def letIn (check : DateCheck) (utcNow offset : ℤ) : List (String×Json) :=
  (c.visitedPairs keywords).filter (fun v => check.lets utcNow offset v.2)

/-- The visited items that are returned, by the score of the reading. -/
def best : List (String×Json) := (sortDesc r.key (c.seen keywords r)).take 10

/-- Whenever the run returns, its records are made of items of the window, and
every visited item of the window is made into a record. -/
def Recent (check : DateCheck) (utcNow : ℤ) (run : Py (List ι)) : Prop :=
  ∀ top, run = .ok top → List.Forall₂ c.Makes (best c r keywords) top ∧
    (∀ v ∈ best c r keywords, check.ItemWithin utcNow v.2) ∧
    ∀ v ∈ c.visitedPairs keywords, check.ItemWithin utcNow v.2 → ∃ record, c.Makes v record

/-- The check lets in every visited item of the window, and a visited item outside
the window that it lets in has at least ten such items ranked before it. -/
def Harmless (check : DateCheck) (utcNow offset : ℤ) : Prop :=
  (∀ v ∈ c.visitedPairs keywords, check.ItemWithin utcNow v.2 →
    check.lets utcNow offset v.2 = true) ∧
  ∀ p ∈ (letIn c keywords check utcNow offset).zipIdx, ¬check.ItemWithin utcNow p.1.2 →
    10 ≤ rank r.key (letIn c keywords check utcNow offset) p

/-- When a run returns, and when what it returns is recent. -/
structure RecentExactly (check : DateCheck) (utcNow offset : ℤ) (completes : Prop)
    (run : Py (List ι)) : Prop where
  /-- The run returns exactly when nothing on its way raises. -/
  returns : Returns run ↔ completes
  /-- Its items are recent exactly when the errors of the check are harmless. -/
  recent : Recent c r keywords check utcNow run ↔
    (completes → Harmless c r keywords check utcNow offset)

variable {c} {r} {keywords}

/-- A check that lets in exactly the items of the window is harmless. -/
theorem harmless_of_exact {check : DateCheck} {utcNow offset : ℤ}
    (h : ∀ v ∈ c.visitedPairs keywords,
      check.lets utcNow offset v.2 = true ↔ check.ItemWithin utcNow v.2) :
    Harmless c r keywords check utcNow offset := by
  refine ⟨fun v hv => (h v hv).mpr,fun p hp hnot => ?_⟩
  obtain ⟨hv,hlets⟩ := List.mem_filter.mp (List.fst_mem_of_mem_zipIdx hp)
  exact absurd ((h p.1 hv).mp hlets) hnot

/-- A run of a collector with a date check. -/
theorem recentExactly {check : DateCheck} {utcNow offset : ℤ} {completes : Prop}
    {run : Py (List ι)} (hreads : c.Reads r) (hreturns : Returns run ↔ completes)
    (hrun : ∀ top, run = .ok top → c.topTen keywords = .ok top)
    (hwindow : ∀ item stamp, check.Carries item stamp →
      (r.kept item = true ↔ check.Passes utcNow offset stamp))
    (hcarries : ∀ v ∈ c.visitedPairs keywords, ∃ stamp, check.Carries v.2 stamp) :
    RecentExactly c r keywords check utcNow offset completes run := by
  have hkept : ∀ v ∈ c.visitedPairs keywords,
      r.kept v.2 = true ↔ check.lets utcNow offset v.2 = true := by
    intro v hv
    obtain ⟨stamp,hstamp⟩ := hcarries v hv
    rw [hwindow v.2 stamp hstamp,hstamp.lets_iff]
  have hseen : c.seen keywords r = letIn c keywords check utcNow offset :=
    List.filter_congr fun v hv => Bool.eq_iff_iff.mpr (hkept v hv)
  have hcut : (∀ v ∈ best c r keywords, check.ItemWithin utcNow v.2) ↔ _ :=
    forall_mem_take_sortDesc_iff r.key (c.seen keywords r) 10
  rw [hseen] at hcut
  -- a visited item is made into a record when it is let in
  have hmade : ∀ {top}, run = .ok top → ∀ v ∈ c.visitedPairs keywords,
      ((∃ record, c.Makes v record) ↔ check.lets utcNow offset v.2 = true) := by
    intro top htop v hv
    rw [← hkept v hv]
    constructor
    · rintro ⟨record,hmakes⟩
      by_contra hnot
      cases hreads.passed v.1 v.2 _ (Bool.eq_false_iff.mpr hnot) hmakes
    · intro hk
      have hcompletes := hreads.completes.mp ⟨top,hrun top htop⟩
      obtain ⟨part,hpart⟩ := (hreads.returns v.1 v.2).mpr (hcompletes.read v hv)
      obtain ⟨record,rfl,-⟩ := hreads.appended v.1 v.2 part hk hpart
      exact ⟨record,hpart⟩
  refine ⟨hreturns,?_,?_⟩
  · intro h hcompletes
    obtain ⟨top,htop⟩ := hreturns.mpr hcompletes
    obtain ⟨-,hwithin,hall⟩ := h top htop
    exact ⟨fun v hv hv' => (hmade htop v hv).mp (hall v hv hv'),hcut.mp hwithin⟩
  · intro h top htop
    obtain ⟨hlets,hranks⟩ := h (hreturns.mp ⟨top,htop⟩)
    exact ⟨(hreads.topTen (hrun top htop)).imp fun _ _ hmakes => hmakes.2,hcut.mpr hranks,
      fun v hv hv' => (hmade htop v hv).mpr (hlets v hv hv')⟩

end Runs

/-- For every run instant, every offset of the local time and all upstream
answers whose items carry timestamps: what `devto.py` returns, and each of
the two lists of `huggingface.py`, is recent exactly when the check of the
shifted clock lets in every visited item of the window and ranks none outside
it among the first ten. -/
theorem recencyWindow_iff {py : Interpreter} (hpy : ReadsStamps py) (utcNow offset : ℤ)
    (ollama : Ollama) (articles : String → ℕ → Py HttpResponse) (pages : ℕ)
    (datasets spaces : String → Py HttpResponse) (keywords hubKeywords : List String)
    (harticles : ∀ v ∈ (devtoCollector py (utcNow+offset) articles pages).visitedPairs keywords,
      ∃ stamp, devtoCheck.Carries v.2 stamp)
    (hdatasets : ∀ v ∈ (datasetCollector py (utcNow+offset) datasets).visitedPairs hubKeywords,
      ∃ stamp, hubCheck.Carries v.2 stamp)
    (hspaces : ∀ v ∈ (spaceCollector py (utcNow+offset) spaces).visitedPairs hubKeywords,
      ∃ stamp, hubCheck.Carries v.2 stamp) :
    let now := utcNow+offset
    let devtoRun := itemsOf (getDevtoBlogsAllKeywords py now ollama articles pages keywords)
    let hubRun := getTopDatasetsAndSpacesAllKeywords py now ollama datasets spaces hubKeywords
    let hubCompletes :=
      (datasetCollector py now datasets).Completes hubKeywords (hubReading py now) ∧
        (spaceCollector py now spaces).Completes hubKeywords (hubReading py now)
    RecentExactly (devtoCollector py now articles pages) (devtoReading py now) keywords devtoCheck
      utcNow offset ((devtoCollector py now articles pages).Completes keywords
        (devtoReading py now)) devtoRun ∧
    RecentExactly (datasetCollector py now datasets) (hubReading py now) hubKeywords hubCheck
      utcNow offset hubCompletes (itemsOf (hubRun.map Prod.fst)) ∧
    RecentExactly (spaceCollector py now spaces) (hubReading py now) hubKeywords hubCheck
      utcNow offset hubCompletes (itemsOf (hubRun.map Prod.snd)) := by
  intro now devtoRun hubRun hubCompletes
  have hdevto := devto_reads py now articles pages
  have hdataset : (datasetCollector py now datasets).Reads (hubReading py now) :=
    hub_reads py now _ "downloads"
  have hspace : (spaceCollector py now spaces).Reads (hubReading py now) :=
    hub_reads py now _ "viewerCount"
  have hhub : Returns hubRun ↔ hubCompletes :=
    getTop_returns.trans (and_congr hdataset.completes hspace.completes)
  refine ⟨recentExactly hdevto ?_ (fun top htop => ?_) (fun _ _ h => devto_window hpy h) harticles,
    recentExactly hdataset (returns_itemsOf_map.trans hhub) (fun top htop => ?_)
      (fun _ _ h => hub_window hpy h) hdatasets,
    recentExactly hspace (returns_itemsOf_map.trans hhub) (fun top htop => ?_)
      (fun _ _ h => hub_window hpy h) hspaces⟩
  · rw [← hdevto.completes]
    exact iff_of_eq (congrArg Returns (getDevto_items keywords py now ollama pages articles))
  · rwa [← getDevto_items keywords py now ollama pages articles]
  · obtain ⟨both,hboth,rfl⟩ := itemsOf_map_eq_ok.mp htop
    exact (getTop_eq_ok hboth).1
  · obtain ⟨both,hboth,rfl⟩ := itemsOf_map_eq_ok.mp htop
    exact (getTop_eq_ok hboth).2

/-! ### Sample runs -/

/-- An interpreter that reads timestamps. -/
def calendarInterpreter : Interpreter := { sampleInterpreter with
  strptime := fun text format => do
    let stamp ← readStamp text.toList
    if format = "%Y-%m-%dT%H:%M:%SZ" then
      if stamp.fraction = [] then some stamp.micros else none
    else if format = "%Y-%m-%dT%H:%M:%S.%fZ" then
      if stamp.fraction ≠ [] ∧ stamp.fraction.length ≤ 6 then some stamp.micros else none
    else none }

theorem calendarInterpreter_reads : ReadsStamps calendarInterpreter := by
  constructor <;> intro stamp <;> simp [calendarInterpreter,readStamp_text]

/-- Noon on 2025-02-08. -/
def runInstant : ℤ := 1739016000000000

/-- Seven days and three hours before. -/
def staleStamp : Stamp := ⟨⟨2025,2,1,9,0,0,by decide,by decide⟩,[]⟩

/-- A day before, with or without a fraction. -/
def freshStamp (fraction : List (Fin 10)) : Stamp :=
  ⟨⟨2025,2,7,12,0,0,by decide,by decide⟩,fraction⟩

example : String.ofList staleStamp.text = "2025-02-01T09:00:00Z" := by decide

/-- An item with a timestamp and some likes or reactions. -/
def datedItem (field : String) (stamp : Stamp) (likes : ℤ) : Json :=
  .obj [("id",.str "a"),("likes",.int likes),("positive_reactions_count",.int likes),
    (field,.str (String.ofList stamp.text))]

/-- An answer with status 200. -/
def answerOf (items : List Json) : Py HttpResponse := .ok ⟨200,.ok (.arr items)⟩

/-- The stale article comes from a machine whose clock is five hours behind. -/
theorem staleArticle_not_recent :
    ¬Recent (devtoCollector calendarInterpreter (runInstant+(-18000000000))
        (fun _ _ => answerOf [datedItem "published_at" staleStamp 1]) 1)
      (devtoReading calendarInterpreter (runInstant+(-18000000000))) ["ai"] devtoCheck runInstant
      (itemsOf (getDevtoBlogsAllKeywords calendarInterpreter (runInstant+(-18000000000))
        (fun _ _ => .ok "") (fun _ _ => answerOf [datedItem "published_at" staleStamp 1]) 1
        ["ai"])) := by
  intro h
  obtain ⟨-,hreturned,-⟩ := h _ rfl
  obtain ⟨stamp,hcarries,hwithin⟩ := hreturned _ (List.Mem.head _)
  have hstamp : devtoCheck.Carries (datedItem "published_at" staleStamp 1) staleStamp := rfl
  rw [← hstamp.unique hcarries] at hwithin
  rw [DateCheck.within_iff _ (by decide)] at hwithin
  revert hwithin
  decide

/-- Three articles: a stale one, one that is read and one that counts as now. -/
def sampleArticles : List Json :=
  [datedItem "published_at" staleStamp 9,datedItem "published_at" (freshStamp []) 3,
    datedItem "published_at" (freshStamp [5]) 4]

/-- Two datasets, one of which counts as now. -/
def sampleDatasets : List Json :=
  [datedItem "lastModified" (freshStamp [0]) 1,datedItem "lastModified" (freshStamp []) 2]

/-- Three hours. -/
def sampleOffset : ℤ := 10800000000

/-- On a clock three hours ahead the articles and the datasets that are returned are
recent. -/
theorem recencyWindow_iff_fresh :
    Recent (devtoCollector calendarInterpreter (runInstant+sampleOffset)
        (fun _ _ => answerOf sampleArticles) 1)
      (devtoReading calendarInterpreter (runInstant+sampleOffset)) ["ai"] devtoCheck runInstant
      (itemsOf (getDevtoBlogsAllKeywords calendarInterpreter (runInstant+sampleOffset)
        (fun _ _ => .ok "") (fun _ _ => answerOf sampleArticles) 1 ["ai"])) ∧
    Recent (datasetCollector calendarInterpreter (runInstant+sampleOffset)
        (fun _ => answerOf sampleDatasets))
      (hubReading calendarInterpreter (runInstant+sampleOffset)) ["ai"] hubCheck runInstant
      (itemsOf ((getTopDatasetsAndSpacesAllKeywords calendarInterpreter (runInstant+sampleOffset)
        (fun _ _ => .ok "") (fun _ => answerOf sampleDatasets) (fun _ => answerOf sampleDatasets)
        ["ai"]).map Prod.fst)) := by
  have hboth : ∀ {check : DateCheck} {item} (stamp), check.Carries item stamp →
      stamp.fraction.length ≤ 6 →
      ((check.reads stamp = true → runInstant+sampleOffset-check.span ≤ stamp.micros) ↔
        runInstant-check.span ≤ stamp.micros ∧ stamp.micros ≤ runInstant) →
      (check.lets runInstant sampleOffset item = true ↔ check.ItemWithin runInstant item) := by
    intro check item stamp hcarries hlength hsame
    rw [hcarries.lets_iff,DateCheck.Passes,hsame,← DateCheck.within_iff runInstant hlength]
    exact ⟨fun hwithin => ⟨stamp,hcarries,hwithin⟩,
      fun ⟨other,hother,hwithin⟩ => (hcarries.unique hother).symm ▸ hwithin⟩
  have hdevto : ∀ item ∈ sampleArticles, (∃ stamp, devtoCheck.Carries item stamp) ∧
      (devtoCheck.lets runInstant sampleOffset item = true ↔
        devtoCheck.ItemWithin runInstant item) := by
    intro item hitem
    simp only [sampleArticles,List.mem_cons,List.not_mem_nil,or_false] at hitem
    rcases hitem with rfl | rfl | rfl
    · exact ⟨⟨staleStamp,rfl⟩,hboth staleStamp rfl (by decide) (by decide)⟩
    · exact ⟨⟨freshStamp [],rfl⟩,hboth (freshStamp []) rfl (by decide) (by decide)⟩
    · exact ⟨⟨freshStamp [5],rfl⟩,hboth (freshStamp [5]) rfl (by decide) (by decide)⟩
  have hhub : ∀ item ∈ sampleDatasets, (∃ stamp, hubCheck.Carries item stamp) ∧
      (hubCheck.lets runInstant sampleOffset item = true ↔
        hubCheck.ItemWithin runInstant item) := by
    intro item hitem
    simp only [sampleDatasets,List.mem_cons,List.not_mem_nil,or_false] at hitem
    rcases hitem with rfl | rfl
    · exact ⟨⟨freshStamp [0],rfl⟩,hboth (freshStamp [0]) rfl (by decide) (by decide)⟩
    · exact ⟨⟨freshStamp [],rfl⟩,hboth (freshStamp []) rfl (by decide) (by decide)⟩
  have hpairs : ∀ {items : List Json} {p : Json → Prop}, (∀ item ∈ items, p item) →
      ∀ v ∈ items.map (Prod.mk "ai"), p v.2 := by
    intro items p hall v hv
    obtain ⟨item,hitem,rfl⟩ := List.mem_map.mp hv
    exact hall item hitem
  have h := recencyWindow_iff calendarInterpreter_reads runInstant sampleOffset
    (fun _ _ => .ok "") (fun _ _ => answerOf sampleArticles) 1 (fun _ => answerOf sampleDatasets)
    (fun _ => answerOf sampleDatasets) ["ai"] ["ai"]
    (hpairs fun item hitem => (hdevto item hitem).1)
    (hpairs fun item hitem => (hhub item hitem).1) (hpairs fun item hitem => (hhub item hitem).1)
  exact ⟨h.1.recent.mpr fun _ =>
      harmless_of_exact (hpairs fun item hitem => (hdevto item hitem).2),
    h.2.1.recent.mpr fun _ => harmless_of_exact (hpairs fun item hitem => (hhub item hitem).2)⟩

end Senca.RecencyWindow
