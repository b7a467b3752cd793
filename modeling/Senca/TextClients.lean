import Senca.CarriedValues
import Senca.ScraperClients
import Senca.WireFormat

/-!
# Scripts that send texts

What a script posts is made of texts and of values its sources answered. Where
these are values that their text gives back, so is every body, and scripts that
run at the same time and send texts do to the collections what they do when
values are exchanged.
-/

namespace Senca.TextClients

open CarriedValues Deployment FaultLoops GrowingLogs HubCollectors InterleavedClients JsonText
  JsonValue KeywordFiles PythonRuntime ScraperClients ScraperCollectors ScraperRounds ScraperRuns
  ServerRoutes StoreDelivery StoreFunctions WireFormat

/-- The server serves a request that is sent as text. -/
def serveText (num : NumberTexts) (s : Server) (r : Sent) : Response×Server :=
  overWire num r.1 r.2.1 s r.2.2

/-- The collections after a schedule of turns in which texts are sent. -/
def concurrentText {ι : Type} [DecidableEq ι] (num : NumberTexts) (runs : ι → World×Script)
    (server : Server) (schedule : List ι) : Server :=
  (runFrom (turn (serveText num)) (launch runs server) schedule).state

/-- The body is accounted with the length of its text, and all JSON that the
sources answer is such that its text gives it back. -/
structure Textual (num : NumberTexts) (run : World×Script) : Prop where
  size : run.1.wireSize = wireSize num
  sources : SourcesIn (Portable (dumps num) num.read) run.2

theorem portable_class (style : Style) (read : List Char → Option Json) :
    ValueClass (Portable style read) where
  null := trivial
  text _ := trivial
  arr_iff := by
    intro items
    rw [Portable,portableItems_iff]
  obj_iff := by
    intro members
    rw [Portable,portableMembers_iff]

section Sendable

variable {num : NumberTexts} {w : World} {script : Script}

/-- A request of a store function that is given such items. -/
theorem sendable_postsFor (hsize : w.wireSize = wireSize num) {f : StoreFunction}
    {items : List f.Item}
    (hitems : ∀ it ∈ items, ElementIn (Portable (dumps num) num.read) w.py f it) {r : Sent}
    (h : PostsFor w f items r) : Sendable num r.2.2 := by
  rcases h.form with hget | ⟨elements,hp,hpost⟩
  · rw [hget]
    rintro body ⟨⟩
  · rw [hpost,hsize]
    refine postRequest_sendable _ ?_
    rw [Portable,portableItems_iff]
    intro element helement
    obtain ⟨it,hit,hof⟩ := partner_of_mem (gather_one_eq_ok.mp hp).flip helement
    exact hitems it hit element hof

theorem sendable_storeAny (hsize : w.wireSize = wireSize num) {f : StoreFunction}
    {items : List f.Item}
    (hitems : ∀ it ∈ items, ElementIn (Portable (dumps num) num.read) w.py f it) :
    (storeAnyClient w f items).Sends (fun r => Sendable num r.2.2) :=
  (sends_storeAny w f items).mono fun _ hr => sendable_postsFor hsize hitems hr

theorem sendable_collect (hsize : w.wireSize = wireSize num) {f : StoreFunction}
    {items : Py (List f.Item)} (hitems : ∀ collected, items = .ok collected → ∀ it ∈ collected,
      ElementIn (Portable (dumps num) num.read) w.py f it) :
    (collectClient w f items).Sends (fun r => Sendable num r.2.2) := by
  cases items with
  | error e => trivial
  | ok items => exact sendable_storeAny hsize (hitems items rfl)

theorem sendable_harvest (hsize : w.wireSize = wireSize num)
    (hsources : SourcesIn (Portable (dumps num) num.read) script) {f : StoreFunction}
    {items : Py (List f.Item)} (h : harvest w script = some ⟨f,items⟩) :
    (collectClient w f items).Sends (fun r => Sendable num r.2.2) :=
  sendable_collect hsize fun _ hcollected =>
    harvest_in (portable_class _ _) w hsources (hcollected ▸ h)

theorem sendable_calls (hsize : w.wireSize = wireSize num) (calls : List ToolHarvest.Call) :
    (callsClient w calls).Sends (fun r => Sendable num r.2.2) := by
  induction calls with
  | nil => trivial
  | cons c calls ih =>
    cases c with
    | post tools =>
      have hitems : ∀ tool ∈ tools, ElementIn (Portable (dumps num) num.read) w.py .tools tool :=
        fun tool _ => tools_in (portable_class _ _) tool
      have hpost := (sends_store w .tools tools).mono fun r hr =>
        @sendable_postsFor num w hsize .tools tools hitems r hr
      exact Client.sends_andThen hpost ih
    | _ => exact ih

/-- Every request of such a script can be sent. -/
theorem sendable_script (h : Textual num (w,script)) :
    (scriptClient w script).Sends (fun r => Sendable num r.2.2) := by
  obtain ⟨hsize,hsources⟩ := h
  have hclass := portable_class (dumps num) num.read
  cases script with
  | fetchPapers request =>
    exact sendable_collect hsize fun _ hcollected => papers_in hclass hsources hcollected
  | huggingface datasets spaces =>
    rw [scriptClient]
    cases hboth : getTopDatasetsAndSpacesAllKeywords w.py w.now w.ollama datasets spaces
        (loadAllHuggingfaceKeywords w.keywordFile) with
    | error e => trivial
    | ok both =>
      obtain ⟨hds,hsp⟩ := hub_in hclass hsources.1 hsources.2 hboth
      exact Client.sends_andThen (sendable_storeAny hsize hds) (sendable_storeAny hsize hsp)
  | tools site => exact sendable_calls hsize (toolCalls w site)
  | devto request => exact sendable_harvest hsize hsources rfl
  | github request => exact sendable_harvest hsize hsources rfl
  | newsApi request => exact sendable_harvest hsize hsources rfl
  | scrape request => exact sendable_harvest hsize hsources rfl
  | spotify1 token request => exact sendable_harvest hsize hsources rfl
  | tweets search => exact sendable_harvest hsize hsources rfl
  | youtube answers => exact sendable_harvest hsize hsources rfl
  | tools1 file => exact sendable_harvest hsize hsources rfl

end Sendable

/-- For any such scripts that run at the same time, in every order of their
requests: over texts the collections become what they become over values. -/
theorem concurrentText_eq_concurrent {ι : Type} [DecidableEq ι] (num : NumberTexts)
    (runs : ι → World×Script) (server : Server) (schedule : List ι) (htidy : Tidy server)
    (h : ∀ i, Textual num (runs i)) :
    concurrentText num runs server schedule = concurrent runs server schedule := by
  have hserve : ∀ (s : Server) (r : Sent), Sendable num r.2.2 → Tidy s →
      Tidy (serveSent s r).2 := fun _ r _ hs => handle_tidy r.1 r.2.1 r.2.2 hs
  have hsame : ∀ (s : Server) (r : Sent), Sendable num r.2.2 → Tidy s →
      serveText num s r = serveSent s r := fun _ r hr hs => overWire_eq_handle r.2.1 hs hr
  have hkeeping : Keeping (fun r : Sent => Sendable num r.2.2) Tidy (launch runs server) :=
    ⟨fun i => sendable_script (h i),htidy⟩
  rw [concurrentText,concurrent,runFrom_turn_congr hserve hsame hkeeping schedule]

/-- A run of the podcast script whose body is accounted as it is sent. -/
def sampleTextRun : World×Script :=
  ({ sampleWorld with wireSize := wireSize sampleNumbers },.spotify1 (.ok "") sampleShowSearch)

theorem sampleTextRun_textual : Textual sampleNumbers sampleTextRun := by
  refine ⟨rfl,fun bearer kw resp hresp body hbody => ?_⟩
  cases hresp
  cases hbody
  simp [Portable,PortableItems,PortableMembers]

/-- Two such runs at the same time, the second of which is served first. -/
theorem concurrentText_sampleTextRuns :
    concurrentText sampleNumbers (fun _ : Fin 2 => sampleTextRun) emptyServer [1,0,0,1] =
      concurrent (fun _ : Fin 2 => sampleTextRun) emptyServer [1,0,0,1] := by
  exact concurrentText_eq_concurrent sampleNumbers (fun _ => sampleTextRun) emptyServer [1,0,0,1]
    (fun _ _ hdoc => absurd hdoc List.not_mem_nil) (fun _ => sampleTextRun_textual)

end Senca.TextClients
