import Senca.ScraperClients

/-!
# Screens while scripts run

Scripts send their requests while visitors open pages, wait for answers, type
and click, all in any order. Each moment of this is a moment of a run of the
deployed system, and whatever a page shows at it was stored at the beginning or
collected by a script behind this page.
-/

namespace Senca.ScrapedScreens

open Deployment GrowingLogs InterleavedClients ScraperClients ScraperRounds ScraperRuns
  BrowserRuntime JsonValue MongooseStore PageLoading ResourceCards ServerRoutes StoredSearch

/-- What visitors do, and what happens to the fetches of their pages. -/
def VisitorEvent := {e : Event // ∀ env req, e ≠ .request env req}

/-- What can happen next. -/
inductive Move (ι : Type) where
  /-- A request of a script is served. -/
  | script (i : ι)
  /-- Something happens to an open page, or one is opened. -/
  | visitor (e : VisitorEvent)

/-- A script's request is served while pages are open. -/
def serveBeside (s : State) (r : Sent) : Response×State :=
  ((serveSent s.server r).1,{ s with server := (serveSent s.server r).2 })

section Moves

variable {ι : Type} {lib : Mongoose} {browser : CardBrowser} {runs : ι → World×Script}
  {sys : System ι Sent Response State}

/-- One move. -/
def move [DecidableEq ι] (lib : Mongoose) (browser : Browser)
    (sys : System ι Sent Response State) : Move ι → System ι Sent Response State
  | .script i => turn serveBeside sys i
  | .visitor e => { sys with state := step lib browser sys.state e.1 }

/-- The scripts before any of them was served, and no page open. -/
def atStart (runs : ι → World×Script) (server : Server) : System ι Sent Response State :=
  ⟨fun i => scriptClient (runs i).1 (runs i).2,start server⟩

/-- The event of the deployed system that a move is, none when a script is done. -/
def moveEvents (sys : System ι Sent Response State) : Move ι → List Event
  | .script i =>
    match sys.clients i with
    | .done => []
    | .send r _ => [.request r.2.1 r.2.2]
  | .visitor e => [e.1]

/-- Scripts of one server, of which each still sends its own requests. -/
structure Running (lib : Mongoose) (runs : ι → World×Script)
    (sys : System ι Sent Response State) : Prop where
  lib : ∀ i, (runs i).1.lib = lib
  sends : ∀ i, (sys.clients i).Sends (SentBy (runs i).1 (runs i).2)

/-- A request is one that a script sends. -/
def FromScripts (lib : Mongoose) (runs : ι → World×Script) (e : Event) : Prop :=
  ∀ env req, e = .request env req → ∃ i, SentBy (runs i).1 (runs i).2 (lib,env,req)

theorem move_running [DecidableEq ι] (h : Running lib runs sys) (m : Move ι) :
    Running lib runs (move lib browser.toBrowser sys m) := by
  refine ⟨h.lib,fun i => ?_⟩
  cases m with
  | script j => exact turn_sends (h.sends i) j
  | visitor e => exact h.sends i

/-- A move is its event. -/
theorem move_state [DecidableEq ι] (h : Running lib runs sys) (m : Move ι) :
    (move lib browser.toBrowser sys m).state =
      runSystem lib browser.toBrowser sys.state (moveEvents sys m) := by
  cases m with
  | visitor e => rfl
  | script i =>
    rw [move,moveEvents]
    obtain ⟨hdone,hturn⟩ | ⟨r,next,hi,hturn⟩ := @turn_cases _ _ _ _ _ serveBeside sys i
    · rw [hturn,hdone]
      rfl
    · have hown := h.sends i
      rw [hi] at hown
      have hlib : r.1 = lib := hown.1.lib.trans (h.lib i)
      rw [hturn,hi]
      dsimp only [serveBeside,serveSent]
      rw [hlib]
      rfl

theorem moveEvents_fromScripts (h : Running lib runs sys) (m : Move ι) :
    ∀ e ∈ moveEvents sys m, FromScripts lib runs e := by
  intro e he
  cases m with
  | visitor v =>
    rw [moveEvents,List.mem_singleton] at he
    exact fun env req heq => absurd (he.symm.trans heq) (v.2 env req)
  | script i =>
    rw [moveEvents] at he
    cases hi : sys.clients i with
    | done =>
      rw [hi] at he
      exact absurd he List.not_mem_nil
    | send r next =>
      rw [hi] at he
      have hown := h.sends i
      rw [hi] at hown
      have hlib : r.1 = lib := hown.1.lib.trans (h.lib i)
      intro env req heq
      rw [List.mem_singleton.mp he] at heq
      cases heq
      exact ⟨i,hlib ▸ hown.1⟩

/-- Moves are a run of the deployed system, in which only scripts send requests. -/
theorem moves_run [DecidableEq ι] (h : Running lib runs sys) (moves : List (Move ι)) :
    ∃ events, (runFrom (move lib browser.toBrowser) sys moves).state =
      runSystem lib browser.toBrowser sys.state events ∧ ∀ e ∈ events, FromScripts lib runs e := by
  induction moves generalizing sys with
  | nil => exact ⟨[],rfl,fun _ he => absurd he List.not_mem_nil⟩
  | cons m moves ih =>
    obtain ⟨events,hrun,hfrom⟩ := ih (move_running h m)
    refine ⟨moveEvents sys m++events,?_,fun e he => ?_⟩
    · rw [runFrom_cons,hrun,move_state h m,runSystem_append]
    · rcases List.mem_append.mp he with he | he
      · exact moveEvents_fromScripts h m e he
      · exact hfrom e he

/-- One event of such a run. -/
theorem step_addedBy {s : State} {server : Server} {e : Event} (he : FromScripts lib runs e)
    (h : AddedBy runs server s.server) :
    AddedBy runs server (step lib browser.toBrowser s e).server := by
  cases e with
  | request env req => exact addedBy_serve (he env req rfl) h
  | answer i path env =>
    rw [step,handle_get]
    exact h
  | _ => exact h

theorem runSystem_addedBy {s : State} {server : Server} {events : List Event}
    (hfrom : ∀ e ∈ events, FromScripts lib runs e) (h : AddedBy runs server s.server) :
    AddedBy runs server (runSystem lib browser.toBrowser s events).server := by
  induction events generalizing s with
  | nil => exact h
  | cons e events ih =>
    exact ih (fun e he => hfrom e (List.mem_cons_of_mem _ he))
      (step_addedBy (hfrom e List.mem_cons_self) h)

/-- Whatever an open page shows was stored at the beginning, or a script behind
the page collected it. -/
def ScreensScraped (lib : Mongoose) (runs : ι → World×Script) (server : Server) (s : State) :
    Prop :=
  ∀ n tab, s.tabs n = some tab → ∀ item ∈ tab.view.value, ∃ route ∈ routesOf tab.page,
    ∃ doc, item = shownForm route (lib.members doc) ∧ (doc ∈ server route ∨
      ∃ i, (runs i).2.target = some route ∧ ∃ element,
        Collected (runs i).1 (runs i).2 element ∧ CastFrom lib doc element)

/-- For any scripts that run at the same time, whatever their sources answer,
and any visitors, in every order of what they do. -/
theorem moves_screensScraped [DecidableEq ι] (lib : Mongoose) (browser : CardBrowser)
    (runs : ι → World×Script) (server : Server) (moves : List (Move ι))
    (hlib : ∀ i, (runs i).1.lib = lib) :
    ScreensScraped lib runs server
      (runFrom (move lib browser.toBrowser) (atStart runs server) moves).state := by
  have hrunning : Running lib runs (atStart runs server) :=
    ⟨hlib,fun i => sends_script (runs i).1 (runs i).2⟩
  obtain ⟨events,hrun,hfrom⟩ := @moves_run _ lib browser _ _ _ hrunning moves
  rw [hrun]
  intro n tab htab item hitem
  have hsound := @started_soundAt lib browser.toBrowser server events n
  have hcurrent := (hsound.tab tab htab).current hsound.grows hsound.now
  have hadded : AddedBy runs server
      (runSystem lib browser.toBrowser (start server) events).server :=
    runSystem_addedBy hfrom (addedBy_refl runs server)
  obtain ⟨route,hroute,-,doc,hdoc,hform⟩ := mem_listed.mp (hcurrent.stored.subset hitem)
  obtain ⟨docs,hdocs,hcollected⟩ := hadded route
  refine ⟨route,hroute,doc,hform.symm,?_⟩
  rw [hdocs] at hdoc
  rcases List.mem_append.mp hdoc with hold | hnew
  · exact .inl hold
  · obtain ⟨i,htarget,element,helement,hcast⟩ := hcollected doc hnew
    exact .inr ⟨i,htarget,element,helement,hlib i ▸ hcast⟩

end Moves

/-- The page of the podcasts is opened between the requests of the two scripts,
and its fetch is served before the tool is posted. -/
def sampleMoves : List (Move (Fin 2)) := [
  .script 1,.script 0,.visitor ⟨.openPage 0 .tweetsPodcastsVideos,nofun⟩,.script 0,
  .visitor ⟨.answer 0 "/api/tweet-resources" (sampleEnv 1),nofun⟩,
  .visitor ⟨.answer 0 "/api/spotify1-resources" (sampleEnv 1),nofun⟩,
  .visitor ⟨.answer 0 "/api/youtube-resources" (sampleEnv 1),nofun⟩,
  .visitor ⟨.fetchCompletes 0,nofun⟩,.script 1,.visitor ⟨.act 0 .runEffects,nofun⟩]

/-- The state after them. -/
def sampleScreens : State :=
  (runFrom (move sampleMongoose sampleCardBrowser.toBrowser) (atStart sampleRuns heldServer)
    sampleMoves).state

/-- The page shows the podcast that was stored before and the two collected ones. -/
theorem moves_screensScraped_sampleWorld :
    ((sampleScreens.tabs 0).map (fun tab => tab.view.value.map (fun item => item.lookup "title")) =
      some [some (.str "Talks"),some (.str "Notes"),some (.str "Earlier")]) ∧
    ScreensScraped sampleMongoose sampleRuns heldServer sampleScreens := by
  have hlib : ∀ i, (sampleRuns i).1.lib = sampleMongoose := Fin.forall_fin_two.mpr ⟨rfl,rfl⟩
  exact ⟨rfl,moves_screensScraped sampleMongoose sampleCardBrowser sampleRuns heldServer
    sampleMoves hlib⟩

end Senca.ScrapedScreens
