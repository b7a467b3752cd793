import Senca.Deployment

/-!
# Ids of documents and keys of cards

A body may name the `_id` of its elements, so ids need not come from the
database; the database refuses a second document with the id of a stored one.
The documents of one collection therefore keep different ids in every run,
and so do the cards of a page that come from one router, which React tells
apart by them.
-/

namespace Senca.CardKeys

open BrowserRuntime Deployment GrowingLogs JsonValue MongooseStore PageLoading ServerRoutes
  StoreFunctions StoredSearch

/-- The documents of each collection have different ids. -/
def DistinctIds (server : Server) : Prop :=
  ∀ route, ((server route).map (fun doc => doc.id)).Nodup

/-- What is written keeps ids different, up to the write that is refused. -/
theorem written_nodup {schema : Schema} (env : Env) (docs : List (Document schema))
    (coll : List (Document schema)) (i : ℕ) (h : (coll.map (fun doc => doc.id)).Nodup) :
    ((coll++docs.take (writtenCount env coll i docs)).map (fun doc => doc.id)).Nodup := by
  induction docs generalizing coll i with
  | nil => simpa using h
  | cons doc rest ih =>
    rw [writtenCount]
    split
    · rename_i hwritable
      have hfresh : ∀ d ∈ coll, d.id ≠ doc.id := by
        intro d hd
        have hall := (Bool.and_eq_true_iff.mp hwritable).2
        exact of_decide_eq_true (List.all_eq_true.mp hall d hd)
      have hnext : ((coll++[doc]).map (fun d => d.id)).Nodup := by
        rw [List.map_append,List.map_singleton,List.nodup_append]
        refine ⟨h,List.nodup_singleton _,fun id hid other hother => ?_⟩
        obtain ⟨d,hd,rfl⟩ := List.mem_map.mp hid
        rw [List.mem_singleton.mp hother]
        exact hfresh d hd
      rw [List.take_succ_cons,← List.singleton_append,← List.append_assoc]
      exact ih (coll++[doc]) (i+1) hnext
    · simpa using h

/-- One request keeps ids different, whatever it posts. -/
theorem handle_distinctIds (lib : Mongoose) (env : Env) {server : Server} (req : Request)
    (h : DistinctIds server) : DistinctIds (handle lib env server req).2 := by
  intro route
  rw [handle_collection,stored]
  cases castPosted lib route env req with
  | none =>
    rw [List.append_nil]
    exact h route
  | some docs => exact written_nodup env docs (server route) 0 (h route)

section Runs

variable {lib : Mongoose} {browser : Browser}

theorem step_distinctIds (s : State) (e : Event) (h : DistinctIds s.server) :
    DistinctIds (step lib browser s e).server := by
  cases e with
  | request env req => exact handle_distinctIds lib env req h
  | answer i path env => exact handle_distinctIds lib env (getRequest path) h
  | _ => exact h

theorem runSystem_distinctIds (events : List Event) {s : State} (h : DistinctIds s.server) :
    DistinctIds (runSystem lib browser s events).server :=
  runFrom_invariant (P := fun s : State => DistinctIds s.server) step_distinctIds h events

/-- What is among the forms of some collections is the forms of a part of each. -/
theorem sublist_flatMap_forms {routes : List Route} (hroutes : routes.Nodup) {held : Server}
    {shown : List Resource} (h : shown.Sublist (routes.flatMap (fun route =>
      (held route).map (fun doc => shownForm route (lib.members doc))))) :
    ∃ docs : Server, (∀ route, (docs route).Sublist (held route)) ∧
      shown = routes.flatMap (fun route =>
        (docs route).map (fun doc => shownForm route (lib.members doc))) := by
  induction routes generalizing shown with
  | nil => exact ⟨held,fun _ => .refl _,List.sublist_nil.mp h⟩
  | cons route rest ih =>
    obtain ⟨hroute,hrest⟩ := List.nodup_cons.mp hroutes
    rw [List.flatMap_cons] at h
    obtain ⟨first,others,rfl,hfirst,hothers⟩ := List.sublist_append_iff.mp h
    obtain ⟨here,hhere,rfl⟩ := List.sublist_map_iff.mp hfirst
    obtain ⟨docs,hdocs,rfl⟩ := ih hrest hothers
    refine ⟨Function.update docs route here,fun r => ?_,?_⟩
    · by_cases hr : r = route
      · subst hr
        rwa [Function.update_self]
      · rw [Function.update_of_ne hr]
        exact hdocs r
    · rw [List.flatMap_cons,Function.update_self]
      congr 1
      refine List.flatMap_congr fun r hr => ?_
      have hne : r ≠ route := fun heq => hroute (heq ▸ hr)
      rw [Function.update_of_ne hne]

/-- What a page makes of a document has its rendered id. -/
theorem lookup_id_shownForm (lib : Mongoose) (route : Route) (doc : Document route.schema) :
    (shownForm route (lib.members doc)).lookup "_id" = some (.str (lib.hexOfId doc.id)) := by
  cases route <;> rfl

/-- Different ids have different texts, so cards of different documents have different
keys. -/
theorem keys_nodup {docs : Server} (h : DistinctIds docs) (route : Route) :
    ((docs route).map (fun doc =>
      (shownForm route (lib.members doc)).lookup "_id")).Nodup := by
  have hkeys : (docs route).map (fun doc => (shownForm route (lib.members doc)).lookup "_id") =
      ((docs route).map (fun doc => doc.id)).map (fun id => some (.str (lib.hexOfId id))) := by
    rw [List.map_map]
    exact List.map_congr_left fun doc _ => lookup_id_shownForm lib route doc
  rw [hkeys]
  refine (h route).map fun id other hid => lib.hexOfId_injective ?_
  exact Json.str.inj (Option.some.inj hid)

/-- The ids of stored documents differ in each collection, and every open page
shows the forms of stored documents, those of one router with different values
of `_id`, which are the keys of the cards. -/
structure ScreensKeyed (lib : Mongoose) (s : State) : Prop where
  stored : DistinctIds s.server
  shown : ∀ i tab, s.tabs i = some tab → ∃ docs : Server,
    (∀ route, (docs route).Sublist (s.server route)) ∧ DistinctIds docs ∧
      (∀ route, ((docs route).map (fun doc =>
        (shownForm route (lib.members doc)).lookup "_id")).Nodup) ∧
      tab.view.value.Perm (forms lib tab.page docs)

/-- For every run from collections whose ids differ, with any bodies posted,
also such that name ids or repeat them: ids differ ever after, and no page
shows two cards of one router with the same `_id`. -/
theorem run_screensKeyed (lib : Mongoose) (browser : Browser) (server : Server)
    (events : List Event) (h : DistinctIds server) :
    ScreensKeyed lib (runSystem lib browser (start server) events) := by
  have hstored : DistinctIds (runSystem lib browser (start server) events).server :=
    runSystem_distinctIds events h
  refine ⟨hstored,fun i tab htab => ?_⟩
  have hsound := @started_soundAt lib browser server events i
  have hshown : tab.view.value.Subperm (forms lib tab.page _) :=
    (hsound.tab tab htab).shown.trans
      ((hsound.tab tab htab).holds_current hsound.grows hsound.now)
  obtain ⟨shown,hperm,hsub⟩ := hshown
  obtain ⟨docs,hdocs,rfl⟩ := sublist_flatMap_forms (by cases tab.page <;> decide) hsub
  have hdistinct : DistinctIds docs := fun route => ((hdocs route).map _).nodup (hstored route)
  exact ⟨docs,hdocs,hdistinct,keys_nodup hdistinct,hperm.symm⟩

/-- A batch that names one id twice, then a visit. -/
theorem run_screensKeyed_repeatedId : ScreensKeyed sampleMongoose
    (runSystem sampleMongoose sampleBrowser (start emptyServer)
      (.request (sampleEnv 1) ⟨.post,"/api/devto-resources",some repeatedIdBody,500⟩::
        visit 0 .blogsRepos (fun _ => sampleEnv 1))) :=
  run_screensKeyed sampleMongoose sampleBrowser emptyServer _ fun _ => List.nodup_nil

end Runs

end Senca.CardKeys
