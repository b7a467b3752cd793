import Senca.StoreFunctions

/-!
# Posting news articles over a network that loses messages

`store_newsapi_in_db`, the network and the newsapi route as one system. The
route has no key that would make a repeated post harmless, so a batch is
inserted at most once, and a returned False means it was not inserted,
exactly when the batch cannot be stored at all or every post the route
processed had its answer received. Posts are assumed to reach a database
that accepts writes and generates fresh ids.
-/

namespace Senca.RetryProtocol

open JsonValue MongooseStore PythonRuntime RetryNetwork ScraperCollectors ServerRoutes
  StoreFunctions

/-- The collection of the newsapi route. -/
abbrev NewsCollection := List (Document Route.newsapi.schema)

/-- The processed posts meet a database that works: no storage error, and ids
that are new within a batch, between batches and to the collection. -/
structure FreshWrites (coll : NewsCollection) (envs : List Env) : Prop where
  /-- No write fails for a reason of its own. -/
  writes : ∀ env ∈ envs, ∀ i, env.writeFails i = false
  /-- Two positions of one batch get different ids. -/
  distinct : ∀ env ∈ envs, ∀ i j, env.newId i = env.newId j → i = j
  /-- Two batches get different ids. -/
  apart : envs.Pairwise (fun env env' => ∀ i j, env.newId i ≠ env'.newId j)
  /-- No stored document has a generated id. -/
  unused : ∀ env ∈ envs, ∀ i, ∀ doc ∈ coll, doc.id ≠ env.newId i

/-- The circumstances of the posts processed in a run. -/
def processedEnvs (es : List (Event Env)) : List Env := (processed es).map Prod.snd

/-- The values a batch stores, whatever its ids. -/
def payloadValues (lib : Mongoose) (elements : List Json) : List (List (String×StoredValue)) :=
  elements.map (fun e =>
    (lib.castValues 0 ((elementMembers e).getD []) resourcePaths).getD [])

/-- The documents of a batch under the circumstances of one post. -/
def batch (lib : Mongoose) (elements : List Json) (env : Env) : NewsCollection :=
  (lib.castAll Route.newsapi.schema env 0 elements).getD []

/-- A call that has returned stored its payload at most once, and nothing of it
when it says so. -/
structure Honest (lib : Mongoose) (elements : List Json) (result : Option Bool)
    (before after : NewsCollection) : Prop where
  /-- Every element of the payload has been inserted at most once. -/
  once : ∃ added, after = before++added ∧
    (added.map Document.values).Subperm (payloadValues lib elements)
  /-- When False is returned, nothing of the payload has been inserted. -/
  refused : result = some false → after = before

variable {lib : Mongoose} {wireSize : WireSize}

theorem newsElements_withoutIds (items : List (Summarised NewsItem)) :
    WithoutIds (items.map newsElement) := by
  intro e he
  obtain ⟨it,-,rfl⟩ := List.mem_map.mp he
  exact ⟨_,rfl,rfl⟩

/-- A batch of articles stores the same values under all circumstances. -/
theorem batch_values {items : List (Summarised NewsItem)} {env : Env} {docs : NewsCollection}
    (h : lib.castAll Route.newsapi.schema env 0 (items.map newsElement) = some docs) :
    docs.map Document.values = payloadValues lib (items.map newsElement) := by
  have hall := Mongoose.castAll_forall₂ h
  clear h
  rw [payloadValues]
  rw [List.forall₂_map_left_iff] at hall
  rw [List.map_map]
  induction hall with
  | nil => rfl
  | cons hd _ ih =>
    obtain ⟨k,hk⟩ := hd
    rw [List.map_cons,List.map_cons,ih]
    congr 1
    have hvalues := Mongoose.castDocument_values hk
    rw [Mongoose.castValues_now env.now 0] at hvalues
    · simp only [Function.comp,newsElement,resourceElement,elementMembers,Option.getD_some]
      exact (congrArg (Option.getD · []) hvalues).symm
    · simp [Route.schema,newsApiResourceSchema,resourceSchema,resourcePaths,List.lookup_cons]

theorem FreshWrites.of_append {coll : NewsCollection} {before after : List Env}
    (h : FreshWrites coll (before++after)) : FreshWrites coll before :=
  ⟨fun e he => h.writes e (List.mem_append_left _ he),
    fun e he => h.distinct e (List.mem_append_left _ he),
    (List.pairwise_append.mp h.apart).1,
    fun e he => h.unused e (List.mem_append_left _ he)⟩

/-- Every document of a batch has an id generated for its post. -/
theorem id_of_mem_batch {elements : List Json} (hids : WithoutIds elements) {env : Env}
    {doc : Document Route.newsapi.schema} (h : doc ∈ batch lib elements env) :
    ∃ i, doc.id = env.newId i := by
  unfold batch at h
  cases hc : lib.castAll Route.newsapi.schema env 0 elements with
  | none => simp [hc] at h
  | some docs =>
    rw [hc] at h
    obtain ⟨i,hi,rfl⟩ := List.mem_iff_getElem.mp h
    exact ⟨0+i,Mongoose.castAll_ids hc hids i hi⟩

/-- Each processed post of a storable batch succeeds and adds the batch. -/
theorem served_storable {elements : List Json} {server : Server}
    (hs : Storable lib wireSize .newsapi elements) (hids : WithoutIds elements)
    {envs : List Env} (h : FreshWrites (server .newsapi) envs) :
    served (newsServe lib wireSize elements) server envs .newsapi =
      server .newsapi++envs.flatMap (batch lib elements) ∧
    ∀ before env, envs = before++[env] →
      succeeds (newsServe lib wireSize elements env
        (served (newsServe lib wireSize elements) server before)).1 = true := by
  induction envs using List.reverseRecOn with
  | nil => exact ⟨by simp [served],by simp⟩
  | append_singleton before env ih =>
    obtain ⟨hbefore,-⟩ := ih h.of_append
    have hmem : env ∈ before++[env] := by simp
    have hunused : ∀ i, ∀ doc ∈ served (newsServe lib wireSize elements) server before .newsapi,
        doc.id ≠ env.newId i := by
      intro i doc hdoc
      rw [hbefore] at hdoc
      rcases List.mem_append.mp hdoc with hdoc | hdoc
      · exact h.unused env hmem i doc hdoc
      · obtain ⟨env',henv',hdoc⟩ := List.mem_flatMap.mp hdoc
        obtain ⟨j,hj⟩ := id_of_mem_batch hids hdoc
        rw [hj]
        exact (List.pairwise_append.mp h.apart).2.2 env' henv' env (by simp) j i
    have hmount : mounts.lookup StoreFunction.newsApi.endpoint = some .newsapi := rfl
    obtain ⟨docs,hdocs,hok,hafter⟩ := handle_post_storable hmount hs hids (h.writes env hmem)
      (h.distinct env hmem) hunused
    have hbatch : batch lib elements env = docs := by
      rw [batch]
      exact congrArg (Option.getD · []) hdocs
    constructor
    · rw [served,List.foldl_append]
      change (newsServe lib wireSize elements env
        (served (newsServe lib wireSize elements) server before)).2 .newsapi = _
      rw [newsServe,hafter,Function.update_self,hbefore,List.flatMap_append,
        List.flatMap_singleton,hbatch,List.append_assoc]
    · intro before' env' hsplit
      obtain ⟨rfl,hlast⟩ := List.append_inj' hsplit rfl
      cases hlast
      exact hok

/-- All copies of a storable batch store the same values. -/
theorem batch_map_values {items : List (Summarised NewsItem)}
    (hs : Storable lib wireSize .newsapi (items.map newsElement)) (env : Env) :
    (batch lib (items.map newsElement) env).map Document.values =
      payloadValues lib (items.map newsElement) := by
  have hsome : (lib.castAll Route.newsapi.schema env 0 (items.map newsElement)).isSome = true := by
    rw [Mongoose.castAll_isSome,List.all_eq_true]
    exact hs.2.2
  obtain ⟨docs,hdocs⟩ := Option.isSome_iff_exists.mp hsome
  rw [batch,hdocs]
  exact batch_values hdocs

/-- A collection that got n copies of a nonempty batch got it honestly exactly
when n is at most one, and zero if False was returned. -/
theorem honest_iff_copies {items : List (Summarised NewsItem)}
    (hs : Storable lib wireSize .newsapi (items.map newsElement)) (envs : List Env)
    (result : Option Bool) (before : NewsCollection) :
    Honest lib (items.map newsElement) result before
        (before++envs.flatMap (batch lib (items.map newsElement))) ↔
      envs.length ≤ 1 ∧ (result = some false → envs = []) := by
  have hlen : ∀ env, (batch lib (items.map newsElement) env).length = items.length := by
    intro env
    rw [← List.length_map Document.values,batch_map_values hs env,payloadValues,List.length_map,
      List.length_map]
  have hpos : 0 < items.length :=
    List.length_pos_of_ne_nil (fun h => hs.1 (by rw [h]; rfl))
  constructor
  · rintro ⟨⟨added,hadded,hsub⟩,hrefused⟩
    obtain rfl := List.append_cancel_left hadded
    have hle := hsub.length_le
    rw [payloadValues,List.length_map,List.length_map,List.length_map] at hle
    refine ⟨?_,?_⟩
    · match envs with
      | [] => simp
      | [_] => simp
      | env::env'::rest =>
        simp only [List.flatMap_cons,List.length_append,hlen] at hle
        omega
    · intro hfalse
      have hnil := List.append_right_eq_self.mp (hrefused hfalse)
      cases envs with
      | nil => rfl
      | cons env rest =>
        rw [List.flatMap_cons,List.append_eq_nil_iff] at hnil
        have hzero := hlen env
        rw [hnil.1] at hzero
        simp only [List.length_nil] at hzero
        omega
  · rintro ⟨hone,hnone⟩
    refine ⟨⟨_,rfl,?_⟩,?_⟩
    · match envs,hone with
      | [],_ => simp
      | [env],_ =>
        rw [List.flatMap_singleton,batch_map_values hs env]
    · intro hfalse
      rw [hnone hfalse]
      simp

/-- For every list of articles, every max_retries and every order of sends,
losses, processing, deliveries and timeouts: once the function has returned,
nothing was inserted twice and a returned False means nothing was inserted,
exactly when the batch cannot be stored or every processed post had its answer
received and read while the client waited for it. -/
theorem retries_honest_iff (lib : Mongoose) (wireSize : WireSize)
    (items : List (Summarised NewsItem)) (maxRetries : ℤ) (server : Server)
    (es : List (Event Env)) (s : System Server Response) (result : Option Bool)
    (hrun : execute (newsServe lib wireSize (items.map newsElement)) succeeds maxRetries.toNat
      (start maxRetries.toNat server) es = some s)
    (hresult : s.client = .returned result)
    (hfresh : FreshWrites (server .newsapi) (processedEnvs es)) :
    Honest lib (items.map newsElement) result (server .newsapi) (s.server .newsapi) ↔
      (Storable lib wireSize .newsapi (items.map newsElement) →
        ∀ k env, Event.process k env ∈ es → Event.receive k ∈ es) := by
  by_cases hs : Storable lib wireSize .newsapi (items.map newsElement)
  · have hids := newsElements_withoutIds items
    have hok : AllServed (newsServe lib wireSize (items.map newsElement)) succeeds server es := by
      rintro before k env after rfl
      have hsplit : processedEnvs (before++.process k env::after) =
          (processedEnvs before++[env])++processedEnvs after := by
        simp [processedEnvs,processed_append,processed]
      rw [hsplit] at hfresh
      exact (served_storable hs hids hfresh.of_append).2 (processedEnvs before) env rfl
    rw [(inv_execute hrun hok).server,servedBy]
    change Honest _ _ _ _ (served _ server (processedEnvs es) .newsapi) ↔ _
    rw [(served_storable hs hids hfresh).1,honest_iff_copies hs,processedEnvs,List.length_map,
      List.map_eq_nil_iff,servedOnce_iff hrun hok hresult]
    exact ⟨fun h _ => h,fun h => h hs⟩
  · have hsame : s.server = server := by
      rw [execute_server_of_inert (fun env state => ?_) hrun]
      · rfl
      · refine (handle_post_refused (fun route hroute => ?_)).2
        obtain rfl : Route.newsapi = route := Option.some.inj hroute
        exact hs
    rw [hsame]
    refine ⟨fun _ h => absurd h hs,fun _ => ⟨⟨[],by simp,List.nil_subperm⟩,fun _ => rfl⟩⟩

/-! ### A timeout on the answer -/

/-- One article. -/
def sampleArticle : Summarised NewsItem := ⟨{
  keyword := "ai", title := .str "AI at work", author := .str "A. Writer",
  publishedAt := .str "", source := .str "Wired", description := .str "a report",
  url := .str "https://wired.com/a", image := .str "No image", relevanceScore := .int 3,
  createdAt := sampleTime },"A report."⟩

/-- A working database that generates the ids of one residue modulo 2. -/
def parityEnv (parity : ℕ) : Env := {sampleEnv 0 with newId := fun i => 2*i+parity}

/-- Two attempts, both processed, both given up by the client. -/
def timeouts : List (Event Env) := [.send,.process 0 (parityEnv 0),.giveUp 0,.send,
  .process 1 (parityEnv 1),.giveUp 1]

/-- One attempt whose answer is received. -/
def answeredOnce : List (Event Env) := [.send,.process 0 (parityEnv 0),.receive 0]

/-- The newsapi route for the sample article, in a body of 500 bytes. -/
def sampleServe : Env → Server → Response×Server :=
  newsServe sampleMongoose (fun _ => 500) ([sampleArticle].map newsElement)

theorem timeouts_fresh : FreshWrites (emptyServer .newsapi) (processedEnvs timeouts) := by
  have henvs : processedEnvs timeouts = [parityEnv 0,parityEnv 1] := rfl
  rw [henvs]
  refine ⟨?_,?_,?_,?_⟩
  · simp [parityEnv,sampleEnv]
  · intro env henv i j hij
    simp only [List.mem_cons,List.not_mem_nil,or_false] at henv
    rcases henv with rfl | rfl
    · change 2*i+0 = 2*j+0 at hij
      omega
    · change 2*i+1 = 2*j+1 at hij
      omega
  · rw [List.pairwise_pair]
    intro i j hij
    change 2*i+0 = 2*j+1 at hij
    omega
  · simp [emptyServer]

/-- The first processed post timed out for the client, so it posted again and
then reported a failure: the article stands in the collection twice. -/
theorem timeouts_not_honest :
    ∃ s, execute sampleServe succeeds 2 (start 2 emptyServer) timeouts = some s ∧
      s.client = .returned (some false) ∧ (s.server .newsapi).length = 2 ∧
      FreshWrites (emptyServer .newsapi) (processedEnvs timeouts) ∧
      ¬Honest sampleMongoose ([sampleArticle].map newsElement) (some false)
        (emptyServer .newsapi) (s.server .newsapi) := by
  refine ⟨_,rfl,rfl,rfl,timeouts_fresh,?_⟩
  rintro ⟨-,hrefused⟩
  have hlen := congrArg List.length (hrefused rfl)
  revert hlen
  decide

theorem retries_honest_iff_answeredOnce :
    ∃ s, execute sampleServe succeeds 3 (start 3 emptyServer) answeredOnce = some s ∧
      Honest sampleMongoose ([sampleArticle].map newsElement) (some true)
        (emptyServer .newsapi) (s.server .newsapi) := by
  refine ⟨_,rfl,(retries_honest_iff sampleMongoose (fun _ => 500) [sampleArticle] 3 emptyServer
    answeredOnce _ (some true) rfl rfl ?_).mpr ?_⟩
  · exact (show FreshWrites _ ([parityEnv 0]++[parityEnv 1]) from timeouts_fresh).of_append
  · intro _ k env hk
    simp only [answeredOnce,List.mem_cons,List.not_mem_nil,or_false,reduceCtorEq,false_or,
      Event.process.injEq] at hk
    rw [hk.1]
    simp [answeredOnce]

end Senca.RetryProtocol
