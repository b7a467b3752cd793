import Senca.RetryProtocol

/-!
# What a call of `store_newsapi_in_db` does

The loop with its two `except` branches, over every sequence of outcomes of
its attempts and whatever else the server handles meanwhile: how often it
posts, how long it sleeps, what it returns, and what a returned True says
about the collection.
-/

namespace Senca.RetryAccounting

open JsonValue MongooseStore RetryNetwork RetryProtocol ScraperCollectors ServerRoutes
  StoreFunctions

/-! ### The loop -/

/-- What the `try` block of an attempt raises. -/
inductive Fault where
  /-- `requests.exceptions.ConnectionError`. -/
  | connectionError
  /-- The answer does not come within the timeout. -/
  | timeout
  /-- `raise_for_status` meets an error status. -/
  | httpError
  /-- `r.json()` meets a body that is not JSON. -/
  | unparsable

/-- What becomes of an attempt. -/
inductive Attempt where
  /-- It raises; the route may have handled its request all the same. -/
  | faulty (fault : Fault) (handled : Option Env)
  /-- The answer of the route arrives as it was sent. -/
  | answered (env : Env)

/-- What happens outside while a call runs. -/
structure Outside where
  /-- What becomes of each attempt. -/
  attempt : ℕ → Attempt
  /-- The requests the server handles before that of each attempt. -/
  traffic : ℕ → List (Env×Request)

/-- What one `try` block leaves behind. -/
structure Tried where
  /-- The answer of the route, when it has handled the request. -/
  reply : Option Response
  /-- The exception, if any. -/
  raised : Option Fault
  /-- The server. -/
  server : Server

/-- What the client does in a call. -/
inductive Action where
  /-- `requests.post`, with the answer of the route. -/
  | post (reply : Option Response)
  /-- `time.sleep`. -/
  | sleep (seconds : ℕ)

/-- What a call has done so far, and the server. -/
structure Ledger where
  actions : List Action
  server : Server

/-- The number of posts. -/
def posts (actions : List Action) : ℕ :=
  actions.countP fun
    | .post _ => true
    | .sleep _ => false

/-- The seconds slept in total. -/
def slept (actions : List Action) : ℕ :=
  (actions.map fun
    | .post _ => 0
    | .sleep seconds => seconds).sum

@[simp] theorem posts_append (actions actions' : List Action) :
    posts (actions++actions') = posts actions+posts actions' := List.countP_append

@[simp] theorem slept_append (actions actions' : List Action) :
    slept (actions++actions') = slept actions+slept actions' := by
  rw [slept,List.map_append,List.sum_append]
  rfl

variable (lib : Mongoose) (wireSize : WireSize) (elements : List Json)

/-- `requests.post(...)`, `r.raise_for_status()` and `r.json()`. -/
def tryPost (server : Server) : Attempt → Tried
  | .faulty fault none => ⟨none,some fault,server⟩
  | .faulty fault (some env) =>
    let out := newsServe lib wireSize elements env server
    ⟨some out.1,some fault,out.2⟩
  | .answered env =>
    let out := newsServe lib wireSize elements env server
    ⟨some out.1,if 400 ≤ out.1.status then some .httpError
      else if out.1.body.isNone then some .unparsable else none,out.2⟩

variable (maxRetries : ℕ) (outside : Outside)

/-- `for attempt in range(max_retries)`, from an attempt on with so many left. -/
def retryLoop : ℕ → ℕ → Ledger → Option Bool×Ledger
  | 0,_,ledger => (none,ledger)
  | n+1,attempt,ledger =>
    let tried := tryPost lib wireSize elements
      (run lib ledger.server (outside.traffic attempt)) (outside.attempt attempt)
    let actions := ledger.actions++[.post tried.reply]
    match tried.raised with
    | none => (some true,⟨actions,tried.server⟩)
    | some .connectionError =>
      if attempt = maxRetries-1 then (some false,⟨actions,tried.server⟩)
      else retryLoop n (attempt+1) ⟨actions++[.sleep (2^attempt)],tried.server⟩
    | some _ =>
      if attempt = maxRetries-1 then (some false,⟨actions,tried.server⟩)
      else retryLoop n (attempt+1) ⟨actions++[.sleep (2^attempt)],tried.server⟩

/-- `store_newsapi_in_db`. -/
def storeNewsapiInDb (items : List (Summarised NewsItem)) (server : Server) :
    Option Bool×Ledger :=
  retryLoop lib wireSize (items.map newsElement) maxRetries outside maxRetries 0 ⟨[],server⟩

variable {lib wireSize elements maxRetries outside} {server : Server}

/-- The two `except` branches do the same. -/
theorem retryLoop_succ (n k : ℕ) (actions : List Action) (server : Server) :
    retryLoop lib wireSize elements maxRetries outside (n+1) k ⟨actions,server⟩ =
      let t := tryPost lib wireSize elements (run lib server (outside.traffic k))
        (outside.attempt k)
      if t.raised.isNone ∨ k = maxRetries-1 then
        (some t.raised.isNone,⟨actions++[.post t.reply],t.server⟩)
      else retryLoop lib wireSize elements maxRetries outside n (k+1)
        ⟨actions++[.post t.reply,.sleep (2^k)],t.server⟩ := by
  rw [retryLoop]
  obtain ⟨reply,raised,next⟩ := tryPost lib wireSize elements
    (run lib server (outside.traffic k)) (outside.attempt k)
  cases raised with
  | none => simp
  | some fault =>
    by_cases hlast : k = maxRetries-1
    · cases fault <;> simp [hlast]
    · cases fault <;> simp [hlast]

/-! ### Its attempts -/

section Attempts

variable (lib wireSize elements outside server)

/-- The server before an attempt and the traffic it meets. -/
def serverBefore : ℕ → Server
  | 0 => server
  | k+1 => (tryPost lib wireSize elements (run lib (serverBefore k) (outside.traffic k))
      (outside.attempt k)).server

/-- What attempt k leaves behind, if the call comes to it. -/
def tried (k : ℕ) : Tried :=
  tryPost lib wireSize elements
    (run lib (serverBefore lib wireSize elements outside server k) (outside.traffic k))
    (outside.attempt k)

/-- What the client does in an attempt that fails before the last one. -/
def failedRound (k : ℕ) : List Action :=
  [.post (tried lib wireSize elements outside server k).reply,.sleep (2^k)]

/-- A call that fails so many times. -/
def failedRounds (k m : ℕ) : List Action :=
  (List.range' k m).flatMap (failedRound lib wireSize elements outside server)

end Attempts

/-- The loop stops at its first success or at the last attempt, after one
failed round for each attempt before. -/
theorem retryLoop_stops {m n k : ℕ} (hn : k+m < k+n)
    (hbefore : ∀ j < k+m, (tried lib wireSize elements outside server j).raised ≠ none)
    (hearly : k+m < maxRetries)
    (hstop : (tried lib wireSize elements outside server (k+m)).raised = none ∨
      k+m = maxRetries-1) (actions : List Action) :
    retryLoop lib wireSize elements maxRetries outside n k
        ⟨actions,serverBefore lib wireSize elements outside server k⟩ =
      let last := tried lib wireSize elements outside server (k+m)
      (some last.raised.isNone,
        ⟨actions++failedRounds lib wireSize elements outside server k m++[.post last.reply],
          last.server⟩) := by
  induction m generalizing n k actions with
  | zero =>
    obtain ⟨n,rfl⟩ := Nat.exists_eq_succ_of_ne_zero (show n ≠ 0 by omega)
    rw [retryLoop_succ]
    have hends : (tried lib wireSize elements outside server k).raised.isNone ∨
        k = maxRetries-1 := hstop.imp_left Option.isNone_iff_eq_none.mpr
    rw [tried] at hends
    simp only [if_pos hends]
    simp [failedRounds,tried]
  | succ m ih =>
    obtain ⟨n,rfl⟩ := Nat.exists_eq_succ_of_ne_zero (show n ≠ 0 by omega)
    have hgoes : ¬((tried lib wireSize elements outside server k).raised.isNone ∨
        k = maxRetries-1) := by
      rintro (h | h)
      · exact hbefore k (by omega) (Option.isNone_iff_eq_none.mp h)
      · omega
    have hnext : k+(m+1) = k+1+m := by omega
    rw [hnext] at hbefore hearly hstop ⊢
    rw [retryLoop_succ]
    rw [tried] at hgoes
    simp only [if_neg hgoes]
    refine (ih (by omega) hbefore hearly hstop _).trans ?_
    simp [failedRounds,failedRound,List.range'_succ,tried]

section Stop

variable (lib wireSize elements outside server)

/-- What the client does in a call that stops at attempt m. -/
def actionsUntil (m : ℕ) : List Action :=
  failedRounds lib wireSize elements outside server 0 m++
    [.post (tried lib wireSize elements outside server m).reply]

theorem failedRounds_succ (m : ℕ) :
    failedRounds lib wireSize elements outside server 0 (m+1) =
      failedRounds lib wireSize elements outside server 0 m++
        failedRound lib wireSize elements outside server m := by
  have hrange : List.range' 0 (m+1) = List.range' 0 m++[m] := by
    rw [List.range'_concat,Nat.zero_add,Nat.one_mul]
  rw [failedRounds,hrange,List.flatMap_append,List.flatMap_singleton]
  rfl

/-- So many failed rounds post that often, their sleeps double, and the last
post sleeps no more. -/
theorem posts_failedRounds (m : ℕ) :
    posts (failedRounds lib wireSize elements outside server 0 m) = m := by
  induction m with
  | zero => rfl
  | succ m ih =>
    have hround : posts (failedRound lib wireSize elements outside server m) = 1 := rfl
    rw [failedRounds_succ,posts_append,ih,hround]

theorem slept_failedRounds (m : ℕ) :
    slept (failedRounds lib wireSize elements outside server 0 m)+1 = 2^m := by
  induction m with
  | zero => rfl
  | succ m ih =>
    have hround : slept (failedRound lib wireSize elements outside server m) = 2^m :=
      Nat.zero_add _
    rw [failedRounds_succ,slept_append,hround,pow_succ]
    omega

theorem posts_actionsUntil (m : ℕ) :
    posts (actionsUntil lib wireSize elements outside server m) = m+1 := by
  have hrounds := posts_failedRounds lib wireSize elements outside server m
  rw [actionsUntil,posts_append,hrounds]
  rfl

theorem slept_actionsUntil (m : ℕ) :
    slept (actionsUntil lib wireSize elements outside server m) = 2^m-1 := by
  have hrounds := slept_failedRounds lib wireSize elements outside server m
  have hpost : slept [.post (tried lib wireSize elements outside server m).reply] = 0 := rfl
  rw [actionsUntil,slept_append,hpost]
  omega

/-- A call with attempts stops at one of them. -/
theorem exists_stop (hpos : 0 < maxRetries) : ∃ m < maxRetries,
    (∀ j < m, (tried lib wireSize elements outside server j).raised ≠ none) ∧
    ((tried lib wireSize elements outside server m).raised = none ∨ m = maxRetries-1) := by
  classical
  by_cases hsome : ∃ m, m < maxRetries ∧
      (tried lib wireSize elements outside server m).raised = none
  · obtain ⟨hm,hraised⟩ := Nat.find_spec hsome
    refine ⟨Nat.find hsome,hm,fun j hj h => ?_,Or.inl hraised⟩
    exact Nat.find_min hsome hj ⟨hj.trans hm,h⟩
  · refine ⟨maxRetries-1,by omega,fun j hj h => hsome ⟨j,by omega,h⟩,Or.inr rfl⟩

end Stop

/-! ### The route -/

/-- A post the route answers with a success was answered 201, and all its
documents are in the collection. -/
theorem newsServe_stores {env : Env}
    (h : (newsServe lib wireSize elements env server).1.status < 400) :
    (newsServe lib wireSize elements env server).1.status = 201 ∧
      ∃ docs, lib.castAll Route.newsapi.schema env 0 elements = some docs ∧
        (newsServe lib wireSize elements env server).2 .newsapi = server .newsapi++docs := by
  have hfit : wireSize (.arr elements) ≤ bodyLimit := by
    by_contra hbig
    rw [newsServe,handle,expressJson_tooLarge hbig] at h
    simp at h
  have hposted : posted .newsapi
      (postRequest wireSize StoreFunction.newsApi.endpoint elements) = some elements := by
    rw [posted,expressJson_post hfit]
    rfl
  have hstatus : (newsServe lib wireSize elements env server).1.status =
      (postHandler lib .newsapi env (.arr elements) (server .newsapi)).1.status :=
    congrArg Response.status (handle_posted hposted)
  cases elements with
  | nil =>
    rw [hstatus] at h
    simp [postHandler] at h
  | cons first rest =>
    rw [postHandler_status] at hstatus
    have h201 : (newsServe lib wireSize (first::rest) env server).1.status = 201 := by
      split at hstatus
      · exact hstatus
      · omega
    obtain ⟨docs,hcast,hstored⟩ := (handle_storedAsAnswered lib .newsapi env server
      (postRequest wireSize StoreFunction.newsApi.endpoint (first::rest))).created
        (by rw [hposted]; rfl) h201
    rw [castPosted,hposted] at hcast
    refine ⟨h201,docs,hcast,?_⟩
    rw [newsServe,handle_collection,hstored]

/-- So an attempt that raises nothing has stored the batch. -/
theorem tryPost_stores {attempt : Attempt}
    (h : (tryPost lib wireSize elements server attempt).raised = none) :
    ∃ env reply docs, attempt = .answered env ∧
      (tryPost lib wireSize elements server attempt).reply = some reply ∧ reply.status = 201 ∧
      lib.castAll Route.newsapi.schema env 0 elements = some docs ∧
      (tryPost lib wireSize elements server attempt).server .newsapi =
        server .newsapi++docs := by
  cases attempt with
  | faulty fault handled => cases handled <;> simp [tryPost] at h
  | answered env =>
    have hok : (newsServe lib wireSize elements env server).1.status < 400 := by
      by_contra hbad
      simp [tryPost,Nat.le_of_not_lt hbad] at h
    obtain ⟨h201,docs,hcast,hafter⟩ := newsServe_stores hok
    exact ⟨env,_,docs,rfl,rfl,h201,hcast,hafter⟩

/-! ### A call -/

/-- A call posts until an attempt succeeds, sleeps between its posts, and says
True when its batch was stored. -/
structure Accounted (lib : Mongoose) (wireSize : WireSize) (elements : List Json)
    (maxRetries : ℕ) (outside : Outside) (server : Server) (result : Option Bool)
    (ledger : Ledger) : Prop where
  /-- When attempt k is the first to succeed. -/
  success : ∀ k < maxRetries,
    (∀ j < k, (tried lib wireSize elements outside server j).raised ≠ none) →
    (tried lib wireSize elements outside server k).raised = none →
    result = some true ∧ posts ledger.actions = k+1 ∧ slept ledger.actions = 2^k-1
  /-- When no attempt succeeds. -/
  failure :
    (∀ k < maxRetries, (tried lib wireSize elements outside server k).raised ≠ none) →
    result = some false ∧ posts ledger.actions = maxRetries ∧
      slept ledger.actions = 2^(maxRetries-1)-1
  /-- The client never sleeps after its last post. -/
  awake : ∃ before reply, ledger.actions = before++[.post reply]
  /-- A returned True means the last post was answered 201 and its batch is
  in the collection. -/
  stored : result = some true → ∃ before reply env earlier docs,
    ledger.actions = before++[.post (some reply)] ∧ reply.status = 201 ∧
    outside.attempt (posts before) = .answered env ∧
    lib.castAll Route.newsapi.schema env 0 elements = some docs ∧
    ledger.server .newsapi = earlier++docs

/-- For every list of articles, every positive max_retries, every sequence of
outcomes of the attempts and whatever else the server handles in between. -/
theorem storeNewsapiInDb_accounted (lib : Mongoose) (wireSize : WireSize)
    (items : List (Summarised NewsItem)) (maxRetries : ℕ) (hpos : 0 < maxRetries)
    (outside : Outside) (server : Server) :
    Accounted lib wireSize (items.map newsElement) maxRetries outside server
      (storeNewsapiInDb lib wireSize maxRetries outside items server).1
      (storeNewsapiInDb lib wireSize maxRetries outside items server).2 := by
  unfold storeNewsapiInDb
  generalize items.map newsElement = elements
  obtain ⟨m,hm,hbefore,hstop⟩ := exists_stop lib wireSize elements outside server hpos
  have hcall : retryLoop lib wireSize elements maxRetries outside maxRetries 0 ⟨[],server⟩ =
      (some (tried lib wireSize elements outside server m).raised.isNone,
        ⟨actionsUntil lib wireSize elements outside server m,
          (tried lib wireSize elements outside server m).server⟩) := by
    have h := retryLoop_stops (m := m) (n := maxRetries) (k := 0)
      (by omega) (by simpa using hbefore) (by simpa using hm) (by simpa using hstop) []
    simpa [actionsUntil,serverBefore] using h
  rw [hcall]
  refine ⟨?_,?_,⟨_,_,rfl⟩,?_⟩
  · intro k hk hfirst hsuccess
    obtain rfl : k = m := by
      rcases Nat.lt_trichotomy k m with h | h | h
      · exact absurd hsuccess (hbefore k h)
      · exact h
      · rcases hstop with hstop | hstop
        · exact absurd hstop (hfirst m h)
        · omega
    refine ⟨?_,posts_actionsUntil _ _ _ _ _ _,slept_actionsUntil _ _ _ _ _ _⟩
    rw [hsuccess]
    rfl
  · intro hfail
    obtain rfl : m = maxRetries-1 := hstop.resolve_left (hfail m hm)
    refine ⟨?_,?_,slept_actionsUntil _ _ _ _ _ _⟩
    · obtain ⟨fault,hraised⟩ := Option.ne_none_iff_exists'.mp (hfail _ hm)
      rw [hraised]
      rfl
    · rw [posts_actionsUntil]
      omega
  · intro htrue
    have hnone : (tried lib wireSize elements outside server m).raised = none := by
      simpa using htrue
    obtain ⟨env,reply,docs,hanswered,hreply,h201,hcast,hafter⟩ := tryPost_stores hnone
    refine ⟨failedRounds lib wireSize elements outside server 0 m,reply,env,_,docs,?_,h201,?_,
      hcast,hafter⟩
    · rw [actionsUntil]
      exact congrArg (fun r => _++[Action.post r]) hreply
    · rw [posts_failedRounds]
      exact hanswered

/-- A refused connection, then an answer. -/
def sampleOutside : Outside where
  attempt
    | 0 => .faulty .connectionError none
    | _ => .answered (parityEnv 0)
  traffic _ := []

theorem storeNewsapiInDb_accounted_sample :
    let call := storeNewsapiInDb sampleMongoose (fun _ => 500) 3 sampleOutside [sampleArticle]
      emptyServer
    Accounted sampleMongoose (fun _ => 500) ([sampleArticle].map newsElement) 3 sampleOutside
        emptyServer call.1 call.2 ∧
      call.1 = some true ∧ posts call.2.actions = 2 ∧ slept call.2.actions = 1 ∧
      (call.2.server .newsapi).length = 1 :=
  ⟨storeNewsapiInDb_accounted sampleMongoose (fun _ => 500) [sampleArticle] 3 (by decide)
    sampleOutside emptyServer,rfl,rfl,rfl,rfl⟩

/-! ### The same loop in the network -/

/-- An attempt as the network sees it. -/
def Attempt.outcome : Attempt → Outcome Env
  | .faulty _ none => .lost
  | .faulty _ (some env) => .served env false
  | .answered env => .served env true

/-- The client counts an attempt as a success when it raises nothing. -/
theorem attempt_outcome (server : Server) (a : Attempt) :
    RetryNetwork.attempt (newsServe lib wireSize elements) succeeds server a.outcome =
      ((tryPost lib wireSize elements server a).raised.isNone,
        (tryPost lib wireSize elements server a).server) := by
  cases a with
  | faulty fault handled => cases handled <;> rfl
  | answered env =>
    simp only [Attempt.outcome,RetryNetwork.attempt,tryPost,StoreFunctions.succeeds,
      Bool.true_and]
    congr 1
    by_cases hbad : 400 ≤ (newsServe lib wireSize elements env server).1.status
    · simp [hbad,Nat.not_lt.mpr hbad]
    · cases hbody : (newsServe lib wireSize elements env server).1.body <;>
        simp [hbad,Nat.lt_of_not_le hbad]

/-- Between attempts that meet no other requests, the loop is that of the
retrying client. -/
theorem retryLoop_postLoop (hquiet : ∀ k, outside.traffic k = []) {n k : ℕ}
    (hk : k+n = maxRetries) (actions : List Action) (server : Server) :
    let call := retryLoop lib wireSize elements maxRetries outside n k ⟨actions,server⟩
    postLoop (newsServe lib wireSize elements) succeeds (fun j => (outside.attempt j).outcome)
        n k ⟨none,posts actions,slept actions,server⟩ =
      ⟨call.1,posts call.2.actions,slept call.2.actions,call.2.server⟩ := by
  induction n generalizing k actions server with
  | zero => rfl
  | succ n ih =>
    have hlast : n = 0 ↔ k = maxRetries-1 := by omega
    have hposts (reply : Option Response) : posts [.post reply] = 1 := rfl
    have hslept (reply : Option Response) : slept [.post reply] = 0 := rfl
    have hroundPosts (reply : Option Response) : posts [.post reply,.sleep (2^k)] = 1 := rfl
    have hroundSlept (reply : Option Response) : slept [.post reply,.sleep (2^k)] = 2^k :=
      Nat.zero_add _
    rw [retryLoop_succ,hquiet k,postLoop,attempt_outcome]
    simp only [run,← hlast]
    cases hnone : (tryPost lib wireSize elements server (outside.attempt k)).raised.isNone with
    | true => simp [hposts,hslept]
    | false =>
      by_cases hend : n = 0
      · simp [hend,hposts,hslept]
      · simp only [hend,or_self,if_false,Bool.false_eq_true]
        rw [← ih (by omega),posts_append,slept_append,hroundPosts,hroundSlept]

/-- So the calls accounted for here are runs of the network. -/
theorem storeNewsapiInDb_report (hquiet : ∀ k, outside.traffic k = [])
    (items : List (Summarised NewsItem)) :
    let call := storeNewsapiInDb lib wireSize maxRetries outside items server
    storeNewsapi lib wireSize (items.map newsElement) maxRetries
        (fun k => (outside.attempt k).outcome) server =
      ⟨call.1,posts call.2.actions,slept call.2.actions,call.2.server⟩ :=
  retryLoop_postLoop hquiet (Nat.zero_add _) [] server

theorem storeNewsapiInDb_execute (hquiet : ∀ k, outside.traffic k = [])
    (items : List (Summarised NewsItem)) :
    let call := storeNewsapiInDb lib wireSize maxRetries outside items server
    ∃ es, execute (newsServe lib wireSize (items.map newsElement)) StoreFunctions.succeeds
        maxRetries (start maxRetries server) es =
      some ⟨.returned call.1,posts call.2.actions,slept call.2.actions,[],[],call.2.server⟩ := by
  intro call
  have hreport : postWithRetries (newsServe lib wireSize (items.map newsElement))
      StoreFunctions.succeeds maxRetries (fun k => (outside.attempt k).outcome) server =
      ⟨call.1,posts call.2.actions,slept call.2.actions,call.2.server⟩ :=
    storeNewsapiInDb_report hquiet items
  obtain ⟨es,hes⟩ := postWithRetries_execute (fun k => (outside.attempt k).outcome) server
  rw [hreport] at hes
  exact ⟨es,hes⟩

end Senca.RetryAccounting
