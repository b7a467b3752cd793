import Mathlib.Algebra.Ring.Nat
import Mathlib.Data.List.Induction
import Mathlib.Data.List.Nodup
import Mathlib.Data.List.Perm.Subperm
import Mathlib.Tactic.Common

/-!
# A retrying client, a lossy network and a server

A client sends one request up to a bounded number of times, waiting for an
answer each time; the network may lose a request or an answer, or deliver
either late; the server serves whatever reaches it. A run is a list of
events, in any order the parties allow. The client reports honestly, and
the server serves at most one request, exactly when every served request
has its answer received by the client. Nothing here refers to a particular
program.
-/

namespace Senca.RetryNetwork

variable {σ ε ρ : Type}

/-- Where the client stands. -/
inductive Client where
  /-- About to send its attempt k. -/
  | posting (k : ℕ)
  /-- Waiting for the answer to attempt k. -/
  | waiting (k : ℕ)
  /-- Done, with the value it returned. -/
  | returned (result : Option Bool)
  deriving DecidableEq

/-- The client, the messages on their way and the server. -/
structure System (σ ρ : Type) where
  /-- The client. -/
  client : Client
  /-- Requests sent so far. -/
  posts : ℕ
  /-- Seconds slept so far. -/
  slept : ℕ
  /-- Requests on their way, by attempt. -/
  requests : List ℕ
  /-- Answers on their way, by attempt. -/
  responses : List (ℕ×ρ)
  /-- The state of the server. -/
  server : σ

/-- One step of one party. -/
inductive Event (ε : Type) where
  /-- The client sends its next attempt. -/
  | send
  /-- The network loses a request. -/
  | loseRequest (k : ℕ)
  /-- The server serves a request under some circumstances. -/
  | process (k : ℕ) (env : ε)
  /-- The network loses an answer. -/
  | loseResponse (k : ℕ)
  /-- The client receives and reads the answer it waits for. -/
  | receive (k : ℕ)
  /-- The client receives the answer it waits for and cannot read it. -/
  | misread (k : ℕ)
  /-- The client stops waiting: a refused connection or a timeout. -/
  | giveUp (k : ℕ)

variable (serve : ε → σ → ρ×σ) (ok : ρ → Bool) (maxRetries : ℕ)

/-- After a failed attempt the client returns false if it was the last one,
and otherwise backs off for 2^k seconds. -/
def failed (k : ℕ) (s : System σ ρ) : System σ ρ :=
  if k+1 = maxRetries then {s with client := .returned (some false)}
  else {s with client := .posting (k+1), slept := s.slept+2^k}

/-- Take the answer to an attempt from the network. -/
def takeResponse (k : ℕ) (s : System σ ρ) : System σ ρ :=
  {s with responses := s.responses.filter (fun r => r.1 ≠ k)}

/-- The effect of an event, when it is possible. -/
def step (s : System σ ρ) : Event ε → Option (System σ ρ)
  | .send =>
    match s.client with
    | .posting k => some {s with
        client := .waiting k
        posts := s.posts+1
        requests := k::s.requests }
    | _ => none
  | .loseRequest k =>
    if k ∈ s.requests then some {s with requests := s.requests.erase k} else none
  | .process k env =>
    if k ∈ s.requests then some {s with
      requests := s.requests.erase k
      responses := (k,(serve env s.server).1)::s.responses
      server := (serve env s.server).2 }
    else none
  | .loseResponse k => some (takeResponse k s)
  | .receive k =>
    if s.client = .waiting k then
      match s.responses.lookup k with
      | none => none
      | some r =>
        if ok r then some {takeResponse k s with client := .returned (some true)}
        else some (failed maxRetries k (takeResponse k s))
    else none
  | .misread k =>
    if s.client = .waiting k ∧ (s.responses.lookup k).isSome then
      some (failed maxRetries k (takeResponse k s))
    else none
  | .giveUp k => if s.client = .waiting k then some (failed maxRetries k s) else none

/-- Before the first attempt; without attempts the client returns nothing. -/
def start (server : σ) : System σ ρ :=
  ⟨if maxRetries = 0 then .returned none else .posting 0,0,0,[],[],server⟩

/-- The system after a list of events, when they are possible in that order. -/
def execute (s : System σ ρ) : List (Event ε) → Option (System σ ρ)
  | [] => some s
  | e::rest => (step serve ok maxRetries s e).bind (fun s' => execute s' rest)

theorem execute_append (s : System σ ρ) (es es' : List (Event ε)) :
    execute serve ok maxRetries s (es++es') =
      (execute serve ok maxRetries s es).bind
        (fun s' => execute serve ok maxRetries s' es') := by
  induction es generalizing s with
  | nil => rfl
  | cons e rest ih =>
    rw [List.cons_append,execute,execute,Option.bind_assoc]
    exact congrArg _ (funext fun s' => ih s')

/-! ### The history of a run -/

/-- The requests served, with the circumstances of each. -/
def processed : List (Event ε) → List (ℕ×ε)
  | [] => []
  | .process k env::rest => (k,env)::processed rest
  | _::rest => processed rest

/-- The attempts whose answers were received and read. -/
def received : List (Event ε) → List ℕ
  | [] => []
  | .receive k::rest => k::received rest
  | _::rest => received rest

theorem processed_append (es es' : List (Event ε)) :
    processed (es++es') = processed es++processed es' := by
  induction es with
  | nil => rfl
  | cons e rest ih => cases e <;> simp [processed,ih]

theorem received_append (es es' : List (Event ε)) :
    received (es++es') = received es++received es' := by
  induction es with
  | nil => rfl
  | cons e rest ih => cases e <;> simp [received,ih]

theorem mem_processed {es : List (Event ε)} {k : ℕ} {env : ε} :
    (k,env) ∈ processed es ↔ Event.process k env ∈ es := by
  induction es with
  | nil => simp [processed]
  | cons e rest ih => cases e <;> simp [processed,ih]

theorem mem_received {es : List (Event ε)} {k : ℕ} :
    k ∈ received es ↔ Event.receive k ∈ es := by
  induction es with
  | nil => simp [received]
  | cons e rest ih => cases e <;> simp [received,ih]

/-- The server after serving requests under the given circumstances. -/
def served (server : σ) (envs : List ε) : σ :=
  envs.foldl (fun s env => (serve env s).2) server

/-- The server after the events so far. -/
def servedBy (server : σ) (es : List (Event ε)) : σ :=
  served serve server ((processed es).map Prod.snd)

/-- Every request the server serves in the run gets an answer the client
counts as a success. -/
def AllServed (server : σ) (es : List (Event ε)) : Prop :=
  ∀ before k env after, es = before++.process k env::after →
    ok (serve env (servedBy serve server before)).1 = true

/-- What holds after any possible list of events whose served requests all
get successful answers. -/
structure Inv (server : σ) (es : List (Event ε)) (s : System σ ρ) : Prop where
  /-- No attempt is on its way or served twice. -/
  fresh : (s.requests++(processed es).map Prod.fst).Nodup
  /-- Only attempts that were sent are on their way or served. -/
  bound : ∀ k ∈ s.requests++(processed es).map Prod.fst, k < s.posts
  /-- The client counts its attempts. -/
  posting : ∀ k, s.client = .posting k → s.posts = k
  /-- The client waits for the attempt it sent last. -/
  waiting : ∀ k, s.client = .waiting k → s.posts = k+1
  /-- The server has served exactly the served requests. -/
  server : s.server = servedBy serve server es
  /-- Every answer on its way belongs to a served request and is a success. -/
  answers : ∀ r ∈ s.responses, ok r.2 = true ∧ r.1 ∈ (processed es).map Prod.fst
  /-- The client returned true exactly when it received its one answer. -/
  heard : (received es = [] ∧ s.client ≠ .returned (some true)) ∨
    ∃ k ∈ (processed es).map Prod.fst, received es = [k] ∧ s.client = .returned (some true)
  /-- A client without attempts sends nothing. -/
  idle : s.client = .returned none → s.requests = [] ∧ processed es = []

section Invariant

variable {serve ok maxRetries} {server : σ} {es : List (Event ε)} {s s' : System σ ρ}

theorem inv_start (server : σ) :
    Inv serve ok server ([] : List (Event ε)) (start maxRetries server) := by
  unfold start
  split
  · refine ⟨by simp [processed],by simp [processed],by simp,by simp,rfl,by simp,?_,
      by simp [processed]⟩
    exact Or.inl ⟨rfl,by simp⟩
  · refine ⟨by simp [processed],by simp [processed],?_,by simp,rfl,by simp,?_,by simp⟩
    · intro k hk
      cases hk
      rfl
    · exact Or.inl ⟨rfl,by simp⟩

/-- A failed attempt keeps the invariant: only the client moves on. -/
theorem Inv.failed (h : Inv serve ok server es s) {k : ℕ} (hk : s.client = .waiting k) :
    Inv serve ok server es (failed maxRetries k s) := by
  have hheard : received es = [] := by
    rcases h.heard with ⟨hr,-⟩ | ⟨_,-,-,hc⟩
    · exact hr
    · rw [hk] at hc
      cases hc
  unfold RetryNetwork.failed
  split
  · exact ⟨h.fresh,h.bound,by simp,by simp,h.server,h.answers,Or.inl ⟨hheard,by simp⟩,by simp⟩
  · refine ⟨h.fresh,h.bound,?_,by simp,h.server,h.answers,Or.inl ⟨hheard,by simp⟩,by simp⟩
    intro k' hk'
    cases hk'
    exact h.waiting k hk

/-- So does taking an answer from the network. -/
theorem Inv.takeResponse (h : Inv serve ok server es s) (k : ℕ) :
    Inv serve ok server es (takeResponse k s) :=
  ⟨h.fresh,h.bound,h.posting,h.waiting,h.server,
    fun r hr => h.answers r (List.mem_of_mem_filter hr),h.heard,h.idle⟩

/-- Events that serve and deliver nothing add nothing to the history. -/
theorem Inv.silent (h : Inv serve ok server es s) {e : Event ε}
    (hp : processed [e] = []) (hr : received [e] = []) : Inv serve ok server (es++[e]) s := by
  have hpe : processed (es++[e]) = processed es := by rw [processed_append,hp,List.append_nil]
  have hre : received (es++[e]) = received es := by rw [received_append,hr,List.append_nil]
  refine ⟨?_,?_,h.posting,h.waiting,?_,?_,?_,?_⟩
  · rw [hpe]
    exact h.fresh
  · rw [hpe]
    exact h.bound
  · rw [servedBy,hpe]
    exact h.server
  · rw [hpe]
    exact h.answers
  · rw [hpe,hre]
    exact h.heard
  · rw [hpe]
    exact h.idle

/-- Sending puts a fresh attempt on its way. -/
theorem Inv.send (h : Inv serve ok server es s) {k : ℕ} (hc : s.client = .posting k) :
    Inv serve ok server es
      {s with client := .waiting k, posts := s.posts+1, requests := k::s.requests} := by
  have hposts := h.posting k hc
  have hheard : received es = [] := by
    rcases h.heard with ⟨hr,-⟩ | ⟨_,-,-,hc'⟩
    · exact hr
    · rw [hc] at hc'
      cases hc'
  refine ⟨?_,?_,by simp,?_,h.server,h.answers,Or.inl ⟨hheard,by simp⟩,by simp⟩
  · rw [List.cons_append,List.nodup_cons]
    refine ⟨?_,h.fresh⟩
    intro hmem
    have hlt := h.bound k hmem
    omega
  · intro k' hk'
    rcases List.mem_cons.mp hk' with rfl | hk'
    · exact hposts ▸ Nat.lt_succ_self _
    · exact Nat.lt_succ_of_lt (h.bound k' hk')
  · intro k' hk'
    cases hk'
    exact congrArg (·+1) hposts

/-- A lost request is served by nobody. -/
theorem Inv.loseRequest (h : Inv serve ok server es s) (k : ℕ) :
    Inv serve ok server es {s with requests := s.requests.erase k} := by
  have hsub : (s.requests.erase k++(processed es).map Prod.fst).Sublist
      (s.requests++(processed es).map Prod.fst) :=
    List.Sublist.append_right List.erase_sublist _
  refine ⟨h.fresh.sublist hsub,fun k' hk' => h.bound k' (hsub.subset hk'),h.posting,h.waiting,
    h.server,h.answers,h.heard,?_⟩
  intro hc
  obtain ⟨hr,hp⟩ := h.idle hc
  exact ⟨by simp [hr],hp⟩

/-- Serving a request moves its attempt into the history and answers it. -/
theorem Inv.process (h : Inv serve ok server es s) {k : ℕ} {env : ε} (hk : k ∈ s.requests)
    (hok : AllServed serve ok server (es++[.process k env])) :
    Inv serve ok server (es++[.process k env]) {s with
      requests := s.requests.erase k
      responses := (k,(serve env s.server).1)::s.responses
      server := (serve env s.server).2 } := by
  have hp : processed (es++[.process k env]) = processed es++[(k,env)] :=
    processed_append es _
  have hr : received (es++[.process k env]) = received es := by
    rw [received_append]
    exact List.append_nil _
  have hperm : (s.requests.erase k++(processed (es++[.process k env])).map Prod.fst).Perm
      (s.requests++(processed es).map Prod.fst) := by
    rw [hp,List.map_append,List.map_singleton]
    refine (List.Perm.append_left _ (List.perm_append_singleton _ _)).trans ?_
    exact List.perm_middle.trans
      (List.Perm.append_right _ (List.perm_cons_erase hk).symm)
  refine ⟨hperm.nodup_iff.mpr h.fresh,fun k' hk' => h.bound k' (hperm.mem_iff.mp hk'),
    h.posting,h.waiting,?_,?_,?_,?_⟩
  · rw [servedBy,hp,List.map_append,List.map_singleton,served,List.foldl_append,h.server]
    rfl
  · intro r hmem
    rw [hp,List.map_append,List.mem_append]
    rcases List.mem_cons.mp hmem with rfl | hmem
    · refine ⟨?_,Or.inr (by simp)⟩
      rw [h.server]
      exact hok es k env [] rfl
    · obtain ⟨hr,hin⟩ := h.answers r hmem
      exact ⟨hr,Or.inl hin⟩
  · rw [hr,hp]
    rcases h.heard with hl | ⟨k',hk',hrest⟩
    · exact Or.inl hl
    · exact Or.inr ⟨k',by rw [List.map_append]; exact List.mem_append_left _ hk',hrest⟩
  · intro hc
    rw [(h.idle hc).1] at hk
    cases hk

/-- The first answer the client reads is a success and ends its loop. -/
theorem Inv.receive (h : Inv serve ok server es s) {k : ℕ} {r : ρ}
    (hc : s.client = .waiting k) (hl : s.responses.lookup k = some r) :
    ok r = true ∧ Inv serve ok server (es++[.receive k])
      {RetryNetwork.takeResponse k s with client := .returned (some true)} := by
  have hmem : (k,r) ∈ s.responses := by
    obtain ⟨l₁,l₂,hsplit,-⟩ := List.lookup_eq_some_iff.mp hl
    rw [hsplit]
    simp
  obtain ⟨hr,hin⟩ := h.answers (k,r) hmem
  have hheard : received es = [] := by
    rcases h.heard with ⟨hrec,-⟩ | ⟨_,-,-,hc'⟩
    · exact hrec
    · rw [hc] at hc'
      cases hc'
  have hp : processed (es++[.receive k]) = processed es := by
    rw [processed_append]
    exact List.append_nil _
  refine ⟨hr,?_⟩
  have ht := h.takeResponse k
  refine ⟨?_,?_,by simp,by simp,?_,?_,Or.inr ⟨k,?_,?_,rfl⟩,by simp⟩
  · rw [hp]
    exact ht.fresh
  · rw [hp]
    exact ht.bound
  · rw [servedBy,hp]
    exact ht.server
  · rw [hp]
    exact ht.answers
  · rw [hp]
    exact hin
  · rw [received_append,hheard]
    rfl

/-- Every possible event keeps the invariant. -/
theorem Inv.step (h : Inv serve ok server es s) {e : Event ε}
    (hs : step serve ok maxRetries s e = some s') (hok : AllServed serve ok server (es++[e])) :
    Inv serve ok server (es++[e]) s' := by
  cases e with
  | send =>
    simp only [RetryNetwork.step] at hs
    split at hs
    · rename_i k hc
      cases hs
      exact (h.send hc).silent rfl rfl
    · cases hs
  | loseRequest k =>
    simp only [RetryNetwork.step] at hs
    split at hs
    · cases hs
      exact (h.loseRequest k).silent rfl rfl
    · cases hs
  | process k env =>
    simp only [RetryNetwork.step] at hs
    split at hs
    · rename_i hk
      cases hs
      exact h.process hk hok
    · cases hs
  | loseResponse k =>
    cases hs
    exact (h.takeResponse k).silent rfl rfl
  | receive k =>
    simp only [RetryNetwork.step] at hs
    split at hs
    · rename_i hc
      split at hs
      · cases hs
      · rename_i r hl
        obtain ⟨hr,hinv⟩ := h.receive hc hl
        rw [if_pos hr] at hs
        cases hs
        exact hinv
    · cases hs
  | misread k =>
    simp only [RetryNetwork.step] at hs
    split at hs
    · rename_i hc
      cases hs
      exact ((h.takeResponse k).failed hc.1).silent rfl rfl
    · cases hs
  | giveUp k =>
    simp only [RetryNetwork.step] at hs
    split at hs
    · rename_i hc
      cases hs
      exact (h.failed hc).silent rfl rfl
    · cases hs

/-- A server that every request leaves as it is stays so for the whole run. -/
theorem execute_server_of_inert (hinert : ∀ env state, (serve env state).2 = state)
    (hrun : execute serve ok maxRetries s es = some s') : s'.server = s.server := by
  induction es generalizing s with
  | nil =>
    cases hrun
    rfl
  | cons e rest ih =>
    obtain ⟨s₁,hs,hrest⟩ := Option.bind_eq_some_iff.mp hrun
    rw [ih hrest]
    cases e with
    | process k env =>
      simp only [RetryNetwork.step] at hs
      split at hs
      · cases hs
        exact hinert env s.server
      · cases hs
    | _ =>
      simp only [RetryNetwork.step] at hs
      grind [RetryNetwork.failed,RetryNetwork.takeResponse]

theorem AllServed.of_append {es es' : List (Event ε)}
    (h : AllServed serve ok server (es++es')) : AllServed serve ok server es := by
  rintro before k env after rfl
  exact h before k env (after++es') (by simp)

/-- The invariant holds after every run. -/
theorem inv_execute (hrun : execute serve ok maxRetries (start maxRetries server) es = some s)
    (hok : AllServed serve ok server es) : Inv serve ok server es s := by
  induction es using List.reverseRecOn generalizing s with
  | nil =>
    cases hrun
    exact inv_start server
  | append_singleton es e ih =>
    rw [execute_append] at hrun
    obtain ⟨s₀,h₀,hstep⟩ := Option.bind_eq_some_iff.mp hrun
    obtain ⟨s₁,h₁,hlast⟩ := Option.bind_eq_some_iff.mp hstep
    cases hlast
    exact (ih h₀ hok.of_append).step h₁ hok

/-- Once the client has returned: at most one request was served, and none
when it reports a failure, exactly when every served request had its answer
received. -/
theorem servedOnce_iff (hrun : execute serve ok maxRetries (start maxRetries server) es = some s)
    (hok : AllServed serve ok server es) {result : Option Bool}
    (hresult : s.client = .returned result) :
    ((processed es).length ≤ 1 ∧ (result = some false → processed es = [])) ↔
      ∀ k env, Event.process k env ∈ es → Event.receive k ∈ es := by
  have h := inv_execute hrun hok
  have hfresh : ((processed es).map Prod.fst).Nodup := (List.nodup_append.mp h.fresh).2.1
  constructor
  · rintro ⟨hone,hnone⟩ k env hk
    rw [← mem_processed] at hk
    rw [← mem_received]
    rcases h.heard with ⟨hr,hc⟩ | ⟨k',hk',hr,-⟩
    · cases result with
      | none =>
        rw [(h.idle hresult).2] at hk
        cases hk
      | some b =>
        cases b with
        | false =>
          rw [hnone rfl] at hk
          cases hk
        | true => exact absurd hresult hc
    · obtain ⟨entry,hentry,rfl⟩ := List.mem_map.mp hk'
      match hp : processed es,hone with
      | [],_ =>
        rw [hp] at hk
        cases hk
      | [only],_ =>
        rw [hp] at hk hentry
        rw [hr,List.mem_singleton.mp hentry,← List.mem_singleton.mp hk]
        simp
  · intro hall
    have hsub : ∀ k ∈ (processed es).map Prod.fst, k ∈ received es := by
      intro k hk
      obtain ⟨entry,hentry,rfl⟩ := List.mem_map.mp hk
      exact mem_received.mpr (hall entry.1 entry.2 (mem_processed.mp hentry))
    rcases h.heard with ⟨hr,-⟩ | ⟨k',hk',hr,hc⟩
    · have hempty : (processed es).map Prod.fst = [] := by
        apply List.eq_nil_iff_forall_not_mem.mpr
        intro k hk
        have hmem := hsub k hk
        rw [hr] at hmem
        cases hmem
      have hnil := List.map_eq_nil_iff.mp hempty
      exact ⟨by simp [hnil],fun _ => hnil⟩
    · rw [hr] at hsub
      constructor
      · have hle := (hfresh.subperm hsub).length_le
        simpa using hle
      · rintro rfl
        rw [hc] at hresult
        cases hresult

end Invariant

/-! ### The client's loop -/

/-- What becomes of one attempt. -/
inductive Outcome (ε : Type) where
  /-- The request is lost or refused. -/
  | lost
  /-- The request is served, and the client reads the answer in time or not. -/
  | served (env : ε) (heard : Bool)

/-- What a finished loop leaves behind. -/
structure Report (σ : Type) where
  /-- The value returned. -/
  result : Option Bool
  /-- Requests sent. -/
  posts : ℕ
  /-- Seconds slept. -/
  slept : ℕ
  /-- The state of the server. -/
  server : σ

/-- One attempt: whether the client counts it as a success, and the server after it. -/
def attempt (server : σ) : Outcome ε → Bool×σ
  | .lost => (false,server)
  | .served env heard => (heard && ok (serve env server).1,(serve env server).2)

/-- `for attempt in range(max_retries)`, from attempt k on with n attempts left. -/
def postLoop (outcome : ℕ → Outcome ε) : ℕ → ℕ → Report σ → Report σ
  | 0,_,report => report
  | n+1,k,report =>
    let out := attempt serve ok report.server (outcome k)
    if out.1 then {report with
      result := some true, posts := report.posts+1, server := out.2}
    else if n = 0 then {report with
      result := some false, posts := report.posts+1, server := out.2}
    else postLoop outcome n (k+1) {report with
      posts := report.posts+1, slept := report.slept+2^k, server := out.2}

/-- The whole loop. -/
def postWithRetries (outcome : ℕ → Outcome ε) (server : σ) : Report σ :=
  postLoop serve ok outcome maxRetries 0 ⟨none,0,0,server⟩

/-- A first attempt that succeeds is the whole loop. -/
theorem postWithRetries_first {serve : ε → σ → ρ×σ} {ok : ρ → Bool} {maxRetries : ℕ}
    {outcome : ℕ → Outcome ε} {server : σ} {env : ε} (hn : maxRetries ≠ 0)
    (h₀ : outcome 0 = .served env true) (hok : ok (serve env server).1 = true) :
    (postWithRetries serve ok maxRetries outcome server).server = (serve env server).2 := by
  obtain ⟨n,rfl⟩ := Nat.exists_eq_succ_of_ne_zero hn
  simp [postWithRetries,postLoop,attempt,h₀,hok]

/-- A loop whose requests are all refused leaves the server as it is. -/
theorem postLoop_refused {serve : ε → σ → ρ×σ} {ok : ρ → Bool} {outcome : ℕ → Outcome ε}
    {server : σ} (h : ∀ env, ok (serve env server).1 = false ∧ (serve env server).2 = server)
    (n k : ℕ) {report : Report σ} (hr : report.server = server) :
    (postLoop serve ok outcome n k report).server = server := by
  induction n generalizing k report with
  | zero => exact hr
  | succ n ih =>
    have hsame : attempt serve ok report.server (outcome k) = (false,server) := by
      rw [hr]
      cases outcome k with
      | lost => rfl
      | served env heard => simp [attempt,h env]
    unfold postLoop
    simp only [hsame,Bool.false_eq_true,if_false]
    split
    · rfl
    · exact ih (k+1) rfl

/-- What the loop leaves behind is what some of its attempts, from the first
on, made of the server. -/
theorem postLoop_server {serve : ε → σ → ρ×σ} {ok : ρ → Bool} {outcome : ℕ → Outcome ε}
    (n k : ℕ) (report : Report σ) :
    ∃ m ≤ n, (postLoop serve ok outcome n k report).server =
      (List.range' k m).foldl (fun server j => (attempt serve ok server (outcome j)).2)
        report.server := by
  induction n generalizing k report with
  | zero => exact ⟨0,le_refl 0,rfl⟩
  | succ n ih =>
    unfold postLoop
    dsimp only
    split
    · exact ⟨1,by omega,rfl⟩
    · split
      · exact ⟨1,by omega,rfl⟩
      · obtain ⟨m,hm,hserver⟩ := ih (k+1) _
        exact ⟨m+1,by omega,hserver⟩

/-- The events of one attempt. -/
def attemptEvents (k : ℕ) : Outcome ε → List (Event ε)
  | .lost => [.send,.loseRequest k,.giveUp k]
  | .served env true => [.send,.process k env,.receive k]
  | .served env false => [.send,.process k env,.misread k]

/-- One attempt of the loop is its events in the network. -/
theorem attemptEvents_execute (k posts slept : ℕ) (server : σ) (outcome : Outcome ε) :
    execute serve ok maxRetries ⟨.posting k,posts,slept,[],[],server⟩ (attemptEvents k outcome) =
      some (if (attempt serve ok server outcome).1 then
          ⟨.returned (some true),posts+1,slept,[],[],(attempt serve ok server outcome).2⟩
        else failed maxRetries k
          ⟨.waiting k,posts+1,slept,[],[],(attempt serve ok server outcome).2⟩) := by
  cases outcome with
  | lost => simp [attemptEvents,execute,step,attempt]
  | served env heard =>
    cases heard with
    | false => simp [attemptEvents,execute,step,attempt,takeResponse]
    | true =>
      by_cases hok : ok (serve env server).1 = true
      · simp [attemptEvents,execute,step,attempt,takeResponse,hok]
      · simp [attemptEvents,execute,step,attempt,takeResponse,hok]

section Loop

variable {serve ok maxRetries}

/-- Every run of the loop is a run of the system that ends with the client
returned and no message on its way. -/
theorem postLoop_execute (outcome : ℕ → Outcome ε) {n k : ℕ} (hn : 0 < n)
    (hk : k+n = maxRetries) (report : Report σ) :
    ∃ es, execute serve ok maxRetries
        ⟨.posting k,report.posts,report.slept,[],[],report.server⟩ es =
      some ⟨.returned (postLoop serve ok outcome n k report).result,
        (postLoop serve ok outcome n k report).posts,
        (postLoop serve ok outcome n k report).slept,[],[],
        (postLoop serve ok outcome n k report).server⟩ := by
  induction n generalizing k report with
  | zero => omega
  | succ n ih =>
    have hfirst := attemptEvents_execute serve ok maxRetries k report.posts report.slept
      report.server (outcome k)
    unfold postLoop
    by_cases hs : (attempt serve ok report.server (outcome k)).1 = true
    · refine ⟨attemptEvents k (outcome k),?_⟩
      rw [hfirst]
      simp [hs]
    · by_cases hlast : n = 0
      · refine ⟨attemptEvents k (outcome k),?_⟩
        rw [hfirst]
        have hend : k+1 = maxRetries := by omega
        simp [hs,hlast,failed,hend]
      · have hmore : ¬k+1 = maxRetries := by omega
        obtain ⟨es,hes⟩ := ih (Nat.pos_of_ne_zero hlast) (show k+1+n = maxRetries by omega)
          {report with
            posts := report.posts+1, slept := report.slept+2^k,
            server := (attempt serve ok report.server (outcome k)).2}
        refine ⟨attemptEvents k (outcome k)++es,?_⟩
        rw [execute_append,hfirst]
        simpa [hs,hlast,failed,hmore] using hes

/-- So is the whole loop, started with the system. -/
theorem postWithRetries_execute (outcome : ℕ → Outcome ε) (server : σ) :
    ∃ es, execute serve ok maxRetries (start maxRetries server) es =
      some ⟨.returned (postWithRetries serve ok maxRetries outcome server).result,
        (postWithRetries serve ok maxRetries outcome server).posts,
        (postWithRetries serve ok maxRetries outcome server).slept,[],[],
        (postWithRetries serve ok maxRetries outcome server).server⟩ := by
  by_cases hn : maxRetries = 0
  · subst hn
    exact ⟨[],rfl⟩
  · rw [start,if_neg hn]
    exact postLoop_execute outcome (Nat.pos_of_ne_zero hn) (Nat.zero_add _)
      ⟨none,0,0,server⟩

end Loop

end Senca.RetryNetwork
