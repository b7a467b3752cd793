import Senca.MongooseStore

/-!
# The Express server and its ten resource routers

Each router creates resources from a nonempty array body and lists them;
`index.js` mounts ten of them behind `express.json()`. A run is any list
of requests. Every answer fixes what its request stored: 201 the whole
cast body, 500 the documents before the first write the database refused,
if it came to writing, and any other nothing. So a collection is the
initial one followed by these parts in order.
-/

namespace Senca.ServerRoutes

open JsonValue MongooseStore

/-! ### Models -/

/-- The paths nine of the ten models share. -/
def resourcePaths : List SchemaPath := [
  ⟨"title",.string,true,false⟩,
  ⟨"link",.string,true,false⟩,
  ⟨"image",.string,false,false⟩,
  ⟨"summary",.string,false,false⟩,
  ⟨"resourceBy",.string,false,false⟩,
  ⟨"createdAt",.date,false,true⟩]

/-- The paths of an AI tool, whose summary is required. -/
def toolPaths : List SchemaPath := [
  ⟨"title",.string,true,false⟩,
  ⟨"link",.string,true,false⟩,
  ⟨"summary",.string,true,false⟩,
  ⟨"createdAt",.date,false,true⟩]

/-- A model over the shared paths. -/
def resourceSchema (modelName : String) : Schema := ⟨modelName,resourcePaths,by decide⟩

/-- `models/devtoResource.js`. -/
def devtoResourceSchema : Schema := resourceSchema "DevtoResource"
/-- `models/githubResource.js`. -/
def githubResourceSchema : Schema := resourceSchema "GithubResource"
/-- `models/youtubeResource.js`. -/
def youtubeResourceSchema : Schema := resourceSchema "YoutubeResource"
/-- `models/huggingfaceResource.js`. -/
def huggingFaceResourceSchema : Schema := resourceSchema "HuggingFaceResource"
/-- `models/fetchpapersResource.js`. -/
def fetchPapersResourceSchema : Schema := resourceSchema "FetchPapersResource"
/-- `models/newsapiResource.js`. -/
def newsApiResourceSchema : Schema := resourceSchema "NewsApiResource"
/-- `models/spotify1Resource.js`. -/
def spotify1ResourceSchema : Schema := resourceSchema "Spotify1Resource"
/-- `models/scrapeResource.js`. -/
def scrapeResourceSchema : Schema := resourceSchema "ScrapeResource"
/-- `models/tweetsResource.js`. -/
def tweetsResourceSchema : Schema := resourceSchema "TweetsResource"
/-- `models/tools1Resource.js`. -/
def tools1ResourceSchema : Schema := ⟨"Tools1Resource",toolPaths,by decide⟩

/-! ### Routers -/

/-- The routers of `routes/`, named after their files. -/
inductive Route where
  | devto
  | github
  | youtube
  | huggingface
  | fetchpapers
  | newsapi
  | spotify1
  | scrape
  | tweets
  | tools1
  deriving DecidableEq

/-- The model a router imports. -/
def Route.schema : Route → Schema
  | .devto => devtoResourceSchema
  | .github => githubResourceSchema
  | .youtube => youtubeResourceSchema
  | .huggingface => huggingFaceResourceSchema
  | .fetchpapers => fetchPapersResourceSchema
  | .newsapi => newsApiResourceSchema
  | .spotify1 => spotify1ResourceSchema
  | .scrape => scrapeResourceSchema
  | .tweets => tweetsResourceSchema
  | .tools1 => tools1ResourceSchema

/-- The error text of a body that is not a nonempty array. -/
def Route.badBody : Route → String
  | .devto | .fetchpapers | .github =>
    "Request body must be a non-empty array of resources"
  | _ => "Request body must be a non-empty array"

/-- What a router calls its resources in its two failure texts. -/
def Route.resourcesText : Route → String
  | .devto => "Devto resources"
  | .github => "GitHub resources"
  | .youtube => "YouTube resources"
  | .huggingface => "HF resources"
  | .fetchpapers => "paper resources"
  | .newsapi => "NewsAPI resources"
  | .spotify1 => "Spotify resources"
  | .scrape => "arXiv resources"
  | .tweets => "tweets"
  | .tools1 => "AI tools resources"

/-- The mount table of `index.js`. -/
def mounts : List (String×Route) := [
  ("/api/devto-resources",.devto),
  ("/api/github-resources",.github),
  ("/api/youtube-resources",.youtube),
  ("/api/huggingface-resources",.huggingface),
  ("/api/papers-resources",.fetchpapers),
  ("/api/newsapi-resources",.newsapi),
  ("/api/spotify1-resources",.spotify1),
  ("/api/arxiv-resources",.scrape),
  ("/api/tweet-resources",.tweets),
  ("/api/tools1-resources",.tools1)]

/-- One collection for each router's model. -/
abbrev Server := (route : Route) → List (Document route.schema)

/-- The two HTTP methods the routers answer. -/
inductive Method where
  | get
  | post
  deriving DecidableEq

/-- A request as Express receives it. -/
structure Request where
  /-- The HTTP method. -/
  method : Method
  /-- The path; no caller adds a trailing slash or changes its case. -/
  path : String
  /-- The JSON body, when one is sent. -/
  body : Option Json
  /-- The length of the encoded body. -/
  bytes : ℕ

/-- An answer; none is a body that is not JSON. -/
structure Response where
  /-- The status code. -/
  status : ℕ
  /-- The JSON body. -/
  body : Option Json

/-- `{ error: text }`. -/
def errorBody (text : String) : Option Json := some (.obj [("error",.str text)])

/-- The default `limit` of `express.json()`, 100kb. -/
def bodyLimit : ℕ := 102400

/-- `express.json()`: the parsed body, or the answer of its own error path.
Strict parsing, the default, accepts arrays and objects only. -/
def expressJson (req : Request) : Except Response Json :=
  match req.body with
  | none => .ok (.obj [])
  | some body =>
    if bodyLimit < req.bytes then .error ⟨413,none⟩
    else match body with
      | .arr items => .ok (.arr items)
      | .obj members => .ok (.obj members)
      | _ => .error ⟨400,none⟩

/-- `router.post('/')`, the same in every router up to its texts. -/
def postHandler (lib : Mongoose) (route : Route) (env : Env) (body : Json)
    (coll : List (Document route.schema)) : Response×List (Document route.schema) :=
  match body with
  | .arr (first::rest) =>
    match lib.insertMany route.schema env coll (first::rest) with
    | (.ok resources,coll') => (⟨201,some (.arr (resources.map lib.render))⟩,coll')
    | (.error _,coll') => (⟨500,errorBody ("Failed to insert "++route.resourcesText)⟩,coll')
  | _ => (⟨400,errorBody route.badBody⟩,coll)

/-- `router.get('/')`, the same in every router up to its text. -/
def getHandler (lib : Mongoose) (route : Route) (env : Env)
    (coll : List (Document route.schema)) : Response :=
  if env.readFails then ⟨500,errorBody ("Failed to fetch "++route.resourcesText)⟩
  else ⟨200,some (.arr ((find coll).map lib.render))⟩

/-- One request through the middleware, the mounts and a router. -/
def handle (lib : Mongoose) (env : Env) (server : Server) (req : Request) : Response×Server :=
  match expressJson req with
  | .error answer => (answer,server)
  | .ok body =>
    match mounts.lookup req.path with
    | none => (⟨404,none⟩,server)
    | some route =>
      match req.method with
      | .get => (getHandler lib route env (server route),server)
      | .post =>
        let out := postHandler lib route env body (server route)
        (out.1,Function.update server route out.2)

/-- The array a request posts to a router, when it reaches that router. -/
def posted (route : Route) (req : Request) : Option (List Json) :=
  match expressJson req with
  | .error _ => none
  | .ok body =>
    match mounts.lookup req.path with
    | none => none
    | some target =>
      match req.method,body with
      | .post,.arr items => if target = route then some items else none
      | _,_ => none

/-- The cast documents of a posted array, none when one element is rejected. -/
def castPosted (lib : Mongoose) (route : Route) (env : Env) (req : Request) :
    Option (List (Document route.schema)) :=
  (posted route req).bind (lib.castAll route.schema env 0)

/-- The documents one request adds to a router's collection. -/
def stored (lib : Mongoose) (route : Route) (env : Env)
    (coll : List (Document route.schema)) (req : Request) : List (Document route.schema) :=
  match castPosted lib route env req with
  | none => []
  | some docs => docs.take (writtenCount env coll 0 docs)

/-! ### One request -/

theorem insertMany_snd (lib : Mongoose) (schema : Schema) (env : Env)
    (coll : List (Document schema)) (body : List Json) :
    (lib.insertMany schema env coll body).2 =
      coll++((lib.castAll schema env 0 body).elim []
        (fun docs => docs.take (writtenCount env coll 0 docs))) := by
  unfold Mongoose.insertMany
  cases lib.castAll schema env 0 body with
  | none => simp
  | some docs =>
    by_cases hw : writtenCount env coll 0 docs = docs.length
    · simp [writeAll_eq,hw]
    · simp [writeAll_eq,hw]

/-- A posted array adds its written prefix, whatever the answer. -/
theorem postHandler_arr (lib : Mongoose) (route : Route) (env : Env) (items : List Json)
    (coll : List (Document route.schema)) :
    (postHandler lib route env (.arr items) coll).2 =
      coll++((lib.castAll route.schema env 0 items).elim []
        (fun docs => docs.take (writtenCount env coll 0 docs))) := by
  cases items with
  | nil => simp [postHandler,Mongoose.castAll]
  | cons first rest =>
    rw [← insertMany_snd]
    unfold postHandler
    cases hout : lib.insertMany route.schema env coll (first::rest) with
    | mk result coll' => cases result <;> simp [hout]

/-- A request appends to a collection exactly what `stored` says. -/
theorem handle_collection (lib : Mongoose) (env : Env) (server : Server) (req : Request)
    (route : Route) :
    (handle lib env server req).2 route =
      server route++stored lib route env (server route) req := by
  unfold handle stored castPosted posted
  cases expressJson req with
  | error answer => simp
  | ok body =>
    cases mounts.lookup req.path with
    | none => simp
    | some target =>
      cases req.method with
      | get => simp
      | post =>
        by_cases ht : target = route
        · subst ht
          simp only [Function.update_self]
          cases body with
          | arr items =>
            rw [postHandler_arr]
            simp only [if_true,Option.bind_some]
            cases lib.castAll target.schema env 0 items <;> rfl
          | _ => simp [postHandler]
        · have hne : route ≠ target := fun h => ht h.symm
          simp only [Function.update_of_ne hne,if_neg ht]
          cases body <;> simp

/-- What an answer says about the documents its request stored. -/
structure StoredAsAnswered (lib : Mongoose) (route : Route) (env : Env)
    (coll : List (Document route.schema)) (req : Request) (status : ℕ) : Prop where
  /-- What does not post an array to the router stores nothing there. -/
  elsewhere : posted route req = none → stored lib route env coll req = []
  /-- Answered 201, a post to the router stored its cast elements, all of them. -/
  created : (posted route req).isSome = true → status = 201 →
    ∃ docs, castPosted lib route env req = some docs ∧ stored lib route env coll req = docs
  /-- Answered 400, it stored nothing. -/
  badRequest : status = 400 → stored lib route env coll req = []
  /-- Answered 500, it stored nothing when an element was rejected, and otherwise the
  cast elements before the one the database refused. -/
  failed : (posted route req).isSome = true → status = 500 →
    (castPosted lib route env req = none ∧ stored lib route env coll req = []) ∨
      ∃ docs, castPosted lib route env req = some docs ∧ ∃ n, ∃ hn : n < docs.length,
        stored lib route env coll req = docs.take n ∧
          writable env (coll++docs.take n) n docs[n] = false
  /-- With any other answer it stored nothing. -/
  others : status ≠ 201 → status ≠ 500 → stored lib route env coll req = []
  /-- An element that fails to cast or validate keeps the whole batch out. -/
  rejected : castPosted lib route env req = none → stored lib route env coll req = []

/-- A posted array is answered by its router's handler. -/
theorem handle_posted {lib : Mongoose} {route : Route} {env : Env} {server : Server}
    {req : Request} {items : List Json} (h : posted route req = some items) :
    (handle lib env server req).1 =
      (postHandler lib route env (.arr items) (server route)).1 := by
  unfold posted at h
  unfold handle
  cases hj : expressJson req with
  | error answer => simp [hj] at h
  | ok body =>
    cases hm : mounts.lookup req.path with
    | none => simp [hj,hm] at h
    | some target =>
      cases hmeth : req.method with
      | get => simp [hj,hm,hmeth] at h
      | post =>
        cases body with
        | arr items' =>
          simp only [hj,hm,hmeth] at h
          split at h
          · rename_i ht
            subst ht
            cases h
            rfl
          · cases h
        | _ => simp [hj,hm,hmeth] at h

/-- A nonempty batch is answered 201 when all of it is written and 500
otherwise. -/
theorem postHandler_status (lib : Mongoose) (route : Route) (env : Env)
    (coll : List (Document route.schema)) (first : Json) (rest : List Json) :
    (postHandler lib route env (.arr (first::rest)) coll).1.status =
      if (lib.castAll route.schema env 0 (first::rest)).any
        (fun docs => writtenCount env coll 0 docs = docs.length) then 201 else 500 := by
  unfold postHandler Mongoose.insertMany
  cases hc : lib.castAll route.schema env 0 (first::rest) with
  | none => simp [hc]
  | some docs =>
    by_cases hw : writtenCount env coll 0 docs = docs.length
    · simp [hc,writeAll_eq,hw]
    · simp [hc,writeAll_eq,hw]

/-- What is not posted to the router is not stored there. -/
theorem stored_elsewhere {lib : Mongoose} {route : Route} {env : Env}
    {coll : List (Document route.schema)} {req : Request} (h : posted route req = none) :
    stored lib route env coll req = [] := by
  rw [stored,castPosted,h]
  rfl

/-- A batch stores its cast elements, and is answered 201 when these are all written
and 500 otherwise. -/
theorem handle_batch {lib : Mongoose} {route : Route} {env : Env} {server : Server}
    {req : Request} {first : Json} {rest : List Json}
    (h : posted route req = some (first::rest)) :
    (handle lib env server req).1.status =
      if (castPosted lib route env req).any
        (fun docs => writtenCount env (server route) 0 docs = docs.length) then 201 else 500 := by
  rw [handle_posted h,postHandler_status,castPosted,h]
  rfl

/-- Every answer tells what was stored. -/
theorem handle_storedAsAnswered (lib : Mongoose) (route : Route) (env : Env)
    (server : Server) (req : Request) :
    StoredAsAnswered lib route env (server route) req (handle lib env server req).1.status := by
  have hrejected : castPosted lib route env req = none →
      stored lib route env (server route) req = [] := by
    intro hc
    rw [stored,hc]
  cases hp : posted route req with
  | none =>
    have hs : stored lib route env (server route) req = [] := stored_elsewhere hp
    refine ⟨fun _ => hs,fun h => ?_,fun _ => hs,fun h => ?_,fun _ _ => hs,fun _ => hs⟩
    · rw [hp] at h
      cases h
    · rw [hp] at h
      cases h
  | some items =>
    cases items with
    | nil =>
      have hstatus : (handle lib env server req).1.status = 400 := by
        rw [handle_posted hp]
        rfl
      have hs : stored lib route env (server route) req = [] := by
        rw [stored,castPosted,hp]
        rfl
      rw [hstatus]
      exact ⟨fun _ => hs,fun _ h => absurd h (by decide),fun _ => hs,
        fun _ h => absurd h (by decide),fun _ _ => hs,fun _ => hs⟩
    | cons first rest =>
      have hposted : posted route req ≠ none := by simp [hp]
      cases hc : castPosted lib route env req with
      | none =>
        have hstatus : (handle lib env server req).1.status = 500 := by
          rw [handle_batch hp,hc]
          rfl
        have hs := hrejected hc
        rw [hstatus]
        exact ⟨fun _ => hs,fun _ h => absurd h (by decide),fun _ => hs,
          fun _ _ => Or.inl ⟨hc,hs⟩,fun _ _ => hs,fun _ => hs⟩
      | some docs =>
        have hs : stored lib route env (server route) req =
            docs.take (writtenCount env (server route) 0 docs) := by rw [stored,hc]
        have hcast : castPosted lib route env req ≠ none := by simp [hc]
        by_cases hw : writtenCount env (server route) 0 docs = docs.length
        · have hstatus : (handle lib env server req).1.status = 201 := by
            rw [handle_batch hp,hc,Option.any_some,if_pos (decide_eq_true hw)]
          rw [hw,List.take_length] at hs
          rw [hstatus]
          exact ⟨fun h => absurd h hposted,fun _ _ => ⟨docs,hc,hs⟩,fun h => absurd h (by decide),
            fun _ h => absurd h (by decide),fun h => absurd rfl h,fun h => absurd h hcast⟩
        · have hstatus : (handle lib env server req).1.status = 500 := by
            rw [handle_batch hp,hc,Option.any_some,if_neg (by simpa using hw)]
          have hlt := lt_of_le_of_ne (writtenCount_le env (server route) 0 docs) hw
          have hrefused := writtenCount_refused env (server route) 0 docs hlt
          rw [Nat.zero_add] at hrefused
          rw [hstatus]
          exact ⟨fun h => absurd h hposted,fun _ h => absurd h (by decide),
            fun h => absurd h (by decide),fun _ _ => Or.inr ⟨docs,hc,_,hlt,hs,hrefused⟩,
            fun _ h => absurd rfl h,fun h => absurd h hcast⟩

/-! ### Runs -/

/-- One exchange of a run, with the state its request met. -/
structure Exchange where
  /-- The collections before the request. -/
  before : Server
  /-- What the outside supplied. -/
  env : Env
  /-- The request. -/
  request : Request
  /-- The answer given. -/
  response : Response

/-- The collections after a list of requests. -/
def run (lib : Mongoose) (server : Server) : List (Env×Request) → Server
  | [] => server
  | (env,req)::rest => run lib (handle lib env server req).2 rest

/-- The exchanges of a list of requests. -/
def history (lib : Mongoose) (server : Server) : List (Env×Request) → List Exchange
  | [] => []
  | (env,req)::rest =>
    let out := handle lib env server req
    ⟨server,env,req,out.1⟩::history lib out.2 rest

/-- What an exchange added to a router's collection. -/
def Exchange.added (lib : Mongoose) (route : Route) (x : Exchange) :
    List (Document route.schema) := stored lib route x.env (x.before route) x.request

/-- The cast documents of a post to the router that was answered 201. -/
def Exchange.created (lib : Mongoose) (route : Route) (x : Exchange) :
    List (Document route.schema) :=
  if x.response.status = 201 then (castPosted lib route x.env x.request).getD [] else []

/-- The empty database. -/
def emptyServer : Server := fun _ => []

/-- After the run a collection is exactly the initial documents and those of
the posts answered 201, each with its multiplicity. -/
def OnlyCreated (lib : Mongoose) (server : Server) (route : Route)
    (steps : List (Env×Request)) : Prop :=
  (run lib server steps route).Perm
    (server route++(history lib server steps).flatMap (Exchange.created lib route))

/-- A collection is its initial documents followed by what each exchange added. -/
theorem run_eq_added (lib : Mongoose) (server : Server) (route : Route)
    (steps : List (Env×Request)) :
    run lib server steps route =
      server route++(history lib server steps).flatMap (Exchange.added lib route) := by
  induction steps generalizing server with
  | nil => simp [run,history]
  | cons step rest ih =>
    obtain ⟨env,req⟩ := step
    simp only [run,history,List.flatMap_cons]
    rw [ih,handle_collection,List.append_assoc]
    rfl

/-- Every exchange of a run is one `handle` step from the state it met. -/
theorem history_response {lib : Mongoose} {server : Server} {steps : List (Env×Request)}
    {x : Exchange} (hx : x ∈ history lib server steps) :
    x.response = (handle lib x.env x.before x.request).1 := by
  induction steps generalizing server with
  | nil => simp [history] at hx
  | cons step rest ih =>
    obtain ⟨env,req⟩ := step
    rcases List.mem_cons.mp hx with rfl | hx
    · rfl
    · exact ih hx

/-- An exchange created at most what it added, and all of it when its answer
was 201. -/
theorem created_eq {lib : Mongoose} {server : Server} {steps : List (Env×Request)}
    {x : Exchange} (hx : x ∈ history lib server steps) (route : Route) :
    x.created lib route = if x.response.status = 201 then x.added lib route else [] := by
  unfold Exchange.created
  split
  · rename_i h201
    rw [history_response hx] at h201
    have hs := handle_storedAsAnswered lib route x.env x.before x.request
    cases hp : posted route x.request with
    | none =>
      rw [castPosted,hp]
      exact (hs.elsewhere hp).symm
    | some items =>
      obtain ⟨docs,hc,hdocs⟩ := hs.created (by rw [hp]; rfl) h201
      rw [hc]
      exact hdocs.symm
  · rfl

/-- Only created documents are stored exactly when no post that was answered
otherwise had a document written before the database refused one. -/
theorem onlyCreated_iff (lib : Mongoose) (server : Server) (route : Route)
    (steps : List (Env×Request)) :
    OnlyCreated lib server route steps ↔
      ∀ x ∈ history lib server steps, x.response.status ≠ 201 → x.added lib route = [] := by
  rw [OnlyCreated,run_eq_added,List.perm_append_left_iff]
  constructor
  · intro hperm x hx h201
    have hle : ∀ l : List Exchange, (∀ y ∈ l, y ∈ history lib server steps) →
        (l.flatMap (Exchange.created lib route)).Sublist
          (l.flatMap (Exchange.added lib route)) := by
      intro l hl
      induction l with
      | nil => simp
      | cons y l ih =>
        rw [List.flatMap_cons,List.flatMap_cons,created_eq (hl y (by simp)) route]
        refine List.Sublist.append ?_ (ih (fun z hz => hl z (List.mem_cons_of_mem y hz)))
        split
        · exact List.Sublist.refl _
        · exact List.nil_sublist _
    obtain ⟨before,after,hsplit⟩ := List.append_of_mem hx
    have hlen := hperm.length_eq
    have hb := (hle before (fun y hy => by rw [hsplit]; simp [hy])).length_le
    have ha := (hle after (fun y hy => by rw [hsplit]; simp [hy])).length_le
    have hcx : x.created lib route = [] := by rw [created_eq hx route,if_neg h201]
    rw [hsplit,List.flatMap_append,List.flatMap_append,List.flatMap_cons,List.flatMap_cons,
      hcx] at hlen
    simp only [List.length_append,List.length_nil] at hlen
    exact List.eq_nil_of_length_eq_zero (by omega)
  · intro h
    have heq : ∀ x ∈ history lib server steps,
        x.added lib route = x.created lib route := by
      intro x hx
      rw [created_eq hx route]
      split
      · rfl
      · rename_i h201
        exact h x hx h201
    rw [List.flatMap_congr heq]

/-- Whole runs: a collection is at every point the initial documents followed
by what the exchanges added, and each answer fixes that part: 201 the whole
cast body, 500 the elements before the one the database refused and nothing
when an element failed to cast or validate, and any other answer nothing. -/
theorem run_stores_as_answered (lib : Mongoose) (server : Server) (route : Route)
    (steps : List (Env×Request)) :
    run lib server steps route =
        server route++(history lib server steps).flatMap (Exchange.added lib route) ∧
      ∀ x ∈ history lib server steps,
        StoredAsAnswered lib route x.env (x.before route) x.request x.response.status := by
  refine ⟨run_eq_added lib server route steps,?_⟩
  intro x hx
  rw [history_response hx]
  exact handle_storedAsAnswered lib route x.env x.before x.request

/-! ### A run that stores part of a refused batch -/

/-- The number a string of hexadecimal digits denotes. -/
def hexValue (digits : List Char) : Option ℕ :=
  digits.foldl (fun acc c => do
    let n ← acc
    if '0' ≤ c ∧ c ≤ '9' then some (16*n+(c.toNat - '0'.toNat))
    else if 'a' ≤ c ∧ c ≤ 'f' then some (16*n+(c.toNat - 'a'.toNat+10))
    else none) (some 0)

/-- The hexadecimal digits of a number, at least the given number of them; what is too
large for these precedes them in strokes. -/
def hexText : ℕ → ℕ → List Char
  | 0,n => List.replicate n '+'
  | k+1,n => hexText k (n/16)++[Nat.digitChar (n%16)]

theorem hexText_injective (k : ℕ) {m n : ℕ} (h : hexText k m = hexText k n) : m = n := by
  induction k generalizing m n with
  | zero => simpa [hexText] using congrArg List.length h
  | succ k ih =>
    obtain ⟨hhigh,hlow⟩ := List.append_inj' h rfl
    have hchar : ∀ a < 16, ∀ b < 16, Nat.digitChar a = Nat.digitChar b → a = b := by decide
    have hdigit := hchar _ (Nat.mod_lt m (by decide)) _ (Nat.mod_lt n (by decide))
      (List.singleton_injective hlow)
    have hrest := ih hhigh
    omega

/-- The one timestamp of the sample inputs. -/
def sampleTime : String := "2025-02-01T12:00:00"

/-- Mongoose on sample inputs: strings, nulls, ids of 24 hexadecimal digits
and the sample timestamp, read in UTC. -/
def sampleMongoose : Mongoose where
  castString
    | .str s => some (some s)
    | .null => some none
    | .bool b => some (some (if b then "true" else "false"))
    | .int n => some (some (toString n))
    | _ => none
  castDate
    | .null => some none
    | .str s => if s = sampleTime then some (some 1738411200000) else none
    | _ => none
  castObjectId
    | .null => some none
    | .str s => if s.length = 24 then (hexValue s.toList).map some else none
    | _ => none
  hexOfId n := String.ofList (hexText 24 n)
  isoOfDate _ := "2025-02-01T12:00:00.000Z"
  castString_str _ := rfl
  castString_null := rfl
  hexOfId_injective _ _ h := hexText_injective 24 (String.ofList_injective h)

/-- An outside that behaves on one request: position i gets id base + i. -/
def sampleEnv (base : ℕ) : Env := ⟨fun i => base+i,1738411200000,fun _ => false,false⟩

/-- Two valid resources that name the same `_id`. -/
def repeatedIdBody : Json :=
  let resource (title : String) : Json := .obj [("_id",.str "65bb7d000000000000000001"),
    ("title",.str title),("link",.str "https://dev.to/a")]
  .arr [resource "first",resource "second"]

/-- Posting them is answered 500 and keeps the first one in the collection. -/
theorem repeatedId_not_onlyCreated :
    ¬OnlyCreated sampleMongoose emptyServer .devto
      [(sampleEnv 1,⟨.post,"/api/devto-resources",some repeatedIdBody,180⟩)] := by
  intro h
  have hlen := h.length_eq
  revert hlen
  decide

end Senca.ServerRoutes
