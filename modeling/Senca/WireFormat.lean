import Senca.CardKeys
import Senca.JsonText
import Senca.ToolHarvest

/-!
# What the parties send each other

The scrapers send the text `json.dumps` writes, the server reads it with
`express.json()` and answers with the text `JSON.stringify` writes, and the
pages and scrapers read the answers. The three printers differ in escapes and
blanks, but nothing changes on the way: over texts the system runs as it does
over values. What is not sent as text is the file `tools.py` writes.
-/

namespace Senca.WireFormat

open BrowserRuntime Deployment GrowingLogs JsonText JsonValue MongooseStore PageLoading
  FaultLoops PythonRuntime ScraperCollectors ServerRoutes StoreDelivery StoreFunctions

/-! ### Printers -/

/-- The texts of numbers that are no integers, and what a reader makes of a
number that is no integer or too large for a double to hold. -/
structure NumberTexts where
  /-- `repr` of a float. -/
  python : ℚ → List Char
  /-- `String` of a number. -/
  javascript : ℚ → List Char
  /-- The value of such a number. -/
  read : List Char → Option Json

theorem isBlank_indent (n : ℕ) : ∀ c ∈ '\n'::List.replicate n ' ', isBlank c = true :=
  List.forall_mem_cons.mpr ⟨rfl,fun _ hc => List.eq_of_mem_replicate hc ▸ rfl⟩

/-- `json.dumps(value)`. -/
def dumps (num : NumberTexts) : Style where
  ascii := true
  opening _ := []
  between _ := [' ']
  closing _ := []
  colon := [' ']
  floatText := num.python
  opening_blank _ := fun _ hc => nomatch hc
  between_blank _ := by simp [isBlank]
  closing_blank _ := fun _ hc => nomatch hc
  colon_blank := by simp [isBlank]

/-- `json.dump(value, f, indent=2, ensure_ascii=False)`. -/
def dumpIndented (num : NumberTexts) : Style where
  ascii := false
  opening depth := '\n'::List.replicate (2*(depth+1)) ' '
  between depth := '\n'::List.replicate (2*(depth+1)) ' '
  closing depth := '\n'::List.replicate (2*depth) ' '
  colon := [' ']
  floatText := num.python
  opening_blank _ := isBlank_indent _
  between_blank _ := isBlank_indent _
  closing_blank _ := isBlank_indent _
  colon_blank := by simp [isBlank]

/-- `JSON.stringify(value)`. -/
def stringify (num : NumberTexts) : Style where
  ascii := false
  opening _ := []
  between _ := []
  closing _ := []
  colon := []
  floatText := num.javascript
  opening_blank _ := fun _ hc => nomatch hc
  between_blank _ := fun _ hc => nomatch hc
  closing_blank _ := fun _ hc => nomatch hc
  colon_blank := fun _ hc => nomatch hc

/-- The length of a body that `requests` sends. -/
def wireSize (num : NumberTexts) : WireSize := fun value => byteLength (print (dumps num) 0 value)

/-! ### Requests and answers as texts -/

/-- A request with the text of its body. -/
structure WireRequest where
  /-- The HTTP method. -/
  method : Method
  /-- The path. -/
  path : String
  /-- The text of the body, when one is sent. -/
  body : Option (List Char)

/-- An answer with the text of its body, none when it has no JSON. -/
structure WireAnswer where
  /-- The status code. -/
  status : ℕ
  /-- The text of the JSON body. -/
  body : Option (List Char)

/-- What `requests` sends. -/
def sendRequest (num : NumberTexts) (req : Request) : WireRequest :=
  ⟨req.method,req.path,req.body.map (print (dumps num) 0)⟩

/-- What `res.json` sends. -/
def sendAnswer (num : NumberTexts) (r : Response) : WireAnswer :=
  ⟨r.status,r.body.map (print (stringify num) 0)⟩

/-- What `response.json()` makes of an answer, in a page or in a scraper. -/
def receiveAnswer (num : NumberTexts) (answer : WireAnswer) : Response :=
  ⟨answer.status,answer.body.bind (parse num.read)⟩

/-- The server on texts: `express.json()` refuses a body that is too long
before it reads it, and one that is no JSON. -/
def handleText (num : NumberTexts) (lib : Mongoose) (env : Env) (server : Server)
    (req : WireRequest) : WireAnswer×Server :=
  let reply (out : Response×Server) : WireAnswer×Server := (sendAnswer num out.1,out.2)
  match req.body with
  | none => reply (handle lib env server ⟨req.method,req.path,none,0⟩)
  | some text =>
    if bodyLimit < byteLength text then (⟨413,none⟩,server)
    else match parse num.read text with
      | none => (⟨400,none⟩,server)
      | some body => reply (handle lib env server ⟨req.method,req.path,some body,byteLength text⟩)

/-- One request, sent, served and answered over texts. -/
def overWire (num : NumberTexts) (lib : Mongoose) (env : Env) (server : Server) (req : Request) :
    Response×Server :=
  let out := handleText num lib env server (sendRequest num req)
  (receiveAnswer num out.1,out.2)

/-- The body is one that its text gives back, and its length is that of the text. -/
def Sendable (num : NumberTexts) (req : Request) : Prop :=
  ∀ body, req.body = some body →
    Portable (dumps num) num.read body ∧ req.bytes = wireSize num body

/-! ### What the server answers -/

/-- The names of a document's fields differ, as the database keeps them. -/
def Tidy (server : Server) : Prop :=
  ∀ route, ∀ doc ∈ server route, (doc.values.map Prod.fst).Nodup

/-- Cast values stand in the order of the schema, and none twice. -/
theorem castValues_sublist {lib : Mongoose} {now : Date} {members : List (String×Json)}
    {paths : List SchemaPath} {values : List (String×StoredValue)}
    (h : lib.castValues now members paths = some values) :
    (values.map Prod.fst).Sublist (paths.map SchemaPath.name) := by
  induction paths generalizing values with
  | nil =>
    cases h
    exact List.Sublist.refl _
  | cons path rest ih =>
    unfold Mongoose.castValues at h
    split at h
    · rename_i others _ hothers
      cases h
      exact (ih hothers).cons_cons path.name
    · rename_i others _ hothers
      cases h
      exact (ih hothers).cons path.name
    · cases h

theorem castDocument_nodup {lib : Mongoose} {schema : Schema} {now : Date} {id : ObjectId}
    {element : Json} {doc : Document schema}
    (h : lib.castDocument schema now id element = some doc) :
    (doc.values.map Prod.fst).Nodup := by
  unfold Mongoose.castDocument at h
  split at h
  · cases h
  · split at h
    · cases h
    · split at h
      · cases h
      · rename_i hvalues
        cases h
        exact (castValues_sublist hvalues).nodup schema.nodup

theorem castAll_nodup {lib : Mongoose} {schema : Schema} {env : Env} {i : ℕ}
    {elements : List Json} {docs : List (Document schema)}
    (h : lib.castAll schema env i elements = some docs) :
    ∀ doc ∈ docs, (doc.values.map Prod.fst).Nodup := by
  intro doc hdoc
  obtain ⟨element,-,k,hk⟩ := partner_of_mem (Mongoose.castAll_forall₂ h).flip hdoc
  exact castDocument_nodup hk

/-- One request keeps every document's names apart, whatever it posts. -/
theorem handle_tidy (lib : Mongoose) (env : Env) {server : Server} (req : Request)
    (h : Tidy server) : Tidy (handle lib env server req).2 := by
  intro route doc hdoc
  rw [handle_collection,stored] at hdoc
  rcases List.mem_append.mp hdoc with hold | hnew
  · exact h route doc hold
  · rw [castPosted] at hnew
    cases hposted : posted route req with
    | none =>
      rw [hposted] at hnew
      cases hnew
    | some elements =>
      rw [hposted,Option.bind_some] at hnew
      cases hcast : lib.castAll route.schema env 0 elements with
      | none =>
        rw [hcast] at hnew
        cases hnew
      | some docs =>
        rw [hcast] at hnew
        exact castAll_nodup hcast doc (List.mem_of_mem_take hnew)

theorem route_names (route : Route) : "_id" ∉ route.schema.paths.map SchemaPath.name ∧
    "__v" ∉ route.schema.paths.map SchemaPath.name := by
  cases route <;> decide

section Answers

variable {num : NumberTexts} {style : Style} {lib : Mongoose}

theorem portable_renderValue (value : StoredValue) :
    Portable style num.read (lib.renderValue value) := by
  cases value <;> trivial

/-- A stored document is read as it is rendered. -/
theorem portable_render {route : Route} (doc : Document route.schema)
    (h : (doc.values.map Prod.fst).Nodup) : Portable style num.read (lib.render doc) := by
  have hnames : (doc.values.map (fun e => (e.1,lib.renderValue e.2))).map Prod.fst =
      doc.values.map Prod.fst := by
    rw [List.map_map]
    rfl
  have hstrict : ∀ name ∈ doc.values.map Prod.fst,
      name ∈ route.schema.paths.map SchemaPath.name := by
    intro name hname
    obtain ⟨e,he,rfl⟩ := List.mem_map.mp hname
    exact doc.strict e he
  obtain ⟨hid,hv⟩ := route_names route
  rw [Mongoose.render,Portable,portableMembers_iff]
  constructor
  · rw [Mongoose.members,List.map_cons,List.map_append,hnames,List.nodup_cons]
    refine ⟨?_,?_⟩
    · intro hmem
      rcases List.mem_append.mp hmem with hmem | hmem
      · exact hid (hstrict _ hmem)
      · simp at hmem
    · refine h.append (List.nodup_singleton _) fun name hname hlast => hv ?_
      have hname' : name = "__v" := List.mem_singleton.mp hlast
      exact hname' ▸ hstrict name hname
  · intro m hm
    rcases List.mem_cons.mp hm with rfl | hm
    · trivial
    · rcases List.mem_append.mp hm with hm | hm
      · obtain ⟨e,-,rfl⟩ := List.mem_map.mp hm
        exact portable_renderValue e.2
      · rw [List.mem_singleton.mp hm]
        exact Nat.zero_le _

/-- The body of an answer is one that its text gives back. -/
def PortableAnswer (style : Style) (read : List Char → Option Json) (r : Response) : Prop :=
  ∀ body, r.body = some body → Portable style read body

theorem portable_noBody (status : ℕ) : PortableAnswer style num.read ⟨status,none⟩ := by
  rintro body ⟨⟩

theorem portable_documents {route : Route} {docs : List (Document route.schema)}
    (h : ∀ doc ∈ docs, (doc.values.map Prod.fst).Nodup) :
    Portable style num.read (.arr (docs.map lib.render)) := by
  rw [Portable,portableItems_iff]
  intro item hitem
  obtain ⟨doc,hdoc,rfl⟩ := List.mem_map.mp hitem
  exact portable_render doc (h doc hdoc)

theorem portable_errorBody (status : ℕ) (text : String) :
    PortableAnswer style num.read ⟨status,errorBody text⟩ := by
  rintro body ⟨⟩
  exact ⟨List.nodup_singleton _,trivial,trivial⟩

theorem expressJson_portable {req : Request} {answer : Response}
    (h : expressJson req = .error answer) : PortableAnswer style num.read answer := by
  rw [expressJson] at h
  split at h
  · cases h
  · split_ifs at h
    · cases h
      exact portable_noBody 413
    · split at h <;> cases h
      exact portable_noBody 400

theorem getHandler_portable {route : Route} (env : Env) {coll : List (Document route.schema)}
    (h : ∀ doc ∈ coll, (doc.values.map Prod.fst).Nodup) :
    PortableAnswer style num.read (getHandler lib route env coll) := by
  rw [getHandler]
  split_ifs
  · exact portable_errorBody _ _
  · rintro body ⟨⟩
    exact portable_documents fun doc hdoc => h doc ((find_perm coll).mem_iff.mp hdoc)

theorem postHandler_portable {route : Route} (env : Env) (body : Json)
    (coll : List (Document route.schema)) :
    PortableAnswer style num.read (postHandler lib route env body coll).1 := by
  rw [postHandler.eq_def]
  split
  · rename_i first rest
    cases hcast : lib.castAll route.schema env 0 (first::rest) with
    | none =>
      rw [Mongoose.insertMany,hcast]
      exact portable_errorBody _ _
    | some docs =>
      rw [Mongoose.insertMany,hcast]
      dsimp only
      rw [writeAll_eq]
      cases decide (writtenCount env coll 0 docs = docs.length) with
      | true =>
        rintro body ⟨⟩
        exact portable_documents (castAll_nodup hcast)
      | false => exact portable_errorBody _ _
  · exact portable_errorBody _ _

/-- For every request in every state: the answer is one that its text gives
back. -/
theorem handle_portable (env : Env) {server : Server} (req : Request) (h : Tidy server) :
    PortableAnswer style num.read (handle lib env server req).1 := by
  rw [handle]
  cases hbody : expressJson req with
  | error answer => exact expressJson_portable hbody
  | ok body =>
    dsimp only
    cases mounts.lookup req.path with
    | none => exact portable_noBody 404
    | some route =>
      cases req.method with
      | get => exact getHandler_portable env (h route)
      | post => exact postHandler_portable env body (server route)

/-- What is answered is what is received. -/
theorem receive_send {r : Response} (h : PortableAnswer (stringify num) num.read r) :
    receiveAnswer num (sendAnswer num r) = r := by
  obtain ⟨status,body⟩ := r
  cases body with
  | none => rfl
  | some body =>
    rw [sendAnswer,receiveAnswer]
    dsimp only [Option.map_some,Option.bind_some]
    rw [parse_print (h body rfl)]

/-- A request over texts is a request over values. -/
theorem overWire_eq_handle (env : Env) {server : Server} {req : Request} (h : Tidy server)
    (hreq : Sendable num req) : overWire num lib env server req = handle lib env server req := by
  obtain ⟨method,path,body,bytes⟩ := req
  have hanswer : ∀ req : Request, receiveAnswer num (sendAnswer num (handle lib env server req).1) =
      (handle lib env server req).1 := fun req => receive_send (handle_portable env req h)
  cases body with
  | none =>
    rw [overWire,handleText,sendRequest]
    dsimp only [Option.map_none]
    rw [hanswer]
    rfl
  | some body =>
    obtain ⟨hportable,hbytes⟩ := hreq body rfl
    dsimp only at hbytes
    subst hbytes
    rw [overWire,handleText,sendRequest]
    dsimp only [Option.map_some]
    by_cases hlong : bodyLimit < wireSize num body
    · rw [wireSize] at hlong ⊢
      rw [if_pos hlong,handle,expressJson]
      dsimp only
      rw [if_pos hlong]
      rfl
    · rw [wireSize] at hlong ⊢
      rw [if_neg hlong,parse_print hportable]
      dsimp only
      rw [hanswer]

end Answers

/-! ### The system over texts -/

/-- One event of the system, where every request and every answer is a text. -/
def stepWire (num : NumberTexts) (lib : Mongoose) (browser : Browser) (s : State) : Event → State
  | .request env req => { s with server := (overWire num lib env s.server req).2 }
  | .answer i path env =>
    let out := overWire num lib env s.server (getRequest path)
    onTab { s with server := out.2 } i (Tab.receive path out.1)
  | e => step lib browser s e

/-- A run of the system over texts. -/
abbrev runWire (num : NumberTexts) (lib : Mongoose) (browser : Browser) (s : State)
    (events : List Event) : State :=
  runFrom (stepWire num lib browser) s events

/-- The request of an event can be sent. -/
def SendableEvent (num : NumberTexts) : Event → Prop
  | .request _ req => Sendable num req
  | _ => True

/-- A post of elements that their text gives back. -/
theorem postRequest_sendable {num : NumberTexts} (path : String) {elements : List Json}
    (h : Portable (dumps num) num.read (.arr elements)) :
    Sendable num (postRequest (wireSize num) path elements) := by
  rintro body ⟨⟩
  exact ⟨h,rfl⟩

/-- A visit sends no bodies. -/
theorem visit_sendable (num : NumberTexts) (i : ℕ) (page : Page) (envs : Route → Env) :
    ∀ e ∈ visit i page envs, SendableEvent num e := by
  intro e he
  rw [visit,serve] at he
  simp only [List.mem_cons,List.mem_append,List.mem_map,List.not_mem_nil,or_false] at he
  rcases he with rfl | ⟨route,-,rfl⟩ | rfl | rfl <;> trivial

theorem step_tidy {lib : Mongoose} {browser : Browser} (s : State) (e : Event)
    (h : Tidy s.server) : Tidy (step lib browser s e).server := by
  cases e with
  | request env req => exact handle_tidy lib env req h
  | answer i path env => exact handle_tidy lib env (getRequest path) h
  | _ => exact h

theorem stepWire_eq_step {num : NumberTexts} {lib : Mongoose} {browser : Browser} (s : State)
    (e : Event) (h : Tidy s.server) (he : SendableEvent num e) :
    stepWire num lib browser s e = step lib browser s e := by
  cases e with
  | request env req => rw [stepWire,overWire_eq_handle env h he,step]
  | answer i path env =>
    rw [stepWire,overWire_eq_handle env h (by rintro body ⟨⟩),step]
  | _ => rfl

/-- For every run whose posts are such values: over texts it is the run over
values, so all that holds of runs holds of what is really sent. -/
theorem runWire_eq_runSystem (num : NumberTexts) (lib : Mongoose) (browser : Browser)
    (server : Server) (events : List Event) (h : Tidy server)
    (hevents : ∀ e ∈ events, SendableEvent num e) :
    runWire num lib browser (start server) events =
      runSystem lib browser (start server) events :=
  runFrom_congr (P := fun s : State => Tidy s.server) step_tidy stepWire_eq_step h hevents

/-- The texts of numbers where one half is the only fraction. -/
def sampleNumbers : NumberTexts := ⟨fun _ => ['0','.','5'],fun _ => ['0','.','5'],
  fun token => if token = ['0','.','5'] then some (.float (1/2)) else none⟩

/-- A batch of one element, in the wording of the scrapers, with a quote, an
accent and a character outside the basic plane. -/
def escapedBatch : List Json := [resourceElement (.str "\"Café\" 😀") (.str "https://dev.to/x")
  .null (.str "line\nbreak") (.str "ada") (.str "2025-02-01T12:00:00Z")]

theorem escapedBatch_portable {style : Style} {read : List Char → Option Json} :
    Portable style read (.arr escapedBatch) := by
  simp [escapedBatch,resourceElement,Portable,PortableItems,PortableMembers]

/-- The batch is posted, then the page is visited. -/
theorem runWire_escapedBatch :
    runWire sampleNumbers sampleMongoose sampleBrowser (start emptyServer)
        (.request (sampleEnv 1)
          (postRequest (wireSize sampleNumbers) "/api/devto-resources" escapedBatch)::
          visit 0 .blogsRepos (fun _ => sampleEnv 1)) =
      runSystem sampleMongoose sampleBrowser (start emptyServer)
        (.request (sampleEnv 1)
          (postRequest (wireSize sampleNumbers) "/api/devto-resources" escapedBatch)::
          visit 0 .blogsRepos (fun _ => sampleEnv 1)) := by
  exact runWire_eq_runSystem sampleNumbers sampleMongoose sampleBrowser emptyServer _
    (fun _ _ hdoc => nomatch hdoc) (List.forall_mem_cons.mpr
      ⟨postRequest_sendable _ escapedBatch_portable,visit_sendable _ _ _ _⟩)

/-! ### Batches that fit -/

/-- A field that is a string or null. -/
def IsText : Json → Prop
  | .str _ => True
  | .null => True
  | _ => False

/-- The characters of a field. -/
def fieldChars : Json → ℕ
  | .str text => text.length
  | _ => 0

/-- The characters of an element's fields. -/
def elementChars : Json → ℕ
  | .obj members => (members.map (fun m => fieldChars m.2)).sum
  | _ => 0

/-- The names of the fields that are posted: those of ten store functions, of
`tools1.py` and of `tools.py`. -/
def postedNames : List (List String) := [
  ["title","link","image","summary","resourceBy","createdAt"],
  ["title","link","summary","createdAt"],
  ["name","link","summary","createdAt"]]

/-- An element as a store function posts it, all of whose fields are strings or
null. -/
def TextElement (element : Json) : Prop :=
  ∃ members, element = .obj members ∧ members.map Prod.fst ∈ postedNames ∧
    ∀ m ∈ members, IsText m.2

/-- At most ten such elements, with at most 8448 characters together. -/
structure ShortBatch (elements : List Json) : Prop where
  length : elements.length ≤ 10
  texts : ∀ element ∈ elements, TextElement element
  chars : (elements.map elementChars).sum ≤ 8448

section Lengths

variable {num : NumberTexts}

theorem byteLength_field {value : Json} (depth : ℕ) (h : IsText value) :
    byteLength (print (dumps num) depth value) ≤ 4+12*fieldChars value := by
  cases value with
  | null =>
    have hnull : byteLength "null".toList = 4 := by decide
    rw [print,hnull]
    exact Nat.le_add_right _ _
  | str text =>
    have htext := byteLength_quoted text
    rw [print,fieldChars]
    exact htext.trans (by omega)
  | _ => cases h

theorem byteLength_printItems (depth : ℕ) (items : List Json) :
    byteLength (printItems (dumps num) depth items) =
      (items.map (fun item => 2+byteLength (print (dumps num) (depth+1) item))).sum+1 := by
  have hsigns : (']').utf8Size = 1 ∧ (',').utf8Size = 1 ∧ (' ').utf8Size = 1 := by decide
  induction items with
  | nil => simp [printItems,dumps,hsigns]
  | cons item items ih =>
    rw [printItems,byteLength_cons,byteLength_append,byteLength_append,ih,List.map_cons,
      List.sum_cons,hsigns.2.1]
    have hbetween : byteLength ((dumps num).between depth) = 1 := hsigns.2.2
    omega

/-- A batch takes two bytes for each element beside its text. -/
theorem byteLength_arr {items : List Json} (hne : items ≠ []) (depth : ℕ) :
    byteLength (print (dumps num) depth (.arr items)) =
      (items.map (fun item => 2+byteLength (print (dumps num) (depth+1) item))).sum := by
  cases items with
  | nil => exact absurd rfl hne
  | cons item items =>
    have hopen : ('[').utf8Size = 1 := rfl
    have hopening : byteLength ((dumps num).opening depth) = 0 := rfl
    rw [print,byteLength_cons,byteLength_append,byteLength_append,byteLength_printItems,
      List.map_cons,List.sum_cons]
    omega

theorem byteLength_printMembers (depth : ℕ) (members : List (String×Json)) :
    byteLength (printMembers (dumps num) depth members) =
      (members.map (fun m => 4+byteLength (quoted true m.1)+
        byteLength (print (dumps num) (depth+1) m.2))).sum+1 := by
  have hsigns : ('\x7d').utf8Size = 1 ∧ (',').utf8Size = 1 ∧ (' ').utf8Size = 1 ∧
      (':').utf8Size = 1 := by
    decide
  induction members with
  | nil => simp [printMembers,dumps,hsigns]
  | cons m members ih =>
    obtain ⟨key,value⟩ := m
    have hbetween : byteLength ((dumps num).between depth) = 1 := hsigns.2.2.1
    have hcolon : byteLength (dumps num).colon = 1 := hsigns.2.2.1
    have hascii : (dumps num).ascii = true := rfl
    rw [printMembers,hascii]
    simp only [byteLength_cons,byteLength_append,ih,List.map_cons,List.sum_cons]
    omega

/-- An object takes four bytes for each member beside its name and value. -/
theorem byteLength_obj {members : List (String×Json)} (hne : members ≠ []) (depth : ℕ) :
    byteLength (print (dumps num) depth (.obj members)) =
      (members.map (fun m => 4+byteLength (quoted true m.1)+
        byteLength (print (dumps num) (depth+1) m.2))).sum := by
  cases members with
  | nil => exact absurd rfl hne
  | cons m members =>
    obtain ⟨key,value⟩ := m
    have hsigns : ('\x7b').utf8Size = 1 ∧ (':').utf8Size = 1 ∧ (' ').utf8Size = 1 := by decide
    have hopening : byteLength ((dumps num).opening depth) = 0 := rfl
    have hcolon : byteLength (dumps num).colon = 1 := hsigns.2.2
    have hascii : (dumps num).ascii = true := rfl
    rw [print,hascii]
    simp only [byteLength_cons,byteLength_append,byteLength_printMembers,List.map_cons,
      List.sum_cons]
    omega

/-- A member takes eight bytes beside its name and the characters of its value. -/
theorem byteLength_members (depth : ℕ) {members : List (String×Json)}
    (htexts : ∀ m ∈ members, IsText m.2) :
    (members.map (fun m => 4+byteLength (quoted true m.1)+
        byteLength (print (dumps num) depth m.2))).sum ≤
      ((members.map Prod.fst).map (fun name => 8+byteLength (quoted true name))).sum+
        12*(members.map (fun m => fieldChars m.2)).sum := by
  induction members with
  | nil => exact Nat.zero_le _
  | cons m members ih =>
    have hfield := @byteLength_field num m.2 depth (htexts m List.mem_cons_self)
    have hrest := ih fun m hm => htexts m (List.mem_cons_of_mem _ hm)
    simp only [List.map_cons,List.sum_cons]
    omega

/-- The names and signs of an element take 100 bytes at most. -/
theorem postedNames_bytes : ∀ names ∈ postedNames, names ≠ [] ∧
    (names.map (fun name => 8+byteLength (quoted true name))).sum ≤ 100 := by
  decide

theorem byteLength_element {element : Json} (depth : ℕ) (h : TextElement element) :
    byteLength (print (dumps num) depth element) ≤ 100+12*elementChars element := by
  obtain ⟨members,rfl,hnames,htexts⟩ := h
  obtain ⟨hne,hbytes⟩ := postedNames_bytes _ hnames
  have hsome : members ≠ [] := fun hnil => hne (congrArg (List.map Prod.fst) hnil)
  have hmembers := @byteLength_members num (depth+1) members htexts
  rw [byteLength_obj hsome,elementChars]
  omega

/-- Whatever the characters are, so also when each of them is sent as two
escapes. -/
theorem wireSize_shortBatch {elements : List Json} (h : ShortBatch elements) :
    wireSize num (.arr elements) ≤ bodyLimit := by
  have hsum : ∀ l : List Json, (∀ element ∈ l, TextElement element) →
      (l.map (fun element => 2+byteLength (print (dumps num) (0+1) element))).sum ≤
        102*l.length+12*(l.map elementChars).sum := by
    intro l hl
    induction l with
    | nil => exact Nat.zero_le _
    | cons element l ih =>
      have helement := @byteLength_element num _ (0+1) (hl element List.mem_cons_self)
      have hrest := ih fun e he => hl e (List.mem_cons_of_mem _ he)
      simp only [List.map_cons,List.sum_cons,List.length_cons]
      omega
  rw [wireSize,bodyLimit]
  by_cases hne : elements = []
  · subst hne
    have hempty : byteLength (print (dumps num) 0 (.arr [])) = 2 := by
      rw [print]
      decide
    omega
  · have hlength := h.length
    have hchars := h.chars
    have hbatch := hsum elements h.texts
    rw [byteLength_arr hne]
    omega

end Lengths

/-- A post within the limit is not answered as too large. -/
theorem postRequest_fits {wireSize : WireSize} {elements : List Json}
    (h : wireSize (.arr elements) ≤ bodyLimit) (lib : Mongoose) (env : Env) (server : Server)
    (path : String) :
    (handle lib env server (postRequest wireSize path elements)).1.status ≠ 413 := by
  rw [handle,expressJson_post h]
  dsimp only
  cases mounts.lookup (postRequest wireSize path elements).path with
  | none => simp
  | some route =>
    dsimp only [postRequest]
    rw [postHandler.eq_def]
    split
    · split <;> simp
    · simp

/-- For every short batch the size is no matter: it reaches its page when and
only when the routes agree and its other fields cast, and no server answers
that it is too large. -/
theorem deliverable_shortBatch_iff (num : NumberTexts) (lib : Mongoose) (py : Interpreter)
    (f : StoreFunction) (items : List f.Item) (elements : List Json)
    (hp : f.payload py items = .ok elements) (h : ShortBatch elements) :
    (Deliverable lib py (wireSize num) f items ↔
      agrees f = true ∧ ∀ e ∈ elements, OptionalFieldsCast lib (pageRoute f) e) ∧
    ∀ env server, (handle lib env server
      (postRequest (wireSize num) f.endpoint elements)).1.status ≠ 413 := by
  have hfits : wireSize num (.arr elements) ≤ bodyLimit := wireSize_shortBatch h
  refine ⟨?_,fun env server => postRequest_fits hfits lib env server f.endpoint⟩
  rw [Deliverable]
  constructor
  · rintro ⟨hagrees,elements',hp',-,hcast⟩
    rw [hp] at hp'
    cases hp'
    exact ⟨hagrees,hcast⟩
  · rintro ⟨hagrees,hcast⟩
    exact ⟨hagrees,elements,hp,hfits,hcast⟩

/-- Three posts with quotes, line breaks, accents and characters outside the
basic plane. -/
def escapedPosts : List (Summarised DevtoItem) :=
  let post (title summary : String) : Summarised DevtoItem :=
    { samplePost with item.title := .str title, summary50Words := summary }
  [post "\"Café\" 😀" "line\nbreak",post "Über ⟨agents⟩" "𝔸𝕀 \\ 😀😀",samplePost]

/-- What is posted for them. -/
def escapedElements : List Json := escapedPosts.map (fun it =>
  resourceElement it.item.title it.item.url it.item.image (.str it.summary50Words)
    it.item.author (.str it.item.createdAt))

/-- They are delivered. -/
theorem deliverable_shortBatch_escapedPosts :
    Deliverable sampleMongoose sampleInterpreter (wireSize sampleNumbers) .devto escapedPosts ∧
    ∀ env server, (handle sampleMongoose env server (postRequest (wireSize sampleNumbers)
      StoreFunction.devto.endpoint escapedElements)).1.status ≠ 413 := by
  have htexts : ∀ element ∈ escapedElements, TextElement element := by
    intro element helement
    obtain ⟨it,hit,rfl⟩ := List.mem_map.mp helement
    refine ⟨_,rfl,List.mem_cons_self,?_⟩
    revert it
    simp [escapedPosts,samplePost,IsText]
  have hboth := deliverable_shortBatch_iff sampleNumbers sampleMongoose sampleInterpreter .devto
    escapedPosts escapedElements rfl ⟨by decide,htexts,by decide⟩
  refine ⟨hboth.1.mpr ⟨rfl,?_⟩,hboth.2⟩
  intro e he path hp _
  revert path e
  decide

/-! ### The file of tools -/

/-- The dict of a tool, which is posted and saved as it is. -/
def toolDict (tool : SupertoolItem) : Json := .obj [("name",.str tool.name),
  ("link",.str tool.link),("summary",.str tool.summary),("createdAt",.str tool.createdAt)]

/-- What `save_tools_to_file` writes. -/
def saveToolsToFile (num : NumberTexts) (tools : List SupertoolItem) : List Char :=
  print (dumpIndented num) 0 (.arr (tools.map toolDict))

/-- The file and the posted body give back one list, that of the tools. -/
structure SavedAsPosted (num : NumberTexts) (py : Interpreter) (tools : List SupertoolItem) :
    Prop where
  payload : StoreFunction.payload py .tools tools = .ok (tools.map toolDict)
  posted : parse num.read (print (dumps num) 0 (.arr (tools.map toolDict))) =
    some (.arr (tools.map toolDict))
  saved : parse num.read (saveToolsToFile num tools) = some (.arr (tools.map toolDict))

theorem portable_toolDicts {style : Style} {read : List Char → Option Json}
    (tools : List SupertoolItem) : Portable style read (.arr (tools.map toolDict)) := by
  rw [Portable,portableItems_iff]
  intro item hitem
  obtain ⟨tool,-,rfl⟩ := List.mem_map.mp hitem
  simp [toolDict,Portable,PortableMembers]

/-- Whatever characters the tools have. -/
theorem tools_savedAsPosted (num : NumberTexts) (py : Interpreter) (tools : List SupertoolItem) :
    SavedAsPosted num py tools := by
  refine ⟨?_,parse_print (portable_toolDicts tools),parse_print (portable_toolDicts tools)⟩
  exact gather_one_eq_ok.mpr
    (List.forall₂_map_right_iff.mpr (List.forall₂_same.mpr fun _ _ => rfl))

end Senca.WireFormat
