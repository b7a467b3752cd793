import Mathlib.Data.List.Forall2
import Mathlib.Data.List.Perm.Basic
import Mathlib.Order.WithBot
import Mathlib.Tactic.Common
import Senca.JsonValue
import Senca.StableRanking

/-!
# Schemas, documents and ordered batch insertion

A schema is a list of paths; a document of a schema carries the proof that
every path holds a value the path admits and that no other path is stored.
`insertMany` with its default options casts and validates every element
before it writes any, and then writes in array order up to the first
element the database refuses. The casts themselves are parameters with the
documented behaviour the routes rely on.
-/

namespace Senca.MongooseStore

open JsonValue StableRanking

/-- A document identifier, read as its 96-bit number. -/
abbrev ObjectId := ℕ

/-- A stored instant in milliseconds. -/
abbrev Date := ℤ

/-- The two path types the models use. -/
inductive PathType where
  /-- `type: String`. -/
  | string
  /-- `type: Date`. -/
  | date
  deriving DecidableEq

/-- One path of a schema. -/
structure SchemaPath where
  /-- The field name. -/
  name : String
  /-- The declared type. -/
  type : PathType
  /-- `required: true`. -/
  required : Bool
  /-- `default: Date.now`. -/
  defaultNow : Bool
  deriving DecidableEq

/-- A model's schema; two paths never share a name. -/
structure Schema where
  /-- The name given to `mongoose.model`. -/
  modelName : String
  /-- The declared paths, in order. -/
  paths : List SchemaPath
  /-- An object literal has one entry for each name. -/
  nodup : (paths.map SchemaPath.name).Nodup

/-- A value a document holds at a path that is set. -/
inductive StoredValue where
  /-- An explicit null, which a path that is not required accepts. -/
  | null
  /-- A string. -/
  | str (value : String)
  /-- A date. -/
  | date (value : Date)
  deriving DecidableEq

/-- What `required: true` asks of a set value: a nonempty string, or a date. -/
def StoredValue.present : StoredValue → Bool
  | .null => false
  | .str s => s ≠ ""
  | .date _ => true

/-- The value has the declared type, null having both. -/
def StoredValue.ofType : StoredValue → PathType → Bool
  | .null,_ => true
  | .str _,.string => true
  | .date _,.date => true
  | _,_ => false

/-- What a stored document may hold at a path, none meaning not set. -/
def SchemaPath.admits (path : SchemaPath) : Option StoredValue → Bool
  | none => !path.required
  | some value => value.ofType path.type && (!path.required || value.present)

/-- The casts and renderings of Mongoose, with what the routes rely on. -/
structure Mongoose where
  /-- Cast to a String path: outer none a CastError, inner none a null. -/
  castString : Json → Option (Option String)
  /-- Cast to a Date path. -/
  castDate : Json → Option (Option Date)
  /-- Cast to the `_id` path; a null leaves the id to the driver. -/
  castObjectId : Json → Option (Option ObjectId)
  /-- The JSON text of an id. -/
  hexOfId : ObjectId → String
  /-- `toISOString`, the JSON text of a date. -/
  isoOfDate : Date → String
  /-- A string is its own cast. -/
  castString_str : ∀ s, castString (.str s) = some (some s)
  /-- Null casts to null. -/
  castString_null : castString .null = some none
  /-- Two ids have different texts. -/
  hexOfId_injective : Function.Injective hexOfId

/-- Cast one value to the type of its path. -/
def Mongoose.castValue (lib : Mongoose) (type : PathType) (value : Json) :
    Option StoredValue :=
  match type with
  | .string => (lib.castString value).map (fun s => s.elim .null .str)
  | .date => (lib.castDate value).map (fun d => d.elim .null .date)

/-- Cast and validate one path of an element: outer none rejects the element,
inner none leaves the path unset. A default applies to an absent field only. -/
def Mongoose.castPath (lib : Mongoose) (now : Date) (path : SchemaPath)
    (members : List (String×Json)) : Option (Option StoredValue) :=
  match members.lookup path.name with
  | none =>
    if path.defaultNow && path.type = .date then some (some (.date now))
    else if path.required then none
    else some none
  | some value =>
    match lib.castValue path.type value with
    | none => none
    | some stored => if path.required && !stored.present then none else some (some stored)

theorem Mongoose.castValue_ofType {lib : Mongoose} {type : PathType} {value : Json}
    {stored : StoredValue} (h : lib.castValue type value = some stored) :
    stored.ofType type = true := by
  cases type with
  | string =>
    obtain ⟨s,-,rfl⟩ := Option.map_eq_some_iff.mp h
    cases s <;> rfl
  | date =>
    obtain ⟨d,-,rfl⟩ := Option.map_eq_some_iff.mp h
    cases d <;> rfl

/-- A path that passes holds a value it admits. -/
theorem Mongoose.castPath_admits {lib : Mongoose} {now : Date} {path : SchemaPath}
    {members : List (String×Json)} {stored : Option StoredValue}
    (h : lib.castPath now path members = some stored) : path.admits stored = true := by
  unfold castPath at h
  split at h
  · split at h
    · rename_i hd
      cases h
      have htype : path.type = .date := by simpa using (Bool.and_eq_true_iff.mp hd).2
      simp [SchemaPath.admits,StoredValue.ofType,StoredValue.present,htype]
    · split at h
      · cases h
      · rename_i hr
        cases h
        simpa [SchemaPath.admits] using hr
  · split at h
    · cases h
    · rename_i value stored' hcast
      split at h
      · cases h
      · rename_i hr
        cases h
        simp only [SchemaPath.admits,castValue_ofType hcast,Bool.true_and]
        cases hreq : path.required <;> simp_all

/-- The set paths of an element in schema order, none when one is rejected.
Fields outside the schema are dropped, as strict mode does. -/
def Mongoose.castValues (lib : Mongoose) (now : Date) (members : List (String×Json)) :
    List SchemaPath → Option (List (String×StoredValue))
  | [] => some []
  | path::rest =>
    match lib.castPath now path members,lib.castValues now members rest with
    | some (some stored),some values => some ((path.name,stored)::values)
    | some none,some values => some values
    | _,_ => none

/-- Only names of the given paths are set. -/
theorem Mongoose.castValues_names {lib : Mongoose} {now : Date} {members : List (String×Json)}
    {paths : List SchemaPath} {values : List (String×StoredValue)}
    (h : lib.castValues now members paths = some values) :
    ∀ e ∈ values, e.1 ∈ paths.map SchemaPath.name := by
  induction paths generalizing values with
  | nil =>
    cases h
    simp
  | cons path rest ih =>
    unfold castValues at h
    split at h
    · rename_i stored others _ ho
      cases h
      intro e he
      rcases List.mem_cons.mp he with rfl | he
      · simp
      · exact List.mem_cons_of_mem _ (ih ho e he)
    · rename_i others _ ho
      cases h
      intro e he
      exact List.mem_cons_of_mem _ (ih ho e he)
    · cases h

/-- Looking a path up in the result gives what its cast gave. -/
theorem Mongoose.castValues_lookup {lib : Mongoose} {now : Date}
    {members : List (String×Json)} {paths : List SchemaPath}
    (hn : (paths.map SchemaPath.name).Nodup) {values : List (String×StoredValue)}
    (h : lib.castValues now members paths = some values) :
    ∀ path ∈ paths, lib.castPath now path members = some (values.lookup path.name) := by
  induction paths generalizing values with
  | nil => simp
  | cons path rest ih =>
    obtain ⟨hnew,hrest⟩ := List.nodup_cons.mp hn
    have hhead : ∀ others, lib.castValues now members rest = some others →
        others.lookup path.name = none := by
      intro others ho
      rw [List.lookup_eq_none_iff]
      intro e he
      have hmem := castValues_names ho e he
      simp only [bne_iff_ne,ne_eq]
      intro heq
      exact hnew (heq ▸ hmem)
    unfold castValues at h
    split at h
    · rename_i stored others hp ho
      cases h
      intro p hmem
      rcases List.mem_cons.mp hmem with rfl | hmem
      · simpa using hp
      · have hne : (p.name == path.name) = false := by
          simp only [beq_eq_false_iff_ne,ne_eq]
          intro he
          exact hnew (he ▸ List.mem_map_of_mem hmem)
        rw [List.lookup_cons,hne]
        exact ih hrest ho p hmem
    · rename_i others hp ho
      cases h
      intro p hmem
      rcases List.mem_cons.mp hmem with rfl | hmem
      · rw [hhead values ho]
        exact hp
      · exact ih hrest ho p hmem
    · cases h

/-- An element passes exactly when each of its paths does. -/
theorem Mongoose.castValues_isSome {lib : Mongoose} {now : Date}
    {members : List (String×Json)} {paths : List SchemaPath} :
    (lib.castValues now members paths).isSome = true ↔
      ∀ path ∈ paths, (lib.castPath now path members).isSome = true := by
  induction paths with
  | nil => simp [castValues]
  | cons path rest ih =>
    rw [List.forall_mem_cons,← ih]
    cases hp : lib.castPath now path members with
    | none => simp [castValues,hp]
    | some stored =>
      cases hr : lib.castValues now members rest with
      | none => cases stored <;> simp [castValues,hp,hr]
      | some values => cases stored <;> simp [castValues,hp,hr]

/-- A document of a schema, valid by construction. -/
structure Document (schema : Schema) where
  /-- The `_id`. -/
  id : ObjectId
  /-- The set paths and their values. -/
  values : List (String×StoredValue)
  /-- Every path holds what it admits: required ones a present value. -/
  admitted : ∀ path ∈ schema.paths, path.admits (values.lookup path.name) = true
  /-- Strict mode: nothing outside the schema is stored. -/
  strict : ∀ e ∈ values, e.1 ∈ schema.paths.map SchemaPath.name

/-- The value at a path. -/
def Document.value? {schema : Schema} (doc : Document schema) (name : String) :
    Option StoredValue := doc.values.lookup name

/-- A name outside the schema is never set. -/
theorem Document.value?_eq_none {schema : Schema} (doc : Document schema) {name : String}
    (h : name ∉ schema.paths.map SchemaPath.name) : doc.value? name = none := by
  rw [Document.value?,List.lookup_eq_none_iff]
  intro e he
  simp only [bne_iff_ne,ne_eq]
  rintro rfl
  exact h (doc.strict e he)

/-- A required String path holds a nonempty string. -/
theorem Document.value?_required {schema : Schema} (doc : Document schema)
    {path : SchemaPath} (hp : path ∈ schema.paths) (hr : path.required = true)
    (ht : path.type = .string) : ∃ s, s ≠ "" ∧ doc.value? path.name = some (.str s) := by
  have ha := doc.admitted path hp
  unfold Document.value?
  cases hv : doc.values.lookup path.name with
  | none => simp [hv,SchemaPath.admits,hr] at ha
  | some v =>
    rw [hv] at ha
    cases v with
    | null => simp [SchemaPath.admits,hr,StoredValue.present] at ha
    | date d => simp [SchemaPath.admits,ht,StoredValue.ofType] at ha
    | str s =>
      refine ⟨s,?_,rfl⟩
      simpa [SchemaPath.admits,hr,ht,StoredValue.ofType,StoredValue.present] using ha

/-- The members an array element offers to the schema. Null and arrays act
as objects without fields; other primitives are no document at all. -/
def elementMembers : Json → Option (List (String×Json))
  | .obj members => some members
  | .null => some []
  | .arr _ => some []
  | _ => none

/-- The id of a new document: the supplied one if it casts, else a generated one. -/
def Mongoose.castId (lib : Mongoose) (generated : ObjectId) (members : List (String×Json)) :
    Option ObjectId :=
  match members.lookup "_id" with
  | none => some generated
  | some value => (lib.castObjectId value).map (fun id => id.getD generated)

/-- Cast and validate one element of a batch. -/
def Mongoose.castDocument (lib : Mongoose) (schema : Schema) (now : Date)
    (generated : ObjectId) (element : Json) : Option (Document schema) :=
  match elementMembers element with
  | none => none
  | some members =>
    match lib.castId generated members with
    | none => none
    | some id =>
      match hv : lib.castValues now members schema.paths with
      | none => none
      | some values => some {
          id := id
          values := values
          admitted := fun path hp =>
            Mongoose.castPath_admits (Mongoose.castValues_lookup schema.nodup hv path hp)
          strict := Mongoose.castValues_names hv }

/-- What the outside supplies to one request. -/
structure Env where
  /-- The id generated for the element at a position. -/
  newId : ℕ → ObjectId
  /-- `Date.now()`. -/
  now : Date
  /-- A storage error, other than a duplicate id, at a position. -/
  writeFails : ℕ → Bool
  /-- A read fails. -/
  readFails : Bool

/-- Cast a whole batch from a position on; one bad element rejects it. -/
def Mongoose.castAll (lib : Mongoose) (schema : Schema) (env : Env) :
    ℕ → List Json → Option (List (Document schema))
  | _,[] => some []
  | i,element::rest =>
    match lib.castDocument schema env.now (env.newId i) element,
        lib.castAll schema env (i+1) rest with
    | some doc,some docs => some (doc::docs)
    | _,_ => none

/-- An element passes cast and validation; neither depends on the clock or on
the generated id. -/
def Mongoose.accepts (lib : Mongoose) (schema : Schema) (element : Json) : Bool :=
  match elementMembers element with
  | none => false
  | some members => (lib.castId 0 members).isSome &&
      schema.paths.all (fun path => (lib.castPath 0 path members).isSome)

theorem Mongoose.castPath_isSome_now {lib : Mongoose} (now now' : Date) (path : SchemaPath)
    (members : List (String×Json)) :
    (lib.castPath now path members).isSome = (lib.castPath now' path members).isSome := by
  unfold castPath
  cases members.lookup path.name with
  | none => cases path.defaultNow && decide (path.type = .date) <;> rfl
  | some value => rfl

theorem Mongoose.castId_isSome_generated {lib : Mongoose} (generated generated' : ObjectId)
    (members : List (String×Json)) :
    (lib.castId generated members).isSome = (lib.castId generated' members).isSome := by
  unfold castId
  cases members.lookup "_id" with
  | none => rfl
  | some value => simp

theorem Mongoose.castDocument_isSome (lib : Mongoose) (schema : Schema) (now : Date)
    (generated : ObjectId) (element : Json) :
    (lib.castDocument schema now generated element).isSome = lib.accepts schema element := by
  have hvalues : ∀ members, (lib.castValues now members schema.paths).isSome =
      schema.paths.all (fun path => (lib.castPath 0 path members).isSome) := by
    intro members
    rw [Bool.eq_iff_iff,castValues_isSome,List.all_eq_true]
    simp only [castPath_isSome_now now 0]
  unfold castDocument accepts
  cases elementMembers element with
  | none => rfl
  | some members =>
    simp only [← hvalues,← castId_isSome_generated generated 0 members]
    cases lib.castId generated members with
    | none => rfl
    | some id =>
      simp only [Option.isSome_some,Bool.true_and]
      split <;> rename_i hv <;> simp [hv]

/-- A batch passes exactly when each of its elements does. -/
theorem Mongoose.castAll_isSome (lib : Mongoose) (schema : Schema) (env : Env) (i : ℕ)
    (elements : List Json) :
    (lib.castAll schema env i elements).isSome = elements.all (lib.accepts schema) := by
  induction elements generalizing i with
  | nil => rfl
  | cons element rest ih =>
    rw [List.all_cons,← ih (i+1),
      ← lib.castDocument_isSome schema env.now (env.newId i) element]
    rw [castAll]
    cases lib.castDocument schema env.now (env.newId i) element with
    | none => rfl
    | some doc => cases lib.castAll schema env (i+1) rest <;> rfl

/-- A cast batch has one document for each element, in order, with the id
generated for its position. -/
theorem Mongoose.castAll_forall₂ {lib : Mongoose} {schema : Schema} {env : Env} {i : ℕ}
    {elements : List Json} {docs : List (Document schema)}
    (h : lib.castAll schema env i elements = some docs) :
    List.Forall₂ (fun element doc => ∃ k,
      lib.castDocument schema env.now (env.newId k) element = some doc) elements docs := by
  induction elements generalizing i docs with
  | nil =>
    cases h
    exact List.Forall₂.nil
  | cons element rest ih =>
    unfold castAll at h
    split at h
    · rename_i doc others hd ho
      cases h
      exact List.Forall₂.cons ⟨i,hd⟩ (ih ho)
    · cases h

/-- A cast document holds the cast values. -/
theorem Mongoose.castDocument_values {lib : Mongoose} {schema : Schema} {now : Date}
    {generated : ObjectId} {members : List (String×Json)} {doc : Document schema}
    (h : lib.castDocument schema now generated (.obj members) = some doc) :
    lib.castValues now members schema.paths = some doc.values := by
  unfold castDocument at h
  simp only [elementMembers] at h
  cases hid : lib.castId generated members with
  | none => simp [hid] at h
  | some id =>
    simp only [hid] at h
    split at h
    · cases h
    · rename_i values hv
      cases h
      exact hv

/-- Looking a path up in a cast document gives what its cast gave. -/
theorem Mongoose.castDocument_value? {lib : Mongoose} {schema : Schema} {now : Date}
    {generated : ObjectId} {members : List (String×Json)} {doc : Document schema}
    (h : lib.castDocument schema now generated (.obj members) = some doc) :
    ∀ path ∈ schema.paths, lib.castPath now path members = some (doc.value? path.name) :=
  castValues_lookup schema.nodup (castDocument_values h)

/-- The clock matters only to a default that applies. -/
theorem Mongoose.castValues_now {lib : Mongoose} (now now' : Date)
    {members : List (String×Json)} {paths : List SchemaPath}
    (h : ∀ path ∈ paths, path.defaultNow = true → members.lookup path.name ≠ none) :
    lib.castValues now members paths = lib.castValues now' members paths := by
  induction paths with
  | nil => rfl
  | cons path rest ih =>
    rw [List.forall_mem_cons] at h
    have hpath : lib.castPath now path members = lib.castPath now' path members := by
      unfold castPath
      cases hl : members.lookup path.name with
      | some value => rfl
      | none =>
        have hdefault : path.defaultNow = false := by
          cases hd : path.defaultNow with
          | false => rfl
          | true => exact absurd hl (h.1 hd)
        simp [hdefault]
    rw [castValues,castValues,hpath,ih h.2]

/-- Without an `_id` a document gets the generated one. -/
theorem Mongoose.castDocument_id {lib : Mongoose} {schema : Schema} {now : Date}
    {generated : ObjectId} {members : List (String×Json)} {doc : Document schema}
    (hid : members.lookup "_id" = none)
    (h : lib.castDocument schema now generated (.obj members) = some doc) :
    doc.id = generated := by
  unfold castDocument at h
  simp only [elementMembers,castId,hid] at h
  split at h
  · cases h
  · cases h
    rfl

/-- The ids of a batch without `_id` members are the generated ones in order. -/
theorem Mongoose.castAll_ids {lib : Mongoose} {schema : Schema} {env : Env} {i : ℕ}
    {elements : List Json} {docs : List (Document schema)}
    (h : lib.castAll schema env i elements = some docs)
    (hid : ∀ element ∈ elements, ∃ members, element = .obj members ∧
      members.lookup "_id" = none) :
    ∀ k, (hk : k < docs.length) → docs[k].id = env.newId (i+k) := by
  induction elements generalizing i docs with
  | nil =>
    cases h
    simp
  | cons element rest ih =>
    unfold castAll at h
    split at h
    · rename_i doc others hd ho
      cases h
      intro k hk
      cases k with
      | zero =>
        obtain ⟨members,rfl,hm⟩ := hid element (by simp)
        exact castDocument_id hm hd
      | succ k =>
        have hrest := ih ho (fun e he => hid e (List.mem_cons_of_mem _ he)) k
          (by simpa using hk)
        rw [List.getElem_cons_succ,hrest]
        congr 1
        omega
    · cases h

/-- The database accepts a write: no storage error and an unused `_id`. -/
def writable {schema : Schema} (env : Env) (coll : List (Document schema)) (i : ℕ)
    (doc : Document schema) : Bool :=
  !env.writeFails i && coll.all (fun d => d.id ≠ doc.id)

/-- Write in order up to the first refusal; the flag says all were written. -/
def writeAll {schema : Schema} (env : Env) (coll : List (Document schema)) :
    ℕ → List (Document schema) → List (Document schema)×Bool
  | _,[] => (coll,true)
  | i,doc::rest =>
    if writable env coll i doc then writeAll env (coll++[doc]) (i+1) rest else (coll,false)

/-- How many documents of a batch are written before the first refusal. -/
def writtenCount {schema : Schema} (env : Env) (coll : List (Document schema)) :
    ℕ → List (Document schema) → ℕ
  | _,[] => 0
  | i,doc::rest =>
    if writable env coll i doc then writtenCount env (coll++[doc]) (i+1) rest+1 else 0

/-- Why `insertMany` rejects. -/
inductive InsertError where
  /-- An element failed to cast or validate; nothing was written. -/
  | validation
  /-- A write was refused; the elements before it stay written. -/
  | write
  deriving DecidableEq

/-- `Model.insertMany(body)` with default options. -/
def Mongoose.insertMany (lib : Mongoose) (schema : Schema) (env : Env)
    (coll : List (Document schema)) (body : List Json) :
    Except InsertError (List (Document schema))×List (Document schema) :=
  match lib.castAll schema env 0 body with
  | none => (.error .validation,coll)
  | some docs =>
    match writeAll env coll 0 docs with
    | (coll',true) => (.ok docs,coll')
    | (coll',false) => (.error .write,coll')

theorem writtenCount_le {schema : Schema} (env : Env) (coll : List (Document schema))
    (i : ℕ) (docs : List (Document schema)) : writtenCount env coll i docs ≤ docs.length := by
  induction docs generalizing coll i with
  | nil => simp [writtenCount]
  | cons doc rest ih =>
    unfold writtenCount
    split
    · simpa using ih (coll++[doc]) (i+1)
    · simp

/-- Writing adds exactly the documents before the first refusal, and reports
success when that is all of them. -/
theorem writeAll_eq {schema : Schema} (env : Env) (coll : List (Document schema))
    (i : ℕ) (docs : List (Document schema)) :
    writeAll env coll i docs =
      (coll++docs.take (writtenCount env coll i docs),
        decide (writtenCount env coll i docs = docs.length)) := by
  induction docs generalizing coll i with
  | nil => simp [writeAll,writtenCount]
  | cons doc rest ih =>
    unfold writeAll writtenCount
    split
    · rw [ih]
      simp
    · simp

/-- The element after the written ones is the one the database refused. -/
theorem writtenCount_refused {schema : Schema} (env : Env) (coll : List (Document schema))
    (i : ℕ) (docs : List (Document schema)) (h : writtenCount env coll i docs < docs.length) :
    writable env (coll++docs.take (writtenCount env coll i docs))
      (i+writtenCount env coll i docs) docs[writtenCount env coll i docs] = false := by
  induction docs generalizing coll i with
  | nil => simp at h
  | cons doc rest ih =>
    by_cases hw : writable env coll i doc = true
    · have hstep : writtenCount env coll i (doc::rest) =
          writtenCount env (coll++[doc]) (i+1) rest+1 := by rw [writtenCount,if_pos hw]
      simp only [hstep,List.length_cons,Nat.add_lt_add_iff_right] at h
      have hrec := ih (coll++[doc]) (i+1) h
      simp only [hstep,List.take_succ_cons,List.getElem_cons_succ]
      rw [← hrec]
      congr 1
      · simp
      · omega
    · have hstop : writtenCount env coll i (doc::rest) = 0 := by rw [writtenCount,if_neg hw]
      simpa [hstop] using hw

/-- The outside behaves: no storage error, and generated ids are new. -/
structure Env.Healthy {schema : Schema} (env : Env) (coll : List (Document schema)) : Prop where
  /-- No write fails for a reason of its own. -/
  writes : ∀ i, env.writeFails i = false
  /-- Reads succeed. -/
  reads : env.readFails = false
  /-- Two positions of one batch get different ids. -/
  distinct : ∀ i j, env.newId i = env.newId j → i = j
  /-- No stored document has a generated id. -/
  unused : ∀ i, ∀ doc ∈ coll, doc.id ≠ env.newId i

/-- A batch whose ids are all generated is written whole when the outside
behaves. -/
theorem writtenCount_of_generated {schema : Schema} {env : Env}
    (hw : ∀ i, env.writeFails i = false)
    (hd : ∀ i j, env.newId i = env.newId j → i = j) (docs : List (Document schema))
    (coll : List (Document schema)) (i : ℕ)
    (hids : ∀ k, (hk : k < docs.length) → docs[k].id = env.newId (i+k))
    (hcoll : ∀ k, ∀ doc ∈ coll, doc.id ≠ env.newId (i+k)) :
    writtenCount env coll i docs = docs.length := by
  induction docs generalizing coll i with
  | nil => rfl
  | cons doc rest ih =>
    have hid : doc.id = env.newId i := hids 0 (by simp)
    have hwrite : writable env coll i doc = true := by
      simp only [writable,hw i,Bool.not_false,Bool.true_and,List.all_eq_true]
      intro d hd'
      simpa [hid] using hcoll 0 d hd'
    rw [writtenCount,if_pos hwrite,List.length_cons]
    congr 1
    apply ih
    · intro k hk
      have hnext := hids (k+1) (by simpa using hk)
      rw [List.getElem_cons_succ] at hnext
      rw [hnext]
      congr 1
      omega
    · intro k d hmem
      rcases List.mem_append.mp hmem with hmem | hmem
      · have hne := hcoll (k+1) d hmem
        rwa [show i+(k+1) = i+1+k by omega] at hne
      · rw [List.mem_singleton.mp hmem,hid]
        intro he
        have hik := hd _ _ he
        omega

/-- The field by which `find().sort({ createdAt: -1 })` orders; a missing or
null date sorts last. -/
def createdAtKey {schema : Schema} (doc : Document schema) : WithBot ℤ :=
  match doc.value? "createdAt" with
  | some (.date t) => (t : WithBot ℤ)
  | _ => ⊥

/-- `Model.find().sort({ createdAt: -1 })`. The database leaves the order of
equal dates open; nothing here depends on it. -/
def find {schema : Schema} (coll : List (Document schema)) : List (Document schema) :=
  sortDesc createdAtKey coll

/-- A query returns every document once. -/
theorem find_perm {schema : Schema} (coll : List (Document schema)) :
    (find coll).Perm coll := sortDesc_perm _ _

/-- The JSON form of a stored value. -/
def Mongoose.renderValue (lib : Mongoose) : StoredValue → Json
  | .null => .null
  | .str s => .str s
  | .date d => .str (lib.isoOfDate d)

/-- The members of a document's JSON form, with its id and version key. -/
def Mongoose.members (lib : Mongoose) {schema : Schema} (doc : Document schema) :
    List (String×Json) :=
  ("_id",.str (lib.hexOfId doc.id))::
    (doc.values.map (fun e => (e.1,lib.renderValue e.2))++[("__v",.int 0)])

/-- The JSON form of a document. -/
def Mongoose.render (lib : Mongoose) {schema : Schema} (doc : Document schema) : Json :=
  .obj (lib.members doc)

/-- A field of the JSON form is the rendered value at its path. -/
theorem Mongoose.members_lookup (lib : Mongoose) {schema : Schema} (doc : Document schema)
    {name : String} (hid : name ≠ "_id") (hv : name ≠ "__v") :
    (lib.members doc).lookup name = (doc.value? name).map lib.renderValue := by
  have hbid : (name == "_id") = false := by simpa using hid
  have hbv : (name == "__v") = false := by simpa using hv
  have hmap : ∀ l : List (String×StoredValue),
      (l.map (fun e => (e.1,lib.renderValue e.2))).lookup name =
        (l.lookup name).map lib.renderValue := by
    intro l
    induction l with
    | nil => rfl
    | cons e l ih =>
      rw [List.map_cons,List.lookup_cons,List.lookup_cons,ih]
      cases name == e.1 <;> rfl
  rw [members,List.lookup_cons,hbid]
  simp only [List.lookup_append,hmap,List.lookup_cons,hbv,List.lookup_nil,Option.or_none]
  rfl

/-- The same read through the JSON form. -/
theorem Mongoose.render_member? (lib : Mongoose) {schema : Schema} (doc : Document schema)
    {name : String} (hid : name ≠ "_id") (hv : name ≠ "__v") :
    (lib.render doc).member? name = (doc.value? name).map lib.renderValue :=
  lib.members_lookup doc hid hv

/-- A string at a String path is stored as it is. -/
theorem Mongoose.castPath_str {lib : Mongoose} {now : Date} {path : SchemaPath}
    {members : List (String×Json)} {s : String} (ht : path.type = .string)
    (hl : members.lookup path.name = some (.str s)) (hr : path.required = true → s ≠ "") :
    lib.castPath now path members = some (some (.str s)) := by
  unfold castPath
  simp only [hl,castValue,ht,lib.castString_str,Option.map_some,Option.elim_some]
  cases hreq : path.required with
  | false => rfl
  | true => simp [StoredValue.present,hr hreq]

end Senca.MongooseStore
