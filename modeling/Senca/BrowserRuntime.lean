import Mathlib.Data.List.Infix
import Mathlib.Data.List.Perm.Basic
import Mathlib.Data.Rat.Defs
import Mathlib.Tactic.Common
import Senca.ConsistentSort
import Senca.FaultLoops
import Senca.JsonValue

/-!
# The part of JavaScript the client pages run on

Thrown errors, truthiness, substring tests, the conversions behind
`new Date(value)` and `Array.prototype.sort` with a comparator that may
throw. Case folding, date parsing, number formatting and the sort are
parameters: the language leaves the order of an inconsistent comparator
open, so of a sort only the documented laws are used.
-/

namespace Senca.BrowserRuntime

open ConsistentSort FaultLoops JsonValue

/-- A thrown `TypeError`. -/
structure JsError where
  /-- Its message. -/
  message : String
  deriving DecidableEq

/-- A computation that may throw. -/
abbrev Js := Except JsError

/-- The library functions the pages call. -/
structure Browser where
  /-- `s.toLowerCase()`. -/
  toLowerCase : String → String
  /-- The instant a date text denotes, none for an invalid date. -/
  parseDate : String → Option ℤ
  /-- The instant of a number of milliseconds, none out of range. -/
  timeClip : ℚ → Option ℤ
  /-- The text of a number. -/
  numberText : ℚ → String
  /-- `items.sort(compare)`; a comparator answers a number, none for NaN. -/
  sort : {α : Type} → (α → α → Js (Option ℤ)) → List α → Js (List α)
  /-- The empty text has no letters to fold. -/
  toLowerCase_empty : toLowerCase "" = ""
  /-- Fewer than two items are never compared. -/
  sort_short : ∀ {α : Type} (compare : α → α → Js (Option ℤ)) (items : List α),
    items.length ≤ 1 → sort compare items = .ok items
  /-- A sort throws only what its comparator throws, and only reorders. -/
  sort_returns : ∀ {α : Type} (compare : α → α → Js (Option ℤ)) (items : List α),
    (∀ a ∈ items, ∀ b ∈ items, (compare a b).isOk = true) →
      ∃ sorted, sort compare items = .ok sorted ∧ sorted.Perm items
  /-- Each of two or more items is compared with another one. -/
  sort_throws : ∀ {α : Type} (compare : α → α → Js (Option ℤ)) (items : List α) (a : α),
    2 ≤ items.length → a ∈ items →
      (∀ b, (compare a b).isOk = false ∧ (compare b a).isOk = false) →
      (sort compare items).isOk = false

/-- `hay.includes(needle)`. Both are sequences of scalar values, so a match
of code units is a match of characters. -/
def includes (hay needle : String) : Bool := decide (needle.toList <:+: hay.toList)

theorem includes_empty (hay : String) : includes hay "" = true := by
  simp [includes]

/-- The truth value of a property read, none being undefined. -/
def truthy : Option Json → Bool
  | none => false
  | some .null => false
  | some (.bool b) => b
  | some (.int n) => n ≠ 0
  | some (.float q) => q ≠ 0
  | some (.str s) => s ≠ ""
  | some _ => true

/-- `a || b || …`: the first truthy operand, else the last one. -/
def firstTruthy : List (Option Json) → Option Json
  | [] => none
  | [last] => last
  | value::rest => if truthy value then value else firstTruthy rest

/-! ### Conversion to text -/

/-- Join prints null as the empty text. -/
def isNull : Json → Bool
  | .null => true
  | _ => false

mutual

/-- `String(value)` of a parsed JSON value. An own member named toString is
never a function, and an object without a usable one has no primitive value. -/
def textOf (browser : Browser) : Json → Js String
  | .null => pure "null"
  | .bool b => pure (if b then "true" else "false")
  | .int n => pure (browser.numberText n)
  | .float q => pure (browser.numberText q)
  | .str s => pure s
  | .arr items => do
    let texts ← textsOf browser items
    pure (",".intercalate texts)
  | .obj members =>
    if (members.lookup "toString").isSome then
      throw ⟨"Cannot convert object to primitive value"⟩
    else pure "[object Object]"

/-- The texts of the items of an array that is joined. -/
def textsOf (browser : Browser) : List Json → Js (List String)
  | [] => pure []
  | value::rest => do
    let text ← bif isNull value then pure "" else textOf browser value
    let texts ← textsOf browser rest
    pure (text::texts)

end

mutual

/-- The value is, or holds in an array, an object with a member named
toString. -/
def hidesToString : Json → Bool
  | .obj members => (members.lookup "toString").isSome
  | .arr items => anyHidesToString items
  | _ => false

/-- Some item of an array hides toString. -/
def anyHidesToString : List Json → Bool
  | [] => false
  | value::rest => hidesToString value || anyHidesToString rest

end

/-- Of two computations in a row both must return. -/
theorem isOk_bind {α β : Type} (x : Js α) (f : α → Js β) (b : Bool)
    (hf : ∀ a, (f a).isOk = b) : (x >>= f).isOk = (x.isOk && b) := by
  cases x with
  | error e => rfl
  | ok a => exact hf a

mutual

/-- Exactly the values that hide no toString have a text. -/
theorem textOf_isOk (browser : Browser) : ∀ value : Json,
    (textOf browser value).isOk = !hidesToString value
  | .null => rfl
  | .bool _ => rfl
  | .int _ => rfl
  | .float _ => rfl
  | .str _ => rfl
  | .arr items => by
    rw [textOf,hidesToString,isOk_bind _ _ true fun _ => rfl,Bool.and_true]
    exact textsOf_isOk browser items
  | .obj members => by
    rw [textOf,hidesToString]
    cases (members.lookup "toString").isSome <;> rfl

/-- The same of an array that is joined. -/
theorem textsOf_isOk (browser : Browser) : ∀ items : List Json,
    (textsOf browser items).isOk = !anyHidesToString items
  | [] => rfl
  | value::rest => by
    have hrest := textsOf_isOk browser rest
    have hvalue := textOf_isOk browser value
    rw [textsOf,anyHidesToString,isOk_bind _ _ (!anyHidesToString rest) fun _ => by
      rw [isOk_bind _ _ true fun _ => rfl,hrest,Bool.and_true],Bool.not_or]
    congr 1
    cases value with
    | null => rfl
    | _ => exact hvalue

end

/-- `new Date(value)` of a value that is there, none an invalid date. -/
def newDate (browser : Browser) : Json → Js (Option ℤ)
  | .str s => pure (browser.parseDate s)
  | .int n => pure (browser.timeClip n)
  | .float q => pure (browser.timeClip q)
  | .bool b => pure (browser.timeClip (if b then 1 else 0))
  | .null => pure (browser.timeClip 0)
  | .arr items => browser.parseDate <$> textOf browser (.arr items)
  | .obj members => browser.parseDate <$> textOf browser (.obj members)

theorem isOk_map {α β : Type} (f : α → β) (x : Js α) : (f <$> x).isOk = x.isOk := by
  cases x <;> rfl

theorem some_map_ne {α : Type} (x : Js α) : some <$> x ≠ .ok none := by
  cases x <;> exact fun h => nomatch h

/-- A date is made of every value that hides no toString. -/
theorem newDate_isOk (browser : Browser) (value : Json) :
    (newDate browser value).isOk = !hidesToString value := by
  cases value with
  | arr items => rw [newDate,isOk_map,textOf_isOk]
  | obj members => rw [newDate,isOk_map,textOf_isOk]
  | _ => rfl

/-! ### A sort that satisfies the laws -/

section InsertionSort

variable {α : Type} {compare : α → α → Js (Option ℤ)}

/-- Insert before the first item that does not compare below. -/
def insertBy (compare : α → α → Js (Option ℤ)) (a : α) : List α → Js (List α)
  | [] => pure [a]
  | b::rest => do
    let order ← compare b a
    if order.any (· < 0) then
      let inserted ← insertBy compare a rest
      pure (b::inserted)
    else pure (a::b::rest)

/-- Insertion sort, stable for a consistent comparator. -/
def insertionSort (compare : α → α → Js (Option ℤ)) : List α → Js (List α)
  | [] => pure []
  | a::rest => do
    let sorted ← insertionSort compare rest
    insertBy compare a sorted

theorem insertBy_returns {a : α} {items : List α}
    (h : ∀ b ∈ items, (compare b a).isOk = true) :
    ∃ inserted, insertBy compare a items = .ok inserted ∧ inserted.Perm (a::items) := by
  induction items with
  | nil => exact ⟨[a],rfl,.refl _⟩
  | cons b rest ih =>
    obtain ⟨inserted,hi,hp⟩ := ih fun c hc => h c (List.mem_cons_of_mem b hc)
    have hb := h b List.mem_cons_self
    cases hc : compare b a with
    | error e =>
      rw [hc] at hb
      cases hb
    | ok order =>
      by_cases ho : order.any (· < 0) = true
      · refine ⟨b::inserted,?_,(hp.cons b).trans (.swap a b rest)⟩
        simp only [insertBy,hc,ok_bind,ho,if_true,hi,pure,Except.pure]
      · refine ⟨a::b::rest,?_,.refl _⟩
        simp only [insertBy,hc,ok_bind,ho,pure,Except.pure]
        rfl

theorem insertionSort_returns (items : List α)
    (h : ∀ a ∈ items, ∀ b ∈ items, (compare a b).isOk = true) :
    ∃ sorted, insertionSort compare items = .ok sorted ∧ sorted.Perm items := by
  induction items with
  | nil => exact ⟨[],rfl,.refl _⟩
  | cons a rest ih =>
    obtain ⟨sorted,hs,hp⟩ := ih fun b hb c hc =>
      h b (List.mem_cons_of_mem a hb) c (List.mem_cons_of_mem a hc)
    have hbelow : ∀ b ∈ sorted, (compare b a).isOk = true := fun b hb =>
      h b (List.mem_cons_of_mem a (hp.mem_iff.mp hb)) a List.mem_cons_self
    obtain ⟨inserted,hi,hpi⟩ := insertBy_returns hbelow
    refine ⟨inserted,?_,hpi.trans (hp.cons a)⟩
    rw [insertionSort,hs,ok_bind,hi]

theorem insertBy_throws {a b : α} {rest : List α} (h : (compare b a).isOk = false) :
    (insertBy compare a (b::rest)).isOk = false := by
  rw [insertBy]
  cases hc : compare b a with
  | error e => rfl
  | ok order =>
    rw [hc] at h
    cases h

theorem insertBy_length {a : α} {items inserted : List α}
    (h : insertBy compare a items = .ok inserted) : inserted.length = items.length+1 := by
  induction items generalizing inserted with
  | nil =>
    cases h
    rfl
  | cons b rest ih =>
    obtain ⟨order,-,hrest⟩ := bind_eq_ok.mp h
    split at hrest
    · obtain ⟨inserted',hi,hcons⟩ := bind_eq_ok.mp hrest
      cases hcons
      rw [List.length_cons,List.length_cons,ih hi]
    · cases hrest
      rfl

theorem insertionSort_length {items sorted : List α}
    (h : insertionSort compare items = .ok sorted) : sorted.length = items.length := by
  induction items generalizing sorted with
  | nil =>
    cases h
    rfl
  | cons a rest ih =>
    obtain ⟨sorted',hs,hi⟩ := bind_eq_ok.mp h
    rw [insertBy_length hi,ih hs,List.length_cons]

theorem insertionSort_throws (items : List α) (a : α) (hlen : 2 ≤ items.length)
    (ha : a ∈ items) (h : ∀ b, (compare a b).isOk = false ∧ (compare b a).isOk = false) :
    (insertionSort compare items).isOk = false := by
  induction items with
  | nil => cases ha
  | cons b rest ih =>
    rw [insertionSort]
    cases hs : insertionSort compare rest with
    | error e => rfl
    | ok sorted =>
      have hsorted := insertionSort_length hs
      rw [List.length_cons] at hlen
      -- the throwing item is inserted itself, or it already stands alone in the rest
      rcases List.mem_cons.mp ha with rfl | hrest
      · cases sorted with
        | nil =>
          rw [List.length_nil] at hsorted
          omega
        | cons c sorted => exact insertBy_throws (h c).2
      · rcases Nat.lt_or_ge rest.length 2 with hshort | hlong
        · obtain ⟨c,rfl⟩ := List.length_eq_one_iff.mp (show rest.length = 1 by omega)
          obtain rfl := List.mem_singleton.mp hrest
          cases hs
          exact insertBy_throws (h b).1
        · have hthrows := ih hlong hrest
          rw [hs] at hthrows
          cases hthrows

end InsertionSort

/-- A browser on ASCII texts, whole numbers and two dates. -/
def sampleBrowser : Browser where
  toLowerCase s := String.ofList (s.toList.map Char.toLower)
  parseDate text :=
    if text = "2025-02-01T12:00:00.000Z" then some 1738411200000
    else if text = "2025-02-02T12:00:00.000Z" then some 1738497600000
    else none
  timeClip q :=
    if -8640000000000000 ≤ q ∧ q ≤ 8640000000000000 then some (q.num.tdiv q.den) else none
  numberText q := toString q.num
  sort := insertionSort
  toLowerCase_empty := rfl
  sort_short compare items h := by
    cases items with
    | nil => rfl
    | cons a rest =>
      obtain rfl : rest = [] := List.length_eq_zero_iff.mp (by rw [List.length_cons] at h; omega)
      rfl
  sort_returns _ items h := insertionSort_returns items h
  sort_throws _ items a hlen ha h := insertionSort_throws items a hlen ha h

/-! ### Sorting with a consistent comparator -/

/-- The number a comparator answers; NaN counts as 0. -/
def comparison {α : Type} (compare : α → α → Js (Option ℤ)) (a b : α) : ℤ :=
  match compare a b with
  | .ok (some n) => n
  | _ => 0

/-- A comparator that answers on all items of a list, consistently. -/
structure ConsistentComparator {α : Type} (compare : α → α → Js (Option ℤ))
    (items : List α) : Prop where
  /-- It does not throw. -/
  returns : ∀ a ∈ items, ∀ b ∈ items, (compare a b).isOk = true
  /-- Its signs are those of a preorder. -/
  consistent : Consistent (comparison compare) items

/-- A browser whose sort keeps the promise of the language for consistent
comparators. -/
structure SortingBrowser extends Browser where
  /-- The result is the stable sort of the list. -/
  sort_consistent : ∀ {α : Type} (compare : α → α → Js (Option ℤ)) (items sorted : List α),
    ConsistentComparator compare items → sort compare items = .ok sorted →
      StableSorted (comparison compare) items sorted

section InsertionSort

variable {α : Type} {compare : α → α → Js (Option ℤ)}

theorem insertBy_eq {a : α} {items : List α} (h : ∀ b ∈ items, (compare b a).isOk = true) :
    insertBy compare a items = .ok (items.orderedInsert (MayPrecede (comparison compare)) a) := by
  induction items with
  | nil => rfl
  | cons b rest ih =>
    have hb := h b List.mem_cons_self
    rw [insertBy]
    cases hc : compare b a with
    | error e =>
      rw [hc] at hb
      cases hb
    | ok order =>
      have hbelow : order.any (· < 0) = true ↔ comparison compare b a < 0 := by
        rw [comparison,hc]
        cases order with
        | none => decide
        | some n => simp
      rw [ok_bind]
      by_cases hn : comparison compare b a < 0
      · have hprecede : ¬MayPrecede (comparison compare) a b := not_not.mpr hn
        rw [if_pos (hbelow.mpr hn),ih fun c hc => h c (List.mem_cons_of_mem b hc),ok_bind,
          List.orderedInsert_of_not_le _ _ hprecede]
        rfl
      · have hprecede : MayPrecede (comparison compare) a b := hn
        rw [if_neg (mt hbelow.mp hn),List.orderedInsert_cons_of_le _ _ hprecede]
        rfl

/-- Insertion sort with a comparator that answers is the sort of lists. -/
theorem insertionSort_eq {items : List α}
    (h : ∀ a ∈ items, ∀ b ∈ items, (compare a b).isOk = true) :
    insertionSort compare items =
      .ok (items.insertionSort (MayPrecede (comparison compare))) := by
  induction items with
  | nil => rfl
  | cons a rest ih =>
    rw [insertionSort,ih fun b hb c hc => h b (List.mem_cons_of_mem a hb) c
      (List.mem_cons_of_mem a hc),ok_bind]
    exact insertBy_eq fun b hb => h b
      (List.mem_cons_of_mem a ((List.mem_insertionSort _).mp hb)) a List.mem_cons_self

end InsertionSort

/-- The sample browser sorts by insertion. -/
def sampleSortingBrowser : SortingBrowser where
  toBrowser := sampleBrowser
  sort_consistent compare items sorted h hsorted := by
    obtain rfl : items.insertionSort (MayPrecede (comparison compare)) = sorted :=
      Except.ok.inj ((insertionSort_eq h.returns).symm.trans hsorted)
    exact insertionSort_stableSorted h.consistent

end Senca.BrowserRuntime
