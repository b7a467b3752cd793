import Mathlib.Algebra.Order.Floor.Ring
import Mathlib.Data.Rat.Floor
import Mathlib.Data.List.Infix
import Senca.FaultLoops
import Senca.PythonOrder
import Senca.StableRanking

/-!
# The Python operations the scrapers use on decoded JSON

Dictionary access, truth values, iteration, addition, multiplication and
the descending `list.sort`, with the exception each raises on a value of
the wrong kind. What depends on tables or on the platform (Unicode case
mapping, decimal parsing, rounding of floats, dates) is a parameter, so
every result holds for the interpreter that is actually installed.
-/

namespace Senca.PythonRuntime

open FaultLoops JsonValue PythonOrder StableRanking

/-- The exceptions the modelled operations raise. -/
inductive PyError where
  /-- An operand or argument of an unsupported type. -/
  | typeError
  /-- A method looked up on a value that has none of that name. -/
  | attributeError
  /-- A missing dictionary key. -/
  | keyError
  /-- A list index out of range. -/
  | indexError
  /-- A value of the right type that cannot be converted. -/
  | valueError
  /-- An integer too large for a float. -/
  | overflowError
  /-- Any exception of an HTTP client or API library. -/
  | requestError
  deriving DecidableEq

/-- A Python computation: a value or a raised exception. -/
abbrev Py := Except PyError

/-- Built-in functions that are tables or depend on the platform. -/
structure Interpreter where
  /-- `str.lower`. -/
  lower : String → String
  /-- `str.isupper`. -/
  isupper : String → Bool
  /-- `int(s)` on a string; none raises ValueError. -/
  intOfStr : String → Option ℤ
  /-- `float(n)` on an integer; none raises OverflowError. -/
  floatOfInt : ℤ → Option ℚ
  /-- Rounding of a finite float result to the nearest double. -/
  roundFloat : ℚ → ℚ
  /-- `str(v)`, as f-strings format a value. -/
  str : Json → String
  /-- `datetime.strptime(text, format)` in microseconds; none raises ValueError. -/
  strptime : String → String → Option ℤ
  /-- `strftime('%Y-%m-%d')` of an instant in microseconds. -/
  strftimeDate : ℤ → String
  /-- `isoformat()` of an instant in microseconds. -/
  isoformat : ℤ → String
  /-- A string is its own text. -/
  str_str : ∀ s, str (.str s) = s
  /-- Integers of up to 53 bits are floats. -/
  floatOfInt_small : ∀ n : ℤ, n.natAbs ≤ 2^53 → floatOfInt n = some (n : ℚ)

/-- One day, in microseconds. -/
def microsPerDay : ℤ := 86400000000

/-- `datetime.timedelta(days=n)`, in microseconds. -/
def days (n : ℤ) : ℤ := n*microsPerDay

/-- `needle in hay` on strings. -/
def isIn (needle hay : String) : Bool := decide (needle.toList <:+: hay.toList)

/-- `s.startswith(beginning)`. -/
def startswith (s beginning : String) : Bool := decide (beginning.toList <+: s.toList)

/-- `s.count(c)` for one character. -/
def countChar (s : String) (c : Char) : ℕ := s.toList.count c

/-- The truth value of a decoded JSON value. -/
def truthy : Json → Bool
  | .null => false
  | .bool b => b
  | .int n => n ≠ 0
  | .float q => q ≠ 0
  | .str s => s ≠ ""
  | .arr items => !items.isEmpty
  | .obj members => !members.isEmpty

/-- `a or b`. -/
def orElse (a b : Json) : Json := if truthy a then a else b

/-- `value.get(key, default)`: only a dictionary has the method. -/
def get (value : Json) (key : String) (default : Json) : Py Json :=
  match value with
  | .obj members => .ok ((members.lookup key).getD default)
  | _ => .error .attributeError

@[simp] theorem get_obj (members : List (String×Json)) (key : String) (default : Json) :
    get (.obj members) key default = .ok ((members.lookup key).getD default) := rfl

/-- Only an object has members to get. -/
theorem get_eq_ok {value found default : Json} {key : String}
    (h : get value key default = .ok found) :
    ∃ members, value = .obj members ∧ (members.lookup key).getD default = found := by
  cases value with
  | obj members => exact ⟨members,rfl,Except.ok.inj h⟩
  | _ => cases h

theorem get_eq_error {value : Json} (h : isObject value = false) (key : String) (default : Json) :
    get value key default = .error .attributeError := by
  cases value with
  | obj members => cases h
  | _ => rfl

/-- `value[key]` with a string key. -/
def subscript (value : Json) (key : String) : Py Json :=
  match value with
  | .obj members =>
    match members.lookup key with
    | some found => .ok found
    | none => .error .keyError
  | _ => .error .typeError

/-- Only a member can be subscripted. -/
theorem subscript_eq_ok {value found : Json} {key : String} :
    subscript value key = .ok found ↔ value.member? key = some found := by
  unfold subscript Json.member?
  cases value with
  | obj members => cases hl : members.lookup key <;> simp [hl]
  | _ => simp

/-- `value[i]` with an index that is not negative. -/
def subscriptIndex (value : Json) (i : ℕ) : Py Json :=
  match value with
  | .arr items =>
    match items[i]? with
    | some found => .ok found
    | none => .error .indexError
  | .str s =>
    match s.toList[i]? with
    | some c => .ok (.str (String.singleton c))
    | none => .error .indexError
  | .obj _ => .error .keyError
  | _ => .error .typeError

/-- `for x in value`: the items of a list, the keys of a dictionary or the
characters of a string. -/
def iterate : Json → Py (List Json)
  | .arr items => .ok items
  | .obj members => .ok (members.map (fun m => .str m.1))
  | .str s => .ok (s.toList.map (fun c => .str (String.singleton c)))
  | _ => .error .typeError

/-- One key: the body is an object that holds the list or lacks the key. -/
theorem listAt_key {key : String} {body : Json} {items : List Json}
    (h : listAt [key] body = some items) : get body key (.arr []) = .ok (.arr items) := by
  cases body with
  | obj members =>
    cases hl : members.lookup key with
    | none =>
      simp only [listAt,hl,Option.some.injEq] at h
      simp [hl,h]
    | some inner =>
      simp only [listAt,hl] at h
      simp [hl,listAt_nil h]
  | _ => simp [listAt] at h

/-- What is iterated is a list, or else consists of strings. -/
theorem iterate_eq_ok {value : Json} {items : List Json} (h : iterate value = .ok items) :
    value = .arr items ∨ ∀ item ∈ items, ∃ s, item = .str s := by
  cases value with
  | arr l => exact Or.inl (congrArg Json.arr (Except.ok.inj h))
  | obj members =>
    right
    intro item hitem
    rw [← Except.ok.inj h] at hitem
    obtain ⟨m,-,rfl⟩ := List.mem_map.mp hitem
    exact ⟨m.1,rfl⟩
  | str s =>
    right
    intro item hitem
    rw [← Except.ok.inj h] at hitem
    obtain ⟨c,-,rfl⟩ := List.mem_map.mp hitem
    exact ⟨_,rfl⟩
  | _ => simp [iterate] at h

/-- `len(value)`. -/
def len : Json → Py ℕ
  | .arr items => .ok items.length
  | .obj members => .ok members.length
  | .str s => .ok s.toList.length
  | _ => .error .typeError

/-- `value.lower()`: only a string has the method. -/
def Interpreter.lowerOf (py : Interpreter) : Json → Py String
  | .str s => .ok (py.lower s)
  | _ => .error .attributeError

/-- The string a value is. -/
def asText : Json → Py String
  | .str s => .ok s
  | _ => .error .typeError

theorem asText_eq_ok {value : Json} {text : String} (h : asText value = .ok text) :
    value = .str text := by
  cases value with
  | str s => exact congrArg Json.str (Except.ok.inj h)
  | _ => cases h

/-- `separator.join(items)`: every item is a string. -/
def joinWith (separator : String) (items : List Json) : Py String := do
  let texts ← gather (fun item => do pure [← asText item]) items
  pure (String.intercalate separator texts)

/-- `int(value)`: numbers are truncated, strings parsed. -/
def Interpreter.int (py : Interpreter) : Json → Py ℤ
  | .int n => .ok n
  | .bool b => .ok (if b then 1 else 0)
  | .float q => .ok (if 0 ≤ q then ⌊q⌋ else ⌈q⌉)
  | .str s =>
    match py.intOfStr s with
    | some n => .ok n
    | none => .error .valueError
  | _ => .error .typeError

/-! ### Arithmetic -/

/-- A Python number; booleans are the integers 0 and 1. -/
inductive Num where
  /-- An unbounded integer. -/
  | int (n : ℤ)
  /-- A finite float. -/
  | float (q : ℚ)

/-- The number a JSON value is, when it is one. -/
def num? : Json → Option Num
  | .bool b => some (.int (if b then 1 else 0))
  | .int n => some (.int n)
  | .float q => some (.float q)
  | _ => none

/-- The exact value of a number. -/
def Num.value : Num → ℚ
  | .int n => n
  | .float q => q

/-- Conversion of an operand of float arithmetic. -/
def Interpreter.toFloat (py : Interpreter) : Num → Py ℚ
  | .float q => .ok q
  | .int n =>
    match py.floatOfInt n with
    | some q => .ok q
    | none => .error .overflowError

/-- One arithmetic operation: exact on integers, rounded on floats. -/
def Interpreter.arith (py : Interpreter) (onInt : ℤ → ℤ → ℤ) (onFloat : ℚ → ℚ → ℚ)
    (x y : Num) : Py Json :=
  match x,y with
  | .int m,.int n => .ok (.int (onInt m n))
  | x,y => do
    let p ← py.toFloat x
    let q ← py.toFloat y
    .ok (.float (py.roundFloat (onFloat p q)))

/-- `a + b`: numbers add, strings and lists concatenate. -/
def Interpreter.add (py : Interpreter) (a b : Json) : Py Json :=
  match num? a,num? b with
  | some x,some y => py.arith (·+·) (·+·) x y
  | _,_ =>
    match a,b with
    | .str s,.str t => .ok (.str (s++t))
    | .arr xs,.arr ys => .ok (.arr (xs++ys))
    | _,_ => .error .typeError

/-- Repetition of a string or a list; nothing else repeats. -/
def repeatValue (value : Json) (times : ℤ) : Py Json :=
  match value with
  | .str s => .ok (.str (String.join (List.replicate times.toNat s)))
  | .arr items => .ok (.arr (List.replicate times.toNat items).flatten)
  | _ => .error .typeError

/-- `a * b`: numbers multiply, an integer repeats a string or a list. -/
def Interpreter.mul (py : Interpreter) (a b : Json) : Py Json :=
  match num? a,num? b with
  | some x,some y => py.arith (·*·) (·*·) x y
  | some (.int n),none => repeatValue b n
  | none,some (.int n) => repeatValue a n
  | _,_ => .error .typeError

/-- `items.sort(key=..., reverse=True)`: stable and descending. Where `<`
refuses two of the keys, no other comparison tells their order, so every
sort meets such a pair and raises. A single item is not compared. -/
def sortReverse {α : Type} (score : α → Json) (items : List α) : Py (List α) :=
  if items.length < 2 ∨ ∀ a ∈ items, ∀ b ∈ items, comparable (score a) (score b) = true then
    .ok (sortDesc (fun a => sortKey (score a)) items)
  else .error .typeError

/-- A sort that returns is the stable descending sort by key. -/
theorem sortReverse_eq_ok {α : Type} {score : α → Json} {items sorted : List α} :
    sortReverse score items = .ok sorted ↔
      (items.length < 2 ∨ ∀ a ∈ items, ∀ b ∈ items, comparable (score a) (score b) = true) ∧
        sorted = sortDesc (fun a => sortKey (score a)) items := by
  unfold sortReverse
  split
  · rename_i h
    constructor
    · intro he
      exact ⟨h,(Except.ok.inj he).symm⟩
    · rintro ⟨-,rfl⟩
      rfl
  · rename_i h
    constructor
    · intro he
      cases he
    · rintro ⟨h',-⟩
      exact absurd h' h

/-- Scores that a sort orders without raising. -/
def Sortable (scores : List Json) : Prop :=
  scores.length < 2 ∨ ∀ a ∈ scores, ∀ b ∈ scores, comparable a b = true

/-- A sort returns exactly on such scores. -/
theorem sortReverse_returns {α : Type} {score : α → Json} {items : List α} :
    Returns (sortReverse score items) ↔ Sortable (items.map score) := by
  rw [Sortable,List.length_map,List.forall_mem_map]
  simp only [List.forall_mem_map]
  exact ⟨fun ⟨_,h⟩ => (sortReverse_eq_ok.mp h).1,fun h => ⟨_,sortReverse_eq_ok.mpr ⟨h,rfl⟩⟩⟩

/-- Numeric scores are always comparable. -/
theorem comparable_of_num {a b : Json} (ha : (num? a).isSome = true)
    (hb : (num? b).isSome = true) : comparable a b = true := by
  cases a <;> cases b <;> simp_all [comparable,isNumber,num?]

/-- Sorting by numeric scores returns. -/
theorem sortReverse_returns_of_num {α : Type} {score : α → Json} {items : List α}
    (h : ∀ a ∈ items, (num? (score a)).isSome = true) :
    sortReverse score items = .ok (sortDesc (fun a => sortKey (score a)) items) :=
  sortReverse_eq_ok.mpr ⟨Or.inr (fun a ha b hb => comparable_of_num (h a ha) (h b hb)),rfl⟩

/-- Sorting by float scores is sorting by their values. -/
theorem sortReverse_float {α : Type} (score : α → ℚ) (items : List α) :
    sortReverse (fun a => Json.float (score a)) items = .ok (sortDesc score items) := by
  rw [sortReverse_returns_of_num (fun a _ => rfl)]
  exact congrArg Except.ok (sortDesc_congr (fun _ _ => number_le) items)

/-- The value of a string of decimal digits. -/
def decimalValue (digits : List Char) : Option ℤ :=
  if digits = [] then none
  else digits.foldl (fun acc c => do
    let n ← acc
    if '0' ≤ c ∧ c ≤ '9' then some (10*n+((c.toNat : ℤ)-48)) else none) (some 0)

/-- The built-in functions on sample inputs: ASCII text, plain decimals, floats
that are exact, and the clock at noon on 2025-02-01. -/
def sampleInterpreter : Interpreter where
  lower s := String.ofList (s.toList.map Char.toLower)
  isupper s := s.toList.any Char.isUpper && !s.toList.any Char.isLower
  intOfStr s := decimalValue s.toList
  floatOfInt n := some n
  roundFloat q := q
  str
    | .str s => s
    | .int n => toString n
    | _ => "None"
  strptime text _ := if text = "2025-01-20" then some 1737331200000000 else none
  strftimeDate _ := "2025-01-02"
  isoformat _ := "2025-02-01T12:00:00"
  str_str _ := rfl
  floatOfInt_small _ _ := rfl

end Senca.PythonRuntime
