import Mathlib.Data.Rat.Defs
import Mathlib.Data.String.Basic

/-!
# JSON values shared by the scrapers, the server and the client

One decoded JSON document, with integers and fractional numbers apart as
the Python decoder keeps them apart. An object is the list of its members
in order; a decoder leaves one member for each key, and every lookup here
reads the first.
-/

namespace Senca.JsonValue

/-- A decoded JSON value. -/
inductive Json where
  /-- The literal null. -/
  | null
  /-- A boolean literal. -/
  | bool (value : Bool)
  /-- A number written without fraction or exponent. -/
  | int (value : ℤ)
  /-- Any other number. -/
  | float (value : ℚ)
  /-- A string of Unicode scalar values. -/
  | str (value : String)
  /-- An array. -/
  | arr (items : List Json)
  /-- An object, as the list of its members. -/
  | obj (members : List (String×Json))
  deriving Inhabited

/-- The member under a key, of an object that has it. -/
def Json.member? (value : Json) (key : String) : Option Json :=
  match value with
  | .obj members => members.lookup key
  | _ => none

@[simp] theorem Json.member?_obj (members : List (String×Json)) (key : String) :
    (Json.obj members).member? key = members.lookup key := rfl

/-- Write a member: the old one is dropped and the new one stands last. -/
def setMember (members : List (String×Json)) (key : String) (value : Json) :
    List (String×Json) :=
  members.filter (fun m => m.1 ≠ key) ++ [(key,value)]

/-- Dropping the members under one key hides that key only. -/
theorem lookup_filter_ne (members : List (String×Json)) {key other : String}
    (h : other ≠ key) :
    (members.filter (fun m => m.1 ≠ key)).lookup other = members.lookup other := by
  induction members with
  | nil => rfl
  | cons m members ih =>
    obtain ⟨k,v⟩ := m
    by_cases hk : k = key
    · subst hk
      have hne : (other == k) = false := by simpa using h
      simp only [ne_eq,not_true_eq_false,decide_false,Bool.false_eq_true,not_false_eq_true,
        List.filter_cons_of_neg,List.lookup_cons,hne]
      simpa using ih
    · rw [List.filter_cons_of_pos (by simpa using hk),List.lookup_cons,List.lookup_cons,ih]

/-- After dropping the members under a key, the key is absent. -/
theorem lookup_filter_self (members : List (String×Json)) (key : String) :
    (members.filter (fun m => m.1 ≠ key)).lookup key = none := by
  rw [List.lookup_eq_none_iff]
  intro m hm
  have hne := List.of_mem_filter hm
  simp only [ne_eq,decide_not,Bool.not_eq_eq_eq_not,Bool.not_true,decide_eq_false_iff_not] at hne
  simpa using Ne.symm hne

/-- A written member is read back. -/
@[simp] theorem lookup_setMember_self (members : List (String×Json)) (key : String)
    (value : Json) : (setMember members key value).lookup key = some value := by
  rw [setMember,List.lookup_append,lookup_filter_self]
  simp

/-- Writing one member leaves every other one alone. -/
theorem lookup_setMember_ne (members : List (String×Json)) {key other : String}
    (value : Json) (h : other ≠ key) :
    (setMember members key value).lookup other = members.lookup other := by
  have hne : (other == key) = false := by simpa using h
  rw [setMember,List.lookup_append,lookup_filter_ne members h]
  simp [List.lookup_cons,hne]

/-- An object. -/
def isObject : Json → Bool
  | .obj _ => true
  | _ => false

/-- A string. -/
def isText : Json → Bool
  | .str _ => true
  | _ => false

/-- The list a body holds under a path of keys; an absent key reads as an
empty list. -/
def listAt : List String → Json → Option (List Json)
  | [],.arr items => some items
  | key::rest,.obj members =>
    match members.lookup key with
    | none => some []
    | some inner => listAt rest inner
  | _,_ => none

/-- The empty path leads to the body itself. -/
theorem listAt_nil {body : Json} {items : List Json} (h : listAt [] body = some items) :
    body = .arr items := by
  cases body with
  | arr l => exact congrArg Json.arr (Option.some.inj h)
  | _ => simp [listAt] at h

end Senca.JsonValue
