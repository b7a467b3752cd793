import Mathlib.Data.List.Lex
import Mathlib.Data.List.Sort
import Mathlib.Data.Prod.Lex
import Mathlib.Data.Rat.Defs
import Mathlib.Algebra.Order.Ring.Rat
import Senca.JsonValue

/-!
# The order in which Python sorts decoded values

Numbers compare by value, strings by code point and lists at their first
difference; `<` refuses all other pairs. A value is written as a word of
tokens that closes every list it opens, so no word goes on where another one
ends: words in lexicographic order are values in the order of `<`, and equal
words are equal values. All numbers are finite.
-/

namespace Senca.PythonOrder

open JsonValue

/-! ### Words -/

/-- A letter of a word; the end of a list comes before all that may stand in
its place. -/
inductive Token where
  /-- The end of a list or of a dictionary. -/
  | stop
  /-- A number, also a boolean. -/
  | number (value : ℚ)
  /-- A string. -/
  | text (value : String)
  /-- The beginning of a list. -/
  | bracket
  /-- The beginning of a dictionary. -/
  | brace
  /-- None. -/
  | null
  deriving DecidableEq

/-- The kind of a token, its number and its text. -/
def Token.code : Token → ℕ ×ₗ ℚ ×ₗ String
  | .stop => toLex (0,toLex (0,""))
  | .number q => toLex (1,toLex (q,""))
  | .text s => toLex (2,toLex (0,s))
  | .bracket => toLex (3,toLex (0,""))
  | .brace => toLex (4,toLex (0,""))
  | .null => toLex (5,toLex (0,""))

theorem Token.code_injective : Function.Injective Token.code := by
  intro a b h
  cases a <;> cases b <;> simp_all [Token.code]

instance : LinearOrder Token := LinearOrder.lift' Token.code Token.code_injective

/-- What `list.sort` compares. -/
abbrev SortKey := List Token

mutual

/-- The word of a value. -/
def sortKey : Json → SortKey
  | .null => [.null]
  | .bool b => [.number (if b then 1 else 0)]
  | .int n => [.number n]
  | .float q => [.number q]
  | .str s => [.text s]
  | .arr items => .bracket::itemsKey items
  | .obj members => .brace::(((membersKeys members).insertionSort (fun a b => a.1 ≤ b.1)).flatMap
      (fun m => .text m.1::m.2)++[.stop])

/-- The words of the items of a list, and its end. -/
def itemsKey : List Json → SortKey
  | [] => [.stop]
  | item::rest => sortKey item++itemsKey rest

/-- The keys of a dictionary with the words of their values. -/
def membersKeys : List (String×Json) → List (String×SortKey)
  | [] => []
  | (key,value)::rest => (key,sortKey value)::membersKeys rest

end

/-- A number; booleans are the integers 0 and 1. -/
def isNumber : Json → Bool
  | .bool _ => true
  | .int _ => true
  | .float _ => true
  | _ => false

mutual

/-- Two values that `<` compares. -/
def comparable : Json → Json → Bool
  | .str _,.str _ => true
  | .arr xs,.arr ys => comparableItems xs ys
  | a,b => isNumber a && isNumber b

/-- Two lists are compared at their first difference, if there is one. -/
def comparableItems : List Json → List Json → Bool
  | x::xs,y::ys => if sortKey x = sortKey y then comparableItems xs ys else comparable x y
  | _,_ => true

end

/-- Numbers compare by value. -/
theorem number_le {p q : ℚ} : [Token.number p] ≤ [Token.number q] ↔ p ≤ q := by
  have htoken : Token.number q < Token.number p ↔ q < p := by
    change toLex (1,toLex (q,"")) < toLex (1,toLex (p,"")) ↔ _
    simp [Prod.Lex.toLex_lt_toLex]
  have hword : [Token.number q] < [Token.number p] ↔ q < p := by
    rw [List.cons_lt_cons_iff,htoken]
    simp
  rw [← not_lt,hword,not_lt]

/-! ### No word goes on where another one ends -/

/-- The lists that are open after a token. -/
def Token.depth (opened : ℕ) : Token → ℕ
  | .stop => opened-1
  | .bracket => opened+1
  | .brace => opened+1
  | _ => opened

/-- What follows as soon as no list is open. -/
def scan : ℕ → List Token → Option (List Token)
  | _,[] => none
  | opened,token::rest =>
    if token.depth opened = 0 then some rest else scan (token.depth opened) rest

/-- The word ends with as many open lists as it starts with, and has more on the
way. -/
def Whole (word : List Token) : Prop :=
  ∀ opened rest, scan opened (word++rest) = if opened = 0 then some rest else scan opened rest

/-- The word closes one list. -/
def Closes (word : List Token) : Prop :=
  ∀ opened rest, scan (opened+1) (word++rest) =
    if opened = 0 then some rest else scan opened rest

theorem whole_single {token : Token} (h : ∀ opened, token.depth opened = opened) :
    Whole [token] := by
  intro opened rest
  rw [List.singleton_append,scan,h]

theorem closes_stop : Closes [.stop] := fun _ _ => rfl

theorem Whole.closes {word more : List Token} (h : Whole word) (hmore : Closes more) :
    Closes (word++more) := by
  intro opened rest
  rw [List.append_assoc,h,if_neg (Nat.succ_ne_zero opened)]
  exact hmore opened rest

theorem Closes.whole {token : Token} {word : List Token} (h : Closes word)
    (htoken : ∀ opened, token.depth opened = opened+1) : Whole (token::word) := by
  intro opened rest
  rw [List.cons_append,scan,htoken,if_neg (Nat.succ_ne_zero opened)]
  exact h opened rest

/-- The members of a dictionary, in any order. -/
theorem closes_members {members : List (String×SortKey)} (h : ∀ m ∈ members, Whole m.2) :
    Closes (members.flatMap (fun m => .text m.1::m.2)++[.stop]) := by
  induction members with
  | nil => exact closes_stop
  | cons m members ih =>
    have hkey : Whole [Token.text m.1] := whole_single fun _ => rfl
    have hrest := ih fun n hn => h n (List.mem_cons_of_mem m hn)
    have hall := hkey.closes ((h m List.mem_cons_self).closes hrest)
    rwa [List.flatMap_cons,List.append_assoc]

mutual

/-- By recursion on the value. -/
theorem whole_sortKey : ∀ value : Json, Whole (sortKey value)
  | .null => whole_single fun _ => rfl
  | .bool _ => whole_single fun _ => rfl
  | .int _ => whole_single fun _ => rfl
  | .float _ => whole_single fun _ => rfl
  | .str _ => whole_single fun _ => rfl
  | .arr items => (closes_itemsKey items).whole fun _ => rfl
  | .obj members => by
    refine Closes.whole (closes_members fun m hm => ?_) fun _ => rfl
    exact whole_membersKeys members m ((List.mem_insertionSort _).mp hm)

theorem closes_itemsKey : ∀ items : List Json, Closes (itemsKey items)
  | [] => closes_stop
  | item::rest => (whole_sortKey item).closes (closes_itemsKey rest)

theorem whole_membersKeys : ∀ members : List (String×Json),
    ∀ m ∈ membersKeys members, Whole m.2
  | [] => fun _ hm => absurd hm List.not_mem_nil
  | (_,value)::rest => List.forall_mem_cons.mpr
    ⟨whole_sortKey value,whole_membersKeys rest⟩

end

section Words

variable {u v r s : List Token}

/-- A text has one word at its beginning. -/
theorem Whole.unique (hu : Whole u) (hv : Whole v) (h : u++r = v++s) : u = v := by
  have hrest : r = s := by
    have hscan := (hu 0 r).symm.trans ((congrArg (scan 0) h).trans (hv 0 s))
    exact Option.some.inj hscan
  rw [hrest] at h
  exact List.append_cancel_right h

/-- Lists neither of which continues the other compare as their beginnings do. -/
theorem append_lt_of_apart (huv : ¬u <+: v) (hvu : ¬v <+: u) :
    u++r < v++s ↔ u < v := by
  induction u generalizing v with
  | nil => exact absurd List.nil_prefix huv
  | cons a u ih =>
    cases v with
    | nil => exact absurd List.nil_prefix hvu
    | cons b v =>
      rw [List.cons_append,List.cons_append,List.cons_lt_cons_iff,List.cons_lt_cons_iff]
      refine or_congr_right (and_congr_right fun hab => ?_)
      subst hab
      exact ih (fun h => huv (List.cons_prefix_cons.mpr ⟨rfl,h⟩))
        fun h => hvu (List.cons_prefix_cons.mpr ⟨rfl,h⟩)

theorem append_lt_append_left (u : List Token) : u++r < u++s ↔ r < s := by
  induction u with
  | nil => rfl
  | cons a u ih => rw [List.cons_append,List.cons_append,List.cons_lt_cons_self,ih]

/-- Of two texts the first words decide, and when these are equal, what follows. -/
theorem Whole.append_lt_iff (hu : Whole u) (hv : Whole v) :
    u++r < v++s ↔ u < v ∨ u = v ∧ r < s := by
  by_cases huv : u = v
  · subst huv
    rw [append_lt_append_left]
    simp
  · have hapart : ∀ {x y : List Token}, Whole x → Whole y → x ≠ y → ¬x <+: y := by
      rintro x y hx hy hne ⟨t,ht⟩
      exact hne (hx.unique hy (ht.trans (List.append_nil y).symm))
    rw [append_lt_of_apart (hapart hu hv huv) (hapart hv hu (Ne.symm huv))]
    simp [huv]

end Words

/-! ### Lists -/

/-- Lists compare as their items do at the first difference. -/
theorem itemsKey_cons_lt {x y : Json} {xs ys : List Json} :
    itemsKey (x::xs) < itemsKey (y::ys) ↔
      sortKey x < sortKey y ∨ sortKey x = sortKey y ∧ itemsKey xs < itemsKey ys :=
  (whole_sortKey x).append_lt_iff (whole_sortKey y)

theorem stop_lt {token : Token} (h : token ≠ .stop) : .stop < token := by
  cases token with
  | stop => exact absurd rfl h
  | _ => exact Prod.Lex.toLex_lt_toLex.mpr (Or.inl (Nat.succ_pos _))

/-- A list comes before those that continue it. -/
theorem itemsKey_nil_lt (y : Json) (ys : List Json) : itemsKey [] < itemsKey (y::ys) := by
  have hfirst : ∃ token rest, sortKey y = token::rest ∧ token ≠ .stop := by
    cases y <;> exact ⟨_,_,rfl,fun h => nomatch h⟩
  obtain ⟨token,rest,hy,htoken⟩ := hfirst
  change [Token.stop] < sortKey y++itemsKey ys
  rw [hy,List.cons_append]
  exact List.cons_lt_cons_iff.mpr (Or.inl (stop_lt htoken))

example : comparable (.arr [.null,.int 1,.str "a"]) (.arr [.null,.float 1,.int 2]) = false ∧
    comparable (.arr [.null,.int 1,.str "a"]) (.arr [.null,.int 2]) = true := by decide

end Senca.PythonOrder
