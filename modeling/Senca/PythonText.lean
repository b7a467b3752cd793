import Senca.TextScanning

/-!
# Python string methods on lists of characters

`strip`, `split` on a separator, `find` with slicing and the one regular
expression the scrapers use, each as a single scan over the characters.
-/

namespace Senca.PythonText

open TextScanning

/-- The characters `str.isspace` and `str.strip` take for whitespace. -/
def isSpace (c : Char) : Bool :=
  let n := c.toNat
  (9 ≤ n && n ≤ 13) || (28 ≤ n && n ≤ 32) || n = 133 || n = 160 || n = 5760 ||
    (8192 ≤ n && n ≤ 8202) || n = 8232 || n = 8233 || n = 8239 || n = 8287 || n = 12288

/-- `text.strip()`. -/
def strip (text : List Char) : List Char := (text.dropWhile isSpace).rdropWhile isSpace

/-- The translation of line ends while text is read; the flag tells whether the
last character was a carriage return. -/
def universalNewlines : Bool → List Char → List Char
  | _,[] => []
  | afterReturn,c::rest =>
    if c = '\r' then '\n'::universalNewlines true rest
    else if c = '\n' ∧ afterReturn = true then universalNewlines false rest
    else c::universalNewlines false rest

/-- The scan of `split`: the part collected so far is kept reversed, and after
a separator its remaining characters are skipped. -/
def splitFrom (sep : List Char) : ℕ → List Char → List Char → List (List Char)
  | _,part,[] => [part.reverse]
  | skip+1,part,_::rest => splitFrom sep skip part rest
  | 0,part,c::rest =>
    if sep.isPrefixOf (c::rest) then part.reverse::splitFrom sep (sep.length-1) [] rest
    else splitFrom sep 0 (c::part) rest

/-- `text.split(sep)` for a nonempty separator. -/
def split (sep text : List Char) : List (List Char) := splitFrom sep 0 [] text

/-- `text[text.find(needle):]`, none when find gives -1. -/
def suffixFrom (needle : List Char) : List Char → Option (List Char)
  | [] => if needle = [] then some [] else none
  | c::rest => if needle.isPrefixOf (c::rest) then some (c::rest) else suffixFrom needle rest

/-- `text[:text.find(needle)]`, the whole text when find gives -1. -/
def textBefore (needle : List Char) : List Char → List Char
  | [] => []
  | c::rest => if needle.isPrefixOf (c::rest) then [] else c::textBefore needle rest

/-- `text.find(needle)`, none for -1. -/
def firstIndex (needle : List Char) : List Char → Option ℕ
  | [] => if needle = [] then some 0 else none
  | c::rest =>
    if needle.isPrefixOf (c::rest) then some 0 else (firstIndex needle rest).map (·+1)

/-- A match of `\[([^\]]+)\]\(([^\)]+)\)` at the start of the text: the two
groups and the number of characters matched. Each class stops at the only
character it excludes, so there is nothing to backtrack into. -/
def linkAt : List Char → Option (List Char×List Char×ℕ)
  | '['::rest =>
    let name := rest.takeWhile (· ≠ ']')
    match rest.dropWhile (· ≠ ']') with
    | ']' :: '(' :: inner =>
      let target := inner.takeWhile (· ≠ ')')
      match inner.dropWhile (· ≠ ')') with
      | ')'::_ =>
        if name = [] ∨ target = [] then none
        else some (name,target,name.length+target.length+4)
      | _ => none
    | _ => none
  | _ => none

/-- The scan of `re.findall`: matches do not overlap. -/
def findLinksFrom : ℕ → List Char → List (List Char×List Char)
  | _,[] => []
  | skip+1,_::rest => findLinksFrom skip rest
  | 0,c::rest =>
    match linkAt (c::rest) with
    | some (name,target,matched) => (name,target)::findLinksFrom (matched-1) rest
    | none => findLinksFrom 0 rest

/-- `re.findall` of the link pattern. -/
def findLinks (text : List Char) : List (List Char×List Char) := findLinksFrom 0 text

/-! ### Stripping -/

/-- Stripping is trimming of whitespace. -/
theorem strip_eq (text : List Char) : strip text = trim isSpace text := rfl

/-! ### Line ends -/

/-- Whether a text, read after what the flag tells of, ends in a carriage return. -/
def endsInReturn : Bool → List Char → Bool
  | afterReturn,[] => afterReturn
  | _,c::rest => endsInReturn (c = '\r') rest

theorem universalNewlines_append (afterReturn : Bool) (a b : List Char) :
    universalNewlines afterReturn (a++b) =
      universalNewlines afterReturn a++universalNewlines (endsInReturn afterReturn a) b := by
  induction a generalizing afterReturn with
  | nil => rfl
  | cons c a ih =>
    rw [List.cons_append,universalNewlines,universalNewlines,endsInReturn]
    by_cases hreturn : c = '\r'
    · rw [if_pos hreturn,if_pos hreturn,ih,decide_eq_true hreturn,List.cons_append]
    · rw [if_neg hreturn,if_neg hreturn,ih,decide_eq_false hreturn]
      split <;> rfl

/-- A character that is no line end stays, and separates line ends. -/
theorem universalNewlines_cons {c : Char} (hreturn : c ≠ '\r') (hfeed : c ≠ '\n')
    (afterReturn : Bool) (rest : List Char) :
    universalNewlines afterReturn (c::rest) = c::universalNewlines false rest := by
  rw [universalNewlines,if_neg hreturn,if_neg fun h => hfeed h.1]

/-- No carriage return is left. -/
theorem return_notMem_universalNewlines (afterReturn : Bool) (text : List Char) :
    '\r' ∉ universalNewlines afterReturn text := by
  induction text generalizing afterReturn with
  | nil => exact List.not_mem_nil
  | cons c rest ih =>
    rw [universalNewlines]
    split
    · exact List.not_mem_cons_of_ne_of_not_mem (by decide) (ih true)
    · rename_i hreturn
      split
      · exact ih false
      · exact List.not_mem_cons_of_ne_of_not_mem (Ne.symm hreturn) (ih false)

/-- Exactly the texts without carriage returns stay as they are. -/
theorem universalNewlines_eq_self {text : List Char} :
    universalNewlines false text = text ↔ '\r' ∉ text := by
  constructor
  · intro h
    rw [← h]
    exact return_notMem_universalNewlines false text
  · intro h
    induction text with
    | nil => rfl
    | cons c rest ih =>
      obtain ⟨hc,hrest⟩ := not_or.mp (mt List.mem_cons.mpr h)
      rw [universalNewlines,if_neg (Ne.symm hc),if_neg (fun h => nomatch h.2),ih hrest]

/-- Translation and stripping may change places at the left end, -/
theorem dropWhile_universalNewlines (afterReturn : Bool) (text : List Char) :
    (universalNewlines afterReturn text).dropWhile isSpace =
      universalNewlines false (text.dropWhile isSpace) := by
  induction text generalizing afterReturn with
  | nil => rfl
  | cons c rest ih =>
    by_cases hc : isSpace c = true
    · rw [List.dropWhile_cons_of_pos hc,universalNewlines]
      split
      · rw [List.dropWhile_cons_of_pos (by decide),ih]
      · split
        · exact ih false
        · rw [List.dropWhile_cons_of_pos hc,ih]
    · have hreturn : c ≠ '\r' := fun h => hc (by rw [h]; decide)
      have hfeed : c ≠ '\n' := fun h => hc (by rw [h]; decide)
      rw [List.dropWhile_cons_of_neg hc,universalNewlines_cons hreturn hfeed,
        universalNewlines_cons hreturn hfeed,List.dropWhile_cons_of_neg hc]

/-- and at the right one. -/
theorem rdropWhile_universalNewlines (afterReturn : Bool) (text : List Char) :
    (universalNewlines afterReturn text).rdropWhile isSpace =
      universalNewlines afterReturn (text.rdropWhile isSpace) := by
  induction text using List.reverseRecOn with
  | nil => rfl
  | append_singleton text c ih =>
    rw [universalNewlines_append]
    by_cases hc : isSpace c = true
    · have hspace : ∀ d ∈ universalNewlines (endsInReturn afterReturn text) [c],
          isSpace d = true := by
        intro d hd
        rw [universalNewlines] at hd
        split at hd
        · rw [List.mem_singleton.mp hd]
          decide
        · split at hd
          · cases hd
          · rwa [List.mem_singleton.mp hd]
      rw [rdropWhile_append hspace,ih,List.rdropWhile_concat_pos _ _ _ hc]
    · have hreturn : c ≠ '\r' := fun h => hc (by rw [h]; decide)
      have hfeed : c ≠ '\n' := fun h => hc (by rw [h]; decide)
      rw [List.rdropWhile_concat_neg _ _ _ hc,universalNewlines_append,
        universalNewlines_cons hreturn hfeed]
      exact List.rdropWhile_concat_neg _ _ _ hc

theorem strip_universalNewlines (text : List Char) :
    strip (universalNewlines false text) = universalNewlines false (strip text) := by
  rw [strip,dropWhile_universalNewlines,rdropWhile_universalNewlines,strip]

/-- A word without line ends begins a translated text when it begins the text. -/
theorem prefix_universalNewlines {word text : List Char} (hreturn : '\r' ∉ word)
    (hfeed : '\n' ∉ word) : word <+: universalNewlines false text ↔ word <+: text := by
  induction word generalizing text with
  | nil => simp
  | cons c word ih =>
    obtain ⟨hc,hword⟩ := not_or.mp (mt List.mem_cons.mpr hreturn)
    obtain ⟨hc',hword'⟩ := not_or.mp (mt List.mem_cons.mpr hfeed)
    cases text with
    | nil => rfl
    | cons d rest =>
      rw [universalNewlines,if_neg fun h : d = '\n' ∧ _ => nomatch h.2]
      split
      · rename_i hd
        rw [List.cons_prefix_cons,List.cons_prefix_cons,hd]
        exact iff_of_false (fun h => hc' h.1.symm) fun h => hc h.1.symm
      · rw [List.cons_prefix_cons,List.cons_prefix_cons,ih hword hword']

/-- It occurs in a translated text when it occurs in the text. -/
theorem infix_universalNewlines {word : List Char} (hne : word ≠ []) (hreturn : '\r' ∉ word)
    (hfeed : '\n' ∉ word) (afterReturn : Bool) (text : List Char) :
    word <:+: universalNewlines afterReturn text ↔ word <:+: text := by
  have hnot : ∀ {c : Char} {rest}, c ∉ word → ¬word <+: c::rest := by
    rintro c rest hc ⟨t,ht⟩
    cases word with
    | nil => exact hne rfl
    | cons d word => exact hc (by rw [List.cons_append,List.cons.injEq] at ht; simp [ht.1])
  induction text generalizing afterReturn with
  | nil => rfl
  | cons c rest ih =>
    rw [List.infix_cons_iff]
    by_cases hc : c = '\r'
    · rw [universalNewlines,if_pos hc,List.infix_cons_iff]
      exact or_congr (iff_of_false (hnot hfeed) (hnot (hc ▸ hreturn))) (ih true)
    by_cases hc' : c = '\n' ∧ afterReturn = true
    · rw [universalNewlines,if_neg hc,if_pos hc']
      exact (ih false).trans ⟨Or.inr,fun h => h.resolve_left (hnot (hc'.1 ▸ hfeed))⟩
    · have hcons : universalNewlines false (c::rest) = c::universalNewlines false rest := by
        rw [universalNewlines,if_neg hc,if_neg (fun h => nomatch h.2)]
      rw [universalNewlines,if_neg hc,if_neg hc',List.infix_cons_iff]
      refine or_congr ?_ (ih false)
      rw [← hcons]
      exact prefix_universalNewlines hreturn hfeed

/-! ### Splitting -/

theorem splitFrom_skip {sep part skipped rest : List Char} :
    splitFrom sep skipped.length part (skipped++rest) = splitFrom sep 0 part rest := by
  induction skipped with
  | nil => rfl
  | cons c skipped ih => exact ih

theorem splitFrom_ne_nil (sep : List Char) (skip : ℕ) (part text : List Char) :
    splitFrom sep skip part text ≠ [] := by
  fun_induction splitFrom sep skip part text with
  | case1 => exact List.cons_ne_nil _ _
  | case2 _ _ _ _ ih => exact ih
  | case3 => exact List.cons_ne_nil _ _
  | case4 _ _ _ _ ih => exact ih

/-- A text without the separator is one part. -/
theorem splitFrom_of_absent {sep text : List Char} (h : ¬sep <:+: text)
    (part : List Char) : splitFrom sep 0 part text = [part.reverse++text] := by
  induction text generalizing part with
  | nil => simp [splitFrom]
  | cons c rest ih =>
    rw [List.infix_cons_iff,not_or] at h
    rw [splitFrom,if_neg (by simpa [List.isPrefixOf_iff_prefix] using h.1),ih h.2]
    simp

/-- A separator whose first letter does not return splits the texts on its two
sides apart. -/
theorem splitFrom_append (sep : Marker Char) (a b : List Char) {skip : ℕ}
    (h : skip ≤ a.length) (part : List Char) :
    splitFrom sep.word skip part (a++sep.word++b) =
      splitFrom sep.word skip part a++split sep.word b := by
  induction a generalizing skip part with
  | nil =>
    obtain rfl : skip = 0 := by simpa using h
    have hfound : sep.word.isPrefixOf (sep.lead::(sep.rest++b)) = true :=
      List.isPrefixOf_iff_prefix.mpr (List.prefix_append sep.word b)
    change splitFrom sep.word 0 part (sep.lead::(sep.rest++b)) = _
    rw [splitFrom.eq_3,if_pos hfound,Marker.length_word,Nat.add_sub_cancel,splitFrom_skip]
    rfl
  | cons c a ih =>
    cases skip with
    | succ skip => exact ih (Nat.le_of_succ_le_succ h) part
    | zero =>
      have hstarts : sep.word.isPrefixOf (c::a++sep.word++b) = sep.word.isPrefixOf (c::a) := by
        rw [Bool.eq_iff_iff,List.isPrefixOf_iff_prefix,List.isPrefixOf_iff_prefix,
          List.append_assoc]
        exact sep.prefix_append_lead (List.cons_ne_nil c a)
      have hcons : c::a++sep.word++b = c::(a++sep.word++b) := rfl
      rw [hcons] at hstarts ⊢
      rw [splitFrom,splitFrom,hstarts]
      split
      · rename_i hfound
        have hlen : sep.word.length-1 ≤ a.length := by
          have := (List.isPrefixOf_iff_prefix.mp hfound).length_le
          rw [List.length_cons] at this
          omega
        rw [ih hlen []]
        rfl
      · exact ih (Nat.zero_le _) (c::part)

/-- The last part is what follows the last separator. -/
theorem split_last (sep : Marker Char) {a b : List Char} (h : ¬sep.word <:+: b) :
    1 < (split sep.word (a++sep.word++b)).length ∧
      (split sep.word (a++sep.word++b)).getLastD [] = b := by
  have hsplit : split sep.word (a++sep.word++b) = split sep.word a++[b] := by
    rw [split,splitFrom_append sep a b (Nat.zero_le _),split,split,splitFrom_of_absent h]
    rfl
  have hne : split sep.word a ≠ [] := splitFrom_ne_nil sep.word 0 [] a
  rw [hsplit]
  refine ⟨?_,by simp⟩
  rw [List.length_append]
  have := List.length_pos_iff.mpr hne
  simpa using this

/-! ### Finding -/

theorem suffixFrom_eq (needle text : List Char) :
    suffixFrom needle text = (firstIndex needle text).map (text.drop ·) := by
  fun_induction firstIndex needle text with
  | case1 h => simp [suffixFrom,h]
  | case2 h => simp [suffixFrom,h]
  | case3 c rest h => simp [suffixFrom,h]
  | case4 c rest h ih =>
    rw [suffixFrom,if_neg h,ih,Option.map_map]
    rfl

theorem textBefore_eq (needle text : List Char) :
    textBefore needle text = text.take ((firstIndex needle text).getD text.length) := by
  fun_induction firstIndex needle text with
  | case1 => rfl
  | case2 h => rfl
  | case3 c rest h => simp [textBefore,h]
  | case4 c rest h ih =>
    rw [textBefore,if_neg h,ih]
    cases firstIndex needle rest <;> rfl

/-- A text is found no later than at any place it stands at. -/
theorem firstIndex_le {needle text : List Char} {k : ℕ} (h : needle <+: text.drop k) :
    ∃ i ≤ k, firstIndex needle text = some i := by
  induction text generalizing k with
  | nil =>
    rw [List.drop_nil] at h
    exact ⟨0,Nat.zero_le k,if_pos (List.prefix_nil.mp h)⟩
  | cons c rest ih =>
    rw [firstIndex]
    split
    · exact ⟨0,Nat.zero_le k,rfl⟩
    · rename_i hfirst
      cases k with
      | zero => exact absurd (List.isPrefixOf_iff_prefix.mpr h) hfirst
      | succ k =>
        obtain ⟨i,hi,hfound⟩ := ih h
        exact ⟨i+1,Nat.succ_le_succ hi,by rw [hfound]; rfl⟩

example : split "ab".toList "1ab2abb".toList = ["1".toList,"2".toList,"b".toList] := by decide

example : findLinks "x [a](b) [](c) [d] (e) [f\ng](h".toList = [("a".toList,"b".toList)] := by
  decide

end Senca.PythonText
