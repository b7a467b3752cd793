import Mathlib.Data.List.DropRight

/-!
# Trimming texts and finding letters and markers in them

A text is a list of letters of any type. Trimming removes the letters of one
class at both ends. A scan for a letter stops at the first one. A marker is a
word whose first letter does not return in it: an occurrence never overlaps
another one, so occurrences in a concatenation that continues with that letter
lie on one side of the joint.
-/

namespace Senca.TextScanning

variable {α : Type*}

/-! ### Trimming -/

/-- The text without the letters of a class at its two ends. -/
def trim (p : α → Bool) (text : List α) : List α := (text.dropWhile p).rdropWhile p

/-- The text starts and ends with letters outside the class. -/
structure Trimmed (p : α → Bool) (text : List α) : Prop where
  /-- The first letter, of a text that has one. -/
  first : ∀ c ∈ text.head?, p c = false
  /-- The last letter. -/
  last : ∀ c ∈ text.getLast?, p c = false

section Trim

variable {p : α → Bool} {text left right : List α}

theorem dropWhile_of_first (h : ∀ c ∈ text.head?, p c = false) : text.dropWhile p = text := by
  cases text with
  | nil => rfl
  | cons c rest => rw [List.dropWhile_cons,if_neg (by simp [h c (by simp)])]

theorem rdropWhile_of_last (h : ∀ c ∈ text.getLast?, p c = false) : text.rdropWhile p = text := by
  rw [List.rdropWhile_eq_self_iff]
  intro hne
  simp [h (text.getLast hne) (List.getLast?_eq_getLast_of_ne_nil hne)]

/-- The two ends of a given text can be tested. -/
theorem trimmed_of_ends (hfirst : text.head?.any p = false) (hlast : text.getLast?.any p = false) :
    Trimmed p text :=
  ⟨(Option.any_eq_false _ _).mp hfirst,(Option.any_eq_false _ _).mp hlast⟩

/-- A text between two letters outside the class. -/
theorem trimmed_between {c d : α} (hc : p c = false) (hd : p d = false) (text : List α) :
    Trimmed p (c::(text++[d])) where
  first := by
    intro e he
    obtain rfl : c = e := Option.some.inj he
    exact hc
  last := by
    intro e he
    rw [← List.cons_append,List.getLast?_append_of_ne_nil _ (List.cons_ne_nil d [])] at he
    obtain rfl : d = e := Option.some.inj he
    exact hd

/-- Nothing is removed from a trimmed text. -/
theorem trim_eq_self (h : Trimmed p text) : trim p text = text := by
  rw [trim,dropWhile_of_first h.first,rdropWhile_of_last h.last]

theorem trim_append_left (hl : ∀ c ∈ left, p c = true) : trim p (left++text) = trim p text := by
  rw [trim,trim,List.dropWhile_append_of_pos hl]

theorem rdropWhile_append (hr : ∀ c ∈ right, p c = true) :
    (text++right).rdropWhile p = text.rdropWhile p := by
  rw [List.rdropWhile,List.rdropWhile,List.reverse_append,
    List.dropWhile_append_of_pos (by simpa using hr)]

theorem trim_append_right (hr : ∀ c ∈ right, p c = true) :
    trim p (text++right) = trim p text := by
  rw [trim,trim,List.dropWhile_append]
  split
  · rename_i hempty
    -- the text has only letters of the class, so both sides are empty
    have htext : text.dropWhile p = [] := by simpa using hempty
    have hright : right.dropWhile p = [] := by simpa using hr
    rw [htext,hright]
  · exact rdropWhile_append hr

/-- Letters of the class around a text do not change what is left. -/
theorem trim_surround (hl : ∀ c ∈ left, p c = true) (hr : ∀ c ∈ right, p c = true) :
    trim p (left++text++right) = trim p text := by
  rw [trim_append_right hr,trim_append_left hl]

theorem dropWhile_append_of_first (h : ∀ c ∈ text.head?, p c = false) :
    (left++text).dropWhile p = left.dropWhile p++text := by
  rw [List.dropWhile_append]
  split
  · rename_i hempty
    rw [dropWhile_of_first h,List.isEmpty_iff.mp hempty,List.nil_append]
  · rfl

theorem rdropWhile_append_of_last (h : ∀ c ∈ text.getLast?, p c = false) :
    (text++right).rdropWhile p = text++right.rdropWhile p := by
  rw [List.rdropWhile,List.reverse_append,dropWhile_append_of_first (by simpa using h),
    List.reverse_append,List.reverse_reverse]
  rfl

/-- Trimming around a trimmed word stops at the word. -/
theorem trim_around {word : List α} (hne : word ≠ []) (hword : Trimmed p word) (a b : List α) :
    trim p (a++word++b) = a.dropWhile p++word++b.rdropWhile p := by
  have hlast : ∀ c ∈ (a.dropWhile p++word).getLast?, p c = false := by
    rw [List.getLast?_append_of_ne_nil _ hne]
    exact hword.last
  have hfirst : ∀ c ∈ (word++b).head?, p c = false := by
    rw [List.head?_append_of_ne_nil _ hne]
    exact hword.first
  rw [trim,List.append_assoc,dropWhile_append_of_first hfirst,← List.append_assoc,
    rdropWhile_append_of_last hlast]

/-- Trimming again the end that trimming has cut changes nothing. -/
theorem trim_rdropWhile (text : List α) : trim p (text.rdropWhile p) = trim p text := by
  conv_rhs => rw [← List.rdropWhile_append_rtakeWhile (p := p) (l := text)]
  exact (trim_append_right fun c hc => List.mem_rtakeWhile_imp hc).symm

/-- What trimming removes stands at the two ends and is of the class. -/
theorem trim_split (p : α → Bool) (text : List α) :
    ∃ left right, text = left++trim p text++right ∧ (∀ c ∈ left, p c = true) ∧
      ∀ c ∈ right, p c = true := by
  refine ⟨text.takeWhile p,(text.dropWhile p).rtakeWhile p,?_,?_,?_⟩
  · rw [trim,List.append_assoc,List.rdropWhile_append_rtakeWhile,
      List.takeWhile_append_dropWhile]
  · exact fun c hc => List.mem_takeWhile_imp hc
  · exact fun c hc => List.mem_rtakeWhile_imp hc

/-- The trimmed text is trimmed. -/
theorem trimmed_trim (p : α → Bool) (text : List α) : Trimmed p (trim p text) := by
  constructor
  · intro c hc
    have hstarts : trim p text <+: text.dropWhile p := List.rdropWhile_prefix p _
    have hhead : (text.dropWhile p).head? = some c := by
      obtain ⟨rest,hrest⟩ := hstarts
      rw [← hrest,List.head?_append,show (trim p text).head? = some c from hc]
      rfl
    have hnot := List.head?_dropWhile_not p text
    rw [hhead] at hnot
    simpa using hnot
  · intro c hc
    have hne : (text.dropWhile p).rdropWhile p ≠ [] := by
      rintro hnil
      rw [trim,hnil] at hc
      cases hc
    have hlast := List.rdropWhile_last_not p (text.dropWhile p) hne
    rw [trim,List.getLast?_eq_getLast_of_ne_nil hne,Option.mem_some_iff] at hc
    rw [hc] at hlast
    simpa using hlast

/-- A word does not begin among letters that its first letter is none of. -/
theorem infix_append_left {word : List α} (hne : word ≠ [])
    (hfirst : ∀ c ∈ word.head?, c ∉ left) : word <:+: left++text ↔ word <:+: text := by
  induction left with
  | nil => rfl
  | cons d left ih =>
    rw [List.cons_append,List.infix_cons_iff,
      ih fun c hc => fun hleft => hfirst c hc (List.mem_cons_of_mem d hleft)]
    refine or_iff_right ?_
    rintro ⟨rest,hrest⟩
    obtain ⟨c,word,rfl⟩ := List.exists_cons_of_ne_nil hne
    exact hfirst c rfl (by rw [(List.cons.inj hrest).1]; exact List.mem_cons_self)

/-- Nor does it end among letters that its last letter is none of. -/
theorem infix_append_right {word : List α} (hne : word ≠ [])
    (hlast : ∀ c ∈ word.getLast?, c ∉ right) : word <:+: text++right ↔ word <:+: text := by
  rw [← List.reverse_infix,List.reverse_append,
    infix_append_left (by simpa using hne) (by simpa using hlast),List.reverse_infix]

/-- A word that neither starts nor ends with a letter of the class occurs in
the trimmed text when it occurs in the text. -/
theorem infix_trim {word : List α} (hne : word ≠ []) (hword : Trimmed p word) :
    word <:+: trim p text ↔ word <:+: text := by
  obtain ⟨left,right,htext,hl,hr⟩ := trim_split p text
  conv_rhs => rw [htext]
  have hnot : ∀ {c}, p c = false → ∀ {l : List α}, (∀ d ∈ l, p d = true) → c ∉ l := by
    intro c hc l hall hmem
    rw [hall c hmem] at hc
    cases hc
  rw [infix_append_right hne (fun c hc => hnot (hword.last c hc) hr),
    infix_append_left hne (fun c hc => hnot (hword.first c hc) hl)]

end Trim

/-! ### Scanning for a letter -/

section Stop

variable [DecidableEq α] {c : α} {text : List α}

/-- A scan for a letter runs over texts without it. -/
theorem runs_over (h : c ∉ text) : ∀ d ∈ text, decide (d ≠ c) = true :=
  fun _ hd => decide_eq_true (ne_of_mem_of_not_mem hd h)

/-- It stops at the first one. -/
theorem takeWhile_stop (h : c ∉ text) (rest : List α) :
    (text++c::rest).takeWhile (· ≠ c) = text ∧
      (text++c::rest).dropWhile (· ≠ c) = c::rest := by
  rw [List.takeWhile_append_of_pos (runs_over h),List.dropWhile_append_of_pos (runs_over h)]
  simp

end Stop

/-! ### Markers -/

/-- A word whose first letter occurs nowhere else in it. -/
structure Marker (α : Type*) where
  /-- The first letter. -/
  lead : α
  /-- The others. -/
  rest : List α
  /-- The first letter does not return. -/
  lead_not_mem : lead ∉ rest

namespace Marker

variable (m : Marker α) {a b : List α}

/-- The letters of a marker. -/
def word : List α := m.lead::m.rest

theorem word_ne_nil : m.word ≠ [] := List.cons_ne_nil _ _

theorem length_word : m.word.length = m.rest.length+1 := rfl

/-- A marker at the start of a text ends before the next first letter. -/
theorem prefix_append_lead (ha : a ≠ []) : m.word <+: a++m.lead::b ↔ m.word <+: a := by
  constructor
  · intro h
    rcases List.prefix_or_prefix_of_prefix h (List.prefix_append a (m.lead::b)) with h' | ⟨t,ht⟩
    · exact h'
    · cases t with
      | nil =>
        rw [List.append_nil] at ht
        exact ht ▸ List.prefix_rfl
      | cons c t =>
        -- the marker would reach past the text, onto a second first letter
        rw [← ht,List.prefix_append_right_inj] at h
        obtain ⟨u,hu⟩ := h
        obtain rfl : c = m.lead := (List.cons.inj hu).1
        obtain ⟨d,a,rfl⟩ := List.exists_cons_of_ne_nil ha
        have hrest : m.rest = a++m.lead::t := (List.cons.inj ht).2.symm
        exact absurd (by simp [hrest]) m.lead_not_mem
  · exact fun h => h.trans (List.prefix_append _ _)

/-- An occurrence does not cross a joint that continues with the first letter. -/
theorem infix_append_lead : m.word <:+: a++m.lead::b ↔ m.word <:+: a ∨ m.word <:+: m.lead::b := by
  rw [List.infix_append_iff_ne_nil]
  constructor
  · rintro (h | h | ⟨w₁,w₂,hw₁,hw₂,hword,-,hstarts⟩)
    · exact Or.inl h
    · exact Or.inr h
    · -- the second half would start with the first letter, inside the rest
      obtain ⟨c,w₁,rfl⟩ := List.exists_cons_of_ne_nil hw₁
      obtain ⟨d,w₂,rfl⟩ := List.exists_cons_of_ne_nil hw₂
      obtain ⟨t,ht⟩ := hstarts
      have hd : d = m.lead := (List.cons.inj ht).1
      have hrest : m.rest = w₁++d::w₂ := (List.cons.inj hword).2
      exact absurd (by simp [hrest,hd]) m.lead_not_mem
  · rintro (h | h)
    · exact Or.inl h
    · exact Or.inr (Or.inl h)

/-- Of a text that continues with the first letter and holds no marker from
there on, every occurrence leaves that whole continuation behind it. -/
theorem suffix_behind {before z : List α} (h : a++m.word++b = before++m.lead::z)
    (hz : ¬m.word <:+: m.lead::z) : m.lead::z <:+ b := by
  rw [List.append_assoc] at h
  rcases List.append_eq_append_iff.mp h with ⟨u,rfl,hu⟩ | ⟨u,rfl,hu⟩
  · rcases List.append_eq_append_iff.mp hu with ⟨v,rfl,hv⟩ | ⟨v,hv,hz'⟩
    · exact ⟨v,hv.symm⟩
    · cases v with
      | nil => exact ⟨[],hz'⟩
      | cons c v =>
        obtain rfl : m.lead = c := (List.cons.inj hz').1
        cases u with
        | nil =>
          -- the marker stands right at the joint
          refine absurd ?_ hz
          rw [hz',show m.lead::v = m.word from hv.symm]
          exact (List.prefix_append _ _).isInfix
        | cons d u =>
          have hrest : m.rest = u++m.lead::v := (List.cons.inj hv).2
          exact absurd (by simp [hrest]) m.lead_not_mem
  · refine absurd ?_ hz
    rw [hu,← List.append_assoc]
    exact List.infix_append _ _ _

/-- A marker is not found across another one with the same first letter. -/
theorem infix_word_append {n : Marker α} (hlead : m.lead = n.lead)
    (hstarts : ¬m.word <+: n.word++b) : m.word <:+: n.word++b ↔ m.word <:+: b := by
  have hcons : n.word++b = n.lead::(n.rest++b) := rfl
  rw [hcons,List.infix_cons_iff,← hcons,or_iff_right hstarts]
  refine infix_append_left m.word_ne_nil ?_
  intro c hc
  obtain rfl : m.lead = c := by simpa [word] using hc
  rw [hlead]
  exact n.lead_not_mem

end Marker

/-- A word that occurs has a last occurrence. -/
theorem exists_last {word text : List α} (hne : word ≠ []) (h : word <:+: text) :
    ∃ a b, text = a++word++b ∧ ¬word <:+: b := by
  induction text with
  | nil => exact absurd (List.infix_nil.mp h) hne
  | cons c rest ih =>
    by_cases hrest : word <:+: rest
    · obtain ⟨a,b,hab,hb⟩ := ih hrest
      exact ⟨c::a,b,by rw [hab]; rfl,hb⟩
    · obtain ⟨b,hb⟩ := (List.infix_cons_iff.mp h).resolve_right hrest
      refine ⟨[],b,hb.symm,fun hword => hrest ?_⟩
      obtain ⟨d,word,rfl⟩ := List.exists_cons_of_ne_nil hne
      exact hword.trans ⟨word,[],by simpa using (List.cons.inj hb).2⟩

end Senca.TextScanning
