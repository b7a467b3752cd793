import Senca.PythonText

/-!
# `str.lower`

Lower-casing maps every character by a table and then looks at the
neighbours of one letter only: a capital sigma at the end of a word becomes
the final form. The table is the installed Unicode version; of it only the
ASCII part and the shape of the rest are used.
-/

namespace Senca.PythonCase

open PythonText

/-- A character of ASCII. -/
def isAscii (c : Char) : Bool := c.toNat < 128

/-- What holds of 128 characters holds of all of ASCII. -/
theorem ascii_cases {p : Char → Prop} (h : ∀ n < 128, p (Char.ofNat n)) (c : Char)
    (hc : isAscii c = true) : p c := by
  have hn : c.toNat < 128 := by simpa [isAscii] using hc
  rw [← Char.ofNat_toNat c]
  exact h c.toNat hn

theorem toLower_of_not_alpha {c : Char} (hc : isAscii c = true) :
    c.isAlpha = false → c.toLower = c :=
  ascii_cases (p := fun c => c.isAlpha = false → c.toLower = c) (by decide +kernel) c hc

theorem isAlpha_toLower {c : Char} (hc : isAscii c = true) :
    c.toLower.isAlpha = c.isAlpha :=
  ascii_cases (p := fun c => c.toLower.isAlpha = c.isAlpha) (by decide +kernel) c hc

/-- The Unicode tables behind `str.lower`. -/
structure CaseTables where
  /-- The full lower-case mapping of a character. -/
  lower : Char → List Char
  /-- The property Cased. -/
  cased : Char → Bool
  /-- The property Case_Ignorable. -/
  ignorable : Char → Bool
  /-- In ASCII only the capital letters change. -/
  lower_ascii : ∀ c, isAscii c = true → lower c = [c.toLower]
  /-- The letters of ASCII are cased. -/
  cased_ascii : ∀ c, isAscii c = true → cased c = c.isAlpha
  /-- Five signs of ASCII are ignored. -/
  ignorable_ascii : ∀ c, isAscii c = true → (ignorable c = true ↔ c ∈ ['\'','.',':','^','`'])
  /-- Of ASCII, other characters become small letters only. -/
  lower_other : ∀ c, isAscii c = false → ∀ d ∈ lower c, isAscii d = true → d.isLower = true
  /-- No character disappears. -/
  lower_ne_nil : ∀ c, lower c ≠ []
  /-- No character becomes whitespace. -/
  lower_space : ∀ c, ∀ d ∈ lower c, isSpace d = true → isSpace c = true

namespace CaseTables

variable (tables : CaseTables)

/-- The next character that is not ignored is cased. -/
def nextCased : List Char → Bool
  | [] => false
  | c::rest => if tables.ignorable c then nextCased rest else tables.cased c

/-- The scan of `lower`; the flag tells whether the last character that was not
ignored is cased. -/
def lowerFrom : Bool → List Char → List Char
  | _,[] => []
  | before,c::rest =>
    (if c = 'Σ' then [if before && !tables.nextCased rest then 'ς' else 'σ']
      else tables.lower c)++
      lowerFrom (if tables.ignorable c then before else tables.cased c) rest

/-- `text.lower()`. -/
def lowerText (text : List Char) : List Char := tables.lowerFrom false text

variable {tables} {c d : Char} {text rest : List Char}

/-- The characters that can stand for another one after lower-casing. -/
def Becomes (tables : CaseTables) (c d : Char) : Prop :=
  d ∈ if c = 'Σ' then ['ς','σ'] else tables.lower c

/-- What is written for the first character. -/
theorem lowerFrom_cons (tables : CaseTables) (before : Bool) (c : Char) (rest : List Char) :
    ∃ here, here ≠ [] ∧ (∀ d ∈ here, tables.Becomes c d) ∧
      tables.lowerFrom before (c::rest) =
        here++tables.lowerFrom (if tables.ignorable c then before else tables.cased c) rest := by
  refine ⟨_,?_,?_,rfl⟩
  · split
    · exact List.cons_ne_nil _ _
    · exact tables.lower_ne_nil c
  · intro d hd
    unfold Becomes
    by_cases hc : c = 'Σ'
    · rw [if_pos hc] at hd ⊢
      rw [List.mem_singleton.mp hd]
      split <;> decide
    · rwa [if_neg hc] at hd ⊢

theorem mem_lowerFrom {before : Bool} (h : d ∈ tables.lowerFrom before text) :
    ∃ c ∈ text, tables.Becomes c d := by
  induction text generalizing before with
  | nil => cases h
  | cons c rest ih =>
    obtain ⟨here,-,hhere,heq⟩ := lowerFrom_cons tables before c rest
    rw [heq,List.mem_append] at h
    rcases h with h | h
    · exact ⟨c,List.mem_cons_self,hhere d h⟩
    · obtain ⟨c',hc',hd⟩ := ih h
      exact ⟨c',List.mem_cons_of_mem c hc',hd⟩

theorem lowerFrom_ne_nil {before : Bool} (h : text ≠ []) : tables.lowerFrom before text ≠ [] := by
  cases text with
  | nil => exact absurd rfl h
  | cons c rest =>
    obtain ⟨here,hne,-,heq⟩ := lowerFrom_cons tables before c rest
    rw [heq]
    exact List.append_ne_nil_of_left_ne_nil hne _

/-- The first character comes from the first one. -/
theorem head?_lowerFrom {before : Bool} (h : d ∈ (tables.lowerFrom before text).head?) :
    ∃ c ∈ text.head?, tables.Becomes c d := by
  cases text with
  | nil => cases h
  | cons c rest =>
    obtain ⟨here,hne,hhere,heq⟩ := lowerFrom_cons tables before c rest
    rw [heq,List.head?_append_of_ne_nil _ hne] at h
    exact ⟨c,rfl,hhere d (List.mem_of_head? h)⟩

/-- The last character comes from the last one. -/
theorem getLast?_lowerFrom {before : Bool} (h : d ∈ (tables.lowerFrom before text).getLast?) :
    ∃ c ∈ text.getLast?, tables.Becomes c d := by
  induction text generalizing before with
  | nil => cases h
  | cons c rest ih =>
    obtain ⟨here,hne,hhere,heq⟩ := lowerFrom_cons tables before c rest
    rw [heq] at h
    cases rest with
    | nil =>
      rw [lowerFrom,List.append_nil] at h
      exact ⟨c,rfl,hhere d (List.mem_of_getLast? h)⟩
    | cons c' rest =>
      rw [List.getLast?_append_of_ne_nil _ (lowerFrom_ne_nil (List.cons_ne_nil _ _))] at h
      obtain ⟨last,hlast,hd⟩ := ih h
      exact ⟨last,by rwa [List.getLast?_cons_cons],hd⟩

/-! ### Signs around words -/

/-- A sign of ASCII that is no letter and is not ignored: it stays as it is
and ends every word. -/
structure Sign (c : Char) : Prop where
  /-- It is of ASCII. -/
  ascii : isAscii c = true
  /-- It is no letter. -/
  noLetter : c.isAlpha = false
  /-- It is not ignored. -/
  noMark : c ∉ ['\'','.',':','^','`']

theorem Sign.ne_sigma (h : Sign c) : c ≠ 'Σ' := by
  rintro rfl
  exact absurd h.ascii (by decide)

theorem Sign.cased (tables : CaseTables) (h : Sign c) : tables.cased c = false := by
  rw [tables.cased_ascii c h.ascii,h.noLetter]

theorem Sign.ignorable (tables : CaseTables) (h : Sign c) : tables.ignorable c = false := by
  rw [Bool.eq_false_iff]
  exact fun hi => h.noMark ((tables.ignorable_ascii c h.ascii).mp hi)

theorem Sign.lower (tables : CaseTables) (h : Sign c) : tables.lower c = [c] := by
  rw [tables.lower_ascii c h.ascii,toLower_of_not_alpha h.ascii h.noLetter]

/-- No other character becomes a sign. -/
theorem Sign.of_becomes (h : Sign d) (hcd : tables.Becomes c d) : c = d := by
  have hascii := h.ascii
  unfold Becomes at hcd
  by_cases hc : c = 'Σ'
  · rw [if_pos hc] at hcd
    rcases List.mem_pair.mp hcd with rfl | rfl <;> exact absurd hascii (by decide)
  rw [if_neg hc] at hcd
  cases ha : isAscii c with
  | true =>
    rw [tables.lower_ascii c ha,List.mem_singleton] at hcd
    have hletter := isAlpha_toLower ha
    rw [← hcd,h.noLetter] at hletter
    rw [hcd,toLower_of_not_alpha ha hletter.symm]
  | false =>
    have hlower := tables.lower_other c ha d hcd hascii
    have hnot : (d.isUpper || d.isLower) = false := h.noLetter
    rw [hlower,Bool.or_true] at hnot
    cases hnot

theorem nextCased_append (h : Sign c) (text rest : List Char) :
    tables.nextCased (text++c::rest) = tables.nextCased text := by
  induction text with
  | nil => simp [nextCased,h.cased,h.ignorable]
  | cons d text ih => rw [List.cons_append,nextCased,nextCased,ih]

/-- Lower-casing works on the two sides of a sign apart. -/
theorem lowerFrom_append (h : Sign c) (before : Bool) (text rest : List Char) :
    tables.lowerFrom before (text++c::rest) =
      tables.lowerFrom before text++c::tables.lowerText rest := by
  induction text generalizing before with
  | nil =>
    rw [List.nil_append,lowerFrom.eq_2,if_neg h.ne_sigma,h.lower,h.ignorable,h.cased]
    rfl
  | cons d text ih =>
    rw [List.cons_append,lowerFrom,lowerFrom,nextCased_append h,ih,List.append_assoc]

/-! ### Lower-cased texts -/

/-- Whatever becomes a character of ASCII, the character is no capital. -/
theorem toLower_of_becomes (hcd : tables.Becomes c d) (hd : isAscii d = true) :
    d.toLower = d := by
  unfold Becomes at hcd
  by_cases hc : c = 'Σ'
  · rw [if_pos hc] at hcd
    rcases List.mem_pair.mp hcd with rfl | rfl <;> exact absurd hd (by decide)
  rw [if_neg hc] at hcd
  cases ha : isAscii c with
  | true =>
    rw [tables.lower_ascii c ha,List.mem_singleton] at hcd
    rw [hcd]
    exact ascii_cases (p := fun c => c.toLower.toLower = c.toLower) (by decide +kernel) c ha
  | false =>
    exact ascii_cases (p := fun d => d.isLower = true → d.toLower = d) (by decide +kernel) d hd
      (tables.lower_other c ha d hcd hd)

theorem space_of_becomes (hcd : tables.Becomes c d) (hd : isSpace d = true) :
    isSpace c = true := by
  unfold Becomes at hcd
  by_cases hc : c = 'Σ'
  · rw [if_pos hc] at hcd
    rcases List.mem_pair.mp hcd with rfl | rfl <;> exact absurd hd (by decide)
  · rw [if_neg hc] at hcd
    exact tables.lower_space c d hcd hd

/-- A text of ASCII without capitals is lower-cased. -/
theorem lowerFrom_of_ascii {before : Bool} (h : ∀ c ∈ text, isAscii c = true ∧ c.toLower = c) :
    tables.lowerFrom before text = text := by
  induction text generalizing before with
  | nil => rfl
  | cons c rest ih =>
    obtain ⟨hascii,hlower⟩ := h c List.mem_cons_self
    have hc : c ≠ 'Σ' := by
      rintro rfl
      exact absurd hascii (by decide)
    rw [lowerFrom,if_neg hc,tables.lower_ascii c hascii,hlower,
      ih fun d hd => h d (List.mem_cons_of_mem c hd)]
    rfl

end CaseTables

end Senca.PythonCase
