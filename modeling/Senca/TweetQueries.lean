import Senca.ScraperCollectors

/-!
# The query sent for a keyword

`fetch_tweets_for_keyword` puts the keyword in parentheses and appends a
language operator. A query of more than 500 characters is cut and closed a
second time. The cut leaves the first closing parenthesis out exactly when
the keyword has at least 499 characters; between 491 and 498 it keeps it.
-/

namespace Senca.TweetQueries

open ScraperCollectors

/-- The text without its spaces. -/
def noSpaces (text : List Char) : List Char := text.filter (· ≠ ' ')

/-- Every parenthesis is matched, with so many open before the text. -/
def closes : ℕ → List Char → Bool
  | opened,[] => opened = 0
  | opened,c::rest =>
    if c = '(' then closes (opened+1) rest
    else if c = ')' then 0 < opened && closes (opened-1) rest
    else closes opened rest

/-- The parentheses of the text are balanced. -/
def balanced (text : List Char) : Bool := closes 0 text

/-- What stands between two words of a query. -/
def isDelimiter (c : Char) : Bool := c = ' ' || c = '(' || c = ')'

/-- The number of words of a query that are language operators. -/
def languageOperators (query : List Char) : ℕ :=
  (query.splitOnP isDelimiter).countP (fun word => "lang:".toList.isPrefixOf word)

/-- A query that asks for a keyword, or for the beginning of a long one, in
English. -/
structure WellFormedQuery (keyword query : List Char) : Prop where
  /-- Up to spaces: a part of the keyword in parentheses, then the operator. -/
  shape : ∃ part, part ≠ [] ∧ part <+: keyword ∧
    (('('::keyword++") lang:en".toList).length ≤ 500 → part = keyword) ∧
    noSpaces query = noSpaces ('('::part++")".toList++" lang:en".toList)
  /-- Its parentheses match. -/
  balanced : balanced query = true
  /-- It has one language operator. -/
  oneOperator : languageOperators query = 1
  /-- It is not longer than the service accepts. -/
  short : query.length ≤ 512

/-! ### Parts of a query -/

theorem closes_append {opened : ℕ} {text rest : List Char} (hopen : '(' ∉ text)
    (hclose : ')' ∉ text) : closes opened (text++rest) = closes opened rest := by
  induction text with
  | nil => rfl
  | cons c text ih =>
    rw [List.mem_cons,not_or] at hopen hclose
    rw [List.cons_append,closes,if_neg (Ne.symm hopen.1),if_neg (Ne.symm hclose.1),
      ih hopen.2 hclose.2]

theorem languageOperators_append_cons (text rest : List Char) {c : Char}
    (hc : isDelimiter c = true) :
    languageOperators (text++c::rest) = languageOperators text+languageOperators rest := by
  rw [languageOperators,List.splitOnP_append_cons text rest hc,List.countP_append]
  rfl

theorem noSpaces_append (text rest : List Char) :
    noSpaces (text++rest) = noSpaces text++noSpaces rest := List.filter_append _ _

/-- A part of a keyword in parentheses, before which a space may stand, and the
language operator. -/
def wrapped (part gap : List Char) : List Char := '('::(part++(gap++ ')'::" lang:en".toList))

theorem languageOperators_wrapped {part gap : List Char} (hgap : gap = [] ∨ gap = [' ']) :
    languageOperators (wrapped part gap) = languageOperators part+1 := by
  have hempty : languageOperators [] = 0 := by decide +kernel
  have hlang : languageOperators " lang:en".toList = 1 := by decide +kernel
  have hopen := languageOperators_append_cons [] (part++(gap++ ')'::" lang:en".toList))
    (c := '(') (by decide)
  rw [hempty,Nat.zero_add] at hopen
  refine hopen.trans ?_
  rcases hgap with rfl | rfl
  · rw [List.nil_append,languageOperators_append_cons _ _ (by decide),hlang]
  · rw [List.singleton_append,languageOperators_append_cons _ _ (by decide)]
    have hclose := languageOperators_append_cons [] " lang:en".toList (c := ')') (by decide)
    rw [hempty,Nat.zero_add,hlang,List.nil_append] at hclose
    rw [hclose]

/-- A wrapped part of a keyword is a well-formed query for it. -/
theorem wellFormed_wrapped {keyword part gap : List Char} (hgap : gap = [] ∨ gap = [' '])
    (hne : part ≠ []) (hpart : part <+: keyword) (hopen : '(' ∉ keyword) (hclose : ')' ∉ keyword)
    (hwhole : ('('::keyword++") lang:en".toList).length ≤ 500 → part = keyword)
    (hoperators : languageOperators part = 0) (hlength : part.length ≤ 499) :
    WellFormedQuery keyword (wrapped part gap) where
  shape := by
    refine ⟨part,hne,hpart,hwhole,?_⟩
    have hspace : noSpaces gap = [] := by rcases hgap with rfl | rfl <;> rfl
    have hwrapped : wrapped part gap = '('::part++(gap++(")".toList++" lang:en".toList)) := rfl
    rw [hwrapped,noSpaces_append,noSpaces_append,hspace,List.append_assoc,
      noSpaces_append ('('::part)]
    rfl
  balanced := by
    have hpart' : ∀ {c}, c ∉ keyword → c ∉ part := fun h hc => h (hpart.mem hc)
    have hsplit : wrapped part gap = '('::(part++gap++ ')'::" lang:en".toList) := by
      simp [wrapped]
    have hgap' : '(' ∉ gap ∧ ')' ∉ gap := by rcases hgap with rfl | rfl <;> decide
    rw [hsplit,balanced,closes,if_pos rfl,closes_append
      (by simpa using ⟨hpart' hopen,hgap'.1⟩) (by simpa using ⟨hpart' hclose,hgap'.2⟩)]
    decide
  oneOperator := by rw [languageOperators_wrapped hgap,hoperators]
  short := by
    have hlen : gap.length ≤ 1 := by rcases hgap with rfl | rfl <;> decide
    simp only [wrapped,List.length_cons,List.length_append]
    have hlang : " lang:en".toList.length = 8 := by decide
    omega

/-! ### The query by the length of the keyword -/

section Query

variable {keyword : String}

theorem length_untruncated (keyword : List Char) :
    ('('::keyword++") lang:en".toList).length = keyword.length+10 := by
  simp

theorem toList_untruncated :
    ("("++keyword++") lang:en").toList = '('::keyword.toList++") lang:en".toList := by
  simp

/-- A keyword that fits is sent whole. -/
theorem tweetQuery_short (h : keyword.toList.length ≤ 490) :
    (tweetQuery keyword).toList = wrapped keyword.toList [] := by
  rw [tweetQuery,toList_untruncated,length_untruncated,if_neg (by omega),toList_untruncated]
  rfl

theorem tweetQuery_cut (h : 490 < keyword.toList.length) :
    (tweetQuery keyword).toList =
      ('('::keyword.toList++") lang:en".toList).take 500++" ) lang:en".toList := by
  rw [tweetQuery,toList_untruncated,length_untruncated,if_pos (by omega),String.toList_append,
    String.toList_ofList]

/-- Of a long keyword the first 499 characters are sent. -/
theorem tweetQuery_long (h : 499 ≤ keyword.toList.length) :
    (tweetQuery keyword).toList = wrapped (keyword.toList.take 499) [' '] := by
  rw [tweetQuery_cut (by omega),List.cons_append,List.take_succ_cons,
    List.take_append_of_le_length h]
  rfl

/-- In between the cut keeps the first closing parenthesis. -/
theorem tweetQuery_between (hlow : 490 < keyword.toList.length)
    (hhigh : keyword.toList.length < 499) :
    ∃ rest, (tweetQuery keyword).toList =
      '('::keyword.toList++ ')'::rest++" ) lang:en".toList := by
  obtain ⟨k,hk⟩ : ∃ k, 499-keyword.toList.length = k+1 := ⟨498-keyword.toList.length,by omega⟩
  have htake : ('('::keyword.toList++") lang:en".toList).take 500 =
      '('::keyword.toList++ ')'::" lang:en".toList.take k := by
    rw [List.cons_append,List.take_succ_cons,List.take_append,hk,
      List.take_of_length_le (by omega)]
    rfl
  exact ⟨" lang:en".toList.take k,by rw [tweetQuery_cut hlow,htake]⟩

theorem count_noSpaces {c : Char} (hc : c ≠ ' ') (text : List Char) :
    (noSpaces text).count c = text.count c := List.count_filter (by simpa using hc)

/-- With two closing parentheses a query has not the shape of a wrapped part. -/
theorem not_wellFormed_between (hclose : ')' ∉ keyword.toList)
    (hlow : 490 < keyword.toList.length) (hhigh : keyword.toList.length < 499) :
    ¬WellFormedQuery keyword.toList (tweetQuery keyword).toList := by
  intro h
  obtain ⟨part,-,hpart,-,hshape⟩ := h.shape
  obtain ⟨rest,hrest⟩ := tweetQuery_between hlow hhigh
  have hcount := congrArg (List.count ')') hshape
  rw [count_noSpaces (by decide),count_noSpaces (by decide),hrest] at hcount
  have hnone : part.count ')' = 0 := List.count_eq_zero.mpr fun hc => hclose (hpart.mem hc)
  simp [hnone] at hcount
  omega

end Query

/-- The query is well formed exactly for the keywords of at most 490 or at
least 499 characters that are not empty and whose part that is sent holds no
language operator. -/
theorem tweetQuery_wellFormed_iff (keyword : String) (hopen : '(' ∉ keyword.toList)
    (hclose : ')' ∉ keyword.toList) :
    WellFormedQuery keyword.toList (tweetQuery keyword).toList ↔
      keyword ≠ "" ∧ (keyword.toList.length ≤ 490 ∨ 499 ≤ keyword.toList.length) ∧
        languageOperators (keyword.toList.take 499) = 0 := by
  have hempty : keyword ≠ "" ↔ keyword.toList ≠ [] := by simp
  rw [hempty]
  rcases Nat.lt_or_ge 490 keyword.toList.length with hlow | hshort
  · rcases Nat.lt_or_ge keyword.toList.length 499 with hhigh | hlong
    · refine iff_of_false (not_wellFormed_between hclose hlow hhigh) ?_
      rintro ⟨-,hlen,-⟩
      omega
    · rw [tweetQuery_long hlong]
      constructor
      · intro h
        have hone := h.oneOperator
        rw [languageOperators_wrapped (Or.inr rfl)] at hone
        refine ⟨fun hnil => ?_,Or.inr hlong,Nat.succ.inj hone⟩
        rw [hnil] at hlong
        cases hlong
      · rintro ⟨hne,-,hoperators⟩
        refine wellFormed_wrapped (Or.inr rfl) ?_ (List.take_prefix _ _) hopen hclose ?_
          hoperators (List.length_take_le _ _)
        · simpa using hne
        · rw [length_untruncated]
          omega
  · rw [tweetQuery_short hshort,List.take_of_length_le (by omega)]
    constructor
    · intro h
      have hone := h.oneOperator
      rw [languageOperators_wrapped (Or.inl rfl)] at hone
      obtain ⟨part,hne,hpart,-⟩ := h.shape
      refine ⟨fun hnil => hne ?_,Or.inl hshort,Nat.succ.inj hone⟩
      rw [hnil] at hpart
      exact List.prefix_nil.mp hpart
    · rintro ⟨hne,-,hoperators⟩
      exact wellFormed_wrapped (Or.inl rfl) hne List.prefix_rfl hopen hclose (fun _ => rfl)
        hoperators (by omega)

theorem tweetQuery_wellFormed_iff_llm :
    WellFormedQuery "LLM".toList (tweetQuery "LLM").toList :=
  (tweetQuery_wellFormed_iff "LLM" (by decide) (by decide)).mpr
    ⟨by decide,Or.inl (by decide),by decide +kernel⟩

/-- A keyword of 491 letters. -/
def longKeyword : String := String.ofList (List.replicate 491 'a')

theorem longKeyword_not_wellFormed :
    ¬WellFormedQuery longKeyword.toList (tweetQuery longKeyword).toList := by
  have hletters : longKeyword.toList = List.replicate 491 'a' := String.toList_ofList
  have hlength : longKeyword.toList.length = 491 := by rw [hletters,List.length_replicate]
  have hclose : ')' ∉ longKeyword.toList := by
    rw [hletters]
    intro hc
    cases List.eq_of_mem_replicate hc
  exact not_wellFormed_between hclose (by rw [hlength]; decide) (by rw [hlength]; decide)

end Senca.TweetQueries
