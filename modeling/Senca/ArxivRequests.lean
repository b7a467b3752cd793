import Senca.FormEncoding
import Senca.KeywordFiles
import Senca.ScraperCollectors

/-!
# The arXiv request of a keyword

`fetch_arxiv_for_keyword` writes its keyword into the URL by hand and only
replaces the spaces, so the query it asks says what it means exactly for the
keywords without `+`, `&`, `#` and percent escapes.
-/

namespace Senca.ArxivRequests

open FormEncoding KeywordFiles ScraperCollectors TextScanning

/-- The parameters arXiv reads from the URL. -/
def requested (keyword : String) (maxResults : ℤ) : List (List Char×List Char) :=
  parameters (query (arxivUrl keyword maxResults).toList)

/-- The parameters the URL is built for. -/
def intended (keyword : String) (maxResults : ℤ) : List (List Char×List Char) := [
  ("search_query".toList,"all:".toList++keyword.toList),
  ("start".toList,"0".toList),
  ("max_results".toList,(toString maxResults).toList),
  ("sortBy".toList,"submittedDate".toList),
  ("sortOrder".toList,"descending".toList)]

/-- A keyword without characters that mean something else in a query. -/
structure Literal (keyword : List Char) : Prop where
  plus : '+' ∉ keyword
  ampersand : '&' ∉ keyword
  hash : '#' ∉ keyword
  percent : ¬Escapes keyword

/-! ### The URL -/

/-- `keyword.replace(" ","+")`. -/
def encoded (keyword : List Char) : List Char :=
  keyword.map (fun c => if c = ' ' then '+' else c)

/-- A name and its value. -/
def pair (name value : List Char) : List Char := name++ '='::value

/-- What the URL holds behind the keyword. -/
def behind (maxResults : ℤ) : List Char :=
  pair "start".toList "0".toList++ '&'::(pair "max_results".toList (toString maxResults).toList++
    '&'::(pair "sortBy".toList "submittedDate".toList++
      '&'::pair "sortOrder".toList "descending".toList))

/-- The URL as its pieces, whatever they are. -/
theorem toList_joined {first base n₁ v₁ second n₂ v₂ n₃ v₃ third n₄ v₄ n₅ v₅ : String}
    (hfirst : first = base++"?"++n₁++"="++v₁)
    (hsecond : second = "&"++n₂++"="++v₂++"&"++n₃++"=")
    (hthird : third = "&"++n₄++"="++v₄++"&"++n₅++"="++v₅) (keyword : List Char) :
    (first++String.ofList keyword++second++v₃++third).toList =
      base.toList++ '?'::(pair n₁.toList v₁.toList++keyword++
        '&'::(pair n₂.toList v₂.toList++ '&'::(pair n₃.toList v₃.toList++
          '&'::(pair n₄.toList v₄.toList++ '&'::pair n₅.toList v₅.toList)))) := by
  rw [hfirst,hsecond,hthird]
  simp [pair]

theorem arxivUrl_toList (keyword : String) (maxResults : ℤ) :
    (arxivUrl keyword maxResults).toList = "http://export.arxiv.org/api/query".toList++
      '?'::(pair "search_query".toList "all:".toList++encoded keyword.toList++
        '&'::behind maxResults) :=
  toList_joined (by decide) (by decide) (by decide) (encoded keyword.toList)

theorem requested_eq (keyword : String) (maxResults : ℤ) :
    requested keyword maxResults = parameters ((pair "search_query".toList "all:".toList++
      encoded keyword.toList++ '&'::behind maxResults).takeWhile (· ≠ '#')) := by
  rw [requested,arxivUrl_toList,query_append (by decide) (by decide)]

theorem length_encoded (keyword : List Char) : (encoded keyword).length = keyword.length :=
  List.length_map _

theorem mem_encoded {c : Char} (hspace : c ≠ ' ') (hplus : c ≠ '+') (keyword : List Char) :
    c ∈ encoded keyword ↔ c ∈ keyword := by
  simp only [encoded,List.mem_map]
  constructor
  · rintro ⟨d,hd,hc⟩
    split at hc
    · exact absurd hc.symm hplus
    · exact hc ▸ hd
  · exact fun hc => ⟨c,hc,if_neg hspace⟩

/-- Spaces do not take part in escapes. -/
theorem escapes_encoded (keyword : List Char) : Escapes (encoded keyword) ↔ Escapes keyword := by
  have hdigit {c : Char} (hc : (hexDigit c).isSome) : c ≠ '+' ∧ c ≠ ' ' := by
    constructor <;> (rintro rfl; exact absurd hc (by decide))
  have hkeeps {c d : Char} (hc : c ≠ '+') : (if d = ' ' then '+' else d) = c → d = c := by
    split
    · exact fun h => absurd h.symm hc
    · exact id
  constructor
  · rintro ⟨a,b,ha,hb,hinside⟩
    obtain ⟨word,hword,heq⟩ := List.infix_map_iff.mp hinside
    obtain ⟨c,rest,rfl,hc,heq⟩ := List.map_eq_cons_iff.mp heq.symm
    obtain ⟨a',rest,rfl,ha',heq⟩ := List.map_eq_cons_iff.mp heq
    obtain ⟨b',rest,rfl,hb',heq⟩ := List.map_eq_cons_iff.mp heq
    obtain rfl := List.map_eq_nil_iff.mp heq
    obtain rfl := hkeeps (by decide) hc
    obtain rfl := hkeeps (hdigit ha).1 ha'
    obtain rfl := hkeeps (hdigit hb).1 hb'
    exact ⟨_,_,ha,hb,hword⟩
  · rintro ⟨a,b,ha,hb,hinside⟩
    refine ⟨a,b,ha,hb,?_⟩
    have hmap := hinside.map (fun c => if c = ' ' then '+' else c)
    simpa [(hdigit ha).2,(hdigit hb).2,encoded] using hmap

/-- Decoding undoes the encoding of everything but plus signs. -/
theorem map_spaced_encoded (keyword : List Char) :
    (encoded keyword).map spaced = keyword ↔ '+' ∉ keyword := by
  have hchar (c : Char) : spaced (if c = ' ' then '+' else c) = if c = '+' then ' ' else c := by
    unfold spaced
    by_cases hc : c = ' '
    · simp [hc]
    · simp [hc]
  induction keyword with
  | nil => simp [encoded]
  | cons c rest ih =>
    have hcons : (encoded (c::rest)).map spaced =
        (if c = '+' then ' ' else c)::(encoded rest).map spaced := by
      rw [← hchar]
      rfl
    rw [hcons,List.cons.injEq,List.mem_cons,propext ih]
    by_cases hc : c = '+'
    · simp [hc]
    · simp [hc,eq_comm]

theorem digits_plain {c : Char} {n : ℤ} (h : c ∈ (toString n).toList) :
    c.isDigit = true ∨ c = '-' := by
  have hdigits (m : ℕ) (hm : c ∈ m.repr.toList) : c.isDigit = true :=
    Nat.isDigit_of_mem_toDigits (b := 10) (by decide) (by decide)
      (by rwa [Nat.repr,String.toList_ofList] at hm)
  rw [Int.toString_eq_repr,Int.repr_eq_if] at h
  split at h
  · exact Or.inl (hdigits _ h)
  · rw [String.toList_append] at h
    rcases List.mem_append.mp h with h | h
    · exact Or.inr (by simpa using h)
    · exact Or.inl (hdigits _ h)

/-! ### What arXiv reads -/

/-- The first parameter: the keyword up to its first separator. -/
theorem requested_head? (keyword : String) (maxResults : ℤ) :
    (requested keyword maxResults).head? = some ("search_query".toList,
      decode ("all:".toList++
        (encoded keyword.toList).takeWhile (fun c => c ≠ '&' ∧ c ≠ '#'))) := by
  have hpiece := takeWhile_separators
    (show '&' ∉ pair "search_query".toList "all:".toList by decide) (by decide)
    (encoded keyword.toList) (behind maxResults)
  have hne : pair "search_query".toList "all:".toList++
      (encoded keyword.toList).takeWhile (fun c => c ≠ '&' ∧ c ≠ '#') ≠ [] := by
    simp [pair]
  rw [requested_eq,parameters_head? (by rwa [hpiece]),hpiece,pair,List.append_assoc,
    List.cons_append,parameter_append (by decide),decode_plain (by decide) (by decide)]

/-- Only the first of the intended parameters is a search query. -/
theorem searchQuery_intended {keyword : String} {maxResults : ℤ} {value : List Char}
    (h : ("search_query".toList,value) ∈ intended keyword maxResults) :
    value = "all:".toList++keyword.toList := by
  have hnames : "search_query".toList ≠ "start".toList ∧
      "search_query".toList ≠ "max_results".toList ∧ "search_query".toList ≠ "sortBy".toList ∧
      "search_query".toList ≠ "sortOrder".toList := by decide
  simp only [intended,List.mem_cons,Prod.mk.injEq,hnames.1,hnames.2.1,hnames.2.2.1,hnames.2.2.2,
    List.not_mem_nil,false_and,or_false,true_and] at h
  exact h

/-- A keyword that is read back as it is written is a literal one. -/
theorem literal_of_requested {keyword : String} {maxResults : ℤ}
    (h : (requested keyword maxResults).Perm (intended keyword maxResults)) :
    Literal keyword.toList := by
  have hvalue := (searchQuery_intended (h.mem_iff.mp
    (List.mem_of_mem_head? (requested_head? keyword maxResults)))).symm
  set read := (encoded keyword.toList).takeWhile (fun c => c ≠ '&' ∧ c ≠ '#') with hread
  have hshort := length_decode_le ("all:".toList++read)
  rw [← hvalue,List.length_append,List.length_append] at hshort
  have hwhole : read = encoded keyword.toList := by
    refine (List.takeWhile_prefix _).eq_of_length_le ?_
    rw [length_encoded,← hread]
    omega
  have hseparators : ∀ c ∈ encoded keyword.toList, c ≠ '&' ∧ c ≠ '#' := by
    intro c hc
    rw [← hwhole,hread] at hc
    simpa using List.mem_takeWhile_imp hc
  rw [hwhole] at hvalue
  have hescapes : ¬Escapes ("all:".toList++encoded keyword.toList) := by
    intro hbad
    have hlt := length_decode_lt hbad
    rw [← hvalue,List.length_append,List.length_append,length_encoded] at hlt
    omega
  rw [decode_of_not_escapes hescapes,List.map_append] at hvalue
  rw [escapes_append (by decide),escapes_encoded] at hescapes
  refine ⟨?_,?_,?_,hescapes⟩
  · have hall : ("all:".toList).map spaced = "all:".toList := by decide
    rw [hall] at hvalue
    exact (map_spaced_encoded _).mp (List.append_cancel_left hvalue).symm
  · intro hmem
    exact (hseparators '&' ((mem_encoded (by decide) (by decide) _).mpr hmem)).1 rfl
  · intro hmem
    exact (hseparators '#' ((mem_encoded (by decide) (by decide) _).mpr hmem)).2 rfl

/-- A literal keyword is read back, and so is the rest. -/
theorem requested_of_literal {keyword : String} (h : Literal keyword.toList) (maxResults : ℤ) :
    requested keyword maxResults = intended keyword maxResults := by
  have hhash : '#' ∉ encoded keyword.toList :=
    fun hmem => h.hash ((mem_encoded (by decide) (by decide) _).mp hmem)
  have hampersand : '&' ∉ encoded keyword.toList :=
    fun hmem => h.ampersand ((mem_encoded (by decide) (by decide) _).mp hmem)
  have hnumber {c : Char} (hdigit : c.isDigit = false) (hminus : c ≠ '-') :
      c ∉ (toString maxResults).toList := by
    intro hmem
    rcases digits_plain hmem with h | h
    · rw [hdigit] at h
      cases h
    · exact hminus h
  have hdecode : decode ("all:".toList++encoded keyword.toList) =
      "all:".toList++keyword.toList := by
    rw [decode_of_not_escapes (by rw [escapes_append (by decide),escapes_encoded]; exact h.percent),
      List.map_append,(map_spaced_encoded _).mpr h.plus]
    rfl
  have hwhole : '#' ∉ pair "search_query".toList "all:".toList++encoded keyword.toList++
      '&'::behind maxResults := by
    have hhashNumber := hnumber (c := '#') (by decide) (by decide)
    rw [Int.toString_eq_repr] at hhashNumber
    simp [pair,behind,hhash,hhashNumber]
  have hfirst : pair "search_query".toList "all:".toList++encoded keyword.toList =
      "search_query".toList++ '='::("all:".toList++encoded keyword.toList) :=
    List.append_assoc _ _ _
  rw [requested_eq,List.takeWhile_eq_self_iff.mpr (runs_over hwhole),hfirst,
    parameters_cons (by decide) (by decide) (by simp [hampersand]),hdecode,behind,pair,
    parameters_cons (by decide) (by decide) (by decide),pair,
    parameters_cons (by decide) (by decide) (hnumber (by decide) (by decide)),pair,
    parameters_cons (by decide) (by decide) (by decide),pair,
    parameters_single (by simp) (by decide),parameter_append (by decide)]
  have hpercent := hnumber (c := '%') (by decide) (by decide)
  have hplus := hnumber (c := '+') (by decide) (by decide)
  rw [decode_plain hplus hpercent]
  simp (disch := decide) only [decode_plain]
  rfl

/-- For every keyword and every max_results, arXiv reads the intended
parameters and no others exactly when the keyword has no `+`, no `&`, no `#`
and no percent escape. -/
theorem requested_perm_iff (keyword : String) (maxResults : ℤ) :
    (requested keyword maxResults).Perm (intended keyword maxResults) ↔ Literal keyword.toList :=
  ⟨literal_of_requested,fun h => .of_eq (requested_of_literal h maxResults)⟩

/-- A keyword file can name C++, and arXiv is asked for C. -/
theorem plusKeyword_altered :
    "c++" ∈ loadAllArxivKeywords sampleTables (some "c++\n".toList) ∧
      (requested "c++" 10).head? = some ("search_query".toList,"all:c  ".toList) ∧
      ¬(requested "c++" 10).Perm (intended "c++" 10) := by
  refine ⟨by decide,?_,fun h => (literal_of_requested h).plus (by decide)⟩
  rw [requested_head?]
  decide

end Senca.ArxivRequests
