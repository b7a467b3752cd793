import Mathlib.Data.Char
import Mathlib.Data.List.Dedup
import Mathlib.Data.List.Infix
import Mathlib.Data.List.Lex
import Mathlib.Data.List.Sort
import Senca.KeywordFiles

/-!
# The keywords that `combine_keywords` writes

The tags of dev.to and the words of several feeds are collected in one set,
cleaned, sorted and written one on a line. What is written is in canonical
form: it depends on the set alone, every loader reads it back, and cleaning
what was read back writes the same file.
-/

namespace Senca.KeywordHarvest

open KeywordFiles PythonCase PythonText TextScanning

/-- The tables behind `str.isdigit` and the word characters of `re`. -/
structure TextTables extends CaseTables where
  /-- A character for which `isdigit` holds. -/
  digit : Char → Bool
  /-- A character of `\w`. -/
  wordChar : Char → Bool
  /-- The digits of ASCII. -/
  digit_ascii : ∀ c, isAscii c = true → digit c = c.isDigit

/-! ### The filter -/

/-- `BLACKLIST_TERMS`. -/
def blacklistTerms : List String := [
  "airdrop","mailing","fair","envision","envisioned","envisioning",
  "unfairness","foundation-model-based","foundations","explainable",
  "fairness"]

/-- `AI_SINGLE_WORDS`. -/
def aiSingleWords : List String := [
  "ai","ml","gpt","bert","gan","cnn","rnn","nn","nlp",
  "llm","chatgpt","robot","robotics","embeddings","lstm",
  "pytorch","tensorflow","scikitlearn","xgboost","lightgbm","huggingface"]

/-- `PARTIAL_TERMS`. -/
def partialTerms : List String := [
  "deeplearning",
  "transformer",
  "neural",
  "reinforcement",
  "autonom",
  "generative",
  "vision",
  "supervised",
  "unsupervised",
  "semisupervised",
  "semi-supervised",
  "self-supervised",
  "federated",
  "adversarial",
  "machinelearning",
  "computer-vision",
  "pytorch",
  "tensorflow",
  "scikitlearn",
  "xgboost",
  "lightgbm",
  "huggingface"]

variable (tables : TextTables)

/-- `re.search(r"\bword\b", text)` for a word of word characters; the flag
tells whether the character before the text is one. -/
def searchBounded (word : List Char) : Bool → List Char → Bool
  | _,[] => false
  | before,c::rest =>
    (!before && word.isPrefixOf (c::rest) &&
      !((c::rest).drop word.length).head?.any tables.wordChar) ||
      searchBounded word (tables.wordChar c) rest

/-- `is_ai_related`. -/
def isAiRelated (word : List Char) : Bool :=
  let lowered := tables.lowerText word
  if blacklistTerms.contains (String.ofList lowered) then false
  else if aiSingleWords.contains (String.ofList lowered) then true
  else if searchBounded tables "ai".toList false lowered then true
  else if searchBounded tables "ml".toList false lowered then true
  else partialTerms.any (fun term => decide (term.toList <:+: lowered))

/-- `kw.isdigit()`. -/
def isDigits (kw : List Char) : Bool := !kw.isEmpty && kw.all tables.digit

/-- A letter or digit of ASCII or a hyphen. -/
def allowed (c : Char) : Bool := c.isAlpha || c.isDigit || c = '-'

/-- `re.match(r"^[a-zA-Z0-9\-]+$", kw)`: `$` also matches before a line feed at
the end. -/
def matchesAllowed (kw : List Char) : Bool :=
  let body := if kw.getLast? = some '\n' then kw.dropLast else kw
  !body.isEmpty && body.all allowed

/-- The four checks of the cleaning loop. -/
def survives (kw : List Char) : Bool :=
  if kw.length < 3 || isDigits tables kw then false
  else if !kw.all isAscii then false
  else if !matchesAllowed kw then false
  else isAiRelated tables kw

/-- `sorted(set(final))`. -/
def cleaned (allKeywords : List (List Char)) : List (List Char) :=
  (allKeywords.filter (survives tables)).dedup.insertionSort (· ≤ ·)

/-- What is written: every keyword with a line feed. -/
def written (keywords : List (List Char)) : List Char := keywords.flatMap (fun k => k++['\n'])

/-- `combine_keywords`, given the members of `all_keywords` in the order in
which the set is iterated. -/
def combineKeywords (allKeywords : List (List Char)) : List Char :=
  written (cleaned tables allKeywords)

/-- What the sources put into `all_keywords`. -/
inductive RawKeyword : List Char → Prop where
  /-- The name of a dev.to tag, stripped and lower-cased. -/
  | tag (name : List Char) : RawKeyword (tables.lowerText (strip name))
  /-- A token of a lower-cased text. -/
  | token (token : List Char) (hlower : tables.lowerText token = token)
      (hspace : ∀ c ∈ token, isSpace c = false) : RawKeyword token

/-! ### What survives -/

/-- A keyword as it is written. -/
structure CleanKeyword (kw : List Char) : Prop where
  /-- Three characters at least. -/
  long : 3 ≤ kw.length
  /-- Only ASCII. -/
  ascii : ∀ c ∈ kw, isAscii c = true
  /-- Only letters, digits and hyphens. -/
  plain : ∀ c ∈ kw, allowed c = true
  /-- Not only digits. -/
  notNumber : ∃ c ∈ kw, c.isDigit = false
  /-- It passes the filter. -/
  related : isAiRelated tables kw = true

variable {tables} {kw : List Char} {allKeywords : List (List Char)}

/-- Nothing that is gathered ends in a line feed. -/
theorem RawKeyword.last (h : RawKeyword tables kw) : kw.getLast? ≠ some '\n' := by
  intro hlast
  cases h with
  | tag name =>
    obtain ⟨c,hc,hcd⟩ := CaseTables.getLast?_lowerFrom hlast
    have hspace := CaseTables.space_of_becomes hcd (by decide)
    rw [(trimmed_trim isSpace name).last c hc] at hspace
    cases hspace
  | token _ hlower hspace =>
    have hnot := hspace '\n' (List.mem_of_getLast? hlast)
    exact absurd hnot (by decide)

/-- The characters of ASCII in what is gathered are no capitals. -/
theorem RawKeyword.toLower (h : RawKeyword tables kw) {c : Char} (hc : c ∈ kw)
    (hascii : isAscii c = true) : c.toLower = c := by
  have hlowered : ∃ text, kw = tables.lowerText text := by
    cases h with
    | tag name => exact ⟨_,rfl⟩
    | token _ hlower => exact ⟨_,hlower.symm⟩
  obtain ⟨text,rfl⟩ := hlowered
  obtain ⟨d,-,hd⟩ := CaseTables.mem_lowerFrom hc
  exact CaseTables.toLower_of_becomes hd hascii

/-- On ASCII the digits are those of `0` to `9`. -/
theorem isDigits_eq_false_iff (hne : kw ≠ []) (hascii : ∀ c ∈ kw, isAscii c = true) :
    isDigits tables kw = false ↔ ∃ c ∈ kw, c.isDigit = false := by
  rw [isDigits,List.isEmpty_eq_false_iff.mpr hne,Bool.not_false,Bool.true_and,List.all_eq_false]
  constructor
  · rintro ⟨c,hc,hdigit⟩
    rw [tables.digit_ascii c (hascii c hc),Bool.not_eq_true] at hdigit
    exact ⟨c,hc,hdigit⟩
  · rintro ⟨c,hc,hdigit⟩
    refine ⟨c,hc,?_⟩
    rw [tables.digit_ascii c (hascii c hc),hdigit]
    exact Bool.false_ne_true

/-- The checks one after the other. -/
theorem survives_iff_checks : survives tables kw = true ↔
    3 ≤ kw.length ∧ isDigits tables kw = false ∧ kw.all isAscii = true ∧
      matchesAllowed kw = true ∧ isAiRelated tables kw = true := by
  unfold survives
  cases hdigits : isDigits tables kw <;> cases hascii : kw.all isAscii <;>
    cases hmatches : matchesAllowed kw <;> simp

/-- What survives is what is clean. -/
theorem survives_iff (hlast : kw.getLast? ≠ some '\n') :
    survives tables kw = true ↔ CleanKeyword tables kw := by
  have hmatches : matchesAllowed kw = (!kw.isEmpty && kw.all allowed) := by
    rw [matchesAllowed,if_neg hlast]
  rw [survives_iff_checks,hmatches]
  constructor
  · rintro ⟨hlong,hdigits,hascii,hplain,hrelated⟩
    have hne : kw ≠ [] := List.ne_nil_of_length_pos (by omega)
    rw [List.isEmpty_eq_false_iff.mpr hne,Bool.not_false,Bool.true_and] at hplain
    have hall := List.all_eq_true.mp hascii
    exact ⟨hlong,hall,List.all_eq_true.mp hplain,(isDigits_eq_false_iff hne hall).mp hdigits,
      hrelated⟩
  · intro h
    have hne : kw ≠ [] := List.ne_nil_of_length_pos (by have := h.long; omega)
    rw [List.isEmpty_eq_false_iff.mpr hne,Bool.not_false,Bool.true_and]
    exact ⟨h.long,(isDigits_eq_false_iff hne h.ascii).mpr h.notNumber,
      List.all_eq_true.mpr h.ascii,List.all_eq_true.mpr h.plain,h.related⟩

theorem mem_cleaned : kw ∈ cleaned tables allKeywords ↔
    kw ∈ allKeywords ∧ survives tables kw = true := by
  rw [cleaned,List.mem_insertionSort,List.mem_dedup,List.mem_filter]

/-- The cleaned list increases strictly. -/
theorem cleaned_pairwise : (cleaned tables allKeywords).Pairwise (· < ·) := by
  have hsorted := List.pairwise_insertionSort (· ≤ ·)
    (allKeywords.filter (survives tables)).dedup
  have hnodup := (List.perm_insertionSort (· ≤ ·) _).nodup_iff.mpr
    (List.nodup_dedup (allKeywords.filter (survives tables)))
  exact (hsorted.and hnodup).imp fun h => lt_of_le_of_ne h.1 h.2

/-- Only the members count. -/
theorem cleaned_congr {others : List (List Char)} (h : ∀ kw, kw ∈ others ↔ kw ∈ allKeywords) :
    cleaned tables others = cleaned tables allKeywords :=
  cleaned_pairwise.eq_of_mem_iff cleaned_pairwise fun kw => by rw [mem_cleaned,mem_cleaned,h]

/-- Cleaning again changes nothing. -/
theorem cleaned_cleaned : cleaned tables (cleaned tables allKeywords) =
    cleaned tables allKeywords :=
  cleaned_pairwise.eq_of_mem_iff cleaned_pairwise fun kw => by
    rw [mem_cleaned,mem_cleaned,and_assoc,and_self]

/-! ### Reading back -/

theorem CleanKeyword.toLower (h : CleanKeyword tables kw) (hraw : RawKeyword tables kw) :
    tables.lowerText kw = kw :=
  CaseTables.lowerFrom_of_ascii fun c hc => ⟨h.ascii c hc,hraw.toLower hc (h.ascii c hc)⟩

/-- The characters of a written keyword are no whitespace, quotes or commas. -/
theorem CleanKeyword.keyword (h : CleanKeyword tables kw) : Keyword kw := by
  have hchars : ∀ c ∈ kw, isSpace c = false ∧ isWrapper c = false := fun c hc =>
    ascii_cases (p := fun c => allowed c = true → isSpace c = false ∧ isWrapper c = false)
      (by decide +kernel) c (h.ascii c hc) (h.plain c hc)
  refine ⟨?_,⟨fun c hc => (hchars c (List.mem_of_head? hc)).1,
    fun c hc => (hchars c (List.mem_of_getLast? hc)).1⟩,
    ⟨fun c hc => (hchars c (List.mem_of_head? hc)).2,
    fun c hc => (hchars c (List.mem_of_getLast? hc)).2⟩⟩
  rintro rfl
  exact absurd h.long (by decide)

theorem CleanKeyword.noNewline (h : CleanKeyword tables kw) : ∀ c ∈ kw, isNewline c = false :=
  fun c hc => ascii_cases (p := fun c => allowed c = true → isNewline c = false)
    (by decide +kernel) c (h.ascii c hc) (h.plain c hc)

/-- The lines of a written file are its keywords, bare. -/
theorem written_writes {keywords : List (List Char)}
    (h : ∀ kw ∈ keywords, CleanKeyword tables kw) :
    Writes ((written keywords).splitOnP isNewline) (keywords.map (Entry.mk .bare)) := by
  induction keywords with
  | nil => exact .blank (fun c hc => nomatch hc) .nil
  | cons kw keywords ih =>
    have hkw := h kw List.mem_cons_self
    have hsplit : (written (kw::keywords)).splitOnP isNewline =
        kw::(written keywords).splitOnP isNewline := by
      rw [written,List.flatMap_cons,List.append_assoc,List.singleton_append,
        List.splitOnP_append_cons _ _ (by decide),
        List.splitOnP_eq_singleton hkw.noNewline]
      rfl
    have hentry := Writes.entry [] [] (Entry.mk .bare kw) (fun c hc => nomatch hc)
      (fun c hc => nomatch hc) (ih fun k hk => h k (List.mem_cons_of_mem kw hk))
    rw [hsplit]
    simpa [Entry.written] using hentry

/-- Of what is gathered the clean keywords stay. -/
theorem mem_cleaned_iff (hraw : ∀ kw ∈ allKeywords, RawKeyword tables kw) :
    kw ∈ cleaned tables allKeywords ↔ kw ∈ allKeywords ∧ CleanKeyword tables kw :=
  mem_cleaned.trans (and_congr_right fun hkw => survives_iff (hraw kw hkw).last)

/-- Every loader reads back the keywords that are written, if there are any. -/
theorem cleaned_readBack (hraw : ∀ kw ∈ allKeywords, RawKeyword tables kw)
    (hne : cleaned tables allKeywords ≠ []) (loader : Loader) :
    load tables.toCaseTables loader (some (combineKeywords tables allKeywords)) =
      (cleaned tables allKeywords).map String.ofList := by
  have hclean : ∀ kw ∈ cleaned tables allKeywords, CleanKeyword tables kw :=
    fun kw hkw => ((mem_cleaned_iff hraw).mp hkw).2
  have hkeywords : ∀ e ∈ (cleaned tables allKeywords).map (Entry.mk .bare),
      Keyword e.keyword := by
    intro e he
    obtain ⟨kw,hkw,rfl⟩ := List.mem_map.mp he
    exact (hclean kw hkw).keyword
  rw [combineKeywords,load_writes tables.toCaseTables loader (written_writes hclean)
    (fun h => hne (List.map_eq_nil_iff.mp h)) hkeywords,List.map_map]
  refine List.map_congr_left fun kw hkw => congrArg String.ofList ?_
  -- a bare keyword without capitals reaches every loader as it is
  have hlower := (hclean kw hkw).toLower (hraw kw (mem_cleaned.mp hkw).1)
  rw [(loaded_eq_iff tables.toCaseTables loader _).mpr (by rintro - ⟨⟩),cased]
  split
  · exact hlower
  · rfl

/-- The file holds the cleaned keywords, in canonical form, and they are what
every loader reads back. -/
structure RoundTrips (tables : TextTables) (allKeywords : List (List Char)) : Prop where
  /-- The keywords increase strictly by code point. -/
  sorted : (cleaned tables allKeywords).Pairwise (· < ·)
  /-- Each of them is clean. -/
  clean : ∀ kw ∈ cleaned tables allKeywords, CleanKeyword tables kw
  /-- They are the clean ones among what was gathered, all of them. -/
  members : ∀ kw, kw ∈ cleaned tables allKeywords ↔
    kw ∈ allKeywords ∧ CleanKeyword tables kw
  /-- Every loader returns them. -/
  readBack : ∀ loader,
    load tables.toCaseTables loader (some (combineKeywords tables allKeywords)) =
      (cleaned tables allKeywords).map String.ofList
  /-- Cleaning what a loader returns writes the file again. -/
  again : ∀ loader,
    combineKeywords tables
      ((load tables.toCaseTables loader (some (combineKeywords tables allKeywords))).map
        String.toList) = combineKeywords tables allKeywords
  /-- Only the members of the set count. -/
  sources : ∀ others : List (List Char), (∀ kw, kw ∈ others ↔ kw ∈ allKeywords) →
    combineKeywords tables others = combineKeywords tables allKeywords

/-- Whatever the sources gather, the file makes the round trip as soon as one
keyword survives. -/
theorem combineKeywords_roundTrips (tables : TextTables) {allKeywords : List (List Char)}
    (hraw : ∀ kw ∈ allKeywords, RawKeyword tables kw)
    (hne : ∃ kw ∈ allKeywords, survives tables kw = true) : RoundTrips tables allKeywords := by
  have hnonempty : cleaned tables allKeywords ≠ [] := by
    obtain ⟨kw,hmem,hsurvives⟩ := hne
    exact List.ne_nil_of_mem (mem_cleaned.mpr ⟨hmem,hsurvives⟩)
  have hread : ∀ loader,
      load tables.toCaseTables loader (some (combineKeywords tables allKeywords)) =
        (cleaned tables allKeywords).map String.ofList := cleaned_readBack hraw hnonempty
  refine ⟨cleaned_pairwise,fun kw hkw => ((mem_cleaned_iff hraw).mp hkw).2,
    fun kw => mem_cleaned_iff hraw,hread,fun loader => ?_,fun others h => ?_⟩
  · rw [hread,List.map_map]
    have hlist : (cleaned tables allKeywords).map (String.toList∘String.ofList) =
        cleaned tables allKeywords := by simp [Function.comp_def]
    rw [hlist,combineKeywords,cleaned_cleaned,combineKeywords]
  · rw [combineKeywords,combineKeywords,cleaned_congr h]

/-- The tables of ASCII. -/
def sampleTextTables : TextTables where
  toCaseTables := sampleTables
  digit c := c.isDigit
  wordChar c := c.isAlphanum || c = '_'
  digit_ascii _ _ := rfl

theorem combineKeywords_roundTrips_sample :
    RoundTrips sampleTextTables [sampleTextTables.lowerText (strip " AI-Agents ".toList),
      "neural".toList,"1234".toList] :=
  combineKeywords_roundTrips sampleTextTables
    (by
      intro kw hkw
      rcases List.mem_cons.mp hkw with rfl | hkw
      · exact .tag " AI-Agents ".toList
      · rcases List.mem_pair.mp hkw with rfl | rfl
        · exact .token _ (by decide +kernel) (by simp [isSpace])
        · exact .token _ (by decide +kernel) (by simp [isSpace]))
    ⟨"neural".toList,by simp,by decide +kernel⟩

end Senca.KeywordHarvest
