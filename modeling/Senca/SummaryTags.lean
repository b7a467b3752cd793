import Senca.ScraperCollectors

/-!
# What is left of the model's reasoning in a summary

The model writes its reasoning between `<think>` and `</think>` and then its
answer. The scrapers keep what follows the last closing tag, provided both
tags occur, and the whole output otherwise; the older copy in `devto1.py`
always keeps the whole output. A summary is free of reasoning exactly when
the output has no tags or, except for that copy, when the last of its tags
closes and some tag opens; and it is the answer as the model wrote it when
that has no carriage return, since all copies read the output as text.
-/

namespace Senca.SummaryTags

open PythonRuntime PythonText ScraperCollectors TextScanning

/-! ### The ten copies -/

/-- The scrapers with a `summarize_with_deepseek_r1` of their own. -/
inductive Scraper where
  | devto
  | devto1
  | fetchPapers
  | github
  | huggingface
  | newsApi
  | scrape
  | spotify1
  | tools1
  | youtube
  deriving DecidableEq

/-- The prompt of a copy. -/
def prompt (scraper : Scraper) (text : String) (maxWords : ℕ) : String :=
  match scraper with
  | .tools1 => toolPrompt text maxWords
  | _ => summaryPrompt text maxWords

/-- `summarize_with_deepseek_r1` of `devto1.py`, given the prompt it builds. -/
def summarizeWithDeepseekR1Devto1 (ollama : Ollama) (call : ℕ) (prompt : String) : String :=
  match ollama call prompt with
  | .ok stdout => String.ofList (strip (capturedStdout stdout))
  | .error message => "Error: "++message

/-- `summarize_with_deepseek_r1` of a scraper. -/
def summarize (scraper : Scraper) (ollama : Ollama) (call : ℕ) (text : String)
    (maxWords : ℕ) : String :=
  match scraper with
  | .devto1 => summarizeWithDeepseekR1Devto1 ollama call (prompt .devto1 text maxWords)
  | scraper => summarizeWithDeepseekR1 ollama call (prompt scraper text maxWords)

/-- The summary made of one output of the model. -/
def summaryOf (scraper : Scraper) (stdout : String) : String :=
  match scraper with
  | .devto1 => String.ofList (strip (capturedStdout stdout))
  | _ => extractSummary stdout

theorem summarize_eq {scraper : Scraper} {ollama : Ollama} {call : ℕ} {text stdout : String}
    {maxWords : ℕ} (h : ollama call (prompt scraper text maxWords) = .ok stdout) :
    summarize scraper ollama call text maxWords = summaryOf scraper stdout := by
  cases scraper <;>
    simp only [summarize,summarizeWithDeepseekR1,summarizeWithDeepseekR1Devto1,summaryOf,h]

/-! ### Tags -/

/-- `<think>`. -/
def openTag : Marker Char := ⟨'<',"think>".toList,by decide⟩

/-- `</think>`. -/
def closeTag : Marker Char := ⟨'<',"/think>".toList,by decide⟩

/-- Neither tag occurs in the text. -/
structure TagFree (text : List Char) : Prop where
  /-- No opening tag. -/
  noOpen : ¬openTag.word <:+: text
  /-- No closing tag. -/
  noClose : ¬closeTag.word <:+: text

theorem openTag_trimmed : Trimmed isSpace openTag.word :=
  trimmed_of_ends (by decide) (by decide)

theorem closeTag_trimmed : Trimmed isSpace closeTag.word :=
  trimmed_of_ends (by decide) (by decide)

/-- Neither stripping nor the translation of line ends makes or breaks a tag. -/
theorem openTag_captured {text : List Char} :
    openTag.word <:+: strip (universalNewlines false text) ↔ openTag.word <:+: text :=
  (infix_trim openTag.word_ne_nil openTag_trimmed).trans
    (infix_universalNewlines openTag.word_ne_nil (by decide) (by decide) false text)

theorem closeTag_captured {text : List Char} :
    closeTag.word <:+: strip (universalNewlines false text) ↔ closeTag.word <:+: text :=
  (infix_trim closeTag.word_ne_nil closeTag_trimmed).trans
    (infix_universalNewlines closeTag.word_ne_nil (by decide) (by decide) false text)

theorem tagFree_captured {text : List Char} :
    TagFree (strip (universalNewlines false text)) ↔ TagFree text :=
  ⟨fun h => ⟨mt openTag_captured.mpr h.noOpen,mt closeTag_captured.mpr h.noClose⟩,
    fun h => ⟨mt openTag_captured.mp h.noOpen,mt closeTag_captured.mp h.noClose⟩⟩

/-! ### The extraction -/

/-- A text as a scraper returns it. -/
def returnedText (text : List Char) : String :=
  String.ofList (strip (universalNewlines false text))

/-- It is the stripped text exactly when that has no carriage return. -/
theorem returnedText_eq_strip {text : List Char} :
    returnedText text = String.ofList (strip text) ↔ '\r' ∉ strip text := by
  rw [returnedText,strip_universalNewlines,← universalNewlines_eq_self]
  exact ⟨fun h => String.ofList_injective h,congrArg String.ofList⟩

/-- With both tags, the summary is what follows the last closing tag. -/
theorem extractSummary_closed {stdout : String} {a b : List Char}
    (hs : stdout.toList = a++closeTag.word++b) (hopen : openTag.word <:+: stdout.toList)
    (hb : ¬closeTag.word <:+: b) : extractSummary stdout = returnedText b := by
  have hclose : closeTag.word <:+: stdout.toList := by
    rw [hs]
    exact List.infix_append _ _ _
  -- the tag keeps the line ends on its two sides apart
  have htag : ∀ afterReturn, universalNewlines afterReturn (closeTag.word++b) =
      closeTag.word++universalNewlines false b := fun _ => rfl
  have hcaptured : capturedStdout stdout =
      universalNewlines false a++closeTag.word++universalNewlines false b := by
    rw [capturedStdout,hs,List.append_assoc,universalNewlines_append,htag,List.append_assoc]
  have hb' : ¬closeTag.word <:+: universalNewlines false b :=
    mt (infix_universalNewlines closeTag.word_ne_nil (by decide) (by decide) false b).mp hb
  have houtput : strip (capturedStdout stdout) =
      (universalNewlines false a).dropWhile isSpace++closeTag.word++
        (universalNewlines false b).rdropWhile isSpace := by
    rw [hcaptured]
    exact trim_around closeTag.word_ne_nil closeTag_trimmed _ _
  have hlast := split_last closeTag (a := (universalNewlines false a).dropWhile isSpace)
    (b := (universalNewlines false b).rdropWhile isSpace)
    fun h => hb' (h.trans (List.rdropWhile_prefix isSpace _).isInfix)
  unfold extractSummary
  rw [if_pos ⟨openTag_captured.mpr hopen,closeTag_captured.mpr hclose⟩,houtput]
  change (if 1 < (split closeTag.word _).length then _ else _) = _
  rw [if_pos hlast.1]
  change String.ofList (strip ((split closeTag.word _).getLastD [])) = _
  rw [hlast.2]
  exact congrArg String.ofList (trim_rdropWhile (universalNewlines false b))

/-- Otherwise it is the whole output. -/
theorem extractSummary_whole {stdout : String}
    (h : ¬(openTag.word <:+: stdout.toList ∧ closeTag.word <:+: stdout.toList)) :
    extractSummary stdout = returnedText stdout.toList := by
  unfold extractSummary
  exact if_neg (mt (And.imp openTag_captured.mp closeTag_captured.mp) h)

/-! ### Summaries without reasoning -/

/-- Two outputs that differ in the text right after one opening tag, up to the
next tag or the end. -/
def DiffersInside (stdout other : List Char) : Prop :=
  ∃ before reasoning reasoning' after, TagFree reasoning ∧ TagFree reasoning' ∧
    (after = [] ∨ openTag.word <+: after ∨ closeTag.word <+: after) ∧
    stdout = before++openTag.word++reasoning++after ∧
    other = before++openTag.word++reasoning'++after

/-- The output is one closed block and an answer without tags. -/
def OneBlock (stdout answer : List Char) : Prop :=
  ∃ space reasoning, (∀ c ∈ space, isSpace c = true) ∧ TagFree reasoning ∧ TagFree answer ∧
    stdout = space++openTag.word++reasoning++closeTag.word++answer

/-- The summary of an output is free of what the model writes between tags. -/
structure FreeOfReasoning (summary : String → String) (stdout : String) : Prop where
  /-- Neither tag is left. -/
  tagFree : TagFree (summary stdout).toList
  /-- The text inside a block does not matter. -/
  independent : ∀ other : String, DiffersInside stdout.toList other.toList →
    summary other = summary stdout
  /-- One block and an answer give the answer. -/
  answered : ∀ answer, OneBlock stdout.toList answer →
    summary stdout = String.ofList (strip answer)

/-- The output has no tags, or the scraper looks for them, some tag opens and
the last one closes; and the answer behind a single block, but for the space
around it, has no carriage return. -/
structure CleanOutput (scraper : Scraper) (stdout : List Char) : Prop where
  closed : TagFree stdout ∨ (scraper ≠ .devto1 ∧ openTag.word <:+: stdout ∧
    ∃ a b, stdout = a++closeTag.word++b ∧ TagFree b)
  fed : ∀ answer, OneBlock stdout answer → '\r' ∉ strip answer

section Clean

variable {scraper : Scraper} {stdout : String}

/-- What an output with both tags leaves is the text behind its last closing tag. -/
theorem summaryOf_closed (hs : scraper ≠ .devto1) {a b : List Char}
    (hstdout : stdout.toList = a++closeTag.word++b) (hopen : openTag.word <:+: stdout.toList)
    (hb : ¬closeTag.word <:+: b) : summaryOf scraper stdout = returnedText b := by
  cases scraper with
  | devto1 => exact absurd rfl hs
  | _ => exact extractSummary_closed hstdout hopen hb

/-- An output without tags is its own summary. -/
theorem summaryOf_whole
    (h : scraper ≠ .devto1 →
      ¬(openTag.word <:+: stdout.toList ∧ closeTag.word <:+: stdout.toList)) :
    summaryOf scraper stdout = returnedText stdout.toList := by
  cases scraper with
  | devto1 => rfl
  | _ => exact extractSummary_whole (h (by decide))

/-- A block is closed behind its text when the last tag of the output closes. -/
theorem close_behind {before reasoning after a b : List Char}
    (hafter : after = [] ∨ openTag.word <+: after ∨ closeTag.word <+: after)
    (hreasoning : TagFree reasoning)
    (h : before++openTag.word++reasoning++after = a++closeTag.word++b) (hb : TagFree b) :
    closeTag.word <:+: after := by
  by_contra hnot
  have hbehind : ¬closeTag.word <:+: reasoning++after := by
    rcases hafter with rfl | ⟨rest,rfl⟩ | hclose
    · simpa using hreasoning.noClose
    · rw [show openTag.word++rest = closeTag.lead::(openTag.rest++rest) from rfl,
        closeTag.infix_append_lead,not_or]
      exact ⟨hreasoning.noClose,hnot⟩
    · exact absurd hclose.isInfix hnot
  have hblock : ¬closeTag.word <:+: openTag.word++(reasoning++after) := by
    rw [closeTag.infix_word_append (n := openTag) rfl (by rintro ⟨t,ht⟩; cases ht)]
    exact hbehind
  have hjoint : a++closeTag.word++b =
      before++closeTag.lead::(openTag.rest++(reasoning++after)) := by
    rw [← h]
    simp [Marker.word,openTag,closeTag]
  have hsuffix := closeTag.suffix_behind hjoint hblock
  have hopen : openTag.word <:+: openTag.word++(reasoning++after) :=
    (List.prefix_append _ _).isInfix
  exact hb.noOpen (hopen.trans hsuffix.isInfix)

/-- The text of a block does not reach the summary of an output whose last tag
closes. -/
theorem independent_of_closed (hs : scraper ≠ .devto1) {a b : List Char}
    (hstdout : stdout.toList = a++closeTag.word++b) (hb : TagFree b) {other : String}
    (h : DiffersInside stdout.toList other.toList) :
    summaryOf scraper other = summaryOf scraper stdout := by
  obtain ⟨before,reasoning,reasoning',after,hr,-,hafter,hs₁,hs₂⟩ := h
  obtain ⟨x,y,rfl,hy⟩ := exists_last closeTag.word_ne_nil
    (close_behind hafter hr (hs₁.symm.trans hstdout) hb)
  -- both outputs end in the same last closing tag and the text behind it
  have hsummary : ∀ {out : String} {text : List Char},
      out.toList = before++openTag.word++text++(x++closeTag.word++y) →
      summaryOf scraper out = returnedText y := by
    intro out text hout
    refine summaryOf_closed (a := before++openTag.word++text++x) hs (by rw [hout]; simp) ?_ hy
    rw [hout,List.append_assoc,List.append_assoc]
    exact List.infix_append' _ _ _
  rw [hsummary hs₁,hsummary hs₂]

/-- A block opens. -/
theorem OneBlock.opens {output answer : List Char} (h : OneBlock output answer) :
    openTag.word <:+: output := by
  obtain ⟨space,reasoning,-,-,-,rfl⟩ := h
  rw [List.append_assoc,List.append_assoc]
  exact List.infix_append _ _ _

/-- The summary of one block and an answer is the answer as it is returned. -/
theorem summaryOf_oneBlock (hs : scraper ≠ .devto1) {answer : List Char}
    (h : OneBlock stdout.toList answer) : summaryOf scraper stdout = returnedText answer := by
  have hopen := h.opens
  obtain ⟨space,reasoning,-,-,hanswer,hstdout⟩ := h
  exact summaryOf_closed hs hstdout hopen hanswer.noClose

theorem freeOfReasoning_of_clean (h : CleanOutput scraper stdout.toList) :
    FreeOfReasoning (summaryOf scraper) stdout := by
  rcases h.closed with hfree | ⟨hs,hopen,a,b,hstdout,hb⟩
  · refine ⟨?_,?_,fun answer hblock => absurd hblock.opens hfree.noOpen⟩
    · rw [summaryOf_whole fun _ hboth => hfree.noOpen hboth.1,returnedText,String.toList_ofList]
      exact tagFree_captured.mpr hfree
    · rintro other ⟨before,reasoning,reasoning',after,-,-,-,hstdout,-⟩
      rw [List.append_assoc _ reasoning] at hstdout
      refine absurd ?_ hfree.noOpen
      rw [hstdout]
      exact List.infix_append _ _ _
  · refine ⟨?_,fun other => independent_of_closed hs hstdout hb,fun answer hblock => ?_⟩
    · rw [summaryOf_closed hs hstdout hopen hb.noClose,returnedText,String.toList_ofList]
      exact tagFree_captured.mpr hb
    · rw [summaryOf_oneBlock hs hblock]
      exact returnedText_eq_strip.mpr (h.fed answer hblock)

theorem clean_of_free (h : FreeOfReasoning (summaryOf scraper) stdout) :
    CleanOutput scraper stdout.toList := by
  have hfree := h.tagFree
  by_cases hboth : scraper ≠ .devto1 ∧ openTag.word <:+: stdout.toList ∧
      closeTag.word <:+: stdout.toList
  · obtain ⟨hs,hopen,hclose⟩ := hboth
    obtain ⟨a,b,hstdout,hb⟩ := exists_last closeTag.word_ne_nil hclose
    rw [summaryOf_closed hs hstdout hopen hb,returnedText,String.toList_ofList,
      tagFree_captured] at hfree
    refine ⟨Or.inr ⟨hs,hopen,a,b,hstdout,hfree⟩,fun answer hblock => ?_⟩
    have hanswer := h.answered answer hblock
    rw [summaryOf_oneBlock hs hblock] at hanswer
    exact returnedText_eq_strip.mp hanswer
  · rw [summaryOf_whole fun hs htags => hboth ⟨hs,htags⟩,returnedText,String.toList_ofList,
      tagFree_captured] at hfree
    exact ⟨Or.inl hfree,fun answer hblock => absurd hblock.opens hfree.noOpen⟩

end Clean

/-- The summary a scraper makes of an output is free of reasoning exactly when
the output is clean for that scraper. -/
theorem summary_free_iff (scraper : Scraper) (call : ℕ) (text : String) (maxWords : ℕ)
    (stdout : String) :
    FreeOfReasoning (fun out => summarize scraper (fun _ _ => .ok out) call text maxWords)
      stdout ↔ CleanOutput scraper stdout.toList := by
  have hsummary : (fun out => summarize scraper (fun _ _ => .ok out) call text maxWords) =
      summaryOf scraper := funext fun out => summarize_eq rfl
  rw [hsummary]
  exact ⟨clean_of_free,freeOfReasoning_of_clean⟩

/-- An output whose opening tag is missing keeps its reasoning. -/
theorem unopenedBlock_not_free :
    ¬FreeOfReasoning (fun out => summarize .youtube (fun _ _ => .ok out) 0 "Intro from A" 50)
      "The user wants a summary.</think>An introduction." :=
  fun h => h.tagFree.noClose (by decide +kernel)

end Senca.SummaryTags
