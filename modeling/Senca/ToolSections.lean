import Senca.MatchScanning
import Senca.ScraperCollectors

/-!
# Sections of the tools list

Which links `extract_tools_from_section` takes from a document. The section
is found by substring search, while a heading is a whole line; the two agree
exactly when no look-alike of a heading gets in the way of the first links.
-/

namespace Senca.ToolSections

open MatchScanning PythonText ScraperCollectors TextScanning

/-! ### Inline links -/

/-- The two groups of a match. -/
structure IsLink (name target : List Char) : Prop where
  name_ne : name ≠ []
  name_stops : ']' ∉ name
  target_ne : target ≠ []
  target_stops : ')' ∉ target

/-- The text of an inline link. -/
def linkText (name target : List Char) : List Char :=
  '['::(name++ ']' :: '('::(target++[')']))

theorem dropWhile_cons_eq {c d : Char} {text rest : List Char}
    (h : text.dropWhile (· ≠ c) = d::rest) : d = c ∧ text = text.takeWhile (· ≠ c)++c::rest ∧
      c ∉ text.takeWhile (· ≠ c) := by
  have hd : d = c := by
    have := List.head?_dropWhile_not (· ≠ c) text
    rw [h] at this
    simpa using this
  refine ⟨hd,?_,fun hc => ?_⟩
  · conv_lhs => rw [← List.takeWhile_append_dropWhile (p := (· ≠ c)) (l := text),h,hd]
  · simpa using List.mem_takeWhile_imp hc

/-- A match is an inline link at the start of the text. -/
theorem linkAt_eq_some_iff {text name target : List Char} {size : ℕ} :
    linkAt text = some (name,target,size) ↔ IsLink name target ∧ linkText name target <+: text ∧
      size = (linkText name target).length := by
  constructor
  · intro h
    unfold linkAt at h
    split at h
    · next rest =>
      dsimp only at h
      split at h
      · next inner hname =>
        split at h
        · next tail htarget =>
          split at h
          · cases h
          · next hne =>
            rw [not_or] at hne
            cases h
            obtain ⟨-,hrest,hrestm⟩ := dropWhile_cons_eq hname
            obtain ⟨-,hinner,hinnerm⟩ := dropWhile_cons_eq htarget
            refine ⟨⟨hne.1,hrestm,hne.2,hinnerm⟩,⟨tail,?_⟩,?_⟩
            · conv_rhs => rw [hrest,hinner]
              simp [linkText]
            · simp only [linkText,List.length_cons,List.length_append,List.length_nil]
              omega
        · cases h
      · cases h
    · cases h
  · rintro ⟨hlink,⟨tail,rfl⟩,rfl⟩
    have hname := takeWhile_stop hlink.name_stops ('('::(target++ ')'::tail))
    have htarget := takeWhile_stop hlink.target_stops tail
    have htext : linkText name target++tail = '['::(name++ ']' :: '('::(target++ ')'::tail)) := by
      simp [linkText]
    rw [htext]
    simp only [linkAt]
    rw [hname.1,hname.2]
    simp only []
    rw [htarget.1,htarget.2]
    simp only [hlink.name_ne,hlink.target_ne,or_self,if_false,Option.some.injEq,Prod.mk.injEq,
      true_and]
    simp only [linkText,List.length_cons,List.length_append,List.length_nil]
    omega

theorem linkText_eq (name target : List Char) :
    linkText name target = ('['::name)++(']' :: '('::target)++[')'] := by
  simp [linkText]

/-- A link that begins inside another one does not end before it. -/
theorem link_inner {name target name' target' text : List Char} {skip : ℕ}
    (h : IsLink name target) (hstarts : linkText name target <+: text)
    (hskip : skip < (linkText name target).length)
    (hstarts' : linkText name' target' <+: text.drop skip) :
    (linkText name target).length ≤ skip+(linkText name' target').length := by
  by_contra hlt
  -- the inner link lies in all of the outer one but its last bracket
  have hshort : linkText name' target' <+: ((('['::name)++(']' :: '('::target)).drop skip) := by
    refine List.prefix_of_prefix_length_le hstarts' ?_ ?_
    · rw [linkText_eq] at hstarts
      exact ((List.prefix_append _ _).trans hstarts).drop skip
    · rw [linkText_eq name target,List.length_append,List.length_singleton] at hlt hskip
      rw [List.length_drop]
      omega
  have hinfix := hshort.isInfix.trans (List.drop_suffix _ _).isInfix
  have hlast : ∀ c ∈ (linkText name' target').getLast?, c ∉ ']' :: '('::target := by
    intro c hc
    rw [linkText_eq,List.getLast?_concat] at hc
    obtain rfl : ')' = c := Option.some.inj hc
    simpa using h.target_stops
  have hname := (infix_append_right (List.cons_ne_nil _ _) hlast).mp hinfix
  have hmem : ']' ∈ '['::name := hname.subset (by simp)
  exact h.name_stops ((List.mem_cons.mp hmem).resolve_left (by decide))

/-- The match at the start of a text, with its two groups in a pair. -/
def matchLink (text : List Char) : Option ((List Char×List Char)×ℕ) :=
  (linkAt text).map (fun link => ((link.1,link.2.1),link.2.2))

theorem matchLink_eq_some_iff {text name target : List Char} {size : ℕ} :
    matchLink text = some ((name,target),size) ↔ IsLink name target ∧
      linkText name target <+: text ∧ size = (linkText name target).length := by
  rw [← linkAt_eq_some_iff,matchLink]
  cases linkAt text with
  | none => simp
  | some link => simp [Prod.ext_iff,and_assoc]

/-- The link pattern of the regular expression. -/
def linkMatcher : Matcher Char (List Char×List Char) where
  matchAt := matchLink
  size_pos := by
    intro text value size h
    rw [(matchLink_eq_some_iff.mp h).2.2]
    exact Nat.succ_pos _
  matchAt_take text n := by
    refine Option.ext fun found => ?_
    obtain ⟨⟨name,target⟩,size⟩ := found
    rw [Option.filter_eq_some_iff,matchLink_eq_some_iff,matchLink_eq_some_iff,
      List.prefix_take_iff,decide_eq_true_eq]
    constructor
    · rintro ⟨hlink,⟨hstarts,hle⟩,rfl⟩
      exact ⟨⟨hlink,hstarts,rfl⟩,hle⟩
    · rintro ⟨⟨hlink,hstarts,rfl⟩,hle⟩
      exact ⟨hlink,⟨hstarts,hle⟩,rfl⟩
  inner := by
    rintro text ⟨name,target⟩ size skip ⟨name',target'⟩ size' h hskip h'
    obtain ⟨hlink,hstarts,rfl⟩ := matchLink_eq_some_iff.mp h
    obtain ⟨-,hstarts',rfl⟩ := matchLink_eq_some_iff.mp h'
    exact link_inner hlink hstarts hskip hstarts'

/-- The links that are found are the matches of the scan. -/
theorem findLinksFrom_eq (place skip : ℕ) (text : List Char) :
    findLinksFrom skip text = (linkMatcher.scanFrom place skip text).map Found.value := by
  fun_induction Matcher.scanFrom linkMatcher place skip text with
  | case1 => rw [findLinksFrom]; rfl
  | case2 place skip c rest ih =>
    rw [findLinksFrom]
    exact ih
  | case3 place c rest value size hfound ih =>
    obtain ⟨name,target⟩ := value
    rw [findLinksFrom,linkAt_eq_some_iff.mpr (matchLink_eq_some_iff.mp hfound)]
    exact congrArg _ ih
  | case4 place c rest hnone ih =>
    have hnone' : linkAt (c::rest) = none := Option.map_eq_none_iff.mp hnone
    rw [findLinksFrom,hnone']
    exact ih

theorem findLinks_eq (place : ℕ) (text : List Char) :
    findLinks text = (linkMatcher.scanFrom place 0 text).map Found.value :=
  findLinksFrom_eq place 0 text

/-! ### Sections -/

/-- The text of lines, each with its line end. -/
def linesText (lines : List (List Char)) : List Char := lines.flatMap (·++['\n'])

/-- The two heading lines of a section in a document. -/
structure Section (content marker next : List Char) where
  /-- The lines before the first line that is the section marker. -/
  before : List (List Char)
  /-- The lines between the two headings. -/
  body : List (List Char)
  /-- The lines after the next section marker. -/
  after : List (List Char)
  /-- These are the lines of the document. -/
  lines : content.splitOn '\n' = before++marker::(body++next::after)
  /-- The heading is the first line that is the section marker. -/
  marker_first : marker ∉ before
  /-- The section ends at the next line that is the next section marker. -/
  next_first : next ∉ body

/-- Lines before others are joined to them with their line ends. -/
theorem intercalate_append {rest : List (List Char)} (h : rest ≠ []) (lines : List (List Char)) :
    ['\n'].intercalate (lines++rest) = linesText lines++['\n'].intercalate rest := by
  induction lines with
  | nil => rfl
  | cons line lines ih =>
    have hne : lines++rest ≠ [] := List.append_ne_nil_of_right_ne_nil lines h
    rw [List.cons_append,List.intercalate_cons_of_ne_nil hne,ih]
    simp [linesText]

namespace Section

variable {content marker next : List Char} (s : Section content marker next)

/-- The place of the heading line. -/
def start : ℕ := (linesText s.before).length

/-- The text strictly between the two headings. -/
def region : List Char := linesText s.body

/-- The place of that text. -/
def regionStart : ℕ := s.start+marker.length+1

/-- The first two links of the section, with their places in the document. -/
def links : List (Found (List Char×List Char)) :=
  (linkMatcher.scanFrom s.regionStart 0 s.region).take 2

/-- A document in which the two headings occur as lines has the section. -/
theorem exists_of_lines {before body after : List (List Char)}
    (h : content.splitOn '\n' = before++marker::(body++next::after)) :
    Nonempty (Section content marker next) := by
  obtain ⟨before',rest,hrest,hmarker⟩ :=
    List.eq_append_cons_of_mem (show marker ∈ before++[marker] by simp)
  obtain ⟨body',after',hbody,hnext⟩ :=
    List.eq_append_cons_of_mem (show next ∈ rest++(body++next::after) by simp)
  have hlines : content.splitOn '\n' = before'++marker::(rest++(body++next::after)) := by
    rw [h,List.append_cons,hrest,List.append_assoc,List.cons_append]
  exact ⟨⟨before',body',after',by rw [hlines,hbody],hmarker,hnext⟩⟩

/-- The document around the section, from a place up to the heading line. -/
theorem drop_eq : ∃ tail, ∀ k ≤ s.start, content.drop k =
    ((linesText s.before).drop k++(marker++['\n']))++s.region++(next++tail) := by
  have htail : ∃ tail, ['\n'].intercalate (next::s.after) = next++tail := by
    cases s.after with
    | nil => exact ⟨[],by rw [List.intercalate_singleton,List.append_nil]⟩
    | cons line lines =>
      rw [List.intercalate_cons_cons,List.append_assoc]
      exact ⟨_,rfl⟩
  obtain ⟨tail,htail⟩ := htail
  have hcontent : content =
      linesText s.before++((marker++['\n'])++(s.region++(next++tail))) := by
    have hlines : ['\n'].intercalate (content.splitOn '\n') = content :=
      List.intercalate_splitOn '\n'
    refine hlines.symm.trans ?_
    rw [s.lines,intercalate_append (List.cons_ne_nil _ _),
      List.intercalate_cons_of_ne_nil (List.append_ne_nil_of_right_ne_nil _ (List.cons_ne_nil _ _)),
      intercalate_append (List.cons_ne_nil _ _),htail,region]
  refine ⟨tail,fun k hk => (congrArg (List.drop k) hcontent).trans ?_⟩
  rw [List.drop_append_of_le_length hk]
  simp only [List.append_assoc]

/-- The region begins behind what stands in front of it from a place on. -/
theorem length_head {k : ℕ} (hk : k ≤ s.start) :
    k+((linesText s.before).drop k++(marker++['\n'])).length = s.regionStart := by
  have hstart : s.start = (linesText s.before).length := rfl
  rw [regionStart,List.length_append,List.length_drop,List.length_append,List.length_singleton]
  omega

/-- Both markers stand at their lines, so they are found there or before. -/
theorem found : ∃ i j, i ≤ s.start ∧ firstIndex marker content = some i ∧
    firstIndex next (content.drop i) = some j ∧ i+j ≤ s.regionStart+s.region.length := by
  obtain ⟨tail,hdrop⟩ := s.drop_eq
  have hmarker : marker <+: content.drop s.start := by
    rw [hdrop s.start le_rfl,start,List.drop_length,List.nil_append,List.append_assoc,
      List.append_assoc]
    exact List.prefix_append _ _
  obtain ⟨i,hi,hfirst⟩ := firstIndex_le hmarker
  have hhead := s.length_head hi
  have hnext : next <+: (content.drop i).drop
      (((linesText s.before).drop i++(marker++['\n'])).length+s.region.length) := by
    rw [hdrop i hi,← List.length_append,List.drop_left]
    exact List.prefix_append _ _
  obtain ⟨j,hj,hsecond⟩ := firstIndex_le hnext
  exact ⟨i,j,hi,hfirst,hsecond,by omega⟩

end Section

/-- The links that `extract_tools_from_section` returns, with their places in
the document. -/
def extractedLinks (content marker next : List Char) : List (Found (List Char×List Char)) :=
  match firstIndex marker content with
  | none => []
  | some i => (linkMatcher.scanFrom i 0 (textBefore next (content.drop i))).take 2

theorem extractToolsFromSection_eq (content marker next : List Char) :
    extractToolsFromSection content marker next =
      (extractedLinks content marker next).map Found.value := by
  rw [extractToolsFromSection,extractedLinks,suffixFrom_eq]
  cases firstIndex marker content with
  | none => rfl
  | some i =>
    rw [Option.map_some]
    dsimp only
    rw [findLinks_eq i,List.map_take]

theorem extractedLinks_of_found {content marker next : List Char} {i j : ℕ}
    (hi : firstIndex marker content = some i) (hj : firstIndex next (content.drop i) = some j) :
    extractedLinks content marker next =
      (linkMatcher.scanFrom i 0 ((content.drop i).take j)).take 2 := by
  rw [extractedLinks,hi]
  dsimp only
  rw [textBefore_eq,hj,Option.getD_some]

/-- Exactly the first two links of the section are returned, and they are the
ones that stand there. -/
def ExtractsSection {content marker next : List Char} (s : Section content marker next) : Prop :=
  extractToolsFromSection content marker next = (findLinks s.region).take 2 ∧
    extractedLinks content marker next = s.links

/-- Between the first place of the section marker and the next place of the
other marker, inside a line or not, no link begins before the heading line,
and the first two links of the section end before that next place. -/
def Undisturbed {content marker next : List Char} (s : Section content marker next) : Prop :=
  ∀ i ∈ firstIndex marker content, ∀ j ∈ firstIndex next (content.drop i),
    (∀ link ∈ linkMatcher.scanFrom i 0 (content.drop i), link.stop ≤ i+j →
      s.start ≤ link.start) ∧ ∀ link ∈ s.links, link.stop ≤ i+j

/-- A match does not begin at letters none of which is a bracket. -/
theorem matchLink_head {text : List Char} {found : (List Char×List Char)×ℕ}
    (h : matchLink text = some found) : text.head? = some '[' := by
  obtain ⟨⟨name,target⟩,size⟩ := found
  obtain ⟨-,⟨tail,rfl⟩,-⟩ := matchLink_eq_some_iff.mp h
  rfl

/-- No link begins in a part without opening brackets. -/
theorem start_behind {place : ℕ} {before mid after : List Char}
    {link : Found (List Char×List Char)} (hmid : '[' ∉ mid)
    (hlink : link ∈ linkMatcher.scanFrom place 0 (before++mid++after))
    (hstart : place+before.length ≤ link.start) :
    place+(before++mid).length ≤ link.start := by
  obtain ⟨k,-,hk,hmatch⟩ := Matcher.scanFrom_sound hlink
  by_contra hlt
  have hletter := matchLink_head hmatch
  rw [List.head?_drop,List.getElem?_append_left (by omega),
    List.getElem?_append_right (by omega)] at hletter
  exact hmid (List.mem_of_getElem? hletter)

theorem toolSections_no_bracket : ∀ sections ∈ toolSections, '[' ∉ sections.1.toList := by
  decide

/-- For every heading pair of the table and every document in which both
occur as lines: exactly the first two links of the section are returned when
the section is undisturbed, and only then. -/
theorem extractsSection_iff {sections : String×String} (h : sections ∈ toolSections)
    {content : List Char} (s : Section content sections.1.toList sections.2.toList) :
    ExtractsSection s ↔ Undisturbed s := by
  have hbracket : '[' ∉ sections.1.toList := toolSections_no_bracket sections h
  generalize sections.1.toList = marker at s hbracket ⊢
  generalize sections.2.toList = next at s ⊢
  obtain ⟨i,j,hi,hfirst,hsecond,hcut⟩ := s.found
  obtain ⟨tail,hdrop⟩ := s.drop_eq
  have hhead := s.length_head hi
  have hheading : '[' ∉ marker++['\n'] := by simp [hbracket]
  -- from the heading line on, links begin in the region at the earliest
  have hgap : ∀ link ∈ linkMatcher.scanFrom i 0 (((linesText s.before).drop i++
      (marker++['\n']))++s.region++(next++tail)), s.start ≤ link.start →
        i+((linesText s.before).drop i++(marker++['\n'])).length ≤ link.start := by
    intro link hlink hstart
    rw [List.append_assoc _ s.region] at hlink
    refine start_behind hheading hlink ?_
    have : s.start = (linesText s.before).length := rfl
    rw [List.length_drop]
    omega
  have hiff := Matcher.take_scanFrom_window_iff (m := linkMatcher) (k := 2) (by decide)
    (show j ≤ _ by omega) (show s.start ≤ _ by rw [hhead,Section.regionStart]; omega) hgap
  rw [← hdrop i hi,hhead,← Section.links] at hiff
  rw [ExtractsSection,extractToolsFromSection_eq,findLinks_eq s.regionStart,← List.map_take,
    ← Section.links,extractedLinks_of_found hfirst hsecond,Undisturbed,hfirst]
  constructor
  · rintro ⟨-,hlinks⟩ i' hi' j' hj'
    obtain rfl : i = i' := Option.some.inj hi'
    obtain rfl : j = j' := Option.some.inj (hsecond.symm.trans hj')
    exact hiff.mp hlinks
  · intro hundisturbed
    have hlinks := hiff.mpr (hundisturbed i rfl j hsecond)
    exact ⟨congrArg _ hlinks,hlinks⟩

/-- A section whose headings occur nowhere else. -/
def plainSection : Section "# Tools\n## Code\n[Pilot](p.org)\n## Image".toList
    "## Code".toList "## Image".toList where
  before := ["# Tools".toList]
  body := ["[Pilot](p.org)".toList]
  after := []
  lines := by decide
  marker_first := by decide
  next_first := by decide

theorem extractsSection_iff_plain : ExtractsSection plainSection := by
  have hpair : ("## Code","## Image") ∈ toolSections := by decide
  refine (extractsSection_iff hpair plainSection).mpr ?_
  rintro i hi j hj
  obtain rfl : 8 = i := Option.some.inj hi
  obtain rfl : 23 = j := Option.some.inj hj
  decide

/-- A document with a look-alike of the section marker in a deeper heading. -/
def deeperHeading : List Char :=
  "### Text tools\n[Editor](e.org)\n## Text\n[Chat](c.org)\n### Models".toList

/-- Its section of the language models. -/
def deeperHeadingSection : Section deeperHeading "## Text".toList "### Models".toList where
  before := ["### Text tools".toList,"[Editor](e.org)".toList]
  body := ["[Chat](c.org)".toList]
  after := []
  lines := by decide
  marker_first := by decide
  next_first := by decide

/-- The link of the deeper heading is returned as well. -/
theorem deeperHeading_not_extracted : ¬ExtractsSection deeperHeadingSection := by
  rintro ⟨h,-⟩
  revert h
  decide

end Senca.ToolSections
