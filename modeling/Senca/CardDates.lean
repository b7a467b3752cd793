import Senca.PageLoading

/-!
# Sort key and displayed date

The date `ResourceCard.js` shows, next to the one the tweets page sorts by.
The two functions choose a field by two different tests, and the card has
one field more.
-/

namespace Senca.CardDates

open BrowserRuntime JsonValue PageLoading

/-! ### Two ways to choose an alternative -/

/-- `d !== undefined && d !== null`. -/
def present : Option Json → Bool
  | none => false
  | some .null => false
  | some _ => true

theorem present_of_truthy {value : Option Json} (h : truthy value = true) :
    present value = true := by
  cases value with
  | none => cases h
  | some value => cases value <;> first | rfl | cases h

section Alternatives

variable {alternatives : List (Option Json)} {value : Option Json}

/-- Without a truthy alternative the last one is left. -/
theorem firstTruthy_of_falsy (h : ∀ value ∈ alternatives, truthy value = false) :
    truthy (firstTruthy alternatives) = false := by
  fun_induction firstTruthy alternatives with
  | case1 => rfl
  | case2 last => exact h last List.mem_cons_self
  | case3 value rest _ htruthy =>
    rw [h value List.mem_cons_self] at htruthy
    cases htruthy
  | case4 value rest _ _ ih => exact ih fun v hv => h v (List.mem_cons_of_mem value hv)

/-- A truthy alternative is chosen if there is one. -/
theorem firstTruthy_truthy (h : value ∈ alternatives) (htruthy : truthy value = true) :
    truthy (firstTruthy alternatives) = true := by
  fun_induction firstTruthy alternatives with
  | case1 => cases h
  | case2 last => rwa [← List.mem_singleton.mp h]
  | case3 first rest _ hfirst => exact hfirst
  | case4 first rest _ hfirst ih =>
    rcases List.mem_cons.mp h with rfl | hrest
    · exact absurd htruthy hfirst
    · exact ih hrest

/-- When the first alternative that is present is truthy, both tests choose
it. -/
theorem firstTruthy_of_find (hfind : alternatives.find? present = some value)
    (htruthy : truthy value = true) : firstTruthy alternatives = value := by
  fun_induction firstTruthy alternatives with
  | case1 => cases hfind
  | case2 last =>
    obtain rfl : value = last := List.mem_singleton.mp (List.mem_of_find?_eq_some hfind)
    rfl
  | case3 first rest _ hfirst =>
    rw [List.find?_cons_of_pos (present_of_truthy hfirst)] at hfind
    exact Option.some.inj hfind
  | case4 first rest _ hfirst ih =>
    by_cases hpresent : present first = true
    · rw [List.find?_cons_of_pos hpresent] at hfind
      rw [Option.some.inj hfind] at hfirst
      exact absurd htruthy hfirst
    · rw [List.find?_cons_of_neg hpresent] at hfind
      exact ih hfind

end Alternatives

/-! ### The card -/

/-- `isToolsResource` of a card: of the values a link can have only strings
and arrays have a method `includes`. -/
def isToolsResource (pathname : String) (resource : Resource) : Js Bool :=
  let link := field resource "link"
  if truthy link then
    match link with
    | some (.str link) => pure (includes link "tools1-resources" || pathname == "/tutorials")
    | some (.arr items) => pure (items.any isMarker || pathname == "/tutorials")
    | _ => throw ⟨"link.includes is not a function"⟩
  else pure false
where
  /-- The item is the text that is looked for. -/
  isMarker : Json → Bool
    | .str text => text == "tools1-resources"
    | _ => false

/-- The eight fields that both functions read, in the order of both. -/
def dateFields (item : Resource) : List (Option Json) := [
  field item "publishedAt",
  field item "createdAt",
  field item "date",
  field item "created_at",
  field item "published_at",
  field item "timestamp",
  (field item "snippet").bind (Json.member? · "publishedAt"),
  field item "pubDate"]

/-- `possibleDateFields` of a card. -/
def possibleDateFields (resource : Resource) : List (Option Json) := [
  field resource "publishedAt",
  field resource "createdAt",
  field resource "date",
  field resource "created_at",
  field resource "published_at",
  field resource "timestamp",
  (field resource "snippet").bind (Json.member? · "publishedAt"),
  field resource "pubDate",
  field resource "published_time"]

/-- `typeof date === 'number'`: a number is taken for seconds. -/
def milliseconds : Json → Json
  | .int n => .int (n*1000)
  | .float q => .float (q*1000)
  | date => date

/-- The date both functions make of their choice. -/
def makeDate (browser : Browser) (date : Json) : Js (Option ℤ) :=
  newDate browser (milliseconds date)

/-- `getResourceDate`: null, or a date that may be invalid. What making the
date throws is caught. -/
def getResourceDate (browser : Browser) (pathname : String) (resource : Resource) :
    Js (Option (Option ℤ)) := do
  let isTools ← isToolsResource pathname resource
  if isTools then pure none
  else
    match ((possibleDateFields resource).find? present).join with
    | none => pure none
    | some date =>
      if truthy (some date) then
        match makeDate browser date with
        | .ok made => pure (some made)
        | .error _ => pure none
      else pure none

theorem possibleDateFields_eq (resource : Resource) :
    possibleDateFields resource = dateFields resource++[field resource "published_time"] := rfl

variable {browser : Browser} {pathname : String} {item : Resource} {date : Json}

theorem makeDate_isOk (browser : Browser) (date : Json) :
    (makeDate browser date).isOk = !hidesToString date := by
  rw [makeDate,newDate_isOk]
  cases date <;> rfl

/-- The page makes the date of a truthy choice. -/
theorem getDate_of_truthy (hfield : dateField item = some date)
    (htruthy : truthy (some date) = true) :
    getDate browser item = some <$> makeDate browser date := by
  rw [getDate,hfield]
  dsimp only
  rw [if_pos htruthy]
  cases date <;> rfl

/-- The link is absent or falsy, or a text without the marker of the tools
list. -/
def PlainLink (item : Resource) : Prop :=
  match field item "link" with
  | some (.str link) => includes link "tools1-resources" = false
  | link => truthy link = false

instance : DecidablePred PlainLink := fun item => by
  unfold PlainLink
  split <;> infer_instance

theorem isToolsResource_of_plainLink (h : PlainLink item) (hpath : pathname ≠ "/tutorials") :
    isToolsResource pathname item = .ok false := by
  rw [PlainLink] at h
  rw [isToolsResource]
  cases hlink : field item "link" with
  | none => rfl
  | some link =>
    rw [hlink] at h
    cases link with
    | str text =>
      dsimp only at h ⊢
      rw [h,beq_false_of_ne hpath]
      split <;> rfl
    | _ =>
      dsimp only at h ⊢
      rw [if_neg (by rw [h]; decide)]
      rfl

/-- What a card shows of a choice. -/
def shownDate (browser : Browser) : Option Json → Option (Option ℤ)
  | none => none
  | some date => if truthy (some date) then (makeDate browser date).toOption else none

theorem shownDate_of_truthy (h : truthy (some date) = true) :
    shownDate browser (some date) = (makeDate browser date).toOption := if_pos h

theorem shownDate_of_falsy {choice : Option Json} (h : truthy choice = false) :
    shownDate browser choice = none := by
  cases choice with
  | none => rfl
  | some date => exact if_neg (by rw [h]; decide)

/-- A truthy choice is not shown when making the date throws. -/
theorem shownDate_eq_none_iff (browser : Browser) {choice : Option Json} :
    shownDate browser choice = none ↔
      truthy choice = false ∨ choice.any hidesToString = true := by
  cases htruthy : truthy choice with
  | false => simp [shownDate_of_falsy htruthy]
  | true =>
    cases choice with
    | none => cases htruthy
    | some date =>
      have hok := makeDate_isOk browser date
      rw [shownDate_of_truthy htruthy,Option.any_some]
      cases hmake : makeDate browser date with
      | ok made =>
        rw [hmake] at hok
        simp [Except.toOption,(Bool.not_eq_true' _).mp hok.symm]
      | error e =>
        rw [hmake] at hok
        simp [Except.toOption,(Bool.not_eq_false' _).mp hok.symm]

/-- Of one alternative the card shows the same whether or not it is present. -/
theorem shownDate_find_singleton (choice : Option Json) :
    shownDate browser ([choice].find? present).join = shownDate browser choice := by
  by_cases hpresent : present choice = true
  · rw [List.find?_cons_of_pos hpresent,Option.join_some]
  · have hfalsy : truthy choice = false :=
      Bool.eq_false_of_not_eq_true fun htruthy => hpresent (present_of_truthy htruthy)
    rw [List.find?_cons_of_neg hpresent,shownDate_of_falsy hfalsy]
    rfl

/-- The card of a plain link shows its choice. -/
theorem getResourceDate_of_plainLink (h : PlainLink item) (hpath : pathname ≠ "/tutorials") :
    getResourceDate browser pathname item =
      .ok (shownDate browser ((possibleDateFields item).find? present).join) := by
  rw [getResourceDate,isToolsResource_of_plainLink h hpath]
  change (match ((possibleDateFields item).find? present).join with
    | none => _
    | some date => _) = _
  cases ((possibleDateFields item).find? present).join with
  | none => rfl
  | some date =>
    dsimp only [shownDate]
    split
    · cases makeDate browser date <;> rfl
    · rfl

/-! ### Agreement -/

/-- Sorting and the card find no date, or the same one. -/
def DatesAgree (browser : Browser) (pathname : String) (item : Resource) : Prop :=
  ∃ date, getDate browser item = .ok date ∧ getResourceDate browser pathname item = .ok date

/-- Of the shared fields the first one that is neither undefined nor null is
truthy or none is; and when all are undefined or null, the card's own field
gives no date either. -/
def SameChoice (item : Resource) : Prop :=
  match (dateFields item).find? present with
  | some date => truthy date = true ∨ ∀ value ∈ dateFields item, truthy value = false
  | none => truthy (field item "published_time") = false ∨
      (field item "published_time").any hidesToString = true

/-- The page finds no date exactly when no shared field is truthy. -/
theorem getDate_none_iff :
    getDate browser item = .ok none ↔ ∀ value ∈ dateFields item, truthy value = false := by
  constructor
  · intro h value hvalue
    by_contra htruthy
    have hchoice : truthy (dateField item) = true :=
      firstTruthy_truthy hvalue (Bool.eq_true_of_not_eq_false htruthy)
    cases hfield : dateField item with
    | none =>
      rw [hfield] at hchoice
      cases hchoice
    | some date =>
      rw [hfield] at hchoice
      rw [getDate_of_truthy hfield hchoice] at h
      exact some_map_ne _ h
  · exact fun h => getDate_of_falsy (firstTruthy_of_falsy h)

theorem datable_of_getDate_none (h : getDate browser item = .ok none) : Datable item = true := by
  rw [← getDate_isOk browser,h]
  rfl

/-- A truthy choice that both functions make gives both the same date, unless
making it throws. -/
theorem agree_of_truthy (hfield : dateField item = some date)
    (htruthy : truthy (some date) = true) :
    getDate browser item = .ok (shownDate browser (some date)) ↔ Datable item = true := by
  have hok := getDate_isOk browser item
  rw [shownDate_of_truthy htruthy,← hok,getDate_of_truthy hfield htruthy]
  cases makeDate browser date with
  | ok made => exact iff_of_true rfl rfl
  | error e => exact iff_of_false (fun h => nomatch h) (fun h => nomatch h)

/-- For every resource the tweets page renders whose link does not name the
tools list: the page sorts by the date the card shows exactly when a date can
be made of the page's choice and the two choices do not differ. -/
theorem datesAgree_iff (browser : Browser) {pathname : String} (hpath : pathname ≠ "/tutorials")
    {item : Resource} (hlink : PlainLink item) :
    DatesAgree browser pathname item ↔ Datable item = true ∧ SameChoice item := by
  have hagree : DatesAgree browser pathname item ↔ getDate browser item =
      .ok (shownDate browser ((possibleDateFields item).find? present).join) := by
    rw [DatesAgree,getResourceDate_of_plainLink hlink hpath]
    constructor
    · rintro ⟨shown,hget,hshown⟩
      rw [hget,hshown]
    · exact fun h => ⟨_,h,rfl⟩
  rw [hagree,possibleDateFields_eq,List.find?_append,SameChoice]
  cases hfind : (dateFields item).find? present with
  | some value =>
    rw [Option.some_or,Option.join_some]
    dsimp only
    cases htruthy : truthy value with
    | true =>
      obtain ⟨date,rfl⟩ : ∃ date, value = some date := by
        cases value with
        | none => cases htruthy
        | some date => exact ⟨date,rfl⟩
      rw [agree_of_truthy (firstTruthy_of_find hfind htruthy) htruthy]
      simp
    | false =>
      have hundated : getDate browser item = .ok none ↔ _ := getDate_none_iff
      rw [shownDate_of_falsy htruthy,← hundated]
      simp only [Bool.false_eq_true,false_or]
      exact ⟨fun h => ⟨datable_of_getDate_none h,h⟩,fun h => h.2⟩
  | none =>
    -- no shared field is truthy, so only the field of its own can give the card a date
    have hfalsy : ∀ value ∈ dateFields item, truthy value = false := fun value hvalue =>
      Bool.eq_false_of_not_eq_true fun htruthy =>
        List.find?_eq_none.mp hfind value hvalue (present_of_truthy htruthy)
    have hnone : getDate browser item = .ok none := getDate_none_iff.mpr hfalsy
    rw [hnone,and_iff_right (datable_of_getDate_none hnone),Option.none_or]
    rw [shownDate_find_singleton,← shownDate_eq_none_iff browser]
    exact ⟨fun h => (Except.ok.inj h).symm,fun h => by rw [h]⟩

/-- An episode with a single date. -/
def episode : Resource := [
  ("title",.str "Agents today"),
  ("link",.str "https://open.spotify.com/episode/1"),
  ("pubDate",.str "2025-02-01T12:00:00.000Z")]

theorem datesAgree_iff_episode :
    DatesAgree sampleBrowser "/tweets-podcasts-videos" episode :=
  (datesAgree_iff sampleBrowser (by decide) (by decide)).mpr ⟨by decide,.inl rfl⟩

/-- A podcast whose feed entry had an empty date, with the date it was
published on. -/
def emptyPublishedAt : Resource := [
  ("title",.str "Agents today"),
  ("link",.str "https://open.spotify.com/episode/1"),
  ("publishedAt",.str ""),
  ("pubDate",.str "2025-02-01T12:00:00.000Z")]

/-- It is sorted by a date, and its card shows none. -/
theorem emptyPublishedAt_not_agree :
    ¬DatesAgree sampleBrowser "/tweets-podcasts-videos" emptyPublishedAt := by
  rintro ⟨date,hget,hshown⟩
  have hsort : getDate sampleBrowser emptyPublishedAt = .ok (some (some 1738411200000)) := rfl
  have hcard : getResourceDate sampleBrowser "/tweets-podcasts-videos" emptyPublishedAt =
    .ok none := rfl
  rw [hcard] at hshown
  rw [hsort,← hshown] at hget
  cases hget

end Senca.CardDates
