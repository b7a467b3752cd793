import Senca.PageLoading

/-!
# Newest-first order of the tweets page

The comparator handed to `combined.sort` answers a fixed sign for an item
without a date and NaN for an invalid one. When it is a consistent
comparison, and when the sorted list then has the dated items first and
newest first.
-/

namespace Senca.DateOrder

open BrowserRuntime ConsistentSort PageLoading

/-! ### Differences of instants some of which are missing -/

section Instants

variable {α : Type*} {instant : α → Option ℤ} {items sorted : List α}

/-- How much later the second item is, 0 when an instant is missing. -/
def later (instant : α → Option ℤ) (a b : α) : ℤ :=
  match instant a,instant b with
  | some timeA,some timeB => timeB-timeA
  | _,_ => 0

/-- The items with an instant come first, in non-increasing order, and those
without one follow. -/
def NewestFirst (instant : α → Option ℤ) (sorted : List α) : Prop :=
  ∃ dated undated, sorted = dated++undated ∧ (∀ a ∈ dated, (instant a).isSome = true) ∧
    (∀ a ∈ undated, instant a = none) ∧
    dated.Pairwise (fun a b => ∀ timeA ∈ instant a, ∀ timeB ∈ instant b, timeB ≤ timeA)

/-- The items with an instant come first and have the same one. -/
def OneInstantFirst (instant : α → Option ℤ) (items : List α) : Prop :=
  ∃ dated undated time, items = dated++undated ∧ (∀ a ∈ dated, instant a = some time) ∧
    ∀ a ∈ undated, instant a = none

theorem later_of_some {a b : α} {timeA timeB : ℤ} (ha : instant a = some timeA)
    (hb : instant b = some timeB) : later instant a b = timeB-timeA := by
  rw [later,ha,hb]

theorem later_none_left {a : α} (ha : instant a = none) (b : α) : later instant a b = 0 := by
  rw [later,ha]

theorem later_none_right {b : α} (hb : instant b = none) (a : α) : later instant a b = 0 := by
  rw [later,hb]
  cases instant a <;> rfl

/-- One missing instant among different ones makes equality intransitive. -/
theorem later_consistent_iff :
    Consistent (later instant) items ↔ (∀ a ∈ items, (instant a).isSome = true) ∨
      ∀ a ∈ items, ∀ b ∈ items, later instant a b = 0 := by
  constructor
  · intro h
    by_contra hno
    rw [not_or] at hno
    obtain ⟨hmissing,hdiffer⟩ := hno
    simp only [not_forall,Bool.not_eq_true,Option.isSome_eq_false_iff,Option.isNone_iff_eq_none]
      at hmissing
    obtain ⟨c,hc,hnone⟩ := hmissing
    exact hdiffer fun a ha b hb =>
      h.trans_eq a ha c hc b hb (later_none_right hnone a) (later_none_left hnone b)
  · rintro (hall | hequal)
    · have htime : ∀ a ∈ items, ∃ time, instant a = some time := fun a ha =>
        Option.isSome_iff_exists.mp (hall a ha)
      refine ⟨fun a ha b hb => ?_,fun a ha b hb c hc => ?_,fun a ha b hb c hc => ?_⟩
      · obtain ⟨timeA,hta⟩ := htime a ha
        obtain ⟨timeB,htb⟩ := htime b hb
        rw [later_of_some hta htb,later_of_some htb hta,← Int.sign_neg,Int.neg_sub]
      · obtain ⟨timeA,hta⟩ := htime a ha
        obtain ⟨timeB,htb⟩ := htime b hb
        obtain ⟨timeC,htc⟩ := htime c hc
        rw [later_of_some hta htb,later_of_some htb htc,later_of_some hta htc]
        omega
      · obtain ⟨timeA,hta⟩ := htime a ha
        obtain ⟨timeB,htb⟩ := htime b hb
        obtain ⟨timeC,htc⟩ := htime c hc
        rw [later_of_some hta htb,later_of_some htb htc,later_of_some hta htc]
        omega
    · refine ⟨fun a ha b hb => ?_,fun a ha b _ c hc _ _ => ?_,fun a ha b _ c hc _ _ => ?_⟩
      · rw [hequal a ha b hb,hequal b hb a ha]
        rfl
      · exact (hequal a ha c hc).le
      · exact hequal a ha c hc

/-- When every instant is there, a sort is newest first. -/
theorem newestFirst_of_ordered (hall : ∀ a ∈ sorted, (instant a).isSome = true)
    (h : sorted.Pairwise (fun a b => later instant a b ≤ 0)) : NewestFirst instant sorted := by
  refine ⟨sorted,[],(List.append_nil _).symm,hall,fun a ha => (List.not_mem_nil ha).elim,?_⟩
  refine h.imp fun {a b} hle timeA hta timeB htb => ?_
  rw [later_of_some hta htb] at hle
  omega

/-- When no two instants differ, newest first says only where the items
without one stand. -/
theorem newestFirst_iff_of_equal (h : ∀ a ∈ items, ∀ b ∈ items, later instant a b = 0) :
    NewestFirst instant items ↔ OneInstantFirst instant items := by
  constructor
  · rintro ⟨dated,undated,rfl,hdated,hundated,-⟩
    cases dated with
    | nil => exact ⟨[],undated,0,rfl,fun a ha => (List.not_mem_nil ha).elim,hundated⟩
    | cons a rest =>
      obtain ⟨time,htime⟩ := Option.isSome_iff_exists.mp (hdated a List.mem_cons_self)
      refine ⟨a::rest,undated,time,rfl,fun b hb => ?_,hundated⟩
      obtain ⟨timeB,htb⟩ := Option.isSome_iff_exists.mp (hdated b hb)
      have hzero := h a (by simp) b (List.mem_append_left _ hb)
      rw [later_of_some htime htb] at hzero
      rw [htb,show timeB = time by omega]
  · rintro ⟨dated,undated,time,rfl,hdated,hundated⟩
    refine ⟨dated,undated,rfl,fun a ha => by rw [hdated a ha]; rfl,hundated,?_⟩
    refine List.pairwise_of_forall_mem_list fun a ha b hb timeA hta timeB htb => ?_
    rw [hdated a ha] at hta
    rw [hdated b hb] at htb
    cases hta
    cases htb
    exact le_rfl

theorem OneInstantFirst.equal (h : OneInstantFirst instant items) :
    ∀ a ∈ items, ∀ b ∈ items, later instant a b = 0 := by
  obtain ⟨dated,undated,time,rfl,hdated,hundated⟩ := h
  intro a ha b hb
  rcases List.mem_append.mp ha with ha | ha
  · rcases List.mem_append.mp hb with hb | hb
    · rw [later_of_some (hdated a ha) (hdated b hb),Int.sub_self]
    · exact later_none_right (hundated b hb) a
  · exact later_none_left (hundated a ha) b

/-- The stable sort by instants is a consistent one and newest first exactly
when no instant is missing, or the items with one come first and have the
same. -/
theorem newestFirst_sorted_iff {order : α → α → ℤ}
    (horder : ∀ a ∈ items, ∀ b ∈ items, order a b = later instant a b)
    (hsort : Consistent order items → StableSorted order items sorted) :
    Consistent order items ∧ NewestFirst instant sorted ↔
      (∀ a ∈ items, (instant a).isSome = true) ∨ OneInstantFirst instant items := by
  have hconsistent : Consistent order items ↔ Consistent (later instant) items :=
    consistent_congr horder
  constructor
  · rintro ⟨hc,hnewest⟩
    rcases later_consistent_iff.mp (hconsistent.mp hc) with hall | hequal
    · exact .inl hall
    · rw [(hsort hc).eq_of_equal fun a ha b hb =>
        (horder a ha b hb).trans (hequal a ha b hb)] at hnewest
      exact .inr ((newestFirst_iff_of_equal hequal).mp hnewest)
  · rintro (hall | hone)
    · have hc := hconsistent.mpr (later_consistent_iff.mpr (.inl hall))
      have hs := hsort hc
      have hmem : ∀ a ∈ sorted, a ∈ items := fun a ha => hs.perm.mem_iff.mp ha
      refine ⟨hc,newestFirst_of_ordered (fun a ha => hall a (hmem a ha)) ?_⟩
      refine hs.ordered.imp_of_mem fun {a b} ha hb hle => ?_
      rwa [← horder a (hmem a ha) b (hmem b hb)]
    · have hequal := hone.equal
      have hc := hconsistent.mpr (later_consistent_iff.mpr (.inr hequal))
      refine ⟨hc,?_⟩
      rw [(hsort hc).eq_of_equal fun a ha b hb => (horder a ha b hb).trans (hequal a ha b hb)]
      exact (newestFirst_iff_of_equal hequal).mpr hone

end Instants

/-! ### The comparator of the page -/

/-- The instant of a valid date. -/
def dateOf (browser : Browser) (item : Resource) : Option ℤ :=
  match getDate browser item with
  | .ok (some date) => date
  | _ => none

/-- The first truthy alternative for the date is there, and a date can be
made of it. -/
def HasDate (item : Resource) : Prop := truthy (dateField item) = true ∧ Datable item = true

instance : DecidablePred HasDate := fun item =>
  inferInstanceAs (Decidable (truthy (dateField item) = true ∧ Datable item = true))

variable {browser : Browser} {a b item : Resource} {items : List Resource}

/-- An item with a date gives one, valid or not. -/
theorem getDate_of_hasDate (h : HasDate item) :
    getDate browser item = .ok (some (dateOf browser item)) := by
  obtain ⟨htruthy,hdatable⟩ := h
  have hok := getDate_isOk browser item
  rw [hdatable] at hok
  cases hd : getDate browser item with
  | error e =>
    rw [hd] at hok
    cases hok
  | ok date =>
    cases date with
    | some instant => rw [dateOf,hd]
    | none =>
      rw [getDate] at hd
      cases hf : dateField item with
      | none =>
        rw [hf] at htruthy
        cases htruthy
      | some value =>
        rw [hf] at hd htruthy
        dsimp only at hd
        rw [if_pos htruthy] at hd
        split at hd <;> exact absurd hd (some_map_ne _)

/-- Between items with a date the comparator is the difference of instants. -/
theorem comparison_of_hasDate (ha : HasDate a) (hb : HasDate b) :
    comparison (compareDates browser) a b = later (dateOf browser) a b := by
  rw [comparison,compareDates,getDate_of_hasDate ha,getDate_of_hasDate hb]
  cases htb : dateOf browser b with
  | none =>
    rw [later_none_right htb]
    rfl
  | some timeB =>
    cases hta : dateOf browser a with
    | none =>
      rw [later_none_left hta]
      rfl
    | some timeA =>
      rw [later_of_some hta htb]
      rfl

/-- An item without a date comes after itself. -/
theorem comparison_self_of_undated (h : truthy (dateField item) = false) :
    comparison (compareDates browser) item item = 1 := by
  rw [comparison,compareDates,getDate_of_falsy h]
  rfl

/-- On the items of a consistent comparator every item has a date. -/
theorem hasDate_of_consistent (h : ConsistentComparator (compareDates browser) items) :
    ∀ item ∈ items, HasDate item := by
  intro item hitem
  have hdatable : Datable item = true := by
    have hok := h.returns item hitem item hitem
    rwa [compareDates_isOk,Bool.and_self] at hok
  refine ⟨?_,hdatable⟩
  by_contra hundated
  have hself : comparison (compareDates browser) item item = 1 :=
    comparison_self_of_undated (Bool.eq_false_of_not_eq_true hundated)
  have hrefl := h.consistent.refl hitem
  omega

/-- The comparator is consistent on the items, and sorting them puts those
with a valid date first, newest first. -/
def SortsNewestFirst (browser : SortingBrowser) (items : List Resource) : Prop :=
  ConsistentComparator (compareDates browser.toBrowser) items ∧
    ∃ sorted, browser.sort (compareDates browser.toBrowser) items = .ok sorted ∧
      NewestFirst (dateOf browser.toBrowser) sorted

/-- For every list of resources: the comparator is consistent and the sorted
list newest first exactly when every resource has a date, and either all
these dates are valid, or the valid ones are one instant and come first
already. -/
theorem sortsNewestFirst_iff (browser : SortingBrowser) (items : List Resource) :
    SortsNewestFirst browser items ↔ (∀ item ∈ items, HasDate item) ∧
      ((∀ item ∈ items, (dateOf browser.toBrowser item).isSome = true) ∨
        OneInstantFirst (dateOf browser.toBrowser) items) := by
  by_cases hdates : ∀ item ∈ items, HasDate item
  · rw [and_iff_right hdates]
    have hreturns : ∀ a ∈ items, ∀ b ∈ items,
        (compareDates browser.toBrowser a b).isOk = true := fun a ha b hb => by
      rw [compareDates_isOk,(hdates a ha).2,(hdates b hb).2]
      rfl
    obtain ⟨sorted,hsorted,-⟩ :=
      browser.sort_returns (compareDates browser.toBrowser) items hreturns
    rw [← newestFirst_sorted_iff
      (fun a ha b hb => comparison_of_hasDate (hdates a ha) (hdates b hb))
      (fun hc => browser.sort_consistent _ _ _ ⟨hreturns,hc⟩ hsorted)]
    constructor
    · rintro ⟨hc,sorted',hs,hnewest⟩
      obtain rfl : sorted = sorted' := Except.ok.inj (hsorted.symm.trans hs)
      exact ⟨hc.consistent,hnewest⟩
    · rintro ⟨hc,hnewest⟩
      exact ⟨⟨hreturns,hc⟩,sorted,hsorted,hnewest⟩
  · exact iff_of_false (fun h => hdates (hasDate_of_consistent h.1)) (fun h => hdates h.1)

/-- A dated resource, one with an unreadable date and a newer one. -/
def unreadableBetween : List Resource := [
  [("title",.str "Agents today"),("createdAt",.str "2025-02-01T12:00:00.000Z")],
  [("title",.str "On alignment"),("createdAt",.str "yesterday")],
  [("title",.str "A new model"),("createdAt",.str "2025-02-02T12:00:00.000Z")]]

/-- The unreadable date compares as equal with both others, and the newer
resource stays last. -/
theorem unreadableBetween_not_newestFirst :
    ¬SortsNewestFirst sampleSortingBrowser unreadableBetween := by
  rintro ⟨hc,-⟩
  have hequal := hc.consistent.trans_eq
    (unreadableBetween[0]) (List.getElem_mem _) (unreadableBetween[1]) (List.getElem_mem _)
    (unreadableBetween[2]) (List.getElem_mem _) (by decide) (by decide)
  revert hequal
  decide

end Senca.DateOrder
