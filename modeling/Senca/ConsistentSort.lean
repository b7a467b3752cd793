import Mathlib.Data.List.Sort

/-!
# Consistent comparators and stable sorts

A comparator answers a number whose sign tells which of two items comes
first. It is consistent on a list when its signs are those of a preorder of
the items of the list. Then a sort is determined by two laws: no item
compares above a later one, and items that compare as equal keep their
order.
-/

namespace Senca.ConsistentSort

variable {α : Type*}

/-- The signs of a comparator are those of a preorder of the items. -/
structure Consistent (order : α → α → ℤ) (items : List α) : Prop where
  /-- The two directions have opposite signs. -/
  antisymm : ∀ a ∈ items, ∀ b ∈ items, (order a b).sign = -(order b a).sign
  /-- Not being above is transitive. -/
  trans_le : ∀ a ∈ items, ∀ b ∈ items, ∀ c ∈ items,
    order a b ≤ 0 → order b c ≤ 0 → order a c ≤ 0
  /-- Being equal is transitive. -/
  trans_eq : ∀ a ∈ items, ∀ b ∈ items, ∀ c ∈ items,
    order a b = 0 → order b c = 0 → order a c = 0

/-- What a stable sort makes of a list. -/
structure StableSorted (order : α → α → ℤ) (items sorted : List α) : Prop where
  /-- The same items with the same multiplicities. -/
  perm : sorted.Perm items
  /-- No item compares above a later one. -/
  ordered : sorted.Pairwise (fun a b => order a b ≤ 0)
  /-- Items that compare as equal keep their order. -/
  stable : ∀ a ∈ items, sorted.filter (fun b => order a b = 0) =
    items.filter (fun b => order a b = 0)

variable {order : α → α → ℤ} {items sorted : List α} {a b : α}

namespace Consistent

theorem sublist (h : Consistent order items) {others : List α} (hs : ∀ a ∈ others, a ∈ items) :
    Consistent order others where
  antisymm a ha b hb := h.antisymm a (hs a ha) b (hs b hb)
  trans_le a ha b hb c hc := h.trans_le a (hs a ha) b (hs b hb) c (hs c hc)
  trans_eq a ha b hb c hc := h.trans_eq a (hs a ha) b (hs b hb) c (hs c hc)

theorem neg_iff (h : Consistent order items) (ha : a ∈ items) (hb : b ∈ items) :
    order a b < 0 ↔ 0 < order b a := by
  rw [← Int.sign_eq_neg_one_iff_neg,← Int.sign_eq_one_iff_pos]
  have hsigns := h.antisymm a ha b hb
  omega

theorem le_iff (h : Consistent order items) (ha : a ∈ items) (hb : b ∈ items) :
    order a b ≤ 0 ↔ 0 ≤ order b a := by
  have := h.neg_iff hb ha
  omega

theorem eq_iff (h : Consistent order items) (ha : a ∈ items) (hb : b ∈ items) :
    order a b = 0 ↔ order b a = 0 := by
  have := h.le_iff ha hb
  have := h.le_iff hb ha
  omega

/-- An item compares as equal with itself. -/
theorem refl (h : Consistent order items) (ha : a ∈ items) : order a a = 0 := by
  have := h.neg_iff ha ha
  omega

end Consistent

/-- Only the comparisons of the items of the list matter. -/
theorem consistent_congr {other : α → α → ℤ}
    (h : ∀ a ∈ items, ∀ b ∈ items, order a b = other a b) :
    Consistent order items ↔ Consistent other items := by
  have himp : ∀ {first second : α → α → ℤ},
      (∀ a ∈ items, ∀ b ∈ items, first a b = second a b) →
        Consistent first items → Consistent second items := by
    intro first second heq hc
    refine ⟨fun a ha b hb => ?_,fun a ha b hb c hc' => ?_,fun a ha b hb c hc' => ?_⟩
    · rw [← heq a ha b hb,← heq b hb a ha]
      exact hc.antisymm a ha b hb
    · rw [← heq a ha b hb,← heq b hb c hc',← heq a ha c hc']
      exact hc.trans_le a ha b hb c hc'
    · rw [← heq a ha b hb,← heq b hb c hc',← heq a ha c hc']
      exact hc.trans_eq a ha b hb c hc'
  exact ⟨himp h,himp fun a ha b hb => (h a ha b hb).symm⟩

/-- When all items compare as equal, a stable sort moves none. -/
theorem StableSorted.eq_of_equal (h : StableSorted order items sorted)
    (heq : ∀ a ∈ items, ∀ b ∈ items, order a b = 0) : sorted = items := by
  cases items with
  | nil => exact List.perm_nil.mp h.perm
  | cons a rest =>
    have hall : ∀ {l : List α}, (∀ b ∈ l, b ∈ a::rest) →
        l.filter (fun b => order a b = 0) = l := by
      intro l hl
      exact List.filter_eq_self.mpr fun b hb => by
        simpa using heq a List.mem_cons_self b (hl b hb)
    have hstable := h.stable a List.mem_cons_self
    rwa [hall fun b hb => h.perm.mem_iff.mp hb,hall fun b hb => hb] at hstable

/-! ### Insertion sort -/

/-- The item may stand before the other one. -/
def MayPrecede (order : α → α → ℤ) (a b : α) : Prop := ¬order b a < 0

instance : DecidableRel (MayPrecede order) := fun a b =>
  inferInstanceAs (Decidable (¬order b a < 0))

theorem orderedInsert_ordered (h : Consistent order (a::items))
    (hitems : items.Pairwise (fun a b => order a b ≤ 0)) :
    (items.orderedInsert (MayPrecede order) a).Pairwise (fun a b => order a b ≤ 0) := by
  induction items with
  | nil => simp
  | cons b rest ih =>
    obtain ⟨hb,hrest⟩ := List.pairwise_cons.mp hitems
    have ha' : a ∈ a::b::rest := List.mem_cons_self
    have hb' : b ∈ a::b::rest := by simp
    by_cases hab : MayPrecede order a b
    · have hle : order a b ≤ 0 := (h.le_iff ha' hb').mpr (not_lt.mp hab)
      rw [List.orderedInsert_cons_of_le _ _ hab]
      refine List.pairwise_cons.mpr ⟨fun c hc => ?_,hitems⟩
      rcases List.mem_cons.mp hc with rfl | hc
      · exact hle
      · exact h.trans_le a ha' b hb' c (by simp [hc]) hle (hb c hc)
    · rw [List.orderedInsert_of_not_le _ _ hab]
      have hsub : ∀ c ∈ a::rest, c ∈ a::b::rest := by
        intro c hc
        rcases List.mem_cons.mp hc with rfl | hc
        · exact ha'
        · simp [hc]
      refine List.pairwise_cons.mpr ⟨fun c hc => ?_,ih (h.sublist hsub) hrest⟩
      rcases (List.mem_orderedInsert _).mp hc with rfl | hc
      · exact (not_not.mp hab).le
      · exact hb c hc

/-- Inserting an item puts it in front of the items it is equal to. -/
theorem orderedInsert_filter {all : List α} (h : Consistent order all) {c : α} (hc : c ∈ all)
    (ha : a ∈ all) (hitems : ∀ b ∈ items, b ∈ all) :
    (items.orderedInsert (MayPrecede order) a).filter (fun b => order c b = 0) =
      (a::items).filter (fun b => order c b = 0) := by
  -- an item that a is equal to is one it may precede
  have hprecede : order c a = 0 → ∀ b ∈ items, order c b = 0 → MayPrecede order a b := by
    intro hca b hb hcb
    have hbc := (h.eq_iff hc (hitems b hb)).mp hcb
    exact not_lt.mpr (h.trans_eq b (hitems b hb) c hc a ha hbc hca).ge
  clear h hc ha hitems
  induction items with
  | nil => rfl
  | cons b rest ih =>
    by_cases hab : MayPrecede order a b
    · rw [List.orderedInsert_cons_of_le _ _ hab]
    · have hrest := ih fun hca d hd => hprecede hca d (List.mem_cons_of_mem b hd)
      rw [List.orderedInsert_of_not_le _ _ hab,List.filter_cons,hrest]
      by_cases hca : order c a = 0
      · have hcb : ¬order c b = 0 := fun hcb => hab (hprecede hca b List.mem_cons_self hcb)
        simp [hca,hcb]
      · simp [List.filter_cons,hca]

theorem insertionSort_filter {all : List α} (h : Consistent order all) {c : α} (hc : c ∈ all)
    (hitems : ∀ b ∈ items, b ∈ all) :
    (items.insertionSort (MayPrecede order)).filter (fun b => order c b = 0) =
      items.filter (fun b => order c b = 0) := by
  induction items with
  | nil => rfl
  | cons a rest ih =>
    have hrest : ∀ b ∈ rest, b ∈ all := fun b hb => hitems b (List.mem_cons_of_mem a hb)
    rw [List.insertionSort_cons,orderedInsert_filter h hc (hitems a List.mem_cons_self)
      fun b hb => hrest b ((List.mem_insertionSort _).mp hb),List.filter_cons,List.filter_cons,
      ih hrest]

theorem insertionSort_ordered (h : Consistent order items) :
    (items.insertionSort (MayPrecede order)).Pairwise (fun a b => order a b ≤ 0) := by
  induction items with
  | nil => exact List.Pairwise.nil
  | cons a rest ih =>
    refine orderedInsert_ordered (h.sublist fun b hb => ?_)
      (ih (h.sublist fun b hb => List.mem_cons_of_mem a hb))
    rcases List.mem_cons.mp hb with rfl | hb
    · exact List.mem_cons_self
    · exact List.mem_cons_of_mem a ((List.mem_insertionSort _).mp hb)

/-- Insertion sort is a stable sort for a consistent comparator. -/
theorem insertionSort_stableSorted (h : Consistent order items) :
    StableSorted order items (items.insertionSort (MayPrecede order)) where
  perm := List.perm_insertionSort _ _
  ordered := insertionSort_ordered h
  stable _ ha := insertionSort_filter h ha fun _ hb => hb

end Senca.ConsistentSort
