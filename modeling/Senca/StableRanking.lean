import Mathlib.Data.List.Sort
import Mathlib.Data.List.Nodup
import Mathlib.Data.List.Pairwise
import Mathlib.Data.List.Perm.Basic
import Mathlib.Order.Lattice

/-!
# Stable descending ranking and its cut at k

A list is ranked by a score into any linear order, higher scores first and
equal scores in their original order. The executable sort is characterised
by that specification, commutes with filtering and renaming, and an entry
survives the cut at k exactly when fewer than k entries outrank it. The
last section says when the cut names no resource twice and what it then
leaves out. Nothing here refers to a particular program.
-/

namespace Senca.StableRanking

variable {α β κ ρ : Type*} [LinearOrder κ] (key : α → κ)

/-- Descending comparison of two entries by score alone. -/
def GeKey (a b : α) : Prop := key b ≤ key a

instance : DecidableRel (GeKey key) := fun a b => inferInstanceAs (Decidable (key b ≤ key a))

instance : Std.Total (GeKey key) := ⟨fun a b => le_total (key b) (key a)⟩

instance : IsTrans α (GeKey key) := ⟨fun _ _ _ hab hbc => le_trans hbc hab⟩

/-- Stable descending sort: an entry moves only past strictly higher scores. -/
def sortDesc (l : List α) : List α := l.insertionSort (GeKey key)

@[simp] theorem sortDesc_nil : sortDesc key [] = [] := rfl

theorem sortDesc_cons (a : α) (l : List α) :
    sortDesc key (a::l) = (sortDesc key l).orderedInsert (GeKey key) a := rfl

/-- Sorting rearranges the entries and changes nothing else. -/
theorem sortDesc_perm (l : List α) : (sortDesc key l).Perm l :=
  List.perm_insertionSort _ l

@[simp] theorem mem_sortDesc {l : List α} {a : α} : a ∈ sortDesc key l ↔ a ∈ l :=
  (sortDesc_perm key l).mem_iff

@[simp] theorem length_sortDesc (l : List α) : (sortDesc key l).length = l.length :=
  (sortDesc_perm key l).length_eq

/-- Scores never increase along the sorted list. -/
theorem sortDesc_pairwise (l : List α) :
    (sortDesc key l).Pairwise (fun a b => key b ≤ key a) :=
  List.pairwise_insertionSort (GeKey key) l

/-- Inserting an entry that is filtered out leaves the filtered list alone. -/
theorem filter_orderedInsert_neg {p : α → Bool} {a : α} (ha : p a = false) (l : List α) :
    (l.orderedInsert (GeKey key) a).filter p = l.filter p := by
  induction l with
  | nil => simp [ha]
  | cons b l ih =>
    by_cases hab : GeKey key a b
    · rw [List.orderedInsert_cons_of_le _ _ hab,List.filter_cons_of_neg (by simp [ha])]
    · rw [List.orderedInsert_of_not_le _ _ hab]
      by_cases hb : p b
      · rw [List.filter_cons_of_pos hb,List.filter_cons_of_pos hb,ih]
      · rw [List.filter_cons_of_neg hb,List.filter_cons_of_neg hb,ih]

/-- Inserting a kept entry into a sorted list commutes with the filter. -/
theorem filter_orderedInsert_pos {p : α → Bool} {a : α} (ha : p a = true) {l : List α}
    (hl : l.Pairwise (GeKey key)) :
    (l.orderedInsert (GeKey key) a).filter p =
      (l.filter p).orderedInsert (GeKey key) a := by
  induction l with
  | nil => simp [ha]
  | cons b l ih =>
    obtain ⟨hb,htail⟩ := List.pairwise_cons.mp hl
    by_cases hab : GeKey key a b
    · rw [List.orderedInsert_cons_of_le _ _ hab,List.filter_cons_of_pos ha]
      -- every later entry scores no more than b, so a stays in front after filtering
      have hfront : ∀ c ∈ (b::l).filter p, GeKey key a c := by
        intro c hc
        rcases List.mem_cons.mp (List.mem_of_mem_filter hc) with rfl | hc'
        · exact hab
        · exact le_trans (hb c hc') hab
      cases hf : (b::l).filter p with
      | nil => rfl
      | cons c rest =>
        rw [List.orderedInsert_cons_of_le _ _ (hfront c (by simp [hf]))]
    · rw [List.orderedInsert_of_not_le _ _ hab]
      by_cases hpb : p b
      · rw [List.filter_cons_of_pos hpb,List.filter_cons_of_pos hpb,
          List.orderedInsert_of_not_le _ _ hab,ih htail]
      · rw [List.filter_cons_of_neg hpb,List.filter_cons_of_neg hpb,ih htail]

/-- Ranking the kept entries alone gives the same order as ranking all
entries and then keeping: the other entries never disturb it. -/
theorem sortDesc_filter (p : α → Bool) (l : List α) :
    sortDesc key (l.filter p) = (sortDesc key l).filter p := by
  induction l with
  | nil => rfl
  | cons a l ih =>
    rw [sortDesc_cons]
    by_cases ha : p a
    · rw [List.filter_cons_of_pos ha,sortDesc_cons,ih,
        filter_orderedInsert_pos key ha (sortDesc_pairwise key l)]
    · have ha' : p a = false := by simpa using ha
      rw [List.filter_cons_of_neg ha,ih,filter_orderedInsert_neg key ha']

/-- Keys that compare alike sort alike. -/
theorem sortDesc_congr {κ' : Type*} [LinearOrder κ'] {key : α → κ} {key' : α → κ'}
    (h : ∀ a b, key b ≤ key a ↔ key' b ≤ key' a) (l : List α) :
    sortDesc key l = sortDesc key' l := by
  induction l with
  | nil => rfl
  | cons a l ih =>
    rw [sortDesc_cons,sortDesc_cons,ih]
    generalize sortDesc key' l = sorted
    induction sorted with
    | nil => rfl
    | cons b sorted ih' =>
      have hgen : GeKey key a b ↔ GeKey key' a b := h a b
      simp only [List.orderedInsert_cons,hgen,ih']

/-- Sorting renamed entries is renaming the sorted entries. -/
theorem sortDesc_map (f : β → α) (l : List β) :
    sortDesc key (l.map f) = (sortDesc (key∘f) l).map f :=
  (List.map_insertionSort (GeKey (key∘f)) (GeKey key) f l
    (fun _ _ _ _ => Iff.rfl)).symm

/-- Lists that correspond entry by entry, with equal scores, correspond when they
are sorted. -/
theorem sortDesc_forall₂ {R : α → β → Prop} {key : α → κ} {key' : β → κ}
    (hkey : ∀ a b, R a b → key a = key' b) {l : List α} {l' : List β} (h : List.Forall₂ R l l') :
    List.Forall₂ R (sortDesc key l) (sortDesc key' l') := by
  induction h with
  | nil => exact .nil
  | @cons a b l l' hab _ ih =>
    rw [sortDesc_cons,sortDesc_cons]
    generalize sortDesc key l = sorted at ih
    generalize sortDesc key' l' = sorted' at ih
    induction ih with
    | nil => exact .cons hab .nil
    | @cons c d rest rest' hcd hrest ihrest =>
      have hge : GeKey key a c ↔ GeKey key' b d := by
        rw [GeKey,GeKey,hkey a b hab,hkey c d hcd]
      by_cases hac : GeKey key a c
      · rw [List.orderedInsert_cons_of_le _ _ hac,List.orderedInsert_cons_of_le _ _ (hge.mp hac)]
        exact .cons hab (.cons hcd hrest)
      · rw [List.orderedInsert_of_not_le _ _ hac,
          List.orderedInsert_of_not_le _ _ (mt hge.mpr hac)]
        exact .cons hcd ihrest

/-- What a stable descending sort of a list is, apart from any algorithm. -/
structure IsStableDesc (l sorted : List α) : Prop where
  /-- The same entries with the same multiplicities. -/
  perm : sorted.Perm l
  /-- Scores never increase. -/
  ordered : sorted.Pairwise (fun a b => key b ≤ key a)
  /-- Entries of one score keep their original order. -/
  stable : ∀ k, sorted.filter (fun a => key a = k) = l.filter (fun a => key a = k)

/-- A nonincreasing list is its own sort. -/
theorem sortDesc_of_pairwise {l : List α} (hl : l.Pairwise (fun a b => key b ≤ key a)) :
    sortDesc key l = l :=
  List.Pairwise.insertionSort_eq (show l.Pairwise (GeKey key) from hl)

/-- The executable sort meets the specification. -/
theorem sortDesc_isStableDesc (l : List α) : IsStableDesc key l (sortDesc key l) where
  perm := sortDesc_perm key l
  ordered := sortDesc_pairwise key l
  stable k := by
    rw [← sortDesc_filter]
    apply sortDesc_of_pairwise
    apply List.pairwise_of_forall_mem_list
    intro a ha b hb
    have hka : key a = k := by simpa using List.of_mem_filter ha
    have hkb : key b = k := by simpa using List.of_mem_filter hb
    rw [hka,hkb]

/-- Two nonincreasing lists with the same entries at every score are equal. -/
theorem eq_of_filter_eq {l₁ l₂ : List α}
    (h₁ : l₁.Pairwise (fun a b => key b ≤ key a)) (h₂ : l₂.Pairwise (fun a b => key b ≤ key a))
    (hf : ∀ k, l₁.filter (fun a => key a = k) = l₂.filter (fun a => key a = k)) : l₁ = l₂ := by
  have hmem : ∀ a, a ∈ l₁ ↔ a ∈ l₂ := by
    intro a
    have hk := congrArg (a ∈ ·) (hf (key a))
    simpa using hk
  induction l₁ generalizing l₂ with
  | nil =>
    cases l₂ with
    | nil => rfl
    | cons b t₂ => exact absurd ((hmem b).mpr (by simp)) (by simp)
  | cons a t₁ ih =>
    cases l₂ with
    | nil => exact absurd ((hmem a).mp (by simp)) (by simp)
    | cons b t₂ =>
      obtain ⟨ha,ht₁⟩ := List.pairwise_cons.mp h₁
      obtain ⟨hb,ht₂⟩ := List.pairwise_cons.mp h₂
      have hab : key a ≤ key b := by
        rcases List.mem_cons.mp ((hmem a).mp (by simp)) with rfl | hm
        · exact le_rfl
        · exact hb a hm
      have hba : key b ≤ key a := by
        rcases List.mem_cons.mp ((hmem b).mpr (by simp)) with rfl | hm
        · exact le_rfl
        · exact ha b hm
      have hkey : key a = key b := le_antisymm hab hba
      have hheads := hf (key a)
      simp only [List.filter_cons,hkey,decide_true,if_true,List.cons.injEq] at hheads
      obtain ⟨rfl,-⟩ := hheads
      have htails : ∀ k, t₁.filter (fun c => key c = k) = t₂.filter (fun c => key c = k) := by
        intro k
        have hk := hf k
        by_cases hak : key a = k
        · simpa [List.filter_cons,hak] using hk
        · simpa [List.filter_cons,hak] using hk
      rw [ih ht₁ ht₂ htails]
      intro c
      have hk := congrArg (c ∈ ·) (htails (key c))
      simpa using hk

/-- The specification has one solution, the executable sort. -/
theorem IsStableDesc.eq_sortDesc {l sorted : List α} (h : IsStableDesc key l sorted) :
    sorted = sortDesc key l :=
  eq_of_filter_eq key h.ordered (sortDesc_pairwise key l)
    (fun k => (h.stable k).trans ((sortDesc_isStableDesc key l).stable k).symm)

/-! ### Ranks of occurrences -/

/-- An occurrence is an entry with its position; it outranks another with a
higher score, or with an equal score and an earlier position. -/
def Outranks (p q : α×ℕ) : Prop := key q.1 < key p.1 ∨ (key p.1 = key q.1 ∧ p.2 < q.2)

instance : DecidableRel (Outranks key) := fun p q =>
  inferInstanceAs (Decidable (key q.1 < key p.1 ∨ (key p.1 = key q.1 ∧ p.2 < q.2)))

/-- How many occurrences of the list outrank the given one. -/
def rank (l : List α) (p : α×ℕ) : ℕ := l.zipIdx.countP (fun q => Outranks key q p)

theorem Outranks.asymm {p q : α×ℕ} (h : Outranks key p q) : ¬Outranks key q p := by
  rintro (h' | ⟨he,hi⟩)
  · rcases h with h | ⟨he,-⟩
    · exact lt_asymm h h'
    · exact absurd he h'.ne
  · rcases h with h | ⟨-,hi'⟩
    · exact absurd he h.ne
    · exact lt_asymm hi hi'

/-- Positions increase along the occurrences of a list. -/
theorem zipIdx_pairwise (l : List α) (n : ℕ) :
    (l.zipIdx n).Pairwise (fun p q => p.2 < q.2) := by
  have h : (List.range' n l.length).Pairwise (·<·) := List.pairwise_lt_range'
  rw [← List.zipIdx_map_snd n l] at h
  exact List.pairwise_map.mp h

/-- Inserting the earliest occurrence keeps the outranking order. -/
theorem orderedInsert_outranks {p : α×ℕ} {l : List (α×ℕ)}
    (hl : l.Pairwise (Outranks key)) (hp : ∀ q ∈ l, p.2 < q.2) :
    (l.orderedInsert (GeKey (key∘Prod.fst)) p).Pairwise (Outranks key) := by
  induction l with
  | nil => simp
  | cons q l ih =>
    obtain ⟨hq,htail⟩ := List.pairwise_cons.mp hl
    by_cases hpq : GeKey (key∘Prod.fst) p q
    · rw [List.orderedInsert_cons_of_le _ _ hpq]
      refine List.pairwise_cons.mpr ⟨?_,hl⟩
      intro r hr
      have hrp : key r.1 ≤ key p.1 := by
        rcases List.mem_cons.mp hr with rfl | hr'
        · exact hpq
        · rcases hq r hr' with hlt | ⟨he,-⟩
          · exact hlt.le.trans hpq
          · exact he ▸ hpq
      rcases hrp.lt_or_eq with hlt | he
      · exact Or.inl hlt
      · exact Or.inr ⟨he.symm,hp r hr⟩
    · rw [List.orderedInsert_of_not_le _ _ hpq]
      refine List.pairwise_cons.mpr ⟨?_,ih htail (fun r hr => hp r (List.mem_cons_of_mem _ hr))⟩
      intro r hr
      rcases (List.mem_orderedInsert _).mp hr with rfl | hr'
      · exact Or.inl (not_le.mp hpq)
      · exact hq r hr'

/-- Sorted occurrences stand in outranking order. -/
theorem sortDesc_outranks {l : List (α×ℕ)} (hl : l.Pairwise (fun p q => p.2 < q.2)) :
    (sortDesc (key∘Prod.fst) l).Pairwise (Outranks key) := by
  induction l with
  | nil => simp
  | cons p l ih =>
    obtain ⟨hp,htail⟩ := List.pairwise_cons.mp hl
    rw [sortDesc_cons]
    exact orderedInsert_outranks key (ih htail)
      (fun q hq => hp q ((mem_sortDesc _).mp hq))

/-- In a list ordered by a relation the entries within a cut precede those
behind it. -/
theorem rel_of_mem_take {R : α → α → Prop} {l : List α} (hl : l.Pairwise R) {k : ℕ} {a b : α}
    (ha : a ∈ l.take k) (hb : b ∈ l) (hcut : b ∉ l.take k) : R a b := by
  rw [← List.take_append_drop k l] at hl hb
  exact (List.pairwise_append.mp hl).2.2 a ha b ((List.mem_append.mp hb).resolve_left hcut)

/-- So do the entries that stand before others. -/
theorem rel_of_sublist {R : α → α → Prop} {l : List α} (hl : l.Pairwise R) {k : ℕ} {a b : α}
    (h : [a,b].Sublist (l.take k)) : R a b :=
  List.pairwise_pair.mp ((hl.sublist (List.take_sublist k l)).sublist h)

/-- In a list ordered by an asymmetric relation an entry is among the first
k exactly when fewer than k entries precede it. -/
theorem mem_take_iff_countP {R : α → α → Prop} [DecidableRel R]
    (hasymm : ∀ a b, R a b → ¬R b a) {l : List α} (hl : l.Pairwise R) {a : α} (ha : a ∈ l)
    (k : ℕ) : a ∈ l.take k ↔ l.countP (fun b => R b a) < k := by
  induction l generalizing k with
  | nil => simp at ha
  | cons b l ih =>
    obtain ⟨hb,htail⟩ := List.pairwise_cons.mp hl
    have hirr : ∀ c, ¬R c c := fun c hc => hasymm c c hc hc
    cases k with
    | zero => simp
    | succ k =>
      rw [List.take_succ_cons,List.mem_cons,List.countP_cons]
      by_cases hab : a = b
      · subst hab
        have hnone : l.countP (fun c => R c a) = 0 := by
          rw [List.countP_eq_zero]
          intro c hc
          simpa using hasymm a c (hb c hc)
        simp [hnone,hirr a]
      · have hal : a ∈ l := (List.mem_cons.mp ha).resolve_left hab
        simp only [hab,false_or,hb a hal,decide_true,if_true,ih htail hal k]
        omega

/-- An occurrence survives the cut at k exactly when its rank is below k. -/
theorem mem_take_sortDesc_iff {l : List α} {p : α×ℕ} (hp : p ∈ l.zipIdx) (k : ℕ) :
    p ∈ (sortDesc (key∘Prod.fst) l.zipIdx).take k ↔ rank key l p < k := by
  have hord := sortDesc_outranks key (zipIdx_pairwise l 0)
  rw [mem_take_iff_countP (fun _ _ => Outranks.asymm key) hord ((mem_sortDesc _).mpr hp)]
  rw [rank,(sortDesc_perm (key∘Prod.fst) l.zipIdx).countP_eq]

/-- Forgetting positions after sorting the occurrences gives the sorted list. -/
theorem map_fst_take_sortDesc (l : List α) (k : ℕ) :
    ((sortDesc (key∘Prod.fst) l.zipIdx).take k).map Prod.fst = (sortDesc key l).take k := by
  rw [List.map_take,← sortDesc_map,List.zipIdx_map_fst]

/-- All entries that survive the cut have a property exactly when the
occurrences without it are outranked. -/
theorem forall_mem_take_sortDesc_iff {P : α → Prop} (l : List α) (k : ℕ) :
    (∀ a ∈ (sortDesc key l).take k, P a) ↔ ∀ p ∈ l.zipIdx, ¬P p.1 → k ≤ rank key l p := by
  rw [← map_fst_take_sortDesc,List.forall_mem_map]
  constructor
  · intro h p hp hnot
    by_contra hlt
    exact hnot (h p ((mem_take_sortDesc_iff key hp k).mpr (not_le.mp hlt)))
  · intro h p hp
    by_contra hnot
    have hmem : p ∈ l.zipIdx := (mem_sortDesc _).mp (List.mem_of_mem_take hp)
    exact absurd (h p hmem hnot) (not_le.mpr ((mem_take_sortDesc_iff key hmem k).mp hp))

/-- What the entries of a list give, each with the position of its entry. -/
def located (f : β×ℕ → List α) (l : List β) : List (α×ℕ) :=
  l.zipIdx.flatMap (fun e => (f e).map (fun a => (a,e.2)))

theorem located_map_fst (f : β×ℕ → List α) (l : List β) :
    (located f l).map Prod.fst = l.zipIdx.flatMap f := by
  rw [located,List.map_flatMap]
  simp [Function.comp_def]

theorem mem_located {f : β×ℕ → List α} {l : List β} {p : α×ℕ} :
    p ∈ located f l ↔ ∃ b, l[p.2]? = some b ∧ p.1 ∈ f (b,p.2) := by
  obtain ⟨a,i⟩ := p
  simp only [located,List.mem_flatMap,List.mem_map,Prod.mk.injEq,Prod.exists,
    List.mem_zipIdx_iff_getElem?]
  constructor
  · rintro ⟨b,j,hb,_,ha,rfl,rfl⟩
    exact ⟨b,hb,ha⟩
  · rintro ⟨b,hb,ha⟩
    exact ⟨b,i,hb,a,ha,rfl,rfl⟩

/-- When every entry gives at most one, the positions increase. -/
theorem located_pairwise {f : β×ℕ → List α} (hone : ∀ e, (f e).length ≤ 1) (l : List β) :
    (located f l).Pairwise (fun p q => p.2 < q.2) := by
  rw [located,List.pairwise_flatMap]
  constructor
  · intro e _
    rw [List.pairwise_map]
    match f e,hone e with
    | [],_ => simp
    | [a],_ => simp
  · refine (zipIdx_pairwise l 0).imp ?_
    intro p q hpq x hx y hy
    obtain ⟨_,-,rfl⟩ := List.mem_map.mp hx
    obtain ⟨_,-,rfl⟩ := List.mem_map.mp hy
    exact hpq

/-! ### Resources with several occurrences -/

/-- Of every two occurrences of one resource at most one is ranked below k. -/
def RepeatsOutranked (res : α → ρ) (k : ℕ) (l : List α) : Prop :=
  ∀ p ∈ l.zipIdx, ∀ q ∈ l.zipIdx, p.2 < q.2 → res p.1 = res q.1 →
    k ≤ rank key l p ∨ k ≤ rank key l q

/-- The highest score of s is at least the highest score of r: each
occurrence of r is matched by one of s. -/
def ScoresAtLeast (res : α → ρ) (l : List α) (s r : ρ) : Prop :=
  ∀ b ∈ l, res b = r → ∃ a ∈ l, res a = s ∧ key b ≤ key a

/-- The named resources are pairwise different, and one that is left out stands
behind k other resources scoring at least as high. -/
structure DistinctTop (res : α → ρ) (k : ℕ) (l : List α) (named : List ρ) : Prop where
  /-- No resource is named twice. -/
  nodup : named.Nodup
  /-- Every resource left out has k distinct others at least as high. -/
  leftOut : ∀ r ∈ l.map res, r ∉ named → ∃ others : List ρ,
    others.Nodup ∧ k ≤ others.length ∧ r ∉ others ∧
      ∀ s ∈ others, ScoresAtLeast key res l s r

/-- The cut names no resource twice exactly when all repeats are outranked. -/
theorem nodup_take_iff (res : α → ρ) (k : ℕ) (l : List α) :
    (((sortDesc key l).take k).map res).Nodup ↔ RepeatsOutranked key res k l := by
  have hord := sortDesc_outranks key (zipIdx_pairwise l 0)
  have hnodup : ((sortDesc (key∘Prod.fst) l.zipIdx).take k).Nodup :=
    have hirr : ∀ {p q : α×ℕ}, Outranks key p q → p ≠ q := by
      rintro p q h rfl
      exact Outranks.asymm key h h
    (hord.imp hirr).sublist (List.take_sublist _ _)
  have hpos : ∀ p ∈ l.zipIdx, ∀ q ∈ l.zipIdx, p.2 = q.2 → p = q := by
    intro p hp q hq h
    have hp' := List.mem_zipIdx_iff_getElem?.mp hp
    have hq' := List.mem_zipIdx_iff_getElem?.mp hq
    rw [h,hq'] at hp'
    exact Prod.ext (Option.some.inj hp').symm h
  have hmem : ∀ p, p ∈ (sortDesc (key∘Prod.fst) l.zipIdx).take k →
      p ∈ l.zipIdx ∧ rank key l p < k := by
    intro p hp
    have hz := (mem_sortDesc _).mp (List.mem_of_mem_take hp)
    exact ⟨hz,(mem_take_sortDesc_iff key hz k).mp hp⟩
  rw [← map_fst_take_sortDesc,List.map_map,List.nodup_iff_pairwise_ne,List.pairwise_map]
  constructor
  · intro h p hp q hq hlt hres
    by_contra hc
    push Not at hc
    have hsymm : Std.Symm (fun a b : α×ℕ => (res∘Prod.fst) a ≠ (res∘Prod.fst) b) :=
      ⟨fun _ _ hne => hne.symm⟩
    have hpq : p ≠ q := fun he => absurd hlt (by simp [he])
    exact h.forall ((mem_take_sortDesc_iff key hp k).mpr hc.1)
      ((mem_take_sortDesc_iff key hq k).mpr hc.2) hpq hres
  · intro h
    refine hnodup.pairwise_of_forall_ne ?_
    intro p hp q hq hpq hres
    obtain ⟨hpz,hpr⟩ := hmem p hp
    obtain ⟨hqz,hqr⟩ := hmem q hq
    rcases lt_trichotomy p.2 q.2 with hlt | he | hgt
    · have hd := h p hpz q hqz hlt hres
      omega
    · exact hpq (hpos p hpz q hqz he)
    · have hd := h q hqz p hpz hgt hres.symm
      omega

/-- A resource left out by a cut without repeats stands behind all the
resources the cut names, and those are k. -/
theorem leftOut_of_nodup (res : α → ρ) (k : ℕ) (l : List α)
    (hn : (((sortDesc key l).take k).map res).Nodup) {r : ρ}
    (hr : r ∈ l.map res) (hout : r ∉ ((sortDesc key l).take k).map res) :
    ∃ others : List ρ, others.Nodup ∧ k ≤ others.length ∧ r ∉ others ∧
      ∀ s ∈ others, ScoresAtLeast key res l s r := by
  refine ⟨((sortDesc key l).take k).map res,hn,?_,hout,?_⟩
  · by_contra hlt
    rw [List.length_map,List.length_take] at hlt
    have hall : (sortDesc key l).take k = sortDesc key l :=
      List.take_of_length_le (by omega)
    obtain ⟨b,hb,rfl⟩ := List.mem_map.mp hr
    rw [hall] at hout
    exact hout (List.mem_map_of_mem ((mem_sortDesc key).mpr hb))
  · intro s hs b hb hbr
    obtain ⟨a,ha,rfl⟩ := List.mem_map.mp hs
    refine ⟨a,(mem_sortDesc key).mp (List.mem_of_mem_take ha),rfl,?_⟩
    -- b itself is not in the cut, so it stands behind a
    exact rel_of_mem_take (sortDesc_pairwise key l) ha ((mem_sortDesc key).mpr hb)
      (fun h => hout (hbr ▸ List.mem_map_of_mem h))

/-- The cut of the ranking is a distinct top exactly when every repeat of a
resource is outranked by k occurrences. -/
theorem distinctTop_iff (res : α → ρ) (k : ℕ) (l : List α) :
    DistinctTop key res k l (((sortDesc key l).take k).map res) ↔
      RepeatsOutranked key res k l := by
  rw [← nodup_take_iff]
  exact ⟨fun h => h.nodup,fun hn => ⟨hn,fun _ hr hout => leftOut_of_nodup key res k l hn hr hout⟩⟩

end Senca.StableRanking
