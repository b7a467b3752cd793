import Mathlib.Data.List.Induction
import Senca.FirstOccurrences
import Senca.StableRanking

/-!
# Counting entries and the most common ones

A counter keeps one entry for each word, in the order in which the words first
occur, and its most common entries are those with the highest counts, equal
counts in that order. A word is among the first n exactly when fewer than n
words are more common than it; nothing else of the counted list matters.
Nothing here refers to a particular program.
-/

namespace Senca.WordCounts

open FirstOccurrences StableRanking

variable {α : Type} [DecidableEq α]

/-- One more occurrence: its entry is raised in place, or added at the end. -/
def bump (w : α) : List (α×ℕ) → List (α×ℕ)
  | [] => [(w,1)]
  | entry::rest => if entry.1 = w then (w,entry.2+1)::rest else entry::bump w rest

/-- One entry for each word, with its number of occurrences. -/
def counter (words : List α) : List (α×ℕ) := words.foldl (fun counts w => bump w counts) []

/-- The n entries with the highest counts. -/
def mostCommon (n : ℕ) (counts : List (α×ℕ)) : List (α×ℕ) := (sortDesc Prod.snd counts).take n

/-- The words of these entries. -/
def commonWords (n : ℕ) (words : List α) : List α :=
  (mostCommon n (counter words)).map Prod.fst

/-! ### The counter -/

theorem mem_firsts {words : List α} {w : α} : w ∈ firstOccurrences id words ↔ w ∈ words := by
  simpa using mem_keys_firstOccurrences id words w

theorem firsts_nodup (words : List α) : (firstOccurrences id words).Nodup := by
  simpa using nodup_keys_firstOccurrences id words

/-- A new word is added at the end. -/
theorem bump_new {w : α} {counts : List (α×ℕ)} (h : w ∉ counts.map Prod.fst) :
    bump w counts = counts++[(w,1)] := by
  induction counts with
  | nil => rfl
  | cons entry rest ih =>
    rw [List.map_cons,List.mem_cons,not_or] at h
    rw [bump,if_neg (fun he => h.1 he.symm),ih h.2]
    rfl

/-- The entry of a word that is there is raised. -/
theorem bump_known {w : α} {words : List α} (count : α → ℕ) (hnodup : words.Nodup)
    (h : w ∈ words) : bump w (words.map (fun v => (v,count v))) =
      words.map (fun v => (v,if v = w then count v+1 else count v)) := by
  induction words with
  | nil => cases h
  | cons v rest ih =>
    obtain ⟨hv,hrest⟩ := List.nodup_cons.mp hnodup
    rw [List.map_cons,List.map_cons,bump]
    by_cases hvw : v = w
    · subst hvw
      rw [if_pos rfl,if_pos rfl]
      congr 1
      refine List.map_congr_left fun u hu => ?_
      have hne : u ≠ v := fun he => hv (he ▸ hu)
      rw [if_neg hne]
    · rw [if_neg hvw,if_neg hvw,ih hrest ((List.mem_cons.mp h).resolve_left fun he => hvw he.symm)]

theorem counter_append_singleton (words : List α) (w : α) :
    counter (words++[w]) = bump w (counter words) := by
  rw [counter,List.foldl_append]
  rfl

/-- The entries are the words in the order of their first occurrence, each with
the number of its occurrences. -/
theorem counter_eq (words : List α) :
    counter words = (firstOccurrences id words).map (fun w => (w,words.count w)) := by
  induction words using List.reverseRecOn with
  | nil => rfl
  | append_singleton words w ih =>
    have hcount : ∀ v, (words++[w]).count v = if v = w then words.count v+1 else words.count v := by
      intro v
      rw [List.count_append,List.count_singleton]
      by_cases hv : v = w
      · simp [hv]
      · simp [hv,Ne.symm hv]
    rw [counter_append_singleton,ih,firstOccurrences_append_singleton]
    simp only [id_eq,List.map_id_fun,hcount]
    by_cases hw : w ∈ words
    · rw [if_pos hw,bump_known (fun v => words.count v) (firsts_nodup words) (mem_firsts.mpr hw)]
    · have hnew : w ∉ ((firstOccurrences id words).map (fun v => (v,words.count v))).map
          Prod.fst := by
        simpa [mem_firsts] using hw
      have hsame : (firstOccurrences id words).map (fun v =>
            (v,if v = w then words.count v+1 else words.count v)) =
          (firstOccurrences id words).map (fun v => (v,words.count v)) := by
        refine List.map_congr_left fun v hv => ?_
        have hne : v ≠ w := fun he => hw (he ▸ mem_firsts.mp hv)
        rw [if_neg hne]
      rw [if_neg hw,bump_new hnew,List.map_append,hsame]
      simp [List.count_eq_zero_of_not_mem hw]

/-! ### The most common words -/

/-- A word is more common than another: it occurs more often, or as often and
first. -/
def MoreCommon (words : List α) (v w : α) : Prop :=
  words.count w < words.count v ∨
    (words.count v = words.count w ∧ words.idxOf v < words.idxOf w)

instance (words : List α) : DecidableRel (MoreCommon words) := fun v w =>
  inferInstanceAs (Decidable (words.count w < words.count v ∨
    (words.count v = words.count w ∧ words.idxOf v < words.idxOf w)))

/-- First occurrences stand in the order of their positions. -/
theorem firstOccurrences_pairwise (words : List α) : (firstOccurrences id words).Pairwise
    (fun v w => words.idxOf v < words.idxOf w) := by
  induction words using List.reverseRecOn with
  | nil => exact List.Pairwise.nil
  | append_singleton words w ih =>
    have hmem : ∀ v ∈ firstOccurrences id words, v ∈ words := fun v hv => mem_firsts.mp hv
    have hkept : (firstOccurrences id words).Pairwise
        (fun u v => (words++[w]).idxOf u < (words++[w]).idxOf v) := by
      refine ih.imp_of_mem fun {u v} hu hv huv => ?_
      rwa [List.idxOf_append_of_mem (hmem u hu),List.idxOf_append_of_mem (hmem v hv)]
    rw [firstOccurrences_append_singleton]
    simp only [id_eq,List.map_id_fun]
    split
    · exact hkept
    · rename_i hw
      refine List.pairwise_append.mpr ⟨hkept,List.pairwise_singleton _ _,fun v hv u hu => ?_⟩
      rw [List.mem_singleton.mp hu,List.idxOf_append_of_mem (hmem v hv),
        List.idxOf_append_of_notMem hw]
      exact Nat.lt_add_right _ (List.idxOf_lt_length_of_mem (hmem v hv))

/-- The most common words are those at the front of a sorted list. -/
theorem commonWords_eq (n : ℕ) (words : List α) :
    commonWords n words = (sortDesc (words.count ·) (firstOccurrences id words)).take n := by
  rw [commonWords,mostCommon,counter_eq,sortDesc_map,← List.map_take,List.map_map]
  exact List.map_id _

/-- A word is among the first n exactly when it occurs and fewer than n words
are more common. -/
theorem mem_commonWords (n : ℕ) (words : List α) (w : α) : w ∈ commonWords n words ↔
    w ∈ words ∧ words.dedup.countP (MoreCommon words · w) < n := by
  have hperm : (firstOccurrences id words).Perm words.dedup := by
    refine (List.perm_ext_iff_of_nodup (firsts_nodup words) (List.nodup_dedup _)).mpr fun v => ?_
    rw [mem_firsts,List.mem_dedup]
  -- the sort sees each word with the position of its first occurrence
  have hlocated : firstOccurrences id words =
      ((firstOccurrences id words).map (fun v => (v,words.idxOf v))).map Prod.fst := by
    rw [List.map_map]
    exact (List.map_id _).symm
  have hpositions : ((firstOccurrences id words).map (fun v => (v,words.idxOf v))).Pairwise
      (fun p q => p.2 < q.2) := List.pairwise_map.mpr (firstOccurrences_pairwise words)
  have hcommon : (sortDesc (words.count ·) (firstOccurrences id words)).Pairwise
      (MoreCommon words) := by
    rw [hlocated,sortDesc_map]
    refine List.pairwise_map.mpr ((sortDesc_outranks (words.count ·) hpositions).imp_of_mem ?_)
    intro p q hp hq hpq
    obtain ⟨v,-,rfl⟩ := List.mem_map.mp ((mem_sortDesc _).mp hp)
    obtain ⟨u,-,rfl⟩ := List.mem_map.mp ((mem_sortDesc _).mp hq)
    exact hpq
  have hasymm : ∀ v u, MoreCommon words v u → ¬MoreCommon words u v := by
    rintro v u (h | ⟨h,hpos⟩) (h' | ⟨h',hpos'⟩) <;> omega
  rw [commonWords_eq]
  constructor
  · intro h
    have hw := (mem_sortDesc _).mp (List.mem_of_mem_take h)
    refine ⟨mem_firsts.mp hw,?_⟩
    rw [← hperm.countP_eq,← (sortDesc_perm (words.count ·) _).countP_eq]
    exact (mem_take_iff_countP hasymm hcommon ((mem_sortDesc _).mpr hw) n).mp h
  · rintro ⟨hw,hrank⟩
    have hsorted := (mem_sortDesc (words.count ·)).mpr (mem_firsts.mpr hw)
    rw [mem_take_iff_countP hasymm hcommon hsorted,(sortDesc_perm (words.count ·) _).countP_eq,
      hperm.countP_eq]
    exact hrank

end Senca.WordCounts
