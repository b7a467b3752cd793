import Mathlib.Data.List.Dedup
import Mathlib.Data.List.Nodup
import Mathlib.Tactic.Common

/-!
# Keeping the first entry for each key

The sublist of the entries whose key no earlier entry has, and the loop
that computes it with a set of seen keys. Appending one entry keeps it
exactly when its key is new, which is the step of the loop; the kept
entries have distinct keys, one for each key that occurs at all. Nothing
here refers to a particular program.
-/

namespace Senca.FirstOccurrences

variable {α κ : Type} [DecidableEq κ] (key : α → κ)

/-- The entries whose key no earlier entry has. -/
def firstOccurrences (l : List α) : List α := l.eraseDupsBy (fun a b => key a == key b)

@[simp] theorem firstOccurrences_nil : firstOccurrences key [] = [] := rfl

theorem firstOccurrences_cons (a : α) (l : List α) :
    firstOccurrences key (a::l) =
      a::firstOccurrences key (l.filter (fun b => key b ≠ key a)) := by
  rw [firstOccurrences,List.eraseDupsBy_cons]
  simp [firstOccurrences]

/-- Induction on a list that drops the later entries of the first key. -/
theorem filterInduction {motive : List α → Prop} (nil : motive [])
    (cons : ∀ a l, motive (l.filter (fun b => key b ≠ key a)) → motive (a::l)) :
    ∀ l, motive l
  | [] => nil
  | a::l => cons a l (filterInduction nil cons _)
termination_by l => l.length
decreasing_by exact Nat.lt_succ_of_le (List.length_filter_le _ _)

/-- Every key that occurs keeps an entry. -/
theorem mem_keys_firstOccurrences (l : List α) (k : κ) :
    k ∈ (firstOccurrences key l).map key ↔ k ∈ l.map key := by
  induction l using filterInduction key with
  | nil => simp
  | cons a l ih =>
    rw [firstOccurrences_cons,List.map_cons,List.mem_cons,ih,List.map_cons,List.mem_cons]
    constructor
    · rintro (hk | hk)
      · exact Or.inl hk
      · obtain ⟨b,hb,rfl⟩ := List.mem_map.mp hk
        exact Or.inr (List.mem_map_of_mem (List.mem_of_mem_filter hb))
    · rintro (hk | hk)
      · exact Or.inl hk
      · obtain ⟨b,hb,rfl⟩ := List.mem_map.mp hk
        by_cases hba : key b = key a
        · exact Or.inl hba
        · exact Or.inr (List.mem_map_of_mem (List.mem_filter.mpr ⟨hb,by simpa using hba⟩))

/-- No key is kept twice. -/
theorem nodup_keys_firstOccurrences (l : List α) : ((firstOccurrences key l).map key).Nodup := by
  induction l using filterInduction key with
  | nil => simp
  | cons a l ih =>
    rw [firstOccurrences_cons,List.map_cons,List.nodup_cons]
    refine ⟨?_,ih⟩
    rw [mem_keys_firstOccurrences]
    intro hmem
    obtain ⟨b,hb,hba⟩ := List.mem_map.mp hmem
    have hne := List.of_mem_filter hb
    simp [hba] at hne

/-- As many entries are kept as there are keys. -/
theorem length_firstOccurrences (l : List α) :
    (firstOccurrences key l).length = (l.map key).dedup.length := by
  rw [← List.length_map key]
  apply List.Perm.length_eq
  rw [List.perm_ext_iff_of_nodup (nodup_keys_firstOccurrences key l) (List.nodup_dedup _)]
  intro k
  rw [mem_keys_firstOccurrences,List.mem_dedup]

/-- The step of the loop: one more entry is kept exactly when its key is new. -/
theorem firstOccurrences_append_singleton (l : List α) (a : α) :
    firstOccurrences key (l++[a]) =
      if key a ∈ l.map key then firstOccurrences key l else firstOccurrences key l++[a] := by
  induction l using filterInduction key with
  | nil => simp [firstOccurrences_cons]
  | cons b l ih =>
    rw [List.cons_append,firstOccurrences_cons,List.filter_append]
    by_cases hab : key a = key b
    · have hdrop : [a].filter (fun c => key c ≠ key b) = [] := by simp [hab]
      rw [hdrop,List.append_nil,← firstOccurrences_cons,if_pos (by simp [hab])]
    · have hkeep : [a].filter (fun c => key c ≠ key b) = [a] := by simp [hab]
      have hmem : key a ∈ (l.filter (fun c => key c ≠ key b)).map key ↔
          key a ∈ (b::l).map key := by
        simp only [List.mem_map,List.mem_filter,List.mem_cons,decide_eq_true_eq]
        constructor
        · rintro ⟨c,⟨hc,-⟩,hca⟩
          exact ⟨c,Or.inr hc,hca⟩
        · rintro ⟨c,rfl | hc,hca⟩
          · exact absurd hca.symm hab
          · exact ⟨c,⟨hc,by rw [hca]; exact hab⟩,hca⟩
      rw [hkeep,ih,firstOccurrences_cons]
      by_cases hm : key a ∈ (b::l).map key
      · rw [if_pos hm,if_pos (hmem.mpr hm)]
      · rw [if_neg hm,if_neg (fun h => hm (hmem.mp h)),List.cons_append]

end Senca.FirstOccurrences
