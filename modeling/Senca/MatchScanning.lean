import Mathlib.Data.List.Basic
import Mathlib.Tactic.Common

/-!
# Scanning a text for matches that do not overlap

What a search for all matches of a pattern finds, each with its place. The
pattern is given by its match at the start of a text. Two laws make the scan
predictable: a match depends only on its own letters, and one that begins
inside another one does not end before it. Then the matches of a text cut
short are the matches of the text that end before the cut.
-/

namespace Senca.MatchScanning

/-- A match, with the place of its first letter. -/
structure Found (β : Type*) where
  /-- The number of letters before it. -/
  start : ℕ
  /-- The number of its letters. -/
  size : ℕ
  /-- What was matched. -/
  value : β
  deriving DecidableEq

/-- The number of letters up to its end. -/
def Found.stop {β : Type*} (found : Found β) : ℕ := found.start+found.size

theorem Found.stop_mk {β : Type*} (place size : ℕ) (value : β) :
    (⟨place,size,value⟩ : Found β).stop = place+size := rfl

/-- A pattern, by its match at the start of a text and the size of it. -/
structure Matcher (α β : Type*) where
  /-- The match at the start of a text. -/
  matchAt : List α → Option (β×ℕ)
  /-- A match has letters. -/
  size_pos : ∀ {text value size}, matchAt text = some (value,size) → 0 < size
  /-- A text cut short has the match if it ends before the cut. -/
  matchAt_take : ∀ (text : List α) (n : ℕ),
    matchAt (text.take n) = (matchAt text).filter (fun found => found.2 ≤ n)
  /-- A match that begins inside another one does not end before it. -/
  inner : ∀ {text value size skip value' size'}, matchAt text = some (value,size) →
    skip < size → matchAt (text.drop skip) = some (value',size') → size ≤ skip+size'

namespace Matcher

variable {α β : Type*} (m : Matcher α β)

/-- The scan from a place: after a match its other letters are skipped. -/
def scanFrom : ℕ → ℕ → List α → List (Found β)
  | _,_,[] => []
  | place,skip+1,_::rest => scanFrom (place+1) skip rest
  | place,0,c::rest =>
    match m.matchAt (c::rest) with
    | some (value,size) => ⟨place,size,value⟩::scanFrom (place+1) (size-1) rest
    | none => scanFrom (place+1) 0 rest

variable {m} {place skip n : ℕ} {text a b : List α} {found : Found β}

/-- Every match found is one, at its place, behind the skipped letters. -/
theorem scanFrom_sound (h : found ∈ m.scanFrom place skip text) :
    ∃ k, skip ≤ k ∧ found.start = place+k ∧
      m.matchAt (text.drop k) = some (found.value,found.size) := by
  fun_induction scanFrom m place skip text with
  | case1 => cases h
  | case2 place skip c rest ih =>
    obtain ⟨k,hk,hstart,hmatch⟩ := ih h
    exact ⟨k+1,by omega,by omega,hmatch⟩
  | case3 place c rest value size hfound ih =>
    rcases List.mem_cons.mp h with rfl | h
    · exact ⟨0,Nat.le_refl 0,rfl,hfound⟩
    · obtain ⟨k,-,hstart,hmatch⟩ := ih h
      exact ⟨k+1,Nat.zero_le _,by omega,hmatch⟩
  | case4 place c rest _ ih =>
    obtain ⟨k,-,hstart,hmatch⟩ := ih h
    exact ⟨k+1,Nat.zero_le _,by omega,hmatch⟩

theorem le_start (h : found ∈ m.scanFrom place skip text) : place+skip ≤ found.start := by
  obtain ⟨k,hk,hstart,-⟩ := scanFrom_sound h
  omega

theorem start_lt_stop (h : found ∈ m.scanFrom place skip text) : found.start < found.stop := by
  obtain ⟨k,-,-,hmatch⟩ := scanFrom_sound h
  have := m.size_pos hmatch
  rw [Found.stop]
  omega

/-- Each match ends before the next one begins. -/
theorem scanFrom_pairwise (m : Matcher α β) (place skip : ℕ) (text : List α) :
    (m.scanFrom place skip text).Pairwise (fun f g => f.stop ≤ g.start) := by
  fun_induction scanFrom m place skip text with
  | case1 => exact List.Pairwise.nil
  | case2 _ _ _ _ ih => exact ih
  | case3 place c rest value size hfound ih =>
    refine List.pairwise_cons.mpr ⟨fun g hg => ?_,ih⟩
    have := le_start hg
    have := m.size_pos hfound
    rw [Found.stop_mk]
    omega
  | case4 _ _ _ _ ih => exact ih

/-- A scan begins with its first match. -/
theorem le_start_of_head {bound : ℕ} (h : ∀ f ∈ (m.scanFrom place skip text).head?, bound ≤ f.start)
    (hfound : found ∈ m.scanFrom place skip text) : bound ≤ found.start := by
  have hpairwise := scanFrom_pairwise m place skip text
  have hstop : ∀ f ∈ m.scanFrom place skip text, f.start < f.stop := fun f hf => start_lt_stop hf
  generalize m.scanFrom place skip text = all at h hpairwise hstop hfound
  cases all with
  | nil => cases hfound
  | cons f rest =>
    have hfirst : bound ≤ f.start := h f rfl
    rcases List.mem_cons.mp hfound with rfl | hrest
    · exact hfirst
    · have := List.rel_of_pairwise_cons hpairwise hrest
      have := hstop f List.mem_cons_self
      omega

/-- No match that begins behind the first letter of another one ends before it. -/
theorem le_stop_of_matchAt {c : α} {rest : List α} {value : β} {size : ℕ}
    (hmatch : m.matchAt (c::rest) = some (value,size))
    (hfound : found ∈ m.scanFrom (place+1) skip rest) : place+size ≤ found.stop := by
  obtain ⟨k,-,hstart,hat⟩ := scanFrom_sound hfound
  have hlt := start_lt_stop hfound
  by_cases hinside : k+1 < size
  · have := m.inner hmatch hinside hat
    rw [Found.stop]
    omega
  · omega

/-- A text cut short has the matches that end before the cut. -/
theorem scanFrom_take (m : Matcher α β) (place skip n : ℕ) (text : List α) :
    m.scanFrom place skip (text.take n) =
      (m.scanFrom place skip text).filter (fun f => f.stop ≤ place+n) := by
  induction text generalizing place skip n with
  | nil => rw [List.take_nil,scanFrom]; rfl
  | cons c rest ih =>
    cases n with
    | zero =>
      symm
      rw [List.take_zero,scanFrom,List.filter_eq_nil_iff]
      intro f hf
      have := le_start hf
      have := start_lt_stop hf
      simp only [decide_eq_true_eq]
      omega
    | succ n =>
      have hplace : place+(n+1) = place+1+n := by omega
      rw [List.take_succ_cons,hplace]
      cases skip with
      | succ skip =>
        rw [scanFrom,scanFrom]
        exact ih (place+1) skip n
      | zero =>
        have hmatch : m.matchAt (c::rest.take n) =
            (m.matchAt (c::rest)).filter (fun found => found.2 ≤ n+1) :=
          m.matchAt_take (c::rest) (n+1)
        cases hfound : m.matchAt (c::rest) with
        | none =>
          rw [hfound,Option.filter_none] at hmatch
          rw [scanFrom,scanFrom,hmatch,hfound]
          exact ih (place+1) 0 n
        | some found =>
          obtain ⟨value,size⟩ := found
          have hpos := m.size_pos hfound
          rw [hfound,Option.filter_some] at hmatch
          rw [scanFrom,scanFrom,hmatch,hfound]
          by_cases hsize : size ≤ n+1
          · have hstop : (⟨place,size,value⟩ : Found β).stop ≤ place+1+n := by
              rw [Found.stop_mk]
              omega
            simp only [hsize,decide_true,if_true]
            rw [List.filter_cons_of_pos (by simpa using hstop),ih (place+1) (size-1) n]
          · -- the cut is inside the match, and no later match ends before it
            have hstop : ¬(⟨place,size,value⟩ : Found β).stop ≤ place+1+n := by
              rw [Found.stop_mk]
              omega
            simp only [hsize,decide_false,Bool.false_eq_true,if_false]
            rw [List.filter_cons_of_neg (by simpa using hstop),ih (place+1) 0 n]
            have hnone : ∀ skip, (m.scanFrom (place+1) skip rest).filter
                (fun f => f.stop ≤ place+1+n) = [] := by
              intro skip
              refine List.filter_eq_nil_iff.mpr fun f hf => ?_
              have := le_stop_of_matchAt hfound hf
              simp only [decide_eq_true_eq]
              omega
            rw [hnone,hnone]

/-- When no match begins in the first part of a text, its matches are those of
the second part. -/
theorem scanFrom_append (h : ∀ f ∈ m.scanFrom place 0 (a++b), place+a.length ≤ f.start) :
    m.scanFrom place 0 (a++b) = m.scanFrom (place+a.length) 0 b := by
  induction a generalizing place with
  | nil => rfl
  | cons c a ih =>
    rw [List.cons_append] at h ⊢
    rw [List.length_cons] at h
    cases hfound : m.matchAt (c::(a++b)) with
    | some found =>
      rw [scanFrom,hfound] at h
      have := h ⟨place,found.2,found.1⟩ List.mem_cons_self
      dsimp only at this
      omega
    | none =>
      rw [scanFrom,hfound] at h ⊢
      rw [List.length_cons,show place+(a.length+1) = place+1+a.length by omega]
      exact ih fun f hf => by
        have := h f hf
        omega

/-- The first items of a list that a test keeps are the first kept ones. -/
theorem take_filter {γ : Type*} {p : γ → Bool} {l : List γ} {k : ℕ}
    (h : ∀ a ∈ l.take k, p a = true) : (l.filter p).take k = l.take k := by
  induction l generalizing k with
  | nil => rfl
  | cons a rest ih =>
    cases k with
    | zero => rfl
    | succ k =>
      rw [List.take_succ_cons] at h
      rw [List.filter_cons_of_pos (h a List.mem_cons_self),List.take_succ_cons,List.take_succ_cons,
        ih fun b hb => h b (List.mem_cons_of_mem a hb)]

section Window

variable {head region tail : List α} {bound cut k : ℕ}

/-- When every match of a text cut short begins behind its head, the matches
are those of the region behind the head that end before the cut. -/
theorem scanFrom_window (hcut : cut ≤ head.length+region.length)
    (h : ∀ f ∈ m.scanFrom place 0 ((head++region++tail).take cut), place+head.length ≤ f.start) :
    m.scanFrom place 0 ((head++region++tail).take cut) =
      (m.scanFrom (place+head.length) 0 region).filter (fun f => f.stop ≤ place+cut) := by
  by_cases hle : cut ≤ head.length
  · -- such a match would begin behind the cut
    have hwindow : m.scanFrom place 0 ((head++region++tail).take cut) = [] := by
      refine List.eq_nil_iff_forall_not_mem.mpr fun f hf => ?_
      have hstart := h f hf
      rw [scanFrom_take] at hf
      have hstop : f.stop ≤ place+cut := by simpa using List.of_mem_filter hf
      have := start_lt_stop (List.mem_of_mem_filter hf)
      omega
    rw [hwindow,eq_comm,List.filter_eq_nil_iff]
    intro f hf
    have := le_start hf
    have := start_lt_stop hf
    simp only [decide_eq_true_eq]
    omega
  · obtain ⟨r,rfl⟩ := Nat.exists_eq_add_of_le (Nat.le_of_not_le hle)
    have htake : (head++region++tail).take (head.length+r) = head++region.take r := by
      rw [List.append_assoc,List.take_length_add_append,List.take_append_of_le_length (by omega)]
    rw [htake] at h ⊢
    rw [scanFrom_append h,scanFrom_take,Nat.add_assoc]

/-- The first matches of a text cut short are the first ones of a region of
it exactly when no match that ends before the cut begins before the region,
and those of the region end before the cut. -/
theorem take_scanFrom_window_iff (hk : 0 < k) (hcut : cut ≤ head.length+region.length)
    (hbound : bound ≤ place+head.length)
    (hgap : ∀ f ∈ m.scanFrom place 0 (head++region++tail), bound ≤ f.start →
      place+head.length ≤ f.start) :
    (m.scanFrom place 0 ((head++region++tail).take cut)).take k =
        (m.scanFrom (place+head.length) 0 region).take k ↔
      (∀ f ∈ m.scanFrom place 0 (head++region++tail), f.stop ≤ place+cut → bound ≤ f.start) ∧
        ∀ f ∈ (m.scanFrom (place+head.length) 0 region).take k, f.stop ≤ place+cut := by
  have hmem : ∀ f, f ∈ m.scanFrom place 0 ((head++region++tail).take cut) ↔
      f ∈ m.scanFrom place 0 (head++region++tail) ∧ f.stop ≤ place+cut := fun f => by
    rw [scanFrom_take,List.mem_filter,decide_eq_true_eq]
  constructor
  · intro h
    refine ⟨fun f hf hstop => ?_,fun f hf => ?_⟩
    · refine Nat.le_trans hbound (le_start_of_head (fun g hg => ?_) ((hmem f).mpr ⟨hf,hstop⟩))
      have hg' : g ∈ ((m.scanFrom place 0 ((head++region++tail).take cut)).take k).head? := by
        rwa [List.head?_take,if_neg (by omega)]
      rw [h] at hg'
      have hstart := le_start (List.mem_of_mem_take (List.mem_of_mem_head? hg'))
      rwa [Nat.add_zero] at hstart
    · rw [← h] at hf
      exact ((hmem f).mp (List.mem_of_mem_take hf)).2
  · rintro ⟨hbefore,hwithin⟩
    rw [scanFrom_window hcut fun f hf => by
      obtain ⟨hf',hstop⟩ := (hmem f).mp hf
      exact hgap f hf' (hbefore f hf' hstop)]
    exact take_filter (by simpa using hwithin)

end Window

end Matcher

end Senca.MatchScanning
