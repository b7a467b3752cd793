import Mathlib.Algebra.BigOperators.Group.Finset.Piecewise
import Mathlib.Data.Fintype.Basic
import Mathlib.Logic.Function.Basic
import Senca.GrowingLogs

/-!
# Clients of one shared family

A client sends requests one after the other and chooses each by the answers it
got so far. Several clients are served in turn, in any order. A member of the
family that only one of them touches is at every moment such that this client,
left alone from there on, makes of it what it makes of it alone from the
beginning. Nothing here refers to a particular program.
-/

namespace Senca.InterleavedClients

open GrowingLogs

/-- A client: it is done, or it sends a request and goes on by the answer. -/
inductive Client (ρ α : Type) where
  /-- It sends nothing any more. -/
  | done
  /-- Its next request, and the client that gets the answer. -/
  | send (req : ρ) (next : α → Client ρ α)

namespace Client

variable {ρ α σ : Type}

/-- One client, and after it another one. -/
def andThen : Client ρ α → Client ρ α → Client ρ α
  | .done,d => d
  | .send req next,d => .send req (fun a => (next a).andThen d)

/-- A client that sends up to a number of requests until one answer will do. -/
def retries (ok : α → Bool) (req : ℕ → ρ) : ℕ → ℕ → Client ρ α
  | 0,_ => .done
  | n+1,k => .send (req k) (fun a => if ok a then .done else retries ok req n (k+1))

/-- The state after a client that nobody disturbs. -/
def alone (serve : σ → ρ → α×σ) : Client ρ α → σ → σ
  | .done,s => s
  | .send req next,s => alone serve (next (serve s req).1) (serve s req).2

/-- Whatever it is answered, all its requests satisfy a property. -/
def Sends (P : ρ → Prop) : Client ρ α → Prop
  | .done => True
  | .send req next => P req ∧ ∀ a, (next a).Sends P

/-- Whatever it is answered, its requests together do not cost more than a
number. -/
def Within (cost : ρ → ℕ) : ℕ → Client ρ α → Prop
  | _,.done => True
  | n,.send req next => cost req ≤ n ∧ ∀ a, (next a).Within cost (n-cost req)

variable {cost : ρ → ℕ}

theorem Within.mono {n m : ℕ} {c : Client ρ α} (h : c.Within cost n) (hnm : n ≤ m) :
    c.Within cost m := by
  induction c generalizing n m with
  | done => trivial
  | send req next ih => exact ⟨h.1.trans hnm,fun a => ih a (h.2 a) (Nat.sub_le_sub_right hnm _)⟩

/-- A client all of whose requests are free spends nothing. -/
theorem within_free {c : Client ρ α} (h : c.Sends (fun req => cost req = 0)) (n : ℕ) :
    c.Within cost n := by
  induction c generalizing n with
  | done => trivial
  | send req next ih => exact ⟨h.1.le.trans (Nat.zero_le n),fun a => ih a (h.2 a) _⟩

theorem alone_andThen (serve : σ → ρ → α×σ) (c d : Client ρ α) (s : σ) :
    alone serve (c.andThen d) s = alone serve d (alone serve c s) := by
  induction c generalizing s with
  | done => rfl
  | send req next ih => exact ih _ _

theorem sends_andThen {P : ρ → Prop} {c d : Client ρ α} (hc : c.Sends P) (hd : d.Sends P) :
    (c.andThen d).Sends P := by
  induction c with
  | done => exact hd
  | send req next ih => exact ⟨hc.1,fun a => ih a (hc.2 a)⟩

theorem within_andThen {n m : ℕ} {c d : Client ρ α} (hc : c.Within cost n)
    (hd : d.Within cost m) : (c.andThen d).Within cost (n+m) := by
  induction c generalizing n with
  | done => exact hd.mono (Nat.le_add_left m n)
  | send req next ih =>
    refine ⟨hc.1.trans (Nat.le_add_right n m),fun a => ?_⟩
    rw [Nat.sub_add_comm hc.1]
    exact ih a (hc.2 a)

theorem sends_retries {P : ρ → Prop} {ok : α → Bool} {req : ℕ → ρ} (h : ∀ k, P (req k))
    (n k : ℕ) : (retries ok req n k).Sends P := by
  induction n generalizing k with
  | zero => trivial
  | succ n ih =>
    refine ⟨h k,fun a => ?_⟩
    dsimp only
    split
    · trivial
    · exact ih (k+1)

theorem within_retries {ok : α → Bool} {req : ℕ → ρ} {each : ℕ} (h : ∀ k, cost (req k) ≤ each)
    (n k : ℕ) : (retries ok req n k).Within cost (n*each) := by
  induction n generalizing k with
  | zero => trivial
  | succ n ih =>
    rw [Nat.succ_mul]
    refine ⟨(h k).trans (Nat.le_add_left _ _),fun a => ?_⟩
    dsimp only
    split
    · trivial
    · refine (ih (k+1)).mono ?_
      have hk := h k
      omega

theorem Sends.mono {P Q : ρ → Prop} {c : Client ρ α} (h : c.Sends P) (hPQ : ∀ req, P req → Q req) :
    c.Sends Q := by
  induction c with
  | done => trivial
  | send req next ih => exact ⟨hPQ req h.1,fun a => ih a (h.2 a)⟩

end Client

/-! ### Local services -/

section Local

variable {κ ρ α : Type} {β : κ → Type}

/-- A service whose requests each touch one member of a family at most: the
answer depends on this member alone, and no other changes. -/
structure Local (serve : ((k : κ) → β k) → ρ → α×((k : κ) → β k)) (target : ρ → Option κ) :
    Prop where
  touches : ∀ req, Touches (target req) (fun s => (serve s req).2)
  answers : ∀ s t req k, some k = target req → s k = t k → (serve s req).1 = (serve t req).1
  plain : ∀ s t req, target req = none → (serve s req).1 = (serve t req).1

variable {serve : ((k : κ) → β k) → ρ → α×((k : κ) → β k)} {target : ρ → Option κ}
  {s t : (k : κ) → β k} {k : κ} {c : Client ρ α}

/-- The request touches a home, if there is one, or nothing. -/
def StaysAt (target : ρ → Option κ) (home : Option κ) (req : ρ) : Prop :=
  target req = none ∨ target req = home

/-- The request does not touch this member. -/
def Spares (target : ρ → Option κ) (k : κ) (req : ρ) : Prop := target req ≠ some k

theorem StaysAt.spares {home : Option κ} {req : ρ} (h : StaysAt target home req)
    (hk : home ≠ some k) : Spares target k req := by
  rcases h with hnone | heq
  · simp [Spares,hnone]
  · rwa [Spares,heq]

theorem serve_spares (h : Local serve target) {req : ρ} (hreq : Spares target k req) :
    (serve s req).2 k = s k :=
  (h.touches req).others s k (Ne.symm hreq)

/-- A client leaves what it spares as it is. -/
theorem alone_spares (h : Local serve target) (hc : c.Sends (Spares target k)) :
    c.alone serve s k = s k := by
  induction c generalizing s with
  | done => rfl
  | send req next ih => exact (ih _ (hc.2 _)).trans (serve_spares h hc.1)

/-- A client of one member alone does not see the others. -/
theorem alone_own (h : Local serve target) (hc : c.Sends (StaysAt target (some k)))
    (hst : s k = t k) : c.alone serve s k = c.alone serve t k := by
  induction c generalizing s t with
  | done => exact hst
  | send req next ih =>
    obtain ⟨hreq,hnext⟩ := hc
    have hanswer : (serve s req).1 = (serve t req).1 :=
      hreq.elim (h.plain s t req) (fun hk => h.answers s t req k hk.symm hst)
    have hstate : (serve s req).2 k = (serve t req).2 k := by
      rcases hreq with hnone | hk
      · have hne : some k ≠ target req := by simp [hnone]
        rw [(h.touches req).others s k hne,(h.touches req).others t k hne]
        exact hst
      · exact (h.touches req).own s t k hk.symm hst
    rw [Client.alone,Client.alone,← hanswer]
    exact ih _ (hnext _) hstate

/-- Left alone, a client that stays at a home touches this home. -/
theorem alone_touches (h : Local serve target) {home : Option κ}
    (hc : c.Sends (StaysAt target home)) : Touches home (c.alone serve) := by
  refine ⟨fun s k hne => alone_spares h (hc.mono fun _ hreq => hreq.spares (Ne.symm hne)),?_⟩
  rintro s t k rfl hst
  exact alone_own h hc hst

end Local

/-! ### Interleaving -/

section Interleaving

variable {ι κ ρ α : Type} {β : κ → Type} [DecidableEq ι]

/-- The clients as far as they have come, and what they share. -/
structure System (ι ρ α σ : Type) where
  /-- What each client still does. -/
  clients : ι → Client ρ α
  /-- The shared state. -/
  state : σ

/-- One client has its turn. -/
def turn {σ : Type} (serve : σ → ρ → α×σ) (sys : System ι ρ α σ) (i : ι) : System ι ρ α σ :=
  match sys.clients i with
  | .done => sys
  | .send req next =>
    ⟨Function.update sys.clients i (next (serve sys.state req).1),(serve sys.state req).2⟩

section Turns

variable {σ : Type} {serve : σ → ρ → α×σ} {sys : System ι ρ α σ} {cost : ρ → ℕ}

/-- What a turn does. -/
theorem turn_cases (i : ι) : sys.clients i = .done ∧ turn serve sys i = sys ∨
    ∃ req next, sys.clients i = .send req next ∧ turn serve sys i =
      ⟨Function.update sys.clients i (next (serve sys.state req).1),(serve sys.state req).2⟩ := by
  cases hi : sys.clients i with
  | done => exact .inl ⟨rfl,by rw [turn,hi]⟩
  | send req next => exact .inr ⟨req,next,rfl,by rw [turn,hi]⟩

/-- A turn leaves every client what it was, or the rest of what it was. -/
theorem turn_sends {P : ρ → Prop} {j : ι} (h : (sys.clients j).Sends P) (i : ι) :
    ((turn serve sys i).clients j).Sends P := by
  obtain ⟨-,hturn⟩ | ⟨req,next,hi,hturn⟩ := @turn_cases _ _ _ _ _ serve sys i
  · rwa [hturn]
  · rw [hturn]
    dsimp only
    by_cases hji : j = i
    · subst hji
      rw [hi] at h
      rw [Function.update_self]
      exact h.2 _
    · rwa [Function.update_of_ne hji]

/-- A turn costs the client that has it what its request costs. -/
theorem turn_within {budget : ι → ℕ} (h : ∀ j, (sys.clients j).Within cost (budget j))
    {i : ι} {req : ρ} {next : α → Client ρ α} (hi : sys.clients i = .send req next) (j : ι) :
    (Function.update sys.clients i (next (serve sys.state req).1) j).Within cost
      (Function.update budget i (budget i-cost req) j) := by
  by_cases hji : j = i
  · subst hji
    have hown := h j
    rw [hi] at hown
    rw [Function.update_self,Function.update_self]
    exact hown.2 _
  · rw [Function.update_of_ne hji,Function.update_of_ne hji]
    exact h j

/-- A client whose requests are numbered is done when it had turns enough. -/
theorem runFrom_turn_done {j : ι} (schedule : List ι)
    (h : (sys.clients j).Within (fun _ => 1) (schedule.count j)) :
    (runFrom (turn serve) sys schedule).clients j = .done := by
  induction schedule generalizing sys with
  | nil =>
    cases hj : sys.clients j with
    | done => exact hj
    | send req next =>
      rw [hj] at h
      exact absurd h.1 (by simp)
  | cons i schedule ih =>
    rw [runFrom_cons]
    refine ih ?_
    obtain ⟨hdone,hturn⟩ | ⟨req,next,hi,hturn⟩ := @turn_cases _ _ _ _ _ serve sys i
    · rw [hturn]
      by_cases hij : i = j
      · rw [← hij,hdone]
        trivial
      · rwa [List.count_cons_of_ne hij] at h
    · rw [hturn]
      dsimp only
      by_cases hij : i = j
      · subst hij
        rw [List.count_cons_self,hi] at h
        rw [Function.update_self]
        exact h.2 _
      · rw [List.count_cons_of_ne hij] at h
        rwa [Function.update_of_ne (Ne.symm hij)]

/-- What no request raises by more than it costs is not raised by more than the
clients may spend together. -/
theorem runFrom_turn_bounded [Fintype ι] {measure : σ → ℕ}
    (hcost : ∀ s req, measure (serve s req).2 ≤ measure s+cost req) {budget : ι → ℕ}
    (h : ∀ j, (sys.clients j).Within cost (budget j)) (schedule : List ι) :
    measure (runFrom (turn serve) sys schedule).state ≤ measure sys.state+∑ i, budget i := by
  induction schedule generalizing sys budget with
  | nil => exact Nat.le_add_right _ _
  | cons i schedule ih =>
    rw [runFrom_cons]
    obtain ⟨-,hturn⟩ | ⟨req,next,hi,hturn⟩ := @turn_cases _ _ _ _ _ serve sys i
    · rw [hturn]
      exact ih h
    · have hspent : cost req ≤ budget i := by
        have hown := h i
        rw [hi] at hown
        exact hown.1
      have hupdated := Finset.sum_update_of_mem (Finset.mem_univ i) budget (budget i-cost req)
      have hbudget := Finset.sum_update_of_mem (Finset.mem_univ i) budget (budget i)
      rw [Function.update_eq_self] at hbudget
      have hstep := hcost sys.state req
      rw [hturn]
      refine (ih (turn_within h hi)).trans ?_
      dsimp only
      omega

/-- All requests still to be sent satisfy a property, and the state another one. -/
def Keeping (P : ρ → Prop) (Q : σ → Prop) (sys : System ι ρ α σ) : Prop :=
  (∀ j, (sys.clients j).Sends P) ∧ Q sys.state

/-- What every request that is sent keeps, a turn keeps. -/
theorem turn_keeping {P : ρ → Prop} {Q : σ → Prop}
    (hserve : ∀ s req, P req → Q s → Q (serve s req).2) (h : Keeping P Q sys) (i : ι) :
    Keeping P Q (turn serve sys i) := by
  refine ⟨fun j => turn_sends (h.1 j) i,?_⟩
  obtain ⟨-,hturn⟩ | ⟨req,next,hi,hturn⟩ := @turn_cases _ _ _ _ _ serve sys i
  · rw [hturn]
    exact h.2
  · have hown := h.1 i
    rw [hi] at hown
    rw [hturn]
    exact hserve _ req hown.1 h.2

/-- And so do turns in every order. -/
theorem runFrom_turn_keeping {P : ρ → Prop} {Q : σ → Prop}
    (hserve : ∀ s req, P req → Q s → Q (serve s req).2) (h : Keeping P Q sys)
    (schedule : List ι) : Keeping P Q (runFrom (turn serve) sys schedule) :=
  runFrom_invariant (P := Keeping P Q) (fun _ i hsys => turn_keeping hserve hsys i) h schedule

/-- Two services that serve alike what is sent take all clients the same way. -/
theorem runFrom_turn_congr {serve' : σ → ρ → α×σ} {P : ρ → Prop} {Q : σ → Prop}
    (hserve : ∀ s req, P req → Q s → Q (serve s req).2)
    (hsame : ∀ s req, P req → Q s → serve' s req = serve s req) (h : Keeping P Q sys)
    (schedule : List ι) :
    runFrom (turn serve') sys schedule = runFrom (turn serve) sys schedule := by
  refine @runFrom_congr _ _ _ (Keeping P Q) (fun _ => True) _
    (fun _ i hsys => turn_keeping hserve hsys i) (fun sys i hsys _ => ?_) sys h schedule
    fun _ _ => trivial
  cases hi : sys.clients i with
  | done => rw [turn,turn,hi]
  | send req next =>
    have hown := hsys.1 i
    rw [hi] at hown
    rw [turn,turn,hi]
    dsimp only
    rw [hsame _ req hown.1 hsys.2]

end Turns

variable {serve : ((k : κ) → β k) → ρ → α×((k : κ) → β k)} {target : ρ → Option κ}
  {sys : System ι ρ α ((k : κ) → β k)}

/-- A turn of the only client that touches a member, or of one that spares it,
does not change what the first would make of it. -/
theorem turn_alone (h : Local serve target) {i : ι} {k : κ}
    (hown : (sys.clients i).Sends (StaysAt target (some k)))
    (hothers : ∀ j ≠ i, (sys.clients j).Sends (Spares target k)) (j : ι) :
    ((turn serve sys j).clients i).alone serve (turn serve sys j).state k =
      (sys.clients i).alone serve sys.state k := by
  obtain ⟨-,hturn⟩ | ⟨req,next,hj,hturn⟩ := @turn_cases _ _ _ _ _ serve sys j
  · rw [hturn]
  · rw [hturn]
    dsimp only
    by_cases hji : j = i
    · subst hji
      rw [Function.update_self,hj]
      rfl
    · have hspares := hothers j hji
      rw [hj] at hspares
      rw [Function.update_of_ne (Ne.symm hji)]
      exact alone_own h hown ((h.touches req).others _ k (Ne.symm hspares.1))

/-- In every order of turns. -/
theorem runFrom_turn_alone (h : Local serve target) {i : ι} {k : κ}
    (hown : (sys.clients i).Sends (StaysAt target (some k)))
    (hothers : ∀ j ≠ i, (sys.clients j).Sends (Spares target k)) (schedule : List ι) :
    ((runFrom (turn serve) sys schedule).clients i).alone serve
        (runFrom (turn serve) sys schedule).state k =
      (sys.clients i).alone serve sys.state k := by
  induction schedule generalizing sys with
  | nil => rfl
  | cons j schedule ih =>
    rw [runFrom_cons,ih (turn_sends hown j) fun l hl => turn_sends (hothers l hl) j]
    exact turn_alone h hown hothers j

/-- What all clients spare stays as it is. -/
theorem runFrom_turn_spares (h : Local serve target) {k : κ}
    (hspare : ∀ i, (sys.clients i).Sends (Spares target k)) (schedule : List ι) :
    (runFrom (turn serve) sys schedule).state k = sys.state k := by
  have hserve : ∀ s req, Spares target k req → s k = sys.state k →
      (serve s req).2 k = sys.state k := fun _ _ hreq hs => (serve_spares h hreq).trans hs
  exact (runFrom_turn_keeping (Q := fun s => s k = sys.state k) hserve ⟨hspare,rfl⟩ schedule).2

/-- The one of some different indices for which something holds. -/
theorem filter_eq_singleton {p : ι → Bool} {order : List ι} {i : ι} (horder : order.Nodup)
    (hi : i ∈ order) (hp : ∀ j, p j = true ↔ j = i) : order.filter p = [i] := by
  have hsame : order.filter p = order.filter (· == i) := by
    refine List.filter_congr fun j _ => ?_
    rw [Bool.eq_iff_iff,hp,beq_iff_eq]
  rw [hsame,List.filter_beq,List.count_eq_one_of_mem horder hi,List.replicate_one]

/-- Clients with different homes that all come to their end do together what
they do one after the other, in any order. -/
theorem runFrom_turn_serial [DecidableEq κ] (h : Local serve target) {home : ι → Option κ}
    (hhome : ∀ i, (sys.clients i).Sends (StaysAt target (home i)))
    (hdistinct : ∀ i j k, home i = some k → home j = some k → i = j) {order : List ι}
    (horder : order.Nodup) (hall : ∀ i, i ∈ order) {schedule : List ι}
    (hdone : ∀ i, (runFrom (turn serve) sys schedule).clients i = .done) :
    (runFrom (turn serve) sys schedule).state =
      runFrom (fun s i => (sys.clients i).alone serve s) sys.state order := by
  funext k
  rw [runFrom_touching (fun i => alone_touches h (hhome i)) rfl order]
  by_cases hk : ∃ i, home i = some k
  · obtain ⟨i,hi⟩ := hk
    have hown := hhome i
    rw [hi] at hown
    have hothers : ∀ j ≠ i, (sys.clients j).Sends (Spares target k) := fun j hj =>
      (hhome j).mono fun _ hreq => hreq.spares fun hjk => hj (hdistinct j i k hjk hi)
    have halone := runFrom_turn_alone h hown hothers schedule
    rw [hdone] at halone
    have hfilter : order.filter (some k = home ·) = [i] :=
      filter_eq_singleton horder (hall i) fun j => by
        rw [decide_eq_true_iff]
        exact ⟨fun hj => hdistinct j i k hj.symm hi,fun hj => by rw [hj,hi]⟩
    rw [hfilter]
    exact halone
  · have hspare : ∀ i, (sys.clients i).Sends (Spares target k) := fun i =>
      (hhome i).mono fun _ hreq => hreq.spares fun hi => hk ⟨i,hi⟩
    have hfilter : order.filter (some k = home ·) = [] :=
      List.filter_eq_nil_iff.mpr fun i _ => by
        rw [decide_eq_true_iff]
        exact fun hi => hk ⟨i,hi.symm⟩
    rw [hfilter]
    exact runFrom_turn_spares h hspare schedule

end Interleaving

end Senca.InterleavedClients
