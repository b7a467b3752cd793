import Mathlib.Data.List.Infix
import Mathlib.Logic.Function.Basic

/-!
# Logs that only grow, and what is read from them

A state machine is a step function; a run folds it over a list of events. A
family of logs grows when every log is continued, never rewritten. A read
between two states gives the log as it was at a moment of the run, a beginning
of the later log that continues the earlier one, and it stays one as the logs
grow: what a reader holds is never invented, never older than its start, and of
two reads the earlier one is a beginning of the later one. Nothing here refers
to a particular program.
-/

namespace Senca.GrowingLogs

/-! ### Runs -/

section Runs

variable {σ ε : Type*} (step : σ → ε → σ)

/-- The state after a list of events. -/
def runFrom (s : σ) (events : List ε) : σ := events.foldl step s

@[simp] theorem runFrom_cons (s : σ) (e : ε) (events : List ε) :
    runFrom step s (e::events) = runFrom step (step s e) events := rfl

theorem runFrom_append (s : σ) (events more : List ε) :
    runFrom step s (events++more) = runFrom step (runFrom step s events) more :=
  List.foldl_append

variable {step}

/-- What every step keeps, a run keeps. -/
theorem runFrom_invariant {P : σ → Prop} (hstep : ∀ s e, P s → P (step s e)) {s : σ} (hs : P s)
    (events : List ε) : P (runFrom step s events) := by
  induction events generalizing s with
  | nil => exact hs
  | cons e events ih => exact ih (hstep s e hs)

variable (step) in
/-- The states that a run passes are those its beginnings lead to. -/
def Passes (s : σ) (events : List ε) (u : σ) : Prop :=
  ∃ past, past <+: events ∧ runFrom step s past = u

theorem passes_start (s : σ) (events : List ε) : Passes step s events s :=
  ⟨[],List.nil_prefix,rfl⟩

/-- What the start has, and every step keeps that leads to a state the run
passes, the end has. -/
theorem runFrom_passing {P : σ → Prop} {s : σ} {events : List ε}
    (hstep : ∀ u e, Passes step s events (step u e) → P u → P (step u e)) (hs : P s) :
    P (runFrom step s events) := by
  induction events generalizing s with
  | nil => exact hs
  | cons e events ih =>
    have hlater : ∀ u, Passes step (step s e) events u → Passes step s (e::events) u := by
      rintro u ⟨past,hpast,hu⟩
      exact ⟨e::past,List.cons_prefix_cons.mpr ⟨rfl,hpast⟩,hu⟩
    exact ih (fun u f hu => hstep u f (hlater _ hu)) (hstep s e (hlater _ (passes_start _ _)) hs)

/-- Two systems whose steps agree wherever a property that the steps keep holds
make the same of the events that are allowed. -/
theorem runFrom_congr {P : σ → Prop} {allowed : ε → Prop} {step' : σ → ε → σ}
    (hP : ∀ s e, P s → P (step s e)) (hstep : ∀ s e, P s → allowed e → step' s e = step s e)
    {s : σ} (hs : P s) {events : List ε} (h : ∀ e ∈ events, allowed e) :
    runFrom step' s events = runFrom step s events := by
  induction events generalizing s with
  | nil => rfl
  | cons e events ih =>
    rw [runFrom_cons,runFrom_cons,hstep s e hs (h e List.mem_cons_self)]
    exact ih (hP s e hs) fun e he => h e (List.mem_cons_of_mem _ he)

end Runs

/-! ### Logs -/

section Logs

variable {κ : Type*} {α : κ → Type*} {s t u : (k : κ) → List (α k)} {k : κ}
  {held later : List (α k)}

/-- Every log of the first family is continued in the second. -/
def Grows (s t : (k : κ) → List (α k)) : Prop := ∀ k, s k <+: t k

theorem Grows.refl (s : (k : κ) → List (α k)) : Grows s s := fun _ => List.prefix_refl _

theorem Grows.trans (h : Grows s t) (h' : Grows t u) : Grows s u := fun k => (h k).trans (h' k)

/-! ### Reads -/

variable {moments moments' : ((k : κ) → List (α k)) → Prop}

/-- What a read of a log between two states can have given. -/
structure ReadBetween (moments : ((k : κ) → List (α k)) → Prop) (s t : (k : κ) → List (α k))
    (k : κ) (held : List (α k)) : Prop where
  /-- It has all that the first state has. -/
  after : s k <+: held
  /-- The second state has all that it has. -/
  before : held <+: t k
  /-- It is the log as it was at a moment. -/
  moment : ∃ u, moments u ∧ held = u k

/-- A read in a state. -/
theorem readBetween_now (h : Grows s t) (ht : moments t) (k : κ) :
    ReadBetween moments s t k (t k) :=
  ⟨h k,List.prefix_refl _,t,ht,rfl⟩

/-- A read stays what it was. -/
theorem ReadBetween.mono (h : ReadBetween moments s t k held) (hg : Grows t u) :
    ReadBetween moments s u k held :=
  ⟨h.after,h.before.trans (hg k),h.moment⟩

/-- It was also made after any earlier state. -/
theorem ReadBetween.weaken (h : ReadBetween moments t u k held) (hg : Grows s t) :
    ReadBetween moments s u k held :=
  ⟨(hg k).trans h.after,h.before,h.moment⟩

/-- A read that began after another one ended continues it. -/
theorem ReadBetween.continues (h : ReadBetween moments s t k held)
    (h' : ReadBetween moments' t u k later) : held <+: later :=
  h.before.trans h'.after

end Logs

/-! ### Steps that touch one log -/

section Isolation

variable {κ ε : Type*} {α : κ → Type*} {s t : (k : κ) → α k} {k : κ}

/-- A change of a family that touches one member at most, and reads no other. -/
structure Touches (target : Option κ) (change : ((k : κ) → α k) → (k : κ) → α k) : Prop where
  others : ∀ s k, some k ≠ target → change s k = s k
  own : ∀ s t k, some k = target → s k = t k → change s k = change t k

/-- In a run of such steps a member is what the steps that touch it alone make
of it, whatever else there is. -/
theorem runFrom_touching [DecidableEq κ] {step : ((k : κ) → α k) → ε → (k : κ) → α k}
    {target : ε → Option κ} (h : ∀ e, Touches (target e) (fun s => step s e)) (hst : s k = t k)
    (events : List ε) :
    runFrom step s events k = runFrom step t (events.filter (some k = target ·)) k := by
  induction events generalizing s t with
  | nil => exact hst
  | cons e events ih =>
    by_cases he : some k = target e
    · rw [List.filter_cons,if_pos (decide_eq_true he),runFrom_cons,runFrom_cons]
      exact ih ((h e).own s t k he hst)
    · rw [List.filter_cons,if_neg (by simpa using he),runFrom_cons]
      exact ih (((h e).others s k he).trans hst)

end Isolation

end Senca.GrowingLogs
