import Mathlib.Tactic.Common

/-!
# A view derived from loaded data and controls

A component keeps loaded data, compared by identity, and controls, compared
by value. What it shows is derived from both, either in each rendering or by
an effect that runs after a commit in which one of them changed. A load may
write the shown value directly; the effect of that commit is then still to
run. Before the next rendering the pending effect of the last commit runs,
and a derivation that throws takes the component down for good.
-/

namespace Senca.DerivedView

variable {ρ κ ν ε : Type}

/-- When the shown value is derived. -/
inductive Timing where
  /-- In each rendering. -/
  | render
  /-- By an effect after a commit that changed a dependency. -/
  | effect

/-- How a component derives what it shows. -/
structure Component (ρ κ ν ε : Type) where
  /-- When the value is derived. -/
  timing : Timing
  /-- The derivation, which may throw. -/
  derive : ρ → κ → Except ε ν

/-- A mounted component after a commit. -/
structure View (ρ κ ν : Type) where
  /-- The loaded data. -/
  loaded : ρ
  /-- The controls. -/
  controls : κ
  /-- The value shown. -/
  value : ν
  /-- An effect of the last commit has not run yet. -/
  pending : Bool
  /-- A derivation threw and the component is gone. -/
  crashed : Bool

/-- What can happen to a mounted component. -/
inductive Event (ρ κ ν : Type) where
  /-- Fresh data is set, and with it the shown value where the source does so. -/
  | load (data : ρ) (direct : Option ν)
  /-- The controls are set. -/
  | control (change : κ → κ)
  /-- The pending effect runs. -/
  | runEffects

/-- No effect is left to run, and none threw. -/
def View.Settled (s : View ρ κ ν) : Prop := s.crashed = false ∧ s.pending = false

/-- Run the pending effect, if there is one. -/
def runEffects (c : Component ρ κ ν ε) (s : View ρ κ ν) : View ρ κ ν :=
  if s.pending && !s.crashed then
    match c.derive s.loaded s.controls with
    | .ok value => { s with value := value, pending := false }
    | .error _ => { s with pending := false, crashed := true }
  else s

/-- Render and commit changed dependencies. -/
def commit (c : Component ρ κ ν ε) (s : View ρ κ ν) : View ρ κ ν :=
  match c.timing with
  | .render => runEffects c { s with pending := true }
  | .effect => { s with pending := true }

/-- The first commit of a component. -/
def mount (c : Component ρ κ ν ε) (data : ρ) (controls : κ) (value : ν) : View ρ κ ν :=
  commit c ⟨data,controls,value,false,false⟩

/-! ### Effects and commits -/

/-- Running effects leaves the dependencies alone. -/
theorem runEffects_inputs (c : Component ρ κ ν ε) (s : View ρ κ ν) :
    (runEffects c s).loaded = s.loaded ∧ (runEffects c s).controls = s.controls := by
  unfold runEffects
  split
  · split <;> exact ⟨rfl,rfl⟩
  · exact ⟨rfl,rfl⟩

/-- A commit leaves the dependencies alone. -/
theorem commit_inputs (c : Component ρ κ ν ε) (s : View ρ κ ν) :
    (commit c s).loaded = s.loaded ∧ (commit c s).controls = s.controls := by
  unfold commit
  split
  · exact runEffects_inputs c _
  · exact ⟨rfl,rfl⟩

/-- A pending effect that does not throw is no longer pending. -/
theorem runEffects_pending {c : Component ρ κ ν ε} {s : View ρ κ ν}
    (h : (runEffects c s).crashed = false) : (runEffects c s).pending = false := by
  unfold runEffects at h ⊢
  by_cases hp : (s.pending && !s.crashed) = true
  · rw [if_pos hp] at h ⊢
    cases hd : c.derive s.loaded s.controls with
    | ok value => rfl
    | error e => simp [hd] at h
  · rw [if_neg hp] at h ⊢
    simpa [h] using hp

/-- A derivation that returns does not take the component down. -/
theorem runEffects_alive {c : Component ρ κ ν ε} {s : View ρ κ ν} (h : s.crashed = false)
    (hd : ∃ value, c.derive s.loaded s.controls = .ok value) :
    (runEffects c s).crashed = false := by
  obtain ⟨value,hd⟩ := hd
  unfold runEffects
  split
  · rw [hd]
    exact h
  · exact h

theorem commit_alive {c : Component ρ κ ν ε} {s : View ρ κ ν} (h : s.crashed = false)
    (hd : ∃ value, c.derive s.loaded s.controls = .ok value) :
    (commit c s).crashed = false := by
  unfold commit
  split
  · exact runEffects_alive h hd
  · exact h

/-- In a settled state the shown value is the derived one. -/
def Derived (c : Component ρ κ ν ε) (s : View ρ κ ν) : Prop :=
  s.Settled → c.derive s.loaded s.controls = .ok s.value

theorem derived_runEffects {c : Component ρ κ ν ε} {s : View ρ κ ν} (h : Derived c s) :
    Derived c (runEffects c s) := by
  unfold runEffects
  split
  · cases hd : c.derive s.loaded s.controls with
    | ok value => exact fun _ => hd
    | error e => exact fun hs => absurd hs.1 (by simp)
  · exact h

/-- A commit owes the derivation, whatever was shown before. -/
theorem derived_commit (c : Component ρ κ ν ε) (s : View ρ κ ν) : Derived c (commit c s) := by
  have howed : Derived c { s with pending := true } := fun hs => absurd hs.2 (by simp)
  unfold commit
  split
  · exact derived_runEffects howed
  · exact howed

theorem runEffects_shows {c : Component ρ κ ν ε} {R : ρ → ν → Prop}
    (hderive : ∀ data k value, c.derive data k = .ok value → R data value)
    {s : View ρ κ ν} (h : R s.loaded s.value) :
    R (runEffects c s).loaded (runEffects c s).value := by
  unfold runEffects
  split
  · cases hd : c.derive s.loaded s.controls with
    | ok value => exact hderive _ _ _ hd
    | error e => exact h
  · exact h

theorem commit_shows {c : Component ρ κ ν ε} {R : ρ → ν → Prop}
    (hderive : ∀ data k value, c.derive data k = .ok value → R data value)
    {s : View ρ κ ν} (h : R s.loaded s.value) :
    R (commit c s).loaded (commit c s).value := by
  unfold commit
  split
  · exact runEffects_shows hderive h
  · exact h

/-! ### Steps -/

variable [DecidableEq κ]

/-- One event. Setting equal controls renders nothing; fresh data always differs. -/
def step (c : Component ρ κ ν ε) (s : View ρ κ ν) (e : Event ρ κ ν) : View ρ κ ν :=
  let s := runEffects c s
  if s.crashed then s
  else match e with
    | .runEffects => s
    | .load data direct => commit c { s with loaded := data, value := direct.getD s.value }
    | .control change =>
      if change s.controls = s.controls then s
      else commit c { s with controls := change s.controls }

/-- A run of events. -/
def run (c : Component ρ κ ν ε) (s : View ρ κ ν) (es : List (Event ρ κ ν)) : View ρ κ ν :=
  es.foldl (step c) s

theorem run_singleton (c : Component ρ κ ν ε) (s : View ρ κ ν) (e : Event ρ κ ν) :
    run c s [e] = step c s e := rfl

theorem run_append (c : Component ρ κ ν ε) (s : View ρ κ ν) (es fs : List (Event ρ κ ν)) :
    run c s (es++fs) = run c (run c s es) fs := List.foldl_append

/-- An invariant of the states holds after a run when every step keeps it. -/
theorem run_induction {c : Component ρ κ ν ε} {P : View ρ κ ν → Prop}
    {es : List (Event ρ κ ν)} (hstep : ∀ s, ∀ e ∈ es, P s → P (step c s e))
    {s : View ρ κ ν} (hs : P s) : P (run c s es) := by
  induction es generalizing s with
  | nil => exact hs
  | cons e es ih =>
    exact ih (fun s f hf => hstep s f (List.mem_cons_of_mem e hf))
      (hstep s e List.mem_cons_self hs)

/-- The three things a step can be, on a state whose effects have run: nothing,
a commit of fresh data or a commit of changed controls. -/
theorem step_cases (c : Component ρ κ ν ε) (s : View ρ κ ν) (e : Event ρ κ ν) :
    step c s e = runEffects c s ∨
    (∃ data direct, e = .load data direct ∧ step c s e =
      commit c { runEffects c s with
        loaded := data, value := direct.getD (runEffects c s).value }) ∨
    ∃ change, e = .control change ∧ step c s e =
      commit c { runEffects c s with controls := change s.controls } := by
  unfold step
  dsimp only
  split
  · exact .inl rfl
  · cases e with
    | runEffects => exact .inl rfl
    | load data direct => exact .inr (.inl ⟨data,direct,rfl,rfl⟩)
    | control change =>
      dsimp only
      split
      · exact .inl rfl
      · rw [(runEffects_inputs c s).2]
        exact .inr (.inr ⟨change,rfl,rfl⟩)

/-! ### Whole runs -/

theorem derived_step {c : Component ρ κ ν ε} {s : View ρ κ ν} (e : Event ρ κ ν)
    (h : Derived c s) : Derived c (step c s e) := by
  rcases step_cases c s e with hs | ⟨data,direct,-,hs⟩ | ⟨change,-,hs⟩ <;> rw [hs]
  · exact derived_runEffects h
  · exact derived_commit c _
  · exact derived_commit c _

/-- Along every run from the first commit. -/
theorem derived_run (c : Component ρ κ ν ε) (data : ρ) (controls : κ) (value : ν)
    (es : List (Event ρ κ ν)) : Derived c (run c (mount c data controls value) es) :=
  run_induction (fun _ e _ => derived_step e) (derived_commit c _)

/-- After a change of the controls a component that is still up holds them. -/
theorem step_control {c : Component ρ κ ν ε} {s : View ρ κ ν} {change : κ → κ}
    (h : (step c s (.control change)).crashed = false) :
    (step c s (.control change)).loaded = s.loaded ∧
      (step c s (.control change)).controls = change s.controls := by
  obtain ⟨hri,hrc⟩ := runEffects_inputs c s
  unfold step at h ⊢
  dsimp only at h ⊢
  cases hcrash : (runEffects c s).crashed with
  | true =>
    rw [if_pos hcrash] at h
    rw [hcrash] at h
    cases h
  | false =>
    rw [if_neg Bool.false_ne_true]
    split
    · rename_i heq
      rw [hrc] at heq
      exact ⟨hri,by rw [hrc,heq]⟩
    · rw [(commit_inputs c _).1,(commit_inputs c _).2]
      exact ⟨hri,by rw [hrc]⟩

/-- Once effects have run a component that is still up is settled. -/
theorem step_runEffects {c : Component ρ κ ν ε} {s : View ρ κ ν}
    (h : (step c s .runEffects).crashed = false) :
    (step c s .runEffects).Settled ∧ (step c s .runEffects).loaded = s.loaded ∧
      (step c s .runEffects).controls = s.controls := by
  have heq : step c s .runEffects = runEffects c s := by
    unfold step
    dsimp only
    split <;> rfl
  rw [heq] at h ⊢
  exact ⟨⟨h,runEffects_pending h⟩,(runEffects_inputs c s).1,(runEffects_inputs c s).2⟩

/-- A component that is gone stays gone. -/
theorem step_alive {c : Component ρ κ ν ε} {s : View ρ κ ν} {e : Event ρ κ ν}
    (h : (step c s e).crashed = false) : s.crashed = false := by
  cases hs : s.crashed with
  | false => rfl
  | true =>
    have hrun : runEffects c s = s := by simp [runEffects,hs]
    unfold step at h
    dsimp only at h
    rw [hrun,if_pos hs,hs] at h
    cases h

theorem run_alive_start {c : Component ρ κ ν ε} {s : View ρ κ ν} {es : List (Event ρ κ ν)}
    (h : (run c s es).crashed = false) : s.crashed = false := by
  induction es generalizing s with
  | nil => exact h
  | cons e es ih => exact step_alive (ih h)

/-- Changes of the controls followed by the effects settle a component that is
still up, on the same data. -/
theorem run_changes {c : Component ρ κ ν ε} {s : View ρ κ ν} (fs : List (κ → κ))
    (h : (run c s (fs.map .control++[.runEffects])).crashed = false) :
    (run c s (fs.map .control++[.runEffects])).Settled ∧
      (run c s (fs.map .control++[.runEffects])).loaded = s.loaded ∧
      (run c s (fs.map .control++[.runEffects])).controls =
        fs.foldl (fun k f => f k) s.controls := by
  induction fs generalizing s with
  | nil => exact step_runEffects h
  | cons f fs ih =>
    obtain ⟨hsettled,hloaded,hcontrols⟩ := ih h
    obtain ⟨hl,hk⟩ := step_control (run_alive_start (s := step c s (.control f)) h)
    exact ⟨hsettled,hloaded.trans hl,hcontrols.trans (by rw [hk]; rfl)⟩

/-- Fresh data is held by a component that is still up, under the same controls. -/
theorem step_load {c : Component ρ κ ν ε} {s : View ρ κ ν} {data : ρ} {direct : Option ν}
    (h : (step c s (.load data direct)).crashed = false) :
    (step c s (.load data direct)).loaded = data ∧
      (step c s (.load data direct)).controls = s.controls := by
  unfold step at h ⊢
  dsimp only at h ⊢
  cases hcrash : (runEffects c s).crashed with
  | true =>
    rw [if_pos hcrash] at h
    rw [hcrash] at h
    cases h
  | false =>
    rw [if_neg Bool.false_ne_true]
    exact ⟨(commit_inputs c _).1,(commit_inputs c _).2.trans (runEffects_inputs c s).2⟩

/-- A relation between data and derived values holds after a step if it held
before, and on fresh data also of what is shown until effects run. -/
theorem step_shows {c : Component ρ κ ν ε} {R : ρ → ν → Prop}
    (hderive : ∀ data k value, c.derive data k = .ok value → R data value)
    {s : View ρ κ ν} {e : Event ρ κ ν} (h : R s.loaded s.value)
    (hload : ∀ data direct, e = .load data direct → ∀ value, R s.loaded value →
      R data (direct.getD value)) :
    R (step c s e).loaded (step c s e).value := by
  have hrun := runEffects_shows hderive h
  rcases step_cases c s e with hs | ⟨data,direct,he,hs⟩ | ⟨change,-,hs⟩ <;> rw [hs]
  · exact hrun
  · rw [(runEffects_inputs c s).1] at hrun
    exact commit_shows hderive (hload data direct he _ hrun)
  · exact commit_shows hderive hrun

/-! ### What holds of the data and the controls -/

section Inputs

variable {c : Component ρ κ ν ε} {P : ρ → Prop} {Q : κ → Prop} {es : List (Event ρ κ ν)}

/-- Every load of the run brings data with a property. -/
def Loads (P : ρ → Prop) (es : List (Event ρ κ ν)) : Prop :=
  ∀ data direct, Event.load data direct ∈ es → P data

/-- Every change of the controls in the run keeps a property. -/
def Keeps (Q : κ → Prop) (es : List (Event ρ κ ν)) : Prop :=
  ∀ change, Event.control change ∈ es → ∀ k, Q k → Q (change k)

/-- The loaded data has the property all loaded data has. -/
theorem run_loaded (hl : Loads P es) {data : ρ} {controls : κ} {value : ν} (hd : P data) :
    P (run c (mount c data controls value) es).loaded := by
  refine run_induction (P := fun s => P s.loaded) ?_ (by rwa [mount,(commit_inputs c _).1])
  intro s e he hs
  rcases step_cases c s e with h | ⟨data,direct,rfl,h⟩ | ⟨change,rfl,h⟩ <;> rw [h]
  · rwa [(runEffects_inputs c s).1]
  · rw [(commit_inputs c _).1]
    exact hl data direct he
  · rw [(commit_inputs c _).1]
    exact (runEffects_inputs c s).1 ▸ hs

/-- The controls keep the property every change of them keeps. -/
theorem run_controls (hk : Keeps Q es) {data : ρ} {controls : κ} {value : ν} (hc : Q controls) :
    Q (run c (mount c data controls value) es).controls := by
  refine run_induction (P := fun s => Q s.controls) ?_ (by rwa [mount,(commit_inputs c _).2])
  intro s e he hs
  rcases step_cases c s e with h | ⟨data,direct,rfl,h⟩ | ⟨change,rfl,h⟩ <;> rw [h]
  · rwa [(runEffects_inputs c s).2]
  · rw [(commit_inputs c _).2]
    exact (runEffects_inputs c s).2 ▸ hs
  · rw [(commit_inputs c _).2]
    exact hk change he _ hs

/-- A component whose derivation returns on all it can hold never goes down. -/
theorem run_alive (hl : Loads P es) (hk : Keeps Q es) {data : ρ} {controls : κ} {value : ν}
    (hd : P data) (hc : Q controls)
    (hderive : ∀ data k, P data → Q k → ∃ value, c.derive data k = .ok value) :
    (run c (mount c data controls value) es).crashed = false := by
  refine (run_induction (P := fun s => s.crashed = false ∧ P s.loaded ∧ Q s.controls) ?_ ?_).1
  · rintro s e he ⟨ha,hp,hq⟩
    have hrun := runEffects_alive ha (hderive _ _ hp hq)
    obtain ⟨hri,hrc⟩ := runEffects_inputs c s
    rcases step_cases c s e with h | ⟨data,direct,rfl,h⟩ | ⟨change,rfl,h⟩ <;> rw [h]
    · rw [hri,hrc]
      exact ⟨hrun,hp,hq⟩
    · rw [(commit_inputs c _).1,(commit_inputs c _).2]
      have hp' := hl data direct he
      exact ⟨commit_alive hrun (hderive _ _ hp' (hrc.symm ▸ hq)),hp',hrc.symm ▸ hq⟩
    · rw [(commit_inputs c _).1,(commit_inputs c _).2]
      have hq' := hk change he _ hq
      exact ⟨commit_alive hrun (hderive _ _ (hri.symm ▸ hp) hq'),hri.symm ▸ hp,hq'⟩
  · rw [mount,(commit_inputs c _).1,(commit_inputs c _).2]
    exact ⟨commit_alive rfl (hderive _ _ hd hc),hd,hc⟩

end Inputs

end Senca.DerivedView
