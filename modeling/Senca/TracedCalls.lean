import Mathlib.Data.List.Basic
import Mathlib.Tactic.Common

/-!
# Computations that call the outside and may fail

A traced computation is the list of calls it makes and its result. Calls add
up along a sequence until the first failure; a handler or a final block makes
its own calls after those of the block it guards. A property of all calls
follows the structure of a program. Nothing here refers to a particular
program.
-/

namespace Senca.TracedCalls

variable {κ ε α β : Type}

/-- The calls of a computation in order, and what it returns or throws. -/
structure Traced (κ ε α : Type) where
  /-- The calls made. -/
  calls : List κ
  /-- The value or the error. -/
  result : Except ε α

/-- One call, with the answer of the outside. -/
def call (c : κ) (answer : Except ε α) : Traced κ ε α := ⟨[c],answer⟩

/-- One computation after the other, unless the first one fails. -/
def andThen (t : Traced κ ε α) (f : α → Traced κ ε β) : Traced κ ε β :=
  match t.result with
  | .ok a => ⟨t.calls++(f a).calls,(f a).result⟩
  | .error e => ⟨t.calls,.error e⟩

instance : Monad (Traced κ ε) where
  pure a := ⟨[],.ok a⟩
  bind := andThen

/-- A block under a handler for every error. -/
def orElse (t : Traced κ ε α) (handler : ε → Traced κ ε α) : Traced κ ε α :=
  match t.result with
  | .ok _ => t
  | .error e => ⟨t.calls++(handler e).calls,(handler e).result⟩

/-- A block and what is done after it in any case; the final block fails
silently. -/
def andFinally (t : Traced κ ε α) (last : Traced κ ε Unit) : Traced κ ε α :=
  ⟨t.calls++last.calls,t.result⟩

/-- The result of a block as a value. -/
def attempt (t : Traced κ ε α) : Traced κ ε (Except ε α) := ⟨t.calls,.ok t.result⟩

/-! ### Which calls are made -/

@[simp] theorem calls_pure (a : α) : (pure a : Traced κ ε α).calls = [] := rfl

@[simp] theorem result_pure (a : α) : (pure a : Traced κ ε α).result = .ok a := rfl

@[simp] theorem result_call (c : κ) (answer : Except ε α) : (call c answer).result = answer := rfl

theorem bind_of_ok {t : Traced κ ε α} {a : α} (h : t.result = .ok a) (f : α → Traced κ ε β) :
    t >>= f = ⟨t.calls++(f a).calls,(f a).result⟩ := by
  change andThen t f = _
  rw [andThen,h]

theorem bind_of_error {t : Traced κ ε α} {e : ε} (h : t.result = .error e)
    (f : α → Traced κ ε β) : t >>= f = ⟨t.calls,.error e⟩ := by
  change andThen t f = _
  rw [andThen,h]

/-- The value of a sequence is that of its second part. -/
theorem result_bind (t : Traced κ ε α) (f : α → Traced κ ε β) :
    (t >>= f).result = t.result.bind (fun a => (f a).result) := by
  cases h : t.result with
  | ok a => rw [bind_of_ok h]; rfl
  | error e => rw [bind_of_error h]; rfl

theorem result_orElse (t : Traced κ ε α) (handler : ε → Traced κ ε α) :
    (orElse t handler).result =
      match t.result with
      | .ok a => .ok a
      | .error e => (handler e).result := by
  rw [orElse]
  cases h : t.result with
  | ok a => exact h
  | error e => rfl

/-- Every call of the computation has a property. -/
def Only (P : κ → Prop) (t : Traced κ ε α) : Prop := ∀ c ∈ t.calls, P c

section Only

variable {P : κ → Prop} {t : Traced κ ε α}

theorem only_pure (a : α) : Only P (pure a : Traced κ ε α) := fun _ h => nomatch h

theorem only_call {c : κ} (h : P c) (answer : Except ε α) : Only P (call c answer) :=
  fun _ hmem => List.mem_singleton.mp hmem ▸ h

theorem Only.bind {f : α → Traced κ ε β} (ht : Only P t) (hf : ∀ a, Only P (f a)) :
    Only P (t >>= f) := by
  intro c hc
  cases h : t.result with
  | ok a =>
    rw [bind_of_ok h] at hc
    rcases List.mem_append.mp hc with hc | hc
    · exact ht c hc
    · exact hf a c hc
  | error e =>
    rw [bind_of_error h] at hc
    exact ht c hc

theorem Only.orElse {handler : ε → Traced κ ε α} (ht : Only P t)
    (hh : ∀ e, Only P (handler e)) : Only P (orElse t handler) := by
  intro c hc
  rw [TracedCalls.orElse] at hc
  cases h : t.result with
  | ok a =>
    rw [h] at hc
    exact ht c hc
  | error e =>
    rw [h] at hc
    rcases List.mem_append.mp hc with hc | hc
    · exact ht c hc
    · exact hh e c hc

end Only

end Senca.TracedCalls
