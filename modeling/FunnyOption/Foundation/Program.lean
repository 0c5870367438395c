import Mathlib.Data.Nat.Notation
import Mathlib.Tactic.SplitIfs

/-!
# Programs that may be interrupted

A handler makes one call after another, to a store or to a broker. A call is atomic, but it may fail, and then
the handler returns an error and what it did so far stays. It may even fail *late*: its effect is there, and
the handler does not know. The message is then delivered again, until the handler returns without an error.

`Program.after` is the state after a number of effects. It says all about an attempt that fails:
`attempt_state`.
-/

namespace Foundation

universe u

/-- Calls on a state. What comes after a call may depend on the state that the call found. -/
inductive Program (σ : Type u) : Type u where
  | done (ok : Bool)
  | call (effect : σ → σ) (next : σ → Program σ)

/-- The call that fails: how many succeed before it, and whether it takes effect all the same. -/
structure Fault where
  calls : ℕ
  late : Bool
  deriving DecidableEq

/-- The effects that there are when a call fails. -/
def Fault.effects (fault : Fault) : ℕ := fault.calls + if fault.late then 1 else 0

namespace Program

variable {σ : Type u} {P : Program σ} {s : σ} {fault : Fault} {faults : List Fault}

/-- A run in which no call fails. -/
def run : Program σ → σ → σ × Bool
  | .done ok, s => (s, ok)
  | .call effect next, s => (next s).run (effect s)

/-- A run in which a call fails. -/
def attempt : Program σ → Fault → σ → σ × Bool
  | .done ok, _, s => (s, ok)
  | .call effect _, ⟨0, late⟩, s => (if late then effect s else s, false)
  | .call effect next, ⟨n + 1, late⟩, s => (next s).attempt ⟨n, late⟩ (effect s)

/-- The state after a number of effects. -/
def after : Program σ → ℕ → σ → σ
  | .done _, _, s => s
  | .call _ _, 0, s => s
  | .call effect next, n + 1, s => (next s).after n (effect s)

/-- Deliver again after each attempt that failed. -/
def redeliver (P : Program σ) : List Fault → σ → σ × Bool
  | [], s => P.run s
  | fault :: faults, s =>
    if (P.attempt fault s).2 then P.attempt fault s else P.redeliver faults (P.attempt fault s).1

@[simp]
theorem after_zero (P : Program σ) (s : σ) : P.after 0 s = s := by
  cases P <;> rfl

theorem attempt_state (P : Program σ) (fault : Fault) (s : σ) : (P.attempt fault s).1 = P.after fault.effects s := by
  obtain ⟨n, late⟩ := fault
  induction P generalizing n s with
  | done ok => rfl
  | call effect next ih =>
    cases n with
    | zero => cases late <;> simp [attempt, after, Fault.effects]
    | succ n =>
      have heffects : (Fault.mk (n + 1) late).effects = (Fault.mk n late).effects + 1 := by
        simp only [Fault.effects]
        omega
      rw [attempt, ih, heffects, after]

/-- An attempt that returns without an error is a run. -/
theorem attempt_eq_run (h : (P.attempt fault s).2 = true) : P.attempt fault s = P.run s := by
  obtain ⟨n, late⟩ := fault
  induction P generalizing n s with
  | done ok => rfl
  | call effect next ih =>
    cases n with
    | zero => cases h
    | succ n =>
      rw [attempt] at h ⊢
      exact ih s n h

/-- A condition on the state before each attempt that fails, and on the call that fails. -/
def Meets (P : Program σ) (C : σ → Fault → Prop) : List Fault → σ → Prop
  | [], _ => True
  | fault :: faults, s =>
    (P.attempt fault s).2 = false → C s fault ∧ P.Meets C faults (P.attempt fault s).1

theorem meets_true (faults : List Fault) (s : σ) : P.Meets (fun _ _ ↦ True) faults s := by
  induction faults generalizing s with
  | nil => trivial
  | cons fault faults ih => exact fun _ ↦ ⟨trivial, ih _⟩

/-- **Redelivery.** What the attempts preserve holds before the run that succeeds. -/
theorem redeliver_induction {C : σ → Fault → Prop} {I : σ → Prop} {Q : σ × Bool → Prop} (hs : I s)
    (hstep : ∀ s fault, I s → C s fault → I (P.after fault.effects s)) (hrun : ∀ s, I s → Q (P.run s))
    (hmeets : P.Meets C faults s) : Q (P.redeliver faults s) := by
  induction faults generalizing s with
  | nil => exact hrun s hs
  | cons fault faults ih =>
    rw [redeliver]
    split_ifs with hok
    · rw [attempt_eq_run hok]
      exact hrun s hs
    · obtain ⟨hfault, hrest⟩ := hmeets (Bool.eq_false_iff.mpr hok)
      rw [attempt_state] at hrest ⊢
      exact ih (hstep s fault hs hfault) hrest

end Program

end Foundation
