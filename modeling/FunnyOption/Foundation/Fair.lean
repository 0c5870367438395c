import Mathlib

/-!
# Fair schedules

A component whose events are always enabled, driven by an infinite schedule. A schedule is fair if every
event comes again and again.

A state reaches a goal under every fair schedule if each state on the way has *helpful* events, which make a
measure smaller, while the other events make it smaller as well or leave the measure and what is helpful as
they are. Nothing is said about how long a helpful event takes to come.
-/

namespace Foundation

variable {σ ε : Type*} {step : σ → ε → σ} {s : σ} {events : ℕ → ε} {P : σ → Prop}

/-- The states along a schedule. -/
def trace (step : σ → ε → σ) (s : σ) (events : ℕ → ε) : ℕ → σ
  | 0 => s
  | n + 1 => step (trace step s events n) (events n)

/-- Events of a kind come again and again. -/
def Recurs (events : ℕ → ε) (kind : ε → Prop) : Prop := ∀ n, ∃ m, n ≤ m ∧ kind (events m)

/-- Every event comes again and again. -/
def Fair (events : ℕ → ε) : Prop := ∀ e n, ∃ m, n ≤ m ∧ events m = e

/-- What every event preserves holds along a schedule. -/
theorem trace_induction (hstart : P s) (hstep : ∀ s e, P s → P (step s e)) (n : ℕ) : P (trace step s events n) := by
  induction n with
  | zero => exact hstart
  | succ n ih => exact hstep _ _ ih

theorem trace_add (m n : ℕ) : trace step s events (m + n) =
    trace step (trace step s events m) (fun k ↦ events (m + k)) n := by
  induction n with
  | zero => rfl
  | succ n ih => rw [← Nat.add_assoc, trace, trace, ih]

theorem Recurs.shift {kind : ε → Prop} (h : Recurs events kind) (m : ℕ) : Recurs (fun k ↦ events (m + k)) kind := by
  intro n
  obtain ⟨k, hk, hkind⟩ := h (m + n)
  refine ⟨k - m, by omega, ?_⟩
  change kind (events (m + (k - m)))
  rwa [Nat.add_sub_cancel' (by omega)]

section Helpful

variable {α : Type*} [Preorder α] {μ : σ → α} {goal : σ → Prop} {helpful : σ → ε → Prop}

/-- The goal is reached or the measure gets smaller until an event comes that helps now. -/
theorem exists_goal_or_lt (hstep : ∀ s e, P s → P (step s e))
    (hhelp : ∀ s e, P s → ¬ goal s → helpful s e → μ (step s e) < μ s)
    (hother : ∀ s e, P s → ¬ goal s → μ (step s e) < μ s ∨ μ (step s e) ≤ μ s ∧ helpful (step s e) = helpful s)
    {k : ℕ} (hs : P s) (hk : helpful s (events k)) :
    ∃ m, goal (trace step s events m) ∨ μ (trace step s events m) < μ s := by
  induction k generalizing s events with
  | zero =>
    by_cases hgoal : goal s
    · exact ⟨0, .inl hgoal⟩
    · exact ⟨1, .inr (hhelp s _ hs hgoal hk)⟩
  | succ k ih =>
    by_cases hgoal : goal s
    · exact ⟨0, .inl hgoal⟩
    rcases hother s (events 0) hs hgoal with hlt | ⟨hle, hsame⟩
    · exact ⟨1, .inr hlt⟩
    -- what helps now still helps after the first event
    have hshift : ∀ m, trace step (step s (events 0)) (fun n ↦ events (1 + n)) m = trace step s events (1 + m) :=
      fun m ↦ (trace_add 1 m).symm
    obtain ⟨m, hm⟩ := @ih _ (fun n ↦ events (1 + n)) (hstep s _ hs) (by rw [hsame, Nat.add_comm]; exact hk)
    rw [hshift] at hm
    exact ⟨1 + m, hm.imp_right fun hlt ↦ hlt.trans_le hle⟩

variable (μ goal helpful) in
/-- **Helpful events.** -/
theorem eventually_of_helpful [WellFoundedLT α] (hfair : ∀ s, Recurs events (helpful s)) (hstart : P s)
    (hstep : ∀ s e, P s → P (step s e)) (hhelp : ∀ s e, P s → ¬ goal s → helpful s e → μ (step s e) < μ s)
    (hother : ∀ s e, P s → ¬ goal s → μ (step s e) < μ s ∨ μ (step s e) ≤ μ s ∧ helpful (step s e) = helpful s) :
    ∃ n, goal (trace step s events n) := by
  induction hμ : μ s using WellFoundedLT.induction generalizing s events with
  | ind a ih =>
    obtain ⟨k, -, hk⟩ := hfair s 0
    obtain ⟨m, hgoal | hlt⟩ := exists_goal_or_lt hstep hhelp hother hstart hk
    · exact ⟨m, hgoal⟩
    · obtain ⟨n, hn⟩ := ih _ (hμ ▸ hlt) (fun s ↦ (hfair s).shift m) (trace_induction hstart hstep m) rfl
      exact ⟨m + n, trace_add m n ▸ hn⟩

end Helpful

/-- One event helps in each state, and the others make the measure smaller or change nothing. -/
theorem Fair.eventually {α : Type*} [Preorder α] [WellFoundedLT α] (hfair : Fair events) (μ : σ → α)
    (goal : σ → Prop) (helpful : σ → ε) (hstart : P s) (hstep : ∀ s e, P s → P (step s e))
    (hhelp : ∀ s, P s → ¬ goal s → μ (step s (helpful s)) < μ s)
    (hother : ∀ s e, P s → ¬ goal s → μ (step s e) < μ s ∨ step s e = s) : ∃ n, goal (trace step s events n) := by
  refine eventually_of_helpful μ goal (fun s e ↦ e = helpful s) (fun s ↦ hfair (helpful s)) hstart hstep
    (fun s e hs hgoal he ↦ he ▸ hhelp s hs hgoal) fun s e hs hgoal ↦ ?_
  refine (hother s e hs hgoal).imp_right fun hsame ↦ ?_
  rw [hsame]
  exact ⟨le_rfl, rfl⟩

end Foundation
