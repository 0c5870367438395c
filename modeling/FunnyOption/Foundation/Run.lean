import Mathlib

/-!
# Runs of a step function

A component that reacts to events is a partial step function: an event that is not enabled in a
state has no successor there. A run is a list of events, executed from a start state.

Two relations speak about a run without naming its intermediate states. `Visits` says that the run
passes through a state, `Takes` that it takes an event in a state. A safety property is a statement
about what is visited; a condition on the steps of a run is a statement about what is taken. The
one induction over runs is `visits_induction`: it proves a property of every visited state from
what each taken step does to it.
-/

namespace Foundation

variable {σ ε : Type*} (step : σ → ε → Option σ)

/-- Execute events in order, as long as each one is enabled. -/
def exec (s : σ) (es : List ε) : Option σ := es.foldlM step s

@[simp]
theorem exec_nil (s : σ) : exec step s [] = some s := rfl

theorem exec_append_singleton (s : σ) (es : List ε) (e : ε) :
    exec step s (es ++ [e]) = (exec step s es).bind (step · e) := by
  simp [exec]

theorem exec_cons (s : σ) (e : ε) (es : List ε) : exec step s (e :: es) = (step s e).bind (exec step · es) := rfl

/-- The run of `es` from `s` passes through `t`. -/
def Visits (s : σ) (es : List ε) (t : σ) : Prop := ∃ pre, pre <+: es ∧ exec step s pre = some t

/-- The run of `es` from `s` takes the event `e` from the state `t` to the state `t'`. -/
def Takes (s : σ) (es : List ε) (t : σ) (e : ε) (t' : σ) : Prop :=
  ∃ pre, pre ++ [e] <+: es ∧ exec step s pre = some t ∧ step t e = some t'

variable {step} {s t t' : σ} {es : List ε} {e : ε}

theorem Takes.step_eq (h : Takes step s es t e t') : step t e = some t' := by
  obtain ⟨pre, -, -, hstep⟩ := h
  exact hstep

theorem Takes.visits (h : Takes step s es t e t') : Visits step s es t := by
  obtain ⟨pre, hpre, ht, -⟩ := h
  exact ⟨pre, (List.prefix_append pre [e]).trans hpre, ht⟩

theorem Takes.visits_next (h : Takes step s es t e t') : Visits step s es t' := by
  obtain ⟨pre, hpre, ht, hstep⟩ := h
  exact ⟨pre ++ [e], hpre, by rw [exec_append_singleton, ht, Option.bind_some, hstep]⟩

theorem Takes.mem (h : Takes step s es t e t') : e ∈ es := by
  obtain ⟨pre, hpre, -, -⟩ := h
  exact hpre.subset (List.mem_append_right pre List.mem_cons_self)

theorem visits_of_exec (h : exec step s es = some t) : Visits step s es t := ⟨es, List.prefix_rfl, h⟩

/-- A run that can be checked, and what follows of its end. -/
theorem exists_exec {P Q : σ → Prop} (hrun : ∃ t ∈ exec step s es, P t)
    (h : ∀ t, exec step s es = some t → P t → Q t) : ∃ t, exec step s es = some t ∧ P t ∧ Q t := by
  obtain ⟨t, ht, hP⟩ := hrun
  exact ⟨t, ht, hP, h t ht hP⟩

variable (step) in
/-- A condition on states and events, checked event by event along a run. -/
def Along (C : σ → ε → Prop) : σ → List ε → Prop
  | _, [] => True
  | s, e :: es => C s e ∧ ∀ s', step s e = some s' → Along C s' es

/-- A condition that can be checked at each event can be checked along a run. -/
instance Along.decidable {C : σ → ε → Prop} [∀ s e, Decidable (C s e)] : ∀ s es, Decidable (Along step C s es)
  | _, [] => .isTrue trivial
  | s, e :: es =>
    match hstep : step s e with
    | none => decidable_of_iff (C s e) (by simp [Along, hstep])
    | some s' =>
      have : Decidable (Along step C s' es) := Along.decidable s' es
      decidable_of_iff (C s e ∧ Along step C s' es) (by simp [Along, hstep])

/-- What is checked along a run holds of every step it takes. -/
theorem Along.of_takes {C : σ → ε → Prop} (h : Along step C s es) (htake : Takes step s es t e t') : C t e := by
  obtain ⟨pre, hpre, ht, -⟩ := htake
  induction pre generalizing s es with
  | nil =>
    obtain rfl : s = t := by simpa using ht
    obtain ⟨es, rfl⟩ := hpre
    exact h.1
  | cons f pre ih =>
    obtain ⟨es, rfl⟩ := hpre
    rw [exec_cons, Option.bind_eq_some_iff] at ht
    obtain ⟨u, hu, ht⟩ := ht
    exact ih (h.2 u hu) (List.prefix_append _ _) ht

/-- The steps of a run with one more event. -/
theorem forall_takes_append_singleton {C : σ → ε → Prop} (ht : exec step s es = some t) (hstep : step t e = some t') :
    (∀ u f u', Takes step s (es ++ [e]) u f u' → C u f) ↔
      (∀ u f u', Takes step s es u f u' → C u f) ∧ C t e := by
  constructor
  · refine fun h ↦ ⟨fun u f u' ⟨pre, hpre, hrest⟩ ↦ ?_, h t e t' ⟨es, List.prefix_rfl, ht, hstep⟩⟩
    exact h u f u' ⟨pre, hpre.trans (List.prefix_append es [e]), hrest⟩
  · rintro ⟨h, hlast⟩ u f u' ⟨pre, hpre, hu, hf⟩
    rcases List.prefix_concat_iff.mp hpre with heq | hpre
    · obtain ⟨rfl, hfe⟩ := List.append_inj' heq rfl
      obtain rfl : f = e := by simpa using hfe
      obtain rfl : u = t := Option.some_inj.mp (hu.symm.trans ht)
      exact hlast
    · exact h u f u' ⟨pre, hpre, hu, hf⟩

/-- **Induction over a run.** A property of the start state that every taken step preserves holds
of every visited state. -/
theorem visits_induction {P : σ → Prop} (hstart : P s) (hstep : ∀ t e t', Takes step s es t e t' → P t → P t') :
    ∀ t, Visits step s es t → P t := by
  rintro t ⟨pre, hpre, ht⟩
  induction pre using List.reverseRecOn generalizing t with
  | nil =>
    obtain rfl : s = t := by simpa using ht
    exact hstart
  | append_singleton pre e ih =>
    rw [exec_append_singleton, Option.bind_eq_some_iff] at ht
    obtain ⟨u, hu, hstep'⟩ := ht
    exact hstep u e t ⟨pre, hpre, hu, hstep'⟩ (ih u ((List.prefix_append pre [e]).trans hpre) hu)

end Foundation
