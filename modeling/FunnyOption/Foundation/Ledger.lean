import Mathlib

/-!
# Totals of open entries

A component may keep open entries under keys and, next to them, a number for what they add up to. This file has
the sum over the entries that are there, `total`, and how it changes when an entry is written or deleted. A
key without an entry weighs nothing, and sums are over all keys, so there has to be an entry under finitely
many of them only.

The other half is about amounts that are moved between keys. A list of moves says how much each of them adds
to a key. What they add to all keys with a property is the sum of the moves of such keys.
-/

namespace Foundation

variable {κ α M : Type*}

/-- There is an entry under finitely many keys. -/
def FinitelyMany (entries : κ → Option α) : Prop := {k | entries k ≠ none}.Finite

theorem finitelyMany_none : FinitelyMany fun _ : κ ↦ (none : Option α) := by
  rw [FinitelyMany]
  simp

variable {entries : κ → Option α}

theorem FinitelyMany.update [DecidableEq κ] (h : FinitelyMany entries) (k : κ) (entry : Option α) :
    FinitelyMany (Function.update entries k entry) := by
  refine (h.insert k).subset fun k' hk' ↦ ?_
  by_cases heq : k' = k
  · exact .inl heq
  · have hsome : Function.update entries k entry k' ≠ none := hk'
    rw [Function.update_of_ne heq] at hsome
    exact .inr hsome

variable [AddCommGroup M]

/-- What there is under a key weighs, or nothing. -/
def weigh (weight : α → M) (entry : Option α) : M := (entry.map weight).getD 0

@[simp]
theorem weigh_none (weight : α → M) : weigh weight none = 0 := rfl

@[simp]
theorem weigh_some (weight : α → M) (a : α) : weigh weight (some a) = weight a := rfl

/-- What all entries weigh. -/
noncomputable def total (weight : α → M) (entries : κ → Option α) : M := finsum fun k ↦ weigh weight (entries k)

theorem total_of_none (weight : α → M) (h : ∀ k, entries k = none) : total weight entries = 0 := by
  rw [total]
  exact finsum_eq_zero_of_forall_eq_zero fun k ↦ by rw [h k, weigh_none]

/-- **Writing an entry.** The total loses what the old entry weighs and gains what the new one does. -/
theorem total_update [DecidableEq κ] (weight : α → M) (h : FinitelyMany entries) (k : κ) (entry : Option α) :
    total weight (Function.update entries k entry) =
      total weight entries - weigh weight (entries k) + weigh weight entry := by
  -- the change is a function that is zero at the other keys
  have hsplit : ∀ k', weigh weight (Function.update entries k entry k') = weigh weight (entries k') +
        (if k' = k then weigh weight entry - weigh weight (entries k) else 0) := by
    intro k'
    by_cases heq : k' = k
    · subst heq
      rw [Function.update_self, if_pos rfl, add_sub_cancel]
    · rw [Function.update_of_ne heq, if_neg heq, add_zero]
  have hentries : (Function.support fun k' ↦ weigh weight (entries k')).Finite := by
    refine h.subset fun k' hk' hnone ↦ hk' ?_
    dsimp only
    rw [hnone, weigh_none]
  have hchange : (Function.support fun k' : κ ↦
      if k' = k then weigh weight entry - weigh weight (entries k) else 0).Finite := by
    refine (Set.finite_singleton k).subset fun k' hk' ↦ ?_
    by_contra hne
    exact hk' (if_neg hne)
  rw [total, finsum_congr hsplit, finsum_add_distrib hentries hchange,
    finsum_eq_single _ k fun k' hne ↦ if_neg hne, if_pos rfl, ← total]
  abel

/-! ## Moves -/

section Moves

variable (P : κ → Prop) [DecidablePred P]

/-- What moves add to the keys with a property. -/
def movedWhere (moves : List (κ × M)) : M := (moves.map fun m ↦ if P m.1 then m.2 else 0).sum

@[simp]
theorem movedWhere_nil : movedWhere P ([] : List (κ × M)) = 0 := rfl

theorem movedWhere_cons (m : κ × M) (moves : List (κ × M)) :
    movedWhere P (m :: moves) = (if P m.1 then m.2 else 0) + movedWhere P moves := by
  rw [movedWhere, List.map_cons, List.sum_cons, movedWhere]

theorem movedWhere_append (moves moves' : List (κ × M)) :
    movedWhere P (moves ++ moves') = movedWhere P moves + movedWhere P moves' := by
  rw [movedWhere, List.map_append, List.sum_append, movedWhere, movedWhere]

theorem finite_support_ite {f : κ → M} (h : (Function.support f).Finite) :
    (Function.support fun k ↦ if P k then f k else 0).Finite := by
  refine h.subset fun k hk hzero ↦ hk ?_
  dsimp only
  rw [hzero, ite_self]

variable [DecidableEq κ]

/-- What moves add to a key. -/
def moved (moves : List (κ × M)) (k : κ) : M := (moves.map fun m ↦ if m.1 = k then m.2 else 0).sum

@[simp]
theorem moved_nil (k : κ) : moved ([] : List (κ × M)) k = 0 := rfl

theorem moved_cons (m : κ × M) (moves : List (κ × M)) (k : κ) :
    moved (m :: moves) k = (if m.1 = k then m.2 else 0) + moved moves k := by
  rw [moved, List.map_cons, List.sum_cons, moved]

theorem moved_append (moves moves' : List (κ × M)) (k : κ) :
    moved (moves ++ moves') k = moved moves k + moved moves' k := by
  rw [moved, List.map_append, List.sum_append, moved, moved]

theorem finite_support_moved (moves : List (κ × M)) : (Function.support (moved moves)).Finite := by
  induction moves with
  | nil =>
    refine Set.finite_empty.subset fun k hk ↦ ?_
    exact absurd (moved_nil k) hk
  | cons m moves ih =>
    refine (ih.insert m.1).subset fun k hk ↦ ?_
    by_cases heq : k = m.1
    · exact .inl heq
    · rw [Function.mem_support, moved_cons, if_neg (Ne.symm heq), zero_add] at hk
      exact .inr hk

/-- **The sum of moves.** The sum over the keys is the sum over the moves. -/
theorem finsum_moved (moves : List (κ × M)) :
    finsum (fun k ↦ if P k then moved moves k else 0) = movedWhere P moves := by
  induction moves with
  | nil => simp
  | cons m moves ih =>
    have hsplit : ∀ k, (if P k then moved (m :: moves) k else 0) =
        (if k = m.1 then (if P m.1 then m.2 else 0) else 0) + if P k then moved moves k else 0 := by
      intro k
      by_cases heq : k = m.1
      · subst heq
        rw [moved_cons, if_pos rfl, if_pos rfl]
        split_ifs
        · rfl
        · exact (add_zero 0).symm
      · rw [moved_cons, if_neg (Ne.symm heq), if_neg heq, zero_add, zero_add]
    have hfirst : (Function.support fun k ↦ if k = m.1 then (if P m.1 then m.2 else 0) else 0).Finite := by
      refine (Set.finite_singleton m.1).subset fun k hk ↦ ?_
      by_contra hne
      exact hk (if_neg hne)
    rw [finsum_congr hsplit, finsum_add_distrib hfirst (finite_support_ite P (finite_support_moved moves)),
      ih, finsum_eq_single _ m.1 fun k hne ↦ if_neg hne, if_pos rfl, movedWhere_cons]

end Moves

end Foundation
