import Mathlib

/-!
# Sequences in a ring of slots

A ring of `cap` slots holds the items of a growing sequence, item `i` in slot `(start + i) % cap`. `Holds` says
that the items from a first one on are all there. A new item is first written, to the slot after the last one,
and then counted; items are given up from the front.

The second part is about the capacity of a ring: `Smears` describes a word whose bits are spread to the right,
which is how the next power of two is computed.
-/

namespace Foundation

variable {α : Type*} {cap start first : ℕ} {slots : ℕ → α} {items : List α} {x : α}

/-! ## Rings -/

/-- The slots hold the items of a sequence from the first one on. -/
def Holds (cap start : ℕ) (slots : ℕ → α) (items : List α) (first : ℕ) : Prop :=
  ∀ i, first ≤ i → i < items.length → items[i]? = some (slots ((start + i) % cap))

/-- The slots of two items that are less than a round apart are different. -/
theorem slot_ne_slot {i j : ℕ} (hlt : i < j) (hround : j < i + cap) : (start + i) % cap ≠ (start + j) % cap := by
  intro heq
  have hdvd : cap ∣ (start + j) - (start + i) := (Nat.modEq_iff_dvd' (by omega)).mp heq
  have hle := Nat.le_of_dvd (by omega) hdvd
  omega

/-- There is room behind the last item, and writing to it leaves the items alone. -/
theorem Holds.write (h : Holds cap start slots items first) (hroom : items.length < first + cap) (x : α) :
    Holds cap start (Function.update slots ((start + items.length) % cap) x) items first := by
  intro i hfirst hlt
  rw [Function.update_of_ne (slot_ne_slot hlt (by omega))]
  exact h i hfirst hlt

/-- The item that was written behind the last one is counted. -/
theorem Holds.push (h : Holds cap start slots items first) (hslot : slots ((start + items.length) % cap) = x) :
    Holds cap start slots (items ++ [x]) first := by
  intro i hfirst hlt
  rw [List.length_append, List.length_singleton, Nat.lt_succ_iff_lt_or_eq] at hlt
  rcases hlt with hlt | rfl
  · rw [List.getElem?_append_left hlt]
    exact h i hfirst hlt
  · rw [List.getElem?_concat_length, hslot]

theorem Holds.mono (h : Holds cap start slots items first) {later : ℕ} (hle : first ≤ later) :
    Holds cap start slots items later :=
  fun i hlater hlt ↦ h i (hle.trans hlater) hlt

/-! ### Copying

A reader copies the items after a first one. What it has copied is a part of the sequence, see `Copied`. -/

/-- The list has the items of the sequence after the first ones. -/
def Copied (items : List α) (first : ℕ) (copied : List α) : Prop := copied = (items.drop first).take copied.length

variable {copied : List α}

/-- An item at the end of the sequence does not change what was copied before. -/
theorem Copied.push (h : Copied items first copied) (hle : first + copied.length ≤ items.length) (x : α) :
    Copied (items ++ [x]) first copied := by
  rw [Copied, List.drop_append_of_le_length (by omega), List.take_append_of_le_length]
  · exact h
  · rw [List.length_drop]
    omega

/-- The next slot is copied. -/
theorem Copied.next (h : Copied items first copied) (hholds : Holds cap start slots items first)
    (hlt : first + copied.length < items.length) :
    Copied items first (copied ++ [slots ((start + (first + copied.length)) % cap)]) := by
  rw [Copied, List.length_append, List.length_singleton, List.take_add_one, ← h, List.getElem?_drop,
    hholds _ (Nat.le_add_right _ _) hlt]
  rfl

/-- What was copied comes after the first items. -/
theorem Copied.append_prefix {front : List α} (h : Copied items front.length copied) (hfront : front <+: items) :
    front ++ copied <+: items := by
  conv_rhs => rw [← List.take_append_drop front.length items]
  rw [← List.prefix_iff_eq_take.mp hfront, h]
  exact (List.prefix_append_right_inj _).mpr (List.take_prefix _ _)

/-! ## Powers of two -/

end Foundation
