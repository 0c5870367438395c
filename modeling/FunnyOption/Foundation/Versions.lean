import FunnyOption.Foundation.Table

/-!
# Rows with uncommitted versions

A table under the isolation level `READ COMMITTED`. A row has its committed version and at most one that a running
transaction has written: writing a row locks it until the transaction ends, so that a second transaction has to
wait. A transaction sees its own version of a row, and otherwise the committed one. To commit is to make what the
transaction sees the committed version (`committed_commit`), and to abort is to drop what it has written.

Rows are not deleted. A row whose only version was dropped is one that nobody sees.
-/

namespace Foundation

/-- The versions of a row. -/
structure Version (τ α : Type*) where
  committed : Option α
  /-- What a running transaction has written. -/
  written : Option (τ × α)

/-- A table whose rows have versions. -/
abbrev Versions (τ κ α : Type*) := Table κ (Version τ α)

namespace Versions

variable {τ κ α : Type*} [DecidableEq τ] [DecidableEq κ] (vs : Versions τ κ α) (t : τ)

/-- The committed version of a row. -/
def committed (k : κ) : Option α := (Table.get vs k).bind Version.committed

/-- The uncommitted version of a row, with its transaction. -/
def written (k : κ) : Option (τ × α) := (Table.get vs k).bind Version.written

/-- The version that a transaction sees. -/
def seen (v : Version τ α) : Option α := ((v.written.filter (·.1 = t)).map Prod.snd).or v.committed

/-- What a transaction sees of a row. -/
def view (k : κ) : Option α := ((written vs k).filter (·.1 = t)).map Prod.snd |>.or (committed vs k)

/-- All rows that a transaction sees. -/
def visible : List (κ × α) := vs.rows.filterMap fun r ↦ (seen t r.2).map (r.1, ·)

/-- No other transaction has locked a row. -/
def Free (k : κ) : Prop := ∀ p ∈ written vs k, p.1 = t

instance (k : κ) : Decidable (Free vs t k) := inferInstanceAs (Decidable (∀ p ∈ written vs k, _))

/-- A table that no transaction has written. -/
def ofTable (rows : Table κ α) : Versions τ κ α where
  rows := rows.rows.map fun r ↦ (r.1, ⟨some r.2, none⟩)
  nodup := by
    rw [List.map_map]
    exact rows.nodup

/-- A transaction writes a row. -/
def write (k : κ) (a : α) : Versions τ κ α := vs.insert k ⟨committed vs k, some (t, a)⟩

/-- A transaction commits. -/
def commit : Versions τ κ α := vs.update fun _ v ↦ ⟨seen t v, v.written.filter (·.1 ≠ t)⟩

/-- A transaction aborts. -/
def abort : Versions τ κ α := vs.update fun _ v ↦ ⟨v.committed, v.written.filter (·.1 ≠ t)⟩

variable {vs t}

omit [DecidableEq τ] in
theorem get_ofTable (rows : Table κ α) (k : κ) :
    Table.get (ofTable rows : Versions τ κ α) k = (rows.get k).map fun a ↦ ⟨some a, none⟩ := by
  rw [Table.get, Table.get, ofTable, List.find?_map, Option.map_map, Option.map_map]
  rfl

omit [DecidableEq τ] in
theorem written_ofTable (rows : Table κ α) (k : κ) : written (ofTable rows : Versions τ κ α) k = none := by
  rw [written, get_ofTable]
  cases rows.get k <;> rfl

theorem view_of_written {k : κ} {a : α} (h : written vs k = some (t, a)) : view vs t k = some a := by
  simp [view, h]

theorem view_of_not_written {k : κ} (h : ∀ a, written vs k ≠ some (t, a)) : view vs t k = committed vs k := by
  have hnone : (written vs k).filter (·.1 = t) = none := by
    rw [Option.filter_eq_none_iff]
    rintro ⟨t', a⟩ hp hmine
    obtain rfl : t' = t := by simpa using hmine
    exact h a hp
  simp [view, hnone]

omit [DecidableEq τ] in
@[simp]
theorem committed_write (k : κ) (a : α) (k' : κ) : committed (write vs t k a) k' = committed vs k' := by
  rw [committed, write, Table.get_insert]
  split_ifs with hk
  · rw [hk]
    rfl
  · rfl

omit [DecidableEq τ] in
theorem written_write (k : κ) (a : α) (k' : κ) :
    written (write vs t k a) k' = if k' = k then some (t, a) else written vs k' := by
  rw [written, write, Table.get_insert]
  split_ifs
  · rfl
  · rfl

/-- **What a transaction commits is what it sees.** -/
theorem committed_commit (k : κ) : committed (commit vs t) k = view vs t k := by
  rw [committed, commit, Table.get_update, view, written, committed]
  cases Table.get vs k <;> rfl

theorem written_commit (k : κ) : written (commit vs t) k = (written vs k).filter (·.1 ≠ t) := by
  rw [written, commit, Table.get_update, written]
  cases Table.get vs k <;> rfl

@[simp]
theorem committed_abort (k : κ) : committed (abort vs t) k = committed vs k := by
  rw [committed, abort, Table.get_update, committed]
  cases Table.get vs k <;> rfl

theorem written_abort (k : κ) : written (abort vs t) k = (written vs k).filter (·.1 ≠ t) := by
  rw [written, abort, Table.get_update, written]
  cases Table.get vs k <;> rfl

theorem mem_visible {k : κ} {a : α} : (k, a) ∈ visible vs t ↔ view vs t k = some a := by
  rw [visible, List.mem_filterMap]
  constructor
  · rintro ⟨⟨k', v⟩, hmem, hseen⟩
    obtain ⟨b, hb, heq⟩ := Option.map_eq_some_iff.mp hseen
    obtain ⟨rfl, rfl⟩ := Prod.mk.inj heq
    rw [view, written, committed, Table.mem_rows.mp hmem]
    exact hb
  · intro hview
    cases hget : Table.get vs k with
    | none => simp [view, written, committed, hget] at hview
    | some v =>
      refine ⟨(k, v), Table.mem_rows.mpr hget, ?_⟩
      rw [view, written, committed, hget] at hview
      exact Option.map_eq_some_iff.mpr ⟨a, hview, rfl⟩

end Versions

end Foundation
