import Mathlib

/-!
# Tables with a primary key

A table of a relational database, as far as single statements over one table need it: rows under
distinct keys. `insert` is an upsert on the primary key, `update` is an update statement, which writes
rows and leaves keys alone. That keys are distinct is part of the type, so that looking a row up and
scanning the rows agree: `mem_rows`.
-/

namespace Foundation

/-- Rows under distinct keys. -/
structure Table (κ α : Type*) where
  rows : List (κ × α)
  nodup : (rows.map Prod.fst).Nodup

namespace Table

variable {κ α : Type*}

/-- The table without rows. -/
def empty : Table κ α := ⟨[], .nil⟩

/-- Rewrite the rows, each under its key. -/
def update (t : Table κ α) (f : κ → α → α) : Table κ α where
  rows := t.rows.map fun r ↦ (r.1, f r.1 r.2)
  nodup := by
    rw [List.map_map]
    exact t.nodup

/-- An update that writes what is there changes nothing. -/
theorem update_of_eq {t : Table κ α} {f : κ → α → α} (h : ∀ r ∈ t.rows, f r.1 r.2 = r.2) : t.update f = t := by
  obtain ⟨rows, nodup⟩ := t
  have hrows : rows.map (fun r ↦ (r.1, f r.1 r.2)) = rows := by
    conv_rhs => rw [← List.map_id rows]
    exact List.map_congr_left fun r hr ↦ Prod.ext rfl (h r hr)
  simp only [update, hrows]

variable [DecidableEq κ]

/-- The row under a key. -/
def get (t : Table κ α) (k : κ) : Option α := (t.rows.find? (·.1 = k)).map Prod.snd

theorem mem_rows {t : Table κ α} {k : κ} {a : α} : (k, a) ∈ t.rows ↔ t.get k = some a := by
  rw [get, Option.map_eq_some_iff]
  constructor
  · intro h
    cases hfind : t.rows.find? (·.1 = k) with
    | none => exact absurd (List.find?_eq_none.mp hfind _ h) (by simp)
    | some r =>
      have hkey : r.1 = k := by simpa using List.find?_some hfind
      -- the keys are distinct, so the row that is found is this one
      have heq : r = (k, a) := List.inj_on_of_nodup_map t.nodup (List.mem_of_find?_eq_some hfind) h hkey
      exact ⟨r, rfl, by rw [heq]⟩
  · rintro ⟨r, hfind, rfl⟩
    have hkey : r.1 = k := by simpa using List.find?_some hfind
    rw [← hkey]
    exact List.mem_of_find?_eq_some hfind

theorem get_eq_none {t : Table κ α} {k : κ} : t.get k = none ↔ k ∉ t.rows.map Prod.fst := by
  rw [get, Option.map_eq_none_iff, List.find?_eq_none]
  simp only [decide_eq_true_eq, List.mem_map, not_exists, not_and]

@[simp]
theorem get_update (t : Table κ α) (f : κ → α → α) (k : κ) : (t.update f).get k = (t.get k).map (f k) := by
  cases hget : t.get k with
  | none =>
    rw [Option.map_none, get_eq_none, update, List.map_map]
    exact get_eq_none.mp hget
  | some a =>
    rw [Option.map_some, ← mem_rows]
    exact List.mem_map.mpr ⟨(k, a), mem_rows.mpr hget, rfl⟩

/-- Write a row, over the one that is there under the key or as a new one. -/
def insert (t : Table κ α) (k : κ) (a : α) : Table κ α :=
  if h : k ∈ t.rows.map Prod.fst then t.update fun k' b ↦ if k' = k then a else b
  else ⟨(k, a) :: t.rows, List.nodup_cons.mpr ⟨h, t.nodup⟩⟩

theorem get_insert (t : Table κ α) (k : κ) (a : α) (k' : κ) :
    (t.insert k a).get k' = if k' = k then some a else t.get k' := by
  rw [insert]
  split_ifs with hmem heq heq
  · obtain ⟨b, hb⟩ : ∃ b, t.get k = some b := by
      rw [← Option.ne_none_iff_exists']
      exact fun hnone ↦ get_eq_none.mp hnone hmem
    rw [get_update, heq, hb, Option.map_some, if_pos rfl]
  · rw [get_update]
    simp [heq]
  · rw [heq, get, List.find?_cons_of_pos (by simp), Option.map_some]
  · rw [get, List.find?_cons_of_neg (by simpa using Ne.symm heq), get]

end Table

end Foundation
