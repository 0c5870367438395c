import FunnyOption.Foundation.Table

/-!
# Upserts of several rows

An upsert writes a row under its key, merged with the row that is there. Several rows can be upserted one after the
other, or in one statement. A statement may not write a key twice, so a writer that uses one statement first
drops all rows under a key but the last one: `keepLast`. The question is when this makes no difference.

What happens under one key does not depend on the other keys: `get_upsertAll`. So the two ways agree on every
table if and only if, under each key, merging all rows in order comes to the same as merging the last one only:
`upsertAll_keepLast_iff`.
-/

namespace Foundation

namespace Table

variable {κ α : Type*} [DecidableEq κ] (merge : Option α → α → α)

/-- Write a row, merged with the one that is there. -/
def upsert (t : Table κ α) (row : κ × α) : Table κ α := t.insert row.1 (merge (t.get row.1) row.2)

/-- Write rows, one after the other. -/
def upsertAll (t : Table κ α) (rows : List (κ × α)) : Table κ α := rows.foldl (upsert merge) t

/-- The rows under a key. -/
def under (rows : List (κ × α)) (k : κ) : List α := (rows.filter (·.1 = k)).map Prod.snd

omit [DecidableEq κ] in
/-- Merge rows into what is there. -/
def mergeAll (old : Option α) (rows : List α) : Option α := rows.foldl (fun old row ↦ some (merge old row)) old

/-- Add a row to those of a statement, in the place of the one under the same key. -/
def replaceOrAppend (rows : List (κ × α)) (row : κ × α) : List (κ × α) :=
  if row.1 ∈ rows.map Prod.fst then rows.map fun r ↦ if r.1 = row.1 then row else r else rows ++ [row]

/-- The last row under each key. -/
def keepLast (rows : List (κ × α)) : List (κ × α) := rows.foldl replaceOrAppend []

variable {merge}

theorem under_append (rows rows' : List (κ × α)) (k : κ) :
    under (rows ++ rows') k = under rows k ++ under rows' k := by
  rw [under, List.filter_append, List.map_append]
  rfl

theorem under_singleton (row : κ × α) (k : κ) : under [row] k = if row.1 = k then [row.2] else [] := by
  rw [under, List.filter_cons]
  split_ifs with h h' h'
  · rfl
  · exact absurd (of_decide_eq_true h) h'
  · exact absurd (decide_eq_true h') h
  · rfl

theorem under_eq_nil {rows : List (κ × α)} {k : κ} : under rows k = [] ↔ k ∉ rows.map Prod.fst := by
  rw [under, List.map_eq_nil_iff, List.filter_eq_nil_iff]
  simp only [decide_eq_true_eq, List.mem_map, not_exists, not_and]

theorem mem_under {rows : List (κ × α)} {k : κ} {a : α} : a ∈ under rows k ↔ (k, a) ∈ rows := by
  simp [under]

/-- What is under a key after rows were written. -/
theorem get_upsertAll (t : Table κ α) (rows : List (κ × α)) (k : κ) :
    (upsertAll merge t rows).get k = mergeAll merge (t.get k) (under rows k) := by
  induction rows generalizing t with
  | nil => rfl
  | cons row rows ih =>
    have hunder : under (row :: rows) k = under [row] k ++ under rows k := under_append [row] rows k
    change (upsertAll merge (upsert merge t row) rows).get k = _
    rw [ih, upsert, get_insert, hunder, under_singleton]
    split_ifs with h h' h'
    · rw [h]
      rfl
    · exact absurd h.symm h'
    · exact absurd h'.symm h
    · rfl

theorem under_map_replace (rows : List (κ × α)) (row : κ × α) (k : κ) :
    under (rows.map fun r ↦ if r.1 = row.1 then row else r) k =
      if row.1 = k then (under rows k).map fun _ ↦ row.2 else under rows k := by
  induction rows with
  | nil => simp [under]
  | cons r rows ih =>
    have hcons : ∀ (r : κ × α) rs, under (r :: rs) k = under [r] k ++ under rs k := fun r rs ↦ under_append [r] rs k
    rw [List.map_cons, hcons, ih, hcons r rows, under_singleton, under_singleton]
    by_cases hr : r.1 = row.1
    · rw [if_pos hr, hr]
      split_ifs <;> rfl
    · rw [if_neg hr]
      by_cases hk : row.1 = k
      · rw [if_pos hk, if_pos hk, if_neg (fun h ↦ hr (h.trans hk.symm))]
        rfl
      · rw [if_neg hk, if_neg hk]

/-- A statement has the last row under each key, and no other. -/
theorem under_keepLast (rows : List (κ × α)) (k : κ) : under (keepLast rows) k = (under rows k).getLast?.toList := by
  induction rows using List.reverseRecOn with
  | nil => rfl
  | append_singleton rows row ih =>
    have hstep : keepLast (rows ++ [row]) = replaceOrAppend (keepLast rows) row := by
      rw [keepLast, List.foldl_append]
      rfl
    rw [hstep, replaceOrAppend, under_append, under_singleton]
    by_cases hk : row.1 = k
    · rw [if_pos hk, List.getLast?_append, List.getLast?_singleton, Option.some_or, Option.toList_some]
      split_ifs with hmem
      · rw [under_map_replace, if_pos hk, ih]
        -- the key is there, so there is a last row to be replaced
        cases hlast : (under rows k).getLast? with
        | none =>
          rw [hlast] at ih
          exact absurd hmem (hk ▸ under_eq_nil.mp ih)
        | some last => rfl
      · rw [under_append, under_singleton, if_pos hk, under_eq_nil.mpr (hk ▸ hmem)]
        rfl
    · rw [if_neg hk, List.append_nil]
      split_ifs with hmem
      · rw [under_map_replace, if_neg hk, ih]
      · rw [under_append, under_singleton, if_neg hk, List.append_nil, ih]

/-- **When the last row is enough.** -/
theorem upsertAll_keepLast_iff (rows : List (κ × α)) :
    (∀ (t : Table κ α) k, (upsertAll merge t (keepLast rows)).get k = (upsertAll merge t rows).get k) ↔
      ∀ k, ∀ last ∈ (under rows k).getLast?, ∀ old,
        mergeAll merge old (under rows k) = some (merge old last) := by
  constructor
  · intro h k last hlast old
    -- a table that has the old row under the key, or nothing
    obtain ⟨t, ht⟩ : ∃ t : Table κ α, t.get k = old := by
      cases old with
      | none => exact ⟨.empty, rfl⟩
      | some a => exact ⟨Table.insert .empty k a, by rw [get_insert, if_pos rfl]⟩
    have hsame := h t k
    rw [get_upsertAll, get_upsertAll, under_keepLast, Option.mem_def.mp hlast, ht] at hsame
    exact hsame.symm
  · intro h t k
    rw [get_upsertAll, get_upsertAll, under_keepLast]
    cases hlast : (under rows k).getLast? with
    | none =>
      rw [List.getLast?_eq_none_iff.mp hlast]
      rfl
    | some last =>
      rw [h k last hlast]
      rfl

end Table

end Foundation
