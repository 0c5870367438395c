import FunnyOption.Foundation.Run

/-!
# Batches of the journal

Several services append to the journal, each in transactions of its own. An insert takes the next value
of a sequence at once, and its row becomes visible at the commit; a value that was taken is never given
back. `MaterializeNextBatch` reads the visible rows above the last batch and stores them as the next one.

A transaction that is still open while a later value is already visible loses its rows: the batch takes
the later row, and everything below it is behind the last batch from then on. The theorem
`no_entry_skipped` is about runs in which no batch is made at such a moment.

## The tables

`Journal` has the visible rows, the rows of open transactions, and the batches. What an entry is and how
it is replayed are parameters, since batches only need to know when two entries are the same and whether
the rows replay. There is one batcher, so its reads and its insert are one step: the last batch is its own,
and only the read of the rows meets the writers.

## The invariant

No open transaction holds a value at or below the last batch, so whatever is committed later is above it.
-/

open Foundation

namespace FunnyOption.Rollup

/-! ## Data -/

/-- A row of the journal. -/
structure JournalRow (α : Type*) where
  sequence : ℕ
  entry : α
  deriving DecidableEq, Repr

/-- `StoredBatch`, without the roots. -/
structure StoredBatch (α : Type*) where
  firstSequence : ℕ
  lastSequence : ℕ
  entries : List (JournalRow α)
  deriving DecidableEq, Repr

/-- How entries are replayed. -/
structure Replayer (α σ : Type*) where
  zero : σ
  apply : σ → ℕ → α → Except String σ

/-- Replay rows in order. -/
def Replayer.run {α σ : Type*} (replayer : Replayer α σ) : σ → List (JournalRow α) → Except String σ
  | s, [] => .ok s
  | s, row :: rows =>
    match replayer.apply s row.sequence row.entry with
    | .error e => .error e
    | .ok s => replayer.run s rows

/-- The tables of the journal and of the batches. -/
structure Journal (α : Type*) where
  /-- The value that the sequence hands out next. -/
  nextSequence : ℕ
  committed : List (JournalRow α)
  /-- The rows of open transactions, with their writer. -/
  uncommitted : List (ℕ × JournalRow α)
  batches : List (StoredBatch α)
  deriving DecidableEq, Repr

/-- Why there is no batch. -/
inductive MaterializeError where
  | noPendingBatch
  | replay (text : String)
  deriving DecidableEq, Repr

/-- What happens to the tables. -/
inductive JournalEvent (α : Type*) where
  | insert (writer : ℕ) (entry : α)
  | commit (writer : ℕ)
  | rollback (writer : ℕ)
  | materialize (limit : ℤ)

namespace Journal

variable {α σ κ : Type*} [DecidableEq κ]

/-- Nothing has been written. -/
def start : Journal α := ⟨1, [], [], []⟩

variable (j : Journal α)

/-- The rows of all batches. -/
def batched : List (JournalRow α) := j.batches.flatMap StoredBatch.entries

/-- `LastSequence` of `latestBatch`, which is zero if there is none. -/
def latestSequence : ℕ := (j.batches.getLast?.map StoredBatch.lastSequence).getD 0

/-- The visible rows above the last batch. -/
def unbatched : List (JournalRow α) := j.committed.filter fun row ↦ j.latestSequence < row.sequence

/-- `loadJournalEntriesAfter`. -/
def loadJournalEntriesAfter (limit : ℕ) : List (JournalRow α) :=
  (j.unbatched.insertionSort fun a b ↦ a.sequence ≤ b.sequence).take limit

/-- The limit that a call uses. -/
def batchLimit (limit : ℤ) : ℕ := if limit ≤ 0 then 256 else limit.toNat

/-- `MaterializeNextBatch`. -/
def materializeNextBatch (replayer : Replayer α σ) (limit : ℤ) :
    Journal α × Except MaterializeError (StoredBatch α) :=
  match j.loadJournalEntriesAfter (batchLimit limit) with
  | [] => (j, .error .noPendingBatch)
  | first :: rest =>
    match replayer.run replayer.zero (j.batched ++ first :: rest) with
    | .error e => (j, .error (.replay e))
    | .ok _ =>
      let batch : StoredBatch α := ⟨first.sequence, (rest.getLast?.getD first).sequence, first :: rest⟩
      ({ j with batches := j.batches ++ [batch] }, .ok batch)

/-- `appendEntry`. A writer waits while another open transaction holds the key, and an entry whose key
is known is dropped, with the value it took. -/
def insert (key : α → κ) (writer : ℕ) (entry : α) : Option (Journal α) :=
  if ∃ held ∈ j.uncommitted, held.1 ≠ writer ∧ key held.2.entry = key entry then none
  else if (∃ row ∈ j.committed, key row.entry = key entry) ∨
      ∃ held ∈ j.uncommitted, key held.2.entry = key entry then
    some { j with nextSequence := j.nextSequence + 1 }
  else
    some { j with
      nextSequence := j.nextSequence + 1
      uncommitted := j.uncommitted ++ [(writer, ⟨j.nextSequence, entry⟩)] }

/-- The rows of a writer become visible. -/
def commit (writer : ℕ) : Journal α :=
  { j with
    committed := j.committed ++ (j.uncommitted.filter fun held ↦ held.1 = writer).map Prod.snd
    uncommitted := j.uncommitted.filter fun held ↦ held.1 ≠ writer }

/-- The rows of a writer are gone. -/
def rollback (writer : ℕ) : Journal α := { j with uncommitted := j.uncommitted.filter fun held ↦ held.1 ≠ writer }

/-- One event. -/
def step (key : α → κ) (replayer : Replayer α σ) (j : Journal α) : JournalEvent α → Option (Journal α)
  | .insert writer entry => j.insert key writer entry
  | .commit writer => some (j.commit writer)
  | .rollback writer => some (j.rollback writer)
  | .materialize limit => some (j.materializeNextBatch replayer limit).1

/-! ## What a batch takes -/

variable {j}

/-- What a successful call of `MaterializeNextBatch` does. -/
structure Stores (j : Journal α) (batch : StoredBatch α) (j' : Journal α) : Prop where
  next : j' = { j with batches := j.batches ++ [batch] }
  entries : ∃ limit, batch.entries = j.loadJournalEntriesAfter limit
  last : ∃ row ∈ batch.entries.getLast?, row.sequence = batch.lastSequence

/-- What `MaterializeNextBatch` does. -/
theorem materializeNextBatch_cases (replayer : Replayer α σ) (limit : ℤ) :
    (∃ e, j.materializeNextBatch replayer limit = (j, .error e)) ∨
      ∃ batch j', j.materializeNextBatch replayer limit = (j', .ok batch) ∧ Stores j batch j' := by
  cases hload : j.loadJournalEntriesAfter (batchLimit limit) with
  | nil => exact .inl ⟨.noPendingBatch, by simp only [materializeNextBatch, hload]⟩
  | cons first rest =>
    cases hrun : replayer.run replayer.zero (j.batched ++ first :: rest) with
    | error e => exact .inl ⟨.replay e, by simp only [materializeNextBatch, hload, hrun]⟩
    | ok s =>
      refine .inr ⟨_, _, by simp only [materializeNextBatch, hload, hrun]; rfl, rfl,
        ⟨batchLimit limit, hload.symm⟩, rest.getLast?.getD first, ?_, rfl⟩
      exact List.getLast?_cons

/-- All rows, visible or not. -/
def rows (j : Journal α) : List (JournalRow α) := j.committed ++ j.uncommitted.map Prod.snd

/-- The invariant. -/
structure Ordered (j : Journal α) : Prop where
  fresh : ∀ row ∈ j.rows, 0 < row.sequence ∧ row.sequence < j.nextSequence
  distinct : (j.rows.map JournalRow.sequence).Nodup
  latest : j.latestSequence < j.nextSequence
  /-- No open transaction holds a value that the last batch has passed. -/
  ahead : ∀ held ∈ j.uncommitted, j.latestSequence < held.2.sequence
  sorted : j.batched.Pairwise fun a b ↦ a.sequence < b.sequence
  batched : ∀ row ∈ j.batched, row ∈ j.committed ∧ row.sequence ≤ j.latestSequence
  complete : ∀ row ∈ j.committed, row.sequence ≤ j.latestSequence → row ∈ j.batched

theorem ordered_start : Ordered (start : Journal α) where
  fresh _ h := absurd h List.not_mem_nil
  distinct := List.nodup_nil
  latest := Nat.zero_lt_one
  ahead _ h := absurd h List.not_mem_nil
  sorted := List.Pairwise.nil
  batched _ h := absurd h List.not_mem_nil
  complete _ h := absurd h List.not_mem_nil

/-! ### Writers -/

/-- The batches do not move while writers work. -/
theorem Ordered.of_batches {j j' : Journal α} (h : Ordered j) (hbatches : j'.batches = j.batches)
    (hfresh : ∀ row ∈ j'.rows, 0 < row.sequence ∧ row.sequence < j'.nextSequence)
    (hdistinct : (j'.rows.map JournalRow.sequence).Nodup) (hnext : j.nextSequence ≤ j'.nextSequence)
    (hahead : ∀ held ∈ j'.uncommitted, j.latestSequence < held.2.sequence)
    (hcommitted : ∀ row, row ∈ j'.committed → row ∈ j.committed ∨ j.latestSequence < row.sequence)
    (hkept : j.committed ⊆ j'.committed) : Ordered j' := by
  have hlatest : j'.latestSequence = j.latestSequence := by rw [latestSequence, hbatches]; rfl
  have hbatched : j'.batched = j.batched := by rw [Journal.batched, hbatches]; rfl
  refine ⟨hfresh, hdistinct, ?_, ?_, ?_, ?_, ?_⟩
  · rw [hlatest]
    exact h.latest.trans_le hnext
  · rw [hlatest]
    exact hahead
  · rw [hbatched]
    exact h.sorted
  · rw [hbatched, hlatest]
    exact fun row hrow ↦ ⟨hkept (h.batched row hrow).1, (h.batched row hrow).2⟩
  · rw [hbatched, hlatest]
    intro row hrow hle
    rcases hcommitted row hrow with hold | hlt
    · exact h.complete row hold hle
    · exact absurd hle (not_le.mpr hlt)

theorem rows_commit_perm (j : Journal α) (writer : ℕ) : (j.commit writer).rows.Perm j.rows := by
  have hsplit := (List.filter_append_perm (fun held : ℕ × JournalRow α ↦ held.1 = writer)
    j.uncommitted).map Prod.snd
  rw [List.map_append] at hsplit
  rw [rows, rows, commit, List.append_assoc]
  simp only [decide_not]
  exact hsplit.append_left j.committed

theorem Ordered.commit (h : Ordered j) (writer : ℕ) : Ordered (j.commit writer) := by
  have hperm := rows_commit_perm j writer
  refine h.of_batches rfl (fun row hrow ↦ h.fresh row (hperm.subset hrow))
    ((hperm.map _).nodup_iff.mpr h.distinct) le_rfl
    (fun held hheld ↦ h.ahead held (List.mem_of_mem_filter hheld)) ?_ (List.subset_append_left _ _)
  intro row hrow
  rcases List.mem_append.mp hrow with hold | hnew
  · exact .inl hold
  · obtain ⟨held, hheld, rfl⟩ := List.mem_map.mp hnew
    exact .inr (h.ahead held (List.mem_of_mem_filter hheld))

theorem Ordered.rollback (h : Ordered j) (writer : ℕ) : Ordered (j.rollback writer) := by
  have hsub : (j.rollback writer).rows.Sublist j.rows := (List.filter_sublist.map _).append_left j.committed
  exact h.of_batches rfl (fun row hrow ↦ h.fresh row (hsub.subset hrow))
    ((hsub.map _).nodup h.distinct) le_rfl
    (fun held hheld ↦ h.ahead held (List.mem_of_mem_filter hheld)) (fun _ hrow ↦ .inl hrow)
    (List.Subset.refl _)

variable {j' : Journal α}

theorem Ordered.insert {key : α → κ} {writer : ℕ} {entry : α} (h : Ordered j)
    (hstep : j.insert key writer entry = some j') : Ordered j' := by
  have hskip : Ordered { j with nextSequence := j.nextSequence + 1 } :=
    h.of_batches rfl (fun row hrow ↦ ⟨(h.fresh row hrow).1, (h.fresh row hrow).2.trans (Nat.lt_succ_self _)⟩)
      h.distinct (Nat.le_succ _) h.ahead (fun _ hrow ↦ .inl hrow) (List.Subset.refl _)
  rw [Journal.insert] at hstep
  split_ifs at hstep with hheld hknown
  · exact Option.some.inj hstep ▸ hskip
  · obtain rfl := Option.some.inj hstep
    have hrows : rows { j with
        nextSequence := j.nextSequence + 1
        uncommitted := j.uncommitted ++ [(writer, ⟨j.nextSequence, entry⟩)] } =
        j.rows ++ [⟨j.nextSequence, entry⟩] := by
      simp [rows]
    refine h.of_batches rfl ?_ ?_ (Nat.le_succ _) ?_ (fun _ hrow ↦ .inl hrow) (List.Subset.refl _)
    · rw [hrows]
      intro row hrow
      rcases List.mem_append.mp hrow with hold | hnew
      · exact ⟨(h.fresh row hold).1, (h.fresh row hold).2.trans (Nat.lt_succ_self _)⟩
      · rw [List.mem_singleton.mp hnew]
        exact ⟨(Nat.zero_le _).trans_lt h.latest, Nat.lt_succ_self _⟩
    · rw [hrows, List.map_append, List.nodup_append']
      refine ⟨h.distinct, List.nodup_singleton _, ?_⟩
      intro sequence hold hnew
      obtain ⟨row, hrow, rfl⟩ := List.mem_map.mp hold
      exact (h.fresh row hrow).2.ne (List.mem_singleton.mp hnew)
    · intro held hheld
      rcases List.mem_append.mp hheld with hold | hnew
      · exact h.ahead held hold
      · rw [List.mem_singleton.mp hnew]
        exact h.latest

/-! ### The batcher -/

instance : Std.Total fun a b : JournalRow α ↦ a.sequence ≤ b.sequence := ⟨fun a b ↦ le_total a.sequence b.sequence⟩

instance : IsTrans (JournalRow α) fun a b ↦ a.sequence ≤ b.sequence := ⟨fun _ _ _ ↦ le_trans⟩

variable {row : JournalRow α}

theorem mem_unbatched : row ∈ j.unbatched ↔ row ∈ j.committed ∧ j.latestSequence < row.sequence := by
  simp [unbatched]

/-- The visible rows above the last batch, in strictly increasing order. -/
theorem Ordered.pairwise_sort (h : Ordered j) :
    (j.unbatched.insertionSort fun a b ↦ a.sequence ≤ b.sequence).Pairwise
      fun a b ↦ a.sequence < b.sequence := by
  have hdistinct : (j.unbatched.map JournalRow.sequence).Nodup :=
    ((List.filter_sublist.trans (List.sublist_append_left _ _)).map _).nodup h.distinct
  have hperm := List.perm_insertionSort (fun a b : JournalRow α ↦ a.sequence ≤ b.sequence) j.unbatched
  have hne := List.pairwise_map.mp ((hperm.map JournalRow.sequence).nodup_iff.mpr hdistinct)
  have hle := List.pairwise_insertionSort (fun a b : JournalRow α ↦ a.sequence ≤ b.sequence) j.unbatched
  exact (hle.and hne).imp fun hab ↦ lt_of_le_of_ne hab.1 hab.2

/-- A read in order that goes up to a row has everything below it. -/
theorem Ordered.mem_load (h : Ordered j) {limit : ℕ} {last row : JournalRow α}
    (hlast : last ∈ j.loadJournalEntriesAfter limit) (hrow : row ∈ j.unbatched) (hle : row.sequence ≤ last.sequence) :
    row ∈ j.loadJournalEntriesAfter limit := by
  have hsorted := h.pairwise_sort
  have hmem := (List.mem_insertionSort fun a b : JournalRow α ↦ a.sequence ≤ b.sequence).mpr hrow
  rw [loadJournalEntriesAfter] at hlast ⊢
  generalize (j.unbatched.insertionSort fun a b ↦ a.sequence ≤ b.sequence) = sorted at *
  rw [← List.take_append_drop limit sorted] at hsorted hmem
  rcases List.mem_append.mp hmem with htake | hdrop
  · exact htake
  · have hlt := (List.pairwise_append.mp hsorted).2.2 last hlast row hdrop
    exact absurd hle (not_le.mpr hlt)

theorem mem_unbatched_of_mem_load {limit : ℕ} (h : row ∈ j.loadJournalEntriesAfter limit) : row ∈ j.unbatched :=
  (List.mem_insertionSort fun a b : JournalRow α ↦ a.sequence ≤ b.sequence).mp (List.mem_of_mem_take h)

variable {batch : StoredBatch α}

theorem Stores.latestSequence (hstores : Stores j batch j') : j'.latestSequence = batch.lastSequence := by
  rw [hstores.next, Journal.latestSequence, List.getLast?_concat]
  rfl

theorem Stores.batched (hstores : Stores j batch j') : j'.batched = j.batched ++ batch.entries := by
  rw [hstores.next, Journal.batched, Journal.batched, List.flatMap_append, List.flatMap_singleton]

/-- When a batch is made, no open transaction holds a value below a visible one. -/
def NoneBehind (j : Journal α) : JournalEvent α → Prop
  | .materialize _ => ∀ held ∈ j.uncommitted, ∀ row ∈ j.committed, row.sequence < held.2.sequence
  | _ => True

theorem Ordered.stores (h : Ordered j) (hstores : Stores j batch j')
    (hbehind : ∀ held ∈ j.uncommitted, ∀ row ∈ j.committed, row.sequence < held.2.sequence) : Ordered j' := by
  have hlatest := hstores.latestSequence
  have hbatched := hstores.batched
  obtain ⟨last, hlast, hlastSequence⟩ := hstores.last
  obtain ⟨limit, hentries⟩ := hstores.entries
  have hmem : ∀ row ∈ batch.entries, row ∈ j.committed ∧ j.latestSequence < row.sequence :=
    fun row hrow ↦ mem_unbatched.mp (mem_unbatched_of_mem_load (hentries ▸ hrow))
  have hsorted : batch.entries.Pairwise fun a b ↦ a.sequence < b.sequence :=
    hentries ▸ h.pairwise_sort.sublist (List.take_sublist _ _)
  have hlastMem : last ∈ batch.entries := List.mem_of_getLast? hlast
  have hpassed : j.latestSequence < batch.lastSequence := hlastSequence ▸ (hmem last hlastMem).2
  -- the last row of a sorted list is an upper bound
  have hbound : ∀ row ∈ batch.entries, row.sequence ≤ batch.lastSequence := by
    intro row hrow
    obtain ⟨front, hfront⟩ := List.getLast?_eq_some_iff.mp hlast
    rw [hfront] at hrow hsorted
    rcases List.mem_append.mp hrow with hold | hnew
    · rw [← hlastSequence]
      exact ((List.pairwise_append.mp hsorted).2.2 row hold last List.mem_cons_self).le
    · rw [List.mem_singleton.mp hnew, hlastSequence]
  obtain rfl := hstores.next
  refine ⟨h.fresh, h.distinct, ?_, ?_, ?_, ?_, ?_⟩
  · rw [hlatest, ← hlastSequence]
    exact (h.fresh last (List.mem_append_left _ (hmem last hlastMem).1)).2
  · rw [hlatest, ← hlastSequence]
    exact fun held hheld ↦ hbehind held hheld last (hmem last hlastMem).1
  · rw [hbatched, List.pairwise_append]
    refine ⟨h.sorted, hsorted, fun row hrow row' hrow' ↦ ?_⟩
    exact (h.batched row hrow).2.trans_lt (hmem row' hrow').2
  · rw [hbatched, hlatest]
    intro row hrow
    rcases List.mem_append.mp hrow with hold | hnew
    · exact ⟨(h.batched row hold).1, (h.batched row hold).2.trans hpassed.le⟩
    · exact ⟨(hmem row hnew).1, hbound row hnew⟩
  · rw [hbatched, hlatest]
    intro row hrow hle
    by_cases hold : row.sequence ≤ j.latestSequence
    · exact List.mem_append_left _ (h.complete row hrow hold)
    · refine List.mem_append_right _ ?_
      rw [hentries] at hlastMem ⊢
      exact h.mem_load hlastMem (mem_unbatched.mpr ⟨hrow, not_le.mp hold⟩) (hlastSequence ▸ hle)

/-- **One event keeps the invariant.** -/
theorem Ordered.step {key : α → κ} {replayer : Replayer α σ} {event : JournalEvent α} (h : Ordered j)
    (hbehind : NoneBehind j event) (hstep : j.step key replayer event = some j') : Ordered j' := by
  cases event with
  | insert writer entry => exact h.insert hstep
  | commit writer => exact Option.some.inj hstep ▸ h.commit writer
  | rollback writer => exact Option.some.inj hstep ▸ h.rollback writer
  | materialize limit =>
    obtain rfl := Option.some.inj hstep
    rcases materializeNextBatch_cases (j := j) replayer limit with ⟨e, heq⟩ | ⟨batch, j', heq, hstores⟩
    · rw [heq]
      exact h
    · rw [heq]
      exact h.stores hstores hbehind

/-! ## What the batches hold -/

/-- Every batch makes the visible rows above the last one fewer. -/
theorem Stores.length_unbatched_lt (hstores : Stores j batch j') : j'.unbatched.length < j.unbatched.length := by
  have hlatest := hstores.latestSequence
  obtain ⟨last, hlast, hlastSequence⟩ := hstores.last
  obtain ⟨limit, hentries⟩ := hstores.entries
  have hmem : last ∈ j.unbatched := mem_unbatched_of_mem_load (hentries ▸ List.mem_of_getLast? hlast)
  have hpassed : j.latestSequence < j'.latestSequence := by
    rw [hlatest, ← hlastSequence]
    exact (mem_unbatched.mp hmem).2
  have hcommitted : j'.committed = j.committed := by rw [hstores.next]
  have hfilter : j'.unbatched = j.unbatched.filter fun row ↦ j'.latestSequence < row.sequence := by
    rw [unbatched, hcommitted, unbatched, List.filter_filter]
    refine List.filter_congr fun row _ ↦ ?_
    rw [← Bool.decide_and, decide_eq_decide]
    exact ⟨fun hlt ↦ ⟨hlt, hpassed.trans hlt⟩, And.left⟩
  rw [hfilter, List.length_filter_lt_length_iff_exists]
  exact ⟨last, hmem, by simp [hlatest, hlastSequence]⟩

/-- A row is in the input of a batch. -/
def InBatch (j : Journal α) (row : JournalRow α) (i : ℕ) : Prop := ∃ batch ∈ j.batches[i]?, row ∈ batch.entries

/-- A row of increasing batches is in one of them only. -/
theorem Ordered.existsUnique_batch (h : Ordered j) (hrow : row ∈ j.batched) : ∃! i, j.InBatch row i := by
  obtain ⟨batch, hbatch, hmem⟩ := List.mem_flatMap.mp hrow
  obtain ⟨i, hi⟩ := List.mem_iff_getElem?.mp hbatch
  have hacross : j.batches.Pairwise fun b b' ↦ ∀ r ∈ b.entries, ∀ r' ∈ b'.entries,
      r.sequence < r'.sequence := (List.pairwise_flatMap.mp h.sorted).2
  -- a row in two batches would be above itself
  have hno : ∀ {i k : ℕ} {b b' : StoredBatch α}, i < k → j.batches[i]? = some b →
      j.batches[k]? = some b' → row ∈ b.entries → row ∈ b'.entries → False := by
    intro i k b b' hik hb hb' hmem hmem'
    obtain ⟨hi, rfl⟩ := List.getElem?_eq_some_iff.mp hb
    obtain ⟨hk, rfl⟩ := List.getElem?_eq_some_iff.mp hb'
    exact lt_irrefl _ (List.pairwise_iff_getElem.mp hacross i k hi hk hik row hmem row hmem')
  refine ⟨i, ⟨batch, hi, hmem⟩, ?_⟩
  rintro k ⟨batch', hk, hmem'⟩
  rcases lt_trichotomy k i with hlt | heq | hlt
  · exact (hno hlt hk hi hmem' hmem).elim
  · exact heq
  · exact (hno hlt hi hk hmem hmem').elim

/-- A call that reports no pending batch has found no visible row above the last one. -/
theorem unbatched_of_noPendingBatch {replayer : Replayer α σ} {limit : ℤ}
    (h : (j.materializeNextBatch replayer limit).2 = .error .noPendingBatch) : j.unbatched = [] := by
  have hload : j.loadJournalEntriesAfter (batchLimit limit) = [] := by
    cases hload : j.loadJournalEntriesAfter (batchLimit limit) with
    | nil => rfl
    | cons first rest =>
      simp only [materializeNextBatch, hload] at h
      split at h <;> simp at h
  have hpos : 0 < batchLimit limit := by
    rw [batchLimit]
    split_ifs <;> omega
  rw [loadJournalEntriesAfter, List.take_eq_nil_iff] at hload
  rcases hload with hzero | hnil
  · exact absurd hzero hpos.ne'
  · rw [← List.length_eq_zero_iff, List.length_insertionSort] at hnil
    exact List.length_eq_zero_iff.mp hnil

theorem materializeNextBatch_of_unbatched (replayer : Replayer α σ) (limit : ℤ) (h : j.unbatched = []) :
    j.materializeNextBatch replayer limit = (j, .error .noPendingBatch) := by
  have hload : j.loadJournalEntriesAfter (batchLimit limit) = [] := by
    rw [loadJournalEntriesAfter, h, List.insertionSort_nil, List.take_nil]
  rw [materializeNextBatch, hload]

/-- **No entry is skipped.** In a run in which no batch is made while an open transaction holds a value
below a visible one, the batches list their rows in increasing order. Every batch leaves fewer rows to
do, and when a call reports that there is nothing left, every visible row is in exactly one batch. -/
theorem no_entry_skipped (key : α → κ) (replayer : Replayer α σ) (events : List (JournalEvent α))
    (hbehind : ∀ t e t', Takes (step key replayer) start events t e t' → NoneBehind t e)
    {j : Journal α} (hj : Visits (step key replayer) start events j) :
    (j.batched.Pairwise fun a b ↦ a.sequence < b.sequence) ∧
    (∀ limit batch, (j.materializeNextBatch replayer limit).2 = .ok batch →
      (j.materializeNextBatch replayer limit).1.committed = j.committed ∧
      (j.materializeNextBatch replayer limit).1.unbatched.length < j.unbatched.length) ∧
    ∀ limit, (j.materializeNextBatch replayer limit).2 = .error .noPendingBatch →
      ∀ row ∈ j.committed, ∃! i, j.InBatch row i := by
  have h : Ordered j := visits_induction (P := Ordered) ordered_start
    (fun t e t' htake ht ↦ ht.step (hbehind t e t' htake) htake.step_eq) j hj
  refine ⟨h.sorted, fun limit batch hok ↦ ?_, fun limit hnone row hrow ↦ ?_⟩
  · rcases materializeNextBatch_cases (j := j) replayer limit with ⟨e, heq⟩ | ⟨batch', j', heq, hstores⟩
    · rw [heq] at hok
      exact absurd hok (by simp)
    · rw [heq]
      exact ⟨by rw [hstores.next], hstores.length_unbatched_lt⟩
  · have hempty := unbatched_of_noPendingBatch hnone
    refine h.existsUnique_batch (h.complete row hrow ?_)
    by_contra hlt
    exact absurd (mem_unbatched.mpr ⟨hrow, not_le.mp hlt⟩) (hempty ▸ List.not_mem_nil)

/-! ## Samples -/

section Samples

instance (j : Journal α) (event : JournalEvent α) : Decidable (NoneBehind j event) :=
  match event with
  | .materialize _ => inferInstanceAs (Decidable (∀ held ∈ j.uncommitted, ∀ row ∈ j.committed,
      row.sequence < held.2.sequence))
  | .insert _ _ | .commit _ | .rollback _ => inferInstanceAs (Decidable True)

/-- Entries that always replay. -/
private def anyEntry : Replayer String Unit := ⟨(), fun _ _ _ ↦ .ok ()⟩

/-- Two writers, of which the second commits first, and batches that wait for the first. -/
private def inOrder : List (JournalEvent String) :=
  [.insert 1 "a", .insert 2 "b", .commit 2, .commit 1, .materialize 1, .materialize 1]

/-- The same writers, and a batch in between. -/
private def tooEarly : List (JournalEvent String) :=
  [.insert 1 "a", .insert 2 "b", .commit 2, .materialize 256, .commit 1]

/-- The row of the first writer is below the batch when it becomes visible, and no call finds it. -/
theorem entry_skipped : ∃ j, exec (step id anyEntry) start tooEarly = some j ∧ j.uncommitted = [] ∧
      (∀ limit, j.materializeNextBatch anyEntry limit = (j, .error .noPendingBatch)) ∧
      ⟨1, "a"⟩ ∈ j.committed ∧ ⟨1, "a"⟩ ∉ j.batched := by
  refine ⟨⟨3, [⟨2, "b"⟩, ⟨1, "a"⟩], [], [⟨2, 2, [⟨2, "b"⟩]⟩]⟩, by decide, rfl, ?_, by decide, by decide⟩
  exact fun limit ↦ materializeNextBatch_of_unbatched anyEntry limit (by decide)

theorem no_entry_skipped_inOrder : ∃ j, exec (step id anyEntry) start inOrder = some j ∧
      (j.materializeNextBatch anyEntry 1).2 = .error .noPendingBatch ∧
      ∀ row ∈ j.committed, ∃! i, j.InBatch row i := by
  have halong : Along (step id anyEntry) NoneBehind start inOrder := by decide
  have hrun : exec (step id anyEntry) start inOrder = some ⟨3, [⟨2, "b"⟩, ⟨1, "a"⟩], [],
      [⟨1, 1, [⟨1, "a"⟩]⟩, ⟨2, 2, [⟨2, "b"⟩]⟩]⟩ := by decide
  have hall := (no_entry_skipped id anyEntry inOrder (fun t e t' ↦ halong.of_takes)
    (visits_of_exec hrun)).2.2 1 rfl
  exact ⟨_, hrun, rfl, hall⟩

end Samples

end Journal

end FunnyOption.Rollup
