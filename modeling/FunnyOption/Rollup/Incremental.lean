import FunnyOption.Rollup.Batches
import FunnyOption.Rollup.StateRoot

/-!
# Roots of batches

`MaterializeNextBatch` computes the roots of the next batch from a state that the store keeps in memory. It keeps
the state after the batch before it inserts the batch, and the insert can fail. So the state in memory may be
ahead of the stored batches. It is used only if its root is the root of the last stored batch; otherwise all
batches are replayed.

## The step

A call reads the last batch, then the journal, and maybe all batches, and inserts the new one. Each of the four
statements can fail, and the answer of the insert can get lost after the insert. What an entry does to the state
is a parameter, since the cache is right for any `apply`; so are the codecs of batch inputs. The maps of a state
hold leaves and no references, so a clone shares nothing with the state it was made from, and here a clone is
the state itself.

## The invariant

The stored batches are a chain: each one replays on the state before it and has the roots of the state after it,
by `Chain`. The root that is kept with the state in memory is its root. If it is also the root after the last
batch, the state in memory is the state after the last batch, since a root binds its state.

## Main result

* `incremental_roots`: every stored batch has the roots that a replay of all batches up to it computes.
-/

open Foundation

namespace FunnyOption.Rollup

/-! ## Replaying batches -/

/-- `StoredBatch`. -/
structure HashedBatch where
  batchID : ℤ
  firstSequence : ℕ
  lastSequence : ℕ
  entryCount : ℕ
  inputData : String
  inputHash : String
  prevStateRoot : String
  roots : RootSet
  deriving DecidableEq, Repr

/-- What batches are replayed with: the hash, the effect of an entry, `EncodeBatchInput` and
`DecodeBatchInput`. -/
structure BatchReplay (α : Type*) (codec : LeafCodec) where
  sha256 : Bytes → Bytes32
  apply : ShadowMaps codec → ℕ → α → Except String (ShadowMaps codec)
  encodeInput : List (JournalRow α) → Except String String
  decodeInput : String → Except String (List (JournalRow α))

namespace BatchReplay

variable {α : Type*} {codec : LeafCodec} (r : BatchReplay α codec)

/-- The root of a state. -/
def stateRoot (s : ShadowMaps codec) : String := (s.roots r.sha256).stateRoot

/-- The hash of a batch input. -/
def inputHash (data : String) : String := hashText r.sha256 ["shadow", "batch_input", data]

/-- The root that a batch expects. -/
def expectedPrev (batch : HashedBatch) : String :=
  if trimSpace batch.prevStateRoot = "" then zeroStateRoot r.sha256 else trimSpace batch.prevStateRoot

/-- Decode the entries of a batch and apply them. -/
def applyInput (s : ShadowMaps codec) (batch : HashedBatch) : Except String (ShadowMaps codec) :=
  match r.decodeInput batch.inputData with
  | .error e => .error e
  | .ok rows => Replayer.run ⟨.empty codec, r.apply⟩ s rows

/-- `ReplayBatchOnState`: the state after the batch, whose roots it returns. -/
def replayBatchOnState (s : ShadowMaps codec) (batch : HashedBatch) : Except String (ShadowMaps codec) :=
  if batch.inputHash ≠ "" ∧ r.inputHash batch.inputData ≠ batch.inputHash then
    .error ("rollup batch input hash mismatch for batch " ++ toString batch.batchID)
  else if r.stateRoot s ≠ r.expectedPrev batch then
    .error ("rollup batch prev_state_root mismatch: have " ++ r.stateRoot s ++ " want " ++ r.expectedPrev batch)
  else r.applyInput s batch

/-- The loop of `ReplayStoredBatches`, whose body is `ReplayBatchOnState`. -/
def replayFrom (s : ShadowMaps codec) : List HashedBatch → Except String (ShadowMaps codec)
  | [] => .ok s
  | batch :: batches =>
    match r.replayBatchOnState s batch with
    | .error e => .error e
    | .ok s => replayFrom s batches

/-- `ReplayStoredBatches`. -/
def replayStoredBatches (batches : List HashedBatch) : Except String RootSet :=
  (r.replayFrom (.empty codec) batches).map fun s ↦ s.roots r.sha256

/-- The loop of `warmCacheFromFullReplay`, which checks nothing. -/
def warmFrom (s : ShadowMaps codec) : List HashedBatch → Except String (ShadowMaps codec)
  | [] => .ok s
  | batch :: batches =>
    match r.applyInput s batch with
    | .error e => .error e
    | .ok s => warmFrom s batches

/-! ### Chains of batches -/

variable {r} {s s' : ShadowMaps codec} {batches : List HashedBatch}

theorem replayFrom_append (s : ShadowMaps codec) (batches : List HashedBatch) (batch : HashedBatch) :
    r.replayFrom s (batches ++ [batch]) =
      match r.replayFrom s batches with
      | .error e => .error e
      | .ok s => r.replayBatchOnState s batch := by
  induction batches generalizing s with
  | nil =>
    simp only [List.nil_append, replayFrom]
    cases r.replayBatchOnState s batch with
    | error e => rfl
    | ok s => rfl
  | cons first batches ih =>
    rw [List.cons_append, replayFrom, replayFrom]
    cases r.replayBatchOnState s first with
    | error e => rfl
    | ok s => exact ih s

theorem applyInput_of_replayBatchOnState {batch : HashedBatch} (h : r.replayBatchOnState s batch = .ok s') :
    r.applyInput s batch = .ok s' := by
  rw [replayBatchOnState] at h
  split_ifs at h
  exact h

/-- The loop without the checks gets as far as the one with them. -/
theorem warmFrom_of_replayFrom (h : r.replayFrom s batches = .ok s') : r.warmFrom s batches = .ok s' := by
  induction batches generalizing s with
  | nil => exact h
  | cons batch batches ih =>
    rw [replayFrom] at h
    cases hbatch : r.replayBatchOnState s batch with
    | error e =>
      rw [hbatch] at h
      cases h
    | ok s₁ =>
      rw [hbatch] at h
      rw [warmFrom, applyInput_of_replayBatchOnState hbatch]
      exact ih h

/-- A replay that succeeds does not read ids, sequence numbers and roots of a batch. -/
theorem replayBatchOnState_congr (batch batch' : HashedBatch) (hdata : batch'.inputData = batch.inputData)
    (hhash : batch'.inputHash = batch.inputHash) (hprev : batch'.prevStateRoot = batch.prevStateRoot)
    (h : r.replayBatchOnState s batch = .ok s') : r.replayBatchOnState s batch' = .ok s' := by
  rw [replayBatchOnState] at h ⊢
  split_ifs at h with hmismatch hroot
  rw [if_neg (by rwa [hdata, hhash]), expectedPrev, hprev, ← expectedPrev, if_neg hroot, applyInput, hdata]
  exact h

variable (r) in
/-- Stored batches with the state after them. Each one replays on the state before it, starts from its root and
has the roots of the state after it. -/
inductive Chain : List HashedBatch → ShadowMaps codec → Prop
  | nil : Chain [] (.empty codec)
  | snoc {batches : List HashedBatch} {s s' : ShadowMaps codec} {batch : HashedBatch} (hchain : Chain batches s)
      (hreplay : r.replayBatchOnState s batch = .ok s') (hprev : batch.prevStateRoot = r.stateRoot s)
      (hroots : batch.roots = s'.roots r.sha256) : Chain (batches ++ [batch]) s'

theorem Chain.replayFrom (h : Chain r batches s) : r.replayFrom (.empty codec) batches = .ok s := by
  induction h with
  | nil => rfl
  | snoc hchain hreplay hprev hroots ih =>
    rw [replayFrom_append, ih]
    exact hreplay

/-- The root after the last batch is the root of the state. -/
theorem Chain.stateRoot (h : Chain r batches s) :
    (batches.getLast?.map fun batch ↦ batch.roots.stateRoot).getD (zeroStateRoot r.sha256) = r.stateRoot s := by
  cases h with
  | nil => exact (stateRoot_empty r.sha256 codec).symm
  | snoc hchain hreplay hprev hroots =>
    rw [List.getLast?_concat, Option.map_some, Option.getD_some, hroots]
    rfl

/-- **A chain has the roots of a full replay at every batch.** -/
theorem Chain.get (h : Chain r batches s) {i : ℕ} {batch : HashedBatch} (hbatch : batches[i]? = some batch) :
    r.replayStoredBatches (batches.take (i + 1)) = .ok batch.roots ∧
      batch.prevStateRoot = ((batches.take i).getLast?.map fun batch ↦ batch.roots.stateRoot).getD
        (zeroStateRoot r.sha256) := by
  induction h with
  | nil => cases hbatch
  | @snoc batches s s' last hchain hreplay hprev hroots ih =>
    by_cases hi : i < batches.length
    · rw [List.getElem?_append_left hi] at hbatch
      rw [List.take_append_of_le_length hi, List.take_append_of_le_length hi.le]
      exact ih hbatch
    · obtain ⟨hlength, -⟩ := List.getElem?_eq_some_iff.mp hbatch
      rw [List.length_append, List.length_singleton] at hlength
      obtain rfl : i = batches.length := by omega
      rw [List.getElem?_concat_length] at hbatch
      obtain rfl := Option.some.inj hbatch
      have hall : (batches ++ [last]).take (batches.length + 1) = batches ++ [last] :=
        List.take_of_length_le (by simp)
      rw [hall, List.take_left, hprev, hchain.stateRoot, replayStoredBatches,
        (hchain.snoc hreplay hprev hroots).replayFrom, hroots]
      exact ⟨rfl, rfl⟩

end BatchReplay

/-! ## The store -/

/-- The tables of the journal and of the batches, and what the store keeps in memory. -/
structure RollupStore (α : Type*) (codec : LeafCodec) where
  journal : List (JournalRow α)
  batches : List HashedBatch
  /-- `cachedState` and `cachedStateRoot`. -/
  cache : Option (ShadowMaps codec × String)

/-- The statement of a call that fails. -/
inductive Fault where
  | latestBatch
  | loadEntries
  | listBatches
  | insert
  /-- The batch is inserted, and the answer is lost. -/
  | answer
  deriving DecidableEq, Repr

/-- Why a call returns no batch. -/
inductive StoreError where
  | database
  | noPendingBatch
  | input (text : String)
  | replay (text : String)
  deriving DecidableEq, Repr

/-- What happens to the tables and to the store. -/
inductive RollupEvent (α : Type*) where
  /-- Rows of the journal become visible. -/
  | append (rows : List (JournalRow α))
  /-- A call, with the id that the database has for the batch. -/
  | materialize (limit batchID : ℤ) (fault : Option Fault)
  /-- The process starts again over the tables. -/
  | restart

namespace RollupStore

variable {α : Type*} {codec : LeafCodec} (r : BatchReplay α codec) (t : RollupStore α codec)

/-- No batch is stored. -/
def start : RollupStore α codec := ⟨[], [], none⟩

/-- `LastSequence` of `latestBatch`. -/
def latestSequence : ℕ := (t.batches.getLast?.map HashedBatch.lastSequence).getD 0

/-- `loadJournalEntriesAfter`. -/
def loadJournalEntriesAfter (limit : ℕ) : List (JournalRow α) :=
  ((t.journal.filter fun row ↦ t.latestSequence < row.sequence).insertionSort
    fun a b ↦ a.sequence ≤ b.sequence).take limit

/-- The root that the next batch starts from. -/
def prevStateRoot : String := (t.batches.getLast?.map fun batch ↦ batch.roots.stateRoot).getD (zeroStateRoot r.sha256)

/-- The batch whose roots are not known yet. -/
def newBatch (data : String) : HashedBatch :=
  ⟨0, 0, 0, 0, data, r.inputHash data, t.prevStateRoot r, ⟨"", "", "", "", ""⟩⟩

/-- The roots of the new batch from all batches, and the state that is kept. -/
def replayAll (new : HashedBatch) (fault : Option Fault) :
    Except StoreError (RootSet × Option (ShadowMaps codec × String)) :=
  if fault = some .listBatches then .error .database
  else
    match r.replayFrom (.empty codec) (t.batches ++ [new]) with
    | .error e => .error (.replay e)
    | .ok s =>
      .ok (s.roots r.sha256,
        match r.warmFrom (.empty codec) (t.batches ++ [new]) with
        | .error _ => t.cache
        | .ok warm => some (warm, r.stateRoot s))

/-- The roots of the new batch, and the state that is kept. -/
def nextRoots (new : HashedBatch) (fault : Option Fault) :
    Except StoreError (RootSet × Option (ShadowMaps codec × String)) :=
  match t.cache with
  | none => t.replayAll r new fault
  | some (cached, root) =>
    if root = new.prevStateRoot then
      match r.replayBatchOnState cached new with
      | .error e => .error (.replay e)
      | .ok s => .ok (s.roots r.sha256, some (s, r.stateRoot s))
    else t.replayAll r new fault

/-- `MaterializeNextBatch`. -/
def materializeNextBatch (limit batchID : ℤ) (fault : Option Fault) :
    RollupStore α codec × Except StoreError HashedBatch :=
  if fault = some .latestBatch ∨ fault = some .loadEntries then (t, .error .database)
  else
    match t.loadJournalEntriesAfter (Journal.batchLimit limit) with
    | [] => (t, .error .noPendingBatch)
    | first :: rest =>
      match r.encodeInput (first :: rest) with
      | .error e => (t, .error (.input e))
      | .ok data =>
        match t.nextRoots r (t.newBatch r data) fault with
        | .error e => (t, .error e)
        | .ok (roots, cache) =>
          let batch : HashedBatch := ⟨batchID, first.sequence, (rest.getLast?.getD first).sequence,
            rest.length + 1, data, r.inputHash data, t.prevStateRoot r, roots⟩
          if fault = some .insert then ({ t with cache }, .error .database)
          else if fault = some .answer then
            ({ t with cache, batches := t.batches ++ [batch] }, .error .database)
          else ({ t with cache, batches := t.batches ++ [batch] }, .ok batch)

/-- One event. -/
def step (t : RollupStore α codec) : RollupEvent α → Option (RollupStore α codec)
  | .append rows => some { t with journal := t.journal ++ rows }
  | .materialize limit batchID fault => some (t.materializeNextBatch r limit batchID fault).1
  | .restart => some { t with cache := none }

/-! ## What a call does -/

variable {r} {t}

/-- A batch on top of the stored ones. -/
structure Extends (r : BatchReplay α codec) (t : RollupStore α codec) (data : String) (roots : RootSet)
    (s s' : ShadowMaps codec) : Prop where
  replays : r.replayBatchOnState s (t.newBatch r data) = .ok s'
  roots : roots = s'.roots r.sha256

/-- The invariant. -/
structure Sound (r : BatchReplay α codec) (t : RollupStore α codec) : Prop where
  chain : ∃ s, BatchReplay.Chain r t.batches s
  cached : ∀ s root, t.cache = some (s, root) → root = r.stateRoot s

/-- The messages for the state in memory and for the state after the stored batches do not collide. -/
def CollisionFree (r : BatchReplay α codec) (t : RollupStore α codec) : Prop :=
  ∀ cached root s, t.cache = some (cached, root) → r.replayFrom (.empty codec) t.batches = .ok s →
    Set.InjOn r.sha256 {message | message ∈ cached.messages r.sha256 ∨ message ∈ s.messages r.sha256}

/-- **The state in memory is used only when it is the state after the stored batches.** -/
theorem eq_of_cached (hcodec : codec.Faithful) (hfree : CollisionFree r t) (h : Sound r t)
    {s cached : ShadowMaps codec} {root : String} (hchain : BatchReplay.Chain r t.batches s)
    (hcache : t.cache = some (cached, root)) (hroot : root = t.prevStateRoot r) : cached = s := by
  have hsame : r.stateRoot cached = r.stateRoot s := by
    rw [← h.cached cached root hcache, hroot, prevStateRoot, hchain.stateRoot]
  exact ShadowMaps.eq_of_stateRoot (hfree cached root s hcache hchain.replayFrom) hcodec
    (fun _ hmessage ↦ .inl hmessage) (fun _ hmessage ↦ .inr hmessage) hsame

/-- A state in memory with another root is not used. -/
theorem nextRoots_of_ne {cached : ShadowMaps codec} {root : String} (hcache : t.cache = some (cached, root))
    {new : HashedBatch} (hne : root ≠ new.prevStateRoot) (fault : Option Fault) :
    t.nextRoots r new fault = t.replayAll r new fault := by
  rw [nextRoots, hcache]
  exact if_neg hne

variable {s : ShadowMaps codec}

/-- The next batch passes the checks on the state after the stored ones. -/
theorem replayBatchOnState_newBatch (hchain : BatchReplay.Chain r t.batches s) (data : String) :
    r.replayBatchOnState s (t.newBatch r data) = r.applyInput s (t.newBatch r data) := by
  have hprev : t.prevStateRoot r = r.stateRoot s := hchain.stateRoot
  have hexpected : r.expectedPrev (t.newBatch r data) = r.stateRoot s := by
    rw [BatchReplay.expectedPrev, newBatch, hprev, BatchReplay.stateRoot, ShadowMaps.roots, trimSpace_hashText,
      if_neg (hashText_ne_empty r.sha256 _)]
  rw [BatchReplay.replayBatchOnState, if_neg fun hmismatch ↦ hmismatch.2 rfl, hexpected, if_neg fun hne ↦ hne rfl]

variable {fault : Option Fault} {cache : Option (ShadowMaps codec × String)}

/-- The roots from all batches. -/
theorem extends_replayAll (hchain : BatchReplay.Chain r t.batches s) {data : String} {roots : RootSet}
    (h : t.replayAll r (t.newBatch r data) fault = .ok (roots, cache)) :
    ∃ s', Extends r t data roots s s' ∧ cache = some (s', r.stateRoot s') := by
  rw [replayAll] at h
  split_ifs at h
  cases hreplay : r.replayFrom (.empty codec) (t.batches ++ [t.newBatch r data]) with
  | error e =>
    rw [hreplay] at h
    cases h
  | ok s' =>
    rw [hreplay, BatchReplay.warmFrom_of_replayFrom hreplay] at h
    obtain ⟨rfl, rfl⟩ := Prod.mk.inj (Except.ok.inj h)
    rw [BatchReplay.replayFrom_append, hchain.replayFrom] at hreplay
    exact ⟨s', ⟨hreplay, rfl⟩, rfl⟩

/-- **The roots of the new batch are those of the state after it**, and this is the state that is kept. -/
theorem extends_nextRoots (hcodec : codec.Faithful) (hfree : CollisionFree r t) (hsound : Sound r t)
    (hchain : BatchReplay.Chain r t.batches s) {data : String} {roots : RootSet}
    (h : t.nextRoots r (t.newBatch r data) fault = .ok (roots, cache)) :
    ∃ s', Extends r t data roots s s' ∧ cache = some (s', r.stateRoot s') := by
  cases hcache : t.cache with
  | none =>
    rw [nextRoots, hcache] at h
    exact extends_replayAll hchain h
  | some kept =>
    obtain ⟨cached, root⟩ := kept
    by_cases hroot : root = (t.newBatch r data).prevStateRoot
    · rw [nextRoots, hcache] at h
      dsimp only at h
      rw [if_pos hroot] at h
      obtain rfl := eq_of_cached hcodec hfree hsound hchain hcache hroot
      cases hreplay : r.replayBatchOnState cached (t.newBatch r data) with
      | error e =>
        rw [hreplay] at h
        cases h
      | ok s' =>
        rw [hreplay] at h
        obtain ⟨rfl, rfl⟩ := Prod.mk.inj (Except.ok.inj h)
        exact ⟨s', ⟨hreplay, rfl⟩, rfl⟩
    · rw [nextRoots_of_ne hcache hroot] at h
      exact extends_replayAll hchain h

/-- What a call does: nothing, or it keeps a state and may store a batch. -/
theorem materializeNextBatch_cases (r : BatchReplay α codec) (t : RollupStore α codec) (limit batchID : ℤ)
    (fault : Option Fault) :
    (t.materializeNextBatch r limit batchID fault).1 = t ∨
    ∃ batch cache, t.nextRoots r (t.newBatch r batch.inputData) fault = .ok (batch.roots, cache) ∧
      batch.inputHash = r.inputHash batch.inputData ∧ batch.prevStateRoot = t.prevStateRoot r ∧
      ((t.materializeNextBatch r limit batchID fault).1 = { t with cache } ∨
        (t.materializeNextBatch r limit batchID fault).1 = { t with cache, batches := t.batches ++ [batch] }) := by
  rw [materializeNextBatch]
  split
  · exact .inl rfl
  split
  · exact .inl rfl
  next first rest hload =>
    split
    · exact .inl rfl
    next data hdata =>
      split
      · exact .inl rfl
      next roots cache hnext =>
        refine .inr ⟨⟨batchID, first.sequence, (rest.getLast?.getD first).sequence, rest.length + 1, data,
          r.inputHash data, t.prevStateRoot r, roots⟩, cache, hnext, rfl, rfl, ?_⟩
        dsimp only
        split_ifs
        · exact .inl rfl
        · exact .inr rfl
        · exact .inr rfl

theorem sound_materializeNextBatch (hcodec : codec.Faithful) (hfree : CollisionFree r t) (hsound : Sound r t)
    (limit batchID : ℤ) (fault : Option Fault) : Sound r (t.materializeNextBatch r limit batchID fault).1 := by
  rcases materializeNextBatch_cases r t limit batchID fault with hsame | ⟨batch, cache, hnext, hhash, hprev, hstore⟩
  · rw [hsame]
    exact hsound
  obtain ⟨s, hchain⟩ := hsound.chain
  obtain ⟨s', hextends, rfl⟩ := extends_nextRoots hcodec hfree hsound hchain hnext
  have hkept : ∀ kept root, some (s', r.stateRoot s') = some (kept, root) → root = r.stateRoot kept := by
    intro kept root heq
    obtain ⟨rfl, rfl⟩ := Prod.mk.inj (Option.some.inj heq)
    rfl
  rcases hstore with hstore | hstore
  · -- the insert failed, and the state in memory is ahead of the batches
    rw [hstore]
    exact ⟨⟨s, hchain⟩, hkept⟩
  · have hreplay := BatchReplay.replayBatchOnState_congr (t.newBatch r batch.inputData) batch rfl hhash hprev
      hextends.replays
    rw [hstore]
    exact ⟨⟨s', hchain.snoc hreplay (hprev.trans hchain.stateRoot) hextends.roots⟩, hkept⟩

/-- **One event keeps the invariant.** -/
theorem Sound.step (hcodec : codec.Faithful) (hfree : CollisionFree r t) (hsound : Sound r t) {event : RollupEvent α}
    {t' : RollupStore α codec} (hstep : t.step r event = some t') : Sound r t' := by
  cases event with
  | append rows =>
    obtain rfl := Option.some.inj hstep
    exact ⟨hsound.chain, hsound.cached⟩
  | materialize limit batchID fault =>
    obtain rfl := Option.some.inj hstep
    exact sound_materializeNextBatch hcodec hfree hsound limit batchID fault
  | restart =>
    obtain rfl := Option.some.inj hstep
    exact ⟨hsound.chain, fun _ _ hcache ↦ nomatch hcache⟩

/-! ## Main result -/

/-- **Incremental roots are those of a full replay.** Whatever fails in between, every stored batch has the roots
that `ReplayStoredBatches` computes for all batches up to it, and it starts from the root of the batch before
it. -/
theorem incremental_roots (r : BatchReplay α codec) (hcodec : codec.Faithful) (events : List (RollupEvent α))
    (hfree : ∀ t event t', Takes (step r) start events t event t' → CollisionFree r t) {t : RollupStore α codec}
    (ht : Visits (step r) start events t) {i : ℕ} {batch : HashedBatch} (hbatch : t.batches[i]? = some batch) :
    r.replayStoredBatches (t.batches.take (i + 1)) = .ok batch.roots ∧
      batch.prevStateRoot = ((t.batches.take i).getLast?.map fun batch ↦ batch.roots.stateRoot).getD
        (zeroStateRoot r.sha256) := by
  have hstart : Sound r (start : RollupStore α codec) := ⟨⟨_, .nil⟩, fun _ _ hcache ↦ nomatch hcache⟩
  have hsound : Sound r t := visits_induction (P := Sound r) hstart
    (fun u event u' htake hu ↦ hu.step hcodec (hfree u event u' htake) htake.step_eq) t ht
  obtain ⟨s, hchain⟩ := hsound.chain
  exact hchain.get hbatch

/-! ### A sample -/

/-- Entries that all leave the same state. -/
private def sampleReplay : BatchReplay Unit sampleCodec where
  sha256 := sampleHash
  apply _ _ _ := .ok deposited
  encodeInput _ := .ok "1"
  decodeInput _ := .ok [⟨1, ()⟩]

/-- The first insert fails, and the second call replays all batches. -/
private def lostInsert : List (RollupEvent Unit) :=
  [.append [⟨1, ()⟩], .materialize 0 1 (some .insert), .materialize 0 1 none]

/-- The batch of the one entry. -/
private def sampleBatch : HashedBatch :=
  ⟨1, 1, 1, 1, "1", sampleReplay.inputHash "1", zeroStateRoot sampleHash, deposited.roots sampleHash⟩

/-- The state after the entry is kept. -/
private def keptState : Option (ShadowMaps sampleCodec × String) := some (deposited, sampleReplay.stateRoot deposited)

variable {cache : Option (ShadowMaps sampleCodec × String)}

private theorem nextRoots_sample (hcache : cache = none ∨ cache = keptState) (hfault : fault ≠ some .listBatches) :
    nextRoots sampleReplay ⟨[⟨1, ()⟩], [], cache⟩ (newBatch sampleReplay ⟨[⟨1, ()⟩], [], cache⟩ "1") fault =
      .ok (deposited.roots sampleHash, keptState) := by
  have hreplay : sampleReplay.replayBatchOnState (.empty sampleCodec)
      (newBatch sampleReplay ⟨[⟨1, ()⟩], [], cache⟩ "1") = .ok deposited :=
    replayBatchOnState_newBatch .nil "1"
  have hall : replayAll sampleReplay ⟨[⟨1, ()⟩], [], cache⟩
      (newBatch sampleReplay ⟨[⟨1, ()⟩], [], cache⟩ "1") fault = .ok (deposited.roots sampleHash, keptState) := by
    have hfrom : sampleReplay.replayFrom (.empty sampleCodec)
        ([] ++ [newBatch sampleReplay ⟨[⟨1, ()⟩], [], cache⟩ "1"]) = .ok deposited := by
      rw [BatchReplay.replayFrom_append]
      exact hreplay
    rw [replayAll, if_neg hfault, hfrom, BatchReplay.warmFrom_of_replayFrom hfrom]
    rfl
  rcases hcache with rfl | rfl
  · exact hall
  · have hne : sampleReplay.stateRoot deposited ≠ zeroStateRoot sampleHash := by
      intro hroot
      rw [← stateRoot_empty sampleHash sampleCodec] at hroot
      have heq := ShadowMaps.eq_of_stateRoot sampleHash_free sampleCodec_faithful (fun _ hm ↦ .inl hm)
        (fun _ hm ↦ .inr hm) hroot
      exact absurd (congrArg (fun s ↦ s.balances.rows.length) heq) (by decide)
    have hprev : (newBatch sampleReplay ⟨[⟨1, ()⟩], [], keptState⟩ "1").prevStateRoot =
        zeroStateRoot sampleHash := rfl
    have hkept : (⟨[⟨1, ()⟩], [], keptState⟩ : RollupStore Unit sampleCodec).cache =
        some (deposited, sampleReplay.stateRoot deposited) := rfl
    rw [← hprev] at hne
    rw [nextRoots_of_ne hkept hne]
    exact hall

/-- The call that fails at the insert, and the one that does not. -/
private theorem materialize_sample (hcache : cache = none ∨ cache = keptState) :
    (materializeNextBatch sampleReplay ⟨[⟨1, ()⟩], [], cache⟩ 0 1 (some .insert)).1 = ⟨[⟨1, ()⟩], [], keptState⟩ ∧
      (materializeNextBatch sampleReplay ⟨[⟨1, ()⟩], [], cache⟩ 0 1 none).1 =
        ⟨[⟨1, ()⟩], [sampleBatch], keptState⟩ := by
  have hload : loadJournalEntriesAfter (⟨[⟨1, ()⟩], [], cache⟩ : RollupStore Unit sampleCodec)
      (Journal.batchLimit 0) = [⟨1, ()⟩] := rfl
  have hinput : sampleReplay.encodeInput [⟨1, ()⟩] = .ok "1" := rfl
  constructor
  · have hnext := nextRoots_sample hcache (by decide : some Fault.insert ≠ some .listBatches)
    simp only [materializeNextBatch, hload, hinput, hnext, reduceCtorEq, or_self, if_false, if_true,
      Option.some.injEq]
  · have hnext := nextRoots_sample hcache (by decide : (none : Option Fault) ≠ some .listBatches)
    simp only [materializeNextBatch, hload, hinput, hnext, reduceCtorEq, or_self, if_false]
    rfl

/-- **After an insert that failed**, the state in memory is ahead, and the batch that is stored has the roots of a
full replay. -/
theorem incremental_roots_lostInsert :
    ∃ t batch, Visits (step sampleReplay) start lostInsert t ∧ t.batches[0]? = some batch ∧
      sampleReplay.replayStoredBatches (t.batches.take 1) = .ok batch.roots ∧
      batch.prevStateRoot = zeroStateRoot sampleHash := by
  have hcall := materialize_sample (.inl rfl)
  have hagain := materialize_sample (.inr rfl)
  have hrun : exec (step sampleReplay) start lostInsert = some ⟨[⟨1, ()⟩], [sampleBatch], keptState⟩ := by
    simp only [lostInsert, exec_cons, step, start, List.nil_append, Option.bind_some, hcall.1, hagain.2, exec_nil]
  have hfree : Along (step sampleReplay) (fun t _ ↦ CollisionFree sampleReplay t) start lostInsert := by
    refine ⟨fun _ _ _ hcache ↦ (nomatch hcache), fun t ht ↦ ?_⟩
    obtain rfl := Option.some.inj ht
    refine ⟨fun _ _ _ hcache ↦ (nomatch hcache), fun t ht ↦ ?_⟩
    obtain rfl := (Option.some.inj ht).symm.trans hcall.1
    refine ⟨fun cached root s hcache hreplay ↦ ?_, fun t ht ↦ trivial⟩
    obtain ⟨rfl, -⟩ := Prod.mk.inj (Option.some.inj hcache)
    obtain rfl := Except.ok.inj hreplay
    exact sampleHash_free
  have hroots := incremental_roots sampleReplay sampleCodec_faithful lostInsert
    (fun t event t' htake ↦ hfree.of_takes htake) (visits_of_exec hrun) (i := 0) rfl
  exact ⟨_, sampleBatch, visits_of_exec hrun, rfl, hroots.1, hroots.2⟩

end RollupStore

end FunnyOption.Rollup
