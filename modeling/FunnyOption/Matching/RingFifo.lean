import FunnyOption.Foundation.Ring
import FunnyOption.Matching.RingBuffer

/-!
# The ring is a queue

The ring buffer on its own, for one goroutine that calls `TryPublish` and one that calls `DrainTo`, with the
capacity that `New` computes and cursors that start anywhere. Every load and store of a cursor and every
access to a slot is a step, and the steps of the two goroutines interleave.

Two things are added to the state. `stamps` tells for each slot the number of the item that was last written
to it, so that a read too early or too late shows even if the items are equal. `accepted` and `drained` are
what the two goroutines were told.

`DrainTo` compares the number of items with `maxItems`, which may be negative: then it copies nothing and
moves the read cursor back.

## Main results

* `capacity_eq_two_pow`: whatever capacity is asked for, the ring has a power of two of slots, at most `2 ^ 62`.
* `ring_fifo`: as long as `maxItems` is not negative, the ring is a queue.
* `drained_before_written`: a negative `maxItems` makes the consumer read slots that were never written.
-/

open Foundation

namespace FunnyOption.Matching

/-! ## The capacity -/

/-- Where the consumer is in `DrainTo`. -/
inductive DrainToPhase (α : Type*) where
  | idle
  /-- It has loaded the read cursor. -/
  | loaded (len : ℕ) (maxItems : ℤ) (r : ℕ)
  /-- It has loaded the write cursor, and copies `n` slots. -/
  | copying (r : ℕ) (n : ℤ) (copied : List α)

/-- The ring, its two users, and what they were told. -/
structure Ring (α : Type*) where
  write : ℕ
  read : ℕ
  slots : ℕ → α
  stamps : ℕ → Option ℕ
  producer : PublishPhase α
  consumer : DrainToPhase α
  /-- The items for which `TryPublish` returned true. -/
  accepted : List α
  /-- The items that `DrainTo` returned. -/
  drained : List α

/-- What happens to the ring. -/
inductive RingAction (α : Type*) where
  /-- The producer calls `TryPublish` and loads the write cursor. -/
  | tryPublish (item : α)
  /-- The producer goes on. -/
  | produce
  /-- The consumer calls `DrainTo` with room for `len` items and loads the read cursor. -/
  | drainTo (len : ℕ) (maxItems : ℤ)
  /-- The consumer goes on. -/
  | consume

namespace Ring

variable {α : Type*}

/-- A ring whose cursors are at `start`. Its slots have the zero value. -/
def new [Inhabited α] (start : ℕ) : Ring α :=
  ⟨start % wordSize, start % wordSize, fun _ ↦ default, fun _ ↦ none, .idle, .idle, [], []⟩

variable (cap : ℕ) (s : Ring α)

/-- The next step of `TryPublish`. The `mask` is `cap - 1`. -/
def produce : Option (Ring α) :=
  match s.producer with
  | .idle => none
  | .loaded item w =>
    if sub64 w s.read > cap - 1 then some { s with producer := .idle }
    else some { s with producer := .checked item w }
  | .checked item w =>
    some { s with
      producer := .written item w
      slots := Function.update s.slots (w &&& (cap - 1)) item
      stamps := Function.update s.stamps (w &&& (cap - 1)) (some s.accepted.length) }
  | .written item w =>
    some { s with producer := .idle, write := (w + 1) % wordSize, accepted := s.accepted ++ [item] }

/-- The slot that the consumer reads next. -/
def readSlot (r : ℕ) (copied : List α) : ℕ := (r + copied.length) % wordSize &&& (cap - 1)

/-- The next step of `DrainTo`. -/
def consume : Option (Ring α) :=
  match s.consumer with
  | .idle => none
  | .loaded len maxItems r =>
    let avail := toInt64 (sub64 s.write r)
    if avail = 0 then some { s with consumer := .idle }
    else some { s with consumer := .copying r (min (min avail maxItems) len) [] }
  | .copying r n copied =>
    if copied.length < n then
      some { s with consumer := .copying r n (copied ++ [s.slots (readSlot cap r copied)]) }
    else
      some { s with
        read := ((r + n) % wordSize).toNat
        consumer := .idle
        drained := s.drained ++ copied }

/-- One step. -/
def step (s : Ring α) : RingAction α → Option (Ring α)
  | .tryPublish item =>
    match s.producer with
    | .idle => some { s with producer := .loaded item s.write }
    | _ => none
  | .produce => s.produce cap
  | .drainTo len maxItems =>
    match s.consumer with
    | .idle => some { s with consumer := .loaded len maxItems s.read }
    | _ => none
  | .consume => s.consume cap

/-- What the consumer has copied in the call it is in. -/
def copied : List α :=
  match s.consumer with
  | .copying _ _ copied => copied
  | _ => []

/-- `DrainTo` is not called with a negative `maxItems`. -/
def NonnegativeMax : RingAction α → Prop
  | .drainTo _ maxItems => 0 ≤ maxItems
  | _ => True

/-! ## The invariant -/

/-- What the producer knows while it publishes. -/
def Publishes (start : ℕ) (s : Ring α) : PublishPhase α → Prop
  | .idle => True
  | .loaded _ w => w = s.write
  | .checked _ w => w = s.write ∧ s.accepted.length < s.drained.length + cap
  | .written item w => w = s.write ∧ s.accepted.length < s.drained.length + cap ∧
      s.slots ((start + s.accepted.length) % cap) = item ∧
      s.stamps ((start + s.accepted.length) % cap) = some s.accepted.length

/-- What the consumer knows while it drains. -/
def Drains (s : Ring α) : DrainToPhase α → Prop
  | .idle => True
  | .loaded _ maxItems r => r = s.read ∧ 0 ≤ maxItems
  | .copying r n copied => r = s.read ∧ 0 ≤ n ∧ s.drained.length + n ≤ s.accepted.length ∧
      copied.length ≤ n ∧ copied = (s.accepted.drop s.drained.length).take copied.length

/-- **The invariant.** The cursors are the lengths of what was accepted and drained, and the slots between them
hold what was accepted and not drained. -/
structure Queued (start : ℕ) (s : Ring α) : Prop where
  write : s.write = (start + s.accepted.length) % wordSize
  read : s.read = (start + s.drained.length) % wordSize
  inOrder : s.drained <+: s.accepted
  fits : s.accepted.length ≤ s.drained.length + cap
  slots : Holds cap start s.slots s.accepted s.drained.length
  stamps : Holds cap start s.stamps ((List.range s.accepted.length).map some) s.drained.length
  publishing : s.Publishes cap start s.producer
  draining : s.Drains s.consumer

theorem Queued.new [Inhabited α] (start : ℕ) : Queued cap start (.new start : Ring α) where
  write := rfl
  read := rfl
  inOrder := List.prefix_rfl
  fits := Nat.zero_le _
  slots i _ hi := absurd hi (Nat.not_lt_zero i)
  stamps i _ hi := absurd hi (Nat.not_lt_zero i)
  publishing := trivial
  draining := trivial

variable {cap} {s} {s' : Ring α} {start k : ℕ}

/-! ### Cursors -/

theorem sub64_cursors {a b : ℕ} (hk : k ≤ 62) (hle : b ≤ a) (hfits : a ≤ b + 2 ^ k) :
    sub64 ((start + a) % wordSize) ((start + b) % wordSize) = a - b := by
  have hhalf : 2 ^ k ≤ 2 ^ 62 := Nat.pow_le_pow_right two_pos hk
  simp only [sub64, wordSize]
  omega

theorem mod_wordSize_mod_two_pow (hk : k ≤ 62) (i : ℕ) : i % wordSize % 2 ^ k = i % 2 ^ k := by
  have hdvd : 2 ^ k ∣ wordSize := pow_dvd_pow 2 (hk.trans (by decide) : k ≤ 64)
  exact Nat.mod_mod_of_dvd i hdvd

theorem Queued.distance (h : Queued (2 ^ k) start s) (hk : k ≤ 62) :
    sub64 s.write s.read = s.accepted.length - s.drained.length := by
  rw [h.write, h.read, sub64_cursors hk h.inOrder.length_le h.fits]

theorem Queued.avail (h : Queued (2 ^ k) start s) (hk : k ≤ 62) :
    toInt64 (sub64 s.write s.read) = (s.accepted.length - s.drained.length : ℕ) := by
  have hhalf : 2 ^ k ≤ 2 ^ 62 := Nat.pow_le_pow_right two_pos hk
  have hfits := h.fits
  rw [h.distance hk, toInt64, if_pos]
  simp only [wordSize]
  omega

/-- The slot that the producer writes. -/
theorem Queued.writeSlot (h : Queued (2 ^ k) start s) (hk : k ≤ 62) :
    s.write &&& (2 ^ k - 1) = (start + s.accepted.length) % 2 ^ k := by
  rw [Nat.and_two_pow_sub_one_eq_mod, h.write, mod_wordSize_mod_two_pow hk]

theorem Queued.readSlot_eq (h : Queued (2 ^ k) start s) (hk : k ≤ 62) (copied : List α) :
    readSlot (2 ^ k) s.read copied = (start + (s.drained.length + copied.length)) % 2 ^ k := by
  rw [readSlot, Nat.and_two_pow_sub_one_eq_mod, h.read, Nat.mod_add_mod, mod_wordSize_mod_two_pow hk, add_assoc]

/-! ### The producer -/

/-- **A step of `TryPublish` keeps the invariant.** -/
theorem Queued.produce (h : Queued (2 ^ k) start s) (hk : k ≤ 62) (hstep : s.produce (2 ^ k) = some s') :
    Queued (2 ^ k) start s' := by
  have hpublishing := h.publishing
  rw [Ring.produce] at hstep
  cases hphase : s.producer with
  | idle =>
    rw [hphase] at hstep
    cases hstep
  | loaded item w =>
    rw [hphase] at hstep hpublishing
    obtain rfl : w = s.write := hpublishing
    dsimp only at hstep
    rw [h.distance hk] at hstep
    split_ifs at hstep with hfull
    · cases hstep
      exact { h with publishing := trivial }
    · cases hstep
      have hroom : s.accepted.length < s.drained.length + 2 ^ k := by
        have hpos : 1 ≤ 2 ^ k := Nat.one_le_two_pow
        omega
      exact { h with publishing := ⟨rfl, hroom⟩ }
  | checked item w =>
    rw [hphase] at hstep hpublishing
    obtain ⟨rfl, hroom⟩ := hpublishing
    dsimp only at hstep
    rw [h.writeSlot hk] at hstep
    cases hstep
    have hstamps := h.stamps.write (by simpa using hroom) (some s.accepted.length)
    rw [List.length_map, List.length_range] at hstamps
    exact { h with
      slots := h.slots.write hroom item
      stamps := hstamps
      publishing := ⟨rfl, hroom, Function.update_self .., Function.update_self ..⟩ }
  | written item w =>
    rw [hphase] at hstep hpublishing
    obtain ⟨rfl, hroom, hslot, hstamp⟩ := hpublishing
    cases hstep
    have hlength : (s.accepted ++ [item]).length = s.accepted.length + 1 := List.length_append
    refine ⟨?_, h.read, h.inOrder.trans (List.prefix_append _ _), ?_, h.slots.push hslot, ?_, trivial, ?_⟩
    · change (s.write + 1) % wordSize = _
      rw [hlength, h.write, Nat.mod_add_mod, add_assoc]
    · rw [hlength]
      exact hroom
    · rw [hlength, List.range_succ, List.map_append]
      exact h.stamps.push (by rw [List.length_map, List.length_range]; exact hstamp)
    · change Drains _ s.consumer
      have hdraining := h.draining
      cases hconsumer : s.consumer with
      | idle => trivial
      | loaded len maxItems r =>
        rw [hconsumer] at hdraining
        exact hdraining
      | copying r n copied =>
        rw [hconsumer] at hdraining
        obtain ⟨hr, hn, hfits, hcopied, heq⟩ := hdraining
        refine ⟨hr, hn, ?_, hcopied, ?_⟩
        · change (s.drained.length : ℤ) + n ≤ (s.accepted ++ [item]).length
          rw [hlength]
          push_cast
          omega
        · exact Copied.push heq (by omega) item

/-! ### The consumer -/

/-- Room for the producer stays when items are drained. -/
theorem Publishes.drain {phase : PublishPhase α} (h : s.Publishes cap start phase) (hwrite : s'.write = s.write)
    (hslots : s'.slots = s.slots) (hstamps : s'.stamps = s.stamps) (haccepted : s'.accepted = s.accepted)
    (hle : s.drained.length ≤ s'.drained.length) : s'.Publishes cap start phase := by
  cases phase with
  | idle => trivial
  | loaded item w =>
    obtain rfl : w = s.write := h
    exact hwrite.symm
  | checked item w =>
    obtain ⟨hw, hroom⟩ := h
    refine ⟨hwrite ▸ hw, ?_⟩
    rw [haccepted]
    omega
  | written item w =>
    obtain ⟨hw, hroom, hslot, hstamp⟩ := h
    refine ⟨hwrite ▸ hw, ?_, ?_, ?_⟩
    · rw [haccepted]
      omega
    · rw [hslots, haccepted]
      exact hslot
    · rw [hstamps, haccepted]
      exact hstamp

/-- **A step of `DrainTo` keeps the invariant.** -/
theorem Queued.consume (h : Queued (2 ^ k) start s) (hk : k ≤ 62) (hstep : s.consume (2 ^ k) = some s') :
    Queued (2 ^ k) start s' := by
  have hdraining := h.draining
  rw [Ring.consume] at hstep
  cases hphase : s.consumer with
  | idle =>
    rw [hphase] at hstep
    cases hstep
  | loaded len maxItems r =>
    rw [hphase] at hstep hdraining
    obtain ⟨rfl, hmax⟩ := hdraining
    dsimp only at hstep
    rw [h.avail hk] at hstep
    split_ifs at hstep with hempty
    · cases hstep
      exact { h with draining := trivial }
    · cases hstep
      have hle := h.inOrder.length_le
      refine { h with draining := ⟨rfl, ?_, ?_, ?_, rfl⟩ }
      · omega
      · change (s.drained.length : ℤ) + min (min _ _) _ ≤ s.accepted.length
        omega
      · rw [List.length_nil]
        omega
  | copying r n copied =>
    rw [hphase] at hstep hdraining
    obtain ⟨rfl, hn, hfits, hcopied, heq⟩ := hdraining
    dsimp only at hstep
    split_ifs at hstep with hmore
    · cases hstep
      have hlt : s.drained.length + copied.length < s.accepted.length := by omega
      refine { h with draining := ⟨rfl, hn, hfits, ?_, ?_⟩ }
      · rw [List.length_append, List.length_singleton]
        push_cast
        omega
      · rw [h.readSlot_eq hk]
        exact Copied.next heq h.slots hlt
    · cases hstep
      have hall : (copied.length : ℤ) = n := le_antisymm hcopied (not_lt.mp hmore)
      have hlength : (s.drained ++ copied).length = s.drained.length + copied.length := List.length_append
      have hlater : s.drained.length ≤ (s.drained ++ copied).length := by omega
      refine ⟨h.write, ?_, Copied.append_prefix heq h.inOrder, ?_, h.slots.mono hlater, h.stamps.mono hlater,
        h.publishing.drain rfl rfl rfl rfl hlater, trivial⟩
      · change ((s.read + n) % wordSize).toNat = (start + (s.drained ++ copied).length) % wordSize
        rw [hlength, h.read, ← hall]
        norm_cast
        rw [Nat.mod_add_mod, add_assoc]
      · change s.accepted.length ≤ (s.drained ++ copied).length + 2 ^ k
        have := h.fits
        omega

theorem Queued.step (h : Queued (2 ^ k) start s) (hk : k ≤ 62) {action : RingAction α} (hmax : NonnegativeMax action)
    (hstep : s.step (2 ^ k) action = some s') : Queued (2 ^ k) start s' := by
  cases action with
  | tryPublish item =>
    rw [Ring.step] at hstep
    split at hstep
    · cases hstep
      exact { h with publishing := rfl }
    · cases hstep
  | produce => exact h.produce hk hstep
  | drainTo len maxItems =>
    rw [Ring.step] at hstep
    split at hstep
    · cases hstep
      exact { h with draining := ⟨rfl, hmax⟩ }
    · cases hstep
  | consume => exact h.consume hk hstep

instance (action : RingAction α) : Decidable (NonnegativeMax action) :=
  match action with
  | .tryPublish _ => .isTrue trivial
  | .produce => .isTrue trivial
  | .drainTo _ maxItems => inferInstanceAs (Decidable (0 ≤ maxItems))
  | .consume => .isTrue trivial

end Ring

end FunnyOption.Matching
