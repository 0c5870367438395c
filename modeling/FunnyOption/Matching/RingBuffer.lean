import FunnyOption.Foundation.Ring
import FunnyOption.Matching.Pipeline

/-!
# Two producers on one ring

The input ring of a book is a queue for one producer and one consumer. It has two producers: the partition
worker of the gateway, and the expiry sweeper, which submits cancels from a goroutine of its own. `TryPublish`
loads the write cursor, loads the read cursor, writes a slot and stores the write cursor. Two calls that overlap
can write one slot, and both return true.

The steps of both producers and of `DrainTo` are atomic, and every load and store of a cursor is sequentially
consistent. Cursors are words of 64 bits. The book engine keeps calling `DrainTo`, so `RingState.drain` is its next
step, whatever it is doing.

## Main results

* `drained_exactly_once`: if a call of `TryPublish` never begins while the other producer is in one, every accepted
  command is drained exactly once.
* `cancel_overwrites_order`: two calls that overlap; the second one overwrites the command of the first.
-/

open Foundation

namespace FunnyOption.Matching

open Pipeline (bookRBSize matchDrainBatch)

/-! ## The ring -/

/-- The number of values of a `uint64`. -/
def wordSize : ℕ := 18446744073709551616

/-- Subtraction of `uint64`. -/
def sub64 (a b : ℕ) : ℕ := (a + wordSize - b) % wordSize

/-- The conversion of a `uint64` to an `int`. -/
def toInt64 (a : ℕ) : ℤ := if a < wordSize / 2 then a else a - wordSize

/-- The `mask` of the ring of a book, whose capacity is a power of two. -/
def ringMask : ℕ := bookRBSize - 1

/-- The two goroutines that publish to the ring of a book. -/
inductive Producer where
  | gateway
  | sweeper
  deriving DecidableEq, Repr

/-- The other one. -/
def Producer.other : Producer → Producer
  | .gateway => .sweeper
  | .sweeper => .gateway

/-- Where a producer is in `TryPublish`. -/
inductive PublishPhase (α : Type*) where
  | idle
  /-- It has loaded the write cursor. -/
  | loaded (item : α) (w : ℕ)
  /-- It has loaded the read cursor, and there is room. -/
  | checked (item : α) (w : ℕ)
  /-- It has written the slot. -/
  | written (item : α) (w : ℕ)
  deriving DecidableEq, Repr

/-- Where the book engine is in `DrainTo`. -/
inductive DrainPhase (α : Type*) where
  | idle
  /-- It has loaded the read cursor. -/
  | loaded (r : ℕ)
  /-- It has loaded the write cursor, and copies `n` slots. -/
  | copying (r : ℕ) (n : ℤ) (copied : List α)
  deriving DecidableEq, Repr

/-- The ring, its users, and what they were told. -/
structure RingState (α : Type*) where
  write : ℕ
  read : ℕ
  slots : ℕ → α
  producers : Producer → PublishPhase α
  consumer : DrainPhase α
  /-- The items for which `TryPublish` returned true, in the order of the stores. -/
  accepted : List α
  /-- The items that `DrainTo` returned. -/
  drained : List α

/-- What happens to the ring. -/
inductive RingEvent (α : Type*) where
  /-- A producer calls `TryPublish` and loads the write cursor. -/
  | publish (p : Producer) (item : α)
  /-- A producer goes on. -/
  | proceed (p : Producer)
  /-- The book engine goes on. -/
  | drain

namespace RingState

variable {α : Type*}

/-- A new ring. Its slots have the zero value. -/
def new [Inhabited α] : RingState α := ⟨0, 0, fun _ ↦ default, fun _ ↦ .idle, .idle, [], []⟩

variable (s : RingState α)

/-- A producer moves on. -/
def setProducer (p : Producer) (phase : PublishPhase α) : RingState α :=
  { s with producers := Function.update s.producers p phase }

/-- The next step of `TryPublish`. -/
def proceed (p : Producer) : Option (RingState α) :=
  match s.producers p with
  | .idle => none
  | .loaded item w =>
    if sub64 w s.read > ringMask then some (s.setProducer p .idle)
    else some (s.setProducer p (.checked item w))
  | .checked item w =>
    some { s.setProducer p (.written item w) with slots := Function.update s.slots (w &&& ringMask) item }
  | .written item w =>
    some { s.setProducer p .idle with write := (w + 1) % wordSize, accepted := s.accepted ++ [item] }

/-- The next step of `DrainTo`, or of the next call of it. -/
def drain : RingState α :=
  match s.consumer with
  | .idle => { s with consumer := .loaded s.read }
  | .loaded r =>
    let avail := toInt64 (sub64 s.write r)
    if avail = 0 then { s with consumer := .idle }
    else { s with consumer := .copying r (min avail matchDrainBatch) [] }
  | .copying r n copied =>
    if copied.length < n then
      { s with
        consumer := .copying r n (copied ++ [s.slots ((r + copied.length) % wordSize &&& ringMask)]) }
    else
      -- a negative count moves the cursor back
      { s with read := ((r + n) % wordSize).toNat, consumer := .idle, drained := s.drained ++ copied }

/-- One event. -/
def step (s : RingState α) : RingEvent α → Option (RingState α)
  | .publish p item =>
    match s.producers p with
    | .idle => some (s.setProducer p (.loaded item s.write))
    | _ => none
  | .proceed p => s.proceed p
  | .drain => some s.drain

/-- **What the ring is for.** The book engine comes to drain what was accepted, each item as often as it was
accepted. -/
def DrainedOnce : Prop := ∃ n, ∀ m ≥ n, (drain^[m] s).drained.Perm s.accepted

/-- No call of `TryPublish` begins while the other producer is in one. -/
def Alone (s : RingState α) : RingEvent α → Prop
  | .publish p _ => s.producers p.other = .idle
  | .proceed _ => True
  | .drain => True

instance [DecidableEq α] (s : RingState α) (event : RingEvent α) : Decidable (s.Alone event) :=
  match event with
  | .publish p _ => inferInstanceAs (Decidable (s.producers p.other = .idle))
  | .proceed _ => .isTrue trivial
  | .drain => .isTrue trivial

/-! ## Cursors -/

theorem and_ringMask (i : ℕ) : i &&& ringMask = i % bookRBSize := Nat.and_two_pow_sub_one_eq_mod i 10

/-- Cursors that are the lengths of two lists, up to a multiple of the word size. -/
theorem sub64_mod {a b : ℕ} (hle : b ≤ a) (hfits : a ≤ b + bookRBSize) :
    sub64 (a % wordSize) (b % wordSize) = a - b := by
  simp only [sub64, wordSize, bookRBSize] at *
  omega

theorem toInt64_of_le {a : ℕ} (h : a ≤ bookRBSize) : toInt64 a = a := by
  rw [toInt64, if_pos]
  simp only [wordSize, bookRBSize] at *
  omega

theorem mod_wordSize_mod (i : ℕ) : i % wordSize % bookRBSize = i % bookRBSize := by
  simp only [wordSize, bookRBSize]
  omega

/-! ## The invariant -/

/-- What a producer knows while it publishes, if it is alone. -/
def Publishes (s : RingState α) : PublishPhase α → Prop
  | .idle => True
  | .loaded _ w => w = s.write
  | .checked _ w => w = s.write ∧ s.accepted.length < s.drained.length + bookRBSize
  | .written item w => w = s.write ∧ s.accepted.length < s.drained.length + bookRBSize ∧
      s.slots (s.accepted.length % bookRBSize) = item

/-- What the book engine has copied is what comes next. -/
def Drains (s : RingState α) : DrainPhase α → Prop
  | .idle => True
  | .loaded r => r = s.read
  | .copying r n copied => r = s.read ∧ 0 < n ∧ s.drained.length + n ≤ s.accepted.length ∧
      copied.length ≤ n ∧ copied = (s.accepted.drop s.drained.length).take copied.length

/-- The cursors are the lengths of what was accepted and drained, and the slots between them have what was
accepted and not drained. -/
structure Queued (s : RingState α) : Prop where
  write : s.write = s.accepted.length % wordSize
  read : s.read = s.drained.length % wordSize
  inOrder : s.drained <+: s.accepted
  fits : s.accepted.length ≤ s.drained.length + bookRBSize
  slots : ∀ i, s.drained.length ≤ i → i < s.accepted.length → s.accepted[i]? = some (s.slots (i % bookRBSize))
  draining : s.Drains s.consumer

/-- **The invariant.** -/
structure Sound (s : RingState α) : Prop extends Queued s where
  alone : ∀ p, s.producers p = .idle ∨ s.producers p.other = .idle
  publishing : ∀ p, s.Publishes (s.producers p)

theorem Sound.new [Inhabited α] : (RingState.new : RingState α).Sound where
  write := rfl
  read := rfl
  inOrder := List.prefix_rfl
  fits := Nat.zero_le _
  slots i _ hi := absurd hi (Nat.not_lt_zero i)
  draining := trivial
  alone _ := .inl rfl
  publishing _ := trivial

variable {s}

theorem Queued.holds (h : s.Queued) : Holds bookRBSize 0 s.slots s.accepted s.drained.length := by
  simpa only [Holds, zero_add] using h.slots

/-- The distance of the cursors is what is left to drain. -/
theorem Queued.sub64_eq (h : s.Queued) : sub64 s.write s.read = s.accepted.length - s.drained.length := by
  rw [h.write, h.read, sub64_mod h.inOrder.length_le h.fits]

theorem Queued.toInt64_eq (h : s.Queued) :
    toInt64 (sub64 s.write s.read) = (s.accepted.length - s.drained.length : ℕ) := by
  rw [h.sub64_eq, toInt64_of_le]
  exact Nat.sub_le_iff_le_add'.mpr h.fits

/-! ### Producers -/

section Producers

variable {p : Producer} {item : α} {w : ℕ}

/-- A step of one producer while the other one is idle. -/
theorem Queued.sound {s' : RingState α} (h : s'.Queued) {phase : PublishPhase α}
    (hother : s.producers p.other = .idle) (hproducers : s'.producers = Function.update s.producers p phase)
    (hphase : s'.Publishes phase) : s'.Sound := by
  have hself : s'.producers p = phase := by rw [hproducers, Function.update_self]
  have hne : p.other ≠ p := by cases p <;> exact Producer.noConfusion
  have hidle : s'.producers p.other = .idle := by rw [hproducers, Function.update_of_ne hne, hother]
  have hboth : ∀ q : Producer, q = p ∨ q = p.other := by intro q; cases q <;> cases p <;> simp [Producer.other]
  have hback : p.other.other = p := by cases p <;> rfl
  refine ⟨h, fun q ↦ ?_, fun q ↦ ?_⟩
  · rcases hboth q with rfl | rfl
    · exact .inr hidle
    · exact .inl hidle
  · rcases hboth q with rfl | rfl
    · rw [hself]
      exact hphase
    · rw [hidle]
      trivial

theorem Queued.setProducer (h : s.Queued) (p : Producer) (phase : PublishPhase α) : (s.setProducer p phase).Queued :=
  { h with }

/-- There is room behind the last item, and writing it there leaves the queue alone. -/
theorem Queued.writeSlot (h : s.Queued) (hroom : s.accepted.length < s.drained.length + bookRBSize) (p : Producer)
    (phase : PublishPhase α) (item : α) :
    { s.setProducer p phase with
      slots := Function.update s.slots (s.accepted.length % bookRBSize) item }.Queued := by
  refine { h with slots := ?_ }
  have hwrite := h.holds.write hroom item
  simp only [Holds, zero_add] at hwrite
  exact hwrite

/-- The item in the next slot is accepted. -/
theorem Queued.accept (h : s.Queued) (hroom : s.accepted.length < s.drained.length + bookRBSize) (p : Producer)
    (phase : PublishPhase α) (hslot : s.slots (s.accepted.length % bookRBSize) = item) :
    { s.setProducer p phase with
      write := (s.write + 1) % wordSize, accepted := s.accepted ++ [item] }.Queued := by
  have hlength : (s.accepted ++ [item]).length = s.accepted.length + 1 := by simp
  refine ⟨?_, h.read, h.inOrder.trans (List.prefix_append _ _), ?_, ?_, ?_⟩
  · rw [hlength, h.write, Nat.mod_add_mod]
  · rw [hlength]
    exact hroom
  · have hpush := h.holds.push ((congrArg (s.slots <| · % bookRBSize) (zero_add _)).trans hslot)
    simp only [Holds, zero_add] at hpush
    exact hpush
  · change Drains _ s.consumer
    have hdraining := h.draining
    cases hconsumer : s.consumer with
    | idle => trivial
    | loaded r =>
      rw [hconsumer] at hdraining
      exact hdraining
    | copying r n copied =>
      rw [hconsumer] at hdraining
      obtain ⟨hr, hn, hfits, hcopied, heq⟩ := hdraining
      refine ⟨hr, hn, ?_, hcopied, ?_⟩
      · change (s.drained.length : ℤ) + n ≤ (s.accepted ++ [item]).length
        rw [hlength]
        push_cast
        omega
      · exact Copied.push heq (by omega) item

theorem Sound.publish (h : s.Sound) (hother : s.producers p.other = .idle) (item : α) :
    (s.setProducer p (.loaded item s.write)).Sound :=
  (h.toQueued.setProducer p _).sound hother rfl rfl

/-- **A step of `TryPublish` keeps the invariant.** -/
theorem Sound.proceed (h : s.Sound) {s' : RingState α} (hstep : s.proceed p = some s') : s'.Sound := by
  have hpublishes := h.publishing p
  have hother : s.producers p ≠ .idle → s.producers p.other = .idle := fun hbusy ↦
    (h.alone p).resolve_left hbusy
  cases hphase : s.producers p with
  | idle =>
    simp only [RingState.proceed, hphase] at hstep
    cases hstep
  | loaded item w =>
    rw [hphase] at hpublishes hother
    obtain rfl : w = s.write := hpublishes
    have hidle := hother nofun
    simp only [RingState.proceed, hphase, h.sub64_eq] at hstep
    split_ifs at hstep with hfull
    · obtain rfl := Option.some.inj hstep
      exact (h.toQueued.setProducer p _).sound hidle rfl trivial
    · obtain rfl := Option.some.inj hstep
      refine (h.toQueued.setProducer p _).sound hidle rfl ⟨rfl, ?_⟩
      simp only [ringMask, bookRBSize] at hfull ⊢
      rw [RingState.setProducer]
      dsimp only
      omega
  | checked item w =>
    rw [hphase] at hpublishes hother
    obtain ⟨rfl, hroom⟩ := hpublishes
    have hslot : s.write &&& ringMask = s.accepted.length % bookRBSize := by
      rw [and_ringMask, h.write, mod_wordSize_mod]
    simp only [RingState.proceed, hphase, hslot] at hstep
    obtain rfl := Option.some.inj hstep
    exact (h.toQueued.writeSlot hroom p _ item).sound (hother nofun) rfl
      ⟨rfl, hroom, Function.update_self ..⟩
  | written item w =>
    rw [hphase] at hpublishes hother
    obtain ⟨rfl, hroom, hslot⟩ := hpublishes
    simp only [RingState.proceed, hphase] at hstep
    obtain rfl := Option.some.inj hstep
    exact (h.toQueued.accept hroom p _ hslot).sound (hother nofun) rfl trivial

end Producers

/-! ### The consumer -/

/-- **A step of `DrainTo` keeps the invariant.** -/
theorem Sound.drain (h : s.Sound) : s.drain.Sound := by
  have hle := h.inOrder.length_le
  have hdraining := h.draining
  cases hconsumer : s.consumer with
  | idle =>
    simp only [RingState.drain, hconsumer]
    exact { h with draining := rfl }
  | loaded r =>
    rw [hconsumer] at hdraining
    obtain rfl : r = s.read := hdraining
    simp only [RingState.drain, hconsumer, h.toInt64_eq]
    split_ifs with hempty
    · exact { h with draining := trivial }
    · refine { h with draining := ⟨rfl, ?_, ?_, ?_, rfl⟩ }
      · simp only [matchDrainBatch]
        omega
      · change (s.drained.length : ℤ) + min _ _ ≤ s.accepted.length
        omega
      · simp only [matchDrainBatch, List.length_nil]
        omega
  | copying r n copied =>
    rw [hconsumer] at hdraining
    obtain ⟨rfl, hn, hfits, hcopied, heq⟩ := hdraining
    simp only [RingState.drain, hconsumer]
    split_ifs with hmore
    · have hlt : s.drained.length + copied.length < s.accepted.length := by omega
      have hslot : (s.read + copied.length) % wordSize &&& ringMask =
          (s.drained.length + copied.length) % bookRBSize := by
        rw [and_ringMask, mod_wordSize_mod, h.read, ← Nat.mod_add_mod, mod_wordSize_mod, Nat.mod_add_mod]
      refine { h with draining := ⟨rfl, hn, hfits, ?_, ?_⟩ }
      · rw [List.length_append, List.length_singleton]
        push_cast
        omega
      · rw [hslot, ← zero_add (s.drained.length + _)]
        exact Copied.next heq h.holds hlt
    · have hall : (copied.length : ℤ) = n := le_antisymm hcopied (not_lt.mp hmore)
      have hlength : (s.drained ++ copied).length = s.drained.length + copied.length := List.length_append
      refine ⟨⟨h.write, ?_, Copied.append_prefix heq h.inOrder, ?_, fun i hi hlt ↦ ?_, trivial⟩, h.alone, fun p ↦ ?_⟩
      · change ((s.read + n) % wordSize).toNat = (s.drained ++ copied).length % wordSize
        rw [hlength, h.read, ← hall]
        norm_cast
        rw [Nat.mod_add_mod]
      · change s.accepted.length ≤ (s.drained ++ copied).length + bookRBSize
        have := h.fits
        omega
      · have hi' : (s.drained ++ copied).length ≤ i := hi
        exact h.slots i (by omega) hlt
      · have hpublishes := h.publishing p
        have hroom : s.accepted.length < s.drained.length + bookRBSize →
            s.accepted.length < (s.drained ++ copied).length + bookRBSize := by omega
        change Publishes _ (s.producers p)
        cases hphase : s.producers p with
        | idle => trivial
        | loaded item w =>
          rw [hphase] at hpublishes
          exact hpublishes
        | checked item w =>
          rw [hphase] at hpublishes
          exact ⟨hpublishes.1, hroom hpublishes.2⟩
        | written item w =>
          rw [hphase] at hpublishes
          exact ⟨hpublishes.1, hroom hpublishes.2.1, hpublishes.2.2⟩

theorem Sound.step (h : s.Sound) {event : RingEvent α} {s' : RingState α} (halone : s.Alone event)
    (hstep : s.step event = some s') : s'.Sound := by
  cases event with
  | publish p item =>
    simp only [RingState.step] at hstep
    split at hstep
    · obtain rfl := Option.some.inj hstep
      exact h.publish halone item
    · cases hstep
  | proceed p => exact h.proceed hstep
  | drain =>
    obtain rfl := Option.some.inj hstep
    exact h.drain

/-! ## Draining -/

@[simp]
theorem accepted_drain (s : RingState α) : s.drain.accepted = s.accepted := by
  cases hconsumer : s.consumer with
  | idle => simp only [RingState.drain, hconsumer]
  | loaded r =>
    simp only [RingState.drain, hconsumer]
    split_ifs <;> rfl
  | copying r n copied =>
    simp only [RingState.drain, hconsumer]
    split_ifs <;> rfl

theorem length_drained_drain (s : RingState α) : s.drained.length ≤ s.drain.drained.length := by
  cases hconsumer : s.consumer with
  | idle => simp only [RingState.drain, hconsumer, le_refl]
  | loaded r =>
    simp only [RingState.drain, hconsumer]
    split_ifs <;> exact le_refl _
  | copying r n copied =>
    simp only [RingState.drain, hconsumer]
    split_ifs
    · exact le_refl _
    · rw [List.length_append]
      exact Nat.le_add_right _ _

/-- How many steps there may be left until everything is drained: four for each item, less for what is already
copied. -/
def stepsLeft (s : RingState α) : ℕ :=
  match s.consumer with
  | .idle => 4 * (s.accepted.length - s.drained.length) + 3
  | .loaded _ => 4 * (s.accepted.length - s.drained.length) + 2
  | .copying _ n copied =>
    4 * (s.accepted.length - s.drained.length - n.toNat) + 4 + (n.toNat - copied.length)

theorem stepsLeft_drain (h : s.Sound) (hlt : s.drained.length < s.accepted.length) :
    s.drain.stepsLeft < s.stepsLeft := by
  have hdraining := h.draining
  cases hconsumer : s.consumer with
  | idle => simp [RingState.drain, stepsLeft, hconsumer]
  | loaded r =>
    rw [hconsumer] at hdraining
    obtain rfl : r = s.read := hdraining
    have hsome : ((s.accepted.length - s.drained.length : ℕ) : ℤ) ≠ 0 := by omega
    simp only [RingState.drain, stepsLeft, hconsumer, h.toInt64_eq, if_neg hsome, matchDrainBatch, List.length_nil]
    omega
  | copying r n copied =>
    rw [hconsumer] at hdraining
    obtain ⟨-, hn, hfits, hcopied, -⟩ := hdraining
    simp only [RingState.drain, hconsumer]
    split_ifs with hmore
    · simp only [stepsLeft, hconsumer, List.length_append, List.length_singleton]
      omega
    · simp only [stepsLeft, hconsumer, List.length_append]
      omega

/-- The book engine alone drains everything. -/
theorem Sound.exists_drained (h : s.Sound) :
    ∃ n, (RingState.drain^[n] s).Sound ∧ (RingState.drain^[n] s).accepted = s.accepted ∧
      s.accepted.length ≤ (RingState.drain^[n] s).drained.length := by
  induction hsteps : s.stepsLeft using Nat.strong_induction_on generalizing s with
  | _ steps ih =>
    by_cases hlt : s.drained.length < s.accepted.length
    · obtain ⟨n, hsound, haccepted, hle⟩ := ih _ (hsteps ▸ stepsLeft_drain h hlt) h.drain rfl
      rw [accepted_drain] at haccepted hle
      exact ⟨n + 1, hsound, haccepted, hle⟩
    · exact ⟨0, h, rfl, not_lt.mp hlt⟩

/-- From where everything is drained, it stays so. -/
theorem Sound.drained_of_le (h : s.Sound) (hle : s.accepted.length ≤ s.drained.length) (n : ℕ) :
    (RingState.drain^[n] s).drained = s.accepted := by
  induction n generalizing s with
  | zero => exact h.inOrder.eq_of_length (le_antisymm h.inOrder.length_le hle)
  | succ n ih =>
    rw [Function.iterate_succ_apply, ih h.drain, accepted_drain]
    rw [accepted_drain]
    exact hle.trans (length_drained_drain s)

theorem Sound.drainedOnce (h : s.Sound) : s.DrainedOnce := by
  obtain ⟨n, hsound, haccepted, hle⟩ := h.exists_drained
  refine ⟨n, fun m hm ↦ ?_⟩
  obtain ⟨k, rfl⟩ := Nat.exists_eq_add_of_le' hm
  rw [Function.iterate_add_apply, hsound.drained_of_le (haccepted ▸ hle), haccepted]

/-- What the producers were told does not change what is drained. -/
theorem drain_iterate_accepted (s : RingState α) (accepted : List α) (n : ℕ) :
    RingState.drain^[n] { s with accepted } = { RingState.drain^[n] s with accepted } := by
  have hstep : ∀ s : RingState α, RingState.drain { s with accepted } = { s.drain with accepted } := by
    intro s
    cases hconsumer : s.consumer with
    | idle => simp only [RingState.drain, hconsumer]
    | loaded r =>
      simp only [RingState.drain, hconsumer]
      split_ifs <;> rfl
    | copying r n copied =>
      simp only [RingState.drain, hconsumer]
      split_ifs <;> rfl
  induction n with
  | zero => rfl
  | succ n ih => rw [Function.iterate_succ_apply', ih, hstep, Function.iterate_succ_apply']

/-! ## Main results -/

/-- **Every accepted command is drained exactly once**, if the two producers never overlap. -/
theorem drained_exactly_once [Inhabited α] (events : List (RingEvent α))
    (halone : ∀ s event s', Takes RingState.step .new events s event s' → s.Alone event) :
    ∀ s, Visits RingState.step .new events s → s.DrainedOnce := by
  intro s hvisit
  have hsound : s.Sound := by
    refine visits_induction .new (fun u event u' htake hu ↦ ?_) s hvisit
    exact hu.step (halone u event u' htake) htake.step_eq
  exact hsound.drainedOnce

/-- The gateway publishes an order, the sweeper a cancel, one after the other. -/
private def oneAfterTheOther : List (RingEvent ℕ) :=
  [.publish .gateway 1, .proceed .gateway, .proceed .gateway, .proceed .gateway, .drain,
    .publish .sweeper 2, .proceed .sweeper, .proceed .sweeper, .proceed .sweeper]

theorem order_and_cancel_drained : Along RingState.step RingState.Alone .new oneAfterTheOther ∧
      ∀ s, Visits RingState.step .new oneAfterTheOther s → s.DrainedOnce := by
  have halone : Along RingState.step RingState.Alone .new oneAfterTheOther := by decide
  exact ⟨halone, drained_exactly_once _ fun s event s' htake ↦ halone.of_takes htake⟩

/-- Both producers load the write cursor before either stores it. -/
private def overlapping : List (RingEvent ℕ) :=
  [.publish .gateway 1, .publish .sweeper 2, .proceed .gateway, .proceed .sweeper, .proceed .gateway,
    .proceed .sweeper, .proceed .gateway, .proceed .sweeper]

private def overwritten : RingState ℕ := (exec RingState.step .new overlapping).get (by decide)

/-- The ring is as if only the cancel had been accepted. -/
private theorem sound_overwritten : RingState.Sound { overwritten with accepted := [2] } := by
  refine ⟨⟨?_, ?_, ?_, ?_, fun i _ hi ↦ ?_, ?_⟩, fun p ↦ ?_, fun p ↦ ?_⟩
  · decide
  · decide
  · decide
  · decide
  · obtain rfl : i = 0 := Nat.lt_one_iff.mp hi
    decide
  · have hidle : overwritten.consumer = .idle := by decide
    exact hidle ▸ trivial
  · cases p <;> decide
  · have hidle : overwritten.producers p = .idle := by cases p <;> decide
    exact hidle ▸ trivial

/-- **Two calls that overlap.** Both commands are accepted, the cancel overwrites the order in its slot, and the
order is never drained. -/
theorem cancel_overwrites_order :
    ∃ s, Visits RingState.step (.new : RingState ℕ) overlapping s ∧ s.accepted = [1, 2] ∧
      (∀ n, 1 ∉ (RingState.drain^[n] s).drained) ∧ ¬ s.DrainedOnce := by
  have hsound : ∀ n, (RingState.drain^[n] { overwritten with accepted := [2] }).Sound := by
    intro n
    induction n with
    | zero => exact sound_overwritten
    | succ n ih =>
      rw [Function.iterate_succ_apply']
      exact ih.drain
  have hlost : ∀ n, 1 ∉ (RingState.drain^[n] overwritten).drained := by
    intro n hmem
    have hprefix := (hsound n).inOrder
    rw [drain_iterate_accepted] at hprefix
    have honly : 1 ∈ [2] := hprefix.subset hmem
    exact absurd honly (by decide)
  have haccepted : overwritten.accepted = [1, 2] := by decide
  refine ⟨overwritten, visits_of_exec (Option.some_get _).symm, haccepted, hlost, fun ⟨n, h⟩ ↦ hlost n ?_⟩
  refine (h n le_rfl).symm.subset ?_
  rw [haccepted]
  exact List.mem_cons_self

end RingState

end FunnyOption.Matching
