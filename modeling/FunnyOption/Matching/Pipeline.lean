import FunnyOption.Foundation.Run

/-!
# The matching pipeline

Commands travel from Kafka to the database through three stages, each in goroutines of its own:
the `InputGateway` fetches a partition and publishes every command into the ring of its book, the
`BookEngine` of a book drains its ring and computes one result per command, and the
`OutputDispatcher` collects results into batches that are persisted in one transaction. A separate
loop per partition commits offsets.

Every hand-over is one event of the step function, so that a run is an interleaving of all the
goroutines, and `restart` may stand anywhere in it: a crash loses every ring, channel and batch,
and keeps the committed offsets and the persisted store.

## The engine as a parameter

What a book computes is left open here: `BookMachine` asks for the functions `handlePlace` and
`handleCancel` and for the state that `Restore` builds from the store. A command taken from Kafka is
always a placement (`CommandFromKafka`), and a placement always sends exactly one result, rejected
or not. Cancels enter only through `SubmitCancel` and have no offset.

## Durability

An offset below the committed one is never fetched again, and the store is the only thing `Restore`
reads. Hence a command is safe only while it is above the committed offset or once its result is in
the store. The gateway commits an offset after the ring has taken the command, which is neither.
-/

open Foundation

namespace FunnyOption.Pipeline

/-! ## The stages -/

/-- What one book computes. -/
structure BookMachine (Command Cancel Result Book : Type*) where
  /-- The `BookKey` of a command. -/
  bookKey : Command → String
  /-- `handlePlace`: one result for every command. -/
  handlePlace : Book → Command → Book × Result
  /-- `handleCancel`: the results of a cancel. -/
  handleCancel : Book → Cancel → Book × List Result
  /-- The books of a new process, from the persisted results. -/
  restore : List Result → String → Book

/-- An entry of a book's input ring. -/
inductive RingEntry (P Command Cancel : Type*) where
  /-- A command of the partition `p` at the given offset. -/
  | place (p : P) (offset : ℕ) (command : Command)
  /-- A cancel of the expiry sweeper. -/
  | cancel (cancel : Cancel)

/-- A result on its way to the store, with the partition and offset it comes from. -/
structure MatchResult (P Result : Type*) where
  /-- The message the result answers; `none` for a cancel. -/
  origin : Option (P × ℕ)
  /-- The `BookKey` of its command. -/
  bookKey : String
  /-- The result. -/
  result : Result

/-- Where `runPartition` stands. -/
inductive GatewayPhase (Command : Type*) where
  /-- At `FetchMessage`. -/
  | fetching
  /-- In the loop that calls `Route` until the ring takes the command. -/
  | routing (offset : ℕ) (command : Command)
  /-- About to send `offset + 1` to the commit loop. -/
  | acknowledging (offset : ℕ)

/-- `runPartition` and `partitionCommitLoop` of one partition. -/
structure Lane (Command : Type*) where
  /-- The offset committed at the broker. -/
  committed : ℕ
  /-- The offset the next fetch returns. -/
  next : ℕ
  /-- The position of `runPartition`. -/
  phase : GatewayPhase Command
  /-- The channel to the commit loop. -/
  commitCh : List ℕ
  /-- The commit loop's `maxOffset`. -/
  maxOffset : ℕ
  /-- The commit loop's `pending`. -/
  pending : ℕ

/-- `BookEngine`: its ring, the entries drained from it, and the results it is sending. -/
structure BookLane (P Command Cancel Result Book : Type*) where
  /-- The input ring. -/
  ring : List (RingEntry P Command Cancel)
  /-- The batch drained last, as far as it is not yet handled. -/
  buf : List (RingEntry P Command Cancel)
  /-- The results of the entry handled last, as far as they are not yet sent. -/
  outbox : List (MatchResult P Result)
  /-- The engine. -/
  book : Book

/-- A worker of the dispatcher. -/
structure Worker (P Result : Type*) where
  /-- Its channel. -/
  ch : List (MatchResult P Result)
  /-- The batch it is collecting. -/
  batch : List (MatchResult P Result)

/-- The pipeline with the broker's offsets and the store. -/
structure PipelineState (P Command Cancel Result Book : Type*) where
  /-- The partitions. -/
  lanes : P → Lane Command
  /-- The book engines. -/
  books : String → BookLane P Command Cancel Result Book
  /-- The fan-in channel `outputCh`. -/
  outputCh : List (MatchResult P Result)
  /-- The dispatcher's workers. -/
  workers : Fin 4 → Worker P Result
  /-- Whether the dispatcher is in `DispatchModeShadow`. -/
  shadow : Bool
  /-- What has been persisted. -/
  store : List (MatchResult P Result)

/-- `bookRBSize`. -/
def bookRBSize : ℕ := 1024

/-- `matchDrainBatch`. -/
def matchDrainBatch : ℕ := 64

/-- The capacity of `commitCh`. -/
def commitChSize : ℕ := 512

/-- `batchCap` of the commit loop. -/
def batchCap : ℕ := 256

/-- `outputChSize`. -/
def outputChSize : ℕ := 8192

/-- `dispatchBatchMax`; a worker's channel holds twice as many. -/
def dispatchBatchMax : ℕ := 128

/-- `fnvHash` of a book key. -/
def fnvHash (s : String) : ℕ := (s.toUTF8.toList.foldl (fun h b ↦ (h ^^^ b.toUInt32) * 16777619) (2166136261 : UInt32)
    &&& 0x7fffffff).toNat

/-- The worker of a book key. -/
def workerOf (bookKey : String) : Fin 4 := Fin.ofNat 4 (fnvHash bookKey)

/-- What can happen in the pipeline. -/
inductive PipelineEvent (P Cancel : Type*) where
  /-- `runPartition` fetches and decodes the next message. -/
  | fetch (p : P)
  /-- `runPartition` calls `Route`, which fails on a full ring. -/
  | route (p : P)
  /-- `runPartition` sends the offset to the commit loop. -/
  | ack (p : P)
  /-- The commit loop receives an offset. -/
  | receive (p : P)
  /-- The commit loop flushes; `CommitOffsets` returns with or without an error. -/
  | flush (p : P) (ok : Bool)
  /-- The partition is assigned again, from its committed offset. -/
  | reassign (p : P)
  /-- A book engine drains its ring. -/
  | drain (b : String)
  /-- A book engine handles the next drained entry. -/
  | handle (b : String)
  /-- A book engine sends its next result. -/
  | send (b : String)
  /-- The dispatcher routes the next result to a worker. -/
  | dispatch
  /-- A worker takes the next result into its batch. -/
  | collect (w : Fin 4)
  /-- A worker's `ProcessBatch` persists the batch, or fails. -/
  | persist (w : Fin 4) (ok : Bool)
  /-- `SetMode`. -/
  | setMode (shadow : Bool)
  /-- The expiry sweeper submits a cancel. -/
  | sweep (b : String) (cancel : Cancel)
  /-- The process ends and a new one starts. -/
  | restart

section Model

variable {P Command Cancel Result Book : Type*} [DecidableEq P]
variable (machine : BookMachine Command Cancel Result Book)

/-- A partition worker that starts at the committed offset. -/
def Lane.start (committed : ℕ) : Lane Command where
  committed := committed
  next := committed
  phase := .fetching
  commitCh := []
  maxOffset := 0
  pending := 0

/-- A new process: offsets from the broker, books from the store, everything else empty. -/
def PipelineState.boot (offsets : P → ℕ) (store : List (MatchResult P Result)) :
    PipelineState P Command Cancel Result Book where
  lanes p := .start (offsets p)
  books b := ⟨[], [], [], machine.restore (store.map (·.result)) b⟩
  outputCh := []
  workers _ := ⟨[], []⟩
  shadow := false
  store := store

namespace PipelineState

variable (s : PipelineState P Command Cancel Result Book)

/-- Replace one partition. -/
def setLane (p : P) (lane : Lane Command) : PipelineState P Command Cancel Result Book :=
  { s with lanes := Function.update s.lanes p lane }

/-- Replace one book engine. -/
def setBook (b : String) (lane : BookLane P Command Cancel Result Book) :
    PipelineState P Command Cancel Result Book :=
  { s with books := Function.update s.books b lane }

/-- `TryPublish` into a book's ring. -/
def tryPublish (b : String) (entry : RingEntry P Command Cancel) :
    Option (PipelineState P Command Cancel Result Book) :=
  if (s.books b).ring.length < bookRBSize then
    some (s.setBook b { s.books b with ring := (s.books b).ring ++ [entry] })
  else none

end PipelineState

/-- One step of the pipeline. The messages of a partition are a list, with `none` for one that does
not decode. -/
def pipelineStep (log : P → List (Option Command)) (s : PipelineState P Command Cancel Result Book) :
    PipelineEvent P Cancel → Option (PipelineState P Command Cancel Result Book)
  | .fetch p =>
    let lane := s.lanes p
    match lane.phase, (log p)[lane.next]? with
    | .fetching, some (some command) =>
      some (s.setLane p { lane with next := lane.next + 1, phase := .routing lane.next command })
    | .fetching, some none =>
      some (s.setLane p { lane with next := lane.next + 1, phase := .acknowledging lane.next })
    | _, _ => none
  | .route p =>
    let lane := s.lanes p
    match lane.phase with
    | .routing offset command =>
      match s.tryPublish (machine.bookKey command) (.place p offset command) with
      | some s' => some (s'.setLane p { lane with phase := .acknowledging offset })
      -- the ring is full: idle and try again
      | none => some s
    | _ => none
  | .ack p =>
    let lane := s.lanes p
    match lane.phase with
    | .acknowledging offset =>
      if lane.commitCh.length < commitChSize then
        some (s.setLane p
          { lane with phase := .fetching, commitCh := lane.commitCh ++ [offset + 1] })
      else none
    | _ => none
  | .receive p =>
    let lane := s.lanes p
    match lane.commitCh with
    | offset :: rest =>
      if lane.pending < batchCap then
        some (s.setLane p { lane with
          commitCh := rest, maxOffset := max lane.maxOffset offset, pending := lane.pending + 1 })
      else none
    | [] => none
  | .flush p ok =>
    let lane := s.lanes p
    if lane.pending = 0 then some s
    else some (s.setLane p { lane with
      committed := if ok then lane.maxOffset else lane.committed, pending := 0 })
  | .reassign p => some (s.setLane p (.start (s.lanes p).committed))
  | .drain b =>
    let book := s.books b
    match book.outbox, book.buf with
    | [], [] => some (s.setBook b { book with
        ring := book.ring.drop matchDrainBatch, buf := book.ring.take matchDrainBatch })
    | _, _ => none
  | .handle b =>
    let book := s.books b
    match book.outbox, book.buf with
    | [], .place p offset command :: buf =>
      let next := machine.handlePlace book.book command
      some (s.setBook b { book with
        buf := buf, book := next.1, outbox := [⟨some (p, offset), machine.bookKey command, next.2⟩] })
    | [], .cancel cancel :: buf =>
      let next := machine.handleCancel book.book cancel
      some (s.setBook b { book with
        buf := buf, book := next.1, outbox := next.2.map fun r ↦ ⟨none, b, r⟩ })
    | _, _ => none
  | .send b =>
    let book := s.books b
    match book.outbox with
    | r :: outbox =>
      if s.outputCh.length < outputChSize then
        some { s.setBook b { book with outbox := outbox } with outputCh := s.outputCh ++ [r] }
      else none
    | [] => none
  | .dispatch =>
    match s.outputCh with
    | r :: rest =>
      let worker := s.workers (workerOf r.bookKey)
      if s.shadow then some { s with outputCh := rest }
      else if worker.ch.length < dispatchBatchMax * 2 then
        some { s with
          outputCh := rest
          workers := Function.update s.workers (workerOf r.bookKey)
            { worker with ch := worker.ch ++ [r] } }
      else none
    | [] => none
  | .collect w =>
    let worker := s.workers w
    match worker.ch with
    | r :: rest =>
      if worker.batch.length < dispatchBatchMax then
        some { s with
          workers := Function.update s.workers w { ch := rest, batch := worker.batch ++ [r] } }
      else none
    | [] => none
  | .persist w ok =>
    let worker := s.workers w
    if worker.batch = [] then none
    -- a failed batch is logged and dropped
    else some { s with
      workers := Function.update s.workers w { worker with batch := [] }
      store := if ok then s.store ++ worker.batch else s.store }
  | .setMode shadow => some { s with shadow := shadow }
  | .sweep b cancel =>
    match s.tryPublish b (.cancel cancel) with
    | some s' => some s'
    | none => some s
  | .restart => some (.boot machine (fun p ↦ (s.lanes p).committed) s.store)

end Model

/-! ## What a step does to offsets and store -/

section Step

variable {P Command Cancel Result Book : Type*}
variable {s s' : PipelineState P Command Cancel Result Book}

theorem tryPublish_eq_some {b : String} {entry : RingEntry P Command Cancel} (h : s.tryPublish b entry = some s') :
    s' = s.setBook b { s.books b with ring := (s.books b).ring ++ [entry] } := by
  rw [PipelineState.tryPublish] at h
  split_ifs at h
  exact (Option.some_inj.mp h).symm

variable [DecidableEq P]

theorem setLane_lanes (p q : P) (lane : Lane Command) :
    (s.setLane p lane).lanes q = if q = p then lane else s.lanes q := Function.update_apply ..

/-- Replacing a partition by one with the same committed offset. -/
theorem setLane_committed {p : P} {lane : Lane Command} (hlane : lane.committed = (s.lanes p).committed) (q : P) :
    ((s.setLane p lane).lanes q).committed = (s.lanes q).committed := by
  rw [setLane_lanes]
  split_ifs with hq
  · rw [hq, hlane]
  · rfl

variable {machine : BookMachine Command Cancel Result Book} {log : P → List (Option Command)}
variable {e : PipelineEvent P Cancel}

/-- A partition's committed offset moves only in a flush that succeeds. -/
def CommittedBy (s : PipelineState P Command Cancel Result Book) (e : PipelineEvent P Cancel)
    (s' : PipelineState P Command Cancel Result Book) (p : P) : Prop :=
  (s'.lanes p).committed = (s.lanes p).committed ∨ e = .flush p true ∧ (s.lanes p).pending ≠ 0 ∧
      (s'.lanes p).committed = (s.lanes p).maxOffset

/-- Only a flush moves a committed offset, and the store only grows. -/
theorem pipelineStep_durable (h : pipelineStep machine log s e = some s') :
    (∀ p, CommittedBy s e s' p) ∧ s.store <+: s'.store := by
  have hlane : ∀ p (lane : Lane Command), lane.committed = (s.lanes p).committed →
      (∀ q, CommittedBy s e (s.setLane p lane) q) ∧ s.store <+: s.store :=
    fun p lane hlane ↦ ⟨fun q ↦ .inl (setLane_committed hlane q), List.prefix_rfl⟩
  cases e with
  | fetch | ack | receive | reassign =>
    simp only [pipelineStep] at h
    repeat' split at h
    all_goals
      cases h
      try exact hlane _ _ rfl
  | route p =>
    simp only [pipelineStep] at h
    split at h
    · split at h
      · next s'' hpub =>
        obtain rfl := tryPublish_eq_some hpub
        cases h
        exact hlane _ _ rfl
      · cases h
        exact ⟨fun q ↦ .inl rfl, List.prefix_rfl⟩
    · cases h
  | flush p ok =>
    simp only [pipelineStep] at h
    split_ifs at h with hpending hok
    · cases h
      exact ⟨fun q ↦ .inl rfl, List.prefix_rfl⟩
    · cases h
      refine ⟨fun q ↦ ?_, List.prefix_rfl⟩
      by_cases hq : q = p
      · subst hq
        exact .inr ⟨by rw [hok], hpending, by rw [setLane_lanes, if_pos rfl]⟩
      · exact .inl (by rw [setLane_lanes, if_neg hq])
    · cases h
      exact hlane _ _ rfl
  | sweep b cancel =>
    simp only [pipelineStep] at h
    split at h
    · next s'' hpub =>
      obtain rfl := tryPublish_eq_some hpub
      cases h
      exact ⟨fun q ↦ .inl rfl, List.prefix_rfl⟩
    · cases h
      exact ⟨fun q ↦ .inl rfl, List.prefix_rfl⟩
  | drain | handle | send | dispatch | collect | persist | setMode | restart =>
    simp only [pipelineStep] at h
    repeat' split at h
    all_goals
      cases h
      try exact ⟨fun q ↦ .inl rfl, by first | exact List.prefix_rfl | exact List.prefix_append _ _⟩

end Step

/-! ## A command that is gone

A message below the committed offset that is nowhere in the process and not in the store stays so:
no later step brings it back. -/

/-- The message a ring entry comes from. -/
def RingEntry.origin {P Command Cancel : Type*} : RingEntry P Command Cancel → Option (P × ℕ)
  | .place p offset _ => some (p, offset)
  | .cancel _ => none

/-- A partition worker that is past offset `o`, as is every offset it will commit. -/
structure Lane.Past {Command : Type*} (o : ℕ) (lane : Lane Command) : Prop where
  /-- The committed offset. -/
  committed : o < lane.committed
  /-- The position of the reader. -/
  next : o < lane.next
  /-- A command being routed. -/
  routing : ∀ x c, lane.phase = .routing x c → o < x
  /-- An offset being acknowledged. -/
  acknowledging : ∀ x, lane.phase = .acknowledging x → o < x
  /-- The offsets on their way to the commit loop. -/
  commitCh : ∀ x ∈ lane.commitCh, o < x
  /-- The offset of the next flush. -/
  maxOffset : lane.pending ≠ 0 → o < lane.maxOffset

/-- A book engine that holds nothing of a message. -/
structure BookLane.Free {P Command Cancel Result Book : Type*} (m : P × ℕ)
    (book : BookLane P Command Cancel Result Book) : Prop where
  /-- The input ring. -/
  ring : ∀ x ∈ book.ring, x.origin ≠ some m
  /-- The drained entries. -/
  buf : ∀ x ∈ book.buf, x.origin ≠ some m
  /-- The results being sent. -/
  outbox : ∀ r ∈ book.outbox, r.origin ≠ some m

/-- A worker that holds nothing of a message. -/
structure Worker.Free {P Result : Type*} (m : P × ℕ) (worker : Worker P Result) : Prop where
  /-- The channel. -/
  ch : ∀ r ∈ worker.ch, r.origin ≠ some m
  /-- The batch. -/
  batch : ∀ r ∈ worker.batch, r.origin ≠ some m

/-- The message `(p, o)` is committed, and nothing of it is left anywhere. -/
structure Lost {P Command Cancel Result Book : Type*} (p : P) (o : ℕ)
    (s : PipelineState P Command Cancel Result Book) : Prop where
  /-- The partition is past it. -/
  lane : (s.lanes p).Past o
  /-- No book engine holds it. -/
  books : ∀ b, (s.books b).Free (p, o)
  /-- The fan-in channel does not hold it. -/
  outputCh : ∀ r ∈ s.outputCh, r.origin ≠ some (p, o)
  /-- No worker holds it. -/
  workers : ∀ w, (s.workers w).Free (p, o)
  /-- The store does not hold it. -/
  store : ∀ r ∈ s.store, r.origin ≠ some (p, o)

section Lost

variable {P Command Cancel Result Book : Type*} {p : P} {o : ℕ}
variable {s s' : PipelineState P Command Cancel Result Book}

theorem Lane.Past.start {c : ℕ} (hc : o < c) : (Lane.start c : Lane Command).Past o where
  committed := hc
  next := hc
  routing x y h := by simp [Lane.start] at h
  acknowledging x h := by simp [Lane.start] at h
  commitCh x h := by simp [Lane.start] at h
  maxOffset h := by simp [Lane.start] at h

theorem Lost.boot {machine : BookMachine Command Cancel Result Book} {offsets : P → ℕ}
    {store : List (MatchResult P Result)} (ho : o < offsets p) (hstore : ∀ r ∈ store, r.origin ≠ some (p, o)) :
    Lost p o (PipelineState.boot machine offsets store) where
  lane := .start ho
  books b := ⟨by simp [PipelineState.boot], by simp [PipelineState.boot], by simp [PipelineState.boot]⟩
  outputCh := by simp [PipelineState.boot]
  workers w := ⟨by simp [PipelineState.boot], by simp [PipelineState.boot]⟩
  store := hstore

theorem Lost.setBook (h : Lost p o s) (b : String) (book : BookLane P Command Cancel Result Book)
    (hbook : book.Free (p, o)) : Lost p o (s.setBook b book) := by
  refine { h with books := fun b' ↦ ?_ }
  simp only [PipelineState.setBook, Function.update_apply]
  split_ifs
  · exact hbook
  · exact h.books b'

theorem Lost.setWorker (h : Lost p o s) (w : Fin 4) (worker : Worker P Result) (hworker : worker.Free (p, o)) :
    Lost p o { s with workers := Function.update s.workers w worker } := by
  refine { h with workers := fun w' ↦ ?_ }
  simp only [Function.update_apply]
  split_ifs
  · exact hworker
  · exact h.workers w'

theorem Lost.publish (h : Lost p o s) {b : String} {entry : RingEntry P Command Cancel}
    (hentry : entry.origin ≠ some (p, o)) (hpub : s.tryPublish b entry = some s') : Lost p o s' := by
  rw [tryPublish_eq_some hpub]
  have hring := List.forall_mem_append.mpr ⟨(h.books b).ring, List.forall_mem_singleton.mpr hentry⟩
  exact h.setBook _ _ { h.books b with ring := hring }

variable [DecidableEq P]

theorem Lost.setLane (h : Lost p o s) {q : P} {lane : Lane Command} (hlane : q = p → lane.Past o) :
    Lost p o (s.setLane q lane) := by
  refine { h with lane := ?_ }
  rw [setLane_lanes]
  split_ifs with hq
  · exact hlane hq.symm
  · exact h.lane

variable {machine : BookMachine Command Cancel Result Book} {log : P → List (Option Command)}
variable {e : PipelineEvent P Cancel}

/-- No step brings a lost message back. -/
theorem Lost.step (h : Lost p o s) (hs : pipelineStep machine log s e = some s') : Lost p o s' := by
  cases e with
  | fetch q =>
    simp only [pipelineStep] at hs
    split at hs
    · cases hs
      refine h.setLane ?_
      rintro rfl
      exact { h.lane with
        next := h.lane.next.trans (Nat.lt_succ_self _)
        routing := fun x c hx ↦ by cases hx; exact h.lane.next
        acknowledging := by simp }
    · cases hs
      refine h.setLane ?_
      rintro rfl
      exact { h.lane with
        next := h.lane.next.trans (Nat.lt_succ_self _)
        routing := by simp
        acknowledging := fun x hx ↦ by cases hx; exact h.lane.next }
    · cases hs
  | route q =>
    simp only [pipelineStep] at hs
    split at hs
    · next offset command hphase =>
      split at hs
      · next s'' hpub =>
        cases hs
        have hentry : (RingEntry.place q offset command :
            RingEntry P Command Cancel).origin ≠ some (p, o) := by
          intro heq
          obtain ⟨rfl, rfl⟩ : q = p ∧ offset = o := by simpa [RingEntry.origin] using heq
          exact lt_irrefl _ (h.lane.routing _ _ hphase)
        refine (h.publish hentry hpub).setLane ?_
        rintro rfl
        exact { h.lane with
          routing := by simp
          acknowledging := fun x hx ↦ by cases hx; exact h.lane.routing _ _ hphase }
      · cases hs
        exact h
    · cases hs
  | ack q =>
    simp only [pipelineStep] at hs
    split at hs
    · next offset hphase =>
      split_ifs at hs
      cases hs
      refine h.setLane ?_
      rintro rfl
      have hlast := (h.lane.acknowledging _ hphase).trans (Nat.lt_succ_self _)
      exact { h.lane with
        routing := by simp
        acknowledging := by simp
        commitCh := List.forall_mem_append.mpr ⟨h.lane.commitCh, List.forall_mem_singleton.mpr hlast⟩ }
    · cases hs
  | receive q =>
    simp only [pipelineStep] at hs
    split at hs
    · next offset rest hch =>
      split_ifs at hs
      cases hs
      refine h.setLane ?_
      rintro rfl
      obtain ⟨hoffset, hrest⟩ := List.forall_mem_cons.mp (hch ▸ h.lane.commitCh)
      exact { h.lane with commitCh := hrest, maxOffset := fun _ ↦ lt_max_of_lt_right hoffset }
    · cases hs
  | flush q ok =>
    simp only [pipelineStep] at hs
    split_ifs at hs with hpending hok
    · cases hs
      exact h
    all_goals
      cases hs
      refine h.setLane ?_
      rintro rfl
    · exact { h.lane with committed := h.lane.maxOffset hpending, maxOffset := by simp }
    · exact { h.lane with maxOffset := by simp }
  | reassign q =>
    cases hs
    refine h.setLane ?_
    rintro rfl
    exact .start h.lane.committed
  | drain b =>
    simp only [pipelineStep] at hs
    split at hs
    · cases hs
      exact h.setBook _ _ ⟨fun x hx ↦ (h.books b).ring x (List.mem_of_mem_drop hx),
        fun x hx ↦ (h.books b).ring x (List.mem_of_mem_take hx), (h.books b).outbox⟩
    · cases hs
  | handle b =>
    simp only [pipelineStep] at hs
    have hbuf := (h.books b).buf
    split at hs
    · next q offset command buf houtbox heq =>
      cases hs
      obtain ⟨hplace, hbuf⟩ := List.forall_mem_cons.mp (heq ▸ hbuf)
      exact h.setBook _ _ { h.books b with buf := hbuf, outbox := List.forall_mem_singleton.mpr hplace }
    · next cancel buf houtbox heq =>
      cases hs
      obtain ⟨-, hbuf⟩ := List.forall_mem_cons.mp (heq ▸ hbuf)
      exact h.setBook _ _ { h.books b with buf := hbuf, outbox := List.forall_mem_map.mpr (by simp) }
    · cases hs
  | send b =>
    simp only [pipelineStep] at hs
    have hout := (h.books b).outbox
    split at hs
    · next r outbox heq =>
      split_ifs at hs
      cases hs
      obtain ⟨hr, hout⟩ := List.forall_mem_cons.mp (heq ▸ hout)
      have hbook := h.setBook b { s.books b with outbox := outbox } { h.books b with outbox := hout }
      exact { hbook with
        outputCh := List.forall_mem_append.mpr ⟨h.outputCh, List.forall_mem_singleton.mpr hr⟩ }
    · cases hs
  | dispatch =>
    simp only [pipelineStep] at hs
    have hout := h.outputCh
    split at hs
    · next r rest heq =>
      obtain ⟨hr, hrest⟩ := List.forall_mem_cons.mp (heq ▸ hout)
      split_ifs at hs
      · cases hs
        exact { h with outputCh := hrest }
      · cases hs
        have hfree := h.workers (workerOf r.bookKey)
        have hch := List.forall_mem_append.mpr ⟨hfree.ch, List.forall_mem_singleton.mpr hr⟩
        have hworker := h.setWorker (workerOf r.bookKey) ⟨_, _⟩ ⟨hch, hfree.batch⟩
        exact { hworker with outputCh := hrest }
    · cases hs
  | collect w =>
    simp only [pipelineStep] at hs
    have hch := (h.workers w).ch
    split at hs
    · next r rest heq =>
      split_ifs at hs
      cases hs
      obtain ⟨hr, hrest⟩ := List.forall_mem_cons.mp (heq ▸ hch)
      exact h.setWorker _ _
        ⟨hrest, List.forall_mem_append.mpr ⟨(h.workers w).batch, List.forall_mem_singleton.mpr hr⟩⟩
    · cases hs
  | persist w ok =>
    simp only [pipelineStep] at hs
    have hworker := h.setWorker w { s.workers w with batch := [] }
      ⟨(h.workers w).ch, by simp⟩
    split_ifs at hs
    · cases hs
      exact { hworker with store := List.forall_mem_append.mpr ⟨h.store, (h.workers w).batch⟩ }
    · cases hs
      exact hworker
  | setMode shadow =>
    cases hs
    exact { h with }
  | sweep b cancel =>
    simp only [pipelineStep] at hs
    split at hs
    · next s'' hpub =>
      cases hs
      exact h.publish (by simp [RingEntry.origin]) hpub
    · cases hs
      exact h
  | restart =>
    cases hs
    exact .boot h.lane.committed h.store

end Lost

/-! ## Durability -/

section Durability

variable {P Command Cancel Result Book : Type*} [DecidableEq P]
variable (machine : BookMachine Command Cancel Result Book) (log : P → List (Option Command))

/-- The result of the message `(p, o)` is in the store. -/
def Persisted (s : PipelineState P Command Cancel Result Book) (p : P) (o : ℕ) : Prop :=
  ∃ r ∈ s.store, r.origin = some (p, o)

variable {machine log}

theorem Persisted.step {s s' : PipelineState P Command Cancel Result Book} {p : P} {o : ℕ}
    {e : PipelineEvent P Cancel} (h : Persisted s p o) (hs : pipelineStep machine log s e = some s') :
    Persisted s' p o := by
  obtain ⟨r, hr, hro⟩ := h
  exact ⟨r, (pipelineStep_durable hs).2.subset hr, hro⟩

variable {s : PipelineState P Command Cancel Result Book}

end Durability

end FunnyOption.Pipeline
