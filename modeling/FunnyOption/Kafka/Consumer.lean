import FunnyOption.Foundation.Run

/-!
# The Kafka consumer loop

`JSONConsumer.Start` runs one loop per partition: fetch a message, call the handler, and commit the
message if the handler returned no error. A failed handler is logged and the loop goes on with the
next message.

The log of the partition is a list; `CommitMessages` of the message at offset `o` sets the group's
committed offset to `o + 1`, successive fetches return successive offsets, and a restarted consumer
resumes at the committed offset. Every pattern of handler and broker errors is a list of events.

## The history

Two fields of the state are not held by the program. `succeeded` collects the offsets whose handler
has ever returned success, and `failed` those whose handler returned an error since the consumer was
last started. They are what the delivery guarantee is stated over: an offset below the committed one
is never delivered again.
-/

open Foundation

namespace FunnyOption.Kafka

/-- Where the loop of `JSONConsumer.Start` stands. -/
inductive Phase where
  /-- At `FetchMessage`. -/
  | fetching
  /-- At the handler, with the message at this offset. -/
  | handling (offset : ℕ)
  /-- At `CommitMessages`, after the handler of this offset returned no error. -/
  | committing (offset : ℕ)
  deriving DecidableEq

/-- The state of a partition and its consumer. -/
structure ConsumerState where
  /-- The offset committed for the consumer group. -/
  committed : ℕ
  /-- The offset the next fetch of this session returns. -/
  next : ℕ
  /-- The position in the loop. -/
  phase : Phase
  /-- The offsets whose handler has ever returned success. -/
  succeeded : List ℕ
  /-- The offsets whose handler returned an error in this session. -/
  failed : List ℕ

/-- What can happen to the consumer. -/
inductive ConsumerEvent where
  /-- `FetchMessage` returns the next message. -/
  | fetch
  /-- `FetchMessage` returns an error, and the loop tries again. -/
  | fetchError
  /-- The handler returns, with or without an error. -/
  | handle (ok : Bool)
  /-- `CommitMessages` returns, with or without an error. -/
  | commit (ok : Bool)
  /-- The process stops at this point and a new consumer starts. -/
  | restart
  deriving DecidableEq

/-- A consumer that starts at offset `start`. -/
def ConsumerState.initial (start : ℕ) : ConsumerState where
  committed := start
  next := start
  phase := .fetching
  succeeded := []
  failed := []

/-- One step of the loop of `JSONConsumer.Start`. -/
def consumerStep {μ : Type*} (log : List μ) (s : ConsumerState) : ConsumerEvent → Option ConsumerState
  | .fetch =>
    match s.phase with
    | .fetching =>
      if s.next < log.length then some { s with phase := .handling s.next, next := s.next + 1 }
      else none
    | _ => none
  | .fetchError =>
    match s.phase with
    | .fetching => some s
    | _ => none
  | .handle ok =>
    match s.phase with
    | .handling offset =>
      if ok then some { s with phase := .committing offset, succeeded := offset :: s.succeeded }
      -- the loop continues with the next fetch, without a commit
      else some { s with phase := .fetching, failed := offset :: s.failed }
    | _ => none
  | .commit ok =>
    match s.phase with
    | .committing offset =>
      some { s with phase := .fetching, committed := if ok then offset + 1 else s.committed }
    | _ => none
  | .restart => some { s with phase := .fetching, next := s.committed, failed := [] }

/-! ## The delivery guarantee -/

/-- No offset from `start` on that lies below the committed one is without a success. -/
def Lossless (start : ℕ) (s : ConsumerState) : Prop := ∀ o, start ≤ o → o < s.committed → o ∈ s.succeeded

/-- A commit succeeds only if every message that failed in this session has succeeded at some
time. -/
def CommitsAfterSuccess (s : ConsumerState) (e : ConsumerEvent) : Prop :=
  e = .commit true → ∀ o ∈ s.failed, o ∈ s.succeeded

/-- What the loop keeps, given that nothing has been lost so far. -/
structure ConsumerInv (start : ℕ) (s : ConsumerState) : Prop where
  /-- Every offset fetched so far has succeeded, failed in this session, or is being handled. -/
  fetched : ∀ o, start ≤ o → o < s.next → o ∈ s.succeeded ∨ o ∈ s.failed ∨ s.phase = .handling o
  /-- The offset in hand is the one fetched last. -/
  handling : ∀ o, s.phase = .handling o → o + 1 = s.next ∧ start ≤ o
  /-- The offset to be committed is the one fetched last, and it has succeeded. -/
  committing : ∀ o, s.phase = .committing o → o + 1 = s.next ∧ o ∈ s.succeeded
  /-- Failures of this session lie in the fetched range. -/
  failed : ∀ o ∈ s.failed, start ≤ o ∧ o < s.next
  /-- The committed offset does not fall below the start. -/
  committed : start ≤ s.committed ∧ start ≤ s.next

theorem ConsumerInv.initial (start : ℕ) : ConsumerInv start (.initial start) where
  fetched o hs ho := absurd ho (Nat.not_lt.mpr hs)
  handling o h := by simp [ConsumerState.initial] at h
  committing o h := by simp [ConsumerState.initial] at h
  failed o h := by simp [ConsumerState.initial] at h
  committed := ⟨le_rfl, le_rfl⟩

section Step

variable {μ : Type*} {log : List μ} {start : ℕ} {s s' : ConsumerState} {e : ConsumerEvent}

/-- Everything a step can do. -/
theorem consumerStep_cases (h : consumerStep log s e = some s') : (e = .fetch ∧ s.phase = .fetching ∧
      s' = { s with phase := .handling s.next, next := s.next + 1 }) ∨
    (e = .fetchError ∧ s' = s) ∨
    (∃ o, e = .handle true ∧ s.phase = .handling o ∧
      s' = { s with phase := .committing o, succeeded := o :: s.succeeded }) ∨
    (∃ o, e = .handle false ∧ s.phase = .handling o ∧ s' = { s with phase := .fetching, failed := o :: s.failed }) ∨
    (∃ o, e = .commit true ∧ s.phase = .committing o ∧ s' = { s with phase := .fetching, committed := o + 1 }) ∨
    (∃ o, e = .commit false ∧ s.phase = .committing o ∧ s' = { s with phase := .fetching }) ∨
    (e = .restart ∧ s' = { s with phase := .fetching, next := s.committed, failed := [] }) := by
  cases e with
  | fetch =>
    simp only [consumerStep] at h
    split at h <;> [split_ifs at h; skip] <;> simp_all
  | fetchError =>
    simp only [consumerStep] at h
    split at h <;> simp_all
  | handle ok =>
    simp only [consumerStep] at h
    split at h <;> cases ok <;> simp_all
  | commit ok =>
    simp only [consumerStep] at h
    split at h <;> cases ok <;> simp_all
  | restart =>
    simp only [consumerStep, Option.some_inj] at h
    simp_all

/-- One step keeps the invariant, from a state in which nothing is lost. -/
theorem ConsumerInv.step (hi : ConsumerInv start s) (hl : Lossless start s) (h : consumerStep log s e = some s') :
    ConsumerInv start s' := by
  rcases consumerStep_cases h with ⟨-, hp, rfl⟩ | ⟨-, rfl⟩ | ⟨o, -, hp, rfl⟩ | ⟨o, -, hp, rfl⟩ |
    ⟨o, -, hp, rfl⟩ | ⟨o, -, hp, rfl⟩ | ⟨-, rfl⟩
  -- fetch
  · refine ⟨fun x hs hx ↦ ?_, ?_, by simp, fun x hx ↦ ?_, hi.committed.1, ?_⟩
    · rcases Nat.lt_succ_iff_lt_or_eq.mp hx with hx | rfl
      · rcases hi.fetched x hs hx with h | h | h
        · exact .inl h
        · exact .inr (.inl h)
        · rw [hp] at h
          cases h
      · exact .inr (.inr rfl)
    · rintro x hx
      obtain rfl : s.next = x := by simpa using hx
      exact ⟨rfl, hi.committed.2⟩
    · exact ⟨(hi.failed x hx).1, (hi.failed x hx).2.trans (Nat.lt_succ_self _)⟩
    · exact hi.committed.2.trans (Nat.le_succ _)
  -- fetch error
  · exact hi
  -- handler success
  · obtain ⟨hnext, hso⟩ := hi.handling o hp
    refine ⟨fun x hs hx ↦ ?_, by simp, ?_, hi.failed, hi.committed⟩
    · rcases hi.fetched x hs hx with h | h | h
      · exact .inl (List.mem_cons_of_mem _ h)
      · exact .inr (.inl h)
      · obtain rfl : o = x := by simpa [hp] using h
        exact .inl List.mem_cons_self
    · rintro x hx
      obtain rfl : o = x := by simpa using hx
      exact ⟨hnext, List.mem_cons_self⟩
  -- handler failure
  · obtain ⟨hnext, hso⟩ := hi.handling o hp
    refine ⟨fun x hs hx ↦ ?_, by simp, by simp, ?_, hi.committed⟩
    · rcases hi.fetched x hs hx with h | h | h
      · exact .inl h
      · exact .inr (.inl (List.mem_cons_of_mem _ h))
      · obtain rfl : o = x := by simpa [hp] using h
        exact .inr (.inl List.mem_cons_self)
    · rintro x hx
      rcases List.mem_cons.mp hx with rfl | hx
      · exact ⟨hso, Nat.lt_of_succ_le hnext.le⟩
      · exact hi.failed x hx
  -- commit
  · obtain ⟨hnext, hso⟩ := hi.committing o hp
    refine ⟨fun x hs hx ↦ ?_, by simp, by simp, hi.failed, ?_, hi.committed.2⟩
    · rcases hi.fetched x hs hx with h | h | h
      · exact .inl h
      · exact .inr (.inl h)
      · rw [hp] at h
        cases h
    · exact hnext ▸ hi.committed.2
  -- commit error
  · refine ⟨fun x hs hx ↦ ?_, by simp, by simp, hi.failed, hi.committed⟩
    rcases hi.fetched x hs hx with h | h | h
    · exact .inl h
    · exact .inr (.inl h)
    · rw [hp] at h
      cases h
  -- restart: everything below the committed offset has succeeded
  · exact ⟨fun x hs hx ↦ .inl (hl x hs hx), by simp, by simp, by simp, hi.committed.1, hi.committed.1⟩

/-- One step that meets the condition loses nothing. -/
theorem Lossless.step (hi : ConsumerInv start s) (hl : Lossless start s) (hc : CommitsAfterSuccess s e)
    (h : consumerStep log s e = some s') : Lossless start s' := by
  rcases consumerStep_cases h with ⟨-, hp, rfl⟩ | ⟨-, rfl⟩ | ⟨o, -, hp, rfl⟩ | ⟨o, -, hp, rfl⟩ |
    ⟨o, rfl, hp, rfl⟩ | ⟨o, -, hp, rfl⟩ | ⟨-, rfl⟩
  · exact hl
  · exact hl
  · exact fun x hs hx ↦ List.mem_cons_of_mem _ (hl x hs hx)
  · exact hl
  · obtain ⟨hnext, -⟩ := hi.committing o hp
    intro x hs hx
    rcases hi.fetched x hs (hnext ▸ hx) with h | h | h
    · exact h
    · exact hc rfl x h
    · rw [hp] at h
      cases h
  · exact hl
  · exact hl

end Step

/-- **Delivery.** Along every run of the consumer the committed offset stays behind every message
whose handler has never succeeded, exactly if no commit succeeds while a failure of the session is
still unresolved. -/
theorem consumer_lossless_iff {μ : Type*} (log : List μ) (start : ℕ) (es : List ConsumerEvent) :
    (∀ t, Visits (consumerStep log) (.initial start) es t → Lossless start t) ↔
      ∀ t e t', Takes (consumerStep log) (.initial start) es t e t' → CommitsAfterSuccess t e := by
  constructor
  · intro hl t e t' htake
    have hi : ConsumerInv start t := visits_induction (.initial start)
      (fun u e u' hu hi ↦ hi.step (hl u hu.visits) hu.step_eq) t htake.visits
    rintro rfl o ho
    obtain ⟨o', hp, rfl⟩ : ∃ o', t.phase = .committing o' ∧
        t' = { t with phase := .fetching, committed := o' + 1 } := by
      simpa using consumerStep_cases htake.step_eq
    obtain ⟨hnext, -⟩ := hi.committing o' hp
    obtain ⟨hso, hlt⟩ := hi.failed o ho
    exact hl _ htake.visits_next o hso (hnext ▸ hlt)
  · intro hc t ht
    have hboth : ConsumerInv start t ∧ Lossless start t :=
      visits_induction (P := fun t ↦ ConsumerInv start t ∧ Lossless start t)
        ⟨.initial start, fun o hs ho ↦ absurd ho (Nat.not_lt.mpr hs)⟩
        (fun u e u' hu hi ↦
          ⟨hi.1.step hi.2 hu.step_eq, hi.2.step hi.1 (hc u e u' hu) hu.step_eq⟩) t ht
    exact hboth.2

/-- Two messages: the handler fails on the first and succeeds on the second, whose commit passes
both. -/
theorem consumer_loses_failed_message : ∃ t, Visits (consumerStep ["first", "second"]) (.initial 0)
        [.fetch, .handle false, .fetch, .handle true, .commit true] t ∧ ¬ Lossless 0 t := by
  refine ⟨⟨2, 2, .fetching, [1], [0]⟩, visits_of_exec rfl, fun h ↦ ?_⟩
  have h0 := h 0 le_rfl (by decide)
  simp at h0

end FunnyOption.Kafka
