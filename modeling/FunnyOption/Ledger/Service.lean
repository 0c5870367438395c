import FunnyOption.Ledger.Journal

/-!
# The ledger service

What the ledger adds up to, over everything that is offered to it.

`Append` compares the debits and the credits of an entry in 64 bits, where sums that differ by a multiple of `2 ^ 64`
are equal. Entries whose sums differ by less are balanced when they are accepted, and then all balances of an asset
add up to zero.

The consumers append an entry for every message. The entry has a new id each time, and nothing looks at its
reference, which is the id of the event. A message that is delivered again is entered again.

## The model

`Append` writes an entry to the store and to the journal of the process, or to neither. The store therefore has what
the processes before have written and what is in the journal, and a new process begins with an empty journal.
`applied` is added to the state: the messages that were handled without an error.

## Main results

* `Journal.exact_of_bounded`: the ledger is balanced in exact integers if the sums of all offered entries are less
  than `2 ^ 64` apart.
* `Service.balance_eq_countedOnce`: every balance is the one with each event counted once, if no message is delivered
  again after it was handled.
-/

open Foundation

namespace FunnyOption.Ledger

open Account (TradeMatchedEvent)
open Settlement (SettlementCompletedEvent)

/-! ## Exact sums -/

/-- An entry that is offered to the journal, with the new id and the answer of the store. -/
structure Offer where
  newID : String
  stored : Bool
  entry : Entry

/-- The sums of an entry are less than `2 ^ 64` apart. -/
def Entry.Bounded (entry : Entry) : Prop := ∀ p ∈ entry.postings.map Posting.normalize,
    |exactSum (entry.postings.map Posting.normalize) .debit p.asset -
      exactSum (entry.postings.map Posting.normalize) .credit p.asset| < 2 ^ 64

instance (entry : Entry) : Decidable entry.Bounded := inferInstanceAs (Decidable (∀ _ ∈ _, _))

theorem exactSum_cons (p : Posting) (ps : List Posting) (direction : Direction) (asset : String) :
    exactSum (p :: ps) direction asset =
      (if p.direction = direction ∧ p.asset = asset then p.amount else 0) + exactSum ps direction asset := by
  by_cases hp : p.direction = direction ∧ p.asset = asset
  · simp [exactSum, hp]
  · simp [exactSum, hp]

/-- What the postings in an asset add up to. -/
theorem sum_signed (ps : List Posting) (asset : String) :
    (ps.map fun p ↦ if p.asset = asset then p.signed else 0).sum =
      exactSum ps .credit asset - exactSum ps .debit asset := by
  induction ps with
  | nil => rfl
  | cons p ps ih =>
    rw [List.map_cons, List.sum_cons, ih, exactSum_cons, exactSum_cons]
    cases hdirection : p.direction with
    | debit =>
      simp only [Posting.signed, hdirection, true_and, reduceCtorEq, false_and, if_false]
      split_ifs <;> ring
    | credit =>
      simp only [Posting.signed, hdirection, true_and, reduceCtorEq, false_and, if_false]
      split_ifs <;> ring

/-- Sums of 64 bits that are equal are equal as integers if they are less than `2 ^ 64` apart. -/
theorem exactSum_eq_of_sumBy_eq {ps : List Posting} {asset : String}
    (h : sumBy ps .debit asset = sumBy ps .credit asset)
    (hbound : |exactSum ps .debit asset - exactSum ps .credit asset| < 2 ^ 64) :
    exactSum ps .debit asset = exactSum ps .credit asset := by
  have hmod : exactSum ps .debit asset % (2 ^ 64 : ℕ) = exactSum ps .credit asset % (2 ^ 64 : ℕ) := by
    rw [← Int.bmod_emod, ← Int.bmod_emod (x := exactSum ps .credit asset)]
    exact congrArg (· % _) h
  obtain ⟨hlow, hhigh⟩ := abs_lt.mp hbound
  omega

/-- The debits of an entry are its credits, in every asset. -/
def Entry.Balanced (entry : Entry) : Prop :=
  ∀ asset, exactSum entry.postings .debit asset = exactSum entry.postings .credit asset

/-- An entry that is accepted is balanced if its sums are less than `2 ^ 64` apart. -/
theorem Entry.Bounded.balanced {newID : String} {entry normalized : Entry} (h : entry.Bounded)
    (hok : normalizeEntry newID entry = .ok normalized) : normalized.Balanced := by
  obtain ⟨⟨-, -, hsums⟩, rfl⟩ := normalizeEntry_eq_ok_iff.mp hok
  intro asset
  by_cases hmem : asset ∈ (entry.postings.map Posting.normalize).map Posting.asset
  · obtain ⟨p, hp, rfl⟩ := List.mem_map.mp hmem
    exact exactSum_eq_of_sumBy_eq (hsums p.asset) (h p hp)
  · rw [exactSum_of_not_mem hmem, exactSum_of_not_mem hmem]

/-- What a balanced entry adds to all balances of an asset. -/
theorem Entry.Balanced.sum_signed {newID : String} {entry normalized : Entry} (h : normalized.Balanced)
    (hok : normalizeEntry newID entry = .ok normalized) (asset : String) :
    (normalized.postings.map fun p ↦
      if normalizeAsset p.asset = normalizeAsset asset then p.signed else 0).sum = 0 := by
  obtain ⟨-, rfl⟩ := normalizeEntry_eq_ok_iff.mp hok
  have hassets : ∀ p ∈ entry.postings.map Posting.normalize, normalizeAsset p.asset = p.asset := by
    intro p hp
    obtain ⟨q, -, rfl⟩ := List.mem_map.mp hp
    exact normalizeAsset_normalizeAsset q.asset
  rw [List.map_congr_left fun p hp ↦ by rw [hassets p hp], Ledger.sum_signed, h, sub_self]

namespace Journal

/-- One entry is offered. -/
def offer (j : Journal) (o : Offer) : Option Journal := some (j.append o.newID o.stored o.entry).1

/-- The ledger is balanced in exact integers. -/
structure Exact (j : Journal) : Prop where
  entries : ∀ entry ∈ j.entries, entry.Balanced
  total : ∀ asset, ∑ account ∈ j.accounts, j.balanceOf account asset = 0

theorem total_eq (j : Journal) (asset : String) :
    ∑ account ∈ j.accounts, j.balanceOf account asset = (j.entries.map fun entry ↦ (entry.postings.map fun p ↦
      if normalizeAsset p.asset = normalizeAsset asset then p.signed else 0).sum).sum := by
  have hsum := sum_balanceOf (j := j) (fun _ ↦ True) asset
  simp only [Finset.filter_true, true_and] at hsum
  rw [hsum, postings, List.map_flatMap, List.flatMap_def, List.sum_flatten, List.map_map]
  rfl

/-- **The ledger is balanced in exact integers** in every run in which the sums of each offered entry are less than
`2 ^ 64` apart. -/
theorem exact_of_bounded (offers : List Offer) (h : ∀ o ∈ offers, o.entry.Bounded) (j : Journal)
    (hj : Visits offer empty offers j) : j.Exact := by
  refine visits_induction ⟨by simp [empty], fun asset ↦ rfl⟩ ?_ j hj
  intro t o t' htakes ht
  obtain rfl := Option.some_inj.mp htakes.step_eq
  rcases append_cases t o.newID o.stored o.entry with ⟨hrefused, -⟩ | ⟨normalized, hok, -, hadded⟩
  · rwa [hrefused]
  have hbalanced := (h o htakes.mem).balanced hok
  refine ⟨fun entry hentry ↦ ?_, fun asset ↦ ?_⟩
  · rw [hadded] at hentry
    rcases List.mem_append.mp hentry with hentry | hentry
    · exact ht.entries entry hentry
    · rwa [List.mem_singleton.mp hentry]
  · have htotal := ht.total asset
    rw [total_eq] at htotal ⊢
    rw [hadded, List.map_append, List.sum_append, htotal, List.map_singleton, List.sum_singleton,
      hbalanced.sum_signed hok, add_zero]

/-- A transfer between two users. -/
def sampleTransfer : Offer :=
  ⟨"led_1", true, ⟨"", .transfer, "t", [⟨"user:1", "USDT", .debit, 5⟩, ⟨"user:2", "USDT", .credit, 5⟩]⟩⟩

theorem exact_of_transfer :
    sampleTransfer.entry.Bounded ∧ ∀ j, Visits offer empty [sampleTransfer] j → j.Exact :=
  ⟨by decide, exact_of_bounded [sampleTransfer] (by decide)⟩

/-- Four debits of `2 ^ 62`, whose sum is zero in 64 bits. -/
def sampleWrapped : Offer :=
  ⟨"led_1", true, ⟨"", .transfer, "t", List.replicate 4 ⟨"user:1", "USDT", .debit, 2 ^ 62⟩⟩⟩

/-- **An entry without a credit is accepted.** -/
theorem accepts_wrapped_debits : ∃ j, exec offer empty [sampleWrapped] = some j ∧ ¬ j.Exact := by
  have hrun : ∃ j ∈ exec offer empty [sampleWrapped],
      ∑ account ∈ j.accounts, j.balanceOf account "USDT" = -2 ^ 64 := by decide
  obtain ⟨j, hj, htotal⟩ := hrun
  refine ⟨j, hj, fun hexact ↦ ?_⟩
  rw [hexact.total "USDT"] at htotal
  exact absurd htotal (by decide)

end Journal

/-! ## Messages -/

/-- A message of one of the two topics. -/
inductive Message where
  | trade (event : TradeMatchedEvent)
  | settlement (event : SettlementCompletedEvent)
  deriving DecidableEq

namespace Journal

/-- The handler of a message. -/
def handle (j : Journal) (newID : String) (stored : Bool) : Message → Journal × Except LedgerError Unit
  | .trade event => j.handleTradeMatched newID stored event
  | .settlement event => j.handleSettlementCompleted newID stored event

/-- A message is refused whatever the journal, or it is an entry to append. -/
theorem handle_eq (m : Message) : (∃ e, ∀ j newID stored, handle j newID stored m = (j, .error e)) ∨
    ∃ entry, ∀ j newID stored, handle j newID stored m =
      ((append j newID stored entry).1, (append j newID stored entry).2.map fun _ ↦ ()) := by
  cases m with
  | settlement event => exact .inr ⟨settlementEntry event, fun j newID stored ↦ rfl⟩
  | trade event =>
    simp only [handle, handleTradeMatched]
    cases tradeNotional event.price event.quantity with
    | error e => exact .inl ⟨e, fun j newID stored ↦ rfl⟩
    | ok notional =>
      simp only [transferParties, positionParties]
      cases parties event with
      | error e => exact .inl ⟨e, fun j newID stored ↦ rfl⟩
      | ok users => exact .inr ⟨_, fun j newID stored ↦ rfl⟩

end Journal

/-- What a message adds to a balance by itself. -/
def Message.effect (account asset : String) (m : Message) : ℤ :=
  (Journal.empty.handle "" true m).1.balanceOf account asset

/-- **A message that is handled adds its effect to every balance**, and one that is not changes nothing. -/
theorem Journal.handle_cases (j : Journal) (newID : String) (stored : Bool) (m : Message) :
    ((j.handle newID stored m).1 = j ∧ ∃ e, (j.handle newID stored m).2 = .error e) ∨
    ((j.handle newID stored m).2 = .ok () ∧ ∀ account asset,
      (j.handle newID stored m).1.balanceOf account asset = j.balanceOf account asset + m.effect account asset) := by
  rcases handle_eq m with ⟨e, hrefused⟩ | ⟨entry, hentry⟩
  · rw [hrefused]
    exact .inl ⟨rfl, e, rfl⟩
  · rw [hentry]
    rcases append_cases j newID stored entry with ⟨hj, e, he⟩ | ⟨normalized, hnormalized, hok, hadded⟩
    · exact .inl ⟨hj, e, by rw [he]; rfl⟩
    · refine .inr ⟨by rw [hok]; rfl, fun account asset ↦ ?_⟩
      obtain ⟨hvalid, rfl⟩ := normalizeEntry_eq_ok_iff.mp hnormalized
      -- the same postings are appended to an empty journal
      have halone : (empty.append "" true entry).1.postings = entry.postings.map Posting.normalize := by
        rw [append, normalizeEntry_eq_ok_iff.mpr ⟨hvalid, rfl⟩]
        simp [postings, empty]
      rw [Message.effect, hentry, balanceOf_eq (j := (empty.append "" true entry).1), halone]
      simp [balanceOf, hadded]

/-! ## The service -/

/-- The service, with what the processes before this one have stored. -/
structure Service where
  before : List Posting
  journal : Journal
  applied : List Message

/-- An event of the service. -/
inductive ServiceEvent where
  | deliver (newID : String) (stored : Bool) (m : Message)
  | restart

namespace Service

/-- A ledger without entries. -/
def start : Service := ⟨[], .empty, []⟩

/-- One event. -/
def step (s : Service) : ServiceEvent → Option Service
  | .deliver newID stored m =>
    let handled := s.journal.handle newID stored m
    match handled.2 with
    | .ok _ => some { s with journal := handled.1, applied := m :: s.applied }
    | .error _ => some { s with journal := handled.1 }
  | .restart => some { s with before := s.before ++ s.journal.postings, journal := .empty }

/-- The balance of an account in an asset, over the stored postings. -/
def balance (s : Service) (account asset : String) : ℤ :=
  ((s.before ++ s.journal.postings).map (Journal.effect (normalizeAccount account) (normalizeAsset asset))).sum

/-- The balance with each event counted once. -/
def countedOnce (s : Service) (account asset : String) : ℤ := (s.applied.dedup.map (Message.effect account asset)).sum

/-- A message that was handled is not delivered again. -/
def DeliversNew (s : Service) : ServiceEvent → Prop
  | .deliver _ _ m => m ∉ s.applied
  | .restart => True

instance : DecidableRel DeliversNew := fun s e ↦ by
  cases e <;> unfold DeliversNew <;> infer_instance

theorem balance_eq (s : Service) (account asset : String) :
    s.balance account asset = (s.before.map (Journal.effect (normalizeAccount account) (normalizeAsset asset))).sum +
      s.journal.balanceOf account asset := by
  rw [balance, List.map_append, List.sum_append, Journal.balanceOf_eq]

/-- **Every balance is the one with each event counted once**, in every run in which no message is delivered again
after it was handled. -/
theorem balance_eq_countedOnce (es : List ServiceEvent) (h : Along step DeliversNew start es) (s : Service)
    (hs : Visits step start es s) (account asset : String) :
    s.balance account asset = s.countedOnce account asset := by
  have hinv : s.applied.Nodup ∧ s.balance account asset = (s.applied.map (Message.effect account asset)).sum := by
    refine visits_induction (P := fun s ↦ s.applied.Nodup ∧
      s.balance account asset = (s.applied.map (Message.effect account asset)).sum) ⟨List.nodup_nil, rfl⟩ ?_ s hs
    rintro t e t' htakes ⟨hnodup, ht⟩
    have hstep := htakes.step_eq
    cases e with
    | restart =>
      obtain rfl := Option.some_inj.mp hstep
      refine ⟨hnodup, Eq.trans ?_ ht⟩
      simp [balance, Journal.postings, Journal.empty]
    | deliver newID stored m =>
      have hnew : m ∉ t.applied := h.of_takes htakes
      simp only [step] at hstep
      rcases t.journal.handle_cases newID stored m with ⟨hsame, e, he⟩ | ⟨hok, hadds⟩
      · rw [he] at hstep
        obtain rfl := Option.some_inj.mp hstep
        rw [hsame]
        exact ⟨hnodup, ht⟩
      · rw [hok] at hstep
        obtain rfl := Option.some_inj.mp hstep
        refine ⟨List.nodup_cons.mpr ⟨hnew, hnodup⟩, ?_⟩
        rw [balance_eq] at ht ⊢
        rw [hadds, List.map_cons, List.sum_cons, ← ht]
        ring
  rw [countedOnce, hinv.1.dedup, hinv.2]

/-- The settlement of a position of a user. -/
def sampleSettlement (userID : ℤ) : Message :=
  .settlement ⟨"stl", 1, userID, "YES", "POSITION:1:YES", 10, "USDT", 1000⟩

/-- Two settlements with a restart between them. -/
def sampleRun : List ServiceEvent :=
  [.deliver "led_1" true (sampleSettlement 1), .restart, .deliver "led_2" true (sampleSettlement 2)]

theorem balance_eq_countedOnce_of_restart : Along step DeliversNew start sampleRun ∧
    ∀ s, Visits step start sampleRun s → ∀ account asset, s.balance account asset = s.countedOnce account asset :=
  ⟨by decide +kernel, balance_eq_countedOnce sampleRun (by decide +kernel)⟩

/-- **A settlement that is delivered twice pays twice in the ledger.** -/
theorem redelivery_pays_twice :
    ∃ s ∈ exec step start [.deliver "led_1" true (sampleSettlement 1), .deliver "led_2" true (sampleSettlement 1)],
      s.balance (availableAccount 1) "USDT" = 2000 ∧ s.countedOnce (availableAccount 1) "USDT" = 1000 := by
  decide +kernel

end Service

end FunnyOption.Ledger
