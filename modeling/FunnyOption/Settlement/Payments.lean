import FunnyOption.Settlement.Processor

/-!
# Paying the winning positions

The loop of `settleWinningPositions` works on each user alone. What it reads and writes of a user is the
*holding* of the user: the position, the payout under the user's event id, and the settlement events that
were published under this id. `Holding.pay` is what the loop does to a holding. It may be done again without a
change, and also after a loop that stopped between publishing and marking: `pay_of_partial`.
-/

open Foundation

namespace FunnyOption.Settlement

/-! ## Event ids -/

/-- An outcome as the handlers store it. -/
def Normalized (outcome : String) : Prop := toUpper (trimSpace outcome) = outcome

theorem normalized_toUpper (text : String) : Normalized (toUpper (trimSpace text)) := by
  rw [Normalized, trimSpace_toUpper, trimSpace_trimSpace, toUpper_toUpper]

theorem Normalized.trimSpace_eq {outcome : String} (h : Normalized outcome) : trimSpace outcome = outcome := by
  rw [← h, trimSpace_toUpper, trimSpace_trimSpace]

theorem settlementEventID_inj {marketID u v : ℤ} {outcome : String} :
    settlementEventID marketID u outcome = settlementEventID marketID v outcome ↔ u = v := by
  refine ⟨fun h ↦ ?_, fun h ↦ by rw [h]⟩
  unfold settlementEventID at h
  have hfront := (String.append_left_inj _).mp ((String.append_left_inj _).mp h)
  exact toString_int_injective ((String.append_right_inj _).mp hfront)

/-- What an event id starts with. -/
private def idFront (marketID userID : ℤ) : String :=
  "evt_settlement_" ++ toString marketID ++ "_" ++ toString userID ++ "_"

private theorem isSpace_of_mem {text : String} (h : (text.toList.all fun c ↦ !isSpace c) = true) {c : Char}
    (hc : c ∈ text.toList) : isSpace c = false := by
  simpa using List.all_eq_true.mp h c hc

private theorem isSpace_of_mem_idFront {marketID userID : ℤ} {c : Char} (hc : c ∈ (idFront marketID userID).toList) :
    isSpace c = false := by
  unfold idFront at hc
  simp only [String.toList_append, List.mem_append] at hc
  rcases hc with (((hc | hc) | hc) | hc) | hc
  · exact isSpace_of_mem (by decide) hc
  · exact isSpace_of_mem_toString_int hc
  · exact isSpace_of_mem (by decide) hc
  · exact isSpace_of_mem_toString_int hc
  · exact isSpace_of_mem (by decide) hc

private theorem idFront_ne_empty (marketID userID : ℤ) : idFront marketID userID ≠ "" := by
  intro hempty
  have hmem : '_' ∈ (idFront marketID userID).toList := by
    unfold idFront
    rw [String.toList_append]
    exact List.mem_append_right _ List.mem_cons_self
  rw [hempty] at hmem
  exact absurd hmem List.not_mem_nil

theorem trimSpace_settlementEventID {marketID userID : ℤ} {outcome : String} (h : Normalized outcome) :
    trimSpace (settlementEventID marketID userID outcome) =
      settlementEventID marketID userID outcome := by
  have hid : settlementEventID marketID userID outcome = idFront marketID userID ++ outcome := by
    unfold settlementEventID idFront
    rw [h]
  rw [hid]
  exact trimSpace_append (fun _ ↦ isSpace_of_mem_idFront) (idFront_ne_empty _ _) h.trimSpace_eq

/-! ## Holdings -/

/-- What the loop reads and writes of a user. -/
@[ext]
structure Holding where
  row : Option PositionRow
  payout : Option PayoutRow
  events : Set SettlementCompletedEvent

variable {marketID userID : ℤ} {outcome : String}

/-- The event for what is left of a position. -/
def paymentEvent (marketID : ℤ) (outcome : String) (userID : ℤ) (row : PositionRow) : SettlementCompletedEvent :=
  settlementEvent ⟨marketID, userID, outcome, row.quantity - row.settledQuantity⟩
    ((row.quantity - row.settledQuantity) * 100)

/-- The payout that is stored for an event. -/
def payoutRow (event : SettlementCompletedEvent) : PayoutRow :=
  ⟨event.marketID, event.userID, toUpper (trimSpace event.winningOutcome), Store.settledAsset event,
    event.settledQuantity, toUpper (trimSpace event.payoutAsset), event.payoutAmount⟩

namespace Holding

/-- The event of a position that is not settled is published. -/
def publish (marketID : ℤ) (outcome : String) (userID : ℤ) (x : Holding) : Holding :=
  match x.row with
  | none => x
  | some row =>
    if row.settledQuantity < row.quantity then
      { x with events := insert (paymentEvent marketID outcome userID row) x.events }
    else x

/-- A position that is not settled is paid, unless there is a payout under its event id. -/
def pay (marketID : ℤ) (outcome : String) (userID : ℤ) (x : Holding) : Holding :=
  match x.row with
  | none => x
  | some row =>
    if row.settledQuantity < row.quantity then
      let event := paymentEvent marketID outcome userID row
      match x.payout with
      | some payout => ⟨some row, some payout, insert event x.events⟩
      | none => ⟨some { row with settledQuantity := row.quantity }, some (payoutRow event), insert event x.events⟩
    else x

/-- What a loop that stops leaves of a user. -/
def Partial (marketID : ℤ) (outcome : String) (userID : ℤ) (x y : Holding) : Prop :=
  y = x ∨ y = x.publish marketID outcome userID ∨ y = x.pay marketID outcome userID

variable {x y : Holding} {row : PositionRow}

theorem publish_of_lt (hrow : x.row = some row) (hlt : row.settledQuantity < row.quantity) :
    x.publish marketID outcome userID =
      { x with events := insert (paymentEvent marketID outcome userID row) x.events } := by
  rw [publish, hrow]
  exact if_pos hlt

theorem pay_of_none (hrow : x.row = some row) (hlt : row.settledQuantity < row.quantity) (hpayout : x.payout = none) :
    x.pay marketID outcome userID = ⟨some { row with settledQuantity := row.quantity },
        some (payoutRow (paymentEvent marketID outcome userID row)),
        insert (paymentEvent marketID outcome userID row) x.events⟩ := by
  rw [pay, hrow, hpayout]
  exact if_pos hlt

/-- With a payout under the event id, paying is publishing. -/
theorem pay_of_some (hrow : x.row = some row) (hlt : row.settledQuantity < row.quantity) (hpayout : x.payout ≠ none) :
    x.pay marketID outcome userID = x.publish marketID outcome userID := by
  obtain ⟨payout, hpayout⟩ := Option.ne_none_iff_exists'.mp hpayout
  rw [publish_of_lt hrow hlt, pay, hrow, hpayout]
  exact if_pos hlt

theorem pay_of_settled (h : ∀ row, x.row = some row → ¬ row.settledQuantity < row.quantity) :
    x.pay marketID outcome userID = x := by
  rw [pay]
  split
  · rfl
  · rename_i row hrow
    exact if_neg (h row hrow)

theorem pay_publish (x : Holding) :
    (x.publish marketID outcome userID).pay marketID outcome userID = x.pay marketID outcome userID := by
  obtain ⟨_ | row, _ | payout, events⟩ := x
  · rfl
  · rfl
  all_goals
    simp only [publish]
    split_ifs with hlt
    · simp only [pay, if_pos hlt, Set.insert_idem]
    · rfl

theorem pay_pay (x : Holding) :
    (x.pay marketID outcome userID).pay marketID outcome userID = x.pay marketID outcome userID := by
  obtain ⟨_ | row, _ | payout, events⟩ := x
  · rfl
  · rfl
  all_goals
    simp only [pay]
    split_ifs with hlt <;> simp [hlt]

theorem publish_pay (x : Holding) :
    (x.pay marketID outcome userID).publish marketID outcome userID = x.pay marketID outcome userID := by
  obtain ⟨_ | row, _ | payout, events⟩ := x
  · rfl
  · rfl
  all_goals
    simp only [pay]
    split_ifs with hlt <;> simp [publish, hlt]

/-- A user that a loop left halfway is paid as if the loop had not run. -/
theorem pay_of_partial (h : Partial marketID outcome userID x y) :
    y.pay marketID outcome userID = x.pay marketID outcome userID := by
  rcases h with rfl | rfl | rfl
  · rfl
  · exact pay_publish x
  · exact pay_pay x

/-- A position that is left to pay was to be paid before. -/
theorem Partial.row_eq (h : Partial marketID outcome userID x y) (hrow : y.row = some row)
    (hlt : row.settledQuantity < row.quantity) : x.row = some row := by
  rcases h with rfl | rfl | rfl
  · exact hrow
  · rw [publish] at hrow
    repeat' split at hrow
    all_goals exact hrow
  · rw [pay] at hrow
    split at hrow
    · exact hrow
    · rename_i row' hrow'
      split at hrow
      · dsimp only at hrow
        split at hrow
        · rw [hrow']
          exact hrow
        · -- a position that was marked is settled
          obtain rfl := Option.some.inj hrow
          exact absurd hlt (lt_irrefl _)
      · exact hrow

/-- Nothing more happens to a user that was paid. -/
theorem Partial.of_pay (h : Partial marketID outcome userID (x.pay marketID outcome userID) y) :
    Partial marketID outcome userID x y := by
  rcases h with rfl | rfl | rfl
  · exact .inr (.inr rfl)
  · exact .inr (.inr (publish_pay x))
  · exact .inr (.inr (pay_pay x))

end Holding

/-! ## The holding of a user -/

/-- The holding of a user in a market and an outcome. -/
def World.holding (marketID : ℤ) (outcome : String) (w : World) (userID : ℤ) : Holding where
  row := w.store.positions.get (marketID, userID, outcome)
  payout := w.store.payouts.get (settlementEventID marketID userID outcome)
  events := {event | .settlement event ∈ w.published ∧ event.eventID = settlementEventID marketID userID outcome}

/-- Two worlds that differ in the holdings of a market and an outcome only. -/
structure World.SameElsewhere (marketID : ℤ) (outcome : String) (w w' : World) : Prop where
  frozen : w'.store.frozen = w.store.frozen
  markets : w'.store.markets = w.store.markets
  orders : w'.store.orders = w.store.orders
  positions : ∀ key : PositionKey, (∀ userID, key ≠ (marketID, userID, outcome)) →
    w'.store.positions.get key = w.store.positions.get key
  payouts : ∀ id, (∀ userID, id ≠ settlementEventID marketID userID outcome) →
    w'.store.payouts.get id = w.store.payouts.get id
  published : ∀ message, (∀ event userID, message = .settlement event →
      event.eventID ≠ settlementEventID marketID userID outcome) →
    (message ∈ w'.published ↔ message ∈ w.published)

variable {w w' w'' : World}

theorem World.SameElsewhere.refl (w : World) : w.SameElsewhere marketID outcome w :=
  ⟨rfl, rfl, rfl, fun _ _ ↦ rfl, fun _ _ ↦ rfl, fun _ _ ↦ Iff.rfl⟩

theorem World.SameElsewhere.trans (h : w.SameElsewhere marketID outcome w')
    (h' : w'.SameElsewhere marketID outcome w'') : w.SameElsewhere marketID outcome w'' where
  frozen := h'.frozen.trans h.frozen
  markets := h'.markets.trans h.markets
  orders := h'.orders.trans h.orders
  positions key hkey := (h'.positions key hkey).trans (h.positions key hkey)
  payouts id hid := (h'.payouts id hid).trans (h.payouts id hid)
  published message hmessage := (h'.published message hmessage).trans (h.published message hmessage)

/-- A position as the loop reads it. -/
structure World.Winner (marketID : ℤ) (outcome : String) (w : World) (position : WinningPosition)
    (row : PositionRow) : Prop where
  position_eq : position = ⟨marketID, position.userID, outcome, row.quantity - row.settledQuantity⟩
  row_eq : w.store.positions.get (marketID, position.userID, outcome) = some row
  unsettled : row.settledQuantity < row.quantity

section Step

variable {position : WinningPosition} {row : PositionRow}

theorem World.Winner.event_eq (h : w.Winner marketID outcome position row) :
    settlementEvent position (position.quantity * 100) =
      paymentEvent marketID outcome position.userID row := by
  rw [paymentEvent, h.position_eq]

theorem World.sameElsewhere_publish (h : w.Winner marketID outcome position row) : w.SameElsewhere marketID outcome
      (w.publish (.settlement (settlementEvent position (position.quantity * 100)))) where
  frozen := rfl
  markets := rfl
  orders := rfl
  positions _ _ := rfl
  payouts _ _ := rfl
  published message hmessage := by
    rw [publish, List.mem_append, List.mem_singleton, or_iff_left]
    intro heq
    refine hmessage _ position.userID heq ?_
    rw [h.event_eq]
    rfl

theorem World.holding_publish (h : w.Winner marketID outcome position row) (userID : ℤ) :
    (w.publish (.settlement (settlementEvent position (position.quantity * 100)))).holding marketID
        outcome userID =
      if userID = position.userID then (w.holding marketID outcome userID).publish marketID outcome userID
      else w.holding marketID outcome userID := by
  rw [h.event_eq]
  have hevents : ∀ event, (.settlement event ∈ w.published ++
      [.settlement (paymentEvent marketID outcome position.userID row)] ∧
        event.eventID = settlementEventID marketID userID outcome) ↔
      (.settlement event ∈ w.published ∧ event.eventID = settlementEventID marketID userID outcome) ∨
        (event = paymentEvent marketID outcome position.userID row ∧ position.userID = userID) := by
    intro event
    rw [List.mem_append, List.mem_singleton, Message.settlement.injEq, or_and_right]
    refine or_congr Iff.rfl (and_congr_right fun heq ↦ ?_)
    rw [heq]
    exact settlementEventID_inj
  split_ifs with huser
  · subst huser
    have hrow : (w.holding marketID outcome position.userID).row = some row := h.row_eq
    rw [Holding.publish, hrow]
    dsimp only
    rw [if_pos h.unsettled]
    ext1
    · exact hrow
    · rfl
    · ext event
      refine (hevents event).trans ?_
      rw [and_iff_left rfl, or_comm]
      exact Iff.rfl
  · ext1
    · rfl
    · rfl
    · ext event
      refine (hevents event).trans (or_iff_left ?_)
      exact fun hand ↦ huser hand.2.symm

/-- A payout that is there is not written again. -/
theorem Store.markSettled_of_isSome {store : Store} (row : PositionRow) (hout : Normalized outcome)
    (hpayout : (store.payouts.get (settlementEventID marketID userID outcome)).isSome) :
    store.markSettled (paymentEvent marketID outcome userID row) = store := by
  have hid : trimSpace (paymentEvent marketID outcome userID row).eventID =
      settlementEventID marketID userID outcome := trimSpace_settlementEventID hout
  rw [markSettled, hid, if_pos hpayout]

/-- A new payout, and the position that is settled. -/
theorem Store.markSettled_of_none {store : Store} (hout : Normalized outcome)
    (hpayout : store.payouts.get (settlementEventID marketID userID outcome) = none) :
    store.markSettled (paymentEvent marketID outcome userID row) =
      { store with
        payouts := store.payouts.insert (settlementEventID marketID userID outcome)
          (payoutRow (paymentEvent marketID outcome userID row))
        positions := store.positions.update fun key other ↦
          if key = (marketID, userID, outcome) then
            { other with settledQuantity := other.settledQuantity + (row.quantity - row.settledQuantity) }
          else other } := by
  have hid : trimSpace (paymentEvent marketID outcome userID row).eventID =
      settlementEventID marketID userID outcome := trimSpace_settlementEventID hout
  have hwinning : toUpper (trimSpace (paymentEvent marketID outcome userID row).winningOutcome) = outcome := hout
  rw [markSettled, hid, hpayout, if_neg (by simp), hwinning]
  have hrow : payoutRow (paymentEvent marketID outcome userID row) =
      ⟨marketID, userID, outcome, settledAsset (paymentEvent marketID outcome userID row),
        row.quantity - row.settledQuantity,
        toUpper (trimSpace (paymentEvent marketID outcome userID row).payoutAsset),
        (row.quantity - row.settledQuantity) * 100⟩ := by
    rw [payoutRow, hwinning]
    rfl
  rw [hrow]
  rfl

theorem World.sameElsewhere_markSettled (hout : Normalized outcome) : w.SameElsewhere marketID outcome
      (w.onStore (·.markSettled (paymentEvent marketID outcome userID row))) := by
  cases hpayout : w.store.payouts.get (settlementEventID marketID userID outcome) with
  | some payout =>
    have hsame := Store.markSettled_of_isSome row hout (by rw [hpayout]; rfl)
    rw [onStore, hsame]
    exact .refl w
  | none =>
    rw [onStore, Store.markSettled_of_none hout hpayout]
    refine ⟨rfl, rfl, rfl, fun key hkey ↦ ?_, fun id hid ↦ ?_, fun _ _ ↦ Iff.rfl⟩
    · dsimp only
      rw [Table.get_update]
      simp only [if_neg (hkey userID), Option.map_id']
    · dsimp only
      rw [Table.get_insert, if_neg (hid userID)]

theorem World.holding_markSettled (hout : Normalized outcome)
    (hrow : w.store.positions.get (marketID, userID, outcome) = some row) (other : ℤ) :
    (w.onStore (·.markSettled (paymentEvent marketID outcome userID row))).holding marketID outcome
        other =
      if other = userID ∧ (w.holding marketID outcome userID).payout = none then
        ⟨some { row with settledQuantity := row.quantity },
          some (payoutRow (paymentEvent marketID outcome userID row)),
          (w.holding marketID outcome userID).events⟩
      else w.holding marketID outcome other := by
  cases hpayout : w.store.payouts.get (settlementEventID marketID userID outcome) with
  | some payout =>
    have hsame := Store.markSettled_of_isSome row hout (by rw [hpayout]; rfl)
    have hsome : (w.holding marketID outcome userID).payout = some payout := hpayout
    rw [onStore, hsame, hsome, if_neg (by simp)]
  | none =>
    have hnone : (w.holding marketID outcome userID).payout = none := hpayout
    rw [onStore, Store.markSettled_of_none hout hpayout, hnone]
    by_cases hother : other = userID
    · subst hother
      rw [if_pos ⟨rfl, rfl⟩]
      ext1
      · simp [holding, hrow]
      · simp [holding, Table.get_insert]
      · rfl
    · rw [if_neg (fun hand ↦ hother hand.1)]
      ext1
      · simp [holding, hother]
      · simp [holding, Table.get_insert, settlementEventID_inj, hother]
      · rfl

/-- A position is published and marked. -/
theorem World.holding_paid (hout : Normalized outcome) (h : w.Winner marketID outcome position row) (userID : ℤ) :
    ((w.publish (.settlement (settlementEvent position (position.quantity * 100)))).onStore
        (·.markSettled (settlementEvent position (position.quantity * 100)))).holding marketID outcome
          userID =
      if userID = position.userID then (w.holding marketID outcome userID).pay marketID outcome userID
      else w.holding marketID outcome userID := by
  have hpublish := World.holding_publish h
  rw [h.event_eq] at hpublish ⊢
  have hsame : (w.publish (.settlement (paymentEvent marketID outcome position.userID row))).store = w.store := rfl
  rw [holding_markSettled hout (hsame ▸ h.row_eq), hpublish, hpublish, if_pos rfl]
  have hrow : (w.holding marketID outcome position.userID).row = some row := h.row_eq
  by_cases huser : userID = position.userID
  · subst huser
    by_cases hpayout : (w.holding marketID outcome position.userID).payout = none
    · simp only [Holding.publish_of_lt hrow h.unsettled, Holding.pay_of_none hrow h.unsettled hpayout,
        hpayout, and_self, if_true]
    · rw [Holding.pay_of_some hrow h.unsettled hpayout]
      simp only [Holding.publish_of_lt hrow h.unsettled, hpayout, and_false, if_false, if_true]
  · rw [if_neg (fun hand ↦ huser hand.1), if_neg huser, if_neg huser]

theorem World.sameElsewhere_paid (hout : Normalized outcome) (h : w.Winner marketID outcome position row) :
    w.SameElsewhere marketID outcome
      ((w.publish (.settlement (settlementEvent position (position.quantity * 100)))).onStore
        (·.markSettled (settlementEvent position (position.quantity * 100)))) := by
  refine (World.sameElsewhere_publish h).trans ?_
  rw [h.event_eq]
  exact World.sameElsewhere_markSettled hout

/-- The position of another user is read as before. -/
theorem World.Winner.of_holding (h : w.Winner marketID outcome position row)
    (hholding : w'.holding marketID outcome position.userID = w.holding marketID outcome position.userID) :
    w'.Winner marketID outcome position row where
  position_eq := h.position_eq
  row_eq := (congrArg Holding.row hholding).trans h.row_eq
  unsettled := h.unsettled

end Step

/-! ## The loop -/

/-- The positions that a loop still has to pay. -/
structure World.Winners (marketID : ℤ) (outcome : String) (w : World)
    (positions : List WinningPosition) : Prop where
  winner : ∀ position ∈ positions, ∃ row, w.Winner marketID outcome position row
  nodup : (positions.map WinningPosition.userID).Nodup

variable {positions : List WinningPosition}

theorem World.Winners.tail {position : WinningPosition} (h : w.Winners marketID outcome (position :: positions))
    (hholding : ∀ userID, userID ≠ position.userID →
      w'.holding marketID outcome userID = w.holding marketID outcome userID) :
    w'.Winners marketID outcome positions where
  winner other hother := by
    obtain ⟨row, hrow⟩ := h.winner other (List.mem_cons_of_mem _ hother)
    refine ⟨row, hrow.of_holding (hholding _ fun heq ↦ ?_)⟩
    exact (List.nodup_cons.mp h.nodup).1 (heq ▸ List.mem_map_of_mem hother)
  nodup := (List.nodup_cons.mp h.nodup).2

theorem winningPayoutAmount_eq {quantity payoutAmount : ℤ} (h : winningPayoutAmount quantity = some payoutAmount) :
    payoutAmount = quantity * 100 := by
  rw [winningPayoutAmount] at h
  split_ifs at h
  exact (Option.some.inj h).symm

/-- **A loop that stops.** Each user is left as it was, with an event published, or paid. -/
theorem settlePositions_after (hout : Normalized outcome) (h : w.Winners marketID outcome positions) (n : ℕ) :
    w.SameElsewhere marketID outcome ((settlePositions positions).after n w) ∧
      ∀ userID, Holding.Partial marketID outcome userID (w.holding marketID outcome userID)
        (((settlePositions positions).after n w).holding marketID outcome userID) := by
  induction positions generalizing w n with
  | nil => exact ⟨.refl w, fun _ ↦ .inl rfl⟩
  | cons position positions ih =>
    obtain ⟨row, hwinner⟩ := h.winner position List.mem_cons_self
    rw [settlePositions]
    cases hpayout : winningPayoutAmount position.quantity with
    | none => exact ⟨.refl w, fun _ ↦ .inl rfl⟩
    | some payoutAmount =>
      rw [winningPayoutAmount_eq hpayout]
      have hpublish := World.holding_publish hwinner
      have hpaid := World.holding_paid hout hwinner
      match n with
      | 0 => exact ⟨.refl w, fun _ ↦ .inl rfl⟩
      | 1 =>
        refine ⟨World.sameElsewhere_publish hwinner, fun userID ↦ ?_⟩
        simp only [Program.after]
        rw [hpublish]
        split_ifs
        · exact .inr (.inl rfl)
        · exact .inl rfl
      | n + 2 =>
        simp only [Program.after]
        have hsame := World.sameElsewhere_paid hout hwinner
        have hwinners := h.tail (fun userID hne ↦ (hpaid userID).trans (if_neg hne))
        obtain ⟨hrest, hholding⟩ := ih hwinners n
        refine ⟨hsame.trans hrest, fun userID ↦ ?_⟩
        have hpartial := hholding userID
        rw [hpaid] at hpartial
        split_ifs at hpartial
        · exact Holding.Partial.of_pay hpartial
        · exact hpartial

theorem settlePositions_ok : ((settlePositions positions).run w).2 = true ↔
      ∀ position ∈ positions, (winningPayoutAmount position.quantity).isSome := by
  induction positions generalizing w with
  | nil => exact ⟨fun _ _ h ↦ absurd h List.not_mem_nil, fun _ ↦ rfl⟩
  | cons position positions ih =>
    rw [settlePositions, List.forall_mem_cons]
    cases hpayout : winningPayoutAmount position.quantity with
    | none => simp [Program.run]
    | some payoutAmount => simp [Program.run, ih]

/-- **A loop that ends.** Each user is paid. -/
theorem settlePositions_run (hout : Normalized outcome) (h : w.Winners marketID outcome positions)
    (hok : ∀ position ∈ positions, (winningPayoutAmount position.quantity).isSome) :
    w.SameElsewhere marketID outcome ((settlePositions positions).run w).1 ∧
      ∀ userID, ((settlePositions positions).run w).1.holding marketID outcome userID =
        if userID ∈ positions.map WinningPosition.userID then
          (w.holding marketID outcome userID).pay marketID outcome userID
        else w.holding marketID outcome userID := by
  induction positions generalizing w with
  | nil => exact ⟨.refl w, fun _ ↦ rfl⟩
  | cons position positions ih =>
    obtain ⟨row, hwinner⟩ := h.winner position List.mem_cons_self
    obtain ⟨hamount, hrest⟩ := List.forall_mem_cons.mp hok
    obtain ⟨payoutAmount, hpayout⟩ := Option.isSome_iff_exists.mp hamount
    have hpaid := World.holding_paid hout hwinner
    have hsame := World.sameElsewhere_paid hout hwinner
    have hwinners := h.tail (fun userID hne ↦ (hpaid userID).trans (if_neg hne))
    have hhead : position.userID ∉ positions.map WinningPosition.userID := (List.nodup_cons.mp h.nodup).1
    rw [settlePositions, hpayout, winningPayoutAmount_eq hpayout]
    simp only [Program.run]
    obtain ⟨hsame', hholding⟩ := ih hwinners hrest
    refine ⟨hsame.trans hsame', fun userID ↦ ?_⟩
    rw [hholding, hpaid, List.map_cons]
    by_cases huser : userID = position.userID
    · subst huser
      rw [if_neg hhead, if_pos rfl, if_pos List.mem_cons_self]
    · rw [if_neg huser]
      simp only [List.mem_cons, huser, false_or]

/-! ## `settleWinningPositions` -/

theorem Store.mem_winningPositions {store : Store} {position : WinningPosition} :
    position ∈ store.winningPositions marketID outcome ↔
      ∃ row, World.Winner marketID outcome ⟨store, []⟩ position row := by
  rw [winningPositions, List.mem_insertionSort, List.mem_filterMap]
  constructor
  · rintro ⟨⟨⟨market, user, name⟩, row⟩, hmem, hsome⟩
    rw [winningPosition] at hsome
    split_ifs at hsome with hrow
    obtain ⟨rfl, rfl, hlt⟩ := hrow
    obtain rfl := Option.some.inj hsome
    exact ⟨row, rfl, Table.mem_rows.mp hmem, hlt⟩
  · rintro ⟨row, hposition, hrow, hlt⟩
    refine ⟨((marketID, position.userID, outcome), row), Table.mem_rows.mpr hrow, ?_⟩
    rw [winningPosition, if_pos ⟨rfl, rfl, hlt⟩, hposition]

theorem Store.nodup_winningPositions (store : Store) :
    ((store.winningPositions marketID outcome).map WinningPosition.userID).Nodup := by
  have hperm := (List.perm_insertionSort (fun p q : WinningPosition ↦ p.userID ≤ q.userID)
    (store.positions.rows.filterMap (winningPosition marketID outcome))).map WinningPosition.userID
  rw [winningPositions, hperm.nodup_iff, List.Nodup, List.pairwise_map]
  -- positions of one market and outcome have different users, since their keys are different
  refine List.Pairwise.filterMap _ ?_ (List.pairwise_map.mp store.positions.nodup)
  rintro ⟨⟨market, user, name⟩, row⟩ ⟨⟨market', user', name'⟩, row'⟩ hkey position hposition position'
    hposition' huser
  rw [winningPosition] at hposition hposition'
  split_ifs at hposition hposition' with hrow hrow'
  obtain ⟨rfl, rfl, -⟩ := hrow
  obtain ⟨rfl, rfl, -⟩ := hrow'
  obtain rfl := Option.some.inj hposition
  obtain rfl := Option.some.inj hposition'
  exact hkey (by rw [show user = user' from huser])

theorem World.winners (w : World) : w.Winners marketID outcome (w.store.winningPositions marketID outcome) where
  winner position hposition := by
    obtain ⟨row, hrow⟩ := Store.mem_winningPositions.mp hposition
    exact ⟨row, hrow.position_eq, hrow.row_eq, hrow.unsettled⟩
  nodup := w.store.nodup_winningPositions

/-- No payout of a market and an outcome is out of range. -/
def World.Payable (marketID : ℤ) (outcome : String) (w : World) : Prop :=
  ∀ userID row, (w.holding marketID outcome userID).row = some row → row.settledQuantity < row.quantity →
      (winningPayoutAmount (row.quantity - row.settledQuantity)).isSome

theorem World.payable_iff : w.Payable marketID outcome ↔ ∀ position ∈ w.store.winningPositions marketID outcome,
      (winningPayoutAmount position.quantity).isSome := by
  constructor
  · intro h position hposition
    obtain ⟨row, hrow⟩ := Store.mem_winningPositions.mp hposition
    rw [hrow.position_eq]
    exact h _ row hrow.row_eq hrow.unsettled
  · intro h userID row hrow hlt
    exact h ⟨marketID, userID, outcome, row.quantity - row.settledQuantity⟩
      (Store.mem_winningPositions.mpr ⟨row, rfl, hrow, hlt⟩)

theorem settleWinningPositions_ok :
    ((settleWinningPositions marketID outcome).run w).2 = true ↔ w.Payable marketID outcome := by
  rw [World.payable_iff]
  exact settlePositions_ok

/-- **Settlement.** Each user is paid. -/
theorem settleWinningPositions_run (hout : Normalized outcome) (h : w.Payable marketID outcome) :
    w.SameElsewhere marketID outcome ((settleWinningPositions marketID outcome).run w).1 ∧
      ∀ userID, ((settleWinningPositions marketID outcome).run w).1.holding marketID outcome userID =
        (w.holding marketID outcome userID).pay marketID outcome userID := by
  obtain ⟨hsame, hholding⟩ := settlePositions_run hout w.winners (World.payable_iff.mp h)
  refine ⟨hsame, fun userID ↦ (hholding userID).trans ?_⟩
  split_ifs with hmem
  · rfl
  · -- a user that is not in the loop has nothing to be paid
    refine (Holding.pay_of_settled fun row hrow hlt ↦ hmem ?_).symm
    exact List.mem_map.mpr ⟨⟨marketID, userID, outcome, row.quantity - row.settledQuantity⟩,
      Store.mem_winningPositions.mpr ⟨row, rfl, hrow, hlt⟩, rfl⟩

/-- **Settlement that stops.** -/
theorem settleWinningPositions_after (marketID : ℤ) (w : World) (hout : Normalized outcome) (n : ℕ) :
    w.SameElsewhere marketID outcome ((settleWinningPositions marketID outcome).after n w) ∧
      ∀ userID, Holding.Partial marketID outcome userID (w.holding marketID outcome userID)
        (((settleWinningPositions marketID outcome).after n w).holding marketID outcome userID) := by
  cases n with
  | zero => exact ⟨.refl w, fun _ ↦ .inl rfl⟩
  | succ n => exact settlePositions_after hout w.winners n

end FunnyOption.Settlement
