import FunnyOption.Account.EventProcessor

/-!
# Drawing on a freeze

The effect of `drawFreeze` on an order whose freeze is found. If the freeze is open and covers the amount, the
amount leaves the user. Of the rest, what exceeds the reserve of the quantity that the registry believes to be
left is made available again, and the user keeps it. On a closed freeze nothing is drawn: `draws_drawFreeze`
covers both.
-/

open Foundation

namespace FunnyOption.Account

namespace Processor

open BalanceBook

variable {p : Processor} {state : OrderState} {record : FreezeRecord} {amount : ℤ} {terms : OrderTerms}
  {loaded : Option OrderState} {orderID : String}

/-- Some handler has drawn an amount from the total of a key, through one freeze. -/
structure Draws (book : BalanceBook) (freezeID : String) (key : BalanceKey) (amount : ℤ)
    (h : Handled) : Prop where
  ok : h.2 = .ok ()
  total : ∀ k, h.1.book.total k = book.total k - if k = key then amount else 0
  ages : book.Ages h.1.book
  rows : ∀ k, (book.balances k).isSome → (h.1.book.balances k).isSome
  freezes : ∀ id, id ≠ freezeID → h.1.book.freezes id = book.freezes id
  refs : h.1.book.processedRefs = book.processedRefs

theorem Draws.nothing (book : BalanceBook) (registry : OrderRegistry) (freezeID : String) (key : BalanceKey) :
    Draws book freezeID key 0 (⟨book, registry⟩, .ok ()) :=
  ⟨rfl, by simp, .of_freezes_eq rfl, fun _ h ↦ h, fun _ _ ↦ rfl, rfl⟩

theorem Draws.trans {book : BalanceBook} {freezeID : String} {key : BalanceKey} {amount' : ℤ} {h h' : Handled}
    (hd : Draws book freezeID key amount h) (hd' : Draws h.1.book freezeID key amount' h') :
    Draws book freezeID key (amount + amount') h' where
  ok := hd'.ok
  total k := by
    rw [hd'.total, hd.total]
    split_ifs <;> ring
  ages := hd.ages.trans hd'.ages
  rows k hk := hd'.rows k (hd.rows k hk)
  freezes id hid := (hd'.freezes id hid).trans (hd.freezes id hid)
  refs := hd'.refs.trans hd.refs

/-- What an open freeze loses, and what does not become available, is drawn. -/
theorem Draws.of_drawn {book : BalanceBook} {freezeID : String} {record' : FreezeRecord} {a f : ℤ} {h : Handled}
    (hok : h.2 = .ok ()) (hopen : Open book freezeID record)
    (hdrawn : Drawn book freezeID record record' a f h.1.book) (hlater : Later record record')
    (hamount : a + f = -amount) : Draws book freezeID (balanceKey record.userID record.asset) amount h where
  ok := hok
  total k := by
    rw [hdrawn.moves.total k, hamount]
    split_ifs <;> ring
  ages := hdrawn.ages hopen hlater
  rows := hdrawn.moves.rows
  freezes id hid := by rw [hdrawn.freezes, Function.update_of_ne hid]
  refs := hdrawn.processedRefs

/-- A freeze whose balance row exists. -/
structure Backed (book : BalanceBook) (freezeID : String) (record : FreezeRecord) : Prop where
  lookup : book.freezes freezeID = some record
  row : (book.balances (balanceKey record.userID record.asset)).isSome

theorem Backed.isOpen {book : BalanceBook} {freezeID : String} (h : Backed book freezeID record)
    (hclosed : ¬ (record.released || record.consumed) = true) : Open book freezeID record := by
  simp only [Bool.or_eq_true, not_or, Bool.not_eq_true] at hclosed
  exact ⟨h.lookup, hclosed, h.row⟩

/-- A part of a freeze is a later state of it. -/
theorem later_of_pos (hpos : 0 < amount) : record.amount - amount ≤ max record.amount 0 :=
  (sub_le_self _ hpos.le).trans (le_max_left _ _)

/-- Releasing what a freeze holds in excess of the reserve draws nothing. -/
theorem draws_releaseExcessFreeze (hbacked : Backed p.book state.freezeID record)
    (hreserve : ∃ expected, expectedFreezeAmount state = .ok expected ∧ 0 ≤ expected) :
    Draws p.book state.freezeID (balanceKey record.userID record.asset) 0 (p.releaseExcessFreeze state) ∧
      (p.releaseExcessFreeze state).1.registry = p.registry := by
  obtain ⟨expected, hexpected, hnonneg⟩ := hreserve
  have hnothing := Draws.nothing p.book p.registry state.freezeID (balanceKey record.userID record.asset)
  have hamount : p.book.freezeAmount state.freezeID =
      some (if record.released || record.consumed then 0 else record.amount) := by
    rw [BalanceBook.freezeAmount, hbacked.lookup, Option.map_some]
  simp only [releaseExcessFreeze, hamount, hexpected]
  split_ifs with hclosed hle
  · exact ⟨hnothing, rfl⟩
  · exact ⟨hnothing, rfl⟩
  · have hpos : 0 < record.amount - expected := sub_pos.mpr (not_le.mp hle)
    have hopen := hbacked.isOpen hclosed
    obtain ⟨hok, hdrawn⟩ := releaseFreezeAmount_of_open hopen hpos (by omega)
    simp only [hok]
    exact ⟨.of_drawn rfl hopen hdrawn ⟨rfl, rfl, later_of_pos hpos⟩ (by ring), trivial⟩

/-- **Drawing on a freeze that is found.** -/
theorem draws_drawFreeze (hid : orderID ≠ "") (hfound : (p.registry.get loaded orderID).2 = some state)
    (hfreeze : state.freezeID ≠ "") (hbacked : Backed p.book state.freezeID record)
    (hreserve : ∃ expected, expectedFreezeAmount state = .ok expected ∧ 0 ≤ expected) (hpos : 0 < amount)
    (hcovered : p.book.Open state.freezeID record → amount ≤ record.amount) :
    Draws p.book state.freezeID (balanceKey record.userID record.asset)
        (if record.released || record.consumed then 0 else amount) (p.drawFreeze loaded orderID amount) ∧
      (p.drawFreeze loaded orderID amount).1.registry = (p.registry.get loaded orderID).1 := by
  by_cases hclosed : (record.released || record.consumed) = true
  · have hconsume : p.book.consumeFreeze state.freezeID amount =
        (p.book, .error .freezeAlreadyClosed) := by
      simp only [BalanceBook.consumeFreeze, if_neg (not_le.mpr hpos), BalanceBook.getActiveFreeze,
        hbacked.lookup, hclosed, if_true]
    simp only [drawFreeze, if_neg hid, hfound, if_neg hfreeze, hconsume, if_pos hclosed]
    exact draws_releaseExcessFreeze (p := ⟨p.book, (p.registry.get loaded orderID).1⟩) hbacked hreserve
  · have hopen := hbacked.isOpen hclosed
    obtain ⟨hok, hdrawn⟩ := consumeFreeze_of_open hopen hpos (hcovered hopen)
    simp only [drawFreeze, if_neg hid, hfound, if_neg hfreeze, hok, if_neg hclosed]
    generalize (p.book.consumeFreeze state.freezeID amount).1 = book at hdrawn ⊢
    have hconsumed : Draws p.book state.freezeID (balanceKey record.userID record.asset) amount
        (⟨book, (p.registry.get loaded orderID).1⟩, .ok ()) :=
      .of_drawn rfl hopen hdrawn ⟨rfl, rfl, later_of_pos hpos⟩ (zero_add _)
    have hlookup := congrFun hdrawn.freezes state.freezeID
    rw [Function.update_self] at hlookup
    -- the row of the freeze is that of the freeze before
    obtain ⟨hdraws, hregistry⟩ := draws_releaseExcessFreeze (p := ⟨book, (p.registry.get loaded orderID).1⟩)
      ⟨hlookup, hconsumed.rows _ hbacked.row⟩ hreserve
    exact ⟨add_zero amount ▸ hconsumed.trans hdraws, hregistry⟩

/-- The amount is drawn from an open freeze. -/
theorem draws_of_open (hid : orderID ≠ "") (hfound : (p.registry.get loaded orderID).2 = some state)
    (hfreeze : state.freezeID ≠ "") (hopen : p.book.Open state.freezeID record)
    (hreserve : ∃ expected, expectedFreezeAmount state = .ok expected ∧ 0 ≤ expected) (hpos : 0 < amount)
    (hcovered : amount ≤ record.amount) :
    Draws p.book state.freezeID (balanceKey record.userID record.asset) amount (p.drawFreeze loaded orderID amount) ∧
      (p.drawFreeze loaded orderID amount).1.registry = (p.registry.get loaded orderID).1 := by
  have h := draws_drawFreeze hid hfound hfreeze ⟨hopen.lookup, hopen.row⟩ hreserve hpos fun _ ↦ hcovered
  rwa [hopen.active.1, hopen.active.2, Bool.or_self, if_neg Bool.false_ne_true] at h

/-- Whatever freeze is found for an order can be drawn on, or is closed. -/
structure Drawable (p : Processor) (loaded : Option OrderState) (orderID : String) (amount : ℤ)
    (terms : OrderTerms) (key : BalanceKey) : Prop where
  reservable : terms.Reservable
  fits : ∀ state, (p.registry.get loaded orderID).2 = some state → Fits terms state
  backed : ∀ state, (p.registry.get loaded orderID).2 = some state → state.freezeID ≠ "" →
    ∃ record, Backed p.book state.freezeID record ∧ balanceKey record.userID record.asset = key ∧
      (p.book.Open state.freezeID record → amount ≤ record.amount)

theorem Drawable.exists_draws {key : BalanceKey} (h : Drawable p loaded orderID amount terms key) (hid : orderID ≠ "")
    (hpos : 0 < amount) : ∃ freezeID drawn, Draws p.book freezeID key drawn (p.drawFreeze loaded orderID amount) ∧
      (p.drawFreeze loaded orderID amount).1.registry = (p.registry.get loaded orderID).1 := by
  cases hfound : (p.registry.get loaded orderID).2 with
  | none =>
    simp only [drawFreeze, if_neg hid, hfound]
    exact ⟨"", 0, .nothing p.book _ _ key, trivial⟩
  | some state =>
    by_cases hfreeze : state.freezeID = ""
    · simp only [drawFreeze, if_neg hid, hfound, if_pos hfreeze]
      exact ⟨"", 0, .nothing p.book _ _ key, trivial⟩
    · obtain ⟨record, hbacked, rfl, hcovered⟩ := h.backed state hfound hfreeze
      exact ⟨_, _, draws_drawFreeze hid hfound hfreeze hbacked
        (expectedFreezeAmount_of_fits (h.fits state hfound) h.reservable) hpos hcovered⟩

end Processor

end FunnyOption.Account
