/-
This file follows an incoming order through the book. Every resting order sells
something and asks for something, and no two of them would trade with each
other. Matching keeps it so: each match gives both orders at least what they ask
for, it uses up one of them, and what is left of the other is taken off the book
when it has become too small to ask for anything. None of the assertions on the
way can fail; only a payment to a seller can.
-/

import Zattera.Lib.Exchange
import Zattera.Proof.Conservation

namespace Zattera

open Program Exchange

variable {pays receives : Asset} {order : LimitOrder} {s t : ChainState} {e : ChainError}
  {orders : List LimitOrder}

/-! ### Prices as rates -/

theorem Price.validate_pos {price : Price} (valid : price.validate = .ok ()) :
    0 < price.base.amount.toInt ∧ 0 < price.quote.amount.toInt ∧
      price.base.symbol ≠ price.quote.symbol := by
  obtain ⟨base, quote, differs⟩ := validate_eq_ok.mp valid
  exact ⟨Int64.lt_iff_toInt_lt.mp base, Int64.lt_iff_toInt_lt.mp quote, differs⟩

/-- The rate of a valid price. -/
def Price.rate (price : Price) (valid : price.validate = .ok ()) : Rate where
  base := price.base.amount.toInt
  quote := price.quote.amount.toInt
  base_pos := (validate_pos valid).1
  quote_pos := (validate_pos valid).2.1

section Conversion

variable {price : Price} {valid : price.validate = .ok ()} {amount : ShareType}

/-- The base of a price converts at its rate. -/
theorem mulPrice_of_base (nonneg : 0 ≤ amount.toInt)
    (small : (price.rate valid).worth amount.toInt < 9223372036854775808) :
    (Asset.mk amount price.base.symbol).mulPrice price =
      .ok ⟨Int64.ofInt ((price.rate valid).worth amount.toInt), price.quote.symbol⟩ := by
  have least := (price.rate valid).worth_nonneg nonneg
  unfold Asset.mulPrice
  rw [if_pos rfl]
  refine (Asset.convert_eq_ok nonneg (Int.le_of_lt (price.rate valid).quote_pos)
    (price.rate valid).base_pos small).mpr ⟨rfl, ?_⟩
  exact Int64.toInt_ofInt_of_le (by omega) (by omega)

/-- The quote of a price converts at the rate seen from the other side. -/
theorem mulPrice_of_quote (nonneg : 0 ≤ amount.toInt)
    (small : (price.rate valid).swap.worth amount.toInt < 9223372036854775808) :
    (Asset.mk amount price.quote.symbol).mulPrice price =
      .ok ⟨Int64.ofInt ((price.rate valid).swap.worth amount.toInt), price.base.symbol⟩ := by
  have least := (price.rate valid).swap.worth_nonneg nonneg
  unfold Asset.mulPrice
  rw [if_neg (Price.validate_pos valid).2.2.symm, if_pos rfl]
  refine (Asset.convert_eq_ok nonneg (Int.le_of_lt (price.rate valid).base_pos)
    (price.rate valid).quote_pos small).mpr ⟨rfl, ?_⟩
  exact Int64.toInt_ofInt_of_le (by omega) (by omega)

/-- A conversion that comes out positive is what the rate says. -/
theorem worth_of_mulPrice {converted : Asset} (valid : price.validate = .ok ())
    (nonneg : 0 ≤ amount.toInt)
    (made : (Asset.mk amount price.base.symbol).mulPrice price = .ok converted)
    (positive : 0 < converted.amount.toInt) :
    converted.symbol = price.quote.symbol ∧
      converted.amount.toInt = (price.rate valid).worth amount.toInt := by
  unfold Asset.mulPrice at made
  rw [if_pos rfl] at made
  have target := Int.le_of_lt (price.rate valid).quote_pos
  have source := (price.rate valid).base_pos
  have small := Asset.small_of_convert nonneg target source made positive
  exact (Asset.convert_eq_ok nonneg target source small).mp made

end Conversion

/-! ### Resting orders -/

namespace LimitOrder

def key (order : LimitOrder) : AccountName × Nat := (order.seller, order.orderid)

/-- An order that may rest in the book: it has a price, sells something and asks for something. -/
structure Resting (order : LimitOrder) : Prop where
  valid : order.sellPrice.validate = .ok ()
  selling : 0 < order.forSale.toInt
  asking : ∃ asking, order.amountToReceive = .ok asking ∧ 0 < asking.amount.toInt

/-- The price asks for no more than the other order offers, and the other way round. -/
def Crosses (order other : LimitOrder) : Prop :=
  order.sellPrice.base.symbol = other.sellPrice.quote.symbol ∧
    order.sellPrice.quote.symbol = other.sellPrice.base.symbol ∧
      order.sellPrice.quote.amount.toInt * other.sellPrice.quote.amount.toInt ≤
        order.sellPrice.base.amount.toInt * other.sellPrice.base.amount.toInt

/-- What is left of an order that has paid. -/
def less (order : LimitOrder) (pays : Asset) : LimitOrder :=
  { order with forSale := order.forSale - pays.amount }

/-- Too little is left to ask for anything. -/
def Worthless (order : LimitOrder) : Prop :=
  ∃ asking, order.amountToReceive = .ok asking ∧ asking.amount = 0

instance (order : LimitOrder) : Decidable order.Worthless :=
  inferInstanceAs (Decidable (∃ asking, order.amountToReceive = .ok asking ∧ asking.amount = 0))

variable {order other : LimitOrder}

theorem Crosses.symm (crosses : order.Crosses other) : other.Crosses order := by
  obtain ⟨sells, buys, meets⟩ := crosses
  refine ⟨buys.symm, sells.symm, ?_⟩
  rw [Int.mul_comm, Int.mul_comm other.sellPrice.base.amount.toInt]
  exact meets

namespace Resting

/-- The rate an order sells at. -/
def rate (resting : order.Resting) : Rate := order.sellPrice.rate resting.valid

theorem worth (resting : order.Resting) :
    0 < resting.rate.worth order.forSale.toInt ∧
      resting.rate.worth order.forSale.toInt < 9223372036854775808 := by
  obtain ⟨asking, made, positive⟩ := resting.asking
  obtain ⟨_, exact_⟩ := worth_of_mulPrice resting.valid (Int.le_of_lt resting.selling) made positive
  have upper := asking.amount.toInt_lt
  unfold rate
  omega

/-- What an order asks for a part of what it sells. -/
theorem asking_of_le (resting : order.Resting) {amount : ShareType} (nonneg : 0 ≤ amount.toInt)
    (le : amount.toInt ≤ order.forSale.toInt) :
    (Asset.mk amount order.sellPrice.base.symbol).mulPrice order.sellPrice =
      .ok ⟨Int64.ofInt (resting.rate.worth amount.toInt), order.sellPrice.quote.symbol⟩ :=
  mulPrice_of_base nonneg (Int.lt_of_le_of_lt (Rate.worth_mono le) resting.worth.2)

theorem toInt_worth_of_le (resting : order.Resting) {amount : ShareType} (nonneg : 0 ≤ amount.toInt)
    (le : amount.toInt ≤ order.forSale.toInt) :
    (Int64.ofInt (resting.rate.worth amount.toInt)).toInt = resting.rate.worth amount.toInt := by
  have small := Int.lt_of_le_of_lt (Rate.worth_mono le) resting.worth.2
  have least := resting.rate.worth_nonneg nonneg
  exact Int64.toInt_ofInt_of_le (by omega) (by omega)

theorem toInt_less (paid : 0 ≤ pays.amount.toInt) (le : pays.amount.toInt ≤ order.forSale.toInt) :
    (order.less pays).forSale.toInt = order.forSale.toInt - pays.amount.toInt := by
  have upper := order.forSale.toInt_lt
  change (order.forSale - pays.amount).toInt = _
  rw [Int64.toInt_sub]
  exact Int.bmod_eq_of_le (by omega) (by omega)

/-- What is left of an order that has not paid all it sells. -/
theorem amountToReceive_less (resting : order.Resting) (paid : 0 ≤ pays.amount.toInt)
    (le : pays.amount.toInt ≤ order.forSale.toInt) :
    (order.less pays).amountToReceive =
      .ok ⟨Int64.ofInt (resting.rate.worth (order.less pays).forSale.toInt),
        order.sellPrice.quote.symbol⟩ := by
  have left := toInt_less paid le
  exact resting.asking_of_le (by omega) (by omega)

theorem worthless_less (resting : order.Resting) (paid : 0 ≤ pays.amount.toInt)
    (le : pays.amount.toInt ≤ order.forSale.toInt) :
    (order.less pays).Worthless ↔ resting.rate.worth (order.less pays).forSale.toInt = 0 := by
  have left := toInt_less paid le
  unfold Worthless
  rw [resting.amountToReceive_less paid le]
  simp only [Except.ok.injEq, exists_eq_left']
  rw [← Int64.toInt_inj, resting.toInt_worth_of_le (by omega) (by omega), Int64.toInt_zero]

theorem less (resting : order.Resting) (paid : 0 ≤ pays.amount.toInt)
    (le : pays.amount.toInt < order.forSale.toInt) (worthy : ¬ (order.less pays).Worthless) :
    (order.less pays).Resting := by
  have left := toInt_less paid (Int.le_of_lt le)
  refine ⟨resting.valid, by omega, _, resting.amountToReceive_less paid (Int.le_of_lt le), ?_⟩
  rw [resting.worthless_less paid (Int.le_of_lt le)] at worthy
  rw [resting.toInt_worth_of_le (by omega) (by omega)]
  have least := @Rate.worth_nonneg resting.rate (order.less pays).forSale.toInt (by omega)
  omega

end Resting

end LimitOrder

/-! ### Filling an order -/

/-- What filling an order comes to when no assertion fails: its seller is paid, and the order is
taken off the book or shrinks. Where too little is left it is taken off as well, and the seller
gets the rest back. -/
def settle (order : LimitOrder) (pays receives : Asset) : Chain Bool := do
  adjustBalance order.seller receives
  if pays = order.amountForSale then do
    eraseLimitOrder order
    return true
  else do
    putLimitOrder (order.less pays)
    if (order.less pays).Worthless then do
      cancelOrder (order.less pays)
      return true
    else return false

/-- What an order pays: some of what it sells. -/
structure LimitOrder.Pays (order : LimitOrder) (pays : Asset) : Prop where
  symbol : pays.symbol = order.sellPrice.base.symbol
  positive : 0 < pays.amount.toInt
  le : pays.amount.toInt ≤ order.forSale.toInt

theorem LimitOrder.Pays.lt (payment : order.Pays pays) (part : pays ≠ order.amountForSale) :
    pays.amount.toInt < order.forSale.toInt := by
  refine lt_of_le_of_ne payment.le fun same => part ?_
  obtain ⟨amount, symbol⟩ := pays
  obtain rfl := payment.symbol
  obtain rfl := Int64.toInt_inj.mp same
  rfl

/-- None of the assertions of `fill_order` fails for an order that pays some of what it sells. -/
theorem fillOrder_eq_settle (resting : order.Resting) (payment : order.Pays pays)
    (receiving : receives.symbol = order.sellPrice.quote.symbol) :
    fillOrder order pays receives = settle order pays receives := by
  have sells : order.amountForSale.symbol = pays.symbol := payment.symbol.symm
  have differs : pays.symbol ≠ receives.symbol := by
    rw [payment.symbol, receiving]
    exact (Price.validate_pos resting.valid).2.2
  unfold fillOrder settle
  rw [require_of sells, require_of differs, pure_bind, pure_bind]
  refine congrArg (adjustBalance order.seller receives >>= ·) (funext fun _ => ?_)
  by_cases whole : pays = order.amountForSale
  · rw [if_pos whole, if_pos whole]
  · have part := payment.lt whole
    have paid := Int.le_of_lt payment.positive
    have left : order.forSale.sub pays.amount = .ok (order.less pays).forSale :=
      ShareType.sub_eq_ok.mpr (LimitOrder.Resting.toInt_less paid payment.le)
    rw [if_neg whole, if_neg whole, require_of (Int64.lt_iff_toInt_lt.mpr part), pure_bind, left,
      lift_ok_bind]
    refine congrArg (putLimitOrder (order.less pays) >>= ·) (funext fun _ => ?_)
    have asking := resting.amountToReceive_less paid payment.le
    change (liftM (order.less pays).amountToReceive >>= _) = _
    rw [asking, lift_ok_bind]
    refine if_congr ?_ rfl rfl
    unfold LimitOrder.Worthless
    rw [asking]
    simp

theorem settle_whole (order : LimitOrder) (receives : Asset) :
    settle order order.amountForSale receives = do
      adjustBalance order.seller receives
      eraseLimitOrder order
      return true := by
  unfold settle
  simp only [if_true]

/-- An order that has paid is taken off the book when all of it is sold or the rest is worthless. -/
def LimitOrder.Spent (order : LimitOrder) (pays : Asset) : Prop :=
  pays = order.amountForSale ∨ (order.less pays).Worthless

instance (order : LimitOrder) (pays : Asset) : Decidable (order.Spent pays) :=
  inferInstanceAs (Decidable (_ ∨ _))

/-- The open orders, by seller and number. -/
abbrev OrderBook := Table (AccountName × Nat) LimitOrder fun order => (order.seller, order.orderid)

/-- The book after one of its orders has paid. -/
def LimitOrder.takeFrom (order : LimitOrder) (pays : Asset) (book : OrderBook) : OrderBook :=
  if order.Spent pays then book.erase order.key else book.replace (order.less pays)

theorem settle_eq_ok {gone : Bool} (run : settle order pays receives s = .ok gone t) :
    gone = decide (order.Spent pays) ∧ t.limitOrders = order.takeFrom pays s.limitOrders := by
  obtain ⟨_, paid, received, run⟩ := bind_eq_ok.mp run
  have same := keptField ChainState.limitOrders (fun _ => rfl) received
  unfold LimitOrder.takeFrom
  rw [← same]
  split at run
  · next whole =>
    obtain ⟨_, _, erased, finished⟩ := bind_eq_ok.mp run
    obtain ⟨rfl, rfl⟩ := pure_eq_ok.mp finished
    have spent : order.Spent pays := .inl whole
    rw [if_pos spent, ← modify_eq_ok.mp erased]
    exact ⟨(decide_eq_true spent).symm, rfl⟩
  · next part =>
    obtain ⟨_, _, put, run⟩ := bind_eq_ok.mp run
    obtain rfl := modify_eq_ok.mp put
    split at run
    · next worthless =>
      obtain ⟨_, _, cancelled, finished⟩ := bind_eq_ok.mp run
      obtain ⟨rfl, rfl⟩ := pure_eq_ok.mp finished
      obtain ⟨_, _, refunded, erased⟩ := bind_eq_ok.mp cancelled
      have again := keptField ChainState.limitOrders (fun _ => rfl) refunded
      have spent : order.Spent pays := .inr worthless
      rw [if_pos spent, ← modify_eq_ok.mp erased]
      refine ⟨(decide_eq_true spent).symm, ?_⟩
      change Table.erase _ _ = _
      rw [again]
      exact Table.erase_replace
    · next worthy =>
      obtain ⟨rfl, rfl⟩ := pure_eq_ok.mp run
      have unspent : ¬ order.Spent pays := not_or.mpr ⟨part, worthy⟩
      rw [if_neg unspent]
      exact ⟨(decide_eq_false unspent).symm, rfl⟩

/-- A payment to a seller that cannot be made. -/
def PaymentFailed (error : ChainError) (state : ChainState) : Prop :=
  ∃ name amount before, adjustBalance name amount before = .error error state

theorem settle_eq_error (run : settle order pays receives s = .error e t) : PaymentFailed e t := by
  rcases bind_eq_error.mp run with failed | ⟨_, middle, _, run⟩
  · exact ⟨_, _, _, failed⟩
  · split at run
    · rcases bind_eq_error.mp run with failed | ⟨_, _, _, finished⟩
      · exact (modify_eq_error.mp failed).elim
      · exact (pure_eq_error.mp finished).elim
    · rcases bind_eq_error.mp run with failed | ⟨_, _, _, run⟩
      · exact (modify_eq_error.mp failed).elim
      · split at run
        · rcases bind_eq_error.mp run with failed | ⟨_, _, _, finished⟩
          · rcases bind_eq_error.mp failed with failed | ⟨_, _, _, erased⟩
            · exact ⟨_, _, _, failed⟩
            · exact (modify_eq_error.mp erased).elim
          · exact (pure_eq_error.mp finished).elim
        · exact (pure_eq_error.mp run).elim

/-! ### Matching two orders -/

/-- Two orders that were matched, the incoming one and the resting one, and what each of them paid
to the other. -/
structure Fill where
  taker : LimitOrder
  maker : LimitOrder
  takerPays : Asset
  makerPays : Asset
  deriving DecidableEq

/-- An order gets at least what it pays, converted at its own price and rounded down. -/
def LimitOrder.Accepts (order : LimitOrder) (pays receives : Asset) : Prop :=
  ∃ asked, pays.mulPrice order.sellPrice = .ok asked ∧ asked.symbol = receives.symbol ∧
    asked.amount.toInt ≤ receives.amount.toInt

/-- A match as it should be. -/
structure Fill.Good (fill : Fill) : Prop where
  made : matchedAmounts fill.taker fill.maker = .ok (fill.makerPays, fill.takerPays)
  taker : fill.taker.Pays fill.takerPays
  maker : fill.maker.Pays fill.makerPays
  takerLimit : fill.taker.Accepts fill.takerPays fill.makerPays
  makerLimit : fill.maker.Accepts fill.makerPays fill.takerPays
  exhausted : fill.takerPays = fill.taker.amountForSale ∨ fill.makerPays = fill.maker.amountForSale

/-- What a match comes to: each order is paid what the other one pays. -/
def Fill.settled (fill : Fill) : Chain (Bool × Bool) := do
  let takerGone ← settle fill.taker fill.takerPays fill.makerPays
  let makerGone ← settle fill.maker fill.makerPays fill.takerPays
  return (takerGone, makerGone)

section Match

variable {newOrder oldOrder : LimitOrder}

theorem LimitOrder.Resting.accepts (resting : order.Resting) (payment : order.Pays pays)
    (receiving : receives.symbol = order.sellPrice.quote.symbol)
    (asked : resting.rate.worth pays.amount.toInt ≤ receives.amount.toInt) :
    order.Accepts pays receives := by
  have paid := Int.le_of_lt payment.positive
  have converted := resting.asking_of_le paid payment.le
  rw [← payment.symbol] at converted
  exact ⟨_, converted, receiving.symm, (resting.toInt_worth_of_le paid payment.le).le.trans asked⟩

/-- The worth of a resting order is more, or not more, than what an incoming one sells. -/
theorem lt_amountForSale (resting' : oldOrder.Resting)
    (sells : newOrder.sellPrice.base.symbol = oldOrder.sellPrice.quote.symbol) :
    Asset.lt ⟨Int64.ofInt (resting'.rate.worth oldOrder.forSale.toInt),
        oldOrder.sellPrice.quote.symbol⟩ newOrder.amountForSale =
      .ok (decide (resting'.rate.worth oldOrder.forSale.toInt < newOrder.forSale.toInt)) := by
  have exact_ := resting'.toInt_worth_of_le (Int.le_of_lt resting'.selling) (Int.le_refl _)
  simp only [Asset.lt, Asset.sameSymbol, except_bind_eq_ok, ensure_eq_ok, except_pure_eq_ok]
  refine ⟨(), sells.symm, ?_⟩
  rw [decide_eq_decide, Int64.lt_iff_toInt_lt, exact_]
  rfl

/-- Two resting orders whose prices cross are a good match. -/
theorem exists_fill (resting : newOrder.Resting) (resting' : oldOrder.Resting)
    (crosses : newOrder.Crosses oldOrder) :
    ∃ takerPays makerPays, Fill.Good ⟨newOrder, oldOrder, takerPays, makerPays⟩ := by
  obtain ⟨sells, buys, meets⟩ := crosses
  have fair := @fair_trade resting.rate resting'.rate _ _ meets resting.selling resting'.selling
    resting.worth.1 resting'.worth.1
  have oldWorth : oldOrder.amountForSale.mulPrice oldOrder.sellPrice = _ :=
    resting'.asking_of_le (Int.le_of_lt resting'.selling) (Int.le_refl _)
  have exact_ := resting'.toInt_worth_of_le (Int.le_of_lt resting'.selling) (Int.le_refl _)
  have compared := lt_amountForSale resting' sells
  by_cases less : resting'.rate.worth oldOrder.forSale.toInt < newOrder.forSale.toInt
  · rw [trade, if_pos less, ← exact_] at fair
    have taker : newOrder.Pays ⟨Int64.ofInt (resting'.rate.worth oldOrder.forSale.toInt),
        oldOrder.sellPrice.quote.symbol⟩ := ⟨sells.symm, fair.pos, fair.le⟩
    have maker : oldOrder.Pays oldOrder.amountForSale := ⟨rfl, fair.pos', fair.le'⟩
    refine ⟨_, _, ?_, taker, maker, resting.accepts taker buys.symm fair.asked,
      resting'.accepts maker rfl fair.asked', .inr rfl⟩
    simp only [matchedAmounts, except_bind_eq_ok]
    refine ⟨_, oldWorth, true, ?_, rfl⟩
    rw [compared, decide_eq_true less]
  · rw [trade, if_neg less] at fair
    have small : resting'.rate.swap.worth newOrder.forSale.toInt < 9223372036854775808 :=
      Int.lt_of_le_of_lt fair.le' oldOrder.forSale.toInt_lt
    have least := fair.pos'
    have exact' : (Int64.ofInt (resting'.rate.swap.worth newOrder.forSale.toInt)).toInt =
        resting'.rate.swap.worth newOrder.forSale.toInt :=
      Int64.toInt_ofInt_of_le (by omega) (by omega)
    rw [← exact'] at fair
    have taker : newOrder.Pays newOrder.amountForSale := ⟨rfl, fair.pos, fair.le⟩
    have maker : oldOrder.Pays ⟨Int64.ofInt (resting'.rate.swap.worth newOrder.forSale.toInt),
        oldOrder.sellPrice.base.symbol⟩ := ⟨rfl, fair.pos', fair.le'⟩
    refine ⟨_, _, ?_, taker, maker, resting.accepts taker buys.symm fair.asked,
      resting'.accepts maker sells fair.asked', .inl rfl⟩
    have newWorth := mulPrice_of_quote (Int.le_of_lt resting.selling) small
    rw [← sells] at newWorth
    simp only [matchedAmounts, except_bind_eq_ok]
    refine ⟨_, oldWorth, false, ?_, except_bind_eq_ok.mpr ⟨_, newWorth, rfl⟩⟩
    rw [compared, decide_eq_false less]

/-- None of the assertions of `match` fails for a good match. -/
theorem Fill.Good.matchOrders_eq {fill : Fill} (good : fill.Good) (taker : fill.taker.Resting)
    (maker : fill.maker.Resting) (crosses : fill.taker.Crosses fill.maker) :
    matchOrders fill.taker fill.maker = fill.settled := by
  obtain ⟨sells, buys, _⟩ := crosses
  have selling : 0 < fill.taker.forSale ∧ 0 < fill.maker.forSale :=
    ⟨Int64.lt_iff_toInt_lt.mpr taker.selling, Int64.lt_iff_toInt_lt.mpr maker.selling⟩
  have fillTaker := fillOrder_eq_settle taker good.taker (good.maker.symbol.trans buys.symm)
  have fillMaker := fillOrder_eq_settle maker good.maker (good.taker.symbol.trans sells)
  unfold matchOrders Fill.settled
  rw [require_of buys, require_of sells, require_of selling, pure_bind, pure_bind, pure_bind,
    good.made, lift_ok_bind]
  dsimp only
  rw [require_of good.exhausted, pure_bind, fillTaker, fillMaker]
  -- The order that is used up is gone, whatever becomes of the other one.
  rcases good.exhausted with whole | whole
  · rw [whole, settle_whole]
    simp only [bind_assoc, pure_bind]
    refine congrArg _ (funext fun _ => congrArg _ (funext fun _ => congrArg _ (funext fun _ => ?_)))
    rw [require_of (.inl rfl), pure_bind]
  · rw [whole, settle_whole]
    simp only [bind_assoc, pure_bind]
    refine congrArg _ (funext fun _ => congrArg _ (funext fun _ => congrArg _ (funext fun _ => ?_)))
    rw [require_of (.inr rfl), pure_bind]

end Match

/-! ### The book -/

/-- A book in which nothing is left to be matched. -/
structure OrderBook.Quiet (book : OrderBook) : Prop where
  resting : ∀ order ∈ book, order.Resting
  apart : ∀ order ∈ book, ∀ other ∈ book, ¬ order.Crosses other

/-- A book in which at most one order is left to be matched, and that with the listed ones. -/
structure OrderBook.Matchable (key : AccountName × Nat) (orders : List LimitOrder)
    (book : OrderBook) : Prop where
  resting : ∀ order ∈ book, order.Resting
  apart : ∀ order ∈ book, ∀ other ∈ book, order.key ≠ key → other.key ≠ key →
    ¬ order.Crosses other
  listed : book.Lists orders
  crossing : ∀ newOrder, book.find? key = some newOrder → ∀ order ∈ book,
    newOrder.Crosses order ↔ order ∈ orders

namespace LimitOrder

variable {order other : LimitOrder} {pays : Asset} {book : OrderBook}

/-- Only the prices say whether orders cross. -/
theorem Crosses.congr {order' other' : LimitOrder} (crosses : order.Crosses other)
    (same : order'.sellPrice = order.sellPrice) (same' : other'.sellPrice = other.sellPrice) :
    order'.Crosses other' := by
  unfold Crosses
  rw [same, same']
  exact crosses

theorem Resting.not_crosses_self (resting : order.Resting) : ¬ order.Crosses order :=
  fun crosses => (Price.validate_pos resting.valid).2.2 crosses.1

theorem find?_takeFrom_of_ne {key : AccountName × Nat} (different : key ≠ order.key) :
    (order.takeFrom pays book).find? key = book.find? key := by
  unfold takeFrom
  split
  · exact Table.find?_erase_of_ne different
  · exact Table.find?_replace_of_ne different

theorem find?_takeFrom_self (found : book.find? order.key = some order) :
    (order.takeFrom pays book).find? order.key =
      if order.Spent pays then none else some (order.less pays) := by
  unfold takeFrom
  split
  · exact Table.find?_erase_self
  · exact @Table.find?_replace_self _ _ _ _ (order.less pays) _ _ found

theorem mem_takeFrom (found : book.find? order.key = some order)
    (member : other ∈ order.takeFrom pays book) :
    (other.key ≠ order.key ∧ other ∈ book) ∨ (¬ order.Spent pays ∧ other = order.less pays) := by
  have again : (order.takeFrom pays book).find? other.key = some other := Table.find?_of_mem member
  by_cases isKey : other.key = order.key
  · rw [isKey, find?_takeFrom_self found] at again
    split at again
    · cases again
    · next unspent => exact .inr ⟨unspent, (Option.some.inj again).symm⟩
  · rw [find?_takeFrom_of_ne isKey] at again
    exact .inl ⟨isKey, Table.mem_of_find? again⟩

/-- What is left of an order that is not spent may rest. -/
theorem Resting.less_of_unspent (resting : order.Resting) (payment : order.Pays pays)
    (unspent : ¬ order.Spent pays) : (order.less pays).Resting := by
  obtain ⟨part, worthy⟩ := not_or.mp unspent
  exact resting.less (Int.le_of_lt payment.positive) (payment.lt part) worthy

end LimitOrder

theorem OrderBook.find?_of_mem {book : OrderBook} (member : order ∈ book) :
    book.find? order.key = some order :=
  Table.find?_of_mem member

namespace OrderBook.Matchable

variable {key : AccountName × Nat} {book : OrderBook} {newOrder oldOrder : LimitOrder}
  {rest : List LimitOrder} {fill : Fill}

/-- When the incoming order is gone, the book is quiet. -/
theorem quiet_of_gone (matchable : book.Matchable key orders) (gone : book.find? key = none) :
    book.Quiet := by
  have notKey (order : LimitOrder) (member : order ∈ book) : order.key ≠ key := by
    rintro rfl
    rw [find?_of_mem member] at gone
    cases gone
  exact ⟨matchable.resting, fun order member other member' =>
    matchable.apart order member other member' (notKey order member) (notKey other member')⟩

/-- When no order is left to be matched, the book is quiet. -/
theorem quiet (matchable : book.Matchable key []) : book.Quiet := by
  refine ⟨matchable.resting, fun order member other member' crosses => ?_⟩
  by_cases isKey : order.key = key
  · have found : book.find? key = some order := isKey ▸ find?_of_mem member
    exact List.not_mem_nil ((matchable.crossing order found other member').mp crosses)
  · by_cases isKey' : other.key = key
    · have found : book.find? key = some other := isKey' ▸ find?_of_mem member'
      exact List.not_mem_nil ((matchable.crossing other found order member).mp crosses.symm)
    · exact matchable.apart order member other member' isKey isKey' crosses

/-- The incoming order and the next one it is matched with. -/
theorem next (matchable : book.Matchable key (oldOrder :: rest))
    (found : book.find? key = some newOrder) :
    book.find? oldOrder.key = some oldOrder ∧ newOrder.Resting ∧ oldOrder.Resting ∧
      newOrder.Crosses oldOrder ∧ oldOrder.key ≠ key := by
  have foundOld := matchable.listed.head
  have resting := matchable.resting newOrder (Table.mem_of_find? found)
  have crosses := (matchable.crossing newOrder found oldOrder (Table.mem_of_find? foundOld)).mpr
    List.mem_cons_self
  refine ⟨foundOld, resting, matchable.resting oldOrder (Table.mem_of_find? foundOld), crosses, ?_⟩
  rintro rfl
  have same : oldOrder = newOrder := Option.some.inj (foundOld.symm.trans found)
  exact resting.not_crosses_self (same ▸ crosses)

/-- A match leaves the incoming order to be matched with the orders that come after. -/
theorem matched (matchable : book.Matchable fill.taker.key (fill.maker :: rest)) (good : fill.Good)
    (found : book.find? fill.taker.key = some fill.taker) :
    (fill.maker.takeFrom fill.makerPays (fill.taker.takeFrom fill.takerPays book)).Matchable
      fill.taker.key rest := by
  obtain ⟨foundMaker, taker, maker, crosses, differs⟩ := matchable.next found
  have foundMaker' : (fill.taker.takeFrom fill.takerPays book).find? fill.maker.key =
      some fill.maker := by
    rw [LimitOrder.find?_takeFrom_of_ne differs, foundMaker]
  -- Whatever is in the book was there before, but for what is left of the two orders.
  have origin (other : LimitOrder) (member : other ∈
      fill.maker.takeFrom fill.makerPays (fill.taker.takeFrom fill.takerPays book)) :
      (other.key ≠ fill.maker.key ∧ other.key ≠ fill.taker.key ∧ other ∈ book) ∨
        (¬ fill.taker.Spent fill.takerPays ∧ other = fill.taker.less fill.takerPays) ∨
          (¬ fill.maker.Spent fill.makerPays ∧ other = fill.maker.less fill.makerPays) := by
    rcases LimitOrder.mem_takeFrom foundMaker' member with ⟨notMaker, member⟩ | left
    · rcases LimitOrder.mem_takeFrom found member with ⟨notTaker, member⟩ | left
      · exact .inl ⟨notMaker, notTaker, member⟩
      · exact .inr (.inl left)
    · exact .inr (.inr left)
  refine ⟨fun other member => ?_, fun one memberOne two memberTwo notOne notTwo crosses => ?_, ?_,
    fun again foundAgain other member => ?_⟩
  · rcases origin other member with ⟨_, _, member⟩ | ⟨unspent, rfl⟩ | ⟨unspent, rfl⟩
    · exact matchable.resting other member
    · exact taker.less_of_unspent good.taker unspent
    · exact maker.less_of_unspent good.maker unspent
  · have before (other : LimitOrder) (member : other ∈
        fill.maker.takeFrom fill.makerPays (fill.taker.takeFrom fill.takerPays book))
        (notTaker : other.key ≠ fill.taker.key) :
        ∃ old ∈ book, old.key ≠ fill.taker.key ∧ old.sellPrice = other.sellPrice := by
      rcases origin other member with ⟨_, _, member⟩ | ⟨_, rfl⟩ | ⟨_, rfl⟩
      · exact ⟨other, member, notTaker, rfl⟩
      · exact absurd rfl notTaker
      · exact ⟨fill.maker, Table.mem_of_find? foundMaker, differs, rfl⟩
    obtain ⟨first, member, notTaker, same⟩ := before one memberOne notOne
    obtain ⟨second, member', notTaker', same'⟩ := before two memberTwo notTwo
    exact matchable.apart first member second member' notTaker notTaker'
      (crosses.congr same same')
  · obtain ⟨distinct, listed⟩ := matchable.listed
    rw [List.map_cons, List.nodup_cons] at distinct
    refine ⟨distinct.2, fun other later => ?_⟩
    have foundOther : book.find? other.key = some other :=
      listed other (List.mem_cons_of_mem _ later)
    have notMaker : other.key ≠ fill.maker.key := fun same =>
      distinct.1 (List.mem_map.mpr ⟨other, later, same⟩)
    have notTaker : other.key ≠ fill.taker.key := by
      intro same
      have isTaker : fill.taker = other := by
        rw [same, found] at foundOther
        exact Option.some.inj foundOther
      have crosses := (matchable.crossing fill.taker found other (Table.mem_of_find? foundOther)).mpr
        (List.mem_cons_of_mem _ later)
      exact taker.not_crosses_self (crosses.congr rfl (by rw [isTaker]))
    change Table.find? _ other.key = _
    rw [LimitOrder.find?_takeFrom_of_ne notMaker, LimitOrder.find?_takeFrom_of_ne notTaker]
    exact foundOther
  · rw [LimitOrder.find?_takeFrom_of_ne differs.symm, LimitOrder.find?_takeFrom_self found]
      at foundAgain
    split at foundAgain
    · cases foundAgain
    · next unspent =>
      obtain rfl := Option.some.inj foundAgain
      have makerSpent : fill.maker.Spent fill.makerPays :=
        .inl (good.exhausted.resolve_left fun whole => unspent (.inl whole))
      have crossing := matchable.crossing fill.taker found
      rcases origin other member with ⟨notMaker, _, member⟩ | ⟨_, rfl⟩ | ⟨unspent', _⟩
      · constructor
        · intro crosses
          rcases List.mem_cons.mp ((crossing other member).mp (crosses.congr rfl rfl)) with
            rfl | later
          · exact absurd rfl notMaker
          · exact later
        · intro later
          exact ((crossing other member).mpr (List.mem_cons_of_mem _ later)).congr rfl rfl
      · constructor
        · intro crosses
          exact absurd (crosses.congr rfl rfl) taker.not_crosses_self
        · intro later
          have listed := matchable.listed.2 _ (List.mem_cons_of_mem _ later)
          have same := Option.some.inj (found.symm.trans listed)
          have crosses := (crossing fill.taker (Table.mem_of_find? found)).mpr
            (List.mem_cons_of_mem _ (same ▸ later))
          exact absurd crosses taker.not_crosses_self
      · exact absurd makerSpent unspent'

end OrderBook.Matchable

/-! ### The loop -/

/-- A run of the loop of `apply_order` in which the incoming order was matched with the first of
the listed orders, until it was gone or all of them were; with the fills that were made. -/
inductive Matched (key : AccountName × Nat) :
    List LimitOrder → List Fill → ChainState → ChainState → Prop
  | none {s : ChainState} : Matched key [] [] s s
  | last {fill : Fill} {rest : List LimitOrder} {s t : ChainState} {makerGone : Bool}
      (found : s.limitOrders.find? key = some fill.taker)
      (amounts : matchedAmounts fill.taker fill.maker = .ok (fill.makerPays, fill.takerPays))
      (run : matchOrders fill.taker fill.maker s = .ok (true, makerGone) t) :
      Matched key (fill.maker :: rest) [fill] s t
  | next {fill : Fill} {rest : List LimitOrder} {fills : List Fill} {s u t : ChainState}
      {makerGone : Bool} (found : s.limitOrders.find? key = some fill.taker)
      (amounts : matchedAmounts fill.taker fill.maker = .ok (fill.makerPays, fill.takerPays))
      (run : matchOrders fill.taker fill.maker s = .ok (false, makerGone) u)
      (later : Matched key rest fills u t) : Matched key (fill.maker :: rest) (fill :: fills) s t

theorem exists_matched {owner : AccountName} {orderid : Nat} {u : Unit}
    (run : matchWithEach owner orderid orders s = .ok u t) :
    ∃ fills, Matched (owner, orderid) orders fills s t := by
  induction orders generalizing s with
  | nil =>
    obtain ⟨_, rfl⟩ := pure_eq_ok.mp run
    exact ⟨[], .none⟩
  | cons oldOrder rest inductionHypothesis =>
    simp only [matchWithEach, bind_eq_ok, getLimitOrder_eq_ok, and_assoc, exists_and_left,
      exists_eq_left'] at run
    obtain ⟨newOrder, found, ⟨newGone, oldGone⟩, middle, matched, further⟩ := run
    have amounts : ∃ amounts, matchedAmounts newOrder oldOrder = .ok amounts := by
      simp only [matchOrders, bind_eq_ok, require_eq_ok, lift_eq_ok] at matched
      obtain ⟨_, _, _, _, _, _, _, _, _, amounts, _, ⟨made, _⟩, _⟩ := matched
      exact ⟨amounts, made⟩
    obtain ⟨⟨newReceives, oldReceives⟩, made⟩ := amounts
    cases newGone with
    | true =>
      obtain ⟨_, rfl⟩ := pure_eq_ok.mp further
      exact ⟨_, @Matched.last _ ⟨newOrder, oldOrder, oldReceives, newReceives⟩ _ _ _ _ found made
        matched⟩
    | false =>
      obtain ⟨fills, later⟩ := inductionHypothesis further
      exact ⟨_, @Matched.next _ ⟨newOrder, oldOrder, oldReceives, newReceives⟩ _ _ _ _ _ _ found made
        matched later⟩

namespace Fill

/-- The book after a match. -/
def book (fill : Fill) (book : OrderBook) : OrderBook :=
  fill.maker.takeFrom fill.makerPays (fill.taker.takeFrom fill.takerPays book)

variable {fill : Fill} {rest : List LimitOrder} {s t : ChainState} {takerGone makerGone : Bool}

/-- The match of the incoming order with the next one is good and does what it should. -/
theorem good_of_next
    (matchable : OrderBook.Matchable fill.taker.key (fill.maker :: rest) s.limitOrders)
    (found : s.limitOrders.find? fill.taker.key = some fill.taker)
    (amounts : matchedAmounts fill.taker fill.maker = .ok (fill.makerPays, fill.takerPays)) :
    fill.Good ∧ matchOrders fill.taker fill.maker = fill.settled := by
  obtain ⟨_, taker, maker, crosses, _⟩ := matchable.next found
  obtain ⟨takerPays, makerPays, good⟩ := exists_fill taker maker crosses
  have same := good.made.symm.trans amounts
  rw [Except.ok.injEq, Prod.mk.injEq] at same
  obtain ⟨rfl, rfl⟩ := same
  exact ⟨good, good.matchOrders_eq taker maker crosses⟩

theorem settled_eq_ok (run : fill.settled s = .ok (takerGone, makerGone) t) :
    takerGone = decide (fill.taker.Spent fill.takerPays) ∧
      t.limitOrders = fill.book s.limitOrders := by
  simp only [settled, bind_eq_ok, pure_eq_ok, Prod.mk.injEq] at run
  obtain ⟨_, _, taker, _, _, maker, ⟨rfl, rfl⟩, rfl⟩ := run
  obtain ⟨gone, takenOnce⟩ := settle_eq_ok taker
  obtain ⟨_, takenTwice⟩ := settle_eq_ok maker
  refine ⟨gone, ?_⟩
  rw [takenTwice, takenOnce]
  rfl

theorem settled_eq_error (run : fill.settled s = .error e t) : PaymentFailed e t := by
  rcases bind_eq_error.mp run with failed | ⟨_, _, _, run⟩
  · exact settle_eq_error failed
  · rcases bind_eq_error.mp run with failed | ⟨_, _, _, run⟩
    · exact settle_eq_error failed
    · exact (pure_eq_error.mp run).elim

/-- What a match does to the book. -/
theorem matchable_of_run
    (matchable : OrderBook.Matchable fill.taker.key (fill.maker :: rest) s.limitOrders)
    (found : s.limitOrders.find? fill.taker.key = some fill.taker)
    (amounts : matchedAmounts fill.taker fill.maker = .ok (fill.makerPays, fill.takerPays))
    (run : matchOrders fill.taker fill.maker s = .ok (takerGone, makerGone) t) :
    t.limitOrders = fill.book s.limitOrders ∧ OrderBook.Matchable fill.taker.key rest t.limitOrders ∧
      t.limitOrders.find? fill.taker.key =
        if takerGone then none else some (fill.taker.less fill.takerPays) := by
  obtain ⟨good, isSettled⟩ := good_of_next matchable found amounts
  rw [isSettled] at run
  obtain ⟨gone, changed⟩ := settled_eq_ok run
  refine ⟨changed, ?_, ?_⟩
  · rw [changed]
    exact matchable.matched good found
  · obtain ⟨_, _, _, _, differs⟩ := matchable.next found
    rw [changed, book, LimitOrder.find?_takeFrom_of_ne differs.symm,
      LimitOrder.find?_takeFrom_self found, gone]
    simp only [decide_eq_true_eq]

end Fill

namespace Matched

variable {key : AccountName × Nat} {orders : List LimitOrder} {fills : List Fill} {s t : ChainState}

/-- The listed orders are matched in turn. -/
theorem makers (matched : Matched key orders fills s t) : fills.map Fill.maker <+: orders := by
  induction matched with
  | none => exact List.nil_prefix
  | last => exact List.prefix_cons_iff.mpr (.inr ⟨[], rfl, List.nil_prefix⟩)
  | next _ _ _ _ inductionHypothesis =>
    exact List.cons_prefix_cons.mpr ⟨rfl, inductionHypothesis⟩

/-- Every match on the way is good, and in the end the book is quiet. -/
theorem good (matched : Matched key orders fills s t)
    (matchable : OrderBook.Matchable key orders s.limitOrders) :
    (∀ fill ∈ fills, fill.Good ∧ matchOrders fill.taker fill.maker = fill.settled) ∧
      OrderBook.Quiet t.limitOrders := by
  induction matched with
  | none => exact ⟨List.forall_mem_nil _, matchable.quiet⟩
  | last found amounts run =>
    obtain rfl := Table.key_of_find? found
    obtain ⟨_, matchable', gone⟩ := Fill.matchable_of_run matchable found amounts run
    refine ⟨?_, matchable'.quiet_of_gone gone⟩
    rw [List.forall_mem_singleton]
    exact Fill.good_of_next matchable found amounts
  | next found amounts run _ inductionHypothesis =>
    obtain rfl := Table.key_of_find? found
    obtain ⟨_, matchable', _⟩ := Fill.matchable_of_run matchable found amounts run
    obtain ⟨later, quiet⟩ := inductionHypothesis matchable'
    exact ⟨List.forall_mem_cons.mpr ⟨Fill.good_of_next matchable found amounts, later⟩, quiet⟩

end Matched

/-- The loop stops only where a seller cannot be paid. -/
theorem matchWithEach_eq_error {owner : AccountName} {orderid : Nat}
    (matchable : OrderBook.Matchable (owner, orderid) orders s.limitOrders)
    (present : ∃ order, s.limitOrders.find? (owner, orderid) = some order)
    (run : matchWithEach owner orderid orders s = .error e t) : PaymentFailed e t := by
  induction orders generalizing s with
  | nil => exact (pure_eq_error.mp run).elim
  | cons oldOrder rest inductionHypothesis =>
    obtain ⟨newOrder, found⟩ := present
    obtain ⟨_, taker, maker, crosses, _⟩ := matchable.next found
    obtain ⟨takerPays, makerPays, good⟩ := exists_fill taker maker crosses
    have isSettled := good.matchOrders_eq taker maker crosses
    have read : getLimitOrder owner orderid s = .ok newOrder s :=
      getLimitOrder_eq_ok.mpr ⟨found, rfl⟩
    unfold matchWithEach at run
    rw [bind_of_ok read] at run
    rcases bind_eq_error.mp run with failed | ⟨⟨newGone, oldGone⟩, middle, matched, run⟩
    · rw [isSettled] at failed
      exact Fill.settled_eq_error failed
    · obtain ⟨rfl, rfl⟩ := Prod.mk.injEq .. ▸ Table.key_of_find? found
      obtain ⟨_, matchable', left⟩ := @Fill.matchable_of_run
        ⟨newOrder, oldOrder, takerPays, makerPays⟩ _ _ _ _ _ matchable found good.made matched
      cases newGone with
      | true => exact (pure_eq_error.mp run).elim
      | false =>
        exact inductionHypothesis matchable' ⟨_, left⟩ run

end Zattera
