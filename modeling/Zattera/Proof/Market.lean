/-
This file follows the market through whole runs. An order is opened by one of
two operations, matched as it comes in, cancelled by its seller or dropped when
it expires; nothing else touches the book. From the way a single order is
matched it follows that the book stays quiet, that resting orders are served by
price and age, and that all an order puts up is sold or comes back.
-/

import Mathlib.Algebra.Order.Field.Basic
import Mathlib.Algebra.Order.Ring.Rat
import Zattera.Proof.Matching

namespace Zattera

open Program Exchange

variable {s t : ChainState} {order : LimitOrder} {op : Operation} {fill : Fill}

/-! ### Comparing prices -/

theorem Price.symbols_eq {a b : Price} :
    a.symbols = b.symbols ↔ a.base.symbol = b.base.symbol ∧ a.quote.symbol = b.quote.symbol := by
  unfold symbols
  rw [Prod.mk.injEq]
  constructor
  · rintro ⟨base, quote⟩
    exact ⟨AssetSymbol.assetNum_injective base, AssetSymbol.assetNum_injective quote⟩
  · rintro ⟨base, quote⟩
    exact ⟨congrArg _ base, congrArg _ quote⟩

/-- Valid prices of one pair compare by their cross products. -/
theorem Price.lt_iff {a b : Price} (valid : a.validate = .ok ()) (valid' : b.validate = .ok ())
    (same : a.symbols = b.symbols) :
    a.lt b = true ↔ b.quote.amount.toInt * a.base.amount.toInt <
      a.quote.amount.toInt * b.base.amount.toInt := by
  obtain ⟨base, quote, _⟩ := validate_pos valid
  obtain ⟨base', quote', _⟩ := validate_pos valid'
  unfold lt
  rw [if_neg (not_not.mpr same), decide_eq_true_eq, BitVec.lt_def]
  unfold crossProducts
  rw [UInt128.toNat_ofInt64_mul_ofInt64 (Int.le_of_lt quote') (Int.le_of_lt base),
    UInt128.toNat_ofInt64_mul_ofInt64 (Int.le_of_lt quote) (Int.le_of_lt base'), ← Int.ofNat_lt,
    Int.natCast_mul, Int.natCast_mul, Int.toNat_of_nonneg (Int.le_of_lt quote'),
    Int.toNat_of_nonneg (Int.le_of_lt base), Int.toNat_of_nonneg (Int.le_of_lt quote),
    Int.toNat_of_nonneg (Int.le_of_lt base')]

/-! ### The orders on the other side -/

/-- The price bound an order is matched down to: its own price, seen from the other side. -/
def LimitOrder.maxPrice (order : LimitOrder) : Price :=
  ⟨order.sellPrice.quote, order.sellPrice.base⟩

/-- The highest price an order is matched at. -/
def LimitOrder.highestPrice (order : LimitOrder) : Price :=
  ⟨⟨maxSatoshis, order.sellPrice.quote.symbol⟩, ⟨1, order.sellPrice.base.symbol⟩⟩

/-- The orders `apply_order` goes through for an incoming one. -/
def ChainState.opposing (state : ChainState) (order : LimitOrder) : List LimitOrder :=
  state.matchingOrders order.highestPrice order.maxPrice

/-- The bound on amounts that `price::max` is made of. -/
def LimitOrder.Bounded (order : LimitOrder) : Prop := order.forSale ≤ maxSatoshis

section Opposing

variable {order other : LimitOrder}

theorem LimitOrder.Resting.validate_maxPrice (resting : order.Resting) :
    order.maxPrice.validate = .ok () := by
  obtain ⟨base, quote, differs⟩ := Price.validate_eq_ok.mp resting.valid
  exact Price.validate_eq_ok.mpr ⟨quote, base, differs.symm⟩

theorem LimitOrder.Resting.validate_highestPrice (resting : order.Resting) :
    order.highestPrice.validate = .ok () := by
  obtain ⟨_, _, differs⟩ := Price.validate_eq_ok.mp resting.valid
  have highest : (0 : ShareType) < maxSatoshis := by decide
  have lowest : (0 : ShareType) < 1 := by decide
  exact Price.validate_eq_ok.mpr ⟨highest, lowest, differs.symm⟩

/-- The price of an order within the bound is not above the highest one: it would not ask for
anything. -/
theorem LimitOrder.Resting.not_highest_lt (resting : order.Resting) (resting' : other.Resting)
    (bounded : other.Bounded)
    (same : other.sellPrice.symbols = order.maxPrice.symbols) :
    order.highestPrice.lt other.sellPrice = false := by
  have sameSymbols : order.highestPrice.symbols = other.sellPrice.symbols := same.symm
  rw [← Bool.not_eq_true, Price.lt_iff resting.validate_highestPrice resting'.valid sameSymbols]
  have asks : 1 ≤ resting'.rate.worth other.forSale.toInt := resting'.worth.1
  rw [Rate.le_worth] at asks
  have covered : resting'.rate.base ≤ maxSatoshis.toInt * resting'.rate.quote := by
    refine (Int.one_mul _ ▸ asks).trans ?_
    exact Int.mul_le_mul_of_nonneg_right (Int64.le_iff_toInt_le.mp bounded)
      (Int.le_of_lt resting'.rate.quote_pos)
  change ¬ other.sellPrice.quote.amount.toInt * maxSatoshis.toInt <
    1 * other.sellPrice.base.amount.toInt
  rw [Int.one_mul, Int.not_lt, Int.mul_comm]
  exact covered

/-- The orders on the other side are those that cross. -/
theorem mem_opposing {state : ChainState} (resting : order.Resting)
    (book : ∀ other ∈ state.limitOrders, other.Resting ∧ other.Bounded) :
    other ∈ state.opposing order ↔ other ∈ state.limitOrders ∧ order.Crosses other := by
  unfold ChainState.opposing ChainState.matchingOrders
  rw [List.mem_insertionSort, List.mem_filter, Table.mem_def]
  refine and_congr_right fun member => ?_
  obtain ⟨resting', bounded⟩ := book other member
  simp only [Bool.and_eq_true, decide_eq_true_eq, Bool.not_eq_true', and_assoc]
  constructor
  · rintro ⟨same, _, notLess⟩
    obtain ⟨sells, buys⟩ := Price.symbols_eq.mp same
    rw [← Bool.not_eq_true, Price.lt_iff resting'.valid resting.validate_maxPrice same, Int.not_lt]
      at notLess
    refine ⟨buys.symm, sells.symm, ?_⟩
    rw [Int.mul_comm]
    exact notLess
  · rintro ⟨sells, buys, meets⟩
    have same : other.sellPrice.symbols = order.maxPrice.symbols :=
      Price.symbols_eq.mpr ⟨buys.symm, sells.symm⟩
    refine ⟨same, resting.not_highest_lt resting' bounded same, ?_⟩
    rw [← Bool.not_eq_true, Price.lt_iff resting'.valid resting.validate_maxPrice same, Int.not_lt]
    rw [Int.mul_comm] at meets
    exact meets

end Opposing

/-! ### Opening an order -/

/-- An order as it is asked for by an operation. -/
structure Offer where
  owner : AccountName
  orderid : Nat
  amountToSell : Asset
  sellPrice : Except ChainError Price
  fillOrKill : Bool
  expiration : TimePointSec

/-- The order an operation asks for. -/
def Operation.offer : Operation → Option Offer
  | .limitOrderCreate o => some ⟨o.owner, o.orderid, o.amountToSell,
      Price.ofAssets o.amountToSell o.minToReceive, o.fillOrKill, o.expiration⟩
  | .limitOrderCreate2 o =>
    some ⟨o.owner, o.orderid, o.amountToSell, .ok o.exchangeRate, o.fillOrKill, o.expiration⟩
  | _ => none

/-- The amount put up is within the bound that `asset::validate` states and `price::max` is made
of. -/
def Offer.Bounded (offer : Offer) : Prop := offer.amountToSell.amount ≤ maxSatoshis

instance (offer : Offer) : Decidable offer.Bounded :=
  inferInstanceAs (Decidable (offer.amountToSell.amount ≤ maxSatoshis))

/-- The first part of the evaluators, up to the new order in the book. -/
def Offer.place (offer : Offer) : Chain LimitOrder := do
  let now ← headBlockTime
  require (now < offer.expiration)
    (.assertion "Limit order has to expire after head block time.")
  require (offer.expiration ≤ now + 2419200)
    (.assertion "Limit Order Expiration must not be more than 28 days in the future")
  spend offer.owner offer.amountToSell "Account does not have sufficient funds for limit order."
  let price ← offer.sellPrice
  let order : LimitOrder :=
    ⟨now, offer.expiration, offer.owner, offer.orderid, offer.amountToSell.amount, price⟩
  insertLimitOrder order
  return order

/-- The assertion of an order that was to be filled at once. -/
def unfilledError : ChainError := .assertion "Cancelling order because it was not filled."

/-- The evaluators open the order and match it. -/
theorem applyOperation_of_offer {offer : Offer} (offered : op.offer = some offer) (producing : Bool) :
    applyOperation producing op = offer.place >>= fun order => applyOrder order >>= fun filled =>
      whenever offer.fillOrKill (require filled unfilledError) := by
  cases op
  all_goals simp only [Operation.offer, reduceCtorEq, Option.some.injEq] at offered
  all_goals
    subst offered
    simp only [applyOperation, limitOrderCreateEvaluator, limitOrderCreate2Evaluator,
      createLimitOrder, Offer.place, bind_assoc, pure_bind]
    rfl

theorem Offer.place_eq_ok {offer : Offer} (run : offer.place s = .ok order t) :
    offer.sellPrice = .ok order.sellPrice ∧ order.forSale = offer.amountToSell.amount ∧
      s.limitOrders.insert? order = some t.limitOrders := by
  simp only [Offer.place, bind_eq_ok, headBlockTime_eq_ok, require_eq_ok, lift_eq_ok, pure_eq_ok,
    and_assoc, exists_and_left, exists_eq_left', exists_const] at run
  obtain ⟨_, _, _, middle, spent, price, priced, _, _, inserted, rfl, rfl⟩ := run
  obtain ⟨added, isNew, rfl⟩ := create_eq_ok.mp inserted
  rw [keptField ChainState.limitOrders (fun _ => rfl) spent] at isNew
  exact ⟨priced, rfl, isNew⟩

/-- An order for a least amount asks for that amount. -/
theorem resting_of_ofAssets {amountToSell minToReceive : Asset}
    (made : Price.ofAssets amountToSell minToReceive = .ok order.sellPrice)
    (sells : order.forSale = amountToSell.amount) : order.Resting := by
  simp only [Price.ofAssets, except_bind_eq_ok, ensure_eq_ok, Price.make_eq_ok] at made
  obtain ⟨_, _, isPrice, base, quote, differs⟩ := made
  have valid : order.sellPrice.validate = .ok () := by
    rw [isPrice]
    exact Price.validate_eq_ok.mpr ⟨base, quote, differs⟩
  rw [Int64.lt_iff_toInt_lt] at base quote
  have worth : (order.sellPrice.rate valid).worth order.forSale.toInt = minToReceive.amount.toInt := by
    change order.forSale.toInt * order.sellPrice.quote.amount.toInt /
      order.sellPrice.base.amount.toInt = _
    rw [sells, isPrice]
    exact Int.mul_ediv_cancel_left _ (Int.ne_of_gt base)
  have upper := minToReceive.amount.toInt_lt
  have positive : 0 < order.forSale.toInt := sells ▸ base
  have asking := mulPrice_of_base (Int.le_of_lt positive) (by rw [worth]; exact upper)
  refine ⟨valid, positive, _, asking, ?_⟩
  rw [worth, Int64.ofInt_toInt]
  exact quote

/-- An order at a rate asks for what the amount comes to. -/
theorem resting_of_rate {amountToSell received : Asset} (valid : order.sellPrice.validate = .ok ())
    (symbol : amountToSell.symbol = order.sellPrice.base.symbol)
    (made : amountToSell.mulPrice order.sellPrice = .ok received) (positive : 0 < received.amount)
    (sells : order.forSale = amountToSell.amount) : order.Resting := by
  obtain ⟨amount, _⟩ := amountToSell
  subst symbol sells
  obtain ⟨base, quote, _⟩ := Price.validate_pos valid
  rw [Int64.lt_iff_toInt_lt] at positive
  have converted := made
  unfold Asset.mulPrice at converted
  rw [if_pos rfl] at converted
  have nonneg := Asset.nonneg_of_convert quote base converted
  obtain ⟨_, worth⟩ := worth_of_mulPrice valid nonneg made positive
  refine ⟨valid, lt_of_le_of_ne nonneg fun zero => ?_, received, made, positive⟩
  rw [worth, ← zero, Rate.worth, Int.zero_mul, Int.zero_ediv] at positive
  exact Int.lt_irrefl _ positive

/-- An order that is validly asked for may rest in the book. -/
theorem resting_of_place {offer : Offer} (offered : op.offer = some offer)
    (valid : op.validate = .ok ()) (run : offer.place s = .ok order t) : order.Resting := by
  obtain ⟨priced, sells, _⟩ := Offer.place_eq_ok run
  cases op
  all_goals simp only [Operation.offer, reduceCtorEq, Option.some.injEq] at offered
  · subst offered
    exact resting_of_ofAssets priced sells
  · next o =>
    subst offered
    simp only [Operation.validate, LimitOrderCreate2Operation.validate, except_bind_eq_ok,
      ensure_eq_ok] at valid
    obtain ⟨_, _, _, symbol, _, isPrice, _, _, received, made, positive⟩ := valid
    have same : o.exchangeRate = order.sellPrice := Except.ok.inj priced
    rw [same] at symbol isPrice made
    exact resting_of_rate isPrice symbol made positive sells

/-! ### Matching the new order -/

/-- A quiet book of orders within the bound. -/
structure OrderBook.Tidy (book : OrderBook) : Prop where
  quiet : book.Quiet
  bounded : ∀ order ∈ book, order.Bounded

section Apply

variable {order : LimitOrder} {s t : ChainState}

theorem applyOrder_eq (resting : order.Resting) :
    applyOrder order = get >>= fun state : ChainState =>
      matchWithEach order.seller order.orderid (state.opposing order) >>= fun _ =>
        get >>= fun state : ChainState => pure (state.limitOrders.find? order.key).isNone := by
  have inverse : order.sellPrice.inverse = .ok order.maxPrice :=
    Price.make_eq_ok.mpr ⟨rfl, Price.validate_eq_ok.mp resting.validate_maxPrice⟩
  have differs : order.sellPrice.quote.symbol ≠ order.sellPrice.base.symbol :=
    (Price.validate_pos resting.valid).2.2.symm
  have highest : Price.max order.maxPrice.base.symbol order.maxPrice.quote.symbol =
      .ok order.highestPrice := by
    unfold Price.max Price.ofAssets
    rw [except_bind_eq_ok]
    exact ⟨(), ensure_eq_ok.mpr differs,
      Price.make_eq_ok.mpr ⟨rfl, Price.validate_eq_ok.mp resting.validate_highestPrice⟩⟩
  unfold applyOrder
  rw [inverse, lift_ok_bind, highest, lift_ok_bind]
  rfl

/-- Once a new order is in a tidy book, it is left to be matched with the orders that cross. -/
theorem matchable_of_insert (tidy : OrderBook.Tidy s.limitOrders) (resting : order.Resting)
    (bounded : order.Bounded) (inserted : s.limitOrders.insert? order = some t.limitOrders) :
    OrderBook.Matchable order.key (t.opposing order) t.limitOrders := by
  have book (other : LimitOrder) (member : other ∈ t.limitOrders) :
      other.Resting ∧ other.Bounded := by
    rcases (Table.mem_of_insert? inserted).mp member with old | rfl
    · exact ⟨tidy.quiet.resting other old, tidy.bounded other old⟩
    · exact ⟨resting, bounded⟩
  have old (other : LimitOrder) (member : other ∈ t.limitOrders) (notNew : other.key ≠ order.key) :
      other ∈ s.limitOrders :=
    ((Table.mem_of_insert? inserted).mp member).resolve_right fun same => notNew (same ▸ rfl)
  refine ⟨fun other member => (book other member).1, fun one memberOne two memberTwo notOne notTwo =>
    ?_, matchingOrders_listed _ _ _, fun newOrder found other member => ?_⟩
  · exact tidy.quiet.apart one (old one memberOne notOne) two (old two memberTwo notTwo)
  · have same := (Table.find?_insert?_self inserted).symm.trans found
    obtain rfl := Option.some.inj same
    rw [mem_opposing resting book]
    exact (and_iff_right member).symm

end Apply

/-! ### Priority -/

/-- One order is served before another: it has the better price, or the same price and it came
first. The book lists the orders as they came. -/
def ChainState.Precedes (state : ChainState) (first second : LimitOrder) : Prop :=
  second.sellPrice.lt first.sellPrice = true ∨
    (first.sellPrice.lt second.sellPrice = false ∧
      [first, second].Sublist state.limitOrders.objects)

/-- The price of an order as a fraction. -/
def LimitOrder.fraction (order : LimitOrder) : ℚ :=
  order.sellPrice.base.amount.toInt / order.sellPrice.quote.amount.toInt

theorem lt_iff_fraction {first second : LimitOrder} (resting : first.Resting)
    (resting' : second.Resting) (same : first.sellPrice.symbols = second.sellPrice.symbols) :
    first.sellPrice.lt second.sellPrice = true ↔ first.fraction < second.fraction := by
  obtain ⟨_, quote, _⟩ := Price.validate_pos resting.valid
  obtain ⟨_, quote', _⟩ := Price.validate_pos resting'.valid
  unfold LimitOrder.fraction
  rw [Price.lt_iff resting.valid resting'.valid same,
    div_lt_div_iff₀ (Int.cast_pos.mpr quote) (Int.cast_pos.mpr quote'), ← Int.cast_mul,
    ← Int.cast_mul, Int.cast_lt, Int.mul_comm second.sellPrice.quote.amount.toInt,
    Int.mul_comm first.sellPrice.quote.amount.toInt]

/-- The orders on the other side are served by price, then by age. -/
theorem opposing_pairwise {state : ChainState} (book : ∀ other ∈ state.limitOrders, other.Resting) :
    (state.opposing order).Pairwise state.Precedes := by
  have compare {first second : LimitOrder} (one : first ∈ state.opposing order)
      (two : second ∈ state.opposing order) :
      first.sellPrice.lt second.sellPrice = true ↔ first.fraction < second.fraction := by
    unfold ChainState.opposing ChainState.matchingOrders at one two
    rw [List.mem_insertionSort, List.mem_filter] at one two
    simp only [Bool.and_eq_true, decide_eq_true_eq, and_assoc] at one two
    exact lt_iff_fraction (book first one.1) (book second two.1) (one.2.1.trans two.2.1.symm)
  have agrees {first second : LimitOrder} (one : first ∈ state.opposing order)
      (two : second ∈ state.opposing order) :
      first.sellPrice.lt second.sellPrice = false ↔ second.fraction ≤ first.fraction := by
    rw [← Bool.not_eq_true, compare one two, not_lt]
  have listed {other : LimitOrder} : other ∈ state.opposing order ↔ _ :=
    List.mem_insertionSort _
  have sorted := @pairwise_insertionSort_price _ _ _ _ _ LimitOrder.fraction _
    fun first one second two => agrees (listed.mpr one) (listed.mpr two)
  refine List.Pairwise.imp_of_mem (fun {first second} one two served => ?_) sorted
  rcases served with better | ⟨equal, older⟩
  · exact .inl ((compare two one).mpr better)
  · exact .inr ⟨(agrees one two).mpr equal.le, older.trans List.filter_sublist⟩

/-! ### Runs of the market -/

/-- What can happen to an order. -/
inductive MarketEvent where
  | opened (order : LimitOrder)
  | filled (fill : Fill)
  /-- What is left of an order goes back to its seller. -/
  | returned (order : LimitOrder)

/-- The rest of an order that has paid, where it goes back because it is worthless. -/
def LimitOrder.culled (order : LimitOrder) (pays : Asset) : List MarketEvent :=
  if pays ≠ order.amountForSale ∧ (order.less pays).Worthless then [.returned (order.less pays)]
  else []

def Fill.events (fill : Fill) : List MarketEvent :=
  .filled fill :: (fill.taker.culled fill.takerPays ++ fill.maker.culled fill.makerPays)

/-- What takes the market from one state to the next: an order comes in, or one is cancelled, by its
seller or because it has expired. Whatever else happens leaves the book alone. -/
inductive MarketStep : ChainState → List MarketEvent → ChainState → Prop
  | create {s u t : ChainState} {op : Operation} {offer : Offer} {order : LimitOrder}
      {fills : List Fill} (valid : op.validate = .ok ()) (offered : op.offer = some offer)
      (bounded : offer.Bounded) (placed : offer.place s = .ok order u)
      (matched : Matched order.key (u.opposing order) fills u t) :
      MarketStep s (.opened order :: fills.flatMap Fill.events) t
  | cancel {s t : ChainState} {order : LimitOrder}
      (found : s.limitOrders.find? order.key = some order)
      (run : cancelOrder order s = .ok () t) : MarketStep s [.returned order] t
  | other {s t : ChainState} (same : t.limitOrders = s.limitOrders) : MarketStep s [] t

/-- A sequence of such steps, with all that happens on the way. -/
inductive MarketRun : ChainState → List MarketEvent → ChainState → Prop
  | start {s : ChainState} : MarketRun s [] s
  | step {s u t : ChainState} {events more : List MarketEvent} (earlier : MarketRun s events u)
      (step : MarketStep u more t) : MarketRun s (events ++ more) t

theorem MarketRun.trans {u : ChainState} {events more : List MarketEvent}
    (first : MarketRun s events u) (second : MarketRun u more t) :
    MarketRun s (events ++ more) t := by
  induction second with
  | start =>
    rw [List.append_nil]
    exact first
  | step _ step inductionHypothesis =>
    rw [← List.append_assoc]
    exact inductionHypothesis.step step

/-! ### The book stays tidy -/

/-- What holds of all orders of the book, and of what is left of an order when it holds of the
order, holds after the matches. -/
theorem Matched.forall_mem {key : AccountName × Nat} {orders : List LimitOrder} {fills : List Fill}
    {P : LimitOrder → Prop} (less : ∀ order pays, order.Pays pays → P order → P (order.less pays))
    (matched : Matched key orders fills s t)
    (matchable : OrderBook.Matchable key orders s.limitOrders)
    (all : ∀ order ∈ s.limitOrders, P order) : ∀ order ∈ t.limitOrders, P order := by
  have step {fill : Fill} {rest : List LimitOrder} {s t : ChainState} {gone : Bool × Bool}
      (matchable : OrderBook.Matchable fill.taker.key (fill.maker :: rest) s.limitOrders)
      (found : s.limitOrders.find? fill.taker.key = some fill.taker)
      (amounts : matchedAmounts fill.taker fill.maker = .ok (fill.makerPays, fill.takerPays))
      (run : matchOrders fill.taker fill.maker s = .ok gone t)
      (all : ∀ order ∈ s.limitOrders, P order) :
      OrderBook.Matchable fill.taker.key rest t.limitOrders ∧ ∀ order ∈ t.limitOrders, P order := by
    obtain ⟨changed, matchable', _⟩ := Fill.matchable_of_run matchable found amounts run
    obtain ⟨good, _⟩ := Fill.good_of_next matchable found amounts
    obtain ⟨foundMaker, _, _, _, differs⟩ := matchable.next found
    refine ⟨matchable', fun order member => ?_⟩
    rw [changed] at member
    have foundMaker' : (fill.taker.takeFrom fill.takerPays s.limitOrders).find? fill.maker.key =
        some fill.maker := by
      rw [LimitOrder.find?_takeFrom_of_ne differs]
      exact foundMaker
    rcases LimitOrder.mem_takeFrom foundMaker' member with ⟨_, member⟩ | ⟨_, rfl⟩
    · rcases LimitOrder.mem_takeFrom found member with ⟨_, member⟩ | ⟨_, rfl⟩
      · exact all order member
      · exact less _ _ good.taker (all _ (Table.mem_of_find? found))
    · exact less _ _ good.maker (all _ (Table.mem_of_find? foundMaker))
  induction matched with
  | none => exact all
  | last found amounts run =>
    obtain rfl := Table.key_of_find? found
    exact (step matchable found amounts run all).2
  | next found amounts run _ inductionHypothesis =>
    obtain rfl := Table.key_of_find? found
    obtain ⟨matchable', all'⟩ := step matchable found amounts run all
    exact inductionHypothesis matchable' all'

/-- A new order finds a matchable book. -/
theorem OrderBook.Tidy.matchable_of_place {u : ChainState} {offer : Offer}
    (tidy : OrderBook.Tidy s.limitOrders) (valid : op.validate = .ok ())
    (offered : op.offer = some offer) (bounded : offer.Bounded)
    (placed : offer.place s = .ok order u) :
    order.Resting ∧ OrderBook.Matchable order.key (u.opposing order) u.limitOrders ∧
      ∀ other ∈ u.limitOrders, other.Bounded := by
  have resting := resting_of_place offered valid placed
  obtain ⟨_, sells, inserted⟩ := Offer.place_eq_ok placed
  have within : order.Bounded := by
    unfold LimitOrder.Bounded
    rw [sells]
    exact bounded
  refine ⟨resting, matchable_of_insert tidy resting within inserted, fun other member => ?_⟩
  rcases (Table.mem_of_insert? inserted).mp member with old | rfl
  · exact tidy.bounded other old
  · exact within

theorem LimitOrder.Bounded.less {pays : Asset} (bounded : order.Bounded) (payment : order.Pays pays) :
    (order.less pays).Bounded := by
  have left := Resting.toInt_less (Int.le_of_lt payment.positive) payment.le
  have positive := payment.positive
  unfold Bounded at bounded ⊢
  rw [Int64.le_iff_toInt_le] at bounded ⊢
  omega

theorem MarketStep.tidy {events : List MarketEvent} (step : MarketStep s events t)
    (tidy : OrderBook.Tidy s.limitOrders) : OrderBook.Tidy t.limitOrders := by
  cases step with
  | create valid offered bounded placed matched =>
    obtain ⟨_, matchable, within⟩ := tidy.matchable_of_place valid offered bounded placed
    refine ⟨(matched.good matchable).2, ?_⟩
    exact matched.forall_mem (fun _ _ payment bounded => bounded.less payment) matchable within
  | cancel found run =>
    rw [(gap_cancelOrder found run).2]
    refine ⟨⟨fun order member => ?_, fun order member other member' => ?_⟩, fun order member => ?_⟩
    · exact tidy.quiet.resting order (Table.mem_erase.mp member).1
    · exact tidy.quiet.apart order (Table.mem_erase.mp member).1 other (Table.mem_erase.mp member').1
    · exact tidy.bounded order (Table.mem_erase.mp member).1
  | other same =>
    rw [same]
    exact tidy

theorem MarketRun.tidy {events : List MarketEvent} (run : MarketRun s events t)
    (tidy : OrderBook.Tidy s.limitOrders) : OrderBook.Tidy t.limitOrders := by
  induction run with
  | start => exact tidy
  | step _ step inductionHypothesis => exact step.tidy inductionHypothesis

/-! ### What becomes of an order -/

/-- What the order under a key has sold in an event. -/
def MarketEvent.sold (key : AccountName × Nat) : MarketEvent → Int
  | .filled fill => (if fill.taker.key = key then fill.takerPays.amount.toInt else 0) +
      if fill.maker.key = key then fill.makerPays.amount.toInt else 0
  | _ => 0

/-- What the seller of the order under a key gets back in an event. -/
def MarketEvent.back (key : AccountName × Nat) : MarketEvent → Int
  | .returned order => if order.key = key then order.forSale.toInt else 0
  | _ => 0

/-- What the order under a key still has for sale. -/
def OrderBook.remaining (book : OrderBook) (key : AccountName × Nat) : Int :=
  ((book.find? key).map fun order => order.forSale.toInt).getD 0

/-- What the order under a key has for sale after an event. -/
def MarketEvent.ledger (key : AccountName × Nat) (left : Int) : MarketEvent → Int
  | .opened order => if order.key = key then order.forSale.toInt else left
  | event => left - event.sold key - event.back key

/-- Unless an order is opened under the key, all that is left has not been sold or given back. -/
theorem foldl_ledger {key : AccountName × Nat} {events : List MarketEvent}
    (unopened : ∀ order, .opened order ∈ events → order.key ≠ key) (left : Int) :
    events.foldl (MarketEvent.ledger key) left =
      left - (events.map (MarketEvent.sold key)).sum - (events.map (MarketEvent.back key)).sum := by
  induction events generalizing left with
  | nil => simp
  | cons event rest inductionHypothesis =>
    rw [List.foldl_cons, inductionHypothesis fun order member =>
      unopened order (List.mem_cons_of_mem event member)]
    have first : MarketEvent.ledger key left event =
        left - event.sold key - event.back key := by
      cases event with
      | opened order =>
        have differs := unopened order List.mem_cons_self
        simp [MarketEvent.ledger, MarketEvent.sold, MarketEvent.back, differs]
      | filled fill => rfl
      | returned order => rfl
    rw [first, List.map_cons, List.map_cons, List.sum_cons, List.sum_cons]
    omega

theorem Fill.mem_events (fill : Fill) {other : Fill} (member : .filled fill ∈ other.events) :
    fill = other := by
  unfold events LimitOrder.culled at member
  split at member <;> split at member <;> simpa using member

theorem Fill.not_opened (fill : Fill) (order : LimitOrder) : .opened order ∉ fill.events := by
  unfold events LimitOrder.culled
  split <;> split <;> simp

section Remaining

variable {key : AccountName × Nat} {order : LimitOrder} {pays : Asset} {book : OrderBook}

theorem LimitOrder.back_culled (order : LimitOrder) (pays : Asset) (key : AccountName × Nat) :
    ((order.culled pays).map (MarketEvent.back key)).sum =
      if order.key = key ∧ pays ≠ order.amountForSale ∧ (order.less pays).Worthless then
        (order.less pays).forSale.toInt else 0 := by
  unfold culled
  by_cases culls : pays ≠ order.amountForSale ∧ (order.less pays).Worthless
  · rw [if_pos culls]
    by_cases isKey : order.key = key
    · rw [if_pos ⟨isKey, culls⟩]
      exact (Int.add_zero _).trans (if_pos isKey)
    · rw [if_neg fun both => isKey both.1]
      exact (Int.add_zero _).trans (if_neg isKey)
  · rw [if_neg culls, if_neg fun both => culls both.2]
    rfl

theorem LimitOrder.sold_culled (order : LimitOrder) (pays : Asset) (key : AccountName × Nat) :
    ((order.culled pays).map (MarketEvent.sold key)).sum = 0 := by
  unfold culled
  split <;> rfl

theorem OrderBook.remaining_insert {next : OrderBook} (inserted : book.insert? order = some next)
    (key : AccountName × Nat) :
    next.remaining key = if order.key = key then order.forSale.toInt else book.remaining key := by
  unfold remaining
  by_cases isKey : order.key = key
  · subst isKey
    have found : next.find? order.key = some order := Table.find?_insert?_self inserted
    rw [if_pos rfl, found]
    rfl
  · rw [if_neg isKey, Table.find?_insert?_of_ne inserted (Ne.symm isKey)]

theorem OrderBook.remaining_erase (found : book.find? order.key = some order)
    (key : AccountName × Nat) :
    OrderBook.remaining (book.erase order.key) key =
      book.remaining key - if order.key = key then order.forSale.toInt else 0 := by
  unfold remaining
  by_cases isKey : order.key = key
  · subst isKey
    rw [if_pos rfl, found, Table.find?_erase_self]
    exact (Int.sub_self _).symm
  · rw [if_neg isKey, Table.find?_erase_of_ne (Ne.symm isKey), Int.sub_zero]

/-- What an order pays and what its seller gets back of the rest is what the book loses. -/
theorem OrderBook.remaining_takeFrom (found : book.find? order.key = some order)
    (payment : order.Pays pays) (key : AccountName × Nat) :
    (order.takeFrom pays book).remaining key = book.remaining key -
      (if order.key = key then pays.amount.toInt else 0) -
        ((order.culled pays).map (MarketEvent.back key)).sum := by
  unfold remaining
  rw [LimitOrder.back_culled]
  by_cases isKey : order.key = key
  · subst isKey
    have left := LimitOrder.Resting.toInt_less (Int.le_of_lt payment.positive) payment.le
    rw [LimitOrder.find?_takeFrom_self found, found, if_pos rfl]
    by_cases whole : pays = order.amountForSale
    · have spent : order.Spent pays := .inl whole
      rw [if_pos spent, if_neg fun both => both.2.1 whole, whole]
      exact (by omega : (0 : Int) = order.forSale.toInt - order.forSale.toInt - 0)
    · by_cases worthless : (order.less pays).Worthless
      · have spent : order.Spent pays := .inr worthless
        rw [if_pos spent, if_pos ⟨rfl, whole, worthless⟩, left]
        simp
      · have unspent : ¬ order.Spent pays := not_or.mpr ⟨whole, worthless⟩
        rw [if_neg unspent, if_neg fun both => worthless both.2.2]
        simp [left]
  · rw [LimitOrder.find?_takeFrom_of_ne (Ne.symm isKey), if_neg isKey, if_neg fun both => isKey both.1]
    omega

/-- The ledger keeps step with the book through a match. -/
theorem Fill.Good.remaining (good : fill.Good) (found : book.find? fill.taker.key = some fill.taker)
    (foundMaker : book.find? fill.maker.key = some fill.maker)
    (differs : fill.maker.key ≠ fill.taker.key) (key : AccountName × Nat) :
    (fill.book book).remaining key =
      fill.events.foldl (MarketEvent.ledger key) (book.remaining key) := by
  have foundMaker' : (fill.taker.takeFrom fill.takerPays book).find? fill.maker.key =
      some fill.maker := by
    rw [LimitOrder.find?_takeFrom_of_ne differs, foundMaker]
  rw [foldl_ledger fun order member _ => fill.not_opened order member]
  unfold Fill.book Fill.events
  rw [OrderBook.remaining_takeFrom foundMaker' good.maker,
    OrderBook.remaining_takeFrom found good.taker, List.map_cons, List.map_cons, List.sum_cons,
    List.sum_cons, List.map_append, List.map_append, List.sum_append, List.sum_append,
    LimitOrder.sold_culled, LimitOrder.sold_culled]
  simp only [MarketEvent.sold, MarketEvent.back]
  omega

theorem Matched.remaining {orders : List LimitOrder} {fills : List Fill}
    (matched : Matched key orders fills s t)
    (matchable : OrderBook.Matchable key orders s.limitOrders) (other : AccountName × Nat) :
    OrderBook.remaining t.limitOrders other = (fills.flatMap Fill.events).foldl
      (MarketEvent.ledger other) (OrderBook.remaining s.limitOrders other) := by
  induction matched with
  | none => rfl
  | last found amounts run =>
    obtain rfl := Table.key_of_find? found
    obtain ⟨changed, _, _⟩ := Fill.matchable_of_run matchable found amounts run
    obtain ⟨foundMaker, _, _, _, differs⟩ := matchable.next found
    rw [List.flatMap_singleton, changed]
    exact (Fill.good_of_next matchable found amounts).1.remaining found foundMaker differs other
  | next found amounts run _ inductionHypothesis =>
    obtain rfl := Table.key_of_find? found
    obtain ⟨changed, matchable', _⟩ := Fill.matchable_of_run matchable found amounts run
    obtain ⟨foundMaker, _, _, _, differs⟩ := matchable.next found
    rw [List.flatMap_cons, List.foldl_append, inductionHypothesis matchable', changed,
      (Fill.good_of_next matchable found amounts).1.remaining found foundMaker differs other]

theorem MarketStep.remaining {events : List MarketEvent} (step : MarketStep s events t)
    (tidy : OrderBook.Tidy s.limitOrders) (key : AccountName × Nat) :
    OrderBook.remaining t.limitOrders key =
      events.foldl (MarketEvent.ledger key) (OrderBook.remaining s.limitOrders key) := by
  cases step with
  | create valid offered bounded placed matched =>
    obtain ⟨_, matchable, _⟩ := tidy.matchable_of_place valid offered bounded placed
    obtain ⟨_, _, inserted⟩ := Offer.place_eq_ok placed
    rw [List.foldl_cons, matched.remaining matchable, OrderBook.remaining_insert inserted]
    rfl
  | cancel found run =>
    rw [(gap_cancelOrder found run).2, List.foldl_cons, List.foldl_nil]
    exact (OrderBook.remaining_erase found key).trans (by simp [MarketEvent.ledger, MarketEvent.sold,
      MarketEvent.back])
  | other same =>
    rw [same]
    rfl

theorem MarketRun.remaining {events : List MarketEvent} (run : MarketRun s events t)
    (tidy : OrderBook.Tidy s.limitOrders) (key : AccountName × Nat) :
    OrderBook.remaining t.limitOrders key =
      events.foldl (MarketEvent.ledger key) (OrderBook.remaining s.limitOrders key) := by
  induction run with
  | start => rfl
  | step earlier step inductionHypothesis =>
    rw [List.foldl_append, ← inductionHypothesis]
    exact step.remaining (earlier.tidy tidy) key

end Remaining

/-! ### The chain's steps are steps of the market -/

/-- The book changes only as the market's steps change it. -/
def Trading (s t : ChainState) : Prop := ∃ events, MarketRun s events t

instance : Std.Refl Trading := ⟨fun _ => ⟨[], .start⟩⟩

instance : IsTrans ChainState Trading where
  trans _ _ _ := by
    rintro ⟨_, first⟩ ⟨_, second⟩
    exact ⟨_, first.trans second⟩

theorem MarketStep.trading {events : List MarketEvent} (step : MarketStep s events t) :
    Trading s t :=
  ⟨events, by simpa using MarketRun.start.step step⟩

/-- An operation puts up no more than `price::max` is made for. -/
def Operation.Bounded (op : Operation) : Prop := ∀ offer ∈ op.offer, offer.Bounded

instance (op : Operation) : Decidable op.Bounded :=
  inferInstanceAs (Decidable (∀ offer ∈ op.offer, offer.Bounded))

theorem trading_of_offer {offer : Offer} (offered : op.offer = some offer)
    (valid : op.validate = .ok ()) (bounded : op.Bounded) (producing : Bool) :
    Respects Trading (applyOperation producing op) where
  related s _ t run := by
    rw [applyOperation_of_offer offered] at run
    obtain ⟨order, middle, placed, run⟩ := bind_eq_ok.mp run
    obtain ⟨filled, _, applied, checked⟩ := bind_eq_ok.mp run
    obtain rfl := unmoved checked
    rw [applyOrder_eq (resting_of_place offered valid placed), get_bind] at applied
    obtain ⟨_, _, looped, read⟩ := bind_eq_ok.mp applied
    obtain rfl := unmoved read
    obtain ⟨fills, matched⟩ := exists_matched looped
    exact (MarketStep.create valid offered (bounded offer offered) placed matched).trading

theorem trading_cancelOrder {u : Unit} (found : s.limitOrders.find? order.key = some order)
    (run : cancelOrder order s = .ok u t) : Trading s t :=
  (MarketStep.cancel found run).trading

instance (o : LimitOrderCancelOperation) : Respects Trading (limitOrderCancelEvaluator o) where
  related s _ t run := by
    obtain ⟨order, _, read, cancelled⟩ := bind_eq_ok.mp run
    obtain ⟨found, rfl⟩ := getLimitOrder_eq_ok.mp read
    refine trading_cancelOrder ?_ cancelled
    rw [← found]
    exact congrArg _ (Table.key_of_find? found)

instance : Respects Trading clearExpiredOrders where
  related s _ t run := by
    have looped := get_bind_eq_ok.mp run
    refine forM_listed ChainState.limitOrders (fun order s t _ found cancelled => ?_)
      (Table.lists_of_perm_filter (List.perm_insertionSort _ _)) looped
    refine ⟨trading_cancelOrder found cancelled, fun key different => ?_⟩
    rw [(gap_cancelOrder found cancelled).2, Table.find?_erase_of_ne different]

/-- All orders of a step of the chain are within the bound. -/
def ChainStep.Bounded (step : ChainStep) : Prop := ∀ op ∈ step.operations, op.Bounded

theorem trading_run {step : ChainStep} (validated : step.validated) (bounded : step.Bounded) :
    Respects Trading step.run := by
  refine @respects_run_of_watched _ [.limitOrders] _ _ _ validated (fun s t same => ?_)
    (fun producing op member valid touched => ?_) (fun blockStep touched => ?_) (by decide)
  · exact (MarketStep.other (same .limitOrders List.mem_cons_self)).trading
  · cases op with
    | limitOrderCreate o => exact trading_of_offer rfl valid (bounded _ member) producing
    | limitOrderCreate2 o => exact trading_of_offer rfl valid (bounded _ member) producing
    | limitOrderCancel o => exact inferInstanceAs (Respects Trading (limitOrderCancelEvaluator o))
    | _ => exact absurd touched (of_decide_eq_false rfl)
  · cases blockStep with
    | expiredOrders => exact inferInstanceAs (Respects Trading clearExpiredOrders)
    | _ => exact absurd touched (of_decide_eq_false rfl)

/-! ### The market of a chain -/

section Reached

variable {start before state : ChainState} {events : List MarketEvent}

/-- The book of a chain that starts with an empty one is tidy at any time. -/
theorem tidy_of_reached (empty : start.limitOrders = .empty)
    (reached : ReachableBy (fun _ step => step.Bounded) start before)
    (run : MarketRun before events state) : OrderBook.Tidy state.limitOrders := by
  have tidy : OrderBook.Tidy start.limitOrders := by
    rw [empty]
    exact ⟨⟨List.forall_mem_nil _, List.forall_mem_nil _⟩, List.forall_mem_nil _⟩
  refine run.tidy (@ReachableBy.invariant _ _ (fun state => OrderBook.Tidy state.limitOrders) tidy
    (fun s t step tidy validated bounded accepted => ?_) _ reached)
  obtain ⟨_, run⟩ := (trading_run validated bounded).related s _ t accepted
  exact run.tidy tidy

/-- An order fails to be created only before it is matched, where a seller cannot be paid, or
because it should have been filled at once. -/
theorem creation_fails_only {offer : Offer} {producing : Bool} {e : ChainError}
    (tidy : OrderBook.Tidy s.limitOrders) (valid : op.validate = .ok ())
    (offered : op.offer = some offer) (bounded : offer.Bounded)
    (failed : applyOperation producing op s = .error e t) :
    offer.place s = .error e t ∨ PaymentFailed e t ∨ e = unfilledError := by
  rw [applyOperation_of_offer offered] at failed
  rcases bind_eq_error.mp failed with refused | ⟨order, middle, placed, failed⟩
  · exact .inl refused
  · obtain ⟨resting, matchable, _⟩ := tidy.matchable_of_place valid offered bounded placed
    obtain ⟨_, _, inserted⟩ := Offer.place_eq_ok placed
    refine .inr ?_
    rcases bind_eq_error.mp failed with unmatched | ⟨filled, _, _, unfilled⟩
    · rw [applyOrder_eq resting, get_bind] at unmatched
      rcases bind_eq_error.mp unmatched with stopped | ⟨_, _, _, read⟩
      · exact .inl (matchWithEach_eq_error matchable ⟨order, Table.find?_insert?_self inserted⟩
          stopped)
      · rcases bind_eq_error.mp read with stopped | ⟨_, _, _, finished⟩
        · exact (get_eq_error.mp stopped).elim
        · exact (pure_eq_error.mp finished).elim
    · exact .inr (require_eq_error.mp (whenever_eq_error.mp unfilled).2).2.1.symm

/-- After everything that happens to the book, every resting order sells something and asks for
something, no two of them cross, and none of the assertions of `match` and `fill_order` can fail
for the next order; as long as no order puts up more than `price::max` is made for. -/
theorem orderBook_in_order (empty : start.limitOrders = .empty)
    (reached : ReachableBy (fun _ step => step.Bounded) start before)
    (run : MarketRun before events state) :
    (∀ order ∈ state.limitOrders, 0 < order.forSale ∧
        ∃ asking, order.amountToReceive = .ok asking ∧ 0 < asking.amount) ∧
      (∀ order ∈ state.limitOrders, ∀ other ∈ state.limitOrders, ¬ order.Crosses other) ∧
      ∀ producing op offer e t, op.validate = .ok () → op.offer = some offer → offer.Bounded →
        applyOperation producing op state = .error e t →
          offer.place state = .error e t ∨ PaymentFailed e t ∨ e = unfilledError := by
  have tidy := tidy_of_reached empty reached run
  refine ⟨fun order member => ?_, tidy.quiet.apart, fun producing op offer e t valid offered bounded =>
    creation_fails_only tidy valid offered bounded⟩
  obtain ⟨_, selling, asking, made, positive⟩ := tidy.quiet.resting order member
  exact ⟨Int64.lt_iff_toInt_lt.mpr selling, asking, made, Int64.lt_iff_toInt_lt.mpr positive⟩

end Reached

/-! ### A large order -/

instance (order other : LimitOrder) : Decidable (order.Crosses other) :=
  inferInstanceAs (Decidable (_ ∧ _ ∧ _))

/-- A state in which the genesis account holds tokens and dollars, with no interest due. -/
def tradingStart (liquid dollar : ShareType) : ChainState :=
  { initGenesis liquid dollar with
    accounts := (genesisAccounts liquid dollar).replace
      { Account.make 2 AccountName.genesis with
        liquidBalance := liquid
        dollarBalance := dollar
        dollarSecondsLastUpdate := genesisTime
        dollarLastInterestPayment := genesisTime } }

/-- An order of the genesis account, open for an hour. -/
def genesisOrder (orderid : Nat) (amountToSell minToReceive : Asset) : Operation :=
  .limitOrderCreate ⟨AccountName.genesis, orderid, amountToSell, minToReceive, false,
    genesisTime + 3600⟩

/-- Two small orders that trade with each other. -/
def smallOrders : SignedTransaction :=
  genesisTransaction [genesisOrder 1 ⟨1000, .liquid⟩ ⟨10, .dollar⟩,
    genesisOrder 2 ⟨3, .dollar⟩ ⟨200, .liquid⟩]

theorem smallOrders_bounded : (ChainStep.transaction {} false smallOrders).Bounded := by
  unfold ChainStep.Bounded
  decide

theorem smallOrders_in_order :
    ∃ state, applyTransaction {} false smallOrders (tradingStart 1000 100) = .ok () state ∧
      (∀ order ∈ state.limitOrders, 0 < order.forSale ∧
        ∃ asking, order.amountToReceive = .ok asking ∧ 0 < asking.amount) ∧
      (∀ order ∈ state.limitOrders, ∀ other ∈ state.limitOrders, ¬ order.Crosses other) ∧
      state.limitOrders.objects ≠ [] := by
  have finished : ∃ u state, applyTransaction {} false smallOrders (tradingStart 1000 100) =
      .ok u state ∧ state.limitOrders.objects ≠ [] := by decide +kernel
  obtain ⟨_, state, applied, resting⟩ := finished
  have reached : ReachableBy (fun _ step => step.Bounded) (tradingStart 1000 100) state :=
    .step .start (.transaction {} false smallOrders) rfl smallOrders_bounded applied
  obtain ⟨selling, apart, _⟩ := orderBook_in_order rfl reached .start
  exact ⟨state, applied, selling, apart, resting⟩

/-- Two orders of which the first is above the highest price. -/
def largeOrders : SignedTransaction :=
  genesisTransaction [genesisOrder 1 ⟨4611686018427387904, .liquid⟩ ⟨1, .dollar⟩,
    genesisOrder 2 ⟨1, .dollar⟩ ⟨1, .liquid⟩]

/-- An order above the highest price is passed over by one that it would trade with. -/
theorem crossing_orders_rest :
    ∃ state, Reachable (tradingStart 9223372036854775807 100) state ∧
      ∃ order ∈ state.limitOrders.objects, ∃ other ∈ state.limitOrders.objects,
        order.Crosses other := by
  have finished : ∃ u state, applyTransaction {} false largeOrders
      (tradingStart 9223372036854775807 100) = .ok u state ∧
        ∃ order ∈ state.limitOrders.objects, ∃ other ∈ state.limitOrders.objects,
          order.Crosses other := by decide +kernel
  obtain ⟨_, state, applied, crossing⟩ := finished
  exact ⟨state, .step .start (.transaction {} false largeOrders) rfl trivial applied, crossing⟩

/-! ### Fair trades -/

section Fair

variable {start before state : ChainState} {events : List MarketEvent}

theorem MarketStep.good (step : MarketStep s events t) (tidy : OrderBook.Tidy s.limitOrders)
    (member : .filled fill ∈ events) :
    fill.Good ∧ matchOrders fill.taker fill.maker = fill.settled := by
  cases step with
  | create valid offered bounded placed matched =>
    obtain ⟨_, matchable, _⟩ := tidy.matchable_of_place valid offered bounded placed
    rw [List.mem_cons, List.mem_flatMap] at member
    rcases member with isOpened | ⟨other, filled, member⟩
    · cases isOpened
    · rw [fill.mem_events member]
      exact (matched.good matchable).1 other filled
  | cancel =>
    rw [List.mem_singleton] at member
    cases member
  | other => exact absurd member List.not_mem_nil

theorem MarketRun.good (run : MarketRun s events t) (tidy : OrderBook.Tidy s.limitOrders)
    (member : .filled fill ∈ events) :
    fill.Good ∧ matchOrders fill.taker fill.maker = fill.settled := by
  induction run with
  | start => exact absurd member List.not_mem_nil
  | step earlier step inductionHypothesis =>
    rcases List.mem_append.mp member with early | late
    · exact inductionHypothesis early
    · exact step.good (earlier.tidy tidy) late

/-- Every match moves what one order pays to the other, both pay something, and both get at least
what they ask for. All that an order puts up is sold, given back or still for sale. An incoming
order is matched with the orders that cross, by price and then by age. -/
theorem trades_are_fair (empty : start.limitOrders = .empty)
    (reached : ReachableBy (fun _ step => step.Bounded) start before)
    (run : MarketRun before events state) :
    (∀ fill, .filled fill ∈ events →
      fill.Good ∧ matchOrders fill.taker fill.maker = fill.settled) ∧
      (∀ earlier order rest, events = earlier ++ .opened order :: rest →
        (∀ other, .opened other ∈ rest → other.key ≠ order.key) →
          (rest.map (MarketEvent.sold order.key)).sum + (rest.map (MarketEvent.back order.key)).sum +
            OrderBook.remaining state.limitOrders order.key = order.forSale.toInt) ∧
      ∀ (op : Operation) offer order opened, op.validate = .ok () → op.offer = some offer →
        offer.Bounded →
        offer.place state = .ok order opened → order.forSale = offer.amountToSell.amount ∧
          (∀ other, other ∈ opened.opposing order ↔
            other ∈ opened.limitOrders ∧ order.Crosses other) ∧
          (opened.opposing order).Pairwise opened.Precedes ∧
          ∀ gone after, applyOrder order opened = .ok gone after →
            ∃ fills, Matched order.key (opened.opposing order) fills opened after ∧
              (∀ fill ∈ fills, fill.Good) ∧ fills.map Fill.maker <+: opened.opposing order := by
  have tidy := tidy_of_reached empty reached run
  have tidyBefore := tidy_of_reached empty reached .start
  refine ⟨fun fill member => run.good tidyBefore member, fun earlier order rest split others => ?_,
    fun op offer order opened valid offered bounded placed => ?_⟩
  · have left := run.remaining tidyBefore order.key
    rw [split, List.foldl_append, List.foldl_cons, foldl_ledger others] at left
    have opening (left : Int) : MarketEvent.ledger order.key left (.opened order) =
        order.forSale.toInt := if_pos rfl
    rw [opening] at left
    omega
  · obtain ⟨resting, matchable, within⟩ := tidy.matchable_of_place valid offered bounded placed
    obtain ⟨_, sells, _⟩ := Offer.place_eq_ok placed
    refine ⟨sells, fun other => mem_opposing resting fun other member =>
      ⟨matchable.resting other member, within other member⟩, opposing_pairwise matchable.resting,
      fun gone after applied => ?_⟩
    rw [applyOrder_eq resting, get_bind] at applied
    obtain ⟨_, _, looped, read⟩ := bind_eq_ok.mp applied
    obtain rfl := unmoved read
    obtain ⟨fills, matched⟩ := exists_matched looped
    exact ⟨fills, matched, fun fill member => ((matched.good matchable).1 fill member).1,
      matched.makers⟩

end Fair

/-- What the small orders come to: the second one sells its three dollars for three hundred. -/
theorem smallOrders_are_fair :
    ∃ state, applyTransaction {} false smallOrders (tradingStart 1000 100) = .ok () state ∧
      ∀ (op : Operation) offer order opened, op.validate = .ok () → op.offer = some offer →
        offer.Bounded → offer.place state = .ok order opened →
          ∀ gone after, applyOrder order opened = .ok gone after →
            ∃ fills, Matched order.key (opened.opposing order) fills opened after ∧
              ∀ fill ∈ fills, fill.Good := by
  have finished : ∃ u state, applyTransaction {} false smallOrders (tradingStart 1000 100) =
      .ok u state ∧ state.limitOrders.objects ≠ [] := by decide +kernel
  obtain ⟨_, state, applied, _⟩ := finished
  have reached : ReachableBy (fun _ step => step.Bounded) (tradingStart 1000 100) state :=
    .step .start (.transaction {} false smallOrders) rfl smallOrders_bounded applied
  obtain ⟨_, _, incoming⟩ := trades_are_fair rfl reached .start
  refine ⟨state, applied, fun op offer order opened valid offered bounded placed gone after run =>
    ?_⟩
  obtain ⟨_, _, _, fair⟩ := incoming op offer order opened valid offered bounded placed
  obtain ⟨fills, matched, good, _⟩ := fair gone after run
  exact ⟨fills, matched, good⟩

/-- A large order and a small one at a lower price. -/
def unevenOrders : SignedTransaction :=
  genesisTransaction [genesisOrder 1 ⟨4611686018427387904, .liquid⟩ ⟨1, .dollar⟩,
    genesisOrder 2 ⟨1000, .liquid⟩ ⟨10, .dollar⟩]

/-- One dollar, for whatever it gets. -/
def oneDollar : SignedTransaction :=
  { genesisTransaction [genesisOrder 3 ⟨1, .dollar⟩ ⟨1, .liquid⟩] with id := 2 }

/-- An order above the highest price is left alone, and one that gives less is filled. -/
theorem better_order_passed_over :
    ∃ before after, Reachable (tradingStart 9223372036854775807 100) before ∧
      applyTransaction {} false oneDollar before = .ok () after ∧
      ∃ large ∈ before.limitOrders.objects, ∃ small ∈ before.limitOrders.objects,
        large ∈ after.limitOrders.objects ∧ small.sellPrice.lt large.sellPrice = true ∧
          small.less ⟨100, .liquid⟩ ∈ after.limitOrders.objects := by
  have finished : ∃ u before, applyTransaction {} false unevenOrders
      (tradingStart 9223372036854775807 100) = .ok u before ∧
        ∃ v after, applyTransaction {} false oneDollar before = .ok v after ∧
          ∃ large ∈ before.limitOrders.objects, ∃ small ∈ before.limitOrders.objects,
            large ∈ after.limitOrders.objects ∧ small.sellPrice.lt large.sellPrice = true ∧
              small.less ⟨100, .liquid⟩ ∈ after.limitOrders.objects := by decide +kernel
  obtain ⟨_, before, applied, _, after, matched, passed⟩ := finished
  exact ⟨before, after, .step .start (.transaction {} false unevenOrders) rfl trivial applied,
    matched, passed⟩

end Zattera
