/-
This file models the market: limit orders, their matching against the orders on
the other side, and the conversion of what an order sells into what its seller
receives. An order too small to be worth anything at its own price is cancelled.
-/

import Zattera.Chain.TransferEvaluators

namespace Zattera

open Program

/-! ### Orders -/

def getLimitOrder (owner : AccountName) (orderid : Nat) : Chain LimitOrder := do
  lookup ((← get).limitOrders.find? (owner, orderid))

def insertLimitOrder (order : LimitOrder) : Chain Unit :=
  create ChainState.limitOrders (fun state added => { state with limitOrders := added }) order

def putLimitOrder (order : LimitOrder) : Chain Unit :=
  modify fun state => { state with limitOrders := state.limitOrders.replace order }

def eraseLimitOrder (order : LimitOrder) : Chain Unit :=
  modify fun state =>
    { state with limitOrders := state.limitOrders.erase (order.seller, order.orderid) }

/-- `cancel_order` -/
def cancelOrder (order : LimitOrder) : Chain Unit := do
  adjustBalance order.seller order.amountForSale
  eraseLimitOrder order

/-- `fill_order`; returns whether the order is gone. -/
def fillOrder (order : LimitOrder) (pays receives : Asset) : Chain Bool := do
  require (order.amountForSale.symbol = pays.symbol)
    (.assertion "error filling orders: $\x7border\x7d $\x7bpays\x7d $\x7breceives\x7d")
  require (pays.symbol ≠ receives.symbol)
    (.assertion "error filling orders: $\x7border\x7d $\x7bpays\x7d $\x7breceives\x7d")
  adjustBalance order.seller receives
  if pays = order.amountForSale then do
    eraseLimitOrder order
    return true
  else do
    require (pays.amount < order.forSale)
      (.assertion "error filling orders: $\x7border\x7d $\x7bpays\x7d $\x7breceives\x7d")
    let forSale ← order.forSale.sub pays.amount
    let rest := { order with forSale := forSale }
    putLimitOrder rest
    let asking ← rest.amountToReceive
    if asking.amount = 0 then do
      cancelOrder rest
      return true
    else return false

/-! ### Matching -/

/-- The assertion every check of `match` fails with. -/
def matchingError : ChainError :=
  .assertion "error matching orders: $\x7bnew_order\x7d $\x7bold_order\x7d $\x7bmatch_price\x7d"

/-- What two matched orders receive of each other, at the price of the old one: the smaller side is
taken whole. -/
def matchedAmounts (newOrder oldOrder : LimitOrder) : Except ChainError (Asset × Asset) := do
  let newForSale := newOrder.amountForSale
  let oldForSale := oldOrder.amountForSale
  let oldWorth ← oldForSale.mulPrice oldOrder.sellPrice
  let exceeds ← oldWorth.lt newForSale
  if exceeds then return (oldForSale, oldWorth)
  else do
    let newReceives ← newForSale.mulPrice oldOrder.sellPrice
    return (newReceives, newForSale)

/-- `match`; returns whether the new and the old order are gone. -/
def matchOrders (newOrder oldOrder : LimitOrder) : Chain (Bool × Bool) := do
  require (newOrder.sellPrice.quote.symbol = oldOrder.sellPrice.base.symbol) matchingError
  require (newOrder.sellPrice.base.symbol = oldOrder.sellPrice.quote.symbol) matchingError
  require (0 < newOrder.forSale ∧ 0 < oldOrder.forSale) matchingError
  let (newReceives, oldReceives) ← matchedAmounts newOrder oldOrder
  require (oldReceives = newOrder.amountForSale ∨ newReceives = oldOrder.amountForSale)
    matchingError
  let newFilled ← fillOrder newOrder oldReceives newReceives
  let oldFilled ← fillOrder oldOrder newReceives oldReceives
  require (newFilled ∨ oldFilled) matchingError
  return (newFilled, oldFilled)

/-- `~price` -/
def Price.inverse (price : Price) : Except ChainError Price := make price.quote price.base

/-- `ZATTERA_MAX_SATOSHIS` -/
def maxSatoshis : ShareType := 4611686018427387903

/-- `price::max` -/
def Price.max (base quote : AssetSymbol) : Except ChainError Price :=
  ofAssets ⟨maxSatoshis, base⟩ ⟨1, quote⟩

/-- The orders of a range of the price index: those of the pair of `maxPrice` from the price
`highest` down to that price, best price first, and the oldest first among equals. -/
def ChainState.matchingOrders (state : ChainState) (highest maxPrice : Price) : List LimitOrder :=
  (state.limitOrders.objects.filter fun other =>
      decide (other.sellPrice.symbols = maxPrice.symbols) && !(highest.lt other.sellPrice) &&
        !(other.sellPrice.lt maxPrice)).insertionSort
    fun a b => a.sellPrice.lt b.sellPrice = false

/-- The loop of `apply_order` over the orders on the other side. It goes on as long as only the old
order was filled. -/
def matchWithEach (owner : AccountName) (orderid : Nat) : List LimitOrder → Chain Unit
  | [] => return ()
  | oldOrder :: rest => do
    let newOrder ← getLimitOrder owner orderid
    let (newFilled, _) ← matchOrders newOrder oldOrder
    if newFilled then return () else matchWithEach owner orderid rest

/-- `apply_order`; returns whether the order is gone. -/
def applyOrder (order : LimitOrder) : Chain Bool := do
  let maxPrice ← order.sellPrice.inverse
  let highest ← Price.max maxPrice.base.symbol maxPrice.quote.symbol
  let state ← get
  matchWithEach order.seller order.orderid (state.matchingOrders highest maxPrice)
  return ((← get).limitOrders.find? (order.seller, order.orderid)).isNone

/-! ### Evaluators -/

/-- The body shared by both evaluators that create an order, which differ only in how the price is
given. -/
def createLimitOrder (owner : AccountName) (orderid : Nat) (amountToSell : Asset)
    (sellPrice : Except ChainError Price) (fillOrKill : Bool) (expiration : TimePointSec) :
    Chain Unit := do
  let now ← headBlockTime
  require (now < expiration) (.assertion "Limit order has to expire after head block time.")
  require (expiration ≤ now + 2419200)
    (.assertion "Limit Order Expiration must not be more than 28 days in the future")
  spend owner amountToSell "Account does not have sufficient funds for limit order."
  let price ← sellPrice
  let order : LimitOrder := ⟨now, expiration, owner, orderid, amountToSell.amount, price⟩
  insertLimitOrder order
  let filled ← applyOrder order
  whenever fillOrKill do
    require filled (.assertion "Cancelling order because it was not filled.")

def limitOrderCreateEvaluator (o : LimitOrderCreateOperation) : Chain Unit :=
  createLimitOrder o.owner o.orderid o.amountToSell (Price.ofAssets o.amountToSell o.minToReceive)
    o.fillOrKill o.expiration

def limitOrderCreate2Evaluator (o : LimitOrderCreate2Operation) : Chain Unit :=
  createLimitOrder o.owner o.orderid o.amountToSell (.ok o.exchangeRate) o.fillOrKill o.expiration

def limitOrderCancelEvaluator (o : LimitOrderCancelOperation) : Chain Unit := do
  let order ← getLimitOrder o.owner o.orderid
  cancelOrder order

/-- `clear_expired_orders`: orders leave in the order they expire. -/
def clearExpiredOrders : Chain Unit := do
  let state ← get
  let expired := (state.limitOrders.objects.filter fun order =>
    decide (order.expiration < state.dgp.time)).insertionSort fun a b => a.expiration ≤ b.expiration
  forM expired cancelOrder

end Zattera
