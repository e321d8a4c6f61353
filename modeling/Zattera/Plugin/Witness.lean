/-
This file models how the witness plugin limits the bandwidth of an account. The
plugin keeps one reserve ratio, which follows the size of the blocks, and for
every account and kind of bandwidth an average that decays over a week. Its
objects live beside those of the chain; an exception of a handler is swallowed
and what the handler had changed until then stays.
-/

import Zattera.Chain.ContentEvaluators

namespace Zattera

open Program

/-! ### Objects -/

/-- `bandwidth_type` -/
inductive BandwidthType where
  | post
  | forum
  | market
  deriving DecidableEq

/-- `account_bandwidth_object` -/
structure AccountBandwidth where
  account : AccountName
  type : BandwidthType
  averageBandwidth : ShareType := 0
  lifetimeBandwidth : ShareType := 0
  lastBandwidthUpdate : TimePointSec := 0

/-- The `by_account_bandwidth_type` index -/
def AccountBandwidth.key (band : AccountBandwidth) : AccountName × BandwidthType :=
  (band.account, band.type)

/-- `reserve_ratio_object`. The ratio is kept with four decimals. -/
structure ReserveRatio where
  averageBlockSize : Int32
  currentReserveRatio : Int64
  maxVirtualBandwidth : UInt128

/-- What the plugin keeps in the database. -/
structure WitnessPlugin where
  reserveRatio : Option ReserveRatio := none
  bandwidths : Table (AccountName × BandwidthType) AccountBandwidth AccountBandwidth.key := .empty

/-- A handler of the witness plugin. -/
abbrev Witnessing := EStateM ChainError WitnessPlugin

/-! ### The reserve ratio -/

/-- The object `on_post_apply_block` creates when it finds none. -/
def ReserveRatio.initial : ReserveRatio where
  averageBlockSize := 0
  currentReserveRatio := 20000 * 10000
  maxVirtualBandwidth := 393216000 * 20000 * 1000000 * 604800 / 3

/-- The ratio falls when the average block is larger than a quarter of the limit and rises
otherwise, between 1 and `ZATTERA_MAX_RESERVE_RATIO`. -/
def adjustedReserveRatio (ratio distance : Int64) : Int64 :=
  if 0 < distance then
    let lowered := ratio - ratio * distance / (distance + 10000)
    if lowered < 10000 then 10000 else lowered
  else
    let raised := ratio + max 5000 (ratio * distance / (distance - 10000))
    if 20000 * 10000 < raised then 20000 * 10000 else raised

/-- How far an average is from a quarter of the limit, with four decimals. -/
def usageDistance (averageBlockSize : Int32) (maxBlockSize : Int64) : Int64 :=
  (averageBlockSize.toInt64 - maxBlockSize / 4) * 10000 / (maxBlockSize / 4)

/-- What `on_post_apply_block` makes of the object it finds. -/
def ReserveRatio.updated (r : ReserveRatio) (props : DynamicGlobalProperties) (blockSize : Int32) :
    ReserveRatio :=
  let maxBlockSize := Int64.ofNat props.maximumBlockSize
  let averageBlockSize := (99 * r.averageBlockSize + blockSize) / 100
  if props.headBlockNumber % 20 = 0 then
    let ratio := adjustedReserveRatio r.currentReserveRatio
      (usageDistance averageBlockSize maxBlockSize)
    { averageBlockSize
      currentReserveRatio := ratio
      maxVirtualBandwidth := UInt128.ofInt64 maxBlockSize * UInt128.ofInt64 ratio *
        (1000000 * 604800) / (3 * 10000) }
  else { r with averageBlockSize }

/-- `on_post_apply_block` -/
def WitnessPlugin.onPostApplyBlock (plugin : WitnessPlugin) (props : DynamicGlobalProperties)
    (blockSize : Int32) : WitnessPlugin :=
  { plugin with
    reserveRatio := some <| match plugin.reserveRatio with
      | none => .initial
      | some r => r.updated props blockSize }

/-! ### The bandwidth of an account -/

def putBandwidth (band : AccountBandwidth) : Witnessing Unit :=
  modify fun plugin => { plugin with bandwidths := plugin.bandwidths.replace band }

/-- The bandwidth object of an account, created if there is none. -/
def findOrCreateBandwidth (account : AccountName) (type : BandwidthType) :
    Witnessing AccountBandwidth := do
  let plugin ← get
  match plugin.bandwidths.find? (account, type) with
  | some band => return band
  | none =>
    let band : AccountBandwidth := { account, type }
    set { plugin with bandwidths := plugin.bandwidths.insertNew band }
    return band

/-- What is left of an average after `deltaTime` seconds of a window of a week. -/
def decayedBandwidth (averageBandwidth : ShareType) (deltaTime : Int) :
    Except ChainError ShareType :=
  if 604800 < deltaTime then .ok 0
  else UInt128.toShareType
    (BitVec.ofInt 128 (604800 - deltaTime) * UInt128.ofInt64 averageBandwidth / 604800)

/-- The part of `update_account_bandwidth` that charges a transaction to an account. The objects
are changed field by field, so that an overflow of the lifetime total leaves a new average. -/
def chargeBandwidth (now : TimePointSec) (account : AccountName) (trxSize : UInt32)
    (type : BandwidthType) : Witnessing AccountBandwidth := do
  let band ← findOrCreateBandwidth account type
  let trxBandwidth := Int64.ofNat (trxSize.toNat * 1000000)
  let decayed ← decayedBandwidth band.averageBandwidth (secondsBetween now band.lastBandwidthUpdate)
  let newBandwidth ← decayed.add trxBandwidth
  let averaged := { band with averageBandwidth := newBandwidth }
  putBandwidth averaged
  let lifetime ← band.lifetimeBandwidth.add trxBandwidth
  let charged := { averaged with lifetimeBandwidth := lifetime, lastBandwidthUpdate := now }
  putBandwidth charged
  return charged

/-- The comparison of the share an account used with the share it owns. -/
def hasBandwidth (accountVshares totalVshares averageBandwidth : ShareType)
    (maxVirtualBandwidth : UInt128) : Bool :=
  UInt128.ofInt64 averageBandwidth * UInt128.ofInt64 totalVshares <
    UInt128.ofInt64 accountVshares * maxVirtualBandwidth

/-- The `plugin_exception` that rejects a transaction. -/
def bandwidthLimitExceeded : ChainError :=
  .assertion ("Account: $\x7baccount\x7d bandwidth limit exceeded. " ++
    "Please wait to transact or power up ZTR.")

/-- `update_account_bandwidth`, with the decision it comes to. Only a producing node rejects the
transaction. -/
def updateAccountBandwidth (props : DynamicGlobalProperties) (producing : Bool) (a : Account)
    (trxSize : UInt32) (type : BandwidthType) : Witnessing Bool := do
  if 0 < props.totalVestingShares then
    let band ← chargeBandwidth props.time a.name trxSize type
    let accountVshares ← a.effectiveVestingShares
    match (← get).reserveRatio with
    | none => throw .unknownKey
    | some r =>
      let decision := hasBandwidth accountVshares props.totalVestingShares band.averageBandwidth
        r.maxVirtualBandwidth
      require (producing = true → decision = true) bandwidthLimitExceeded
      return decision
  else return true

/-- `ZATTERA_TRY_NOTIFY` lets a `plugin_exception` through, with which the transaction is undone,
and swallows every other exception. -/
def WitnessPlugin.notify (plugin : WitnessPlugin) (handler : Witnessing Bool) : WitnessPlugin :=
  match handler plugin with
  | .ok _ changed => changed
  | .error e changed => if e = bandwidthLimitExceeded then plugin else changed

/-! ### Runs -/

/-- The states the plugin reaches by the notifications of a chain whose time does not run
backwards and whose block size limit is one that witnesses may vote for. A block or transaction
that is undone leads back to a state reached before. -/
inductive WitnessPlugin.Reached : TimePointSec → WitnessPlugin → Prop where
  | start (now : TimePointSec) : Reached now {}
  | block {now : TimePointSec} {plugin : WitnessPlugin} (reached : Reached now plugin)
      (props : DynamicGlobalProperties) (blockSize : Int32) (later : now ≤ props.time)
      (voted : 65536 ≤ props.maximumBlockSize ∧ props.maximumBlockSize < 4294967296) :
      Reached props.time (plugin.onPostApplyBlock props blockSize)
  | transaction {now : TimePointSec} {plugin : WitnessPlugin} (reached : Reached now plugin)
      (props : DynamicGlobalProperties) (producing : Bool) (a : Account) (trxSize : UInt32)
      (type : BandwidthType) (later : now ≤ props.time) :
      Reached props.time (plugin.notify (updateAccountBandwidth props producing a trxSize type))

end Zattera
