/-
This file models how rewards are computed: the curves that turn the shares
behind a comment or a vote into a claim, and the part of a reward fund that a
claim is worth.
-/

import Zattera.Chain.Objects

namespace Zattera

open Program

/-! ### Curves -/

/-- `find_msb`, the place of the highest bit; that of zero is taken to be the lowest one. -/
def findMsb (u : UInt128) : Nat := u.toNat.log2

/-- `approx_sqrt`: halve the exponent, and take half of the mantissa's leading bits. -/
def approxSqrt (x : UInt128) : Nat :=
  if x = 0 then 0
  else
    let msbX := findMsb x
    let msbZ := msbX / 2
    let msbZBit := 2 ^ msbZ
    let mantissaX := x.toNat % 2 ^ msbX
    let mantissaZHi := if msbX % 2 = 1 then msbZBit else 0
    let mantissaZLo := mantissaX / 2 ^ (msbX - msbZ) % 18446744073709551616
    let mantissaZ := (mantissaZHi ||| mantissaZLo) / 2
    msbZBit ||| mantissaZ

/-- `evaluate_reward_curve`, whose arithmetic wraps -/
def evaluateRewardCurve (rshares : UInt128) (curve : CurveId) (contentConstant : UInt128) :
    Except ChainError UInt128 :=
  match curve with
  | .quadratic =>
    let rsharesPlusS := rshares + contentConstant
    .ok (rsharesPlusS * rsharesPlusS - contentConstant * contentConstant)
  | .quadraticCuration =>
    let twoAlpha := contentConstant * 2
    UInt128.div (rshares <<< 64) (twoAlpha + rshares)
  | .linear => .ok rshares
  | .squareRoot => .ok (BitVec.ofNat 128 (approxSqrt rshares))

/-! ### The worth of a claim -/

/-- `to_dollar` -/
def toDollar (price : Price) (liquid : Asset) : Except ChainError Asset := do
  ensure (liquid.symbol = .liquid) (.assertion "liquid.symbol == LIQUID_SYMBOL")
  if price.isNull then return ⟨0, .dollar⟩ else liquid.mulPrice price

/-- `to_liquid` -/
def toLiquid (price : Price) (dollar : Asset) : Except ChainError Asset := do
  ensure (dollar.symbol = .dollar) (.assertion "dollar.symbol == DOLLAR_SYMBOL")
  if price.isNull then return ⟨0, .liquid⟩ else dollar.mulPrice price

/-- `comment_reward_context` -/
structure CommentRewardContext where
  rshares : ShareType
  rewardWeight : Nat
  maxDollars : Asset
  totalRewardShares2 : UInt128
  totalRewardFundLiquid : ShareType
  currentLiquidPrice : Price
  rewardCurve : CurveId
  contentConstant : UInt128

/-- `is_comment_payout_dust`: worth less than 0.020 dollars -/
def isCommentPayoutDust (price : Price) (liquidPayout : ShareType) : Except ChainError Bool := do
  let worth ← toDollar price ⟨liquidPayout, .liquid⟩
  worth.lt ⟨20, .dollar⟩

/-- The part of the fund a claim is worth, before dust and the limit of the comment. The source
computes it in 256 bits. -/
def CommentRewardContext.shareOfFund (ctx : CommentRewardContext) : Except ChainError ShareType := do
  let fund := BitVec.ofInt 256 ctx.totalRewardFundLiquid.toInt
  let totalClaims := BitVec.ofNat 256 ctx.totalRewardShares2.toNat
  let curved ← evaluateRewardCurve (UInt128.ofInt64 ctx.rshares) ctx.rewardCurve
    ctx.contentConstant
  let claim := BitVec.ofNat 256 curved.toNat * BitVec.ofNat 256 ctx.rewardWeight / 10000
  let payout := fund * claim / totalClaims
  ensure (payout.toNat ≤ 9223372036854775807)
    (.assertion "payout_u256 <= u256( uint64_t( std::numeric_limits<int64_t>::max() ) )")
  return Int64.ofNat payout.toNat

/-- `get_rshare_reward` -/
def getRshareReward (ctx : CommentRewardContext) : Except ChainError ShareType := do
  ensure (0 < ctx.rshares) (.assertion "ctx.rshares > 0")
  ensure (0 < ctx.totalRewardShares2) (.assertion "ctx.total_reward_shares2 > 0")
  let payout ← ctx.shareOfFund
  let dust ← isCommentPayoutDust ctx.currentLiquidPrice payout
  let maxLiquid ← toLiquid ctx.currentLiquidPrice ctx.maxDollars
  let worth : ShareType := if dust then 0 else payout
  -- The limit is compared as an unsigned number.
  return if worth.toUInt64 ≤ maxLiquid.amount.toUInt64 then worth else maxLiquid.amount

end Zattera
