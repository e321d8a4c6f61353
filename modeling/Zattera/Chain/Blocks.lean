/-
This file models the application of a block to the state of the chain: the
checks of its header, its transactions, and the steps that follow them in the
order of `_apply_block`. What the step for irreversibility does beside moving
the number of the last irreversible block, it does to the undo history and the
block log, which are modelled with the node.
-/

import Zattera.Chain.WitnessSchedule

namespace Zattera

open Program

/-! ### The header -/

/-- The Merkle check of `_apply_block`. A wrong root is let pass when the block is listed with the
root that was calculated. -/
def checkMerkleRoot (block : SignedBlock) : Except ChainError Unit :=
  ensure (block.transactionMerkleRoot = block.calculatedMerkleRoot ∨
      sharedDbMerkle.lookup block.blockNum = some block.calculatedMerkleRoot)
    (.assertion "Merkle check failed")

/-- `validate_block_header` -/
def validateBlockHeader (skip : SkipFlags) (block : SignedBlock) : Chain Witness := do
  let state ← get
  require (state.dgp.headBlockId = block.previous)
    (.assertion "head_block_id() == next_block.previous")
  require (state.dgp.time < block.timestamp)
    (.assertion "head_block_time() < next_block.timestamp")
  let witness ← getWitness block.witness
  whenever (skip.witnessSignature = false) do
    require (block.signee = witness.signingKey)
      (.assertion "next_block.validate_signee( witness.signing_key )")
  whenever (skip.witnessScheduleCheck = false) do
    let slotNum := state.slotAtTime block.timestamp
    require (0 < slotNum) (.assertion "slot_num > 0")
    require (witness.owner = (state.scheduledWitness slotNum).toStdString)
      (.assertion "Witness produced block at wrong time")
  return witness

/-- The assignment to a `hardfork_version`, which drops the release part of a version. -/
def Version.hardfork (version : Version) : Version := version - version % 65536

/-- What an extension of the header says about the witness that signed it. -/
def Witness.withExtension (witness : Witness) : BlockHeaderExtension → Witness
  | .void => witness
  | .version reported => { witness with runningVersion := reported }
  | .hardforkVersionVote vote => { witness with
      hardforkVersionVote := vote.hfVersion.hardfork
      hardforkTimeVote := vote.hfTime }

/-- `process_header_extensions`; the name of the witness is handed on as a string. -/
def processHeaderExtensions (block : SignedBlock) : Chain Unit :=
  forM block.extensions fun extension =>
    match extension with
    | .void => return ()
    | _ => updateWitness block.witness.toStdString fun witness => witness.withExtension extension

/-! ### Global data -/

/-- A missed slot counts against its witness; after a day without blocks its key is taken away. -/
def Witness.missedSlot (witness : Witness) (headBlockNum : Nat) : Witness :=
  { witness with
    totalMissed := witness.totalMissed + 1
    signingKey := if 28800 < headBlockNum - witness.lastConfirmedBlockNum then default
      else witness.signingKey }

/-- The loop over the missed slots. A witness that produces the block itself is passed over. -/
def countMissedSlots (producer : AccountName) (missedBlocks : Nat) : Chain Unit :=
  forM (List.range missedBlocks) fun slot => do
    let state ← get
    let witness ← getWitness (state.scheduledWitness (slot + 1))
    whenever (witness.owner ≠ producer) do
      updateWitness witness.owner fun witness => witness.missedSlot state.dgp.headBlockNumber

/-- Shift one slot into the record of the last 128. -/
def DynamicGlobalProperties.recordSlot (dgp : DynamicGlobalProperties) (filled : Bool) :
    DynamicGlobalProperties :=
  { dgp with
    recentSlotsFilled := dgp.recentSlotsFilled <<< 1 + (if filled then 1 else 0)
    participationCount := dgp.participationCount - dgp.recentSlotsFilled.msb.toNat + filled.toNat }

/-- The record of the last 128 slots after a block and the slots missed before it. -/
def DynamicGlobalProperties.recordSlots (dgp : DynamicGlobalProperties) (missedBlocks : Nat) :
    DynamicGlobalProperties :=
  (List.range (missedBlocks + 1)).foldl (fun dgp slot => dgp.recordSlot (slot = 0)) dgp

/-- `update_global_dynamic_data` -/
def updateGlobalDynamicData (skip : SkipFlags) (block : SignedBlock) : Chain Unit := do
  let state ← get
  let missedBlocks := state.slotAtTime block.timestamp - 1
  countMissedSlots block.witness missedBlocks
  modify fun state => { state with
    dgp := { state.dgp.recordSlots missedBlocks with
      headBlockNumber := block.blockNum
      headBlockId := block.id
      time := block.timestamp
      currentAslot := state.dgp.currentAslot + missedBlocks + 1 } }
  let dgp := (← get).dgp
  require (skip.undoHistoryCheck = true ∨
      dgp.headBlockNumber - dgp.lastIrreversibleBlockNum < 10000) (.assertion
    ("The database does not have enough undo history to support a blockchain with so many " ++
      "missed blocks. Please add a checkpoint if you would like to continue applying blocks " ++
      "beyond this point."))

/-- `update_signing_witness` -/
def updateSigningWitness (name : AccountName) (block : SignedBlock) : Chain Unit := do
  let state ← get
  updateWitness name fun witness => { witness with
    lastAslot := state.dgp.currentAslot + state.slotAtTime block.timestamp
    lastConfirmedBlockNum := block.blockNum }

/-- The block that three quarters of some witnesses have confirmed. -/
def confirmedBlockNum (witnesses : List Witness) : Nat :=
  ((witnesses.map Witness.lastConfirmedBlockNum).insertionSort (· ≤ ·)).getD
    (2500 * witnesses.length / 10000) 0

/-- The part of `update_last_irreversible_block` that moves the number. In the first week blocks
become irreversible after twenty-one more. -/
def updateLastIrreversibleNum : Chain Unit := do
  let state ← get
  if state.dgp.headBlockNumber < 201600 then
    whenever (21 < state.dgp.headBlockNumber) do
      modify fun state => { state with
        dgp := { state.dgp with lastIrreversibleBlockNum := state.dgp.headBlockNumber - 21 } }
  else do
    let witnesses ← getScheduled state.witnessSchedule.scheduledWitnesses
    let confirmed := confirmedBlockNum witnesses
    whenever (state.dgp.lastIrreversibleBlockNum < confirmed) do
      modify fun state => { state with
        dgp := { state.dgp with lastIrreversibleBlockNum := confirmed } }

/-- `create_block_summary` -/
def createBlockSummary (block : SignedBlock) : Chain Unit :=
  modify fun state => { state with
    blockSummaries := (block.blockNum % 65536, block.id) ::
      state.blockSummaries.filter fun entry => decide (entry.1 ≠ block.blockNum % 65536) }

/-- `clear_expired_transactions` -/
def clearExpiredTransactions : Chain Unit :=
  modify fun state => { state with
    transactions := state.transactions.filter fun trx =>
      decide (state.dgp.time ≤ trx.expiration) }

/-- `process_hardforks`: the build knows of no hardfork, so none that is due can be applied. -/
def processHardforks : Chain Unit := do
  let state ← get
  require (¬ (0 < state.hardforks.nextHardfork ∧
      state.hardforks.nextHardforkTime ≤ state.dgp.time))
    (.assertion "unknown_hardfork_exception")

/-! ### `_apply_block` -/

/-- The first part of `_apply_block`, up to the step for irreversibility -/
def applyBlockTransactions (skip : SkipFlags) (producing : Bool) (block : SignedBlock) :
    Chain Unit := do
  whenever (skip.merkleCheck = false) (liftM (checkMerkleRoot block))
  let signingWitness ← validateBlockHeader skip block
  require (block.size ≤ (← get).dgp.maximumBlockSize) (.assertion "Block Size is too Big")
  modify fun state => { state with dgp := { state.dgp with currentWitness := block.witness } }
  processHeaderExtensions block
  let witness ← getWitness block.witness
  require ((← get).hardforks.currentHardforkVersion ≤ witness.runningVersion)
    (.assertion "Block produced by witness that is not running current hardfork")
  forM block.transactions (applyTransaction skip producing)
  updateGlobalDynamicData skip block
  updateSigningWitness signingWitness.owner block

/-- The last part of `_apply_block`, after the step for irreversibility -/
def applyBlockMaintenance (block : SignedBlock) : Chain Unit := do
  createBlockSummary block
  clearExpiredTransactions
  clearExpiredOrders
  clearExpiredDelegations
  updateWitnessSchedule
  updateMedianFeed
  updateVirtualSupply
  clearNullAccountBalance
  processFunds
  processConversions
  processCommentCashout
  processVestingWithdrawals
  processSavingsWithdraws
  updateVirtualSupply
  accountRecoveryProcessing
  expireEscrowRatification
  processDeclineVotingRights
  processHardforks

/-- `_apply_block`, as far as the state of the chain is concerned -/
def applyBlock (skip : SkipFlags) (producing : Bool) (block : SignedBlock) : Chain Unit := do
  applyBlockTransactions skip producing block
  updateLastIrreversibleNum
  applyBlockMaintenance block

end Zattera
