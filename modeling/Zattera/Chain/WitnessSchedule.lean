/-
This file models the witness schedule: the slots of time, which witness each of
them belongs to, and the update that every round selects the witnesses with the
most votes and the next runner in virtual time, shuffles them, and takes the
medians of their properties.
-/

import Zattera.Chain.Withdrawals
import Zattera.Lib.Tally

namespace Zattera

open Program

/-! ### Slots -/

/-- `get_scheduled_witness` -/
def ChainState.scheduledWitness (state : ChainState) (slotNum : Nat) : AccountName :=
  state.witnessSchedule.shuffledWitness
    ((state.dgp.currentAslot + slotNum) % state.witnessSchedule.numScheduledWitnesses)

/-- `get_slot_time` of a slot after the current one -/
def ChainState.slotTime (state : ChainState) (slotNum : Nat) : TimePointSec :=
  if state.dgp.headBlockNumber = 0 then state.dgp.time + UInt32.ofNat (slotNum * 3)
  else state.dgp.time / 3 * 3 + UInt32.ofNat (slotNum * 3)

/-- `get_slot_at_time` -/
def ChainState.slotAtTime (state : ChainState) (time : TimePointSec) : Nat :=
  let firstSlotTime := state.slotTime 1
  if time < firstSlotTime then 0 else (time.toNat - firstSlotTime.toNat) / 3 + 1

/-! ### Selection -/

/-- The witnesses with the most votes that have a key to sign with. -/
def ChainState.votedWitnessNames (state : ChainState) : List AccountName :=
  ((state.witnessesByVoteName.filter fun witness => decide (witness.signingKey ≠ default)).map
    Witness.owner).take state.witnessSchedule.maxVotedWitnesses

/-- The index `by_schedule_time`. -/
def ChainState.witnessesByScheduleTime (state : ChainState) : List Witness :=
  state.witnesses.objects.insertionSort fun a b => a.virtualScheduledTime ≤ b.virtualScheduledTime

/-- What the walk along the virtual schedule finds: the witnesses passed, those of them that are
added to the schedule, and the virtual time reached. -/
structure RunnerSelection where
  processed : List AccountName
  added : List AccountName
  newVirtualTime : UInt128

/-- The walk along the virtual schedule, until twenty-one witnesses are scheduled. -/
def selectRunners (voted : List AccountName) :
    List Witness → Nat → UInt128 → RunnerSelection
  | [], _, time => ⟨[], [], time⟩
  | witness :: rest, count, time =>
    if 21 ≤ count then ⟨[], [], time⟩
    else
      let adds := decide (witness.signingKey ≠ default ∧ witness.owner ∉ voted)
      let further := selectRunners voted rest (if adds then count + 1 else count)
        witness.virtualScheduledTime
      ⟨witness.owner :: further.processed,
        if adds then witness.owner :: further.added else further.added, further.newVirtualTime⟩

def setScheduleType (type : WitnessScheduleType) (name : AccountName) : Chain Unit :=
  updateWitness name fun witness => { witness with schedule := type }

/-- One lap of the virtual schedule for a witness, as long as its votes are few. -/
def Witness.lapTime (witness : Witness) : Except ChainError UInt128 :=
  UInt128.div (BitVec.allOnes 128) (BitVec.ofInt 128 (witness.votes.toInt + 1))

/-- Send the processed witnesses on their next lap; returns whether the virtual time overflows. -/
def advanceProcessed (newVirtualTime : UInt128) : List AccountName → Chain Bool
  | [] => return false
  | name :: rest => do
    let witness ← getWitness name
    let lap ← witness.lapTime
    if newVirtualTime + lap < newVirtualTime then return true
    else do
      updateWitness name fun witness => { witness with
        virtualPosition := 0
        virtualLastUpdate := newVirtualTime
        virtualScheduledTime := newVirtualTime + lap }
      advanceProcessed newVirtualTime rest

/-- `reset_virtual_schedule_time` -/
def resetVirtualScheduleTime : Chain Unit := do
  modify fun state => { state with
    witnessSchedule := { state.witnessSchedule with currentVirtualTime := 0 } }
  forM (← get).witnesses.objects fun witness =>
    modifyWitness witness.owner fun witness => do
      let lap ← witness.lapTime
      return { witness with
        virtualPosition := 0
        virtualLastUpdate := 0
        virtualScheduledTime := lap }

/-! ### Versions -/

/-- The witnesses that are scheduled now. -/
def getScheduled : List AccountName → Chain (List Witness)
  | [] => return []
  | name :: rest => do
    let witness ← getWitness name
    let others ← getScheduled rest
    return witness :: others

/-- `witness_versions`: how many witnesses run each version, the highest version first. -/
def witnessVersions (versions : List Version) : List (Version × Nat) :=
  Tally.tally (fun a b => b < a) versions

/-- The scan of `witness_versions`, until enough witnesses run a version or a higher one. -/
def scanVersions (required : Nat) (current : Version) : List (Version × Nat) → Nat → Version
  | [], _ => current
  | (version, count) :: rest, witnessesOnVersion =>
    if required ≤ witnessesOnVersion + count then version
    else scanVersions required current rest (witnessesOnVersion + count)

/-- The version that enough witnesses run, or a higher one, and otherwise the current one. -/
def majorityVersion (versions : List Version) (required : Nat) (current : Version) : Version :=
  scanVersions required current (witnessVersions versions) 0

/-- The order of the tuples in `hardfork_version_votes`. -/
def HardforkVersionVote.Before (a b : HardforkVersionVote) : Prop :=
  a.hfVersion < b.hfVersion ∨ a.hfVersion = b.hfVersion ∧ a.hfTime < b.hfTime

instance : DecidableRel HardforkVersionVote.Before := fun a b =>
  inferInstanceAs (Decidable (a.hfVersion < b.hfVersion ∨
    a.hfVersion = b.hfVersion ∧ a.hfTime < b.hfTime))

/-- The first vote in `hardfork_version_votes` that enough witnesses have cast. -/
def majorityVote (votes : List HardforkVersionVote) (required : Nat) :
    Option HardforkVersionVote :=
  ((Tally.tally HardforkVersionVote.Before votes).find? fun entry => required ≤ entry.2).map Prod.fst

/-- The hardfork properties after the votes of the scheduled witnesses are counted. -/
def HardforkProperties.counted (hardforks : HardforkProperties)
    (vote : Option HardforkVersionVote) : HardforkProperties :=
  match vote with
  | some vote => { hardforks with
      nextHardfork := vote.hfVersion
      nextHardforkTime := vote.hfTime }
  | none => { hardforks with nextHardfork := hardforks.currentHardforkVersion }

/-! ### Shuffling -/

/-- The random number for a place of the schedule, from an xorshift generator. -/
def shuffleNumber (nowHi : UInt64) (place : Nat) : UInt64 :=
  let k := nowHi + UInt64.ofNat place * 2685821657736338717
  let k := k ^^^ (k >>> 12)
  let k := k ^^^ (k <<< 25)
  let k := k ^^^ (k >>> 27)
  k * 2685821657736338717

/-- `std::swap` of two places -/
def swapPlaces (names : List AccountName) (i j : Nat) : List AccountName :=
  (names.set i (names.getD j default)).set j (names.getD i default)

/-- The shuffle of the first `count` places. -/
def shuffle (now : TimePointSec) (count : Nat) (names : List AccountName) : List AccountName :=
  let nowHi := UInt64.ofNat now.toNat <<< 32
  (List.range count).foldl
    (fun names i => swapPlaces names i (i + (shuffleNumber nowHi i).toNat % (count - i))) names

/-- The schedule object for newly selected witnesses. -/
def WitnessSchedule.renewed (schedule : WitnessSchedule) (elected added : List AccountName)
    (newVirtualTime : UInt128) (version : Version) (dgp : DynamicGlobalProperties) :
    WitnessSchedule :=
  let active := elected ++ added
  let count := max active.length 1
  { schedule with
    currentShuffledWitnesses :=
      shuffle dgp.time count (active ++ List.replicate (21 - active.length) default)
    numScheduledWitnesses := count
    witnessPayNormalizationFactor :=
      schedule.top20Weight * elected.length + schedule.timeshareWeight * added.length
    currentVirtualTime := newVirtualTime
    nextShuffleBlockNum := dgp.headBlockNumber + count
    majorityVersion := version }

/-! ### The update -/

/-- The middle of a list of numbers, in ascending order. -/
def medianNat (numbers : List Nat) : Nat :=
  (numbers.insertionSort (· ≤ ·)).getD (numbers.length / 2) 0

/-- The middle of a list of amounts, in ascending order. -/
def medianShare (amounts : List ShareType) : ShareType :=
  (amounts.insertionSort (· ≤ ·)).getD (amounts.length / 2) 0

/-- `update_median_witness_props` -/
def updateMedianWitnessProps : Chain Unit := do
  let active ← getScheduled (← get).witnessSchedule.scheduledWitnesses
  let props := active.map Witness.props
  let median : ChainProperties := {
    accountCreationFee := medianShare (props.map ChainProperties.accountCreationFee)
    maximumBlockSize := medianNat (props.map ChainProperties.maximumBlockSize)
    dollarInterestRate := medianNat (props.map ChainProperties.dollarInterestRate)
    accountSubsidyLimit := medianNat (props.map ChainProperties.accountSubsidyLimit) }
  modify fun state => { state with
    witnessSchedule := { state.witnessSchedule with medianProps := median }
    dgp := { state.dgp with
      maximumBlockSize := median.maximumBlockSize
      dollarInterestRate := median.dollarInterestRate } }

/-- The part of `update_witness_schedule4` that selects witnesses and moves the virtual schedule;
returns the selection and the new virtual time. -/
def selectWitnesses : Chain (List AccountName × List AccountName × UInt128) := do
  let elected := (← get).votedWitnessNames
  forM elected (setScheduleType .top20)
  let state ← get
  let runners := selectRunners elected state.witnessesByScheduleTime elected.length
    state.witnessSchedule.currentVirtualTime
  forM runners.added (setScheduleType .timeshare)
  if ← advanceProcessed runners.newVirtualTime runners.processed then do
    resetVirtualScheduleTime
    return (elected, runners.added, 0)
  else return (elected, runners.added, runners.newVirtualTime)

/-- `update_witness_schedule4` -/
def updateWitnessSchedule4 : Chain Unit := do
  let (elected, added, newVirtualTime) ← selectWitnesses
  let schedule := (← get).witnessSchedule
  let scheduled ← getScheduled schedule.scheduledWitnesses
  let version := majorityVersion (scheduled.map Witness.runningVersion)
    schedule.hardforkRequiredWitnesses schedule.majorityVersion
  let vote := majorityVote
    (scheduled.map fun witness => ⟨witness.hardforkVersionVote, witness.hardforkTimeVote⟩)
    schedule.hardforkRequiredWitnesses
  modify fun state => { state with
    hardforks := state.hardforks.counted vote
    witnessSchedule :=
      state.witnessSchedule.renewed elected added newVirtualTime version state.dgp }
  updateMedianWitnessProps

/-- `update_witness_schedule` -/
def updateWitnessSchedule : Chain Unit := do
  whenever ((← get).dgp.headBlockNumber % 21 = 0) updateWitnessSchedule4

end Zattera
