/-
This file counts the slots of a chain, which are the block intervals since genesis.
A block is in a later slot than the block before it, so that the slots up to the
head are its blocks and the slots that were skipped. The record of recent slots is
shown to lag behind: it is about the slots before the head's.
-/

import Mathlib.Order.Interval.Finset.Nat
import Zattera.Lib.Window
import Zattera.Proof.Duplicates
import Zattera.Proof.History

namespace Zattera

open Program Window Faceted

set_option synthInstance.maxSize 4096

/-! ### The calendar -/

/-- What the global properties say about the head block and about slots. -/
structure Calendar where
  number : Nat
  time : TimePointSec
  aslot : Nat
  slotsFilled : UInt128
  participation : Nat

/-- The calendar of the chain. -/
def ChainState.calendar (state : ChainState) : Calendar where
  number := state.dgp.headBlockNumber
  time := state.dgp.time
  aslot := state.dgp.currentAslot
  slotsFilled := state.dgp.recentSlotsFilled
  participation := state.dgp.participationCount

instance : Overlooks (Same ChainState.calendar) (Either (Covered (.accounts :: Part.tables))
    (Among [.part .dgp, .global .irreversible, .global .producer, .global .supply, .global .virtual,
      .global .fund, .global .pending, .global .rates])) where
  holds {s t} same := by
    let view (dgp : DynamicGlobalProperties) := Calendar.mk dgp.headBlockNumber dgp.time
      dgp.currentAslot dgp.recentSlotsFilled dgp.participationCount
    change view t.dgp = view s.dgp
    exact eq_of_gathered [.head, .slots] (fun _ => rfl) (same.globals (by decide))

instance (producing : Bool) (op : Operation) :
    Respects (Same ChainState.calendar) (applyOperation producing op) := by
  refine respects_of_aspects (beside_applyOperation producing op) ?_
  cases op <;> exact of_decide_eq_true rfl

instance (skip : SkipFlags) (producing : Bool) (trx : SignedTransaction) :
    Respects (Same ChainState.calendar) (applyTransaction skip producing trx) := by
  dsimp only [applyTransaction]
  infer_instance

instance (block : SignedBlock) : Respects (Same ChainState.calendar) (applyBlockMaintenance block) :=
  respects_applyBlockMaintenance

/-- A block changes the calendar in one step, which it takes after a valid header. -/
theorem applyBlock_calendar {s t : ChainState} {u : Unit} {skip : SkipFlags} {producing : Bool}
    {block : SignedBlock} (run : applyBlock skip producing block s = .ok u t) :
    ∃ witness middle moved, validateBlockHeader skip block s = .ok witness s ∧
      middle.calendar = s.calendar ∧ updateGlobalDynamicData skip block middle = .ok () moved ∧
      t.calendar = moved.calendar := by
  unfold applyBlock at run
  obtain ⟨_, first, started, run⟩ := bind_eq_ok.mp run
  obtain ⟨_, second, irreversible, maintained⟩ := bind_eq_ok.mp run
  unfold applyBlockTransactions at started
  obtain ⟨_, _, merkle, started⟩ := bind_eq_ok.mp started
  obtain rfl := unmoved merkle
  obtain ⟨witness, _, header, started⟩ := bind_eq_ok.mp started
  obtain rfl := unmoved header
  simp only [bind_eq_ok, get_eq_ok, require_eq_ok, modify_eq_ok, getWitness_eq_ok] at started
  obtain ⟨_, _, ⟨rfl, rfl⟩, _, _, ⟨_, rfl⟩, _, produced, rfl, _, before, extended, _, _,
    ⟨_, rfl⟩, _, _, ⟨rfl, rfl⟩, _, _, ⟨_, rfl⟩, _, middle, applied, _, moved, global, signed⟩ :=
    started
  refine ⟨witness, middle, moved, header, ?_, global, ?_⟩
  · have opened : before.calendar = s.calendar := (viewed extended).trans rfl
    exact (viewed applied).trans opened
  · calc t.calendar = second.calendar := viewed maintained
      _ = first.calendar := viewed irreversible
      _ = moved.calendar := viewed signed

/-! ### Times and slots -/

/-- The slot of a time, which is the number of block intervals since genesis. -/
def slotOf (time : TimePointSec) : Nat := (time.toNat - genesisTime.toNat) / 3

/-- The slot received a block, or is not after genesis. -/
def Occupied (blocks : List SignedBlock) (slot : Int) : Prop :=
  slot ≤ 0 ∨ ∃ block ∈ blocks, slot = slotOf block.timestamp

instance (blocks : List SignedBlock) : DecidablePred (Occupied blocks) := fun slot =>
  inferInstanceAs (Decidable (slot ≤ 0 ∨ ∃ block ∈ blocks, slot = slotOf block.timestamp))

/-- The slots since genesis that received no block. -/
def skippedSlots (blocks : List SignedBlock) (last : Nat) : Finset Nat :=
  {slot ∈ Finset.Icc 1 last | ¬ Occupied blocks slot}

section Times

variable {s t : ChainState} {time : TimePointSec}

/-- The time of the slot of the head, which is on time at genesis. -/
def ChainState.headSlotTime (state : ChainState) : Nat :=
  if state.dgp.headBlockNumber = 0 then state.dgp.time.toNat else state.dgp.time.toNat / 3 * 3

theorem slotTime_toNat (slot : Nat) :
    (s.slotTime slot).toNat = (s.headSlotTime + slot * 3) % 4294967296 := by
  unfold ChainState.slotTime ChainState.headSlotTime
  split <;> simp [UInt32.toNat_add, UInt32.toNat_mul, UInt32.toNat_div]

/-- The two functions agree on all slots whose time can be told. -/
theorem slotAtTime_iff {slot : Nat} (after : 1 ≤ slot)
    (told : s.headSlotTime + slot * 3 < 4294967296) :
    slot ≤ s.slotAtTime time ↔ s.slotTime slot ≤ time := by
  have first : (s.slotTime 1).toNat = s.headSlotTime + 3 := by
    rw [slotTime_toNat]
    omega
  have this : (s.slotTime slot).toNat = s.headSlotTime + slot * 3 := by
    rw [slotTime_toNat, Nat.mod_eq_of_lt told]
  unfold ChainState.slotAtTime
  simp only [UInt32.lt_iff_toNat_lt, UInt32.le_iff_toNat_le, first, this]
  split <;> omega

/-- How far a later time is from the head, in slots. -/
theorem slotAtTime_eq (onTime : s.dgp.headBlockNumber = 0 → s.dgp.time = genesisTime)
    (later : s.dgp.time < time) :
    s.slotAtTime time = time.toNat / 3 - s.dgp.time.toNat / 3 := by
  have bound : time.toNat < 4294967296 := time.toNat_lt
  have later : s.dgp.time.toNat < time.toNat := UInt32.lt_iff_toNat_lt.mp later
  have head : s.headSlotTime = s.dgp.time.toNat / 3 * 3 := by
    unfold ChainState.headSlotTime
    split
    · next first =>
      rw [onTime first]
      rfl
    · rfl
  have first : (s.slotTime 1).toNat = s.dgp.time.toNat / 3 * 3 + 3 := by
    rw [slotTime_toNat, head]
    omega
  unfold ChainState.slotAtTime
  simp only [UInt32.lt_iff_toNat_lt, first]
  split <;> omega

theorem slotAtTime_congr (same : t.calendar = s.calendar) : t.slotAtTime time = s.slotAtTime time := by
  have number : t.dgp.headBlockNumber = s.dgp.headBlockNumber := congrArg Calendar.number same
  have head : t.dgp.time = s.dgp.time := congrArg Calendar.time same
  unfold ChainState.slotAtTime ChainState.slotTime
  rw [number, head]

end Times

/-! ### The record of recent slots -/

section Record

variable {dgp : DynamicGlobalProperties} {filled : Int → Prop} {last : Int}

theorem recordSlots_succ (missed : Nat) :
    dgp.recordSlots (missed + 1) = (dgp.recordSlots missed).recordSlot false := by
  unfold DynamicGlobalProperties.recordSlots
  rw [List.range_succ, List.foldl_append]
  rfl

/-- A block is entered before the slots that were missed before it, in the place of the head. -/
theorem shows_recordSlots (missed : Nat) (shown : Shows dgp.recentSlotsFilled filled (last - 1))
    (head : filled last) (skipped : ∀ slot, last < slot → slot ≤ last + missed → ¬ filled slot) :
    Shows (dgp.recordSlots missed).recentSlotsFilled filled (last + missed) := by
  induction missed with
  | zero =>
    rw [Nat.cast_zero, add_zero, ← sub_add_cancel last 1]
    refine shown.push ?_
    rw [sub_add_cancel]
    exact iff_of_true rfl head
  | succ missed inductionHypothesis =>
    have earlier := inductionHypothesis fun slot above inside => skipped slot above (by omega)
    rw [recordSlots_succ, Nat.cast_succ, ← add_assoc]
    exact earlier.push (iff_of_false (by decide) (skipped _ (by omega) (by omega)))

theorem participation_recordSlots (missed : Nat)
    (counted : dgp.participationCount = ones dgp.recentSlotsFilled) :
    (dgp.recordSlots missed).participationCount =
      ones (dgp.recordSlots missed).recentSlotsFilled := by
  have step (dgp : DynamicGlobalProperties) (bit : Bool)
      (counted : dgp.participationCount = ones dgp.recentSlotsFilled) :
      (dgp.recordSlot bit).participationCount = ones (dgp.recordSlot bit).recentSlotsFilled := by
    change dgp.participationCount - _ + _ = ones (push dgp.recentSlotsFilled bit)
    rw [ones_push, counted]
  induction missed with
  | zero => exact step dgp true counted
  | succ missed inductionHypothesis =>
    rw [recordSlots_succ]
    exact step _ false inductionHypothesis

end Record

/-! ### Chains -/

/-- What is known about the slots of a chain. -/
structure ChainState.Slotted (blocks : List SignedBlock) (state : ChainState) : Prop where
  number : state.dgp.headBlockNumber = blocks.length
  id : state.dgp.headBlockId.num = blocks.length
  genesis : blocks = [] → state.dgp.time = genesisTime
  later : genesisTime ≤ state.dgp.time
  aslot : state.dgp.currentAslot = slotOf state.dgp.time
  head : Occupied blocks state.dgp.currentAslot
  inside : ∀ block ∈ blocks, 1 ≤ slotOf block.timestamp ∧
    slotOf block.timestamp ≤ state.dgp.currentAslot
  falling : (blocks.map fun block => slotOf block.timestamp).Pairwise (· > ·)
  shown : Shows state.dgp.recentSlotsFilled (Occupied blocks) (state.dgp.currentAslot - 1)
  counted : state.dgp.participationCount = ones state.dgp.recentSlotsFilled

section Chains

variable {s t : ChainState} {skip : SkipFlags} {block : SignedBlock} {blocks : List SignedBlock}

theorem slotted_initGenesis (liquid dollar : ShareType) : (initGenesis liquid dollar).Slotted [] where
  number := rfl
  id := rfl
  genesis _ := rfl
  later := UInt32.le_refl _
  aslot := by
    change 0 = (genesisTime.toNat - genesisTime.toNat) / 3
    rw [Nat.sub_self]
  head := .inl le_rfl
  inside _ member := nomatch member
  falling := .nil
  shown i inside := by
    have all : (BitVec.allOnes 128).getLsbD i = true := by
      rw [BitVec.getLsbD_allOnes]
      exact decide_eq_true inside
    exact iff_of_true all (.inl (by change (0 : Int) - 1 - i ≤ 0; omega))
  counted := by
    change 128 = ones (BitVec.allOnes 128)
    decide +kernel

/-- What the step of a block does to the calendar. -/
theorem updateGlobalDynamicData_calendar {u : Unit}
    (run : updateGlobalDynamicData skip block s = .ok u t) :
    t.calendar = { number := block.blockNum
                   time := block.timestamp
                   aslot := s.dgp.currentAslot + (s.slotAtTime block.timestamp - 1) + 1
                   slotsFilled :=
                    (s.dgp.recordSlots (s.slotAtTime block.timestamp - 1)).recentSlotsFilled
                   participation :=
                    (s.dgp.recordSlots (s.slotAtTime block.timestamp - 1)).participationCount } := by
  simp only [updateGlobalDynamicData, bind_eq_ok, get_eq_ok, modify_eq_ok, require_eq_ok] at run
  obtain ⟨_, _, ⟨rfl, rfl⟩, _, middle, counted, _, _, rfl, _, _, ⟨rfl, rfl⟩, _, rfl⟩ := run
  have within : Respects (Within [.witnesses])
      (countMissedSlots block.witness (s.slotAtTime block.timestamp - 1)) := by
    dsimp only [countMissedSlots]
    infer_instance
  have same : middle.dgp = s.dgp := within.related _ _ _ counted .dgp (by decide)
  unfold ChainState.calendar
  rw [same]

theorem slotAtTime_pos {witness : Witness} (checked : skip.witnessScheduleCheck = false)
    (run : validateBlockHeader skip block s = .ok witness t) : 0 < s.slotAtTime block.timestamp := by
  simp only [validateBlockHeader, bind_eq_ok, get_eq_ok, require_eq_ok, getWitness_eq_ok,
    pure_eq_ok] at run
  obtain ⟨_, _, ⟨rfl, rfl⟩, _, _, ⟨_, rfl⟩, _, _, ⟨_, rfl⟩, _, _, ⟨_, rfl⟩, _, middle, signed, _, _,
    run, _⟩ := run
  rcases whenever_eq_ok.mp run with ⟨_, scheduled⟩ | ⟨skipped, _⟩
  · obtain ⟨_, _, positive, _⟩ := bind_eq_ok.mp scheduled
    exact (require_eq_ok.mp positive).1
  · exact absurd checked skipped

theorem slotOf_eq {first second : TimePointSec} (late : genesisTime ≤ first) (later : first < second) :
    slotOf second = slotOf first + (second.toNat / 3 - first.toNat / 3) := by
  have late : 1765238400 ≤ first.toNat := UInt32.le_iff_toNat_le.mp late
  have later : first.toNat < second.toNat := UInt32.lt_iff_toNat_lt.mp later
  change (second.toNat - 1765238400) / 3 = (first.toNat - 1765238400) / 3 + _
  omega

theorem occupied_cons {slot : Int} :
    Occupied (block :: blocks) slot ↔ Occupied blocks slot ∨ slot = slotOf block.timestamp := by
  unfold Occupied
  rw [List.exists_mem_cons_iff, or_assoc]
  exact or_congr_right or_comm

/-- A block is in a later slot than the head. -/
theorem slotted_applyBlock {producing : Bool} {u : Unit} (slotted : s.Slotted blocks)
    (checked : skip.witnessScheduleCheck = false)
    (run : applyBlock skip producing block s = .ok u t) : t.Slotted (block :: blocks) := by
  obtain ⟨previous, id, number⟩ := applyBlock_head run
  obtain ⟨witness, middle, moved, header, before, global, after⟩ := applyBlock_calendar run
  have later : s.dgp.time < block.timestamp := (validateBlockHeader_eq_ok header).2.2.1
  have gap : 0 < s.slotAtTime block.timestamp := slotAtTime_pos checked header
  have atStart : s.dgp.headBlockNumber = 0 → s.dgp.time = genesisTime := fun none =>
    slotted.genesis (List.eq_nil_of_length_eq_zero (slotted.number.symm.trans none))
  have calendar := after.trans (updateGlobalDynamicData_calendar global)
  rw [slotAtTime_congr before] at calendar
  have time : t.dgp.time = block.timestamp := congrArg Calendar.time calendar
  have blockSlot : slotOf block.timestamp =
      s.dgp.currentAslot + s.slotAtTime block.timestamp := by
    rw [slotOf_eq slotted.later later, slotted.aslot, slotAtTime_eq atStart later]
  have sameSlot : middle.dgp.currentAslot = s.dgp.currentAslot := congrArg Calendar.aslot before
  have aslot : t.dgp.currentAslot = slotOf block.timestamp := by
    refine (congrArg Calendar.aslot calendar).trans ?_
    change middle.dgp.currentAslot + _ + 1 = _
    rw [sameSlot, blockSlot]
    omega
  have length : block.blockNum = (block :: blocks).length := by
    rw [SignedBlock.blockNum, ← previous, slotted.id]
    rfl
  refine
    { number := number.trans length
      id := (congrArg BlockId.num id).trans length
      genesis := fun none => absurd none (List.cons_ne_nil block blocks)
      later := ?_
      aslot := aslot.trans (congrArg slotOf time.symm)
      head := .inr ⟨block, List.mem_cons_self, congrArg Nat.cast aslot⟩
      inside := fun other member => ?_
      falling := ?_
      shown := ?_
      counted := ?_ }
  · rw [time]
    exact UInt32.le_of_lt (UInt32.lt_of_le_of_lt slotted.later later)
  · rw [aslot]
    rcases List.mem_cons.mp member with rfl | old
    · exact ⟨by omega, le_rfl⟩
    · obtain ⟨low, high⟩ := slotted.inside other old
      exact ⟨low, by omega⟩
  · refine List.pairwise_cons.mpr ⟨fun slot member => ?_, slotted.falling⟩
    obtain ⟨other, old, rfl⟩ := List.mem_map.mp member
    have high := (slotted.inside other old).2
    change slotOf other.timestamp < slotOf block.timestamp
    omega
  · have filled : t.dgp.recentSlotsFilled =
        (middle.dgp.recordSlots (s.slotAtTime block.timestamp - 1)).recentSlotsFilled :=
      congrArg Calendar.slotsFilled calendar
    have sameFilled : middle.dgp.recentSlotsFilled = s.dgp.recentSlotsFilled :=
      congrArg Calendar.slotsFilled before
    have lastSlot : (t.dgp.currentAslot : Int) - 1 =
        s.dgp.currentAslot + ((s.slotAtTime block.timestamp - 1 : Nat) : Int) := by
      rw [aslot, blockSlot]
      omega
    rw [filled, lastSlot]
    refine shows_recordSlots _ (sameFilled ▸ slotted.shown.congr fun slot low => ?_)
      (occupied_cons.mpr (.inl slotted.head)) fun slot above low => ?_
    · rw [occupied_cons]
      refine (or_iff_left fun isBlock => ?_).symm
      omega
    · rw [occupied_cons]
      rintro ((early | ⟨other, old, rfl⟩) | isBlock)
      · omega
      · have high := (slotted.inside other old).2
        omega
      · omega
  · have participation : t.dgp.participationCount =
        (middle.dgp.recordSlots (s.slotAtTime block.timestamp - 1)).participationCount :=
      congrArg Calendar.participation calendar
    have filled : t.dgp.recentSlotsFilled =
        (middle.dgp.recordSlots (s.slotAtTime block.timestamp - 1)).recentSlotsFilled :=
      congrArg Calendar.slotsFilled calendar
    have counted : middle.dgp.participationCount = ones middle.dgp.recentSlotsFilled := by
      rw [show middle.dgp.participationCount = s.dgp.participationCount from
        congrArg Calendar.participation before, show middle.dgp.recentSlotsFilled =
        s.dgp.recentSlotsFilled from congrArg Calendar.slotsFilled before]
      exact slotted.counted
    rw [participation, filled]
    exact participation_recordSlots _ counted

theorem slotted_of_chained {liquid dollar : ShareType}
    (chained : Chained (fun skip => skip.witnessScheduleCheck = false) (initGenesis liquid dollar)
      blocks s) : s.Slotted blocks := by
  induction chained with
  | start => exact slotted_initGenesis liquid dollar
  | block _ _ _ _ checked applied inductionHypothesis =>
    exact slotted_applyBlock inductionHypothesis checked applied

theorem ChainState.Slotted.distinct (slotted : s.Slotted blocks) :
    (blocks.map fun block => slotOf block.timestamp).Nodup :=
  slotted.falling.imp fun above => above.ne'

/-- The slots up to the head are those of the blocks and those that were skipped. -/
theorem ChainState.Slotted.aslot_eq (slotted : s.Slotted blocks) :
    s.dgp.currentAslot =
      s.dgp.headBlockNumber + (skippedSlots blocks s.dgp.currentAslot).card := by
  have taken : (Finset.Icc 1 s.dgp.currentAslot).filter (fun slot : Nat => Occupied blocks slot) =
      (blocks.map fun block => slotOf block.timestamp).toFinset := by
    ext slot
    rw [Finset.mem_filter, Finset.mem_Icc, List.mem_toFinset, List.mem_map]
    constructor
    · rintro ⟨⟨low, _⟩, early | ⟨block, member, isSlot⟩⟩
      · omega
      · exact ⟨block, member, (Int.natCast_inj.mp isSlot).symm⟩
    · rintro ⟨block, member, rfl⟩
      exact ⟨slotted.inside block member, .inr ⟨block, member, rfl⟩⟩
  have count := Finset.card_filter_add_card_filter_not (s := Finset.Icc 1 s.dgp.currentAslot)
    fun slot : Nat => Occupied blocks slot
  rw [taken, List.toFinset_card_of_nodup slotted.distinct, List.length_map, Nat.card_Icc,
    Nat.add_sub_cancel] at count
  rw [slotted.number]
  exact count.symm

end Chains

/-- On a chain whose blocks are checked against the schedule, the absolute slot is that of the
head's time and counts blocks and skipped slots, no two blocks are in one slot, and the times and
numbers of slots agree as long as the times can be told. -/
theorem slots_of_chain {liquid dollar : ShareType} {blocks : List SignedBlock} {state : ChainState}
    (chained : Chained (fun skip => skip.witnessScheduleCheck = false) (initGenesis liquid dollar)
      blocks state) :
    state.dgp.currentAslot = slotOf state.dgp.time ∧
      state.dgp.currentAslot =
        state.dgp.headBlockNumber + (skippedSlots blocks state.dgp.currentAslot).card ∧
      (blocks.map fun block => slotOf block.timestamp).Nodup ∧
      ∀ slot time, 1 ≤ slot → state.headSlotTime + slot * 3 < 4294967296 →
        (slot ≤ state.slotAtTime time ↔ state.slotTime slot ≤ time) := by
  have slotted := slotted_of_chained chained
  exact ⟨slotted.aslot, slotted.aslot_eq, slotted.distinct, fun _ _ => slotAtTime_iff⟩

/-- A first block that is some slots late. -/
def lateBlock (missed : Nat) : SignedBlock :=
  { genesisBlock default [] with timestamp := genesisTime + UInt32.ofNat (3 * missed + 4) }

theorem slots_of_lateBlock :
    ∃ state, applyBlock {} false (lateBlock 5) (initGenesis 1000 0) = .ok () state ∧
      state.dgp.currentAslot = 6 ∧
      state.dgp.currentAslot =
        state.dgp.headBlockNumber + (skippedSlots [lateBlock 5] state.dgp.currentAslot).card := by
  have finished : ∃ u state, applyBlock {} false (lateBlock 5) (initGenesis 1000 0) = .ok u state ∧
      state.dgp.currentAslot = 6 := by decide +kernel
  obtain ⟨_, state, applied, sixth⟩ := finished
  have chained : Chained (fun skip => skip.witnessScheduleCheck = false) (initGenesis 1000 0)
      [lateBlock 5] state := Chained.start.block {} false _ rfl applied
  exact ⟨state, applied, sixth, (slots_of_chain chained).2.1⟩

/-- The time of a slot in the far future comes out in the past. -/
theorem slotTime_wraps :
    ∃ slot time, 1 ≤ slot ∧ ¬ (slot ≤ (initGenesis 1000 0).slotAtTime time ↔
      (initGenesis 1000 0).slotTime slot ≤ time) :=
  ⟨843242966, genesisTime, by decide +kernel⟩

/-- The record of recent slots has the ones it is said to have; they are the slots that received a
block among the 128 before the slot of the head. -/
theorem participation_of_chain {liquid dollar : ShareType} {blocks : List SignedBlock}
    {state : ChainState}
    (chained : Chained (fun skip => skip.witnessScheduleCheck = false) (initGenesis liquid dollar)
      blocks state) :
    state.dgp.participationCount = ones state.dgp.recentSlotsFilled ∧
      state.dgp.participationCount = (List.range 128).countP fun age =>
        decide (Occupied blocks (state.dgp.currentAslot - 1 - (age : Nat))) := by
  have slotted := slotted_of_chained chained
  exact ⟨slotted.counted, slotted.counted.trans slotted.shown.ones_eq⟩

theorem participation_of_lateBlock :
    ∃ state, applyBlock {} false (lateBlock 5) (initGenesis 1000 0) = .ok () state ∧
      state.dgp.participationCount = 123 ∧
      123 = (List.range 128).countP fun age =>
        decide (Occupied [lateBlock 5] (state.dgp.currentAslot - 1 - (age : Nat))) := by
  have finished : ∃ u state, applyBlock {} false (lateBlock 5) (initGenesis 1000 0) = .ok u state ∧
      state.dgp.participationCount = 123 := by decide +kernel
  obtain ⟨_, state, applied, counted⟩ := finished
  have chained : Chained (fun skip => skip.witnessScheduleCheck = false) (initGenesis 1000 0)
      [lateBlock 5] state := Chained.start.block {} false _ rfl applied
  exact ⟨state, applied, counted, counted.symm.trans (participation_of_chain chained).2⟩

/-- After a long gap the head itself does not count. -/
theorem participation_after_gap :
    ∃ u state, applyBlock {} false (lateBlock 130) (initGenesis 1000 0) = .ok u state ∧
      state.dgp.participationCount = 0 ∧
      ((List.range 128).countP fun age =>
        decide (Occupied [lateBlock 130] (state.dgp.currentAslot - (age : Nat)))) = 1 := by
  decide +kernel

end Zattera
