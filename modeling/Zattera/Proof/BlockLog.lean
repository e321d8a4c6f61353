/-
This file is about opening a block log. The index is left alone when it ends with
the position of the last block, and is built again otherwise. Building it walks
over the log until it reads the position of the last block, and does not set out
at all when that position is zero: the index of a log of one block is lost.
-/

import Mathlib.Tactic.IntervalCases
import Zattera.Node.BlockLog

namespace Zattera

open Program Bytes

namespace BlockLog

variable {Block : Type} (format : BlockFormat Block)

/-! ### What the files hold -/

/-- The log of some blocks, the first of which starts at a position. -/
def logFrom : Nat → List Block → List UInt8
  | _, [] => []
  | pos, block :: rest =>
    format.pack block ++ (encode 8 pos ++ logFrom (pos + (format.pack block).length + 8) rest)

/-- The index of some blocks, the first of which starts at a position. -/
def indexFrom : Nat → List Block → List UInt8
  | _, [] => []
  | pos, block :: rest => encode 8 pos ++ indexFrom (pos + (format.pack block).length + 8) rest

/-- The position of the last block. -/
def lastFrom : Nat → List Block → Nat
  | pos, [] => pos
  | pos, [_] => pos
  | pos, block :: next :: rest => lastFrom (pos + (format.pack block).length + 8) (next :: rest)

variable {format} {blocks earlier later : List Block} {block : Block} {pos : Nat}

theorem logFrom_append : logFrom format pos (earlier ++ later) =
    logFrom format pos earlier ++
      logFrom format (pos + (logFrom format pos earlier).length) later := by
  induction earlier generalizing pos with
  | nil => rfl
  | cons block rest inductionHypothesis =>
    rw [List.cons_append, logFrom, logFrom, inductionHypothesis]
    simp only [List.append_assoc, List.length_append, length_encode, Nat.add_assoc]

theorem indexFrom_append : indexFrom format pos (earlier ++ later) =
    indexFrom format pos earlier ++
      indexFrom format (pos + (logFrom format pos earlier).length) later := by
  induction earlier generalizing pos with
  | nil => rfl
  | cons block rest inductionHypothesis =>
    rw [List.cons_append, indexFrom, indexFrom, inductionHypothesis, logFrom]
    simp only [List.append_assoc, List.length_append, length_encode, Nat.add_assoc]

theorem length_indexFrom : (indexFrom format pos blocks).length = 8 * blocks.length := by
  induction blocks generalizing pos with
  | nil => rfl
  | cons block rest inductionHypothesis =>
    rw [indexFrom, List.length_append, length_encode, inductionHypothesis, List.length_cons]
    omega

theorem lastFrom_append_singleton : lastFrom format pos (earlier ++ [block]) =
    pos + (logFrom format pos earlier).length := by
  induction earlier generalizing pos with
  | nil => rfl
  | cons first rest inductionHypothesis =>
    have next : lastFrom format pos (first :: (rest ++ [block])) =
        lastFrom format (pos + (format.pack first).length + 8) (rest ++ [block]) := by
      cases rest <;> rfl
    rw [List.cons_append, next, inductionHypothesis, logFrom]
    simp only [List.length_append, length_encode]
    omega

/-- The block at a position, in front of the position itself and of the later blocks. -/
theorem drop_logFrom : (logFrom format 0 (earlier ++ block :: later)).drop
      (logFrom format 0 earlier).length =
    format.pack block ++ (encode 8 (logFrom format 0 earlier).length ++
      logFrom format ((logFrom format 0 earlier).length + (format.pack block).length + 8)
        later) := by
  rw [logFrom_append, List.drop_left, Nat.zero_add, logFrom]

/-! ### Reading the files -/

theorem readPosition_append {before after : List UInt8} {place value : Nat}
    (starts : before.length = place) (fits : value < 18446744073709551616) :
    readPosition (before ++ (encode 8 value ++ after)) place = .ok value := by
  unfold readPosition
  rw [slice?_append starts (length_encode 8 value)]
  exact congrArg Except.ok (decode_encode fits)

/-- The last position in a file that ends with it. -/
theorem readLastPosition_append {before : List UInt8} {value : Nat}
    (fits : value < 18446744073709551616) :
    readLastPosition (before ++ encode 8 value) = .ok value := by
  have length : (before ++ encode 8 value).length = before.length + 8 := by simp
  unfold readLastPosition
  rw [if_pos (by omega), length, Nat.add_sub_cancel]
  have read := @readPosition_append before [] before.length value rfl fits
  rwa [List.append_nil] at read

theorem readLastPosition_log (fits : (logFrom format 0 (earlier ++ [block])).length <
    18446744073709551616) :
    readLastPosition (logFrom format 0 (earlier ++ [block])) =
      .ok (lastFrom format 0 (earlier ++ [block])) := by
  rw [lastFrom_append_singleton]
  rw [logFrom_append, logFrom, logFrom, List.append_nil, ← List.append_assoc] at fits ⊢
  refine readLastPosition_append ?_
  rw [List.length_append, List.length_append] at fits
  omega

theorem readLastPosition_index (fits : (logFrom format 0 (earlier ++ [block])).length <
    18446744073709551616) :
    readLastPosition (indexFrom format 0 (earlier ++ [block])) =
      .ok (lastFrom format 0 (earlier ++ [block])) := by
  rw [lastFrom_append_singleton]
  rw [logFrom_append, List.length_append] at fits
  rw [indexFrom_append, indexFrom, indexFrom, List.append_nil]
  exact readLastPosition_append (by omega)

theorem unpackBlock_pack {rest : List UInt8} :
    unpackBlock format (format.pack block ++ rest) = .ok (block, rest) := by
  unfold unpackBlock
  rw [format.unpack_pack]

/-! ### Building the index -/

theorem le_lastFrom : pos ≤ lastFrom format pos blocks := by
  induction blocks generalizing pos with
  | nil => exact Nat.le_refl _
  | cons block rest inductionHypothesis =>
    cases rest with
    | nil => exact Nat.le_refl _
    | cons next rest =>
      rw [lastFrom]
      exact Nat.le_trans (by omega) inductionHypothesis

/-- One turn of the loop. -/
theorem indexBlocks_turn {endPos fuel read : Nat} {tail : List UInt8} {log : BlockLog Block}
    (before : read < endPos) (fits : pos < 18446744073709551616) :
    indexBlocks format endPos (fuel + 1) (format.pack block ++ (encode 8 pos ++ tail)) read log =
      indexBlocks format endPos fuel tail pos
        { log with indexFile := log.indexFile ++ encode 8 pos } := by
  have position : readPosition (encode 8 pos ++ tail) 0 = .ok pos :=
    @readPosition_append [] tail 0 pos rfl fits
  have rest : (encode 8 pos ++ tail).drop 8 = tail := List.drop_left' (length_encode 8 pos)
  rw [indexBlocks, if_pos before, unpackBlock_pack, lift_ok_bind]
  dsimp only
  rw [position, lift_ok_bind, modify_bind, rest]

theorem indexBlocks_done {endPos fuel read : Nat} {tail : List UInt8} {log : BlockLog Block}
    (reached : endPos ≤ read) :
    indexBlocks format endPos (fuel + 1) tail read log = .ok () log := by
  rw [indexBlocks, if_neg (Nat.not_lt.mpr reached)]
  rfl

/-- The loop adds the index of the blocks it has in front of it. It goes on as long as the position
it has read is not that of the last block. -/
theorem indexBlocks_eq_ok {fuel read : Nat} {log : BlockLog Block} {rest : List Block}
    (enough : (logFrom format pos (block :: rest)).length < fuel)
    (before : read < lastFrom format pos (block :: rest))
    (fits : pos + (logFrom format pos (block :: rest)).length < 18446744073709551616) :
    indexBlocks format (lastFrom format pos (block :: rest)) fuel
        (logFrom format pos (block :: rest)) read log =
      .ok () { log with
        indexFile := log.indexFile ++ indexFrom format pos (block :: rest) } := by
  induction rest generalizing pos block fuel read log with
  | nil =>
    have length : (logFrom format pos [block]).length = (format.pack block).length + 8 := by
      rw [logFrom, logFrom, List.append_nil, List.length_append, length_encode]
    obtain ⟨fuel, rfl⟩ : ∃ further, fuel = further + 1 + 1 := ⟨fuel - 2, by omega⟩
    rw [logFrom, indexBlocks_turn before (by omega)]
    refine (indexBlocks_done (Nat.le_refl _)).trans ?_
    rw [indexFrom, indexFrom, List.append_nil]
  | cons next rest inductionHypothesis =>
    rw [logFrom, List.length_append, List.length_append, length_encode] at enough fits
    obtain ⟨fuel, rfl⟩ : ∃ further, fuel = further + 1 := ⟨fuel - 1, by omega⟩
    have ahead : pos < lastFrom format (pos + (format.pack block).length + 8) (next :: rest) :=
      Nat.lt_of_lt_of_le (by omega) le_lastFrom
    rw [logFrom.eq_2 format pos block, indexBlocks_turn before (by omega)]
    refine (inductionHypothesis (by omega) ahead (by omega)).trans ?_
    rw [indexFrom.eq_2 format pos block, List.append_assoc]

/-- The index that is built from the log: nothing where the log holds a single block. -/
theorem constructIndex_eq_ok {index : List UInt8} {head : Option Block}
    (fits : (logFrom format 0 (earlier ++ [block])).length < 18446744073709551616) :
    constructIndex format ⟨logFrom format 0 (earlier ++ [block]), index, head⟩ =
      .ok () ⟨logFrom format 0 (earlier ++ [block]),
        if earlier = [] then [] else indexFrom format 0 (earlier ++ [block]), head⟩ := by
  unfold constructIndex
  rw [modify_bind, get_bind, readLastPosition_log fits, lift_ok_bind]
  cases earlier with
  | nil => exact indexBlocks_done (Nat.zero_le _)
  | cons first rest =>
    have ahead : 0 < lastFrom format 0 (first :: rest ++ [block]) := by
      rw [lastFrom_append_singleton, logFrom]
      simp only [List.length_append, length_encode]
      omega
    exact indexBlocks_eq_ok (Nat.lt_succ_self _) ahead (by rwa [Nat.zero_add])

/-! ### Opening the log -/

theorem readHead_eq_ok {index : List UInt8} {head : Option Block}
    (fits : (logFrom format 0 (earlier ++ [block])).length < 18446744073709551616) :
    readHead format ⟨logFrom format 0 (earlier ++ [block]), index, head⟩ =
      .ok block ⟨logFrom format 0 (earlier ++ [block]), index, head⟩ := by
  unfold readHead readBlockHelper
  rw [get_bind, readLastPosition_log fits, lift_ok_bind, lastFrom_append_singleton, Nat.zero_add]
  simp only [bind_assoc, get_bind]
  rw [drop_logFrom, unpackBlock_pack, lift_ok_bind]
  rfl

theorem logFrom_ne_nil : (logFrom format 0 (earlier ++ [block])).length ≠ 0 := by
  rw [logFrom_append, logFrom]
  simp only [List.length_append, length_encode]
  omega

/-- An index that ends with the position of the last block is left alone. -/
theorem openFiles_of_same {index : List UInt8}
    (fits : (logFrom format 0 (earlier ++ [block])).length < 18446744073709551616)
    (same : readLastPosition index = .ok (lastFrom format 0 (earlier ++ [block]))) :
    openFiles format ⟨logFrom format 0 (earlier ++ [block]), index, none⟩ =
      .ok () ⟨logFrom format 0 (earlier ++ [block]), index, some block⟩ := by
  have filled : index.length ≠ 0 := by
    intro nothing
    rw [readLastPosition, nothing] at same
    cases same
  unfold openFiles
  rw [get_bind, if_pos logFrom_ne_nil, bind_of_ok (readHead_eq_ok fits), modify_bind,
    if_pos filled, readLastPosition_log fits, lift_ok_bind, same, lift_ok_bind,
    if_neg (Nat.lt_irrefl _), if_neg (Nat.lt_irrefl _)]
  rfl

/-- Any other index is built again. -/
theorem openFiles_of_other {index : List UInt8}
    (fits : (logFrom format 0 (earlier ++ [block])).length < 18446744073709551616)
    (other : index = [] ∨ ∃ indexPos, readLastPosition index = .ok indexPos ∧
      indexPos ≠ lastFrom format 0 (earlier ++ [block])) :
    openFiles format ⟨logFrom format 0 (earlier ++ [block]), index, none⟩ =
      .ok () ⟨logFrom format 0 (earlier ++ [block]),
        if earlier = [] then [] else indexFrom format 0 (earlier ++ [block]), some block⟩ := by
  unfold openFiles
  rw [get_bind, if_pos logFrom_ne_nil, bind_of_ok (readHead_eq_ok fits), modify_bind]
  rcases other with rfl | ⟨indexPos, read, different⟩
  · rw [if_neg (by simp)]
    exact constructIndex_eq_ok fits
  · have filled : index.length ≠ 0 := by
      intro nothing
      rw [readLastPosition, nothing] at read
      cases read
    rw [if_pos filled, readLastPosition_log fits, lift_ok_bind, read, lift_ok_bind]
    split
    · exact constructIndex_eq_ok fits
    · rw [if_pos (by omega)]
      exact constructIndex_eq_ok fits

/-! ### Reading blocks by their numbers -/

variable (format) in
/-- The blocks are numbered from one on. -/
def Numbered (blocks : List Block) : Prop :=
  ∀ place block, blocks[place]? = some block → format.blockNum block = place + 1

theorem Numbered.blockNum (numbered : Numbered format (earlier ++ block :: later)) :
    format.blockNum block = earlier.length + 1 := by
  refine numbered earlier.length block ?_
  rw [List.getElem?_append_right (Nat.le_refl _), Nat.sub_self, List.getElem?_cons_zero]

theorem Numbered.left (numbered : Numbered format (earlier ++ later)) :
    Numbered format earlier := by
  intro place block found
  refine numbered place block ?_
  rw [List.getElem?_append_left (List.getElem?_eq_some_iff.mp found).1]
  exact found

/-- A block, by the number of a block log. -/
def blockAt (blocks : List Block) (blockNum : Nat) : Option Block :=
  if blockNum = 0 then none else blocks[blockNum - 1]?

variable (format) in
/-- The log returns every one of the blocks under its number, and nothing under other numbers. -/
def Serves (blocks : List Block) (log : BlockLog Block) : Prop :=
  ∀ blockNum, readBlockByNum format blockNum log = .ok (blockAt blocks blockNum) log

theorem readBlockByNum_of_pos {log : BlockLog Block}
    (fits : (logFrom format 0 (earlier ++ block :: later)).length < 18446744073709551616)
    (numbered : Numbered format (earlier ++ block :: later))
    (blockFile : log.blockFile = logFrom format 0 (earlier ++ block :: later))
    (indexFile : log.indexFile = indexFrom format 0 (earlier ++ block :: later))
    (head : log.head = (earlier ++ block :: later).getLast?) :
    readBlockByNum format (earlier.length + 1) log = .ok (some block) log := by
  have number := numbered.blockNum
  obtain ⟨before, last, split⟩ : ∃ before last, earlier ++ block :: later = before ++ [last] :=
    ⟨_, _, (List.dropLast_append_getLast (by simp)).symm⟩
  have within : log.head.any
      (fun head => decide (earlier.length + 1 ≤ format.blockNum head)) ∧ 0 < earlier.length + 1 := by
    have length := congrArg List.length split
    rw [split] at numbered
    rw [head, split, List.getLast?_concat, Option.any_some, numbered.blockNum]
    simp only [List.length_append, List.length_cons, List.length_nil] at length
    exact ⟨decide_eq_true (by omega), Nat.succ_pos _⟩
  have length : (logFrom format 0 earlier).length + 8 ≤
      (logFrom format 0 (earlier ++ block :: later)).length := by
    rw [logFrom_append, logFrom]
    simp only [List.length_append, length_encode]
    omega
  have position : readPosition log.indexFile (8 * (earlier.length + 1 - 1)) =
      .ok (logFrom format 0 earlier).length := by
    rw [indexFile, indexFrom_append, indexFrom, Nat.zero_add]
    exact readPosition_append length_indexFrom (by omega)
  unfold readBlockByNum getBlockPosHelper readBlockHelper
  simp only [bind_assoc, get_bind]
  rw [if_pos within, position, bind_assoc, lift_ok_bind, pure_bind, if_neg (by omega)]
  dsimp only
  rw [get_bind, blockFile, drop_logFrom, unpackBlock_pack, lift_ok_bind]
  dsimp only
  rw [pure_bind, require_of number]
  rfl

theorem serves_of_files {log : BlockLog Block} (filled : blocks ≠ [])
    (fits : (logFrom format 0 blocks).length < 18446744073709551616)
    (numbered : Numbered format blocks) (blockFile : log.blockFile = logFrom format 0 blocks)
    (indexFile : log.indexFile = indexFrom format 0 blocks) (head : log.head = blocks.getLast?) :
    Serves format blocks log := by
  intro blockNum
  have outside (beyond : ¬ (log.head.any (fun head => decide (blockNum ≤ format.blockNum head)) ∧
      0 < blockNum)) : readBlockByNum format blockNum log = .ok none log := by
    unfold readBlockByNum getBlockPosHelper
    rw [bind_assoc, get_bind, if_neg beyond, pure_bind]
    rfl
  unfold blockAt
  split
  · next zero => exact outside fun within => absurd within.2 (by omega)
  · next positive =>
    cases found : blocks[blockNum - 1]? with
    | some block =>
      obtain ⟨within, rfl⟩ := List.getElem?_eq_some_iff.mp found
      have split : blocks = blocks.take (blockNum - 1) ++
          blocks[blockNum - 1] :: blocks.drop (blockNum - 1 + 1) := by
        rw [← List.drop_eq_getElem_cons within, List.take_append_drop]
      have length : (blocks.take (blockNum - 1)).length + 1 = blockNum := by
        rw [List.length_take]
        omega
      rw [split] at fits numbered blockFile indexFile head
      have read := readBlockByNum_of_pos fits numbered blockFile indexFile head
      rwa [length] at read
    | none =>
      refine outside fun within => ?_
      obtain ⟨before, last, rfl⟩ : ∃ before last, blocks = before ++ [last] :=
        ⟨_, _, (List.dropLast_append_getLast filled).symm⟩
      rw [head, List.getLast?_concat, Option.any_some, numbered.blockNum, decide_eq_true_eq]
        at within
      rw [List.getElem?_eq_none_iff, List.length_append, List.length_singleton] at found
      omega

/-! ### The index after opening -/

variable (format) in
/-- Opening a log of these blocks with this index file makes the index complete: every block can be
read, and so after the next block has been appended. -/
def Reopens (blocks : List Block) (next : Block) (index : List UInt8) : Prop :=
  ∃ log, openFiles format ⟨logFrom format 0 blocks, index, none⟩ = .ok () log ∧
    log.indexFile = indexFrom format 0 blocks ∧ Serves format blocks log ∧
    ∃ pos after, append format next log = .ok pos after ∧
      Serves format (blocks ++ [next]) after

variable (format) in
/-- The index files in question: the first entries of the index, or a file that is longer than it. -/
def IsStale (blocks : List Block) (index : List UInt8) : Prop :=
  (∃ entries, index = (indexFrom format 0 blocks).take (8 * entries)) ∨
    (indexFrom format 0 blocks).length < index.length

variable {next : Block} {index : List UInt8}

theorem append_eq_ok {log : BlockLog Block}
    (position : log.indexFile.length = 8 * (format.blockNum next - 1)) :
    append format next log = .ok log.blockFile.length
      ⟨log.blockFile ++ (format.pack next ++ encode 8 log.blockFile.length),
        log.indexFile ++ encode 8 log.blockFile.length, some next⟩ := by
  unfold append
  rw [get_bind, require_of position, pure_bind]
  rfl

theorem reopens_of_index (filled : blocks ≠ [])
    (numbered : Numbered format (blocks ++ [next]))
    (fits : (logFrom format 0 (blocks ++ [next])).length < 18446744073709551616)
    (opened : openFiles format ⟨logFrom format 0 blocks, index, none⟩ =
      .ok () ⟨logFrom format 0 blocks, indexFrom format 0 blocks, blocks.getLast?⟩) :
    Reopens format blocks next index := by
  have fitsBefore : (logFrom format 0 blocks).length < 18446744073709551616 := by
    rw [logFrom_append, List.length_append] at fits
    omega
  refine ⟨_, opened, rfl, serves_of_files filled fitsBefore numbered.left rfl rfl rfl, ?_⟩
  have position : (indexFrom format 0 blocks).length = 8 * (format.blockNum next - 1) := by
    rw [length_indexFrom, numbered.blockNum, Nat.add_sub_cancel]
  refine ⟨_, _, append_eq_ok position, serves_of_files (by simp) fits numbered ?_ ?_ ?_⟩
  · rw [logFrom_append, logFrom, logFrom, List.append_nil, Nat.zero_add]
  · rw [indexFrom_append, indexFrom, indexFrom, List.append_nil, Nat.zero_add]
  · rw [List.getLast?_concat]

/-- Of the first entries of the index, only all of them end with the last position. -/
theorem other_of_prefix {entries : Nat}
    (fits : (logFrom format 0 (earlier ++ [block])).length < 18446744073709551616)
    (stale : index = (indexFrom format 0 (earlier ++ [block])).take (8 * entries)) :
    index = indexFrom format 0 (earlier ++ [block]) ∨ index = [] ∨
      ∃ indexPos, readLastPosition index = .ok indexPos ∧
        indexPos ≠ lastFrom format 0 (earlier ++ [block]) := by
  rcases Nat.lt_or_ge earlier.length entries with whole | less
  · refine .inl (stale.trans (List.take_of_length_le ?_))
    rw [length_indexFrom, List.length_append, List.length_singleton]
    omega
  · have taken : index = indexFrom format 0 (earlier.take entries) := by
      have split : earlier ++ [block] = earlier.take entries ++ (earlier.drop entries ++ [block]) := by
        rw [← List.append_assoc, List.take_append_drop]
      rw [stale, split, indexFrom_append]
      refine List.take_left' ?_
      rw [length_indexFrom, List.length_take, Nat.min_eq_left less]
    rcases List.eq_nil_or_concat (earlier.take entries) with nothing | ⟨before, last, isLast⟩
    · rw [nothing] at taken
      exact .inr (.inl taken)
    · have split : earlier = before ++ [last] ++ earlier.drop entries := by
        rw [← List.concat_eq_append, ← isLast, List.take_append_drop]
      have grows : (logFrom format 0 before).length + 8 ≤ (logFrom format 0 earlier).length := by
        rw [split, logFrom_append, logFrom_append, logFrom]
        simp only [List.length_append, length_encode]
        omega
      rw [logFrom_append, List.length_append] at fits
      rw [isLast, List.concat_eq_append, indexFrom_append, indexFrom, indexFrom, List.append_nil,
        Nat.zero_add] at taken
      refine .inr (.inr ⟨(logFrom format 0 before).length, ?_, ?_⟩)
      · rw [taken]
        exact readLastPosition_append (by omega)
      · rw [lastFrom_append_singleton]
        omega

theorem exists_readLastPosition (long : 8 ≤ index.length) :
    ∃ indexPos, readLastPosition index = .ok indexPos := by
  unfold readLastPosition readPosition slice?
  rw [if_pos long, if_pos (by omega)]
  exact ⟨_, rfl⟩

/-- What a stale index is: right, empty, ending with another position than that of the last block, or
too long in spite of ending with it. -/
theorem IsStale.cases (stale : IsStale format (earlier ++ [block]) index)
    (fits : (logFrom format 0 (earlier ++ [block])).length < 18446744073709551616) :
    index = indexFrom format 0 (earlier ++ [block]) ∨
      (index = [] ∨ ∃ indexPos, readLastPosition index = .ok indexPos ∧
        indexPos ≠ lastFrom format 0 (earlier ++ [block])) ∨
      ((indexFrom format 0 (earlier ++ [block])).length < index.length ∧
        readLastPosition index = .ok (lastFrom format 0 (earlier ++ [block]))) := by
  rcases stale with ⟨entries, isPrefix⟩ | longer
  · rcases other_of_prefix fits isPrefix with whole | other
    · exact .inl whole
    · exact .inr (.inl other)
  · obtain ⟨indexPos, read⟩ : ∃ indexPos, readLastPosition index = .ok indexPos := by
      refine exists_readLastPosition ?_
      rw [length_indexFrom, List.length_append, List.length_singleton] at longer
      omega
    by_cases same : indexPos = lastFrom format 0 (earlier ++ [block])
    · subst same
      exact .inr (.inr ⟨longer, read⟩)
    · exact .inr (.inl (.inr ⟨indexPos, read, same⟩))

/-- Opening makes the index complete exactly when it was right before, or when there are two blocks
or more and an index that is too long does not end with the position of the last one. -/
theorem reopens_iff (filled : blocks ≠ []) (numbered : Numbered format (blocks ++ [next]))
    (fits : (logFrom format 0 (blocks ++ [next])).length < 18446744073709551616)
    (stale : IsStale format blocks index) :
    Reopens format blocks next index ↔
      index = indexFrom format 0 blocks ∨
        (2 ≤ blocks.length ∧ ((indexFrom format 0 blocks).length < index.length →
          readLastPosition index ≠ .ok (lastFrom format 0 blocks))) := by
  obtain ⟨earlier, block, rfl⟩ : ∃ earlier block, blocks = earlier ++ [block] :=
    ⟨_, _, (List.dropLast_append_getLast filled).symm⟩
  have fitsBefore : (logFrom format 0 (earlier ++ [block])).length < 18446744073709551616 := by
    rw [logFrom_append, List.length_append] at fits
    omega
  have head : (earlier ++ [block]).getLast? = some block := List.getLast?_concat
  have count : 2 ≤ (earlier ++ [block]).length ↔ earlier ≠ [] := by
    rw [List.length_append, List.length_singleton, ← List.length_pos_iff]
    omega
  rcases stale.cases fitsBefore with whole | other | ⟨longer, same⟩
  · -- the index is right and stays as it is
    refine iff_of_true (reopens_of_index filled numbered fits ?_) (.inl whole)
    rw [whole, head]
    exact openFiles_of_same fitsBefore (readLastPosition_index fitsBefore)
  · -- the index is built again, which loses it where there is one block
    have opened := openFiles_of_other fitsBefore other
    constructor
    · rintro ⟨log, openedToo, complete, _⟩
      rw [opened] at openedToo
      cases openedToo
      have several : earlier ≠ [] := by
        rintro rfl
        have length := congrArg List.length complete
        rw [if_pos rfl, length_indexFrom] at length
        cases length
      refine .inr ⟨count.mpr several, fun longer same => ?_⟩
      rcases other with rfl | ⟨indexPos, read, different⟩
      · cases longer
      · rw [read] at same
        cases same
        exact different rfl
    · rintro (whole | ⟨several, _⟩)
      · refine reopens_of_index filled numbered fits ?_
        rw [whole, head]
        exact openFiles_of_same fitsBefore (readLastPosition_index fitsBefore)
      · refine reopens_of_index filled numbered fits ?_
        rw [opened, if_neg (count.mp several), head]
  · -- the index is too long and stays as it is
    refine iff_of_false ?_ ?_
    · rintro ⟨log, opened, complete, _⟩
      rw [openFiles_of_same fitsBefore same] at opened
      cases opened
      change index = _ at complete
      rw [complete] at longer
      exact absurd longer (Nat.lt_irrefl _)
    · rintro (whole | ⟨_, differs⟩)
      · rw [whole] at longer
        exact absurd longer (Nat.lt_irrefl _)
      · exact differs longer same

/-- Blocks of which there is nothing but the number. -/
def bareBlocks : BlockFormat UInt32 := { Codec.uint32 with blockNum := UInt32.toNat }

/-- Two blocks, of which the index knows the first. -/
theorem two_blocks_reopen :
    Reopens bareBlocks [1, 2] 3 ((indexFrom bareBlocks 0 [1, 2]).take 8) := by
  have numbered : Numbered bareBlocks ([1, 2] ++ [3]) := by
    intro place block found
    obtain ⟨within, rfl⟩ := List.getElem?_eq_some_iff.mp found
    change place < 3 at within
    interval_cases place <;> rfl
  exact (reopens_iff (by decide) numbered (by decide) (.inl ⟨1, rfl⟩)).mpr
    (.inr ⟨by decide, fun longer => absurd longer (by decide)⟩)

/-- One block, and an empty index: it stays empty, and the block cannot be read. -/
theorem one_block_lost : IsStale bareBlocks [1] [] ∧ ¬ Reopens bareBlocks [1] 2 [] ∧
    ∃ log, openFiles bareBlocks ⟨logFrom bareBlocks 0 [1], [], none⟩ = .ok () log ∧
      log.indexFile = [] ∧ readBlockByNum bareBlocks 1 log = .error streamError log := by
  refine ⟨.inl ⟨0, rfl⟩, ?_, _, rfl, rfl, rfl⟩
  rintro ⟨log, opened, complete, _⟩
  cases opened
  cases complete

/-! ### Writing a log -/

theorem forM_append_eq_ok (numbered : Numbered format (earlier ++ later)) :
    forM later (fun block => discard (append format block))
      ⟨logFrom format 0 earlier, indexFrom format 0 earlier, earlier.getLast?⟩ =
        .ok () ⟨logFrom format 0 (earlier ++ later), indexFrom format 0 (earlier ++ later),
          (earlier ++ later).getLast?⟩ := by
  induction later generalizing earlier with
  | nil =>
    rw [List.append_nil]
    rfl
  | cons block later inductionHypothesis =>
    have position : (indexFrom format 0 earlier).length = 8 * (format.blockNum block - 1) := by
      rw [length_indexFrom, numbered.blockNum, Nat.add_sub_cancel]
    rw [List.append_cons] at numbered ⊢
    rw [← inductionHypothesis numbered, List.forM_cons,
      bind_of_ok (discard_eq_ok (u := ()).mpr ⟨_, append_eq_ok position⟩), logFrom_append,
      indexFrom_append, List.getLast?_concat, logFrom, logFrom, indexFrom, indexFrom,
      List.append_nil, Nat.zero_add]

/-- Blocks that are appended to an empty log can all be read, each under its number. -/
theorem appended_serves (filled : blocks ≠ []) (numbered : Numbered format blocks)
    (fits : (logFrom format 0 blocks).length < 18446744073709551616) :
    ∃ log, forM blocks (fun block => discard (append format block)) ⟨[], [], none⟩ = .ok () log ∧
      Serves format blocks log :=
  ⟨_, @forM_append_eq_ok _ _ [] blocks numbered,
    serves_of_files filled fits numbered rfl rfl rfl⟩

theorem bareBlocks_serve : ∃ log, forM [1, 2] (fun block => discard (append bareBlocks block))
      ⟨[], [], none⟩ = .ok () log ∧ Serves bareBlocks [1, 2] log := by
  refine appended_serves (by decide) (fun place block found => ?_) (by decide)
  obtain ⟨within, rfl⟩ := List.getElem?_eq_some_iff.mp found
  change place < 2 at within
  interval_cases place <;> rfl

end BlockLog

end Zattera
