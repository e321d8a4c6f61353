/-
This file models the block log: a file of packed blocks, each followed by the
position at which it starts, and an index file of these positions alone. The
streams are taken as arrays of bytes; whether a stream is open for reading or for
appending makes no difference to them. A read past the end of a file throws.
-/

import Zattera.Lib.Bytes
import Zattera.Protocol.Amount

namespace Zattera

open Program Bytes

/-- What the log needs to know of blocks: how they are packed, and their numbers. -/
structure BlockFormat (Block : Type) extends Codec Block where
  blockNum : Block → Nat

/-- `block_log_impl`. The id of the head is not kept apart: only its number is used. -/
structure BlockLog (Block : Type) where
  blockFile : List UInt8
  indexFile : List UInt8
  head : Option Block

namespace BlockLog

variable {Block : Type}

abbrev LogM (Block : Type) := EStateM ChainError (BlockLog Block)

/-- What a stream throws when an operation on it fails. -/
def streamError : ChainError := .assertion "basic_ios::clear: iostream error"

/-- Read a position from a file, in eight bytes. -/
def readPosition (file : List UInt8) (position : Nat) : Except ChainError Nat :=
  match slice? file position 8 with
  | some piece => .ok (decode piece)
  | none => .error streamError

/-- Read the last eight bytes of a file; a seek to before its beginning throws. -/
def readLastPosition (file : List UInt8) : Except ChainError Nat :=
  if 8 ≤ file.length then readPosition file (file.length - 8) else .error streamError

variable (format : BlockFormat Block)

/-- `fc::raw::unpack` from a stream; what is left of the stream is returned as well. -/
def unpackBlock (rest : List UInt8) : Except ChainError (Block × List UInt8) :=
  match format.unpack rest with
  | some unpacked => .ok unpacked
  | none => .error streamError

/-- `read_block_helper`. The second result is the position of the next block. -/
def readBlockHelper (pos : Nat) : LogM Block (Block × Nat) := do
  let log ← get
  let (block, rest) ← unpackBlock format (log.blockFile.drop pos)
  return (block, log.blockFile.length - rest.length + 8)

/-- `read_head` -/
def readHead : LogM Block Block := do
  let pos ← readLastPosition (← get).blockFile
  let (block, _) ← readBlockHelper format pos
  return block

/-- The loop of `construct_index`. It ends when the position it has read last is not below that of
the last block; every turn reads at least the eight bytes of a position. -/
def indexBlocks (endPos : Nat) : Nat → List UInt8 → Nat → LogM Block Unit
  | 0, _, _ => throw .diverges
  | fuel + 1, rest, pos =>
    if pos < endPos then do
      let (_, rest) ← unpackBlock format rest
      let pos ← readPosition rest 0
      modify fun log => { log with indexFile := log.indexFile ++ encode 8 pos }
      indexBlocks endPos fuel (rest.drop 8) pos
    else return ()

/-- `construct_index` -/
def constructIndex : LogM Block Unit := do
  modify fun log => { log with indexFile := [] }
  let log ← get
  let endPos ← readLastPosition log.blockFile
  indexBlocks format endPos (log.blockFile.length + 1) log.blockFile 0

/-- `open`, once the files are there -/
def openFiles : LogM Block Unit := do
  let log ← get
  if log.blockFile.length ≠ 0 then do
    let head ← readHead format
    modify fun log => { log with head := some head }
    if log.indexFile.length ≠ 0 then do
      let blockPos ← readLastPosition log.blockFile
      let indexPos ← readLastPosition log.indexFile
      if blockPos < indexPos then constructIndex format
      else if indexPos < blockPos then constructIndex format
      else return ()
    else constructIndex format
  else whenever (log.indexFile.length ≠ 0) do
    modify fun log => { log with indexFile := [] }

/-- `append` -/
def append (block : Block) : LogM Block Nat := do
  let log ← get
  let pos := log.blockFile.length
  require (log.indexFile.length = 8 * (format.blockNum block - 1))
    (.assertion "Append to index file occuring at wrong position.")
  set (BlockLog.mk (log.blockFile ++ (format.pack block ++ encode 8 pos))
    (log.indexFile ++ encode 8 pos) (some block))
  return pos

/-- `get_block_pos_helper`; nothing stands for `npos`. -/
def getBlockPosHelper (blockNum : Nat) : LogM Block (Option Nat) := do
  let log ← get
  if log.head.any (fun head => decide (blockNum ≤ format.blockNum head)) ∧ 0 < blockNum then do
    let pos ← readPosition log.indexFile (8 * (blockNum - 1))
    return if pos = 18446744073709551615 then none else some pos
  else return none

/-- `read_block_by_num` -/
def readBlockByNum (blockNum : Nat) : LogM Block (Option Block) := do
  let pos ← getBlockPosHelper format blockNum
  match pos with
  | none => return none
  | some pos => do
    let (block, _) ← readBlockHelper format pos
    require (format.blockNum block = blockNum)
      (.assertion "Wrong block was read from block log.")
    return some block

end BlockLog

end Zattera
