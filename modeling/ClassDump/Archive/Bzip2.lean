import ClassDump.Archive.BitReader
import ClassDump.Archive.BlockSort

/-! Reading block-sorted data: blocks of sorted text, given as ranks of recently used bytes under several prefix codes
that take turns, each block with a check of its own and the whole with one over these. -/

namespace ClassDump.Archive.Bzip2

/-- What is wrong with block-sorted data. -/
inductive Fault where
  | signature
  | blockSignature
  | origin
  | noBytes
  | codeCount
  | noSelectors
  | selector
  | codeLength
  | selectorsUsedUp
  | symbol
  | runLength
  | blockSize
  | repetitions
  | blockChecksum
  | checksum
deriving DecidableEq, Repr

def Fault.text (_fault : Fault) : String :=
  "Invalid data stream"

abbrev Reader := BitReader Fault

open BitReader

/-- The check over a text, one bit further: the most significant bit leaves first. -/
def checkShift (register : UInt32) : UInt32 :=
  if register &&& 0x80000000 = 0 then register <<< 1 else (register <<< 1) ^^^ 0x04C11DB7

def checkByte (register : UInt32) (b : UInt8) : UInt32 :=
  let start := register ^^^ (b.toUInt32 <<< 24)
  let after4 := checkShift (checkShift (checkShift (checkShift start)))
  checkShift (checkShift (checkShift (checkShift after4)))

def textCheck (text : Array UInt8) : UInt32 :=
  text.foldl checkByte 0xFFFFFFFF ^^^ 0xFFFFFFFF

/-- The check over the blocks, one block further. -/
def addCheck (checks check : UInt32) : UInt32 :=
  ((checks <<< 1) ||| (checks >>> 31)) ^^^ check

def expect (fault : Fault) : List Nat → Reader Unit
  | [] => return ()
  | b :: rest => do
    if (← highNumber 8) ≠ b then throw (.fault fault)
    expect fault rest

/-- The bytes that a block uses, by the marks of the groups of sixteen that have any. -/
def usedBytes : List (Bool × Nat) → Reader (List UInt8)
  | [] => return []
  | (marked, group) :: rest => do
    let marks ← if marked then flags 16 else pure []
    let used := (marks.zipIdx.filter (·.1)).map fun mark => UInt8.ofNat (16 * group + mark.2)
    return used ++ (← usedBytes rest)

/-- The rank of a code among the recently used ones, of which there are so many. -/
def selectorRank : Nat → Reader Nat
  | 0 => throw (.fault .selector)
  | more + 1 => do
    if ← bit then
      let rank ← selectorRank more
      return rank + 1
    else return 0

/-- The codes in the order in which they take turns, by their numbers. -/
def selectors (codeCount : Nat) : Nat → List Nat → Array Nat → Reader (Array Nat)
  | 0, _, found => return found
  | count + 1, latest, found => do
    match toFront (← selectorRank codeCount) latest with
    | none => throw (.fault .selector)
    | some (number, latest) => selectors codeCount count latest (found.push number)

/-- The most turns that count; more of them are passed over. -/
def selectorsMax : Nat := 18002

def maxLength : Nat := 20

/-- The length of a symbol's code, given by steps up and down from a length. Every step takes bits, so as many steps
suffice as there are bits. -/
def codeLength : Nat → Nat → Reader Nat
  | 0, _ => throw .ended
  | steps + 1, length => do
    if length < 1 ∨ maxLength < length then throw (.fault .codeLength)
    if ← bit then
      let down ← bit
      codeLength steps (if down then length - 1 else length + 1)
    else return length

/-- The lengths of the codes of so many symbols, each given from the one before. -/
def codeLengths (steps : Nat) : Nat → Nat → List Nat → Reader (List Nat)
  | 0, _, lengths => return lengths.reverse
  | count + 1, previous, lengths => do
    let length ← codeLength steps previous
    codeLengths steps count length (length :: lengths)

def codes (steps symbolCount : Nat) : Nat → Reader (List PrefixCode)
  | 0 => return []
  | count + 1 => do
    let start ← highNumber 5
    let lengths ← codeLengths steps symbolCount start []
    let rest ← codes steps symbolCount count
    return PrefixCode.ofLengths maxLength lengths :: rest

/-- The symbol whose code the next bits are. `first` is the first code of the length at hand and `index` the place of
its symbol. That no symbol has the bits shows one bit after the longest code. -/
def symbolFrom (code : PrefixCode) : List Nat → Nat → Nat → Nat → Reader Nat
  | [], _, _, _ => do
    let _ ← bit
    throw (.fault .symbol)
  | count :: longer, prior, first, index => do
    let value := prior + (if ← bit then 1 else 0)
    if value < first + count then
      match code.symbols[index + (value - first)]? with
      | some symbol => return symbol
      | none => throw (.fault .symbol)
    else symbolFrom code longer (2 * value) (2 * (first + count)) (index + count)

/-- The codes still to be used, the one at hand first, and the symbols that it was used for. -/
structure Turns where
  codes : List PrefixCode
  used : Nat := 0

/-- The symbols that a code is used for in a turn. -/
def turnLength : Nat := 50

def Turns.symbol (turns : Turns) : Reader (Nat × Turns) := do
  let turns := if turns.used = turnLength then { codes := turns.codes.drop 1 } else turns
  match turns.codes with
  | [] => throw (.fault .selectorsUsedUp)
  | code :: _ =>
    let symbol ← symbolFrom code code.counts 0 0 0
    return (symbol, { turns with used := turns.used + 1 })

/-- A run of the latest byte, whose length is written with the digits one and two, the least significant first, and the
weight of the next digit. -/
structure Run where
  length : Nat := 0
  weight : Nat := 1
deriving DecidableEq, Repr

/-- The weight that no digit of a run may have. -/
def weightBound : Nat := 2097152

/-- The sorted bytes of a block: symbols are digits of a run of the latest byte, ranks of other bytes, or the end. Every
symbol takes at least one bit, so as many steps suffice as there are bits. -/
def sortedBytes (limit endSymbol : Nat) : Nat → Turns → List UInt8 → Run → Array UInt8 → Reader (Array UInt8)
  | 0, _, _, _, _ => throw .ended
  | steps + 1, turns, latest, run, bytes => do
    let (symbol, turns) ← turns.symbol
    if symbol < 2 then
      if weightBound ≤ run.weight then throw (.fault .runLength)
      sortedBytes limit endSymbol steps turns latest
        ⟨run.length + (symbol + 1) * run.weight, 2 * run.weight⟩ bytes
    else
      if limit < bytes.size + run.length then throw (.fault .blockSize)
      let bytes := bytes ++ Array.replicate run.length (latest.headD 0)
      if symbol = endSymbol then return bytes
      if limit ≤ bytes.size then throw (.fault .blockSize)
      match toFront (symbol - 1) latest with
      | none => throw (.fault .symbol)
      | some (b, latest) => sortedBytes limit endSymbol steps turns latest { } (bytes.push b)

/-- The bytes that a block may have for each unit of the announced size. -/
def sizeUnit : Nat := 100000

/-- The room that is made for the output, piece by piece as the ones before are full. -/
def roomPieces : List Nat :=
  [32768, 65536, 262144, 1048576, 4194304, 8388608, 16777216]

/-- The room left in the last piece that is needed for so much output. -/
def roomLeft : List Nat → Nat → Nat
  | [], _ => 0
  | piece :: more, size => if size ≤ piece then piece - size else roomLeft more (size - piece)

/-- Adds the text of a block to the output. Of a block after which the data end only as much counts as there is room
for, and what does not count is not checked. -/
def emitText (check : UInt32) (runs : BlockSort.Runs) : Reader Unit := do
  let state ← get
  let room := roomLeft roomPieces state.output.size
  if state.bits.length < 8 ∧ room < runs.text.size then
    set { state with output := state.output ++ runs.text.extract 0 room }
    throw .ended
  if !runs.isComplete then throw (.fault .repetitions)
  if textCheck runs.text ≠ check then throw (.fault .blockChecksum)
  set { state with output := state.output ++ runs.text }

def block (size steps : Nat) : Reader UInt32 := do
  let check := UInt32.ofNat (← highNumber 32)
  let masked ← bit
  let origin ← highNumber 24
  let limit := sizeUnit * size
  if 10 + limit < origin then throw (.fault .origin)
  let used ← usedBytes (← flags 16).zipIdx
  if used.isEmpty then throw (.fault .noBytes)
  let codeCount ← highNumber 3
  if codeCount < 2 ∨ 6 < codeCount then throw (.fault .codeCount)
  let selectorCount ← highNumber 15
  if selectorCount < 1 then throw (.fault .noSelectors)
  let turns := (← selectors codeCount selectorCount (List.range codeCount) #[]).extract 0 selectorsMax
  let codes := (← codes steps (used.length + 2) codeCount).toArray
  let turns : Turns := { codes := turns.toList.filterMap fun number => codes[number]? }
  let bytes ← sortedBytes limit (used.length + 1) steps turns used { } #[]
  if bytes.size ≤ origin then throw (.fault .origin)
  let text := BlockSort.unsort bytes origin
  emitText check (BlockSort.lengthen (if masked then BlockSort.unmask text else text))
  return check

/-- The blocks up to the end. Every block takes bits, so as many blocks suffice as there are bits. -/
def blocks (size steps : Nat) : Nat → UInt32 → Reader Unit
  | 0, _ => throw .ended
  | more + 1, checks => do
    let start ← highNumber 8
    if start = 0x31 then
      expect .blockSignature [0x41, 0x59, 0x26, 0x53, 0x59]
      let check ← block size steps
      blocks size steps more (addCheck checks check)
    else if start = 0x17 then
      expect .blockSignature [0x72, 0x45, 0x38, 0x50, 0x90]
      if (← highNumber 32) ≠ checks.toNat then throw (.fault .checksum)
    else throw (.fault .blockSignature)

/-- The data from their signature on, which announces the size of the blocks by a digit. -/
def stream (steps : Nat) : Reader Unit := do
  expect .signature [0x42, 0x5A, 0x68]
  let digit ← highNumber 8
  if digit < 0x31 ∨ 0x39 < digit then throw (.fault .signature)
  blocks (digit - 0x30) steps steps 0

/-- The output of block-sorted data, and whether they are complete; what follows their end is passed over. -/
def run (data : Bytes) : Except Fault (Bytes × Bool) :=
  let bits := highBits data
  (stream (bits.length + 1)).outcome bits

end ClassDump.Archive.Bzip2
