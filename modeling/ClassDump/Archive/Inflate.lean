import ClassDump.Archive.BitReader

/-! Reading deflated data: blocks of literal bytes and of references back into the output, under prefix codes that are
fixed, described in the block, or absent. Data that end too early yield what they said so far. -/

namespace ClassDump.Archive.Inflate

inductive Fault where
  | blockType
  | storedLengths
  | tooManySymbols
  | lengthCode
  | repetition
  | noBlockEnd
  | literalCode
  | distanceCode
  | literalSymbol
  | distanceSymbol
  | distanceTooFar
deriving DecidableEq, Repr

namespace Fault

def text : Fault → String
  | .blockType => "invalid block type"
  | .storedLengths => "invalid stored block lengths"
  | .tooManySymbols => "too many length or distance symbols"
  | .lengthCode => "invalid code lengths set"
  | .repetition => "invalid bit length repeat"
  | .noBlockEnd => "invalid code -- missing end-of-block"
  | .literalCode => "invalid literal/lengths set"
  | .distanceCode => "invalid distances set"
  | .literalSymbol => "invalid literal/length code"
  | .distanceSymbol => "invalid distance code"
  | .distanceTooFar => "invalid distance too far back"

end Fault

abbrev Reader := BitReader Fault

open BitReader

def maxLength : Nat := 15

def codeOf (lengths : List Nat) : PrefixCode :=
  PrefixCode.ofLengths maxLength lengths

/-- The symbol whose code the next bits are. `first` is the first code of the length at hand and `index` the place of
its symbol; `fault` says that no symbol has the bits. -/
def symbolFrom (code : PrefixCode) (fault : Fault) : List Nat → Nat → Nat → Nat → Reader Nat
  | [], _, _, _ => throw (.fault fault)
  | count :: longer, prior, first, index => do
    let value := prior + (if ← bit then 1 else 0)
    if value < first + count then
      match code.symbols[index + (value - first)]? with
      | some symbol => return symbol
      | none => throw (.fault fault)
    else if longer.all (· = 0) then throw (.fault fault)
    else symbolFrom code fault longer (2 * value) (2 * (first + count)) (index + count)

def symbolOf (code : PrefixCode) (fault : Fault) : Reader Nat :=
  symbolFrom code fault code.counts 0 0 0

/-- The shortest length and the number of further bits of each length symbol. -/
def lengthBases : List (Nat × Nat) :=
  [(3, 0), (4, 0), (5, 0), (6, 0), (7, 0), (8, 0), (9, 0), (10, 0), (11, 1), (13, 1), (15, 1), (17, 1), (19, 2),
    (23, 2), (27, 2), (31, 2), (35, 3), (43, 3), (51, 3), (59, 3), (67, 4), (83, 4), (99, 4), (115, 4), (131, 5),
    (163, 5), (195, 5), (227, 5), (258, 0)]

/-- The shortest distance and the number of further bits of each distance symbol. -/
def distanceBases : List (Nat × Nat) :=
  [(1, 0), (2, 0), (3, 0), (4, 0), (5, 1), (7, 1), (9, 2), (13, 2), (17, 3), (25, 3), (33, 4), (49, 4), (65, 5),
    (97, 5), (129, 6), (193, 6), (257, 7), (385, 7), (513, 8), (769, 8), (1025, 9), (1537, 9), (2049, 10),
    (3073, 10), (4097, 11), (6145, 11), (8193, 12), (12289, 12), (16385, 13), (24577, 13)]

/-- A reference back into the output, of the given length symbol. -/
def reference (distances : PrefixCode) (symbol : Nat) : Reader Unit := do
  match lengthBases[symbol]? with
  | none => throw (.fault .literalSymbol)
  | some (base, width) =>
    let length := base + (← lowNumber width)
    match distanceBases[← symbolOf distances .distanceSymbol]? with
    | none => throw (.fault .distanceSymbol)
    | some (base, width) =>
      let distance := base + (← lowNumber width)
      if (← get).output.size < distance then throw (.fault .distanceTooFar)
      modify fun state => { state with output := repeatBack distance length state.output }

/-- The symbols of a block up to its end. Every symbol takes at least one bit, so as many steps suffice as there are
bits. -/
def symbols (literals distances : PrefixCode) : Nat → Reader Unit
  | 0 => throw .ended
  | steps + 1 => do
    let symbol ← symbolOf literals .literalSymbol
    if symbol < 256 then
      emit (UInt8.ofNat symbol)
      symbols literals distances steps
    else if symbol = 256 then return ()
    else
      reference distances (symbol - 257)
      symbols literals distances steps

/-- The bytes of an uncompressed block. -/
def literalBytes : Nat → Reader Unit
  | 0 => return ()
  | count + 1 => do
    emit (UInt8.ofNat (← lowNumber 8))
    literalBytes count

/-- A block that is not compressed: the rest of the byte at hand is passed over, and the length is said twice, the
second time inverted. -/
def storedBlock : Reader Unit := do
  modify fun state => { state with bits := state.bits.drop (state.bits.length % 8) }
  let both ← lowNumber 32
  let length := both % 65536
  if length + both / 65536 ≠ 65535 then throw (.fault .storedLengths)
  literalBytes length

/-- The order in which the lengths of the code for code lengths are said. -/
def lengthOrder : List Nat :=
  [16, 17, 18, 0, 8, 7, 9, 6, 10, 5, 11, 4, 12, 3, 13, 2, 14, 1, 15]

/-- The symbol of the code for code lengths. A code without symbols says zero with every bit. -/
def lengthSymbol (code : PrefixCode) : Reader Nat := do
  if code.symbols.isEmpty then
    let _ ← bit
    return 0
  else symbolOf code .lengthCode

/-- The code lengths, the last one first, until there are as many as were announced. Every step adds one at least. -/
def codeLengths (code : PrefixCode) (total : Nat) : Nat → List Nat → Reader (List Nat)
  | 0, lengths => return lengths
  | steps + 1, lengths => do
    if total ≤ lengths.length then return lengths
    let symbol ← lengthSymbol code
    if symbol < 16 then codeLengths code total steps (symbol :: lengths)
    else
      let repeated (width base length : Nat) : Reader (List Nat) := do
        let count := base + (← lowNumber width)
        if total < lengths.length + count then throw (.fault .repetition)
        codeLengths code total steps (List.replicate count length ++ lengths)
      if symbol = 16 then
        match lengths with
        | [] => do
          let _ ← lowNumber 2
          throw (.fault .repetition)
        | previous :: _ => repeated 2 3 previous
      else if symbol = 17 then repeated 3 3 0
      else repeated 7 11 0

def numbers (width : Nat) : Nat → Reader (List Nat)
  | 0 => return []
  | count + 1 => do
    let first ← lowNumber width
    let rest ← numbers width count
    return first :: rest

/-- The literal and distance codes that a block describes. -/
def describedCodes : Reader (PrefixCode × PrefixCode) := do
  let literalCount := 257 + (← lowNumber 5)
  let distanceCount := 1 + (← lowNumber 5)
  let lengthCount := 4 + (← lowNumber 4)
  if 286 < literalCount ∨ 30 < distanceCount then throw (.fault .tooManySymbols)
  let said := lengthOrder.zip (← numbers 3 lengthCount)
  let lengthCode := codeOf ((List.range 19).map fun symbol => (said.lookup symbol).getD 0)
  if !lengthCode.isUsable false then throw (.fault .lengthCode)
  let total := literalCount + distanceCount
  let lengths := (← codeLengths lengthCode total total []).reverse
  if lengths.getD 256 0 = 0 then throw (.fault .noBlockEnd)
  let literals := codeOf (lengths.take literalCount)
  if !literals.isUsable true then throw (.fault .literalCode)
  let distances := codeOf (lengths.drop literalCount)
  if !distances.isUsable true then throw (.fault .distanceCode)
  return (literals, distances)

def fixedLiterals : PrefixCode :=
  codeOf
    (List.replicate 144 8 ++ List.replicate 112 9 ++ List.replicate 24 7 ++ List.replicate 8 8)

def fixedDistances : PrefixCode :=
  codeOf (List.replicate 32 5)

/-- The blocks up to the last one. Every block takes at least three bits, so as many steps suffice as there are bits. -/
def blocks : Nat → Reader Unit
  | 0 => throw .ended
  | steps + 1 => do
    let last ← bit
    match ← lowNumber 2 with
    | 0 => storedBlock
    | 1 => symbols fixedLiterals fixedDistances ((← get).bits.length + 1)
    | 2 =>
      let (literals, distances) ← describedCodes
      symbols literals distances ((← get).bits.length + 1)
    | _ => throw (.fault .blockType)
    if last then return () else blocks steps

/-- The output of deflated data, and whether their last block is complete; what follows the last block is passed
over. -/
def run (data : Bytes) : Except Fault (Bytes × Bool) :=
  let bits := lowBits data
  (blocks (bits.length + 1)).outcome bits

end ClassDump.Archive.Inflate
