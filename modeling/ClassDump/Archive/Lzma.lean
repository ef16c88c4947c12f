import ClassDump.Archive.RangeReader

/-! Reading data coded by repetitions and probabilities: literal bytes and references back into the output, the latest
distances being said by their rank. -/

namespace ClassDump.Archive.Lzma

inductive Fault where
  | properties
  | start
  | distance
  | leftover
deriving DecidableEq, Repr

namespace Fault

def text : Fault → String
  | .properties => "Invalid or unsupported options"
  | .start | .distance | .leftover => "Corrupt input data"

end Fault

/-- What the reading depends on: how many high bits of the byte before and how many low bits of the place choose the
probabilities of a literal byte, how many low bits of the place choose other probabilities, and how far back the output
is kept. -/
structure Properties where
  literalContext : Nat
  literalPosition : Nat
  position : Nat
  kept : Nat
deriving DecidableEq, Repr

namespace Properties

def keptMin : Nat := 4096

/-- The properties that five bytes describe. -/
def ofBytes? (data : Bytes) : Option Properties :=
  match data with
  | [first, _, _, _, _] =>
    let literalContext := first.toNat % 9
    let literalPosition := first.toNat / 9 % 5
    let position := first.toNat / 45
    if 4 < position ∨ 4 < literalContext + literalPosition then none
    else some ⟨literalContext, literalPosition, position, (max (data.field 1 4) keptMin + 15) / 16 * 16⟩
  | _ => none

def size (properties : Properties) : Nat :=
  BitMeaning.literalStart + 768 <<< (properties.literalContext + properties.literalPosition)

end Properties

abbrev Reader := RangeReader Fault

open RangeReader

/-- What was read before, as far as it counts for what is read next: which literals and repetitions came last, and the
four latest distances less one, the latest first. -/
structure History where
  phase : Nat := 0
  distances : List Nat := [0, 0, 0, 0]
deriving DecidableEq, Repr

namespace History

def latest (history : History) : Nat :=
  history.distances.headD 0

def isLiteral (history : History) : Bool :=
  history.phase < 7

def afterLiteral (history : History) : History :=
  { history with
    phase := if history.phase < 4 then 0 else if history.phase < 10 then history.phase - 3 else history.phase - 6 }

/-- The phase after a repetition, which depends on whether a literal came before it. -/
def after (history : History) (literal other : Nat) : History :=
  { history with phase := if history.isLiteral then literal else other }

end History

/-- The place in the output, in its lowest bits. -/
def lowPlace (width : Nat) : Reader Nat :=
  return (← get).output.size % (1 <<< width)

/-- The byte that lies so far back, not counting the last one. -/
def byteBack (distance : Nat) : Reader UInt8 := do
  let output := (← get).output
  return if distance < output.size then output.getD (output.size - distance - 1) 0 else 0

/-- The rest of a literal byte, which has the probabilities of bytes after a repetition as long as it agrees with the
bits of the byte that the repetition would have gone on with. -/
def unlikeByte (coder : Nat) : List Bool → Nat → Reader Nat
  | [], node => return node
  | expected :: rest, node => do
    let got ← bit (.literal coder (node + (if expected then 512 else 256)))
    let node := 2 * node + (if got then 1 else 0)
    if got = expected then unlikeByte coder rest node
    else numberFrom (fun node => bit (.literal coder node)) node rest.length

def highBits (b : UInt8) : List Bool :=
  (List.range 8).map fun i => b.toNat.testBit (7 - i)

def literal (properties : Properties) (history : History) : Reader Unit := do
  let place ← lowPlace properties.literalPosition
  let before ← byteBack 0
  let coder :=
    place <<< properties.literalContext + before.toNat >>> (8 - properties.literalContext)
  let expected ← byteBack history.latest
  let node ←
    if history.isLiteral then numberFrom (fun node => bit (.literal coder node)) 1 8
    else unlikeByte coder (highBits expected) 1
  emit (UInt8.ofNat (node - 256))

def length (recent : Bool) (position : Nat) : Reader Nat := do
  if ← bit (.lengthNotShort recent) then
    if ← bit (.lengthLong recent) then
      return 18 + (← number (.longLength recent) 8)
    else return 10 + (← number (.mediumLength recent position) 3)
  else return 2 + (← number (.shortLength recent position) 3)

/-- A new distance less one, for a repetition of the given length. The class says the highest bits and how many there
are; of a large class only the lowest bits have probabilities. -/
def newDistance (length : Nat) : Reader Nat := do
  let slot ← number (.slot (min (length - 2) 3)) 6
  if slot < 4 then return slot
  let width := slot / 2 - 1
  let base := (2 + slot % 2) <<< width
  if slot < 14 then
    return base + (← lowNumber (fun node => .near (base + node - slot - 1)) width)
  let high ← evenNumber (width - 4)
  let low ← lowNumber .align 4
  return base + 16 * high + low

/-- The output so far reaches back to the distance, and it is kept. -/
def reaches (properties : Properties) (distance : Nat) : Reader Bool :=
  return distance < min (← get).output.size properties.kept

/-- Repeats the bytes of a distance less one. -/
def copy (distance length : Nat) : Reader Unit :=
  modify fun state => { state with output := repeatBack (distance + 1) length state.output }

def rank (phase : Nat) : Reader Nat := do
  if ← bit (.notSecond phase) then
    if ← bit (.notThird phase) then return 3 else return 2
  else return 1

def recentRepetition (properties : Properties) (history : History) (position : Nat) : Reader History := do
  if !(← reaches properties 0) then throw (.fault .distance)
  let again (distances : List Nat) : Reader History := do
    let count ← length true position
    copy (distances.headD 0) count
    return { history.after 8 11 with distances := distances }
  if ← bit (.notLatest history.phase) then
    match toFront (← rank history.phase) history.distances with
    | none => throw (.fault .distance)
    | some (_, distances) => again distances
  else if ← bit (.longer history.phase position) then again history.distances
  else
    copy history.latest 1
    return history.after 9 11

/-- The distance less one that says that the end is reached. -/
def endDistance : Nat := 0xFFFFFFFF

/-- The end: another byte is read if the range is small, and nothing is left. -/
def finish : Reader Unit := do
  refill
  if (← get).code ≠ 0 then throw (.fault .leftover)

/-- The literals and repetitions up to the end. -/
def symbols (properties : Properties) : Nat → History → Reader Unit
  | 0, _ => throw .ended
  | steps + 1, history => do
    let position ← lowPlace properties.position
    if ← bit (.kind history.phase position) then
      if ← bit (.recent history.phase) then
        let history ← recentRepetition properties history position
        symbols properties steps history
      else
        let count ← length false position
        let distance ← newDistance count
        if distance = endDistance then finish
        else
          if !(← reaches properties distance) then throw (.fault .distance)
          copy distance count
          symbols properties steps
            { history.after 7 10 with distances := distance :: history.distances.take 3 }
    else
      literal properties history
      symbols properties steps history.afterLiteral

/-- A bound on the bits that a byte of the code can decide: the most probable bit takes a good 365th of a byte. -/
def bitsPerByte : Nat := 400

/-- The code: a zero byte, the first four bytes of the code proper, and the symbols. -/
def stream (properties : Properties) : Reader Unit := do
  match (← get).input with
  | [] => throw .ended
  | first :: rest =>
    if first ≠ 0 then throw (.fault .start)
    modify fun state => { state with input := rest }
    take
    take
    take
    take
    symbols properties (bitsPerByte * (rest.length + 1)) { }

/-- The output of data coded with the properties, and whether their end is marked; what follows the end is passed
over. -/
def unpack (properties : Properties) (data : Bytes) : Except Fault (Bytes × Bool) :=
  Halt.outcome RangeState.output
    ((stream properties).run
      { input := data, probabilities := Array.replicate properties.size (certainty / 2) })

/-- The output of the data of a member. They start with a version, the size of the properties and the properties; where
nothing follows these, they are not looked at. -/
def run (data : Bytes) : Except Fault (Bytes × Bool) :=
  let size := data.field 2 2
  if data.length ≤ 4 ∨ data.length ≤ 4 + size then .ok ([], false)
  else
    match Properties.ofBytes? (data.slice 4 size) with
    | none => .error .properties
    | some properties => unpack properties (data.drop (4 + size))

end ClassDump.Archive.Lzma
