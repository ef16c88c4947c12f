import ClassDump.Archive.BitReader

/-! Reading bits that were coded by their probabilities: a range is divided between zero and one in proportion, the
code lies in the part of the bit that is meant, and every bit read makes itself more probable. -/

namespace ClassDump.Archive

/-- What a bit says: whether a repetition follows and not a literal byte, which of the recent distances it has, if any,
and then a part of a distance, of a length or of a literal byte. Each of these has a probability of its own, and where
`node` is given, one for each of the bits before it that belong to the same number. -/
inductive BitMeaning where
  | kind (phase position : Nat)
  | recent (phase : Nat)
  | notLatest (phase : Nat)
  | notSecond (phase : Nat)
  | notThird (phase : Nat)
  | longer (phase position : Nat)
  | slot (length node : Nat)
  | near (node : Nat)
  | align (node : Nat)
  | lengthNotShort (again : Bool)
  | lengthLong (again : Bool)
  | shortLength (again : Bool) (position node : Nat)
  | mediumLength (again : Bool) (position node : Nat)
  | longLength (again : Bool) (node : Nat)
  | literal (coder node : Nat)
deriving DecidableEq, Repr

namespace BitMeaning

/-- The places for the probabilities of the lengths of one kind of distance. -/
def lengthPlaces : Nat := 514

def lengthStart (again : Bool) : Nat :=
  818 + (if again then lengthPlaces else 0)

def literalStart : Nat := 1846

def place : BitMeaning → Nat
  | .kind phase position => 16 * phase + position
  | .longer phase position => 192 + 16 * phase + position
  | .recent phase => 384 + phase
  | .notLatest phase => 396 + phase
  | .notSecond phase => 408 + phase
  | .notThird phase => 420 + phase
  | .slot length node => 432 + 64 * length + node
  | .align node => 688 + node
  | .near node => 704 + node
  | .lengthNotShort again => lengthStart again
  | .lengthLong again => lengthStart again + 1
  | .shortLength again position node => lengthStart again + 2 + 8 * position + node
  | .mediumLength again position node => lengthStart again + 130 + 8 * position + node
  | .longLength again node => lengthStart again + 258 + node
  | .literal coder node => literalStart + 768 * coder + node

end BitMeaning

/-- The range and the code at hand, what is still to be read, the probabilities of zero in parts of 2048, and the output
so far. -/
structure RangeState where
  input : Bytes
  range : UInt32 := 0xFFFFFFFF
  code : UInt32 := 0
  probabilities : Array UInt32
  output : Array UInt8 := #[]

/-- A step of the reading. The output survives where the reading stops. -/
abbrev RangeReader (Fault : Type) := EStateM (Halt Fault) RangeState

namespace RangeReader

variable {Fault : Type}

def certainty : UInt32 := 2048

def rangeMin : UInt32 := 0x1000000

def take : RangeReader Fault Unit := do
  let state ← get
  match state.input with
  | [] => throw .ended
  | b :: rest => set { state with input := rest, code := (state.code <<< 8) ||| b.toUInt32 }

/-- Takes another byte into the code if the range has become small. -/
def refill : RangeReader Fault Unit := do
  if (← get).range < rangeMin then
    take
    modify fun state => { state with range := state.range <<< 8 }

/-- The state after a bit was read in it, and the bit. -/
def divide (meaning : BitMeaning) (state : RangeState) : Bool × RangeState :=
  let place := meaning.place
  match state with
  | ⟨input, range, code, probabilities, output⟩ =>
    let probability := probabilities.getD place (certainty / 2)
    let bound := (range >>> 11) * probability
    if code < bound then
      let more := probability + ((certainty - probability) >>> 5)
      (false, ⟨input, bound, code, probabilities.setIfInBounds place more, output⟩)
    else
      let less := probability - (probability >>> 5)
      (true, ⟨input, range - bound, code - bound, probabilities.setIfInBounds place less, output⟩)

def bit (meaning : BitMeaning) : RangeReader Fault Bool := do
  refill
  modifyGet (divide meaning)

/-- The state after a bit was read in it that is as likely zero as one, and the bit. The code less half of the range
counts as negative from the highest bit on. -/
def halve (state : RangeState) : Bool × RangeState :=
  let half := state.range >>> 1
  let rest := state.code - half
  if rest &&& 0x80000000 = 0 then (true, { state with range := half, code := rest })
  else (false, { state with range := half })

def evenBit : RangeReader Fault Bool := do
  refill
  modifyGet halve

/-- The number in the next bits, the most significant first, after the bits that are given as a number. -/
def numberFrom (read : Nat → RangeReader Fault Bool) (prior : Nat) : Nat → RangeReader Fault Nat
  | 0 => return prior
  | width + 1 => do
    let high ← read prior
    numberFrom read (2 * prior + (if high then 1 else 0)) width

/-- The number in so many of the next bits, the most significant first; each has its own probability after each number
of the bits before it, which are counted with a leading one. -/
def number (meaning : Nat → BitMeaning) (width : Nat) : RangeReader Fault Nat := do
  let node ← numberFrom (fun node => bit (meaning node)) 1 width
  return node - 1 <<< width

/-- The number in so many of the next bits, the most significant first, each as likely zero as one. -/
def evenNumber (width : Nat) : RangeReader Fault Nat :=
  numberFrom (fun _ => evenBit) 0 width

/-- The number in so many of the next bits, the least significant first, after the bits before, which are given with a
leading one in the order in which they were read. -/
def lowNumberFrom (meaning : Nat → BitMeaning) (node : Nat) : Nat → RangeReader Fault Nat
  | 0 => return 0
  | width + 1 => do
    let low ← bit (meaning node)
    let value := if low then 1 else 0
    let high ← lowNumberFrom meaning (2 * node + value) width
    return value + 2 * high

/-- The number in so many of the next bits, the least significant first. -/
def lowNumber (meaning : Nat → BitMeaning) (width : Nat) : RangeReader Fault Nat :=
  lowNumberFrom meaning 1 width

def emit (b : UInt8) : RangeReader Fault Unit :=
  modify fun state => { state with output := state.output.push b }

end RangeReader
end ClassDump.Archive
