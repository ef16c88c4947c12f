import ClassDump.Bytes

/-! Reading compressed data. What it yields are the bytes read so far, also where the data end too early; that is no
fault, and what they said so far counts. Most formats are read bit by bit, and name the symbols by prefix codes in
canonical form: the lengths of the codes say the codes, since codes of one length follow each other in the order of
their symbols and shorter codes come before longer ones. -/

namespace ClassDump.Archive

/-- Why the reading stops before the data are complete. -/
inductive Halt (Fault : Type) where
  | ended
  | fault (fault : Fault)
deriving DecidableEq, Repr

/-- The output of a reading, and whether the data are complete, unless they make no sense. -/
def Halt.outcome {Fault State : Type} (output : State → Array UInt8) :
    EStateM.Result (Halt Fault) State Unit → Except Fault (Bytes × Bool)
  | .ok _ state => .ok ((output state).toList, true)
  | .error .ended state => .ok ((output state).toList, false)
  | .error (.fault cause) _ => .error cause

/-- The output with so many bytes more, each a repetition of the one that lies so far back. -/
def repeatBack (distance : Nat) : Nat → Array UInt8 → Array UInt8
  | 0, output => output
  | count + 1, output =>
    repeatBack distance count (output.push (output.getD (output.size - distance) 0))

@[simp] theorem size_repeatBack (distance count : Nat) (output : Array UInt8) :
    (repeatBack distance count output).size = output.size + count := by
  induction count generalizing output with
  | zero => rfl
  | succ count ih => simp only [repeatBack, ih, Array.size_push]; omega

/-- The value of a rank in a list that has the latest first, and the list with that value as the latest. -/
def toFront {α : Type} (rank : Nat) (latest : List α) : Option (α × List α) :=
  latest[rank]?.map fun value => (value, value :: latest.eraseIdx rank)

theorem length_of_toFront {α : Type} {rank : Nat} {latest after : List α} {value : α}
    (h : toFront rank latest = some (value, after)) : after.length = latest.length := by
  obtain ⟨found, hfound, heq⟩ := Option.map_eq_some_iff.1 h
  obtain ⟨hlt, _⟩ := List.getElem?_eq_some_iff.1 hfound
  cases heq
  simp only [List.length_cons, List.length_eraseIdx, hlt, if_true]
  omega

/-- The bits still to be read, and the output so far. -/
structure BitState where
  bits : List Bool
  output : Array UInt8

/-- A step of the reading. The output survives where the reading stops. -/
abbrev BitReader (Fault : Type) := EStateM (Halt Fault) BitState

namespace BitReader

/-- The bits of a byte string, each byte's least significant bit first. -/
def lowBits (data : Bytes) : List Bool :=
  data.flatMap fun b => (List.range 8).map fun i => b.toNat.testBit i

/-- The bits of a byte string, each byte's most significant bit first. -/
def highBits (data : Bytes) : List Bool :=
  data.flatMap fun b => (List.range 8).map fun i => b.toNat.testBit (7 - i)

@[simp] theorem length_lowBits (data : Bytes) : (lowBits data).length = 8 * data.length := by
  induction data with
  | nil => rfl
  | cons b rest ih =>
    simp only [lowBits, List.flatMap_cons, List.length_append, List.length_map, List.length_range,
      List.length_cons] at ih ⊢
    omega

@[simp] theorem length_highBits (data : Bytes) : (highBits data).length = 8 * data.length := by
  induction data with
  | nil => rfl
  | cons b rest ih =>
    simp only [highBits, List.flatMap_cons, List.length_append, List.length_map, List.length_range,
      List.length_cons] at ih ⊢
    omega

variable {Fault : Type}

def bit : BitReader Fault Bool := do
  let state ← get
  match state.bits with
  | [] => throw .ended
  | first :: rest =>
    set { state with bits := rest }
    return first

def flags : Nat → BitReader Fault (List Bool)
  | 0 => return []
  | count + 1 => do
    let first ← bit
    let rest ← flags count
    return first :: rest

def lowNumber : Nat → BitReader Fault Nat
  | 0 => return 0
  | width + 1 => do
    let low ← bit
    let high ← lowNumber width
    return (if low then 1 else 0) + 2 * high

/-- The number in the bits before, which are given as a number, and in the next ones, the most significant first. -/
def highNumberFrom (prior : Nat) : Nat → BitReader Fault Nat
  | 0 => return prior
  | width + 1 => do
    let high ← bit
    highNumberFrom (2 * prior + (if high then 1 else 0)) width

def highNumber (width : Nat) : BitReader Fault Nat :=
  highNumberFrom 0 width

def emit (b : UInt8) : BitReader Fault Unit :=
  modify fun state => { state with output := state.output.push b }

def outcome (reader : BitReader Fault Unit) (bits : List Bool) : Except Fault (Bytes × Bool) :=
  Halt.outcome BitState.output (reader.run ⟨bits, #[]⟩)

end BitReader
/-- A prefix code in canonical form: how many symbols have each length from one on, and the symbols by length. -/
structure PrefixCode where
  counts : List Nat
  symbols : Array Nat

namespace PrefixCode

/-- The canonical code that gives each symbol the length listed for it, up to the longest; a length of zero gives it
none. -/
def ofLengths (longest : Nat) (lengths : List Nat) : PrefixCode where
  counts := (List.range longest).map fun i => lengths.count (i + 1)
  symbols :=
    ((List.range longest).flatMap fun i =>
      (lengths.zipIdx.filter fun entry => entry.1 = i + 1).map (·.2)).toArray

/-- The codes left over when those of each length are taken out; none if there are too few. -/
def leftOver (counts : List Nat) : Option Nat :=
  counts.foldl
    (fun left count => left.bind fun left => if count ≤ 2 * left then some (2 * left - count) else none) (some 1)

/-- The lengths make a code: it is complete, or has no symbol, or, where that is allowed, has a single one. -/
def isUsable (code : PrefixCode) (singleAllowed : Bool) : Bool :=
  code.symbols.isEmpty ||
    match leftOver code.counts with
    | none => false
    | some 0 => true
    | some _ => singleAllowed && (code.counts.drop 1).all (· = 0)

end PrefixCode
end ClassDump.Archive
