import ClassDump.Bytes
import ClassDump.Text.Digit
import ClassDump.Text.Split

/-! Class keys: the names under which the coverage agent dumps classes. The key of a class is its binary name with
slashes, its identity in sixteen hexadecimal digits, and the ending of a class file. The identity is a 64-bit check over
the class file. An early agent hashed class files of version 53 as if they were of version 52, and the identity keeps to
that. -/

namespace ClassDump.ClassId

/-- The polynomial `x^64 + x^4 + x^3 + x + 1`, bit-reflected and without its leading term. -/
def poly : UInt64 := 0xD800000000000000

/-- The low byte of the version that takes the place of version 53. -/
def version52 : UInt8 := 0x34

/-- The low byte of the version that is hashed as version 52. -/
def version53 : UInt8 := 0x35

/-- The class file has more than seven bytes and states version 53 in the seventh and eighth. -/
def statesVersion53 (data : Bytes) : Bool :=
  7 < data.length && data[6]? == some 0x00 && data[7]? == some version53

/-- The class file with version 53 taken for version 52. -/
def normalized (data : Bytes) : Bytes :=
  if statesVersion53 data then data.set 7 version52 else data

/-- The identity of a class file. The part before the version, the version and the rest are fed in turn. -/
def ofBytes (data : Bytes) : UInt64 :=
  if statesVersion53 data then
    let start := Crc.update poly 0 (data.take 7)
    let versioned := Crc.update poly start [version52]
    Crc.update poly versioned (data.drop 8)
  else Crc.update poly 0 data

/-- The identity is the check over the normalized class file. -/
theorem ofBytes_eq (data : Bytes) : ofBytes data = Crc.update poly 0 (normalized data) := by
  unfold ofBytes normalized
  split
  · next h =>
    have hlen : 7 < data.length := by
      simp only [statesVersion53, Bool.and_eq_true, decide_eq_true_eq] at h
      exact h.1.1
    rw [← Crc.update_append, ← Crc.update_append, List.set_eq_take_append_cons_drop, if_pos hlen]
    simp
  · rfl

end ClassDump.ClassId

namespace ClassDump

/-- The ending of the name of a class file. -/
def classSuffix : String := ".class"

/-- Why a name and an identity make no class key. -/
inductive ClassKeyError where
  | emptyName
  | idOutOfRange (id : Int)
deriving DecidableEq, Repr

namespace ClassKeyError

def message : ClassKeyError → String
  | .emptyName => "Binary class name cannot be empty"
  | .idOutOfRange id => s!"Class id out of 64-bit range: {id}"

end ClassKeyError

/-- A class key, in the form of a path below the class dump. -/
structure ClassKey where
  path : String
deriving DecidableEq, Repr

namespace ClassKey

/-- The number of identities that 64 bits can tell apart. -/
def idCount : Int := 0x10000000000000000

/-- The key of a class by its binary name and identity. -/
def of (binaryName : String) (id : Int) : Except ClassKeyError ClassKey :=
  if binaryName = "" then .error .emptyName
  else if id < 0 ∨ idCount ≤ id then .error (.idOutOfRange id)
  else .ok ⟨Text.replace '.' '/' binaryName ++ "." ++ Text.hex16 id ++ classSuffix⟩

/-- How a key is shown to a developer. -/
def shown (key : ClassKey) : String :=
  "<ClassKey " ++ key.path ++ ">"

end ClassKey

def resourceName (binaryName : String) : String :=
  Text.replace '.' '/' binaryName ++ classSuffix

def binaryNameOf (relative : String) : String :=
  let stem :=
    if Text.endsWith relative classSuffix then Text.dropLast relative classSuffix.length else relative
  Text.replace '/' '.' stem

end ClassDump
