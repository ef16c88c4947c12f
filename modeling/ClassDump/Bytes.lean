/-! Byte strings, as lists of bytes, with the little-endian unsigned fields that are read from them and the cyclic
redundancy checks over them. A check takes the least significant bit of each byte first; its register holds the
remainder so far, bit-reflected, and a message may be fed in parts. -/

namespace ClassDump

/-- The contents of a file or of a part of one. -/
abbrev Bytes := List UInt8

namespace Bytes

/-- The unsigned number whose least significant byte comes first. -/
def toNatLE : Bytes → Nat
  | [] => 0
  | b :: rest => b.toNat + 256 * toNatLE rest

/-- The `width` bytes from `offset` on, fewer where the string ends. -/
def slice (data : Bytes) (offset width : Nat) : Bytes :=
  (data.drop offset).take width

/-- The little-endian field of `width` bytes at `offset`. -/
def field (data : Bytes) (offset width : Nat) : Nat :=
  toNatLE (data.slice offset width)

end Bytes
end ClassDump

namespace ClassDump.Crc

/-- One division step: the register moves down by a bit, and the reflected polynomial is added where the bit
that leaves is set. -/
def shift (poly register : UInt64) : UInt64 :=
  if register &&& 1 = 0 then register >>> 1 else (register >>> 1) ^^^ poly

def byte (poly register : UInt64) (b : UInt8) : UInt64 :=
  let start := register ^^^ b.toUInt64
  let after4 := shift poly (shift poly (shift poly (shift poly start)))
  shift poly (shift poly (shift poly (shift poly after4)))

/-- The register after the bytes of a message. -/
def update (poly register : UInt64) (data : Bytes) : UInt64 :=
  data.foldl (byte poly) register

@[simp] theorem update_nil (poly register : UInt64) : update poly register [] = register := rfl

/-- Feeding two parts one after the other is feeding them as one. -/
theorem update_append (poly register : UInt64) (first second : Bytes) :
    update poly register (first ++ second) = update poly (update poly register first) second := by
  simp [update]

end ClassDump.Crc
