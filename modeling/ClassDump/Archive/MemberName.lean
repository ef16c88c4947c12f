import ClassDump.Bytes
import ClassDump.Text.Digit

/-! The two encodings of member names in archives: code page 437, in which every byte is a character, and UTF-8, in
which some byte strings are none. -/

namespace ClassDump.Archive

namespace CodePage437

/-- The code points of the bytes from 128 on; those below stand for themselves. -/
def upper : List Nat :=
  [0x00C7, 0x00FC, 0x00E9, 0x00E2, 0x00E4, 0x00E0, 0x00E5, 0x00E7, 0x00EA, 0x00EB, 0x00E8, 0x00EF,
    0x00EE, 0x00EC, 0x00C4, 0x00C5, 0x00C9, 0x00E6, 0x00C6, 0x00F4, 0x00F6, 0x00F2, 0x00FB, 0x00F9,
    0x00FF, 0x00D6, 0x00DC, 0x00A2, 0x00A3, 0x00A5, 0x20A7, 0x0192, 0x00E1, 0x00ED, 0x00F3, 0x00FA,
    0x00F1, 0x00D1, 0x00AA, 0x00BA, 0x00BF, 0x2310, 0x00AC, 0x00BD, 0x00BC, 0x00A1, 0x00AB, 0x00BB,
    0x2591, 0x2592, 0x2593, 0x2502, 0x2524, 0x2561, 0x2562, 0x2556, 0x2555, 0x2563, 0x2551, 0x2557,
    0x255D, 0x255C, 0x255B, 0x2510, 0x2514, 0x2534, 0x252C, 0x251C, 0x2500, 0x253C, 0x255E, 0x255F,
    0x255A, 0x2554, 0x2569, 0x2566, 0x2560, 0x2550, 0x256C, 0x2567, 0x2568, 0x2564, 0x2565, 0x2559,
    0x2558, 0x2552, 0x2553, 0x256B, 0x256A, 0x2518, 0x250C, 0x2588, 0x2584, 0x258C, 0x2590, 0x2580,
    0x03B1, 0x00DF, 0x0393, 0x03C0, 0x03A3, 0x03C3, 0x00B5, 0x03C4, 0x03A6, 0x0398, 0x03A9, 0x03B4,
    0x221E, 0x03C6, 0x03B5, 0x2229, 0x2261, 0x00B1, 0x2265, 0x2264, 0x2320, 0x2321, 0x00F7, 0x2248,
    0x00B0, 0x2219, 0x00B7, 0x221A, 0x207F, 0x00B2, 0x25A0, 0x00A0]

def character (b : UInt8) : Char :=
  Char.ofNat (if b < 128 then b.toNat else upper.getD (b.toNat - 128) 0)

def decode (data : Bytes) : String :=
  String.ofList (data.map character)

end CodePage437

inductive Utf8Fault where
  | start
  | continuation
  | ended
deriving DecidableEq, Repr

/-- The place at which a byte string stops being UTF-8. -/
structure Utf8Error where
  first : UInt8
  position : Nat
  length : Nat
  fault : Utf8Fault
deriving DecidableEq, Repr

namespace Utf8Error

def message (error : Utf8Error) : String :=
  let place :=
    if error.length = 1 then
      "byte 0x" ++ String.ofList (Text.hexDigits 2 error.first.toNat) ++ " in position " ++ toString error.position
    else s!"bytes in position {error.position}-{error.position + error.length - 1}"
  let reason :=
    match error.fault with
    | .start => "invalid start byte"
    | .continuation => "invalid continuation byte"
    | .ended => "unexpected end of data"
  "'utf-8' codec can't decode " ++ place ++ ": " ++ reason

end Utf8Error

namespace Utf8

/-- The number of bytes that follow a first byte, with the range in which the next one must lie; shorter forms of a
code point, surrogates and code points past the last are so excluded. -/
def follows (first : UInt8) : Option (Nat × UInt8 × UInt8) :=
  if first < 0x80 then some (0, 0x80, 0xBF)
  else if first < 0xC2 then none
  else if first < 0xE0 then some (1, 0x80, 0xBF)
  else if first = 0xE0 then some (2, 0xA0, 0xBF)
  else if first = 0xED then some (2, 0x80, 0x9F)
  else if first < 0xF0 then some (2, 0x80, 0xBF)
  else if first = 0xF0 then some (3, 0x90, 0xBF)
  else if first < 0xF4 then some (3, 0x80, 0xBF)
  else if first = 0xF4 then some (3, 0x80, 0x8F)
  else none

/-- The value bits of a first byte with so many to follow. -/
def leadBits (first : UInt8) (following : Nat) : Nat :=
  match following with
  | 0 => first.toNat
  | 1 => first.toNat % 32
  | 2 => first.toNat % 16
  | _ => first.toNat % 8

/-- What the decoding of a byte string has come to: the characters so far, the last one first, and of the character
being read its first byte, the value bits so far, how many bytes were read of it and are missing, and the range of the
next one. -/
structure State where
  done : List Char := []
  position : Nat := 0
  lead : UInt8 := 0
  read : Nat := 0
  missing : Nat := 0
  range : UInt8 × UInt8 := (0x80, 0xBF)
  bits : Nat := 0

def step (state : State) (b : UInt8) : Except Utf8Error State :=
  if state.missing = 0 then
    match follows b with
    | none => .error ⟨b, state.position, 1, .start⟩
    | some (0, _, _) =>
      .ok { state with done := Char.ofNat b.toNat :: state.done, position := state.position + 1 }
    | some (following, low, high) =>
      .ok { state with
        position := state.position + 1, lead := b, read := 1, missing := following, range := (low, high),
        bits := leadBits b following }
  else if state.range.1 ≤ b ∧ b ≤ state.range.2 then
    let bits := state.bits * 64 + b.toNat % 64
    let next := { state with
      position := state.position + 1, read := state.read + 1, missing := state.missing - 1, range := (0x80, 0xBF),
      bits := bits }
    .ok (if next.missing = 0 then { next with done := Char.ofNat bits :: state.done } else next)
  else .error ⟨state.lead, state.position - state.read, state.read, .continuation⟩

def decode (data : Bytes) : Except Utf8Error String := do
  let state ← data.foldlM step {}
  if state.missing = 0 then return String.ofList state.done.reverse
  else throw ⟨state.lead, state.position - state.read, state.read, .ended⟩

end Utf8
end ClassDump.Archive
