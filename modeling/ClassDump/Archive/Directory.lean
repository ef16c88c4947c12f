import ClassDump.Archive.Error

/-! Opening an archive: the record at its end tells where its directory is, and the directory lists its members. Bytes
in front of the archive shift all offsets by as much. -/

namespace ClassDump.Archive

structure Member where
  fullName : String
  flags : Nat
  method : Nat
  checksum : Nat
  compressedSize : Nat
  size : Nat
  offset : Int
deriving DecidableEq, Repr

/-- The name under which a member is found: a NUL cuts it off. -/
def Member.name (member : Member) : String :=
  String.ofList (member.fullName.toList.takeWhile (· ≠ '\x00'))

/-- The flag says so, where bit zero is the least significant. -/
def Member.hasFlag (member : Member) (bit : Nat) : Bool :=
  member.flags.testBit bit

/-- What the record at the end of an archive tells, and where it is. The offset of the directory is given as if nothing
stood in front of the archive. The sizes may come from a wide record in front of this one. -/
structure EndRecord where
  location : Nat
  directorySize : Nat
  directoryOffset : Nat
  wide : Bool
deriving DecidableEq, Repr

namespace EndRecord

def size : Nat := 22

def locatorSize : Nat := 20

def wideSize : Nat := 56

def signature : Bytes := [0x50, 0x4B, 0x05, 0x06]

def locatorSignature : Bytes := [0x50, 0x4B, 0x06, 0x07]

def wideSignature : Bytes := [0x50, 0x4B, 0x06, 0x06]

/-- The last offset in the data, counted from their start, at which a byte string occurs. -/
def lastOffset (pattern : Bytes) : Nat → Bytes → Option Nat → Option Nat
  | _, [], found => found
  | offset, b :: rest, found =>
    lastOffset pattern (offset + 1) rest (if pattern.isPrefixOf (b :: rest) then some offset else found)

/-- The record with the sizes of the wide record, where one stands in front of it. -/
def widened (data : Bytes) (record : EndRecord) : Except Error EndRecord :=
  let locator := data.slice (record.location - locatorSize) locatorSize
  if record.location < locatorSize ∨ locator.take 4 ≠ locatorSignature then .ok record
  else if locator.field 4 4 ≠ 0 ∨ 1 < locator.field 16 4 then .error (.malformed .severalDisks)
  else if record.location < locatorSize + wideSize then .error (.malformed .notAnArchive)
  else
    let wide := data.slice (record.location - locatorSize - wideSize) wideSize
    if wide.take 4 ≠ wideSignature then .ok record
    else
      .ok { record with directorySize := wide.field 40 8, directoryOffset := wide.field 48 8, wide := true }

def at? (data : Bytes) (location : Nat) : Option EndRecord :=
  let record := data.slice location size
  if record.length = size then some ⟨location, record.field 12 4, record.field 16 4, false⟩ else none

/-- Finds the record: at the very end if the archive has no comment, or else at its last signature within the greatest
length of a comment from the end. -/
def find (data : Bytes) : Except Error EndRecord :=
  let last := data.drop (data.length - size)
  if data.length < size then .error (.malformed .notAnArchive)
  else if last.take 4 = signature ∧ last.drop 20 = [0, 0] then
    match at? data (data.length - size) with
    | some record => widened data record
    | none => .error (.malformed .notAnArchive)
  else
    let start := data.length - 65536 - size
    match lastOffset signature start (data.drop start) none with
    | none => .error (.malformed .notAnArchive)
    | some location =>
      match at? data location with
      | some record => widened data record
      | none => .error (.malformed .notAnArchive)

end EndRecord

/-- A size as the directory gives it, or, if it is marked as too great for its field, from the start of the data of an
extra field; with the data that are left. -/
def widenSize (field : WideField) (given : Nat) (marked : Bool) (data : Bytes) : Except Error (Nat × Bytes) :=
  if !marked then .ok (given, data)
  else if data.length < 8 then .error (.malformed (.wideField field))
  else .ok (data.field 0 8, data.drop 8)

/-- A size of this value is marked as too great for a field of four bytes. -/
def narrowMark : Nat := 0xFFFFFFFF

/-- A size of this value is marked as too great for a field of eight bytes. -/
def wideMark : Nat := 0xFFFFFFFFFFFFFFFF

/-- The member with the sizes that the extra fields give. Every field takes four bytes at least, so as many steps
suffice as there are bytes. -/
def widenSizes : Nat → Bytes → Member → Except Error Member
  | 0, _, member => .ok member
  | steps + 1, extra, member =>
    if extra.length < 4 then .ok member
    else
      let tag := extra.field 0 2
      let width := extra.field 2 2
      if extra.length < width + 4 then .error (.malformed (.extraField tag width))
      else if tag ≠ 1 then widenSizes steps (extra.drop (width + 4)) member
      else do
        let data := extra.slice 4 width
        let (size, data) ← widenSize .fileSize member.size (member.size = wideMark || member.size = narrowMark) data
        let (compressed, data) ←
          widenSize .compressedSize member.compressedSize (member.compressedSize = narrowMark) data
        let (offset, _) ← widenSize .headerOffset member.offset.toNat (member.offset = narrowMark) data
        widenSizes steps (extra.drop (width + 4))
          { member with size := size, compressedSize := compressed, offset := offset }

def directoryRecordSize : Nat := 46

def directorySignature : Bytes := [0x50, 0x4B, 0x01, 0x02]

/-- The newest version of the format that is supported, in tenths. -/
def newestVersion : Nat := 63

/-- A name in the encoding that the flags state. -/
def decodeName (flags : Nat) (name : Bytes) : Except Error String :=
  if flags.testBit 11 then
    match Utf8.decode name with
    | .ok text => .ok text
    | .error error => .error (.encoding error)
  else .ok (CodePage437.decode name)

/-- Reads the records of a directory of so many bytes still to come. Every record takes a byte at least, so as many
steps suffice as there are bytes. -/
def readDirectory (shift : Int) : Nat → Nat → Bytes → Except Error (List Member)
  | 0, _, _ => .ok []
  | steps + 1, remaining, rest =>
    if remaining = 0 then .ok []
    else do
      let record : Bytes := rest.take directoryRecordSize
      if record.length ≠ directoryRecordSize then throw (.malformed .directoryTruncated)
      if record.take 4 ≠ directorySignature then throw (.malformed .directorySignature)
      let nameSize := record.field 28 2
      let extraSize := record.field 30 2
      let commentSize := record.field 32 2
      let texts := rest.drop directoryRecordSize
      let flags := record.field 8 2
      let fullName ← decodeName flags (texts.take nameSize)
      let version := record.field 6 1
      if newestVersion < version then throw (.unsupported (.version version))
      let extra := (texts.drop nameSize).take extraSize
      let member ← widenSizes (extra.length + 1) extra
        { fullName := fullName
          flags := flags
          method := record.field 10 2
          checksum := record.field 16 4
          compressedSize := record.field 20 4
          size := record.field 24 4
          offset := record.field 42 4 }
      let taken := directoryRecordSize + nameSize + extraSize + commentSize
      let others ← readDirectory shift steps (remaining - taken) (rest.drop taken)
      return { member with offset := member.offset + shift } :: others

end Archive

/-- An opened archive: its bytes as they were then, with its members and the offset of its directory. -/
structure Archive where
  data : Bytes
  members : List Archive.Member
  directoryStart : Nat
deriving DecidableEq, Repr

namespace Archive

def «open» (data : Bytes) : Except Error Archive := do
  let record ← EndRecord.find data
  let wideSizes := if record.wide then EndRecord.wideSize + EndRecord.locatorSize else 0
  let start : Int := (record.location : Int) - record.directorySize - wideSizes
  if start < 0 then throw (.malformed .directoryOffset)
  let directory := data.slice start.toNat record.directorySize
  let members ← readDirectory (start - record.directoryOffset) (record.directorySize + 1) record.directorySize directory
  return ⟨data, members, start.toNat⟩

end Archive
end ClassDump
