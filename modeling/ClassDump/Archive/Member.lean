import ClassDump.Archive.Directory
import ClassDump.Bytes

/-! Reading a member of an opened archive. Of members with one name the last counts. -/

namespace ClassDump.Archive

/-- The reflected polynomial of the check over a member's contents. -/
def checksumPoly : UInt64 := 0xEDB88320

def checksum (data : Bytes) : UInt64 :=
  Crc.update checksumPoly 0xFFFFFFFF data ^^^ 0xFFFFFFFF

/-- The offset at which each of the members, which come from the last to the first, has to end: where the one after it
starts, or the directory. -/
def endOffsets : Int → List Member → List Int
  | _, [] => []
  | limit, member :: rest => limit :: endOffsets member.offset rest

/-- The member that a name stands for, with its place in the directory. -/
def find? (archive : Archive) (name : String) : Option (Member × Nat) :=
  archive.members.zipIdx.reverse.find? fun entry => entry.1.name == name

/-- The offset at which the member at a place of the directory has to end. -/
def endOffset (archive : Archive) (place : Nat) : Int :=
  let ordered := archive.members.zipIdx.mergeSort fun first second => second.1.offset ≤ first.1.offset
  let limits := endOffsets archive.directoryStart (ordered.map (·.1))
  (((ordered.map (·.2)).zip limits).lookup place).getD archive.directoryStart

def headerSize : Nat := 30

def headerSignature : Bytes := [0x50, 0x4B, 0x03, 0x04]

inductive Method where
  | stored
  | deflated
  | blockSorted
  | rangeCoded
deriving DecidableEq, Repr

namespace Method

/-- The method of a number in the directory, if there is a reading of it. -/
def ofNumber? : Nat → Option Method
  | 0 => some .stored
  | 8 => some .deflated
  | 12 => some .blockSorted
  | 14 => some .rangeCoded
  | _ => none

/-- The output of the data, and whether they are complete. Data that are not compressed never say that they are. -/
def unpack (method : Method) (data : Bytes) : Except Error (Bytes × Bool) :=
  match method with
  | .stored => .ok (data, false)
  | .deflated => (Inflate.run data).mapError .deflated
  | .blockSorted => (Bzip2.run data).mapError .blockSorted
  | .rangeCoded => (Lzma.run data).mapError .rangeCoded

end Method

/-- The contents that data stand for, cut to the size that the directory states. Where the data end too early, what
they say so far counts; `short` says that the archive itself ends within them. -/
def contents (method : Method) (size : Nat) (data : Bytes) (short : Bool) : Except Error Bytes :=
  if short ∧ data.isEmpty then .error .ended
  else
    match method.unpack data with
    | .error error => .error error
    | .ok (output, finished) =>
      if short ∧ !finished ∧ output.length < size then .error .ended else .ok (output.take size)

/-- The system is asked for offsets of 64 bits with a sign: they lie below this one. -/
def offsetBound : Int := 0x8000000000000000

def offsetMax : Int := 0xFFFFFFFF000

/-- Going to an offset of the archive. One that no file has is refused, one beyond the end of this file is not. -/
def seek (offset : Int) : Except Error Unit :=
  if offset < -offsetBound ∨ offsetBound ≤ offset then .error .offsetTooWide
  else if offset < 0 ∨ offsetMax < offset then .error (.os (.refused .invalid none none))
  else .ok ()

/-- The contents of a member, by its header and its data. -/
def readMember (archive : Archive) (member : Member) (place : Nat) (name : String) : Except Error Bytes := do
  seek member.offset
  let rest := archive.data.drop member.offset.toNat
  let header : Bytes := rest.take headerSize
  if header.length ≠ headerSize then throw (.malformed .headerTruncated)
  if header.take 4 ≠ headerSignature then throw (.malformed .headerSignature)
  let texts := rest.drop headerSize
  let headerName : Bytes := texts.take (header.field 26 2)
  let extra := (texts.drop headerName.length).take (header.field 28 2)
  if member.hasFlag 5 then throw (.unsupported .patched)
  if member.hasFlag 6 then throw (.unsupported .strongEncryption)
  if (← decodeName (header.field 6 2) headerName) ≠ member.fullName then
    throw (.malformed (.nameMismatch member.fullName headerName))
  let start := member.offset + headerSize + headerName.length + extra.length
  if archive.endOffset place < start + member.compressedSize then throw (.malformed (.overlap member.fullName))
  if member.hasFlag 0 then throw (.encrypted name)
  let some method := Method.ofNumber? member.method | throw (.unsupported .method)
  let data := (texts.drop (headerName.length + extra.length)).take member.compressedSize
  let result ← contents method member.size data (data.length < member.compressedSize)
  if (checksum result).toNat ≠ member.checksum then throw (.malformed (.checksum member.name))
  return result

/-- The contents of the member with a name, if the archive has one. -/
def read (archive : Archive) (name : String) : Except Error (Option Bytes) :=
  match archive.find? name with
  | none => .ok none
  | some (member, place) => some <$> archive.readMember member place name

end ClassDump.Archive
