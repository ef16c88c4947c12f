import ClassDump.Archive.Bzip2
import ClassDump.Archive.Inflate
import ClassDump.Archive.Lzma
import ClassDump.Archive.MemberName
import ClassDump.Store.Errno
import ClassDump.Text.Quoted

/-! What can go wrong with an archive, when it is opened and when a member is read. -/

namespace ClassDump.Archive

/-- The size that an extra field of an archive fails to give. -/
inductive WideField where
  | fileSize
  | compressedSize
  | headerOffset
deriving DecidableEq, Repr

namespace WideField

def text : WideField → String
  | .fileSize => "File size"
  | .compressedSize => "Compress size"
  | .headerOffset => "Header offset"

end WideField

/-- How the bytes of an archive contradict its format. -/
inductive Malformed where
  | notAnArchive
  | severalDisks
  | directoryOffset
  | directoryTruncated
  | directorySignature
  | extraField (tag size : Nat)
  | wideField (field : WideField)
  | headerTruncated
  | headerSignature
  | nameMismatch (inDirectory : String) (inHeader : Bytes)
  | overlap (name : String)
  | checksum (name : String)
deriving DecidableEq, Repr

namespace Malformed

def message : Malformed → String
  | .notAnArchive => "File is not a zip file"
  | .severalDisks => "zipfiles that span multiple disks are not supported"
  | .directoryOffset => "Bad offset for central directory"
  | .directoryTruncated => "Truncated central directory"
  | .directorySignature => "Bad magic number for central directory"
  | .extraField tag size =>
    "Corrupt extra field " ++ String.ofList (Text.paddedHex 4 tag) ++ " (size=" ++ toString size ++ ")"
  | .wideField field => "Corrupt zip64 extra field. " ++ field.text ++ " not found."
  | .headerTruncated => "Truncated file header"
  | .headerSignature => "Bad magic number for file header"
  | .nameMismatch inDirectory inHeader =>
    "File name in directory " ++ Text.quote inDirectory ++ " and header " ++ Text.quoteBytes inHeader ++ " differ."
  | .overlap name => "Overlapped entries: " ++ Text.quote name ++ " (possible zip bomb)"
  | .checksum name => "Bad CRC-32 for file " ++ Text.quote name

end Malformed

/-- A part of the format that is not supported. -/
inductive Unsupported where
  | version (tenths : Nat)
  | patched
  | strongEncryption
  | method
deriving DecidableEq, Repr

namespace Unsupported

def message : Unsupported → String
  | .version tenths => s!"zip file version {tenths / 10}.{tenths % 10}"
  | .patched => "compressed patched data (flag bit 5)"
  | .strongEncryption => "strong encryption (flag bit 6)"
  | .method => "That compression method is not supported"

end Unsupported

/-- Why an archive cannot be opened or a member cannot be read. -/
inductive Error where
  | malformed (reason : Malformed)
  | unsupported (reason : Unsupported)
  | encrypted (name : String)
  | encoding (error : Utf8Error)
  | deflated (fault : Inflate.Fault)
  | blockSorted (fault : Bzip2.Fault)
  | rangeCoded (fault : Lzma.Fault)
  | ended
  | offsetTooWide
  | os (error : OsError)
deriving DecidableEq, Repr

namespace Error

def message : Error → String
  | .malformed reason => reason.message
  | .unsupported reason => reason.message
  | .encrypted name => "File " ++ Text.quote name ++ " is encrypted, password required for extraction"
  | .encoding error => error.message
  | .deflated fault => "Error -3 while decompressing data: " ++ fault.text
  | .blockSorted fault => fault.text
  | .rangeCoded fault => fault.text
  | .ended => ""
  | .offsetTooWide => "cannot fit 'int' into an offset-sized integer"
  | .os error => error.message

end Error
end ClassDump.Archive
