import ClassDump.Archive.BitReader
import ClassDump.Archive.BlockSort
import ClassDump.Archive.Bzip2
import ClassDump.Archive.Directory
import ClassDump.Archive.Error
import ClassDump.Archive.Inflate
import ClassDump.Archive.Lzma
import ClassDump.Archive.Member
import ClassDump.Archive.MemberName
import ClassDump.Archive.RangeReader
import ClassDump.BuildStep
import ClassDump.Bytes
import ClassDump.ClassKey
import ClassDump.Classpath.Entry
import ClassDump.Classpath.Lookup
import ClassDump.Classpath.Value
import ClassDump.CommandLine.Arguments
import ClassDump.CommandLine.Flag
import ClassDump.CommandLine.Run
import ClassDump.CommandLine.Usage
import ClassDump.Decimal.Binary64
import ClassDump.Decimal.Numeral
import ClassDump.Disk
import ClassDump.Failure
import ClassDump.Main
import ClassDump.Path
import ClassDump.Pipeline
import ClassDump.Proofs.ClassKey.Decoding
import ClassDump.Proofs.Classpath.Answer
import ClassDump.Proofs.Classpath.Conversion
import ClassDump.Proofs.Classpath.Delimited
import ClassDump.Proofs.Classpath.FirstAnswer
import ClassDump.Proofs.Classpath.Lifetime
import ClassDump.Proofs.Classpath.Resolved
import ClassDump.Proofs.Classpath.Snapshots
import ClassDump.Proofs.CommandLine.Ending
import ClassDump.Proofs.CommandLine.Stages
import ClassDump.Proofs.CommandLine.Verbosity
import ClassDump.Proofs.Crc.Identity
import ClassDump.Proofs.Crc.Remainder
import ClassDump.Proofs.Crc.Table
import ClassDump.Proofs.Crc.Window
import ClassDump.Proofs.Path.Descend
import ClassDump.Proofs.Path.Written
import ClassDump.Proofs.Pipeline.Adapters
import ClassDump.Proofs.Pipeline.Announced
import ClassDump.Proofs.Pipeline.Blank
import ClassDump.Proofs.Pipeline.Consistency
import ClassDump.Proofs.Pipeline.DefaultExclusion
import ClassDump.Proofs.Pipeline.Failure
import ClassDump.Proofs.Pipeline.KeepLaw
import ClassDump.Proofs.Pipeline.Outcome
import ClassDump.Proofs.Pipeline.Reuse
import ClassDump.Proofs.Pipeline.Stages
import ClassDump.Proofs.Progress.Course
import ClassDump.Proofs.Progress.Exact
import ClassDump.Proofs.Progress.Reconcile
import ClassDump.Proofs.Progress.Reference
import ClassDump.Proofs.Reconcile.Completion
import ClassDump.Proofs.Reconcile.Conservation
import ClassDump.Proofs.Reconcile.Forecast
import ClassDump.Proofs.Reconcile.Isolation
import ClassDump.Proofs.Reconcile.Outside
import ClassDump.Proofs.Reconcile.Rehearsal
import ClassDump.Proofs.Reconcile.Staged
import ClassDump.Proofs.Reconcile.Underway
import ClassDump.Proofs.Reconcile.Visit
import ClassDump.Proofs.Reference.Appended
import ClassDump.Proofs.Reference.Complete
import ClassDump.Proofs.Reference.Exact
import ClassDump.Proofs.Reference.Key
import ClassDump.Proofs.Reference.Listed
import ClassDump.Proofs.Reference.Naming
import ClassDump.Proofs.Reference.Readable
import ClassDump.Proofs.Reference.Sequence
import ClassDump.Proofs.Reference.Visit
import ClassDump.Proofs.Relocation.Ancestors
import ClassDump.Proofs.Relocation.CrossDevice
import ClassDump.Proofs.Relocation.Displaced
import ClassDump.Proofs.Relocation.Effect
import ClassDump.Proofs.Relocation.Exact
import ClassDump.Proofs.Relocation.Frame
import ClassDump.Proofs.Relocation.MakeDirs
import ClassDump.Proofs.Relocation.Move
import ClassDump.Proofs.Relocation.Outcome
import ClassDump.Proofs.Relocation.Prepared
import ClassDump.Proofs.Relocation.Refusal
import ClassDump.Proofs.Store.Entry
import ClassDump.Proofs.Store.Leads
import ClassDump.Proofs.Store.Legal
import ClassDump.Proofs.Store.Reach
import ClassDump.Proofs.Store.RealPath
import ClassDump.Proofs.Store.Resolution
import ClassDump.Proofs.Store.SameFiles
import ClassDump.Proofs.Store.Silent
import ClassDump.Proofs.Store.Slot
import ClassDump.Proofs.Store.Straight
import ClassDump.Proofs.Store.Tree
import ClassDump.Proofs.Store.Within
import ClassDump.Proofs.Text.Hex
import ClassDump.Proofs.Text.Pieces
import ClassDump.Proofs.Text.Trimmed
import ClassDump.Proofs.Walk.Abreast
import ClassDump.Proofs.Walk.Account
import ClassDump.Proofs.Walk.Agenda
import ClassDump.Proofs.Walk.Alike
import ClassDump.Proofs.Walk.Encounters
import ClassDump.Proofs.Walk.Invariant
import ClassDump.Proofs.Walk.Itinerary
import ClassDump.Proofs.Walk.Listing
import ClassDump.Proofs.Walk.Notes
import ClassDump.Proofs.Walk.Outline
import ClassDump.Proofs.Walk.Place
import ClassDump.Proofs.Walk.Preorder
import ClassDump.Proofs.Walk.Seen
import ClassDump.Proofs.Walk.Termination
import ClassDump.Proofs.Walk.Visits
import ClassDump.Reconcile
import ClassDump.Reference
import ClassDump.ReferenceSet
import ClassDump.Relocation
import ClassDump.Report
import ClassDump.Settings
import ClassDump.Stats
import ClassDump.Store.Change
import ClassDump.Store.Errno
import ClassDump.Store.Node
import ClassDump.Store.RealPath
import ClassDump.Store.Resolve
import ClassDump.Store.World
import ClassDump.Text.Blank
import ClassDump.Text.Digit
import ClassDump.Text.Printable
import ClassDump.Text.Quoted
import ClassDump.Text.Split
import ClassDump.Walk
