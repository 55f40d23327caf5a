import ClassicIcons.Bytes
import ClassicIcons.RunLength.Group
import ClassicIcons.RunLength.Unpack
import ClassicIcons.RunLength.Pack
import ClassicIcons.Tag
import ClassicIcons.Kind
import ClassicIcons.Icns.Error
import ClassicIcons.Icns.Element
import ClassicIcons.Icns.Family
import ClassicIcons.Text.MacRoman
import ClassicIcons.Text.Utf8
import ClassicIcons.Text.Utf16
import ClassicIcons.Text.Classic
import ClassicIcons.Text.Printable
import ClassicIcons.Text.Quoted
import ClassicIcons.Zlib.Decoder
import ClassicIcons.Zlib.Source
import ClassicIcons.Zlib.Huffman
import ClassicIcons.Zlib.Block
import ClassicIcons.Zlib.Stream
import ClassicIcons.Disk.Fault
import ClassicIcons.Archive.Error
import ClassicIcons.Archive.Header
import ClassicIcons.Archive.Icon
import ClassicIcons.Archive.Record
import ClassicIcons.Archive.Walk
import ClassicIcons.Icns.Conversion
import ClassicIcons.Disk.Path
import ClassicIcons.Disk.Storage
import ClassicIcons.Disk.Basic
import ClassicIcons.Log
import ClassicIcons.Extract.FileName
import ClassicIcons.Extract.Basic
import ClassicIcons.Command.Arguments
import ClassicIcons.Command.Listing
import ClassicIcons.Command.Run
import ClassicIcons.Main
import ClassicIcons.Proofs.RunLength.RoundTrip
import ClassicIcons.Proofs.Archive.Places
import ClassicIcons.Proofs.Archive.Progress
import ClassicIcons.Proofs.Archive.HeaderForm
import ClassicIcons.Proofs.Archive.Isolation
import ClassicIcons.Proofs.Icns.Planes
import ClassicIcons.Proofs.Icns.RoundTrip
import ClassicIcons.Proofs.Icns.Conversion
import ClassicIcons.Proofs.Zlib.Room
import ClassicIcons.Archive.Build
import ClassicIcons.Proofs.Archive.RecordForm
import ClassicIcons.Proofs.Archive.Frames
import ClassicIcons.Proofs.Archive.Pictures
import ClassicIcons.Proofs.Archive.Entries
import ClassicIcons.Proofs.Archive.Built
import ClassicIcons.Proofs.Preservation
import ClassicIcons.Proofs.RunLength.Grammar
import ClassicIcons.Proofs.Icns.Acceptance
import ClassicIcons.Proofs.Icns.Appearance
import ClassicIcons.Proofs.Archive.Faults
import ClassicIcons.Proofs.Archive.Icons
import ClassicIcons.Proofs.Archive.Images
import ClassicIcons.Proofs.Icns.Colors
import ClassicIcons.Proofs.Disk.Acceptance
import ClassicIcons.Proofs.Extract.Completion
import ClassicIcons.Proofs.Extract.Outcome
import ClassicIcons.Proofs.Extract.Failure
import ClassicIcons.Proofs.Archive.ExtendedLayout
import ClassicIcons.Proofs.Archive.LegacyLayout
import ClassicIcons.Proofs.Archive.Messages
import ClassicIcons.Proofs.Command.Listing
import ClassicIcons.Proofs.Command.Agreement
import ClassicIcons.Proofs.Icns.PlaneForm
import ClassicIcons.Proofs.Icns.FamilyShape
import ClassicIcons.Proofs.Checked.Icon
import ClassicIcons.Proofs.Checked.File
import ClassicIcons.Proofs.Archive.RecordHeader
import ClassicIcons.Proofs.Archive.HeaderChecks
import ClassicIcons.Proofs.Extract.Confinement
import ClassicIcons.Proofs.Text.Bytewise
import ClassicIcons.Proofs.RunLength.Canonical
import ClassicIcons.Proofs.RunLength.Sizes
import ClassicIcons.Proofs.Icns.Sizes
