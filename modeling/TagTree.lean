import TagTree.CommandLine
import TagTree.Database
import TagTree.Database.File
import TagTree.Database.Text
import TagTree.Database.Write
import TagTree.Directory
import TagTree.Directory.Handle
import TagTree.Dump
import TagTree.Error
import TagTree.Error.Message
import TagTree.Header
import TagTree.Image
import TagTree.Image.Children
import TagTree.Image.Outline
import TagTree.Image.Record
import TagTree.Image.Value
import TagTree.LittleEndian
import TagTree.Main
import TagTree.Match
import TagTree.Numeral
import TagTree.Path
import TagTree.Proofs.Acceptance
import TagTree.Proofs.Backing
import TagTree.Proofs.Bounds
import TagTree.Proofs.Capacity
import TagTree.Proofs.Confinement
import TagTree.Proofs.Copying
import TagTree.Proofs.Cursor
import TagTree.Proofs.Decoding
import TagTree.Proofs.Draft
import TagTree.Proofs.Dropping
import TagTree.Proofs.Exhaustion
import TagTree.Proofs.Extents
import TagTree.Proofs.Flushing
import TagTree.Proofs.Forest
import TagTree.Proofs.Forgetting
import TagTree.Proofs.Growth
import TagTree.Proofs.Interning
import TagTree.Proofs.Layout
import TagTree.Proofs.Listing
import TagTree.Proofs.Loading
import TagTree.Proofs.Matching
import TagTree.Proofs.Navigation
import TagTree.Proofs.Numerals
import TagTree.Proofs.Observation
import TagTree.Proofs.OpenLists
import TagTree.Proofs.Opening
import TagTree.Proofs.Pool
import TagTree.Proofs.ReadBack
import TagTree.Proofs.Record
import TagTree.Proofs.Reencoding
import TagTree.Proofs.Reloading
import TagTree.Proofs.RoundTrip
import TagTree.Proofs.Run
import TagTree.Proofs.Searching
import TagTree.Proofs.Sections
import TagTree.Proofs.Sequence
import TagTree.Proofs.StoredText
import TagTree.Proofs.Succession
import TagTree.Proofs.Table
import TagTree.Proofs.Termination
import TagTree.Proofs.Truncation
import TagTree.Proofs.Utf16
import TagTree.Proofs.Walk
import TagTree.Proofs.Writing
import TagTree.StringPool
import TagTree.Tag
import TagTree.Tag.Catalogue
import TagTree.Text.GraphemeExtend
import TagTree.Text.Printable
import TagTree.Text.Quoted
import TagTree.Text.Utf16
import TagTree.Text.Utf8
