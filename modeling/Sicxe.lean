import Sicxe.Main
import Sicxe.Proofs.Assembly.Addresses
import Sicxe.Proofs.Assembly.Base
import Sicxe.Proofs.Assembly.BaseRelative
import Sicxe.Proofs.Assembly.Concatenation
import Sicxe.Proofs.Assembly.Declarations
import Sicxe.Proofs.Assembly.Decoding
import Sicxe.Proofs.Assembly.Emission
import Sicxe.Proofs.Assembly.Evaluation
import Sicxe.Proofs.Assembly.Extension
import Sicxe.Proofs.Assembly.FixedLine
import Sicxe.Proofs.Assembly.Grammar
import Sicxe.Proofs.Assembly.Imports
import Sicxe.Proofs.Assembly.Layout
import Sicxe.Proofs.Assembly.Line
import Sicxe.Proofs.Assembly.LiteralSigns
import Sicxe.Proofs.Assembly.LiteralWord
import Sicxe.Proofs.Assembly.Literals
import Sicxe.Proofs.Assembly.Module
import Sicxe.Proofs.Assembly.Moved.Module
import Sicxe.Proofs.Assembly.Names
import Sicxe.Proofs.Assembly.Placing
import Sicxe.Proofs.Assembly.Reference
import Sicxe.Proofs.Assembly.Relocations
import Sicxe.Proofs.Assembly.SignedSum
import Sicxe.Proofs.Assembly.Size
import Sicxe.Proofs.Assembly.Statements
import Sicxe.Proofs.Assembly.StoredAddresses
import Sicxe.Proofs.Assembly.WordAddend
import Sicxe.Proofs.Assembly.Words
import Sicxe.Proofs.Bytes
import Sicxe.Proofs.InPlace
import Sicxe.Proofs.Instruction.Codec
import Sicxe.Proofs.Instruction.RoundTrip
import Sicxe.Proofs.Link.Absolute
import Sicxe.Proofs.Link.Exports
import Sicxe.Proofs.Link.Frame
import Sicxe.Proofs.Link.FromText
import Sicxe.Proofs.Link.Grouping
import Sicxe.Proofs.Link.Image
import Sicxe.Proofs.Link.Layout
import Sicxe.Proofs.Link.Order
import Sicxe.Proofs.Link.Overlap
import Sicxe.Proofs.Link.ReadBack
import Sicxe.Proofs.Link.References
import Sicxe.Proofs.Link.Relocatable
import Sicxe.Proofs.Link.Sections
import Sicxe.Proofs.Machine.Effect
import Sicxe.Proofs.Machine.Fetch
import Sicxe.Proofs.Machine.Footprint
import Sicxe.Proofs.Machine.History
import Sicxe.Proofs.Machine.Imported
import Sicxe.Proofs.Machine.InPlace
import Sicxe.Proofs.Machine.LoadInPlace
import Sicxe.Proofs.Machine.Loading
import Sicxe.Proofs.Machine.Memory
import Sicxe.Proofs.Machine.Reference
import Sicxe.Proofs.Machine.Registers
import Sicxe.Proofs.Machine.Runs
import Sicxe.Proofs.Machine.Status
import Sicxe.Proofs.Object.Confined
import Sicxe.Proofs.Object.Field
import Sicxe.Proofs.Object.FieldInImage
import Sicxe.Proofs.Object.FieldInPlace
import Sicxe.Proofs.Object.Fixups
import Sicxe.Proofs.Object.Legible
import Sicxe.Proofs.Object.NormalForm
import Sicxe.Proofs.Object.NumericFields
import Sicxe.Proofs.Object.Reading
import Sicxe.Proofs.Object.Records
import Sicxe.Proofs.Object.RoundTrip
import Sicxe.Proofs.Related
import Sicxe.Proofs.Success
import Sicxe.Proofs.Symbol.Builder
import Sicxe.Proofs.Symbol.Declared
import Sicxe.Proofs.Symbol.Moved
import Sicxe.Proofs.Symbol.Table
import Sicxe.Proofs.Text.Hex
import Sicxe.Proofs.Text.Lines
import Sicxe.Proofs.Text.Numeral
import Sicxe.Proofs.Word
