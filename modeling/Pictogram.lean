import Pictogram.Component.Source
import Pictogram.Markup.Cleanup
import Pictogram.Markup.Forest
import Pictogram.Text.Identifier
import Pictogram.Files.Tree
import Pictogram.Settings.Config
import Pictogram.Conversion.Basic
import Pictogram.Script.Module
import Pictogram.Command.Settings
import Pictogram.Command.Batch
import Pictogram.Main
import Pictogram.Proofs.Text.Span
import Pictogram.Proofs.Cleanup.Keeping
import Pictogram.Proofs.Cleanup.Meaning
import Pictogram.Proofs.Cleanup.Pruning
import Pictogram.Proofs.Cleanup.Rereading
import Pictogram.Proofs.Cleanup.Trimming
import Pictogram.Proofs.Markup.AttributeList
import Pictogram.Proofs.Markup.Content
import Pictogram.Proofs.Markup.Forest
import Pictogram.Proofs.Markup.Growth
import Pictogram.Proofs.Markup.Joining
import Pictogram.Proofs.Markup.Listing
import Pictogram.Proofs.Markup.Decoding
import Pictogram.Proofs.Markup.Reading
import Pictogram.Proofs.Markup.Remainder
import Pictogram.Proofs.Markup.TagContent
import Pictogram.Proofs.Markup.Token
import Pictogram.Proofs.Text.Lowercase
import Pictogram.Proofs.Conversion.Fallback
import Pictogram.Proofs.Component.Survivors
import Pictogram.Proofs.Component.PlainNames
import Pictogram.Proofs.Component.Escaping
import Pictogram.Proofs.Component.Rows
import Pictogram.Proofs.Component.PrintedTag
import Pictogram.Proofs.Component.Restoring
import Pictogram.Proofs.Component.Replacing
import Pictogram.Proofs.Component.Passing
import Pictogram.Proofs.Component.Referring
import Pictogram.Proofs.Text.Tidying
import Pictogram.Proofs.Component.Grammar
import Pictogram.Proofs.Component.Rejecting
import Pictogram.Proofs.Text.Padding
import Pictogram.Proofs.Component.Exhausting
import Pictogram.Proofs.Component.Returning
import Pictogram.Proofs.Component.Deriving
import Pictogram.Proofs.Component.Mistaking
import Pictogram.Proofs.Component.WellFormed
import Pictogram.Proofs.Cleanup.Showing
import Pictogram.Proofs.Markup.Document
import Pictogram.Proofs.Markup.DocumentReading
import Pictogram.Proofs.Component.Unpadding
import Pictogram.Proofs.Files.Paths
import Pictogram.Proofs.Files.Following
import Pictogram.Proofs.Conversion.Locating
import Pictogram.Proofs.Command.Planning
import Pictogram.Proofs.Command.Running
import Pictogram.Proofs.Command.Reporting
import Pictogram.Proofs.Command.Naming
import Pictogram.Proofs.Component.Collapsing
import Pictogram.Proofs.Text.ShownLines
import Pictogram.Proofs.Component.Annotating
import Pictogram.Proofs.Command.Searching
import Pictogram.Proofs.Component.Capitalizing
import Pictogram.Proofs.Command.Accepting
import Pictogram.Proofs.Text.Splitting
import Pictogram.Proofs.Component.Nesting
import Pictogram.Proofs.Component.Indenting
