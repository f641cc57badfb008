import RowTypes.Main
import RowTypes.Proofs.Resolution
import RowTypes.Proofs.Sorting
import RowTypes.Proofs.Visibility
import RowTypes.Proofs.DiskChanges
import RowTypes.Proofs.Interleaving
import RowTypes.Proofs.OutDirectory
import RowTypes.Proofs.MakingDirectories
import RowTypes.Proofs.Precedence
import RowTypes.Proofs.References
import RowTypes.Proofs.Footprints
import RowTypes.Proofs.Separation
import RowTypes.Proofs.GenerateRuns
import RowTypes.Proofs.Grammar
import RowTypes.Proofs.Tokens
import RowTypes.Proofs.Reading
import RowTypes.Proofs.Strings
import RowTypes.Proofs.Values
import RowTypes.Proofs.Skipping
import RowTypes.Proofs.Records
import RowTypes.Proofs.Refusing
import RowTypes.Proofs.Spellings
import RowTypes.Proofs.RoundTrips
import RowTypes.Proofs.Merging
import RowTypes.Proofs.Overriding
import RowTypes.Proofs.EntryOrder
import RowTypes.Proofs.Characters
import RowTypes.Proofs.Lookahead
import RowTypes.Proofs.Sources
import RowTypes.Proofs.Reloading
import RowTypes.Proofs.Layout
import RowTypes.Proofs.AllOrNothing
import RowTypes.Proofs.DocComments
import RowTypes.Proofs.Exports
import RowTypes.Proofs.Literals
import RowTypes.Proofs.Building
import RowTypes.Proofs.TableNames
import RowTypes.Proofs.Settings
import RowTypes.Proofs.Inserts
import RowTypes.Proofs.ByteOrder
import RowTypes.Proofs.Words
import RowTypes.Proofs.Keys
import RowTypes.Proofs.Containment
