import Solr.Clause
import Solr.Json.Variant
import Solr.Main
import Solr.Query.Call
import Solr.Proofs.Clause.Values
import Solr.Proofs.Text.Numerals
import Solr.Proofs.Clause.Ranges
import Solr.Proofs.Binary.Rounding
import Solr.Proofs.Binary.Decimal
import Solr.Proofs.Binary.Shortest
import Solr.Proofs.Json.Numerals
import Solr.Proofs.Json.Doubles
import Solr.Proofs.Json.Reading
import Solr.Proofs.Json.Values
import Solr.Proofs.Deletion
import Solr.Proofs.Text.Utf8
import Solr.Proofs.Url.Form
import Solr.Proofs.Entries
import Solr.Proofs.Json.Canonical
import Solr.Proofs.Parameters
import Solr.Proofs.Http.Target
import Solr.Proofs.Query.Compile
import Solr.Proofs.Query.Facet
import Solr.Proofs.Service.Asking
import Solr.Proofs.Query.Extension
import Solr.Proofs.Query.Calls
import Solr.Proofs.Service.Deciding
import Solr.Proofs.Http.Headers
import Solr.Proofs.Service.Sending
import Solr.Proofs.Json.Precision
import Solr.Proofs.Document.Layout
import Solr.Proofs.Update
import Solr.Proofs.Json.Outlines
import Solr.Proofs.Json.Recoding
import Solr.Proofs.Json.Sweeps
import Solr.Proofs.Json.Records
import Solr.Proofs.Document.Lawful
import Solr.Proofs.Answer.Recoding
import Solr.Proofs.Json.Shape
import Solr.Proofs.Answer.Shapes
import Solr.Proofs.Json.Carrying
import Solr.Proofs.Json.Settling
import Solr.Proofs.Answer.FacetValues
import Solr.Proofs.Answer.FacetWalks
import Solr.Proofs.Answer.FacetedGroups
import Solr.Proofs.Json.Edits
import Solr.Proofs.Document.Unordered
import Solr.Proofs.Answer.Edits
import Solr.Proofs.Service.Events
import Solr.Proofs.CommandLine.Options
import Solr.Proofs.CommandLine.Lines
import Solr.Proofs.CommandLine.Checks
import Solr.Proofs.CommandLine.Asking
import Solr.Proofs.Json.Agreement
import Solr.Proofs.Json.Indented
import Solr.Proofs.CommandLine.Ending
import Solr.Proofs.CommandLine.Posting
import Solr.Proofs.Text.Cells
import Solr.Proofs.Calendar.Dates
import Solr.Proofs.Calendar.Order
import Solr.Proofs.Clause.DateBounds
import Solr.Proofs.Query.Locality
import Solr.Proofs.Query.Spatial
import Solr.Proofs.Http.Layers
import Solr.Proofs.Query.Insertion
import Solr.Proofs.Query.Lists
import Solr.Proofs.Service.Addressing
import Solr.Proofs.Binary.Whole
import Solr.Proofs.Binary.Digits
import Solr.Proofs.Json.WholeDoubles
import Solr.Proofs.Parameters.Numbers
import Solr.Proofs.Url.Paths
import Solr.Proofs.Url.Parse
