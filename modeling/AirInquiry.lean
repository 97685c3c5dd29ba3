import AirInquiry.Text.Blank
import AirInquiry.Text.Alphanumeric
import AirInquiry.Text.Hidden
import AirInquiry.Text.Lowercase.Table
import AirInquiry.Text.Lowercase
import AirInquiry.Text.Quoted
import AirInquiry.Text.Search
import AirInquiry.Text.Phrase
import AirInquiry.Number.Shortest
import AirInquiry.Json.Printer
import AirInquiry.Json.Decode
import AirInquiry.GraphQL.Name
import AirInquiry.Filter.Condition
import AirInquiry.Constraints.Basic
import AirInquiry.Catalog.AirQuality
import AirInquiry.Catalog.ChoiceSchema
import AirInquiry.Selection.Object
import AirInquiry.Query.Build
import AirInquiry.Peer.Session
import AirInquiry.Peer.Pool
import AirInquiry.Names.Index
import AirInquiry.Service.Basic
import AirInquiry.Peer.Script
import AirInquiry.Settings.Basic
import AirInquiry.Client.DataService
import AirInquiry.Client.Model
import AirInquiry.Proofs.Text.Pieces
import AirInquiry.Proofs.Json.Entries
import AirInquiry.Proofs.Json.Conformance
import AirInquiry.Proofs.GraphQL.Name
import AirInquiry.Proofs.GraphQL.Token
import AirInquiry.Proofs.GraphQL.Spelling
import AirInquiry.Proofs.GraphQL.Number
import AirInquiry.Proofs.GraphQL.Grammar
import AirInquiry.Proofs.GraphQL.Constant
import AirInquiry.Proofs.GraphQL.RoundTrip
import AirInquiry.Proofs.Query.RoundTrip
import AirInquiry.Proofs.Selection.Tree
import AirInquiry.Proofs.Selection.Path
import AirInquiry.Proofs.Selection.Putting
import AirInquiry.Proofs.Selection.Rebuilding
import AirInquiry.Proofs.Selection.Registered
import AirInquiry.Proofs.Selection.Leaves
import AirInquiry.Proofs.Selection.Offered
import AirInquiry.Proofs.Selection.Marked
import AirInquiry.Proofs.Peer.Calls
import AirInquiry.Proofs.Query.Safety
import AirInquiry.Proofs.Peer.Interleaving
import AirInquiry.Proofs.Lookup.Interleaving
import AirInquiry.Proofs.Lookup.Results
import AirInquiry.Proofs.Lookup.Survival
import AirInquiry.Proofs.Peer.Turns
import AirInquiry.Proofs.Lookup.History
import AirInquiry.Proofs.Lookup.Clock
import AirInquiry.Proofs.Lookup.Course
import AirInquiry.Proofs.Lookup.Reports
import AirInquiry.Proofs.Query.Canonical
import AirInquiry.Proofs.Filter.Written
import AirInquiry.Proofs.Filter.RoundTrip
import AirInquiry.Proofs.Constraints.RoundTrip
import AirInquiry.Proofs.Constraints.WellFormed
import AirInquiry.Proofs.Selection.Fetched
import AirInquiry.Proofs.Peer.Deadline
import AirInquiry.Proofs.Responder.TimeLimit
import AirInquiry.Proofs.Answer.Wording
import AirInquiry.Proofs.Service.Responses
import AirInquiry.Proofs.Inference.Candidates
import AirInquiry.Proofs.Filter.Passing
import AirInquiry.Proofs.Inference.Links
import AirInquiry.Proofs.Text.Ranges
import AirInquiry.Proofs.Text.Words
import AirInquiry.Proofs.Names.Mentions
import AirInquiry.Proofs.Inference.StatedLimit
import AirInquiry.Proofs.Selection.Grouped
import AirInquiry.Proofs.Selection.Shape
import AirInquiry.Proofs.GraphQL.Literal
import AirInquiry.Proofs.Filter.Pruning
import AirInquiry.Proofs.Json.Ordered
import AirInquiry.Proofs.Lookup.Accumulation
import AirInquiry.Proofs.Number.Rounding
import AirInquiry.Proofs.Filter.Range
import AirInquiry.Proofs.Inference.CandidateSet
import AirInquiry.Proofs.Text.Phrases
import AirInquiry.Proofs.Inference.DatedLimit
import AirInquiry.Proofs.Json.Records
import AirInquiry.Proofs.Plan.Findings
import AirInquiry.Proofs.Plan.Cleaning
import AirInquiry.Proofs.Selection.Keeping
