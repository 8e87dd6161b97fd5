import TableQuery.Main
import TableQuery.Client.Basic
import TableQuery.Proofs.Client.Delivery
import TableQuery.Proofs.Filter.Grammar
import TableQuery.Proofs.Filter.Meaning
import TableQuery.Proofs.Query.Composition
import TableQuery.Proofs.Json.Lexeme
import TableQuery.Proofs.Json.Reading
import TableQuery.Proofs.Json.RoundTrip
import TableQuery.Proofs.Response.Decoding
import TableQuery.Proofs.Response.Batch
import TableQuery.Proofs.Response.Rejection
import TableQuery.Proofs.Url.Decoding
import TableQuery.Proofs.Client.WireForm
import TableQuery.Proofs.Parameter.Edit
import TableQuery.Proofs.Query.Run
import TableQuery.Proofs.Query.Record
import TableQuery.Proofs.Client.Agreement
import TableQuery.Proofs.Client.Rejection
import TableQuery.Proofs.Filter.Conservation
import TableQuery.Proofs.Url.Uniqueness
import TableQuery.Proofs.Parameter.Form
import TableQuery.Proofs.Client.Address
import TableQuery.Proofs.Filter.Depth
import TableQuery.Proofs.Response.Rows
import TableQuery.Proofs.Response.Facets
import TableQuery.Proofs.Response.Schema
import TableQuery.Proofs.Parameter.Independence
import TableQuery.Proofs.Parameter.Merge
import TableQuery.Proofs.Query.Selection
import TableQuery.Proofs.Query.Values
import TableQuery.Proofs.Client.Posting
import TableQuery.Proofs.Command.Integer
import TableQuery.Proofs.Command.Sort
import TableQuery.Proofs.Client.Routing
import TableQuery.Proofs.Client.Settings
