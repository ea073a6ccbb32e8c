import Stepwise.Flow.Diagram
import Stepwise.Flow.Loading
import Stepwise.Flow.Registry
import Stepwise.Progress.Store
import Stepwise.Service.Selection
import Stepwise.Tracing.Span
import Stepwise.Proofs.Order.Least
import Stepwise.Proofs.Order.Stuck
import Stepwise.Proofs.Flow.Sorting
import Stepwise.Proofs.Flow.Sharing
import Stepwise.Proofs.Entries
import Stepwise.Proofs.Json.Number
import Stepwise.Proofs.Json.Reading
import Stepwise.Proofs.Json.Refusal
import Stepwise.Proofs.Json.Spelling
import Stepwise.Proofs.Progress.Client
import Stepwise.Proofs.Progress.History
import Stepwise.Proofs.Progress.RoundTrip
import Stepwise.Proofs.Service.Log
import Stepwise.Proofs.Service.Choice
import Stepwise.Proofs.Flow.WellFormed
import Stepwise.Proofs.Flow.Availability
import Stepwise.Proofs.Value.Json
import Stepwise.Proofs.Document.Flow
import Stepwise.Proofs.Progress.Completion
import Stepwise.Proofs.Service.Growth
import Stepwise.Proofs.Flow.Binding
import Stepwise.Proofs.Session.Scope
import Stepwise.Proofs.Progress.Limit
import Stepwise.Proofs.Progress.Recording
import Stepwise.Proofs.Progress.Tally
import Stepwise.Proofs.Json.Nesting
import Stepwise.Proofs.Progress.Loading
import Stepwise.Proofs.Flow.References
import Stepwise.Proofs.Flow.Rearrangement
import Stepwise.Proofs.Flow.Drawing
import Stepwise.Proofs.Flow.Legibility
import Stepwise.Proofs.Step.Construction
import Stepwise.Proofs.Tracing.Configuration
import Stepwise.Proofs.Tracing.Brackets
