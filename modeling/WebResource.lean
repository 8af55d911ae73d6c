import WebResource.Text.Blank
import WebResource.Text.Split
import WebResource.Text.Form
import WebResource.Text.Integer
import WebResource.Text.Quoted
import WebResource.Text.Uuid
import WebResource.Binary64.Shortest
import WebResource.Json.Printer
import WebResource.Json.Reader
import WebResource.Path
import WebResource.Negotiation
import WebResource.Problem
import WebResource.Prog
import WebResource.Message.Basic
import WebResource.Id.Lens
import WebResource.Env.Options
import WebResource.Transport.Retry
import WebResource.Client.Entities
import WebResource.Resource.Handler
import WebResource.Sample.Behavior
import WebResource.Sample.Handlers
import WebResource.Sample.Service
import WebResource.Sample.Codecs
import WebResource.Sample.Workbench
import WebResource.Sample.Contexts
import WebResource.Sample.Placeholders
import WebResource.Proofs.Path.Cursor
import WebResource.Proofs.Client.Identifiers
import WebResource.Proofs.Codec.Lists
import WebResource.Proofs.Resource.FailedRequests
import WebResource.Proofs.Sample.CounterClient
import WebResource.Proofs.Router.Plan
import WebResource.Proofs.Router.Patterns
import WebResource.Proofs.Router.Shape
import WebResource.Proofs.Router.Registering
import WebResource.Proofs.Context.Params
import WebResource.Proofs.Router.Matching
import WebResource.Proofs.Router.Merging
import WebResource.Proofs.Router.Mounting
import WebResource.Proofs.Router.Locality
import WebResource.Proofs.Router.Rejection
import WebResource.Proofs.Message.Target
import WebResource.Proofs.Router.Rewinding
import WebResource.Proofs.Resource.CompleteLists
import WebResource.Proofs.Interleaving.Atomic
import WebResource.Proofs.Interleaving.Runs
import WebResource.Proofs.Resource.Concurrency
import WebResource.Proofs.Json.Steps
import WebResource.Proofs.Codec.Scanning
import WebResource.Proofs.Codec.Buffering
import WebResource.Proofs.Codec.Cutting
import WebResource.Proofs.Codec.Arrays
import WebResource.Proofs.Context.Waiting
import WebResource.Proofs.Context.Lineage
import WebResource.Proofs.Transport.Observing
import WebResource.Proofs.Transport.Retries
import WebResource.Proofs.Transport.Interruption
import WebResource.Proofs.Transport.Budget
import WebResource.Proofs.Coherence
import WebResource.Proofs.Resource.Panics
import WebResource.Proofs.Resource.Gating
import WebResource.Proofs.Message.Errors
import WebResource.Proofs.Sample.Isolation
import WebResource.Proofs.Sample.Replacing
import WebResource.Proofs.Client.Reading
import WebResource.Proofs.Client.Expansion
import WebResource.Proofs.Transport.Doubling
import WebResource.Proofs.Media.Accept
import WebResource.Proofs.CodecTable
import WebResource.Proofs.Resource.BodyLimit
import WebResource.Proofs.Codec.Accounting
import WebResource.Proofs.Router.Ending
