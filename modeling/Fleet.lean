import Fleet.Audit
import Fleet.Bus.Basic
import Fleet.Bus.Delivery
import Fleet.Caller
import Fleet.Counters
import Fleet.Dict
import Fleet.Event
import Fleet.Failure
import Fleet.Hook
import Fleet.Instance
import Fleet.Instant.Basic
import Fleet.Instant.Text
import Fleet.Json.Basic
import Fleet.Json.Reader
import Fleet.Json.Row
import Fleet.Json.Token
import Fleet.Json.Wire
import Fleet.Json.Writer
import Fleet.Lifecycle
import Fleet.Metrics
import Fleet.Number.Binary64
import Fleet.Number.Shortest
import Fleet.Plane
import Fleet.Plugin
import Fleet.Provider.Basic
import Fleet.Provider.Directory
import Fleet.Provider.Local
import Fleet.Request
import Fleet.Service.Operations
import Fleet.Service.Procedure
import Fleet.Settings
import Fleet.Store.Basic
import Fleet.Store.Listing
import Fleet.Text.Blank
import Fleet.Text.Fingerprint
import Fleet.Text.Printable
import Fleet.Text.Quoted
import Fleet.Text.Slug
import Fleet.Wire.Event
import Fleet.Wire.Failure
import Fleet.Wire.Instance
import Fleet.Wire.Provider
import Fleet.Proofs.Interleaving
import Fleet.Proofs.Conduct
import Fleet.Proofs.Provenance
import Fleet.Proofs.Currency
import Fleet.Proofs.Exclusion
import Fleet.Proofs.Workloads
import Fleet.Proofs.Settlement
import Fleet.Proofs.Stranding
import Fleet.Proofs.Estate
import Fleet.Proofs.Errand
import Fleet.Proofs.Upshot
import Fleet.Proofs.Agreement
import Fleet.Proofs.Aftermath
import Fleet.Proofs.Chronicle
import Fleet.Proofs.Retelling
import Fleet.Proofs.Observers
import Fleet.Proofs.Origin
import Fleet.Proofs.Tenancy
import Fleet.Proofs.Paging
import Fleet.Proofs.Refusal
import Fleet.Proofs.Publication
import Fleet.Proofs.Index
import Fleet.Proofs.Succession
import Fleet.Proofs.Counting
import Fleet.Proofs.Quota
import Fleet.Proofs.Integrity
import Fleet.Proofs.Gauge
import Fleet.Proofs.Reentrancy
import Fleet.Proofs.Calendar
import Fleet.Proofs.Reading
import Fleet.Proofs.Canonical
import Fleet.Proofs.Timestamp
import Fleet.Proofs.Scanning
import Fleet.Proofs.JsonText
import Fleet.Proofs.Codec
import Fleet.Proofs.Removal
import Fleet.Proofs.Subscriptions
import Fleet.Proofs.Dispatch
import Fleet.Proofs.Trail
import Fleet.Proofs.Independence
import Fleet.Proofs.ByteOrder
import Fleet.Proofs.Confinement
import Fleet.Proofs.Listing
import Fleet.Proofs.Hosting
import Fleet.Proofs.Accounting
import Fleet.Proofs.Characters
import Fleet.Proofs.Slug
import Fleet.Proofs.Variables
import Fleet.Proofs.Attribution
