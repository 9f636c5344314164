/-
# Inventory: schemas, records and pages of cloud resources

| modules | |
| --- | --- |
| `Schema`, `Record`, `Store`, `Reconcile`, `TempStore` | what resources are and how they are kept |
| `Page`, `Listing` | how they are presented |
| `Definitions`, `Settings`, `Builtin`, `Catalog` | how a catalog of them is set up |
| `OrderedMap`, `Data`, `Json`, `Yaml`, `Toml`, `Files` | the data and the documents underneath |
| `Text`, `Width`, `Binary64`, `Timestamp`, `Ulid` | scalars and their texts |
| `Attempt` | calls that may fail |
| `Proofs` | what is proved of them |

The head of a module begins with the names that the program has for what it is about:

| modules | in the program |
| --- | --- |
| `Schema`, `Record` | `ResourceSchema`, `SchemaRegistry`, `Record`, `FieldValue` |
| `Store`, `Reconcile`, `TempStore` | `RecordStore`, `Reconciler`, `TempResourceStore` |
| `Page` | `ViewDef`, `RenderTree`, `FieldListRenderer`, `ViewComposer`, `RenderCache` |
| `Listing` | `FilterTable`, `ListQuery`, `ListView` |
| `Definitions`, `Settings`, `Catalog` | `SchemaContext`, `ViewsContext`, `ConfigProvider`, `CloudCatalog` |
-/

import Inventory.Attempt
import Inventory.Binary64
import Inventory.Builtin.Basic
import Inventory.Builtin.Cluster
import Inventory.Builtin.Compute
import Inventory.Builtin.Defaults
import Inventory.Builtin.Network
import Inventory.Builtin.Storage
import Inventory.Catalog.Basic
import Inventory.Catalog.KeyStash
import Inventory.Catalog.Lookup
import Inventory.Data
import Inventory.Definitions
import Inventory.Files.Disk
import Inventory.Files.Path
import Inventory.Json.Reader
import Inventory.Json.Writer
import Inventory.Listing.Filter
import Inventory.Listing.Query
import Inventory.Listing.QueryDocument
import Inventory.OrderedMap
import Inventory.Page.Cache
import Inventory.Page.Compose
import Inventory.Page.FieldList
import Inventory.Page.Tree
import Inventory.Page.View
import Inventory.Page.ViewDocument
import Inventory.Page.ViewFolder
import Inventory.Proofs.Alike
import Inventory.Proofs.Catalog.Actions
import Inventory.Proofs.Catalog.Composers
import Inventory.Proofs.Catalog.KeyStash
import Inventory.Proofs.Catalog.Opening
import Inventory.Proofs.Catalog.Outliving
import Inventory.Proofs.Catalog.Rendering
import Inventory.Proofs.Catalog.RulesMessage
import Inventory.Proofs.Catalog.Transparency
import Inventory.Proofs.ColumnTexts
import Inventory.Proofs.Definitions.Confinement
import Inventory.Proofs.Definitions.Finality
import Inventory.Proofs.Definitions.Mirror
import Inventory.Proofs.Definitions.Opening
import Inventory.Proofs.Definitions.Stored
import Inventory.Proofs.Definitions.Texts
import Inventory.Proofs.Definitions.Unreadable
import Inventory.Proofs.Except
import Inventory.Proofs.Files.Destination
import Inventory.Proofs.Files.Disk
import Inventory.Proofs.Files.Proper
import Inventory.Proofs.Files.Run
import Inventory.Proofs.Json.RoundTrip
import Inventory.Proofs.Listing.Arrangement
import Inventory.Proofs.Listing.Marking
import Inventory.Proofs.Listing.Options
import Inventory.Proofs.Listing.QueryDocument
import Inventory.Proofs.Listing.Search
import Inventory.Proofs.OrderedMap
import Inventory.Proofs.OrderedMap.Overlay
import Inventory.Proofs.OrderedMap.WriteLog
import Inventory.Proofs.Page.Agreement
import Inventory.Proofs.Page.ChildOrder
import Inventory.Proofs.Page.ClosedForm
import Inventory.Proofs.Page.Confinement
import Inventory.Proofs.Page.Congruence
import Inventory.Proofs.Page.Edits
import Inventory.Proofs.Page.Equality
import Inventory.Proofs.Page.Layout
import Inventory.Proofs.Page.Overflow
import Inventory.Proofs.Page.PlainRendering
import Inventory.Proofs.Page.Problems
import Inventory.Proofs.Page.References
import Inventory.Proofs.Page.Repair
import Inventory.Proofs.Page.RowOrder
import Inventory.Proofs.Page.SharedCache
import Inventory.Proofs.Page.Substitution
import Inventory.Proofs.Page.Text
import Inventory.Proofs.Page.Visible
import Inventory.Proofs.Page.Within
import Inventory.Proofs.Reconcile.Batch
import Inventory.Proofs.Reconcile.Collision
import Inventory.Proofs.Reconcile.Contextless
import Inventory.Proofs.Reconcile.Counts
import Inventory.Proofs.Reconcile.EqualReports
import Inventory.Proofs.Reconcile.Failure
import Inventory.Proofs.Reconcile.History
import Inventory.Proofs.Reconcile.Interleaving
import Inventory.Proofs.Reconcile.Overlap
import Inventory.Proofs.Reconcile.Plan
import Inventory.Proofs.Reconcile.Refreshed
import Inventory.Proofs.Reconcile.Repetition
import Inventory.Proofs.Reconcile.Report
import Inventory.Proofs.Reconcile.Reported
import Inventory.Proofs.Reconcile.Result
import Inventory.Proofs.Reconcile.Scope
import Inventory.Proofs.Reconcile.Separation
import Inventory.Proofs.Reconcile.Settled
import Inventory.Proofs.Reconcile.Stored
import Inventory.Proofs.Record.ColumnOrder
import Inventory.Proofs.Record.Comparison
import Inventory.Proofs.Record.Edits
import Inventory.Proofs.Record.Equality
import Inventory.Proofs.Record.Slots
import Inventory.Proofs.Record.ValueText
import Inventory.Proofs.Schema.Registry
import Inventory.Proofs.Settings.Layers
import Inventory.Proofs.Store
import Inventory.Proofs.Store.Requests
import Inventory.Proofs.TempStore.Agreement
import Inventory.Proofs.TempStore.Directory
import Inventory.Proofs.TempStore.Handover
import Inventory.Proofs.Timestamp.Calendar
import Inventory.Proofs.Timestamp.Text
import Inventory.Proofs.Ulid
import Inventory.Reconcile
import Inventory.Record.Basic
import Inventory.Record.Value
import Inventory.Schema.Basic
import Inventory.Schema.Document
import Inventory.Schema.Field
import Inventory.Schema.Folder
import Inventory.Schema.Registry
import Inventory.Settings.Basic
import Inventory.Settings.Environment
import Inventory.Settings.Load
import Inventory.Store
import Inventory.TempStore
import Inventory.Text.CaseTables
import Inventory.Text.Hexadecimal
import Inventory.Text.Lowercase
import Inventory.Text.WhiteSpace
import Inventory.Timestamp
import Inventory.Toml.Document
import Inventory.Toml.Quoted
import Inventory.Toml.Scalar
import Inventory.Ulid
import Inventory.Width
import Inventory.Yaml.Character
import Inventory.Yaml.Node
import Inventory.Yaml.Scalar
import Inventory.Yaml.ScalarText
import Inventory.Yaml.Token
import Inventory.Yaml.Writer
