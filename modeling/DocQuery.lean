import DocQuery.Binary64.Basic
import DocQuery.Binary64.Round
import DocQuery.Binary64.Shortest
import DocQuery.Binary64.Text
import DocQuery.Json.Number
import DocQuery.Json.Basic
import DocQuery.Json.Print
import DocQuery.Json.Parse
import DocQuery.Text.Printable
import DocQuery.Json.Shape
import DocQuery.Keyed
import DocQuery.Error
import DocQuery.Config
import DocQuery.Document
import DocQuery.Query.Template
import DocQuery.Query.Sort
import DocQuery.Query.Params
import DocQuery.Query.Body
import DocQuery.Query.Concrete
import DocQuery.Query.Resolve
import DocQuery.Store.Selector
import DocQuery.Store.Order
import DocQuery.Graph.Link
import DocQuery.Graph.Key
import DocQuery.Graph.Batch
import DocQuery.Graph.Node
import DocQuery.Store.Find
import DocQuery.Graph.Fetch
import DocQuery.Store.Memory
import DocQuery.Remote.Channel
import DocQuery.Hash.Blake3
import DocQuery.Client.Request
import DocQuery.Client.Query
import DocQuery.Client.Session
import DocQuery.Proofs.Traversal
import DocQuery.Proofs.ReadPlan
import DocQuery.Proofs.Projection
import DocQuery.Proofs.WireForm
import DocQuery.Proofs.SortSpecs
import DocQuery.Proofs.Parity
import DocQuery.Proofs.StableSort
import DocQuery.Proofs.Join
import DocQuery.Proofs.DepthFirst
import DocQuery.Proofs.PerParent
import DocQuery.Proofs.SplitRead
import DocQuery.Proofs.Batching
import DocQuery.Proofs.Placeholders
import DocQuery.Proofs.Filling
import DocQuery.Proofs.BodyReading
import DocQuery.Proofs.Compilation
import DocQuery.Proofs.DocumentIds
import DocQuery.Proofs.Session
import DocQuery.Proofs.Keys
import DocQuery.Proofs.Counts
import DocQuery.Proofs.Groups
import DocQuery.Graph.Plan
import DocQuery.Proofs.PlanOrder
import DocQuery.Proofs.PlanRun
import DocQuery.Proofs.PlanReads
import DocQuery.Proofs.RoundingInterval
import DocQuery.Proofs.ShortestDigits
import DocQuery.Proofs.SubscriptionKeys
import DocQuery.Proofs.TemplateForm
import DocQuery.Proofs.JoinKeys
