import RunBoard.Artifact.Path
import RunBoard.Artifact.Tree
import RunBoard.Client.Exchange
import RunBoard.Client.Query
import RunBoard.Client.Session
import RunBoard.Client.Traffic
import RunBoard.Compare.Comparison
import RunBoard.Compare.Rows
import RunBoard.Entities.Absorb
import RunBoard.Entities.Select
import RunBoard.Entities.State
import RunBoard.Json.Reader
import RunBoard.Json.Record
import RunBoard.Json.Value
import RunBoard.Json.Writer
import RunBoard.Legend.Click
import RunBoard.Legend.Visibility
import RunBoard.Model.ApiError
import RunBoard.Model.Artifact
import RunBoard.Model.Experiment
import RunBoard.Model.Label
import RunBoard.Model.Run
import RunBoard.Number.Binary64
import RunBoard.Number.Reading
import RunBoard.Number.Shortest
import RunBoard.Plot.Data
import RunBoard.Plot.Numeric
import RunBoard.Plot.Parallel
import RunBoard.Poll.Poller
import RunBoard.Poll.Ticker
import RunBoard.Poll.Timeline
import RunBoard.Proofs.Artifact.Apart
import RunBoard.Proofs.Artifact.Below
import RunBoard.Proofs.Artifact.Canonical
import RunBoard.Proofs.Artifact.Filling
import RunBoard.Proofs.Artifact.NormalForm
import RunBoard.Proofs.Artifact.Reached
import RunBoard.Proofs.Artifact.Segments
import RunBoard.Proofs.Artifact.Shape
import RunBoard.Proofs.Artifact.Update
import RunBoard.Proofs.Artifact.Within
import RunBoard.Proofs.Client.Course
import RunBoard.Proofs.Client.Dispatched
import RunBoard.Proofs.Client.FilterText
import RunBoard.Proofs.Client.Interleaving
import RunBoard.Proofs.Client.Paging
import RunBoard.Proofs.Compare.Agreement
import RunBoard.Proofs.Compare.Disagreement
import RunBoard.Proofs.Compare.KeyOrder
import RunBoard.Proofs.Compare.Rows
import RunBoard.Proofs.Entities.Change
import RunBoard.Proofs.Entities.ExperimentReplay
import RunBoard.Proofs.Entities.Independence
import RunBoard.Proofs.Entities.LabelKeys
import RunBoard.Proofs.Entities.LatestKeys
import RunBoard.Proofs.Entities.LatestPoints
import RunBoard.Proofs.Entities.Log
import RunBoard.Proofs.Entities.MetricReplay
import RunBoard.Proofs.Entities.Parts
import RunBoard.Proofs.Entities.Redelivery
import RunBoard.Proofs.Entities.RunReplay
import RunBoard.Proofs.Entities.ShownOrder
import RunBoard.Proofs.Entities.Subject
import RunBoard.Proofs.Entities.TagReplay
import RunBoard.Proofs.Entities.TreeReplay
import RunBoard.Proofs.Entities.VersionReplay
import RunBoard.Proofs.Json.Document
import RunBoard.Proofs.Json.Faithful
import RunBoard.Proofs.Legend.Deadline
import RunBoard.Proofs.Legend.Isolation
import RunBoard.Proofs.Legend.Schedule
import RunBoard.Proofs.Legend.Settlement
import RunBoard.Proofs.List.Sorting
import RunBoard.Proofs.Metric.Latest
import RunBoard.Proofs.Metric.Points
import RunBoard.Proofs.Model.RoundTrip
import RunBoard.Proofs.Number.Comparison
import RunBoard.Proofs.Plot.Columns
import RunBoard.Proofs.Plot.Contour
import RunBoard.Proofs.Plot.DefaultAxes
import RunBoard.Proofs.Plot.Dimension
import RunBoard.Proofs.Plot.Parallel
import RunBoard.Proofs.Plot.Places
import RunBoard.Proofs.Plot.Samples
import RunBoard.Proofs.Plot.Variation
import RunBoard.Proofs.Poll.Abandoned
import RunBoard.Proofs.Poll.Aging
import RunBoard.Proofs.Poll.Effects
import RunBoard.Proofs.Poll.Ledger
import RunBoard.Proofs.Poll.Mount
import RunBoard.Proofs.Poll.Moves
import RunBoard.Proofs.Poll.Progress
import RunBoard.Proofs.Poll.Rounds
import RunBoard.Proofs.Poll.Staleness
import RunBoard.Proofs.Poll.Tracking
import RunBoard.Proofs.Settings.Decimal
import RunBoard.Proofs.Settings.Limits
import RunBoard.Proofs.Settings.Loading
import RunBoard.Proofs.Store.Notices
import RunBoard.Proofs.Store.Requests
import RunBoard.Proofs.Table.Assign
import RunBoard.Proofs.Table.Keyed
import RunBoard.Proofs.Text.ByteOrder
import RunBoard.Proofs.Yaml.Lines
import RunBoard.Proofs.Yaml.Mapping
import RunBoard.Request.Action
import RunBoard.Request.Tracker
import RunBoard.Settings.Basic
import RunBoard.Settings.Document
import RunBoard.Settings.File
import RunBoard.Store
import RunBoard.Table
import RunBoard.Text.Quoted
import RunBoard.Yaml.Cursor
import RunBoard.Yaml.Node
import RunBoard.Yaml.Scalar
import RunBoard.Yaml.Tag
import RunBoard.Yaml.Token
