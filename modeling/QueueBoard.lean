import QueueBoard.Arguments
import QueueBoard.Arguments.Reader
import QueueBoard.Chart.Bar
import QueueBoard.Chart.Donut
import QueueBoard.Chart.Panel
import QueueBoard.Chart.Plan
import QueueBoard.Cluster
import QueueBoard.Color
import QueueBoard.Command
import QueueBoard.Command.Error
import QueueBoard.Command.Run
import QueueBoard.Config
import QueueBoard.Config.Environment
import QueueBoard.Config.File
import QueueBoard.Config.Setting
import QueueBoard.Dashboard.Cluster
import QueueBoard.Dashboard.Queues
import QueueBoard.Decimal.Reading
import QueueBoard.Decimal.Shortest
import QueueBoard.Decimal.Style
import QueueBoard.Files
import QueueBoard.Geometry.Path
import QueueBoard.Geometry.Point
import QueueBoard.Geometry.Sector
import QueueBoard.Json
import QueueBoard.Json.Quoted
import QueueBoard.Json.Reader
import QueueBoard.Json.Shape
import QueueBoard.Json.Writer
import QueueBoard.Log
import QueueBoard.Main
import QueueBoard.Markup
import QueueBoard.Queue.Layout
import QueueBoard.Queue.Record
import QueueBoard.Queue.Tree
import QueueBoard.Report
import QueueBoard.Scalar
import QueueBoard.Scalar.Float
import QueueBoard.Scene
import QueueBoard.Scene.Element
import QueueBoard.Scene.Shape
import QueueBoard.Scene.Svg
import QueueBoard.Scene.Tooltip
import QueueBoard.Scene.Transition
import QueueBoard.Snapshot
import QueueBoard.Snapshot.File
import QueueBoard.Table
import QueueBoard.Terminal.App
import QueueBoard.Terminal.Area
import QueueBoard.Terminal.Cells
import QueueBoard.Terminal.Click
import QueueBoard.Terminal.Input
import QueueBoard.Terminal.Program
import QueueBoard.Terminal.Raster
import QueueBoard.Terminal.Screen.Cluster
import QueueBoard.Terminal.Screen.Queues
import QueueBoard.Terminal.ScreenId
import QueueBoard.Terminal.Session
import QueueBoard.Terminal.Stroke
import QueueBoard.Terminal.Viewport
import QueueBoard.Text.Basic
import QueueBoard.Text.Cluster
import QueueBoard.Text.Property
import QueueBoard.Toml
import QueueBoard.Toml.Number
import QueueBoard.Toml.Quoted
import QueueBoard.Toml.Reader
import QueueBoard.Toml.Table
import QueueBoard.Yaml.Quoted
import QueueBoard.Yaml.Scalar
import QueueBoard.Yaml.Writer
import QueueBoard.Proofs.Basic
import QueueBoard.Proofs.Text.Splitting
import QueueBoard.Proofs.Decimal.Digits
import QueueBoard.Proofs.Table
import QueueBoard.Proofs.Yaml
import QueueBoard.Proofs.Files.Growing
import QueueBoard.Proofs.Queue.Arena
import QueueBoard.Proofs.Queue.Walk
import QueueBoard.Proofs.Queue.Visible
import QueueBoard.Proofs.Queue.Preorder
import QueueBoard.Proofs.Json.Induction
import QueueBoard.Proofs.Json.Sorted
import QueueBoard.Proofs.Scalar.Finite
import QueueBoard.Proofs.Json.Number
import QueueBoard.Proofs.Json.Record
import QueueBoard.Proofs.Json.Spelling
import QueueBoard.Proofs.Json.RoundTrip
import QueueBoard.Proofs.Queue.Fold
import QueueBoard.Proofs.Queue.Nesting
import QueueBoard.Proofs.Snapshot.Payload
import QueueBoard.Proofs.Snapshot.Numbers
import QueueBoard.Proofs.Snapshot.RoundTrip
import QueueBoard.Proofs.Snapshot.Hierarchy
import QueueBoard.Proofs.Dashboard.Fresh
import QueueBoard.Proofs.Scalar.Rational
import QueueBoard.Proofs.Scene.Hit
import QueueBoard.Proofs.Scene.Tooltip
import QueueBoard.Proofs.Markup.Reading
import QueueBoard.Proofs.Scene.Markup
import QueueBoard.Proofs.Scene.Animation
import QueueBoard.Proofs.Chart.Elements
import QueueBoard.Proofs.Chart.Extent
import QueueBoard.Proofs.Dashboard.Elements
import QueueBoard.Proofs.Dashboard.Click
import QueueBoard.Proofs.Dashboard.Canvas
import QueueBoard.Proofs.Dashboard.Feedback
import QueueBoard.Proofs.Terminal.Scroll
import QueueBoard.Proofs.Dashboard.Generation
import QueueBoard.Proofs.Dashboard.Pointing
import QueueBoard.Proofs.Terminal.Press
import QueueBoard.Proofs.Terminal.Cells
import QueueBoard.Proofs.Terminal.DoubleClick
import QueueBoard.Proofs.Terminal.Exchange
import QueueBoard.Proofs.Terminal.Failure
import QueueBoard.Proofs.Terminal.Reloading
import QueueBoard.Proofs.Queue.Renaming
import QueueBoard.Proofs.Dashboard.Toggle
import QueueBoard.Proofs.Dashboard.Reload
import QueueBoard.Proofs.Command.Step
import QueueBoard.Proofs.Command.Configuration
import QueueBoard.Proofs.Command.Report
import QueueBoard.Proofs.Command.Printed
import QueueBoard.Proofs.Arguments.Reading
import QueueBoard.Proofs.Command.Writing
import QueueBoard.Proofs.Dashboard.Layers
import QueueBoard.Proofs.Command.Agreement
import QueueBoard.Proofs.Scalar.Whole
import QueueBoard.Proofs.Terminal.Inputs
import QueueBoard.Proofs.Terminal.Commuting
import QueueBoard.Proofs.Terminal.Rounds
import QueueBoard.Proofs.Terminal.Selection
import QueueBoard.Proofs.Dashboard.Neighbor
import QueueBoard.Proofs.Terminal.Walking
import QueueBoard.Proofs.Terminal.Clock
import QueueBoard.Proofs.Toml.Table
import QueueBoard.Proofs.Config.Setting
import QueueBoard.Proofs.Config.Layers
import QueueBoard.Proofs.Toml.Quoted
import QueueBoard.Proofs.Toml.Number
import QueueBoard.Proofs.Toml.RoundTrip
import QueueBoard.Proofs.Config.Saving
import QueueBoard.Proofs.Queue.Passes
import QueueBoard.Proofs.Queue.Picture
import QueueBoard.Proofs.Scalar.Extended
import QueueBoard.Proofs.Chart.Grid
import QueueBoard.Proofs.Dashboard.Frames
import QueueBoard.Proofs.Scene.Easing
import QueueBoard.Proofs.Scene.Entrance
import QueueBoard.Proofs.Chart.Pie
import QueueBoard.Proofs.Chart.Bars
import QueueBoard.Proofs.Chart.Legend
import QueueBoard.Proofs.Terminal.Pairing
import QueueBoard.Proofs.Terminal.Pacing
import QueueBoard.Proofs.Color
import QueueBoard.Proofs.Dashboard.Labels
import QueueBoard.Proofs.Terminal.Placement
import QueueBoard.Proofs.Command.Quiet
import QueueBoard.Proofs.Command.Picture
import QueueBoard.Proofs.Geometry.Curve
import QueueBoard.Proofs.Geometry.Flattening
import QueueBoard.Proofs.Geometry.Spline
import QueueBoard.Proofs.Terminal.Hatching
import QueueBoard.Proofs.Decimal.Numeral
import QueueBoard.Proofs.Geometry.Coordinate
import QueueBoard.Proofs.Geometry.PathData
