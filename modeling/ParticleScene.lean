import ParticleScene.Autosave
import ParticleScene.Clock
import ParticleScene.Color
import ParticleScene.CommandLine.Arguments
import ParticleScene.CommandLine.Request
import ParticleScene.CommandLine.Run
import ParticleScene.Digest
import ParticleScene.Document
import ParticleScene.Element
import ParticleScene.Failure
import ParticleScene.Files.Path
import ParticleScene.Files.Stored
import ParticleScene.Files.Tree
import ParticleScene.Geometry.Motion
import ParticleScene.Geometry.Tour
import ParticleScene.History
import ParticleScene.ImportJob
import ParticleScene.Json.Basic
import ParticleScene.Json.FloatReader
import ParticleScene.Json.Printer
import ParticleScene.Json.Reader
import ParticleScene.Json.Record
import ParticleScene.Layer
import ParticleScene.LayerEdit
import ParticleScene.Main
import ParticleScene.Number.Binary
import ParticleScene.Number.Notation
import ParticleScene.Number.Reader
import ParticleScene.Number.Shortest
import ParticleScene.Preview
import ParticleScene.Scene
import ParticleScene.Script.Compile
import ParticleScene.Script.Emission
import ParticleScene.Script.Line
import ParticleScene.Script.Options
import ParticleScene.Script.Runs
import ParticleScene.Source
import ParticleScene.Source.Mesh
import ParticleScene.Source.Picture
import ParticleScene.Source.Stroke
import ParticleScene.Targeter
import ParticleScene.Text.Blank
import ParticleScene.Text.Digits
import ParticleScene.Text.Split
import ParticleScene.Text.Utf8
import ParticleScene.Proofs.Script.Atomicity
import ParticleScene.Proofs.Except
import ParticleScene.Proofs.History
import ParticleScene.Proofs.Scene.Coherence
import ParticleScene.Proofs.Script.RepeatField
import ParticleScene.Proofs.Script.Runs
import ParticleScene.Proofs.Targeter
import ParticleScene.Proofs.Layer
import ParticleScene.Proofs.Script.Bare
import ParticleScene.Proofs.Document
import ParticleScene.Proofs.Script.Cancellation
import ParticleScene.Proofs.Script.ShownLayers
import ParticleScene.Proofs.ImportJob
import ParticleScene.Proofs.Scene.InPlace
import ParticleScene.Proofs.Scene.UndoRedo
import ParticleScene.Proofs.Script.ProximityPauses
import ParticleScene.Proofs.Script.Timing
import ParticleScene.Proofs.Script.Unshown
import ParticleScene.Proofs.Script.FrameByFrame
import ParticleScene.Proofs.ImportJob.Interleaving
import ParticleScene.Proofs.ImportJob.Landing
import ParticleScene.Proofs.Json.Grammar
import ParticleScene.Proofs.Json.Reading
import ParticleScene.Proofs.Json.Literals
import ParticleScene.Proofs.Json.Strings
import ParticleScene.Proofs.Json.Trees
import ParticleScene.Proofs.Json.Variants
import ParticleScene.Proofs.Document.Text
import ParticleScene.Proofs.Number.Packing
import ParticleScene.Proofs.Number.Decimals
import ParticleScene.Proofs.Number.ReadBack
import ParticleScene.Proofs.Files.Stored
import ParticleScene.Proofs.Document.Finite
import ParticleScene.Proofs.Document.Omissions
import ParticleScene.Proofs.Document.Storable
import ParticleScene.Proofs.CommandLine.Import
import ParticleScene.Proofs.Number.FiniteResults
import ParticleScene.Proofs.Source
import ParticleScene.Proofs.Source.Drawing
import ParticleScene.Proofs.Source.SquareOutline
import ParticleScene.Proofs.Source.VertexLines
import ParticleScene.Proofs.Text.Lines
import ParticleScene.Proofs.Script.CommandLines
import ParticleScene.Proofs.Script.LineEnds
import ParticleScene.Proofs.Text.Order
import ParticleScene.Proofs.Clock.Date
import ParticleScene.Proofs.Clock.Stamp
import ParticleScene.Proofs.Files.Path
import ParticleScene.Proofs.Files.Directory
import ParticleScene.Proofs.Autosave.Names
import ParticleScene.Proofs.Autosave.Rotation
import ParticleScene.Proofs.Autosave.Writing
import ParticleScene.Proofs.Autosave.FreeNames
import ParticleScene.Proofs.Autosave.Calls
import ParticleScene.Proofs.Autosave.Durability
import ParticleScene.Proofs.History.Entries
import ParticleScene.Proofs.LayerEdit
import ParticleScene.Proofs.Scene.Effects
import ParticleScene.Proofs.Scene.Locality
import ParticleScene.Proofs.Scene.InRange
import ParticleScene.Proofs.Files.Changes
import ParticleScene.Proofs.CommandLine.FileChanges
import ParticleScene.Proofs.Number.FloatRank
import ParticleScene.Proofs.Geometry.Greedy
import ParticleScene.Proofs.History.Zipper
import ParticleScene.Proofs.Script.Reports
import ParticleScene.Proofs.Targeter.Parameters
import ParticleScene.Proofs.Script.JoinedFields
import ParticleScene.Proofs.Script.CommandRuns
import ParticleScene.Proofs.Autosave.Refusals
import ParticleScene.Proofs.Text.Bytes
import ParticleScene.Proofs.Text.Hex
import ParticleScene.Proofs.Color.Decoding
import ParticleScene.Proofs.Color.Slices
import ParticleScene.Proofs.Color.Normal
import ParticleScene.Proofs.Script.Settings
import ParticleScene.Proofs.Autosave.Newest
import ParticleScene.Proofs.Number.WholeFloats
import ParticleScene.Proofs.Autosave.Interval
import ParticleScene.Proofs.Source.Reflections
