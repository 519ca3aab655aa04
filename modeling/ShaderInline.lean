import ShaderInline.Batch.GuardSet
import ShaderInline.Batch.InlinedFiles
import ShaderInline.Batch.Remark
import ShaderInline.Batch.State
import ShaderInline.Digest.Sha256
import ShaderInline.Directive.Basic
import ShaderInline.Directive.Guard
import ShaderInline.Directive.Import
import ShaderInline.Expansion.Call
import ShaderInline.Expansion.Failure
import ShaderInline.Expansion.FlatText
import ShaderInline.Expansion.Limit
import ShaderInline.Expansion.OpenFiles
import ShaderInline.Expansion.Run
import ShaderInline.Expansion.Tree
import ShaderInline.Expansion.Walk
import ShaderInline.Log.Location
import ShaderInline.Log.Relocation
import ShaderInline.Path.Basic
import ShaderInline.Path.Component
import ShaderInline.Path.Map
import ShaderInline.Path.Normal
import ShaderInline.Provider.Basic
import ShaderInline.Provider.FileTree
import ShaderInline.Provider.Library
import ShaderInline.Text.Blank
import ShaderInline.Text.CodePoint
import ShaderInline.Text.DecimalDigit
import ShaderInline.Text.ExtendingMark
import ShaderInline.Text.Line
import ShaderInline.Text.Quoted
import ShaderInline.Text.Unprintable
import ShaderInline.Text.Word
import ShaderInline.Proofs.RunStep
import ShaderInline.Proofs.Rules
import ShaderInline.Proofs.Evaluation
import ShaderInline.Proofs.Calls
import ShaderInline.Proofs.ReadOnce
import ShaderInline.Proofs.FailureTrail
import ShaderInline.Proofs.Lines
import ShaderInline.Proofs.SourceMap
import ShaderInline.Proofs.DepthFirst
import ShaderInline.Proofs.ImportGraph
import ShaderInline.Proofs.Traversal
import ShaderInline.Proofs.Success
import ShaderInline.Proofs.Blocks
import ShaderInline.Proofs.Contributions
import ShaderInline.Proofs.Frontiers
import ShaderInline.Proofs.LineFates
import ShaderInline.Proofs.Insertions
import ShaderInline.Proofs.Record
import ShaderInline.Proofs.Batches
import ShaderInline.Proofs.Repetition
import ShaderInline.Proofs.Deduplication
import ShaderInline.Proofs.Bookkeeping
import ShaderInline.Proofs.Translation
import ShaderInline.Proofs.Independence
import ShaderInline.Proofs.Libraries
import ShaderInline.Proofs.Components
import ShaderInline.Proofs.NormalForm
import ShaderInline.Proofs.Subdirectories
import ShaderInline.Proofs.MovedFiles
import ShaderInline.Proofs.LineEndings
import ShaderInline.Proofs.GuardOpenings
import ShaderInline.Proofs.OnceGuards
import ShaderInline.Proofs.FixedPoint
import ShaderInline.Proofs.BlockEdits
import ShaderInline.Proofs.SkippedBlocks
import ShaderInline.Proofs.EmptiedBlocks
import ShaderInline.Proofs.InertBlocks
import ShaderInline.Proofs.OuterFiles
import ShaderInline.Proofs.ImportGrammar
import ShaderInline.Proofs.Remarks
import ShaderInline.Proofs.ImportRests
import ShaderInline.Proofs.LogLocations
import ShaderInline.Proofs.LogPieces
import ShaderInline.Proofs.LogPasses
import ShaderInline.Proofs.LogLines
import ShaderInline.Proofs.Locations
import ShaderInline.Proofs.FailureReports
import ShaderInline.Proofs.BlockEnds
import ShaderInline.Proofs.Cycles
import ShaderInline.Proofs.Completions
