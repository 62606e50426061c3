import GradleScript.Block.Run
import GradleScript.Block.State
import GradleScript.Block.Step
import GradleScript.Block.StepLemmas
import GradleScript.Block.Store
import GradleScript.Block.StoreLemmas
import GradleScript.Closure
import GradleScript.CommandLine.Arguments
import GradleScript.CommandLine.Pages
import GradleScript.CommandLine.Program
import GradleScript.Event
import GradleScript.Journal
import GradleScript.Log.Clock
import GradleScript.Log.Level
import GradleScript.Log.Record
import GradleScript.Log.Writer
import GradleScript.Main
import GradleScript.Project
import GradleScript.Proofs.Block.Bodies
import GradleScript.Proofs.Block.Consumption
import GradleScript.Proofs.Block.Contract
import GradleScript.Proofs.Block.Lines
import GradleScript.Proofs.Block.Movement
import GradleScript.Proofs.Block.Pieces
import GradleScript.Proofs.Block.References
import GradleScript.Proofs.Block.Scanning
import GradleScript.Proofs.Block.Splicing
import GradleScript.Proofs.Block.Stored
import GradleScript.Proofs.Block.Storing
import GradleScript.Proofs.Block.Unshared
import GradleScript.Proofs.Declarations.Files
import GradleScript.Proofs.Declarations.Knowledge
import GradleScript.Proofs.Declarations.Passes
import GradleScript.Proofs.Declarations.Reading
import GradleScript.Proofs.Declarations.Syntax
import GradleScript.Proofs.Plain.Effects
import GradleScript.Proofs.Plain.Reading
import GradleScript.Proofs.Plain.Syntax
import GradleScript.Proofs.Repositories.Bodies
import GradleScript.Proofs.Repositories.Reading
import GradleScript.Proofs.Repositories.Syntax
import GradleScript.Proofs.Scan.Closers
import GradleScript.Proofs.Scan.Continued
import GradleScript.Proofs.Scan.Enclosed
import GradleScript.Proofs.Scan.Fronts
import GradleScript.Proofs.Scan.Literals
import GradleScript.Proofs.Scan.Matching
import GradleScript.Proofs.Scan.Returns
import GradleScript.Proofs.Script.CommentExtents
import GradleScript.Proofs.Script.Comments
import GradleScript.Proofs.Script.Ending
import GradleScript.Proofs.Script.Extents
import GradleScript.Proofs.Script.Failures
import GradleScript.Proofs.Script.LineEnds
import GradleScript.Proofs.Script.Nesting
import GradleScript.Proofs.Script.Noninterference
import GradleScript.Proofs.Script.Reparsing
import GradleScript.Proofs.Script.Repeating
import GradleScript.Proofs.Script.Skipping
import GradleScript.Proofs.Script.Streams
import GradleScript.Proofs.Script.WellFormed
import GradleScript.Proofs.Script.Writings
import GradleScript.Proofs.Simulation.Alike
import GradleScript.Proofs.Simulation.Closed
import GradleScript.Proofs.Simulation.Comments
import GradleScript.Proofs.Simulation.Ending
import GradleScript.Proofs.Simulation.Fronts
import GradleScript.Proofs.Simulation.Invariants
import GradleScript.Proofs.Simulation.Layers
import GradleScript.Proofs.Simulation.Naming
import GradleScript.Proofs.Simulation.Onto
import GradleScript.Proofs.Simulation.Outline
import GradleScript.Proofs.Simulation.Reading
import GradleScript.Proofs.Simulation.Replaying
import GradleScript.Proofs.Simulation.Returns
import GradleScript.Proofs.Simulation.Runs
import GradleScript.Proofs.Simulation.Sharing
import GradleScript.Proofs.Simulation.Storing
import GradleScript.Proofs.Simulation.Unread
import GradleScript.Proofs.Source.Encoding
import GradleScript.Proofs.Value.Compatible
import GradleScript.Proofs.Value.Mappings
import GradleScript.Proofs.Value.Merged
import GradleScript.Proofs.Value.Merging
import GradleScript.Proofs.Value.Objects
import GradleScript.Proofs.Value.Unwrapping
import GradleScript.Proofs.Value.WellFormed
import GradleScript.Proofs.Value.Written
import GradleScript.Scan.Balanced
import GradleScript.Scan.CharRole
import GradleScript.Scan.Comment
import GradleScript.Scan.Conditional
import GradleScript.Scan.Cursor
import GradleScript.Scan.Declaration
import GradleScript.Scan.Interpolation
import GradleScript.Scan.Keyword
import GradleScript.Scan.Quote
import GradleScript.Scan.Separators
import GradleScript.Script
import GradleScript.Settings
import GradleScript.Source.Files
import GradleScript.Source.Path
import GradleScript.Source.Reading
import GradleScript.Source.Utf8
import GradleScript.Text.Alphanumeric
import GradleScript.Text.Basic
import GradleScript.Text.CodeRange
import GradleScript.Text.Integer
import GradleScript.Text.Printable
import GradleScript.Text.Quoted
import GradleScript.Text.Similar
import GradleScript.Text.UpperCase
import GradleScript.Value.ArrayLiteral
import GradleScript.Value.Basic
import GradleScript.Value.Display
import GradleScript.Value.Json
import GradleScript.Value.Literal
import GradleScript.Value.Mapping
import GradleScript.Variables
