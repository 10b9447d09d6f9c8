import AheadOfTime.Launch.Initializers
import AheadOfTime.Launch.Mode
import AheadOfTime.Main
import AheadOfTime.Proofs.Hint.Registry
import AheadOfTime.Proofs.Identifier
import AheadOfTime.Proofs.TypeName
import AheadOfTime.Proofs.Numbering
import AheadOfTime.Proofs.TypeName.Issued
import AheadOfTime.Proofs.Java.Locals
import AheadOfTime.Proofs.Graph.Access
import AheadOfTime.Proofs.Generation.Replay
import AheadOfTime.Proofs.Generation.Step
import AheadOfTime.Proofs.Generation.Run
import AheadOfTime.Proofs.Generation.Contributions
import AheadOfTime.Proofs.Generation.Acceptance
import AheadOfTime.Proofs.Generation.Atomicity
import AheadOfTime.Proofs.Generation.Variables
import AheadOfTime.Proofs.Java.SourceUnit
import AheadOfTime.Proofs.Java.Statement
import AheadOfTime.Proofs.Generation.Statements
import AheadOfTime.Proofs.Generation.Replayed
import AheadOfTime.Proofs.Generation.Fidelity
import AheadOfTime.Proofs.Hint.Configuration
import AheadOfTime.Proofs.Generation.Soundness
import AheadOfTime.Proofs.Keyed.Collected
import AheadOfTime.Proofs.Hint.Meaning
import AheadOfTime.Proofs.Hint.Merging
import AheadOfTime.Proofs.Hint.Entries
import AheadOfTime.Proofs.Hint.Reading
import AheadOfTime.Proofs.Hint.Rendering
import AheadOfTime.Proofs.Hint.Representation
import AheadOfTime.Proofs.Generation.Spelling
import AheadOfTime.Proofs.Generation.Quoting
import AheadOfTime.Proofs.Compilation.Report
import AheadOfTime.Proofs.Compilation.Boundary
import AheadOfTime.Proofs.Compilation.Gate
import AheadOfTime.Proofs.FileTree.Layers
import AheadOfTime.Proofs.Pipeline.Delivery
import AheadOfTime.Proofs.TypeName.Contract
import AheadOfTime.Proofs.Generation.Requests
import AheadOfTime.Proofs.Pipeline.Sources
import AheadOfTime.Proofs.Pipeline.Repeat
import AheadOfTime.Proofs.Generation.VariableNames
import AheadOfTime.Proofs.Generation.Effect
import AheadOfTime.Proofs.Generation.Nameable
import AheadOfTime.Proofs.CommandLine.Previews
import AheadOfTime.Proofs.Hint.ResourcePattern
import AheadOfTime.Proofs.Java.LookUp
import AheadOfTime.Proofs.Generation.Linking
import AheadOfTime.Proofs.TypeName.Grammar
import AheadOfTime.Proofs.Configuration
import AheadOfTime.Proofs.Pipeline.SourceFiles
import AheadOfTime.Proofs.Settings.Resolution
import AheadOfTime.Proofs.Path.Parent
import AheadOfTime.Proofs.CommandLine.Options
import AheadOfTime.Proofs.CommandLine.Precedence
import AheadOfTime.Proofs.Java.Properties
import AheadOfTime.Proofs.StartupArguments.Contents
import AheadOfTime.Proofs.Graph.Layout
import AheadOfTime.Proofs.Generation.LiteralTypes
