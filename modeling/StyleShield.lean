import StyleShield.CommandLine.Report
import StyleShield.Main
import StyleShield.Proofs.Pipeline.Idempotence
import StyleShield.Shell.Run
import StyleShield.Proofs.Pipeline.Transparency
import StyleShield.Proofs.Pipeline.Batch
import StyleShield.Proofs.Options.Arguments
import StyleShield.Proofs.FileTree
import StyleShield.Proofs.Path
import StyleShield.Proofs.Discovery.Walk
import StyleShield.Proofs.Discovery.Find
import StyleShield.Proofs.Targets
import StyleShield.Proofs.CommandLine.Inputs
import StyleShield.Proofs.CommandLine.Emission
import StyleShield.Proofs.CommandLine.Report
import StyleShield.Proofs.CommandLine.Trace
import StyleShield.Proofs.Options.Precedence
import StyleShield.Proofs.Toml
import StyleShield.Proofs.CommandLine.Frame
import StyleShield.Proofs.CommandLine.Outputs
import StyleShield.Proofs.FileTree.Lookup
import StyleShield.Proofs.FileTree.Write
import StyleShield.Proofs.Discovery.Growth
import StyleShield.Proofs.CommandLine.Rebuild
import StyleShield.Proofs.Text.Expression
import StyleShield.Proofs.Text.Spans
import StyleShield.Proofs.Statement.Expression
import StyleShield.Proofs.Statement.Reading
import StyleShield.Proofs.Shield.Reading
import StyleShield.Proofs.Shield.Rewrite
import StyleShield.Proofs.FileTree.Leads
import StyleShield.Proofs.FileTree.Extend
import StyleShield.Proofs.CommandLine.Routes
import StyleShield.Proofs.Shield.Limit
import StyleShield.Proofs.Text.Strip
import StyleShield.Proofs.Shield.Reformat
import StyleShield.Proofs.Shield.Crossing
import StyleShield.Proofs.Settings.Meaning
import StyleShield.Proofs.Settings.Search
import StyleShield.Proofs.Settings.ProjectFile
import StyleShield.Proofs.FileTree.Resolve
import StyleShield.Proofs.Settings.Nearest
import StyleShield.Proofs.Discovery.Resolved
import StyleShield.Proofs.Targets.Clash
import StyleShield.Proofs.Compiler.Command
import StyleShield.Proofs.Ignore.Names
import StyleShield.Proofs.Ignore.Include
import StyleShield.Proofs.Shield.Occurrences
import StyleShield.Proofs.CommandLine.Relocation
