import TestBench.Main
import TestBench.Proofs.Run.Ending
import TestBench.Proofs.Run.Results
import TestBench.Proofs.Run.Stop
import TestBench.Proofs.FileSystem.Joining
import TestBench.Proofs.FileSystem.Removal
import TestBench.Proofs.Run.Preparation
import TestBench.Proofs.Run.Commands
import TestBench.Proofs.Console.Phrases
import TestBench.Proofs.Run.Transcript
import TestBench.Proofs.FileSystem.Alike
import TestBench.Proofs.Run.Twins
import TestBench.Proofs.Run.Numbering
import TestBench.Proofs.Run.Opening
import TestBench.Proofs.Run.Logs
import TestBench.Proofs.Run.Rerun
import TestBench.Proofs.Run.Table
import TestBench.Proofs.Cli.Placement
import TestBench.Proofs.Cli.Language
import TestBench.Proofs.Child.Interleaving
import TestBench.Proofs.Plan.Fields
import TestBench.Proofs.Plan.LineEnds
import TestBench.Proofs.Child.Whole
import TestBench.Proofs.Child.CutOff
import TestBench.Proofs.Text.Words
import TestBench.Proofs.Text.Duration
import TestBench.Proofs.Console.Templates
import TestBench.Proofs.Config.Settings
