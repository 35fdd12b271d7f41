import Wiring.Config.Saving
import Wiring.Files.Tree
import Wiring.Main
import Wiring.Model.Query
import Wiring.Codec.Registration
import Wiring.Proofs.Graph.Registry
import Wiring.Proofs.Graph.Soundness
import Wiring.Proofs.Graph.Diagnostics
import Wiring.Proofs.Analysis.Memory
import Wiring.Proofs.Analysis.Outcome
import Wiring.Proofs.Graph.Revalidation
import Wiring.Proofs.Command.Verdict
import Wiring.Proofs.Graph.Cycle
import Wiring.Proofs.Graph.CycleReports
import Wiring.Proofs.Graph.CycleMembers
import Wiring.Proofs.Graph.SearchRun
import Wiring.Proofs.Graph.Reordering
import Wiring.Proofs.Graph.Restriction
import Wiring.Proofs.Graph.Unrelated
import Wiring.Proofs.Analysis.Identity
import Wiring.Proofs.Analysis.Interleaving
import Wiring.Proofs.Codec.RoundTrip
import Wiring.Proofs.Config.Layers
import Wiring.Proofs.Config.Saving
import Wiring.Proofs.Analysis.Accounting
import Wiring.Proofs.Analysis.Conservation
import Wiring.Proofs.Analysis.History
import Wiring.Proofs.Config.Source
import Wiring.Proofs.Command.Output
import Wiring.Proofs.Analysis.Classification
import Wiring.Proofs.Analysis.Discovery
import Wiring.Proofs.Analysis.Properties
import Wiring.Proofs.Analysis.Selection
import Wiring.Proofs.Analysis.Arguments
import Wiring.Proofs.Analysis.Extraction
import Wiring.Proofs.Model.Ancestry
import Wiring.Proofs.Model.Growth
import Wiring.Proofs.Model.InheritanceCycle
import Wiring.Proofs.Emission.Insertion
import Wiring.Proofs.Emission.TypeExpression
import Wiring.Proofs.Emission.WrapperKey
import Wiring.Proofs.Emission.CallArguments
