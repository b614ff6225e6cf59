import IconCompiler.Main
import IconCompiler.Proofs.Build.Isolation
import IconCompiler.Proofs.Build.Outputs
import IconCompiler.Proofs.Build.Repetition
import IconCompiler.Proofs.Discovery
import IconCompiler.Proofs.Catalog.FirstCome
import IconCompiler.Proofs.Catalog.DistinctNames
import IconCompiler.Proofs.Markup.CleaningPolicy
import IconCompiler.Proofs.Markup.Building
import IconCompiler.Proofs.Markup.TokenReading
import IconCompiler.Proofs.Markup.PrintableTrees
import IconCompiler.Proofs.Markup.Reparsing
import IconCompiler.Proofs.Markup.SettledEvents
import IconCompiler.Proofs.Markup.Recleaning
import IconCompiler.Proofs.Markup.FaultPlaces
import IconCompiler.Proofs.Markup.FirstFault
import IconCompiler.Proofs.Markup.StyleProps
import IconCompiler.Proofs.Markup.FragmentReading
import IconCompiler.Proofs.Manifest
import IconCompiler.Proofs.Sources
import IconCompiler.Proofs.Style.Declarations
import IconCompiler.Proofs.Style.Literals
import IconCompiler.Proofs.Markup.ErrorPlaces
import IconCompiler.Proofs.Style.Pieces
import IconCompiler.Proofs.Style.NumberGrammar
import IconCompiler.Proofs.Naming.StyleKeys
import IconCompiler.Proofs.Markup.ParseTurns
import IconCompiler.Proofs.Markup.CleanedFaults
