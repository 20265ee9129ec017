import CyclicCalls.Main
import CyclicCalls.Proofs.RecursiveSearch
import CyclicCalls.Proofs.TracedSearch
import CyclicCalls.Proofs.GuardedSearch
import CyclicCalls.Proofs.CallCycles
import CyclicCalls.Proofs.TrailDiscipline
import CyclicCalls.Proofs.ReportedCycles
import CyclicCalls.Proofs.CleanVerdict
import CyclicCalls.Proofs.RootSearches
import CyclicCalls.Proofs.CyclicComponents
import CyclicCalls.Proofs.InducedGraph
import CyclicCalls.Proofs.StableVerdict
import CyclicCalls.Proofs.RecordedCalls
import CyclicCalls.Proofs.ReportEvidence
import CyclicCalls.Proofs.ModuleContents
import CyclicCalls.Proofs.DeclaredTargets
import CyclicCalls.Proofs.GuardedResolution
import CyclicCalls.Proofs.GuardedAnalysis
import CyclicCalls.Proofs.SharedModuleNames
import CyclicCalls.Proofs.SkippedDocuments
import CyclicCalls.Proofs.SymbolNumbering
import CyclicCalls.Proofs.TreePositions
import CyclicCalls.Proofs.DeclaredPositions
import CyclicCalls.Proofs.CallAttribution
import CyclicCalls.Proofs.CallPreorder
import CyclicCalls.Proofs.TokenLines
import CyclicCalls.Proofs.DefinitionLines
import CyclicCalls.Proofs.DeclarationOrder
import CyclicCalls.Proofs.InternedSymbols
import CyclicCalls.Proofs.UnvisitedPaths
import CyclicCalls.Proofs.RunCoverage
import CyclicCalls.Proofs.UncalledCode
import CyclicCalls.Proofs.WrittenFiles
import CyclicCalls.Proofs.RunOutcomes
import CyclicCalls.Proofs.SeparatedText
import CyclicCalls.Proofs.StandardJson
import CyclicCalls.Proofs.StructuredText
import CyclicCalls.Proofs.ReportContents
import CyclicCalls.Proofs.ChainMethods
import CyclicCalls.Proofs.ImportChains
import CyclicCalls.Proofs.ImportForms
import CyclicCalls.Proofs.BaseClassOrder
import CyclicCalls.Proofs.GroupedCalls
import CyclicCalls.Proofs.FrozenGraphs
import CyclicCalls.Proofs.ListedModules
import CyclicCalls.Proofs.ListingOrder
import CyclicCalls.Proofs.RepeatedCalls
import CyclicCalls.Proofs.NeighbouringModules
import CyclicCalls.Proofs.RefusedRequests
