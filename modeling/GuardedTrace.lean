import GuardedTrace.Array.Json
import GuardedTrace.Config.Json
import GuardedTrace.Gate.Basic
import GuardedTrace.Proofs.FirstMatches
import GuardedTrace.Proofs.FoldedConstants
import GuardedTrace.Proofs.InputOrder
import GuardedTrace.Proofs.KeyedOperands
import GuardedTrace.Proofs.LayerKeys
import GuardedTrace.Proofs.RetraceBound
import GuardedTrace.Proofs.SharedNodes
import GuardedTrace.Proofs.Transparency
import GuardedTrace.Symbolic.IdentityKey
import GuardedTrace.Symbolic.Transform
import GuardedTrace.Proofs.GroundedTraces
import GuardedTrace.Proofs.SafeGraphs
import GuardedTrace.Proofs.Routing
import GuardedTrace.Proofs.Sessions
import GuardedTrace.Proofs.CallCounts
import GuardedTrace.Proofs.Isolation
import GuardedTrace.Proofs.Accounting
import GuardedTrace.Proofs.ArtifactLists
import GuardedTrace.Proofs.Retirement
import GuardedTrace.Proofs.MaskedErrors
import GuardedTrace.Proofs.WellFormedArrays
import GuardedTrace.Proofs.InferredTypes
import GuardedTrace.Proofs.InferredShapes
import GuardedTrace.Proofs.WrappedValues
import GuardedTrace.Proofs.WellFormedPaths
import GuardedTrace.Proofs.WrappedPaths
import GuardedTrace.Proofs.WordDivision
import GuardedTrace.Proofs.SelectedPositions
import GuardedTrace.Proofs.Ranges
import GuardedTrace.Proofs.Listings
import GuardedTrace.Proofs.DistinctEntries
import GuardedTrace.Proofs.RowMajor
