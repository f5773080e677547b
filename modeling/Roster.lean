import Roster.Main
import Roster.Settings.Input
import Roster.Json.Printer
import Roster.Proofs.PhpRoundTrip
import Roster.Proofs.JsonLayout
import Roster.Proofs.IndexHistory
import Roster.Proofs.DetectionFaults
import Roster.Proofs.CrashIsolation
import Roster.Proofs.MergeOrder
import Roster.Proofs.TargetIndependence
import Roster.Proofs.ArtifactStore
import Roster.Proofs.Collecting
import Roster.Proofs.ConfigurationFaults
import Roster.Proofs.SharedArtifacts
import Roster.Proofs.NameMatching
import Roster.Proofs.Anchoring
import Roster.Proofs.BuiltInExclusion
import Roster.Proofs.CalmScan
import Roster.Proofs.PlainTree
import Roster.Proofs.FilledFolder
import Roster.Proofs.Rediscovery
import Roster.Proofs.PoolRestarts
import Roster.Proofs.FinderCalls
import Roster.Proofs.FailedWrite
import Roster.Proofs.FirstFault
import Roster.Proofs.AddedInterfaces
import Roster.Proofs.LocalIndex
