import EasiFlux.Lib.Codec
import EasiFlux.Proof.Submissions
import EasiFlux.Proof.Document
import EasiFlux.Proof.Unresolved
import EasiFlux.Proof.Lifetime
import EasiFlux.Proof.Completed
import EasiFlux.Proof.Reconfigure
import EasiFlux.Proof.Certainty
import EasiFlux.Proof.Recovery
import EasiFlux.Proof.KlineCompact
import EasiFlux.Proof.AccountMutations
import EasiFlux.Proof.TaskRuns
import EasiFlux.Proof.Recoveries
import EasiFlux.Proof.Generations
import EasiFlux.Proof.Leases
import EasiFlux.Proof.Display
import EasiFlux.Proof.Ownership
import EasiFlux.Proof.Versions
import EasiFlux.Proof.Admission
import EasiFlux.Proof.Calls
import EasiFlux.Proof.Deviation
import EasiFlux.Proof.Config
import EasiFlux.Proof.ChartState
import EasiFlux.Proof.PluginAnswers
import EasiFlux.Proof.Responses
import EasiFlux.Proof.KlineRange
import EasiFlux.Proof.Quantities
import EasiFlux.Proof.TradingDay
import EasiFlux.Proof.SourceIndex
import EasiFlux.Proof.Capacity
import EasiFlux.Proof.OwnershipDocuments
import EasiFlux.Proof.Manifest
import EasiFlux.Proof.DailyPnl
import EasiFlux.Proof.Sandbox
import EasiFlux.Proof.Workflow
import EasiFlux.Proof.Autosave
import EasiFlux.Proof.NotificationPages
