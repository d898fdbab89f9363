import PeerFinder.Announcement
import PeerFinder.Config.Load
import PeerFinder.Config.Parts
import PeerFinder.Coordinator.Assembly
import PeerFinder.Record.Codec
import PeerFinder.Rendezvous.Service
import PeerFinder.Seed.Service
import PeerFinder.Simulation.Setup
import PeerFinder.Proofs.Rendezvous.Contention
import PeerFinder.Proofs.Rendezvous.Visibility
import PeerFinder.Proofs.Coordinator.Cancellation
import PeerFinder.Proofs.Coordinator.Announcements
import PeerFinder.Proofs.Seed.Dialing
import PeerFinder.Proofs.Seed.Watching
import PeerFinder.Proofs.Environment.Deadlines
import PeerFinder.Proofs.Record.Truncation
import PeerFinder.Proofs.PeerStore.History
import PeerFinder.Proofs.Coordinator.Dials
import PeerFinder.Proofs.Coordinator.Sweeps
import PeerFinder.Proofs.Coordinator.Restarts
import PeerFinder.Proofs.Scope.Waiting
import PeerFinder.Proofs.LocalNet.Repeats
import PeerFinder.Proofs.PeerStore.Order
import PeerFinder.Proofs.Seed.Shutdown
import PeerFinder.Proofs.Environment.Turns
import PeerFinder.Proofs.Coordinator.Collections
import PeerFinder.Proofs.Seed.Isolation
import PeerFinder.Proofs.PeerStore.Accounts
import PeerFinder.Proofs.Record.Canonical
import PeerFinder.Proofs.Rendezvous.Timely
import PeerFinder.Proofs.Coordinator.Timers
import PeerFinder.Proofs.LocalNet.Texts
import PeerFinder.Proofs.Rendezvous.Republishing
import PeerFinder.Proofs.PeerStore.Retention
import PeerFinder.Proofs.PeerStore.Eviction
import PeerFinder.Proofs.Seed.Retries
import PeerFinder.Proofs.Config.RoundTrip
import PeerFinder.Proofs.Config.Saving
import PeerFinder.Proofs.Coordinator.Findings
import PeerFinder.Proofs.Rendezvous.Minutes
import PeerFinder.Proofs.Rendezvous.Derivation
import PeerFinder.Proofs.Seed.Overrides
import PeerFinder.Proofs.Coordinator.Outcomes
