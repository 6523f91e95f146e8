import TickVault.Registry
import TickVault.Simulation
import TickVault.View.Frame
import TickVault.Proofs.Aggregates
import TickVault.Proofs.Backing
import TickVault.Proofs.Consistency
import TickVault.Proofs.Coverage
import TickVault.Proofs.Custody
import TickVault.Proofs.Exactness
import TickVault.Proofs.Faults
import TickVault.Proofs.Reduction
import TickVault.Proofs.Resumption
import TickVault.Proofs.Seating
import TickVault.Proofs.Solvency
import TickVault.Proofs.Confinement
import TickVault.Proofs.Tick.Agreement
import TickVault.Proofs.Tick.Dust
import TickVault.Proofs.Tick.Threshold
import TickVault.Proofs.Untouched
import TickVault.Proofs.Walk.Reach
import TickVault.Proofs.Safety
import TickVault.Proofs.Atomicity
import TickVault.Proofs.Clearing
import TickVault.Proofs.Conservation
import TickVault.Proofs.Fairness
import TickVault.Proofs.Index
import TickVault.Proofs.Loading
import TickVault.Proofs.Winding
import TickVault.Proofs.Search
import TickVault.Proofs.Branches.Chain
import TickVault.Proofs.Purchases
import TickVault.Proofs.Realization
import TickVault.Proofs.Wiping
import TickVault.Proofs.Simulation
