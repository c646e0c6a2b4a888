/-!
# Sync Phases

The phases a sync run goes through, and which may follow which.

Phases are ordered. A run moves forward only, it may leave out phases, and it
may fail from every phase that is not an end. The two ends are never left.

## Main definitions

* `Phase`: The phases, in order.
* `Phase.rank`: The place of a phase in the order.
* `Phase.canMoveTo`: Which phase may follow.

## Theorems

* `Phase.rank_lt_of_canMoveTo`: Every move goes up in rank.
-/

namespace ChainSync

/-- The phases of a sync run, in order. -/
inductive Phase where
  | idle
  | connectingPeers
  | fetchingMissingFilters
  | fetchingHeaders
  | discoveringAddresses
  | rescanning
  | synced
  | failed
deriving DecidableEq

namespace Phase

/-- All phases, in order. -/
def all : List Phase :=
  [idle, connectingPeers, fetchingMissingFilters, fetchingHeaders, discoveringAddresses,
    rescanning, synced, failed]

/-- The name shown to a user. -/
def title : Phase → String
  | idle => "Idle"
  | connectingPeers => "Connecting Peers"
  | fetchingMissingFilters => "Fetching Missing Filters"
  | fetchingHeaders => "Fetching Headers"
  | discoveringAddresses => "Discovering Addresses"
  | rescanning => "Rescanning"
  | synced => "Synced"
  | failed => "Failed"

/-- The name used in data. -/
def tag : Phase → String
  | idle => "Idle"
  | connectingPeers => "ConnectingPeers"
  | fetchingMissingFilters => "FetchingMissingFilters"
  | fetchingHeaders => "FetchingHeaders"
  | discoveringAddresses => "DiscoveringAddresses"
  | rescanning => "Rescanning"
  | synced => "Synced"
  | failed => "Failed"

/-- The phase with a given name in data. -/
def ofTag? (name : String) : Option Phase := all.find? fun p => p.tag = name

/-- The place of a phase in the order. -/
def rank : Phase → Nat
  | idle => 0
  | connectingPeers => 1
  | fetchingMissingFilters => 2
  | fetchingHeaders => 3
  | discoveringAddresses => 4
  | rescanning => 5
  | synced => 6
  | failed => 7

/-- Whether a run is over. -/
def isTerminal : Phase → Bool
  | synced => true
  | failed => true
  | _ => false

/-- Whether a run is under way. -/
def isSyncing : Phase → Bool
  | idle => false
  | synced => false
  | failed => false
  | _ => true

/-- Whether a run may move from one phase to another. -/
def canMoveTo (p next : Phase) : Bool :=
  !p.isTerminal && (next == failed || p.rank < next.rank)

/-- Every move goes up in rank, failing included. -/
theorem rank_lt_of_canMoveTo {p next : Phase} (h : p.canMoveTo next) : p.rank < next.rank := by
  cases p <;> cases next <;> simp_all [canMoveTo, isTerminal, rank]

end Phase

end ChainSync
