import ChainSync.Estimate

/-!
# Networks

The networks a wallet can sync with.

## Main definitions

* `Network`: The networks.
* `Network.ofName?`: The network of a name.
-/

namespace ChainSync

/-- The networks a wallet can sync with. -/
inductive Network where
  | mainnet
  | testnet
  | simnet
  | regtest
deriving DecidableEq

namespace Network

/-- The label of a network. -/
def label : Network → String
  | mainnet => "mainnet"
  | testnet => "testnet"
  | simnet => "simnet"
  | regtest => "regtest"

/-- The name of a network in descriptions. -/
def title : Network → String
  | mainnet => "Mainnet"
  | testnet => "Testnet"
  | simnet => "Simnet"
  | regtest => "Regtest"

/-- The port peers of a network listen on. -/
def defaultPort : Network → String
  | mainnet => "9108"
  | testnet => "19108"
  | simnet => "18555"
  | regtest => "18655"

/-- Seconds between blocks. -/
def blockInterval (n : Network) : Int := Estimate.blockInterval n.label

/-- The network of a name; the test network also has its versioned name. -/
def ofName? : String → Option Network
  | "mainnet" => some mainnet
  | "testnet" => some testnet
  | "testnet3" => some testnet
  | "simnet" => some simnet
  | "regtest" => some regtest
  | _ => none

/-- The message shown for a name that is no network's. -/
def unknownMessage (name : String) : String := "Invalid network name: " ++ name

end Network

end ChainSync
