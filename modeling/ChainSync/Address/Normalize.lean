import ChainSync.Address.HostPort
import ChainSync.Address.Ipv6

/-!
# Address Normalisation

Adding the default port to an address that has none.

An address that carries a port is kept. Otherwise the port is added and the
result must be an address again; a bare host with colons in it is only taken
when it is an IPv6 literal, zone or not, because anything else is more likely
a port too many. When adding the port does not help, the fault reported is the
one of the address as it was given.

## Main definitions

* `Address.normalize`: The address with a port, or why not.
-/

namespace ChainSync.Address

/-- Whether a host is an IPv6 literal, leaving out a zone behind `%`. -/
def isIpv6Host (host : String) : Bool :=
  isIpv6 (host.toList.takeWhile (· ≠ '%'))

/-- The address with a port: its own, or else the default one. -/
def normalize (address defaultPort : String) : Except Error String :=
  match split address with
  | .ok parts => .ok (join parts.host parts.port)
  | .error error =>
    let candidate := join address defaultPort
    match split candidate with
    | .ok parts =>
      if ':' ∈ parts.host.toList ∧ ¬ isIpv6Host parts.host then .error error else .ok candidate
    | .error _ => .error error

end ChainSync.Address
