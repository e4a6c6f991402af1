import LibreFirewall.NetHeaders

/-!
# Connected routes

The forwarding table of `routing/src/lib.rs`. The two fixed arrays with their
counts are the lists of configured entries, and the structure carries that they
fit, so a table that `fromSlices` would refuse cannot be built.
-/

namespace LibreFirewall.Routing

open NetHeaders

structure PortId where
  value : BitVec 8
deriving DecidableEq

structure Interface where
  port : PortId
  mac : MacAddress
  address : Ipv4Address
  prefixLength : ℕ
  enabled : Bool

namespace Interface

def covers (self : Interface) (destination : Ipv4Address) : Bool :=
  destination.sharesPrefix self.address self.prefixLength

/-- The strict order of the key a route is chosen by: the longest prefix, then the
lowest port, address and MAC. -/
def isPreferredTo (self other : Interface) : Bool :=
  if self.prefixLength ≠ other.prefixLength then other.prefixLength < self.prefixLength
  else if self.port ≠ other.port then self.port.value < other.port.value
  else if self.address ≠ other.address then self.address.bits < other.address.bits
  else self.mac.octets.toList < other.mac.octets.toList

end Interface

structure Neighbour where
  port : PortId
  address : Ipv4Address
  mac : MacAddress

inductive CapacityError where
  | interfaces (requested capacity : ℕ)
  | neighbours (requested capacity : ℕ)

structure Router (maxInterfaces maxNeighbours : ℕ) where
  interfaces : List Interface
  neighbours : List Neighbour
  interfaces_fit : interfaces.length ≤ maxInterfaces
  neighbours_fit : neighbours.length ≤ maxNeighbours

namespace Router

variable {maxInterfaces maxNeighbours : ℕ}

def fromSlices (interfaces : List Interface) (neighbours : List Neighbour) :
    Except CapacityError (Router maxInterfaces maxNeighbours) :=
  if hi : interfaces.length ≤ maxInterfaces then
    if hn : neighbours.length ≤ maxNeighbours then .ok ⟨interfaces,neighbours,hi,hn⟩
    else .error (.neighbours neighbours.length maxNeighbours)
  else .error (.interfaces interfaces.length maxInterfaces)

def interface (self : Router maxInterfaces maxNeighbours) (port : PortId) :
    Option Interface :=
  self.interfaces.find? (·.port = port)

/-- `min_by_key`: the first of the least entries. -/
def preferred : List Interface → Option Interface
  | [] => none
  | entry::entries =>
    some (entries.foldl (fun best entry => if entry.isPreferredTo best then entry else best)
      entry)

def route (self : Router maxInterfaces maxNeighbours) (destination : Ipv4Address) :
    Option Interface :=
  preferred (self.interfaces.filter fun entry =>
    entry.enabled && decide (0 < entry.prefixLength) && entry.covers destination)

def neighbour (self : Router maxInterfaces maxNeighbours) (port : PortId)
    (address : Ipv4Address) : Option Neighbour :=
  self.neighbours.find? fun entry => entry.port = port && entry.address = address

def isLocalAddress (self : Router maxInterfaces maxNeighbours) (address : Ipv4Address) :
    Bool :=
  self.interfaces.any (·.address = address)

end Router

end LibreFirewall.Routing
