/-
Outbound connections: which addresses the policy lets through, and the dialer.

An address is IPv4 or IPv6, and an IPv4-mapped IPv6 address counts as the IPv4
address it carries.  The dialer asks the resolver once and connects to the addresses
of that answer themselves, so a name that resolves differently later is no matter.
-/
import Mathlib

namespace LiteAIG.Egress

inductive IP
  | v4 (bits : BitVec 32)
  | v6 (bits : BitVec 128)
  deriving DecidableEq

/-- `IP.To4`. -/
def IP.to4 : IP → Option (BitVec 32)
  | .v4 bits => some bits
  | .v6 bits => if bits >>> 32 = 0xffff then some (bits.setWidth 32) else none

/-- A network: its address, and how many bits of it count. -/
structure CIDR where
  ip : IP
  ones : Nat

/-- `IPNet.Contains`.  The networks in use are not IPv4-mapped ones. -/
def CIDR.contains (n : CIDR) (ip : IP) : Bool :=
  match n.ip, ip.to4, ip with
  | .v4 net, some bits, _ => bits >>> (32 - n.ones) = net >>> (32 - n.ones)
  | .v6 net, none, .v6 bits => bits >>> (128 - n.ones) = net >>> (128 - n.ones)
  | _, _, _ => false

def v4Net (a b : Nat) (ones : Nat) : CIDR := ⟨.v4 (BitVec.ofNat 32 (a * 2 ^ 24 + b * 2 ^ 16)), ones⟩

/-- The network of an IPv6 address with these first sixteen bits. -/
def v6Net (head : Nat) (ones : Nat) : CIDR := ⟨.v6 (BitVec.ofNat 128 (head * 2 ^ 112)), ones⟩

def loopback : List CIDR := [v4Net 127 0 8, ⟨.v6 1, 128⟩]

def deniedCIDRs : List CIDR :=
  [v4Net 10 0 8, v4Net 172 16 12, v4Net 192 168 16, v4Net 100 64 10, v4Net 169 254 16] ++
    loopback ++
    [v6Net 0xfc00 7, v6Net 0xfe80 10, v6Net 0 128]

/-- An address of one of the networks. -/
def within (nets : List CIDR) (ip : IP) : Bool := nets.any (·.contains ip)

structure Policy where
  allowLoopback : Bool
  allowCIDRs : List CIDR

def Policy.allowIP (p : Policy) (ip : IP) : Bool :=
  if p.allowLoopback ∧ within loopback ip then true
  else if within p.allowCIDRs ip then true
  else !within deniedCIDRs ip

inductive DialError
  | unsupportedNetwork (network : String)
  | splitHostPort (err : String)
  | lookup (err : String)
  | notAllowed (ip : IP) (host : String)
  | dial (err : String)
  | noAddresses
  deriving DecidableEq

/-- Try the addresses in order.  One that is not allowed ends it. -/
def Policy.dialEach (p : Policy) (host : String) (dial : IP → Option String) :
    List IP → DialError → Except DialError IP
  | [], lastErr => .error lastErr
  | ip :: rest, _ =>
    if p.allowIP ip then
      match dial ip with
      | none => .ok ip
      | some err => p.dialEach host dial rest (.dial err)
    else .error (.notAllowed ip host)

/-- `DialContext`: the address of the connection that was opened.  The host is what
`SplitHostPort` made of the address, `answer` what the resolver returns for it, and `dial` how
connecting fails. -/
def Policy.dialContext (p : Policy) (network : String) (host : Except String String)
    (answer : String → Except String (List IP)) (dial : IP → Option String) :
      Except DialError IP := do
  if network ∉ ["tcp", "tcp4", "tcp6"] then throw (.unsupportedNetwork network)
  let host ← host.mapError .splitHostPort
  let ips ← (answer host).mapError .lookup
  p.dialEach host dial ips .noAddresses

end LiteAIG.Egress
