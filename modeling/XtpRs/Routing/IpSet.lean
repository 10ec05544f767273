import XtpRs.Net.Addr

/-!
# IP sets

The forced-IP sets of an `AppState` are `RTrieSet`s of the `iptrie` package: sets of network
prefixes that always contain the root prefix, of length zero. A lookup returns the longest prefix
of the set that matches the address, and membership is read off its length, as
`ipv4_trie_contains` and `ipv6_trie_contains` of `src/state.rs` do.

A prefix is the list of its leading bits.
-/

namespace XtpRs.Routing

/-- The bits of an octet, most significant first. -/
def octetBits (b : UInt8) : List Bool :=
  (List.range 8).map fun i => b.toNat.testBit (7 - i)

/-- The bits of an address. -/
def addrBits (octets : Bytes) : List Bool :=
  octets.flatMap octetBits

/-- `Ipv4Prefix` and `Ipv6Prefix`, by the leading bits. -/
abbrev IpPrefix := List Bool

/-- `Ipv4RTrieSet` and `Ipv6RTrieSet`: the prefixes besides the root. -/
structure RTrieSet where
  prefixes : List IpPrefix := []
  deriving DecidableEq, Repr

/-- `RTrieSet::lookup`: the longest matching prefix, which is the root if no other matches. -/
def RTrieSet.lookup (trie : RTrieSet) (addr : List Bool) : IpPrefix :=
  (trie.prefixes.filter fun p => p.isPrefixOf addr).foldl
    (fun best p => if best.length < p.length then p else best) []

/-- `ipv4_trie_contains`. -/
def ipv4TrieContains (trie : RTrieSet) (ip : Ipv4Addr) : Bool :=
  (trie.lookup (addrBits ip.octets)).length != 0

/-- `ipv6_trie_contains`. -/
def ipv6TrieContains (trie : RTrieSet) (ip : Ipv6Addr) : Bool :=
  (trie.lookup (addrBits ip.octets)).length != 0

/-- `is_must_direct_local_ipv4`. -/
def isMustDirectLocalIpv4 (ip : Ipv4Addr) : Bool :=
  ip.isLoopback || ip.isLinkLocal || ip.isBroadcast || ip.isUnspecified

/-- `is_must_direct_local_ipv6`. -/
def isMustDirectLocalIpv6 (ip : Ipv6Addr) : Bool :=
  ip.isLoopback || ip.isUnspecified || ip.isUnicastLinkLocal

/-- `is_must_direct_local_ip`. -/
def isMustDirectLocalIp : IpAddr → Bool
  | .v4 ip => isMustDirectLocalIpv4 ip
  | .v6 ip => isMustDirectLocalIpv6 ip

end XtpRs.Routing
