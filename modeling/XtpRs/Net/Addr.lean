import XtpRs.Lib.HashMap

/-!
# Addresses

The addresses of `std::net` as the repository uses them: IPv4 and IPv6 addresses by their octets,
socket addresses with the IPv6 flow label and scope id, which take part in the equality of
session keys and are not carried by SOCKS5.

Byte strings are lists of octets. A Rust `str` is the list of its UTF-8 bytes: every string
operation the repository applies to domains and hosts (trimming and splitting at `.`, ASCII
lowercasing, lengths, suffixes) acts on bytes.
-/

namespace XtpRs

/-- A byte string. -/
abbrev Bytes := List UInt8

/-- A Rust `str`, as its UTF-8 bytes. -/
abbrev Str := List UInt8

/-- `u16::to_be_bytes`. -/
def u16ToBeBytes (n : UInt16) : Bytes := [(n >>> 8).toUInt8, n.toUInt8]

/-- `std::net::Ipv4Addr`. -/
structure Ipv4Addr where
  a : UInt8
  b : UInt8
  c : UInt8
  d : UInt8
  deriving DecidableEq, Repr

namespace Ipv4Addr

def octets (ip : Ipv4Addr) : Bytes := [ip.a, ip.b, ip.c, ip.d]

def isLoopback (ip : Ipv4Addr) : Bool := ip.a == 127

def isLinkLocal (ip : Ipv4Addr) : Bool := ip.a == 169 && ip.b == 254

def isBroadcast (ip : Ipv4Addr) : Bool := ip == ⟨255, 255, 255, 255⟩

def isUnspecified (ip : Ipv4Addr) : Bool := ip == ⟨0, 0, 0, 0⟩

end Ipv4Addr

/-- `std::net::Ipv6Addr`, by its sixteen octets. -/
structure Ipv6Addr where
  octets : Bytes
  length_octets : octets.length = 16
  deriving DecidableEq, Repr

namespace Ipv6Addr

/-- The address with the given eight 16-bit segments, `Ipv6Addr::new`. -/
def new (s₀ s₁ s₂ s₃ s₄ s₅ s₆ s₇ : UInt16) : Ipv6Addr where
  octets := [s₀, s₁, s₂, s₃, s₄, s₅, s₆, s₇].flatMap u16ToBeBytes
  length_octets := rfl

def isLoopback (ip : Ipv6Addr) : Bool := ip == new 0 0 0 0 0 0 0 1

def isUnspecified (ip : Ipv6Addr) : Bool := ip == new 0 0 0 0 0 0 0 0

/-- `segments()[0] & 0xffc0 == 0xfe80`. -/
def isUnicastLinkLocal (ip : Ipv6Addr) : Bool :=
  ip.octets.getD 0 0 == 0xfe && (ip.octets.getD 1 0 &&& 0xc0) == 0x80

end Ipv6Addr

/-- `std::net::IpAddr`. -/
inductive IpAddr
  | v4 (ip : Ipv4Addr)
  | v6 (ip : Ipv6Addr)
  deriving DecidableEq, Repr

/-- `std::net::SocketAddr`. -/
inductive SocketAddr
  | v4 (ip : Ipv4Addr) (port : UInt16)
  | v6 (ip : Ipv6Addr) (port : UInt16) (flowinfo scopeId : UInt32)
  deriving DecidableEq, Repr

namespace SocketAddr

def ip : SocketAddr → IpAddr
  | v4 ip _ => .v4 ip
  | v6 ip _ _ _ => .v6 ip

def port : SocketAddr → UInt16
  | v4 _ port => port
  | v6 _ port _ _ => port

/-- `SocketAddr::new`. -/
def new (ip : IpAddr) (port : UInt16) : SocketAddr :=
  match ip with
  | .v4 ip => .v4 ip port
  | .v6 ip => .v6 ip port 0 0

/-- `SocketAddr::is_ipv6`. -/
def isIpv6 : SocketAddr → Bool
  | v4 _ _ => false
  | v6 _ _ _ _ => true

@[simp] theorem ip_new (ip : IpAddr) (port : UInt16) : (new ip port).ip = ip := by
  cases ip <;> rfl

@[simp] theorem port_new (ip : IpAddr) (port : UInt16) : (new ip port).port = port := by
  cases ip <;> rfl

end SocketAddr

end XtpRs
