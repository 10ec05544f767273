import XtpRs.Net.Addr

/-!
# SOCKS5 UDP request header

`build_socks5_udp_packet` of `src/socks5.rs` puts the header `RSV RSV FRAG ATYP DST.ADDR DST.PORT`
in front of a payload. The address type is `0x01` for an IPv4 target, `0x04` for an IPv6 target
and `0x03` for a domain, whose length must fit the one-byte length field.
-/

namespace XtpRs

/-- `Socks5UdpTarget`. -/
inductive Socks5UdpTarget
  | ip (addr : SocketAddr)
  | domain (host : Str) (port : UInt16)
  deriving DecidableEq, Repr

/-- The header of `build_socks5_udp_packet` for an IP target. -/
def socks5UdpIpHeader : SocketAddr → Bytes
  | .v4 ip port => [0x00, 0x00, 0x00] ++ [0x01] ++ ip.octets ++ u16ToBeBytes port
  | .v6 ip port _ _ => [0x00, 0x00, 0x00] ++ [0x04] ++ ip.octets ++ u16ToBeBytes port

/-- `build_socks5_udp_packet`. -/
def buildSocks5UdpPacket (target : Socks5UdpTarget) (payload : Bytes) : Except String Bytes :=
  match target with
  | .ip addr => .ok (socks5UdpIpHeader addr ++ payload)
  | .domain host port =>
    if host.isEmpty || 255 < host.length then
      .error s!"invalid SOCKS5 UDP domain length: {host.length}"
    else
      .ok ([0x00, 0x00, 0x00] ++ [0x03] ++ [UInt8.ofNat host.length] ++ host ++
        u16ToBeBytes port ++ payload)

@[simp] theorem buildSocks5UdpPacket_ip (addr : SocketAddr) (payload : Bytes) :
    buildSocks5UdpPacket (.ip addr) payload = .ok (socks5UdpIpHeader addr ++ payload) :=
  rfl

end XtpRs
